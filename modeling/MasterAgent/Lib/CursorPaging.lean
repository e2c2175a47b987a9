/-
  MasterAgent.Lib.CursorPaging

  Paging by a cursor on a key: entries come newest first and those without a key
  last, a page is the first `limit` of them, and the next page starts strictly
  below the key of the last entry.  Such pages are complete exactly when no page
  ends inside a group of equal keys.
-/

import Mathlib.Data.List.Basic
import Mathlib.Data.List.Pairwise

namespace MasterAgent.CursorPaging

variable {α : Type} (key : α → Option Nat)

/-- Newest first, entries without a key last. -/
def Ahead (a b : α) : Prop := ∀ y, key b = some y → ∃ x, key a = some x ∧ y ≤ x

/-- A way to arrange entries; those with equal keys in any order. -/
structure Sorting where
  sort : List α → List α
  perm : ∀ as, (sort as).Perm as
  sorted : ∀ as, (sort as).Pairwise (Ahead key)

/-- Strictly below the cursor `t`; an entry without a key is not. -/
def older (t : Nat) (a : α) : Bool := (key a).any (· < t)

/-- How many entries have a key above `t`. -/
def newer (t : Nat) (as : List α) : Nat := as.countP fun a => (key a).any (t < ·)

/-- How many entries have the key `t` or one above it. -/
def notOlder (t : Nat) (as : List α) : Nat := as.countP fun a => (key a).any (t ≤ ·)

/-- Each entry has a key, and no page ends inside a group of equal keys. -/
structure Apart (limit : Nat) (as : List α) : Prop where
  keyed : ∀ a ∈ as, key a ≠ none
  apart : ∀ t j, ¬ (newer key t as < j * limit ∧ j * limit < notOlder key t as)

variable {key}

theorem older_eq_true {t : Nat} {a : α} : older key t a = true ↔ ∃ y, key a = some y ∧ y < t := by
  cases h : key a <;> simp [older, h]

theorem mem_of_getLast?_take {limit : Nat} {as : List α} {a : α}
    (h : (as.take limit).getLast? = some a) : a ∈ as :=
  List.mem_of_mem_take (List.mem_of_getLast? h)

/-- The entry at the cursor is not below it. -/
theorem length_filter_older_lt {t : Nat} {as : List α} {a : α} (ha : a ∈ as)
    (hk : key a = some t) : (as.filter (older key t)).length < as.length := by
  rw [List.length_filter_lt_length_iff_exists]
  exact ⟨a, ha, by simp [older, hk]⟩

/-- The pages, one behind the other. -/
def pagesOf (s : Sorting key) (limit : Nat) (as : List α) : List α :=
  match _hlast : ((s.sort as).take limit).getLast? with
  | none => []
  | some a => match _hk : key a with
    | none => (s.sort as).take limit
    | some t => (s.sort as).take limit ++ pagesOf s limit (as.filter (older key t))
termination_by as.length
decreasing_by
  have hlt := length_filter_older_lt ((s.perm as).mem_iff.mp (mem_of_getLast?_take _hlast)) _hk
  simpa using hlt

section Pages

variable {s : Sorting key} {limit : Nat} {as : List α}

theorem pagesOf_of_none (h : ((s.sort as).take limit).getLast? = none) :
    pagesOf s limit as = [] := by
  rw [pagesOf]
  split
  · rfl
  · rename_i a ha
    rw [h] at ha
    cases ha

theorem pagesOf_of_unkeyed {a : α} (h : ((s.sort as).take limit).getLast? = some a)
    (hk : key a = none) : pagesOf s limit as = (s.sort as).take limit := by
  rw [pagesOf]
  split
  · rename_i hnone
    rw [h] at hnone
    cases hnone
  · rename_i a' ha'
    obtain rfl := Option.some.inj (h.symm.trans ha')
    split
    · rfl
    · rename_i t ht
      rw [hk] at ht
      cases ht

theorem pagesOf_of_key {a : α} {t : Nat} (h : ((s.sort as).take limit).getLast? = some a)
    (hk : key a = some t) :
    pagesOf s limit as = (s.sort as).take limit ++ pagesOf s limit (as.filter (older key t)) := by
  rw [pagesOf]
  split
  · rename_i hnone
    rw [h] at hnone
    cases hnone
  · rename_i a' ha'
    obtain rfl := Option.some.inj (h.symm.trans ha')
    split
    · rename_i hnone
      rw [hk] at hnone
      cases hnone
    · rename_i t' ht'
      obtain rfl := Option.some.inj (hk.symm.trans ht')
      rfl

/-- The pages show entries only. -/
theorem mem_pagesOf {x : α} (hx : x ∈ pagesOf s limit as) : x ∈ as := by
  induction hn : as.length using Nat.strongRecOn generalizing as with
  | ind n ih =>
      have hpage : ∀ {y}, y ∈ (s.sort as).take limit → y ∈ as :=
        fun hy => (s.perm as).mem_iff.mp (List.mem_of_mem_take hy)
      cases hlast : ((s.sort as).take limit).getLast? with
      | none =>
          rw [pagesOf_of_none hlast] at hx
          cases hx
      | some a =>
          cases hk : key a with
          | none =>
              rw [pagesOf_of_unkeyed hlast hk] at hx
              exact hpage hx
          | some t =>
              rw [pagesOf_of_key hlast hk] at hx
              rcases List.mem_append.mp hx with hx | hx
              · exact hpage hx
              · have ha : a ∈ as := hpage (List.mem_of_getLast? hlast)
                have hshort : (as.filter (older key t)).length < n := by
                  rw [← hn]
                  exact length_filter_older_lt ha hk
                exact List.mem_of_mem_filter (ih _ hshort hx rfl)

/-- Nothing in front of the last entry of a page is older. -/
theorem key_of_page {a x : α} {t : Nat} (h : ((s.sort as).take limit).getLast? = some a)
    (hk : key a = some t) (hx : x ∈ (s.sort as).take limit) : ∃ y, key x = some y ∧ t ≤ y := by
  obtain ⟨front, hsplit⟩ := List.getLast?_eq_some_iff.mp h
  have hsorted : ((s.sort as).take limit).Pairwise (Ahead key) :=
    (s.sorted as).sublist (List.take_sublist limit _)
  rw [hsplit, List.pairwise_append] at hsorted
  rw [hsplit, List.mem_append, List.mem_singleton] at hx
  rcases hx with hx | rfl
  · exact hsorted.2.2 x hx a List.mem_cons_self t hk
  · exact ⟨t, hk, Nat.le_refl t⟩

/-- A single page shows everything. -/
theorem pagesOf_of_length_le (h : as.length ≤ limit) : pagesOf s limit as = s.sort as := by
  have htake : (s.sort as).take limit = s.sort as :=
    List.take_of_length_le ((s.perm as).length_eq ▸ h)
  cases hlast : ((s.sort as).take limit).getLast? with
  | none =>
      rw [pagesOf_of_none hlast, ← htake, List.getLast?_eq_none_iff.mp hlast]
  | some a =>
      cases hk : key a with
      | none => rw [pagesOf_of_unkeyed hlast hk, htake]
      | some t =>
          have hnone : as.filter (older key t) = [] := by
            refine List.filter_eq_nil_iff.mpr fun x hx hold => ?_
            have hmem : x ∈ (s.sort as).take limit := htake.symm ▸ (s.perm as).mem_iff.mpr hx
            obtain ⟨y, hy, hle⟩ := key_of_page hlast hk hmem
            obtain ⟨y', hy', hlt⟩ := older_eq_true.mp hold
            obtain rfl := Option.some.inj (hy.symm.trans hy')
            omega
          have hempty : pagesOf s limit ([] : List α) = [] := by
            refine List.eq_nil_iff_forall_not_mem.mpr fun x hx => ?_
            exact absurd (mem_pagesOf hx) List.not_mem_nil
          rw [pagesOf_of_key hlast hk, hnone, hempty, List.append_nil, htake]

-- ============================================================================
-- Counting
-- ============================================================================

theorem newer_append (t : Nat) (as bs : List α) :
    newer key t (as ++ bs) = newer key t as + newer key t bs :=
  List.countP_append

theorem notOlder_append (t : Nat) (as bs : List α) :
    notOlder key t (as ++ bs) = notOlder key t as + notOlder key t bs :=
  List.countP_append

/-- No page boundary is in a group within one page. -/
theorem not_between_of_notOlder_le {t j : Nat} (h : notOlder key t as ≤ limit) :
    ¬ (newer key t as < j * limit ∧ j * limit < notOlder key t as) := by
  rintro ⟨hlow, hhigh⟩
  cases j with
  | zero => omega
  | succ j =>
      rw [Nat.succ_mul] at hhigh
      omega

theorem notOlder_le_length (t : Nat) (as : List α) : notOlder key t as ≤ as.length :=
  List.countP_le_length

/-- Entries that are all below `t` count for no later time. -/
theorem notOlder_of_older {t t' : Nat} (h : ∀ a ∈ as, older key t a = true) (hle : t ≤ t') :
    notOlder key t' as = 0 := by
  refine List.countP_eq_zero.mpr fun a ha hcount => ?_
  obtain ⟨y, hy, hlt⟩ := older_eq_true.mp (h a ha)
  rw [hy] at hcount
  simp only [Option.any_some, decide_eq_true_eq] at hcount
  omega

/-- Entries at `t` or above all count for earlier times. -/
theorem newer_of_key_le {t t' : Nat} (h : ∀ a ∈ as, ∃ y, key a = some y ∧ t ≤ y) (hlt : t' < t) :
    newer key t' as = as.length ∧ notOlder key t' as = as.length := by
  constructor
  · refine List.countP_eq_length.mpr fun a ha => ?_
    obtain ⟨y, hy, hle⟩ := h a ha
    simp only [hy, Option.any_some, decide_eq_true_eq]
    omega
  · refine List.countP_eq_length.mpr fun a ha => ?_
    obtain ⟨y, hy, hle⟩ := h a ha
    simp only [hy, Option.any_some, decide_eq_true_eq]
    omega

-- ============================================================================
-- Complete pages
-- ============================================================================

/-- Behind a full page whose last key is `t`, no group goes on. -/
theorem older_behind_page {page rest : List α} {a : α} {t : Nat} (hlen : page.length = limit)
    (hpage : ∀ x ∈ page, ∃ y, key x = some y ∧ t ≤ y) (ha : a ∈ page) (hk : key a = some t)
    (hahead : ∀ x ∈ rest, Ahead key a x) (h : Apart key limit (page ++ rest)) :
    ∀ x ∈ rest, older key t x = true := by
  have hall : notOlder key t page = limit := by
    rw [← hlen]
    refine List.countP_eq_length.mpr fun x hx => ?_
    obtain ⟨y, hy, hle⟩ := hpage x hx
    simp only [hy, Option.any_some, decide_eq_true_eq]
    exact hle
  have hbelow : ∀ x ∈ rest, ∃ y, key x = some y ∧ y ≤ t := by
    intro x hx
    obtain ⟨y, hy⟩ := Option.ne_none_iff_exists'.mp (h.keyed x (List.mem_append_right _ hx))
    obtain ⟨t', ht', hle⟩ := hahead x hx y hy
    obtain rfl := Option.some.inj (hk.symm.trans ht')
    exact ⟨y, hy, hle⟩
  have hnewer : newer key t (page ++ rest) < limit := by
    have hrest : newer key t rest = 0 := by
      refine List.countP_eq_zero.mpr fun x hx hcount => ?_
      obtain ⟨y, hy, hle⟩ := hbelow x hx
      rw [hy] at hcount
      simp only [Option.any_some, decide_eq_true_eq] at hcount
      omega
    -- the last entry of the page is not newer than itself
    have hlast : newer key t page < page.length := by
      refine Nat.lt_of_le_of_ne List.countP_le_length fun hcount => ?_
      have hself := List.countP_eq_length.mp hcount a ha
      simp [hk] at hself
    rw [newer_append, hrest]
    omega
  intro x hx
  obtain ⟨y, hy, hle⟩ := hbelow x hx
  refine older_eq_true.mpr ⟨y, hy, ?_⟩
  by_contra hge
  have hat : 0 < notOlder key t rest := by
    refine List.countP_pos_iff.mpr ⟨x, hx, ?_⟩
    simp only [hy, Option.any_some, decide_eq_true_eq]
    omega
  refine h.apart t 1 ⟨by omega, ?_⟩
  rw [notOlder_append, hall]
  omega

/-- One page more: what comes behind it starts a new group, and the pages below
    its last key are apart again. -/
theorem apart_append_iff {page rest : List α} {a : α} {t : Nat} (hlen : page.length = limit)
    (hpage : ∀ x ∈ page, ∃ y, key x = some y ∧ t ≤ y) (ha : a ∈ page) (hk : key a = some t)
    (hahead : ∀ x ∈ rest, Ahead key a x) :
    Apart key limit (page ++ rest) ↔
      (∀ x ∈ rest, older key t x = true) ∧ (rest.length ≤ limit ∨ Apart key limit rest) := by
  constructor
  · intro h
    have hrest := older_behind_page hlen hpage ha hk hahead h
    refine ⟨hrest, .inr ⟨fun x hx => h.keyed x (List.mem_append_right _ hx), ?_⟩⟩
    intro t' j hbetween
    by_cases hlt : t' < t
    · obtain ⟨hnew, hnot⟩ := newer_of_key_le hpage hlt
      refine h.apart t' (j + 1) ?_
      rw [newer_append, notOlder_append, hnew, hnot, hlen, Nat.succ_mul]
      omega
    · rw [notOlder_of_older hrest (Nat.le_of_not_lt hlt)] at hbetween
      omega
  · rintro ⟨hrest, happart⟩
    constructor
    · intro x hx
      rcases List.mem_append.mp hx with hx | hx
      · obtain ⟨y, hy, -⟩ := hpage x hx
        rw [hy]
        exact Option.some_ne_none y
      · obtain ⟨y, hy, -⟩ := older_eq_true.mp (hrest x hx)
        rw [hy]
        exact Option.some_ne_none y
    · intro t' j
      by_cases hlt : t' < t
      · obtain ⟨hnew, hnot⟩ := newer_of_key_le hpage hlt
        have hbehind : ¬ (newer key t' rest < (j - 1) * limit ∧
            (j - 1) * limit < notOlder key t' rest) := by
          rcases happart with hshort | happart
          · exact not_between_of_notOlder_le (Nat.le_trans (notOlder_le_length t' rest) hshort)
          · exact happart.apart t' (j - 1)
        rintro ⟨hlow, hhigh⟩
        rw [newer_append, hnew, hlen] at hlow
        rw [notOlder_append, hnot, hlen] at hhigh
        cases j with
        | zero => omega
        | succ j =>
            rw [Nat.succ_mul] at hlow hhigh
            rw [Nat.add_sub_cancel] at hbehind
            omega
      · refine not_between_of_notOlder_le ?_
        rw [notOlder_append, notOlder_of_older hrest (Nat.le_of_not_lt hlt), Nat.add_zero, ← hlen]
        exact notOlder_le_length t' page

theorem Apart.perm {as bs : List α} (h : as.Perm bs) :
    Apart key limit as ↔ Apart key limit bs := by
  have hforth : ∀ {as bs : List α}, as.Perm bs → Apart key limit as → Apart key limit bs := by
    intro as bs h hapart
    refine ⟨fun x hx => hapart.keyed x (h.mem_iff.mpr hx), fun t j => ?_⟩
    have hat := hapart.apart t j
    rwa [newer, notOlder, h.countP_eq, h.countP_eq] at hat
  exact ⟨hforth h, hforth h.symm⟩

/-- The pages show each entry once exactly when there is one page, or no page ends
    inside a group of equal keys. -/
theorem perm_pagesOf_iff (hlimit : 0 < limit) :
    (pagesOf s limit as).Perm as ↔ as.length ≤ limit ∨ Apart key limit as := by
  induction hn : as.length using Nat.strongRecOn generalizing as with
  | ind n ih =>
      by_cases hshort : as.length ≤ limit
      · rw [pagesOf_of_length_le hshort]
        exact iff_of_true (s.perm as) (.inl (hn ▸ hshort))
      · rw [or_iff_right fun hle => hshort (hn ▸ hle)]
        have hsplit := List.take_append_drop limit (s.sort as)
        have hperm : ((s.sort as).take limit ++ (s.sort as).drop limit).Perm as := by
          rw [hsplit]
          exact s.perm as
        have hlen : ((s.sort as).take limit).length = limit := by
          rw [List.length_take, (s.perm as).length_eq]
          omega
        obtain ⟨a, hlast⟩ : ∃ a, ((s.sort as).take limit).getLast? = some a :=
          Option.isSome_iff_exists.mp (List.getLast?_isSome.mpr fun hnil => by
            rw [hnil, List.length_nil] at hlen
            omega)
        have ha : a ∈ (s.sort as).take limit := List.mem_of_getLast? hlast
        cases hk : key a with
        | none =>
            -- the page ends among the entries without a key, and so do the pages
            rw [pagesOf_of_unkeyed hlast hk]
            refine iff_of_false (fun h => hshort ?_) fun h => ?_
            · exact Nat.le_of_eq (h.length_eq.symm.trans hlen)
            · exact h.keyed a (hperm.mem_iff.mp (List.mem_append_left _ ha)) hk
        | some t =>
            have hpage := fun x => @key_of_page α key s limit as a x t hlast hk
            have hahead : ∀ x ∈ (s.sort as).drop limit, Ahead key a x := by
              have hsorted := s.sorted as
              rw [← hsplit, List.pairwise_append] at hsorted
              exact fun x hx => hsorted.2.2 a ha x hx
            have hfilter : (as.filter (older key t)).Perm
                (((s.sort as).drop limit).filter (older key t)) := by
              have hnone : ((s.sort as).take limit).filter (older key t) = [] := by
                refine List.filter_eq_nil_iff.mpr fun x hx hold => ?_
                obtain ⟨y, hy, hle⟩ := hpage x hx
                obtain ⟨y', hy', hlt⟩ := older_eq_true.mp hold
                obtain rfl := Option.some.inj (hy.symm.trans hy')
                omega
              have hboth := hperm.symm.filter (older key t)
              rwa [List.filter_append, hnone, List.nil_append] at hboth
            have hshorter : (as.filter (older key t)).length < n :=
              hn ▸ length_filter_older_lt (hperm.mem_iff.mp (List.mem_append_left _ ha)) hk
            have hih := ih _ hshorter rfl
            rw [pagesOf_of_key hlast hk, ← Apart.perm hperm,
              apart_append_iff hlen hpage ha hk hahead]
            constructor
            · intro h
              have hbehind : (pagesOf s limit (as.filter (older key t))).Perm
                  ((s.sort as).drop limit) :=
                (List.perm_append_left_iff _).mp (h.trans hperm.symm)
              have hold : ∀ x ∈ (s.sort as).drop limit, older key t x = true :=
                fun x hx => List.of_mem_filter (mem_pagesOf (hbehind.mem_iff.mpr hx))
              rw [List.filter_eq_self.mpr hold] at hfilter
              refine ⟨hold, ?_⟩
              rw [← hfilter.length_eq, ← Apart.perm hfilter]
              exact hih.mp (hbehind.trans hfilter.symm)
            · rintro ⟨hold, hrest⟩
              rw [List.filter_eq_self.mpr hold] at hfilter
              rw [← hfilter.length_eq, ← Apart.perm hfilter] at hrest
              exact (((hih.mpr hrest).trans hfilter).append_left _).trans hperm

-- ============================================================================
-- Distinct keys
-- ============================================================================

/-- Has a key. -/
def keyed (key : α → Option Nat) (a : α) : Bool := (key a).isSome

theorem keyed_eq_true {a : α} : keyed key a = true ↔ ∃ t, key a = some t :=
  Option.isSome_iff_exists

/-- In order, those with a key are in front. -/
theorem filter_keyed_eq_take {l : List α} (h : l.Pairwise (Ahead key)) :
    l.filter (keyed key) = l.take (l.countP (keyed key)) := by
  induction l with
  | nil => rfl
  | cons a l ih =>
      obtain ⟨ha, hl⟩ := List.pairwise_cons.mp h
      by_cases hk : keyed key a = true
      · rw [List.filter_cons_of_pos hk, List.countP_cons_of_pos hk, List.take_succ_cons, ih hl]
      · have hnone : ∀ x ∈ l, ¬ keyed key x = true := by
          intro x hx hkx
          obtain ⟨y, hy⟩ := keyed_eq_true.mp hkx
          obtain ⟨t, ht, -⟩ := ha x hx y hy
          exact hk (keyed_eq_true.mpr ⟨t, ht⟩)
        rw [List.filter_cons_of_neg hk, List.countP_cons_of_neg hk,
          List.filter_eq_nil_iff.mpr hnone, List.countP_eq_zero.mpr hnone, List.take_zero]

/-- No two entries have the same key. -/
def Distinct (key : α → Option Nat) (as : List α) : Prop :=
  as.Pairwise fun a b => ∀ t, key a = some t → key b ≠ some t

theorem Distinct.perm {as bs : List α} (h : Distinct key as) (hperm : as.Perm bs) :
    Distinct key bs :=
  hperm.pairwise h fun {_ _} hab t hb ha => hab t ha hb

/-- Where all have keys, and distinct ones, there is one arrangement. -/
theorem sort_eq_of_distinct {l : List α} (hperm : as.Perm l) (hsorted : l.Pairwise (Ahead key))
    (hkeyed : ∀ a ∈ l, keyed key a = true) (h : Distinct key l) : s.sort as = l := by
  refine List.Perm.eq_of_pairwise (fun a b ha hb hab hba => ?_) (s.sorted as) hsorted
    ((s.perm as).trans hperm)
  by_contra hne
  have ha : a ∈ l := hperm.mem_iff.mp ((s.perm as).mem_iff.mp ha)
  obtain ⟨x, hx⟩ := keyed_eq_true.mp (hkeyed a ha)
  obtain ⟨y, hy, hle⟩ := hba x hx
  obtain ⟨x', hx', hle'⟩ := hab y hy
  obtain rfl := Option.some.inj (hx.symm.trans hx')
  obtain rfl : x = y := by omega
  have hsymm : Std.Symm fun a b => ∀ t, key a = some t → key b ≠ some t :=
    ⟨fun _ _ hab t hb ha => hab t ha hb⟩
  exact List.Pairwise.forall h ha hb hne x hx hy

/-- The entries below the last key of a page are those with a key that come behind
    it. -/
theorem filter_older_perm {a : α} {t : Nat} (hlast : ((s.sort as).take limit).getLast? = some a)
    (hk : key a = some t) (h : Distinct key as) :
    (as.filter (older key t)).Perm (((s.sort as).drop limit).filter (keyed key)) := by
  have hsorted := s.sorted as
  have hdistinct := h.perm (s.perm as).symm
  have hperm := s.perm as
  have ha := List.mem_of_getLast? hlast
  have hpage := fun x => @key_of_page α key s limit as a x t hlast hk
  rw [← List.take_append_drop limit (s.sort as)] at hsorted hdistinct hperm
  have hnone : ((s.sort as).take limit).filter (older key t) = [] := by
    refine List.filter_eq_nil_iff.mpr fun x hx hold => ?_
    obtain ⟨y, hy, hle⟩ := hpage x hx
    obtain ⟨y', hy', hlt⟩ := older_eq_true.mp hold
    obtain rfl := Option.some.inj (hy.symm.trans hy')
    omega
  have hrest : ((s.sort as).drop limit).filter (older key t) =
      ((s.sort as).drop limit).filter (keyed key) := by
    refine List.filter_congr fun x hx => Bool.eq_iff_iff.mpr ?_
    rw [older_eq_true, keyed_eq_true]
    constructor
    · rintro ⟨y, hy, -⟩
      exact ⟨y, hy⟩
    · rintro ⟨y, hy⟩
      obtain ⟨t', ht', hle⟩ := (List.pairwise_append.mp hsorted).2.2 a ha x hx y hy
      obtain rfl := Option.some.inj (hk.symm.trans ht')
      have hne : y ≠ t := fun heq =>
        (List.pairwise_append.mp hdistinct).2.2 a ha x hx t hk (heq ▸ hy)
      exact ⟨y, hy, by omega⟩
  have hboth := hperm.symm.filter (older key t)
  rwa [List.filter_append, hnone, List.nil_append, hrest] at hboth

/-- With distinct keys the pages are the whole arrangement up to the end of the
    first page or to the last entry with a key, whichever comes later. -/
theorem pagesOf_of_distinct (hlimit : 0 < limit) (h : Distinct key as) :
    pagesOf s limit as = (s.sort as).take (max limit (as.countP (keyed key))) := by
  induction hn : as.length using Nat.strongRecOn generalizing as with
  | ind n ih =>
      have hcount : as.countP (keyed key) = ((s.sort as).take limit).countP (keyed key) +
          ((s.sort as).drop limit).countP (keyed key) := by
        rw [← List.countP_append, List.take_append_drop, (s.perm as).countP_eq]
      have hdrop : ((s.sort as).drop limit).Pairwise (Ahead key) :=
        (s.sorted as).sublist (List.drop_sublist _ _)
      cases hlast : ((s.sort as).take limit).getLast? with
      | none =>
          rw [pagesOf_of_none hlast]
          rw [List.getLast?_eq_none_iff, List.take_eq_nil_iff] at hlast
          rw [hlast.resolve_left (by omega), List.take_nil]
      | some a =>
          have ha : a ∈ (s.sort as).take limit := List.mem_of_getLast? hlast
          cases hk : key a with
          | none =>
              -- the entries with a key are on the page
              have hrest : ((s.sort as).drop limit).countP (keyed key) = 0 := by
                have hsorted := s.sorted as
                rw [← List.take_append_drop limit (s.sort as), List.pairwise_append] at hsorted
                refine List.countP_eq_zero.mpr fun x hx hkx => ?_
                obtain ⟨y, hy⟩ := keyed_eq_true.mp hkx
                obtain ⟨t, ht, -⟩ := hsorted.2.2 a ha x hx y hy
                rw [hk] at ht
                cases ht
              have hle : as.countP (keyed key) ≤ limit := by
                rw [hcount, hrest]
                exact Nat.le_trans List.countP_le_length (List.length_take_le _ _)
              rw [pagesOf_of_unkeyed hlast hk, Nat.max_eq_left hle]
          | some t =>
              have hpage : ((s.sort as).take limit).countP (keyed key) =
                  ((s.sort as).take limit).length := by
                refine List.countP_eq_length.mpr fun x hx => ?_
                obtain ⟨y, hy, -⟩ := key_of_page hlast hk hx
                exact keyed_eq_true.mpr ⟨y, hy⟩
              have hfilter := filter_older_perm hlast hk h
              have hall : ∀ x ∈ ((s.sort as).drop limit).filter (keyed key),
                  keyed key x = true := fun x hx => List.of_mem_filter hx
              have hsort : s.sort (as.filter (older key t)) =
                  ((s.sort as).drop limit).filter (keyed key) :=
                sort_eq_of_distinct hfilter (hdrop.filter _) hall
                  (((h.perm (s.perm as).symm).sublist (List.drop_sublist _ _)).filter _)
              have hshorter : (as.filter (older key t)).length < n :=
                hn ▸ length_filter_older_lt ((s.perm as).mem_iff.mp (List.mem_of_mem_take ha)) hk
              have hbehind : pagesOf s limit (as.filter (older key t)) =
                  ((s.sort as).drop limit).take (((s.sort as).drop limit).countP (keyed key)) := by
                rw [ih _ hshorter (List.Pairwise.filter _ h) rfl, hsort,
                  List.take_of_length_le, filter_keyed_eq_take hdrop]
                rw [hfilter.countP_eq, List.countP_eq_length.mpr hall]
                exact Nat.le_max_right _ _
              rw [pagesOf_of_key hlast hk, hbehind, hcount, hpage]
              by_cases hshort : (s.sort as).length ≤ limit
              · rw [List.drop_eq_nil_of_le hshort, List.take_nil, List.append_nil,
                  List.take_of_length_le hshort, List.take_of_length_le]
                omega
              · have hfull : ((s.sort as).take limit).length = limit := by
                  rw [List.length_take]
                  omega
                rw [hfull, Nat.max_eq_right (Nat.le_add_right _ _), List.take_add]

end Pages

end MasterAgent.CursorPaging
