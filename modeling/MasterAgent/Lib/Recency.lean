/-
  MasterAgent.Lib.Recency

  Boards.  A key is entered on a board once and may be marked any number of times:
  the keys that were marked come first, the one marked last in front, and the others
  follow, the one entered last in front.  Stamps with the times of these events,
  kept by a clock that does not stand still, order the keys as the board does
  (`Shows`), and any sort by stamps arranges its rows so (`Shows.arranged`).
-/

import Mathlib.Data.List.Nodup
import Mathlib.Data.List.Pairwise
import Mathlib.Logic.Function.Basic

namespace MasterAgent.Recency

variable {κ α : Type}

-- ============================================================================
-- Boards
-- ============================================================================

structure Board (κ : Type) where
  marked : List κ
  waiting : List κ
  nodup : (marked ++ waiting).Nodup

namespace Board

def empty : Board κ := ⟨[], [], List.nodup_nil⟩

/-- The keys in their order. -/
def keys (b : Board κ) : List κ := b.marked ++ b.waiting

variable {b : Board κ} {k : κ}

theorem nodup_enter (h : k ∉ b.keys) : (b.marked ++ k :: b.waiting).Nodup :=
  List.nodup_middle.mpr (List.nodup_cons.mpr ⟨h, b.nodup⟩)

variable [DecidableEq κ]

theorem nodup_mark : (k :: b.marked.erase k ++ b.waiting.erase k).Nodup := by
  obtain ⟨hmarked, hwaiting, hapart⟩ := List.nodup_append.mp b.nodup
  refine List.nodup_cons.mpr ⟨fun hk => ?_, List.nodup_append.mpr
    ⟨hmarked.erase k, hwaiting.erase k, fun a ha c hc => ?_⟩⟩
  · rcases List.mem_append.mp hk with hk | hk
    · exact hmarked.not_mem_erase hk
    · exact hwaiting.not_mem_erase hk
  · exact hapart a (List.mem_of_mem_erase ha) c (List.mem_of_mem_erase hc)

/-- A key that is on the board stays where it is. -/
def enter (b : Board κ) (k : κ) : Board κ :=
  if h : k ∈ b.keys then b else ⟨b.marked, k :: b.waiting, nodup_enter h⟩

/-- A key that is not on the board cannot be marked. -/
def mark (b : Board κ) (k : κ) : Board κ :=
  if k ∈ b.keys then ⟨k :: b.marked.erase k, b.waiting.erase k, nodup_mark⟩ else b

theorem enter_of_mem (h : k ∈ b.keys) : b.enter k = b := dif_pos h

theorem mark_of_not_mem (h : k ∉ b.keys) : b.mark k = b := if_neg h

theorem mem_erase_marked {j : κ} : j ∈ b.marked.erase k ↔ j ≠ k ∧ j ∈ b.marked :=
  (List.nodup_append.mp b.nodup).1.mem_erase_iff

theorem mem_erase_waiting {j : κ} : j ∈ b.waiting.erase k ↔ j ≠ k ∧ j ∈ b.waiting :=
  (List.nodup_append.mp b.nodup).2.1.mem_erase_iff

end Board

-- ============================================================================
-- Stamps
-- ============================================================================

/-- When something was made, and when it was marked last. -/
structure Stamp where
  made : Nat
  last : Option Nat

/-- Marked later, or only one is marked, or neither and it was made later. -/
def Stamp.Above (a b : Stamp) : Prop :=
  match a.last, b.last with
  | some x, some y => y < x
  | some _, none => True
  | none, some _ => False
  | none, none => b.made < a.made

theorem Stamp.Above.asymm {a b : Stamp} (h : a.Above b) : ¬ b.Above a := by
  unfold Stamp.Above at *
  cases ha : a.last with
  | none => cases hb : b.last with
    | none =>
        simp only [ha, hb] at h ⊢
        omega
    | some y => simp [ha, hb] at h
  | some x => cases hb : b.last with
    | none => simp
    | some y =>
        simp only [ha, hb] at h ⊢
        omega

/-- The board is in the order of the stamps, all of which are before `now`. -/
structure Board.Shows (b : Board κ) (stamp : κ → Option Stamp) (now : Nat) : Prop where
  marked : ∀ k, k ∈ b.marked ↔ ∃ s, stamp k = some s ∧ s.last ≠ none
  waiting : ∀ k, k ∈ b.waiting ↔ ∃ s, stamp k = some s ∧ s.last = none
  sorted : b.keys.Pairwise fun j k =>
    ∀ s s', stamp j = some s → stamp k = some s' → s.Above s'
  past : ∀ k s, stamp k = some s → s.made < now ∧ ∀ x, s.last = some x → x < now

namespace Board.Shows

variable {b : Board κ} {stamp : κ → Option Stamp} {now now' t : Nat} {k : κ}

theorem start (now : Nat) : (empty : Board κ).Shows (fun _ => none) now where
  marked := by simp [empty]
  waiting := by simp [empty]
  sorted := List.Pairwise.nil
  past := fun _ _ h => nomatch h

theorem later (h : b.Shows stamp now) (hlater : now ≤ now') : b.Shows stamp now' where
  marked := h.marked
  waiting := h.waiting
  sorted := h.sorted
  past := fun k s hs => by
    obtain ⟨hmade, hlast⟩ := h.past k s hs
    exact ⟨Nat.lt_of_lt_of_le hmade hlater, fun x hx => Nat.lt_of_lt_of_le (hlast x hx) hlater⟩

/-- The board has the keys that are stamped. -/
theorem mem_keys (h : b.Shows stamp now) : k ∈ b.keys ↔ ∃ s, stamp k = some s := by
  rw [Board.keys, List.mem_append, h.marked, h.waiting]
  constructor
  · rintro (⟨s, hs, -⟩ | ⟨s, hs, -⟩) <;> exact ⟨s, hs⟩
  · rintro ⟨s, hs⟩
    by_cases hlast : s.last = none
    · exact Or.inr ⟨s, hs, hlast⟩
    · exact Or.inl ⟨s, hs, hlast⟩

variable [DecidableEq κ]

/-- The new times are above all others, the old ones being past. -/
theorem past_update (h : b.Shows stamp now) {new : Stamp} (hmade : new.made < now')
    (hlast : ∀ x, new.last = some x → x < now') (hnow : now ≤ now') (j : κ) (s : Stamp)
    (hs : Function.update stamp k (some new) j = some s) :
    s.made < now' ∧ ∀ x, s.last = some x → x < now' := by
  by_cases hj : j = k
  · subst hj
    rw [Function.update_self, Option.some.injEq] at hs
    exact hs ▸ ⟨hmade, hlast⟩
  · rw [Function.update_of_ne hj] at hs
    exact (h.later hnow).past j s hs

/-- The order of keys that keep their stamps stays. -/
theorem sorted_update (h : b.Shows stamp now) {js : List κ} (hjs : js.Sublist b.keys)
    (hk : k ∉ js) (new : Option Stamp) :
    js.Pairwise fun i j => ∀ s s', Function.update stamp k new i = some s →
      Function.update stamp k new j = some s' → s.Above s' := by
  refine (h.sorted.sublist hjs).imp_of_mem fun {i j} hi hj hij => ?_
  have hne : ∀ l ∈ js, l ≠ k := fun l hl heq => hk (heq ▸ hl)
  rw [Function.update_of_ne (hne i hi), Function.update_of_ne (hne j hj)]
  exact hij

/-- A key that is entered now. -/
theorem enter (h : b.Shows stamp now) (hnew : stamp k = none) (ht : now ≤ t) (ht' : t < now') :
    (b.enter k).Shows (Function.update stamp k (some ⟨t, none⟩)) now' := by
  have hk : k ∉ b.keys := by
    rw [h.mem_keys, hnew]
    simp
  have hother : ∀ j ∈ b.keys, j ≠ k := fun j hj heq => hk (heq ▸ hj)
  rw [Board.enter, dif_neg hk]
  refine ⟨fun j => ?_, fun j => ?_, ?_, h.past_update ht' (by simp) (by omega)⟩
  · by_cases hj : j = k
    · subst hj
      simp only [Function.update_self, Option.some.injEq, exists_eq_left', ne_eq, not_true,
        iff_false]
      exact fun hm => hk (List.mem_append_left _ hm)
    · rw [Function.update_of_ne hj]
      exact h.marked j
  · by_cases hj : j = k
    · subst hj
      simp
    · rw [Function.update_of_ne hj, List.mem_cons, or_iff_right hj]
      exact h.waiting j
  · have hrest := h.sorted_update (List.Sublist.refl _) hk (some ⟨t, none⟩)
    rw [Board.keys, List.pairwise_append] at hrest
    obtain ⟨hmarked, hwaiting, hacross⟩ := hrest
    refine List.pairwise_append.mpr ⟨hmarked, List.pairwise_cons.mpr ⟨?_, hwaiting⟩, ?_⟩
    · intro j hj s s' hs hs'
      obtain ⟨old, hold, hlast⟩ := (h.waiting j).mp hj
      rw [Function.update_of_ne (hother j (List.mem_append_right _ hj)), hold,
        Option.some.injEq] at hs'
      rw [Function.update_self, Option.some.injEq] at hs
      subst hs hs'
      rw [Stamp.Above, hlast]
      exact Nat.lt_of_lt_of_le (h.past j old hold).1 ht
    · intro i hi j hj s s' hs hs'
      rcases List.mem_cons.mp hj with rfl | hj
      · obtain ⟨old, hold, hlast⟩ := (h.marked i).mp hi
        rw [Function.update_of_ne (hother i (List.mem_append_left _ hi)), hold,
          Option.some.injEq] at hs
        rw [Function.update_self, Option.some.injEq] at hs'
        subst hs hs'
        obtain ⟨x, hx⟩ := Option.ne_none_iff_exists'.mp hlast
        rw [Stamp.Above, hx]
        trivial
      · exact hacross i hi j hj s s' hs hs'

/-- A key that is marked now. -/
theorem mark (h : b.Shows stamp now) {old : Stamp} (hold : stamp k = some old) (ht : now ≤ t)
    (ht' : t < now') :
    (b.mark k).Shows (Function.update stamp k (some ⟨old.made, some t⟩)) now' := by
  rw [Board.mark, if_pos (h.mem_keys.mpr ⟨old, hold⟩)]
  have hmade : old.made < now' := by
    have := (h.past k old hold).1
    omega
  have hlast : ∀ x, some t = some x → x < now' := by
    rintro x ⟨⟩
    exact ht'
  refine ⟨fun j => ?_, fun j => ?_, ?_, h.past_update hmade hlast (by omega)⟩
  · by_cases hj : j = k
    · subst hj
      simp
    · rw [Function.update_of_ne hj, List.mem_cons, or_iff_right hj, mem_erase_marked,
        and_iff_right hj]
      exact h.marked j
  · by_cases hj : j = k
    · subst hj
      simp [mem_erase_waiting]
    · rw [Function.update_of_ne hj, mem_erase_waiting, and_iff_right hj]
      exact h.waiting j
  · have hfirst : k ∉ b.marked.erase k ++ b.waiting.erase k := by
      simp [mem_erase_marked, mem_erase_waiting]
    have hsub : (b.marked.erase k ++ b.waiting.erase k).Sublist b.keys :=
      List.erase_sublist.append List.erase_sublist
    refine List.pairwise_cons.mpr ⟨fun j hj s s' hs hs' => ?_, h.sorted_update hsub hfirst _⟩
    rw [Function.update_self, Option.some.injEq] at hs
    have hne : j ≠ k := fun heq => hfirst (heq ▸ hj)
    rw [Function.update_of_ne hne] at hs'
    subst hs
    cases hlast' : s'.last with
    | none =>
        rw [Stamp.Above, hlast']
        trivial
    | some y =>
        rw [Stamp.Above, hlast']
        exact Nat.lt_of_lt_of_le ((h.past j s' hs').2 y hlast') ht

end Board.Shows

-- ============================================================================
-- Sorted rows
-- ============================================================================

/-- Rows found by their keys. -/
structure Finds (id : α → κ) (rows : List α) (find : κ → Option α) : Prop where
  nodup : (rows.map id).Nodup
  found : ∀ a ∈ rows, find (id a) = some a
  mem : ∀ k a, find k = some a → a ∈ rows ∧ id a = k

variable {id : α → κ} {rows sorted : List α} {find : κ → Option α} {stampOf : α → Stamp}

/-- The rows of a board that shows their stamps are in strict order. -/
theorem Board.Shows.pairwise {b : Board κ} {now : Nat}
    (h : b.Shows (fun k => (find k).map stampOf) now) :
    (b.keys.filterMap find).Pairwise fun a c => (stampOf a).Above (stampOf c) := by
  refine List.pairwise_filterMap.mpr (h.sorted.imp fun {j k} hjk a ha c hc => ?_)
  exact hjk (stampOf a) (stampOf c) (by rw [ha]; rfl) (by rw [hc]; rfl)

/-- The board has every row once. -/
theorem Board.Shows.perm {b : Board κ} {now : Nat}
    (h : b.Shows (fun k => (find k).map stampOf) now) (hfinds : Finds id rows find) :
    (b.keys.filterMap find).Perm rows := by
  have hnodup : (b.keys.filterMap find).Nodup := by
    refine b.nodup.filterMap fun j k a hj hk => ?_
    rw [← (hfinds.mem j a hj).2, (hfinds.mem k a hk).2]
  refine (List.perm_ext_iff_of_nodup hnodup hfinds.nodup.of_map).mpr fun a => ?_
  rw [List.mem_filterMap]
  constructor
  · rintro ⟨k, -, hk⟩
    exact (hfinds.mem k a hk).1
  · intro ha
    refine ⟨id a, h.mem_keys.mpr ⟨stampOf a, ?_⟩, hfinds.found a ha⟩
    rw [hfinds.found a ha]
    rfl

/-- However some of the rows are sorted by their stamps, they come in the order of
    the board. -/
theorem Board.Shows.arranged {b : Board κ} {now : Nat}
    (h : b.Shows (fun k => (find k).map stampOf) now) (hfinds : Finds id rows find)
    {p : α → Bool} (hperm : sorted.Perm (rows.filter p))
    (hsorted : sorted.Pairwise fun a c => ¬ (stampOf c).Above (stampOf a)) :
    sorted = (b.keys.filterMap find).filter p := by
  have hboard : (b.keys.filterMap find).Pairwise fun a c =>
      (stampOf a).Above (stampOf c) ∨ (stampOf c).Above (stampOf a) := h.pairwise.imp Or.inl
  have hmem : ∀ a ∈ rows, a ∈ b.keys.filterMap find := fun a ha => (h.perm hfinds).mem_iff.mpr ha
  refine List.Perm.eq_of_pairwise (fun a c ha hc hac hca => ?_) hsorted
    ((h.pairwise.imp fun hac => hac.asymm).filter p)
    (hperm.trans ((h.perm hfinds).symm.filter p))
  by_contra hne
  have hrow : a ∈ rows := List.mem_of_mem_filter (hperm.mem_iff.mp ha)
  have hsymm : Std.Symm fun a c => (stampOf a).Above (stampOf c) ∨ (stampOf c).Above (stampOf a) :=
    ⟨fun _ _ => Or.symm⟩
  rcases hboard.forall (hmem a hrow) (List.mem_of_mem_filter hc) hne with habove | hbelow
  · exact hca habove
  · exact hac hbelow

end MasterAgent.Recency
