/-
  MasterAgent.Lib.Numbering

  Numbering the entries of a list in the order of their first occurrence: equal
  entries share a number, and a number once given stays.
-/

import Mathlib.Data.List.Nodup

namespace MasterAgent.Numbering

variable {α β : Type} [DecidableEq α] [DecidableEq β]

/-- `seen`, and `a` if it is new. -/
def note (seen : List α) (a : α) : List α := if a ∈ seen then seen else seen ++ [a]

/-- The distinct entries in the order of their first occurrence, after `seen`. -/
def firstsFrom (seen as : List α) : List α := as.foldl note seen

/-- The distinct entries in the order of their first occurrence. -/
def firsts (as : List α) : List α := firstsFrom [] as

@[simp] theorem firstsFrom_nil (seen : List α) : firstsFrom seen [] = seen := rfl

@[simp] theorem firstsFrom_cons (seen : List α) (a : α) (as : List α) :
    firstsFrom seen (a :: as) = firstsFrom (note seen a) as := rfl

theorem note_of_mem {seen : List α} {a : α} (h : a ∈ seen) : note seen a = seen := if_pos h

theorem note_of_not_mem {seen : List α} {a : α} (h : a ∉ seen) : note seen a = seen ++ [a] :=
  if_neg h

theorem note_extends (seen : List α) (a : α) : seen <+: note seen a := by
  by_cases h : a ∈ seen
  · have heq := note_of_mem h
    exact heq.symm ▸ List.prefix_refl seen
  · rw [note_of_not_mem h]
    exact List.prefix_append seen [a]

@[simp] theorem mem_note {seen : List α} {a b : α} : b ∈ note seen a ↔ b = a ∨ b ∈ seen := by
  by_cases h : a ∈ seen
  · rw [note_of_mem h]
    exact ⟨Or.inr, fun hb => hb.elim (fun hb => hb ▸ h) id⟩
  · rw [note_of_not_mem h, List.mem_append, List.mem_singleton, or_comm]

theorem nodup_note {seen : List α} (h : seen.Nodup) (a : α) : (note seen a).Nodup := by
  by_cases ha : a ∈ seen
  · rwa [note_of_mem ha]
  · rw [note_of_not_mem ha]
    exact List.nodup_append.mpr ⟨h, List.nodup_singleton a, fun b hb c hc => by
      rw [List.mem_singleton.mp hc]
      rintro rfl
      exact ha hb⟩

/-- What has been seen keeps its place. -/
theorem firstsFrom_extends (seen as : List α) : seen <+: firstsFrom seen as := by
  induction as generalizing seen with
  | nil => exact List.prefix_refl seen
  | cons a as ih => exact (note_extends seen a).trans (ih (note seen a))

theorem nodup_firstsFrom {seen : List α} (h : seen.Nodup) (as : List α) :
    (firstsFrom seen as).Nodup := by
  induction as generalizing seen with
  | nil => exact h
  | cons a as ih => exact ih (nodup_note h a)

@[simp] theorem mem_firstsFrom {seen as : List α} {b : α} :
    b ∈ firstsFrom seen as ↔ b ∈ seen ∨ b ∈ as := by
  induction as generalizing seen with
  | nil => simp
  | cons a as ih =>
      rw [firstsFrom_cons, ih, mem_note, List.mem_cons]
      tauto

theorem nodup_firsts (as : List α) : (firsts as).Nodup := nodup_firstsFrom List.nodup_nil as

@[simp] theorem mem_firsts {as : List α} {b : α} : b ∈ firsts as ↔ b ∈ as := by
  rw [firsts, mem_firstsFrom, or_iff_right List.not_mem_nil]

-- ============================================================================
-- Numbers
-- ============================================================================

/-- The number of `a`, from one on. -/
def number (names : List α) (a : α) : Nat := names.idxOf a + 1

/-- A new name gets the next number. -/
theorem number_concat {names : List α} {a : α} (h : a ∉ names) :
    number (names ++ [a]) a = names.length + 1 := by
  rw [number, List.idxOf_append_of_notMem h, List.idxOf_cons_self, Nat.add_zero]

/-- Later names change no number. -/
theorem number_of_extends {names names' : List α} (h : names <+: names') {a : α}
    (ha : a ∈ names) : number names' a = number names a := by
  obtain ⟨more, rfl⟩ := h
  rw [number, number, List.idxOf_append_of_mem ha]

/-- The name of a number. -/
theorem getElem?_number {names : List α} {a : α} (h : a ∈ names) :
    names[number names a - 1]? = some a := by
  rw [number, Nat.add_sub_cancel]
  exact List.getElem?_idxOf h

theorem number_inj {names : List α} {a b : α} (ha : a ∈ names) (hb : b ∈ names) :
    number names a = number names b ↔ a = b := by
  constructor
  · intro h
    have hname := getElem?_number ha
    rw [h, getElem?_number hb] at hname
    exact (Option.some.inj hname).symm
  · rintro rfl
    rfl

/-- Renaming entries apart renames the distinct entries. -/
theorem firstsFrom_map {f : α → β} {seen as : List α}
    (hinj : ∀ a ∈ seen ++ as, ∀ b ∈ seen ++ as, f a = f b → a = b) :
    firstsFrom (seen.map f) (as.map f) = (firstsFrom seen as).map f := by
  induction as generalizing seen with
  | nil => rfl
  | cons a as ih =>
      have hmem : f a ∈ seen.map f ↔ a ∈ seen := by
        constructor
        · intro h
          obtain ⟨b, hb, heq⟩ := List.mem_map.mp h
          rw [← hinj b (List.mem_append_left _ hb) a (by simp) heq]
          exact hb
        · exact List.mem_map_of_mem
      have hnote : note (seen.map f) (f a) = (note seen a).map f := by
        by_cases ha : a ∈ seen
        · rw [note_of_mem ha, note_of_mem (hmem.mpr ha)]
        · rw [note_of_not_mem ha, note_of_not_mem fun h => ha (hmem.mp h), List.map_append,
            List.map_singleton]
      have hsub : ∀ b ∈ note seen a ++ as, b ∈ seen ++ a :: as := by
        intro b hb
        simp only [List.mem_append, List.mem_cons, mem_note] at hb ⊢
        tauto
      rw [List.map_cons, firstsFrom_cons, firstsFrom_cons, hnote, ih]
      intro b hb c hc
      exact hinj b (hsub b hb) c (hsub c hc)

/-- The numbers of distinct names count up from one. -/
theorem map_number_self {names : List α} (h : names.Nodup) :
    names.map (number names) = List.range' 1 names.length := by
  refine List.ext_getElem (by simp) fun i hi hi' => ?_
  rw [List.getElem_map, List.getElem_range', number, h.idxOf_getElem]
  omega

/-- The numbers of the entries, in the order of their first use, are one, two and
    so on. -/
theorem firsts_map_number (as : List α) :
    firsts (as.map (number (firsts as))) = List.range' 1 (firsts as).length := by
  have hmap : firstsFrom (([] : List α).map (number (firsts as))) (as.map (number (firsts as)))
      = (firsts as).map (number (firsts as)) := by
    refine firstsFrom_map fun a ha b hb heq => ?_
    rw [List.nil_append] at ha hb
    exact (number_inj (mem_firsts.mpr ha) (mem_firsts.mpr hb)).mp heq
  exact hmap.trans (map_number_self (nodup_firsts as))

end MasterAgent.Numbering
