/-
  MasterAgent.Lib.Dict

  Insertion-ordered dictionaries: the keys are distinct by construction, a new
  key goes to the end, and assigning to a present key keeps its place.
-/

import Mathlib.Computability.Language
import Mathlib.Data.List.Sort

namespace MasterAgent

/-- A dictionary in insertion order. -/
structure Dict (κ ν : Type) where
  entries : List (κ × ν)
  nodup : (entries.map Prod.fst).Nodup

namespace Dict

variable {κ ν : Type}

/-- The dictionary without entries. -/
def empty : Dict κ ν := ⟨[], List.nodup_nil⟩

/-- The keys, in insertion order. -/
def keys (d : Dict κ ν) : List κ := d.entries.map Prod.fst

@[simp] theorem keys_empty : (empty : Dict κ ν).keys = [] := rfl

variable [DecidableEq κ]

/-- The value of the first entry for `k` in an association list. -/
def find (k : κ) : List (κ × ν) → Option ν
  | [] => none
  | (k', v) :: rest => if k' = k then some v else find k rest

/-- `d.get(k)`. -/
def get? (d : Dict κ ν) (k : κ) : Option ν := find k d.entries

theorem find_eq_none {k : κ} {es : List (κ × ν)} :
    find k es = none ↔ k ∉ es.map Prod.fst := by
  induction es with
  | nil => simp [find]
  | cons e es ih =>
      by_cases h : e.1 = k
      · simp [find, h]
      · simp only [find, if_neg h, ih, List.map_cons, List.mem_cons, not_or]
        exact ⟨fun hn => ⟨fun hk => h hk.symm, hn⟩, fun hn => hn.2⟩

theorem mem_of_find {k : κ} {v : ν} {es : List (κ × ν)} (h : find k es = some v) :
    (k, v) ∈ es := by
  induction es with
  | nil => simp [find] at h
  | cons e es ih =>
      by_cases hk : e.1 = k
      · simp only [find, if_pos hk, Option.some.injEq] at h
        subst hk h
        exact List.mem_cons_self
      · simp only [find, if_neg hk] at h
        exact List.mem_cons_of_mem _ (ih h)

theorem find_of_mem {k : κ} {v : ν} {es : List (κ × ν)}
    (hnd : (es.map Prod.fst).Nodup) (h : (k, v) ∈ es) : find k es = some v := by
  induction es with
  | nil => simp at h
  | cons e es ih =>
      simp only [List.map_cons, List.nodup_cons] at hnd
      rcases List.mem_cons.mp h with rfl | h
      · simp [find]
      · have hne : e.1 ≠ k := by
          rintro rfl
          exact hnd.1 (List.mem_map.mpr ⟨(e.1, v), h, rfl⟩)
        simp only [find, if_neg hne]
        exact ih hnd.2 h

theorem get?_eq_none {d : Dict κ ν} {k : κ} : d.get? k = none ↔ k ∉ d.keys :=
  find_eq_none

theorem mem_keys_of_get? {d : Dict κ ν} {k : κ} {v : ν} (h : d.get? k = some v) :
    k ∈ d.keys :=
  List.mem_map.mpr ⟨(k, v), mem_of_find h, rfl⟩

/-- A key that is present has a value. -/
theorem exists_get? {d : Dict κ ν} {k : κ} (h : k ∈ d.keys) : ∃ v, d.get? k = some v := by
  cases hk : d.get? k with
  | none => exact absurd h (get?_eq_none.mp hk)
  | some v => exact ⟨v, rfl⟩

-- ============================================================================
-- Assignment
-- ============================================================================

/-- The entries with `k` mapped to `v`. -/
def put (k : κ) (v : ν) : List (κ × ν) → List (κ × ν)
  | [] => [(k, v)]
  | e :: rest => if e.1 = k then (k, v) :: rest else e :: put k v rest

theorem put_keys (k : κ) (v : ν) (es : List (κ × ν)) :
    (put k v es).map Prod.fst =
      if k ∈ es.map Prod.fst then es.map Prod.fst else es.map Prod.fst ++ [k] := by
  induction es with
  | nil => simp [put]
  | cons e es ih =>
      by_cases he : e.1 = k
      · simp [put, he]
      · have hne : k ≠ e.1 := fun h => he h.symm
        simp only [put, if_neg he, List.map_cons, ih, List.mem_cons, hne, false_or]
        split <;> simp

theorem put_nodup {k : κ} {v : ν} {es : List (κ × ν)} (h : (es.map Prod.fst).Nodup) :
    ((put k v es).map Prod.fst).Nodup := by
  rw [put_keys]
  split
  · exact h
  · rename_i hk
    exact List.nodup_append.mpr ⟨h, List.nodup_singleton k, by
      intro a ha b hb
      rw [List.mem_singleton.mp hb]
      rintro rfl
      exact hk ha⟩

theorem find_put (k k' : κ) (v : ν) (es : List (κ × ν)) :
    find k' (put k v es) = if k = k' then some v else find k' es := by
  induction es with
  | nil => simp [put, find]
  | cons e es ih =>
      by_cases he : e.1 = k
      · by_cases hk : k = k' <;> simp [put, find, he, hk]
      · by_cases hk : e.1 = k'
        · have hne : k ≠ k' := fun h => he (hk.trans h.symm)
          rw [put, if_neg he, find, if_pos hk, if_neg hne, find, if_pos hk]
        · simp only [put, if_neg he, find, if_neg hk, ih]

/-- A new key goes to the end. -/
theorem put_of_not_mem {k : κ} {v : ν} {es : List (κ × ν)} (h : k ∉ es.map Prod.fst) :
    put k v es = es ++ [(k, v)] := by
  induction es with
  | nil => rfl
  | cons e es ih =>
      rw [List.map_cons, List.mem_cons, not_or] at h
      rw [put, if_neg fun he => h.1 he.symm, ih h.2, List.cons_append]

/-- `d[k] = v`. -/
def set (d : Dict κ ν) (k : κ) (v : ν) : Dict κ ν := ⟨put k v d.entries, put_nodup d.nodup⟩

theorem get?_set (d : Dict κ ν) (k k' : κ) (v : ν) :
    (d.set k v).get? k' = if k = k' then some v else d.get? k' :=
  find_put k k' v d.entries

theorem keys_set (d : Dict κ ν) (k : κ) (v : ν) :
    (d.set k v).keys = if k ∈ d.keys then d.keys else d.keys ++ [k] :=
  put_keys k v d.entries

@[simp] theorem mem_keys_set {d : Dict κ ν} {k k' : κ} {v : ν} :
    k' ∈ (d.set k v).keys ↔ k' = k ∨ k' ∈ d.keys := by
  rw [keys_set]
  split
  · rename_i hk
    exact ⟨Or.inr, fun h => h.elim (fun h => h ▸ hk) id⟩
  · rw [List.mem_append, List.mem_singleton, or_comm]

/-- `d.pop(k, None)`. -/
def erase (d : Dict κ ν) (k : κ) : Dict κ ν :=
  ⟨d.entries.filter fun e => e.1 ≠ k,
    (List.Sublist.map Prod.fst List.filter_sublist).nodup d.nodup⟩

theorem find_filter_ne (k k' : κ) (es : List (κ × ν)) :
    find k' (es.filter fun e => e.1 ≠ k) = if k = k' then none else find k' es := by
  induction es with
  | nil => simp [find]
  | cons e es ih =>
      by_cases he : e.1 = k
      · have hdrop : (e :: es).filter (fun e => e.1 ≠ k) = es.filter fun e => e.1 ≠ k := by
          simp [he]
        rw [hdrop, ih]
        by_cases hk : k = k'
        · rw [if_pos hk, if_pos hk]
        · have hne : e.1 ≠ k' := fun h => hk (he.symm.trans h)
          rw [if_neg hk, if_neg hk, find, if_neg hne]
      · have hkeep : (e :: es).filter (fun e => e.1 ≠ k) = e :: es.filter fun e => e.1 ≠ k := by
          simp [he]
        rw [hkeep, find, ih]
        by_cases hk : e.1 = k'
        · have hne : k ≠ k' := fun h => he (hk.trans h.symm)
          rw [if_pos hk, if_neg hne, find, if_pos hk]
        · rw [if_neg hk, find, if_neg hk]

theorem get?_erase (d : Dict κ ν) (k k' : κ) :
    (d.erase k).get? k' = if k = k' then none else d.get? k' :=
  find_filter_ne k k' d.entries

theorem get?_of_mem {d : Dict κ ν} {k : κ} {v : ν} (h : (k, v) ∈ d.entries) : d.get? k = some v :=
  find_of_mem d.nodup h

@[simp] theorem get?_empty (k : κ) : (empty : Dict κ ν).get? k = none := rfl

-- ============================================================================
-- Values under a function
-- ============================================================================

variable {μ : Type}

/-- The values under `f`, which may look at the keys. -/
def mapValues (d : Dict κ ν) (f : κ → ν → μ) : Dict κ μ where
  entries := d.entries.map fun e => (e.1, f e.1 e.2)
  nodup := by
    rw [List.map_map]
    exact d.nodup

omit [DecidableEq κ] in
@[simp] theorem keys_mapValues (d : Dict κ ν) (f : κ → ν → μ) : (d.mapValues f).keys = d.keys := by
  rw [keys, mapValues, List.map_map]
  rfl

theorem get?_mapValues (d : Dict κ ν) (f : κ → ν → μ) (k : κ) :
    (d.mapValues f).get? k = (d.get? k).map (f k) := by
  show find k (d.entries.map fun e => (e.1, f e.1 e.2)) = (find k d.entries).map (f k)
  induction d.entries with
  | nil => rfl
  | cons e es ih =>
      rw [List.map_cons, find, find]
      by_cases hk : e.1 = k
      · rw [if_pos hk, if_pos hk, hk]
        rfl
      · rw [if_neg hk, if_neg hk, ih]

end Dict

end MasterAgent
