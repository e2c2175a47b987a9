/-
  MasterAgent.Lib.WriteOnce

  Write-once tables: an entry is made under a free key, and refused under a key
  that is taken.  Whoever comes first keeps the key.

  * `enter` makes one entry, `enterAll` a list of entries that stops at the first
    refusal, `offerAll` a list of entries of which the refused ones are passed over.
  * `enterAll_ok_iff`: all entries are made when their keys are distinct and free.
  * `get?_offerAll`: under a key is what was there, or else the first entry offered.
-/

import MasterAgent.Lib.Dict

namespace MasterAgent.Dict

variable {κ ν : Type} [DecidableEq κ] {d d' : Dict κ ν} {k : κ} {v : ν} {es : List (κ × ν)}

/-- Enter `v` under `k`, unless the key is taken. -/
def enter (d : Dict κ ν) (k : κ) (v : ν) : Option (Dict κ ν) :=
  if k ∈ d.keys then none else some (d.set k v)

/-- Enter all of `es`, one after another. -/
def enterAll : List (κ × ν) → Dict κ ν → Option (Dict κ ν)
  | [], d => some d
  | (k, v) :: rest, d => (d.enter k v).bind (enterAll rest)

/-- Offer all of `es`, one after another; what is refused is passed over. -/
def offerAll : List (κ × ν) → Dict κ ν → Dict κ ν
  | [], d => d
  | (k, v) :: rest, d => offerAll rest ((d.enter k v).getD d)

-- ============================================================================
-- One entry
-- ============================================================================

theorem enter_taken (h : k ∈ d.keys) : d.enter k v = none := if_pos h

theorem enter_free (h : k ∉ d.keys) : d.enter k v = some (d.set k v) := if_neg h

theorem enter_eq_some : d.enter k v = some d' ↔ k ∉ d.keys ∧ d' = d.set k v := by
  by_cases h : k ∈ d.keys
  · simp [enter_taken h, h]
  · simp [enter_free h, h, eq_comm]

/-- A new entry shows under its key only where nothing was. -/
theorem get?_enter (h : d.enter k v = some d') (k' : κ) :
    d'.get? k' = (d.get? k').or (if k = k' then some v else none) := by
  obtain ⟨hfree, rfl⟩ := enter_eq_some.mp h
  rw [get?_set]
  by_cases hk : k = k'
  · subst hk
    have hnone : d.get? k = none := get?_eq_none.mpr hfree
    rw [if_pos rfl, if_pos rfl, hnone, Option.none_or]
  · rw [if_neg hk, if_neg hk, Option.or_none]

theorem mem_keys_enter (h : d.enter k v = some d') (k' : κ) :
    k' ∈ d'.keys ↔ k' ∈ d.keys ∨ k' = k := by
  obtain ⟨-, rfl⟩ := enter_eq_some.mp h
  rw [mem_keys_set, or_comm]

-- ============================================================================
-- Many entries
-- ============================================================================

/-- All entries are made exactly when their keys are distinct and free. -/
theorem enterAll_ok_iff : (∃ d', enterAll es d = some d') ↔
    (es.map Prod.fst).Nodup ∧ ∀ k ∈ es.map Prod.fst, k ∉ d.keys := by
  induction es generalizing d with
  | nil => simp [enterAll]
  | cons e es ih =>
      obtain ⟨k, v⟩ := e
      by_cases hk : k ∈ d.keys
      · have hnone : enterAll ((k, v) :: es) d = none := by rw [enterAll, enter_taken hk]; rfl
        rw [hnone]
        simp [hk]
      · have hsome : enterAll ((k, v) :: es) d = enterAll es (d.set k v) := by
          rw [enterAll, enter_free hk]
          rfl
        rw [hsome, ih, List.map_cons, List.nodup_cons]
        simp only [mem_keys_enter (enter_free hk), List.forall_mem_cons, not_or]
        constructor
        · rintro ⟨hnodup, hfree⟩
          exact ⟨⟨fun hmem => (hfree k hmem).2 rfl, hnodup⟩, hk, fun k' hk' => (hfree k' hk').1⟩
        · rintro ⟨⟨hnew, hnodup⟩, -, hfree⟩
          exact ⟨hnodup, fun k' hk' => ⟨hfree k' hk', fun heq => hnew (heq ▸ hk')⟩⟩

/-- The entries that are made stand behind those that were there. -/
theorem entries_enterAll (h : enterAll es d = some d') : d'.entries = d.entries ++ es := by
  induction es generalizing d with
  | nil =>
      cases h
      exact (List.append_nil _).symm
  | cons e es ih =>
      obtain ⟨k', v⟩ := e
      rw [enterAll, Option.bind_eq_some_iff] at h
      obtain ⟨d₁, henter, hrest⟩ := h
      obtain ⟨hfree, rfl⟩ := enter_eq_some.mp henter
      have hset : (d.set k' v).entries = d.entries ++ [(k', v)] := put_of_not_mem hfree
      rw [ih hrest, hset, List.append_assoc, List.singleton_append]

/-- What is under a key after all entries were offered: what was there, or else
    the first one offered under it. -/
theorem get?_offerAll (k : κ) : (offerAll es d).get? k = (d.get? k).or (find k es) := by
  induction es generalizing d with
  | nil => rw [offerAll, find, Option.or_none]
  | cons e es ih =>
      obtain ⟨k', v⟩ := e
      rw [offerAll, ih]
      by_cases hk : k' ∈ d.keys
      · rw [enter_taken hk, Option.getD_none, find]
        split
        · next heq =>
          subst heq
          obtain ⟨u, hu⟩ := exists_get? hk
          rw [hu, Option.some_or, Option.some_or]
        · rfl
      · rw [enter_free hk, Option.getD_some, get?_enter (enter_free hk), Option.or_assoc, find]
        split <;> rfl

end MasterAgent.Dict
