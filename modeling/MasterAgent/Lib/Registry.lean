/-
  MasterAgent.Lib.Registry

  A numbered list of jobs and a dictionary from keys to the numbers of those that
  are live.

  A job is unfinished until its work ends; a live job may stop being live before
  that, when it is withdrawn.  `Exact` says that the dictionary leads to the live
  jobs and to no others, and that no two unfinished jobs share a key, so that a
  job that ends removes no entry but its own.  Each operation on the jobs keeps
  it.
-/

import MasterAgent.Lib.Dict

namespace MasterAgent.Registry

variable {κ τ ι : Type}

/-- What a registry knows of its jobs. -/
structure Jobs (κ τ ι : Type) where
  /-- What of a job never changes. -/
  ident : τ → ι
  identKey : ι → Option κ
  unfinished : τ → Prop
  live : τ → Bool
  unfinished_of_live : ∀ {t}, live t = true → unfinished t

/-- The key of a job. -/
def Jobs.key (J : Jobs κ τ ι) (t : τ) : Option κ := J.identKey (J.ident t)

theorem Jobs.key_congr {J : Jobs κ τ ι} {t t' : τ} (h : J.ident t' = J.ident t) :
    J.key t' = J.key t :=
  congrArg J.identKey h

variable {J : Jobs κ τ ι} {jobs : List τ}

/-- Every job of the second list is one of the first, which may have ended or
    ceased to be live. -/
def GoesOn (J : Jobs κ τ ι) (jobs jobs' : List τ) : Prop :=
  ∀ (i : Nat) (t' : τ), jobs'[i]? = some t' → ∃ t, jobs[i]? = some t ∧ J.ident t' = J.ident t ∧
    (J.unfinished t' → J.unfinished t) ∧ (J.live t' = true → J.live t = true)

theorem GoesOn.refl (J : Jobs κ τ ι) (jobs : List τ) : GoesOn J jobs jobs :=
  fun _ t ht => ⟨t, ht, rfl, id, id⟩

theorem goesOn_modify {i : Nat} {f : τ → τ} (hident : ∀ t, J.ident (f t) = J.ident t)
    (hopen : ∀ t, jobs[i]? = some t → J.unfinished (f t) → J.unfinished t)
    (hlive : ∀ t, jobs[i]? = some t → J.live (f t) = true → J.live t = true) :
    GoesOn J jobs (jobs.modify i f) := by
  intro j t' ht'
  rw [List.getElem?_modify] at ht'
  cases ht : jobs[j]? with
  | none =>
      rw [ht] at ht'
      cases ht'
  | some t =>
      rw [ht] at ht'
      by_cases hij : i = j
      · subst hij
        simp only [if_pos, Option.map_eq_map, Option.map_some, Option.some.injEq] at ht'
        subst ht'
        exact ⟨t, rfl, hident t, hopen t ht, hlive t ht⟩
      · simp only [if_neg hij, Option.map_eq_map, Option.map_some, Option.some.injEq] at ht'
        subst ht'
        exact ⟨t, rfl, rfl, id, id⟩

-- ============================================================================
-- Counting
-- ============================================================================

/-- The numbers of the elements that satisfy `p`. -/
def numbers (p : τ → Bool) (jobs : List τ) : List Nat :=
  (List.range jobs.length).filter fun i => (jobs[i]?).any p

theorem mem_numbers {p : τ → Bool} {jobs : List τ} {i : Nat} :
    i ∈ numbers p jobs ↔ ∃ t, jobs[i]? = some t ∧ p t = true := by
  rw [numbers, List.mem_filter, List.mem_range]
  constructor
  · rintro ⟨-, hany⟩
    cases ht : jobs[i]? with
    | none =>
        rw [ht] at hany
        cases hany
    | some t =>
        rw [ht] at hany
        exact ⟨t, rfl, hany⟩
  · rintro ⟨t, ht, hp⟩
    obtain ⟨hi, -⟩ := List.getElem?_eq_some_iff.mp ht
    exact ⟨hi, by rw [ht]; exact hp⟩

theorem length_numbers (p : τ → Bool) (jobs : List τ) :
    (numbers p jobs).length = jobs.countP p := by
  induction jobs using List.reverseRecOn with
  | nil => rfl
  | append_singleton jobs t ih =>
      have hfront : (List.range jobs.length).filter (fun i => ((jobs ++ [t])[i]?).any p) =
          numbers p jobs := by
        apply List.filter_congr
        intro i hi
        rw [List.getElem?_append_left (List.mem_range.mp hi)]
      rw [numbers, List.length_append, List.length_singleton, List.range_succ, List.filter_append,
        hfront, List.length_append, ih, List.countP_append]
      congr 1
      cases hp : p t <;> simp [hp]

/-- Going on, no job becomes live. -/
theorem GoesOn.countP_le {jobs' : List τ} (h : GoesOn J jobs jobs') :
    jobs'.countP J.live ≤ jobs.countP J.live := by
  rw [← length_numbers, ← length_numbers]
  apply List.Subperm.length_le
  apply List.Nodup.subperm (List.nodup_range.filter _)
  intro i hi
  obtain ⟨t', ht', hlive⟩ := mem_numbers.mp hi
  obtain ⟨t, ht, -, -, hl⟩ := h i t' ht'
  exact mem_numbers.mpr ⟨t, ht, hl hlive⟩

-- ============================================================================
-- The registry
-- ============================================================================

variable [DecidableEq κ] (J)

structure Exact (jobs : List τ) (active : Dict κ Nat) : Prop where
  get?_iff : ∀ k i, active.get? k = some i ↔
    ∃ t, jobs[i]? = some t ∧ J.live t = true ∧ J.key t = some k
  apart : ∀ {i j : Nat} {t t' : τ} {k : κ}, jobs[i]? = some t → jobs[j]? = some t' → J.unfinished t →
    J.unfinished t' → J.key t = some k → J.key t' = some k → i = j
  keyed : ∀ {i : Nat} {t : τ}, jobs[i]? = some t → J.live t = true → ∃ k, J.key t = some k

variable {J} {active : Dict κ Nat}

theorem Exact.empty : Exact J [] (.empty : Dict κ Nat) where
  get?_iff := by simp
  apart := by simp
  keyed := by simp

/-- Jobs that go on stay apart and keyed; what is left to show is where the
    dictionary leads. -/
theorem Exact.goOn (h : Exact J jobs active) {jobs' : List τ} {active' : Dict κ Nat}
    (hjobs : GoesOn J jobs jobs')
    (hget : ∀ k i, active'.get? k = some i ↔
      ∃ t, jobs'[i]? = some t ∧ J.live t = true ∧ J.key t = some k) :
    Exact J jobs' active' where
  get?_iff := hget
  apart := by
    intro i j t t' k ht ht' hopen hopen' hk hk'
    obtain ⟨u, hu, hid, hou, -⟩ := hjobs i t ht
    obtain ⟨u', hu', hid', hou', -⟩ := hjobs j t' ht'
    rw [J.key_congr hid] at hk
    rw [J.key_congr hid'] at hk'
    exact h.apart hu hu' (hou hopen) (hou' hopen') hk hk'
  keyed := by
    intro i t ht hlive
    obtain ⟨u, hu, hid, -, hlu⟩ := hjobs i t ht
    obtain ⟨k, hk⟩ := h.keyed hu (hlu hlive)
    exact ⟨k, (J.key_congr hid).trans hk⟩

-- ============================================================================
-- Operations
-- ============================================================================

/-- A job changes without ceasing to be live. -/
theorem Exact.modify (h : Exact J jobs active) {i : Nat} {f : τ → τ}
    (hident : ∀ t, J.ident (f t) = J.ident t)
    (hopen : ∀ t, jobs[i]? = some t → J.unfinished (f t) → J.unfinished t)
    (hlive : ∀ t, jobs[i]? = some t → J.live (f t) = J.live t) :
    Exact J (jobs.modify i f) active := by
  apply h.goOn (goesOn_modify hident hopen fun t ht => by rw [hlive t ht]; exact id)
  intro k j
  rw [h.get?_iff, List.getElem?_modify]
  by_cases hij : i = j
  · subst hij
    cases ht : jobs[i]? with
    | none => simp
    | some t => simp [J.key_congr (hident t), hlive t ht]
  · simp [hij]

/-- A job ceases to be live, and its key is removed.  No other live job has it. -/
theorem Exact.retire (h : Exact J jobs active) {i : Nat} {t : τ} {k : κ} {f : τ → τ}
    (ht : jobs[i]? = some t) (hopen : J.unfinished t) (hkey : J.key t = some k)
    (hident : ∀ t, J.ident (f t) = J.ident t)
    (hdead : J.live (f t) = false) : Exact J (jobs.modify i f) (active.erase k) := by
  have hlive : ∀ t', jobs[i]? = some t' → J.live (f t') = true → J.live t' = true := by
    intro t' ht' hlive
    rw [ht, Option.some.injEq] at ht'
    rw [← ht', hdead] at hlive
    cases hlive
  have hfopen : ∀ t', jobs[i]? = some t' → J.unfinished (f t') → J.unfinished t' := by
    intro t' ht' _
    rw [ht, Option.some.injEq] at ht'
    exact ht' ▸ hopen
  apply h.goOn (goesOn_modify hident hfopen hlive)
  intro k' j
  rw [Dict.get?_erase, List.getElem?_modify]
  by_cases hij : i = j
  · -- the job itself: it was entered under `k`, and is not live any more
    subst hij
    simp only [if_pos, ht, Option.map_eq_map, Option.map_some, Option.some.injEq]
    constructor
    · intro hget
      split at hget
      · cases hget
      · next hk =>
        obtain ⟨u, hu, -, hku⟩ := (h.get?_iff k' i).mp hget
        rw [ht, Option.some.injEq] at hu
        subst hu
        rw [hkey, Option.some.injEq] at hku
        exact absurd hku hk
    · rintro ⟨u, rfl, hlive, -⟩
      rw [hdead] at hlive
      cases hlive
  · simp only [if_neg hij, Option.map_eq_map, Option.map_id']
    by_cases hk : k = k'
    · subst hk
      rw [if_pos rfl]
      constructor
      · intro hget
        cases hget
      · rintro ⟨u, hu, hlive, hku⟩
        exact absurd (h.apart ht hu hopen (J.unfinished_of_live hlive) hkey hku) hij
    · rw [if_neg hk]
      exact h.get?_iff k' j

/-- A new live job is entered under a key that no unfinished job has. -/
theorem Exact.enter (h : Exact J jobs active) {t : τ} {k : κ} (hlive : J.live t = true)
    (hkey : J.key t = some k)
    (hfresh : ∀ (i : Nat) (t' : τ), jobs[i]? = some t' → J.unfinished t' → J.key t' ≠ some k) :
    Exact J (jobs ++ [t]) (active.set k jobs.length) := by
  have hcases : ∀ {j : Nat} {u : τ}, (jobs ++ [t])[j]? = some u → jobs[j]? = some u ∨
      j = jobs.length ∧ u = t := by
    intro j u hu
    by_cases hj : j < jobs.length
    · rw [List.getElem?_append_left hj] at hu
      exact Or.inl hu
    · rw [List.getElem?_append_right (Nat.le_of_not_lt hj)] at hu
      have hmem : j - jobs.length = 0 ∧ u = t := by
        cases hd : j - jobs.length with
        | zero =>
            rw [hd] at hu
            exact ⟨rfl, (Option.some.inj hu).symm⟩
        | succ n =>
            rw [hd] at hu
            cases hu
      exact Or.inr ⟨by omega, hmem.2⟩
  have hkeep : ∀ {j : Nat} {u : τ}, jobs[j]? = some u → (jobs ++ [t])[j]? = some u := by
    intro j u hu
    obtain ⟨hj, -⟩ := List.getElem?_eq_some_iff.mp hu
    rw [List.getElem?_append_left hj]
    exact hu
  have hlast : (jobs ++ [t])[jobs.length]? = some t := by simp
  refine ⟨fun k' j => ?_, ?_, ?_⟩
  · rw [Dict.get?_set]
    by_cases hk : k = k'
    · subst hk
      rw [if_pos rfl, Option.some.injEq]
      constructor
      · rintro rfl
        exact ⟨t, hlast, hlive, hkey⟩
      · rintro ⟨u, hu, hulive, hukey⟩
        rcases hcases hu with hu | ⟨rfl, -⟩
        · exact absurd hukey (hfresh j u hu (J.unfinished_of_live hulive))
        · rfl
    · rw [if_neg hk, h.get?_iff]
      constructor
      · rintro ⟨u, hu, hulive, hukey⟩
        exact ⟨u, hkeep hu, hulive, hukey⟩
      · rintro ⟨u, hu, hulive, hukey⟩
        rcases hcases hu with hu | ⟨rfl, rfl⟩
        · exact ⟨u, hu, hulive, hukey⟩
        · rw [hkey, Option.some.injEq] at hukey
          exact absurd hukey hk
  · intro i j u u' k' hu hu' hopen hopen' hku hku'
    rcases hcases hu with hold | ⟨rfl, rfl⟩ <;> rcases hcases hu' with hold' | ⟨rfl, rfl⟩
    · exact h.apart hold hold' hopen hopen' hku hku'
    · rw [hkey, Option.some.injEq] at hku'
      exact absurd (hku'.symm ▸ hku) (hfresh i u hold hopen)
    · rw [hkey, Option.some.injEq] at hku
      exact absurd (hku.symm ▸ hku') (hfresh j u' hold' hopen')
    · rfl
  · intro j u hu hulive
    rcases hcases hu with hu | ⟨rfl, rfl⟩
    · exact h.keyed hu hulive
    · exact ⟨k, hkey⟩

/-- Every live job is withdrawn and the dictionary emptied. -/
theorem Exact.clear (h : Exact J jobs active) {f : τ → τ} (hident : ∀ t, J.ident (f t) = J.ident t)
    (hopen : ∀ t, J.unfinished (f t) → J.unfinished t)
    (hdead : ∀ t, J.live (f t) = false) :
    Exact J (jobs.mapIdx fun i t => if i ∈ active.entries.map Prod.snd then f t else t) .empty := by
  have hback : ∀ (j : Nat) (u : τ),
      (jobs.mapIdx fun i t => if i ∈ active.entries.map Prod.snd then f t else t)[j]? = some u →
      ∃ v, jobs[j]? = some v ∧ J.ident u = J.ident v ∧
        (J.unfinished u → J.unfinished v) ∧ J.live u = false := by
    intro j u hu
    rw [List.getElem?_mapIdx] at hu
    cases hv : jobs[j]? with
    | none =>
        rw [hv] at hu
        cases hu
    | some v =>
        rw [hv, Option.map_some, Option.some.injEq] at hu
        subst hu
        by_cases hmem : j ∈ active.entries.map Prod.snd
        · rw [if_pos hmem]
          exact ⟨v, rfl, hident v, hopen v, hdead v⟩
        · rw [if_neg hmem]
          refine ⟨v, rfl, rfl, id, ?_⟩
          -- a live job would have been entered
          rw [← Bool.not_eq_true]
          intro hlive
          obtain ⟨k, hk⟩ := h.keyed hv hlive
          have hentry := Dict.mem_of_find ((h.get?_iff k j).mpr ⟨v, hv, hlive, hk⟩)
          exact hmem (List.mem_map.mpr ⟨_, hentry, rfl⟩)
  have hnone : ∀ (j : Nat) (u : τ),
      (jobs.mapIdx fun i t => if i ∈ active.entries.map Prod.snd then f t else t)[j]? = some u →
      J.live u = true → False := by
    intro j u hu hlive
    obtain ⟨-, -, -, -, hdead'⟩ := hback j u hu
    rw [hdead'] at hlive
    cases hlive
  apply h.goOn
  · intro j u hu
    obtain ⟨v, hv, hid, hov, -⟩ := hback j u hu
    exact ⟨v, hv, hid, hov, fun hlive => (hnone j u hu hlive).elim⟩
  · intro k j
    rw [Dict.get?_empty]
    constructor
    · intro hget
      cases hget
    · rintro ⟨u, hu, hlive, -⟩
      exact (hnone j u hu hlive).elim

/-- The dictionary has as many entries as there are live jobs. -/
theorem Exact.length_active (h : Exact J jobs active) :
    active.entries.length = jobs.countP J.live := by
  have hnumbers : ∀ i, i ∈ active.entries.map Prod.snd ↔ i ∈ numbers J.live jobs := by
    intro i
    rw [mem_numbers, List.mem_map]
    constructor
    · rintro ⟨⟨k, i⟩, hentry, rfl⟩
      obtain ⟨t, ht, hlive, -⟩ := (h.get?_iff k i).mp (Dict.get?_of_mem hentry)
      exact ⟨t, ht, hlive⟩
    · rintro ⟨t, ht, hlive⟩
      obtain ⟨k, hk⟩ := h.keyed ht hlive
      exact ⟨(k, i), Dict.mem_of_find ((h.get?_iff k i).mpr ⟨t, ht, hlive, hk⟩), rfl⟩
  have hnodup : (active.entries.map Prod.snd).Nodup := by
    refine List.Nodup.map_on ?_ (List.Nodup.of_map _ active.nodup)
    rintro ⟨k, i⟩ hentry ⟨k', i'⟩ hentry' heq
    obtain rfl : i = i' := heq
    obtain ⟨t, ht, -, hk⟩ := (h.get?_iff k i).mp (Dict.get?_of_mem hentry)
    obtain ⟨t', ht', -, hk'⟩ := (h.get?_iff k' i).mp (Dict.get?_of_mem hentry')
    rw [ht, Option.some.injEq] at ht'
    subst ht'
    rw [hk, Option.some.injEq] at hk'
    rw [hk']
  have hperm : (active.entries.map Prod.snd).Perm (numbers J.live jobs) :=
    (List.perm_ext_iff_of_nodup hnodup (List.nodup_range.filter _)).mpr hnumbers
  rw [← length_numbers, ← hperm.length_eq, List.length_map]

end MasterAgent.Registry
