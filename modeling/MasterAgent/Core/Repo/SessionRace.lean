/-
  MasterAgent.Core.Repo.SessionRace

  Concurrent `SessionRepository.get_or_create` calls on one `ma_session` table.

  The biz_id of a row never changes and rows are never removed, so a thread is
  bound for good by the first INSERT that reaches it.  A call whose first SELECT
  found no row, and whose INSERT then meets a row another call made for another
  topic, re-reads that row and returns it: the check is on the other path only.
-/

import MasterAgent.Core.Repo.SessionRepository
import MasterAgent.Lib.Interleave

namespace MasterAgent.SessionRace

open MasterAgent.Interleave

variable {ι : Type}

/-- The next statement of call `i`. -/
def step (calls : ι → GetOrCreate) : Step ι SessionTable GetOrCreatePhase :=
  fun i phase t => getOrCreateStep (calls i) phase t

/-- All calls are about to start on table `t`. -/
def initial (t : SessionTable) : Config ι SessionTable GetOrCreatePhase :=
  ⟨t, fun _ => .start⟩

/-- The thread of the call is bound to the topic the call asked for. -/
def Bound (t : SessionTable) (a : GetOrCreate) : Prop :=
  ∃ row, t.select a.threadId = some row ∧ row.bizId = a.bizId

/-- Every returned session has the biz_id its caller asked for, and every call
    whose thread ends up bound to another topic raised the mismatch error. -/
def BizChecked (calls : ι → GetOrCreate) (c : Config ι SessionTable GetOrCreatePhase) : Prop :=
  (∀ i s, c.locals i = .finished (.ok s) → s.bizId = (calls i).bizId) ∧
    ∀ i r row, c.locals i = .finished r → c.shared.select (calls i).threadId = some row →
      row.bizId ≠ (calls i).bizId → ∃ msg, r = .error (.sessionBizMismatch msg)

/-- If call `i` is about to INSERT, its thread has no row yet or a row of the
    topic the call asked for. -/
def Uncontested (calls : ι → GetOrCreate) (c : Config ι SessionTable GetOrCreatePhase)
    (i : ι) : Prop :=
  c.locals i = .missing → ∀ row, c.shared.select (calls i).threadId = some row →
    row.bizId = (calls i).bizId

variable [DecidableEq ι] {calls : ι → GetOrCreate}
  {c : Config ι SessionTable GetOrCreatePhase} {i : ι}

-- ============================================================================
-- What a step does
-- ============================================================================

theorem step_found {row : Session} (h : c.locals i = .start)
    (hrow : c.shared.select (calls i).threadId = some row) :
    (fire (step calls) c i).locals i = .finished ((calls i).checked row) ∧
      (fire (step calls) c i).shared = c.shared := by
  apply fire_of_some
  simp [step, getOrCreateStep, h, hrow]

theorem step_missing (h : c.locals i = .start)
    (hrow : c.shared.select (calls i).threadId = none) :
    (fire (step calls) c i).locals i = .missing ∧
      (fire (step calls) c i).shared = c.shared := by
  apply fire_of_some
  simp [step, getOrCreateStep, h, hrow]

theorem step_insert (calls : ι → GetOrCreate) (h : c.locals i = .missing) :
    (fire (step calls) c i).locals i = .inserted ∧
      (fire (step calls) c i).shared = c.shared.insert (calls i).newRow := by
  apply fire_of_some
  simp [step, getOrCreateStep, h]

theorem step_reread (calls : ι → GetOrCreate) (h : c.locals i = .inserted) :
    (fire (step calls) c i).locals i
        = .finished (GetOrCreate.reread (c.shared.select (calls i).threadId)) ∧
      (fire (step calls) c i).shared = c.shared := by
  apply fire_of_some
  simp [step, getOrCreateStep, h]

theorem step_finished {r : Except Exn Session} (h : c.locals i = .finished r) :
    fire (step calls) c i = c := by
  apply fire_of_none
  simp [step, getOrCreateStep, h]

/-- The session table changes only by an INSERT. -/
theorem fire_shared (calls : ι → GetOrCreate) (c : Config ι SessionTable GetOrCreatePhase)
    (i : ι) :
    (fire (step calls) c i).shared = c.shared ∨
      (fire (step calls) c i).shared = c.shared.insert (calls i).newRow := by
  cases hi : c.locals i with
  | start =>
      cases hrow : c.shared.select (calls i).threadId with
      | some row => exact Or.inl (step_found hi hrow).2
      | none => exact Or.inl (step_missing hi hrow).2
  | missing => exact Or.inr (step_insert calls hi).2
  | inserted => exact Or.inl (step_reread calls hi).2
  | finished r => exact Or.inl (congrArg Config.shared (step_finished hi))

-- ============================================================================
-- Rows are there for good
-- ============================================================================

theorem select_fire {threadId : PyStr} {row : Session}
    (h : c.shared.select threadId = some row) (j : ι) :
    (fire (step calls) c j).shared.select threadId = some row := by
  rcases fire_shared calls c j with hs | hs
  · rw [hs]
    exact h
  · rw [hs]
    exact SessionTable.select_insert_of_some h

/-- The row of a thread, its biz_id with it, is the same in every later state. -/
theorem row_never_changes (calls : ι → GetOrCreate) {threadId : PyStr} {row : Session}
    (sched : List ι) (h : c.shared.select threadId = some row) :
    (exec (step calls) sched c).shared.select threadId = some row := by
  have hstep : ∀ (c : Config ι SessionTable GetOrCreatePhase) (j : ι),
      c.shared.select threadId = some row →
        (fire (step calls) c j).shared.select threadId = some row :=
    fun c j h => select_fire h j
  exact exec_invariant hstep sched h

theorem bound_fire {a : GetOrCreate} (h : Bound c.shared a) (j : ι) :
    Bound (fire (step calls) c j).shared a := by
  obtain ⟨row, hrow, hbiz⟩ := h
  exact ⟨row, select_fire hrow j, hbiz⟩

-- ============================================================================
-- Uncontested runs
-- ============================================================================

/-- What an uncontested run keeps true of a call in each phase. -/
def Honest (t : SessionTable) (a : GetOrCreate) : GetOrCreatePhase → Prop
  | .start => True
  | .missing => True
  | .inserted => Bound t a
  | .finished (.ok s) => s.bizId = a.bizId ∧ Bound t a
  | .finished (.error e) => ∃ msg, e = .sessionBizMismatch msg

theorem honest_of_bound {t t' : SessionTable} {a : GetOrCreate} {phase : GetOrCreatePhase}
    (hb : Bound t a → Bound t' a) (h : Honest t a phase) : Honest t' a phase := by
  cases phase with
  | start => exact h
  | missing => exact h
  | inserted => exact hb h
  | finished r =>
      cases r with
      | ok s => exact ⟨h.1, hb h.2⟩
      | error e => exact h

theorem honest_checked {t : SessionTable} {a : GetOrCreate} {row : Session}
    (h : t.select a.threadId = some row) : Honest t a (.finished (a.checked row)) := by
  by_cases hb : row.bizId = a.bizId
  · simp only [GetOrCreate.checked, hb, ne_eq, not_true_eq_false, if_false]
    exact ⟨hb, row, h, hb⟩
  · simp only [GetOrCreate.checked, ne_eq, hb, not_false_eq_true, if_true]
    exact ⟨_, rfl⟩

theorem honest_fire (hinv : ∀ j, Honest c.shared (calls j) (c.locals j))
    (hu : Uncontested calls c i) :
    ∀ j, Honest (fire (step calls) c i).shared (calls j) ((fire (step calls) c i).locals j) := by
  intro j
  by_cases hji : j = i
  · subst hji
    have hj := hinv j
    cases hphase : c.locals j with
    | start =>
        cases hrow : c.shared.select (calls j).threadId with
        | some row =>
            rw [(step_found hphase hrow).1, (step_found hphase hrow).2]
            exact honest_checked hrow
        | none =>
            rw [(step_missing hphase hrow).1]
            trivial
    | missing =>
        rw [(step_insert calls hphase).1, (step_insert calls hphase).2]
        refine ⟨_, @SessionTable.select_insert_self c.shared (calls j).newRow, ?_⟩
        cases hrow : c.shared.select (calls j).newRow.threadId with
        | none => rfl
        | some row => exact hu hphase row hrow
    | inserted =>
        rw [hphase] at hj
        obtain ⟨row, hrow, hbiz⟩ := hj
        rw [(step_reread calls hphase).1, (step_reread calls hphase).2, hrow]
        exact ⟨hbiz, row, hrow, hbiz⟩
    | finished r =>
        rw [step_finished hphase]
        exact hinv j
  · rw [fire_locals_of_ne hji]
    exact honest_of_bound (fun h => bound_fire h i) (hinv j)

omit [DecidableEq ι] in
theorem bizChecked_of_honest (hinv : ∀ j, Honest c.shared (calls j) (c.locals j)) :
    BizChecked calls c := by
  refine ⟨fun i s hi => ?_, fun i r row hi hrow hne => ?_⟩
  · have h := hinv i
    rw [hi] at h
    exact h.1
  · have h := hinv i
    rw [hi] at h
    cases r with
    | ok s =>
        obtain ⟨-, row', hrow', hbiz⟩ := h
        rw [hrow, Option.some.injEq] at hrow'
        exact absurd (hrow' ▸ hbiz) hne
    | error e =>
        obtain ⟨msg, rfl⟩ := h
        exact ⟨msg, rfl⟩

-- ============================================================================
-- Contested runs
-- ============================================================================

/-- A call that has inserted beside a row of another topic returns that row. -/
theorem foreign_row_returned (calls : ι → GetOrCreate) {row : Session} (sched : List ι)
    (h : c.locals i = .inserted) (hrow : c.shared.select (calls i).threadId = some row)
    {r : Except Exn Session} (hend : (exec (step calls) sched c).locals i = .finished r) :
    r = .ok (rowToSession row) := by
  have hstep : ∀ (c : Config ι SessionTable GetOrCreatePhase) (j : ι),
      (c.shared.select (calls i).threadId = some row ∧
        (c.locals i = .inserted ∨ c.locals i = .finished (.ok (rowToSession row)))) →
      ((fire (step calls) c j).shared.select (calls i).threadId = some row ∧
        ((fire (step calls) c j).locals i = .inserted ∨
          (fire (step calls) c j).locals i = .finished (.ok (rowToSession row)))) := by
    rintro c j ⟨hrow, hphase⟩
    refine ⟨select_fire hrow j, ?_⟩
    by_cases hij : i = j
    · subst hij
      rcases hphase with hphase | hphase
      · right
        rw [(step_reread calls hphase).1, hrow]
        rfl
      · right
        rw [step_finished hphase]
        exact hphase
    · rw [fire_locals_of_ne hij]
      exact hphase
  have hfinal := (exec_invariant hstep sched ⟨hrow, Or.inl h⟩).2
  rw [hend] at hfinal
  rcases hfinal with hfinal | hfinal
  · cases hfinal
  · exact GetOrCreatePhase.finished.inj hfinal

-- ============================================================================
-- Runs
-- ============================================================================

/-- Every run in which all calls end: sessions are returned and mismatches
    reported as asked, and no row that existed at any point of the run changes,
    exactly when every INSERT of the run finds its thread without a row or with
    one of the topic its call asked for. -/
theorem biz_checked_iff_uncontested (calls : ι → GetOrCreate) (t : SessionTable)
    (sched : List ι)
    (hdone : ∀ i, ∃ r, (exec (step calls) sched (initial t)).locals i = .finished r) :
    (BizChecked calls (exec (step calls) sched (initial t)) ∧
      ∀ pre post threadId row, sched = pre ++ post →
        (exec (step calls) pre (initial t)).shared.select threadId = some row →
        (exec (step calls) sched (initial t)).shared.select threadId = some row) ↔
      Along (step calls) (Uncontested calls) sched (initial t) := by
  constructor
  · rintro ⟨⟨hret, -⟩, -⟩
    rw [along_iff]
    rintro pre i post rfl hi row hrow
    by_contra hne
    obtain ⟨r, hr⟩ := hdone i
    rw [exec_append, exec_cons] at hr
    -- the INSERT gives way to the foreign row, which the second SELECT returns
    obtain ⟨hl, hs⟩ := step_insert calls hi
    have hkept : (fire (step calls) (exec (step calls) pre (initial t)) i).shared.select
        (calls i).threadId = some row := select_fire hrow i
    have hrow' := foreign_row_returned calls post hl hkept hr
    have hasked := hret i (rowToSession row)
    rw [exec_append, exec_cons, hr, hrow'] at hasked
    exact hne (hasked rfl)
  · intro halong
    have hstep : ∀ (c : Config ι SessionTable GetOrCreatePhase) i,
        (∀ j, Honest c.shared (calls j) (c.locals j)) → Uncontested calls c i →
        ∀ j, Honest (fire (step calls) c i).shared (calls j)
          ((fire (step calls) c i).locals j) :=
      fun c i hinv hu => honest_fire hinv hu
    have hinit : ∀ j, Honest (initial t : Config ι _ _).shared (calls j)
        ((initial t : Config ι SessionTable _).locals j) := fun j => trivial
    refine ⟨bizChecked_of_honest (exec_invariant_along hstep halong hinit), ?_⟩
    rintro pre post threadId row rfl hrow
    rw [exec_append]
    exact row_never_changes calls post hrow

/-- Two asks of one thread for two topics. -/
def contestingCalls : Bool → GetOrCreate
  | false => { threadId := py "th_1", bizId := py "topic_a", w3Account := py "alice" }
  | true => { threadId := py "th_1", bizId := py "topic_b", w3Account := py "alice" }

/-- One after the other, they all end, and the second is told of the mismatch. -/
theorem biz_checked_sequential_asks :
    (∀ i, ∃ r, (exec (step contestingCalls) [false, false, false, true]
        (initial .empty)).locals i = .finished r) ∧
      (BizChecked contestingCalls (exec (step contestingCalls) [false, false, false, true]
          (initial .empty)) ∧
        ∀ pre post threadId row, [false, false, false, true] = pre ++ post →
          (exec (step contestingCalls) pre (initial .empty)).shared.select threadId
            = some row →
          (exec (step contestingCalls) [false, false, false, true]
            (initial .empty)).shared.select threadId = some row) := by
  have hdone : ∀ i, ∃ r, (exec (step contestingCalls) [false, false, false, true]
      (initial .empty)).locals i = .finished r := by
    intro i
    cases i <;> exact ⟨_, rfl⟩
  refine ⟨hdone, (biz_checked_iff_uncontested contestingCalls .empty _ hdone).mpr ?_⟩
  refine ⟨?_, ?_, ?_, ?_, trivial⟩
  · intro h
    cases h
  · intro _ row hrow
    cases hrow
  · intro h
    cases h
  · intro h
    cases h

/-- Both SELECTs before both INSERTs: the ask for `topic_b` is given the session
    of `topic_a`. -/
theorem contesting_asks_return_foreign_session :
    ∃ s, (exec (step contestingCalls) [false, true, false, true, true]
        (initial .empty)).locals true = .finished (.ok s) ∧
      s.bizId = py "topic_a" ∧
      ¬ BizChecked contestingCalls (exec (step contestingCalls)
        [false, true, false, true, true] (initial .empty)) := by
  refine ⟨_, rfl, rfl, fun h => ?_⟩
  have hbiz := h.1 true _ rfl
  revert hbiz
  decide

end MasterAgent.SessionRace
