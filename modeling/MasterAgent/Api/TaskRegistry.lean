/-
  MasterAgent.Api.TaskRegistry

  The `ConnectionManager` of a connection against the tasks it has started.  A
  task is registered under the id its frame names, and removes the id its request
  was given: the two are one when the id is truthy.  As long as no ask reuses the
  id of a task that has not ended, the registry is exact; from this follow the
  cap on concurrent asks, and what cancel frames and the exit of the endpoint do.
-/

import MasterAgent.Api.Connection
import MasterAgent.Core.StreamGrammar
import MasterAgent.Lib.Registry

namespace MasterAgent

open Machine Registry

variable {σ : Type}

-- ============================================================================
-- The registry of a connection
-- ============================================================================

/-- The tasks as jobs, under the key that their end removes. -/
def askJobs : Jobs PyKey AskTask (Frame × Json) where
  ident := fun t => (t.frame, t.requestId)
  identKey := fun id => id.2.pyKey
  unfinished := fun t => ¬ t.Ended
  live := AskTask.live
  unfinished_of_live := by
    intro t h
    simp only [AskTask.live, Bool.and_eq_true] at h
    exact of_decide_eq_true h.1

/-- The registry leads to the live tasks and to no others. -/
def Connection.Exact (c : Connection) : Prop := Registry.Exact askJobs c.tasks c.active

namespace AskTask

variable {t : AskTask}

theorem live_iff : t.live = true ↔ ¬ t.Ended ∧ t.cancelled = false := by
  simp [live]

theorem not_ended {phase : Phase} (h : t.phase = phase)
    (hphase : ∀ n how, phase ≠ .ended n how) : ¬ t.Ended := by
  rintro ⟨n, how, h'⟩
  exact hphase n how (h.symm.trans h')

theorem cancel_live (t : AskTask) : t.cancel.live = false := by
  unfold cancel
  split
  · next h => simp [live, h]
  · simp [live]

theorem cancel_ident (t : AskTask) : askJobs.ident t.cancel = askJobs.ident t := by
  unfold cancel
  split <;> rfl

theorem cancel_ended (t : AskTask) : t.cancel.Ended ↔ t.Ended := by
  unfold cancel
  split
  · exact Iff.rfl
  · exact Iff.rfl

theorem ended_phase (t : AskTask) (n : Nat) (how : TaskEnd) :
    ({ t with phase := .ended n how } : AskTask).Ended := ⟨n, how, rfl⟩

theorem ended_live (t : AskTask) (n : Nat) (how : TaskEnd) :
    ({ t with phase := .ended n how } : AskTask).live = false := by
  rw [← Bool.not_eq_true, live_iff]
  exact fun h => h.1 (ended_phase t n how)

/-- A task that goes on running is as live as before. -/
theorem running_live (hopen : ¬ t.Ended) (n : Nat) :
    ({ t with phase := .running n } : AskTask).live = t.live := by
  have hrunning : ¬ ({ t with phase := .running n } : AskTask).Ended := by
    rintro ⟨m, how, h⟩
    cases h
  simp [live, hopen, hrunning]

end AskTask

namespace Connection

variable {c c' : Connection} {e : Endpoint σ} {past : List WsInput} {input : WsInput}

-- ============================================================================
-- What a step does to the tasks that are there
-- ============================================================================

/-- The tasks of `c'` are those of `c`, which may have ended or been cancelled. -/
abbrev Continues (c c' : Connection) : Prop := GoesOn askJobs c.tasks c'.tasks

theorem continues_exit (c : Connection) (cause : ExitCause) : Continues c (c.exit cause) := by
  intro i t' ht'
  rw [exit, cancelAll, List.getElem?_mapIdx] at ht'
  cases ht : c.tasks[i]? with
  | none =>
      rw [ht] at ht'
      cases ht'
  | some t =>
      rw [ht, Option.map_some, Option.some.injEq] at ht'
      subst ht'
      refine ⟨t, rfl, ?_⟩
      split
      · refine ⟨AskTask.cancel_ident t, fun h => (AskTask.cancel_ended t).not.mp h, fun h => ?_⟩
        have hdead : askJobs.live t.cancel = false := AskTask.cancel_live t
        rw [hdead] at h
        cases h
      · exact ⟨rfl, id, id⟩

theorem continues_cancelTask (c : Connection) (i : Nat) : Continues c (c.cancelTask i) := by
  apply goesOn_modify AskTask.cancel_ident
  · exact fun t _ hopen => (AskTask.cancel_ended t).not.mp hopen
  · intro t _ hlive
    have hdead : askJobs.live t.cancel = false := AskTask.cancel_live t
    rw [hdead] at hlive
    cases hlive

/-- A task that is resumed does not become live. -/
theorem continues_setPhase {i : Nat} {t : AskTask} (ht : c.tasks[i]? = some t) (hopen : ¬ t.Ended)
    {phase : Phase} (hlive : ({ t with phase := phase } : AskTask).live = true → t.live = true) :
    Continues c (c.setPhase i phase) := by
  apply goesOn_modify
  · exact fun _ => rfl
  · intro t' ht' _
    rw [ht, Option.some.injEq] at ht'
    exact ht' ▸ hopen
  · intro t' ht'
    rw [ht, Option.some.injEq] at ht'
    subst ht'
    exact hlive

theorem finish_tasks (c : Connection) (i : Nat) (t : AskTask) (how : TaskEnd) :
    (c.finish i t how).tasks = (c.setPhase i (.ended t.sentCount how)).tasks := by
  unfold finish
  cases t.requestId.pyKey <;> rfl

theorem continues_finish {i : Nat} {t : AskTask} (ht : c.tasks[i]? = some t) (hopen : ¬ t.Ended)
    (how : TaskEnd) : Continues c (c.finish i t how) := by
  rw [Continues, finish_tasks]
  apply continues_setPhase ht hopen
  rw [AskTask.ended_live]
  intro h
  cases h

theorem continues_resumed {i : Nat} {delivered : Bool} (h : Resumed e c i delivered c') :
    Continues c c' := by
  cases h with
  | idle => exact GoesOn.refl _ _
  | started ht hphase =>
      apply continues_setPhase ht (AskTask.not_ended hphase nofun)
      rw [AskTask.running_live (AskTask.not_ended hphase nofun)]
      exact id
  | dropped ht hphase =>
      apply continues_setPhase ht (AskTask.not_ended hphase nofun)
      rw [AskTask.ended_live]
      exact nofun
  | sent ht hphase hnext =>
      apply continues_setPhase ht (AskTask.not_ended hphase nofun)
      rw [AskTask.running_live (AskTask.not_ended hphase nofun)]
      exact id
  | finished ht hphase => exact continues_finish ht (AskTask.not_ended hphase nofun) _
  | cut ht hphase => exact continues_finish ht (AskTask.not_ended hphase nofun) _

/-- A step other than an accepted ask adds no task. -/
theorem continues_step (hno : ∀ frame, ¬ c.Accepts e input frame) :
    Continues c (c.step e input) := by
  have hcases := c.step_cases e input
  generalize c.step e input = c' at hcases ⊢
  cases hcases with
  | idle => exact GoesOn.refl _ _
  | answered => exact GoesOn.refl _ _
  | @exited cause => exact continues_exit c cause
  | accepted haccept => exact absurd haccept (hno _)
  | unregistered haccept => exact absurd haccept (hno _)
  | withdrawn => exact continues_cancelTask c _
  | resumed _ h => exact continues_resumed h

-- ============================================================================
-- The registry stays exact
-- ============================================================================

theorem Exact.exit (h : c.Exact) (cause : ExitCause) : (c.exit cause).Exact :=
  Registry.Exact.clear h AskTask.cancel_ident
    (fun t hopen => (AskTask.cancel_ended t).not.mp hopen) AskTask.cancel_live

/-- A task changes its phase and stays as live as it was. -/
theorem Exact.setPhase (h : c.Exact) {i : Nat} {t : AskTask} (ht : c.tasks[i]? = some t)
    (hopen : ¬ t.Ended) {phase : Phase}
    (hlive : ({ t with phase := phase } : AskTask).live = t.live) :
    (c.setPhase i phase).Exact := by
  apply Registry.Exact.modify h
  · exact fun _ => rfl
  · intro t' ht' _
    rw [ht, Option.some.injEq] at ht'
    exact ht' ▸ hopen
  · intro t' ht'
    rw [ht, Option.some.injEq] at ht'
    subst ht'
    exact hlive

theorem Exact.finish (h : c.Exact) {i : Nat} {t : AskTask} (ht : c.tasks[i]? = some t)
    (hopen : ¬ t.Ended) (how : TaskEnd) : (c.finish i t how).Exact := by
  unfold Connection.finish
  cases hk : t.requestId.pyKey with
  | some k =>
      exact Registry.Exact.retire h ht hopen hk (fun _ => rfl)
        (AskTask.ended_live t t.sentCount how)
  | none =>
      apply h.setPhase ht hopen
      rw [AskTask.ended_live, eq_comm, ← Bool.not_eq_true]
      -- a live task has a key
      intro hlive
      obtain ⟨k, hk'⟩ := h.keyed ht hlive
      rw [show askJobs.key t = t.requestId.pyKey from rfl, hk] at hk'
      cases hk'

theorem Exact.resumed (h : c.Exact) {i : Nat} {delivered : Bool}
    (hresumed : Resumed e c i delivered c') : c'.Exact := by
  cases hresumed with
  | idle => exact h
  | started ht hphase =>
      have hopen := AskTask.not_ended hphase nofun
      exact h.setPhase ht hopen (AskTask.running_live hopen 0)
  | @dropped t ht hphase hcancel =>
      apply h.setPhase ht (AskTask.not_ended hphase nofun)
      rw [AskTask.ended_live]
      simp [AskTask.live, hcancel]
  | sent ht hphase hnext =>
      have hopen := AskTask.not_ended hphase nofun
      exact h.setPhase ht hopen (AskTask.running_live hopen _)
  | finished ht hphase => exact h.finish ht (AskTask.not_ended hphase nofun) _
  | cut ht hphase => exact h.finish ht (AskTask.not_ended hphase nofun) _

/-- A cancel frame withdraws the task its id leads to. -/
theorem Exact.withdraw (h : c.Exact) {k : PyKey} {i : Nat} (hget : c.active.get? k = some i) :
    ((c.cancelTask i).remove k).Exact := by
  obtain ⟨t, ht, hlive, hkey⟩ := (h.get?_iff k i).mp hget
  exact Registry.Exact.retire h ht (askJobs.unfinished_of_live hlive) hkey AskTask.cancel_ident
    (AskTask.cancel_live t)

/-- The id of an ask is truthy and not that of a task that has not ended. -/
structure FreshId (c : Connection) (frame : Frame) : Prop where
  truthy : (frameId frame).truthy = true
  fresh : ∀ (i : Nat) (t : AskTask), c.tasks[i]? = some t → ¬ t.Ended →
    t.requestId.pyKey ≠ (frameId frame).pyKey

/-- Under a truthy id a task is registered as it will be removed. -/
theorem requestId_of_truthy {frame : Frame} (h : (frameId frame).truthy = true) (default : Json) :
    (frameGet frame (py "request_id")).orElse default = frameId frame := by
  have hget : frameGet frame (py "request_id") = frameId frame := by
    unfold frameId at h ⊢
    unfold frameGet
    cases hf : Json.field (py "request_id") frame with
    | some v => rfl
    | none =>
        rw [hf] at h
        cases h
  rw [Json.orElse, hget, if_pos h]

theorem Exact.accept (h : c.Exact) (e : Endpoint σ) {frame : Frame} {k : PyKey}
    (hkey : (frameId frame).pyKey = some k) (hfresh : FreshId c frame) :
    ((c.createTask e frame).add k c.tasks.length).Exact := by
  refine Registry.Exact.enter h ?_ ?_ ?_
  · rfl
  · show Json.pyKey (Json.orElse _ _) = _
    rw [requestId_of_truthy hfresh.truthy, hkey]
  · intro i t ht hopen hkey'
    exact hfresh.fresh i t ht hopen (hkey'.trans hkey.symm)

/-- A step keeps the registry exact, unless it is an ask that is accepted under an
    unhashable id or the id of a task that has not ended. -/
theorem Exact.step (h : c.Exact) (e : Endpoint σ)
    (hfresh : ∀ frame, c.Accepts e input frame →
      FreshId c frame ∧ (frameId frame).hashable = true) : (c.step e input).Exact := by
  have hcases := c.step_cases e input
  generalize c.step e input = c' at hcases ⊢
  cases hcases with
  | idle => exact h
  | answered => exact h
  | @exited cause => exact h.exit cause
  | accepted haccept hkey => exact h.accept e hkey (hfresh _ haccept).1
  | unregistered haccept hkey =>
      have hhash := (hfresh _ haccept).2
      rw [← pyKey_isSome, hkey] at hhash
      cases hhash
  | withdrawn _ _ hget => exact h.withdraw hget
  | resumed _ hresumed => exact h.resumed hresumed

-- ============================================================================
-- The cap
-- ============================================================================

theorem Exact.liveCount_eq (h : c.Exact) : c.liveCount = c.active.entries.length :=
  (Registry.Exact.length_active h).symm

theorem Continues.liveCount_le (h : Continues c c') : c'.liveCount ≤ c.liveCount :=
  GoesOn.countP_le h

theorem liveCount_createTask (c : Connection) (e : Endpoint σ) (frame : Frame) :
    (c.createTask e frame).liveCount = c.liveCount + 1 := by
  have hnew : (c.newTask e frame).live = true := by
    simp [AskTask.live, AskTask.Ended, newTask]
  simp [liveCount, createTask, List.countP_append, hnew]

/-- An exact registry that accepts has room for one more live task. -/
theorem Exact.room (h : c.Exact) (e : Endpoint σ) {frame : Frame} (haccept : c.canAccept = true) :
    (c.createTask e frame).liveCount ≤ maxConcurrent := by
  rw [liveCount_createTask, h.liveCount_eq]
  exact of_decide_eq_true haccept

/-- At most five tasks are live, and until the endpoint exits the registry is
    exact. -/
structure Capped (c : Connection) : Prop where
  cap : c.liveCount ≤ maxConcurrent
  exact : (∀ cause, c.loop ≠ .exited cause) → c.Exact

/-- Any ask that is accepted under a hashable id has a fresh one. -/
def NoReuse (e : Endpoint σ) (c : Connection) (input : WsInput) : Prop :=
  ∀ frame, c.Accepts e input frame → (frameId frame).hashable = true → FreshId c frame

theorem not_exited_of_receiving (h : c.loop = .receiving) (cause : ExitCause) :
    c.loop ≠ .exited cause := by
  intro hexit
  rw [h] at hexit
  cases hexit

theorem finish_loop (c : Connection) (i : Nat) (t : AskTask) (how : TaskEnd) :
    (c.finish i t how).loop = c.loop := by
  unfold Connection.finish
  cases t.requestId.pyKey <;> rfl

theorem finish_connected (c : Connection) (i : Nat) (t : AskTask) (how : TaskEnd) :
    (c.finish i t how).connected = c.connected := by
  unfold Connection.finish
  cases t.requestId.pyKey <;> rfl

theorem finish_sent (c : Connection) (i : Nat) (t : AskTask) (how : TaskEnd) :
    (c.finish i t how).sent = c.sent := by
  unfold Connection.finish
  cases t.requestId.pyKey <;> rfl

theorem resumed_loop {i : Nat} {delivered : Bool} (h : Resumed e c i delivered c') :
    c'.loop = c.loop := by
  cases h with
  | finished => exact finish_loop _ _ _ _
  | cut => exact finish_loop _ _ _ _
  | _ => rfl

theorem resumed_length {i : Nat} {delivered : Bool} (h : Resumed e c i delivered c') :
    c'.tasks.length = c.tasks.length := by
  cases h with
  | idle => rfl
  | finished => rw [finish_tasks, setPhase, List.length_modify]
  | cut => rw [finish_tasks, setPhase, List.length_modify]
  | _ => exact List.length_modify _ _ _

/-- A step keeps to the cap, unless it is an ask that is accepted under the id of a
    task that has not ended. -/
theorem Capped.step (h : Capped c) (hfresh : NoReuse e c input) : Capped (c.step e input) := by
  have hcases := c.step_cases e input
  generalize c.step e input = c' at hcases ⊢
  cases hcases with
  | idle => exact h
  | answered _ _ hbefore =>
      exact ⟨h.cap, fun _ => h.exact (not_exited_of_receiving hbefore)⟩
  | @exited cause =>
      exact ⟨Nat.le_trans (continues_exit c cause).liveCount_le h.cap,
        fun hopen => absurd rfl (hopen cause)⟩
  | @accepted frame k haccept hkey =>
      have hexact := h.exact (not_exited_of_receiving haccept.1)
      have hhash : (frameId frame).hashable = true := by
        rw [← pyKey_isSome, hkey]
        rfl
      exact ⟨hexact.room e haccept.2.2, fun _ => hexact.accept e hkey (hfresh _ haccept hhash)⟩
  | @unregistered frame haccept =>
      have hexact := h.exact (not_exited_of_receiving haccept.1)
      exact ⟨Nat.le_trans (continues_exit (c.createTask e frame) _).liveCount_le
        (hexact.room e haccept.2.2), fun hopen => absurd rfl (hopen _)⟩
  | @withdrawn _ k i _ _ hget =>
      refine ⟨Nat.le_trans (continues_cancelTask c i).liveCount_le h.cap, fun hopen => ?_⟩
      exact (h.exact hopen).withdraw hget
  | resumed _ hresumed =>
      refine ⟨Nat.le_trans (continues_resumed hresumed).liveCount_le h.cap, fun hopen => ?_⟩
      rw [resumed_loop hresumed] at hopen
      exact (h.exact hopen).resumed hresumed

end Connection

-- ============================================================================
-- Distinct ids
-- ============================================================================

/-- The ids of the asks among the inputs. -/
def askIds (e : Endpoint σ) (inputs : List WsInput) : List Json :=
  (inputs.filterMap (Connection.askFrame e)).map Connection.frameId

theorem askIds_concat (e : Endpoint σ) (past : List WsInput) (input : WsInput) :
    askIds e (past ++ [input]) =
      askIds e past ++ (Connection.askFrame e input).toList.map Connection.frameId := by
  simp only [askIds, List.filterMap_append, List.map_append]
  cases h : Connection.askFrame e input <;> simp [h]

/-- The asks carry non-empty, pairwise distinct strings as ids. -/
structure WellUsed (e : Endpoint σ) (inputs : List WsInput) : Prop where
  text : ∀ id ∈ askIds e inputs, ∃ s, id = .str s ∧ s ≠ []
  distinct : (askIds e inputs).Nodup

namespace Connection

variable {c c' : Connection} {e : Endpoint σ} {past : List WsInput} {input : WsInput}

/-- If the input is an ask, its id is a non-empty string and that of no ask before. -/
def NewId (e : Endpoint σ) (past : List WsInput) (input : WsInput) : Prop :=
  ∀ frame, askFrame e input = some frame →
    (∃ s, frameId frame = .str s ∧ s ≠ []) ∧ frameId frame ∉ askIds e past

/-- What well-used ids keep true. -/
structure Orderly (e : Endpoint σ) (past : List WsInput) (c : Connection) : Prop where
  exact : c.Exact
  /-- A task has the id of its frame, which is the id of an ask. -/
  named : ∀ (i : Nat) (t : AskTask), c.tasks[i]? = some t →
    t.requestId = frameId t.frame ∧ t.requestId ∈ askIds e past ∧
      ∃ s, t.requestId = .str s ∧ s ≠ []
  /-- After the exit no task is live. -/
  exited : ∀ cause, c.loop = .exited cause → c.liveCount = 0

theorem truthy_of_text {v : Json} {s : PyStr} (hs : v = .str s) (hne : s ≠ []) :
    v.truthy = true := by
  subst hs
  cases s with
  | nil => exact absurd rfl hne
  | cons _ _ => rfl

/-- The id of a well-used ask is fresh. -/
theorem Orderly.freshId (h : Orderly e past c) {frame : Frame}
    (hid : ∃ s, frameId frame = .str s ∧ s ≠ []) (hnew : frameId frame ∉ askIds e past) :
    FreshId c frame := by
  obtain ⟨s, hs, hne⟩ := hid
  refine ⟨truthy_of_text hs hne, fun i t ht _ hkey => ?_⟩
  obtain ⟨-, hmem, s', hs', -⟩ := h.named i t ht
  rw [hs', hs, pyKey_str, pyKey_str, Option.some.injEq, PyKey.str.injEq] at hkey
  rw [hs', hkey, ← hs] at hmem
  exact hnew hmem

theorem createTask_tasks {frame : Frame} {i : Nat} {t : AskTask}
    (ht : (c.createTask e frame).tasks[i]? = some t) :
    c.tasks[i]? = some t ∨ i = c.tasks.length ∧ t = c.newTask e frame := by
  by_cases hi : i < c.tasks.length
  · rw [createTask, List.getElem?_append_left hi] at ht
    exact Or.inl ht
  · have hle := Nat.le_of_not_lt hi
    rw [createTask, List.getElem?_append_right hle, List.getElem?_singleton] at ht
    split at ht
    · next hzero =>
      rw [Option.some.injEq] at ht
      exact Or.inr ⟨by omega, ht.symm⟩
    · cases ht

/-- A task is one that was there, or the one that an accepted ask starts. -/
theorem task_of_step {i : Nat} {t : AskTask} (ht : (c.step e input).tasks[i]? = some t) :
    (∃ t₀, c.tasks[i]? = some t₀ ∧ askJobs.ident t = askJobs.ident t₀) ∨
      i = c.tasks.length ∧ ∃ frame, c.Accepts e input frame ∧
        askJobs.ident t = askJobs.ident (c.newTask e frame) := by
  have hcreated : ∀ {frame : Frame} {c₁ : Connection}, c.Accepts e input frame →
      Continues (c.createTask e frame) c₁ → c₁.tasks[i]? = some t →
      (∃ t₀, c.tasks[i]? = some t₀ ∧ askJobs.ident t = askJobs.ident t₀) ∨
        i = c.tasks.length ∧ ∃ frame, c.Accepts e input frame ∧
          askJobs.ident t = askJobs.ident (c.newTask e frame) := by
    intro frame c₁ haccept hgoes ht
    obtain ⟨t₁, ht₁, hident, -, -⟩ := hgoes i t ht
    rcases createTask_tasks ht₁ with hold | ⟨hi, hnew⟩
    · exact Or.inl ⟨t₁, hold, hident⟩
    · exact Or.inr ⟨hi, frame, haccept, hnew ▸ hident⟩
  by_cases hno : ∀ frame, ¬ c.Accepts e input frame
  · obtain ⟨t₀, ht₀, hident, -, -⟩ := continues_step hno i t ht
    exact Or.inl ⟨t₀, ht₀, hident⟩
  · have hcases := c.step_cases e input
    generalize c.step e input = c' at hcases ht
    cases hcases with
    | accepted haccept => exact hcreated haccept (GoesOn.refl _ _) ht
    | unregistered haccept => exact hcreated haccept (continues_exit _ _) ht
    | idle => exact Or.inl ⟨t, ht, rfl⟩
    | answered => exact Or.inl ⟨t, ht, rfl⟩
    | @exited cause =>
        obtain ⟨t₀, ht₀, hident, -, -⟩ := continues_exit c cause i t ht
        exact Or.inl ⟨t₀, ht₀, hident⟩
    | @withdrawn _ k j =>
        obtain ⟨t₀, ht₀, hident, -, -⟩ := continues_cancelTask c j i t ht
        exact Or.inl ⟨t₀, ht₀, hident⟩
    | resumed _ hresumed =>
        obtain ⟨t₀, ht₀, hident, -, -⟩ := continues_resumed hresumed i t ht
        exact Or.inl ⟨t₀, ht₀, hident⟩

/-- An endpoint that exits empties its registry. -/
theorem step_exited {cause : ExitCause} (h : (c.step e input).loop = .exited cause) :
    c.loop = .exited cause ∧ (∀ frame, ¬ c.Accepts e input frame) ∨
      (c.step e input).active = .empty := by
  have hno : ∀ cause, c.loop = .exited cause → ∀ frame, ¬ c.Accepts e input frame :=
    fun cause hexit frame haccept => not_exited_of_receiving haccept.1 cause hexit
  have hcases := c.step_cases e input
  generalize c.step e input = c' at hcases h ⊢
  cases hcases with
  | idle => exact Or.inl ⟨h, hno _ h⟩
  | answered _ hloop => exact absurd h (hloop _)
  | exited => exact Or.inr rfl
  | accepted haccept => exact absurd h (not_exited_of_receiving haccept.1 _)
  | unregistered => exact Or.inr rfl
  | withdrawn => exact Or.inl ⟨h, hno _ h⟩
  | resumed _ hresumed =>
      rw [resumed_loop hresumed] at h
      exact Or.inl ⟨h, hno _ h⟩

theorem orderly_ready : Orderly e [] .ready where
  exact := Registry.Exact.empty
  named := by
    intro i t ht
    cases ht
  exited := by
    intro cause hexit
    cases hexit

/-- A step under well-used ids. -/
theorem Orderly.step (h : Orderly e past c)
    (hinput : NewId e past input) : Orderly e (past ++ [input]) (c.step e input) := by
  have hfresh : ∀ frame, c.Accepts e input frame →
      FreshId c frame ∧ (frameId frame).hashable = true := by
    rintro frame ⟨-, hask, -⟩
    obtain ⟨hid, hnew⟩ := hinput frame hask
    refine ⟨h.freshId hid hnew, ?_⟩
    obtain ⟨s, hs, -⟩ := hid
    rw [hs]
    rfl
  have hexact := h.exact.step e hfresh
  refine ⟨hexact, fun i t ht => ?_, fun cause hexit => ?_⟩
  · rw [askIds_concat]
    rcases task_of_step ht with ⟨t₀, ht₀, hident⟩ | ⟨-, frame, ⟨-, hask, -⟩, hident⟩
    · obtain ⟨hframe, hreq⟩ := Prod.mk.inj hident
      obtain ⟨hname, hmem, hs⟩ := h.named i t₀ ht₀
      rw [hreq, hframe]
      exact ⟨hname, List.mem_append_left _ hmem, hs⟩
    · obtain ⟨hframe, hreq⟩ := Prod.mk.inj hident
      obtain ⟨⟨s, hs, hne⟩, -⟩ := hinput frame hask
      have hname : t.requestId = frameId frame := by
        rw [hreq]
        exact requestId_of_truthy (truthy_of_text hs hne) _
      rw [hname, hask]
      exact ⟨congrArg frameId hframe.symm, List.mem_append_right _ (List.mem_singleton.mpr rfl),
        s, hs, hne⟩
  · rcases step_exited hexit with ⟨hbefore, hno⟩ | hempty
    · have hle := (continues_step hno).liveCount_le
      rw [h.exited cause hbefore] at hle
      exact Nat.le_zero.mp hle
    · rw [hexact.liveCount_eq, hempty]
      rfl

end Connection

namespace WellUsed

variable {e : Endpoint σ} {inputs past rest : List WsInput} {input : WsInput}

theorem newId (h : WellUsed e inputs) (heq : inputs = past ++ input :: rest) :
    Connection.NewId e past input := by
  intro frame hask
  have hids : askIds e inputs = askIds e past ++ Connection.frameId frame :: askIds e rest := by
    simp [askIds, heq, hask]
  obtain ⟨htext, hdistinct⟩ := h
  rw [hids] at htext hdistinct
  refine ⟨htext _ (List.mem_append_right _ List.mem_cons_self), fun hmem => ?_⟩
  exact (List.nodup_append.mp hdistinct).2.2 _ hmem _ List.mem_cons_self rfl

theorem before (h : WellUsed e inputs) (heq : inputs = past ++ rest) : WellUsed e past := by
  have hids : askIds e inputs = askIds e past ++ askIds e rest := by
    simp [askIds, heq]
  obtain ⟨htext, hdistinct⟩ := h
  rw [hids] at htext hdistinct
  exact ⟨fun id hid => htext id (List.mem_append_left _ hid), (List.nodup_append.mp hdistinct).1⟩

end WellUsed

theorem after_orderly {e : Endpoint σ} {inputs : List WsInput} (h : WellUsed e inputs) :
    Connection.Orderly e inputs (e.after inputs) := by
  exact @exec_invariant_along _ _ _ _ _ (fun past _ => Connection.NewId e past)
    (Connection.Orderly e) Connection.orderly_ready
    (fun past c input horder hinput => horder.step hinput) fun _ _ _ => h.newId

theorem wellUsed_of_texts {e : Endpoint σ} {inputs : List WsInput} (ids : List PyStr)
    (h : askIds e inputs = ids.map .str) (hne : [] ∉ ids) (hnodup : ids.Nodup) :
    WellUsed e inputs := by
  constructor
  · intro id hid
    rw [h, List.mem_map] at hid
    obtain ⟨s, hs, rfl⟩ := hid
    exact ⟨s, rfl, fun hempty => hne (hempty ▸ hs)⟩
  · rw [h]
    exact hnodup.map fun _ _ heq => Json.str.inj heq

/-- Well-used ids are not reused. -/
theorem WellUsed.noReuse {e : Endpoint σ} {inputs : List WsInput} (h : WellUsed e inputs) :
    Along (Connection.step e) (fun _ => Connection.NoReuse e) .ready inputs := by
  rintro past input rest heq frame ⟨-, hask, -⟩ -
  obtain ⟨hid, hnew⟩ := h.newId heq frame hask
  exact (after_orderly (h.before heq)).freshId hid hnew

-- ============================================================================
-- An endpoint to run
-- ============================================================================

/-- The codec that knows the texts of a table. -/
def tableCodec (table : List (PyStr × Json)) : FrameCodec where
  loads := fun raw => match table.find? fun entry => entry.1 = raw with
    | some entry => .ok entry.2
    | none => .error (.decode (py "Expecting value"))
  repr := fun _ => py "..."

/-- The text `name`, which is a frame of the operation `op` with the fields given. -/
def clientText (name : String) (op : ClientOp) (fields : List (PyStr × Json)) : PyStr × Json :=
  (py name, .obj ((py "op", .str op.text) :: fields))

/-- An endpoint without topics that knows some asks and a cancel. -/
def smallEndpoint : Endpoint Unit where
  codec := tableCodec [
    clientText "a" .ask [(py "request_id", .str (py "a"))],
    clientText "b" .ask [(py "request_id", .str (py "b"))],
    clientText "cancel b" .cancel [(py "request_id", .str (py "b"))],
    clientText "absent" .ask [],
    clientText "null" .ask [(py "request_id", .null)],
    clientText "zero" .ask [(py "request_id", .int 0)]]
  topics := ⟨.empty⟩
  context := { bizId := py "topic", w3Account := py "alice",
               identity := { w3Account := py "alice", rawClaims := [] } }
  ulid := fun _ => py "u"
  env := fun _ => plainEnv idleRepos fun w => (py "1", w)
  world := fun _ => ()

/-- A text arrives. -/
def receives (name : String) : WsInput := .frame (py name) true

/-- A task of the endpoint starts, sends its two events and ends. -/
def runsToEnd (i : Nat) : List WsInput := List.replicate 4 (.resume i true)

/-- One task runs to its end after the other has been cancelled. -/
def twoAsks : List WsInput :=
  [receives "a", receives "b", receives "cancel b", .resume 1 true] ++ runsToEnd 0

set_option maxRecDepth 20000 in
theorem twoAsks_wellUsed : WellUsed smallEndpoint twoAsks :=
  wellUsed_of_texts [py "a", py "b"] rfl (by decide) (by decide)

-- ============================================================================
-- The cap on concurrent asks
-- ============================================================================

/-- For every sequence of frames and every order in which tasks go on: if no ask
    is accepted under a falsy id or the id of a task that has not ended, at most
    five tasks are live in every state, and an ask is refused only when exactly
    five are. -/
theorem concurrency_capped (e : Endpoint σ) (inputs : List WsInput)
    (h : Along (Connection.step e) (fun _ => Connection.NoReuse e) .ready inputs) :
    (∀ n, (e.after (inputs.take n)).liveCount ≤ Connection.maxConcurrent) ∧
      ∀ past input rest, inputs = past ++ input :: rest → (e.after past).Refuses e input →
        (e.after past).liveCount = Connection.maxConcurrent := by
  have hcapped : ∀ n, Connection.Capped (e.after (inputs.take n)) := by
    intro n
    exact @exec_invariant_along _ _ _ _ _ _ (fun _ => Connection.Capped)
      ⟨Nat.zero_le _, fun _ => Registry.Exact.empty⟩
      (fun _ c input hc hinput => hc.step hinput) (h.take n)
  refine ⟨fun n => (hcapped n).cap, ?_⟩
  rintro past input rest rfl ⟨hloop, -, hfull⟩
  have hpast : Connection.Capped (e.after past) := by
    have htake := hcapped past.length
    rwa [List.take_left] at htake
  have hexact := hpast.exact (Connection.not_exited_of_receiving hloop)
  apply Nat.le_antisymm hpast.cap
  rw [hexact.liveCount_eq]
  exact Nat.le_of_not_lt (of_decide_eq_false hfull)

set_option maxRecDepth 20000 in
/-- Two asks with ids of their own. -/
theorem concurrency_capped_twoAsks :
    (∀ n, (smallEndpoint.after (twoAsks.take n)).liveCount ≤ Connection.maxConcurrent) ∧
      (smallEndpoint.after (twoAsks.take 2)).liveCount = 2 ∧
      (smallEndpoint.after twoAsks).liveCount = 0 :=
  ⟨(concurrency_capped smallEndpoint twoAsks twoAsks_wellUsed.noReuse).1, by decide, by decide⟩

set_option maxRecDepth 20000 in
/-- Six asks without an id are all accepted.  And three asks under falsy ids that
    have long ended leave room for two more only. -/
theorem not_concurrency_capped :
    (smallEndpoint.after (List.replicate 6 (receives "absent"))).liveCount = 6 ∧
    let stale := [receives "absent", receives "null", receives "zero"] ++ runsToEnd 0 ++
      runsToEnd 1 ++ runsToEnd 2 ++ [receives "a", receives "b"]
    (smallEndpoint.after stale).Refuses smallEndpoint (receives "absent") ∧
      (smallEndpoint.after stale).liveCount = 2 := by
  refine ⟨by decide, ⟨by decide, ⟨_, rfl⟩, by decide⟩, by decide⟩

-- ============================================================================
-- The registry under well-used ids
-- ============================================================================

theorem pyKey_eq_str {v : Json} {s : PyStr} : v.pyKey = some (.str s) ↔ v = .str s := by
  constructor
  · intro h
    cases v with
    | str t =>
        rw [pyKey_str, Option.some.injEq, PyKey.str.injEq] at h
        rw [h]
    | float x =>
        simp only [Json.pyKey] at h
        split at h
        · cases h
        · split at h <;> cases h
    | _ => cases h
  · rintro rfl
    rfl

/-- For every interleaving under well-used ids: the registry maps exactly the ids
    of the live tasks to these tasks, so that a slot is taken for each of them and
    for nothing else; a cancel frame cancels the task of its id if that is live,
    and no other; and once the endpoint has exited, every task that has not ended
    has been cancelled. -/
theorem registry_exact (e : Endpoint σ) (inputs : List WsInput) (h : WellUsed e inputs) :
    let c := e.after inputs
    (∀ (k : PyKey) (i : Nat), c.active.get? k = some i ↔
      ∃ (t : AskTask) (s : PyStr), c.tasks[i]? = some t ∧ t.live = true ∧
        t.requestId = .str s ∧ t.requestId = Connection.frameId t.frame ∧ k = .str s) ∧
    c.active.entries.length = c.liveCount ∧
    (∀ (raw : PyStr) (delivered : Bool) (frame : Frame) (s : PyStr), c.loop = .receiving →
      decodeWsFrame e.codec raw = .ok (.cancel, frame) → Connection.frameId frame = .str s →
      ∀ (i : Nat) (t : AskTask), c.tasks[i]? = some t →
        (c.step e (.frame raw delivered)).tasks[i]? =
          some (if t.live && t.requestId.isStr s then { t with cancelled := true } else t)) ∧
    ∀ cause, c.loop = .exited cause →
      ∀ t ∈ c.tasks, t.Ended ∨ t.cancelled = true := by
  intro c
  have horder := after_orderly h
  have hexact : Connection.Exact c := horder.exact
  refine ⟨fun k i => ?_, hexact.liveCount_eq.symm, ?_, ?_⟩
  · rw [hexact.get?_iff]
    constructor
    · rintro ⟨t, ht, hlive, hkey⟩
      obtain ⟨hname, -, s, hs, -⟩ := horder.named i t ht
      refine ⟨t, s, ht, hlive, hs, hname, ?_⟩
      have hkey' : t.requestId.pyKey = some k := hkey
      rw [hs, pyKey_str, Option.some.injEq] at hkey'
      exact hkey'.symm
    · rintro ⟨t, s, ht, hlive, hs, -, rfl⟩
      exact ⟨t, ht, hlive, pyKey_eq_str.mpr hs⟩
  · intro raw delivered frame s hloop hdecode hid i t ht
    -- the task of the id is the one the registry leads to
    have htarget : c.active.get? (.str s) = some i ↔ t.live = true ∧ t.requestId = .str s := by
      rw [hexact.get?_iff]
      constructor
      · rintro ⟨t', ht', hlive, hkey⟩
        rw [ht, Option.some.injEq] at ht'
        subst ht'
        exact ⟨hlive, pyKey_eq_str.mp hkey⟩
      · rintro ⟨hlive, hs⟩
        exact ⟨t, ht, hlive, pyKey_eq_str.mpr hs⟩
    cases hget : c.active.get? (.str s) with
    | none =>
        have hcancel : c.step e (.frame raw delivered) = c := by
          simp only [Connection.step, if_pos hloop, Connection.onFrame, hdecode,
            Connection.onCancel, hid, pyKey_str, hget]
        rw [hget] at htarget
        have hother : (t.live && t.requestId.isStr s) = false := by
          rw [← Bool.not_eq_true, Bool.and_eq_true, Json.isStr_eq_true, ← htarget]
          simp
        rw [hcancel, hother]
        exact ht
    | some j =>
        have hcancel : c.step e (.frame raw delivered)
            = (c.cancelTask j).remove (.str s) := by
          simp only [Connection.step, if_pos hloop, Connection.onFrame, hdecode,
            Connection.onCancel, hid, pyKey_str, hget]
        rw [hget, Option.some.injEq] at htarget
        rw [hcancel]
        simp only [Connection.remove, Connection.cancelTask]
        by_cases hji : j = i
        · have hthis : (t.live && t.requestId.isStr s) = true := by
            rw [Bool.and_eq_true, Json.isStr_eq_true]
            exact htarget.mp hji
          have hopen : ¬ t.Ended := (AskTask.live_iff.mp (htarget.mp hji).1).1
          rw [hthis, hji, List.getElem?_modify_eq, ht]
          simp [AskTask.cancel, hopen]
        · have hother : (t.live && t.requestId.isStr s) = false := by
            rw [← Bool.not_eq_true, Bool.and_eq_true, Json.isStr_eq_true, ← htarget]
            exact hji
          rw [hother, List.getElem?_modify_ne _ _ hji]
          exact ht
  · intro cause hexit t ht
    have hzero := horder.exited cause hexit
    rw [Connection.liveCount, List.countP_eq_zero] at hzero
    have hdead := hzero t ht
    rw [AskTask.live_iff] at hdead
    by_cases hended : t.Ended
    · exact Or.inl hended
    · right
      rw [← Bool.not_eq_false]
      exact fun hkeep => hdead ⟨hended, hkeep⟩

/-- While both tasks run, a cancel frame ends the second. -/
theorem registry_exact_twoAsks :
    let c := smallEndpoint.after (twoAsks.take 2)
    (∃ t : AskTask, c.tasks[1]? = some t ∧ t.live = true ∧
      (c.step smallEndpoint (receives "cancel b")).tasks[1]? =
        some { t with cancelled := true }) := by
  intro c
  have hused : WellUsed smallEndpoint (twoAsks.take 2) :=
    wellUsed_of_texts [py "a", py "b"] rfl (by decide) (by decide)
  obtain ⟨-, -, hcancel, -⟩ := registry_exact smallEndpoint (twoAsks.take 2) hused
  exact ⟨_, rfl, by decide, hcancel (py "cancel b") true _ (py "b") (by decide) rfl rfl 1 _ rfl⟩

end MasterAgent
