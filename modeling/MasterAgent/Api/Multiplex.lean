/-
  MasterAgent.Api.Multiplex

  The answers of several asks on one connection.  Every task sends the events of
  its own run under its own id.  What a client receives under an id is therefore
  a beginning of what `ChatService.handle` yields for that ask, whatever else
  happens on the connection in the meantime.
-/

import MasterAgent.Api.TaskRegistry

namespace MasterAgent

open Machine Registry

variable {σ : Type}

/-- An event as the client decodes it. -/
def ChatEvent.decoded (ev : ChatEvent) : PyStr × Json := (ev.type.text, ev.data)

/-- The events that frames carry under an id. -/
def streamUnder (s : PyStr) (frames : List Json) : List (PyStr × Json) :=
  ((frames.filterMap eventOf).filter fun ev => ev.1.isStr s).map Prod.snd

/-- The events a client has received under an id. -/
def Connection.streamOf (c : Connection) (s : PyStr) : List (PyStr × Json) :=
  streamUnder s c.sent

theorem streamUnder_append (s : PyStr) (frames frames' : List Json) :
    streamUnder s (frames ++ frames') = streamUnder s frames ++ streamUnder s frames' := by
  simp [streamUnder]

theorem streamUnder_other {frame : Json} (h : eventOf frame = none) (s : PyStr) :
    streamUnder s [frame] = [] := by
  simp [streamUnder, h]

theorem streamUnder_encodeWs (s s' : PyStr) (ev : ChatEvent) :
    streamUnder s [encodeWs ev (.str s')] = if s' = s then [ev.decoded] else [] := by
  by_cases h : s' = s
  · simp [streamUnder, ChatEvent.decoded, Json.isStr, h]
  · simp [streamUnder, Json.isStr, h]

theorem streamUnder_events (s s' : PyStr) (evs : List ChatEvent) :
    streamUnder s (evs.map fun ev => encodeWs ev (.str s')) =
      if s' = s then evs.map ChatEvent.decoded else [] := by
  induction evs with
  | nil => exact (ite_self _).symm
  | cons ev evs ih =>
      rw [List.map_cons, ← List.singleton_append, streamUnder_append, streamUnder_encodeWs, ih]
      split <;> rfl

-- ============================================================================
-- A task goes on
-- ============================================================================

/-- How often a task can still be resumed, when its run has `total` events. -/
def AskTask.remaining (total : Nat) (t : AskTask) : Nat :=
  match t.phase with
  | .created => total + 2
  | .running n => total + 1 - n
  | .ended _ _ => 0

theorem AskTask.remaining_pos {total : Nat} {t : AskTask} (hopen : ¬ t.Ended)
    (hcount : t.sentCount ≤ total) : 0 < t.remaining total := by
  unfold remaining
  cases hphase : t.phase with
  | created => exact Nat.succ_pos _
  | running n =>
      rw [sentCount, hphase] at hcount
      exact Nat.sub_pos_of_lt (Nat.lt_succ_of_le hcount)
  | ended n how => exact absurd ⟨n, how, hphase⟩ hopen

/-- The input resumes task `i`. -/
def WsInput.resumes (i : Nat) : WsInput → Bool
  | .resume j _ => j = i
  | _ => false

namespace Connection

variable {c c' : Connection} {e : Endpoint σ} {past : List WsInput} {input : WsInput}

theorem script_congr {t t' : AskTask} (h : askJobs.ident t' = askJobs.ident t) (i : Nat) :
    script e i t' = script e i t := by
  obtain ⟨hframe, hreq⟩ := Prod.mk.inj h
  rw [script, hframe, hreq]
  rfl

theorem sentCount_congr {t t' : AskTask} (h : t'.phase = t.phase) :
    t'.sentCount = t.sentCount := by
  rw [AskTask.sentCount, AskTask.sentCount, h]

theorem ended_congr {t t' : AskTask} (h : t'.phase = t.phase) : t'.Ended ↔ t.Ended := by
  rw [AskTask.Ended, AskTask.Ended, h]

theorem cancel_phase (t : AskTask) : t.cancel.phase = t.phase := by
  unfold AskTask.cancel
  split <;> rfl

/-- What becomes of a task in a step: it is the same task, and no further from its
    end, of which it is never past. -/
structure GoneOn (total : Nat) (t t' : AskTask) : Prop where
  ident : askJobs.ident t' = askJobs.ident t
  remaining : t'.remaining total ≤ t.remaining total
  count : t'.sentCount ≤ total

theorem GoneOn.of_phase {total : Nat} {t t' : AskTask} (hcount : t.sentCount ≤ total)
    (hident : askJobs.ident t' = askJobs.ident t) (hphase : t'.phase = t.phase) :
    GoneOn total t t' where
  ident := hident
  remaining := by
    rw [AskTask.remaining, AskTask.remaining, hphase]
  count := by
    rw [sentCount_congr hphase]
    exact hcount

theorem GoneOn.trans {total : Nat} {t t' t'' : AskTask} (h : GoneOn total t t')
    (h' : GoneOn total t' t'') : GoneOn total t t'' where
  ident := h'.ident.trans h.ident
  remaining := Nat.le_trans h'.remaining h.remaining
  count := h'.count

theorem setPhase_self {i : Nat} {t : AskTask} (ht : c.tasks[i]? = some t) (phase : Phase) :
    (c.setPhase i phase).tasks[i]? = some { t with phase := phase } := by
  rw [setPhase, List.getElem?_modify_eq, ht]
  rfl

theorem setPhase_other {i j : Nat} (hij : j ≠ i) (phase : Phase) :
    (c.setPhase j phase).tasks[i]? = c.tasks[i]? := by
  rw [setPhase, List.getElem?_modify_ne _ _ hij]

/-- A resumption of task `j` brings it nearer to its end, and moves no other. -/
theorem goneOn_resumed {i j : Nat} {t : AskTask} {delivered : Bool}
    (ht : c.tasks[i]? = some t) (hcount : t.sentCount ≤ (script e i t).yields.length)
    (h : Resumed e c j delivered c') :
    ∃ t', c'.tasks[i]? = some t' ∧ GoneOn (script e i t).yields.length t t' ∧
      (j = i → t'.remaining (script e i t).yields.length
        ≤ t.remaining (script e i t).yields.length - 1) := by
  -- a move of task `j` to another phase
  have hmove : ∀ {u : AskTask} {phase : Phase}, c.tasks[j]? = some u →
      c'.tasks = (c.setPhase j phase).tasks →
      (j = i → ({ t with phase := phase } : AskTask).sentCount ≤ (script e i t).yields.length ∧
        ({ t with phase := phase } : AskTask).remaining (script e i t).yields.length
          ≤ t.remaining (script e i t).yields.length - 1) →
      ∃ t', c'.tasks[i]? = some t' ∧ GoneOn (script e i t).yields.length t t' ∧
        (j = i → t'.remaining (script e i t).yields.length
          ≤ t.remaining (script e i t).yields.length - 1) := by
    intro u phase hu htasks hnear
    rw [htasks]
    by_cases hij : j = i
    · subst hij
      obtain ⟨hcount', hless⟩ := hnear rfl
      exact ⟨_, setPhase_self ht phase, ⟨rfl, Nat.le_trans hless (Nat.sub_le _ _), hcount'⟩,
        fun _ => hless⟩
    · rw [setPhase_other hij]
      exact ⟨t, ht, .of_phase hcount rfl rfl, fun heq => absurd heq hij⟩
  have hsame : ∀ {u : AskTask}, c.tasks[j]? = some u → j = i → u = t := by
    rintro u hu rfl
    exact Option.some.inj (hu.symm.trans ht)
  cases h with
  | idle hdone =>
      refine ⟨t, ht, .of_phase hcount rfl rfl, ?_⟩
      rintro rfl
      obtain ⟨n, how, hphase⟩ := hdone t ht
      simp [AskTask.remaining, hphase]
  | started hu hphase =>
      refine hmove hu rfl fun hij => ?_
      rw [hsame hu hij] at hphase
      exact ⟨Nat.zero_le _, by simp [AskTask.remaining, hphase]⟩
  | dropped hu hphase =>
      exact hmove hu rfl fun _ => ⟨Nat.zero_le _, Nat.zero_le _⟩
  | @sent u n ev hu hphase hnext =>
      refine hmove hu rfl fun hij => ?_
      obtain rfl := hsame hu hij
      subst hij
      obtain ⟨hn, -⟩ := List.getElem?_eq_some_iff.mp hnext
      refine ⟨hn, ?_⟩
      simp only [AskTask.remaining, hphase]
      omega
  | @finished u n hu hphase =>
      refine hmove hu (finish_tasks c j u .finished) fun hij => ?_
      obtain rfl := hsame hu hij
      exact ⟨hcount, Nat.zero_le _⟩
  | @cut u n how hu hphase =>
      refine hmove hu (finish_tasks c j u how) fun hij => ?_
      obtain rfl := hsame hu hij
      exact ⟨hcount, Nat.zero_le _⟩

theorem exit_tasks (c : Connection) (cause : ExitCause) (i : Nat) :
    (c.exit cause).tasks[i]? = (c.tasks[i]?).map fun t =>
      if i ∈ c.active.entries.map Prod.snd then t.cancel else t :=
  List.getElem?_mapIdx

/-- A task that is there goes on in every step. -/
theorem goneOn_step {i : Nat} {t : AskTask} (ht : c.tasks[i]? = some t)
    (hcount : t.sentCount ≤ (script e i t).yields.length) :
    ∃ t', (c.step e input).tasks[i]? = some t' ∧ GoneOn (script e i t).yields.length t t' := by
  have hcancel := GoneOn.of_phase hcount (AskTask.cancel_ident t) (cancel_phase t)
  have hexit : ∀ {c₁ : Connection} (cause : ExitCause), c₁.tasks[i]? = some t →
      ∃ t', (c₁.exit cause).tasks[i]? = some t' ∧
        GoneOn (script e i t).yields.length t t' := by
    intro c₁ cause ht₁
    rw [exit_tasks, ht₁, Option.map_some]
    split
    · exact ⟨_, rfl, hcancel⟩
    · exact ⟨t, rfl, .of_phase hcount rfl rfl⟩
  have hcreate : ∀ frame, (c.createTask e frame).tasks[i]? = some t := by
    intro frame
    rw [createTask, List.getElem?_append_left (List.getElem?_eq_some_iff.mp ht).1, ht]
  have hcases := c.step_cases e input
  generalize c.step e input = c' at hcases ⊢
  cases hcases with
  | idle => exact ⟨t, ht, .of_phase hcount rfl rfl⟩
  | answered => exact ⟨t, ht, .of_phase hcount rfl rfl⟩
  | @exited cause => exact hexit cause ht
  | accepted => exact ⟨t, hcreate _, .of_phase hcount rfl rfl⟩
  | unregistered => exact hexit _ (hcreate _)
  | @withdrawn _ k j =>
      by_cases hij : j = i
      · refine ⟨t.cancel, ?_, hcancel⟩
        rw [remove, cancelTask, hij, List.getElem?_modify_eq, ht]
        rfl
      · refine ⟨t, ?_, .of_phase hcount rfl rfl⟩
        rw [remove, cancelTask, List.getElem?_modify_ne _ _ hij, ht]
  | resumed _ hresumed =>
      obtain ⟨t', ht', hgone, -⟩ := goneOn_resumed ht hcount hresumed
      exact ⟨t', ht', hgone⟩

/-- Over a run, every resumption of a task brings it nearer to its end. -/
theorem goneOn_exec {i : Nat} (rest : List WsInput) :
    ∀ {c : Connection} {t : AskTask}, c.tasks[i]? = some t →
      t.sentCount ≤ (script e i t).yields.length →
      ∃ t', (exec (step e) c rest).tasks[i]? = some t' ∧
        GoneOn (script e i t).yields.length t t' ∧
        t'.remaining (script e i t).yields.length ≤
          t.remaining (script e i t).yields.length - rest.countP (WsInput.resumes i) := by
  induction rest with
  | nil => exact fun {c t} ht hcount => ⟨t, ht, .of_phase hcount rfl rfl, Nat.le_refl _⟩
  | cons input rest ih =>
      intro c t ht hcount
      have hnear : ∃ t', (c.step e input).tasks[i]? = some t' ∧
          GoneOn (script e i t).yields.length t t' ∧
          t'.remaining (script e i t).yields.length ≤
            t.remaining (script e i t).yields.length
              - if WsInput.resumes i input then 1 else 0 := by
        by_cases hresumes : WsInput.resumes i input
        · cases input with
          | resume j delivered =>
              have hji : j = i := of_decide_eq_true hresumes
              obtain ⟨t', ht', hgone, hless⟩ :=
                goneOn_resumed ht hcount (onResume_cases e c j delivered)
              refine ⟨t', ht', hgone, ?_⟩
              rw [if_pos hresumes]
              exact hless hji
          | _ => cases hresumes
        · obtain ⟨t', ht', hgone⟩ := @goneOn_step _ c e input i t ht hcount
          refine ⟨t', ht', hgone, ?_⟩
          rw [if_neg hresumes]
          exact hgone.remaining
      obtain ⟨t', ht', hgone, hless⟩ := hnear
      have hscript : script e i t' = script e i t := script_congr hgone.ident i
      obtain ⟨t'', ht'', hgone', hless'⟩ := ih ht' (by rw [hscript]; exact hgone.count)
      rw [hscript] at hgone' hless'
      refine ⟨t'', ht'', hgone.trans hgone', ?_⟩
      rw [List.countP_cons]
      omega

theorem streamOf_other {frame : Json} (h : eventOf frame = none) (s : PyStr)
    (hsent : c'.sent = c.sent ++ [frame]) : c'.streamOf s = c.streamOf s := by
  rw [streamOf, hsent, streamUnder_append, streamUnder_other h, List.append_nil]
  rfl

-- ============================================================================
-- Nothing keeps a task from finishing
-- ============================================================================

/-- The connection stays open, no cancel frame names the task, its run does not
    raise and its frames can be sent. -/
structure Undisturbed (e : Endpoint σ) (inputs : List WsInput) (c : Connection) (i : Nat)
    (t : AskTask) : Prop where
  stays : ∀ cause, c.loop ≠ .exited cause
  kept : ∀ input ∈ inputs, ∀ frame, cancelFrame e input = some frame →
    frameId frame ≠ t.requestId
  completes : (script e i t).ending = .ok ()
  delivered : .resume i false ∉ inputs

/-- An endpoint that has exited stays so. -/
theorem exited_step {cause : ExitCause} (h : c.loop = .exited cause) :
    (c.step e input).loop = .exited cause := by
  have hcases := c.step_cases e input
  generalize c.step e input = c' at hcases ⊢
  cases hcases with
  | idle => exact h
  | answered _ _ hbefore => exact absurd h (not_exited_of_receiving hbefore cause)
  | exited hbefore => exact absurd h (hbefore cause)
  | accepted haccept => exact absurd h (not_exited_of_receiving haccept.1 cause)
  | unregistered haccept => exact absurd h (not_exited_of_receiving haccept.1 cause)
  | withdrawn => exact h
  | resumed _ hresumed =>
      rw [resumed_loop hresumed]
      exact h

theorem Undisturbed.before {i : Nat} {t t' : AskTask}
    (h : Undisturbed e (past ++ [input]) c' i t') (hstep : c.step e input = c')
    (hident : askJobs.ident t' = askJobs.ident t) : Undisturbed e past c i t where
  stays := fun cause hexit => h.stays cause (hstep ▸ exited_step hexit)
  kept := by
    intro earlier hearlier frame hframe
    rw [← (Prod.mk.inj hident).2]
    exact h.kept earlier (List.mem_append_left _ hearlier) frame hframe
  completes := by
    rw [← script_congr hident]
    exact h.completes
  delivered := fun hfalse => h.delivered (List.mem_append_left _ hfalse)

-- ============================================================================
-- What a task has sent
-- ============================================================================

/-- A task has sent the events of its run up to the one it is at. -/
structure Told (e : Endpoint σ) (past : List WsInput) (c : Connection) (i : Nat) (t : AskTask) :
    Prop where
  count : t.sentCount ≤ (script e i t).yields.length
  stream : ∀ s, t.requestId = .str s →
    c.streamOf s = ((script e i t).yields.take t.sentCount).map ChatEvent.decoded
  kept : Undisturbed e past c i t → t.cancelled = false
  whole : Undisturbed e past c i t → t.Ended → t.sentCount = (script e i t).yields.length

/-- Of every task the client has what it has sent, and of nothing else. -/
structure Delivered (e : Endpoint σ) (past : List WsInput) (c : Connection) : Prop where
  foreign : ∀ s, (∀ t ∈ c.tasks, t.requestId ≠ .str s) → c.streamOf s = []
  told : ∀ (i : Nat) (t : AskTask), c.tasks[i]? = some t → Told e past c i t

/-- What is true of a connection under well-used ids. -/
structure Multiplexed (e : Endpoint σ) (past : List WsInput) (c : Connection) : Prop
    extends Delivered e past c where
  apart : ∀ (i j : Nat) (t u : AskTask), c.tasks[i]? = some t → c.tasks[j]? = some u →
    t.requestId = u.requestId → i = j
  exited : c.connected = false → ∃ cause, c.loop = .exited cause

/-- An id of no task after a step is that of no task before. -/
theorem Multiplexed.foreign_before (h : Multiplexed e past c) (hstep : c.step e input = c')
    {s : PyStr} (hs : ∀ t ∈ c'.tasks, t.requestId ≠ .str s) : c.streamOf s = [] := by
  apply h.foreign s
  intro t ht hid
  obtain ⟨i, hi⟩ := List.mem_iff_getElem?.mp ht
  obtain ⟨t', ht', hgone⟩ := @goneOn_step _ c e input i t hi (h.told i t hi).count
  rw [hstep] at ht'
  apply hs t' (List.mem_of_getElem? ht')
  rw [(Prod.mk.inj hgone.ident).2, hid]

/-- A task that a step leaves where it was, while no event is sent under its id. -/
theorem Told.stays {i : Nat} {t t' : AskTask} (h : Told e past c i t)
    (hstep : c.step e input = c') (hident : askJobs.ident t' = askJobs.ident t)
    (hphase : t'.phase = t.phase)
    (hkeep : Undisturbed e (past ++ [input]) c' i t' → t'.cancelled = t.cancelled)
    (hstream : ∀ s, t.requestId = .str s → c'.streamOf s = c.streamOf s) :
    Told e (past ++ [input]) c' i t' where
  count := by
    rw [sentCount_congr hphase, script_congr hident]
    exact h.count
  stream := by
    intro s hs
    rw [(Prod.mk.inj hident).2] at hs
    rw [sentCount_congr hphase, script_congr hident, hstream s hs]
    exact h.stream s hs
  kept := by
    intro hundisturbed
    rw [hkeep hundisturbed]
    exact h.kept (hundisturbed.before hstep hident)
  whole := by
    intro hundisturbed hended
    rw [sentCount_congr hphase, script_congr hident]
    exact h.whole (hundisturbed.before hstep hident) ((ended_congr hphase).mp hended)

/-- A task that was just created. -/
theorem Told.fresh {i : Nat} {t : AskTask} (hphase : t.phase = .created)
    (hkeep : Undisturbed e past c i t → t.cancelled = false)
    (hstream : ∀ s, t.requestId = .str s → c.streamOf s = []) : Told e past c i t where
  count := by
    rw [AskTask.sentCount, hphase]
    exact Nat.zero_le _
  stream := by
    intro s hs
    rw [AskTask.sentCount, hphase]
    exact hstream s hs
  kept := hkeep
  whole := by
    intro _ hended
    exact absurd hended (AskTask.not_ended hphase (fun _ _ h => by cases h))

-- ============================================================================
-- A step keeps the streams apart
-- ============================================================================

/-- Two tasks never have one id. -/
theorem apart_step (h : Multiplexed e past c) (horder : Orderly e past c)
    (hinput : ∀ frame, askFrame e input = some frame → frameId frame ∉ askIds e past)
    (horder' : Orderly e (past ++ [input]) (c.step e input)) {i j : Nat} {t u : AskTask}
    (ht : (c.step e input).tasks[i]? = some t) (hu : (c.step e input).tasks[j]? = some u)
    (hid : t.requestId = u.requestId) : i = j := by
  -- the id of the new task is not that of a task before
  have hnew : ∀ {i : Nat} {t t₀ : AskTask} {u : AskTask} {frame : Frame},
      c.tasks[i]? = some t₀ → askJobs.ident t = askJobs.ident t₀ → c.Accepts e input frame →
      askJobs.ident u = askJobs.ident (c.newTask e frame) → u.requestId = frameId u.frame →
      t.requestId ≠ u.requestId := by
    intro i t t₀ u frame ht₀ hident haccept hident' hname heq
    obtain ⟨-, hmem, -⟩ := horder.named i t₀ ht₀
    rw [← (Prod.mk.inj hident).2, heq, hname, (Prod.mk.inj hident').1] at hmem
    exact hinput frame haccept.2.1 hmem
  rcases task_of_step ht with ⟨t₀, ht₀, hident⟩ | ⟨hi, frame, haccept, hident⟩
  · rcases task_of_step hu with ⟨u₀, hu₀, hident'⟩ | ⟨-, frame, haccept, hident'⟩
    · apply h.apart i j t₀ u₀ ht₀ hu₀
      rw [← (Prod.mk.inj hident).2, ← (Prod.mk.inj hident').2, hid]
    · exact absurd hid (hnew ht₀ hident haccept hident' (horder'.named j u hu).1)
  · rcases task_of_step hu with ⟨u₀, hu₀, hident'⟩ | ⟨hj, -⟩
    · exact absurd hid.symm (hnew hu₀ hident' haccept hident (horder'.named i t ht).1)
    · rw [hi, hj]

theorem connected_step (h : Multiplexed e past c) (hconn : (c.step e input).connected = false) :
    ∃ cause, (c.step e input).loop = .exited cause := by
  have hkept : c.connected = false → ∃ cause, (c.step e input).loop = .exited cause := by
    intro hbefore
    obtain ⟨cause, hexit⟩ := h.exited hbefore
    exact ⟨cause, exited_step hexit⟩
  have hcases := c.step_cases e input
  generalize c.step e input = c' at hcases hconn hkept ⊢
  cases hcases with
  | exited => exact ⟨_, rfl⟩
  | resumed _ hresumed =>
      apply hkept
      cases hresumed with
      | finished => rwa [finish_connected] at hconn
      | cut => rwa [finish_connected] at hconn
      | _ => exact hconn
  | _ => exact hkept hconn

theorem setPhase_task {i j : Nat} {phase : Phase} {t' : AskTask}
    (ht' : (c.setPhase j phase).tasks[i]? = some t') :
    i ≠ j ∧ c.tasks[i]? = some t' ∨
      i = j ∧ ∃ t, c.tasks[j]? = some t ∧ t' = { t with phase := phase } := by
  rw [setPhase] at ht'
  by_cases hij : i = j
  · subst hij
    rw [List.getElem?_modify_eq, Option.map_eq_map, Option.map_eq_some_iff] at ht'
    obtain ⟨t, ht, heq⟩ := ht'
    exact Or.inr ⟨rfl, t, ht, heq.symm⟩
  · rw [List.getElem?_modify_ne _ _ (Ne.symm hij)] at ht'
    exact Or.inl ⟨hij, ht'⟩

/-- No event is sent, and no task moves on. -/
theorem Multiplexed.quiet (h : Multiplexed e past c)
    (hstep : c.step e input = c') (hstream : ∀ s, c'.streamOf s = c.streamOf s)
    (htasks : ∀ (i : Nat) (t' : AskTask), c'.tasks[i]? = some t' →
      ∃ t, c.tasks[i]? = some t ∧ askJobs.ident t' = askJobs.ident t ∧ t'.phase = t.phase ∧
        (Undisturbed e (past ++ [input]) c' i t' → t'.cancelled = t.cancelled)) :
    Delivered e (past ++ [input]) c' := by
  constructor
  · intro s hs
    rw [hstream]
    exact h.foreign_before hstep hs
  · intro i t' ht'
    obtain ⟨t, ht, hident, hphase, hkeep⟩ := htasks i t' ht'
    exact (h.told i t ht).stays hstep hident hphase hkeep fun s _ => hstream s

/-- Task `j` moves on by sending the next events of its run. -/
theorem Multiplexed.move (h : Multiplexed e past c) (horder : Orderly e past c)
    (hstep : c.step e input = c') {j : Nat} {t : AskTask} (ht : c.tasks[j]? = some t)
    (phase : Phase) (evs : List ChatEvent)
    (htasks : c'.tasks = (c.setPhase j phase).tasks)
    (hsent : c'.sent = c.sent ++ evs.map fun ev => encodeWs ev t.requestId)
    (hevs : evs <+: (script e j t).yields.drop t.sentCount)
    (hcount : ({ t with phase := phase } : AskTask).sentCount = t.sentCount + evs.length)
    (hended : Undisturbed e (past ++ [input]) c' j { t with phase := phase } →
      ({ t with phase := phase } : AskTask).Ended →
        ({ t with phase := phase } : AskTask).sentCount = (script e j t).yields.length) :
    Delivered e (past ++ [input]) c' := by
  obtain ⟨-, -, s', hs', -⟩ := horder.named j t ht
  have hold := h.told j t ht
  have hstream : ∀ s, c'.streamOf s =
      c.streamOf s ++ if s' = s then evs.map ChatEvent.decoded else [] := by
    intro s
    rw [streamOf, hsent, streamUnder_append, hs', streamUnder_events]
    rfl
  have hother : ∀ s, s' ≠ s → c'.streamOf s = c.streamOf s := by
    intro s hne
    rw [hstream, if_neg hne, List.append_nil]
  constructor
  · intro s hs
    rw [hother s]
    · exact h.foreign_before hstep hs
    · rintro rfl
      apply hs { t with phase := phase } ?_ hs'
      rw [htasks]
      exact List.mem_of_getElem? (setPhase_self ht phase)
  · intro i t' ht'
    rw [htasks] at ht'
    rcases setPhase_task ht' with ⟨hij, hi⟩ | ⟨rfl, t₀, ht₀, rfl⟩
    · apply (h.told i t' hi).stays hstep rfl rfl (fun _ => rfl)
      intro s hs
      apply hother
      rintro rfl
      exact hij (h.apart i j t' t hi ht (hs.trans hs'.symm))
    · rw [ht, Option.some.injEq] at ht₀
      subst ht₀
      have hident : askJobs.ident ({ t with phase := phase } : AskTask) = askJobs.ident t := rfl
      constructor
      · rw [hcount, script_congr hident]
        have hle := hevs.length_le
        rw [List.length_drop] at hle
        have := hold.count
        omega
      · intro s hs
        have hss : s' = s := Json.str.inj (hs'.symm.trans hs)
        rw [hstream s, if_pos hss, hold.stream s hs, hcount, script_congr hident, List.take_add,
          List.map_append, ← List.prefix_iff_eq_take.mp hevs]
      · exact fun hundisturbed => hold.kept (hundisturbed.before hstep hident)
      · rw [script_congr hident]
        exact hended

/-- A resumption of task `j`. -/
theorem Multiplexed.resumed (h : Multiplexed e past c) (horder : Orderly e past c)
    (hstep : c.step e input = c') {j : Nat} {delivered : Bool}
    (hinput : input = .resume j delivered) (hresumed : Resumed e c j delivered c') :
    Delivered e (past ++ [input]) c' := by
  have hcount : ∀ {t : AskTask} {n : Nat}, t.phase = .running n → t.sentCount = n := by
    intro t n hphase
    rw [AskTask.sentCount, hphase]
  have hrunning : ∀ {t : AskTask} {n : Nat}, ¬ ({ t with phase := .running n } : AskTask).Ended :=
    AskTask.not_ended rfl (fun _ _ h => by cases h)
  cases hresumed with
  | idle => exact h.quiet hstep (fun _ => rfl) (fun _ t ht => ⟨t, ht, rfl, rfl, fun _ => rfl⟩)
  | @started t ht hphase =>
      apply h.move horder hstep ht (.running 0) [] rfl (List.append_nil _).symm List.nil_prefix
      · rw [AskTask.sentCount, AskTask.sentCount, hphase]
        rfl
      · exact fun _ hended => absurd hended hrunning
  | @dropped t ht hphase hcancel =>
      apply h.move horder hstep ht (.ended 0 .cancelled) [] rfl (List.append_nil _).symm
        List.nil_prefix
      · rw [AskTask.sentCount, AskTask.sentCount, hphase]
        rfl
      · intro hundisturbed _
        have hkept := (h.told j t ht).kept (hundisturbed.before hstep rfl)
        rw [hcancel] at hkept
        cases hkept
  | @sent t n ev ht hphase hnext =>
      apply h.move horder hstep ht (.running (n + 1)) [ev] rfl rfl
      · rw [hcount hphase]
        obtain ⟨hn, hget⟩ := List.getElem?_eq_some_iff.mp hnext
        rw [List.drop_eq_getElem_cons hn, hget]
        exact List.prefix_append [ev] _
      · rw [hcount hphase]
        rfl
      · exact fun _ hended => absurd hended hrunning
  | @finished t n ht hphase hlast =>
      apply h.move horder hstep ht (.ended n .finished) []
      · rw [finish_tasks, hcount hphase]
      · rw [finish_sent]
        exact (List.append_nil _).symm
      · exact List.nil_prefix
      · rw [hcount hphase]
        rfl
      · intro _ _
        have hle := (h.told j t ht).count
        rw [hcount hphase] at hle
        exact Nat.le_antisymm hle (List.getElem?_eq_none_iff.mp hlast)
  | @cut t n how ht hphase hwhy =>
      apply h.move horder hstep ht (.ended n how) []
      · rw [finish_tasks, hcount hphase]
      · rw [finish_sent]
        exact (List.append_nil _).symm
      · exact List.nil_prefix
      · rw [hcount hphase]
        rfl
      · intro hundisturbed _
        exfalso
        have hbefore : Undisturbed e past c j t := hundisturbed.before hstep rfl
        rcases hwhy with hcancel | hending | hconn | hdelivered
        · have hkept := (h.told j t ht).kept hbefore
          rw [hcancel] at hkept
          cases hkept
        · exact hending hbefore.completes
        · obtain ⟨cause, hexit⟩ := h.exited hconn
          exact hbefore.stays cause hexit
        · apply hundisturbed.delivered
          rw [hinput, hdelivered]
          exact List.mem_append_right _ (List.mem_singleton.mpr rfl)

/-- The endpoint exits. -/
theorem Multiplexed.exit (h : Multiplexed e past c) {cause : ExitCause} {connected : Bool}
    (hstep : c.step e input = { c.exit cause with connected := connected }) :
    Delivered e (past ++ [input])
      { c.exit cause with connected := connected } := by
  apply h.quiet hstep
  · exact fun _ => rfl
  · intro i t' ht'
    have hexit : (c.exit cause).tasks[i]? = some t' := ht'
    rw [exit_tasks, Option.map_eq_some_iff] at hexit
    obtain ⟨t, ht, rfl⟩ := hexit
    split
    · exact ⟨t, ht, AskTask.cancel_ident t, cancel_phase t,
        fun hundisturbed => absurd rfl (hundisturbed.stays cause)⟩
    · exact ⟨t, ht, rfl, rfl, fun _ => rfl⟩

/-- An ask is accepted under an id that no task had. -/
theorem Multiplexed.accept (h : Multiplexed e past c) (horder : Orderly e past c)
    {frame : Frame} {k : PyKey}
    (hstep : c.step e input = (c.createTask e frame).add k c.tasks.length)
    (hname : (c.newTask e frame).requestId = frameId frame)
    (hnew : frameId frame ∉ askIds e past) :
    Delivered e (past ++ [input])
      ((c.createTask e frame).add k c.tasks.length) := by
  refine ⟨fun s hs => h.foreign_before hstep hs, fun i t ht => ?_⟩
  rcases createTask_tasks ht with hold | ⟨rfl, rfl⟩
  · exact (h.told i t hold).stays hstep rfl rfl (fun _ => rfl) (fun _ _ => rfl)
  · apply Told.fresh rfl (fun _ => rfl)
    intro s hs
    apply h.foreign s
    intro t ht hid
    obtain ⟨i, hi⟩ := List.mem_iff_getElem?.mp ht
    obtain ⟨-, hmem, -⟩ := horder.named i t hi
    rw [hid, ← hs, hname] at hmem
    exact hnew hmem

/-- A cancel frame withdraws task `j`. -/
theorem Multiplexed.withdraw (h : Multiplexed e past c) (horder : Orderly e past c)
    {frame : Frame} {k : PyKey} {j : Nat}
    (hstep : c.step e input = (c.cancelTask j).remove k)
    (hcancel : cancelFrame e input = some frame)
    (hkey : (frameId frame).pyKey = some k) (hget : c.active.get? k = some j) :
    Delivered e (past ++ [input]) ((c.cancelTask j).remove k) := by
  apply h.quiet hstep
  · exact fun _ => rfl
  · intro i t' ht'
    rw [remove, cancelTask] at ht'
    by_cases hij : i = j
    · subst hij
      rw [List.getElem?_modify_eq, Option.map_eq_map, Option.map_eq_some_iff] at ht'
      obtain ⟨t, ht, rfl⟩ := ht'
      refine ⟨t, ht, AskTask.cancel_ident t, cancel_phase t, fun hundisturbed => ?_⟩
      -- the frame names this task
      obtain ⟨t₀, ht₀, -, hkey₀⟩ := (horder.exact.get?_iff k i).mp hget
      rw [ht, Option.some.injEq] at ht₀
      subst ht₀
      obtain ⟨-, -, s, hs, -⟩ := horder.named i t ht
      have hk : t.requestId.pyKey = some k := hkey₀
      rw [hs, pyKey_str, Option.some.injEq] at hk
      rw [← hk] at hkey
      have hframe : frameId frame = t.requestId := (pyKey_eq_str.mp hkey).trans hs.symm
      refine absurd ?_ (hundisturbed.kept input
        (List.mem_append_right _ (List.mem_singleton.mpr rfl)) frame hcancel)
      rw [hframe]
      exact (Prod.mk.inj (AskTask.cancel_ident t)).2.symm
    · rw [List.getElem?_modify_ne _ _ (Ne.symm hij)] at ht'
      exact ⟨t', ht', rfl, rfl, fun _ => rfl⟩

theorem multiplexed_ready : Multiplexed e [] .ready where
  foreign := fun s _ => streamUnder_other eventOf_ready s
  told := by
    intro i t ht
    cases ht
  apart := by
    intro i j t u ht
    cases ht
  exited := by
    intro hconn
    cases hconn

/-- A step under well-used ids. -/
theorem Multiplexed.step (h : Multiplexed e past c) (horder : Orderly e past c)
    (hinput : NewId e past input) : Multiplexed e (past ++ [input]) (c.step e input) := by
  have horder' := horder.step hinput
  have hdelivered : Delivered e (past ++ [input]) (c.step e input) := by
    have hcases := c.step_cases e input
    generalize hstep : c.step e input = c' at hcases
    cases hcases with
    | idle => exact h.quiet hstep (fun _ => rfl) (fun _ t ht => ⟨t, ht, rfl, rfl, fun _ => rfl⟩)
    | answered hframe =>
        exact h.quiet hstep (fun s => streamOf_other hframe s rfl)
          (fun _ t ht => ⟨t, ht, rfl, rfl, fun _ => rfl⟩)
    | exited => exact h.exit hstep
    | accepted haccept =>
        obtain ⟨⟨s, hs, hne⟩, hnew⟩ := hinput _ haccept.2.1
        exact h.accept horder hstep (requestId_of_truthy (truthy_of_text hs hne) _) hnew
    | unregistered haccept hkey =>
        obtain ⟨⟨s, hs, -⟩, -⟩ := hinput _ haccept.2.1
        rw [hs] at hkey
        cases hkey
    | withdrawn hcancel hkey hget => exact h.withdraw horder hstep hcancel hkey hget
    | resumed hinput hresumed => exact h.resumed horder hstep hinput hresumed
  refine ⟨hdelivered, ?_, connected_step h⟩
  intro i j t u ht hu
  exact apart_step h horder (fun frame hask => (hinput frame hask).2) horder' ht hu

end Connection

theorem after_multiplexed {e : Endpoint σ} {inputs : List WsInput} (h : WellUsed e inputs) :
    Connection.Multiplexed e inputs (e.after inputs) := by
  refine (@exec_invariant_along _ _ _ _ _ (fun past _ => Connection.NewId e past)
    (fun past c => Connection.Orderly e past c ∧ Connection.Multiplexed e past c)
    ⟨Connection.orderly_ready, Connection.multiplexed_ready⟩ ?_ (fun _ _ _ => h.newId)).2
  rintro past c input ⟨horder, h⟩ hinput
  exact ⟨horder.step hinput, h.step horder hinput⟩

/-- For every interleaving under well-used ids: under an id that is no task's the
    client receives no events.  Under the id of an accepted ask it receives a
    beginning of what `ChatService.handle` yields for that ask, in order.  Unless
    the ask is cancelled, its run raises, one of its frames cannot be sent or the
    connection is left, it is all of it once the task has ended, which takes two
    resumptions more than there are events. -/
theorem asks_isolated (e : Endpoint σ) (inputs : List WsInput) (h : WellUsed e inputs) :
    let c := e.after inputs
    (∀ s, (∀ t ∈ c.tasks, t.requestId ≠ .str s) → c.streamOf s = []) ∧
    ∀ past input rest frame, inputs = past ++ input :: rest →
      (e.after past).Accepts e input frame →
      let i := (e.after past).tasks.length
      ∃ (t : AskTask) (s : PyStr), c.tasks[i]? = some t ∧ t.frame = frame ∧
        t.requestId = Connection.frameId frame ∧ Connection.frameId frame = .str s ∧
        let yields := (Connection.script e i t).yields.map ChatEvent.decoded
        c.streamOf s <+: yields ∧
        (Connection.Undisturbed e inputs c i t → t.Ended → c.streamOf s = yields) ∧
        (yields.length + 2 ≤ rest.countP (WsInput.resumes i) → t.Ended) := by
  intro c
  have hmulti := after_multiplexed h
  refine ⟨hmulti.foreign, ?_⟩
  rintro past input rest frame rfl haccept
  obtain ⟨⟨s, hs, hne⟩, -⟩ := h.newId rfl frame haccept.2.1
  have hname : ((e.after past).newTask e frame).requestId = Connection.frameId frame :=
    Connection.requestId_of_truthy (Connection.truthy_of_text hs hne) _
  -- the task it starts
  have hstart : ((e.after past).step e input).tasks[(e.after past).tasks.length]? =
      some ((e.after past).newTask e frame) := by
    rw [Connection.step_of_accepts haccept (by rw [hs, pyKey_str]), Connection.add,
      Connection.createTask]
    exact List.getElem?_concat_length
  obtain ⟨t, ht, hgone, hremaining⟩ := Connection.goneOn_exec rest hstart (Nat.zero_le _)
  have hafter : c = exec (Connection.step e) ((e.after past).step e input) rest :=
    exec_append (input :: rest)
  rw [← hafter] at ht
  obtain ⟨hframe, hid⟩ := Prod.mk.inj hgone.ident
  have hid' : t.requestId = .str s := by rw [hid, hname, hs]
  have htold := hmulti.told _ t ht
  have hstream := htold.stream s hid'
  refine ⟨t, s, ht, hframe, hid.trans hname, hs, ?_, ?_, ?_⟩
  · rw [hstream]
    exact (List.take_prefix _ _).map _
  · intro hundisturbed hended
    rw [hstream, htold.whole hundisturbed hended, List.take_length]
  · intro henough
    rw [List.length_map, Connection.script_congr hgone.ident] at henough
    have hcount := htold.count
    rw [Connection.script_congr hgone.ident] at hcount
    by_contra hopen
    have hleft : 0 < t.remaining (Connection.script e (e.after past).tasks.length
        ((e.after past).newTask e frame)).yields.length := AskTask.remaining_pos hopen hcount
    have hfresh : ∀ total,
        ((e.after past).newTask e frame).remaining total = total + 2 := fun _ => rfl
    rw [hfresh] at hremaining
    omega

set_option maxRecDepth 20000 in
/-- The first of two asks receives both its events, though the other is cancelled. -/
theorem asks_isolated_twoAsks :
    let c := smallEndpoint.after twoAsks
    ∃ t : AskTask, c.tasks[0]? = some t ∧ t.Ended ∧ c.streamOf (py "a") =
      (Connection.script smallEndpoint 0 t).yields.map ChatEvent.decoded := by
  intro c
  obtain ⟨-, hasks⟩ := asks_isolated smallEndpoint twoAsks twoAsks_wellUsed
  obtain ⟨t, s, ht, -, hid, hs, -, hwhole, hends⟩ :=
    hasks [] (receives "a") twoAsks.tail _ rfl ⟨rfl, rfl, rfl⟩
  have hended : t.Ended := hends (Nat.le_refl 4)
  have hcancels : ∀ input ∈ twoAsks, input = receives "cancel b" ∨
      (Connection.cancelFrame smallEndpoint input).isNone = true := by decide
  have hundisturbed : Connection.Undisturbed smallEndpoint twoAsks c 0 t := by
    refine ⟨Connection.not_exited_of_receiving (by decide), ?_, rfl, by decide⟩
    intro input hinput frame hcancel
    rcases hcancels input hinput with rfl | hnone
    · cases hcancel
      rw [hid]
      intro heq
      cases heq
    · rw [hcancel] at hnone
      cases hnone
  cases hs
  exact ⟨t, ht, hended, hwhole hundisturbed hended⟩

end MasterAgent
