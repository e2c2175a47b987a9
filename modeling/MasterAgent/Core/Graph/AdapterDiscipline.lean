/-
  MasterAgent.Core.Graph.AdapterDiscipline

  The attempt loop of the adapter node against its retry policy, for any number
  of attempts.  Which attempts are made is `madeFrom`; what the user sees of a
  failure is `ErrorLast`: one error event, the last one dispatched, when the
  last attempt failed, and none otherwise.  The return after the loop is
  covered by `adapterAttemptsThen`, the loop with any other program there.
-/

import MasterAgent.Core.Graph.AdapterRetry

namespace MasterAgent

open Effect

variable {σ : Type}

-- ============================================================================
-- Scripts
-- ============================================================================

/-- Does the attempt fail at all: by an exception, its own or one its data
    causes, or by an error event, retryable or not? -/
def errsFrom (ending : Except Exn Unit) : List ChatEvent → Bool
  | [] => match ending with
      | .ok () => false
      | .error e => e.isException
  | ev :: events => match ev.type with
      | .delta => match ev.data.getItem (py "content") with
          | .ok _ => errsFrom ending events
          | .error _ => true
      | .error => true
      | _ => errsFrom ending events

def Attempt.errs (a : Attempt) : Bool := errsFrom a.ending a.events

/-- Does a cancellation end the attempt? -/
def cancelsFrom (ending : Except Exn Unit) : List ChatEvent → Bool
  | [] => match ending with
      | .ok () => false
      | .error e => !e.isException
  | ev :: events => match ev.type with
      | .delta => match ev.data.getItem (py "content") with
          | .ok _ => cancelsFrom ending events
          | .error _ => false
      | .error => false
      | _ => cancelsFrom ending events

def Attempt.cancels (a : Attempt) : Bool := cancelsFrom a.ending a.events

/-- The events dispatched in a run. -/
def dispatched (acts : List Act) : List ChatEvent :=
  acts.filterMap fun a => match a with
    | .emit ev => some ev
    | _ => none

@[simp] theorem dispatched_append (as bs : List Act) :
    dispatched (as ++ bs) = dispatched as ++ dispatched bs :=
  List.filterMap_append

@[simp] theorem dispatched_events (events : List ChatEvent) :
    dispatched (events.map .emit) = events := by
  simp [dispatched, List.filterMap_map]

theorem mem_dispatched {ev : ChatEvent} {acts : List Act} :
    ev ∈ dispatched acts ↔ .emit ev ∈ acts := by
  constructor
  · intro hev
    obtain ⟨a, ha, hemit⟩ := List.mem_filterMap.mp hev
    cases a with
    | emit ev' =>
        cases hemit
        exact ha
    | _ => cases hemit
  · exact fun h => List.mem_filterMap.mpr ⟨_, h, rfl⟩

/-- No error event is among the events. -/
def Quiet (events : List ChatEvent) : Prop := ∀ ev ∈ events, ev.type ≠ .error

theorem Quiet.append {as bs : List ChatEvent} (ha : Quiet as) (hb : Quiet bs) :
    Quiet (as ++ bs) := by
  intro ev hev
  rcases List.mem_append.mp hev with h | h
  · exact ha ev h
  · exact hb ev h

theorem Quiet.nil : Quiet [] := by
  intro ev hev
  exact (List.not_mem_nil hev).elim

theorem quiet_passOn {output : Bool} {type : EventType} {data : Json} (h : type ≠ .error) :
    Quiet (passOn output type data) := by
  intro ev hev
  cases output with
  | false => exact (List.not_mem_nil hev).elim
  | true =>
      rw [List.mem_singleton.mp hev]
      exact h

/-- The events end with an error event exactly when `failed`, and hold no other. -/
inductive ErrorLast : (failed : Bool) → List ChatEvent → Prop where
  | unseen {events : List ChatEvent} (h : Quiet events) : ErrorLast false events
  | shown {events : List ChatEvent} {ev : ChatEvent} (h : Quiet events)
      (hev : ev.type = .error) : ErrorLast true (events ++ [ev])

namespace ErrorLast

variable {failed : Bool} {events : List ChatEvent}

theorem prepend {before : List ChatEvent} (hbefore : Quiet before)
    (h : ErrorLast failed events) : ErrorLast failed (before ++ events) := by
  cases h with
  | unseen h => exact .unseen (hbefore.append h)
  | shown h hev =>
      rw [← List.append_assoc]
      exact .shown (hbefore.append h) hev

theorem mem_iff (h : ErrorLast failed events) :
    (∃ ev ∈ events, ev.type = .error) ↔ failed = true := by
  cases h with
  | unseen h =>
      constructor
      · rintro ⟨ev, hev, htype⟩
        exact absurd htype (h ev hev)
      · intro hf
        cases hf
  | @shown quiet ev h hev =>
      constructor
      · intro _
        rfl
      · intro _
        exact ⟨ev, List.mem_append_right _ (List.mem_singleton_self ev), hev⟩

/-- At most one event is an error. -/
theorem count_le (h : ErrorLast failed events) :
    events.countP (fun ev => ev.type = .error) ≤ 1 := by
  have hzero : ∀ quiet : List ChatEvent, Quiet quiet →
      quiet.countP (fun ev => ev.type = .error) = 0 := by
    intro quiet hquiet
    apply List.countP_eq_zero.mpr
    intro ev hev
    simpa using hquiet ev hev
  cases h with
  | unseen h =>
      rw [hzero _ h]
      omega
  | shown h hev =>
      rw [List.countP_append, hzero _ h, List.countP_singleton]
      split <;> omega

/-- Nothing follows an error. -/
theorem last (h : ErrorLast failed events) {before after : List ChatEvent} {ev : ChatEvent}
    (heq : events = before ++ ev :: after) (hev : ev.type = .error) : after = [] := by
  cases h with
  | unseen h =>
      have hmem : ev ∈ events := by
        rw [heq]
        simp
      exact absurd hev (h ev hmem)
  | @shown quiet shown h hshown =>
      by_contra hne
      have hsplit := congrArg List.dropLast heq
      rw [List.dropLast_concat, List.dropLast_append_of_ne_nil (List.cons_ne_nil _ _),
        List.dropLast_cons_of_ne_nil hne] at hsplit
      have hmem : ev ∈ quiet := by
        rw [hsplit]
        simp
      exact absurd hev (h ev hmem)

end ErrorLast

-- ============================================================================
-- One attempt
-- ============================================================================

/-- The error events of an attempt by the way it is left. -/
def AttemptExit.Shows (events : List ChatEvent) (errs : Bool) : AttemptExit → Prop
  | .finished => Quiet events ∧ errs = false
  | .errorShown => ErrorLast true events ∧ errs = true
  | .retryable _ => Quiet events ∧ errs = true
  | .raised e => Quiet events ∧ errs = e.isException

/-- Events passed on before the way out is reached hold no error. -/
theorem AttemptExit.Shows.prepend {before events : List ChatEvent} {errs : Bool}
    {exit : AttemptExit} (hbefore : Quiet before) (h : exit.Shows events errs) :
    exit.Shows (before ++ events) errs := by
  cases exit with
  | errorShown => exact ⟨h.1.prepend hbefore, h.2⟩
  | finished => exact ⟨hbefore.append h.1, h.2⟩
  | retryable data => exact ⟨hbefore.append h.1, h.2⟩
  | raised e => exact ⟨hbefore.append h.1, h.2⟩

theorem shows_attemptTrace (output canRetry : Bool) (ending : Except Exn Unit)
    (events : List ChatEvent) :
    (attemptTrace output canRetry ending events).exit.Shows
      (attemptTrace output canRetry ending events).events (errsFrom ending events) := by
  induction events with
  | nil =>
      cases ending with
      | ok u => exact ⟨Quiet.nil, rfl⟩
      | error e => exact ⟨Quiet.nil, rfl⟩
  | cons ev events ih =>
      cases htype : ev.type with
      | delta =>
          cases hc : ev.data.getItem (py "content") with
          | error e =>
              simp only [attemptTrace, errsFrom, htype, hc]
              exact ⟨Quiet.nil, (getItem_isException hc).symm⟩
          | ok content =>
              simp only [attemptTrace, errsFrom, htype, hc]
              apply AttemptExit.Shows.prepend _ ih
              exact quiet_passOn (by simp)
      | tool =>
          simp only [attemptTrace, errsFrom, htype]
          apply AttemptExit.Shows.prepend _ ih
          exact quiet_passOn (by simp)
      | error =>
          cases hr : ev.data.getD (py "retryable") (.bool false) with
          | error e =>
              simp only [attemptTrace, errsFrom, htype, hr]
              exact ⟨Quiet.nil, (getD_isException hr).symm⟩
          | ok retryable =>
              simp only [attemptTrace, errsFrom, htype, hr]
              split
              · exact ⟨Quiet.nil, rfl⟩
              · exact ⟨.shown Quiet.nil rfl, rfl⟩
      | _ => simpa only [attemptTrace, errsFrom, htype] using ih

theorem cancelled_exit_iff (output canRetry : Bool) (ending : Except Exn Unit)
    (events : List ChatEvent) :
    (attemptTrace output canRetry ending events).exit = .raised .cancelled ↔
      cancelsFrom ending events = true := by
  induction events with
  | nil => cases ending <;> simp [attemptTrace, cancelsFrom]
  | cons ev events ih =>
      cases htype : ev.type with
      | delta =>
          cases hc : ev.data.getItem (py "content") with
          | error e =>
              have he := getItem_isException hc
              simp only [attemptTrace, cancelsFrom, htype, hc, Bool.false_eq_true, iff_false]
              rintro ⟨⟩
              cases he
          | ok content =>
              simp only [attemptTrace, cancelsFrom, htype, hc]
              exact ih
      | tool =>
          simp only [attemptTrace, cancelsFrom, htype]
          exact ih
      | error =>
          cases hr : ev.data.getD (py "retryable") (.bool false) with
          | error e =>
              have he := getD_isException hr
              simp only [attemptTrace, cancelsFrom, htype, hr, Bool.false_eq_true, iff_false]
              rintro ⟨⟩
              cases he
          | ok retryable =>
              simp only [attemptTrace, cancelsFrom, htype, hr, Bool.false_eq_true, iff_false]
              split <;> simp
      | _ => simpa only [attemptTrace, cancelsFrom, htype] using ih

-- ============================================================================
-- The attempts made
-- ============================================================================

/-- An attempt is made when all attempts before it failed. -/
theorem mem_madeFrom {fails : Nat → Bool} {left attempt k : Nat} :
    k ∈ madeFrom fails left attempt ↔
      attempt ≤ k ∧ k < attempt + left ∧ ∀ j, attempt ≤ j → j < k → fails j = true := by
  induction left generalizing attempt with
  | zero =>
      simp only [madeFrom, List.not_mem_nil, false_iff]
      rintro ⟨h₁, h₂, -⟩
      omega
  | succ left ih =>
      rw [madeFrom, List.mem_cons]
      constructor
      · rintro (rfl | h)
        · exact ⟨Nat.le_refl _, by omega, fun j hj hj' => by omega⟩
        · split at h
          · next hf =>
              obtain ⟨h₁, h₂, h₃⟩ := ih.mp h
              refine ⟨by omega, by omega, fun j hj hj' => ?_⟩
              rcases Nat.eq_or_lt_of_le hj with rfl | hlt
              · exact hf
              · exact h₃ j hlt hj'
          · exact (List.not_mem_nil h).elim
      · rintro ⟨h₁, h₂, h₃⟩
        rcases Nat.eq_or_lt_of_le h₁ with rfl | hlt
        · exact Or.inl rfl
        · right
          rw [if_pos (h₃ attempt (Nat.le_refl _) hlt)]
          exact ih.mpr ⟨hlt, by omega, fun j hj hj' => h₃ j (by omega) hj'⟩

/-- The attempts made are consecutive, and as many as there is room for at most. -/
theorem madeFrom_eq_range' (fails : Nat → Bool) (left attempt : Nat) :
    madeFrom fails left attempt
        = List.range' attempt (madeFrom fails left attempt).length ∧
      (madeFrom fails left attempt).length ≤ left := by
  induction left generalizing attempt with
  | zero => exact ⟨rfl, Nat.le_refl _⟩
  | succ left ih =>
      rw [madeFrom]
      split
      · obtain ⟨hrange, hlength⟩ := ih (attempt + 1)
        constructor
        · rw [List.length_cons, List.range'_succ, ← hrange]
        · rw [List.length_cons]
          omega
      · exact ⟨rfl, by simp⟩

-- ============================================================================
-- The attempt loop
-- ============================================================================

section Loop

variable {adapter : DownstreamAdapter} {output : Bool} {maxAttempts backoffMs : Nat}
  {state : GraphState}

theorem shows_attempt (attempt : Nat) :
    (adapter.attemptTrace output maxAttempts state attempt).exit.Shows
      (adapter.attemptTrace output maxAttempts state attempt).events
      (adapter.script state output attempt).errs :=
  shows_attemptTrace output _ _ _

theorem dispatched_attemptActs (attempt : Nat) :
    dispatched (adapter.attemptActs output maxAttempts state attempt)
      = (adapter.attemptTrace output maxAttempts state attempt).events :=
  dispatched_events _

/-- What an attempt dispatches before it is repeated holds no error. -/
theorem AttemptExit.Shows.quiet_of_failed {exit : AttemptExit} {events : List ChatEvent}
    {errs : Bool} (h : exit.Shows events errs) (hf : exit.failed = true) : Quiet events := by
  cases exit with
  | finished => cases hf
  | errorShown => cases hf
  | retryable data => exact h.1
  | raised e => exact h.1

/-- The last attempt of a loop shows its error, or the one made up for its exception. -/
theorem LastAttempt.errorLast {chunks : List Json} {exit : AttemptExit} {tail : List Act}
    {u : Update} {events : List ChatEvent} {errs : Bool}
    (hlast : LastAttempt output maxAttempts chunks exit tail u)
    (h : exit.Shows events errs) : ErrorLast errs (events ++ dispatched tail) := by
  cases hlast with
  | finished =>
      obtain ⟨hquiet, rfl⟩ := h
      rw [show dispatched [] = [] from rfl, List.append_nil]
      exact .unseen hquiet
  | errorShown =>
      obtain ⟨herror, rfl⟩ := h
      rw [show dispatched [] = [] from rfl, List.append_nil]
      exact herror
  | exhausted he =>
      obtain ⟨hquiet, rfl⟩ := h
      rw [he]
      exact .shown hquiet rfl
  | cancelled he =>
      obtain ⟨hquiet, rfl⟩ := h
      rw [he, show dispatched [] = [] from rfl, List.append_nil]
      exact .unseen hquiet

/-- A run of the loop, up to the last attempt it makes and from there on. -/
theorem adapterTrace_last {left attempt : Nat} (hleft : attempt + left = maxAttempts + 1)
    (hlt : attempt ≤ maxAttempts) (chunks : List Json) :
    ∃ before last tail chunks',
      (madeFrom (fun k => (adapter.script state output k).fails) left attempt).getLast?
        = some last ∧
      (adapterTrace adapter output maxAttempts backoffMs state left attempt chunks).1
        = before ++ (adapter.attemptActs output maxAttempts state last ++ tail) ∧
      Quiet (dispatched before) ∧
      LastAttempt output maxAttempts chunks'
        (adapter.attemptTrace output maxAttempts state last).exit tail
        (adapterTrace adapter output maxAttempts backoffMs state left attempt chunks).2 := by
  induction left generalizing attempt chunks with
  | zero => omega
  | succ left ih =>
      rcases adapterTrace_cases backoffMs left chunks
          (rfl : adapter.attemptTrace output maxAttempts state attempt = _) with
        ⟨hfailed, hretry, heq⟩ | ⟨hlast, tail, u, htail, heq⟩
      · have hquiet := (@shows_attempt adapter output maxAttempts state attempt).quiet_of_failed
          hfailed
        rw [attemptTrace_failed hretry] at hfailed
        obtain ⟨before, last, tail, chunks', hmade, htrace, hbefore, hlast⟩ :=
          @ih (attempt + 1) (by omega) (by omega) (chunks ++
            (adapter.attemptTrace output maxAttempts state attempt).chunks)
        refine ⟨adapter.attemptActs output maxAttempts state attempt ++ .sleep backoffMs :: before,
          last, tail, chunks', ?_, ?_, ?_, ?_⟩
        · rw [madeFrom, if_pos hfailed, List.getLast?_cons, hmade]
          rfl
        · rw [heq, htrace, List.append_assoc, List.cons_append]
        · rw [dispatched_append, dispatched_attemptActs]
          exact hquiet.append hbefore
        · rw [heq]
          exact hlast
      · refine ⟨[], attempt, tail,
          chunks ++ (adapter.attemptTrace output maxAttempts state attempt).chunks,
          ?_, ?_, Quiet.nil, ?_⟩
        · rw [madeFrom_last hleft hlast]
          rfl
        · rw [heq, List.nil_append]
        · rw [heq]
          exact htail

/-- The loop shows the failure of the last attempt it makes, at its end. -/
theorem adapterTrace_errorLast {left attempt : Nat} (hleft : attempt + left = maxAttempts + 1)
    (hlt : attempt ≤ maxAttempts) (chunks : List Json) :
    ∃ last,
      (madeFrom (fun k => (adapter.script state output k).fails) left attempt).getLast?
        = some last ∧
      ErrorLast (adapter.script state output last).errs (dispatched
        (adapterTrace adapter output maxAttempts backoffMs state left attempt chunks).1) := by
  obtain ⟨before, last, tail, chunks', hmade, htrace, hbefore, hlast⟩ :=
    @adapterTrace_last adapter output maxAttempts backoffMs state left attempt hleft hlt chunks
  refine ⟨last, hmade, ?_⟩
  rw [htrace, dispatched_append, dispatched_append, dispatched_attemptActs]
  exact (hlast.errorLast (shows_attempt last)).prepend hbefore

/-- The flag a node writes: was its last attempt cancelled? -/
theorem LastAttempt.streamCancelled {chunks : List Json} {exit : AttemptExit} {tail : List Act}
    {u : Update} (h : LastAttempt output maxAttempts chunks exit tail u) :
    u.streamCancelled = some true ↔ exit = .raised .cancelled := by
  cases h with
  | finished => simp [chunksUpdate]
  | errorShown => simp [chunksUpdate]
  | exhausted he =>
      constructor
      · intro h
        cases h
      · intro h
        cases h
        cases he
  | cancelled he =>
      rw [Exn.isException_eq_false.mp he]
      exact iff_of_true rfl rfl

theorem adapterTrace_streamCancelled {left attempt : Nat}
    (hleft : attempt + left = maxAttempts + 1) (hlt : attempt ≤ maxAttempts)
    (chunks : List Json) :
    ∃ last,
      (madeFrom (fun k => (adapter.script state output k).fails) left attempt).getLast?
        = some last ∧
      ((adapterTrace adapter output maxAttempts backoffMs state left attempt
          chunks).2.streamCancelled = some true ↔
        (adapter.script state output last).cancels = true) := by
  obtain ⟨before, last, tail, chunks', hmade, -, -, hlast⟩ :=
    @adapterTrace_last adapter output maxAttempts backoffMs state left attempt hleft hlt chunks
  refine ⟨last, hmade, ?_⟩
  rw [hlast.streamCancelled]
  exact cancelled_exit_iff output _ _ _

end Loop

-- ============================================================================
-- The attempts of a script
-- ============================================================================

/-- Attempt `k` is made: the policy allows it and all attempts before it fail. -/
def Made (maxAttempts : Nat) (script : Nat → Attempt) (k : Nat) : Prop :=
  1 ≤ k ∧ k ≤ maxAttempts ∧ ∀ j, 1 ≤ j → j < k → (script j).fails = true

section Made

variable {maxAttempts : Nat} {script : Nat → Attempt}

theorem mem_madeFrom_one {k : Nat} :
    k ∈ madeFrom (fun k => (script k).fails) maxAttempts 1 ↔ Made maxAttempts script k := by
  rw [mem_madeFrom]
  constructor
  · rintro ⟨h₁, h₂, h₃⟩
    exact ⟨h₁, by omega, h₃⟩
  · rintro ⟨h₁, h₂, h₃⟩
    exact ⟨h₁, by omega, h₃⟩

/-- The last attempt is the one that is made and has no next one. -/
theorem getLast?_madeFrom_one {last : Nat} :
    (madeFrom (fun k => (script k).fails) maxAttempts 1).getLast? = some last ↔
      Made maxAttempts script last ∧ ¬ Made maxAttempts script (last + 1) := by
  rw [← mem_madeFrom_one, ← mem_madeFrom_one]
  obtain ⟨hrange, -⟩ := madeFrom_eq_range' (fun k => (script k).fails) maxAttempts 1
  generalize (madeFrom (fun k => (script k).fails) maxAttempts 1).length = n at hrange
  rw [hrange, List.getLast?_range', List.mem_range'_1, List.mem_range'_1]
  split
  · constructor
    · intro h
      cases h
    · rintro ⟨h, -⟩
      omega
  · rw [Option.some.injEq]
    omega

/-- A cancelled attempt is not repeated. -/
theorem cancels_not_fails {ending : Except Exn Unit} {events : List ChatEvent}
    (h : cancelsFrom ending events = true) : failsFrom ending events = false := by
  have hexit := (cancelled_exit_iff true true ending events).mpr h
  rw [← failed_attemptTrace true, hexit]
  rfl

/-- Nor has it failed. -/
theorem cancels_not_errs {ending : Except Exn Unit} {events : List ChatEvent}
    (h : cancelsFrom ending events = true) : errsFrom ending events ≠ true := by
  have hexit := (cancelled_exit_iff true true ending events).mpr h
  have hshows := shows_attemptTrace true true ending events
  rw [hexit] at hshows
  rw [hshows.2]
  simp

theorem Made.last_of_cancels {k : Nat} (hk : Made maxAttempts script k)
    (hcancels : (script k).cancels = true) : ¬ Made maxAttempts script (k + 1) := by
  rintro ⟨-, -, hall⟩
  have hfails := hall k hk.1 (Nat.lt_succ_self k)
  rw [Attempt.fails, cancels_not_fails hcancels] at hfails
  cases hfails

/-- The attempts made depend on them alone. -/
theorem madeFrom_congr {f g : Nat → Bool} {left attempt : Nat}
    (h : ∀ k ∈ madeFrom f left attempt, f k = g k) :
    madeFrom f left attempt = madeFrom g left attempt := by
  induction left generalizing attempt with
  | zero => rfl
  | succ left ih =>
      rw [madeFrom] at h
      have hfirst : f attempt = g attempt := h attempt List.mem_cons_self
      rw [madeFrom, madeFrom, ← hfirst]
      split
      · next hf =>
        rw [if_pos hf] at h
        rw [ih fun k hk => h k (List.mem_cons_of_mem _ hk)]
      · rfl

end Made

-- ============================================================================
-- The return after the loop
-- ============================================================================

/-- The attempt loop with `after` in place of the return behind it. -/
def adapterAttemptsThen (env : NodeEnv σ) (adapter : DownstreamAdapter) (output : Bool)
    (maxAttempts backoffMs : Nat) (state : GraphState) (after : List Json → Prog σ Update) :
    (left attempt : Nat) → (chunks : List Json) → Prog σ Update
  | 0, _, chunks => after chunks
  | left + 1, attempt, chunks => do
      Eff.act (.run state output attempt)
      let script := adapter.run attempt state output
      let (chunks, exit) ←
        adapterEvents env output maxAttempts attempt script.ending script.events chunks
      match exit with
      | .finished => return chunksUpdate output chunks
      | .errorShown => return chunksUpdate output chunks
      | .retryable _ =>
          env.sleep backoffMs
          adapterAttemptsThen env adapter output maxAttempts backoffMs state after left
            (attempt + 1) chunks
      | .raised e =>
          if e.isException then
            if attempt < maxAttempts then
              env.sleep backoffMs
              adapterAttemptsThen env adapter output maxAttempts backoffMs state after left
                (attempt + 1) chunks
            else
              env.emit (retriesExhausted maxAttempts)
              return chunksUpdate output chunks
          else return { answerChunks := chunks, streamCancelled := some true }

section After

variable {adapter : DownstreamAdapter} {output : Bool} {maxAttempts backoffMs : Nat}
  {state : GraphState}

/-- The node's own loop has the return there. -/
theorem adapterAttempts_eq_then (env : NodeEnv σ) (left attempt : Nat) (chunks : List Json) :
    adapterAttempts env adapter output maxAttempts backoffMs state left attempt chunks =
      adapterAttemptsThen env adapter output maxAttempts backoffMs state
        (fun chunks => return chunksUpdate output chunks) left attempt chunks := by
  induction left generalizing attempt chunks with
  | zero => rfl
  | succ left ih =>
      rw [adapterAttempts, adapterAttemptsThen]
      refine bind_congr fun _ => bind_congr fun x => ?_
      obtain ⟨chunks, exit⟩ := x
      cases exit with
      | finished => rfl
      | errorShown => rfl
      | retryable data => simp only [ih]
      | raised e => simp only [ih]

/-- With an attempt left, what stands behind the loop does not matter: the
    last attempt is neither passed over nor repeated. -/
theorem adapterAttemptsThen_congr (f g : List Json → Prog σ Update) {left attempt : Nat}
    (hleft : attempt + left = maxAttempts + 1) (hlt : attempt ≤ maxAttempts)
    (chunks : List Json) :
    adapterAttemptsThen (NodeEnv.live σ) adapter output maxAttempts backoffMs state f
        left attempt chunks =
      adapterAttemptsThen (NodeEnv.live σ) adapter output maxAttempts backoffMs state g
        left attempt chunks := by
  induction left generalizing attempt chunks with
  | zero => omega
  | succ left ih =>
      have hnext : attempt < maxAttempts → ∀ cs,
          adapterAttemptsThen (NodeEnv.live σ) adapter output maxAttempts backoffMs state f
              left (attempt + 1) cs =
            adapterAttemptsThen (NodeEnv.live σ) adapter output maxAttempts backoffMs state g
              left (attempt + 1) cs := by
        intro hretry cs
        exact ih (by omega) hretry cs
      simp only [adapterAttemptsThen, adapterEvents_live, ← DownstreamAdapter.attemptTrace.eq_1]
      congr 1
      funext u
      generalize ht : adapter.attemptTrace output maxAttempts state attempt = t
      funext w
      rw [Eff.play_ok_bind, Eff.play_ok_bind]
      congr 2
      dsimp only
      cases hexit : t.exit with
      | finished => rfl
      | errorShown => rfl
      | retryable data =>
          have hretry : attempt < maxAttempts := by
            by_contra hlast
            rw [← ht, DownstreamAdapter.attemptTrace, decide_eq_false hlast] at hexit
            exact attemptTrace_not_retryable _ _ _ data hexit
          simp only [hnext hretry]
      | raised e =>
          by_cases hretry : attempt < maxAttempts
          · simp only [hretry, if_true, hnext hretry]
          · simp only [hretry, if_false]

end After

-- ============================================================================
-- The retry policy
-- ============================================================================

/-- A run of the node keeps to a policy of `maxAttempts` attempts. -/
structure RetryDiscipline (adapter : DownstreamAdapter) (output : Bool) (maxAttempts : Nat)
    (state : GraphState) (acts : List Act) (result : Except Exn Update) : Prop where
  returns : ∃ u, result = .ok u
  /-- The attempts are numbered from one on. -/
  numbered : attemptsRun acts = List.range' 1 (attemptsRun acts).length
  bounded : (attemptsRun acts).length ≤ maxAttempts
  again_iff : ∀ k, 1 ≤ k → (k + 1 ∈ attemptsRun acts ↔
    k ∈ attemptsRun acts ∧ (adapter.script state output k).fails = true ∧ k < maxAttempts)
  /-- The user sees an error exactly when the last attempt failed. -/
  error_iff : ∃ last, (attemptsRun acts).getLast? = some last ∧
    ((∃ ev ∈ dispatched acts, ev.type = .error) ↔
      (adapter.script state output last).errs = true)
  one_error : (dispatched acts).countP (fun ev => ev.type = .error) ≤ 1
  error_last : ∀ before ev after, dispatched acts = before ++ ev :: after →
    ev.type = .error → after = []

/-- For any number of attempts and any script of attempts: the node keeps to the
    policy, and the return after its loop is not reached.  An attempt that ends
    in a cancellation counts as one that did not fail. -/
theorem adapter_retry_discipline (adapter : DownstreamAdapter) (output : Bool)
    (maxAttempts backoffMs : Nat) (state : GraphState) (w : σ) (hmax : 1 ≤ maxAttempts) :
    RetryDiscipline adapter output maxAttempts state
        (adapterAttempts (NodeEnv.live σ) adapter output maxAttempts backoffMs state
          maxAttempts 1 [] w).trace
        (adapterAttempts (NodeEnv.live σ) adapter output maxAttempts backoffMs state
          maxAttempts 1 [] w).result ∧
      ∀ after : List Json → Prog σ Update,
        adapterAttemptsThen (NodeEnv.live σ) adapter output maxAttempts backoffMs state after
            maxAttempts 1 [] =
          adapterAttempts (NodeEnv.live σ) adapter output maxAttempts backoffMs state
            maxAttempts 1 [] := by
  have hleft : 1 + maxAttempts = maxAttempts + 1 := Nat.add_comm _ _
  constructor
  · rw [adapterAttempts_live, Eff.play_trace, Eff.play_result]
    have hmade := (@adapterTrace_made adapter output maxAttempts backoffMs state maxAttempts 1
      hleft []).1
    obtain ⟨last, hgetLast, herror⟩ := @adapterTrace_errorLast adapter output maxAttempts
      backoffMs state maxAttempts 1 hleft hmax []
    have hrange := madeFrom_eq_range' (fun k => (adapter.script state output k).fails)
      maxAttempts 1
    rw [← hmade] at hgetLast hrange
    constructor
    · exact ⟨_, rfl⟩
    · exact hrange.1
    · exact hrange.2
    · intro k hk
      rw [hmade, mem_madeFrom, mem_madeFrom]
      constructor
      · rintro ⟨-, hlt, hall⟩
        exact ⟨⟨hk, by omega, fun j hj hj' => hall j hj (by omega)⟩,
          hall k hk (Nat.lt_succ_self k), by omega⟩
      · rintro ⟨⟨-, -, hall⟩, hfails, hlt⟩
        refine ⟨by omega, by omega, fun j hj hj' => ?_⟩
        rcases Nat.eq_or_lt_of_le (Nat.le_of_lt_succ hj') with rfl | hj'
        · exact hfails
        · exact hall j hj hj'
    · exact ⟨last, hgetLast, herror.mem_iff⟩
    · exact herror.count_le
    · intro before ev after heq hev
      exact herror.last heq hev
  · intro after
    rw [adapterAttempts_eq_then]
    exact adapterAttemptsThen_congr _ _ hleft hmax []

/-- A retryable error event, then an exception, then an error event that is not. -/
def threeFailures : DownstreamAdapter :=
  scripted
    [⟨[literalEvent .error [(py "code", .str (py "BUSY")), (py "retryable", .bool true)]], .ok ()⟩,
      ⟨[deltaEvent (py "a")], .error .dbError⟩,
      ⟨[literalEvent .error [(py "code", .str (py "DOWN"))], deltaEvent (py "b")], .ok ()⟩]

theorem adapter_retry_discipline_threeFailures :
    attemptsRun (adapterAttempts (NodeEnv.live Unit) threeFailures true 4 0 blankState 4 1 []
        ()).trace = [1, 2, 3] ∧
      RetryDiscipline threeFailures true 4 blankState
        (adapterAttempts (NodeEnv.live Unit) threeFailures true 4 0 blankState 4 1 [] ()).trace
        (adapterAttempts (NodeEnv.live Unit) threeFailures true 4 0 blankState 4 1 [] ()).result :=
  ⟨rfl, (adapter_retry_discipline threeFailures true 4 0 blankState () (by decide)).1⟩

end MasterAgent
