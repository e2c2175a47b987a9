/-
  MasterAgent.Core.Graph.AdapterTrace

  What an adapter node does when dispatch works and the backoff sleep is not
  interrupted: it leaves the world alone, so a run is the list of its acts and
  the update it returns.  `attemptTrace` says it of one attempt,
  `adapterTrace` of the attempt loop; later modules reason about these lists.
-/

import MasterAgent.Core.Graph.NodeWrappers

namespace MasterAgent

open Effect

variable {σ : Type}

-- ============================================================================
-- One attempt
-- ============================================================================

/-- What an attempt dispatches, the chunks it adds, and how it is left. -/
structure AttemptTrace where
  events : List ChatEvent
  chunks : List Json
  exit : AttemptExit

/-- An event dispatched, and a chunk added, before the rest of the attempt. -/
def AttemptTrace.prepend (events : List ChatEvent) (chunks : List Json) (t : AttemptTrace) :
    AttemptTrace where
  events := events ++ t.events
  chunks := chunks ++ t.chunks
  exit := t.exit

/-- The event a node passes on, unless it is internal. -/
def passOn (output : Bool) (type : EventType) (data : Json) : List ChatEvent :=
  if output then [{ type := type, data := data }] else []

/-- The attempt with the given events; `canRetry` when attempts remain. -/
def attemptTrace (output canRetry : Bool) (ending : Except Exn Unit) :
    List ChatEvent → AttemptTrace
  | [] => match ending with
      | .ok () => ⟨[], [], .finished⟩
      | .error e => ⟨[], [], .raised e⟩
  | ev :: events => match ev.type with
      | .delta => match ev.data.getItem (py "content") with
          | .error e => ⟨[], [], .raised e⟩
          | .ok content => (attemptTrace output canRetry ending events).prepend
              (passOn output .delta ev.data) [content]
      | .tool => (attemptTrace output canRetry ending events).prepend
          (passOn output .tool ev.data) []
      | .error => match ev.data.getD (py "retryable") (.bool false) with
          | .error e => ⟨[], [], .raised e⟩
          | .ok retryable =>
              if retryable.truthy && canRetry then ⟨[], [], .retryable ev.data⟩
              else ⟨[{ type := .error, data := ev.data }], [], .errorShown⟩
      | _ => attemptTrace output canRetry ending events

/-- Dispatch works: what follows runs after the event. -/
theorem live_emit_bind {α : Type} (ev : ChatEvent) (f : Except Exn Unit → Prog σ α) :
    (Eff.attempt ((NodeEnv.live σ).emit ev) >>= f)
      = (Eff.play [.emit ev] (.ok ()) >>= fun _ => f (.ok ())) := rfl

theorem adapterEvents_live (output : Bool) (maxAttempts attempt : Nat)
    (ending : Except Exn Unit) (events : List ChatEvent) (chunks : List Json) :
    adapterEvents (NodeEnv.live σ) output maxAttempts attempt ending events chunks =
      Eff.play
        ((attemptTrace output (decide (attempt < maxAttempts)) ending events).events.map .emit)
        (.ok (chunks ++
            (attemptTrace output (decide (attempt < maxAttempts)) ending events).chunks,
          (attemptTrace output (decide (attempt < maxAttempts)) ending events).exit)) := by
  induction events generalizing chunks with
  | nil =>
      cases ending with
      | ok u => simp [adapterEvents, attemptTrace, Eff.pure_eq_play]
      | error e => simp [adapterEvents, attemptTrace, Eff.pure_eq_play]
  | cons ev events ih =>
      cases htype : ev.type with
      | delta =>
          cases hc : ev.data.getItem (py "content") with
          | error e => simp [adapterEvents, attemptTrace, htype, hc, Eff.pure_eq_play]
          | ok content =>
              cases output with
              | false =>
                  simp only [adapterEvents, attemptTrace, htype, hc, ih]
                  simp [AttemptTrace.prepend, passOn]
              | true =>
                  simp only [adapterEvents, attemptTrace, htype, hc, if_true]
                  rw [live_emit_bind]
                  simp only [ih, Eff.play_ok_bind_play]
                  simp [AttemptTrace.prepend, passOn]
      | tool =>
          cases output with
          | false =>
              simp only [adapterEvents, attemptTrace, htype, ih]
              simp [AttemptTrace.prepend, passOn]
          | true =>
              simp only [adapterEvents, attemptTrace, htype, if_true]
              rw [live_emit_bind]
              simp only [ih, Eff.play_ok_bind_play]
              simp [AttemptTrace.prepend, passOn]
      | error =>
          cases hr : ev.data.getD (py "retryable") (.bool false) with
          | error e => simp [adapterEvents, attemptTrace, htype, hr, Eff.pure_eq_play]
          | ok retryable =>
              by_cases hretry : retryable.truthy && decide (attempt < maxAttempts)
              · simp [adapterEvents, attemptTrace, htype, hr, hretry, Eff.pure_eq_play]
              · simp only [adapterEvents, attemptTrace, htype, hr, hretry, Bool.false_eq_true,
                  if_false]
                rw [live_emit_bind]
                simp only [Eff.pure_eq_play, Eff.play_ok_bind_play]
                simp
      | «meta» => simpa [adapterEvents, attemptTrace, htype] using ih chunks
      | thinking => simpa [adapterEvents, attemptTrace, htype] using ih chunks
      | progress => simpa [adapterEvents, attemptTrace, htype] using ih chunks
      | done => simpa [adapterEvents, attemptTrace, htype] using ih chunks

-- ============================================================================
-- The attempt loop
-- ============================================================================

/-- The attempt `attempt` of the node. -/
def DownstreamAdapter.attemptTrace (adapter : DownstreamAdapter) (output : Bool)
    (maxAttempts : Nat) (state : GraphState) (attempt : Nat) : AttemptTrace :=
  MasterAgent.attemptTrace output (decide (attempt < maxAttempts))
    (adapter.run attempt state output).ending (adapter.run attempt state output).events

/-- The acts of an attempt. -/
def DownstreamAdapter.attemptActs (adapter : DownstreamAdapter) (output : Bool)
    (maxAttempts : Nat) (state : GraphState) (attempt : Nat) : List Act :=
  .run state output attempt ::
    (adapter.attemptTrace output maxAttempts state attempt).events.map .emit

/-- The acts of the loop from `attempt` on, and the update it returns. -/
def adapterTrace (adapter : DownstreamAdapter) (output : Bool) (maxAttempts backoffMs : Nat)
    (state : GraphState) : (left attempt : Nat) → (chunks : List Json) → List Act × Update
  | 0, _, chunks => ([], chunksUpdate output chunks)
  | left + 1, attempt, chunks =>
      let t := adapter.attemptTrace output maxAttempts state attempt
      let acts := adapter.attemptActs output maxAttempts state attempt
      let retry :=
        let rest := adapterTrace adapter output maxAttempts backoffMs state left (attempt + 1)
          (chunks ++ t.chunks)
        (acts ++ .sleep backoffMs :: rest.1, rest.2)
      match t.exit with
      | .finished => (acts, chunksUpdate output (chunks ++ t.chunks))
      | .errorShown => (acts, chunksUpdate output (chunks ++ t.chunks))
      | .retryable _ => retry
      | .raised e =>
          if e.isException then
            if attempt < maxAttempts then retry
            else (acts ++ [.emit (retriesExhausted maxAttempts)],
              chunksUpdate output (chunks ++ t.chunks))
          else (acts, { answerChunks := chunks ++ t.chunks, streamCancelled := some true })

theorem adapterAttempts_live (adapter : DownstreamAdapter) (output : Bool)
    (maxAttempts backoffMs : Nat) (state : GraphState) (left attempt : Nat)
    (chunks : List Json) :
    adapterAttempts (NodeEnv.live σ) adapter output maxAttempts backoffMs state left attempt
        chunks =
      Eff.play
        (adapterTrace adapter output maxAttempts backoffMs state left attempt chunks).1
        (.ok (adapterTrace adapter output maxAttempts backoffMs state left attempt chunks).2) := by
  induction left generalizing attempt chunks with
  | zero => rfl
  | succ left ih =>
      -- what the sleep and the remaining attempts play
      have hretry : ∀ cs, ((NodeEnv.live σ).sleep backoffMs >>= fun _ =>
          adapterAttempts (NodeEnv.live σ) adapter output maxAttempts backoffMs state left
            (attempt + 1) cs) =
          Eff.play (.sleep backoffMs ::
              (adapterTrace adapter output maxAttempts backoffMs state left (attempt + 1) cs).1)
            (.ok (adapterTrace adapter output maxAttempts backoffMs state left
              (attempt + 1) cs).2) := by
        intro cs
        rw [ih]
        rfl
      simp only [adapterAttempts, adapterTrace, adapterEvents_live, Eff.act_eq_play,
        ← DownstreamAdapter.attemptTrace.eq_1, DownstreamAdapter.attemptActs, hretry]
      -- the two loops agree on every way to leave the attempt
      cases hexit : (adapter.attemptTrace output maxAttempts state attempt).exit with
      | finished =>
          refine (Eff.play_ok_bind_of (Eff.play_ok_bind_of (Eff.pure_eq_play _))).trans ?_
          simp
      | errorShown =>
          refine (Eff.play_ok_bind_of (Eff.play_ok_bind_of (Eff.pure_eq_play _))).trans ?_
          simp
      | retryable data => exact Eff.play_ok_bind_of (Eff.play_ok_bind_of rfl)
      | raised e =>
          by_cases he : e.isException = true
          · simp only [he, if_true]
            by_cases hlast : attempt < maxAttempts
            · simp only [hlast, if_true]
              exact Eff.play_ok_bind_of (Eff.play_ok_bind_of (if_pos he))
            · simp only [hlast, if_false]
              exact Eff.play_ok_bind_of (Eff.play_ok_bind_of (if_pos he))
          · simp only [he, Bool.false_eq_true, if_false]
            refine Eq.trans (Eff.play_ok_bind_of (Eff.play_ok_bind_of
              (Eq.trans (if_neg he) (Eff.pure_eq_play _)))) ?_
            rw [List.append_nil]
            rfl

/-- Is the attempt left in a way that is retried? -/
def AttemptExit.failed : AttemptExit → Bool
  | .retryable _ => true
  | .raised e => e.isException
  | _ => false

/-- A retryable error event is passed over only when attempts remain. -/
theorem attemptTrace_not_retryable (output : Bool) (ending : Except Exn Unit)
    (events : List ChatEvent) (data : Json) :
    (attemptTrace output false ending events).exit ≠ .retryable data := by
  fun_induction attemptTrace output false ending events <;>
    simp_all [AttemptTrace.prepend]

/-- What the last attempt of a loop appends to its own events, and returns. -/
inductive LastAttempt (output : Bool) (maxAttempts : Nat) (chunks : List Json) :
    AttemptExit → List Act → Update → Prop where
  | finished : LastAttempt output maxAttempts chunks .finished [] (chunksUpdate output chunks)
  | errorShown : LastAttempt output maxAttempts chunks .errorShown [] (chunksUpdate output chunks)
  | exhausted {e : Exn} (he : e.isException = true) :
      LastAttempt output maxAttempts chunks (.raised e) [.emit (retriesExhausted maxAttempts)]
        (chunksUpdate output chunks)
  | cancelled {e : Exn} (he : e.isException = false) :
      LastAttempt output maxAttempts chunks (.raised e) []
        { answerChunks := chunks, streamCancelled := some true }

/-- The loop from an attempt on: the attempt failed, attempts remain and the
    loop goes on after the backoff, or this was the last attempt. -/
theorem adapterTrace_cases {adapter : DownstreamAdapter} {output : Bool}
    {maxAttempts : Nat} (backoffMs : Nat) {state : GraphState} (left : Nat) {attempt : Nat}
    (chunks : List Json) {t : AttemptTrace}
    (ht : adapter.attemptTrace output maxAttempts state attempt = t) :
    (t.exit.failed = true ∧ attempt < maxAttempts ∧
      adapterTrace adapter output maxAttempts backoffMs state (left + 1) attempt chunks
        = (adapter.attemptActs output maxAttempts state attempt ++ .sleep backoffMs ::
            (adapterTrace adapter output maxAttempts backoffMs state left (attempt + 1)
              (chunks ++ t.chunks)).1,
          (adapterTrace adapter output maxAttempts backoffMs state left (attempt + 1)
            (chunks ++ t.chunks)).2)) ∨
    (¬ (t.exit.failed = true ∧ attempt < maxAttempts) ∧
      ∃ tail u, LastAttempt output maxAttempts (chunks ++ t.chunks) t.exit tail u ∧
        adapterTrace adapter output maxAttempts backoffMs state (left + 1) attempt chunks
          = (adapter.attemptActs output maxAttempts state attempt ++ tail, u)) := by
  simp only [adapterTrace, ht]
  cases hexit : t.exit with
  | finished => exact Or.inr ⟨by simp [AttemptExit.failed], [], _, .finished, by simp⟩
  | errorShown => exact Or.inr ⟨by simp [AttemptExit.failed], [], _, .errorShown, by simp⟩
  | retryable data =>
      have hlast : attempt < maxAttempts := by
        by_contra hlast
        rw [← ht, DownstreamAdapter.attemptTrace, decide_eq_false hlast] at hexit
        exact attemptTrace_not_retryable _ _ _ data hexit
      exact Or.inl ⟨rfl, hlast, rfl⟩
  | raised e =>
      cases he : e.isException with
      | false =>
          refine Or.inr ⟨by simp [AttemptExit.failed, he], [], _, .cancelled he, ?_⟩
          simp [he]
      | true =>
          by_cases hlast : attempt < maxAttempts
          · exact Or.inl ⟨by simp [AttemptExit.failed, he], hlast, by simp [he, hlast]⟩
          · refine Or.inr ⟨fun h => hlast h.2, _, _, .exhausted he, ?_⟩
            simp [he, hlast]

/-- The loop calls the adapter, dispatches events and sleeps. -/
theorem mem_adapterTrace {adapter : DownstreamAdapter} {output : Bool}
    {maxAttempts backoffMs : Nat} {state : GraphState} {left attempt : Nat}
    {chunks : List Json} {a : Act}
    (h : a ∈ (adapterTrace adapter output maxAttempts backoffMs state left attempt chunks).1) :
    (∃ ev, a = .emit ev) ∨ (∃ k, a = .run state output k) ∨ a = .sleep backoffMs := by
  have hattempt : ∀ k, a ∈ adapter.attemptActs output maxAttempts state k →
      (∃ ev, a = .emit ev) ∨ (∃ k, a = .run state output k) ∨ a = .sleep backoffMs := by
    intro k hk
    rcases List.mem_cons.mp hk with rfl | hk
    · exact Or.inr (Or.inl ⟨k, rfl⟩)
    · obtain ⟨ev, -, rfl⟩ := List.mem_map.mp hk
      exact Or.inl ⟨ev, rfl⟩
  induction left generalizing attempt chunks with
  | zero => exact (List.not_mem_nil h).elim
  | succ left ih =>
      rcases adapterTrace_cases backoffMs left chunks
          (rfl : adapter.attemptTrace output maxAttempts state attempt = _) with
        ⟨-, -, heq⟩ | ⟨-, tail, u, htail, heq⟩
      · rw [heq, List.mem_append, List.mem_cons] at h
        rcases h with h | rfl | h
        · exact hattempt _ h
        · exact Or.inr (Or.inr rfl)
        · exact ih h
      · rw [heq, List.mem_append] at h
        rcases h with h | h
        · exact hattempt _ h
        · generalize (adapter.attemptTrace output maxAttempts state attempt).exit = exit at htail
          cases htail with
          | exhausted he => exact Or.inl ⟨_, List.mem_singleton.mp h⟩
          | _ => exact (List.not_mem_nil h).elim

/-- An adapter node writes its chunks, and whether it was cancelled. -/
theorem adapterTrace_writes (adapter : DownstreamAdapter) (output : Bool)
    (maxAttempts backoffMs : Nat) (state : GraphState) (left attempt : Nat)
    (chunks : List Json) : ∃ answer cancelled,
    (adapterTrace adapter output maxAttempts backoffMs state left attempt chunks).2
      = { answerChunks := answer, streamCancelled := cancelled } := by
  induction left generalizing attempt chunks with
  | zero => exact ⟨_, _, rfl⟩
  | succ left ih =>
      rcases adapterTrace_cases backoffMs left chunks
          (rfl : adapter.attemptTrace output maxAttempts state attempt = _) with
        ⟨-, -, heq⟩ | ⟨-, tail, u, htail, heq⟩
      · rw [heq]
        exact ih _ _
      · rw [heq]
        generalize (adapter.attemptTrace output maxAttempts state attempt).exit = exit at htail
        cases htail <;> exact ⟨_, _, rfl⟩

/-- A run of an adapter node, dispatch and sleep working. -/
theorem makeAdapterNode_live (adapter : DownstreamAdapter) (output : Bool)
    (retry : Option RetryPolicy) (state : GraphState) :
    makeAdapterNode (NodeEnv.live σ) adapter output retry state =
      Eff.play
        (adapterTrace adapter output (maxAttempts retry) (backoffMs retry) state
          (maxAttempts retry) 1 []).1
        (.ok (adapterTrace adapter output (maxAttempts retry) (backoffMs retry) state
          (maxAttempts retry) 1 []).2) :=
  adapterAttempts_live adapter output _ _ state _ 1 []

end MasterAgent
