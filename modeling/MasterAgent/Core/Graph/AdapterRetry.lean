/-
  MasterAgent.Core.Graph.AdapterRetry

  Is a retry transparent to the user?  The node passes a delta on while its
  attempt is still running, and the chunk list outlives the attempt; so an
  attempt that delivers deltas and then fails has them delivered and stored
  beside those of the next one.  The node is transparent exactly when every
  attempt it repeats fails before its first delta.
-/

import MasterAgent.Core.Graph.AdapterTrace

namespace MasterAgent

open Effect

variable {σ : Type}

-- ============================================================================
-- Scripts
-- ============================================================================

/-- The data of the deltas an attempt delivers: those with a content, up to the
    event that ends the attempt. -/
def deltasFrom : List ChatEvent → List Json
  | [] => []
  | ev :: events => match ev.type with
      | .delta => match ev.data.getItem (py "content") with
          | .ok _ => ev.data :: deltasFrom events
          | .error _ => []
      | .error => []
      | _ => deltasFrom events

/-- Does the attempt fail in a way that is retried: by an exception, its own or
    one its data causes, or by an error event marked retryable? -/
def failsFrom (ending : Except Exn Unit) : List ChatEvent → Bool
  | [] => match ending with
      | .ok () => false
      | .error e => e.isException
  | ev :: events => match ev.type with
      | .delta => match ev.data.getItem (py "content") with
          | .ok _ => failsFrom ending events
          | .error _ => true
      | .error => match ev.data.getD (py "retryable") (.bool false) with
          | .ok retryable => retryable.truthy
          | .error _ => true
      | _ => failsFrom ending events

def Attempt.deltas (a : Attempt) : List Json := deltasFrom a.events

def Attempt.fails (a : Attempt) : Bool := failsFrom a.ending a.events

/-- The content of a delta. -/
def deltaContent (data : Json) : Option Json :=
  match data.getItem (py "content") with
  | .ok content => some content
  | .error _ => none

/-- The data of the deltas dispatched in a run. -/
def dispatchedDeltas (acts : List Act) : List Json :=
  acts.filterMap fun a => match a with
    | .emit ev => if ev.type = .delta then some ev.data else none
    | _ => none

/-- The attempts a run makes. -/
def attemptsRun (acts : List Act) : List Nat :=
  acts.filterMap fun a => match a with
    | .run _ _ attempt => some attempt
    | _ => none

@[simp] theorem dispatchedDeltas_append (as bs : List Act) :
    dispatchedDeltas (as ++ bs) = dispatchedDeltas as ++ dispatchedDeltas bs :=
  List.filterMap_append

@[simp] theorem attemptsRun_append (as bs : List Act) :
    attemptsRun (as ++ bs) = attemptsRun as ++ attemptsRun bs :=
  List.filterMap_append

/-- Events of an attempt are no calls of the adapter. -/
@[simp] theorem attemptsRun_events (events : List ChatEvent) :
    attemptsRun (events.map .emit) = [] := by
  simp [attemptsRun, List.filterMap_map]

/-- What a node shows of its deltas: all of them, or none if it is internal. -/
def shown (output : Bool) (deltas : List Json) : List Json := if output then deltas else []

-- ============================================================================
-- One attempt
-- ============================================================================

theorem dispatchedDeltas_passOn (output : Bool) (type : EventType) (data : Json) :
    dispatchedDeltas ((passOn output type data).map .emit) =
      if type = .delta then shown output [data] else [] := by
  cases output <;> by_cases h : type = .delta <;> simp [passOn, dispatchedDeltas, shown, h]

theorem dispatchedDeltas_attemptTrace (output canRetry : Bool) (ending : Except Exn Unit)
    (events : List ChatEvent) :
    dispatchedDeltas ((attemptTrace output canRetry ending events).events.map .emit)
      = shown output (deltasFrom events) := by
  induction events with
  | nil =>
      cases ending <;> cases output <;> rfl
  | cons ev events ih =>
      cases htype : ev.type with
      | delta =>
          cases hc : ev.data.getItem (py "content") with
          | error e => cases output <;> simp [attemptTrace, deltasFrom, htype, hc, shown,
              dispatchedDeltas]
          | ok content =>
              simp only [attemptTrace, deltasFrom, htype, hc, AttemptTrace.prepend,
                List.map_append, dispatchedDeltas_append, dispatchedDeltas_passOn, ih]
              cases output <;> simp [shown]
      | tool =>
          simp only [attemptTrace, deltasFrom, htype, AttemptTrace.prepend,
            List.map_append, dispatchedDeltas_append, dispatchedDeltas_passOn, ih]
          simp
      | error =>
          cases hr : ev.data.getD (py "retryable") (.bool false) with
          | error e => cases output <;> simp [attemptTrace, deltasFrom, htype, hr, shown,
              dispatchedDeltas]
          | ok retryable =>
              cases hretry : retryable.truthy && canRetry <;> cases output <;>
                simp [attemptTrace, deltasFrom, htype, hr, hretry, shown, dispatchedDeltas]
      | _ => simpa [attemptTrace, deltasFrom, htype] using ih

theorem deltaContent_of_getItem {data content : Json}
    (h : data.getItem (py "content") = .ok content) : deltaContent data = some content := by
  simp [deltaContent, h]

/-- The chunks of an attempt are the contents of its deltas. -/
theorem chunks_attemptTrace (output canRetry : Bool) (ending : Except Exn Unit)
    (events : List ChatEvent) :
    (attemptTrace output canRetry ending events).chunks
      = (deltasFrom events).filterMap deltaContent := by
  induction events with
  | nil => cases ending <;> rfl
  | cons ev events ih =>
      cases htype : ev.type with
      | delta =>
          cases hc : ev.data.getItem (py "content") with
          | error e => simp [attemptTrace, deltasFrom, htype, hc]
          | ok content =>
              simp [attemptTrace, deltasFrom, htype, hc, AttemptTrace.prepend, ih,
                deltaContent_of_getItem hc]
      | tool => simpa [attemptTrace, deltasFrom, htype, AttemptTrace.prepend] using ih
      | error =>
          cases hr : ev.data.getD (py "retryable") (.bool false) with
          | error e => simp [attemptTrace, deltasFrom, htype, hr]
          | ok retryable =>
              cases hretry : retryable.truthy && canRetry <;>
                simp [attemptTrace, deltasFrom, htype, hr, hretry]
      | _ => simpa [attemptTrace, deltasFrom, htype] using ih

/-- Accessing a value's fields raises no cancellation. -/
theorem getItem_isException {v : Json} {k : PyStr} {e : Exn} (h : v.getItem k = .error e) :
    e.isException = true := by
  cases v with
  | obj fields =>
      cases hf : Json.field k fields with
      | none => simp [Json.getItem, hf] at h; simp [← h]
      | some x => simp [Json.getItem, hf] at h
  | _ => simp [Json.getItem] at h; simp [← h]

theorem getD_isException {v : Json} {k : PyStr} {d : Json} {e : Exn}
    (h : v.getD k d = .error e) : e.isException = true := by
  cases v <;> simp [Json.getD, Json.get] at h <;> simp [← h]

/-- With attempts remaining, the attempt is left for a retry when its script fails. -/
theorem failed_attemptTrace (output : Bool) (ending : Except Exn Unit)
    (events : List ChatEvent) :
    (attemptTrace output true ending events).exit.failed = failsFrom ending events := by
  induction events with
  | nil => cases ending <;> rfl
  | cons ev events ih =>
      cases htype : ev.type with
      | delta =>
          cases hc : ev.data.getItem (py "content") with
          | error e =>
              simp [attemptTrace, failsFrom, htype, hc, AttemptExit.failed,
                getItem_isException hc]
          | ok content =>
              simp [attemptTrace, failsFrom, htype, hc, AttemptTrace.prepend, ih]
      | tool => simpa [attemptTrace, failsFrom, htype, AttemptTrace.prepend] using ih
      | error =>
          cases hr : ev.data.getD (py "retryable") (.bool false) with
          | error e =>
              simp [attemptTrace, failsFrom, htype, hr, AttemptExit.failed,
                getD_isException hr]
          | ok retryable =>
              cases hretry : retryable.truthy <;>
                simp [attemptTrace, failsFrom, htype, hr, hretry, AttemptExit.failed]
      | _ => simpa [attemptTrace, failsFrom, htype] using ih

/-- Only the adapter itself raises a cancellation. -/
theorem cancelled_attemptTrace {output canRetry : Bool} {ending : Except Exn Unit}
    {events : List ChatEvent} {e : Exn}
    (h : (attemptTrace output canRetry ending events).exit = .raised e)
    (he : e.isException = false) : ending = .error e := by
  induction events with
  | nil =>
      cases ending with
      | ok u => simp [attemptTrace] at h
      | error e' =>
          simp only [attemptTrace, AttemptExit.raised.injEq] at h
          rw [h]
  | cons ev events ih =>
      cases htype : ev.type with
      | delta =>
          cases hc : ev.data.getItem (py "content") with
          | error e' =>
              simp only [attemptTrace, htype, hc, AttemptExit.raised.injEq] at h
              rw [← h, getItem_isException hc] at he
              cases he
          | ok content =>
              simp only [attemptTrace, htype, hc] at h
              exact ih h
      | tool =>
          simp only [attemptTrace, htype] at h
          exact ih h
      | error =>
          cases hr : ev.data.getD (py "retryable") (.bool false) with
          | error e' =>
              simp only [attemptTrace, htype, hr, AttemptExit.raised.injEq] at h
              rw [← h, getD_isException hr] at he
              cases he
          | ok retryable =>
              cases hretry : retryable.truthy && canRetry <;>
                simp [attemptTrace, htype, hr, hretry] at h
      | _ =>
          simp only [attemptTrace, htype] at h
          exact ih h

-- ============================================================================
-- The attempt loop
-- ============================================================================

/-- The attempts made from `attempt` on, at most `left` of them: one more as
    long as the last one failed. -/
def madeFrom (fails : Nat → Bool) : (left attempt : Nat) → List Nat
  | 0, _ => []
  | left + 1, attempt =>
      attempt :: if fails attempt then madeFrom fails left (attempt + 1) else []

theorem madeFrom_ne_nil {fails : Nat → Bool} {left : Nat} (hleft : left ≠ 0) (attempt : Nat) :
    madeFrom fails left attempt ≠ [] := by
  cases left with
  | zero => exact absurd rfl hleft
  | succ left => simp [madeFrom]

/-- An attempt before the last one is an attempt up to which all failed. -/
theorem mem_dropLast_madeFrom {fails : Nat → Bool} {left attempt k : Nat} :
    k ∈ (madeFrom fails left attempt).dropLast ↔
      attempt ≤ k ∧ k + 1 < attempt + left ∧
        ∀ j, attempt ≤ j → j ≤ k → fails j = true := by
  induction left generalizing attempt with
  | zero =>
      simp only [madeFrom, List.dropLast_nil, List.not_mem_nil, false_iff]
      rintro ⟨h₁, h₂, -⟩
      omega
  | succ left ih =>
      cases hf : fails attempt with
      | false =>
          simp only [madeFrom, hf, Bool.false_eq_true, if_false, List.dropLast_singleton,
            List.not_mem_nil, false_iff]
          rintro ⟨h₁, -, h₂⟩
          simp [h₂ attempt (Nat.le_refl _) h₁] at hf
      | true =>
          cases hleft : left with
          | zero =>
              simp only [madeFrom, ite_self, List.dropLast_singleton, List.not_mem_nil,
                false_iff]
              rintro ⟨h₁, h₂, -⟩
              omega
          | succ left' =>
              have hne : madeFrom fails left (attempt + 1) ≠ [] :=
                madeFrom_ne_nil (by omega) _
              rw [← hleft, madeFrom, if_pos hf, List.dropLast_cons_of_ne_nil hne,
                List.mem_cons, ih]
              constructor
              · rintro (rfl | ⟨h₁, h₂, h₃⟩)
                · refine ⟨Nat.le_refl _, by omega, fun j hj hj' => ?_⟩
                  rw [Nat.le_antisymm hj' hj]
                  exact hf
                · refine ⟨by omega, by omega, fun j hj hj' => ?_⟩
                  rcases Nat.eq_or_lt_of_le hj with rfl | hlt
                  · exact hf
                  · exact h₃ j hlt hj'
              · rintro ⟨h₁, h₂, h₃⟩
                rcases Nat.eq_or_lt_of_le h₁ with rfl | hlt
                · exact Or.inl rfl
                · exact Or.inr ⟨hlt, by omega, fun j hj hj' => h₃ j (by omega) hj'⟩

/-- Concatenating over a list gives its last part exactly when the parts
    before are empty. -/
theorem flatMap_eq_getLast_iff {α β : Type} {l : List α} (hl : l ≠ []) (f : α → List β) :
    l.flatMap f = f (l.getLast hl) ↔ ∀ a ∈ l.dropLast, f a = [] := by
  have hsplit : l.flatMap f = l.dropLast.flatMap f ++ f (l.getLast hl) := by
    conv_lhs => rw [← List.dropLast_append_getLast hl]
    rw [List.flatMap_append, List.flatMap_singleton]
  rw [hsplit, List.append_left_eq_self, List.flatMap_eq_nil_iff]

section Loop

variable {adapter : DownstreamAdapter} {output : Bool} {maxAttempts backoffMs : Nat}
  {state : GraphState}

/-- The scripts of the node's attempts. -/
def DownstreamAdapter.script (adapter : DownstreamAdapter) (state : GraphState) (output : Bool)
    (attempt : Nat) : Attempt :=
  adapter.run attempt state output

theorem dispatchedDeltas_attemptActs (attempt : Nat) :
    dispatchedDeltas (adapter.attemptActs output maxAttempts state attempt)
      = shown output (adapter.script state output attempt).deltas :=
  dispatchedDeltas_attemptTrace output _ _ _

theorem attemptsRun_attemptActs (attempt : Nat) :
    attemptsRun (adapter.attemptActs output maxAttempts state attempt) = [attempt] := by
  have h : attemptsRun ((adapter.attemptTrace output maxAttempts state attempt).events.map .emit)
      = [] := attemptsRun_events _
  exact congrArg (attempt :: ·) h

theorem attemptTrace_chunks (attempt : Nat) :
    (adapter.attemptTrace output maxAttempts state attempt).chunks
      = (adapter.script state output attempt).deltas.filterMap deltaContent :=
  chunks_attemptTrace output _ _ _

theorem attemptTrace_failed {attempt : Nat} (h : attempt < maxAttempts) :
    (adapter.attemptTrace output maxAttempts state attempt).exit.failed
      = (adapter.script state output attempt).fails := by
  rw [DownstreamAdapter.attemptTrace, decide_eq_true h, failed_attemptTrace]
  rfl

/-- The last attempt of a loop calls the adapter no more, dispatches no further
    delta and keeps all chunks of a user-facing node. -/
theorem LastAttempt.quiet {chunks : List Json} {exit : AttemptExit} {tail : List Act}
    {u : Update} (h : LastAttempt output maxAttempts chunks exit tail u) :
    attemptsRun tail = [] ∧ dispatchedDeltas tail = [] ∧
      (output = true → u.answerChunks = chunks) := by
  cases h with
  | finished => exact ⟨rfl, rfl, fun h => by simp [chunksUpdate, h]⟩
  | errorShown => exact ⟨rfl, rfl, fun h => by simp [chunksUpdate, h]⟩
  | exhausted he => exact ⟨rfl, rfl, fun h => by simp [chunksUpdate, h]⟩
  | cancelled he => exact ⟨rfl, rfl, fun _ => rfl⟩

/-- Without a retry the list of attempts ends, whether the attempt failed or not. -/
theorem madeFrom_last {left attempt : Nat} (hleft : attempt + (left + 1) = maxAttempts + 1)
    (hlast : ¬ ((adapter.attemptTrace output maxAttempts state attempt).exit.failed = true ∧
      attempt < maxAttempts)) :
    madeFrom (fun k => (adapter.script state output k).fails) (left + 1) attempt = [attempt] := by
  have hstop : (if (adapter.script state output attempt).fails then
      madeFrom (fun k => (adapter.script state output k).fails) left (attempt + 1)
      else []) = [] := by
    by_cases hlt : attempt < maxAttempts
    · rw [attemptTrace_failed hlt] at hlast
      rw [if_neg fun hf => hlast ⟨hf, hlt⟩]
    · rw [show left = 0 by omega]
      simp [madeFrom]
  rw [madeFrom, hstop]

/-- The attempts a run makes, and the deltas it dispatches: those of all of them. -/
theorem adapterTrace_made {left attempt : Nat} (hleft : attempt + left = maxAttempts + 1)
    (chunks : List Json) :
    attemptsRun (adapterTrace adapter output maxAttempts backoffMs state left attempt chunks).1
        = madeFrom (fun k => (adapter.script state output k).fails) left attempt ∧
      dispatchedDeltas
          (adapterTrace adapter output maxAttempts backoffMs state left attempt chunks).1
        = (madeFrom (fun k => (adapter.script state output k).fails) left attempt).flatMap
            fun k => shown output (adapter.script state output k).deltas := by
  induction left generalizing attempt chunks with
  | zero => exact ⟨rfl, rfl⟩
  | succ left ih =>
      rcases adapterTrace_cases backoffMs left chunks
          (rfl : adapter.attemptTrace output maxAttempts state attempt = _) with
        ⟨hfailed, hlt, heq⟩ | ⟨hlast, tail, u, htail, heq⟩
      · rw [attemptTrace_failed hlt] at hfailed
        obtain ⟨hrun, hdeltas⟩ := @ih (attempt + 1) (by omega) (chunks ++
          (adapter.attemptTrace output maxAttempts state attempt).chunks)
        rw [heq, madeFrom, if_pos hfailed]
        refine ⟨?_, ?_⟩
        · rw [attemptsRun_append, attemptsRun_attemptActs, ← hrun]
          rfl
        · rw [dispatchedDeltas_append, dispatchedDeltas_attemptActs, List.flatMap_cons, ← hdeltas]
          rfl
      · rw [heq, madeFrom_last hleft hlast]
        refine ⟨?_, ?_⟩
        · rw [attemptsRun_append, attemptsRun_attemptActs, htail.quiet.1]
          rfl
        · rw [dispatchedDeltas_append, dispatchedDeltas_attemptActs, htail.quiet.2.1]
          simp

/-- What a user-facing node stores is what it dispatched. -/
theorem adapterTrace_answerChunks (left attempt : Nat) (chunks : List Json) :
    (adapterTrace adapter true maxAttempts backoffMs state left attempt chunks).2.answerChunks
      = chunks ++ (dispatchedDeltas
          (adapterTrace adapter true maxAttempts backoffMs state left attempt chunks).1).filterMap
            deltaContent := by
  induction left generalizing attempt chunks with
  | zero => simp [adapterTrace, chunksUpdate, dispatchedDeltas]
  | succ left ih =>
      rcases adapterTrace_cases backoffMs left chunks
          (rfl : adapter.attemptTrace true maxAttempts state attempt = _) with
        ⟨-, -, heq⟩ | ⟨-, tail, u, htail, heq⟩
      · rw [heq]
        simp only [ih, dispatchedDeltas_append, dispatchedDeltas_attemptActs, attemptTrace_chunks,
          List.filterMap_append, shown, if_true, List.append_assoc]
        rfl
      · rw [heq]
        simp [dispatchedDeltas_attemptActs, attemptTrace_chunks, htail.quiet.2.1,
          htail.quiet.2.2 rfl, shown]

/-- An internal node that is not cancelled stores nothing. -/
theorem adapterTrace_internal
    (hexc : ∀ k, (adapter.script state false k).ending ≠ .error .cancelled)
    (left attempt : Nat) (chunks : List Json) :
    (adapterTrace adapter false maxAttempts backoffMs state left attempt chunks).2.answerChunks
      = [] := by
  induction left generalizing attempt chunks with
  | zero => rfl
  | succ left ih =>
      rcases adapterTrace_cases backoffMs left chunks
          (rfl : adapter.attemptTrace false maxAttempts state attempt = _) with
        ⟨-, -, heq⟩ | ⟨-, tail, u, htail, heq⟩
      · rw [heq]
        exact ih _ _
      · rw [heq]
        generalize hexit : (adapter.attemptTrace false maxAttempts state attempt).exit = exit
          at htail
        cases htail with
        | finished => rfl
        | errorShown => rfl
        | exhausted he => rfl
        | @cancelled e he =>
            have hending := cancelled_attemptTrace hexit he
            rw [Exn.isException_eq_false.mp he] at hending
            exact absurd hending (hexc attempt)

end Loop

-- ============================================================================
-- Transparency
-- ============================================================================

/-- The deltas dispatched in a run of the node and the chunks it returns are the
    deltas of the last attempt the run makes, and nothing else. -/
def RetryTransparent (adapter : DownstreamAdapter) (output : Bool) (state : GraphState)
    (acts : List Act) (result : Except Exn Update) : Prop :=
  ∃ last u, (attemptsRun acts).getLast? = some last ∧ result = .ok u ∧
    dispatchedDeltas acts = shown output (adapter.script state output last).deltas ∧
    u.answerChunks
      = (shown output (adapter.script state output last).deltas).filterMap deltaContent

/-- Attempt `k` is made again: it and all attempts before it fail, and the
    policy allows one more. -/
def Retried (adapter : DownstreamAdapter) (output : Bool) (maxAttempts : Nat)
    (state : GraphState) (k : Nat) : Prop :=
  1 ≤ k ∧ k < maxAttempts ∧ ∀ j, 1 ≤ j → j ≤ k → (adapter.script state output j).fails = true

/-- For attempts that end normally, with an error event or by an exception: the
    retries are transparent if and only if the node is internal or every
    attempt that is retried fails before its first delta. -/
theorem retry_transparent_iff (adapter : DownstreamAdapter) (output : Bool)
    (retry : Option RetryPolicy) (state : GraphState) (w : σ)
    (hexc : ∀ k, (adapter.script state output k).ending ≠ .error .cancelled) :
    RetryTransparent adapter output state
        (makeAdapterNode (NodeEnv.live σ) adapter output retry state w).trace
        (makeAdapterNode (NodeEnv.live σ) adapter output retry state w).result ↔
      (output = true → ∀ k, Retried adapter output (maxAttempts retry) state k →
        (adapter.script state output k).deltas = []) := by
  rw [makeAdapterNode_live, Eff.play_trace, Eff.play_result]
  have hpos : maxAttempts retry ≠ 0 := Nat.one_le_iff_ne_zero.mp (one_le_maxAttempts retry)
  have hne := @madeFrom_ne_nil (fun k => (adapter.script state output k).fails) _ hpos 1
  obtain ⟨hrun, hdeltas⟩ := @adapterTrace_made adapter output (maxAttempts retry)
    (backoffMs retry) state (maxAttempts retry) 1 (Nat.add_comm _ _) []
  rw [RetryTransparent, hrun, hdeltas, List.getLast?_eq_some_getLast hne]
  cases output with
  | false =>
      have hnone := @adapterTrace_internal adapter (maxAttempts retry) (backoffMs retry) state
        hexc (maxAttempts retry) 1 []
      simp [shown, hnone]
  | true =>
      have hchunks := @adapterTrace_answerChunks adapter (maxAttempts retry) (backoffMs retry)
        state (maxAttempts retry) 1 []
      rw [hdeltas, List.nil_append] at hchunks
      have hlast := flatMap_eq_getLast_iff hne
        fun k => shown true (adapter.script state true k).deltas
      constructor
      · rintro ⟨last, u, hl, -, hd, -⟩ - k ⟨h₁, h₂, h₃⟩
        rw [← Option.some.inj hl] at hd
        exact hlast.mp hd k (mem_dropLast_madeFrom.mpr ⟨h₁, by omega, h₃⟩)
      · intro h
        have hd := hlast.mpr fun k hk => by
          obtain ⟨h₁, h₂, h₃⟩ := mem_dropLast_madeFrom.mp hk
          exact h rfl k ⟨h₁, by omega, h₃⟩
        exact ⟨_, _, rfl, rfl, hd, by rw [hchunks, hd]⟩

/-- An adapter with the given attempts; later ones yield nothing. -/
def scripted (attempts : List Attempt) : DownstreamAdapter where
  run := fun attempt _ _ => attempts.getD (attempt - 1) ⟨[], .ok ()⟩

/-- A delta event with a text. -/
def deltaEvent (text : PyStr) : ChatEvent := literalEvent .delta [(py "content", .str text)]

/-- A state to run a node from. -/
def blankState : GraphState where
  requestId := .str (py "req_1")
  bizId := py "topic"
  threadId := .str (py "th_1")
  identity := none
  question := .str (py "q")
  bizParams := .obj []
  assistantMessageId := py "msg_1"

/-- Two attempts without backoff. -/
def twice : RetryPolicy := ⟨2, 0, by omega, by omega, by omega⟩

/-- A first attempt that fails before any delta is transparent. -/
theorem retry_transparent_iff_early_failure :
    RetryTransparent
      (scripted [⟨[], .error .dbError⟩, ⟨[deltaEvent (py "a")], .ok ()⟩]) true blankState
      (makeAdapterNode (NodeEnv.live Unit)
        (scripted [⟨[], .error .dbError⟩, ⟨[deltaEvent (py "a")], .ok ()⟩]) true (some twice)
        blankState ()).trace
      (makeAdapterNode (NodeEnv.live Unit)
        (scripted [⟨[], .error .dbError⟩, ⟨[deltaEvent (py "a")], .ok ()⟩]) true (some twice)
        blankState ()).result := by
  refine (retry_transparent_iff _ true (some twice) blankState () ?_).mpr ?_
  · intro k
    rcases k with _ | _ | _ | k <;> simp [DownstreamAdapter.script, scripted]
  · rintro - k ⟨h₁, h₂, -⟩
    have hk : k = 1 := by
      have : k < 2 := h₂
      omega
    rw [hk]
    rfl

/-- A first attempt that yields a delta and then raises: its delta is dispatched
    and stored a second time by the second attempt. -/
theorem retry_repeats_delta :
    ¬ RetryTransparent
      (scripted [⟨[deltaEvent (py "a")], .error .dbError⟩, ⟨[deltaEvent (py "a")], .ok ()⟩])
      true blankState
      (makeAdapterNode (NodeEnv.live Unit)
        (scripted [⟨[deltaEvent (py "a")], .error .dbError⟩, ⟨[deltaEvent (py "a")], .ok ()⟩])
        true (some twice) blankState ()).trace
      (makeAdapterNode (NodeEnv.live Unit)
        (scripted [⟨[deltaEvent (py "a")], .error .dbError⟩, ⟨[deltaEvent (py "a")], .ok ()⟩])
        true (some twice) blankState ()).result := by
  rintro ⟨last, u, hlast, -, hdeltas, -⟩
  have hl : some 2 = some last := hlast
  cases hl
  have hlen := congrArg List.length hdeltas
  have htwo : (2 : Nat) = 1 := hlen
  omega

end MasterAgent
