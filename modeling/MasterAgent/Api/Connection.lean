/-
  MasterAgent.Api.Connection

  One WebSocket connection after `ready` (`ma/api/ws.py`): the receive loop, its
  `ConnectionManager`, and the tasks that run `_handle_ask`.

  Code between two awaits is atomic, so a connection is a machine.  Its inputs
  are the frames the loop receives and the other ways the loop goes on, and the
  moments at which a task is resumed: at its first step, with the next event of
  `ChatService.handle`, with the end of it, or, once `cancel()` was called, with
  the `CancelledError`.
-/

import MasterAgent.Api.Ws
import MasterAgent.Core.Graph.Events
import MasterAgent.Lib.Machine
import MasterAgent.Python.DictKey

namespace MasterAgent

open Effect Machine

variable {σ : Type}

-- ============================================================================
-- What a task consumes
-- ============================================================================

/-- A run of `ChatService.handle` as its consumer sees it. -/
structure Script where
  yields : List ChatEvent
  ending : Except Exn Unit

/-- The events a run yields, and how it ends. -/
def Script.ofRun (r : Run σ Exn Act Unit) : Script where
  yields := r.trace.filterMap Act.yielded
  ending := r.result

/-- What a connection runs on: its context, the service, and for each task it
    starts the id it makes up when the frame has none, and what its request meets. -/
structure Endpoint (σ : Type) where
  codec : FrameCodec
  topics : TopicRegistry
  context : WsContext
  ulid : Nat → PyStr
  env : Nat → Env σ
  world : Nat → σ

-- ============================================================================
-- The state
-- ============================================================================

/-- How a task has ended. -/
inductive TaskEnd where
  /-- The events of `handle` were used up. -/
  | finished
  /-- The client was no longer connected: `break`. -/
  | left
  /-- `handle` or a send raised an `Exception`. -/
  | raised
  | cancelled
deriving DecidableEq

/-- Where a task is, with the number of events it has sent. -/
inductive Phase where
  | created
  | running (sent : Nat)
  | ended (sent : Nat) (how : TaskEnd)
deriving DecidableEq

/-- A `_handle_ask` task. -/
structure AskTask where
  frame : Frame
  /-- `frame.get("request_id") or _new_request_id()`. -/
  requestId : Json
  phase : Phase := .created
  /-- `cancel()` was called before it ended. -/
  cancelled : Bool := false

/-- Why the endpoint has exited. -/
inductive ExitCause where
  | disconnect
  | timeout
  | raised (e : Exn)
deriving DecidableEq

inductive LoopState where
  | receiving
  /-- The heartbeat has timed out and the connection is being closed. -/
  | closing
  | exited (cause : ExitCause)
deriving DecidableEq

/-- A connection.  Tasks are numbered in the order of their creation. -/
structure Connection where
  tasks : List AskTask := []
  /-- `ConnectionManager._active_tasks`. -/
  active : Dict PyKey Nat := .empty
  loop : LoopState := .receiving
  /-- `websocket.client_state` is `CONNECTED`. -/
  connected : Bool := true
  /-- The frames sent. -/
  sent : List Json := [encodeWsReady]

/-- What happens next on a connection. -/
inductive WsInput where
  /-- A text arrives; an answer to it can be sent or not. -/
  | frame (raw : PyStr) (delivered : Bool)
  /-- No frame for 45 seconds; the `closed` frame gets through or not. -/
  | timeout (delivered : Bool)
  /-- The connection is closed after a timeout. -/
  | closed
  | disconnect
  /-- Task `i` goes on to its next await; a frame it sends gets through or not. -/
  | resume (i : Nat) (delivered : Bool)
deriving DecidableEq

namespace AskTask

def Ended (t : AskTask) : Prop := ∃ n how, t.phase = .ended n how

instance (t : AskTask) : Decidable t.Ended :=
  match h : t.phase with
  | .ended n how => .isTrue ⟨n, how, h⟩
  | .created => .isFalse fun ⟨_, _, h'⟩ => by rw [h] at h'; cases h'
  | .running _ => .isFalse fun ⟨_, _, h'⟩ => by rw [h] at h'; cases h'

/-- Started, and neither finished nor cancelled. -/
def live (t : AskTask) : Bool := decide (¬ t.Ended) && !t.cancelled

/-- `task.cancel()`, which does nothing once the task is done. -/
def cancel (t : AskTask) : AskTask := if t.Ended then t else { t with cancelled := true }

/-- The number of events the task has sent. -/
def sentCount (t : AskTask) : Nat :=
  match t.phase with
  | .created => 0
  | .running n => n
  | .ended n _ => n

end AskTask

namespace Connection

variable (c : Connection)

-- ============================================================================
-- ConnectionManager
-- ============================================================================

/-- `_MAX_CONCURRENT`. -/
def maxConcurrent : Nat := 5

/-- `_can_accept`. -/
def canAccept : Bool := decide (c.active.entries.length < maxConcurrent)

/-- `_add`. -/
def add (k : PyKey) (i : Nat) : Connection := { c with active := c.active.set k i }

/-- `_remove`. -/
def remove (k : PyKey) : Connection := { c with active := c.active.erase k }

def cancelTask (i : Nat) : Connection := { c with tasks := c.tasks.modify i AskTask.cancel }

/-- `_cancel_all`. -/
def cancelAll : Connection :=
  { c with
    tasks := c.tasks.mapIdx fun i t =>
      if i ∈ c.active.entries.map Prod.snd then t.cancel else t
    active := .empty }

/-- The `finally` of the endpoint. -/
def exit (cause : ExitCause) : Connection := { c.cancelAll with loop := .exited cause }

-- ============================================================================
-- The receive loop
-- ============================================================================

/-- The loop sends a frame; when the client is gone this ends the loop. -/
def reply (frame : Json) (delivered : Bool) : Connection :=
  if delivered then { c with sent := c.sent ++ [frame] } else c.exit .disconnect

/-- `{"op": "error", "reason": ...}`. -/
def errorFrame (reason : PyStr) (fields : List (PyStr × Json)) : Json :=
  .obj ([(py "op", .str (py "error")), (py "reason", .str reason)] ++ fields)

/-- `frame.get("request_id", "")`. -/
def frameId (frame : Frame) : Json := (Json.field (py "request_id") frame).getD (.str [])

/-- The answer to an ask that is one too many. -/
def tooMany (frame : Frame) : Json :=
  errorFrame (py s!"too many concurrent requests (max {maxConcurrent})")
    [(py "request_id", frameId frame)]

/-- `_handle_ask(frame)`, not yet started. -/
def newTask (e : Endpoint σ) (frame : Frame) : AskTask where
  frame := frame
  requestId := (frameGet frame (py "request_id")).orElse
    (.str (py "req_" ++ e.ulid c.tasks.length))

/-- `asyncio.create_task(_handle_ask(frame))`. -/
def createTask (e : Endpoint σ) (frame : Frame) : Connection :=
  { c with tasks := c.tasks ++ [c.newTask e frame] }

/-- The ask branch.  The task is created before it is registered. -/
def onAsk (e : Endpoint σ) (frame : Frame) (delivered : Bool) : Connection :=
  if !c.canAccept then c.reply (tooMany frame) delivered
  else match (frameId frame).pyKey with
    | none => (c.createTask e frame).exit (.raised .typeError)
    | some k => (c.createTask e frame).add k c.tasks.length

/-- The cancel branch. -/
def onCancel (frame : Frame) : Connection :=
  match (frameId frame).pyKey with
  | none => c.exit (.raised .typeError)
  | some k => match c.active.get? k with
      | none => c
      | some i => (c.cancelTask i).remove k

/-- One round of the loop. -/
def onFrame (e : Endpoint σ) (raw : PyStr) (delivered : Bool) : Connection :=
  match decodeWsFrame e.codec raw with
  | .error (.wsFrameError text) => c.reply (errorFrame text []) delivered
  | .error (.raised exn) => c.exit (.raised exn)
  | .ok (.ping, _) => c.reply encodeWsPong delivered
  | .ok (.ask, frame) => c.onAsk e frame delivered
  | .ok (.cancel, frame) => c.onCancel frame

-- ============================================================================
-- The tasks
-- ============================================================================

/-- The run of `ChatService.handle` that task `i` consumes. -/
def script (e : Endpoint σ) (i : Nat) (t : AskTask) : Script :=
  .ofRun (handle (e.env i) e.topics (e.context.askRequest t.frame t.requestId) (e.world i))

def setPhase (i : Nat) (phase : Phase) : Connection :=
  { c with tasks := c.tasks.modify i fun t => { t with phase := phase } }

/-- The `finally` of `_handle_ask`, with which the task ends. -/
def finish (i : Nat) (t : AskTask) (how : TaskEnd) : Connection :=
  let c := c.setPhase i (.ended t.sentCount how)
  match t.requestId.pyKey with
  | none => c
  | some k => c.remove k

/-- How a task ends that has used up the events of `handle`. -/
def exhausted : Except Exn Unit → TaskEnd
  | .ok () => .finished
  | .error .cancelled => .cancelled
  | .error _ => .raised

/-- Task `i` goes on. -/
def onResume (e : Endpoint σ) (i : Nat) (delivered : Bool) : Connection :=
  match c.tasks[i]? with
  | none => c
  | some t => match t.phase with
      | .ended _ _ => c
      | .created =>
          -- a task that is cancelled before its first step never enters its body
          if t.cancelled then c.setPhase i (.ended 0 .cancelled) else c.setPhase i (.running 0)
      | .running n =>
          if t.cancelled then c.finish i t .cancelled
          else match (script e i t).yields[n]? with
            | none => c.finish i t (exhausted (script e i t).ending)
            | some ev =>
                if !c.connected then c.finish i t .left
                else if delivered then
                  { c.setPhase i (.running (n + 1)) with
                    sent := c.sent ++ [encodeWs ev t.requestId] }
                else c.finish i t .raised

/-- One step of the connection. -/
def step (e : Endpoint σ) (c : Connection) : WsInput → Connection
  | .frame raw delivered => if c.loop = .receiving then c.onFrame e raw delivered else c
  | .timeout delivered =>
      if c.loop = .receiving then
        if delivered then
          { c with sent := c.sent ++ [encodeWsClosed (py "heartbeat timeout")], loop := .closing }
        else c.exit .timeout
      else c
  | .closed => if c.loop = .closing then c.exit .timeout else c
  | .disconnect =>
      if c.loop = .receiving then { c.exit .disconnect with connected := false } else c
  | .resume i delivered => c.onResume e i delivered

/-- The frame of an input that decodes to an ask. -/
def askFrame (e : Endpoint σ) : WsInput → Option Frame
  | .frame raw _ => match decodeWsFrame e.codec raw with
      | .ok (.ask, frame) => some frame
      | _ => none
  | _ => none

theorem askFrame_of_decode {e : Endpoint σ} {raw : PyStr} {frame : Frame}
    (h : decodeWsFrame e.codec raw = .ok (.ask, frame)) (delivered : Bool) :
    askFrame e (.frame raw delivered) = some frame := by
  simp only [askFrame, h]

/-- The frame of an input that decodes to a cancel. -/
def cancelFrame (e : Endpoint σ) : WsInput → Option Frame
  | .frame raw _ => match decodeWsFrame e.codec raw with
      | .ok (.cancel, frame) => some frame
      | _ => none
  | _ => none

/-- The input is an ask that is accepted. -/
def Accepts (e : Endpoint σ) (input : WsInput) (frame : Frame) : Prop :=
  c.loop = .receiving ∧ askFrame e input = some frame ∧ c.canAccept = true

/-- The input is an ask that is refused as one too many. -/
def Refuses (e : Endpoint σ) (input : WsInput) : Prop :=
  c.loop = .receiving ∧ (∃ frame, askFrame e input = some frame) ∧ c.canAccept = false

/-- The number of tasks that have been started and are neither finished nor
    cancelled. -/
def liveCount : Nat := c.tasks.countP AskTask.live

end Connection

/-- All a resumption of task `i` can do. -/
inductive Resumed (e : Endpoint σ) (c : Connection) (i : Nat) (delivered : Bool) :
    Connection → Prop where
  /-- There is no such task, or it has ended. -/
  | idle (hdone : ∀ t, c.tasks[i]? = some t → t.Ended) : Resumed e c i delivered c
  | started {t : AskTask} (ht : c.tasks[i]? = some t) (hphase : t.phase = .created)
      (hkeep : t.cancelled = false) : Resumed e c i delivered (c.setPhase i (.running 0))
  | dropped {t : AskTask} (ht : c.tasks[i]? = some t) (hphase : t.phase = .created)
      (hcancel : t.cancelled = true) :
      Resumed e c i delivered (c.setPhase i (.ended 0 .cancelled))
  | sent {t : AskTask} {n : Nat} {ev : ChatEvent} (ht : c.tasks[i]? = some t)
      (hphase : t.phase = .running n) (hnext : (Connection.script e i t).yields[n]? = some ev) :
      Resumed e c i delivered
        { c.setPhase i (.running (n + 1)) with sent := c.sent ++ [encodeWs ev t.requestId] }
  /-- The events are used up. -/
  | finished {t : AskTask} {n : Nat} (ht : c.tasks[i]? = some t) (hphase : t.phase = .running n)
      (hlast : (Connection.script e i t).yields[n]? = none) :
      Resumed e c i delivered (c.finish i t .finished)
  /-- The task is left before that. -/
  | cut {t : AskTask} {n : Nat} {how : TaskEnd} (ht : c.tasks[i]? = some t)
      (hphase : t.phase = .running n)
      (hwhy : t.cancelled = true ∨ (Connection.script e i t).ending ≠ .ok () ∨
        c.connected = false ∨ delivered = false) :
      Resumed e c i delivered (c.finish i t how)

theorem Connection.onResume_cases (e : Endpoint σ) (c : Connection) (i : Nat) (delivered : Bool) :
    Resumed e c i delivered (c.onResume e i delivered) := by
  unfold onResume
  cases ht : c.tasks[i]? with
  | none => exact .idle fun t ht' => absurd (ht.symm.trans ht') (by simp)
  | some t =>
      cases hphase : t.phase with
      | ended n how =>
          simp only [hphase]
          refine .idle fun t' ht' => ?_
          rw [ht, Option.some.injEq] at ht'
          exact ht' ▸ ⟨n, how, hphase⟩
      | created =>
          simp only [hphase]
          cases hcancel : t.cancelled with
          | true => exact .dropped ht hphase hcancel
          | false => exact .started ht hphase hcancel
      | running n =>
          simp only [hphase]
          cases hcancel : t.cancelled with
          | true => exact .cut ht hphase (Or.inl hcancel)
          | false =>
              simp only [Bool.false_eq_true, if_false]
              cases hnext : (script e i t).yields[n]? with
              | none =>
                  cases hending : (script e i t).ending with
                  | ok u => exact .finished ht hphase hnext
                  | error exn => exact .cut ht hphase (Or.inr (Or.inl (by simp [hending])))
              | some ev =>
                  cases hconn : c.connected with
                  | false => exact .cut ht hphase (Or.inr (Or.inr (Or.inl hconn)))
                  | true =>
                      cases delivered with
                      | true => exact .sent ht hphase hnext
                      | false => exact .cut ht hphase (Or.inr (Or.inr (Or.inr rfl)))

/-- All a step can do. -/
inductive Stepped (e : Endpoint σ) (c : Connection) (input : WsInput) : Connection → Prop where
  | idle : Stepped e c input c
  /-- The loop sends a frame that carries no event. -/
  | answered {frame : Json} {loop : LoopState} (hframe : eventOf frame = none)
      (hloop : ∀ cause, loop ≠ .exited cause) (hbefore : c.loop = .receiving) :
      Stepped e c input { c with sent := c.sent ++ [frame], loop := loop }
  | exited {cause : ExitCause} {connected : Bool} (hbefore : ∀ cause, c.loop ≠ .exited cause) :
      Stepped e c input { c.exit cause with connected := connected }
  | accepted {frame : Frame} {k : PyKey} (haccept : c.Accepts e input frame)
      (hkey : (Connection.frameId frame).pyKey = some k) :
      Stepped e c input ((c.createTask e frame).add k c.tasks.length)
  /-- The task of an ask under an unhashable id is not registered. -/
  | unregistered {frame : Frame} (haccept : c.Accepts e input frame)
      (hkey : (Connection.frameId frame).pyKey = none) :
      Stepped e c input ((c.createTask e frame).exit (.raised .typeError))
  | withdrawn {frame : Frame} {k : PyKey} {i : Nat}
      (hcancel : Connection.cancelFrame e input = some frame)
      (hkey : (Connection.frameId frame).pyKey = some k)
      (hget : c.active.get? k = some i) : Stepped e c input ((c.cancelTask i).remove k)
  | resumed {i : Nat} {delivered : Bool} {c' : Connection} (hinput : input = .resume i delivered)
      (h : Resumed e c i delivered c') : Stepped e c input c'

namespace Connection

variable {e : Endpoint σ} {c : Connection} {input : WsInput}

theorem reply_cases {frame : Json} (hframe : eventOf frame = none) (hloop : c.loop = .receiving)
    (delivered : Bool) : Stepped e c input (c.reply frame delivered) := by
  have hopen : ∀ cause, c.loop ≠ .exited cause := by
    intro cause h
    rw [hloop] at h
    cases h
  cases delivered with
  | true => exact .answered hframe hopen hloop
  | false => exact .exited hopen

theorem eventOf_errorFrame (reason : PyStr) (fields : List (PyStr × Json)) :
    eventOf (errorFrame reason fields) = none :=
  eventOf_of_op rfl (by decide)

theorem onFrame_cases (hloop : c.loop = .receiving) (e : Endpoint σ) {raw : PyStr}
    {delivered : Bool} :
    Stepped e c (.frame raw delivered) (c.onFrame e raw delivered) := by
  have hopen : ∀ cause, c.loop ≠ .exited cause := by
    intro cause h
    rw [hloop] at h
    cases h
  unfold onFrame
  split
  · exact reply_cases (eventOf_errorFrame _ _) hloop delivered
  · exact .exited hopen
  · exact reply_cases eventOf_pong hloop delivered
  · next frame hdecode =>
    unfold onAsk
    cases haccept : c.canAccept with
    | false => exact reply_cases (eventOf_errorFrame _ _) hloop delivered
    | true =>
        have hask := askFrame_of_decode hdecode delivered
        simp only [Bool.not_true, Bool.false_eq_true, if_false]
        cases hkey : (frameId frame).pyKey with
        | none => exact .unregistered ⟨hloop, hask, haccept⟩ hkey
        | some k => exact .accepted ⟨hloop, hask, haccept⟩ hkey
  · next frame hdecode =>
    unfold onCancel
    split
    · exact .exited hopen
    · next k hkey =>
      cases hget : c.active.get? k with
      | none => exact .idle
      | some i =>
          refine .withdrawn ?_ hkey hget
          simp only [cancelFrame, hdecode]

theorem step_cases (e : Endpoint σ) (c : Connection) (input : WsInput) :
    Stepped e c input (c.step e input) := by
  cases input with
  | frame raw delivered =>
      by_cases hloop : c.loop = .receiving
      · rw [step, if_pos hloop]
        exact onFrame_cases hloop e
      · rw [step, if_neg hloop]
        exact .idle
  | timeout delivered =>
      by_cases hloop : c.loop = .receiving
      · rw [step, if_pos hloop]
        cases delivered with
        | true => exact .answered (eventOf_closed _) (fun cause h => by cases h) hloop
        | false => exact .exited fun cause h => by rw [hloop] at h; cases h
      · rw [step, if_neg hloop]
        exact .idle
  | closed =>
      by_cases hloop : c.loop = .closing
      · rw [step, if_pos hloop]
        exact .exited fun cause h => by rw [hloop] at h; cases h
      · rw [step, if_neg hloop]
        exact .idle
  | disconnect =>
      by_cases hloop : c.loop = .receiving
      · rw [step, if_pos hloop]
        exact .exited fun cause h => by rw [hloop] at h; cases h
      · rw [step, if_neg hloop]
        exact .idle
  | resume i delivered => exact .resumed rfl (onResume_cases e c i delivered)

/-- An ask that is accepted starts a task and registers it. -/
theorem step_of_accepts {frame : Frame} {k : PyKey} (h : c.Accepts e input frame)
    (hkey : (frameId frame).pyKey = some k) :
    c.step e input = (c.createTask e frame).add k c.tasks.length := by
  obtain ⟨hloop, hask, haccept⟩ := h
  cases input with
  | frame raw delivered =>
      have hdecode : decodeWsFrame e.codec raw = .ok (.ask, frame) := by
        simp only [askFrame] at hask
        split at hask
        · next heq =>
          rw [Option.some.injEq] at hask
          rw [heq, hask]
        · cases hask
      simp only [step, if_pos hloop, onFrame, hdecode, onAsk, haccept, hkey, Bool.not_true,
        Bool.false_eq_true, if_false]
  | _ => cases hask

end Connection

/-- The connection after `ready`. -/
def Connection.ready : Connection := {}

/-- The state a connection reaches. -/
def Endpoint.after (e : Endpoint σ) (inputs : List WsInput) : Connection :=
  exec (Connection.step e) .ready inputs

end MasterAgent
