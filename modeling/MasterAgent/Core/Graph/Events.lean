/-
  MasterAgent.Core.Graph.Events

  The frames of the WebSocket protocol (`ma/core/graph/events.py`).  A frame is
  sent as the text `json.dumps` makes of an object; it stands here as that
  object.  Decoding a client's text can fail in two ways: with a `WSFrameError`,
  which the endpoint answers, and with anything else that is raised on the way.
-/

import MasterAgent.Core.Graph.State

namespace MasterAgent

-- ============================================================================
-- From the server
-- ============================================================================

/-- The name of an event type. -/
def EventType.text : EventType → PyStr
  | .meta => py "meta"
  | .thinking => py "thinking"
  | .progress => py "progress"
  | .delta => py "delta"
  | .tool => py "tool"
  | .error => py "error"
  | .done => py "done"

/-- `encode_ws`. -/
def encodeWs (event : ChatEvent) (requestId : Json) : Json :=
  .obj [(py "op", .str (py "event")), (py "request_id", requestId),
    (py "event", .str event.type.text), (py "data", event.data)]

/-- `encode_ws_ready`. -/
def encodeWsReady : Json :=
  .obj [(py "op", .str (py "ready")), (py "server_version", .str (py "0.2.0")),
    (py "heartbeat_interval_s", .int 20)]

/-- `encode_ws_pong`. -/
def encodeWsPong : Json := .obj [(py "op", .str (py "pong"))]

/-- `encode_ws_closed`. -/
def encodeWsClosed (reason : PyStr) : Json :=
  .obj [(py "op", .str (py "closed")), (py "reason", .str reason)]

/-- The request id of an event frame, with the name and the data of its event. -/
def eventOf : Json → Option (Json × PyStr × Json)
  | .obj fields => match Json.field (py "op") fields, Json.field (py "request_id") fields,
      Json.field (py "event") fields, Json.field (py "data") fields with
    | some (.str op), some requestId, some (.str type), some data =>
        if op = py "event" then some (requestId, type, data) else none
    | _, _, _, _ => none
  | _ => none

@[simp] theorem eventOf_encodeWs (event : ChatEvent) (requestId : Json) :
    eventOf (encodeWs event requestId) = some (requestId, event.type.text, event.data) := by
  simp [eventOf, encodeWs, Json.field]

/-- Only frames whose operation is `event` carry one. -/
theorem eventOf_of_op {fields : List (PyStr × Json)} {op : PyStr}
    (h : Json.field (py "op") fields = some (.str op)) (hne : op ≠ py "event") :
    eventOf (.obj fields) = none := by
  simp only [eventOf, h]
  split
  · next heq _ _ _ =>
    rw [Option.some.injEq, Json.str.injEq] at heq
    rw [← heq, if_neg hne]
  · rfl

theorem eventOf_ready : eventOf encodeWsReady = none := eventOf_of_op rfl (by decide)

theorem eventOf_pong : eventOf encodeWsPong = none := eventOf_of_op rfl (by decide)

theorem eventOf_closed (reason : PyStr) : eventOf (encodeWsClosed reason) = none :=
  eventOf_of_op rfl (by decide)

-- ============================================================================
-- From the client
-- ============================================================================

/-- A decoded frame. -/
abbrev Frame : Type := List (PyStr × Json)

/-- `_WS_CLIENT_OPS`. -/
inductive ClientOp where
  | ask
  | cancel
  | ping
deriving DecidableEq

def ClientOp.text : ClientOp → PyStr
  | .ask => py "ask"
  | .cancel => py "cancel"
  | .ping => py "ping"

/-- The operation a string names. -/
def ClientOp.ofText (s : PyStr) : Option ClientOp :=
  [ask, cancel, ping].find? fun op => op.text = s

/-- How `json.loads` fails. -/
inductive LoadsError where
  /-- `JSONDecodeError`, with its text. -/
  | decode (text : PyStr)
  /-- Any other exception: `RecursionError` on deep nesting, `ValueError` on an
      integer with too many digits. -/
  | raised (e : Exn)

/-- What decoding relies on: `json.loads` and the `repr` of a value. -/
structure FrameCodec where
  loads : PyStr → Except LoadsError Json
  repr : Json → PyStr

/-- How `decode_ws_frame` fails. -/
inductive FrameFault where
  /-- `WSFrameError`. -/
  | wsFrameError (text : PyStr)
  | raised (e : Exn)

/-- `op not in _WS_CLIENT_OPS`: testing an unhashable value raises. -/
def clientOp (codec : FrameCodec) (op : Json) : Except FrameFault ClientOp :=
  if !op.hashable then .error (.raised .typeError)
  else match op with
    | .str s => match ClientOp.ofText s with
        | some op => .ok op
        | none => .error (.wsFrameError (py "unknown or missing op: " ++ codec.repr op))
    | _ => .error (.wsFrameError (py "unknown or missing op: " ++ codec.repr op))

/-- `decode_ws_frame`, with the operation it has checked. -/
def decodeWsFrame (codec : FrameCodec) (raw : PyStr) : Except FrameFault (ClientOp × Frame) :=
  match codec.loads raw with
  | .error (.decode text) => .error (.wsFrameError (py "invalid JSON: " ++ text))
  | .error (.raised e) => .error (.raised e)
  | .ok (.obj frame) => (clientOp codec ((Json.field (py "op") frame).getD .null)).map (·, frame)
  | .ok _ => .error (.wsFrameError (py "frame must be a JSON object"))

theorem ClientOp.ofText_eq_some {s : PyStr} {op : ClientOp} :
    ClientOp.ofText s = some op ↔ s = op.text := by
  constructor
  · intro h
    have hfound := List.find?_some h
    exact (of_decide_eq_true hfound).symm
  · rintro rfl
    cases op <;> decide

/-- Classifying an operation raises exactly when it is unhashable. -/
theorem clientOp_raised {codec : FrameCodec} {op : Json} :
    (∃ e, clientOp codec op = .error (.raised e)) ↔ op.hashable = false := by
  unfold clientOp
  cases hh : op.hashable with
  | false => simp
  | true =>
      simp only [Bool.not_true, Bool.false_eq_true, if_false, iff_false, reduceCtorEq]
      rintro ⟨e, he⟩
      cases op with
      | str s =>
          simp only at he
          split at he <;> cases he
      | _ => cases he

/-- What a decoded frame is: an object that was loaded, whose operation is one of
    the three. -/
theorem decodeWsFrame_ok {codec : FrameCodec} {raw : PyStr} {op : ClientOp} {frame : Frame}
    (h : decodeWsFrame codec raw = .ok (op, frame)) :
    codec.loads raw = .ok (.obj frame) ∧ Json.field (py "op") frame = some (.str op.text) := by
  unfold decodeWsFrame at h
  split at h
  · cases h
  · cases h
  · next frame' hloads =>
    cases hop : clientOp codec ((Json.field (py "op") frame').getD .null) with
    | error e =>
        rw [hop] at h
        cases h
    | ok op' =>
        rw [hop] at h
        cases h
        refine ⟨hloads, ?_⟩
        unfold clientOp at hop
        cases hfield : Json.field (py "op") frame with
        | none =>
            rw [hfield] at hop
            cases hop
        | some v =>
            rw [hfield, Option.getD_some] at hop
            cases v with
            | str s =>
                simp only [Json.hashable, Bool.not_true, Bool.false_eq_true, if_false] at hop
                split at hop
                · next op'' hop'' =>
                  cases hop
                  rw [ClientOp.ofText_eq_some.mp hop'']
                · cases hop
            | _ => cases hop
  · cases h

/-- An object whose operation is one of the three is decoded. -/
theorem decodeWsFrame_of_op {codec : FrameCodec} {raw : PyStr} {op : ClientOp} {frame : Frame}
    (hloads : codec.loads raw = .ok (.obj frame))
    (hop : Json.field (py "op") frame = some (.str op.text)) :
    decodeWsFrame codec raw = .ok (op, frame) := by
  have hclient : clientOp codec (.str op.text) = .ok op := by
    simp only [clientOp, Json.hashable, Bool.not_true, Bool.false_eq_true, if_false,
      ClientOp.ofText_eq_some.mpr rfl]
  simp only [decodeWsFrame, hloads, hop, Option.getD_some, hclient]
  rfl

/-- Decoding raises something other than a `WSFrameError` exactly when
    `json.loads` does, or when the operation of an object is unhashable. -/
theorem decodeWsFrame_raised {codec : FrameCodec} {raw : PyStr} :
    (∃ e, decodeWsFrame codec raw = .error (.raised e)) ↔
      (∃ e, codec.loads raw = .error (.raised e)) ∨
        ∃ frame op, codec.loads raw = .ok (.obj frame) ∧
          Json.field (py "op") frame = some op ∧ op.hashable = false := by
  unfold decodeWsFrame
  cases hloads : codec.loads raw with
  | error e => cases e <;> simp
  | ok v =>
      cases v with
      | obj frame =>
          have hmap : (∃ e, (clientOp codec ((Json.field (py "op") frame).getD .null)).map
              (fun op => (op, frame)) = .error (.raised e)) ↔
              ∃ e, clientOp codec ((Json.field (py "op") frame).getD .null)
                = .error (.raised e) := by
            cases clientOp codec ((Json.field (py "op") frame).getD .null) <;> simp [Except.map]
          simp only [hmap, clientOp_raised]
          cases hop : Json.field (py "op") frame with
          | none =>
              have hnull : Json.null.hashable = true := rfl
              simp [hop, hnull]
          | some op => simp [hop]
      | _ => simp

end MasterAgent
