/-
  MasterAgent.Core.Graph.Encoding

  The texts that leave the service (`ma/core/graph/events.py`): a frame of the
  SSE stream, its keep-alive, and the WebSocket text of an event.  What a client
  reads from either is the event that was sent.
-/

import MasterAgent.Core.Graph.Events
import MasterAgent.Lib.EventStream
import MasterAgent.Python.JsonFloat

namespace MasterAgent

-- ============================================================================
-- Encoding
-- ============================================================================

section Encoders

variable (floats : Json.FloatTexts)

/-- `encode_sse`. -/
def encodeSse (event : ChatEvent) : PyStr :=
  let payload := event.data.dumps floats
  let id := match event.eventId with
    | some id => [py "id: " ++ id]
    | none => []
  let parts := [py "event: " ++ event.type.text] ++ id ++ [py "data: " ++ payload]
  (py "\n").intercalate parts ++ py "\n\n"

/-- `encode_keepalive`. -/
def encodeKeepalive : PyStr := py ": keep-alive\n\n"

/-- The text of `encode_ws`. -/
def encodeWsText (event : ChatEvent) (requestId : Json) : PyStr :=
  (encodeWs event requestId).dumps floats

end Encoders

/-- The frame of a done event. -/
example (floats : Json.FloatTexts) :
    encodeSse floats { type := .done, data := .obj [(py "status", .str (py "failed"))] }
      = py "event: done\ndata: \x7b\"status\":\"failed\"\x7d\n\n" := rfl

-- ============================================================================
-- A stream
-- ============================================================================

/-- The marks of `text/event-stream`. -/
def streamMarks : EventStream.Marks CodePoint where
  lf := codePoint '\n'
  cr := codePoint '\r'
  colon := codePoint ':'
  space := codePoint ' '
  event := py "event"
  data := py "data"
  message := py "message"
  event_ne_data := by decide
  event_ne_nil := by decide
  data_ne_nil := by decide
  colon_not_mem_event := by decide
  colon_not_mem_data := by decide
  oneLine := by
    have hall : ((codePoint ':' :: codePoint ' ' :: (py "event" ++ py "data")).all fun c =>
        decide (c ≠ codePoint '\n' ∧ c ≠ codePoint '\r')) = true := rfl
    exact fun c hc => of_decide_eq_true (List.all_eq_true.mp hall c hc)

/-- What a server puts on a stream. -/
inductive StreamFrame where
  | event (ev : ChatEvent)
  | keepAlive

def StreamFrame.text (floats : Json.FloatTexts) : StreamFrame → PyStr
  | .event ev => encodeSse floats ev
  | .keepAlive => encodeKeepalive

def StreamFrame.sent : StreamFrame → Option ChatEvent
  | .event ev => some ev
  | .keepAlive => none

/-- What a client makes of a stream: each event with its data decoded. -/
def received (floats : Json.FloatTexts) (stream : PyStr) : List (PyStr × Option Json) :=
  (EventStream.parse streamMarks stream).map fun ev => (ev.type, Json.loads floats ev.data)

/-- An event as callers build it: no event id, and data that is JSON with integer
    numbers. -/
structure ChatEvent.Sendable (ev : ChatEvent) : Prop where
  eventId : ev.eventId = none
  data : ev.data.Plain

section RoundTrip

variable {floats : Json.FloatTexts}

/-- A text without control characters is part of one line. -/
theorem oneLine_of_shows {l text : PyStr} (h : Json.Shows l text) :
    EventStream.OneLine streamMarks text := by
  intro c hc
  have hprintable := h.printable c hc
  have hlf : (codePoint '\n').val = 0xa := rfl
  have hcr : (codePoint '\r').val = 0xd := rfl
  constructor
  · rintro rfl
    exact absurd hprintable (by decide)
  · rintro rfl
    exact absurd hprintable (by decide)

theorem EventType.text_ascii (t : EventType) : Json.Ascii t.text := by
  cases t <;> exact Json.ascii_of_all rfl

theorem EventType.text_ne_nil (t : EventType) : t.text ≠ [] := by
  cases t <;> exact List.cons_ne_nil _ _

/-- The frame of an event without an id has two fields. -/
theorem encodeSse_eq_frame {ev : ChatEvent} (h : ev.eventId = none) :
    encodeSse floats ev =
      EventStream.frame streamMarks ⟨ev.type.text, ev.data.dumps floats⟩ := by
  have hjoin : ∀ a b : PyStr, (py "\n").intercalate [a, b] = a ++ (py "\n" ++ b) := by
    intro a b
    simp [List.intercalate]
  have hparts : encodeSse floats ev = (py "event: " ++ ev.type.text) ++
      (py "\n" ++ (py "data: " ++ ev.data.dumps floats)) ++ py "\n\n" := by
    rw [encodeSse, h]
    exact congrArg (· ++ py "\n\n") (hjoin _ _)
  have hevent : py "event: " = streamMarks.event ++ [streamMarks.colon, streamMarks.space] := rfl
  have hdata : py "data: " = streamMarks.data ++ [streamMarks.colon, streamMarks.space] := rfl
  have hend : py "\n\n" = [streamMarks.lf, streamMarks.lf] := rfl
  have hlf : py "\n" = [streamMarks.lf] := rfl
  rw [hparts, hevent, hdata, hend, hlf]
  simp only [EventStream.frame, EventStream.fieldLine, List.append_assoc, List.cons_append,
    List.nil_append]

theorem encodeKeepalive_eq_comment :
    encodeKeepalive = EventStream.comment streamMarks (py " keep-alive") := rfl

/-- A client receives an event that was sent first, and then the rest. -/
theorem received_encodeSse {ev : ChatEvent} (h : ev.eventId = none) (rest : PyStr) :
    received floats (encodeSse floats ev ++ rest)
      = (ev.type.text, Json.loads floats (ev.data.dumps floats)) :: received floats rest := by
  have htype := oneLine_of_shows (Json.Shows.ascii ev.type.text_ascii)
  have hdata := oneLine_of_shows (Json.shows_dumps floats ev.data)
  have hparse := @EventStream.parse_frame _ _ streamMarks ⟨ev.type.text, ev.data.dumps floats⟩
    ev.type.text_ne_nil htype hdata rest
  rw [received, encodeSse_eq_frame h, hparse, List.map_cons]
  rfl

theorem received_encodeKeepalive (rest : PyStr) :
    received floats (encodeKeepalive ++ rest) = received floats rest := by
  have htext : EventStream.OneLine streamMarks (py " keep-alive") :=
    oneLine_of_shows (Json.Shows.ascii (Json.ascii_of_all rfl))
  rw [received, encodeKeepalive_eq_comment, EventStream.parse_comment htext]
  rfl

/-- The events on a stream are received in their order, and nothing else is. -/
theorem received_stream {frames : List StreamFrame}
    (h : ∀ ev, .event ev ∈ frames → ev.eventId = none) :
    received floats (frames.flatMap (StreamFrame.text floats)) =
      (frames.filterMap StreamFrame.sent).map fun ev =>
        (ev.type.text, Json.loads floats (ev.data.dumps floats)) := by
  induction frames with
  | nil => rfl
  | cons f frames ih =>
      have hrest := ih fun ev hev => h ev (List.mem_cons_of_mem _ hev)
      cases f with
      | keepAlive =>
          rw [List.flatMap_cons, StreamFrame.text, received_encodeKeepalive, hrest]
          rfl
      | event ev =>
          rw [List.flatMap_cons, StreamFrame.text, received_encodeSse (h ev List.mem_cons_self),
            hrest]
          rfl

/-- A stream of events alone. -/
theorem received_events {events : List ChatEvent} (h : ∀ ev ∈ events, ev.eventId = none) :
    received floats (events.flatMap (encodeSse floats)) =
      events.map fun ev => (ev.type.text, Json.loads floats (ev.data.dumps floats)) := by
  have htext : events.flatMap (encodeSse floats) =
      (events.map StreamFrame.event).flatMap (StreamFrame.text floats) := by
    rw [List.flatMap_map]
    rfl
  have hsent : (events.map StreamFrame.event).filterMap StreamFrame.sent = events := by
    rw [List.filterMap_map]
    exact List.filterMap_some
  rw [htext, received_stream, hsent]
  intro ev hev
  obtain ⟨ev', hev', heq⟩ := List.mem_map.mp hev
  cases heq
  exact h _ hev'

/-- The text of a WebSocket event is decoded to its request id, type and data. -/
theorem loads_encodeWsText {ev : ChatEvent} {requestId : Json} (h : ev.data.Plain)
    (hid : requestId.Plain) :
    (Json.loads floats (encodeWsText floats ev requestId)).bind eventOf
      = some (requestId, ev.type.text, ev.data) := by
  have hplain : (encodeWs ev requestId).Plain := by
    refine .obj (by simp) fun e he => ?_
    simp only [List.mem_cons, List.not_mem_nil, or_false] at he
    rcases he with rfl | rfl | rfl | rfl
    · exact .str _
    · exact hid
    · exact .str _
    · exact h
  rw [encodeWsText, Json.loads_dumps hplain]
  exact eventOf_encodeWs ev requestId

/-- The same for all data and ids, as the decoder reads them. -/
theorem loads_encodeWsText_documented (hfloats : floats.Documented) (ev : ChatEvent)
    (requestId : Json) :
    (Json.loads floats (encodeWsText floats ev requestId)).bind eventOf
      = some (requestId.reread, ev.type.text, ev.data.reread) := by
  have hkeys : [py "op", py "request_id", py "event", py "data"].Nodup := by decide
  have hreread : (encodeWs ev requestId).reread =
      encodeWs { ev with data := ev.data.reread } requestId.reread :=
    Json.readBack_obj Json.floatBack hkeys
  rw [encodeWsText, Json.loads_dumps_documented hfloats, hreread, Option.bind_some,
    eventOf_encodeWs]

end RoundTrip

/-- For every stream of events and keep-alives: a client receives the types and
    the data of the events, in their order, and the WebSocket text of each event
    is decoded to the same type and data, with the request id. -/
theorem encodings_round_trip (floats : Json.FloatTexts) (frames : List StreamFrame)
    (h : ∀ ev, .event ev ∈ frames → ev.Sendable) :
    received floats (frames.flatMap (StreamFrame.text floats)) =
        (frames.filterMap StreamFrame.sent).map (fun ev => (ev.type.text, some ev.data)) ∧
      ∀ ev ∈ frames.filterMap StreamFrame.sent, ∀ requestId : PyStr,
        (Json.loads floats (encodeWsText floats ev (.str requestId))).bind eventOf
          = some (.str requestId, ev.type.text, ev.data) := by
  have hsendable : ∀ ev ∈ frames.filterMap StreamFrame.sent, ev.Sendable := by
    intro ev hev
    obtain ⟨f, hf, hsent⟩ := List.mem_filterMap.mp hev
    cases f with
    | keepAlive => cases hsent
    | event ev' =>
        cases hsent
        exact h ev hf
  refine ⟨?_, fun ev hev requestId =>
    loads_encodeWsText (hsendable ev hev).data (.str requestId)⟩
  rw [received_stream fun ev hev => (h ev hev).eventId]
  exact List.map_congr_left fun ev hev => by rw [Json.loads_dumps (hsendable ev hev).data]

/-- The texts of floats where none occur. -/
def zeroFloats : Json.FloatTexts where
  repr := fun _ => py "0.0"
  value := fun _ => 0
  repr_ascii := fun _ => Json.ascii_of_all rfl

/-- An answer that holds what the encoders have to escape. -/
def awkwardDelta : ChatEvent where
  type := .delta
  data := .obj [(py "content", .str (py "\n\"\\\r ")), (py "n", .arr [.int (-7), .null])]

theorem awkwardDelta_sendable : awkwardDelta.Sendable where
  eventId := rfl
  data := by
    refine .obj (by simp) fun e he => ?_
    simp only [List.mem_cons, List.not_mem_nil, or_false] at he
    rcases he with rfl | rfl
    · exact .str _
    · refine .arr fun v hv => ?_
      simp only [List.mem_cons, List.not_mem_nil, or_false] at hv
      rcases hv with rfl | rfl
      · exact .int _
      · exact .null

/-- An event between two keep-alives. -/
theorem encodings_round_trip_awkward :
    received zeroFloats (encodeKeepalive ++ (encodeSse zeroFloats awkwardDelta ++
        (encodeKeepalive ++ []))) = [(py "delta", some awkwardDelta.data)] ∧
      (Json.loads zeroFloats (encodeWsText zeroFloats awkwardDelta (.str (py "r1")))).bind eventOf
        = some (.str (py "r1"), py "delta", awkwardDelta.data) := by
  have hround := encodings_round_trip zeroFloats [.keepAlive, .event awkwardDelta, .keepAlive] (by
    intro ev hev
    simp only [List.mem_cons, StreamFrame.event.injEq, reduceCtorEq, false_or, or_false,
      List.not_mem_nil] at hev
    exact hev ▸ awkwardDelta_sendable)
  exact ⟨hround.1, hround.2 awkwardDelta List.mem_cons_self (py "r1")⟩

end MasterAgent
