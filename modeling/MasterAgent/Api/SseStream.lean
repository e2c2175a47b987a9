/-
  MasterAgent.Api.SseStream

  The body of the response of `POST /api/v1/chat/sse` (`ma/api/sse.py`): the
  events of the service, each encoded as a frame and then as UTF-8.  A frame
  shows the code points of its event's data, and UTF-8 has no surrogates, so a
  surrogate in a downstream's answer stops the stream.
-/

import MasterAgent.Core.Graph.Encoding
import MasterAgent.Core.Surrogates

namespace MasterAgent

open Effect

variable {σ : Type}

-- ============================================================================
-- The stream
-- ============================================================================

section Stream

variable (floats : Json.FloatTexts)

/-- `encode_sse(ev).encode("utf-8")`. -/
def sseBytes (ev : ChatEvent) : Except Exn (List UInt8) := encodeUtf8 (encodeSse floats ev)

/-- `stream`: the chunks sent for the events of `handle`, and what ends the
    iteration.  What encoding raises nothing here catches. -/
def sseStream (ending : Except Exn Unit) : List ChatEvent → List (List UInt8) × Except Exn Unit
  | [] => ([], ending)
  | ev :: events => match sseBytes floats ev with
      | .error e => ([], .error e)
      | .ok chunk => (chunk :: (sseStream ending events).1, (sseStream ending events).2)

/-- The body of the response to a request that runs like this. -/
def responseBody (run : Run σ Exn Act Unit) : List (List UInt8) × Except Exn Unit :=
  sseStream floats run.result (word Act.yielded run.trace)

/-- Every event of the run is turned into bytes, and the stream sends these and ends
    as the run does. -/
def Delivered (run : Run σ Exn Act Unit) : Prop :=
  ∃ chunks, List.Forall₂ (fun ev chunk => sseBytes floats ev = .ok chunk)
      (word Act.yielded run.trace) chunks ∧
    responseBody floats run = (chunks, run.result)

variable {floats}

/-- Where every event can be encoded, the stream sends a chunk for each. -/
theorem sseStream_of_ok {ending : Except Exn Unit} {events : List ChatEvent}
    (h : ∀ ev ∈ events, ∃ chunk, sseBytes floats ev = .ok chunk) :
    ∃ chunks, List.Forall₂ (fun ev chunk => sseBytes floats ev = .ok chunk) events chunks ∧
      sseStream floats ending events = (chunks, ending) := by
  induction events with
  | nil => exact ⟨[], .nil, rfl⟩
  | cons ev events ih =>
      obtain ⟨hev, hevents⟩ := List.forall_mem_cons.mp h
      obtain ⟨chunk, hchunk⟩ := hev
      obtain ⟨chunks, hchunks, hstream⟩ := ih hevents
      refine ⟨chunk :: chunks, .cons hchunk hchunks, ?_⟩
      simp only [sseStream, hchunk, hstream]

theorem delivered_iff {run : Run σ Exn Act Unit} : Delivered floats run ↔
    ∀ ev ∈ word Act.yielded run.trace, ∃ chunk, sseBytes floats ev = .ok chunk := by
  constructor
  · rintro ⟨chunks, hchunks, -⟩
    generalize word Act.yielded run.trace = events at hchunks
    induction hchunks with
    | nil => exact List.forall_mem_nil _
    | cons hchunk _ ih => exact List.forall_mem_cons.mpr ⟨⟨_, hchunk⟩, ih⟩
  · exact sseStream_of_ok

/-- A frame is encoded exactly if its event holds no surrogate. -/
theorem sseBytes_ok {ev : ChatEvent} :
    (∃ chunk, sseBytes floats ev = .ok chunk) ↔ ev.Scalar := by
  have htype : Scalars ev.type.text := by
    cases ev.type <;> exact scalars_py _
  have hdata : Scalars (ev.data.dumps floats) ↔ ev.data.Scalar :=
    (Json.shows_dumps floats ev.data).scalars
  rw [sseBytes, encodeUtf8_ok]
  cases hid : ev.eventId with
  | none =>
      have hframe : encodeSse floats ev = py "event: " ++ ev.type.text ++ py "\n" ++
          py "data: " ++ ev.data.dumps floats ++ py "\n\n" := by
        simp [encodeSse, hid, List.intercalate]
      simp only [hframe, scalars_append, scalars_py, htype, hdata, true_and, and_true]
      exact ⟨.of_data hid, fun h => h.data⟩
  | some id =>
      have hframe : encodeSse floats ev = py "event: " ++ ev.type.text ++ py "\n" ++
          py "id: " ++ id ++ py "\n" ++ py "data: " ++ ev.data.dumps floats ++ py "\n\n" := by
        simp [encodeSse, hid, List.intercalate]
      simp only [hframe, scalars_append, scalars_py, htype, hdata, true_and, and_true]
      refine ⟨fun h => ⟨fun id' hsome => ?_, h.2⟩, fun h => ⟨h.eventId id hid, h.data⟩⟩
      rw [hid] at hsome
      cases hsome
      exact h.1

end Stream

-- ============================================================================
-- When every answer can be sent
-- ============================================================================

/-- Whatever the service is asked, with its own texts in `C`, with these topic
    messages and with downstreams in `D`: every event is turned into bytes, and
    the stream goes on to its end. -/
def AllDelivered (C : CodePoint → Prop) (errorMessages : Dict PyStr PyStr)
    (D : Upstream → Prop) : Prop :=
  ∀ {σ : Type} (floats : Json.FloatTexts) (env : Env σ) (topics : TopicRegistry)
    (req : ChatRequest) (w : σ), req.WrittenIn C env →
    (∀ topic, topics.get req.bizId = some topic → topic.errorMessages = errorMessages ∧
      topic.WrittenIn C env ∧
      ∀ n a, topic.adapters.get? n = some a → Before D (topic.adapterRetries.get? n) a) →
    Delivered floats (handle env topics req w)

/-- The run of a request that reaches an adapter before the given downstream. -/
def probeAnswer (errorMessages : Dict PyStr PyStr) (u : Upstream) : Run Unit Exn Act Unit :=
  handle probeEnv (oneTopic (u.probe errorMessages)) (aliceAsks (py "th")) ()

section Delivered

variable {C : CodePoint → Prop} {errorMessages : Dict PyStr PyStr} {D : Upstream → Prop}

theorem allDelivered_of_encodable (hC : ∀ c, C c → isSurrogate c = false)
    (hD : ∀ u, D u → u.Encodable errorMessages) : AllDelivered C errorMessages D := by
  intro σ floats env topics req w hreq htopics
  have hscalar : ∀ ev ∈ word Act.yielded (handle env topics req w).trace, ev.Scalar := by
    refine handle_scalar (D := D) (hreq.mono hC) (fun topic ht => ?_) w
    obtain ⟨rfl, hown, hbefore⟩ := htopics topic ht
    exact ⟨hown.mono hC, hD, hbefore⟩
  rw [delivered_iff]
  exact fun ev hev => sseBytes_ok.mpr (hscalar ev hev)

variable (hascii : ∀ c : CodePoint, c.val < 0x80 → C c)
include hascii

/-- A request for an unknown topic is told its name. -/
theorem AllDelivered.alphabet (h : AllDelivered C errorMessages D) :
    ∀ c, C c → isSurrogate c = false := by
  intro c hc
  let req : ChatRequest := { aliceAsks (py "th") with bizId := [c] }
  have hreq : req.WrittenIn C probeEnv :=
    aliceAsks_writtenIn hascii (List.forall_mem_singleton.mpr hc)
  have hdelivered := h zeroFloats probeEnv ⟨⟨[], by simp⟩⟩ req () hreq
    fun topic ht => by cases ht
  have hmem : topicNotFound req ∈ word Act.yielded
      (handle probeEnv ⟨⟨[], by simp⟩⟩ req ()).trace := by
    rw [handle_unknown rfl, Eff.play_trace]
    exact List.mem_cons_self
  have hscalar := (sseBytes_ok.mp (delivered_iff.mp hdelivered _ hmem)).data
  simp only [topicNotFound, serviceError, literalEvent, List.cons_append, Json.scalar_obj_cons,
    Json.scalar_str, scalars_append] at hscalar
  exact hscalar.2.2.2.1.2 c (List.mem_singleton.mpr rfl)

/-- The answer of the probe is among those that are sent. -/
theorem AllDelivered.probe (h : AllDelivered C errorMessages D)
    (hmessages : ∀ code text, errorMessages.get? code = some text → Over C text) {u : Upstream}
    (hu : D u) : Delivered zeroFloats (probeAnswer errorMessages u) := by
  have hreq : (aliceAsks (py "th")).WrittenIn C probeEnv :=
    aliceAsks_writtenIn hascii (over_of_ascii hascii (Json.ascii_of_all rfl))
  refine h zeroFloats probeEnv (oneTopic (u.probe errorMessages)) (aliceAsks (py "th")) () hreq
    fun topic ht => ?_
  cases ht
  refine ⟨rfl, probe_writtenIn hascii hmessages u, fun n a ha => ?_⟩
  have hentry := Dict.mem_of_find ha
  simp only [Upstream.probe, probeTopic, smallTopic, List.mem_singleton, Prod.mk.injEq] at hentry
  obtain ⟨rfl, rfl⟩ := hentry
  refine ⟨u.kind, _, rfl, fun body => ?_⟩
  rw [show (u.probe errorMessages).adapterRetries.get? (py "kc_adapter") = u.retry from
    get?_onlyRetry u.retry]
  exact hu

end Delivered

-- ============================================================================
-- A pair of surrogates, in one token and in two
-- ============================================================================

/-- What an adapter sees of a text.  That it is no JSON is all the adapters see of
    a decode error. -/
def wireText (floats : Json.FloatTexts) (text : PyStr) : WireText :=
  if text.isEmpty then .empty
  else match Json.loads floats text with
    | some v => .text (.ok v)
    | none => .text (.error (.decode []))

/-- Uniioc answers with these lines. -/
def uniiocSends (lines : List PyStr) : Upstream where
  kind := .uniioc
  retry := none
  sent := fun _ => { frames := lines.map (wireText zeroFloats), ending := .closed }

/-- A line of Uniioc with one token. -/
def tokenLine (token : String) : PyStr :=
  py ("\x7b\"type\":\"delta\",\"data\":\x7b\"content\":\"" ++ token ++ "\"\x7d\x7d")

/-- A character outside the BMP as one token, escaped. -/
def wholePair : List PyStr := [tokenLine "\\ud83d\\ude00"]

/-- The same character cut into two tokens. -/
def splitPair : List PyStr := [tokenLine "\\ud83d", tokenLine "\\ude00"]

theorem requiredTexts_scalars {code text : PyStr} (h : requiredTexts.get? code = some text) :
    Scalars text := by
  have hmem : (code, text) ∈ requiredTexts.entries := Dict.mem_of_find h
  simp only [requiredTexts, List.mem_cons, Prod.mk.injEq, List.not_mem_nil, or_false] at hmem
  rcases hmem with ⟨-, rfl⟩ | ⟨-, rfl⟩ | ⟨-, rfl⟩ | ⟨-, rfl⟩ | ⟨-, rfl⟩ <;> exact scalars_py _

end MasterAgent
