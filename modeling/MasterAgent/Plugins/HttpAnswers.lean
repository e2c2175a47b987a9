/-
  MasterAgent.Plugins.HttpAnswers

  What the adapters over HTTP see of an answer.  Neither looks at the status: the
  frames of the body are read whatever it is, and the first frame that is not
  passed over decides how the attempt begins.
-/

import Mathlib.Data.List.TakeWhile
import MasterAgent.Core.Graph.AdapterDiscipline
import MasterAgent.Plugins.BadFrames

namespace MasterAgent

-- ============================================================================
-- Answers
-- ============================================================================

/-- What httpx hands over: the status, whether the content type is
    `text/event-stream`, the lines of the body, and how the body ends. -/
structure HttpResponse where
  status : Nat
  eventStream : Bool
  lines : List PyStr
  ending : StreamEnd

/-- A response with a status other than 2xx. -/
structure HttpFailure extends HttpResponse where
  not_success : ¬ (200 ≤ status ∧ status < 300)

/-- The libraries between a body and an adapter: `json.loads` at a text that is not
    empty, and the events that httpx_sse makes of the lines. -/
structure HttpClient where
  loads : PyStr → Except LoadsError Json
  sse : List PyStr → List SseFrame

def HttpClient.wireText (client : HttpClient) (line : PyStr) : WireText :=
  if line = [] then .empty else .text (client.loads line)

inductive HttpAdapter where
  | metagc
  | uniioc

def HttpAdapter.kind : HttpAdapter → AdapterKind
  | metagc => .metagc
  | uniioc => .uniioc

abbrev HttpAdapter.Frame (adapter : HttpAdapter) : Type := adapter.kind.Frame

/-- The stream the adapter iterates over.  `aiter_sse` raises an
    `httpx.RequestError` at another content type; `aiter_lines` takes any. -/
def HttpAdapter.received (client : HttpClient) (http : HttpResponse) :
    (adapter : HttpAdapter) → Response adapter.Frame
  | metagc =>
      if http.eventStream then ⟨client.sse http.lines, http.ending⟩ else ⟨[], .requestError⟩
  | uniioc => ⟨http.lines.map client.wireText, http.ending⟩

/-- One iteration over `run`. -/
def HttpAdapter.attempt (adapter : HttpAdapter) (client : HttpClient) (http : HttpResponse) :
    Attempt :=
  adapter.kind.wire.attempt (adapter.received client http)

-- ============================================================================
-- Signs
-- ============================================================================

/-- What a frame is to the loop. -/
inductive FrameSign where
  | passed
  | delta
  | error
  | done
  /-- It raises. -/
  | broken (e : Exn)

def FrameSign.isPassed : FrameSign → Bool
  | passed => true
  | _ => false

/-- The loop is left. -/
def FrameSign.leaves : FrameSign → Bool
  | done => true
  | broken _ => true
  | _ => false

/-- The sign of an error frame with these data. -/
def FrameSign.ofError : Json → FrameSign
  | .obj _ => .error
  | _ => .broken .attributeError

def SseFrame.sign (sse : SseFrame) : FrameSign :=
  if sse.event = py "delta" then match sse.load with
    | .ok _ => .delta
    | .error e => .broken e
  else if sse.event = py "error" then match sse.load with
    | .ok data => .ofError data
    | .error e => .broken e
  else if sse.event = py "done" then .done
  else .passed

def WireText.sign (text : WireText) : FrameSign :=
  match text.loads with
  | .error (.decode _) => .passed
  | .error (.raised e) => .broken e
  | .ok (.obj top) =>
      if (jsonType top).isStr (py "delta") then .delta
      else if (jsonType top).isStr (py "error") then .ofError (jsonData top)
      else if (jsonType top).isStr (py "done") then .done
      else .passed
  | .ok _ => .broken .attributeError

def HttpAdapter.sign : (adapter : HttpAdapter) → adapter.Frame → FrameSign
  | metagc => SseFrame.sign
  | uniioc => WireText.sign

section Signs

variable {φ : Type} (sign : φ → FrameSign)

/-- The sign of the first frame that is not passed over. -/
def heard (frames : List φ) : Option FrameSign :=
  (frames.map sign).find? fun s => !s.isPassed

/-- No delta frame is read before the loop is left. -/
def NoDeltaRead (frames : List φ) : Prop :=
  ∀ f ∈ frames.takeWhile (fun f => !(sign f).leaves), sign f ≠ .delta

/-- The first frame that is not passed over is an error frame, or there is none and
    the body ends in a transport failure. -/
def Reports (r : Response φ) : Prop :=
  heard sign r.frames = some .error ∨
    heard sign r.frames = none ∧ (r.ending = .timeout ∨ r.ending = .requestError)

/-- The first frame that is not passed over raises, or there is none and the body
    ends with another exception. -/
def Repeats (r : Response φ) : Prop :=
  ∃ e : Exn, e.isException = true ∧
    (heard sign r.frames = some (.broken e) ∨ heard sign r.frames = none ∧ r.ending = .raised e)

end Signs

-- ============================================================================
-- The loop
-- ============================================================================

/-- The loop body goes by the sign of a frame. -/
def Heeds (step : FrameStep) : FrameSign → Prop
  | .passed => step = .skip
  | .delta => ∃ data, step = .event { type := .delta, data := data }
  | .error => ∃ code message, step = .event (adapterError code message)
  | .done => step = .stop
  | .broken e => step = .raised e

theorem heeds_upstreamError (defaultMessage : PyStr) (data : Json) :
    Heeds (upstreamError defaultMessage data) (.ofError data) := by
  cases data with
  | obj fields => exact ⟨_, _, rfl⟩
  | _ => exact rfl

theorem MetaGCAdapter.heeds (sse : SseFrame) : Heeds (onFrame sse) sse.sign := by
  unfold SseFrame.sign
  by_cases hdelta : sse.event = py "delta"
  · rw [if_pos hdelta]
    cases hload : sse.load with
    | ok data => exact ⟨data, by simp [onFrame, hdelta, hload]⟩
    | error e => exact (by simp [onFrame, hdelta, hload] : onFrame sse = .raised e)
  rw [if_neg hdelta]
  by_cases herror : sse.event = py "error"
  · rw [if_pos herror]
    cases hload : sse.load with
    | ok data =>
        have hstep : onFrame sse = upstreamError (py "MetaGC 上游出错") data := by
          simp [onFrame, herror, hload]
        rw [hstep]
        exact heeds_upstreamError _ data
    | error e => exact (by simp [onFrame, herror, hload] : onFrame sse = .raised e)
  rw [if_neg herror]
  by_cases hdone : sse.event = py "done"
  · rw [if_pos hdone]
    exact (by simp [onFrame, hdone] : onFrame sse = .stop)
  · rw [if_neg hdone]
    show onFrame sse = .skip
    simp only [onFrame, if_neg hdelta, if_neg herror, if_neg hdone, ite_self]

theorem heeds_jsonFrame (defaultMessage : PyStr) (text : WireText) :
    Heeds (jsonFrame defaultMessage text) text.sign := by
  unfold jsonFrame WireText.sign
  cases hloads : text.loads with
  | error err =>
      cases err with
      | decode message => exact rfl
      | raised e => exact rfl
  | ok frame =>
      cases frame with
      | obj top =>
          have htype : Json.getD (.obj top) (py "type") .null = .ok (jsonType top) := rfl
          have hdata : Json.getD (.obj top) (py "data") (.obj []) = .ok (jsonData top) := rfl
          simp only [htype, hdata]
          split
          · exact ⟨_, rfl⟩
          split
          · exact heeds_upstreamError _ _
          split
          · exact rfl
          · exact rfl
      | _ => exact rfl

theorem UniiocAdapter.heeds (text : WireText) : Heeds (onFrame text) text.sign := by
  cases text with
  | empty => exact rfl
  | text loaded => exact heeds_jsonFrame _ (.text loaded)

theorem HttpAdapter.heeds (adapter : HttpAdapter) (f : adapter.Frame) :
    Heeds (adapter.kind.wire.onFrame f) (adapter.sign f) := by
  cases adapter with
  | metagc => exact MetaGCAdapter.heeds f
  | uniioc => exact UniiocAdapter.heeds f

theorem HttpAdapter.caught (adapter : HttpAdapter) :
    ∃ timeoutText failureText, adapter.kind.wire.caught = httpxCaught timeoutText failureText := by
  cases adapter with
  | metagc => exact ⟨_, _, rfl⟩
  | uniioc => exact ⟨_, _, rfl⟩

section Loop

variable {φ : Type} {wire : Wire φ} {sign : φ → FrameSign} {timeoutText failureText : PyStr}

/-- How an attempt begins, by the first sign. -/
inductive Begins (wire : Wire φ) (ending : StreamEnd) (a : Attempt) : Option FrameSign → Prop where
  | nothing (h : a = wire.attempt ⟨[], ending⟩) : Begins wire ending a none
  | delta (data : Json) (h : a.events.head? = some { type := .delta, data := data }) :
      Begins wire ending a (some .delta)
  | error (code message : Json) (h : a.events.head? = some (adapterError code message)) :
      Begins wire ending a (some .error)
  | done (h : a = ⟨[], .ok ()⟩) : Begins wire ending a (some .done)
  | broken (e : Exn) (h : a = ⟨[], .error e⟩) : Begins wire ending a (some (.broken e))

theorem begins (hheeds : ∀ f, Heeds (wire.onFrame f) (sign f))
    (hcaught : wire.caught = httpxCaught timeoutText failureText) (frames : List φ)
    (ending : StreamEnd) :
    Begins wire ending (wire.attempt ⟨frames, ending⟩) (heard sign frames) := by
  induction frames with
  | nil => exact .nothing rfl
  | cons f frames ih =>
      have hf := hheeds f
      rw [heard, List.map_cons]
      cases hsign : sign f with
      | passed =>
          rw [hsign] at hf
          have hskip : wire.onFrame f = .skip := hf
          have hrest : wire.attempt ⟨f :: frames, ending⟩ = wire.attempt ⟨frames, ending⟩ := by
            simp only [Wire.attempt, readFrames, hskip]
          rw [hrest, List.find?_cons_of_neg (by simp [FrameSign.isPassed])]
          exact ih
      | delta =>
          rw [hsign] at hf
          obtain ⟨data, hdata⟩ := hf
          rw [List.find?_cons_of_pos (by simp [FrameSign.isPassed])]
          refine .delta data ?_
          simp only [Wire.attempt, readFrames, hdata, List.cons_append, List.head?_cons]
      | error =>
          rw [hsign] at hf
          obtain ⟨code, message, herror⟩ := hf
          rw [List.find?_cons_of_pos (by simp [FrameSign.isPassed])]
          refine .error code message ?_
          simp only [Wire.attempt, readFrames, herror, List.cons_append, List.head?_cons]
      | done =>
          rw [hsign] at hf
          have hstop : wire.onFrame f = .stop := hf
          rw [List.find?_cons_of_pos (by simp [FrameSign.isPassed])]
          refine .done ?_
          simp only [Wire.attempt, readFrames, hstop, hcaught, httpxCaught, List.append_nil]
      | broken e =>
          rw [hsign] at hf
          have hraise : wire.onFrame f = .raised e := hf
          rw [List.find?_cons_of_pos (by simp [FrameSign.isPassed])]
          refine .broken e ?_
          simp only [Wire.attempt, readFrames, hraise, hcaught, httpxCaught, List.append_nil]

/-- Without a frame an attempt is how its stream ends. -/
theorem attempt_nil (hcaught : wire.caught = httpxCaught timeoutText failureText)
    (ending : StreamEnd) :
    wire.attempt ⟨[], ending⟩ = ⟨(httpxCaught timeoutText failureText ending).1,
      (httpxCaught timeoutText failureText ending).2⟩ := by
  rw [Wire.attempt, hcaught]
  rfl

/-- How a stream ends yields no delta. -/
theorem caught_noDelta (hcaught : wire.caught = httpxCaught timeoutText failureText)
    (way : StreamEnd) : ∀ ev ∈ (wire.caught way).1, ev.type ≠ .delta := by
  intro ev hev
  rw [hcaught] at hev
  cases way with
  | closed => exact (List.not_mem_nil hev).elim
  | raised e => exact (List.not_mem_nil hev).elim
  | timeout =>
      rw [List.mem_singleton.mp hev]
      simp [adapterError, literalEvent]
  | requestError =>
      rw [List.mem_singleton.mp hev]
      simp [adapterError, literalEvent]

/-- The run yields a delta exactly where it reads a delta frame. -/
theorem noDeltaRead_iff (hheeds : ∀ f, Heeds (wire.onFrame f) (sign f))
    (hcaught : wire.caught = httpxCaught timeoutText failureText) (frames : List φ)
    (ending : StreamEnd) :
    (∀ ev ∈ (wire.attempt ⟨frames, ending⟩).events, ev.type ≠ .delta) ↔
      NoDeltaRead sign frames := by
  have hattempt : (∀ ev ∈ (wire.attempt ⟨frames, ending⟩).events, ev.type ≠ .delta) ↔
      ∀ ev ∈ (readFrames wire.onFrame ending frames).1, ev.type ≠ .delta := by
    rw [Wire.attempt]
    show (∀ ev ∈ _ ++ _, _) ↔ _
    rw [List.forall_mem_append]
    exact and_iff_left (caught_noDelta hcaught _)
  rw [hattempt]
  clear hattempt
  unfold NoDeltaRead
  induction frames with
  | nil => simp [readFrames]
  | cons f frames ih =>
      have hf := hheeds f
      rw [readFrames, List.takeWhile_cons]
      cases hsign : sign f with
      | passed =>
          rw [hsign] at hf
          have hskip : wire.onFrame f = .skip := hf
          rw [hskip]
          simpa [FrameSign.leaves, hsign] using ih
      | delta =>
          rw [hsign] at hf
          obtain ⟨data, hdata⟩ := hf
          rw [hdata]
          simp [FrameSign.leaves, hsign]
      | error =>
          rw [hsign] at hf
          obtain ⟨code, message, herror⟩ := hf
          rw [herror]
          simpa [FrameSign.leaves, hsign, adapterError, literalEvent] using ih
      | done =>
          rw [hsign] at hf
          have hstop : wire.onFrame f = .stop := hf
          rw [hstop]
          simp [FrameSign.leaves]
      | broken e =>
          rw [hsign] at hf
          have hraise : wire.onFrame f = .raised e := hf
          rw [hraise]
          simp [FrameSign.leaves]

end Loop

namespace HttpAdapter

variable (adapter : HttpAdapter) (client : HttpClient) (http : HttpResponse)

/-- How an attempt begins. -/
theorem begins_attempt :
    Begins adapter.kind.wire (adapter.received client http).ending (adapter.attempt client http)
      (heard adapter.sign (adapter.received client http).frames) := by
  obtain ⟨timeoutText, failureText, hcaught⟩ := adapter.caught
  exact begins adapter.heeds hcaught _ _

theorem attempt_noDelta_iff :
    (∀ ev ∈ (adapter.attempt client http).events, ev.type ≠ .delta) ↔
      NoDeltaRead adapter.sign (adapter.received client http).frames := by
  obtain ⟨timeoutText, failureText, hcaught⟩ := adapter.caught
  exact noDeltaRead_iff adapter.heeds hcaught _ _

/-- An attempt without a delta is repeated, if attempts remain, by its first sign. -/
theorem attempt_fails_iff
    (hquiet : ∀ ev ∈ (adapter.attempt client http).events, ev.type ≠ .delta) :
    (adapter.attempt client http).fails = true ↔
      Repeats adapter.sign (adapter.received client http) := by
  have hbegins := adapter.begins_attempt client http
  obtain ⟨timeoutText, failureText, hcaught⟩ := adapter.caught
  unfold Repeats
  generalize adapter.attempt client http = a at hquiet hbegins
  generalize (adapter.received client http).ending = ending at hbegins
  generalize heard adapter.sign (adapter.received client http).frames = first at hbegins
  cases hbegins with
  | nothing h =>
      rw [h, attempt_nil hcaught, Attempt.fails]
      cases ending <;> simp [httpxCaught, failsFrom, adapterError, literalEvent, Json.getD,
        Json.get, Json.field, Json.truthy]
  | delta data h => exact absurd rfl (hquiet _ (List.mem_of_mem_head? h))
  | error code message h =>
      obtain ⟨events, hevents⟩ := List.head?_eq_some_iff.mp h
      rw [Attempt.fails, hevents]
      simp [failsFrom, adapterError, literalEvent, Json.getD, Json.get, Json.field, Json.truthy]
  | done h =>
      rw [h, Attempt.fails]
      simp [failsFrom]
  | broken e h =>
      rw [h, Attempt.fails]
      simp [failsFrom]

/-- An attempt without a delta shows an error, if it is the last, by its first sign. -/
theorem attempt_errs_iff
    (hquiet : ∀ ev ∈ (adapter.attempt client http).events, ev.type ≠ .delta) :
    (adapter.attempt client http).errs = true ↔
      Repeats adapter.sign (adapter.received client http) ∨
        Reports adapter.sign (adapter.received client http) := by
  have hbegins := adapter.begins_attempt client http
  obtain ⟨timeoutText, failureText, hcaught⟩ := adapter.caught
  unfold Repeats Reports
  generalize adapter.attempt client http = a at hquiet hbegins
  generalize (adapter.received client http).ending = ending at hbegins
  generalize heard adapter.sign (adapter.received client http).frames = first at hbegins
  cases hbegins with
  | nothing h =>
      rw [h, attempt_nil hcaught, Attempt.errs]
      cases ending <;> simp [httpxCaught, errsFrom, adapterError, literalEvent]
  | delta data h => exact absurd rfl (hquiet _ (List.mem_of_mem_head? h))
  | error code message h =>
      obtain ⟨events, hevents⟩ := List.head?_eq_some_iff.mp h
      rw [Attempt.errs, hevents]
      simp [errsFrom, adapterError, literalEvent]
  | done h =>
      rw [h, Attempt.errs]
      simp [errsFrom]
  | broken e h =>
      rw [h, Attempt.errs]
      simp [errsFrom]

/-- What raises at its first sign has yielded nothing. -/
theorem attempt_fails_of_repeats
    (h : Repeats adapter.sign (adapter.received client http)) :
    (adapter.attempt client http).fails = true := by
  have hnone : (adapter.attempt client http).events = [] := by
    have hbegins := adapter.begins_attempt client http
    obtain ⟨timeoutText, failureText, hcaught⟩ := adapter.caught
    obtain ⟨e, -, hfirst | ⟨hfirst, hending⟩⟩ := h
    · rw [hfirst] at hbegins
      cases hbegins with
      | broken _ h => rw [h]
    · rw [hfirst, hending] at hbegins
      cases hbegins with
      | nothing h => rw [h, attempt_nil hcaught, httpxCaught]
  refine (adapter.attempt_fails_iff client http ?_).mpr h
  rw [hnone]
  exact List.forall_mem_nil _

end HttpAdapter

end MasterAgent
