/-
  MasterAgent.Core.ErrorFrames

  Error frames on the wires of the three adapters.  A frame with another text in
  it is answered by the same event with that text; so of two responses that
  differ in such texts only, the adapter node makes attempts that agree, and an
  attempt shows at most one text: that of the first error frame it reads.
-/

import MasterAgent.Core.Coupling
import MasterAgent.Core.Graph.AdapterRetry
import MasterAgent.Plugins.Adapter

namespace MasterAgent

open Effect StateGraph

-- ============================================================================
-- Error frames
-- ============================================================================

/-- The code of an error frame with the given data. -/
def codeOf (fields : List (PyStr × Json)) : Json :=
  (Json.field (py "code") fields).getD (.str (py "DOWNSTREAM_ERROR"))

/-- The message of the event for an error frame with the given data. -/
def messageOf (defaultMessage : PyStr) (fields : List (PyStr × Json)) : Json :=
  (Json.field (py "message") fields).getD (.str defaultMessage)

/-- The data with another text in it, if it carries one. -/
def replaceMessage (m : Json) (fields : List (PyStr × Json)) : List (PyStr × Json) :=
  if py "message" ∈ fields.map Prod.fst then Json.setField (py "message") m fields else fields

theorem Json.field_setField (k : PyStr) (v : Json) (fields : List (PyStr × Json)) :
    Json.field k (Json.setField k v fields) = some v := by
  induction fields with
  | nil => simp [Json.setField, Json.field]
  | cons e rest ih =>
      by_cases h : e.1 = k
      · simp [Json.setField, Json.field, h]
      · simp [Json.setField, Json.field, h, ih]

@[simp] theorem codeOf_replaceMessage (m : Json) (fields : List (PyStr × Json)) :
    codeOf (replaceMessage m fields) = codeOf fields := by
  unfold codeOf replaceMessage
  split
  · rw [Json.field_setField_of_ne (by simp)]
  · rfl

theorem messageOf_replaceMessage {m : Json} {fields : List (PyStr × Json)}
    (h : py "message" ∈ fields.map Prod.fst) (defaultMessage : PyStr) :
    messageOf defaultMessage (replaceMessage m fields) = m := by
  rw [messageOf, replaceMessage, if_pos h, Json.field_setField]
  rfl

theorem replaceMessage_of_not_mem {m : Json} {fields : List (PyStr × Json)}
    (h : py "message" ∉ fields.map Prod.fst) : replaceMessage m fields = fields := if_neg h

theorem messageOf_of_not_mem {fields : List (PyStr × Json)}
    (h : py "message" ∉ fields.map Prod.fst) (defaultMessage : PyStr) :
    messageOf defaultMessage fields = .str defaultMessage := by
  rw [messageOf, Json.field_eq_none.mpr h]
  rfl

theorem upstreamError_obj (defaultMessage : PyStr) (fields : List (PyStr × Json)) :
    upstreamError defaultMessage (.obj fields)
      = .event (adapterError (codeOf fields) (messageOf defaultMessage fields)) := rfl

/-- Only an object makes an error event. -/
theorem upstreamError_event {defaultMessage : PyStr} {data : Json} {ev : ChatEvent}
    (h : upstreamError defaultMessage data = .event ev) : ∃ fields, data = .obj fields := by
  cases data with
  | obj fields => exact ⟨fields, rfl⟩
  | _ => simp [upstreamError, Json.getD, Json.get] at h

/-- The texts of the adapters' own errors. -/
def adapterTexts : List PyStr :=
  [py "MetaGC 上游出错", py "MetaGC 接口响应超时，请稍后重试", py "调用下游失败，请稍后重试",
    py "Uniioc 上游出错", py "Uniioc 接口响应超时，请稍后重试", py "调用 Uniioc 失败，请稍后重试",
    py "知识中心查询出错", py "知识中心接口响应超时，请稍后重试", py "调用知识中心失败，请稍后重试"]

/-- An adapter's wire with what is an error frame on it.  A frame with another
    text in it is the same frame if it is no error frame or carries no text. -/
structure Dialect (φ : Type) where
  wire : Wire φ
  defaultMessage : PyStr
  /-- The data of an error frame. -/
  errorData : φ → Option (List (PyStr × Json))
  withMessage : Json → φ → φ
  onFrame_error : ∀ {f fields}, errorData f = some fields →
    wire.onFrame f = .event (adapterError (codeOf fields) (messageOf defaultMessage fields))
  onFrame_other : ∀ {f ev}, errorData f = none → wire.onFrame f = .event ev → ev.type = .delta
  errorData_withMessage : ∀ {f fields} (m), errorData f = some fields →
    errorData (withMessage m f) = some (replaceMessage m fields)
  withMessage_other : ∀ {f} (m), errorData f = none → withMessage m f = f
  caught_closed : wire.caught .closed = ([], .ok ())
  caught_cases : ∀ ending, (∃ x, wire.caught ending = ([], x)) ∨ ∃ code text,
    text ∈ adapterTexts ∧ wire.caught ending = ([adapterError (.str code) (.str text)], .ok ())
  defaultMessage_mem : defaultMessage ∈ adapterTexts

-- ============================================================================
-- The three dialects
-- ============================================================================

theorem httpxCaught_cases {timeoutText failureText : PyStr} (ht : timeoutText ∈ adapterTexts)
    (hf : failureText ∈ adapterTexts) (ending : StreamEnd) :
    (∃ x, httpxCaught timeoutText failureText ending = ([], x)) ∨ ∃ code text,
      text ∈ adapterTexts ∧
        httpxCaught timeoutText failureText ending
          = ([adapterError (.str code) (.str text)], .ok ()) := by
  cases ending with
  | closed => exact Or.inl ⟨_, rfl⟩
  | timeout => exact Or.inr ⟨_, _, ht, rfl⟩
  | requestError => exact Or.inr ⟨_, _, hf, rfl⟩
  | raised e => exact Or.inl ⟨_, rfl⟩

namespace MetaGCAdapter

/-- The data of an `error` event. -/
def errorData (sse : SseFrame) : Option (List (PyStr × Json)) :=
  if sse.event = py "error" then match sse.load with
    | .ok (.obj fields) => some fields
    | _ => none
  else none

def withMessage (m : Json) (sse : SseFrame) : SseFrame :=
  match errorData sse with
  | none => sse
  | some fields =>
      if py "message" ∈ fields.map Prod.fst then
        { sse with data := .text (.ok (.obj (replaceMessage m fields))) }
      else sse

theorem errorData_eq_some {sse : SseFrame} {fields : List (PyStr × Json)} :
    errorData sse = some fields ↔ sse.event = py "error" ∧ sse.load = .ok (.obj fields) := by
  unfold errorData
  by_cases h : sse.event = py "error"
  · rw [if_pos h]
    split
    · next fields' hload => simp [h, hload]
    · next hload => simpa [h] using hload fields
  · simp [h]

def dialect : Dialect SseFrame where
  wire := wire
  defaultMessage := py "MetaGC 上游出错"
  errorData := errorData
  withMessage := withMessage
  onFrame_error := by
    intro sse fields h
    obtain ⟨hevent, hload⟩ := errorData_eq_some.mp h
    show onFrame sse = _
    simp [onFrame, hevent, hload, upstreamError_obj]
  onFrame_other := by
    intro sse ev h hev
    change onFrame sse = _ at hev
    unfold onFrame at hev
    split at hev
    · cases hev
    · split at hev
      · split at hev
        · cases hev
        · cases hev
          rfl
      · split at hev
        · next herror =>
          split at hev
          · cases hev
          · next data hload =>
            obtain ⟨fields, rfl⟩ := upstreamError_event hev
            rw [errorData_eq_some.mpr ⟨herror, hload⟩] at h
            cases h
        · split at hev <;> cases hev
  errorData_withMessage := by
    intro sse fields m h
    obtain ⟨hevent, -⟩ := errorData_eq_some.mp h
    simp only [withMessage, h]
    split
    · exact errorData_eq_some.mpr ⟨hevent, rfl⟩
    · next hm => rw [h, replaceMessage_of_not_mem hm]
  withMessage_other := by
    intro sse m h
    simp only [withMessage, h]
  caught_closed := rfl
  caught_cases := httpxCaught_cases (by decide) (by decide)
  defaultMessage_mem := by decide

end MetaGCAdapter

/-- The data of a JSON frame of type `error`. -/
def jsonErrorData (text : WireText) : Option (List (PyStr × Json)) :=
  match text.loads with
  | .ok (.obj top) =>
      if ((Json.field (py "type") top).getD .null).isStr (py "error") then
        match (Json.field (py "data") top).getD (.obj []) with
        | .obj fields => some fields
        | _ => none
      else none
  | _ => none

def jsonWithMessage (m : Json) (text : WireText) : WireText :=
  match jsonErrorData text with
  | none => text
  | some fields => match text.loads with
      | .ok (.obj top) =>
          if py "message" ∈ fields.map Prod.fst then
            .text (.ok (.obj (Json.setField (py "data") (.obj (replaceMessage m fields)) top)))
          else text
      | _ => text

theorem jsonErrorData_eq_some {text : WireText} {fields : List (PyStr × Json)} :
    jsonErrorData text = some fields ↔ ∃ top, text.loads = .ok (.obj top) ∧
      (Json.field (py "type") top).getD .null = .str (py "error") ∧
      (Json.field (py "data") top).getD (.obj []) = .obj fields := by
  unfold jsonErrorData
  split
  · next top hloads =>
    rw [hloads]
    by_cases htype : ((Json.field (py "type") top).getD .null).isStr (py "error") = true
    · rw [if_pos htype]
      rw [Json.isStr_eq_true] at htype
      constructor
      · intro h
        split at h
        · next fields' hdata =>
          cases h
          exact ⟨top, rfl, htype, hdata⟩
        · cases h
      · rintro ⟨top', htop, -, hdata⟩
        cases htop
        rw [hdata]
    · rw [if_neg htype]
      constructor
      · intro h
        cases h
      · rintro ⟨top', htop, htype', -⟩
        cases htop
        exact absurd (Json.isStr_eq_true.mpr htype') htype
  · next hloads =>
    constructor
    · intro h
      cases h
    · rintro ⟨top, htop, -⟩
      exact absurd htop (hloads top)

theorem jsonFrame_error {text : WireText} {fields : List (PyStr × Json)}
    (h : jsonErrorData text = some fields) (defaultMessage : PyStr) :
    jsonFrame defaultMessage text
      = .event (adapterError (codeOf fields) (messageOf defaultMessage fields)) := by
  obtain ⟨top, hloads, htype, hdata⟩ := jsonErrorData_eq_some.mp h
  simp [jsonFrame, hloads, Json.getD, Json.get, htype, hdata, Json.isStr, upstreamError_obj]

theorem jsonFrame_other {text : WireText} {defaultMessage : PyStr} {ev : ChatEvent}
    (h : jsonErrorData text = none) (hev : jsonFrame defaultMessage text = .event ev) :
    ev.type = .delta := by
  unfold jsonFrame at hev
  split at hev
  · cases hev
  · cases hev
  · next frame hloads =>
    cases frame with
    | obj top =>
        simp only [Json.getD, Json.get] at hev
        split at hev
        · cases hev
          rfl
        · split at hev
          · next htype =>
            obtain ⟨fields, hfields⟩ := upstreamError_event hev
            rw [jsonErrorData_eq_some.mpr ⟨top, hloads, Json.isStr_eq_true.mp htype, hfields⟩] at h
            cases h
          · split at hev <;> cases hev
    | _ => simp [Json.getD, Json.get] at hev

theorem jsonErrorData_withMessage {text : WireText} {fields : List (PyStr × Json)} (m : Json)
    (h : jsonErrorData text = some fields) :
    jsonErrorData (jsonWithMessage m text) = some (replaceMessage m fields) := by
  obtain ⟨top, hloads, htype, -⟩ := jsonErrorData_eq_some.mp h
  simp only [jsonWithMessage, hloads, h]
  split
  · refine jsonErrorData_eq_some.mpr ⟨_, rfl, ?_, ?_⟩
    · rw [Json.field_setField_of_ne (by simp)]
      exact htype
    · rw [Json.field_setField]
      rfl
  · next hm => rw [h, replaceMessage_of_not_mem hm]

theorem jsonWithMessage_other {text : WireText} (m : Json) (h : jsonErrorData text = none) :
    jsonWithMessage m text = text := by
  simp only [jsonWithMessage, h]

def UniiocAdapter.dialect : Dialect WireText where
  wire := wire
  defaultMessage := py "Uniioc 上游出错"
  errorData := jsonErrorData
  withMessage := jsonWithMessage
  onFrame_error := by
    intro text fields h
    cases text with
    | empty => cases h
    | text loaded => exact jsonFrame_error h _
  onFrame_other := by
    intro text ev h hev
    cases text with
    | empty => cases hev
    | text loaded => exact jsonFrame_other h hev
  errorData_withMessage := fun m h => jsonErrorData_withMessage m h
  withMessage_other := fun m h => jsonWithMessage_other m h
  caught_closed := rfl
  caught_cases := httpxCaught_cases (by decide) (by decide)
  defaultMessage_mem := by decide

def KnowledgeCenterAdapter.dialect : Dialect WireText where
  wire := wire
  defaultMessage := py "知识中心查询出错"
  errorData := jsonErrorData
  withMessage := jsonWithMessage
  onFrame_error := fun h => jsonFrame_error h _
  onFrame_other := fun h hev => jsonFrame_other h hev
  errorData_withMessage := fun m h => jsonErrorData_withMessage m h
  withMessage_other := fun m h => jsonWithMessage_other m h
  caught_closed := rfl
  caught_cases := by
    intro ending
    cases ending with
    | closed => exact Or.inl ⟨_, rfl⟩
    | timeout =>
        exact Or.inr ⟨py "DOWNSTREAM_TIMEOUT", py "知识中心接口响应超时，请稍后重试", by decide, rfl⟩
    | requestError => exact Or.inr ⟨py "DOWNSTREAM_ERROR", py "调用知识中心失败，请稍后重试", by decide, rfl⟩
    | raised e =>
        show (∃ x, caught (.raised e) = ([], x)) ∨ _
        cases he : e.isException with
        | true =>
            have hfailed : caught (.raised e) = caught.failed := by rw [caught, if_pos he]
            exact Or.inr ⟨py "DOWNSTREAM_ERROR", py "调用知识中心失败，请稍后重试", by decide, hfailed⟩
        | false =>
            refine Or.inl ⟨.error e, ?_⟩
            rw [caught, if_neg (by simp [he])]
  defaultMessage_mem := by decide

-- ============================================================================
-- Reading a response
-- ============================================================================

/-- What the adapter node makes of an attempt. -/
def Wire.trace {φ : Type} (wire : Wire φ) (canRetry : Bool) (response : Response φ) :
    AttemptTrace :=
  attemptTrace true canRetry (wire.attempt response).ending (wire.attempt response).events

section Wire

variable {φ : Type} {wire : Wire φ} {canRetry : Bool} {f : φ} {frames : List φ}
  {ending : StreamEnd}

theorem Wire.trace_skip (h : wire.onFrame f = .skip) :
    wire.trace canRetry ⟨f :: frames, ending⟩ = wire.trace canRetry ⟨frames, ending⟩ := by
  simp only [trace, attempt, readFrames, h]

theorem Wire.trace_delta {ev : ChatEvent} {content : Json} (h : wire.onFrame f = .event ev)
    (htype : ev.type = .delta) (hcontent : ev.data.getItem (py "content") = .ok content) :
    wire.trace canRetry ⟨f :: frames, ending⟩
      = (wire.trace canRetry ⟨frames, ending⟩).prepend [{ type := .delta, data := ev.data }]
        [content] := by
  simp only [trace, attempt, readFrames, h, List.cons_append, attemptTrace, htype, hcontent]
  rfl

theorem Wire.trace_broken {ev : ChatEvent} {e : Exn} (h : wire.onFrame f = .event ev)
    (htype : ev.type = .delta) (hcontent : ev.data.getItem (py "content") = .error e) :
    wire.trace canRetry ⟨f :: frames, ending⟩ = ⟨[], [], .raised e⟩ := by
  simp only [trace, attempt, readFrames, h, List.cons_append, attemptTrace, htype, hcontent]

theorem Wire.trace_error {code message : Json}
    (h : wire.onFrame f = .event (adapterError code message)) :
    wire.trace canRetry ⟨f :: frames, ending⟩
      = ⟨[adapterError code message], [], .errorShown⟩ := by
  simp only [trace, attempt, readFrames, h, List.cons_append]
  simp [attemptTrace, adapterError, literalEvent, Json.getD, Json.get, Json.field, Json.truthy]

theorem Wire.trace_stop (h : wire.onFrame f = .stop) :
    wire.trace canRetry ⟨f :: frames, ending⟩ = wire.trace canRetry ⟨[], .closed⟩ := by
  simp only [trace, attempt, readFrames, h]

theorem Wire.trace_raised {e : Exn} (h : wire.onFrame f = .raised e) :
    wire.trace canRetry ⟨f :: frames, ending⟩ = wire.trace canRetry ⟨[], .raised e⟩ := by
  simp only [trace, attempt, readFrames, h]

end Wire

namespace Dialect

variable {φ : Type} (d : Dialect φ)

/-- The adapter node goes on after the frame: it yields nothing, or a delta with
    a content. -/
def PassesOver (f : φ) : Prop :=
  d.wire.onFrame f = .skip ∨ ∃ ev content, d.wire.onFrame f = .event ev ∧ ev.type = .delta ∧
    ev.data.getItem (py "content") = .ok content

/-- An exception leaves `run` where the stream ends so. -/
def Uncaught (ending : StreamEnd) : Prop :=
  ∃ e, (d.wire.caught ending).2 = .error e ∧ e.isException = true

/-- The frame makes the attempt fail: a delta without a content, or an exception
    that no clause catches. -/
def Breaks (f : φ) : Prop :=
  (∃ ev e, d.wire.onFrame f = .event ev ∧ ev.type = .delta ∧
    ev.data.getItem (py "content") = .error e) ∨
  ∃ e, d.wire.onFrame f = .raised e ∧ d.Uncaught (.raised e)

/-- The first frame that is not passed over is an error frame with these data. -/
def Shows (r : Response φ) (fields : List (PyStr × Json)) : Prop :=
  ∃ pre f post, r.frames = pre ++ f :: post ∧ (∀ g ∈ pre, d.PassesOver g) ∧
    d.errorData f = some fields

/-- The attempt fails: the first frame that is not passed over breaks it, or all
    are and an exception leaves `run` at the end of the stream. -/
def Fails (r : Response φ) : Prop :=
  (∃ pre f post, r.frames = pre ++ f :: post ∧ (∀ g ∈ pre, d.PassesOver g) ∧ d.Breaks f) ∨
    (∀ g ∈ r.frames, d.PassesOver g) ∧ d.Uncaught r.ending

/-- The same response with other texts in its error frames. -/
def Varied (r r' : Response φ) : Prop :=
  List.Forall₂ (fun f f' => ∃ m, f' = d.withMessage m f) r.frames r'.frames ∧
    r'.ending = r.ending

variable {d}

theorem Shows.cons {f : φ} {frames : List φ} {ending : StreamEnd} {fields : List (PyStr × Json)}
    (hf : d.PassesOver f) (h : d.Shows ⟨frames, ending⟩ fields) :
    d.Shows ⟨f :: frames, ending⟩ fields := by
  obtain ⟨pre, g, post, rfl : frames = _, hpre, hg⟩ := h
  exact ⟨f :: pre, g, post, rfl, List.forall_mem_cons.mpr ⟨hf, hpre⟩, hg⟩

theorem Fails.cons {f : φ} {frames : List φ} {ending : StreamEnd} (hf : d.PassesOver f)
    (h : d.Fails ⟨frames, ending⟩) : d.Fails ⟨f :: frames, ending⟩ := by
  rcases h with ⟨pre, g, post, rfl : frames = _, hpre, hg⟩ | ⟨hall, hend⟩
  · exact Or.inl ⟨f :: pre, g, post, rfl, List.forall_mem_cons.mpr ⟨hf, hpre⟩, hg⟩
  · exact Or.inr ⟨List.forall_mem_cons.mpr ⟨hf, hall⟩, hend⟩

/-- A frame that breaks the attempt at once. -/
theorem Fails.of_breaks {f : φ} {frames : List φ} {ending : StreamEnd} (hf : d.Breaks f) :
    d.Fails ⟨f :: frames, ending⟩ :=
  Or.inl ⟨[], f, frames, rfl, fun _ h => (List.not_mem_nil h).elim, hf⟩

/-- What a frame is to the node. -/
inductive FrameCase (d : Dialect φ) (f : φ) : Prop where
  | skip (h : d.wire.onFrame f = .skip)
  | delta {ev : ChatEvent} {content : Json} (h : d.wire.onFrame f = .event ev)
      (htype : ev.type = .delta) (hcontent : ev.data.getItem (py "content") = .ok content)
  | broken {ev : ChatEvent} {e : Exn} (h : d.wire.onFrame f = .event ev)
      (htype : ev.type = .delta) (hcontent : ev.data.getItem (py "content") = .error e)
  | stop (h : d.wire.onFrame f = .stop)
  | raised {e : Exn} (h : d.wire.onFrame f = .raised e)

theorem frame_cases {f : φ} (h : d.errorData f = none) : FrameCase d f := by
  cases hf : d.wire.onFrame f with
  | skip => exact .skip hf
  | stop => exact .stop hf
  | raised e => exact .raised hf
  | event ev =>
      have htype := d.onFrame_other h hf
      cases hcontent : ev.data.getItem (py "content") with
      | error e => exact .broken hf htype hcontent
      | ok content => exact .delta hf htype hcontent

/-- At the end of the stream nothing shows but the event of a caught exception. -/
theorem trace_end (d : Dialect φ) (canRetry : Bool) (ending : StreamEnd) :
    (∃ exit, d.wire.trace canRetry ⟨[], ending⟩ = ⟨[], [], exit⟩ ∧
      (exit.failed = true ↔ d.Uncaught ending)) ∨
    ∃ code text, text ∈ adapterTexts ∧ ¬ d.Uncaught ending ∧
      d.wire.trace canRetry ⟨[], ending⟩
        = ⟨[adapterError (.str code) (.str text)], [], .errorShown⟩ := by
  rcases d.caught_cases ending with ⟨x, hx⟩ | ⟨code, text, htext, hx⟩
  · left
    cases x with
    | ok u =>
        refine ⟨.finished, ?_, by simp [AttemptExit.failed, Uncaught, hx]⟩
        simp only [Wire.trace, Wire.attempt, readFrames, hx, List.nil_append, attemptTrace]
    | error e =>
        refine ⟨.raised e, ?_, by simp [AttemptExit.failed, Uncaught, hx]⟩
        simp only [Wire.trace, Wire.attempt, readFrames, hx, List.nil_append, attemptTrace]
  · refine Or.inr ⟨code, text, htext, by simp [Uncaught, hx], ?_⟩
    simp only [Wire.trace, Wire.attempt, readFrames, hx, List.nil_append]
    simp [attemptTrace, adapterError, literalEvent, Json.getD, Json.get, Json.field, Json.truthy]

/-- Responses that differ in message texts make attempts that agree, if what an
    error frame shows is related. -/
theorem varied_agree {R : Act → Act → Prop}
    (hdelta : ∀ data, R (.emit { type := .delta, data := data })
      (.emit { type := .delta, data := data }))
    (hliteral : ∀ code text, text ∈ adapterTexts →
      R (.emit (adapterError (.str code) (.str text)))
        (.emit (adapterError (.str code) (.str text))))
    {r r' : Response φ} (canRetry : Bool) (hvaried : d.Varied r r')
    (hshown : ∀ fields m, d.Shows r fields →
      R (.emit (adapterError (codeOf fields) (messageOf d.defaultMessage fields)))
        (.emit (adapterError (codeOf fields)
          (messageOf d.defaultMessage (replaceMessage m fields))))) :
    AttemptsAgree R (d.wire.trace canRetry r) (d.wire.trace canRetry r') := by
  obtain ⟨frames, ending⟩ := r
  obtain ⟨frames', ending'⟩ := r'
  obtain ⟨hframes, hending⟩ := hvaried
  have hsame : ending = ending' := hending.symm
  clear hending
  subst hsame
  change List.Forall₂ _ frames frames' at hframes
  have hend : ∀ ending, AttemptsAgree R (d.wire.trace canRetry ⟨[], ending⟩)
      (d.wire.trace canRetry ⟨[], ending⟩) := by
    intro ending
    rcases d.trace_end canRetry ending with ⟨exit, htrace, -⟩ | ⟨code, text, htext, -, htrace⟩
    · rw [htrace]
      exact ⟨rfl, rfl, .nil⟩
    · rw [htrace]
      exact ⟨rfl, rfl, .cons (hliteral _ _ htext) .nil⟩
  induction hframes with
  | nil => exact hend ending
  | @cons f f' frames frames' hf hframes ih =>
      obtain ⟨m, rfl⟩ := hf
      cases herror : d.errorData f with
      | some fields =>
          have hthis := d.onFrame_error herror
          have hother := d.onFrame_error (d.errorData_withMessage m herror)
          rw [codeOf_replaceMessage] at hother
          rw [Wire.trace_error hthis, Wire.trace_error hother]
          refine ⟨rfl, rfl, .cons (hshown fields m ?_) .nil⟩
          exact ⟨[], f, frames, rfl, fun _ h => (List.not_mem_nil h).elim, herror⟩
      | none =>
          rw [d.withMessage_other m herror]
          -- the frame is the same in both responses
          cases frame_cases herror with
          | skip h =>
              rw [Wire.trace_skip h, Wire.trace_skip h]
              exact ih fun fields m hs => hshown fields m (hs.cons (Or.inl h))
          | delta h htype hcontent =>
              have hpass : d.PassesOver f := Or.inr ⟨_, _, h, htype, hcontent⟩
              have hrest := ih fun fields m hs => hshown fields m (hs.cons hpass)
              rw [Wire.trace_delta h htype hcontent, Wire.trace_delta h htype hcontent]
              refine ⟨?_, hrest.exit, .cons (hdelta _) hrest.events⟩
              show _ ++ _ = _ ++ _
              rw [hrest.chunks]
          | broken h htype hcontent =>
              rw [Wire.trace_broken h htype hcontent, Wire.trace_broken h htype hcontent]
              exact ⟨rfl, rfl, .nil⟩
          | stop h =>
              rw [Wire.trace_stop h, Wire.trace_stop h]
              exact hend .closed
          | raised h =>
              rw [Wire.trace_raised h, Wire.trace_raised h]
              exact hend (.raised _)

/-- An attempt fails by the frames of its response. -/
theorem fails_of_trace {r : Response φ} {canRetry : Bool}
    (h : (d.wire.trace canRetry r).exit.failed = true) : d.Fails r := by
  have hend : ∀ {ending}, (d.wire.trace canRetry ⟨[], ending⟩).exit.failed = true →
      d.Uncaught ending := by
    intro ending hfailed
    rcases d.trace_end canRetry ending with ⟨exit, htrace, hexit⟩ | ⟨code, text, -, -, htrace⟩
    · rw [htrace] at hfailed
      exact hexit.mp hfailed
    · rw [htrace] at hfailed
      cases hfailed
  obtain ⟨frames, ending⟩ := r
  induction frames with
  | nil => exact Or.inr ⟨fun _ hg => (List.not_mem_nil hg).elim, hend h⟩
  | cons f frames ih =>
      cases herror : d.errorData f with
      | some fields =>
          rw [Wire.trace_error (d.onFrame_error herror)] at h
          cases h
      | none =>
          cases frame_cases herror with
          | skip hf =>
              rw [Wire.trace_skip hf] at h
              exact (ih h).cons (Or.inl hf)
          | delta hf htype hcontent =>
              rw [Wire.trace_delta hf htype hcontent] at h
              exact (ih h).cons (Or.inr ⟨_, _, hf, htype, hcontent⟩)
          | broken hf htype hcontent => exact .of_breaks (Or.inl ⟨_, _, hf, htype, hcontent⟩)
          | stop hf =>
              rw [Wire.trace_stop hf] at h
              obtain ⟨e, he, -⟩ := hend h
              rw [d.caught_closed] at he
              cases he
          | raised hf =>
              rw [Wire.trace_raised hf] at h
              exact .of_breaks (Or.inr ⟨_, hf, hend h⟩)

/-- Frames that are passed over come before the rest of the attempt. -/
theorem trace_passes {pre : List φ} (h : ∀ g ∈ pre, d.PassesOver g) (canRetry : Bool)
    (frames : List φ) (ending : StreamEnd) :
    ∃ deltas chunks, d.wire.trace canRetry ⟨pre ++ frames, ending⟩
      = (d.wire.trace canRetry ⟨frames, ending⟩).prepend deltas chunks := by
  induction pre with
  | nil => exact ⟨[], [], rfl⟩
  | cons f pre ih =>
      obtain ⟨hf, hpre⟩ := List.forall_mem_cons.mp h
      obtain ⟨deltas, chunks, hrest⟩ := ih hpre
      rcases hf with hskip | ⟨ev, content, hev, htype, hcontent⟩
      · exact ⟨deltas, chunks, (Wire.trace_skip hskip).trans hrest⟩
      · refine ⟨{ type := .delta, data := ev.data } :: deltas, content :: chunks, ?_⟩
        rw [List.cons_append, Wire.trace_delta hev htype hcontent, hrest]
        rfl

/-- A failing response makes a failing attempt. -/
theorem trace_of_fails {r : Response φ} (canRetry : Bool) (h : d.Fails r) :
    (d.wire.trace canRetry r).exit.failed = true := by
  have hend : ∀ {ending}, d.Uncaught ending →
      (d.wire.trace canRetry ⟨[], ending⟩).exit.failed = true := by
    intro ending hun
    rcases d.trace_end canRetry ending with ⟨exit, htrace, hexit⟩ | ⟨code, text, -, hcaught, -⟩
    · rw [htrace]
      exact hexit.mpr hun
    · exact absurd hun hcaught
  obtain ⟨frames, ending⟩ := r
  rcases h with ⟨pre, f, post, rfl : frames = _, hpre, hf⟩ | ⟨hall, hending⟩
  · obtain ⟨deltas, chunks, hrest⟩ := trace_passes hpre canRetry (f :: post) ending
    rw [hrest]
    show (d.wire.trace canRetry ⟨f :: post, ending⟩).exit.failed = true
    rcases hf with ⟨ev, e, hev, htype, hcontent⟩ | ⟨e, hraised, he⟩
    · rw [Wire.trace_broken hev htype hcontent]
      exact getItem_isException hcontent
    · rw [Wire.trace_raised hraised]
      exact hend he
  · obtain ⟨deltas, chunks, hrest⟩ := trace_passes hall canRetry [] ending
    rw [List.append_nil] at hrest
    rw [hrest]
    exact hend hending

/-- The error frame a response shows ends the attempt with its event. -/
theorem trace_of_shows {r : Response φ} {fields : List (PyStr × Json)} (canRetry : Bool)
    (h : d.Shows r fields) :
    ∃ deltas chunks, d.wire.trace canRetry r
      = ⟨deltas ++ [adapterError (codeOf fields) (messageOf d.defaultMessage fields)], chunks,
          .errorShown⟩ := by
  obtain ⟨frames, ending⟩ := r
  obtain ⟨pre, f, post, rfl : frames = _, hpre, hf⟩ := h
  obtain ⟨deltas, chunks, hrest⟩ := trace_passes hpre canRetry (f :: post) ending
  rw [hrest, Wire.trace_error (d.onFrame_error hf)]
  exact ⟨deltas, chunks ++ [], rfl⟩

/-- A response shows one code. -/
theorem Shows.codeOf_eq {r : Response φ} {fields fields' : List (PyStr × Json)}
    (h : d.Shows r fields) (h' : d.Shows r fields') : codeOf fields = codeOf fields' := by
  obtain ⟨deltas, chunks, htrace⟩ := trace_of_shows true h
  obtain ⟨deltas', chunks', htrace'⟩ := trace_of_shows true h'
  rw [htrace, AttemptTrace.mk.injEq] at htrace'
  have hlast := congrArg List.getLast? htrace'.1
  simp only [List.getLast?_concat, Option.some.injEq, adapterError, literalEvent,
    ChatEvent.mk.injEq, Json.obj.injEq, List.cons.injEq, Prod.mk.injEq] at hlast
  exact hlast.2.1.1.2

/-- A response that shows an error frame does not fail. -/
theorem Shows.not_fails {r : Response φ} {fields : List (PyStr × Json)}
    (h : d.Shows r fields) : ¬ d.Fails r := by
  intro hfails
  obtain ⟨deltas, chunks, htrace⟩ := trace_of_shows true h
  have hfailed := trace_of_fails true hfails
  rw [htrace] at hfailed
  cases hfailed

/-- A frame that is read makes a delta with these data: all frames before it are
    passed over, and it has a content. -/
def ShowsDelta (d : Dialect φ) (r : Response φ) (data : Json) : Prop :=
  ∃ pre f post ev content, r.frames = pre ++ f :: post ∧ (∀ g ∈ pre, d.PassesOver g) ∧
    d.wire.onFrame f = .event ev ∧ ev.type = .delta ∧
    ev.data.getItem (py "content") = .ok content ∧ ev.data = data

theorem ShowsDelta.cons {f : φ} {frames : List φ} {ending : StreamEnd} {data : Json}
    (hf : d.PassesOver f) (h : d.ShowsDelta ⟨frames, ending⟩ data) :
    d.ShowsDelta ⟨f :: frames, ending⟩ data := by
  obtain ⟨pre, g, post, ev, content, rfl : frames = _, hpre, hg⟩ := h
  exact ⟨f :: pre, g, post, ev, content, rfl, List.forall_mem_cons.mpr ⟨hf, hpre⟩, hg⟩

/-- An event of an attempt: a delta of a frame, the error of a frame, or what
    follows a caught exception. -/
inductive EventOf (d : Dialect φ) (r : Response φ) : ChatEvent → Prop where
  | delta {data : Json} (h : d.ShowsDelta r data) :
      EventOf d r { type := .delta, data := data }
  | error {fields : List (PyStr × Json)} (h : d.Shows r fields) :
      EventOf d r (adapterError (codeOf fields) (messageOf d.defaultMessage fields))
  | caught {ending : StreamEnd} {ev : ChatEvent} (h : ev ∈ (d.wire.caught ending).1) :
      EventOf d r ev

theorem EventOf.cons {f : φ} {frames : List φ} {ending : StreamEnd} {ev : ChatEvent}
    (hf : d.PassesOver f) (h : EventOf d ⟨frames, ending⟩ ev) :
    EventOf d ⟨f :: frames, ending⟩ ev := by
  cases h with
  | delta h => exact .delta (h.cons hf)
  | error h => exact .error (h.cons hf)
  | caught h => exact .caught h

theorem trace_end_event {canRetry : Bool} {ending : StreamEnd} {ev : ChatEvent}
    (h : ev ∈ (d.wire.trace canRetry ⟨[], ending⟩).events) : ev ∈ (d.wire.caught ending).1 := by
  rcases d.caught_cases ending with ⟨x, hx⟩ | ⟨code, text, -, hx⟩
  · simp only [Wire.trace, Wire.attempt, readFrames, hx, List.nil_append] at h
    cases x with
    | ok u => exact (List.not_mem_nil h).elim
    | error e => exact (List.not_mem_nil h).elim
  · simp only [Wire.trace, Wire.attempt, readFrames, hx, List.nil_append] at h ⊢
    simpa [attemptTrace, adapterError, literalEvent, Json.getD, Json.get, Json.field, Json.truthy]
      using h

theorem trace_event {r : Response φ} {canRetry : Bool} {ev : ChatEvent}
    (h : ev ∈ (d.wire.trace canRetry r).events) : EventOf d r ev := by
  obtain ⟨frames, ending⟩ := r
  induction frames with
  | nil => exact .caught (trace_end_event h)
  | cons f frames ih =>
      cases herror : d.errorData f with
      | some fields =>
          rw [Wire.trace_error (d.onFrame_error herror)] at h
          rw [List.mem_singleton.mp h]
          exact .error ⟨[], f, frames, rfl, List.forall_mem_nil _, herror⟩
      | none =>
          cases frame_cases herror with
          | skip hf =>
              rw [Wire.trace_skip hf] at h
              exact (ih h).cons (Or.inl hf)
          | @delta ev' content hf htype hcontent =>
              rw [Wire.trace_delta hf htype hcontent] at h
              rcases List.mem_cons.mp h with rfl | h
              · exact .delta ⟨[], f, frames, ev', content, rfl, List.forall_mem_nil _, hf, htype,
                  hcontent, rfl⟩
              · exact (ih h).cons (Or.inr ⟨_, _, hf, htype, hcontent⟩)
          | broken hf htype hcontent =>
              rw [Wire.trace_broken hf htype hcontent] at h
              exact (List.not_mem_nil h).elim
          | stop hf =>
              rw [Wire.trace_stop hf] at h
              exact .caught (trace_end_event h)
          | raised hf =>
              rw [Wire.trace_raised hf] at h
              exact .caught (trace_end_event h)

/-- The delta of a frame that is read is an event of the attempt. -/
theorem trace_of_showsDelta {r : Response φ} {data : Json} (canRetry : Bool)
    (h : d.ShowsDelta r data) :
    { type := .delta, data := data } ∈ (d.wire.trace canRetry r).events := by
  obtain ⟨frames, ending⟩ := r
  obtain ⟨pre, f, post, ev, content, rfl : frames = _, hpre, hf, htype, hcontent, rfl⟩ := h
  obtain ⟨deltas, chunks, hrest⟩ := trace_passes hpre canRetry (f :: post) ending
  rw [hrest, Wire.trace_delta hf htype hcontent]
  exact List.mem_append_right _ (List.mem_append_left _ (List.mem_singleton.mpr rfl))

end Dialect

end MasterAgent
