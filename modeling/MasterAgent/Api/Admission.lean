/-
  MasterAgent.Api.Admission

  What the transports let through to `ChatService`.  An input either becomes a
  request, or is answered with an error and leaves the service and the tables
  alone.  The HTTP body is validated field by field; of an ask frame only the
  missing and the falsy fields are filled in, so that a request made of it is
  well formed exactly when the frame is `Proper`.
-/

import MasterAgent.Api.Isolation
import MasterAgent.Core.Routing

namespace MasterAgent

open Effect

variable {σ : Type}

-- ============================================================================
-- Errors
-- ============================================================================

/-- How a transport answers an input it does not accept. -/
inductive Refusal where
  /-- The body fails validation: HTTP 422, or 500 when the answer, which quotes the
      body, cannot be encoded. -/
  | invalidBody
  | http (e : HttpException)
  /-- The connection is closed with a reason. -/
  | closed (reason : PyStr)

/-- The request a transport makes of an input, or the error it answers with. -/
def Inbound.receive (env : Env σ) (loads : JsonLoads) (topics : TopicRegistry) :
    Inbound → Prog σ (Except Refusal ChatRequest)
  | .sse headers body => match ChatBody.validate body with
      | none => return .error .invalidBody
      | some body => do
          let rid ← sseRequestId env headers
          return (chatSse loads true topics headers rid body).mapError .http
  | .ask conn frame => match openWs loads true topics conn with
      | .error reason => return .error (.closed reason)
      | .ok ctx => do
          let rid ← askRequestId env frame
          return .ok (ctx.askRequest frame rid)

/-- The inputs that become requests are those that are not refused. -/
theorem Inbound.request_result (env : Env σ) (loads : JsonLoads) (topics : TopicRegistry)
    (i : Inbound) (w : σ) :
    (i.request env loads topics w).result =
      (i.receive env loads topics w).result.map Except.toOption := by
  cases i with
  | sse headers body =>
      simp only [request, receive]
      cases ChatBody.validate body with
      | none => rfl
      | some body =>
          simp only [Eff.bind_apply]
          cases (sseRequestId env headers w).result with
          | error e => rfl
          | ok rid =>
              simp only [Run.after, Eff.pure_apply, Except.map]
              cases chatSse loads true topics headers rid body <;> rfl
  | ask conn frame =>
      simp only [request, receive]
      cases openWs loads true topics conn with
      | error reason => rfl
      | ok ctx =>
          simp only [Eff.bind_apply]
          cases (askRequestId env frame w).result <;> rfl

-- ============================================================================
-- Well-formed requests
-- ============================================================================

/-- A non-empty string. -/
def Json.IsText (v : Json) : Prop := ∃ s, v = .str s ∧ s ≠ []

/-- A request as its type annotations have it, without empty texts. -/
structure ChatRequest.WellFormed (req : ChatRequest) : Prop where
  bizId : req.bizId ≠ []
  threadId : req.threadId.IsText
  w3Account : req.w3Account ≠ []
  question : req.question.IsText
  requestId : req.requestId.IsText
  bizParams : ∃ params, req.bizParams = .obj params

/-- A falsy value or a string. -/
def Json.BlankOrText (v : Json) : Prop := v.truthy = true → ∃ s, v = .str s

/-- What a connection and a frame must be for their request to be well formed. -/
structure Proper (conn : WsConnect) (frame : List (PyStr × Json)) : Prop where
  w3Account : conn.w3Account ≠ some []
  threadId : (frameGet frame (py "thread_id")).BlankOrText
  question : ∃ s, Json.field (py "question") frame = some (.str s) ∧ s ≠ []
  requestId : (frameGet frame (py "request_id")).BlankOrText
  bizParams : ∀ v, Json.field (py "biz_params") frame = some v → ∃ params, v = .obj params

theorem isText_of_truthy {s : PyStr} (h : (Json.str s).truthy = true) : (Json.str s).IsText := by
  refine ⟨s, rfl, ?_⟩
  rintro rfl
  cases h

/-- `v or default` is a text exactly when `v` is blank or a text. -/
theorem orElse_isText {v default : Json} (hdefault : default.IsText) :
    (v.orElse default).IsText ↔ v.BlankOrText := by
  unfold Json.orElse
  by_cases hv : v.truthy = true
  · rw [if_pos hv]
    constructor
    · rintro ⟨s, rfl, -⟩ _
      exact ⟨s, rfl⟩
    · intro h
      obtain ⟨s, rfl⟩ := h hv
      exact isText_of_truthy hv
  · rw [if_neg hv]
    exact ⟨fun _ h => absurd h hv, fun _ => hdefault⟩

/-- The id a request gets is a text exactly when the frame's is blank or a text. -/
theorem askRequestId_isText (env : Env σ) (frame : List (PyStr × Json)) (w : σ) :
    ∃ rid, (askRequestId env frame w).result = .ok rid ∧
      (rid.IsText ↔ (frameGet frame (py "request_id")).BlankOrText) := by
  unfold askRequestId
  by_cases hv : (frameGet frame (py "request_id")).truthy = true
  · rw [if_pos hv]
    refine ⟨_, rfl, ?_⟩
    have h := @orElse_isText (frameGet frame (py "request_id")) (.str (py "r")) ⟨_, rfl, by decide⟩
    rwa [Json.orElse, if_pos hv] at h
  · rw [if_neg hv]
    refine ⟨_, rfl, fun _ h => absurd h hv, fun _ => ⟨_, rfl, ?_⟩⟩
    exact List.append_ne_nil_of_left_ne_nil (by decide) _

/-- The request of an ask frame is well formed exactly when the frame is proper. -/
theorem askRequest_wellFormed_iff {loads : JsonLoads} {conn : WsConnect}
    (hbiz : (conn.context loads).bizId ≠ []) {frame : List (PyStr × Json)} {rid : Json}
    (hrid : rid.IsText ↔ (frameGet frame (py "request_id")).BlankOrText) :
    ((conn.context loads).askRequest frame rid).WellFormed ↔ Proper conn frame := by
  have haccount : (conn.context loads).w3Account ≠ [] ↔ conn.w3Account ≠ some [] := by
    show conn.w3Account.getD (py "anonymous") ≠ [] ↔ _
    cases conn.w3Account with
    | none => simp [py]
    | some s => simp
  have hquestion : (((Json.field (py "question") frame).getD (.str []))).IsText ↔
      ∃ s, Json.field (py "question") frame = some (.str s) ∧ s ≠ [] := by
    cases Json.field (py "question") frame with
    | none =>
        simp only [Option.getD_none]
        constructor
        · rintro ⟨s, hs, hne⟩
          cases hs
          exact absurd rfl hne
        · rintro ⟨s, hs, -⟩
          cases hs
    | some v => simp [Json.IsText]
  have hparams : (∃ params, (Json.field (py "biz_params") frame).getD (.obj []) = .obj params) ↔
      ∀ v, Json.field (py "biz_params") frame = some v → ∃ params, v = .obj params := by
    cases Json.field (py "biz_params") frame with
    | none => simp
    | some v => simp
  have hthread := @orElse_isText (frameGet frame (py "thread_id")) (.str (py "unknown"))
    ⟨_, rfl, by decide⟩
  constructor
  · intro h
    exact ⟨haccount.mp h.w3Account, hthread.mp h.threadId, hquestion.mp h.question,
      hrid.mp h.requestId, hparams.mp h.bizParams⟩
  · intro h
    exact ⟨hbiz, hthread.mpr h.threadId, haccount.mpr h.w3Account, hquestion.mpr h.question,
      hrid.mpr h.requestId, hparams.mpr h.bizParams⟩

/-- The request of an accepted body is well formed. -/
theorem body_request_wellFormed (body : ChatBody) (headers : SseHeaders) {requestId : PyStr}
    (hrid : requestId ≠ []) (extraClaims : List (PyStr × Json)) :
    (body.request headers requestId extraClaims).WellFormed :=
  ⟨body.bizId.ne_nil, ⟨_, rfl, body.threadId.ne_nil⟩, body.w3Account.ne_nil,
    ⟨_, rfl, body.question.ne_nil⟩, ⟨_, rfl, hrid⟩, ⟨_, rfl⟩⟩

theorem sseRequestId_ne_nil (env : Env σ) (headers : SseHeaders) (w : σ) :
    ∃ rid, (sseRequestId env headers w).result = .ok rid ∧ rid ≠ [] := by
  have hnew : ∃ rid, (newRequestId env w).result = .ok rid ∧ rid ≠ [] :=
    ⟨_, rfl, List.append_ne_nil_of_left_ne_nil (by decide) _⟩
  unfold sseRequestId
  rcases headers.requestId with _ | _ | ⟨c, s⟩
  · exact hnew
  · exact hnew
  · exact ⟨_, rfl, List.cons_ne_nil c s⟩

-- ============================================================================
-- The service behind the transports
-- ============================================================================

/-- A call is admitted as it should be: the request that reaches the service is
    well formed, or there is an error, and neither the service nor the tables
    have changed. -/
def Call.WellAdmitted (site : Site) (svc : Service) (c : Call) : Prop :=
  (∃ req, (c.accepted site svc.db).result = .ok (some req) ∧ req.WellFormed) ∨
    ∃ refusal, (c.inbound.receive (site.deployment.env c.grace) site.loads site.topics
        svc.db).result = .ok (.error refusal) ∧
      (svc.call site c).past = svc.past ∧ (svc.call site c).db.store = svc.db.store

/-- The input comes over HTTP, or over a connection that is refused, or the frame
    is proper. -/
def Inbound.Sound (loads : JsonLoads) (topics : TopicRegistry) : Inbound → Prop
  | .sse _ _ => True
  | .ask conn frame =>
      (∃ reason, openWs loads true topics conn = .error reason) ∨ Proper conn frame

section Admission

variable {site : Site} {svc : Service} {c : Call}

/-- A call is refused when its transport answers with an error. -/
theorem call_refused {refusal : Refusal}
    (h : (c.inbound.receive (site.deployment.env c.grace) site.loads site.topics svc.db).result
      = .ok (.error refusal)) :
    (svc.call site c).past = svc.past ∧ (svc.call site c).db.store = svc.db.store := by
  have hresult : (c.accepted site svc.db).result = .ok none := by
    rw [Call.accepted, Inbound.request_result, h]
    rfl
  have hcall : svc.call site c = { svc with db := (c.accepted site svc.db).world } := by
    simp only [Service.call, hresult]
  rw [hcall]
  exact ⟨rfl, accepted_store site c svc.db⟩

/-- With the request known, a call is admitted as it should be when the request
    is well formed. -/
theorem wellAdmitted_of_received {req : ChatRequest}
    (h : (c.inbound.receive (site.deployment.env c.grace) site.loads site.topics svc.db).result
      = .ok (.ok req)) : c.WellAdmitted site svc ↔ req.WellFormed := by
  have hresult : (c.accepted site svc.db).result = .ok (some req) := by
    rw [Call.accepted, Inbound.request_result, h]
    rfl
  constructor
  · rintro (⟨req', hreq', hwell⟩ | ⟨refusal, hrefused, -⟩)
    · rw [hresult] at hreq'
      cases hreq'
      exact hwell
    · rw [h] at hrefused
      cases hrefused
  · exact fun hwell => Or.inl ⟨req, hresult, hwell⟩

theorem wellAdmitted_of_refused {refusal : Refusal}
    (h : (c.inbound.receive (site.deployment.env c.grace) site.loads site.topics svc.db).result
      = .ok (.error refusal)) : c.WellAdmitted site svc :=
  Or.inr ⟨refusal, h, call_refused h⟩

/-- A call is admitted as it should be exactly when its input is sound: always
    over HTTP, and over an open connection when the frame is proper. -/
theorem wellAdmitted_iff {compiler : TopicCompiler} {envmap : Dict PyStr PyStr}
    {cfgs : List TopicConfig} (hload : compiler.loadTopics envmap cfgs ⟨.empty⟩ = .ok site.topics)
    (svc : Service) (c : Call) :
    c.WellAdmitted site svc ↔ c.inbound.Sound site.loads site.topics := by
  have hnamed : site.topics.Named := by
    refine loadTopics_named (fun bizId topic h => ?_) hload
    cases h
  let env := site.deployment.env c.grace
  cases hinbound : c.inbound with
  | sse headers body =>
      refine ⟨fun _ => trivial, fun _ => ?_⟩
      cases hbody : ChatBody.validate body with
      | none =>
          refine @wellAdmitted_of_refused _ _ _ .invalidBody ?_
          simp only [hinbound, Inbound.receive, hbody]
          rfl
      | some body =>
          obtain ⟨rid, hrid, hne⟩ := sseRequestId_ne_nil env headers svc.db
          have hreceive : (c.inbound.receive env site.loads site.topics svc.db).result =
              .ok ((chatSse site.loads true site.topics headers rid body).mapError .http) := by
            simp only [hinbound, Inbound.receive, hbody]
            rw [Eff.bind_of_ok hrid]
            rfl
          cases hsse : chatSse site.loads true site.topics headers rid body with
          | error e =>
              rw [hsse] at hreceive
              exact wellAdmitted_of_refused hreceive
          | ok req =>
              rw [hsse] at hreceive
              obtain ⟨-, -, -, extraClaims, rfl⟩ := chatSse_accepts hsse
              exact (wellAdmitted_of_received hreceive).mpr
                (body_request_wellFormed body headers hne extraClaims)
  | ask conn frame =>
      cases hopen : openWs site.loads true site.topics conn with
      | error reason =>
          refine ⟨fun _ => Or.inl ⟨reason, hopen⟩, fun _ => ?_⟩
          refine @wellAdmitted_of_refused _ _ _ (.closed reason) ?_
          simp only [hinbound, Inbound.receive, hopen]
          rfl
      | ok ctx =>
          obtain ⟨-, ⟨topic, htopic⟩, rfl⟩ := openWs_accepts hopen
          obtain ⟨rid, hrid, htext⟩ := askRequestId_isText env frame svc.db
          have hreceive : (c.inbound.receive env site.loads site.topics svc.db).result =
              .ok (.ok ((conn.context site.loads).askRequest frame rid)) := by
            simp only [hinbound, Inbound.receive, hopen]
            rw [Eff.bind_of_ok hrid]
            rfl
          rw [wellAdmitted_of_received hreceive,
            askRequest_wellFormed_iff (hnamed _ topic htopic).2 htext]
          constructor
          · exact Or.inr
          · rintro (⟨reason, hreason⟩ | hproper)
            · rw [hopen] at hreason
              cases hreason
            · exact hproper

end Admission

-- ============================================================================
-- Two asks
-- ============================================================================

/-- A site that has loaded one configuration. -/
def loadedSite (topics : TopicRegistry) : Site where
  deployment := smallDeployment
  topics := topics
  loads := fun _ => .ok .null

/-- An ask with a question and no more. -/
theorem wellAdmitted_iff_plain_question : ∃ topics,
    onePluginCompiler.loadTopics .empty [agreeingConfig] ⟨.empty⟩ = .ok topics ∧
      (asks "alice" []).WellAdmitted (loadedSite topics) (.start 0 0) := by
  have hload : onePluginCompiler.loadTopics .empty [agreeingConfig] ⟨.empty⟩ = .ok _ := rfl
  refine ⟨_, hload, (wellAdmitted_iff (by exact hload) _ _).mpr (Or.inr ?_)⟩
  exact ⟨by decide, fun h => absurd h (by decide), ⟨py "q", rfl, by decide⟩,
    fun h => absurd h (by decide), fun v h => by cases h⟩

/-- An ask whose question and thread are numbers and whose biz_params are null
    reaches the service. -/
theorem not_wellAdmitted_numbers : ∃ topics req,
    onePluginCompiler.loadTopics .empty [agreeingConfig] ⟨.empty⟩ = .ok topics ∧
      let c : Call :=
        { inbound := .ask { w3Account := some (py "alice"), bizId := some (py "topic") }
            [(py "op", .str (py "ask")), (py "question", .int 1), (py "thread_id", .int 7),
              (py "biz_params", .null)]
          grace := 0, upto := 100 }
      (c.accepted (loadedSite topics) (Service.start 0 0).db).result = .ok (some req) ∧
        req.question = .int 1 ∧ req.threadId = .int 7 ∧ req.bizParams = .null ∧
        ¬ c.WellAdmitted (loadedSite topics) (.start 0 0) := by
  have hload : onePluginCompiler.loadTopics .empty [agreeingConfig] ⟨.empty⟩ = .ok _ := rfl
  refine ⟨_, _, hload, rfl, rfl, rfl, rfl, fun h => ?_⟩
  obtain ⟨s, hs, -⟩ := ((wellAdmitted_of_received rfl).mp h).question
  cases hs

end MasterAgent
