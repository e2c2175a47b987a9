/-
  MasterAgent.Core.Surrogates

  Where the surrogates of a downstream's frames go.  An adapter copies the data
  of a delta into its event, and the code and the text of an error frame; the
  relay replaces the text if the topic has one for the code.  All other texts
  that `handle` yields are the service's own.
-/

import MasterAgent.Core.ErrorTexts
import MasterAgent.Python.Utf8

namespace MasterAgent

open Effect StateGraph

variable {σ : Type}

-- ============================================================================
-- Values without surrogates
-- ============================================================================

namespace Json

/-- The strings and the keys of a value are texts of characters. -/
def Scalar (v : Json) : Prop := Scalars v.chars

@[simp] theorem scalar_null : Json.null.Scalar := List.forall_mem_nil _

@[simp] theorem scalar_bool (b : Bool) : (Json.bool b).Scalar := List.forall_mem_nil _

@[simp] theorem scalar_str {s : PyStr} : (Json.str s).Scalar ↔ Scalars s := Iff.rfl

@[simp] theorem scalar_obj_nil : (Json.obj []).Scalar := List.forall_mem_nil _

@[simp] theorem scalar_obj_cons {k : PyStr} {v : Json} {fields : List (PyStr × Json)} :
    (Json.obj ((k, v) :: fields)).Scalar ↔ Scalars k ∧ v.Scalar ∧ (Json.obj fields).Scalar := by
  show Scalars (k ++ (v.chars ++ fieldsChars fields)) ↔ _
  rw [scalars_append, scalars_append]
  rfl

theorem Scalar.orElse {v default : Json} (hv : v.Scalar) (hdefault : default.Scalar) :
    (v.orElse default).Scalar := by
  unfold Json.orElse
  split
  · exact hv
  · exact hdefault

end Json

/-- The id of the event, if it has one, and its data hold no surrogate. -/
structure ChatEvent.Scalar (ev : ChatEvent) : Prop where
  eventId : ∀ id, ev.eventId = some id → Scalars id
  data : ev.data.Scalar

theorem ChatEvent.Scalar.of_data {ev : ChatEvent} (hid : ev.eventId = none)
    (h : ev.data.Scalar) : ev.Scalar := by
  refine ⟨fun id hsome => ?_, h⟩
  rw [hid] at hsome
  cases hsome

theorem scalar_literal {type : EventType} {fields : List (PyStr × Json)}
    (h : (Json.obj fields).Scalar) : (literalEvent type fields).Scalar := .of_data rfl h

-- ============================================================================
-- Downstreams that show no surrogate
-- ============================================================================

/-- Where the relay shows an error frame, its code holds no surrogate, and neither
    does the text that is shown with the code. -/
def Conveyable (errorMessages : Dict PyStr PyStr) (defaultMessage : PyStr)
    (fields : List (PyStr × Json)) : Prop :=
  (codeOf fields).hashable = false ∨ (codeOf fields).Scalar ∧
    ((∃ code text, codeOf fields = .str code ∧ errorMessages.get? code = some text ∧ text ≠ []) ∨
      (messageOf defaultMessage fields).Scalar)

/-- In no attempt that is made does the response show a surrogate. -/
def Upstream.Encodable (errorMessages : Dict PyStr PyStr) (u : Upstream) : Prop :=
  ∀ k, 1 ≤ k → k ≤ maxAttempts u.retry →
    (∀ j, 1 ≤ j → j < k → u.kind.dialect.Fails (u.sent j)) →
    (∀ data, u.kind.dialect.ShowsDelta (u.sent k) data → data.Scalar) ∧
      ∀ fields, u.kind.dialect.Shows (u.sent k) fields →
        Conveyable errorMessages u.kind.dialect.defaultMessage fields

/-- An adapter before downstreams of a class, whatever the body. -/
def Before (D : Upstream → Prop) (retry : Option RetryPolicy) (a : DownstreamAdapter) : Prop :=
  ∃ (kind : AdapterKind) (down : Nat → Json → Response kind.Frame),
    a = kind.wire.adapter down ∧ ∀ body, D ⟨kind, retry, fun k => down k body⟩

-- ============================================================================
-- The service's own texts
-- ============================================================================

/-- A text in the given code points. -/
def Over (C : CodePoint → Prop) (s : PyStr) : Prop := ∀ c ∈ s, C c

/-- A request, and what its environment says about it, in the given code points. -/
structure ChatRequest.WrittenIn (C : CodePoint → Prop) (env : Env σ) (req : ChatRequest) :
    Prop where
  bizId : Over C req.bizId
  threadId : Over C req.threadId.chars
  requestId : Over C req.requestId.chars
  ulid : ∀ w, Over C (env.newUlid w).1
  detail : Over C (env.validationDetail req.bizParams)
  mismatch : ∀ w detail,
    (persistUserMessage env req w).result = .error (.sessionBizMismatch detail) → Over C detail

/-- The texts of a topic and of its plugins in the given code points. -/
structure CompiledTopic.WrittenIn (C : CodePoint → Prop) (env : Env σ) (topic : CompiledTopic) :
    Prop where
  errorMessages : ∀ code text, topic.errorMessages.get? code = some text → Over C text
  defaultRoute : Over C topic.defaultRoute
  labels : ∀ label ∈ topic.mapping.keys, Over C label
  rejectMessage : ∀ s r text, topic.auth.authorize s = .ok r → r.rejectMessage = some text →
    Over C text
  enrichMeta : ∀ s r, topic.enrich.enrich s = .ok r → Over C r.enrichMeta.chars
  reason : ∀ k s r, topic.intent.classify k s = .ok r → Over C r.reason
  unknownLabel : ∀ k s r, topic.intent.classify k s = .ok r → Over C (env.repr r.route)

section Mono

variable {C C' : CodePoint → Prop} {env : Env σ} {req : ChatRequest} {topic : CompiledTopic}
  (h : ∀ c, C c → C' c)
include h

theorem Over.mono {s : PyStr} (hs : Over C s) : Over C' s := fun c hc => h c (hs c hc)

theorem ChatRequest.WrittenIn.mono (hreq : req.WrittenIn C env) : req.WrittenIn C' env where
  bizId := hreq.bizId.mono h
  threadId := hreq.threadId.mono h
  requestId := hreq.requestId.mono h
  ulid := fun w => (hreq.ulid w).mono h
  detail := hreq.detail.mono h
  mismatch := fun w detail hd => (hreq.mismatch w detail hd).mono h

theorem CompiledTopic.WrittenIn.mono (ht : topic.WrittenIn C env) : topic.WrittenIn C' env where
  errorMessages := fun code text hget => (ht.errorMessages code text hget).mono h
  defaultRoute := ht.defaultRoute.mono h
  labels := fun label hl => (ht.labels label hl).mono h
  rejectMessage := fun s r text hr ht' => (ht.rejectMessage s r text hr ht').mono h
  enrichMeta := fun s r hr => (ht.enrichMeta s r hr).mono h
  reason := fun k s r hr => (ht.reason k s r hr).mono h
  unknownLabel := fun k s r hr => (ht.unknownLabel k s r hr).mono h

end Mono

-- ============================================================================
-- Acts that show no surrogate
-- ============================================================================

/-- The event an act yields holds no surrogate, nor does what the relay makes of
    an event the act dispatches. -/
def Clear (errorMessages : Dict PyStr PyStr) : Act → Prop
  | .emit ev => ∀ us, relay errorMessages (.emit ev) = .ok us → ∀ shown, .yield shown ∈ us →
      shown.Scalar
  | .yield ev => ev.Scalar
  | _ => True

section Clear

variable {errorMessages : Dict PyStr PyStr}

theorem Clear.relay {t : Act} {us : List Act} (h : Clear errorMessages t)
    (hrelay : relay errorMessages t = .ok us) : ∀ u ∈ us, Clear errorMessages u := by
  intro u hu
  obtain ⟨shown, rfl⟩ := (relay_yields hrelay).1 u hu
  cases t with
  | emit ev => exact h us hrelay shown hu
  | _ =>
      simp only [MasterAgent.relay, Except.ok.injEq] at hrelay
      subst hrelay
      exact (List.not_mem_nil hu).elim

/-- An event that is no error is relayed as it is. -/
theorem clear_emit {ev : ChatEvent} (htype : ev.type ≠ .error) (h : ev.data.Scalar) :
    Clear errorMessages (.emit ev) := by
  have hdata : (ev.data.orElse (.obj [])).Scalar := h.orElse Json.scalar_obj_nil
  intro us hus shown hshown
  cases hev : ev.type with
  | error => exact absurd hev htype
  | _ =>
      simp only [MasterAgent.relay, hev, Except.ok.injEq] at hus
      subst hus
      first
        | exact (List.not_mem_nil hshown).elim
        | rw [List.mem_singleton, Act.yield.injEq] at hshown
          exact hshown ▸ .of_data rfl hdata

/-- The relay drops an error event, or shows it with a text without surrogates. -/
theorem clear_adapterError {code message : Json}
    (hmessages : ∀ code text, errorMessages.get? code = some text → Scalars text)
    (h : code.hashable = true →
      code.Scalar ∧ (friendlyText errorMessages code = none → message.Scalar)) :
    Clear errorMessages (.emit (adapterError code message)) := by
  intro us hus shown hshown
  have hrelay : relay errorMessages (.emit (adapterError code message))
      = relayError errorMessages (adapterError code message).data >>= fun data =>
        (.ok [.yield { type := .error, data := data }] : Except Exn (List Act)) := rfl
  rw [hrelay, relayError_adapterError] at hus
  cases hhash : code.hashable with
  | false =>
      rw [hhash] at hus
      cases hus
  | true =>
      obtain ⟨hcode, hmessage⟩ := h hhash
      rw [hhash, if_pos rfl] at hus
      cases hus
      rw [List.mem_singleton, Act.yield.injEq] at hshown
      have htext : ((friendlyText errorMessages code).elim message .str).Scalar := by
        cases hfriendly : friendlyText errorMessages code with
        | none => exact hmessage hfriendly
        | some text =>
            obtain ⟨c, -, hget, -⟩ := friendlyText_eq_some.mp hfriendly
            exact hmessages c text hget
      rw [hshown]
      refine .of_data rfl ?_
      show (adapterError code _).data.Scalar
      simp [adapterError, literalEvent, scalars_py, hcode, htext]

end Clear

-- ============================================================================
-- Node by node
-- ============================================================================

section Nodes

variable {env : Env σ} {topic : CompiledTopic}

theorem authNode_clear (topic : CompiledTopic) (s : GraphState) :
    (makeAuthNode (NodeEnv.live σ) topic.auth s).ActsOnly (Clear topic.errorMessages) := by
  have hthinking : Clear topic.errorMessages (.emit thinkingAuth) :=
    clear_emit (by decide) (by simp [thinkingAuth, literalEvent, scalars_py])
  rw [makeAuthNode_live]
  cases topic.auth.authorize s with
  | error e =>
      refine .play fun a ha => ?_
      simp only [List.mem_cons, List.not_mem_nil, or_false] at ha
      rcases ha with rfl | rfl
      · exact hthinking
      · trivial
  | ok result =>
      refine .play fun a ha => ?_
      simp only [List.mem_cons, List.not_mem_nil, or_false] at ha
      rcases ha with rfl | rfl | rfl
      · exact hthinking
      · trivial
      · exact clear_emit (by simp [progressAuth, literalEvent])
          (by simp [progressAuth, literalEvent, scalars_py])

variable (ht : topic.WrittenIn (fun c => isSurrogate c = false) env)
include ht

/-- A rejection shows the plugin's text, or the topic's. -/
theorem scalars_rejectText {s : GraphState} {r : AuthResult} (h : topic.auth.authorize s = .ok r) :
    Scalars (rejectText topic.errorMessages (some r)) := by
  have hdefault : ∀ code, Scalars ((topic.errorMessages.get? code).getD
      ((topic.errorMessages.get? (py "INTERNAL")).getD (py "服务异常"))) := by
    intro code
    cases hcode : topic.errorMessages.get? code with
    | some text => exact ht.errorMessages code text hcode
    | none =>
        cases hinternal : topic.errorMessages.get? (py "INTERNAL") with
        | some text => exact ht.errorMessages _ text hinternal
        | none => exact scalars_py "服务异常"
  unfold rejectText
  split
  · next c text htext => exact ht.rejectMessage s r (c :: text) h htext
  · exact hdefault _

theorem rejectNode_clear {s s' : GraphState} {r : AuthResult}
    (h : topic.auth.authorize s = .ok r) (hauth : s'.auth = some r) :
    (makeRejectNode (NodeEnv.live σ) topic.errorMessages s').ActsOnly
      (Clear topic.errorMessages) := by
  rw [makeRejectNode_live, hauth]
  refine .play fun a ha => ?_
  rw [List.mem_singleton.mp ha]
  exact clear_emit (by simp [rejectDelta, literalEvent])
    (by simp [rejectDelta, literalEvent, scalars_py, scalars_rejectText ht h])

theorem enrichNode_clear (s : GraphState) :
    (makeEnrichNode (NodeEnv.live σ) topic.enrich s).ActsOnly (Clear topic.errorMessages) := by
  have hthinking : Clear topic.errorMessages (.emit thinkingEnrich) :=
    clear_emit (by decide) (by simp [thinkingEnrich, literalEvent, scalars_py])
  rw [makeEnrichNode_live]
  cases hr : topic.enrich.enrich s with
  | error e =>
      refine .play fun a ha => ?_
      simp only [List.mem_cons, List.not_mem_nil, or_false] at ha
      rcases ha with rfl | rfl
      · exact hthinking
      · trivial
  | ok result =>
      have hmeta : result.enrichMeta.Scalar := ht.enrichMeta s result hr
      refine .play fun a ha => ?_
      simp only [List.mem_cons, List.not_mem_nil, or_false] at ha
      rcases ha with rfl | rfl | rfl
      · exact hthinking
      · trivial
      · exact clear_emit (by simp [progressEnrich, literalEvent])
          (by simp [progressEnrich, literalEvent, scalars_py, hmeta])

/-- The route and the reason of an answer. -/
theorem scalars_intentAnswer {s : GraphState} {k : Nat} {r : IntentResult}
    (h : topic.intent.classify k s = .ok r) :
    Scalars (intentAnswer env.repr topic.defaultRoute topic.mapping.keys r).1 ∧
      Scalars (intentAnswer env.repr topic.defaultRoute topic.mapping.keys r).2.2 := by
  unfold intentAnswer
  split
  · next hlabel => exact ⟨ht.labels _ hlabel, ht.reason k s r h⟩
  · refine ⟨ht.defaultRoute, ?_⟩
    show Scalars (py "unknown label " ++ env.repr r.route ++ py ", fallback")
    rw [scalars_append, scalars_append]
    exact ⟨⟨scalars_py _, ht.unknownLabel k s r h⟩, scalars_py _⟩

theorem intentTrace_clear (maxAttempts backoffMs : Nat) (s : GraphState) (left attempt : Nat) :
    ∀ a ∈ (intentTrace env.repr topic.intent topic.defaultRoute topic.mapping.keys maxAttempts
      backoffMs s left attempt).1, Clear topic.errorMessages a := by
  induction left generalizing attempt with
  | zero =>
      intro a ha
      rw [List.mem_singleton.mp ha]
      exact clear_emit (by simp [intentFallback, literalEvent])
        (by simp [intentFallback, literalEvent, scalars_py,
          show Scalars topic.defaultRoute from ht.defaultRoute])
  | succ left ih =>
      intro a ha
      cases hc : topic.intent.classify attempt s with
      | ok result =>
          obtain ⟨hroute, hreason⟩ := scalars_intentAnswer ht hc
          simp only [intentTrace, hc, List.mem_cons, List.not_mem_nil, or_false] at ha
          rcases ha with rfl | rfl
          · trivial
          · exact clear_emit (by simp [intentProgress, literalEvent])
              (by simp [intentProgress, literalEvent, scalars_py, hroute, hreason])
      | error e =>
          cases he : e.isException with
          | false =>
              simp only [intentTrace, hc, he, Bool.false_eq_true, if_false,
                List.mem_singleton] at ha
              subst ha
              trivial
          | true =>
              simp only [intentTrace, hc, he, if_true, List.mem_cons, List.mem_append] at ha
              rcases ha with rfl | ha | ha
              · trivial
              · split at ha
                · rw [List.mem_singleton.mp ha]
                  trivial
                · exact (List.not_mem_nil ha).elim
              · exact ih (attempt + 1) a ha

theorem intentNode_clear (s : GraphState) :
    (topicIntentNode env topic topic.mapping s).ActsOnly (Clear topic.errorMessages) := by
  unfold topicIntentNode
  rw [makeIntentNode_live]
  refine .play fun a ha => ?_
  rcases List.mem_cons.mp ha with rfl | ha
  · exact clear_emit (by simp [thinkingIntent, literalEvent])
      (by simp [thinkingIntent, literalEvent, scalars_py])
  · exact intentTrace_clear ht _ _ s _ 1 a ha

/-- What an adapter yields after a caught exception are literals. -/
theorem caught_clear (kind : AdapterKind) (ending : StreamEnd) :
    ∀ ev ∈ (kind.dialect.wire.caught ending).1, Clear topic.errorMessages (.emit ev) := by
  have hliteral : ∀ code text : String,
      ∀ ev ∈ [adapterError (.str (py code)) (.str (py text))],
        Clear topic.errorMessages (.emit ev) := by
    intro code text ev hev
    rw [List.mem_singleton.mp hev]
    exact clear_adapterError ht.errorMessages fun _ => ⟨scalars_py code, fun _ => scalars_py text⟩
  have hnone : ∀ ev ∈ ([] : List ChatEvent), Clear topic.errorMessages (.emit ev) :=
    List.forall_mem_nil _
  cases kind with
  | knowledgeCenter =>
      cases ending with
      | closed => exact hnone
      | timeout => exact hliteral _ _
      | requestError => exact hliteral _ _
      | raised e =>
          show ∀ ev ∈ (if e.isException then _ else _ : List ChatEvent × Except Exn Unit).1, _
          split
          · exact hliteral _ _
          · exact hnone
  | _ =>
      cases ending with
      | closed => exact hnone
      | timeout => exact hliteral _ _
      | requestError => exact hliteral _ _
      | raised e => exact hnone

theorem clear_of_conveyable {defaultMessage : PyStr} {fields : List (PyStr × Json)}
    (h : Conveyable topic.errorMessages defaultMessage fields) :
    Clear topic.errorMessages
      (.emit (adapterError (codeOf fields) (messageOf defaultMessage fields))) := by
  refine clear_adapterError ht.errorMessages fun hhash => ?_
  rcases h with hnot | ⟨hcode, hfriendly | hmessage⟩
  · rw [hhash] at hnot
    cases hnot
  · obtain ⟨text, htext⟩ : ∃ text,
        friendlyText topic.errorMessages (codeOf fields) = some text := by
      obtain ⟨code, text, hstr, hget, hne⟩ := hfriendly
      exact ⟨text, friendlyText_eq_some.mpr ⟨code, hstr, hget, hne⟩⟩
    refine ⟨hcode, fun hnone => ?_⟩
    rw [htext] at hnone
    cases hnone
  · exact ⟨hcode, fun _ => hmessage⟩

theorem adapterNode_clear {D : Upstream → Prop}
    (hD : ∀ u, D u → u.Encodable topic.errorMessages) {n : PyStr} {a : DownstreamAdapter}
    (hbefore : Before D (topic.adapterRetries.get? n) a) (s : GraphState) :
    (topicAdapterNode topic n a s : Prog σ Update).ActsOnly (Clear topic.errorMessages) := by
  obtain ⟨kind, down, rfl, hdown⟩ := hbefore
  have hencodable := hD _ (hdown (requestBody s))
  have hattempt := kind.attemptTrace_eq down (maxAttempts (topic.adapterRetries.get? n)) s
  have hexhausted : Clear topic.errorMessages
      (.emit (retriesExhausted (maxAttempts (topic.adapterRetries.get? n)))) :=
    clear_adapterError ht.errorMessages fun _ => ⟨scalars_py _, fun _ => scalars_py _⟩
  rw [topicAdapterNode_live]
  refine .play (adapterTrace_acts (fun _ => trivial) trivial hexhausted
    fun k hk hmax hfailed ev hev => ?_)
  obtain ⟨hdelta, herror⟩ := hencodable k hk hmax fun j hj hj' =>
    Dialect.fails_of_trace (hattempt j ▸ hfailed j hj hj')
  rw [hattempt] at hev
  cases Dialect.trace_event hev with
  | @delta data h => exact clear_emit (by simp) (hdelta data h)
  | error h => exact clear_of_conveyable ht (herror _ h)
  | caught h => exact caught_clear ht kind _ _ h

end Nodes

-- ============================================================================
-- A request
-- ============================================================================

section Request

variable {env : Env σ} {topic : CompiledTopic} {D : Upstream → Prop}
  (ht : topic.WrittenIn (fun c => isSurrogate c = false) env)
  (hD : ∀ u, D u → u.Encodable topic.errorMessages)
  (hbefore : ∀ n a, topic.adapters.get? n = some a → Before D (topic.adapterRetries.get? n) a)

theorem persistStage_clear (env : Env σ) (topic : CompiledTopic) (s : GraphState) :
    (persistStage env s).ActsOnly (Clear topic.errorMessages) := by
  have hnode : (persistNode env s).ActsOnly (Clear topic.errorMessages) := by
    refine (persistNode_acts env s).mono fun a ha => ?_
    cases a <;> trivial
  exact .bind (visit_actsOnly trivial (fun _ => trivial) hnode) fun _ => .ret _

include ht

theorem rejectStage_clear {s s' : GraphState} {r : AuthResult}
    (h : topic.auth.authorize s = .ok r) (hauth : s'.auth = some r) :
    (rejectStage env topic s').ActsOnly (Clear topic.errorMessages) :=
  .bind (visit_actsOnly trivial (fun _ => trivial) (rejectNode_clear ht h hauth)) fun _ =>
    persistStage_clear env topic _

include hD hbefore

theorem answerStage_clear (s : GraphState) :
    (answerStage env topic s).ActsOnly (Clear topic.errorMessages) := by
  have hadapter : ∀ (routed : RoutedAdapter topic) s,
      (adapterStage env topic routed s).ActsOnly (Clear topic.errorMessages) := fun routed s =>
    .bind (visit_actsOnly trivial (fun _ => trivial)
      (adapterNode_clear ht hD (hbefore _ _ routed.isAdapter) s)) fun _ =>
        persistStage_clear env topic _
  have hintent : ∀ s, (intentStage env topic s).ActsOnly (Clear topic.errorMessages) := fun s =>
    .bind (visit_actsOnly trivial (fun _ => trivial) (intentNode_clear ht s)) fun p =>
      hadapter p.2 p.1
  exact .bind (visit_actsOnly trivial (fun _ => trivial) (enrichNode_clear ht s)) fun p =>
    hintent p.1

/-- A rejection shows what the authorisation of the run answered. -/
theorem authStage_clear (s : GraphState) :
    (authStage env topic s).ActsOnly (Clear topic.errorMessages) := by
  have hreturns : (visit langGraph (py "auth_node") (makeAuthNode (NodeEnv.live σ) topic.auth) s
      authPassed).ReturnsOnly fun p => ∃ r, topic.auth.authorize s = .ok r ∧
        p.1.auth = some r := by
    intro w p hp
    obtain ⟨u, hu, hmerge, -⟩ := visit_ok hp
    obtain ⟨r, hr, rfl⟩ := authNode_returns topic s w u hu
    refine ⟨r, hr, ?_⟩
    rw [hmerge]
    show ((authUpdate r).auth <|> s.auth) = some r
    unfold authUpdate
    split <;> rfl
  refine Eff.ActsOnly.bind_returns
    (visit_actsOnly trivial (fun _ => trivial) (authNode_clear topic s)) hreturns ?_
  rintro p ⟨r, hr, hauth⟩
  split
  · exact answerStage_clear ht hD hbefore _
  · exact rejectStage_clear ht hr hauth

theorem pipeline_clear (s : GraphState) :
    (pipeline env topic s).ActsOnly (Clear topic.errorMessages) := by
  have hnode : (loadSessionNode env topic s).ActsOnly (Clear topic.errorMessages) := by
    refine (loadSessionNode_acts env topic s).mono fun a ha => ?_
    cases a <;> trivial
  exact .bind (visit_actsOnly trivial (fun _ => trivial) hnode) fun _ =>
    authStage_clear ht hD hbefore _

end Request

section Handle

variable {env : Env σ} {req : ChatRequest}
  (hreq : req.WrittenIn (fun c => isSurrogate c = false) env)
include hreq

theorem topicNotFound_scalar : (topicNotFound req).Scalar := by
  have hbiz : Scalars (py "未配置专题：" ++ req.bizId) :=
    scalars_append.mpr ⟨scalars_py _, hreq.bizId⟩
  have hid : req.requestId.Scalar := hreq.requestId
  exact scalar_literal (by simp [scalars_py, hbiz, hid])

theorem invalidParams_scalar : (invalidParams env req).Scalar := by
  have hdetail : Scalars (env.validationDetail req.bizParams) := hreq.detail
  have hid : req.requestId.Scalar := hreq.requestId
  exact scalar_literal (by simp [scalars_py, hdetail, hid])

theorem threadBound_scalar {detail : PyStr} (hdetail : Scalars detail) :
    (threadBound req detail).Scalar := by
  have hid : req.requestId.Scalar := hreq.requestId
  exact scalar_literal (by simp [scalars_py, hdetail, hid])

theorem internalError_scalar {topic : CompiledTopic}
    (ht : topic.WrittenIn (fun c => isSurrogate c = false) env) :
    (internalError req topic).Scalar := by
  have hid : req.requestId.Scalar := hreq.requestId
  have htext : Scalars ((topic.errorMessages.get? (py "INTERNAL")).getD (py "服务异常")) := by
    cases hget : topic.errorMessages.get? (py "INTERNAL") with
    | none => exact scalars_py _
    | some text => exact ht.errorMessages _ text hget
  exact scalar_literal (by simp [scalars_py, htext, hid])

theorem metaEvent_scalar {messageId : PyStr} (h : Scalars messageId) :
    (metaEvent req messageId).Scalar := by
  have hbiz : Scalars req.bizId := hreq.bizId
  have hthread : req.threadId.Scalar := hreq.threadId
  have hid : req.requestId.Scalar := hreq.requestId
  exact scalar_literal (by simp [scalars_py, h, hbiz, hthread, hid])

theorem assistantId_scalars (w : σ) : Scalars (assistantId env w) :=
  scalars_append.mpr ⟨scalars_py _, hreq.ulid w⟩

omit hreq in
theorem doneFailed_scalar : doneFailed.Scalar := scalar_literal (by simp [scalars_py])

omit hreq in
theorem doneComplete_scalar {messageId : PyStr} (h : Scalars messageId) :
    (doneComplete messageId).Scalar := scalar_literal (by simp [scalars_py, h])

/-- What a request does once its question is stored or not. -/
theorem afterUser_clear {topic : CompiledTopic} {D : Upstream → Prop}
    (ht : topic.WrittenIn (fun c => isSurrogate c = false) env)
    (hD : ∀ u, D u → u.Encodable topic.errorMessages)
    (hbefore : ∀ n a, topic.adapters.get? n = some a → Before D (topic.adapterRetries.get? n) a)
    {messageId : PyStr} (hid : Scalars messageId) {r : Except Exn Unit}
    (hr : ∀ detail, r = .error (.sessionBizMismatch detail) → Scalars detail) :
    (afterUser env topic req messageId r).ActsOnly (Clear topic.errorMessages) := by
  cases r with
  | ok u =>
      exact afterUser_acts (pipeline_clear ht hD hbefore _) (fun _ _ ht' hus => ht'.relay hus)
        (internalError_scalar hreq ht) (doneComplete_scalar hid) u
  | error e =>
      cases e with
      | sessionBizMismatch detail =>
          exact .bind (.act (threadBound_scalar hreq (hr detail rfl))) fun _ =>
            .act doneFailed_scalar
      | _ => exact fun _ _ ha => (List.not_mem_nil ha).elim

/-- Where the service's own texts and those its downstreams show hold no
    surrogate, no event does. -/
theorem handle_scalar {topics : TopicRegistry} {D : Upstream → Prop}
    (htopics : ∀ topic, topics.get req.bizId = some topic →
      topic.WrittenIn (fun c => isSurrogate c = false) env ∧
        (∀ u, D u → u.Encodable topic.errorMessages) ∧
        ∀ n a, topic.adapters.get? n = some a → Before D (topic.adapterRetries.get? n) a)
    (w : σ) : ∀ ev ∈ word Act.yielded (handle env topics req w).trace, ev.Scalar := by
  intro ev hev
  have ha := mem_yielded.mp hev
  cases ht : topics.get req.bizId with
  | none =>
      rw [handle_unknown ht, Eff.play_trace] at ha
      simp only [List.mem_cons, List.not_mem_nil, or_false, Act.yield.injEq] at ha
      rcases ha with rfl | rfl
      · exact topicNotFound_scalar hreq
      · exact doneFailed_scalar
  | some topic =>
      obtain ⟨hown, hD, hbefore⟩ := htopics topic ht
      cases hacc : topic.bizParamsModel.accepts req.bizParams with
      | false =>
          rw [handle_invalid ht hacc, Eff.play_trace] at ha
          simp only [List.mem_cons, List.not_mem_nil, or_false, Act.yield.injEq] at ha
          rcases ha with rfl | rfl
          · exact invalidParams_scalar hreq
          · exact doneFailed_scalar
      | true =>
          have hid := assistantId_scalars hreq w
          rw [handle_accepted ht hacc, handleAccepted_run, Run.trace, Run.after, List.map_append,
            List.map_cons, List.cons_append, List.mem_cons, List.mem_append] at ha
          rcases ha with heq | ha | ha
          · rw [Act.yield.inj heq]
            exact metaEvent_scalar hreq hid
          · have huser : UserAct req (.yield ev) := persistUserMessage_acts env req _ _ ha
            exact huser.elim
          · have hclear : Clear topic.errorMessages (.yield ev) :=
              afterUser_clear hreq hown hD hbefore hid (hreq.mismatch _) _ _ ha
            exact hclear

end Handle

-- ============================================================================
-- Surrogates that are shown
-- ============================================================================

section Probed

variable {errorMessages : Dict PyStr PyStr} {u : Upstream} {k : Nat}

/-- The probe shows a delta of an attempt that is made. -/
theorem probe_shows_delta {data : Json} (hk : 1 ≤ k) (hmax : k ≤ maxAttempts u.retry)
    (hfails : ∀ j, 1 ≤ j → j < k → u.kind.dialect.Fails (u.sent j))
    (hshows : u.kind.dialect.ShowsDelta (u.sent k) data) :
    { type := .delta, data := data.orElse (.obj []) } ∈ word Act.yielded
      (handle probeEnv (oneTopic (u.probe errorMessages)) (aliceAsks (py "th")) ()).trace := by
  have hemit : Act.emit { type := .delta, data := data } ∈
      ((u.probe errorMessages).adapterTrace (py "kc_adapter")
        (u.kind.wire.adapter fun k _ => u.sent k) probeState).1 :=
    mem_probe_adapterTrace hk hmax hfails (Dialect.trace_of_showsDelta _ hshows)
  exact mem_probe_of_relayed errorMessages _ _
    (mem_relayed_of_delta (mem_probe_pipeline errorMessages _ _ hemit) rfl)

/-- A delta has a content, so its data are shown. -/
theorem Dialect.ShowsDelta.orElse {φ : Type} {d : Dialect φ} {r : Response φ} {data : Json}
    (h : d.ShowsDelta r data) : data.orElse (.obj []) = data := by
  obtain ⟨pre, f, post, ev, content, -, -, -, -, hcontent, rfl⟩ := h
  have htruthy : ev.data.truthy = true := by
    cases hdata : ev.data with
    | obj fields =>
        cases fields with
        | nil => simp [hdata, Json.getItem, Json.field] at hcontent
        | cons e fields => rfl
    | _ => simp [hdata, Json.getItem] at hcontent
  exact if_pos htruthy

/-- If no event of the probe holds a surrogate, its downstream shows none. -/
theorem encodable_of_probe
    (h : ∀ ev ∈ word Act.yielded (handle probeEnv (oneTopic (u.probe errorMessages))
      (aliceAsks (py "th")) ()).trace, ev.data.Scalar) : u.Encodable errorMessages := by
  intro k hk hmax hfails
  refine ⟨fun data hshows => ?_, fun fields hshows => ?_⟩
  · have hdata := h _ (probe_shows_delta hk hmax hfails hshows)
    rw [hshows.orElse] at hdata
    exact hdata
  · by_cases hhash : (codeOf fields).hashable = true
    · have hdata := h _ (probe_shows hk hmax hfails hshows hhash)
      simp only [adapterError, literalEvent, Json.scalar_obj_cons] at hdata
      obtain ⟨-, hcode, -, hmessage, -⟩ := hdata
      refine Or.inr ⟨hcode, ?_⟩
      cases hfriendly : friendlyText errorMessages (codeOf fields) with
      | none =>
          rw [hfriendly] at hmessage
          exact Or.inr hmessage
      | some text =>
          obtain ⟨c, hc, hget, hne⟩ := friendlyText_eq_some.mp hfriendly
          exact Or.inl ⟨c, text, hc, hget, hne⟩
    · exact Or.inl (Bool.eq_false_iff.mpr hhash)

end Probed

section Alphabet

variable {C : CodePoint → Prop} (hC : ∀ c : CodePoint, c.val < 0x80 → C c)
include hC

theorem over_of_ascii {s : PyStr} (h : Json.Ascii s) : Over C s := fun c hc => hC c (h c hc).2

/-- The request of the probe is written in ASCII. -/
theorem aliceAsks_writtenIn {bizId : PyStr} (h : Over C bizId) :
    ({ aliceAsks (py "th") with bizId := bizId } : ChatRequest).WrittenIn C probeEnv where
  bizId := h
  threadId := over_of_ascii hC (Json.ascii_of_all rfl)
  requestId := over_of_ascii hC (Json.ascii_of_all rfl)
  ulid := fun _ => over_of_ascii hC (Json.ascii_of_all rfl)
  detail := over_of_ascii hC (Json.ascii_of_all rfl)
  mismatch := by
    intro w detail hd
    cases hd

theorem probe_writtenIn {errorMessages : Dict PyStr PyStr}
    (hmessages : ∀ code text, errorMessages.get? code = some text → Over C text) (u : Upstream) :
    (u.probe errorMessages).WrittenIn C probeEnv where
  errorMessages := hmessages
  defaultRoute := over_of_ascii hC (Json.ascii_of_all rfl)
  labels := by
    intro label hlabel
    have hlabels : (u.probe errorMessages).mapping.keys = [py "kc"] := rfl
    rw [hlabels, List.mem_singleton] at hlabel
    rw [hlabel]
    exact over_of_ascii hC (Json.ascii_of_all rfl)
  rejectMessage := by
    intro s r text hr htext
    cases hr
    cases htext
  enrichMeta := by
    intro s r hr
    cases hr
    exact List.forall_mem_nil _
  reason := by
    intro k s r hr
    cases hr
    exact List.forall_mem_nil _
  unknownLabel := by
    intro k s r hr
    cases hr
    exact over_of_ascii hC (Json.ascii_of_all rfl)

end Alphabet

end MasterAgent
