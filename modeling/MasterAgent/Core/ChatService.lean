/-
  MasterAgent.Core.ChatService

  `ChatService` (`ma/core/chat_service.py`): a request is looked up, validated,
  announced and stored, its topic's graph is declared, run and relayed event by
  event, and a done event closes the stream.
-/

import MasterAgent.Core.Graph.Builtins
import MasterAgent.Core.Topic.Registry
import MasterAgent.Lib.Consume
import MasterAgent.Lib.StateGraph

namespace MasterAgent

open Effect StateGraph

variable {σ : Type}

/-- A graph over `GraphState`. -/
abbrev ChatGraph (σ : Type) : Type := Decl PyStr σ Exn Act GraphState Update

/-- What a request meets beside its topic: the repositories, the graph engine,
    the supply of ULIDs, two texts of the libraries (the detail of a validation
    error and `repr` of a string), and how many acts of an abandoned graph run
    still happen before the event loop cancels it. -/
structure Env (σ : Type) where
  repos : Repos σ
  engine : Engine PyStr σ Exn Act GraphState Update graphStateKeys
  newUlid : σ → PyStr × σ
  validationDetail : Json → PyStr
  repr : PyStr → PyStr
  grace : Nat

structure ChatRequest where
  bizId : PyStr
  threadId : Json
  w3Account : PyStr
  question : Json
  requestId : Json
  bizParams : Json := .obj []
  identity : Option AuthnIdentity := none

-- ============================================================================
-- The graph
-- ============================================================================

/-- `f"msg_{ulid.new()!s}"`. -/
def newMessageId (env : Env σ) : Prog σ PyStr := do
  let u ← Eff.draw env.newUlid
  return py "msg_" ++ u

/-- LangGraph over `GraphState`. -/
def langGraph : Semantics PyStr Exn Act GraphState Update where
  merge := GraphState.merge
  enter := .enter
  write := .write
  missingLabel := .keyError
  missingNode := .valueError
  limitReached := .other (py "GraphRecursionError")

/-- The default recursion limit. -/
def recursionLimit : Nat := 25

/-- `lambda s: "reject" if not s["auth"].passed else "enrich"`. -/
def authPath (s : GraphState) : Except Exn PyStr :=
  match s.auth with
  | none => .error .keyError
  | some auth => if !auth.passed then .ok (py "reject") else .ok (py "enrich")

/-- `{"reject": "reject_node", "enrich": "enrich_node"}`. -/
def authEnds : Dict PyStr PyStr where
  entries := [(py "reject", py "reject_node"), (py "enrich", py "enrich_node")]
  nodup := by decide

/-- `load_session_node`: the built-in node on a connection of its own. -/
def loadSessionNode (env : Env σ) (topic : CompiledTopic) : NodeFn σ := fun state =>
  env.repos.withConn (makeLoadSessionNode env.repos topic.history.maxTurns state)

/-- `persist_node`: the built-in node on a connection of its own. -/
def persistNode (env : Env σ) : NodeFn σ := fun state =>
  env.repos.withConn (makePersistNode env.repos state)

/-- The intent node of a topic; the labels are the keys of the mapping. -/
def topicIntentNode (env : Env σ) (topic : CompiledTopic) (mapping : Dict PyStr PyStr) :
    NodeFn σ :=
  makeIntentNode (.live σ) env.repr topic.intent topic.defaultRoute mapping.keys
    topic.intentRetry

/-- An adapter node of a topic. -/
def topicAdapterNode (topic : CompiledTopic) (nodeId : PyStr) (adapter : DownstreamAdapter) :
    NodeFn σ :=
  makeAdapterNode (.live σ) adapter true (topic.adapterRetries.get? nodeId)

/-- The nodes and edges `_build_graph` declares, given the mapping of the first
    conditional edge. -/
def graphDecl (env : Env σ) (topic : CompiledTopic) (mapping : Dict PyStr PyStr) :
    ChatGraph σ where
  nodes :=
    [(py "load_session", loadSessionNode env topic),
      (py "auth_node", makeAuthNode (.live σ) topic.auth),
      (py "reject_node", makeRejectNode (.live σ) topic.errorMessages),
      (py "enrich_node", makeEnrichNode (.live σ) topic.enrich),
      (py "intent_node", topicIntentNode env topic mapping)] ++
    topic.adapters.entries.map (fun a => (a.1, topicAdapterNode topic a.1 a.2)) ++
    [(py "persist_node", persistNode env)]
  entry := py "load_session"
  edges :=
    [(py "load_session", .node (py "auth_node")),
      (py "enrich_node", .node (py "intent_node"))] ++
    topic.adapters.keys.map (fun n => (n, .node (py "persist_node"))) ++
    [(py "reject_node", .node (py "persist_node")), (py "persist_node", .finish)]
  branches :=
    [(py "auth_node", ⟨authPath, authEnds⟩),
      (py "intent_node",
        ⟨fun s => .ok (s.route.getD topic.defaultRoute), mapping⟩)]

/-- `_build_graph`. -/
def buildGraph (env : Env σ) (topic : CompiledTopic) : Except Exn (ChatGraph σ) :=
  match topic.graph.edges with
  | [] => .error .indexError
  | edge :: _ =>
      let g := graphDecl env topic edge.mapping
      if env.engine.compiles g then .ok g else .error .valueError

-- ============================================================================
-- The events
-- ============================================================================

/-- An error event of the service itself. -/
def serviceError (req : ChatRequest) (code message : PyStr) (detail : List (PyStr × Json)) :
    ChatEvent :=
  literalEvent .error
    ([(py "code", .str code), (py "message", .str message), (py "retryable", .bool false)] ++
      detail ++ [(py "request_id", req.requestId)])

def topicNotFound (req : ChatRequest) : ChatEvent :=
  serviceError req (py "TOPIC_NOT_FOUND") (py "未配置专题：" ++ req.bizId) []

def invalidParams (env : Env σ) (req : ChatRequest) : ChatEvent :=
  serviceError req (py "BAD_REQUEST") (py "请求参数不合法")
    [(py "detail", .str (env.validationDetail req.bizParams))]

def threadBound (req : ChatRequest) (detail : PyStr) : ChatEvent :=
  serviceError req (py "BAD_REQUEST") (py "thread_id 已绑定到其它专题，无法跨专题复用")
    [(py "detail", .str detail)]

def internalError (req : ChatRequest) (topic : CompiledTopic) : ChatEvent :=
  serviceError req (py "INTERNAL")
    ((topic.errorMessages.get? (py "INTERNAL")).getD (py "服务异常")) []

def metaEvent (req : ChatRequest) (messageId : PyStr) : ChatEvent :=
  literalEvent .meta
    [(py "thread_id", req.threadId), (py "request_id", req.requestId),
      (py "message_id", .str messageId), (py "topic", .str req.bizId)]

def doneFailed : ChatEvent := literalEvent .done [(py "status", .str (py "failed"))]

def doneComplete (messageId : PyStr) : ChatEvent :=
  literalEvent .done
    [(py "message_id", .str messageId), (py "status", .str (py "complete"))]

section Types

variable (env : Env σ) (req : ChatRequest)

@[simp] theorem topicNotFound_type : (topicNotFound req).type = .error := rfl

@[simp] theorem invalidParams_type : (invalidParams env req).type = .error := rfl

@[simp] theorem threadBound_type (detail : PyStr) : (threadBound req detail).type = .error := rfl

@[simp] theorem internalError_type (topic : CompiledTopic) :
    (internalError req topic).type = .error := rfl

@[simp] theorem metaEvent_type (messageId : PyStr) : (metaEvent req messageId).type = .meta := rfl

@[simp] theorem doneFailed_type : doneFailed.type = .done := rfl

@[simp] theorem doneComplete_type (messageId : PyStr) : (doneComplete messageId).type = .done := rfl

end Types

/-- The data of a relayed error: the topic's own message replaces the event's. -/
def relayError (errorMessages : Dict PyStr PyStr) (data : Json) : Except Exn Json := do
  let data := data.orElse (.obj [])
  let code ← data.getD (py "code") (.str (py "INTERNAL"))
  -- looking an unhashable code up raises
  if !code.hashable then .error .typeError
  else match code with
    | .str code => match errorMessages.get? code with
        | some (c :: friendly) => data.setItem (py "message") (.str (c :: friendly))
        | _ => .ok data
    | _ => .ok data

/-- What the loop over `astream_events` does at an act of the graph. -/
def relay (errorMessages : Dict PyStr PyStr) : Act → Except Exn (List Act)
  | .emit ev => match ev.type with
      | .error => do
          let data ← relayError errorMessages ev.data
          return [.yield { type := .error, data := data }]
      | .thinking => .ok [.yield { type := .thinking, data := ev.data.orElse (.obj []) }]
      | .progress => .ok [.yield { type := .progress, data := ev.data.orElse (.obj []) }]
      | .delta => .ok [.yield { type := .delta, data := ev.data.orElse (.obj []) }]
      | .tool => .ok [.yield { type := .tool, data := ev.data.orElse (.obj []) }]
      | _ => .ok []
  | _ => .ok []

/-- An error event the loop does not fail at is answered with an error event. -/
theorem relay_errorEvent {errorMessages : Dict PyStr PyStr} {ev : ChatEvent} {out : List Act}
    (htype : ev.type = .error) :
    relay errorMessages (.emit ev) = .ok out ↔
      ∃ data, relayError errorMessages ev.data = .ok data ∧
        out = [.yield { type := .error, data := data }] := by
  simp only [relay, htype]
  constructor
  · intro h
    obtain ⟨data, hdata, h⟩ := exists_of_bind_eq_ok h
    cases h
    exact ⟨data, hdata, rfl⟩
  · rintro ⟨data, hdata, rfl⟩
    rw [hdata]
    rfl

/-- What the relay yields answers an event of the same type, which is none that the
    service yields on its own. -/
theorem relay_mem {errorMessages : Dict PyStr PyStr} {a o : Act} {out : List Act}
    (h : relay errorMessages a = .ok out) (ho : o ∈ out) :
    ∃ ev data, a = .emit ev ∧ ev.type ≠ .meta ∧ ev.type ≠ .done ∧
      o = .yield { type := ev.type, data := data } := by
  cases a with
  | emit ev =>
      cases htype : ev.type with
      | error =>
          obtain ⟨data, -, rfl⟩ := (relay_errorEvent htype).mp h
          exact ⟨ev, data, rfl, by simp [htype], by simp [htype], htype ▸ List.mem_singleton.mp ho⟩
      | «meta» | done =>
          simp only [relay, htype, Except.ok.injEq] at h
          subst h
          exact (List.not_mem_nil ho).elim
      | _ =>
          simp only [relay, htype, Except.ok.injEq] at h
          subst h
          exact ⟨ev, _, rfl, by simp [htype], by simp [htype], htype ▸ List.mem_singleton.mp ho⟩
  | _ =>
      simp only [relay, Except.ok.injEq] at h
      subst h
      exact (List.not_mem_nil ho).elim

-- ============================================================================
-- handle
-- ============================================================================

/-- The user message of a request. -/
def userMessage (req : ChatRequest) (messageId : PyStr) : Message where
  messageId := messageId
  threadId := req.threadId
  seq := 0
  role := py "user"
  content := req.question
  requestId := req.requestId
  status := py "complete"

/-- `_persist_user_message`. -/
def persistUserMessage (env : Env σ) (req : ChatRequest) : Prog σ Unit :=
  env.repos.withConn do
    let _ ← env.repos.callGetOrCreate req.threadId req.bizId req.w3Account
    let messageId ← newMessageId env
    env.repos.callAppend (userMessage req messageId)

/-- The identity a request runs under. -/
def ChatRequest.who (req : ChatRequest) : AuthnIdentity :=
  req.identity.getD { w3Account := req.w3Account }

/-- The state the graph starts from. -/
def initialState (req : ChatRequest) (assistantMessageId : PyStr) : GraphState where
  requestId := req.requestId
  bizId := req.bizId
  threadId := req.threadId
  identity := some req.who
  question := req.question
  bizParams := req.bizParams
  assistantMessageId := assistantMessageId

/-- The loop over the graph's events, with its `except Exception`.  Each event is
    yielded before the next act of the graph; on the event loop the graph may be
    ahead of it (`Streaming`). -/
def chatLoop (env : Env σ) (topic : CompiledTopic) (req : ChatRequest) (graph : ChatGraph σ)
    (assistantMessageId : PyStr) : Prog σ Unit := do
  let r ← Eff.attempt (Eff.consume (relay topic.errorMessages) env.grace
    (graph.run langGraph recursionLimit (initialState req assistantMessageId)))
  match r with
  | .ok () => pure ()
  | .error e =>
      if e.isException then Eff.act (.yield (internalError req topic))
      else Eff.raise e

/-- The request is accepted: announce it, store the question, run the graph. -/
def handleAccepted (env : Env σ) (topic : CompiledTopic) (req : ChatRequest) :
    Prog σ Unit := do
  let assistantMessageId ← newMessageId env
  Eff.act (.yield (metaEvent req assistantMessageId))
  match ← Eff.attempt (persistUserMessage env req) with
  | .error (.sessionBizMismatch detail) =>
      Eff.act (.yield (threadBound req detail))
      Eff.act (.yield doneFailed)
  | .error e => Eff.raise e
  | .ok () =>
      let graph ← Eff.ofExcept (buildGraph env topic)
      chatLoop env topic req graph assistantMessageId
      Eff.act (.yield (doneComplete assistantMessageId))

/-- `ChatService.handle`, iterated to exhaustion. -/
def handle (env : Env σ) (topics : TopicRegistry) (req : ChatRequest) : Prog σ Unit :=
  match topics.get req.bizId with
  | none => do
      Eff.act (.yield (topicNotFound req))
      Eff.act (.yield doneFailed)
  | some topic =>
      if topic.bizParamsModel.accepts req.bizParams then handleAccepted env topic req
      else do
        Eff.act (.yield (invalidParams env req))
        Eff.act (.yield doneFailed)

end MasterAgent
