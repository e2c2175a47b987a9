/-
  MasterAgent.Core.Graph.State

  `ChatEvent` (`ma/core/graph/events.py`), the result records of the plugins
  (`ma/core/plugin/base.py`) and `GraphState` (`ma/core/graph/state.py`), the
  dictionary all graph nodes share.  A node returns a partial update, which the
  graph merges: a key it names is overwritten, except `answer_chunks`, whose
  reducer appends.
-/

import MasterAgent.Core.Repo.Models

namespace MasterAgent

-- ============================================================================
-- Events
-- ============================================================================

inductive EventType where
  | «meta»
  | thinking
  | progress
  | delta
  | tool
  | error
  | done
deriving DecidableEq

structure ChatEvent where
  type : EventType
  data : Json
  eventId : Option PyStr := none

-- ============================================================================
-- Plugin results
-- ============================================================================

structure AuthResult where
  passed : Bool
  rejectCode : Option PyStr := none
  rejectMessage : Option PyStr := none
  userCtx : Option Json := none

structure EnrichResult where
  enrichedQuestion : PyStr
  enrichMeta : Json := .obj []

structure IntentResult where
  route : PyStr
  confidence : PyFloat
  reason : PyStr := []

-- ============================================================================
-- The shared state
-- ============================================================================

structure AuthnIdentity where
  w3Account : PyStr
  rawClaims : List (PyStr × Json) := []

/-- The keys of `GraphState` that some node reads or writes.  A key that is not
    in the dictionary yet is `none`; `answer_chunks` starts empty. -/
structure GraphState where
  requestId : Json
  bizId : PyStr
  threadId : Json
  identity : Option AuthnIdentity
  question : Json
  bizParams : Json
  assistantMessageId : PyStr
  history : Option (List Message) := none
  userCtx : Option Json := none
  auth : Option AuthResult := none
  enrichedQuestion : Option PyStr := none
  enrichMeta : Option Json := none
  route : Option PyStr := none
  routeConfidence : Option PyFloat := none
  routeReason : Option PyStr := none
  answerChunks : List Json := []
  streamCancelled : Bool := false

/-- `state.get("enriched_question") or state.get("question", "")`. -/
def GraphState.asked (s : GraphState) : Json :=
  match s.enrichedQuestion with
  | some (c :: text) => .str (c :: text)
  | _ => s.question

/-- All keys of the `GraphState` TypedDict. -/
def graphStateKeys : List PyStr :=
  [py "request_id", py "biz_id", py "thread_id", py "identity", py "question",
    py "biz_params", py "history", py "user_ctx", py "auth", py "enriched_question",
    py "enrich_meta", py "route", py "route_confidence", py "route_reason",
    py "answer_chunks", py "answer_meta", py "errors", py "user_message_id",
    py "assistant_message_id", py "stream_cancelled"]

/-- What a node returns: the keys it writes. -/
structure Update where
  history : Option (List Message) := none
  userCtx : Option Json := none
  auth : Option AuthResult := none
  enrichedQuestion : Option PyStr := none
  enrichMeta : Option Json := none
  route : Option PyStr := none
  routeConfidence : Option PyFloat := none
  routeReason : Option PyStr := none
  answerChunks : List Json := []
  streamCancelled : Option Bool := none

/-- Merge a node's update into the state. -/
def GraphState.merge (s : GraphState) (u : Update) : GraphState :=
  { s with
    history := u.history <|> s.history
    userCtx := u.userCtx <|> s.userCtx
    auth := u.auth <|> s.auth
    enrichedQuestion := u.enrichedQuestion <|> s.enrichedQuestion
    enrichMeta := u.enrichMeta <|> s.enrichMeta
    route := u.route <|> s.route
    routeConfidence := u.routeConfidence <|> s.routeConfidence
    routeReason := u.routeReason <|> s.routeReason
    answerChunks := s.answerChunks ++ u.answerChunks
    streamCancelled := u.streamCancelled.getD s.streamCancelled }

namespace GraphState

variable (s : GraphState) (u : Update)

@[simp] theorem merge_requestId : (s.merge u).requestId = s.requestId := rfl
@[simp] theorem merge_bizId : (s.merge u).bizId = s.bizId := rfl
@[simp] theorem merge_threadId : (s.merge u).threadId = s.threadId := rfl
@[simp] theorem merge_identity : (s.merge u).identity = s.identity := rfl
@[simp] theorem merge_assistantMessageId :
    (s.merge u).assistantMessageId = s.assistantMessageId := rfl
@[simp] theorem merge_answerChunks :
    (s.merge u).answerChunks = s.answerChunks ++ u.answerChunks := rfl
@[simp] theorem merge_auth : (s.merge u).auth = (u.auth <|> s.auth) := rfl
@[simp] theorem merge_route : (s.merge u).route = (u.route <|> s.route) := rfl

end GraphState

end MasterAgent
