/-
  MasterAgent.Api.Ws

  `/api/v1/chat/ws` (`ma/api/ws.py`): the context a connection takes from its
  query parameters and headers, and the request `_handle_ask` makes of an ask
  frame.  A frame is any JSON object; absent and empty fields get defaults.
-/

import MasterAgent.Api.Sse

namespace MasterAgent

open Effect

variable {σ : Type}

/-- The query parameters and headers a connection is opened with. -/
structure WsConnect where
  w3Account : Option PyStr := none
  bizId : Option PyStr := none
  userRole : Option PyStr := none
  userClaims : Option PyStr := none

/-- What the connection keeps of them. -/
structure WsContext where
  bizId : PyStr
  w3Account : PyStr
  identity : AuthnIdentity

/-- The claims of the X-User-Claims header; one that is no JSON object is
    ignored. -/
def wsClaims (loads : JsonLoads) : Option PyStr → List (PyStr × Json)
  | some (c :: text) => match loads (c :: text) with
      | .ok (.obj claims) => claims
      | _ => []
  | _ => []

/-- The context of a connection, from `w3_account` (or `anonymous`), `biz_id`
    and the headers. -/
def WsConnect.context (loads : JsonLoads) (conn : WsConnect) : WsContext where
  bizId := conn.bizId.getD []
  w3Account := conn.w3Account.getD (py "anonymous")
  identity :=
    { w3Account := conn.w3Account.getD (py "anonymous")
      rawClaims := rawClaims (conn.userRole.getD (py "REP")) (wsClaims loads conn.userClaims) }

/-- `chat_ws` up to `ready`; a failure is the reason the connection is closed
    with. -/
def openWs (loads : JsonLoads) (hasService : Bool) (topics : TopicRegistry) (conn : WsConnect) :
    Except PyStr WsContext :=
  if !hasService then .error (py "DB not configured")
  else match topics.get (conn.context loads).bizId with
    | none => .error (py "unknown biz_id: " ++ (conn.context loads).bizId)
    | some _ => .ok (conn.context loads)

/-- `frame.get(k)`, with `None` for an absent key. -/
def frameGet (frame : List (PyStr × Json)) (k : PyStr) : Json := (Json.field k frame).getD .null

/-- The request `_handle_ask` makes of a frame. -/
def WsContext.askRequest (ctx : WsContext) (frame : List (PyStr × Json)) (requestId : Json) :
    ChatRequest where
  bizId := ctx.bizId
  threadId := (frameGet frame (py "thread_id")).orElse (.str (py "unknown"))
  w3Account := ctx.w3Account
  question := (Json.field (py "question") frame).getD (.str [])
  requestId := requestId
  bizParams := (Json.field (py "biz_params") frame).getD (.obj [])
  identity := some ctx.identity

/-- `frame.get("request_id") or _new_request_id()`. -/
def askRequestId (env : Env σ) (frame : List (PyStr × Json)) : Prog σ Json :=
  if (frameGet frame (py "request_id")).truthy then return frameGet frame (py "request_id")
  else do
    let rid ← newRequestId env
    return .str rid

/-- An open connection is about a registered topic, under the account it was
    opened with. -/
theorem openWs_accepts {loads : JsonLoads} {hasService : Bool} {topics : TopicRegistry}
    {conn : WsConnect} {ctx : WsContext} (h : openWs loads hasService topics conn = .ok ctx) :
    hasService = true ∧ (∃ topic, topics.get ctx.bizId = some topic) ∧
      ctx = conn.context loads := by
  unfold openWs at h
  cases hservice : hasService with
  | false =>
      rw [hservice] at h
      cases h
  | true =>
      simp only [hservice, Bool.not_true, Bool.false_eq_true, if_false] at h
      cases htopic : topics.get (conn.context loads).bizId with
      | none =>
          rw [htopic] at h
          cases h
      | some topic =>
          rw [htopic] at h
          cases h
          exact ⟨rfl, ⟨topic, htopic⟩, rfl⟩

theorem WsConnect.askRequest_ownName (loads : JsonLoads) (conn : WsConnect)
    (frame : List (PyStr × Json)) (requestId : Json) :
    ((conn.context loads).askRequest frame requestId).OwnName := rfl

end MasterAgent
