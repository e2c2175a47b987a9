/-
  MasterAgent.Api.Sse

  `POST /api/v1/chat/sse` (`ma/api/sse.py`) up to the call of `ChatService`: the
  validated body, the header checks with the HTTP errors they raise, and the
  request handed on.
-/

import MasterAgent.Core.ChatService
import MasterAgent.Python.Utf8

namespace MasterAgent

open Effect

variable {σ : Type}

-- ============================================================================
-- What both transports do
-- ============================================================================

/-- `json.loads`; a failure is the text of the `ValueError`. -/
abbrev JsonLoads : Type := PyStr → Except PyStr Json

/-- `f"req_{ulid.new()!s}"`. -/
def newRequestId (env : Env σ) : Prog σ PyStr := do
  let u ← Eff.draw env.newUlid
  return py "req_" ++ u

/-- `{"role": role, **extra_claims}`. -/
def rawClaims (role : PyStr) (extraClaims : List (PyStr × Json)) : List (PyStr × Json) :=
  extraClaims.foldl (fun claims c => Json.setField c.1 c.2 claims) [(py "role", .str role)]

/-- A request runs under the account it names. -/
def ChatRequest.OwnName (req : ChatRequest) : Prop := req.who.w3Account = req.w3Account

-- ============================================================================
-- The body
-- ============================================================================

/-- What pydantic takes for a `str` with `min_length=1`: a text that is not empty
    and, as its characters are counted, holds no lone surrogate (`string_unicode`). -/
structure RequiredText where
  text : PyStr
  ne_nil : text ≠ []
  scalars : Scalars text

/-- `ChatBody`, with the constraints of its fields. -/
structure ChatBody where
  bizId : RequiredText
  threadId : RequiredText
  w3Account : RequiredText
  question : RequiredText
  bizParams : List (PyStr × Json)

/-- A required field of `ChatBody`. -/
def requiredText (k : PyStr) (fields : List (PyStr × Json)) : Option RequiredText :=
  match Json.field k fields with
  | some (.str s) => if h : s ≠ [] ∧ Scalars s then some ⟨s, h.1, h.2⟩ else none
  | _ => none

/-- The `biz_params` field: an object, empty when absent. -/
def bizParamsField (fields : List (PyStr × Json)) : Option (List (PyStr × Json)) :=
  match Json.field (py "biz_params") fields with
  | none => some []
  | some (.obj params) => some params
  | some _ => none

/-- `ChatBody.model_validate` of a decoded body. -/
def ChatBody.validate : Json → Option ChatBody
  | .obj fields => do
      let bizId ← requiredText (py "biz_id") fields
      let threadId ← requiredText (py "thread_id") fields
      let w3Account ← requiredText (py "w3_account") fields
      let question ← requiredText (py "question") fields
      let bizParams ← bizParamsField fields
      return ⟨bizId, threadId, w3Account, question, bizParams⟩
  | _ => none

-- ============================================================================
-- The endpoint
-- ============================================================================

/-- The optional headers of a request. -/
structure SseHeaders where
  requestId : Option PyStr := none
  userAccount : Option PyStr := none
  userRole : Option PyStr := none
  userClaims : Option PyStr := none

structure HttpException where
  statusCode : Nat
  detail : PyStr

/-- `x or default` of an optional header. -/
def headerOr (header : Option PyStr) (default : PyStr) : PyStr :=
  match header with
  | some (c :: s) => c :: s
  | _ => default

/-- The claims of the X-User-Claims header. -/
def sseClaims (loads : JsonLoads) : Option PyStr → Except HttpException (List (PyStr × Json))
  | none => .ok []
  | some text => match loads text with
      | .ok (.obj claims) => .ok claims
      | .ok _ => .error ⟨400, py "invalid X-User-Claims: X-User-Claims must be a JSON object"⟩
      | .error e => .error ⟨400, py "invalid X-User-Claims: " ++ e⟩

/-- The request of a body, once the account is checked. -/
def ChatBody.request (body : ChatBody) (headers : SseHeaders) (requestId : PyStr)
    (extraClaims : List (PyStr × Json)) : ChatRequest where
  bizId := body.bizId.text
  threadId := .str body.threadId.text
  w3Account := body.w3Account.text
  question := .str body.question.text
  requestId := .str requestId
  bizParams := .obj body.bizParams
  identity := some
    { w3Account := body.w3Account.text
      rawClaims := rawClaims (headerOr headers.userRole (py "REP")) extraClaims }

/-- `chat_sse`, up to the stream: what it hands to `ChatService.handle`.  Without
    a database there is no service. -/
def chatSse (loads : JsonLoads) (hasService : Bool) (topics : TopicRegistry) (headers : SseHeaders)
    (requestId : PyStr) (body : ChatBody) : Except HttpException ChatRequest :=
  if !hasService then .error ⟨503, py "DB not configured (MA_PG_DSN_RW required)"⟩
  else match topics.get body.bizId.text with
    | none => .error ⟨404, py "unknown biz_id: " ++ body.bizId.text⟩
    | some _ =>
        if headers.userAccount.any (· ≠ body.w3Account.text) then
          .error ⟨403, py "X-User-Account header mismatch with body.w3_account"⟩
        else do
          let extraClaims ← sseClaims loads headers.userClaims
          return body.request headers requestId extraClaims

/-- `rid = x_request_id or _new_request_id()`. -/
def sseRequestId (env : Env σ) (headers : SseHeaders) : Prog σ PyStr :=
  match headers.requestId with
  | some (c :: s) => return c :: s
  | _ => newRequestId env

/-- Whom and what an accepted request is about is what its body says, and a
    header that names an account names that of the body. -/
theorem chatSse_accepts {loads : JsonLoads} {hasService : Bool} {topics : TopicRegistry}
    {headers : SseHeaders} {requestId : PyStr} {body : ChatBody} {req : ChatRequest}
    (h : chatSse loads hasService topics headers requestId body = .ok req) :
    hasService = true ∧ (∃ topic, topics.get req.bizId = some topic) ∧
      (∀ account, headers.userAccount = some account → account = req.w3Account) ∧
      ∃ extraClaims, req = body.request headers requestId extraClaims := by
  unfold chatSse at h
  cases hservice : hasService with
  | false =>
      rw [hservice] at h
      cases h
  | true =>
      simp only [hservice, Bool.not_true, Bool.false_eq_true, if_false] at h
      cases htopic : topics.get body.bizId.text with
      | none =>
          rw [htopic] at h
          cases h
      | some topic =>
          simp only [htopic] at h
          by_cases haccount : headers.userAccount.any (· ≠ body.w3Account.text) = true
          · rw [if_pos haccount] at h
            cases h
          · rw [if_neg haccount] at h
            cases hclaims : sseClaims loads headers.userClaims with
            | error e =>
                rw [hclaims] at h
                cases h
            | ok extraClaims =>
                rw [hclaims] at h
                cases h
                refine ⟨rfl, ⟨topic, htopic⟩, fun account hheader => ?_, extraClaims, rfl⟩
                rw [hheader] at haccount
                show account = body.w3Account.text
                simpa using haccount

theorem ChatBody.request_ownName (body : ChatBody) (headers : SseHeaders) (requestId : PyStr)
    (extraClaims : List (PyStr × Json)) :
    (body.request headers requestId extraClaims).OwnName := rfl

end MasterAgent
