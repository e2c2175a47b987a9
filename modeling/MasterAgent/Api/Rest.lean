/-
  MasterAgent.Api.Rest

  The history endpoints (`ma/api/rest.py`), `GET /sessions` and
  `GET /sessions/{thread_id}/messages`, on the two tables.  Both take the account
  from the X-User-Account header; the second answers for a thread of somebody
  else as for one that does not exist.
-/

import MasterAgent.Api.Sse
import MasterAgent.Core.Repo.Database

namespace MasterAgent

-- ============================================================================
-- Requests and responses
-- ============================================================================

/-- How an endpoint fails: by an HTTPException, or by another exception, which
    becomes a 500. -/
inductive RestError where
  | http (e : HttpException)
  | raised (e : Exn)

/-- A `datetime`: without an offset, or with one. -/
inductive PyDatetime where
  | naive (t : Timestamp)
  | aware (t : Timestamp) (offset : Int)

/-- Binding a datetime to a `TIMESTAMP` argument: the driver refuses offsets. -/
def bindTimestamp : PyDatetime → Except Exn Timestamp
  | .naive t => .ok t
  | .aware _ _ => .error .dbError

/-- What the endpoints use of the datetime library and the database. -/
structure RestEnv where
  isoformat : Timestamp → PyStr
  fromIsoformat : PyStr → Except PyStr PyDatetime
  order : SessionOrder

/-- The query of a `limit`, `Query(default=50, ge=1, le=200)`. -/
def queryLimit : Option Int → Except RestError Nat
  | none => .ok 50
  | some n => if 1 ≤ n ∧ n ≤ 200 then .ok n.toNat else .error (.http ⟨422, py "limit"⟩)

/-- `_require_w3_account`. -/
def requireW3Account : Option PyStr → Except RestError PyStr
  | some (c :: account) => .ok (c :: account)
  | _ => .error (.http ⟨401, py "X-User-Account header required"⟩)

/-- The `before` cursor; an empty one is none. -/
def queryBefore (env : RestEnv) : Option PyStr → Except RestError (Option Timestamp)
  | some (c :: text) => match env.fromIsoformat (c :: text) with
      | .error e => .error (.http ⟨400, py "invalid 'before' (must be ISO 8601): " ++ e⟩)
      | .ok d => match bindTimestamp d with
        | .error e => .error (.raised e)
        | .ok t => .ok (some t)
  | _ => .ok none

/-- Without a database there are no repositories. -/
def requireDb (hasDb : Bool) : Except RestError Unit :=
  if hasDb then .ok () else .error (.http ⟨503, py "DB not configured"⟩)

/-- A nullable text in a response. -/
def optionText : Option PyStr → Json
  | some s => .str s
  | none => .null

/-- `_serialize_session`. -/
def serializeSession (env : RestEnv) (s : Session) : Json :=
  .obj
    [(py "thread_id", .str s.threadId), (py "biz_id", .str s.bizId),
      (py "w3_account", .str s.w3Account), (py "title", optionText s.title),
      (py "status", .str s.status), (py "created_at", .str (env.isoformat s.createdAt)),
      (py "updated_at", .str (env.isoformat s.updatedAt)),
      (py "last_message_at", optionText (s.lastMessageAt.map env.isoformat))]

/-- `_serialize_message`. -/
def serializeMessage (env : RestEnv) (m : Message) : Json :=
  .obj
    [(py "message_id", .str m.messageId), (py "thread_id", m.threadId), (py "seq", .int m.seq),
      (py "role", .str m.role), (py "content", m.content), (py "status", .str m.status),
      (py "route", optionText m.route),
      (py "created_at", optionText (m.createdAt.map env.isoformat))]

-- ============================================================================
-- The endpoints
-- ============================================================================

/-- The query parameters of `list_sessions`. -/
structure SessionsQuery where
  bizId : Option PyStr := none
  limit : Option Int := none
  before : Option PyStr := none

section Endpoints

variable (env : RestEnv) (hasDb : Bool)

/-- `list_sessions`. -/
def listSessions (s : Store) (account : Option PyStr) (query : SessionsQuery) :
    Except RestError Json := do
  let limit ← queryLimit query.limit
  let w3 ← requireW3Account account
  requireDb hasDb
  let before ← queryBefore env query.before
  let items := listByUser env.order w3 query.bizId limit before s.sessions
  return .obj [(py "items", .arr (items.map (serializeSession env)))]

/-- The 404 of `list_messages`. -/
def unknownThread (threadId : PyStr) : RestError :=
  .http ⟨404, py "unknown thread_id: " ++ threadId⟩

/-- The session of a thread, if it is the account's own. -/
def ownSession (w3 threadId : PyStr) (s : Store) : Except RestError Session :=
  match getByThread threadId s.sessions with
  | none => .error (unknownThread threadId)
  | some session =>
      if session.w3Account = w3 then .ok session else .error (unknownThread threadId)

/-- `list_messages`. -/
def listMessages (s : Store) (account : Option PyStr) (threadId : PyStr) (limit : Option Int) :
    Except RestError Json := do
  let limit ← queryLimit limit
  let w3 ← requireW3Account account
  requireDb hasDb
  let _ ← ownSession w3 threadId s
  let items := (s.messages.selectRecent threadId limit).map rowToMessage
  return .obj
    [(py "thread_id", .str threadId), (py "items", .arr (items.map (serializeMessage env)))]

end Endpoints

-- ============================================================================
-- What a user can see
-- ============================================================================

/-- Two states of the tables have the same session rows of an account and the
    same messages in its threads. -/
structure Store.AgreeFor (w3 : PyStr) (s s' : Store) : Prop where
  sessions : (s.sessions.rows.filter (·.w3Account = w3)).Perm
    (s'.sessions.rows.filter (·.w3Account = w3))
  messages : ∀ row ∈ s.sessions.rows, row.w3Account = w3 →
    (s.messages.rows.filter (·.threadId = row.threadId)).Perm
      (s'.messages.rows.filter (·.threadId = row.threadId))

section AgreeFor

variable {env : RestEnv} {hasDb : Bool} {w3 threadId : PyStr} {s s' : Store}

theorem requireW3Account_eq_ok {account : Option PyStr} (h : requireW3Account account = .ok w3) :
    account = some w3 := by
  unfold requireW3Account at h
  split at h
  · cases h
    rfl
  · cases h

theorem SessionTable.mem_of_select {t : SessionTable} {row : Session}
    (h : t.select threadId = some row) : row ∈ t.rows ∧ row.threadId = threadId :=
  ⟨List.mem_of_find?_eq_some h, SessionTable.select_threadId h⟩

theorem SessionTable.select_of_mem {t : SessionTable} {row : Session} (h : row ∈ t.rows) :
    t.select row.threadId = some row := by
  cases hrow : t.select row.threadId with
  | none => exact absurd (List.mem_map_of_mem h) (SessionTable.select_eq_none.mp hrow)
  | some row' =>
      obtain ⟨hmem, hid⟩ := SessionTable.mem_of_select hrow
      rw [List.inj_on_of_nodup_map t.primaryKey hmem h hid]

/-- A session row of the account is found in both states. -/
theorem Store.AgreeFor.select (h : s.AgreeFor w3 s') {row : Session}
    (hrow : s.sessions.select threadId = some row) (hown : row.w3Account = w3) :
    s'.sessions.select threadId = some row := by
  obtain ⟨hmem, rfl⟩ := SessionTable.mem_of_select hrow
  refine SessionTable.select_of_mem ?_
  have hfilter : row ∈ s.sessions.rows.filter (·.w3Account = w3) :=
    List.mem_filter.mpr ⟨hmem, decide_eq_true hown⟩
  exact List.mem_of_mem_filter (h.sessions.mem_iff.mp hfilter)

theorem Store.AgreeFor.symm (h : s.AgreeFor w3 s') : s'.AgreeFor w3 s where
  sessions := h.sessions.symm
  messages := by
    intro row hmem hown
    have hfilter : row ∈ s'.sessions.rows.filter (·.w3Account = w3) :=
      List.mem_filter.mpr ⟨hmem, decide_eq_true hown⟩
    have hmem' := List.mem_of_mem_filter (h.sessions.mem_iff.mpr hfilter)
    exact (h.messages row hmem' hown).symm

/-- A thread is the account's own exactly if a row of the account has it. -/
theorem ownSession_eq_ok {session : Session} :
    ownSession w3 threadId s = .ok session ↔
      ∃ row, s.sessions.select threadId = some row ∧ row.w3Account = w3 ∧
        session = rowToSession row := by
  unfold ownSession getByThread
  cases hrow : s.sessions.select threadId with
  | none => simp
  | some row =>
      simp only [Option.map_some, Option.some.injEq, exists_eq_left']
      show (if row.w3Account = w3 then _ else _) = _ ↔ _
      by_cases hown : row.w3Account = w3
      · simp only [hown, if_true, true_and, Except.ok.injEq]
        exact eq_comm
      · simp [hown]

theorem ownSession_error {e : RestError} (h : ownSession w3 threadId s = .error e) :
    e = unknownThread threadId := by
  unfold ownSession at h
  split at h
  · cases h
    rfl
  · split at h
    · cases h
    · cases h
      rfl

/-- Whether a thread is the account's own is the same in both states. -/
theorem Store.AgreeFor.ownSession (h : s.AgreeFor w3 s') :
    MasterAgent.ownSession w3 threadId s = MasterAgent.ownSession w3 threadId s' := by
  cases hs : MasterAgent.ownSession w3 threadId s with
  | ok session =>
      obtain ⟨row, hrow, hown, rfl⟩ := ownSession_eq_ok.mp hs
      exact (ownSession_eq_ok.mpr ⟨row, h.select hrow hown, hown, rfl⟩).symm
  | error e =>
      cases hs' : MasterAgent.ownSession w3 threadId s' with
      | error e' => rw [ownSession_error hs, ownSession_error hs']
      | ok session =>
          obtain ⟨row, hrow, hown, rfl⟩ := ownSession_eq_ok.mp hs'
          rw [ownSession_eq_ok.mpr ⟨row, h.symm.select hrow hown, hown, rfl⟩] at hs
          cases hs

/-- A response is made of the account's own session rows. -/
theorem listSessions_congr (h : s.AgreeFor w3 s') (query : SessionsQuery) :
    listSessions env hasDb s (some w3) query = listSessions env hasDb s' (some w3) query := by
  unfold listSessions
  refine bind_congr fun limit => ?_
  cases haccount : requireW3Account (some w3) with
  | error e => rfl
  | ok w3' =>
      cases requireW3Account_eq_ok haccount
      show (requireDb hasDb >>= _) = (requireDb hasDb >>= _)
      refine bind_congr fun _ => bind_congr fun before => ?_
      rw [listByUser_congr h.sessions query.bizId limit before]

/-- A response is made of the messages of the account's own threads. -/
theorem listMessages_congr (h : s.AgreeFor w3 s') (threadId : PyStr) (limit : Option Int) :
    listMessages env hasDb s (some w3) threadId limit
      = listMessages env hasDb s' (some w3) threadId limit := by
  unfold listMessages
  refine bind_congr fun limit => ?_
  cases haccount : requireW3Account (some w3) with
  | error e => rfl
  | ok w3' =>
      cases requireW3Account_eq_ok haccount
      show (requireDb hasDb >>= _) = (requireDb hasDb >>= _)
      refine bind_congr fun _ => ?_
      rw [← h.ownSession]
      cases hsession : ownSession w3 threadId s with
      | error e => rfl
      | ok session =>
          obtain ⟨row, hrow, hown, -⟩ := ownSession_eq_ok.mp hsession
          obtain ⟨hmem, rfl⟩ := SessionTable.mem_of_select hrow
          have hmessages := MessageTable.selectRecent_congr (h.messages row hmem hown) limit
          show Except.ok _ = Except.ok _
          rw [hmessages]

/-- A thread that is not the account's own is answered like one that does not
    exist. -/
theorem listMessages_foreign {account : Option PyStr} {s' : Store}
    (hforeign : ∀ row, s.sessions.select threadId = some row → account ≠ some row.w3Account)
    (hnone : s'.sessions.select threadId = none) (limit : Option Int) :
    listMessages env hasDb s account threadId limit
      = listMessages env hasDb s' account threadId limit := by
  unfold listMessages
  refine bind_congr fun limit => ?_
  cases haccount : requireW3Account account with
  | error e => rfl
  | ok w3 =>
      have hown := requireW3Account_eq_ok haccount
      have hunknown : ∀ s : Store, (∀ row, s.sessions.select threadId = some row →
          account ≠ some row.w3Account) →
          ownSession w3 threadId s = .error (unknownThread threadId) := by
        intro s hs
        cases hsession : ownSession w3 threadId s with
        | error e => rw [ownSession_error hsession]
        | ok session =>
            obtain ⟨row, hrow, hrow', -⟩ := ownSession_eq_ok.mp hsession
            exact absurd (hown.trans (congrArg some hrow'.symm)) (hs row hrow)
      have hnone' : ∀ row, s'.sessions.select threadId = some row →
          account ≠ some row.w3Account := by
        intro row hrow
        rw [hnone] at hrow
        cases hrow
      show (requireDb hasDb >>= _) = (requireDb hasDb >>= _)
      refine bind_congr fun _ => ?_
      rw [hunknown s hforeign, hunknown s' hnone']
      rfl

end AgreeFor

/-- In two states that agree on an account's session rows and on the messages of
    its threads, both endpoints answer the account alike, whatever is asked; and
    a thread of somebody else is answered like one that does not exist. -/
theorem history_noninterference (env : RestEnv) (hasDb : Bool) (w3 : PyStr) (s s' : Store)
    (h : s.AgreeFor w3 s') :
    (∀ query, listSessions env hasDb s (some w3) query
      = listSessions env hasDb s' (some w3) query) ∧
    (∀ threadId limit, listMessages env hasDb s (some w3) threadId limit
      = listMessages env hasDb s' (some w3) threadId limit) ∧
    ∀ threadId row limit (s'' : Store), s.sessions.select threadId = some row →
      row.w3Account ≠ w3 → s''.sessions.select threadId = none →
      listMessages env hasDb s (some w3) threadId limit
        = listMessages env hasDb s'' (some w3) threadId limit := by
  refine ⟨listSessions_congr h, listMessages_congr h, ?_⟩
  intro threadId row limit s'' hrow hother hnone
  refine listMessages_foreign ?_ hnone limit
  intro row' hrow' hown
  rw [hrow, Option.some.injEq] at hrow'
  subst hrow'
  exact hother (Option.some.inj hown).symm

/-- A session row of an account in a thread. -/
def sessionOf (account threadId : String) : Session :=
  { threadId := py threadId, bizId := py "topic", w3Account := py account, title := none
    status := py "active", createdAt := 0, updatedAt := 0, lastMessageAt := none, ext := .obj [] }

/-- A user message in a thread. -/
def messageIn (threadId messageId : String) : MessageRow :=
  { messageId := py messageId, threadId := py threadId, seq := 1, role := py "user"
    content := py "q", contentMeta := .obj [], status := py "complete", route := none
    requestId := none, createdAt := 0, ext := .obj [] }

/-- Alice's thread, alone and beside one of bob's. -/
theorem history_noninterference_bob :
    let alone : Store := ⟨⟨[sessionOf "alice" "a"], by simp⟩,
      ⟨[messageIn "a" "m1"], by simp, by simp⟩⟩
    let beside : Store := ⟨⟨[sessionOf "bob" "b", sessionOf "alice" "a"], by simp [sessionOf]⟩,
      ⟨[messageIn "a" "m1", messageIn "b" "m2"], by simp [messageIn],
        by simp [messageIn, MessageRow.slot]⟩⟩
    let env : RestEnv := ⟨fun _ => py "1970-01-01T00:00:00", fun _ => .error [], .byThread⟩
    ∀ threadId limit, listMessages env true alone (some (py "alice")) threadId limit
      = listMessages env true beside (some (py "alice")) threadId limit := by
  intro alone beside env
  refine (history_noninterference env true (py "alice") alone beside ⟨?_, ?_⟩).2.1
  · simp [alone, beside, sessionOf]
  · intro row hrow _
    rw [List.mem_singleton.mp hrow]
    simp [alone, beside, sessionOf, messageIn]

end MasterAgent
