/-
  MasterAgent.Core.AcceptAtomic

  Accepting a question, statement by statement.  `_persist_user_message` issues up
  to five SQL statements on one connection, each of which commits on its own and
  may fail.  `acceptUnder` is this run under any failures; without failures it is
  the call of the service.  Session and message are stored together or not at all
  exactly when no statement fails after the session of a new thread is inserted.
-/

import MasterAgent.Core.Repo.Database

namespace MasterAgent

open Effect

-- ============================================================================
-- Statements that may fail
-- ============================================================================

/-- The SQL statements of the two repositories. -/
inductive Statement where
  | selectSession
  | insertSession
  | selectMaxSeq
  | insertMessage
deriving DecidableEq, Repr

/-- A connection: the tables behind it, and how many statements were issued. -/
structure Conn where
  store : Store
  issued : Nat

/-- Which statements fail, by their number, and what they raise. -/
abbrev Faults : Type := Nat → Option Exn

/-- Issue a statement: it fails and changes nothing, or it commits. -/
def execute {α : Type} (faults : Faults) (statement : Statement)
    (f : Store → Except Exn α × Store) : Eff Conn Exn Statement α :=
  Eff.call (fun conn => match faults conn.issued with
    | some e => (.error e, ⟨conn.store, conn.issued + 1⟩)
    | none => ((f conn.store).1, ⟨(f conn.store).2, conn.issued + 1⟩)) fun _ => statement

/-- `get_or_create` once the first SELECT has found nothing. -/
def insertSessionUnder (faults : Faults) (c : GetOrCreate) : Eff Conn Exn Statement Session := do
  execute faults .insertSession fun s =>
    (.ok (), { s with sessions := s.sessions.insert c.newRow })
  let row ← execute faults .selectSession fun s => (.ok (s.sessions.select c.threadId), s)
  Eff.ofExcept (GetOrCreate.reread row)

/-- `SessionRepository.get_or_create`. -/
def getOrCreateUnder (faults : Faults) (c : GetOrCreate) : Eff Conn Exn Statement Session := do
  match ← execute faults .selectSession fun s => (.ok (s.sessions.select c.threadId), s) with
  | some row => Eff.ofExcept (c.checked row)
  | none => insertSessionUnder faults c

/-- `MessageRepository.append` of a message without a seq. -/
def appendUnder (faults : Faults) (msg : Message) (now : Timestamp) :
    Eff Conn Exn Statement Unit := do
  let threadId ← Eff.ofExcept (bindText msg.threadId)
  let m ← execute faults .selectMaxSeq fun s => (.ok (s.messages.maxSeq threadId), s)
  execute faults .insertMessage fun s =>
    ((insertMessage msg (m + 1) now s.messages).1,
      { s with messages := (insertMessage msg (m + 1) now s.messages).2 })

/-- `_persist_user_message`, its rows created at the given times. -/
def acceptUnder (faults : Faults) (req : ChatRequest) (messageId : PyStr)
    (sessionNow messageNow : Timestamp) : Eff Conn Exn Statement Unit := do
  let threadId ← Eff.ofExcept (bindText req.threadId)
  let _ ← getOrCreateUnder faults
    { threadId, bizId := req.bizId, w3Account := req.w3Account, now := sessionNow }
  appendUnder faults (userMessage req messageId) messageNow

-- ============================================================================
-- Running statements
-- ============================================================================

section Run

variable {α β : Type} {faults : Faults} {statement : Statement}
  {f : Store → Except Exn α × Store} {k : α → Eff Conn Exn Statement β} {conn : Conn}

theorem execute_of_fault {e : Exn} (h : faults conn.issued = some e) :
    execute faults statement f conn
      = ⟨.error e, ⟨conn.store, conn.issued + 1⟩,
          [(statement, ⟨conn.store, conn.issued + 1⟩)]⟩ := by
  simp only [execute, Eff.call, h]

theorem execute_of_none (h : faults conn.issued = none) :
    execute faults statement f conn
      = ⟨(f conn.store).1, ⟨(f conn.store).2, conn.issued + 1⟩,
          [(statement, ⟨(f conn.store).2, conn.issued + 1⟩)]⟩ := by
  simp only [execute, Eff.call, h]

/-- A statement that fails ends the run. -/
theorem bind_of_fault {e : Exn} (h : faults conn.issued = some e) :
    (execute faults statement f >>= k) conn
      = ⟨.error e, ⟨conn.store, conn.issued + 1⟩,
          [(statement, ⟨conn.store, conn.issued + 1⟩)]⟩ := by
  have hrun := @execute_of_fault α faults statement f conn e h
  rw [Eff.bind_of_error (congrArg Run.result hrun), hrun]

/-- After a statement that commits the run goes on. -/
theorem bind_of_commit {a : α} (h : faults conn.issued = none) (hf : (f conn.store).1 = .ok a) :
    (execute faults statement f >>= k) conn
      = (k a ⟨(f conn.store).2, conn.issued + 1⟩).after
          [(statement, ⟨(f conn.store).2, conn.issued + 1⟩)] := by
  have hrun := @execute_of_none α faults statement f conn h
  rw [hf] at hrun
  rw [Eff.bind_of_ok (congrArg Run.result hrun), hrun]

end Run

-- ============================================================================
-- Appending
-- ============================================================================

/-- The INSERT of the message meets no obstacle in the table. -/
structure Message.Insertable (msg : Message) (t : MessageTable) : Prop where
  content : ∃ content, bindText msg.content = .ok content
  requestId : ∃ requestId, bindTextOrNull msg.requestId = .ok requestId
  fresh : msg.messageId ∉ t.rows.map MessageRow.messageId

theorem insertMessage_insertable {msg : Message} {t : MessageTable} {threadId : PyStr}
    {now : Timestamp} (hthread : msg.threadId = .str threadId) (h : msg.Insertable t) :
    ∃ row t', t.insert row = .ok t' ∧ RowOf msg row ∧
      insertMessage msg (t.maxSeq threadId + 1) now t = (.ok (), t') := by
  obtain ⟨content, hcontent⟩ := h.content
  obtain ⟨requestId, hrequestId⟩ := h.requestId
  obtain ⟨row, hrow⟩ : ∃ row, msg.toRow (t.maxSeq threadId + 1) now = .ok row := by
    rw [Message.toRow, hthread, hcontent, hrequestId]
    exact ⟨_, rfl⟩
  obtain ⟨hof, hseq⟩ := toRow_spec hrow
  have hslot : row.slot = (threadId, t.maxSeq threadId + 1) := by
    have hsame := hof.threadId
    rw [hthread, Json.str.injEq] at hsame
    rw [MessageRow.slot, hseq, ← hsame]
  obtain ⟨t', ht'⟩ := MessageTable.insert_ok_iff.mpr
    ⟨hof.messageId ▸ h.fresh, hslot ▸ t.next_slot_free threadId⟩
  refine ⟨row, t', ht', hof, ?_⟩
  rw [insertMessage, hrow]
  simp only [ht']

theorem insertMessage_refused {msg : Message} {t : MessageTable} {seq : Int} {now : Timestamp}
    (h : ¬ msg.Insertable t) : ∃ e, insertMessage msg seq now t = (.error e, t) := by
  rcases insertMessage_cases msg seq now t with herror | ⟨row, t', hins, hof, -, -⟩
  · exact herror
  · exfalso
    refine h ⟨⟨row.content, ?_⟩, ⟨row.requestId, hof.requestId⟩, ?_⟩
    · rw [hof.content]
      rfl
    · rw [← hof.messageId]
      exact (MessageTable.insert_ok_iff.mp ⟨t', hins⟩).1

/-- What an append to a thread needs: neither of its statements fails, and the
    row can be inserted. -/
structure AppendsUnder (faults : Faults) (conn : Conn) (msg : Message) : Prop where
  selected : faults conn.issued = none
  inserted : faults (conn.issued + 1) = none
  insertable : msg.Insertable conn.store.messages

theorem appendUnder_stores {faults : Faults} {conn : Conn} {msg : Message} {threadId : PyStr}
    {now : Timestamp} (hthread : msg.threadId = .str threadId) (h : AppendsUnder faults conn msg) :
    ∃ row t', conn.store.messages.insert row = .ok t' ∧ RowOf msg row ∧
      (appendUnder faults msg now conn).world.store = { conn.store with messages := t' } := by
  obtain ⟨row, t', hins, hof, hinsert⟩ :=
    @insertMessage_insertable msg conn.store.messages threadId now hthread h.insertable
  refine ⟨row, t', hins, hof, ?_⟩
  rw [appendUnder, hthread]
  show ((execute faults .selectMaxSeq _ >>= _ : Eff Conn Exn Statement Unit) conn).world.store = _
  rw [bind_of_commit h.selected rfl, Run.after, execute_of_none h.inserted]
  show ({ conn.store with messages := _ } : Store) = _
  rw [hinsert]

theorem appendUnder_refused {faults : Faults} {conn : Conn} {msg : Message} {threadId : PyStr}
    {now : Timestamp} (hthread : msg.threadId = .str threadId)
    (h : ¬ AppendsUnder faults conn msg) :
    (appendUnder faults msg now conn).world.store = conn.store := by
  rw [appendUnder, hthread]
  show ((execute faults .selectMaxSeq _ >>= _ : Eff Conn Exn Statement Unit) conn).world.store = _
  cases hselected : faults conn.issued with
  | some e => rw [bind_of_fault hselected]
  | none =>
      rw [bind_of_commit hselected rfl, Run.after]
      cases hinserted : faults (conn.issued + 1) with
      | some e => rw [execute_of_fault hinserted]
      | none =>
          rw [execute_of_none hinserted]
          obtain ⟨e, hrefused⟩ := @insertMessage_refused msg conn.store.messages
            (conn.store.messages.maxSeq threadId + 1) now
            fun hins => h ⟨hselected, hinserted, hins⟩
          show ({ conn.store with messages := _ } : Store) = _
          rw [hrefused]

-- ============================================================================
-- All or nothing
-- ============================================================================

/-- The session row and the user message are stored. -/
structure Accepted (req : ChatRequest) (messageId : PyStr) (s s' : Store) : Prop where
  session : ∃ threadId row, req.threadId = .str threadId ∧ s'.sessions.select threadId = some row
  message : ∃ row, RowOf (userMessage req messageId) row ∧
    s'.messages.rows = s.messages.rows ++ [row]

/-- Session and message are stored, or both tables are as they were. -/
def AllOrNothing (req : ChatRequest) (messageId : PyStr) (s s' : Store) : Prop :=
  s' = s ∨ Accepted req messageId s s'

/-- For a thread without a session: once the session is inserted, nothing is in
    the way of the rest. -/
def AcceptsAtomically (faults : Faults) (req : ChatRequest) (messageId : PyStr) (s : Store) :
    Prop :=
  ∀ threadId, req.threadId = .str threadId → s.sessions.select threadId = none →
    faults 0 = none → faults 1 = none →
      faults 2 = none ∧ faults 3 = none ∧ faults 4 = none ∧
        (userMessage req messageId).Insertable s.messages

section Accept

variable {faults : Faults} {req : ChatRequest} {messageId threadId : PyStr}
  {sessionNow messageNow : Timestamp} {s : Store}

/-- get_or_create of a thread that has a session writes nothing. -/
theorem getOrCreateUnder_bound {c : GetOrCreate} {row : Session} {conn : Conn}
    (hrow : conn.store.sessions.select c.threadId = some row) :
    (getOrCreateUnder faults c conn).world = ⟨conn.store, conn.issued + 1⟩ := by
  rw [getOrCreateUnder]
  cases hzero : faults conn.issued with
  | some e => rw [bind_of_fault hzero]
  | none =>
      rw [bind_of_commit hzero rfl, hrow]
      show (Eff.ofExcept (c.checked row) _ : Run Conn Exn Statement Session).world = _
      rw [Eff.ofExcept_apply]

/-- get_or_create of a thread without a session. -/
theorem getOrCreateUnder_new {c : GetOrCreate} {conn : Conn}
    (hnew : conn.store.sessions.select c.threadId = none) (h : faults conn.issued = none) :
    getOrCreateUnder faults c conn =
      (insertSessionUnder faults c ⟨conn.store, conn.issued + 1⟩).after
        [(.selectSession, ⟨conn.store, conn.issued + 1⟩)] := by
  rw [getOrCreateUnder, bind_of_commit h rfl, hnew]

/-- The tables with the session of a new thread. -/
def Store.withSession (s : Store) (c : GetOrCreate) : Store :=
  { s with sessions := s.sessions.insert c.newRow }

theorem select_withSession (s : Store) {c : GetOrCreate}
    (hnew : s.sessions.select c.threadId = none) :
    (s.withSession c).sessions.select c.threadId = some c.newRow :=
  GetOrCreate.select_newRow hnew

/-- Once the session is inserted it stays, whether it is read again or not. -/
theorem insertSessionUnder_store {c : GetOrCreate} {conn : Conn} (h : faults conn.issued = none) :
    (insertSessionUnder faults c conn).world = ⟨conn.store.withSession c, conn.issued + 2⟩ := by
  rw [insertSessionUnder, bind_of_commit h rfl, Run.after]
  cases hread : faults (conn.issued + 1) with
  | some e => rw [bind_of_fault hread]; rfl
  | none =>
      rw [bind_of_commit hread rfl, Run.after, Eff.ofExcept_apply]
      rfl

/-- It is returned when it is read again. -/
theorem insertSessionUnder_result {c : GetOrCreate} {conn : Conn} (h : faults conn.issued = none)
    (hnew : conn.store.sessions.select c.threadId = none) :
    (insertSessionUnder faults c conn).result = match faults (conn.issued + 1) with
      | some e => .error e
      | none => .ok (rowToSession c.newRow) := by
  rw [insertSessionUnder, bind_of_commit h rfl, Run.after]
  cases hread : faults (conn.issued + 1) with
  | some e => rw [bind_of_fault hread]
  | none =>
      have hrow : (conn.store.withSession c).sessions.select c.threadId = some c.newRow :=
        select_withSession _ hnew
      rw [bind_of_commit hread rfl, Run.after, Eff.ofExcept_apply]
      show GetOrCreate.reread ((conn.store.withSession c).sessions.select c.threadId) = _
      rw [hrow]
      rfl

/-- get_or_create of a new thread whose SELECT or INSERT fails. -/
theorem getOrCreateUnder_failed {c : GetOrCreate} {conn : Conn}
    (hnew : conn.store.sessions.select c.threadId = none)
    (h : ¬ (faults conn.issued = none ∧ faults (conn.issued + 1) = none)) :
    (∃ e, (getOrCreateUnder faults c conn).result = .error e) ∧
      (getOrCreateUnder faults c conn).world.store = conn.store := by
  cases hzero : faults conn.issued with
  | some e =>
      rw [getOrCreateUnder, bind_of_fault hzero]
      exact ⟨⟨e, rfl⟩, rfl⟩
  | none =>
      rw [getOrCreateUnder_new hnew hzero, Run.after, insertSessionUnder]
      cases hone : faults (conn.issued + 1) with
      | none => exact absurd ⟨hzero, hone⟩ h
      | some e =>
          rw [bind_of_fault hone]
          exact ⟨⟨e, rfl⟩, rfl⟩

-- ============================================================================
-- The whole run
-- ============================================================================

/-- The arguments of get_or_create. -/
def ChatRequest.ofThread (req : ChatRequest) (threadId : PyStr) (now : Timestamp) :
    GetOrCreate where
  threadId := threadId
  bizId := req.bizId
  w3Account := req.w3Account
  now := now

variable {req : ChatRequest} {messageId threadId : PyStr} {sessionNow messageNow : Timestamp}
  {s : Store}

theorem acceptUnder_eq (hthread : req.threadId = .str threadId) (conn : Conn) :
    acceptUnder faults req messageId sessionNow messageNow conn =
      (getOrCreateUnder faults (req.ofThread threadId sessionNow) >>= fun _ =>
        appendUnder faults (userMessage req messageId) messageNow) conn := by
  rw [acceptUnder, hthread]
  rfl

/-- After get_or_create has raised nothing more is written. -/
theorem acceptUnder_raised (hthread : req.threadId = .str threadId) {conn : Conn} {e : Exn}
    (h : (getOrCreateUnder faults (req.ofThread threadId sessionNow) conn).result = .error e) :
    (acceptUnder faults req messageId sessionNow messageNow conn).world =
      (getOrCreateUnder faults (req.ofThread threadId sessionNow) conn).world := by
  rw [acceptUnder_eq hthread, Eff.bind_of_error h]

/-- After it has returned the message is appended. -/
theorem acceptUnder_returned (hthread : req.threadId = .str threadId) {conn : Conn}
    {session : Session}
    (h : (getOrCreateUnder faults (req.ofThread threadId sessionNow) conn).result = .ok session) :
    (acceptUnder faults req messageId sessionNow messageNow conn).world =
      (appendUnder faults (userMessage req messageId) messageNow
        (getOrCreateUnder faults (req.ofThread threadId sessionNow) conn).world).world := by
  rw [acceptUnder_eq hthread, Eff.bind_of_ok h]
  rfl

/-- A thread that has a session: at most the message is stored. -/
theorem accept_bound {row : Session} (hthread : req.threadId = .str threadId)
    (hrow : s.sessions.select threadId = some row) :
    AllOrNothing req messageId s
      (acceptUnder faults req messageId sessionNow messageNow ⟨s, 0⟩).world.store := by
  have hworld := @getOrCreateUnder_bound faults (req.ofThread threadId sessionNow) row ⟨s, 0⟩ hrow
  cases hresult : (getOrCreateUnder faults (req.ofThread threadId sessionNow) ⟨s, 0⟩).result with
  | error e =>
      rw [acceptUnder_raised hthread hresult, hworld]
      exact Or.inl rfl
  | ok session =>
      rw [acceptUnder_returned hthread hresult, hworld]
      by_cases happends : AppendsUnder faults ⟨s, 1⟩ (userMessage req messageId)
      · obtain ⟨messageRow, t', hins, hof, hstore⟩ :=
          @appendUnder_stores faults ⟨s, 1⟩ _ threadId messageNow hthread happends
        rw [hstore]
        exact Or.inr ⟨⟨threadId, row, hthread, hrow⟩,
          ⟨messageRow, hof, MessageTable.insert_rows hins⟩⟩
      · rw [appendUnder_refused hthread happends]
        exact Or.inl rfl

/-- A new thread whose session could not be looked up or inserted. -/
theorem accept_not_inserted (hthread : req.threadId = .str threadId)
    (hnew : s.sessions.select threadId = none) (h : ¬ (faults 0 = none ∧ faults 1 = none)) :
    (acceptUnder faults req messageId sessionNow messageNow ⟨s, 0⟩).world.store = s := by
  obtain ⟨⟨e, he⟩, hstore⟩ :=
    @getOrCreateUnder_failed faults (req.ofThread threadId sessionNow) ⟨s, 0⟩ hnew h
  rw [acceptUnder_raised hthread he, hstore]

/-- A new thread whose session is inserted: all is stored exactly when the rest
    goes through. -/
theorem accept_inserted (hthread : req.threadId = .str threadId)
    (hnew : s.sessions.select threadId = none) (hzero : faults 0 = none) (hone : faults 1 = none) :
    AllOrNothing req messageId s
        (acceptUnder faults req messageId sessionNow messageNow ⟨s, 0⟩).world.store ↔
      faults 2 = none ∧ faults 3 = none ∧ faults 4 = none ∧
        (userMessage req messageId).Insertable s.messages := by
  have hrun := @getOrCreateUnder_new faults (req.ofThread threadId sessionNow) ⟨s, 0⟩ hnew hzero
  have hworld : (getOrCreateUnder faults (req.ofThread threadId sessionNow) ⟨s, 0⟩).world
      = ⟨s.withSession (req.ofThread threadId sessionNow), 3⟩ := by
    rw [hrun]
    exact @insertSessionUnder_store faults (req.ofThread threadId sessionNow) ⟨s, 1⟩ hone
  have hresult := congrArg Run.result hrun
  rw [Run.after, @insertSessionUnder_result faults (req.ofThread threadId sessionNow) ⟨s, 1⟩ hone
    hnew] at hresult
  have hselect : (s.withSession (req.ofThread threadId sessionNow)).sessions.select threadId
      = some (req.ofThread threadId sessionNow).newRow := select_withSession s hnew
  -- the session alone is neither all nor nothing
  have hhalf : ¬ AllOrNothing req messageId s
      (s.withSession (req.ofThread threadId sessionNow)) := by
    rintro (hsame | haccepted)
    · rw [hsame, hnew] at hselect
      cases hselect
    · obtain ⟨row, -, hrows⟩ := haccepted.message
      exact absurd (congrArg List.length hrows) (by simp [Store.withSession])
  cases htwo : faults 2 with
  | some e =>
      rw [htwo] at hresult
      rw [acceptUnder_raised hthread hresult, hworld]
      exact ⟨fun h => absurd h hhalf, fun h => absurd h.1 (Option.some_ne_none e)⟩
  | none =>
      rw [htwo] at hresult
      rw [acceptUnder_returned hthread hresult, hworld]
      by_cases happends : AppendsUnder faults
          ⟨s.withSession (req.ofThread threadId sessionNow), 3⟩ (userMessage req messageId)
      · obtain ⟨messageRow, t', hins, hof, hstore⟩ :=
          @appendUnder_stores faults _ _ threadId messageNow hthread happends
        rw [hstore]
        refine ⟨fun _ => ⟨rfl, happends.selected, happends.inserted, happends.insertable⟩,
          fun _ => Or.inr ⟨⟨threadId, _, hthread, hselect⟩, messageRow, hof, ?_⟩⟩
        exact MessageTable.insert_rows hins
      · rw [appendUnder_refused hthread happends]
        exact ⟨fun h => absurd h hhalf,
          fun h => absurd ⟨h.2.1, h.2.2.1, h.2.2.2⟩ happends⟩

end Accept

/-- For every store, every request and every choice of failing statements: the
    session and the user message are stored together or not at all exactly when
    nothing fails after the session of a new thread has been inserted. -/
theorem accept_atomic_iff (faults : Faults) (req : ChatRequest) (messageId : PyStr)
    (sessionNow messageNow : Timestamp) (s : Store) :
    AllOrNothing req messageId s
        (acceptUnder faults req messageId sessionNow messageNow ⟨s, 0⟩).world.store ↔
      AcceptsAtomically faults req messageId s := by
  cases hbind : bindText req.threadId with
  | error e =>
      have hstore : (acceptUnder faults req messageId sessionNow messageNow ⟨s, 0⟩).world.store
          = s := by
        rw [acceptUnder, hbind]
        rfl
      rw [hstore]
      refine ⟨fun _ threadId hthread => ?_, fun _ => Or.inl rfl⟩
      rw [hthread] at hbind
      cases hbind
  | ok threadId =>
      have hthread := bindText_eq_ok.mp hbind
      have honly : ∀ t, req.threadId = .str t → t = threadId := by
        intro t ht
        rw [hthread, Json.str.injEq] at ht
        exact ht.symm
      cases hnew : s.sessions.select threadId with
      | some row =>
          refine ⟨fun _ t ht hnone => ?_, fun _ => accept_bound hthread hnew⟩
          rw [honly t ht, hnew] at hnone
          cases hnone
      | none =>
          by_cases hfirst : faults 0 = none ∧ faults 1 = none
          · rw [accept_inserted hthread hnew hfirst.1 hfirst.2]
            refine ⟨fun h t ht _ _ _ => h, fun h => h threadId hthread hnew hfirst.1 hfirst.2⟩
          · refine ⟨fun _ t _ _ hzero hone => absurd ⟨hzero, hone⟩ hfirst, fun _ => Or.inl ?_⟩
            exact accept_not_inserted hthread hnew hfirst

-- ============================================================================
-- Without failures
-- ============================================================================

/-- No statement fails. -/
def noFaults : Faults := fun _ => none

theorem getOrCreateUnder_noFaults (c : GetOrCreate) (conn : Conn) :
    (getOrCreateUnder noFaults c conn).result = (getOrCreate c conn.store.sessions).1 ∧
      (getOrCreateUnder noFaults c conn).world.store =
        { conn.store with sessions := (getOrCreate c conn.store.sessions).2 } := by
  cases hrow : conn.store.sessions.select c.threadId with
  | some row =>
      have hcall : getOrCreate c conn.store.sessions = (c.checked row, conn.store.sessions) := by
        rw [getOrCreate, hrow]
      rw [getOrCreateUnder, bind_of_commit rfl rfl, hrow, hcall]
      show (Eff.ofExcept (c.checked row) _ : Run Conn Exn Statement Session).result = _ ∧
        (Eff.ofExcept (c.checked row) _ : Run Conn Exn Statement Session).world.store = _
      rw [Eff.ofExcept_apply]
      exact ⟨rfl, rfl⟩
  | none =>
      have hcall : getOrCreate c conn.store.sessions =
          (.ok (rowToSession c.newRow), conn.store.sessions.insert c.newRow) := by
        rw [getOrCreate, hrow]
        show (GetOrCreate.reread ((conn.store.withSession c).sessions.select c.threadId), _) = _
        rw [select_withSession _ hrow]
        rfl
      have hresult :=
        @insertSessionUnder_result noFaults c ⟨conn.store, conn.issued + 1⟩ rfl hrow
      rw [getOrCreateUnder_new hrow rfl, Run.after, insertSessionUnder_store rfl, hcall]
      exact ⟨hresult, rfl⟩

theorem appendUnder_noFaults (msg : Message) (hseq : msg.seq = 0) (now : Timestamp) (conn : Conn) :
    (appendUnder noFaults msg now conn).result = (conn.store.append msg now).1 ∧
      (appendUnder noFaults msg now conn).world.store = (conn.store.append msg now).2 := by
  rw [Store.append, append, if_pos hseq, appendUnder]
  cases bindText msg.threadId with
  | error e => exact ⟨rfl, rfl⟩
  | ok threadId => exact ⟨rfl, rfl⟩

/-- On the tables a connection is always to be had, and released. -/
theorem withConn_db {α : Type} (body : Prog Db α) (db : Db) :
    (Repos.db.withConn body db).result = (body db).result ∧
      (Repos.db.withConn body db).world = (body db).world := by
  have hrun : Repos.db.withConn body db = ((Eff.attempt body >>= fun r =>
      Eff.call Repos.db.release Act.release >>= fun _ => Eff.ofExcept r : Prog Db α) db).after
        [(.acquire (.ok ()), db)] := rfl
  have hattempt : (Eff.attempt body db).result = .ok (body db).result := rfl
  rw [hrun, Eff.bind_of_ok hattempt]
  cases hr : (body db).result with
  | error e => exact ⟨rfl, rfl⟩
  | ok a => exact ⟨rfl, rfl⟩

/-- Without failures the run is the service's own, on the tables. -/
theorem acceptUnder_noFaults (d : Deployment) (grace : Nat) (req : ChatRequest) (db : Db) :
    (acceptUnder noFaults req (py "msg_" ++ d.ulids db.next) db.now (db.now + 1)
        ⟨db.store, 0⟩).result = (persistUserMessage (d.env grace) req db).result ∧
      (acceptUnder noFaults req (py "msg_" ++ d.ulids db.next) db.now (db.now + 1)
        ⟨db.store, 0⟩).world.store = (persistUserMessage (d.env grace) req db).world.store := by
  obtain ⟨hresult, hworld⟩ := withConn_db ((d.env grace).repos.callGetOrCreate req.threadId
    req.bizId req.w3Account >>= fun _ => newMessageId (d.env grace) >>= fun messageId =>
      (d.env grace).repos.callAppend (userMessage req messageId)) db
  rw [show (persistUserMessage (d.env grace) req db).result = _ from hresult,
    show (persistUserMessage (d.env grace) req db).world = _ from hworld]
  cases hbind : bindText req.threadId with
  | error e =>
      have hcall : ((d.env grace).repos.callGetOrCreate req.threadId req.bizId req.w3Account
          db).result = .error e ∧ ((d.env grace).repos.callGetOrCreate req.threadId req.bizId
          req.w3Account db).world.store = db.store := by
        have hfails : db.store.getOrCreate req.threadId req.bizId req.w3Account db.now
            = (.error e, db.store) := by rw [Store.getOrCreate, hbind]
        exact ⟨congrArg Prod.fst hfails, congrArg Prod.snd hfails⟩
      rw [acceptUnder, hbind, Eff.bind_of_error hcall.1]
      exact ⟨rfl, hcall.2.symm⟩
  | ok threadId =>
      have hthread := bindText_eq_ok.mp hbind
      obtain ⟨hsession, hstore⟩ := getOrCreateUnder_noFaults (req.ofThread threadId db.now)
        ⟨db.store, 0⟩
      rw [acceptUnder_eq hthread]
      have hcall : db.store.getOrCreate req.threadId req.bizId req.w3Account db.now =
          ((getOrCreate (req.ofThread threadId db.now) db.store.sessions).1,
            { db.store with sessions :=
                (getOrCreate (req.ofThread threadId db.now) db.store.sessions).2 }) := by
        rw [Store.getOrCreate, hbind]
        rfl
      cases hr : (getOrCreate (req.ofThread threadId db.now) db.store.sessions).1 with
      | error e =>
          have hfails : ((d.env grace).repos.callGetOrCreate req.threadId req.bizId req.w3Account
              db).result = .error e := by
            rw [← hr]
            exact congrArg Prod.fst hcall
          rw [Eff.bind_of_error (hsession.trans hr), Eff.bind_of_error hfails]
          exact ⟨rfl, hstore.trans (congrArg Prod.snd hcall).symm⟩
      | ok session =>
          have hreturns : ((d.env grace).repos.callGetOrCreate req.threadId req.bizId
              req.w3Account db).result = .ok session := by
            rw [← hr]
            exact congrArg Prod.fst hcall
          rw [Eff.bind_of_ok (hsession.trans hr), Eff.bind_of_ok hreturns]
          obtain ⟨hresult', hworld'⟩ := appendUnder_noFaults
            (userMessage req (py "msg_" ++ d.ulids db.next)) rfl (db.now + 1)
            (getOrCreateUnder noFaults (req.ofThread threadId db.now) ⟨db.store, 0⟩).world
          have hafter := hstore.trans (congrArg Prod.snd hcall).symm
          rw [hafter] at hresult' hworld'
          exact ⟨hresult', hworld'⟩

-- ============================================================================
-- A message that is not inserted
-- ============================================================================

/-- The last statement of a request in a new thread fails. -/
def lastFails : Faults := fun n => if n = 4 then some .dbError else none

/-- The session is stored, and the user message is not. -/
theorem not_accept_atomic :
    let run := acceptUnder lastFails (aliceAsks (py "th")) (py "msg_1") 0 1 ⟨.empty, 0⟩
    run.trace = [.selectSession, .insertSession, .selectSession, .selectMaxSeq, .insertMessage] ∧
      run.world.store.sessions.rows.map Session.threadId = [py "th"] ∧
      run.world.store.messages.rows = [] ∧
      ¬ AllOrNothing (aliceAsks (py "th")) (py "msg_1") .empty run.world.store := by
  intro run
  refine ⟨rfl, rfl, rfl, ?_⟩
  rintro (hsame | haccepted)
  · have hrows : run.world.store.sessions.rows.length = 0 := by rw [hsame]; rfl
    exact absurd hrows (by decide)
  · obtain ⟨row, -, hrows⟩ := haccepted.message
    cases hrows

end MasterAgent
