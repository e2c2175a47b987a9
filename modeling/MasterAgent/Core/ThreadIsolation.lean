/-
  MasterAgent.Core.ThreadIsolation

  Threads do not see each other.  A request calls the repositories on its own
  thread only, so it is indifferent to the rest of the tables: whatever other
  threads hold, it does the same acts, asks its plugins on the same states and
  sends its client the same events; and it leaves the other threads as they are.
  Only the supply of message ids and the clock are shared.
-/

import MasterAgent.Core.HistoryRace
import MasterAgent.Lib.Indifference

namespace MasterAgent

open Effect StateGraph

variable {σ : Type}

-- ============================================================================
-- A request on its thread
-- ============================================================================

/-- Operations that answer the same in related worlds. -/
def Stable {α : Type} (R : σ → σ → Prop) (f : σ → α × σ) : Prop :=
  ∀ w w', R w w' → (f w).1 = (f w').1 ∧ R (f w).2 (f w').2

/-- The environment tells related worlds apart neither by the calls on the thread
    nor by the ids it draws, which satisfy `Id`. -/
structure Confined (env : Env σ) (threadId : PyStr) (Id : PyStr → Prop) (R : σ → σ → Prop) :
    Prop where
  acquire : Stable R env.repos.acquire
  release : Stable R env.repos.release
  getOrCreate : ∀ bizId w3Account, Stable R (env.repos.getOrCreate (.str threadId) bizId w3Account)
  append : ∀ msg : Message, msg.threadId = .str threadId → Id msg.messageId →
    Stable R (env.repos.append msg)
  listRecent : ∀ limit, Stable R (env.repos.listRecent (.str threadId) limit)
  touch : Stable R (env.repos.touch (.str threadId))
  newUlid : Stable R env.newUlid
  ids : ∀ w w', R w w' → Id (py "msg_" ++ (env.newUlid w).1)

section Confined

variable {env : Env σ} {threadId : PyStr} {Id : PyStr → Prop} {R : σ → σ → Prop}
  (hconfined : Confined env threadId Id R) {topic : CompiledTopic} {s : GraphState}
include hconfined

/-- A block on a connection. -/
theorem Confined.withConn {α : Type} {body : Prog σ α} (h : Eff.Indifferent R body) :
    Eff.Indifferent R (env.repos.withConn body) :=
  (Eff.Indifferent.call hconfined.acquire).bind fun _ => h.attempt.bind fun _ =>
    (Eff.Indifferent.call hconfined.release).bind fun _ => .ofExcept _

theorem Confined.newMessageId : Eff.Indifferent R (newMessageId env) :=
  (Eff.Indifferent.draw hconfined.newUlid).bind fun _ => .ret _

theorem Confined.newMessageId_id (w w' : σ) (h : R w w') (messageId : PyStr)
    (hid : (MasterAgent.newMessageId env w).result = .ok messageId) : Id messageId := by
  cases hid
  exact hconfined.ids w w' h

/-- load_session reads its own thread. -/
theorem Confined.loadSessionNode (hthread : s.threadId = .str threadId) :
    Eff.Indifferent R (loadSessionNode env topic s) := by
  refine hconfined.withConn ((Eff.Indifferent.ofExcept _).bind fun identity => ?_)
  rw [hthread]
  exact (Eff.Indifferent.call (hconfined.getOrCreate _ _)).bind fun _ =>
    (Eff.Indifferent.call (hconfined.listRecent _)).bind fun _ => .ret _

/-- persist stores in its own thread. -/
theorem Confined.persistNode (hthread : s.threadId = .str threadId) (hid : Id s.assistantMessageId) :
    Eff.Indifferent R (persistNode env s) := by
  refine hconfined.withConn ((Eff.Indifferent.ofExcept _).bind fun content => ?_)
  refine (Eff.Indifferent.call (hconfined.append _ hthread hid)).bind fun _ => ?_
  rw [hthread]
  exact (Eff.Indifferent.call hconfined.touch).bind fun _ => .ret _

/-- The states of a graph run on the thread. -/
def OnThread (threadId : PyStr) (Id : PyStr → Prop) (s : GraphState) : Prop :=
  s.threadId = .str threadId ∧ Id s.assistantMessageId

omit hconfined in
/-- A node and the rest of the graph. -/
theorem indifferent_visit {β γ : Type} {n : PyStr} {f : NodeFn σ} {next : GraphState → Except Exn β}
    {rest : GraphState × β → Prog σ γ} (hs : OnThread threadId Id s)
    (hf : Eff.Indifferent R (f s))
    (hrest : ∀ p, OnThread threadId Id p.1 → Eff.Indifferent R (rest p)) :
    Eff.Indifferent R (visit langGraph n f s next >>= rest) := by
  have hkeeps : (visit langGraph n f s next).ReturnsOnly fun p => OnThread threadId Id p.1 :=
    visit_keeps fun _ => hs
  exact (visit_indifferent hf).bind_of (fun w _ _ => hkeeps w) hrest

theorem Confined.persistStage (hs : OnThread threadId Id s) :
    Eff.Indifferent R (persistStage env s) :=
  indifferent_visit hs (hconfined.persistNode hs.1 hs.2) fun _ _ => .ret _

theorem Confined.rejectStage (hs : OnThread threadId Id s) :
    Eff.Indifferent R (rejectStage env topic s) := by
  have hnode : Eff.Indifferent R (makeRejectNode (NodeEnv.live σ) topic.errorMessages s) := by
    rw [makeRejectNode_live]
    exact .play _ _
  exact indifferent_visit hs hnode fun _ hp => hconfined.persistStage hp

theorem Confined.adapterStage (hs : OnThread threadId Id s) (routed : RoutedAdapter topic) :
    Eff.Indifferent R (adapterStage env topic routed s) := by
  have hnode : Eff.Indifferent R
      (topicAdapterNode topic routed.node routed.adapter s : Prog σ Update) := by
    rw [topicAdapterNode_live]
    exact .play _ _
  exact indifferent_visit hs hnode fun _ hp => hconfined.persistStage hp

theorem Confined.answerStage (hs : OnThread threadId Id s) :
    Eff.Indifferent R (answerStage env topic s) := by
  have henrich : Eff.Indifferent R (makeEnrichNode (NodeEnv.live σ) topic.enrich s) := by
    rw [makeEnrichNode_live]
    cases topic.enrich.enrich s with
    | error e => exact .play _ _
    | ok r => exact .play _ _
  have hintent : ∀ s, Eff.Indifferent R (topicIntentNode env topic topic.mapping s) := by
    intro s
    unfold topicIntentNode
    rw [makeIntentNode_live]
    exact .play _ _
  exact indifferent_visit hs henrich fun p hp =>
    indifferent_visit hp (hintent p.1) fun _ hq => hconfined.adapterStage hq _

/-- The graph of a request on the thread. -/
theorem Confined.pipeline (hs : OnThread threadId Id s) :
    Eff.Indifferent R (pipeline env topic s) := by
  have hauth : ∀ s, Eff.Indifferent R (makeAuthNode (NodeEnv.live σ) topic.auth s) := by
    intro s
    rw [makeAuthNode_live]
    cases topic.auth.authorize s with
    | error e => exact .play _ _
    | ok r => exact .play _ _
  refine indifferent_visit hs (hconfined.loadSessionNode hs.1) fun p hp => ?_
  refine indifferent_visit hp (hauth p.1) fun q hq => ?_
  split
  · exact hconfined.answerStage hq
  · exact hconfined.rejectStage hq

variable {req : ChatRequest} (hreq : req.threadId = .str threadId)
include hreq

theorem Confined.persistUserMessage : Eff.Indifferent R (persistUserMessage env req) := by
  refine hconfined.withConn ?_
  rw [hreq]
  refine (Eff.Indifferent.call (hconfined.getOrCreate _ _)).bind fun _ => ?_
  exact hconfined.newMessageId.bind_of hconfined.newMessageId_id fun messageId hid =>
    .call (hconfined.append _ hreq hid)

theorem Confined.afterUser {messageId : PyStr} (hid : Id messageId) (r : Except Exn Unit) :
    Eff.Indifferent R (afterUser env topic req messageId r) := by
  cases r with
  | error e =>
      cases e with
      | sessionBizMismatch detail => exact (Eff.Indifferent.act _).bind fun _ => .act _
      | _ => exact .raise _
  | ok u =>
      cases hbuild : buildGraph env topic with
      | error e =>
          simp only [MasterAgent.afterUser, hbuild]
          show Eff.Indifferent R (Eff.raise e)
          exact .raise e
      | ok graph =>
          simp only [MasterAgent.afterUser, hbuild]
          have hgraph : Eff.Indifferent R (relayed env topic (initialState req messageId)) :=
            (hconfined.pipeline ⟨hreq, hid⟩).consume _ _
          have hloop : Eff.Indifferent R (chatLoop env topic req graph messageId) := by
            unfold chatLoop
            rw [graph_run_eq_pipeline hbuild]
            refine hgraph.attempt.bind fun r => ?_
            cases r with
            | ok u => exact .ret _
            | error e =>
                show Eff.Indifferent R (if e.isException then _ else _)
                split
                · exact .act _
                · exact .raise e
          show Eff.Indifferent R (chatLoop env topic req graph messageId >>= fun _ => Eff.act _)
          exact hloop.bind fun _ => .act _

/-- A request is indifferent to whatever the calls on its thread do not tell apart. -/
theorem Confined.handle (topics : TopicRegistry) : Eff.Indifferent R (handle env topics req) := by
  unfold MasterAgent.handle
  split
  · exact (Eff.Indifferent.act _).bind fun _ => .act _
  · next topic _ =>
    split
    · show Eff.Indifferent R (MasterAgent.newMessageId env >>= fun messageId => Eff.act _ >>= fun _ =>
        Eff.attempt (MasterAgent.persistUserMessage env req) >>=
          MasterAgent.afterUser env topic req messageId)
      refine hconfined.newMessageId.bind_of hconfined.newMessageId_id fun messageId hid => ?_
      exact (Eff.Indifferent.act _).bind fun _ =>
        (hconfined.persistUserMessage hreq).attempt.bind fun r => hconfined.afterUser hreq hid r
    · exact (Eff.Indifferent.act _).bind fun _ => .act _

end Confined

-- ============================================================================
-- One table beside another
-- ============================================================================

/-- The rows of a thread. -/
def MessageTable.ownRows (t : MessageTable) (threadId : PyStr) : List MessageRow :=
  t.rows.filter (·.threadId = threadId)

/-- The ids that are taken. -/
def MessageTable.ids (t : MessageTable) : List PyStr := t.rows.map MessageRow.messageId

namespace MessageTable

variable {t t' t₁ t₁' : MessageTable} {row : MessageRow} {threadId : PyStr}

theorem slot_mem_iff (h : t.ownRows threadId = t'.ownRows threadId)
    (hrow : row.threadId = threadId) :
    row.slot ∈ t.rows.map MessageRow.slot ↔ row.slot ∈ t'.rows.map MessageRow.slot := by
  have hslot : row.slot = (threadId, row.seq) := by rw [MessageRow.slot, hrow]
  have hseqs : t.seqs threadId = t'.seqs threadId := congrArg (List.map MessageRow.seq) h
  rw [hslot, ← mem_seqs, ← mem_seqs, hseqs]

/-- The INSERT goes through in both tables or in neither. -/
theorem insert_agree (h : t.ownRows threadId = t'.ownRows threadId)
    (hid : row.messageId ∈ t.ids ↔ row.messageId ∈ t'.ids) (hrow : row.threadId = threadId) :
    (∃ t₁ t₁', t.insert row = .ok t₁ ∧ t'.insert row = .ok t₁') ∨
      t.insert row = .error .dbError ∧ t'.insert row = .error .dbError := by
  have hiff : (∃ t₁, t.insert row = .ok t₁) ↔ ∃ t₁', t'.insert row = .ok t₁' := by
    rw [insert_ok_iff, insert_ok_iff, slot_mem_iff h hrow]
    exact and_congr_left' (not_congr hid)
  cases hins : t.insert row with
  | ok t₁ =>
      obtain ⟨t₁', hins'⟩ := hiff.mp ⟨t₁, hins⟩
      exact Or.inl ⟨t₁, t₁', rfl, hins'⟩
  | error e =>
      cases hins' : t'.insert row with
      | ok t₁' =>
          obtain ⟨t₁, hok⟩ := hiff.mpr ⟨t₁', hins'⟩
          rw [hins] at hok
          cases hok
      | error e' => exact Or.inr ⟨by rw [insert_error hins], by rw [insert_error hins']⟩

theorem ownRows_insert (h : t.insert row = .ok t₁) (threadId : PyStr) :
    t₁.ownRows threadId = t.ownRows threadId ++ if row.threadId = threadId then [row] else [] := by
  rw [ownRows, insert_rows h, List.filter_append]
  by_cases hrow : row.threadId = threadId <;> simp [ownRows, hrow]

theorem ids_insert (h : t.insert row = .ok t₁) : t₁.ids = t.ids ++ [row.messageId] := by
  rw [ids, insert_rows h, List.map_append, List.map_singleton, ids]

/-- An append of a message to the thread fares the same in both tables. -/
theorem append_agree {msg : Message} {now : Timestamp}
    (h : t.ownRows threadId = t'.ownRows threadId) (hthread : msg.threadId = .str threadId)
    (hid : msg.messageId ∈ t.ids ↔ msg.messageId ∈ t'.ids) :
    (∃ row t₁ t₁', row.threadId = threadId ∧ t.insert row = .ok t₁ ∧ t'.insert row = .ok t₁' ∧
        MasterAgent.append msg now t = (.ok (), t₁) ∧
        MasterAgent.append msg now t' = (.ok (), t₁')) ∨
      ∃ e, MasterAgent.append msg now t = (.error e, t) ∧
        MasterAgent.append msg now t' = (.error e, t') := by
  have hmax : t.maxSeq threadId = t'.maxSeq threadId := by
    have hseqs : t.seqs threadId = t'.seqs threadId := congrArg (List.map MessageRow.seq) h
    rw [maxSeq, maxSeq, hseqs]
  have hinsert : ∀ seq,
      (∃ row t₁ t₁', row.threadId = threadId ∧ t.insert row = .ok t₁ ∧ t'.insert row = .ok t₁' ∧
          insertMessage msg seq now t = (.ok (), t₁) ∧
          insertMessage msg seq now t' = (.ok (), t₁')) ∨
        ∃ e, insertMessage msg seq now t = (.error e, t) ∧
          insertMessage msg seq now t' = (.error e, t') := by
    intro seq
    unfold insertMessage
    cases hrow : msg.toRow seq now with
    | error e => exact Or.inr ⟨e, rfl, rfl⟩
    | ok row =>
        obtain ⟨hof, -⟩ := toRow_spec hrow
        have hown : row.threadId = threadId := by
          have hsame := hof.threadId
          rw [hthread, Json.str.injEq] at hsame
          exact hsame.symm
        rw [← hof.messageId] at hid
        rcases insert_agree h hid hown with ⟨t₁, t₁', h₁, h₁'⟩ | ⟨h₁, h₁'⟩
        · exact Or.inl ⟨row, t₁, t₁', hown, h₁, h₁', by simp only [h₁], by simp only [h₁']⟩
        · exact Or.inr ⟨.dbError, by simp only [h₁], by simp only [h₁']⟩
  unfold MasterAgent.append
  by_cases hseq : msg.seq = 0
  · have hnext := hinsert (t.maxSeq threadId + 1)
    rw [if_pos hseq, if_pos hseq, hthread]
    simp only [bindText, ← hmax]
    exact hnext
  · rw [if_neg hseq, if_neg hseq]
    exact hinsert _

end MessageTable

-- ============================================================================
-- Two databases
-- ============================================================================

/-- An id that the supply draws from `start` on. -/
def Deployment.Draws (d : Deployment) (start : Nat) (messageId : PyStr) : Prop :=
  ∃ n, start ≤ n ∧ messageId = py "msg_" ++ d.ulids n

/-- The databases hold the same of the thread, are at the same time, and the ids
    drawn from `start` on are free in both or taken in both. -/
structure SameThread (d : Deployment) (threadId : PyStr) (start : Nat) (db db' : Db) : Prop where
  now : db.now = db'.now
  next : db.next = db'.next
  drawn : start ≤ db.next
  session : db.store.sessions.select threadId = db'.store.sessions.select threadId
  rows : db.store.messages.ownRows threadId = db'.store.messages.ownRows threadId
  ids : ∀ messageId, d.Draws start messageId →
    (messageId ∈ db.store.messages.ids ↔ messageId ∈ db'.store.messages.ids)

/-- `db` and `db'` are one database, and its other threads are as they were. -/
structure OthersKept (threadId : PyStr) (before : Store) (db db' : Db) : Prop where
  same : db = db'
  sessions : ∀ other, other ≠ threadId →
    db.store.sessions.select other = before.sessions.select other
  rows : ∀ other, other ≠ threadId →
    db.store.messages.ownRows other = before.messages.ownRows other

section Deployment

variable {d : Deployment} {grace : Nat} {threadId : PyStr} {start : Nat}

theorem sameThread_confined :
    Confined (d.env grace) threadId (d.Draws start) (SameThread d threadId start) where
  acquire := fun db db' h => ⟨rfl, h⟩
  release := fun db db' h => ⟨rfl, h⟩
  getOrCreate := by
    intro bizId w3Account db db' h
    show ((db.wrote _).1 = (db'.wrote _).1) ∧ _
    simp only [Deployment.env, Repos.db, Db.wrote, Store.getOrCreate, bindText, h.now]
    generalize hc : ({ threadId, bizId, w3Account, now := db'.now } : GetOrCreate) = c
    have hid : c.threadId = threadId := by rw [← hc]
    have hselect := h.session
    rw [← hid] at hselect
    rcases getOrCreate_cases c db.store.sessions with
      ⟨row, hrow, hbiz, heq⟩ | ⟨row, hrow, hbiz, heq⟩ | ⟨hnone, heq⟩
    · have heq' : MasterAgent.getOrCreate c db'.store.sessions
          = (.error (c.mismatch row), db'.store.sessions) := by
        simp [MasterAgent.getOrCreate, ← hselect, hrow, GetOrCreate.checked, hbiz]
      rw [heq, heq']
      exact ⟨rfl, rfl, h.next, h.drawn, h.session, h.rows, h.ids⟩
    · have heq' : MasterAgent.getOrCreate c db'.store.sessions
          = (.ok (rowToSession row), db'.store.sessions) := by
        simp [MasterAgent.getOrCreate, ← hselect, hrow, GetOrCreate.checked, hbiz]
      rw [heq, heq']
      exact ⟨rfl, rfl, h.next, h.drawn, h.session, h.rows, h.ids⟩
    · rcases getOrCreate_cases c db'.store.sessions with
        ⟨row, hrow, -, -⟩ | ⟨row, hrow, -, -⟩ | ⟨hnone', heq'⟩
      · rw [← hselect, hnone] at hrow
        cases hrow
      · rw [← hselect, hnone] at hrow
        cases hrow
      · rw [heq, heq']
        refine ⟨rfl, rfl, h.next, h.drawn, ?_, h.rows, h.ids⟩
        show (db.store.sessions.insert c.newRow).select threadId
          = (db'.store.sessions.insert c.newRow).select threadId
        rw [← hid, GetOrCreate.select_newRow hnone, GetOrCreate.select_newRow hnone']
  append := by
    intro msg hthread hid db db' h
    show ((db.wrote _).1 = (db'.wrote _).1) ∧ _
    simp only [Deployment.env, Repos.db, Db.wrote, Store.append, h.now]
    rcases MessageTable.append_agree h.rows hthread (h.ids _ hid) with
      ⟨row, t₁, t₁', hown, hins, hins', heq, heq'⟩ | ⟨e, heq, heq'⟩
    · rw [heq, heq']
      refine ⟨rfl, rfl, h.next, h.drawn, h.session, ?_, fun messageId hdraws => ?_⟩
      · show t₁.ownRows threadId = t₁'.ownRows threadId
        rw [MessageTable.ownRows_insert hins, MessageTable.ownRows_insert hins', h.rows]
      · show messageId ∈ t₁.ids ↔ messageId ∈ t₁'.ids
        rw [MessageTable.ids_insert hins, MessageTable.ids_insert hins', List.mem_append,
          List.mem_append, h.ids messageId hdraws]
    · rw [heq, heq']
      exact ⟨rfl, rfl, h.next, h.drawn, h.session, h.rows, h.ids⟩
  listRecent := by
    intro limit db db' h
    refine ⟨?_, h⟩
    show listRecent (.str threadId) limit db.store.messages
      = listRecent (.str threadId) limit db'.store.messages
    simp only [listRecent, bindText, bind, Except.bind]
    rw [MessageTable.selectRecent_congr (List.Perm.of_eq h.rows)]
  touch := by
    intro db db' h
    refine ⟨rfl, congrArg (· + 1) h.now, h.next, h.drawn, ?_, h.rows, h.ids⟩
    show (db.store.sessions.touch threadId db.now).select threadId
      = (db'.store.sessions.touch threadId db'.now).select threadId
    rw [SessionTable.select_touch, SessionTable.select_touch, h.session, h.now]
  newUlid := by
    intro db db' h
    refine ⟨congrArg d.ulids h.next, h.now, congrArg (· + 1) h.next, ?_, h.session, h.rows, h.ids⟩
    exact Nat.le_succ_of_le h.drawn
  ids := fun db db' h => ⟨db.next, h.drawn, rfl⟩

/-- Nothing of a call on the thread reaches the others. -/
theorem othersKept_confined {before : Store} :
    Confined (d.env grace) threadId (fun _ => True) (OthersKept threadId before) where
  acquire := by
    rintro db _ ⟨rfl, hsessions, hrows⟩
    exact ⟨rfl, rfl, hsessions, hrows⟩
  release := by
    rintro db _ ⟨rfl, hsessions, hrows⟩
    exact ⟨rfl, rfl, hsessions, hrows⟩
  getOrCreate := by
    rintro bizId w3Account db _ ⟨rfl, hsessions, hrows⟩
    refine ⟨rfl, rfl, fun other hother => ?_, hrows⟩
    show ((db.store.getOrCreate (.str threadId) bizId w3Account db.now).2).sessions.select other = _
    simp only [Store.getOrCreate, bindText]
    rcases getOrCreate_cases { threadId, bizId, w3Account, now := db.now } db.store.sessions with
      ⟨row, -, -, heq⟩ | ⟨row, -, -, heq⟩ | ⟨-, heq⟩
    · rw [heq]
      exact hsessions other hother
    · rw [heq]
      exact hsessions other hother
    · rw [heq]
      exact (SessionTable.select_insert_other (Ne.symm hother)).trans (hsessions other hother)
  append := by
    rintro msg hthread - db _ ⟨rfl, hsessions, hrows⟩
    refine ⟨rfl, rfl, hsessions, fun other hother => ?_⟩
    rcases MessageTable.append_agree rfl hthread Iff.rfl with
      ⟨row, t₁, t₁', hown, hins, -, heq, -⟩ | ⟨e, heq, -⟩
    · show (MasterAgent.append msg db.now db.store.messages).2.ownRows other = _
      have hne : row.threadId ≠ other := by
        rw [hown]
        exact Ne.symm hother
      rw [heq, MessageTable.ownRows_insert hins, if_neg hne, List.append_nil]
      exact hrows other hother
    · show (MasterAgent.append msg db.now db.store.messages).2.ownRows other = _
      rw [heq]
      exact hrows other hother
  listRecent := by
    rintro limit db _ ⟨rfl, hsessions, hrows⟩
    exact ⟨rfl, rfl, hsessions, hrows⟩
  touch := by
    rintro db _ ⟨rfl, hsessions, hrows⟩
    refine ⟨rfl, rfl, fun other hother => ?_, hrows⟩
    show (db.store.sessions.touch threadId db.now).select other = _
    have hselect := hsessions other hother
    rw [SessionTable.select_touch, ← hselect]
    cases hrow : db.store.sessions.select other with
    | none => rfl
    | some row =>
        have hid : row.threadId ≠ threadId := by
          rw [SessionTable.select_threadId hrow]
          exact hother
        rw [Option.map_some, SessionTable.touchRow, if_neg hid]
  newUlid := by
    rintro db _ ⟨rfl, hsessions, hrows⟩
    exact ⟨rfl, rfl, hsessions, hrows⟩
  ids := fun _ _ _ => trivial

end Deployment

-- ============================================================================
-- Requests one after another
-- ============================================================================

/-- Requests, each with its grace, handled one after another: the acts of each,
    and the database they leave. -/
def Deployment.serve (d : Deployment) (topics : TopicRegistry) :
    List (Nat × ChatRequest) → Db → List (List Act) × Db
  | [], db => ([], db)
  | (grace, req) :: rest, db =>
      let run := handle (d.env grace) topics req db
      let later := d.serve topics rest run.world
      (run.trace :: later.1, later.2)

section Serve

variable {d : Deployment} {topics : TopicRegistry} {threadId : PyStr} {start : Nat}
  {reqs : List (Nat × ChatRequest)}

theorem serve_sameThread (hthread : ∀ r ∈ reqs, r.2.threadId = .str threadId) {db db' : Db}
    (h : SameThread d threadId start db db') :
    (d.serve topics reqs db).1 = (d.serve topics reqs db').1 ∧
      SameThread d threadId start (d.serve topics reqs db).2 (d.serve topics reqs db').2 := by
  induction reqs generalizing db db' with
  | nil => exact ⟨rfl, h⟩
  | cons r reqs ih =>
      obtain ⟨grace, req⟩ := r
      have hreq := hthread (grace, req) List.mem_cons_self
      have hconfined : Confined (d.env grace) threadId (d.Draws start)
          (SameThread d threadId start) := sameThread_confined
      have hrun := hconfined.handle hreq topics db db' h
      obtain ⟨htraces, hend⟩ := ih (fun r hr => hthread r (List.mem_cons_of_mem _ hr)) hrun.world
      refine ⟨?_, hend⟩
      simp only [Deployment.serve]
      rw [hrun.trace, htraces]

theorem serve_othersKept {before : Store} (hthread : ∀ r ∈ reqs, r.2.threadId = .str threadId)
    {db : Db} (h : OthersKept threadId before db db) :
    OthersKept threadId before (d.serve topics reqs db).2 (d.serve topics reqs db).2 := by
  induction reqs generalizing db with
  | nil => exact h
  | cons r reqs ih =>
      obtain ⟨grace, req⟩ := r
      have hreq := hthread (grace, req) List.mem_cons_self
      have hconfined : Confined (d.env grace) threadId (fun _ => True)
          (OthersKept threadId before) := othersKept_confined
      have hrun := hconfined.handle hreq topics db db h
      exact ih (fun r hr => hthread r (List.mem_cons_of_mem _ hr)) hrun.world

end Serve

/-- For every deployment, every thread, every sequence of requests on it and every
    two databases that hold the same of the thread, whatever else they hold: all
    requests do the same acts in both (the states the plugins are asked on and the
    events the clients are sent among them), the databases hold the same of the
    thread afterwards, and each of them holds of the other threads what it held. -/
theorem threads_isolated (d : Deployment) (topics : TopicRegistry) (threadId : PyStr)
    (reqs : List (Nat × ChatRequest)) (hthread : ∀ r ∈ reqs, r.2.threadId = .str threadId)
    (db db' : Db) (h : SameThread d threadId db.next db db') :
    (d.serve topics reqs db).1 = (d.serve topics reqs db').1 ∧
      SameThread d threadId db.next (d.serve topics reqs db).2 (d.serve topics reqs db').2 ∧
      ∀ other, other ≠ threadId →
        (d.serve topics reqs db).2.store.sessions.select other
          = db.store.sessions.select other ∧
        (d.serve topics reqs db).2.store.messages.ownRows other
          = db.store.messages.ownRows other := by
  obtain ⟨htraces, hsame⟩ := serve_sameThread hthread h
  have hkept : OthersKept threadId db.store db db := ⟨rfl, fun _ _ => rfl, fun _ _ => rfl⟩
  have hothers : OthersKept threadId db.store (d.serve topics reqs db).2
      (d.serve topics reqs db).2 := serve_othersKept hthread hkept
  exact ⟨htraces, hsame, fun other hother =>
    ⟨hothers.sessions other hother, hothers.rows other hother⟩⟩

/-- The tables without the first question, at the time it was asked. -/
def nobodyAsked : Db := ⟨.empty, 2, 2⟩

/-- The first question was asked in another thread. -/
theorem sameThread_firstAsked :
    SameThread smallDeployment (py "other") firstAsked.next firstAsked nobodyAsked where
  now := rfl
  next := rfl
  drawn := Nat.le_refl _
  session := rfl
  rows := rfl
  ids := by
    rintro messageId ⟨n, hn, rfl⟩
    -- the ids to come are longer than the one that is taken
    refine ⟨fun hmem => ?_, fun hmem => (List.not_mem_nil hmem).elim⟩
    have hid : py "msg_" ++ smallDeployment.ulids n = py "msg_0" := List.mem_singleton.mp hmem
    have hlength := congrArg List.length hid
    simp only [List.length_append, smallDeployment, List.length_replicate] at hlength
    have hn' : 2 ≤ n := hn
    have hfour : (py "msg_").length = 4 := rfl
    have hfive : (py "msg_0").length = 5 := rfl
    omega

/-- Two requests in a thread do not notice a question in another one, and leave it. -/
theorem threads_isolated_firstAsked :
    let reqs := [(0, aliceAsks (py "other")), (1, aliceAsks (py "other"))]
    let topics := oneTopic oneDelta
    (smallDeployment.serve topics reqs firstAsked).1
        = (smallDeployment.serve topics reqs nobodyAsked).1 ∧
      (smallDeployment.serve topics reqs firstAsked).2.store.messages.ownRows (py "th")
        = firstAsked.store.messages.ownRows (py "th") := by
  intro reqs topics
  have hthread : ∀ r ∈ reqs, r.2.threadId = .str (py "other") := by
    intro r hr
    rcases List.mem_cons.mp hr with rfl | hr
    · rfl
    · rw [List.mem_singleton.mp hr]
      rfl
  have hisolated := threads_isolated smallDeployment topics (py "other") reqs hthread firstAsked
    nobodyAsked sameThread_firstAsked
  have hother : py "th" ≠ py "other" := by decide
  exact ⟨hisolated.1, (hisolated.2.2 (py "th") hother).2⟩

end MasterAgent
