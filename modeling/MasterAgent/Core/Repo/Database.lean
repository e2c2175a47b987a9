/-
  MasterAgent.Core.Repo.Database

  The repositories over the two tables, and what the acts of a request do to
  these: every run of the service is a path of `StoreStep`, on which session
  rows stay as they are but for their timestamps, and message rows are only
  added.
-/

import MasterAgent.Core.GraphActs
import MasterAgent.Core.Repo.MessageRepository
import MasterAgent.Core.Repo.SessionRepository
import MasterAgent.Lib.Transition

namespace MasterAgent

open Effect

-- ============================================================================
-- The tables
-- ============================================================================

structure Store where
  sessions : SessionTable
  messages : MessageTable

namespace Store

def empty : Store := ⟨.empty, .empty⟩

variable (s : Store)

def getOrCreate (threadId : Json) (bizId w3Account : PyStr) (now : Timestamp) :
    Except Exn Session × Store :=
  match bindText threadId with
  | .error e => (.error e, s)
  | .ok threadId =>
      let (r, sessions) := MasterAgent.getOrCreate { threadId, bizId, w3Account, now } s.sessions
      (r, { s with sessions })

def append (msg : Message) (now : Timestamp) : Except Exn Unit × Store :=
  let (r, messages) := MasterAgent.append msg now s.messages
  (r, { s with messages })

def listRecent (threadId : Json) (limit : Nat) : Except Exn (List Message) :=
  MasterAgent.listRecent threadId limit s.messages

def touch (threadId : Json) (now : Timestamp) : Except Exn Unit × Store :=
  match bindText threadId with
  | .error e => (.error e, s)
  | .ok threadId => (.ok (), { s with sessions := s.sessions.touch threadId now })

end Store

/-- The tables, the clock, and how many ULIDs have been drawn. -/
structure Db where
  store : Store
  now : Timestamp
  next : Nat

/-- The clock has moved when a statement has written. -/
def Db.wrote {α : Type} (db : Db) (r : Except Exn α × Store) : Except Exn α × Db :=
  (r.1, { db with store := r.2, now := db.now + 1 })

/-- The repositories on the tables; a connection is always to be had. -/
def Repos.db : Repos Db where
  acquire := fun db => (.ok (), db)
  release := fun db => (.ok (), db)
  getOrCreate := fun threadId bizId w3Account db =>
    db.wrote (db.store.getOrCreate threadId bizId w3Account db.now)
  append := fun msg db => db.wrote (db.store.append msg db.now)
  listRecent := fun threadId limit db => (db.store.listRecent threadId limit, db)
  touch := fun threadId db => db.wrote (db.store.touch threadId db.now)

/-- A deployment of the service on the tables. -/
structure Deployment where
  engine : StateGraph.Engine PyStr Db Exn Act GraphState Update graphStateKeys
  ulids : Nat → PyStr
  validationDetail : Json → PyStr
  repr : PyStr → PyStr

/-- The environment of a request, its graph being cancelled `grace` acts after
    it was abandoned. -/
def Deployment.env (d : Deployment) (grace : Nat) : Env Db where
  repos := .db
  engine := d.engine
  newUlid := fun db => (d.ulids db.next, { db with next := db.next + 1 })
  validationDetail := d.validationDetail
  repr := d.repr
  grace := grace

-- ============================================================================
-- The tables along a run
-- ============================================================================

/-- What an act does to the tables. -/
def StoreStep (s : Store) : Act → Store → Prop
  | .getOrCreate threadId bizId w3Account r, s' =>
      ∃ now, (r, s') = s.getOrCreate threadId bizId w3Account now
  | .append msg r, s' => ∃ now, (r, s') = s.append msg now
  | .listRecent threadId limit r, s' => r = s.listRecent threadId limit ∧ s' = s
  | .touch threadId r, s' => ∃ now, (r, s') = s.touch threadId now
  | _, s' => s' = s

-- ============================================================================
-- What a step does
-- ============================================================================

/-- The biz_id and the account a thread is bound to. -/
def Store.bound (s : Store) (threadId : PyStr) : Option (PyStr × PyStr) :=
  (s.sessions.select threadId).map fun row => (row.bizId, row.w3Account)

/-- The row an append inserts holds what the message says. -/
structure RowOf (msg : Message) (row : MessageRow) : Prop where
  messageId : row.messageId = msg.messageId
  threadId : msg.threadId = .str row.threadId
  role : row.role = msg.role
  status : row.status = msg.status
  content : msg.content = .str row.content
  requestId : bindTextOrNull msg.requestId = .ok row.requestId

theorem toRow_spec {msg : Message} {seq : Int} {now : Timestamp} {row : MessageRow}
    (h : msg.toRow seq now = .ok row) : RowOf msg row ∧ row.seq = seq := by
  unfold Message.toRow at h
  obtain ⟨threadId, ht, h⟩ := exists_of_bind_eq_ok h
  obtain ⟨content, hc, h⟩ := exists_of_bind_eq_ok h
  obtain ⟨requestId, hr, h⟩ := exists_of_bind_eq_ok h
  cases h
  exact ⟨⟨rfl, bindText_eq_ok.mp ht, rfl, rfl, bindText_eq_ok.mp hc, hr⟩, rfl⟩

theorem insertMessage_cases (msg : Message) (seq : Int) (now : Timestamp) (t : MessageTable) :
    (∃ e, insertMessage msg seq now t = (.error e, t)) ∨
      ∃ row t', t.insert row = .ok t' ∧ RowOf msg row ∧ row.seq = seq ∧
        insertMessage msg seq now t = (.ok (), t') := by
  unfold insertMessage
  cases hrow : msg.toRow seq now with
  | error e => exact Or.inl ⟨e, rfl⟩
  | ok row =>
      simp only
      cases hins : t.insert row with
      | error e => exact Or.inl ⟨e, rfl⟩
      | ok t' => exact Or.inr ⟨row, t', hins, (toRow_spec hrow).1, (toRow_spec hrow).2, rfl⟩

/-- An append adds the row of its message and returns, or raises and changes
    nothing.  Without a seq of its own the row is the last of its thread. -/
theorem append_cases (msg : Message) (now : Timestamp) (t : MessageTable) :
    (∃ e, append msg now t = (.error e, t)) ∨
      ∃ row t', t.insert row = .ok t' ∧ RowOf msg row ∧
        (msg.seq = 0 → row.seq = t.maxSeq row.threadId + 1) ∧
        append msg now t = (.ok (), t') := by
  unfold append
  by_cases hseq : msg.seq = 0
  · rw [if_pos hseq]
    cases ht : bindText msg.threadId with
    | error e => exact Or.inl ⟨e, rfl⟩
    | ok threadId =>
        rcases insertMessage_cases msg (t.maxSeq threadId + 1) now t with
          h | ⟨row, t', hins, hrow, hnext, h⟩
        · exact Or.inl h
        · refine Or.inr ⟨row, t', hins, hrow, fun _ => ?_, h⟩
          have hthread : row.threadId = threadId := by
            have h1 := hrow.threadId
            rw [bindText_eq_ok.mp ht, Json.str.injEq] at h1
            exact h1.symm
          rw [hnext, hthread]
  · rw [if_neg hseq]
    rcases insertMessage_cases msg msg.seq now t with h | ⟨row, t', hins, hrow, -, h⟩
    · exact Or.inl h
    · exact Or.inr ⟨row, t', hins, hrow, fun h0 => (hseq h0).elim, h⟩

/-- An append that returned added its row. -/
theorem storeStep_append {s s' : Store} {msg : Message}
    (h : StoreStep s (.append msg (.ok ())) s') :
    s'.sessions = s.sessions ∧ ∃ row, s.messages.insert row = .ok s'.messages ∧ RowOf msg row ∧
      (msg.seq = 0 → row.seq = s.messages.maxSeq row.threadId + 1) := by
  obtain ⟨now, h⟩ := h
  rcases append_cases msg now s.messages with ⟨e, heq⟩ | ⟨row, t', hins, hrow, hseq, heq⟩
  · rw [Store.append, heq] at h
    cases h
  · rw [Store.append, heq] at h
    cases h
    exact ⟨rfl, row, hins, hrow, hseq⟩

/-- A step leaves the messages as they are, or it is an append that returned. -/
theorem storeStep_messages {s s' : Store} {a : Act} (h : StoreStep s a s') :
    s'.messages = s.messages ∨ ∃ msg, a = .append msg (.ok ()) := by
  cases a with
  | append msg r =>
      cases r with
      | ok u => exact Or.inr ⟨msg, rfl⟩
      | error e =>
          obtain ⟨now, h⟩ := h
          rcases append_cases msg now s.messages with ⟨e', heq⟩ | ⟨row, t', -, -, -, heq⟩
          · rw [Store.append, heq] at h
            cases h
            exact Or.inl rfl
          · rw [Store.append, heq] at h
            cases h
  | getOrCreate threadId bizId w3Account r =>
      obtain ⟨now, h⟩ := h
      unfold Store.getOrCreate at h
      split at h <;> cases h <;> exact Or.inl rfl
  | touch threadId r =>
      obtain ⟨now, h⟩ := h
      unfold Store.touch at h
      split at h <;> cases h <;> exact Or.inl rfl
  | listRecent threadId limit r =>
      obtain ⟨-, rfl⟩ := h
      exact Or.inl rfl
  | _ =>
      have hsame : s' = s := h
      exact Or.inl (congrArg Store.messages hsame)

/-- The binding of a thread stays, or it was free and a get_or_create of the
    step bound it. -/
theorem storeStep_bound {s s' : Store} {a : Act} (h : StoreStep s a s') (threadId : PyStr) :
    s'.bound threadId = s.bound threadId ∨
      s.bound threadId = none ∧ ∃ bizId w3Account r,
        a = .getOrCreate (.str threadId) bizId w3Account r ∧
        s'.bound threadId = some (bizId, w3Account) := by
  cases a with
  | getOrCreate t bizId w3Account r =>
      obtain ⟨now, h⟩ := h
      cases t with
      | str t =>
          simp only [Store.getOrCreate, bindText] at h
          rcases getOrCreate_cases { threadId := t, bizId, w3Account, now } s.sessions with
            ⟨row, -, -, heq⟩ | ⟨row, -, -, heq⟩ | ⟨hnone, heq⟩
          · rw [heq] at h
            cases h
            exact Or.inl rfl
          · rw [heq] at h
            cases h
            exact Or.inl rfl
          · rw [heq] at h
            cases h
            by_cases ht : t = threadId
            · subst ht
              refine Or.inr ⟨?_, bizId, w3Account, _, rfl, ?_⟩
              · simp only [Store.bound, hnone, Option.map_none]
              · simp only [Store.bound, GetOrCreate.select_newRow hnone, Option.map_some]
                rfl
            · refine Or.inl ?_
              simp only [Store.bound]
              rw [SessionTable.select_insert_other (by exact ht)]
      | _ =>
          simp only [Store.getOrCreate, bindText] at h
          cases h
          exact Or.inl rfl
  | touch t r =>
      obtain ⟨now, h⟩ := h
      unfold Store.touch at h
      split at h
      · cases h
        exact Or.inl rfl
      · cases h
        refine Or.inl ?_
        simp only [Store.bound, SessionTable.select_touch, Option.map_map]
        congr 1
        funext row
        simp only [Function.comp_apply, SessionTable.touchRow]
        split <;> rfl
  | append msg r =>
      obtain ⟨now, h⟩ := h
      cases h
      exact Or.inl rfl
  | listRecent t limit r =>
      obtain ⟨-, rfl⟩ := h
      exact Or.inl rfl
  | _ =>
      have hsame : s' = s := h
      exact Or.inl (congrArg (fun s => Store.bound s threadId) hsame)

/-- A get_or_create that returned leaves the thread bound to its biz_id. -/
theorem storeStep_getOrCreate {s s' : Store} {t : Json} {bizId w3Account : PyStr}
    {session : Session} (h : StoreStep s (.getOrCreate t bizId w3Account (.ok session)) s') :
    ∃ threadId account, t = .str threadId ∧ s'.bound threadId = some (bizId, account) := by
  obtain ⟨now, h⟩ := h
  cases t with
  | str t =>
      simp only [Store.getOrCreate, bindText] at h
      rcases getOrCreate_cases { threadId := t, bizId, w3Account, now } s.sessions with
        ⟨row, -, -, heq⟩ | ⟨row, hrow, hbiz, heq⟩ | ⟨hnone, heq⟩
      · rw [heq] at h
        cases h
      · rw [heq] at h
        cases h
        refine ⟨t, row.w3Account, rfl, ?_⟩
        simp only [Store.bound, hrow, Option.map_some, hbiz]
      · rw [heq] at h
        cases h
        refine ⟨t, w3Account, rfl, ?_⟩
        simp only [Store.bound, GetOrCreate.select_newRow hnone, Option.map_some]
        rfl
  | _ =>
      simp only [Store.getOrCreate, bindText] at h
      cases h

/-- What a list_recent returned is stored, in the thread asked for. -/
theorem storeStep_listRecent {s s' : Store} {t : Json} {limit : Nat} {msgs : List Message}
    (h : StoreStep s (.listRecent t limit (.ok msgs)) s') :
    s' = s ∧ ∀ m ∈ msgs, ∃ row ∈ s.messages.rows, row.messageId = m.messageId ∧
      t = .str row.threadId := by
  obtain ⟨hr, rfl⟩ := h
  refine ⟨rfl, fun m hm => ?_⟩
  unfold Store.listRecent listRecent at hr
  cases t with
  | str t =>
      simp only [bindText, bind, Except.bind, pure, Except.pure, Except.ok.injEq] at hr
      rw [hr, List.mem_map] at hm
      obtain ⟨row, hrow, rfl⟩ := hm
      have hmem := List.mem_of_mem_take hrow
      rw [List.mem_insertionSort, List.mem_filter, decide_eq_true_eq] at hmem
      exact ⟨row, hmem.1, rfl, by rw [hmem.2.1]⟩
  | _ =>
      simp only [bindText, bind, Except.bind] at hr
      cases hr

/-- Rows are only added and bindings only made. -/
structure Store.Grows (s s' : Store) : Prop where
  rows : ∀ row ∈ s.messages.rows, row ∈ s'.messages.rows
  bound : ∀ threadId binding, s.bound threadId = some binding →
    s'.bound threadId = some binding

theorem storeStep_grows {s s' : Store} {a : Act} (h : StoreStep s a s') : s.Grows s' where
  rows := fun row hrow => by
    rcases storeStep_messages h with hsame | ⟨msg, rfl⟩
    · rw [hsame]
      exact hrow
    · obtain ⟨-, new, hins, -⟩ := storeStep_append h
      rw [MessageTable.insert_rows hins]
      exact List.mem_append_left _ hrow
  bound := fun threadId binding hbound => by
    rcases storeStep_bound h threadId with hsame | ⟨hnone, -⟩
    · exact hsame.trans hbound
    · rw [hnone] at hbound
      cases hbound

-- ============================================================================
-- Runs on the tables
-- ============================================================================

theorem inert_of_offline {a : Act} (h : a.offline = true) : Inert StoreStep a := by
  intro s
  cases a <;> first | rfl | cases h

/-- Runs on the tables. -/
abbrev Follow {α : Type} (p : Prog Db α) : Prop := Traces Db.store StoreStep p

section Programs

variable {α : Type} {env : Env Db} (hdb : env.repos = .db)
include hdb

theorem withConn_traces {body : Prog Db α} (h : Follow body) :
    Follow (env.repos.withConn body) := by
  rw [hdb]
  exact .bind (.call fun _ => rfl) fun _ => .bind (.attempt h) fun _ =>
    .bind (.call fun _ => rfl) fun _ => .ofExcept _

theorem callGetOrCreate_traces (threadId : Json) (bizId w3Account : PyStr) :
    Follow (env.repos.callGetOrCreate threadId bizId w3Account) := by
  rw [hdb]
  exact .call fun db => ⟨db.now, rfl⟩

theorem callAppend_traces (msg : Message) : Follow (env.repos.callAppend msg) := by
  rw [hdb]
  exact .call fun db => ⟨db.now, rfl⟩

theorem callListRecent_traces (threadId : Json) (limit : Nat) :
    Follow (env.repos.callListRecent threadId limit) := by
  rw [hdb]
  exact .call fun _ => ⟨rfl, rfl⟩

theorem callTouch_traces (threadId : Json) : Follow (env.repos.callTouch threadId) := by
  rw [hdb]
  exact .call fun db => ⟨db.now, rfl⟩

theorem pipeline_traces (topic : CompiledTopic) (s : GraphState) :
    Follow (pipeline env topic s) := by
  have hlogic : @StageLogic Db fun _ p => Follow p :=
    ⟨.bind, .ret, fun _ => .act fun _ => rfl, fun _ _ => .act fun _ => rfl, fun _ => .ofExcept _⟩
  -- a node that plays acts of a kind that calls no repository
  have hplay : ∀ {P : Act → Prop} {ts : List Act} {r : Except Exn Update},
      (Eff.play ts r : Prog Db Update).ActsOnly P → (∀ a, P a → a.offline = true) →
      Follow (Eff.play ts r) := by
    intro P ts r hacts hP
    refine .play fun a ha => inert_of_offline (hP a (hacts ⟨.empty, 0, 0⟩ a ?_))
    rwa [Eff.play_trace]
  refine hlogic.pipeline (fun s => ?_) (fun s => ?_) (fun s => ?_) (fun s => ?_) (fun s => ?_)
    (fun n adapter s => ?_) (fun s => ?_) s
  · exact withConn_traces hdb (.bind (.ofExcept _) fun _ =>
      .bind (callGetOrCreate_traces hdb _ _ _) fun _ =>
        .bind (callListRecent_traces hdb _ _) fun _ => .ret _)
  · have hacts := @authNode_acts Db topic s
    rw [makeAuthNode_live] at hacts ⊢
    cases h : topic.auth.authorize s with
    | error e =>
        rw [h] at hacts
        exact hplay hacts fun _ => AuthAct.offline
    | ok r =>
        rw [h] at hacts
        exact hplay hacts fun _ => AuthAct.offline
  · have hacts := @rejectNode_acts Db topic s
    rw [makeRejectNode_live] at hacts ⊢
    exact hplay hacts fun _ => RejectAct.offline
  · have hacts := @enrichNode_acts Db topic s
    rw [makeEnrichNode_live] at hacts ⊢
    cases h : topic.enrich.enrich s with
    | error e =>
        rw [h] at hacts
        exact hplay hacts fun _ => EnrichAct.offline
    | ok r =>
        rw [h] at hacts
        exact hplay hacts fun _ => EnrichAct.offline
  · have hacts := intentNode_acts env topic s topic.mapping
    unfold topicIntentNode at hacts ⊢
    rw [makeIntentNode_live] at hacts ⊢
    exact hplay hacts fun _ => IntentAct.offline
  · have hacts := @adapterNode_acts Db topic s n adapter
    rw [topicAdapterNode_live] at hacts ⊢
    exact hplay hacts fun _ => AdapterAct.offline
  · exact withConn_traces hdb (.bind (.ofExcept _) fun _ =>
      .bind (callAppend_traces hdb _) fun _ => .bind (callTouch_traces hdb _) fun _ => .ret _)

theorem relayed_traces (topic : CompiledTopic) (s : GraphState) :
    Follow (relayed env topic s) := by
  refine (pipeline_traces hdb topic s).consume (fun a out hout o ho => ?_) env.grace
  obtain ⟨ev, rfl⟩ := (relay_yields hout).1 o ho
  exact inert_of_offline rfl

theorem persistUserMessage_traces (hulid : ∀ db, (env.newUlid db).2.store = db.store)
    (req : ChatRequest) : Follow (persistUserMessage env req) :=
  withConn_traces hdb (.bind (callGetOrCreate_traces hdb _ _ _) fun _ =>
    .bind (.bind (.draw hulid) fun _ => .ret _) fun _ => callAppend_traces hdb _)

theorem afterUser_traces (topic : CompiledTopic) (req : ChatRequest) (messageId : PyStr)
    (r : Except Exn Unit) : Follow (afterUser env topic req messageId r) := by
  have hyield : ∀ ev, Follow (Eff.act (.yield ev) : Prog Db Unit) :=
    fun _ => .act (inert_of_offline rfl)
  cases r with
  | error e =>
      cases e with
      | sessionBizMismatch detail => exact .bind (hyield _) fun _ => hyield _
      | _ => exact .raise _
  | ok u =>
      cases hbuild : buildGraph env topic with
      | error e =>
          simp only [afterUser, hbuild]
          show Follow (Eff.raise e)
          exact .raise e
      | ok g =>
          simp only [afterUser, hbuild]
          have hloop : Follow (chatLoop env topic req g messageId) := by
            unfold chatLoop
            rw [graph_run_eq_pipeline hbuild]
            refine .bind (.attempt (relayed_traces hdb topic _)) fun r => ?_
            cases r with
            | ok u => exact .ret _
            | error e =>
                show Follow (if e.isException then _ else _)
                split
                · exact hyield _
                · exact .raise _
          show Follow (chatLoop env topic req g messageId >>= fun _ => Eff.act _)
          exact .bind hloop fun _ => hyield _

theorem handle_traces (hulid : ∀ db, (env.newUlid db).2.store = db.store)
    (topics : TopicRegistry) (req : ChatRequest) : Follow (handle env topics req) := by
  have hyield : ∀ ev, Follow (Eff.act (.yield ev) : Prog Db Unit) :=
    fun _ => .act (inert_of_offline rfl)
  unfold handle
  split
  · exact .bind (hyield _) fun _ => hyield _
  · next topic _ =>
    split
    · show Follow (newMessageId env >>= fun messageId => Eff.act _ >>= fun _ =>
        Eff.attempt (persistUserMessage env req) >>= afterUser env topic req messageId)
      exact .bind (.bind (.draw hulid) fun _ => .ret _) fun _ => .bind (hyield _) fun _ =>
        .bind (.attempt (persistUserMessage_traces hdb hulid req)) fun _ =>
          afterUser_traces hdb topic req _ _
    · exact .bind (hyield _) fun _ => hyield _

end Programs

-- ============================================================================
-- A small deployment
-- ============================================================================

/-- A deployment whose ULIDs are rows of zeros. -/
def smallDeployment : Deployment where
  engine := .lenient _ _ _ _ _ _ _
  ulids := fun n => List.replicate n (codePoint '0')
  validationDetail := fun _ => py "1 validation error"
  repr := fun s => py "'" ++ s ++ py "'"

/-- The database before the first request. -/
def Db.initial : Db := ⟨.empty, 0, 0⟩

end MasterAgent
