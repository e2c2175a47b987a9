/-
  MasterAgent.Api.Isolation

  Whose messages are in whose threads.  The service handles the requests its
  transports accept one after another, each up to the act at which its client
  leaves.  `Isolated` says of a history and the tables it left that every
  message in a thread comes from the account the thread is bound to, and every
  message loaded for an account from that account.

  Nothing on the way of a request compares the account with that of the
  session row.  Histories are isolated as long as no request names a thread of
  somebody else: `Desk` is the order in which a request uses the repositories,
  and `Ledger` the invariant that this order keeps.
-/

import MasterAgent.Api.Ws
import MasterAgent.Core.HandleWatch
import MasterAgent.Core.Repo.Database

namespace MasterAgent

open Effect StateGraph

variable {σ α : Type}

-- ============================================================================
-- The service over many requests
-- ============================================================================

/-- What reaches the service from outside. -/
inductive Inbound where
  | sse (headers : SseHeaders) (body : Json)
  | ask (conn : WsConnect) (frame : List (PyStr × Json))

/-- The request a transport hands to `ChatService`, if it accepts the input. -/
def Inbound.request (env : Env σ) (loads : JsonLoads) (topics : TopicRegistry) :
    Inbound → Prog σ (Option ChatRequest)
  | .sse headers body => match ChatBody.validate body with
      | none => return none
      | some body => do
          let rid ← sseRequestId env headers
          return (chatSse loads true topics headers rid body).toOption
  | .ask conn frame => match openWs loads true topics conn with
      | .error _ => return none
      | .ok ctx => do
          let rid ← askRequestId env frame
          return some (ctx.askRequest frame rid)

/-- The transports and the service behind them. -/
structure Site where
  deployment : Deployment
  topics : TopicRegistry
  loads : JsonLoads

/-- An input, and how far the request it makes gets: the client is there for its
    first `upto` acts. -/
structure Call where
  inbound : Inbound
  grace : Nat
  upto : Nat

/-- What the service has done, each act for the account of a request, and the
    tables as they are now. -/
structure Service where
  past : List (PyStr × Act)
  db : Db

/-- A transport reads an input. -/
def Call.accepted (site : Site) (c : Call) (db : Db) : Run Db Exn Act (Option ChatRequest) :=
  c.inbound.request (site.deployment.env c.grace) site.loads site.topics db

/-- The acts a request gets to. -/
def Call.acts (site : Site) (c : Call) (req : ChatRequest) (db : Db) : List (Act × Db) :=
  (handle (site.deployment.env c.grace) site.topics req db).acts.take c.upto

def Service.call (site : Site) (svc : Service) (c : Call) : Service :=
  match (c.accepted site svc.db).result with
  | .ok (some req) =>
      let acts := c.acts site req (c.accepted site svc.db).world
      { past := svc.past ++ acts.map fun a => (req.w3Account, a.1)
        db := (acts.getLast?.map Prod.snd).getD (c.accepted site svc.db).world }
  | _ => { svc with db := (c.accepted site svc.db).world }

def Service.run (site : Site) (svc : Service) (calls : List Call) : Service :=
  calls.foldl (Service.call site) svc

-- ============================================================================
-- Isolation
-- ============================================================================

/-- A request of the account put the message into the store. -/
def Produced (past : List (PyStr × Act)) (account messageId : PyStr) : Prop :=
  ∃ msg, (account, .append msg (.ok ())) ∈ past ∧ msg.messageId = messageId

/-- The account of the session row of a thread. -/
def Store.owner (s : Store) (threadId : PyStr) : Option PyStr :=
  (s.sessions.select threadId).map Session.w3Account

structure Isolated (past : List (PyStr × Act)) (s : Store) : Prop where
  stored : ∀ row ∈ s.messages.rows, ∃ owner, s.owner row.threadId = some owner ∧
    ∀ account, Produced past account row.messageId ↔ account = owner
  loaded : ∀ account node u history m, (account, .write node u) ∈ past →
    u.history = some history → m ∈ history →
    ∀ producer, Produced past producer m.messageId ↔ producer = account

/-- The request gets past validation. -/
def Admitted (topics : TopicRegistry) (req : ChatRequest) : Prop :=
  ∃ topic, topics.get req.bizId = some topic ∧ topic.bizParamsModel.accepts req.bizParams = true

/-- The request gets past validation, and its question and request id are
    values a text column takes. -/
def Storable (topics : TopicRegistry) (req : ChatRequest) : Prop :=
  Admitted topics req ∧ (∃ question, req.question = .str question) ∧
    ∃ requestId, bindTextOrNull req.requestId = .ok requestId

/-- The request names a thread that is bound to its topic and to another
    account. -/
def Intrudes (topics : TopicRegistry) (s : Store) (req : ChatRequest) : Prop :=
  Storable topics req ∧ ∃ threadId owner, req.threadId = .str threadId ∧
    s.bound threadId = some (req.bizId, owner) ∧ owner ≠ req.w3Account

/-- No call of the list intrudes when its turn comes. -/
def Service.Guarded (site : Site) (svc : Service) : List Call → Prop
  | [] => True
  | c :: calls =>
      (∀ req, (c.accepted site svc.db).result = .ok (some req) →
        ¬ Intrudes site.topics svc.db.store req) ∧
      (svc.call site c).Guarded site calls

-- ============================================================================
-- How a request uses the repositories
-- ============================================================================

inductive Desk where
  | idle
  /-- The thread is bound to the request's topic. -/
  | bound
  /-- The user message is stored; `read` are the ids of the messages read. -/
  | stored (read : List PyStr)

section Desk

variable (topics : TopicRegistry) (req : ChatRequest)

open Classical in
/-- A request uses its own thread, topic and account.  It stores its question
    before anything else, and its history is among what it read. -/
noncomputable def Desk.step : Desk → Act → Option Desk
  | desk, .getOrCreate t bizId w3Account r =>
      if Admitted topics req ∧ t = req.threadId ∧ bizId = req.bizId ∧ w3Account = req.w3Account
      then match desk, r with
        | .idle, .ok _ => some .bound
        | desk, _ => some desk
      else none
  | .idle, .append _ _ => none
  | .bound, .append msg r =>
      if msg.threadId = req.threadId ∧ msg.content = req.question ∧ msg.requestId = req.requestId
      then match r with
        | .ok () => some (.stored [])
        | .error _ => some .bound
      else none
  | .stored read, .append msg _ =>
      if msg.threadId = req.threadId then some (.stored read) else none
  | .stored read, .listRecent t _ r =>
      if t = req.threadId then match r with
        | .ok msgs => some (.stored (read ++ msgs.map Message.messageId))
        | .error _ => some (.stored read)
      else none
  | _, .listRecent _ _ _ => none
  | desk, .write _ u => match u.history, desk with
      | none, desk => some desk
      | some history, .stored read =>
          if history.map Message.messageId ⊆ read then some (.stored read) else none
      | some _, _ => none
  | desk, _ => some desk

end Desk

-- ============================================================================
-- A request keeps to the desk
-- ============================================================================

section Handle

variable {env : Env σ} {topics : TopicRegistry} {topic : CompiledTopic} {req : ChatRequest}
  {s : GraphState} {read : List PyStr}

/-- The state of a graph run for the request. -/
structure SameRequest (req : ChatRequest) (s : GraphState) : Prop where
  threadId : s.threadId = req.threadId
  bizId : s.bizId = req.bizId
  identity : ∃ who, s.identity = some who ∧ who.w3Account = req.w3Account

theorem OfRequest.same (h : OfRequest req s) (hname : req.OwnName) : SameRequest req s :=
  ⟨h.threadId, h.bizId, req.who, h.identity, hname⟩

theorem newMessageId_desk (desk : Desk) :
    Watched (Desk.step topics req) desk (newMessageId env) fun _ desk' => desk' = desk := by
  have hdraw : Watched (Desk.step topics req) desk (Eff.draw env.newUlid : Prog σ PyStr)
      fun _ desk' => desk' = desk := .draw fun _ => rfl
  exact hdraw.bind fun _ _ hdesk => .ret hdesk

theorem persistUserMessage_desk (hadmitted : Admitted topics req) :
    Watched (Desk.step topics req) .idle (persistUserMessage env req)
      fun _ desk => desk = .stored [] := by
  refine Repos.withConn_watched _ (fun _ _ => rfl) (fun _ _ => rfl) ?_
  have hbind : Watched (Desk.step topics req) .idle
      (env.repos.callGetOrCreate req.threadId req.bizId req.w3Account)
      fun _ desk => desk = .bound := by
    refine .call_answer fun r => ?_
    cases r with
    | error e => exact ⟨.idle, by simp [Desk.step, hadmitted], nofun⟩
    | ok session => exact ⟨.bound, by simp [Desk.step, hadmitted], fun _ _ => rfl⟩
  refine hbind.bind fun _ desk hdesk => ?_
  subst hdesk
  refine (newMessageId_desk _).bind fun messageId desk hdesk => ?_
  subst hdesk
  refine .call_answer fun r => ?_
  cases r with
  | error e => exact ⟨.bound, by simp [Desk.step, userMessage], nofun⟩
  | ok u => exact ⟨.stored [], by simp [Desk.step, userMessage], fun _ _ => rfl⟩

/-- load_session reads, and takes its history from what it read. -/
theorem loadSessionNode_desk (hadmitted : Admitted topics req) (hs : SameRequest req s) :
    Watched (Desk.step topics req) (.stored read) (loadSessionNode env topic s)
      fun u desk => ∃ read', desk = .stored read' ∧ ∀ history, u.history = some history →
        history.map Message.messageId ⊆ read' := by
  obtain ⟨who, hidentity, hwho⟩ := hs.identity
  refine Repos.withConn_watched _ (fun _ _ => rfl) (fun _ _ => rfl) ?_
  have hself : Watched (Desk.step topics req) (.stored read)
      (Eff.ofExcept (s.identity.elim (.error .attributeError) .ok) : Prog σ AuthnIdentity)
      fun identity desk => identity = who ∧ desk = .stored read := by
    refine .ofExcept fun identity h => ?_
    rw [hidentity] at h
    cases h
    exact ⟨rfl, rfl⟩
  refine hself.bind fun identity desk hself => ?_
  obtain ⟨rfl, rfl⟩ := hself
  have hbind : Watched (Desk.step topics req) (.stored read)
      (env.repos.callGetOrCreate s.threadId s.bizId identity.w3Account)
      fun _ desk => desk = .stored read := by
    refine .call fun r => ?_
    simp [Desk.step, hadmitted, hs.threadId, hs.bizId, hwho]
  refine hbind.bind fun _ desk hdesk => ?_
  subst hdesk
  have hread : Watched (Desk.step topics req) (.stored read)
      (env.repos.callListRecent s.threadId (topic.history.maxTurns * 4))
      fun msgs desk => desk = .stored (read ++ msgs.map Message.messageId) := by
    refine .call_answer fun r => ?_
    cases r with
    | error e => exact ⟨.stored read, by simp [Desk.step, hs.threadId], nofun⟩
    | ok msgs =>
        refine ⟨.stored (read ++ msgs.map Message.messageId), by simp [Desk.step, hs.threadId],
          fun a ha => ?_⟩
        cases ha
        rfl
  refine hread.bind fun msgs desk hdesk => .ret ⟨_, hdesk, fun history hhistory => ?_⟩
  cases hhistory
  intro id hid
  obtain ⟨m, hm, rfl⟩ := List.mem_map.mp hid
  exact List.mem_append_right _ (List.mem_map_of_mem
    (List.mem_reverse.mp (mem_of_mem_recentTurns hm)))

/-- Once the user message is stored, the desk only watches load_session and the
    thread of the assistant message. -/
theorem desk_attentive :
    Attentive (Desk.step topics req) req fun desk => ∃ read, desk = .stored read where
  offline := by
    intro desk a hoffline hwrite
    cases a with
    | write n u => exact absurd rfl (hwrite n u)
    | getOrCreate => cases hoffline
    | append => cases hoffline
    | listRecent => cases hoffline
    | touch => cases hoffline
    | _ => rfl
  touch := fun _ _ _ => rfl
  write := by
    rintro desk n u ⟨read, rfl⟩ hhistory
    simp [Desk.step, hhistory]
  answer := by
    rintro desk s content r ⟨read, rfl⟩ hs
    exact ⟨.stored read, by simp [Desk.step, assistantMessage, hs.threadId], read, rfl⟩

/-- Every request keeps to the desk. -/
theorem handle_desk (hname : req.OwnName) :
    Watched (Desk.step topics req) .idle (handle env topics req) fun _ _ => True := by
  refine desk_attentive.handle (fun desk => desk = .stored []) (fun topic htopic hparams => ?_)
    fun topic htopic hparams s desk hs hdesk => ?_
  · exact persistUserMessage_desk ⟨topic, htopic, hparams⟩
  · subst hdesk
    refine visit_watched rfl
      (loadSessionNode_desk ⟨topic, htopic, hparams⟩ (hs.same hname)) fun u desk b h _ => ?_
    obtain ⟨read', rfl, hhistory⟩ := h
    refine ⟨.stored read', ?_, ⟨read', rfl⟩, hs.merge u⟩
    show Desk.step topics req (.stored read') (.write (py "load_session") u) = _
    cases hu : u.history with
    | none => simp [Desk.step, hu]
    | some history => simp [Desk.step, hu, hhistory history hu]

end Handle

-- ============================================================================
-- The ledger
-- ============================================================================

/-- The message is stored, in a thread bound to the account. -/
def Store.Holds (s : Store) (account messageId : PyStr) : Prop :=
  ∃ row ∈ s.messages.rows, row.messageId = messageId ∧
    ∃ bizId, s.bound row.threadId = some (bizId, account)

theorem Store.Holds.grows {s s' : Store} {account messageId : PyStr}
    (h : s.Holds account messageId) (hgrows : s.Grows s') : s'.Holds account messageId := by
  obtain ⟨row, hrow, hid, bizId, hbound⟩ := h
  exact ⟨row, hgrows.rows row hrow, hid, bizId, hgrows.bound _ _ hbound⟩

/-- A message is in a thread of one account. -/
theorem Store.Holds.unique {s : Store} {account account' messageId : PyStr}
    (h : s.Holds account messageId) (h' : s.Holds account' messageId) : account' = account := by
  obtain ⟨row, hrow, hid, bizId, hbound⟩ := h
  obtain ⟨row', hrow', hid', bizId', hbound'⟩ := h'
  have hsame : row' = row :=
    List.inj_on_of_nodup_map s.messages.primaryKey hrow' hrow (hid'.trans hid.symm)
  rw [hsame, hbound, Option.some.injEq, Prod.mk.injEq] at hbound'
  exact hbound'.2.symm

/-- What was put into the store, what is in it, and what was loaded from it. -/
structure Ledger (past : List (PyStr × Act)) (s : Store) : Prop where
  appended : ∀ account msg, (account, .append msg (.ok ())) ∈ past →
    s.Holds account msg.messageId
  rows : ∀ row ∈ s.messages.rows, ∃ account, Produced past account row.messageId
  loaded : ∀ account node u history m, (account, .write node u) ∈ past →
    u.history = some history → m ∈ history → s.Holds account m.messageId

theorem Ledger.empty : Ledger [] .empty where
  appended := fun _ _ h => (List.not_mem_nil h).elim
  rows := fun _ h => (List.not_mem_nil h).elim
  loaded := fun _ _ _ _ _ h => (List.not_mem_nil h).elim

section Ledger

variable {past : List (PyStr × Act)} {s s' : Store}

theorem Ledger.produced_iff (h : Ledger past s) {owner messageId : PyStr}
    (hholds : s.Holds owner messageId) (account : PyStr) :
    Produced past account messageId ↔ account = owner := by
  constructor
  · rintro ⟨msg, hmsg, rfl⟩
    exact hholds.unique (h.appended account msg hmsg)
  · rintro rfl
    obtain ⟨row, hrow, rfl, bizId, hbound⟩ := hholds
    obtain ⟨account', msg, hmsg, hid⟩ := h.rows row hrow
    have hsame : account = account' :=
      (h.appended account' msg hmsg).unique (hid ▸ ⟨row, hrow, rfl, bizId, hbound⟩)
    exact hsame ▸ ⟨msg, hmsg, hid⟩

/-- A ledger in order is an isolated history. -/
theorem Ledger.isolated (h : Ledger past s) : Isolated past s where
  stored := fun row hrow => by
    obtain ⟨account, msg, hmsg, hid⟩ := h.rows row hrow
    obtain ⟨row', hrow', hid', bizId, hbound⟩ := h.appended account msg hmsg
    have hsame : row' = row :=
      List.inj_on_of_nodup_map s.messages.primaryKey hrow' hrow (hid'.trans hid)
    subst hsame
    refine ⟨account, ?_, h.produced_iff ⟨row', hrow', rfl, bizId, hbound⟩⟩
    unfold Store.bound at hbound
    unfold Store.owner
    cases hselect : s.sessions.select row'.threadId with
    | none =>
        rw [hselect] at hbound
        cases hbound
    | some session =>
        rw [hselect, Option.map_some, Option.some.injEq, Prod.mk.injEq] at hbound
        rw [Option.map_some, hbound.2]
  loaded := fun account node u history m hwrite hhistory hm =>
    h.produced_iff (h.loaded account node u history m hwrite hhistory hm)

/-- The next act goes into the ledger when what it stores or loads is in threads
    of its account. -/
theorem Ledger.enter (h : Ledger past s) {account : PyStr} {a : Act} (hstep : StoreStep s a s')
    (happend : ∀ msg, a = .append msg (.ok ()) → s'.Holds account msg.messageId)
    (hwrite : ∀ node u history m, a = .write node u → u.history = some history → m ∈ history →
      s'.Holds account m.messageId) :
    Ledger (past ++ [(account, a)]) s' := by
  have hgrows := storeStep_grows hstep
  refine ⟨fun account' msg hmsg => ?_, fun row hrow => ?_, fun account' node u history m hmem => ?_⟩
  · rcases List.mem_append.mp hmsg with hmsg | hmsg
    · exact (h.appended account' msg hmsg).grows hgrows
    · rw [List.mem_singleton, Prod.mk.injEq] at hmsg
      obtain ⟨rfl, rfl⟩ := hmsg
      exact happend msg rfl
  · have hold : row ∈ s.messages.rows →
        ∃ account', Produced (past ++ [(account, a)]) account' row.messageId := by
      intro hrow
      obtain ⟨account', msg, hmsg, hid⟩ := h.rows row hrow
      exact ⟨account', msg, List.mem_append_left _ hmsg, hid⟩
    rcases storeStep_messages hstep with hsame | ⟨msg, rfl⟩
    · exact hold (hsame ▸ hrow)
    · obtain ⟨-, new, hins, hnew, -⟩ := storeStep_append hstep
      rw [MessageTable.insert_rows hins] at hrow
      rcases List.mem_append.mp hrow with hrow | hrow
      · exact hold hrow
      · rw [List.mem_singleton.mp hrow]
        exact ⟨account, msg, List.mem_append_right _ (List.mem_singleton.mpr rfl),
          hnew.messageId.symm⟩
  · rcases List.mem_append.mp hmem with hmem | hmem
    · exact fun hhistory hm =>
        (h.loaded account' node u history m hmem hhistory hm).grows hgrows
    · rw [List.mem_singleton, Prod.mk.injEq] at hmem
      obtain ⟨rfl, rfl⟩ := hmem
      exact hwrite node u history m rfl

end Ledger

-- ============================================================================
-- One request
-- ============================================================================

section Request

variable {topics : TopicRegistry} {req : ChatRequest} {s s' : Store}

/-- What the tables hold for a request that has come to a desk state. -/
def Desk.Holds (topics : TopicRegistry) (req : ChatRequest) (s : Store) : Desk → Prop
  | .idle => True
  | .bound => Admitted topics req ∧ ∃ threadId owner, req.threadId = .str threadId ∧
      s.bound threadId = some (req.bizId, owner)
  | .stored read => (∃ threadId, req.threadId = .str threadId ∧
      s.bound threadId = some (req.bizId, req.w3Account)) ∧
      ∀ messageId ∈ read, s.Holds req.w3Account messageId

theorem Desk.Holds.grows {desk : Desk} (h : desk.Holds topics req s) (hgrows : s.Grows s') :
    desk.Holds topics req s' := by
  cases desk with
  | idle => trivial
  | bound =>
      obtain ⟨hadmitted, threadId, owner, hthread, hbound⟩ := h
      exact ⟨hadmitted, threadId, owner, hthread, hgrows.bound _ _ hbound⟩
  | stored read =>
      obtain ⟨⟨threadId, hthread, hbound⟩, hread⟩ := h
      exact ⟨⟨threadId, hthread, hgrows.bound _ _ hbound⟩,
        fun messageId hmem => (hread messageId hmem).grows hgrows⟩

/-- A request that keeps to the desk does not come to intrude. -/
theorem not_intrudes_step {desk desk' : Desk} {a : Act} (h : ¬ Intrudes topics s req)
    (hdesk : Desk.step topics req desk a = some desk') (hstep : StoreStep s a s') :
    ¬ Intrudes topics s' req := by
  rintro ⟨hstorable, threadId, owner, hthread, hbound, howner⟩
  rcases storeStep_bound hstep threadId with hsame | ⟨-, bizId, w3Account, r, rfl, hnew⟩
  · exact h ⟨hstorable, threadId, owner, hthread, hsame ▸ hbound, howner⟩
  · rw [hnew, Option.some.injEq, Prod.mk.injEq] at hbound
    simp only [Desk.step] at hdesk
    split at hdesk
    · next hown => exact howner (hbound.2.symm.trans hown.2.2.2)
    · cases hdesk

/-- The append of a request that does not intrude goes into a thread of its own. -/
theorem append_holds {desk desk' : Desk} {msg : Message} (hintrudes : ¬ Intrudes topics s req)
    (hholds : desk.Holds topics req s)
    (hdesk : Desk.step topics req desk (.append msg (.ok ())) = some desk')
    (hstep : StoreStep s (.append msg (.ok ())) s') :
    s'.Holds req.w3Account msg.messageId ∧ desk'.Holds topics req s' := by
  obtain ⟨hsessions, row, hins, hrow, -⟩ := storeStep_append hstep
  have hbound : ∀ threadId, s'.bound threadId = s.bound threadId := by
    intro threadId
    simp only [Store.bound, hsessions]
  have hmem : row ∈ s'.messages.rows := by
    rw [MessageTable.insert_rows hins]
    exact List.mem_append_right _ (List.mem_singleton.mpr rfl)
  cases desk with
  | idle => cases hdesk
  | bound =>
      simp only [Desk.step] at hdesk
      split at hdesk
      · next hown =>
        cases hdesk
        obtain ⟨hadmitted, threadId, owner, hthread, howner⟩ := hholds
        have hrowThread : threadId = row.threadId := by
          have h := hrow.threadId
          rwa [hown.1, hthread, Json.str.injEq] at h
        have hstorable : Storable topics req :=
          ⟨hadmitted, ⟨row.content, hown.2.1 ▸ hrow.content⟩, row.requestId,
            hown.2.2 ▸ hrow.requestId⟩
        have hself : owner = req.w3Account := by
          by_contra hne
          exact hintrudes ⟨hstorable, threadId, owner, hthread, howner, hne⟩
        rw [hself, ← hbound] at howner
        exact ⟨⟨row, hmem, hrow.messageId, req.bizId, hrowThread ▸ howner⟩,
          ⟨threadId, hthread, howner⟩, fun _ h => (List.not_mem_nil h).elim⟩
      · cases hdesk
  | stored read =>
      simp only [Desk.step] at hdesk
      split at hdesk
      · next hown =>
        cases hdesk
        obtain ⟨threadId, hthread, howner⟩ := hholds.1
        have hrowThread : threadId = row.threadId := by
          have h := hrow.threadId
          rwa [hown, hthread, Json.str.injEq] at h
        refine ⟨⟨row, hmem, hrow.messageId, req.bizId, ?_⟩,
          hholds.grows (storeStep_grows hstep)⟩
        rw [hbound, ← hrowThread]
        exact howner
      · cases hdesk

/-- One act of a request that does not intrude. -/
theorem desk_holds_step {desk desk' : Desk} {a : Act} (hintrudes : ¬ Intrudes topics s req)
    (hholds : desk.Holds topics req s) (hdesk : Desk.step topics req desk a = some desk')
    (hstep : StoreStep s a s') : desk'.Holds topics req s' := by
  have hgrows := storeStep_grows hstep
  cases a with
  | append msg r =>
      cases r with
      | ok u => exact (append_holds hintrudes hholds hdesk hstep).2
      | error e =>
          have hsame : desk' = desk := by
            cases desk with
            | idle => cases hdesk
            | bound =>
                simp only [Desk.step] at hdesk
                split at hdesk <;> cases hdesk
                rfl
            | stored read =>
                simp only [Desk.step] at hdesk
                split at hdesk <;> cases hdesk
                rfl
          exact hsame ▸ hholds.grows hgrows
  | getOrCreate t bizId w3Account r =>
      simp only [Desk.step] at hdesk
      split at hdesk
      · next hown =>
        obtain ⟨hadmitted, rfl, rfl, rfl⟩ := hown
        cases desk with
        | idle =>
            cases r with
            | error e =>
                cases hdesk
                trivial
            | ok session =>
                cases hdesk
                obtain ⟨threadId, owner, hthread, hbound⟩ := storeStep_getOrCreate hstep
                exact ⟨hadmitted, threadId, owner, hthread, hbound⟩
        | _ =>
            cases hdesk
            exact hholds.grows hgrows
      · cases hdesk
  | listRecent t limit r =>
      cases desk with
      | stored read =>
          simp only [Desk.step] at hdesk
          split at hdesk
          · next hown =>
            cases r with
            | error e =>
                cases hdesk
                exact hholds.grows hgrows
            | ok msgs =>
                cases hdesk
                obtain ⟨rfl, hmsgs⟩ := storeStep_listRecent hstep
                obtain ⟨⟨threadId, hthread, hbound⟩, hread⟩ := hholds
                refine ⟨⟨threadId, hthread, hbound⟩, fun messageId hmem => ?_⟩
                rcases List.mem_append.mp hmem with hmem | hmem
                · exact hread messageId hmem
                · obtain ⟨m, hm, rfl⟩ := List.mem_map.mp hmem
                  obtain ⟨row, hrow, hid, hrowThread⟩ := hmsgs m hm
                  rw [hown, hthread, Json.str.injEq] at hrowThread
                  exact ⟨row, hrow, hid, req.bizId, hrowThread ▸ hbound⟩
          · cases hdesk
      | _ => cases hdesk
  | write node u =>
      have hsame : desk' = desk := by
        simp only [Desk.step] at hdesk
        split at hdesk
        · cases hdesk
          rfl
        · split at hdesk <;> cases hdesk
          rfl
        · cases hdesk
      exact hsame ▸ hholds.grows hgrows
  | _ =>
      have hsame : desk' = desk := by
        cases desk <;> cases hdesk <;> rfl
      exact hsame ▸ hholds.grows hgrows

/-- What a graph run loads is in threads of the account. -/
theorem write_holds {desk desk' : Desk} {node : PyStr} {u : Update} {history : List Message}
    {m : Message} (hholds : desk.Holds topics req s)
    (hdesk : Desk.step topics req desk (.write node u) = some desk')
    (hhistory : u.history = some history) (hm : m ∈ history) :
    s.Holds req.w3Account m.messageId := by
  cases desk with
  | stored read =>
      simp only [Desk.step, hhistory] at hdesk
      split at hdesk
      · next hread => exact hholds.2 _ (hread (List.mem_map_of_mem hm))
      · cases hdesk
  | _ => simp [Desk.step, hhistory] at hdesk

/-- A request that does not intrude keeps the ledger in order, as far as it
    gets. -/
theorem ledger_request {past : List (PyStr × Act)} {acts : List (Act × Store)} {desk : Desk}
    (hledger : Ledger past s) (hintrudes : ¬ Intrudes topics s req)
    (hpath : Path StoreStep s acts s')
    (hwatch : watch (Desk.step topics req) .idle (acts.map Prod.fst) = some desk) :
    Ledger (past ++ acts.map fun a => (req.w3Account, a.1)) s' := by
  let I := fun (ts : List Act) (s : Store) => ∀ desk,
    watch (Desk.step topics req) .idle ts = some desk →
      Ledger (past ++ ts.map fun a => (req.w3Account, a)) s ∧ ¬ Intrudes topics s req ∧
        desk.Holds topics req s
  have hinv : I (acts.map Prod.fst) s' := by
    refine hpath.invariant ?_ ?_
    · rintro desk ⟨⟩
      exact ⟨by simpa using hledger, hintrudes, trivial⟩
    · intro ts s a s' ih hstep desk' hwatch
      obtain ⟨desk, desk₂, hdesk', hstep', hend⟩ := watch_act hwatch
      cases hend
      obtain ⟨hledger, hintrudes, hholds⟩ := ih desk hdesk'
      refine ⟨?_, not_intrudes_step hintrudes hstep' hstep,
        desk_holds_step hintrudes hholds hstep' hstep⟩
      rw [List.map_append, ← List.append_assoc]
      refine hledger.enter hstep (fun msg hmsg => ?_) fun node u history m hwrite hhistory hm => ?_
      · subst hmsg
        exact (append_holds hintrudes hholds hstep' hstep).1
      · subst hwrite
        exact (write_holds hholds hstep' hhistory hm).grows (storeStep_grows hstep)
  have hend := (hinv desk hwatch).1
  rwa [List.map_map] at hend

end Request

-- ============================================================================
-- All requests
-- ============================================================================

section Run

variable {site : Site} {svc : Service} {c : Call}

/-- Reading an input does not touch the tables. -/
theorem accepted_store (site : Site) (c : Call) (db : Db) :
    (c.accepted site db).world.store = db.store := by
  unfold Call.accepted Inbound.request
  cases hinbound : c.inbound with
  | sse headers body =>
      cases hbody : ChatBody.validate body with
      | none =>
          simp only [hbody]
          rfl
      | some body =>
          simp only [hbody, sseRequestId]
          split <;> rfl
  | ask conn frame =>
      cases hopen : openWs site.loads true site.topics conn with
      | error e =>
          simp only [hopen]
          rfl
      | ok ctx =>
          simp only [hopen, askRequestId]
          split <;> rfl

/-- A request a transport accepts runs under the account it names. -/
theorem accepted_ownName {db : Db} {req : ChatRequest}
    (h : (c.accepted site db).result = .ok (some req)) : req.OwnName := by
  unfold Call.accepted Inbound.request at h
  cases hinbound : c.inbound with
  | sse headers body =>
      cases hbody : ChatBody.validate body with
      | none =>
          simp only [hinbound, hbody] at h
          cases h
      | some body =>
          simp only [hinbound, hbody] at h
          have hreturns : (sseRequestId (site.deployment.env c.grace) headers >>= fun rid =>
              (pure (chatSse site.loads true site.topics headers rid body).toOption :
                Prog Db _)).ReturnsOnly fun r => ∀ req, r = some req → req.OwnName := by
            refine .bind fun rid => .ret fun req hreq => ?_
            cases hsse : chatSse site.loads true site.topics headers rid body with
            | error e =>
                rw [hsse] at hreq
                cases hreq
            | ok req' =>
                rw [hsse] at hreq
                cases hreq
                obtain ⟨-, -, -, extraClaims, rfl⟩ := chatSse_accepts hsse
                exact body.request_ownName headers rid extraClaims
          exact hreturns db _ h req rfl
  | ask conn frame =>
      cases hopen : openWs site.loads true site.topics conn with
      | error e =>
          simp only [hinbound, hopen] at h
          cases h
      | ok ctx =>
          simp only [hinbound, hopen] at h
          obtain ⟨-, -, rfl⟩ := openWs_accepts hopen
          have hreturns : (askRequestId (site.deployment.env c.grace) frame >>= fun rid =>
              (pure (some ((conn.context site.loads).askRequest frame rid)) :
                Prog Db _)).ReturnsOnly fun r => ∀ req, r = some req → req.OwnName := by
            refine .bind fun rid => .ret fun req hreq => ?_
            cases hreq
            exact conn.askRequest_ownName site.loads frame rid
          exact hreturns db _ h req rfl

/-- One input, taken in by the service. -/
theorem ledger_call (h : Ledger svc.past svc.db.store)
    (hguard : ∀ req, (c.accepted site svc.db).result = .ok (some req) →
      ¬ Intrudes site.topics svc.db.store req) :
    Ledger (svc.call site c).past (svc.call site c).db.store := by
  have hstore := accepted_store site c svc.db
  unfold Service.call
  split
  · next req hreq =>
    let run := handle (site.deployment.env c.grace) site.topics req (c.accepted site svc.db).world
    have hpath : Path StoreStep svc.db.store ((run.seen Db.store).take c.upto)
        ((((run.seen Db.store).take c.upto).getLast?.map Prod.snd).getD svc.db.store) := by
      rw [← hstore]
      exact (handle_traces rfl (fun _ => rfl) site.topics req _).take c.upto
    have hdesk : Watched (Desk.step site.topics req) .idle
        (handle (site.deployment.env c.grace) site.topics req) fun _ _ => True :=
      handle_desk (accepted_ownName hreq)
    obtain ⟨desk, hwatch⟩ := hdesk.watch_of_isPrefix (List.take_prefix c.upto run.trace)
    have hacts : ((run.seen Db.store).take c.upto).map Prod.fst = run.trace.take c.upto := by
      simp [Run.seen, Run.trace, Function.comp_def]
    have hend := ledger_request h (hguard req hreq) hpath (hacts ▸ hwatch)
    have hdb : (((c.acts site req (c.accepted site svc.db).world).getLast?.map Prod.snd).getD
        (c.accepted site svc.db).world).store
        = (((run.seen Db.store).take c.upto).getLast?.map Prod.snd).getD svc.db.store := by
      rw [Call.acts, Run.seen, ← List.map_take, List.getLast?_map, ← hstore]
      cases (run.acts.take c.upto).getLast? <;> rfl
    have hpast : (c.acts site req (c.accepted site svc.db).world).map
          (fun a => (req.w3Account, a.1))
        = ((run.seen Db.store).take c.upto).map fun a => (req.w3Account, a.1) := by
      simp [Call.acts, Run.seen, run, Function.comp_def]
    show Ledger (svc.past ++ _) _
    rw [hdb, hpast]
    exact hend
  · rw [hstore]
    exact h

theorem ledger_run {calls : List Call} (h : Ledger svc.past svc.db.store)
    (hguarded : svc.Guarded site calls) :
    Ledger (svc.run site calls).past (svc.run site calls).db.store := by
  induction calls generalizing svc with
  | nil => exact h
  | cons c calls ih => exact ih (ledger_call h hguarded.1) hguarded.2

end Run

/-- The service before its first request. -/
def Service.start (now next : Nat) : Service := ⟨[], ⟨.empty, now, next⟩⟩

/-- For all topics, plugins, transports' inputs and points at which clients
    leave: as long as no request intrudes, what was stored in a thread comes from
    the account it is bound to, and what was loaded for an account from that
    account. -/
theorem run_isolated (site : Site) (now next : Nat) (calls : List Call)
    (hguarded : (Service.start now next).Guarded site calls) :
    Isolated ((Service.start now next).run site calls).past
      ((Service.start now next).run site calls).db.store :=
  (@ledger_run site (.start now next) calls Ledger.empty hguarded).isolated

-- ============================================================================
-- A small site
-- ============================================================================

/-- The account and the id of a message an act puts into the store. -/
def storedBy : PyStr × Act → Option (PyStr × PyStr)
  | (account, .append msg (.ok ())) => some (account, msg.messageId)
  | _ => none

theorem produced_iff_mem {past : List (PyStr × Act)} {account messageId : PyStr} :
    Produced past account messageId ↔ (account, messageId) ∈ past.filterMap storedBy := by
  rw [List.mem_filterMap]
  constructor
  · rintro ⟨msg, hmsg, rfl⟩
    exact ⟨_, hmsg, rfl⟩
  · rintro ⟨⟨account', a⟩, hmem, ha⟩
    unfold storedBy at ha
    split at ha
    · next msg heq =>
      cases ha
      cases heq
      exact ⟨msg, hmem, rfl⟩
    · cases ha

/-- A site whose only topic answers with one delta. -/
def smallSite : Site where
  deployment := smallDeployment
  topics := oneTopic (smallTopic openAuth plainEnrich (scripted [⟨[deltaEvent (py "a")], .ok ()⟩]))
  loads := fun _ => .ok .null

/-- An ask over a WebSocket connection of the account. -/
def asks (account : String) (frame : List (PyStr × Json)) : Call where
  inbound := .ask { w3Account := some (py account), bizId := some (py "topic") }
    ((py "question", .str (py "q")) :: frame)
  grace := 0
  upto := 100

/-- The account and the id of a message an act loads. -/
def loadedBy : PyStr × Act → List (PyStr × PyStr)
  | (account, .write _ u) => (u.history.getD []).map fun m => (account, m.messageId)
  | _ => []

theorem loaded_of_mem {past : List (PyStr × Act)} {account messageId : PyStr}
    (h : (account, messageId) ∈ past.flatMap loadedBy) :
    ∃ node u history m, (account, .write node u) ∈ past ∧ u.history = some history ∧
      m ∈ history ∧ m.messageId = messageId := by
  obtain ⟨⟨account', a⟩, hmem, ha⟩ := List.mem_flatMap.mp h
  unfold loadedBy at ha
  split at ha
  · next node u heq =>
    cases heq
    obtain ⟨m, hm, hid⟩ := List.mem_map.mp ha
    cases hid
    cases hhistory : u.history with
    | none =>
        rw [hhistory] at hm
        exact (List.not_mem_nil hm).elim
    | some history =>
        rw [hhistory] at hm
        exact ⟨node, u, history, m, hmem, hhistory, hm, rfl⟩
  · exact (List.not_mem_nil ha).elim

set_option maxRecDepth 20000 in
/-- Two requests of alice in one thread, and one of bob in another. -/
theorem run_isolated_two_threads :
    let svc := (Service.start 0 0).run smallSite
      [asks "alice" [(py "thread_id", .str (py "a"))],
        asks "alice" [(py "thread_id", .str (py "a"))],
        asks "bob" [(py "thread_id", .str (py "b"))]]
    Isolated svc.past svc.db.store := by
  refine run_isolated smallSite 0 0 _ ⟨?_, ?_, ?_, trivial⟩
  · rintro req ⟨⟩ ⟨-, threadId, owner, ⟨⟩, hbound, -⟩
    cases hbound
  · rintro req ⟨⟩ ⟨-, threadId, owner, ⟨⟩, hbound, hother⟩
    cases hbound
    exact hother rfl
  · rintro req ⟨⟩ ⟨-, threadId, owner, ⟨⟩, hbound, -⟩
    cases hbound

set_option maxRecDepth 20000 in
/-- Asks that name no thread share one: bob's question is stored in a thread of
    alice, and hers is loaded for him. -/
theorem run_not_isolated_unknown :
    let svc := (Service.start 0 0).run smallSite [asks "alice" [], asks "bob" []]
    (∃ row ∈ svc.db.store.messages.rows, svc.db.store.owner row.threadId = some (py "alice") ∧
      Produced svc.past (py "bob") row.messageId) ∧
    (∃ node u history m, (py "bob", .write node u) ∈ svc.past ∧ u.history = some history ∧
      m ∈ history ∧ Produced svc.past (py "alice") m.messageId) ∧
    ¬ Isolated svc.past svc.db.store := by
  intro svc
  have hbob : ∃ row ∈ svc.db.store.messages.rows,
      svc.db.store.owner row.threadId = some (py "alice") ∧
        (py "bob", row.messageId) ∈ svc.past.filterMap storedBy := by decide
  have halice : ∃ p ∈ svc.past.flatMap loadedBy, p.1 = py "bob" ∧
      (py "alice", p.2) ∈ svc.past.filterMap storedBy := by decide
  obtain ⟨row, hrow, howner, hproduced⟩ := hbob
  rw [← produced_iff_mem] at hproduced
  refine ⟨⟨row, hrow, howner, hproduced⟩, ?_, fun hisolated => ?_⟩
  · obtain ⟨⟨account, messageId⟩, hmem, rfl, hstored⟩ := halice
    obtain ⟨node, u, history, m, hwrite, hhistory, hm, rfl⟩ := loaded_of_mem hmem
    exact ⟨node, u, history, m, hwrite, hhistory, hm, produced_iff_mem.mpr hstored⟩
  · obtain ⟨owner, howner', honly⟩ := hisolated.stored row hrow
    rw [howner, Option.some.injEq] at howner'
    have hsame := (honly (py "bob")).mp hproduced
    rw [← howner', py_inj] at hsame
    exact absurd hsame (by decide)

end MasterAgent
