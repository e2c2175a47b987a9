/-
  MasterAgent.Core.Rejection

  The status a stream ends with, and the tables.  `handle` ends with `failed` on
  three early exits, one of them behind the session upsert, and with `complete`
  whatever the graph did.  A failed request leaves both tables as they were; a
  complete one has stored its question once, in a thread bound to its biz_id.
-/

import MasterAgent.Core.AcceptAtomic
import MasterAgent.Core.AnswerRecord
import MasterAgent.Core.InternalNodes

namespace MasterAgent

open Effect StateGraph

variable {σ : Type}

-- ============================================================================
-- What a stream ends with
-- ============================================================================

/-- The status of an event, if it is a done event. -/
def ChatEvent.doneStatus (ev : ChatEvent) : Option Json :=
  if ev.type = .done then dataField (py "status") ev.data else none

/-- The status of the done event a stream ends with. -/
def endStatus (acts : List Act) : Option Json :=
  (word Act.yielded acts).getLast? >>= ChatEvent.doneStatus

/-- The act calls a plugin. -/
def Act.callsPlugin : Act → Bool
  | .authorize _ _ => true
  | .enrich _ _ => true
  | .classify _ _ _ => true
  | .run _ _ _ => true
  | _ => false

@[simp] theorem doneFailed_status : doneFailed.doneStatus = some (.str (py "failed")) := rfl

@[simp] theorem doneComplete_status (messageId : PyStr) :
    (doneComplete messageId).doneStatus = some (.str (py "complete")) := rfl

/-- The status a stream ends with is that of an event it yields. -/
theorem exists_of_endStatus {acts : List Act} {status : Json}
    (h : endStatus acts = some status) :
    ∃ ev, .yield ev ∈ acts ∧ ev.doneStatus = some status := by
  rw [endStatus, Option.bind_eq_bind, Option.bind_eq_some_iff] at h
  obtain ⟨ev, hlast, hstatus⟩ := h
  exact ⟨ev, mem_yielded.mp (List.mem_of_getLast? hlast), hstatus⟩

theorem endStatus_of_last {acts : List Act} {ev : ChatEvent}
    (h : acts.getLast? = some (.yield ev)) : endStatus acts = ev.doneStatus := by
  obtain ⟨past, rfl⟩ := List.getLast?_eq_some_iff.mp h
  rw [endStatus, word_append]
  show (word Act.yielded past ++ [ev]).getLast? >>= _ = _
  rw [List.getLast?_concat]
  rfl

theorem doneStatus_of_type {ev : ChatEvent} (h : ev.type ≠ .done) : ev.doneStatus = none :=
  if_neg h

-- ============================================================================
-- After the question is stored
-- ============================================================================

/-- Acts of a request once its question is stored: no done event but the last
    one, and no message but the assistant's. -/
def AnswerSide (messageId : PyStr) : Act → Prop
  | .yield ev => ev.type = .done → ev = doneComplete messageId
  | .append msg _ => msg.role = py "assistant"
  | _ => True

section After

variable {env : Env σ} {topic : CompiledTopic} {req : ChatRequest} {messageId : PyStr}

theorem pipeline_answerSide (s : GraphState) :
    (pipeline env topic s).ActsOnly (AnswerSide messageId) := by
  refine (actsOnly_stageLogic (fun _ => trivial) fun _ _ => trivial).pipeline
    (fun s => (loadSessionNode_acts env topic s).mono fun a h => ?_)
    (fun s => (authNode_acts topic s).mono fun a h => ?_)
    (fun s => (rejectNode_acts topic s).mono fun a h => ?_)
    (fun s => (enrichNode_acts topic s).mono fun a h => ?_)
    (fun s => (intentNode_acts env topic s topic.mapping).mono fun a h => ?_)
    (fun n adapter s => (adapterNode_acts topic s n adapter).mono fun a h => ?_)
    (fun s => (persistNode_acts env s).mono fun a h => ?_) s
  case refine_7 =>
    cases a with
    | append msg r =>
        obtain ⟨content, -, rfl⟩ := h
        exact rfl
    | yield ev => exact h.elim
    | _ => trivial
  all_goals cases a <;> trivial

/-- The relay yields no done. -/
theorem relay_not_done {errorMessages : Dict PyStr PyStr} {a o : Act} {out : List Act}
    (h : relay errorMessages a = .ok out) (ho : o ∈ out) :
    ∃ ev, o = .yield ev ∧ ev.type ≠ .done := by
  obtain ⟨ev, data, -, -, hdone, rfl⟩ := relay_mem h ho
  exact ⟨_, rfl, hdone⟩

theorem afterUser_answerSide (u : Unit) :
    (afterUser env topic req messageId (.ok u)).ActsOnly (AnswerSide messageId) := by
  refine afterUser_acts (pipeline_answerSide _) (fun a out _ hout o ho => ?_) ?_ (fun _ => rfl) u
  · obtain ⟨ev, rfl, htype⟩ := relay_not_done hout ho
    exact fun hdone => absurd hdone htype
  · exact fun hdone => by simp at hdone

end After

-- ============================================================================
-- The tables
-- ============================================================================

/-- A get_or_create that raises writes nothing. -/
theorem Store.getOrCreate_error {s : Store} {t : Json} {bizId w3Account : PyStr}
    {now : Timestamp} {e : Exn} (h : (s.getOrCreate t bizId w3Account now).1 = .error e) :
    (s.getOrCreate t bizId w3Account now).2 = s := by
  unfold Store.getOrCreate at h ⊢
  cases hbind : bindText t with
  | error e' => rfl
  | ok threadId =>
      simp only [hbind] at h ⊢
      rcases getOrCreate_cases { threadId, bizId, w3Account, now } s.sessions with
        ⟨row, -, -, heq⟩ | ⟨row, -, -, heq⟩ | ⟨-, heq⟩
      · rw [heq]
      · rw [heq] at h
        cases h
      · rw [heq] at h
        cases h

/-- Along a run a thread stays bound to the biz_id a get_or_create returned for. -/
theorem path_bound {s s' : Store} {acts : List (Act × Store)} (h : Path StoreStep s acts s')
    {t : Json} {bizId w3Account : PyStr} {session : Session}
    (hmem : .getOrCreate t bizId w3Account (.ok session) ∈ acts.map Prod.fst) :
    ∃ threadId account, t = .str threadId ∧ s'.bound threadId = some (bizId, account) := by
  refine h.invariant (I := fun past s => .getOrCreate t bizId w3Account (.ok session) ∈ past →
    ∃ threadId account, t = .str threadId ∧ s.bound threadId = some (bizId, account))
    (fun hnil => (List.not_mem_nil hnil).elim) (fun past s a s₁ hpast hstep hin => ?_) hmem
  rcases List.mem_append.mp hin with hin | hin
  · obtain ⟨threadId, account, ht, hbound⟩ := hpast hin
    exact ⟨threadId, account, ht, (storeStep_grows hstep).bound _ _ hbound⟩
  · have ha : a = .getOrCreate t bizId w3Account (.ok session) := (List.mem_singleton.mp hin).symm
    rw [ha] at hstep
    exact storeStep_getOrCreate hstep

/-- The rows of appended messages come behind those of the table. -/
theorem Appends.rows {msgs : List Message} {t t' : MessageTable} (h : Appends msgs t t') :
    ∃ rows, t'.rows = t.rows ++ rows ∧ List.Forall₂ RowOf msgs rows := by
  induction h with
  | nil t => exact ⟨[], (List.append_nil _).symm, .nil⟩
  | @cons msg msgs row t t₁ t' hins hrow hseq hrest ih =>
      obtain ⟨rows, hrows, hof⟩ := ih
      refine ⟨row :: rows, ?_, .cons hrow hof⟩
      rw [hrows, MessageTable.insert_rows hins, List.append_assoc, List.singleton_append]

theorem exists_of_mem_rows {msgs : List Message} {rows : List MessageRow} {row : MessageRow}
    (h : List.Forall₂ RowOf msgs rows) (hrow : row ∈ rows) : ∃ msg ∈ msgs, RowOf msg row := by
  induction h with
  | nil => cases hrow
  | @cons msg r msgs rows hof hrest ih =>
      rcases List.mem_cons.mp hrow with rfl | hrow
      · exact ⟨msg, List.mem_cons_self, hof⟩
      · obtain ⟨m, hm, hof⟩ := ih hrow
        exact ⟨m, List.mem_cons_of_mem _ hm, hof⟩

/-- The question of a request is stored once, as the one user message it adds,
    and its thread is bound to its biz_id. -/
structure AskedOnce (req : ChatRequest) (s s' : Store) : Prop where
  stored : ∃ messageId row rest, s'.messages.rows = s.messages.rows ++ row :: rest ∧
    RowOf (userMessage req messageId) row ∧ ∀ r ∈ rest, r.role ≠ py "user"
  bound : ∃ threadId account, req.threadId = .str threadId ∧
    s'.bound threadId = some (req.bizId, account)

-- ============================================================================
-- Storing the question
-- ============================================================================

/-- Storing the question fails by a biz_id mismatch: nothing is written. -/
theorem persistUserMessage_mismatch {d : Deployment} {grace : Nat} {req : ChatRequest} {db : Db}
    {detail : PyStr}
    (h : (persistUserMessage (d.env grace) req db).result = .error (.sessionBizMismatch detail)) :
    (persistUserMessage (d.env grace) req db).world.store = db.store := by
  obtain ⟨hresult, hworld⟩ := withConn_db ((d.env grace).repos.callGetOrCreate req.threadId
    req.bizId req.w3Account >>= fun _ => newMessageId (d.env grace) >>= fun messageId =>
      (d.env grace).repos.callAppend (userMessage req messageId)) db
  rw [show (persistUserMessage (d.env grace) req db).result = _ from hresult] at h
  rw [show (persistUserMessage (d.env grace) req db).world = _ from hworld]
  cases hcall : ((d.env grace).repos.callGetOrCreate req.threadId req.bizId req.w3Account
      db).result with
  | error e =>
      rw [Eff.bind_of_error hcall]
      exact Store.getOrCreate_error hcall
  | ok session =>
      -- the append raises nothing but a database error
      rw [Eff.bind_of_ok hcall] at h
      generalize ((d.env grace).repos.callGetOrCreate req.threadId req.bizId req.w3Account
        db).world = db₁ at h
      have hraised : (append (userMessage req (py "msg_" ++ d.ulids db₁.next)) db₁.now
          db₁.store.messages).1 = .error (.sessionBizMismatch detail) := h
      cases append_error hraised

/-- Storing the question called get_or_create, which returned. -/
theorem persistUserMessage_session {env : Env σ} {req : ChatRequest} {w : σ}
    (h : (persistUserMessage env req w).result = .ok ()) :
    ∃ session, .getOrCreate req.threadId req.bizId req.w3Account (.ok session) ∈
      (persistUserMessage env req w).trace := by
  obtain ⟨u, hacquire, h⟩ := Eff.exists_of_bind_ok h
  obtain ⟨r, hbody, h⟩ := Eff.exists_of_bind_ok h
  obtain ⟨u', -, h⟩ := Eff.exists_of_bind_ok h
  rw [Eff.ofExcept_apply] at h
  rw [Eff.attempt_apply, Except.ok.injEq] at hbody
  obtain ⟨session, hsession, -⟩ := Eff.exists_of_bind_ok (hbody.trans h)
  have hcall : .getOrCreate req.threadId req.bizId req.w3Account (.ok session) ∈
      (env.repos.callGetOrCreate req.threadId req.bizId req.w3Account
        (Eff.call env.repos.acquire Act.acquire w).world).trace := by
    rw [← hsession]
    exact List.mem_singleton.mpr rfl
  have hin := Eff.mem_bind_left (f := fun _ => newMessageId env >>= fun messageId =>
    env.repos.callAppend (userMessage req messageId)) hcall
  exact ⟨session, Eff.mem_bind_right hacquire (Eff.mem_bind_left (p := Eff.attempt _) hin)⟩

-- ============================================================================
-- Failed and complete
-- ============================================================================

/-- What the status at the end of a stream tells about the tables. -/
structure StatusTells (req : ChatRequest) (db : Db) (run : Run Db Exn Act Unit) : Prop where
  failed : endStatus run.trace = some (.str (py "failed")) →
    run.world.store = db.store ∧ ∀ a ∈ run.trace, a.callsPlugin = false
  complete : endStatus run.trace = some (.str (py "complete")) →
    AskedOnce req db.store run.world.store

theorem failed_ne_complete : Json.str (py "failed") ≠ .str (py "complete") := by
  intro h
  exact absurd (Json.str.inj h) (by decide)

/-- Rejected at once: an error event, and done. -/
theorem statusTells_rejected (req : ChatRequest) (db : Db) (ev : ChatEvent) :
    StatusTells req db (Eff.play [.yield ev, .yield doneFailed] (.ok ()) db) where
  failed := fun _ => by
    refine ⟨rfl, fun a ha => ?_⟩
    rw [Eff.play_trace] at ha
    simp only [List.mem_cons, List.not_mem_nil, or_false] at ha
    rcases ha with rfl | rfl <;> rfl
  complete := fun h => by
    rw [Eff.play_trace] at h
    have hstatus : endStatus [.yield ev, .yield doneFailed] = some (.str (py "failed")) :=
      doneFailed_status
    rw [hstatus, Option.some.injEq] at h
    exact absurd h failed_ne_complete

section Accepted

variable {d : Deployment} {grace : Nat} {topics : TopicRegistry} {topic : CompiledTopic}
  {req : ChatRequest} {db : Db} (ht : topics.get req.bizId = some topic)
  (hacc : topic.bizParamsModel.accepts req.bizParams = true)
include ht hacc

/-- A request whose question is stored has asked once, however its run ends. -/
theorem handle_askedOnce
    (huser : (persistUserMessage (d.env grace) req (afterAssistantId (d.env grace) db)).result
      = .ok ()) :
    AskedOnce req db.store (handle (d.env grace) topics req db).world.store := by
  have htrace := @handle_accepted_trace Db topics topic req (d.env grace) db ht hacc
  obtain ⟨messageId, hquestion⟩ := persistUserMessage_stores (d.env grace) req huser
  obtain ⟨session, hsession⟩ := persistUserMessage_session huser
  have hpath := handle_traces (rfl : (d.env grace).repos = .db) (fun _ => rfl) topics req db
  have hseen : ((handle (d.env grace) topics req db).seen Db.store).map Prod.fst
      = (handle (d.env grace) topics req db).trace := by simp [Run.seen, Run.trace]
  constructor
  · obtain ⟨rows, hrows, hof⟩ := (handle_appends d grace topics req db).rows
    rw [htrace, word_append, word_cons, hquestion, huser] at hof
    cases hof with
    | @cons _ row _ rest hrow hrest =>
        refine ⟨messageId, row, rest, hrows, hrow, fun r hr => ?_⟩
        obtain ⟨msg, hmsg, hof⟩ := exists_of_mem_rows hrest hr
        obtain ⟨a, ha, hstored⟩ := List.mem_filterMap.mp hmsg
        have hside := afterUser_answerSide () _ a ha
        rw [storedMessage_eq_some hstored] at hside
        have hrole : r.role = py "assistant" := hof.role.trans hside
        rw [hrole]
        decide
  · have hin : .getOrCreate req.threadId req.bizId req.w3Account (.ok session) ∈
        (handle (d.env grace) topics req db).trace := by
      rw [htrace]
      exact List.mem_append_left _ (List.mem_cons_of_mem _ hsession)
    rw [← hseen] at hin
    exact path_bound hpath hin

/-- An accepted request whose question is not stored: `failed` after a biz_id
    mismatch, which has written nothing, and otherwise no done event. -/
theorem handle_unasked {e : Exn}
    (huser : (persistUserMessage (d.env grace) req (afterAssistantId (d.env grace) db)).result
      = .error e) :
    StatusTells req db (handle (d.env grace) topics req db) := by
  have htrace := @handle_accepted_trace Db topics topic req (d.env grace) db ht hacc
  have hworld : (handle (d.env grace) topics req db).world =
      (afterUser (d.env grace) topic req (assistantId (d.env grace) db) (.error e)
        (afterUserMessage (d.env grace) req db)).world := by
    rw [handle_accepted ht hacc, handleAccepted_run, huser]
    rfl
  rw [huser] at htrace
  by_cases hmismatch : ∃ detail, e = .sessionBizMismatch detail
  · obtain ⟨detail, rfl⟩ := hmismatch
    refine ⟨fun _ => ⟨?_, fun a ha => ?_⟩, fun h => ?_⟩
    · rw [hworld]
      exact persistUserMessage_mismatch huser
    · rw [htrace] at ha
      rcases List.mem_append.mp ha with ha | ha
      · rcases List.mem_cons.mp ha with rfl | ha
        · rfl
        · have hact := persistUserMessage_acts _ req _ a ha
          cases a <;> first | rfl | exact hact.elim
      · have hends : a ∈ [Act.yield (threadBound req detail), .yield doneFailed] := ha
        simp only [List.mem_cons, List.not_mem_nil, or_false] at hends
        rcases hends with rfl | rfl <;> rfl
    · have hends : endStatus (handle (d.env grace) topics req db).trace
          = some (.str (py "failed")) := by
        rw [htrace, endStatus, word_append]
        show (_ ++ [threadBound req detail, doneFailed]).getLast? >>= _ = _
        rw [List.getLast?_append]
        rfl
      rw [hends, Option.some.injEq] at h
      exact absurd h failed_ne_complete
  · have hsilent : (afterUser (d.env grace) topic req (assistantId (d.env grace) db) (.error e)
        (afterUserMessage (d.env grace) req db)).trace = [] := by
      cases e with
      | sessionBizMismatch detail => exact absurd ⟨detail, rfl⟩ hmismatch
      | _ => rfl
    have hnone : ∀ status, endStatus (handle (d.env grace) topics req db).trace
        ≠ some status := by
      intro status hstatus
      obtain ⟨ev, hev, hdone⟩ := exists_of_endStatus hstatus
      rw [htrace, hsilent, List.append_nil] at hev
      rcases List.mem_cons.mp hev with hmeta | hev
      · cases hmeta
        rw [doneStatus_of_type (by simp)] at hdone
        cases hdone
      · exact persistUserMessage_acts _ req _ _ hev
    exact ⟨fun h => absurd h (hnone _), fun h => absurd h (hnone _)⟩

/-- A request whose question is stored does not end with `failed`. -/
theorem handle_not_failed
    (huser : (persistUserMessage (d.env grace) req (afterAssistantId (d.env grace) db)).result
      = .ok ()) :
    endStatus (handle (d.env grace) topics req db).trace ≠ some (.str (py "failed")) := by
  intro hstatus
  obtain ⟨ev, hev, hdone⟩ := exists_of_endStatus hstatus
  have htype : ev.type = .done := by
    by_contra htype
    rw [doneStatus_of_type htype] at hdone
    cases hdone
  rw [handle_accepted_trace ht hacc, huser] at hev
  rcases List.mem_append.mp hev with hev | hev
  · rcases List.mem_cons.mp hev with hmeta | hev
    · cases hmeta
      simp at htype
    · exact persistUserMessage_acts _ req _ _ hev
  · have hcomplete := afterUser_answerSide () _ _ hev htype
    rw [hcomplete, doneComplete_status, Option.some.injEq] at hdone
    exact failed_ne_complete hdone.symm

end Accepted

/-- For every deployment, registry, request and state of the tables: a stream that
    ends with `failed` leaves both tables as they were and has called no plugin;
    one that ends with `complete` has stored the question once, in a thread bound
    to the biz_id of the request. -/
theorem rejected_leaves_no_trace (d : Deployment) (grace : Nat) (topics : TopicRegistry)
    (req : ChatRequest) (db : Db) :
    StatusTells req db (handle (d.env grace) topics req db) := by
  cases ht : topics.get req.bizId with
  | none =>
      rw [handle_unknown ht]
      exact statusTells_rejected req db _
  | some topic =>
      cases hacc : topic.bizParamsModel.accepts req.bizParams with
      | false =>
          rw [handle_invalid ht hacc]
          exact statusTells_rejected req db _
      | true =>
          cases huser : (persistUserMessage (d.env grace) req
              (afterAssistantId (d.env grace) db)).result with
          | error e => exact handle_unasked ht hacc huser
          | ok u =>
              exact ⟨fun h => absurd h (handle_not_failed ht hacc huser),
                fun _ => handle_askedOnce ht hacc huser⟩

/-- The tables with a thread that is bound to another topic. -/
def takenDb : Db :=
  ⟨(Store.empty.getOrCreate (.str (py "th")) (py "other") (py "bob") 0).2, 1, 0⟩

set_option maxRecDepth 20000 in
/-- A question in a thread of another topic is rejected without a trace; in a new
    thread it is asked once, though the enrich plugin raises. -/
theorem rejected_leaves_no_trace_taken :
    let topic := smallTopic openAuth ⟨fun _ => .error .dbError⟩ (scripted [])
    let run := handle (smallDeployment.env 0) (oneTopic topic) (aliceAsks (py "th"))
    (run takenDb).world.store = takenDb.store ∧
      AskedOnce (aliceAsks (py "th")) Db.initial.store (run .initial).world.store := by
  intro topic run
  have hunc : topic.Uncancelled :=
    smallTopic_uncancelled (fun _ => notCancelled_ok _) (fun _ h => nomatch h)
  have hcalls : ∀ a ∈ (run .initial).trace, a.callRaised = false := by decide
  have hcomplete : endStatus (run .initial).trace = some (.str (py "complete")) := by
    obtain ⟨g, hbuild⟩ := smallTopic_builds Repos.db (smallDeployment.env 0).newUlid openAuth
      ⟨fun _ => .error .dbError⟩ (scripted [])
    obtain ⟨userId, hlooped⟩ := handle_looped (rfl : (oneTopic topic).get (py "topic") = some topic)
      rfl db_uncancelled hunc hbuild (userMessage_stored rfl rfl hcalls)
    exact endStatus_of_last hlooped.ends
  exact ⟨((rejected_leaves_no_trace smallDeployment 0 (oneTopic topic) (aliceAsks (py "th"))
      takenDb).failed rfl).1,
    (rejected_leaves_no_trace smallDeployment 0 (oneTopic topic) (aliceAsks (py "th"))
      .initial).complete hcomplete⟩

end MasterAgent
