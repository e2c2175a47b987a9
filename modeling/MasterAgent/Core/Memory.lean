/-
  MasterAgent.Core.Memory

  What a thread remembers.  Requests that are served one after another leave their
  records in a thread in that order, so the history that load_session gives the
  plugins of a request is made of the exchanges before it: the questions as they
  were asked, and the answers as they were told to the clients.  The window of four
  messages a turn can cost turns when answers failed; when none did it costs none.
-/

import MasterAgent.Core.DialogueRuns
import MasterAgent.Core.HistoryPairing
import MasterAgent.Core.ThreadIsolation
import MasterAgent.Lib.Pairing

namespace MasterAgent

open Effect StateGraph Pairing

variable {σ : Type}

-- ============================================================================
-- Exchanges
-- ============================================================================

/-- A complete question and the complete answer after it. -/
def Utterance.turn (user assistant : Utterance) : Bool :=
  user.role = py "user" && user.status = py "complete" &&
    assistant.role = py "assistant" && assistant.status = py "complete"

/-- The question and the complete answer of a record. -/
def fullPair : List Utterance → Option (Utterance × Utterance)
  | [user, assistant] => if user.turn assistant then some (user, assistant) else none
  | _ => none

/-- A record with a complete answer. -/
def Full (record : List Utterance) : Bool := (fullPair record).isSome

/-- The contents a client is told. -/
def toldBy (acts : List Act) : List Json := (word yieldedDelta acts).filterMap deltaContent

section Records

variable {req : ChatRequest} {promised : List PyStr} {told : List Json} {record : List Utterance}

theorem question_shown (req : ChatRequest) (userId : PyStr) :
    (userMessage req userId).utterance.Shown := Or.inl rfl

/-- What is recalled of a log. -/
def recalled (log : List Utterance) : List Utterance := log.filter fun u => u.Shown

theorem recalled_append (log log' : List Utterance) :
    recalled (log ++ log') = recalled log ++ recalled log' := List.filter_append ..

theorem recalled_question (req : ChatRequest) (userId : PyStr) (rest : List Utterance) :
    recalled ((userMessage req userId).utterance :: rest) =
      (userMessage req userId).utterance :: recalled rest :=
  List.filter_cons_of_pos (by simpa using question_shown req userId)

theorem not_turn_question (user : Utterance) (userId : PyStr) :
    user.turn (userMessage req userId).utterance = false := by
  have hrole : ¬ (userMessage req userId).utterance.role = py "assistant" := by
    show ¬ py "user" = py "assistant"
    decide
  simp [Utterance.turn, hrole]

/-- A record that is recalled begins with a question. -/
theorem OnLog.opens (h : OnLog req promised told record) :
    Opens Utterance.turn (recalled record) := by
  cases h with
  | nothing hdispatched => exact fun b hb => nomatch hb
  | question userId =>
      rw [recalled_question]
      intro b hb user
      cases hb
      exact not_turn_question user userId
  | answer userId hpromised hreplies =>
      rw [recalled_question]
      intro b hb user
      cases hb
      exact not_turn_question user userId

/-- The turn of a record is its question with its complete answer. -/
theorem OnLog.pairs (h : OnLog req promised told record) :
    pairsBy Utterance.turn (recalled record) = (fullPair record).toList := by
  cases h with
  | nothing hdispatched => rfl
  | question userId =>
      rw [recalled_question]
      rfl
  | @answer messageId msg userId hpromised hreplies =>
      rw [recalled_question, recalled, fullPair]
      by_cases hturn : (userMessage req userId).utterance.turn msg.utterance = true
      · have hstatus : msg.utterance.status = py "complete" := by
          simp only [Utterance.turn, Bool.and_eq_true, decide_eq_true_eq] at hturn
          exact hturn.2
        have hshown : msg.utterance.Shown := Or.inl hstatus
        rw [List.filter_cons_of_pos (by simpa using hshown), List.filter_nil,
          pairsBy_cons_cons, if_pos hturn, if_pos hturn]
        rfl
      · rw [if_neg hturn]
        by_cases hshown : msg.utterance.Shown
        · rw [List.filter_cons_of_pos (by simpa using hshown), List.filter_nil,
            pairsBy_cons_cons, if_neg hturn]
          rfl
        · rw [List.filter_cons_of_neg (by simpa using hshown)]
          rfl

end Records

-- ============================================================================
-- One request
-- ============================================================================

/-- How many turns the topic of a request recalls. -/
def turnsRecalled (topics : TopicRegistry) (req : ChatRequest) : Nat :=
  ((topics.get req.bizId).map fun topic => topic.history.maxTurns).getD 0

open Classical in
/-- What a request read last, with the limit; a history is made of four messages
    for each turn. -/
noncomputable def recallStep (maxTurns : Nat) (read : Option (Nat × List Message)) :
    Act → Option (Option (Nat × List Message))
  | .listRecent _ limit r => some (r.toOption.map fun msgs => (limit, msgs))
  | .write _ u =>
      if ∀ history, u.history = some history → ∃ msgs, read = some (maxTurns * 4, msgs) ∧
        history = recentTurns maxTurns msgs.reverse
      then some read else none
  | _ => some read

theorem recall_attentive (maxTurns : Nat) (req : ChatRequest) :
    Attentive (recallStep maxTurns) req fun _ => True where
  offline := by
    intro read a hoffline hwrite
    cases a with
    | write n u => exact absurd rfl (hwrite n u)
    | listRecent => cases hoffline
    | append => cases hoffline
    | getOrCreate => cases hoffline
    | touch => cases hoffline
    | _ => rfl
  touch := fun _ _ _ => rfl
  write := by
    intro read n u _ hhistory
    simp [recallStep, hhistory]
  answer := fun read _ _ _ _ _ => ⟨read, rfl, trivial⟩

/-- load_session reads, and makes its history of what it read. -/
theorem loadSessionNode_recalls {env : Env σ} {topic : CompiledTopic} {s : GraphState}
    (read : Option (Nat × List Message)) :
    Watched (recallStep topic.history.maxTurns) read (loadSessionNode env topic s)
      fun u read' => recallStep topic.history.maxTurns read' (.write (py "load_session") u)
        = some read' := by
  refine Repos.withConn_watched _ (fun _ _ => rfl) (fun _ _ => rfl) ?_
  have hself : Watched (recallStep topic.history.maxTurns) read
      (Eff.ofExcept (s.identity.elim (.error .attributeError) .ok) : Prog σ AuthnIdentity)
      fun _ _ => True := .ofExcept fun _ _ => trivial
  refine hself.bind fun identity read₁ _ => ?_
  have hbind : Watched (recallStep topic.history.maxTurns) read₁
      (env.repos.callGetOrCreate s.threadId s.bizId identity.w3Account)
      fun _ _ => True := (Watched.call fun _ => rfl).mono fun _ _ _ => trivial
  refine hbind.bind fun _ read₂ _ => ?_
  have hlist : Watched (recallStep topic.history.maxTurns) read₂
      (env.repos.callListRecent s.threadId (topic.history.maxTurns * 4))
      fun msgs read' => read' = some (topic.history.maxTurns * 4, msgs) := by
    refine .call_answer fun r => ⟨r.toOption.map fun msgs => (_, msgs), rfl, fun msgs hr => ?_⟩
    rw [hr]
    rfl
  refine hlist.bind fun msgs read' hread => .ret ?_
  subst hread
  rw [recallStep, if_pos]
  intro history hhistory
  cases hhistory
  exact ⟨msgs, rfl, rfl⟩

/-- Every history of a request is made of what it read. -/
theorem handle_recalls (env : Env σ) (topics : TopicRegistry) (req : ChatRequest) :
    Watched (recallStep (turnsRecalled topics req)) none (handle env topics req)
      fun _ _ => True := by
  refine (recall_attentive _ req).handle (fun _ => True) (fun topic _ _ => ?_)
    fun topic htopic _ s read hs _ => ?_
  · refine Repos.withConn_watched _ (fun _ _ => rfl) (fun _ _ => rfl) ?_
    have hbind : Watched (recallStep (turnsRecalled topics req)) none
        (env.repos.callGetOrCreate req.threadId req.bizId req.w3Account) fun _ _ => True :=
      (Watched.call fun _ => rfl).mono fun _ _ _ => trivial
    refine hbind.bind fun _ read _ => ?_
    have hid : Watched (recallStep (turnsRecalled topics req)) read (newMessageId env)
        fun _ _ => True := by
      have hdraw : Watched (recallStep (turnsRecalled topics req)) read
          (Eff.draw env.newUlid : Prog σ PyStr) fun _ _ => True := .draw fun _ => trivial
      exact hdraw.bind fun _ _ _ => .ret trivial
    refine hid.bind fun messageId read' _ => ?_
    exact (Watched.call fun _ => rfl).mono fun _ _ _ => trivial
  · have hturns : turnsRecalled topics req = topic.history.maxTurns := by
      rw [turnsRecalled, htopic]
      rfl
    rw [hturns]
    refine visit_watched rfl (loadSessionNode_recalls read) fun u read' b h _ => ?_
    exact ⟨read', h, trivial, hs.merge u⟩

-- ============================================================================
-- The log along a run
-- ============================================================================

section Run

variable {req : ChatRequest} {before : PyStr → List Utterance} {a : Act}
  {phase phase' : Exchange} {s s' : Store} {record : List Utterance}

/-- The record has been added to the log of the request's thread. -/
def Adds (req : ChatRequest) (before : PyStr → List Utterance) (record : List Utterance)
    (log : PyStr → List Utterance) : Prop :=
  (∀ threadId, req.threadId = .str threadId → log threadId = before threadId ++ record) ∧
    ∀ threadId, req.threadId ≠ .str threadId → log threadId = before threadId

theorem Adds.logged {log : PyStr → List Utterance} (h : Adds req before record log)
    {threadId : PyStr} (hthread : req.threadId = .str threadId) (u : Utterance) :
    Adds req before (record ++ [u]) (logged log threadId u) := by
  constructor
  · intro own hown
    rw [hthread, Json.str.injEq] at hown
    subst hown
    rw [MasterAgent.logged, Function.update_self, h.1 _ hthread, List.append_assoc]
  · intro other hother
    have hne : other ≠ threadId := fun heq => hother (heq ▸ hthread)
    rw [MasterAgent.logged, Function.update_of_ne hne, h.2 other hother]

/-- What the run has added fits its exchange. -/
def AddsFitting (req : ChatRequest) (before : PyStr → List Utterance) (phase : Exchange)
    (s : Store) : Prop :=
  ∃ record, phase.Fits req record ∧ Adds req before record s.transcript

theorem AddsFitting.step (h : AddsFitting req before phase s)
    (hstep : MessageStep s.messages a s'.messages) (hphase : exchanging req phase a = some phase') :
    AddsFitting req before phase' s' := by
  obtain ⟨record, hfits, hadds⟩ := h
  have hkeep : s'.messages = s.messages → Adds req before record s'.transcript := by
    intro hsame
    have htranscript : s'.transcript = s.transcript := by
      funext threadId
      rw [Store.transcript, Store.transcript, hsame]
    exact htranscript ▸ hadds
  cases hspoken : spoken a with
  | none =>
      rw [exchanging, through_none hspoken, Option.some.injEq] at hphase
      exact ⟨record, hphase ▸ hfits, hkeep (messageStep_of_silent hstep hspoken)⟩
  | some speech =>
      rw [exchanging, through_some hspoken] at hphase
      refine ⟨record ++ speech.stored.toList, hfits.step hphase, ?_⟩
      cases speech with
      | store msg =>
          obtain rfl : a = .append msg (.ok ()) := append_of_spoken hspoken
          obtain ⟨hthread, hseq, -⟩ := Exchange.step_own hphase
          obtain ⟨row, -, hrow, -⟩ := id hstep
          rw [hrow.threadId] at hthread
          have htranscript := transcript_append hstep hseq hrow.threadId
          exact htranscript ▸ hadds.logged hthread.symm msg.utterance
      | _ =>
          show Adds req before (record ++ []) s'.transcript
          rw [List.append_nil]
          exact hkeep (messageStep_of_unstored hstep hspoken (by simp))

/-- What is read is the log before the request and its question. -/
theorem AddsFitting.read {threadId : PyStr} {limit : Nat} {msgs : List Message}
    (h : AddsFitting req before phase s)
    (hstep : MessageStep s.messages (.listRecent (.str threadId) limit (.ok msgs)) s'.messages)
    (hphase : exchanging req phase (.listRecent (.str threadId) limit (.ok msgs)) = some phase') :
    ∃ userId, msgs.map Message.utterance =
      recentUtterances limit (before threadId ++ [(userMessage req userId).utterance]) := by
  obtain ⟨record, hfits, hadds⟩ := h
  have hconsult : Exchange.step req phase (.consult (.str threadId) limit msgs) = some phase' :=
    hphase
  obtain ⟨messageId, rfl, hthread, -⟩ := Exchange.step_consult hconsult
  obtain ⟨userId, rfl⟩ := hfits
  refine ⟨userId, ?_⟩
  rw [transcript_read rfl hstep.2, hadds.1 threadId hthread.symm]

end Run

/-- What a run has read is the log before it and its question. -/
def ReadsBefore (req : ChatRequest) (before : PyStr → List Utterance)
    (read : Option (Nat × List Message)) : Prop :=
  ∀ limit msgs threadId, read = some (limit, msgs) → req.threadId = .str threadId →
    ∃ userId, msgs.map Message.utterance =
      recentUtterances limit (before threadId ++ [(userMessage req userId).utterance])

/-- Along a run that keeps to its exchange. -/
theorem path_adds {req : ChatRequest} {maxTurns : Nat} {s s' : Store} {acts : List (Act × Store)}
    (hpath : Path (fun s a s' => MessageStep s.messages a s'.messages) s acts s')
    {phase : Exchange} {read : Option (Nat × List Message)}
    (hphase : watch (exchanging req) .silent (acts.map Prod.fst) = some phase)
    (hread : watch (recallStep maxTurns) none (acts.map Prod.fst) = some read) :
    AddsFitting req s.transcript phase s' ∧
      ReadsBefore req s.transcript read := by
  refine hpath.invariant (I := fun past v => ∀ phase read,
    watch (exchanging req) .silent past = some phase →
      watch (recallStep maxTurns) none past = some read →
        AddsFitting req s.transcript phase v ∧ ReadsBefore req s.transcript read)
    ?_ ?_ phase read hphase hread
  · intro phase read hphase hread
    cases hphase
    cases hread
    refine ⟨⟨[], rfl, fun _ _ => (List.append_nil _).symm, fun _ _ => rfl⟩, ?_⟩
    rintro limit msgs threadId ⟨⟩
  · intro past v a v' hI hstep phase' read' hphase' hread'
    obtain ⟨phase, phase₁, hphase, hnow, hend⟩ := watch_act hphase'
    cases hend
    obtain ⟨read, read₁, hread, hreads, hend⟩ := watch_act hread'
    cases hend
    obtain ⟨hadds, hbefore⟩ := hI phase read hphase hread
    refine ⟨hadds.step hstep hnow, ?_⟩
    cases a with
    | listRecent t limit r =>
        cases hreads
        cases r with
        | error e =>
            rintro limit' msgs threadId ⟨⟩
        | ok msgs =>
            rintro limit' msgs' threadId ⟨⟩ hthread
            have hconsult : Exchange.step req phase (.consult t limit msgs) = some phase' := hnow
            obtain ⟨-, -, hown, -⟩ := Exchange.step_consult hconsult
            rw [hthread] at hown
            subst hown
            exact hadds.read hstep hnow
    | write n u =>
        rw [recallStep] at hreads
        split at hreads
        · cases hreads
          exact hbefore
        · cases hreads
    | _ =>
        cases hreads
        exact hbefore

-- ============================================================================
-- Runs on the tables
-- ============================================================================

section Serve

variable {d : Deployment} {topics : TopicRegistry} {grace : Nat} {req : ChatRequest} {db : Db}

theorem handle_path : Path (fun s a s' => MessageStep s.messages a s'.messages) db.store
    ((handle (d.env grace) topics req db).seen Db.store)
    (handle (d.env grace) topics req db).world.store := by
  have hstore : Follow (handle (d.env grace) topics req) :=
    handle_traces rfl (fun _ => rfl) topics req
  exact (hstore db).widen fun _ _ _ => messageStep_of_storeStep

theorem seen_labels {α : Type} (r : Run Db Exn Act α) :
    (r.seen Db.store).map Prod.fst = r.trace := by
  rw [Run.seen, List.map_map]
  rfl

/-- A request adds its record to the log of its thread. -/
theorem run_record : ∃ record,
    OnLog req (word idPromised (handle (d.env grace) topics req db).trace)
      (toldBy (handle (d.env grace) topics req db).trace) record ∧
      Adds req db.store.transcript record
        (handle (d.env grace) topics req db).world.store.transcript := by
  obtain ⟨phase, hphase⟩ := (handle_speaks (d.env grace) topics req).watch_of_isPrefix
    (List.prefix_refl (handle (d.env grace) topics req db).trace)
  obtain ⟨read, hread⟩ := (handle_recalls (d.env grace) topics req).watch_of_isPrefix
    (List.prefix_refl (handle (d.env grace) topics req db).trace)
  rw [← seen_labels] at hphase hread
  obtain ⟨⟨record, hfits, hadds⟩, -⟩ := path_adds handle_path hphase hread
  rw [seen_labels] at hphase
  have hsaid := Exchange.said_of_watch hphase
  have honlog := hfits.onLog
  -- the relay has caught up, and what was dispatched has been told
  rw [hsaid.1, hsaid.2, ← told_eq_dispatched, word_contentTold] at honlog
  exact ⟨record, honlog, hadds⟩

/-- The history of a request is made of the log before it and its question. -/
theorem run_history {threadId : PyStr} (hthread : req.threadId = .str threadId) {node : PyStr}
    {u : Update} {history : List Message}
    (hwrite : Act.write node u ∈ (handle (d.env grace) topics req db).trace)
    (hu : u.history = some history) : ∃ (userId : PyStr) (msgs : List Message),
      msgs.map Message.utterance = recentUtterances (turnsRecalled topics req * 4)
        (db.store.transcript threadId ++ [(userMessage req userId).utterance]) ∧
      history = recentTurns (turnsRecalled topics req) msgs.reverse := by
  rw [← seen_labels] at hwrite
  obtain ⟨⟨a, s₁⟩, hmem, rfl⟩ := List.mem_map.mp hwrite
  obtain ⟨pre, post, hsplit⟩ := List.append_of_mem hmem
  have htrace : (handle (d.env grace) topics req db).trace =
      pre.map Prod.fst ++ .write node u :: post.map Prod.fst := by
    rw [← seen_labels, hsplit, List.map_append, List.map_cons]
  obtain ⟨m, hpre, -⟩ := path_append.mp (hsplit ▸ @handle_path d topics grace req db)
  obtain ⟨phase, hphase⟩ := (handle_speaks (d.env grace) topics req).watch_of_isPrefix
    (List.prefix_refl (handle (d.env grace) topics req db).trace)
  obtain ⟨read, hread⟩ := (handle_recalls (d.env grace) topics req).watch_of_isPrefix
    (List.prefix_refl (handle (d.env grace) topics req db).trace)
  rw [htrace] at hphase hread
  obtain ⟨phase₁, hphase₁, -⟩ := watch_split hphase
  obtain ⟨read₁, read₂, hread₁, hallowed, -⟩ := watch_act hread
  obtain ⟨-, hbefore⟩ := path_adds hpre hphase₁ hread₁
  rw [recallStep] at hallowed
  split at hallowed
  · next hmade =>
    obtain ⟨msgs, hnow, rfl⟩ := hmade history hu
    obtain ⟨userId, hmsgs⟩ := hbefore _ msgs threadId hnow hthread
    exact ⟨userId, msgs, hmsgs, rfl⟩
  · cases hallowed

/-- The requests on a thread, each with what its client was promised and told. -/
def heardIn (threadId : PyStr) (reqs : List (Nat × ChatRequest)) (traces : List (List Act)) :
    List (ChatRequest × List PyStr × List Json) :=
  (reqs.zip traces).filterMap fun p => match p.1.2.threadId with
    | .str own =>
        if own = threadId then some (p.1.2, word idPromised p.2, toldBy p.2) else none
    | _ => none

theorem heardIn_cons (threadId : PyStr) (req : ChatRequest) (reqs : List (Nat × ChatRequest))
    (trace : List Act) (traces : List (List Act)) :
    (req.threadId = .str threadId ∧ heardIn threadId ((grace, req) :: reqs) (trace :: traces) =
        (req, word idPromised trace, toldBy trace) :: heardIn threadId reqs traces) ∨
      req.threadId ≠ .str threadId ∧ heardIn threadId ((grace, req) :: reqs) (trace :: traces) =
        heardIn threadId reqs traces := by
  cases hthread : req.threadId with
  | str own =>
      by_cases hown : own = threadId
      · exact Or.inl ⟨by rw [hown], by simp [heardIn, hthread, hown]⟩
      · exact Or.inr ⟨by simpa using hown, by simp [heardIn, hthread, hown]⟩
  | _ => exact Or.inr ⟨by simp, by simp [heardIn, hthread]⟩

/-- Requests served one after another leave their records in a thread in that
    order. -/
theorem serve_records (threadId : PyStr) (reqs : List (Nat × ChatRequest)) (db : Db) :
    ∃ records, List.Forall₂ (fun x record => OnLog x.1 x.2.1 x.2.2 record)
        (heardIn threadId reqs (d.serve topics reqs db).1) records ∧
      (d.serve topics reqs db).2.store.transcript threadId =
        db.store.transcript threadId ++ records.flatten := by
  induction reqs generalizing db with
  | nil => exact ⟨[], .nil, (List.append_nil _).symm⟩
  | cons r reqs ih =>
      obtain ⟨grace, req⟩ := r
      obtain ⟨record, honlog, hadds⟩ := @run_record d topics grace req db
      obtain ⟨records, hrecords, hlog⟩ := ih (handle (d.env grace) topics req db).world
      simp only [Deployment.serve]
      rcases @heardIn_cons grace threadId req reqs (handle (d.env grace) topics req db).trace
        (d.serve topics reqs (handle (d.env grace) topics req db).world).1 with
        ⟨hown, hheard⟩ | ⟨hother, hheard⟩
      · refine ⟨record :: records, hheard ▸ .cons honlog hrecords, ?_⟩
        rw [hlog, hadds.1 threadId hown, List.flatten_cons, List.append_assoc]
      · refine ⟨records, hheard ▸ hrecords, ?_⟩
        rw [hlog, hadds.2 threadId hother]

end Serve

-- ============================================================================
-- What is remembered
-- ============================================================================

/-- The record of some request. -/
def IsRecord (record : List Utterance) : Prop :=
  ∃ req promised told, OnLog req promised told record

theorem isRecord_of_forall₂ {heard : List (ChatRequest × List PyStr × List Json)}
    {records : List (List Utterance)}
    (h : List.Forall₂ (fun x record => OnLog x.1 x.2.1 x.2.2 record) heard records) :
    ∀ record ∈ records, IsRecord record := by
  induction h with
  | nil => simp
  | cons honlog hrest ih => exact List.forall_mem_cons.mpr ⟨⟨_, _, _, honlog⟩, ih⟩

section Recall

variable {records : List (List Utterance)} {req : ChatRequest} {userId : PyStr}

/-- The messages of pairs. -/
def unpaired (pairs : List (Utterance × Utterance)) : List Utterance :=
  (pairs.map fun pair => [pair.1, pair.2]).flatten

/-- A history is made of the last turns of what was read. -/
theorem recentTurns_utterances {maxTurns : Nat} {msgs : List Message}
    (hnone : maxTurns = 0 → msgs = []) :
    (recentTurns maxTurns msgs).map Message.utterance =
      unpaired ((pairsBy Utterance.turn (msgs.map Message.utterance)).rtake maxTurns) := by
  have hpairs : completePairs msgs =
      pairsBy (fun a b : Message => a.utterance.turn b.utterance) msgs := rfl
  rw [pairsBy_map, recentTurns_eq hnone, recentHistory, hpairs, pairMessages, List.rtake,
    List.rtake, List.length_map, ← List.map_drop, unpaired, List.map_map, List.map_flatMap,
    List.flatMap_def]
  rfl

/-- The last pairs of records are the last full records. -/
theorem unpaired_rtake (records : List (List Utterance)) (k : Nat) :
    unpaired ((records.filterMap fullPair).rtake k) =
      ((records.filter Full).rtake k).flatten := by
  have hfull : (records.filterMap fullPair).map (fun pair => [pair.1, pair.2]) =
      records.filter Full := by
    induction records with
    | nil => rfl
    | cons record records ih =>
        cases hpair : fullPair record with
        | none =>
            rw [List.filterMap_cons_none hpair, List.filter_cons_of_neg (by simp [Full, hpair]), ih]
        | some pair =>
            have hrecord : record = [pair.1, pair.2] := by
              unfold fullPair at hpair
              split at hpair
              · split at hpair
                · cases hpair
                  rfl
                · cases hpair
              · cases hpair
            rw [List.filterMap_cons_some hpair, List.filter_cons_of_pos (by simp [Full, hpair]),
              List.map_cons, ih, ← hrecord]
  have hlength := congrArg List.length hfull
  rw [List.length_map] at hlength
  rw [unpaired, List.rtake, List.map_drop, hfull, hlength, List.rtake]

/-- The turns of a log of records, with a question behind them, are the full
    records. -/
theorem pairs_records (h : ∀ record ∈ records, IsRecord record) :
    pairsBy Utterance.turn
        (recalled (records.flatten ++ [(userMessage req userId).utterance])) =
      records.filterMap fullPair := by
  have hblocks : recalled (records.flatten ++ [(userMessage req userId).utterance]) =
      (records.map recalled).flatten ++ [(userMessage req userId).utterance] := by
    rw [recalled_append, recalled_question, recalled, List.filter_flatten]
    rfl
  have hlast : Opens Utterance.turn [(userMessage req userId).utterance] := by
    intro b hb user
    cases hb
    exact not_turn_question user userId
  have hopens : ∀ block ∈ records.map recalled, Opens Utterance.turn block := by
    intro block hblock
    obtain ⟨record, hrecord, rfl⟩ := List.mem_map.mp hblock
    obtain ⟨req, promised, told, honlog⟩ := h record hrecord
    exact honlog.opens
  rw [hblocks, pairsBy_append hlast, pairsBy_flatten hopens, pairsBy_singleton, List.append_nil,
    List.flatMap_map]
  clear hblocks hopens
  induction records with
  | nil => rfl
  | cons record records ih =>
      obtain ⟨req, promised, told, honlog⟩ := h record List.mem_cons_self
      rw [List.flatMap_cons, honlog.pairs, ih fun r hr => h r (List.mem_cons_of_mem _ hr)]
      cases hpair : fullPair record with
      | none => rw [List.filterMap_cons_none hpair]; rfl
      | some pair => rw [List.filterMap_cons_some hpair]; rfl

theorem full_iff {record : List Utterance} : Full record = true ↔
    ∃ user assistant, record = [user, assistant] ∧ user.turn assistant = true := by
  constructor
  · intro h
    unfold Full fullPair at h
    split at h
    · next user assistant =>
      split at h
      · next hturn => exact ⟨user, assistant, rfl, hturn⟩
      · cases h
    · cases h
  · rintro ⟨user, assistant, rfl, hturn⟩
    simp [Full, fullPair, hturn]

/-- Full records are recalled whole. -/
theorem recalled_full {record : List Utterance} (h : Full record = true) :
    recalled record = record := by
  obtain ⟨user, assistant, rfl, hturn⟩ := full_iff.mp h
  simp only [Utterance.turn, Bool.and_eq_true, decide_eq_true_eq] at hturn
  obtain ⟨⟨⟨-, huser⟩, -⟩, hassistant⟩ := hturn
  simp [recalled, Utterance.Shown, huser, hassistant]

theorem recalled_flatten_full (h : ∀ record ∈ records, record = [] ∨ Full record = true) :
    recalled records.flatten = (records.filter Full).flatten := by
  induction records with
  | nil => rfl
  | cons record records ih =>
      have hrest := ih fun r hr => h r (List.mem_cons_of_mem _ hr)
      rw [List.flatten_cons, recalled_append, hrest]
      rcases h record List.mem_cons_self with rfl | hfull
      · rfl
      · rw [recalled_full hfull, List.filter_cons_of_pos hfull, List.flatten_cons]

/-- Where all records are full, or nothing, the window has as many turns as can be
    recalled, or the whole log. -/
theorem window_suffices (h : ∀ record ∈ records, IsRecord record)
    (hfull : ∀ record ∈ records, record = [] ∨ Full record = true) (maxTurns : Nat) :
    maxTurns ≤ (pairsBy Utterance.turn ((recalled
        (records.flatten ++ [(userMessage req userId).utterance])).rtake (maxTurns * 4))).length ∨
      recalled (records.flatten ++ [(userMessage req userId).utterance]) =
        (recalled (records.flatten ++ [(userMessage req userId).utterance])).rtake
          (maxTurns * 4) := by
  have htwo : ∀ record ∈ records.filter Full, record.length = 2 := by
    intro record hrecord
    obtain ⟨user, assistant, rfl, -⟩ := full_iff.mp (List.mem_filter.mp hrecord).2
    rfl
  have hflat := length_flatten_two htwo
  rw [recalled_append, recalled_question, recalled_flatten_full hfull]
  show _ ≤ (pairsBy Utterance.turn (((records.filter Full).flatten ++
    [(userMessage req userId).utterance]).rtake (maxTurns * 4))).length ∨
      (records.filter Full).flatten ++ [(userMessage req userId).utterance] =
        ((records.filter Full).flatten ++ [(userMessage req userId).utterance]).rtake (maxTurns * 4)
  by_cases hshort : 2 * (records.filter Full).length + 1 ≤ maxTurns * 4
  · right
    rw [List.rtake, List.length_append, hflat, List.length_singleton, Nat.sub_eq_zero_of_le hshort,
      List.drop_zero]
  · left
    rcases Nat.eq_zero_or_pos maxTurns with rfl | hpos
    · exact Nat.zero_le _
    -- the window starts in the middle of a record, and the records behind it are enough
    obtain ⟨j, hj⟩ : ∃ j, j + 2 * maxTurns = (records.filter Full).length + 1 :=
      ⟨(records.filter Full).length + 1 - 2 * maxTurns, by omega⟩
    have hdrop : (((records.filter Full).flatten ++
        [(userMessage req userId).utterance]).rtake (maxTurns * 4)).drop 1 =
          ((records.filter Full).drop j).flatten ++ [(userMessage req userId).utterance] := by
      rw [← drop_two_mul_flatten htwo, List.rtake, List.drop_drop, List.length_append, hflat,
        List.length_singleton, ← List.drop_append_of_le_length (by omega)]
      congr 1
      omega
    have hrecords : ∀ record ∈ (records.filter Full).drop j,
        IsRecord record ∧ Full record = true := by
      intro record hrecord
      obtain ⟨hmem, hrecordFull⟩ := List.mem_filter.mp (List.mem_of_mem_drop hrecord)
      exact ⟨h record hmem, hrecordFull⟩
    have hbehind := @pairs_records ((records.filter Full).drop j) req userId
      fun record hrecord => (hrecords record hrecord).1
    rw [recalled_append, recalled_question,
      recalled_flatten_full fun record hrecord => Or.inr (hrecords record hrecord).2,
      List.filter_eq_self.mpr fun record hrecord => (hrecords record hrecord).2] at hbehind
    have hcount : (((records.filter Full).drop j).filterMap fullPair).length =
        (records.filter Full).length - j := by
      rw [List.length_filterMap_eq_countP, ← List.length_drop]
      exact List.countP_eq_length.mpr fun record hrecord => (hrecords record hrecord).2
    have hsuffix := (@pairsBy_suffix_drop Utterance Utterance.turn (((records.filter Full).flatten
      ++ [(userMessage req userId).utterance]).rtake (maxTurns * 4)) 1).length_le
    rw [hdrop] at hsuffix
    have hlength := congrArg List.length hbehind
    rw [hcount] at hlength
    change (pairsBy Utterance.turn (((records.filter Full).drop j).flatten ++
      [(userMessage req userId).utterance])).length = _ at hlength
    omega

/-- What a request recalls of a log of records are the last full ones, `maxTurns` at
    most; as many as that, or all there are, when every other record is empty. -/
theorem recalls_records (h : ∀ record ∈ records, IsRecord record) {maxTurns : Nat}
    {msgs : List Message} (hmsgs : msgs.map Message.utterance =
      recentUtterances (maxTurns * 4) (records.flatten ++ [(userMessage req userId).utterance])) :
    (∃ k ≤ maxTurns, (recentTurns maxTurns msgs.reverse).map Message.utterance =
      ((records.filter Full).rtake k).flatten) ∧
    ((∀ record ∈ records, record = [] ∨ Full record = true) →
      (recentTurns maxTurns msgs.reverse).map Message.utterance =
        ((records.filter Full).rtake maxTurns).flatten) := by
  have hwindow : msgs.reverse.map Message.utterance =
      (recalled (records.flatten ++ [(userMessage req userId).utterance])).rtake
        (maxTurns * 4) := by
    rw [List.map_reverse, hmsgs, recentUtterances, List.rtake_eq_reverse_take_reverse, recalled]
  have hnone : maxTurns = 0 → msgs.reverse = [] := by
    rintro rfl
    rw [Nat.zero_mul, recentUtterances, List.take_zero, List.map_eq_nil_iff] at hmsgs
    rw [hmsgs, List.reverse_nil]
  rw [recentTurns_utterances hnone, hwindow]
  have hpairs := @pairs_records records req userId h
  have hsuffix : pairsBy Utterance.turn ((recalled
      (records.flatten ++ [(userMessage req userId).utterance])).rtake (maxTurns * 4)) <:+
        records.filterMap fullPair := hpairs ▸ pairsBy_suffix_drop _ _
  constructor
  · exact ⟨_, Nat.min_le_left _ _, by rw [rtake_of_suffix hsuffix, unpaired_rtake]⟩
  · intro hfull
    rcases @window_suffices records req userId h hfull maxTurns with hmany | hall
    · rw [rtake_of_suffix hsuffix, unpaired_rtake, Nat.min_eq_left hmany]
    · rw [← hall, hpairs, unpaired_rtake]

end Recall

/-- For every deployment and every requests served one after another, from a
    database on in which nothing has been said in the thread: the history that
    load_session gives the next request there is made of exchanges, each a question
    as it was asked and the answer its client was told under the id it was promised,
    the last of those on record;
    and of the last `max_turns` of them when no earlier request in the thread has
    asked without getting a complete answer. -/
theorem memory_recalls_told (d : Deployment) (topics : TopicRegistry) (threadId : PyStr)
    (earlier : List (Nat × ChatRequest)) (db : Db) (hsilent : db.store.transcript threadId = [])
    (grace : Nat) (req : ChatRequest) (hthread : req.threadId = .str threadId) (node : PyStr)
    (u : Update) (history : List Message) (hwrite : Act.write node u ∈
      (handle (d.env grace) topics req (d.serve topics earlier db).2).trace)
    (hu : u.history = some history) :
    ∃ records, List.Forall₂ (fun x record => OnLog x.1 x.2.1 x.2.2 record)
        (heardIn threadId earlier (d.serve topics earlier db).1) records ∧
      (∃ k ≤ turnsRecalled topics req, history.map Message.utterance =
        ((records.filter Full).rtake k).flatten) ∧
      ((∀ record ∈ records, record = [] ∨ Full record = true) →
        history.map Message.utterance =
          ((records.filter Full).rtake (turnsRecalled topics req)).flatten) := by
  obtain ⟨records, hrecords, hlog⟩ := @serve_records d topics threadId earlier db
  obtain ⟨userId, msgs, hmsgs, rfl⟩ := run_history hthread hwrite hu
  rw [hlog, hsilent, List.nil_append] at hmsgs
  exact ⟨records, hrecords, recalls_records (isRecord_of_forall₂ hrecords) hmsgs⟩

set_option maxRecDepth 20000 in
/-- The second request of a thread is given the exchange of the first. -/
theorem memory_recalls_told_inThread : ∃ (history : List Message)
    (records : List (List Utterance)),
    let earlier := [(0, inThread false)]
    let topics := oneTopic oneDelta
    history.map Message.content = [.str (py "q"), .str (py "a")] ∧
      List.Forall₂ (fun x record => OnLog x.1 x.2.1 x.2.2 record)
        (heardIn (py "th") earlier (smallDeployment.serve topics earlier .initial).1) records ∧
      ∃ k ≤ turnsRecalled topics (inThread true), history.map Message.utterance =
        ((records.filter Full).rtake k).flatten := by
  have hwrite : ((handle (smallDeployment.env 0) (oneTopic oneDelta) (inThread true)
      (smallDeployment.serve (oneTopic oneDelta) [(0, inThread false)] .initial).2).trace)[10]? =
        some (.write (py "load_session") _) := rfl
  obtain ⟨records, hrecords, hrecalled, -⟩ := memory_recalls_told smallDeployment
    (oneTopic oneDelta) (py "th") [(0, inThread false)] .initial rfl 0 (inThread true) rfl _ _ _
    (List.mem_of_getElem? hwrite) rfl
  exact ⟨_, records, rfl, hrecords, hrecalled⟩

end MasterAgent
