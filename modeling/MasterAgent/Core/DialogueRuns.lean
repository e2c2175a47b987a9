/-
  MasterAgent.Core.DialogueRuns

  Requests that run at once are one dialogue.  In every interleaving, with the
  relays as far behind as they may be, and for every cause for which a statement
  may fail, what the clients are told and what goes to the tables is a run of
  `Dialogue` whose logs are the transcripts of the threads.  So each request has on
  record nothing, its question, or its question and the answer its client is told,
  under the id it was promised.
-/

import MasterAgent.Core.StreamLag

namespace MasterAgent

open Effect StateGraph

variable {ι : Type}

-- ============================================================================
-- Requests that run at once
-- ============================================================================

section Requests

variable [DecidableEq ι] {reqs : ι → ChatRequest}

/-- The dialogue in which nobody has said anything yet. -/
def Dialogue.start (s : Store) : Dialogue ι := ⟨s.transcript, fun _ => .start⟩

/-- What an act of a request says. -/
def said (l : ι × Act) : Option (ι × Speech) := (spoken l.2).map fun speech => (l.1, speech)

/-- The tables hold the logs, and the requests are where the guards are. -/
structure Mirrors (s : Store) (guards : ι → Telling) (d : Dialogue ι) : Prop where
  log : d.log = s.transcript
  phase : d.phase = guards

/-- An act that says nothing leaves the messages as they are. -/
theorem messageStep_of_silent {t t' : MessageTable} {a : Act} (h : MessageStep t a t')
    (hsilent : spoken a = none) : t' = t := by
  cases a with
  | append msg r =>
      cases r with
      | ok u => cases hsilent
      | error e => exact h
  | listRecent threadId limit r =>
      cases r with
      | ok msgs => cases hsilent
      | error e => exact h
  | _ => exact h

/-- What is stored was appended. -/
theorem append_of_spoken {a : Act} {msg : Message} (h : spoken a = some (.store msg)) :
    a = .append msg (.ok ()) := by
  cases a with
  | append own r =>
      cases r with
      | ok u =>
          cases h
          rfl
      | error e => cases h
  | listRecent threadId limit r => cases r <;> cases h
  | yield ev => cases htype : ev.type <;> simp [spoken, htype] at h
  | emit ev => cases htype : ev.type <;> simp [spoken, htype] at h
  | _ => cases h

/-- Other speech leaves the messages as they are. -/
theorem messageStep_of_unstored {t t' : MessageTable} {a : Act} {speech : Speech}
    (h : MessageStep t a t') (hspoken : spoken a = some speech)
    (hstore : ∀ msg, speech ≠ .store msg) : t' = t := by
  cases a with
  | append msg r =>
      cases r with
      | ok u =>
          cases hspoken
          exact absurd rfl (hstore msg)
      | error e => exact h
  | listRecent threadId limit r =>
      cases r with
      | ok msgs => exact h.1
      | error e => exact h
  | _ => exact h

/-- What is recalled was read. -/
theorem listRecent_of_spoken {a : Act} {threadId : Json} {limit : Nat} {msgs : List Message}
    (h : spoken a = some (.consult threadId limit msgs)) :
    a = .listRecent threadId limit (.ok msgs) := by
  cases a with
  | listRecent own n r =>
      cases r with
      | ok read =>
          cases h
          rfl
      | error e => cases h
  | append msg r => cases r <;> cases h
  | yield ev => cases htype : ev.type <;> simp [spoken, htype] at h
  | emit ev => cases htype : ev.type <;> simp [spoken, htype] at h
  | _ => cases h

/-- One act of one request: the dialogue goes along. -/
theorem Mirrors.step {s s' : Store} {guards guards' : ι → Telling} {d : Dialogue ι}
    {l : ι × Act} (h : Mirrors s guards d) (hstep : MessageStep s.messages l.2 s'.messages)
    (hguard : family (fun i => telling (reqs i)) guards l = some guards') :
    ∃ d', through said (Dialogue.step reqs) d l = some d' ∧ Mirrors s' guards' d' := by
  obtain ⟨i, a⟩ := l
  obtain ⟨hlog, rfl⟩ := h
  rw [family, Option.map_eq_some_iff] at hguard
  obtain ⟨t, htelling, rfl⟩ := hguard
  change through spoken (Telling.step (reqs i)) (d.phase i) a = some t at htelling
  have hsame : s'.messages = s.messages → d.log = s'.transcript := by
    intro hsame
    rw [hlog]
    funext threadId
    rw [Store.transcript, Store.transcript, hsame]
  cases hspoken : spoken a with
  | none =>
      have hsaid : said (i, a) = none := by rw [said, hspoken, Option.map_none]
      rw [through_none hspoken, Option.some.injEq] at htelling
      refine ⟨d, through_none hsaid, hsame (messageStep_of_silent hstep hspoken), ?_⟩
      rw [← htelling, Function.update_eq_self]
  | some speech =>
      have hsaid : said (i, a) = some (i, speech) := by rw [said, hspoken, Option.map_some]
      rw [through_some hspoken] at htelling
      rw [through_some hsaid]
      have hphase := (Telling.step_eq_some htelling).1
      cases speech with
      | store msg =>
          obtain rfl : a = .append msg (.ok ()) := append_of_spoken hspoken
          obtain ⟨hthread, hseq, -⟩ := Exchange.step_own hphase
          obtain ⟨row, -, hrow, -⟩ := id hstep
          rw [hrow.threadId] at hthread
          have htranscript := transcript_append hstep hseq hrow.threadId
          rw [← hlog] at htranscript
          refine ⟨⟨logged d.log row.threadId msg.utterance, Function.update d.phase i t⟩,
            ?_, htranscript.symm, rfl⟩
          simp only [Dialogue.step, htelling, ← hthread, Option.bind_eq_bind, Option.bind_some]
      | consult threadId limit msgs =>
          obtain rfl : a = .listRecent threadId limit (.ok msgs) := listRecent_of_spoken hspoken
          obtain ⟨-, -, hthread, -⟩ := Exchange.step_consult hphase
          obtain ⟨hmessages, hread⟩ := hstep
          cases threadId with
          | str threadId =>
              have hconsult := transcript_read rfl hread
              rw [← hlog] at hconsult
              refine ⟨⟨d.log, Function.update d.phase i t⟩, ?_, hsame hmessages, rfl⟩
              simp only [Dialogue.step, htelling, ← hthread, Option.bind_eq_bind,
                Option.bind_some, hconsult, if_true]
          | _ => cases hread
      | _ =>
          have hmessages := messageStep_of_unstored hstep hspoken (by simp)
          refine ⟨⟨d.log, Function.update d.phase i t⟩, ?_, hsame hmessages, rfl⟩
          simp only [Dialogue.step, htelling, Option.bind_eq_bind, Option.bind_some]

/-- Requests that have kept to their exchanges have led a dialogue. -/
theorem dialogue_of_path {s s' : Store} {acts : List ((ι × Act) × Store)}
    {guards : ι → Telling}
    (hpath : Path (fun s l s' => MessageStep s.messages l.2 s'.messages) s acts s')
    (hguards : ∀ i, watch (telling (reqs i)) .start (actsBy i (acts.map Prod.fst))
      = some (guards i)) :
    ∃ d, watch (Dialogue.step reqs) (.start s) (word said (acts.map Prod.fst)) = some d ∧
      d.log = s'.transcript ∧ d.phase = guards := by
  have hstart : Mirrors s (fun _ => .start) (.start s : Dialogue ι) := ⟨rfl, rfl⟩
  have hstep : ∀ (s : Store) (l : ι × Act) (s' : Store) (guards guards' : ι → Telling)
      (d : Dialogue ι), Mirrors s guards d → MessageStep s.messages l.2 s'.messages →
      family (fun i => telling (reqs i)) guards l = some guards' →
      ∃ d', through said (Dialogue.step reqs) d l = some d' ∧ Mirrors s' guards' d' :=
    fun _ _ _ _ _ _ => Mirrors.step
  obtain ⟨d, hwatch, hmirrors⟩ := hpath.simulates hstep (watch_family hguards) hstart
  rw [watch_through] at hwatch
  exact ⟨d, hwatch, hmirrors.log, hmirrors.phase⟩

/-- What a request has come to by its acts. -/
structure Telling.Of (acts : List Act) (t : Telling) : Prop where
  promised : t.exchange.promised = word idPromised acts
  dispatched : t.exchange.dispatched = word contentDispatched acts
  told : t.told = word contentTold acts
  closed : t.closed = acts.any Act.closes

/-- A request whose relay is behind. -/
theorem Streaming.telling {topics : TopicRegistry} {step : Store → Act → Store → Prop}
    {s s' : Store} {acts : List ((ι × Act) × Store)}
    (h : Streaming topics reqs step s acts s') (i : ι) :
    ∃ t, watch (telling (reqs i)) .start (actsOf i (acts.map Prod.fst)) = some t ∧
      t.Of (actsOf i (acts.map Prod.fst)) := by
  obtain ⟨σ, env, w, hlags⟩ := h.runs i
  obtain ⟨t, hwatch, hexchange, htold, hclosed⟩ := telling_of_part hlags
  have hsaid := Exchange.said_of_watch hexchange
  exact ⟨t, hwatch, hsaid.1, hsaid.2, htold, hclosed⟩

/-- Requests whose relays are behind lead a dialogue. -/
theorem Streaming.dialogue {topics : TopicRegistry} {s s' : Store}
    {acts : List ((ι × Act) × Store)}
    (h : Streaming topics reqs (fun s a s' => MessageStep s.messages a s'.messages) s acts s') :
    ∃ d, watch (Dialogue.step reqs) (.start s) (word said (acts.map Prod.fst)) = some d ∧
      d.log = s'.transcript ∧
      ∀ i, (d.phase i).Of (actsOf i (acts.map Prod.fst)) := by
  choose guards hguards hof using h.telling
  obtain ⟨d, hwatch, hlog, hphase⟩ := dialogue_of_path h.path hguards
  exact ⟨d, hwatch, hlog, fun i => hphase ▸ hof i⟩

/-- For any number of requests, every interleaving of their acts with the relays as
    far behind as they may be, and every cause for which a statement fails: what is
    said in it, to the clients and to the tables, is a run of the dialogue.  The
    transcripts of the tables are its logs, and each request is where its acts have
    led it. -/
theorem concurrent_refines_dialogue (topics : TopicRegistry) (reqs : ι → ChatRequest)
    {s s' : Store} {acts : List ((ι × Act) × Store)}
    (h : Streaming topics reqs (fun s a s' => MessageStep s.messages a s'.messages) s acts s') :
    ∃ d, watch (Dialogue.step reqs) (.start s) (word said (acts.map Prod.fst)) = some d ∧
      d.log = s'.transcript ∧
      ∀ i, (d.phase i).Of (actsOf i (acts.map Prod.fst)) :=
  h.dialogue

/-- Uninterrupted statements, too, are the steps of such an interleaving. -/
theorem Streaming.messages {topics : TopicRegistry} {s s' : Store}
    {acts : List ((ι × Act) × Store)} (h : Streaming topics reqs StoreStep s acts s') :
    Streaming topics reqs (fun s a s' => MessageStep s.messages a s'.messages) s acts s' :=
  h.widen fun _ _ _ hstep => messageStep_of_storeStep hstep

/-- What a client is told changes nothing in the tables. -/
theorem storeStep_late {s s' : Store} {a : Act} (h : StoreStep s a s') (hlate : a.late = true) :
    s' = s := by
  cases a with
  | yield ev => exact h
  | _ => cases hlate

/-- Two requests that overlap in a thread, and the client of neither has been told
    anything but its meta event. -/
def unheard : List ((Bool × Act) × Store) := overlapping.filter fun a => !a.1.2.late

theorem unheard_streaming : ∃ s,
    Streaming (oneTopic oneDelta) inThread StoreStep .empty unheard s := by
  obtain ⟨s, hrun⟩ := overlapping_concurrent
  exact ⟨s, hrun.streaming.untold fun _ _ _ => storeStep_late⟩

set_option maxRecDepth 20000 in
/-- Two requests that overlap in a thread say fourteen things where the relays keep
    up: each is announced, asks, consults the log, dispatches one delta, tells it, is
    answered and done.  They say ten where the relays have not begun. -/
theorem concurrent_refines_dialogue_overlapping :
    (word said (overlapping.map Prod.fst)).length = 14 ∧
      (word said (unheard.map Prod.fst)).length = 10 ∧
      (∃ (s : Store) (d : Dialogue Bool),
        watch (Dialogue.step inThread) (.start .empty) (word said (overlapping.map Prod.fst))
          = some d ∧ d.log = s.transcript) ∧
      ∃ (s : Store) (d : Dialogue Bool),
        watch (Dialogue.step inThread) (.start .empty) (word said (unheard.map Prod.fst))
          = some d ∧ d.log = s.transcript := by
  obtain ⟨s, hrun⟩ := overlapping_concurrent
  obtain ⟨s', hunheard⟩ := unheard_streaming
  obtain ⟨d, hwatch, hlog, -⟩ :=
    concurrent_refines_dialogue (oneTopic oneDelta) inThread hrun.streaming.messages
  obtain ⟨d', hwatch', hlog', -⟩ :=
    concurrent_refines_dialogue (oneTopic oneDelta) inThread hunheard.messages
  exact ⟨by decide, by decide, ⟨s, d, hwatch, hlog⟩, s', d', hwatch', hlog'⟩

-- ============================================================================
-- The exchange of one request
-- ============================================================================

open Classical in
/-- What a request has said in a log. -/
noncomputable def saidBy (req : ChatRequest) (log : List Utterance) : List Utterance :=
  log.filter fun u => u.requestId = req.requestId

/-- What is on record of a request that has promised the ids and dispatched the
    contents. -/
inductive OnLog (req : ChatRequest) (promised : List PyStr) (dispatched : List Json) :
    List Utterance → Prop where
  | nothing (hdispatched : dispatched = []) : OnLog req promised dispatched []
  | question (userId : PyStr) : OnLog req promised dispatched [(userMessage req userId).utterance]
  | answer {messageId : PyStr} {msg : Message} (userId : PyStr) (hpromised : promised = [messageId])
      (h : Replies req messageId dispatched msg) :
      OnLog req promised dispatched [(userMessage req userId).utterance, msg.utterance]

/-- The record fits the phase the exchange is in. -/
def Exchange.Fits (req : ChatRequest) (record : List Utterance) : Exchange → Prop
  | .silent => record = []
  | .announced _ => record = []
  | .asked _ _ => ∃ userId, record = [(userMessage req userId).utterance]
  | .answered messageId contents => ∃ msg userId, Replies req messageId contents msg ∧
      record = [(userMessage req userId).utterance, msg.utterance]

/-- What goes to the log. -/
def Speech.stored : Speech → Option Utterance
  | .store msg => some msg.utterance
  | _ => none

section Fits

variable {req : ChatRequest} {record : List Utterance} {phase phase' : Exchange} {speech : Speech}

theorem Exchange.Fits.onLog (h : phase.Fits req record) :
    OnLog req phase.promised phase.dispatched record := by
  cases phase with
  | silent =>
      obtain rfl : record = [] := h
      exact .nothing rfl
  | announced messageId =>
      obtain rfl : record = [] := h
      exact .nothing rfl
  | asked messageId contents =>
      obtain ⟨userId, rfl⟩ := h
      exact .question userId
  | answered messageId contents =>
      obtain ⟨msg, userId, hreplies, rfl⟩ := h
      exact .answer userId rfl hreplies

/-- The record goes along with the exchange. -/
theorem Exchange.Fits.step (h : phase.Fits req record)
    (hstep : Exchange.step req phase speech = some phase') :
    phase'.Fits req (record ++ speech.stored.toList) := by
  cases speech with
  | announce data =>
      obtain ⟨messageId, rfl, -, rfl⟩ := Exchange.step_announce hstep
      show Exchange.Fits _ (record ++ []) _
      rw [List.append_nil]
      exact h
  | store msg =>
      rcases Exchange.step_store hstep with
        ⟨messageId, rfl, ⟨userId, rfl⟩, rfl⟩ | ⟨messageId, contents, rfl, hreplies, rfl⟩
      · obtain rfl : record = [] := h
        exact ⟨userId, rfl⟩
      · obtain ⟨userId, rfl⟩ := h
        exact ⟨msg, userId, hreplies, rfl⟩
  | consult threadId limit msgs =>
      obtain ⟨messageId, -, -, rfl⟩ := Exchange.step_consult hstep
      show Exchange.Fits _ (record ++ []) _
      rw [List.append_nil]
      exact h
  | dispatch data =>
      obtain ⟨messageId, contents, c, rfl, -, rfl⟩ := Exchange.step_dispatched hstep
      show Exchange.Fits _ (record ++ []) _
      rw [List.append_nil]
      exact h
  | tell data =>
      rw [Exchange.step_tell, Option.some.injEq] at hstep
      show Exchange.Fits _ (record ++ []) _
      rw [List.append_nil, ← hstep]
      exact h
  | close =>
      rw [Exchange.step_close, Option.some.injEq] at hstep
      show Exchange.Fits _ (record ++ []) _
      rw [List.append_nil, ← hstep]
      exact h

end Fits

section Telling

variable {req : ChatRequest} {record : List Utterance} {part : List Act} {t : Telling}

/-- The record of a request that has come to `t` by its acts. -/
theorem Telling.Of.onLog (h : t.Of part) (hfits : t.exchange.Fits req record) :
    OnLog req (word idPromised part) (word contentDispatched part) record := by
  rw [← h.promised, ← h.dispatched]
  exact hfits.onLog

theorem Telling.Of.told_isPrefix (h : t.Of part) :
    word contentTold part <+: word contentDispatched part := by
  rw [← h.told, ← h.dispatched]
  exact t.begins

theorem Telling.Of.told_all (h : t.Of part) (hcloses : part.any Act.closes = true) :
    word contentTold part = word contentDispatched part := by
  rw [← h.told, ← h.dispatched]
  exact t.complete (h.closed.trans hcloses)

end Telling

/-- What the request has on record, thread by thread. -/
def Records (req : ChatRequest) (log : PyStr → List Utterance) (record : List Utterance) : Prop :=
  (∀ threadId, req.threadId = .str threadId → saidBy req (log threadId) = record) ∧
    ∀ threadId, req.threadId ≠ .str threadId → saidBy req (log threadId) = []

section Records

variable {req : ChatRequest} {log : PyStr → List Utterance} {record : List Utterance}
  {threadId : PyStr} {u : Utterance}

theorem saidBy_logged_of_ne (h : u.requestId ≠ req.requestId) (other : PyStr) :
    saidBy req (logged log threadId u other) = saidBy req (log other) := by
  by_cases hother : other = threadId
  · subst hother
    rw [logged, Function.update_self, saidBy, List.filter_append,
      List.filter_cons_of_neg (by simpa using h), List.filter_nil, List.append_nil]
    rfl
  · rw [logged, Function.update_of_ne hother]

/-- An utterance of another request. -/
theorem Records.other (h : Records req log record) (hother : u.requestId ≠ req.requestId) :
    Records req (logged log threadId u) record := by
  constructor
  · intro own hown
    rw [saidBy_logged_of_ne hother]
    exact h.1 own hown
  · intro own hown
    rw [saidBy_logged_of_ne hother]
    exact h.2 own hown

/-- An utterance of the request itself. -/
theorem Records.own (h : Records req log record) (hthread : req.threadId = .str threadId)
    (hown : u.requestId = req.requestId) : Records req (logged log threadId u) (record ++ [u]) := by
  constructor
  · intro own hself
    rw [hthread, Json.str.injEq] at hself
    subst hself
    rw [logged, Function.update_self, saidBy, List.filter_append,
      List.filter_cons_of_pos (by simpa using hown), List.filter_nil]
    exact congrArg (· ++ [u]) (h.1 _ hthread)
  · intro other hother
    rw [hthread, ne_eq, Json.str.injEq] at hother
    rw [logged, Function.update_of_ne (Ne.symm hother)]
    refine h.2 other ?_
    rw [hthread, ne_eq, Json.str.injEq]
    exact hother

end Records

/-- The record of request `i` fits its exchange. -/
def Dialogue.Fits (reqs : ι → ChatRequest) (i : ι) (d : Dialogue ι) : Prop :=
  ∃ record, (d.phase i).exchange.Fits (reqs i) record ∧ Records (reqs i) d.log record

section Dialogue

variable {i j : ι} {d d' : Dialogue ι} {speech : Speech}

/-- What a step of the dialogue is: the request goes on, and the log gets what is
    stored. -/
theorem Dialogue.step_cases (h : Dialogue.step reqs d (j, speech) = some d') :
    ∃ t, Telling.step (reqs j) (d.phase j) speech = some t ∧
      d'.phase = Function.update d.phase j t ∧
      (d'.log = d.log ∧ (∀ msg, speech ≠ .store msg) ∨
        ∃ msg threadId, speech = .store msg ∧ (reqs j).threadId = .str threadId ∧
          d'.log = logged d.log threadId msg.utterance) := by
  simp only [Dialogue.step, Option.bind_eq_bind, Option.bind_eq_some_iff] at h
  obtain ⟨t, ht, h⟩ := h
  refine ⟨t, ht, ?_⟩
  cases speech with
  | store msg =>
      cases hthread : (reqs j).threadId with
      | str threadId =>
          simp only [hthread, Option.some.injEq] at h
          subst h
          exact ⟨rfl, Or.inr ⟨msg, threadId, rfl, rfl, rfl⟩⟩
      | _ => simp [hthread] at h
  | consult threadId limit msgs =>
      cases hthread : (reqs j).threadId with
      | str threadId =>
          simp only [hthread] at h
          split at h
          · cases h
            exact ⟨rfl, Or.inl ⟨rfl, by simp⟩⟩
          · cases h
      | _ => simp [hthread] at h
  | _ =>
      simp only [Option.some.injEq] at h
      subst h
      exact ⟨rfl, Or.inl ⟨rfl, by simp⟩⟩

/-- A step of another request. -/
theorem Dialogue.Fits.other (h : d.Fits reqs i) (hji : j ≠ i)
    (hid : (reqs j).requestId ≠ (reqs i).requestId)
    (hstep : Dialogue.step reqs d (j, speech) = some d') : d'.Fits reqs i := by
  obtain ⟨record, hfits, hrecords⟩ := h
  obtain ⟨t, ht, hphases, hlog⟩ := Dialogue.step_cases hstep
  refine ⟨record, ?_, ?_⟩
  · rw [hphases, Function.update_of_ne (Ne.symm hji)]
    exact hfits
  · rcases hlog with ⟨hsame, -⟩ | ⟨msg, threadId, rfl, -, hlogged⟩
    · rw [hsame]
      exact hrecords
    · rw [hlogged]
      refine hrecords.other ?_
      show msg.requestId ≠ _
      rw [(Exchange.step_own (Telling.step_eq_some ht).1).2.2]
      exact hid

/-- A step of the request itself. -/
theorem Dialogue.Fits.own (h : d.Fits reqs i)
    (hstep : Dialogue.step reqs d (i, speech) = some d') : d'.Fits reqs i := by
  obtain ⟨record, hfits, hrecords⟩ := h
  obtain ⟨t, ht, hphases, hlog⟩ := Dialogue.step_cases hstep
  have hphase := (Telling.step_eq_some ht).1
  refine ⟨record ++ speech.stored.toList, ?_, ?_⟩
  · rw [hphases, Function.update_self]
    exact hfits.step hphase
  · rcases hlog with ⟨hsame, hstore⟩ | ⟨msg, threadId, rfl, hthread, hlogged⟩
    · have hnone : speech.stored = none := by
        cases speech with
        | store msg => exact absurd rfl (hstore msg)
        | _ => rfl
      rw [hnone, Option.toList_none, List.append_nil, hsame]
      exact hrecords
    · rw [hlogged]
      exact hrecords.own hthread (Exchange.step_own hphase).2.2

end Dialogue

/-- On empty tables every interleaving is a dialogue in which each request's record
    fits its exchange. -/
theorem dialogue_fits {topics : TopicRegistry} {reqs : ι → ChatRequest}
    (hdistinct : ∀ i j, (reqs i).requestId = (reqs j).requestId → i = j)
    {s : Store} {acts : List ((ι × Act) × Store)}
    (h : Streaming topics reqs (fun s a s' => MessageStep s.messages a s'.messages) .empty
      acts s) (i : ι) :
    ∃ d : Dialogue ι, d.log = s.transcript ∧ d.Fits reqs i ∧
      (d.phase i).Of (actsOf i (acts.map Prod.fst)) := by
  obtain ⟨d, hwatch, hlog, hof⟩ := h.dialogue
  have hstart : (Dialogue.start .empty : Dialogue ι).Fits reqs i :=
    ⟨[], rfl, fun _ _ => rfl, fun _ _ => rfl⟩
  refine ⟨d, hlog, watch_invariant (I := fun _ d => d.Fits reqs i) hstart ?_ hwatch, hof i⟩
  rintro past d ⟨j, speech⟩ d' hfits hstep
  by_cases hji : j = i
  · subst hji
    exact hfits.own hstep
  · exact hfits.other hji (fun hid => hji (hdistinct j i hid)) hstep

/-- For requests with distinct ids on empty tables: in every interleaving, with the
    relays as far behind as they may be and whatever fails, the messages that bear
    the id of a request are all in its own thread, and they are nothing, or its
    question, or its question and after it the one answer, under the id its client
    was promised and with all that was dispatched for its content.  The client has
    been told the first of it, and all of it once its stream is done. -/
theorem exchange_recorded (topics : TopicRegistry) (reqs : ι → ChatRequest)
    (hdistinct : ∀ i j, (reqs i).requestId = (reqs j).requestId → i = j)
    {s : Store} {acts : List ((ι × Act) × Store)}
    (h : Streaming topics reqs (fun s a s' => MessageStep s.messages a s'.messages) .empty
      acts s) (i : ι) :
    let part := actsOf i (acts.map Prod.fst)
    ∃ record, OnLog (reqs i) (word idPromised part) (word contentDispatched part) record ∧
      Records (reqs i) s.transcript record ∧
      word contentTold part <+: word contentDispatched part ∧
      (part.any Act.closes = true → word contentTold part = word contentDispatched part) := by
  intro part
  obtain ⟨d, hlog, ⟨record, hfits, hrecords⟩, hof⟩ := dialogue_fits hdistinct h i
  exact ⟨record, hof.onLog hfits, hlog ▸ hrecords, hof.told_isPrefix, hof.told_all⟩

end Requests

set_option maxRecDepth 20000 in
/-- The first of two requests that overlap has its answer on the table, and its
    client has not been told of it. -/
theorem exchange_recorded_unheard :
    let part := actsOf false (unheard.map Prod.fst)
    word contentDispatched part = [.str (py "a")] ∧ word contentTold part = [] ∧
      (part.filterMap assistantAppend).length = 1 ∧ ∃ (s : Store) (record : List Utterance),
        OnLog (inThread false) (word idPromised part) (word contentDispatched part) record ∧
        Records (inThread false) s.transcript record := by
  obtain ⟨s, hrun⟩ := unheard_streaming
  obtain ⟨record, honlog, hrecords, -⟩ := exchange_recorded (oneTopic oneDelta) inThread
    inThread_distinct hrun.messages false
  exact ⟨rfl, rfl, rfl, s, record, honlog, hrecords⟩

end MasterAgent
