/-
  MasterAgent.Api.MessageView

  From the event stream of a chat to `GET /sessions/{thread_id}/messages`.  Whatever
  requests run at once and whatever fails, the endpoint shows the messages of a
  thread to the account that the thread was opened for and to nobody else, and every
  answer it shows bears the message id that its client has read off the event stream
  and begins with the contents of the deltas read there.  Once the client has read
  that the stream is done, they are the answer.
-/

import MasterAgent.Api.SessionPaging
import MasterAgent.Core.Graph.Encoding
import MasterAgent.Core.TracedLog

namespace MasterAgent

open Effect

variable {ι : Type}

-- ============================================================================
-- What a client reads
-- ============================================================================

/-- The text of the event stream of client `i` so far. -/
def streamTo [DecidableEq ι] (floats : Json.FloatTexts) (i : ι) (acts : List (ι × Act)) : PyStr :=
  (word Act.yielded (actsOf i acts)).flatMap (encodeSse floats)

/-- The message ids that a client is promised in the events it has received. -/
def idsRead (events : List (PyStr × Option Json)) : List PyStr :=
  events.filterMap fun e => if e.1 = py "meta" then e.2.bind promisedId else none

/-- The contents of the deltas that a client has received. -/
def contentsRead (events : List (PyStr × Option Json)) : List Json :=
  events.filterMap fun e => if e.1 = py "delta" then e.2.bind deltaContent else none

/-- The client has received that the stream is done. -/
def doneRead (events : List (PyStr × Option Json)) : Bool :=
  events.any fun e => e.1 = py "done"

section Reading

variable {floats : Json.FloatTexts} {part : List Act}

theorem deltaContent_reread {data : Json} (h : data.KeysOnce) :
    deltaContent data.reread = (deltaContent data).map Json.reread := by
  rw [deltaContent, deltaContent, Json.getItem_readBack _ h]
  cases data.getItem (py "content") <;> rfl

/-- An id is a text, and texts are read as they were written. -/
theorem promisedId_reread {data : Json} (h : data.KeysOnce) :
    promisedId data.reread = promisedId data := by
  rw [promisedId, promisedId, Json.getItem_readBack _ h]
  cases data.getItem (py "message_id") with
  | error e => rfl
  | ok v => cases v <;> rfl

/-- What acts say in the events that they yield. -/
theorem word_yielded {β : Type} {f : Act → Option β} {g : ChatEvent → Option β}
    (h : ∀ a, f a = a.yielded.bind g) (acts : List Act) :
    word f acts = (word Act.yielded acts).filterMap g := by
  rw [word, word, List.filterMap_filterMap]
  exact List.filterMap_congr fun a _ => h a

theorem idPromised_eq (a : Act) : idPromised a =
    a.yielded.bind fun ev => if ev.type = .meta then promisedId ev.data else none := by
  cases a with
  | emit ev =>
      by_cases htype : ev.type = .delta <;>
        simp [idPromised, spoken, Speech.promised, Act.yielded, htype]
  | yield ev =>
      cases htype : ev.type <;> simp [idPromised, spoken, Speech.promised, Act.yielded, htype]
  | append msg r => cases r <;> rfl
  | listRecent threadId limit r => cases r <;> rfl
  | _ => rfl

theorem contentTold_yielded (a : Act) : contentTold a =
    a.yielded.bind fun ev => if ev.type = .delta then deltaContent ev.data else none := by
  rw [contentTold_eq]
  cases a with
  | yield ev => by_cases htype : ev.type = .delta <;> simp [yieldedDelta, Act.yielded, htype]
  | _ => rfl

variable [DecidableEq ι] {i : ι} {acts : List (ι × Act)}

/-- The client receives what was yielded to it. -/
theorem received_streamTo (hfloats : floats.Documented)
    (hid : ∀ ev, .yield ev ∈ actsOf i acts → ev.eventId = none) :
    received floats (streamTo floats i acts) =
      (word Act.yielded (actsOf i acts)).map
        fun ev => (ev.type.text, some ev.data.reread) := by
  rw [streamTo, received_events fun ev hev => hid ev (mem_yielded.mp hev)]
  exact List.map_congr_left fun ev _ => by rw [Json.loads_dumps_documented hfloats]

theorem idsRead_stream (hfloats : floats.Documented)
    (hid : ∀ ev, .yield ev ∈ actsOf i acts → ev.eventId = none)
    (hkeys : ∀ ev, .yield ev ∈ actsOf i acts → ev.data.KeysOnce) :
    idsRead (received floats (streamTo floats i acts)) = word idPromised (actsOf i acts) := by
  rw [received_streamTo hfloats hid, idsRead, List.filterMap_map, word_yielded idPromised_eq]
  refine List.filterMap_congr fun ev hev => ?_
  have hread := promisedId_reread (hkeys ev (mem_yielded.mp hev))
  cases htype : ev.type <;> simp [EventType.text, htype, py_inj, hread]

theorem contentsRead_stream (hfloats : floats.Documented)
    (hid : ∀ ev, .yield ev ∈ actsOf i acts → ev.eventId = none)
    (hkeys : ∀ ev, .yield ev ∈ actsOf i acts → ev.data.KeysOnce) :
    contentsRead (received floats (streamTo floats i acts)) =
      (word contentTold (actsOf i acts)).map Json.reread := by
  rw [received_streamTo hfloats hid, contentsRead, List.filterMap_map,
    word_yielded contentTold_yielded, List.map_filterMap]
  refine List.filterMap_congr fun ev hev => ?_
  have hread := deltaContent_reread (hkeys ev (mem_yielded.mp hev))
  cases htype : ev.type <;> simp [EventType.text, htype, py_inj, hread]

theorem doneRead_stream (hfloats : floats.Documented)
    (hid : ∀ ev, .yield ev ∈ actsOf i acts → ev.eventId = none) :
    doneRead (received floats (streamTo floats i acts)) = (actsOf i acts).any Act.closes := by
  have hone : ∀ ev : ChatEvent, decide (ev.type.text = py "done") =
      (Act.yield ev).closes := by
    intro ev
    cases htype : ev.type <;> simp [EventType.text, Act.closes, htype, py_inj]
  rw [received_streamTo hfloats hid, doneRead, List.any_map, word, List.any_filterMap]
  congr 1
  funext a
  cases a with
  | yield ev => exact hone ev
  | _ => rfl

/-- Contents that make up a text are read as they were written. -/
theorem reread_of_join {contents : List Json} {text : PyStr}
    (h : Json.join contents = .ok text) : ∀ c ∈ contents, c.reread = c := by
  obtain ⟨texts, rfl, -⟩ := Json.join_eq_ok.mp h
  intro c hc
  obtain ⟨s, -, rfl⟩ := List.mem_map.mp hc
  rfl

end Reading

-- ============================================================================
-- The tables
-- ============================================================================

/-- What an act does to the tables, where a statement may fail for any cause: a
    `get_or_create` that returns has returned the row of the thread. -/
structure TablesStep (s : Store) (a : Act) (s' : Store) : Prop where
  messages : MessageStep s.messages a s'.messages
  sessions : ∃ now, s.sessions.After now a s'.sessions
  opened : ∀ threadId bizId w3Account session,
    a = .getOrCreate (.str threadId) bizId w3Account (.ok session) →
      ∃ row, s'.sessions.select threadId = some row ∧ session = rowToSession row

/-- A row keeps its account. -/
theorem SessionTable.After.account {t t' : SessionTable} {now : Timestamp} {a : Act}
    {threadId : PyStr} {row : Session} (h : t.After now a t') (hrow : t.select threadId = some row) :
    ∃ row', t'.select threadId = some row' ∧ row'.w3Account = row.w3Account := by
  have hsame : t' = t → ∃ row', t'.select threadId = some row' ∧
      row'.w3Account = row.w3Account := by
    rintro rfl
    exact ⟨row, hrow, rfl⟩
  cases a with
  | getOrCreate other bizId w3Account r =>
      cases other with
      | str other =>
          rcases h with rfl | ⟨-, heq⟩
          · by_cases hother : other = threadId
            · subst hother
              rw [SessionTable.insert_of_select (by exact hrow)]
              exact ⟨row, hrow, rfl⟩
            · rw [select_insert_other (by exact hother)]
              exact ⟨row, hrow, rfl⟩
          · exact hsame heq
      | _ => exact hsame h
  | touch other r =>
      cases other with
      | str other =>
          cases r with
          | ok u =>
              obtain rfl : t' = t.touch other now := h
              refine ⟨touchRow other now row, by rw [select_touch, hrow]; rfl, ?_⟩
              unfold touchRow
              split <;> rfl
          | error e => exact hsame h
      | _ => exact hsame h
  | _ => exact hsame h

/-- No row is lost. -/
theorem MessageStep.rows_subset {t t' : MessageTable} {a : Act} (h : MessageStep t a t') :
    t.rows ⊆ t'.rows := by
  have hsame : t' = t → t.rows ⊆ t'.rows := by
    rintro rfl
    exact List.Subset.refl _
  cases a with
  | append msg r =>
      cases r with
      | ok u =>
          obtain ⟨row, hinsert, -⟩ := h
          rw [MessageTable.insert_rows hinsert]
          exact List.subset_append_left _ _
      | error e => exact hsame h
  | listRecent t limit r =>
      cases r with
      | ok msgs => exact hsame h.1
      | error e => exact hsame h
  | _ => exact hsame h

section Run

variable {s : Store} {acts : List ((ι × Act) × Store)} {threadId : PyStr}

/-- The account a thread was opened for is the account of its row ever after. -/
theorem path_opened (h : Path (fun s l s' => TablesStep s l.2 s') .empty acts s) {i : ι}
    {bizId w3Account : PyStr} {session : Session}
    (hopened : (i, .getOrCreate (.str threadId) bizId w3Account (.ok session)) ∈
      acts.map Prod.fst) :
    ∃ row, s.sessions.select threadId = some row ∧ row.w3Account = session.w3Account := by
  have hall : ∀ i threadId bizId w3Account session,
      (i, .getOrCreate (.str threadId) bizId w3Account (.ok session)) ∈ acts.map Prod.fst →
        ∃ row, s.sessions.select threadId = some row ∧ row.w3Account = session.w3Account := by
    refine h.invariant (I := fun past s => ∀ i threadId bizId w3Account session,
      (i, .getOrCreate (.str threadId) bizId w3Account (.ok session)) ∈ past →
        ∃ row, s.sessions.select threadId = some row ∧ row.w3Account = session.w3Account)
      (fun _ _ _ _ _ hmem => (List.not_mem_nil hmem).elim) ?_
    rintro past s ⟨j, a⟩ s' hpast hstep i threadId bizId w3Account session hmem
    rcases List.mem_append.mp hmem with hmem | hmem
    · obtain ⟨row, hrow, haccount⟩ := hpast i threadId bizId w3Account session hmem
      obtain ⟨now, hafter⟩ := hstep.sessions
      obtain ⟨row', hrow', hsame⟩ := hafter.account hrow
      exact ⟨row', hrow', hsame.trans haccount⟩
    · obtain ⟨-, rfl⟩ := Prod.mk.inj (List.mem_singleton.mp hmem)
      obtain ⟨row, hrow, rfl⟩ := hstep.opened threadId bizId w3Account session rfl
      exact ⟨row, hrow, rfl⟩
  exact hall i threadId bizId w3Account session hopened

/-- A message that was stored has its row. -/
theorem path_stored (h : Path (fun s l s' => TablesStep s l.2 s') .empty acts s) {i : ι}
    {msg : Message} (hstored : (i, .append msg (.ok ())) ∈ acts.map Prod.fst) :
    ∃ row ∈ s.messages.rows, RowOf msg row := by
  have hall : ∀ i msg, (i, .append msg (.ok ())) ∈ acts.map Prod.fst →
      ∃ row ∈ s.messages.rows, RowOf msg row := by
    refine h.invariant (I := fun past s => ∀ i msg, (i, .append msg (.ok ())) ∈ past →
      ∃ row ∈ s.messages.rows, RowOf msg row)
      (fun _ _ hmem => (List.not_mem_nil hmem).elim) ?_
    rintro past s ⟨j, a⟩ s' hpast hstep i msg hmem
    rcases List.mem_append.mp hmem with hmem | hmem
    · obtain ⟨row, hrow, hof⟩ := hpast i msg hmem
      exact ⟨row, hstep.messages.rows_subset hrow, hof⟩
    · obtain ⟨-, rfl⟩ := Prod.mk.inj (List.mem_singleton.mp hmem)
      obtain ⟨row, hinsert, hof, -⟩ := hstep.messages
      refine ⟨row, ?_, hof⟩
      rw [MessageTable.insert_rows hinsert]
      exact List.mem_append_right _ (List.mem_singleton.mpr rfl)
  exact hall i msg hstored

end Run

-- ============================================================================
-- The endpoint
-- ============================================================================

/-- The rows `list_messages` shows of a thread, newest first. -/
def shownMessages (s : Store) (threadId : PyStr) : List MessageRow :=
  (s.messages.visible threadId).reverse

/-- The account of the row is shown the thread, and nobody else is. -/
theorem listMessages_eq {env : RestEnv} {s : Store} {threadId account : PyStr} {row : Session}
    {limit : Option Int} {n : Nat} (hrow : s.sessions.select threadId = some row)
    (haccount : account ≠ []) (hlimit : queryLimit limit = .ok n) :
    listMessages env true s (some account) threadId limit =
      if account = row.w3Account then
        .ok (.obj [(py "thread_id", .str threadId), (py "items",
          .arr (((shownMessages s threadId).take n).map fun row =>
            serializeMessage env (rowToMessage row)))])
      else .error (unknownThread threadId) := by
  have hrequire : requireW3Account (some account) = .ok account := by
    cases account with
    | nil => exact absurd rfl haccount
    | cons c rest => rfl
  have hitems : (s.messages.selectRecent threadId n).map rowToMessage =
      ((shownMessages s threadId).take n).map rowToMessage := by
    rw [MessageTable.selectRecent_eq]
    rfl
  unfold listMessages
  rw [hlimit, hrequire]
  by_cases hown : account = row.w3Account
  · rw [if_pos hown]
    have hsession := ownSession_eq_ok.mpr ⟨row, hrow, hown.symm, rfl⟩
    show (ownSession account threadId s >>= _) = _
    rw [hsession]
    show Except.ok _ = Except.ok _
    rw [hitems, List.map_map]
    rfl
  · rw [if_neg hown]
    show (ownSession account threadId s >>= _) = _
    cases hsession : ownSession account threadId s with
    | error e =>
        rw [ownSession_error hsession]
        rfl
    | ok session =>
        obtain ⟨row', hrow', hown', -⟩ := ownSession_eq_ok.mp hsession
        rw [hrow] at hrow'
        cases hrow'
        exact absurd hown'.symm hown

/-- The row holds a question of the request, or the answer that its client has read or
    is reading. -/
inductive Heard (req : ChatRequest) (events : List (PyStr × Option Json)) (row : MessageRow) :
    Prop where
  | question (hrole : row.role = py "user") (hcontent : req.question = .str row.content)
  | answer (hrole : row.role = py "assistant") (hid : idsRead events = [row.messageId])
      (unread : List Json) (hcontent : Json.join (contentsRead events ++ unread) = .ok row.content)
      (hdone : doneRead events = true → unread = [])

theorem Traced.heard {req : ChatRequest} {t : Telling} {part : List Act} {row : MessageRow}
    {events : List (PyStr × Option Json)}
    (h : Traced req t.exchange (rowToMessage row).utterance) (hof : t.Of part)
    (hids : idsRead events = word idPromised part)
    (hcontents : contentsRead events = (word contentTold part).map Json.reread)
    (hdone : doneRead events = part.any Act.closes) : Heard req events row := by
  cases h with
  | question userId hu =>
      exact .question (congrArg Utterance.role hu) (congrArg Utterance.content hu).symm
  | @answer messageId contents msg hphase hreplies hu =>
      obtain ⟨text, hjoin, hcontent⟩ := hreplies.content
      have hrole : row.role = _ := congrArg Utterance.role hu
      have hid : row.messageId = _ := congrArg Utterance.messageId hu
      have hrow : Json.str row.content = _ := congrArg Utterance.content hu
      have htext : text = row.content := Json.str.inj (hcontent.symm.trans hrow.symm)
      have hpromised : word idPromised part = [messageId] := by
        rw [← hof.promised, hphase]
        rfl
      have hdispatched : word contentDispatched part = contents := by
        rw [← hof.dispatched, hphase]
        rfl
      -- what is unread was dispatched and has not been told
      obtain ⟨unread, hunread⟩ := hof.told_isPrefix
      rw [hdispatched] at hunread
      have hread : (word contentTold part).map Json.reread = word contentTold part := by
        have hall := reread_of_join hjoin
        rw [← hunread] at hall
        rw [List.map_congr_left fun c hc => hall c (List.mem_append_left _ hc), List.map_id']
      refine .answer (hrole.trans hreplies.role) ?_ unread ?_ ?_
      · rw [hids, hpromised, hid]
        exact congrArg (fun id => [id]) hreplies.messageId.symm
      · rw [hcontents, hread, hunread, hjoin, htext]
      · intro hclosed
        have hall := hof.told_all (hdone.symm.trans hclosed)
        rw [hdispatched, ← hunread] at hall
        exact List.append_right_eq_self.mp hall.symm

/-- For any requests on empty tables, in every interleaving, with the relays as far
    behind as they may be and whatever fails: once a `get_or_create` has returned for
    a thread, `list_messages` shows its messages, newest first, to the account in the
    row that was returned and answers everybody else as for an unknown thread; what
    it shows is a question of a request in the thread, or an answer under the id that
    the client of such a request has read off its event stream, which begins with
    the deltas read there and is all of them once done is read; and every message
    stored there is shown.  The data of events are dictionaries, which have each key
    once. -/
theorem messages_show_answers [DecidableEq ι] (env : RestEnv) {floats : Json.FloatTexts}
    (hfloats : floats.Documented) (topics : TopicRegistry) (reqs : ι → ChatRequest) {s : Store}
    {acts : List ((ι × Act) × Store)} (h : Streaming topics reqs TablesStep .empty acts s)
    (hkeys : ∀ i ev, .yield ev ∈ actsOf i (acts.map Prod.fst) → ev.data.KeysOnce)
    {i : ι} {threadId bizId w3Account : PyStr} {session : Session}
    (hopened : (i, .getOrCreate (.str threadId) bizId w3Account (.ok session)) ∈
      acts.map Prod.fst) :
    ∃ rows : List MessageRow,
      (∀ account limit n, account ≠ [] → queryLimit limit = .ok n →
        listMessages env true s (some account) threadId limit =
          if account = session.w3Account then
            .ok (.obj [(py "thread_id", .str threadId), (py "items", .arr ((rows.take n).map
              fun row => serializeMessage env (rowToMessage row)))])
          else .error (unknownThread threadId)) ∧
      (rows.Pairwise fun a b => b.seq < a.seq) ∧
      (∀ row ∈ rows, ∃ j, (reqs j).threadId = .str threadId ∧
        Heard (reqs j) (received floats (streamTo floats j (acts.map Prod.fst))) row) ∧
      ∀ j msg, (j, .append msg (.ok ())) ∈ acts.map Prod.fst → msg.threadId = .str threadId →
        msg.utterance.Shown → ∃ row ∈ rows, RowOf msg row := by
  obtain ⟨row, hrow, haccount⟩ := path_opened h.path hopened
  obtain ⟨d, hlog, htraced, hof⟩ := transcript_traced (h.widen fun _ _ _ hstep => hstep.messages)
  have hid : ∀ j ev, .yield ev ∈ actsOf j (acts.map Prod.fst) → ev.eventId = none := by
    intro j ev hev
    obtain ⟨σ, env, w, hlags⟩ := h.runs j
    exact handle_unnumbered env topics (reqs j) w ev (mem_yielded.mpr (hlags.subset hev))
  refine ⟨shownMessages s threadId, ?_, ?_, ?_, ?_⟩
  · intro account limit n hne hlimit
    rw [listMessages_eq hrow hne hlimit, haccount]
  · rw [shownMessages, List.pairwise_reverse, MessageTable.visible_eq_thread]
    exact (s.messages.thread_strict threadId).filter _
  · intro row hshown
    rw [shownMessages, List.mem_reverse, MessageTable.visible_eq_thread, List.mem_filter] at hshown
    have hu : (rowToMessage row).utterance ∈ d.log threadId := by
      rw [hlog]
      exact List.mem_map_of_mem hshown.1
    obtain ⟨j, hthread, hj⟩ := htraced threadId _ hu
    exact ⟨j, hthread, hj.heard (hof j) (idsRead_stream hfloats (hid j) (hkeys j))
      (contentsRead_stream hfloats (hid j) (hkeys j)) (doneRead_stream hfloats (hid j))⟩
  · intro j msg hstored hthread hshown
    obtain ⟨row, hmem, hof⟩ := path_stored h.path hstored
    refine ⟨row, ?_, hof⟩
    rw [shownMessages, List.mem_reverse, MessageTable.mem_visible]
    refine ⟨hmem, ?_, ?_⟩
    · have hsame := hof.threadId
      rw [hthread, Json.str.injEq] at hsame
      exact hsame.symm
    · unfold MessageRow.Shown
      rw [hof.status]
      exact hshown

-- ============================================================================
-- A request and its answer
-- ============================================================================

/-- The uninterrupted statements are such steps. -/
theorem tablesStep_of_storeStep {s s' : Store} {a : Act} (h : StoreStep s a s') :
    TablesStep s a s' where
  messages := messageStep_of_storeStep h
  sessions := after_of_storeStep h
  opened := by
    rintro threadId bizId w3Account session rfl
    obtain ⟨now, h⟩ := h
    simp only [Store.getOrCreate, bindText] at h
    rcases getOrCreate_cases { threadId, bizId, w3Account, now } s.sessions with
      ⟨row, -, -, heq⟩ | ⟨row, hrow, -, heq⟩ | ⟨hnone, heq⟩
    · rw [heq] at h
      cases h
    · rw [heq] at h
      cases h
      exact ⟨row, hrow, rfl⟩
    · rw [heq] at h
      cases h
      exact ⟨_, GetOrCreate.select_newRow hnone, rfl⟩

/-- The first request is asked and answered. -/
def answeredOnce : List ((Bool × Act) × Store) :=
  tagged false (asking false .initial) ++ tagged false (answering false .initial firstAsked)

set_option maxRecDepth 20000 in
theorem answeredOnce_concurrent : ∃ s,
    Concurrent (oneTopic oneDelta) inThread TablesStep .empty answeredOnce s := by
  refine ⟨firstAnswered.store, ?_, ?_⟩
  · have hpath : Path (fun s l s' => StoreStep s l.2 s') .empty answeredOnce firstAnswered.store :=
      path_append.mpr ⟨firstAsked.store, asking_path false .initial,
        answering_path false .initial firstAsked⟩
    exact hpath.widen fun _ _ _ => tablesStep_of_storeStep
  · intro i
    cases i with
    | false => exact ⟨Db, smallDeployment.env 0, .initial, [], rfl⟩
    | true => exact ⟨Db, smallDeployment.env 0, .initial, List.nil_prefix⟩

set_option maxRecDepth 20000 in
theorem answeredOnce_keysOnce (i : Bool) (ev : ChatEvent)
    (hev : .yield ev ∈ actsOf i (answeredOnce.map Prod.fst)) : ev.data.KeysOnce := by
  have hsilent : word Act.yielded (actsOf true (answeredOnce.map Prod.fst)) = [] := rfl
  have hdata : (word Act.yielded (actsOf false (answeredOnce.map Prod.fst))).map
      ChatEvent.data =
        [.obj [(py "thread_id", .str (py "th")), (py "request_id", .str (py "1")),
            (py "message_id", .str (py "msg_")), (py "topic", .str (py "topic"))],
          .obj [(py "phase", .str (py "auth")), (py "label", .str (py "正在校验权限…"))],
          .obj [(py "step", .str (py "auth")), (py "status", .str (py "done")),
            (py "extra", .obj [(py "passed", .bool true)])],
          .obj [(py "phase", .str (py "enrich"))],
          .obj [(py "step", .str (py "enrich")), (py "status", .str (py "done")),
            (py "extra", .obj [])],
          .obj [(py "phase", .str (py "intent")), (py "label", .str (py "正在识别问题意图…"))],
          .obj [(py "step", .str (py "intent")), (py "status", .str (py "done")),
            (py "detail", .str []), (py "extra", .obj [(py "route", .str (py "kc"))])],
          .obj [(py "content", .str (py "a"))],
          .obj [(py "message_id", .str (py "msg_")), (py "status", .str (py "complete"))]] := rfl
  have honce : ∀ data ∈ (word Act.yielded (actsOf false (answeredOnce.map Prod.fst))).map
      ChatEvent.data, data.KeysOnce := by
    rw [hdata]
    simp only [List.forall_mem_cons, List.not_mem_nil, false_imp_iff, implies_true, and_true,
      Json.KeysOnce]
    decide
  cases i with
  | true =>
      rw [← mem_yielded, hsilent] at hev
      exact (List.not_mem_nil hev).elim
  | false => exact honce _ (List.mem_map_of_mem (mem_yielded.mpr hev))

set_option maxRecDepth 20000 in
/-- Alice is shown her question and the answer she has read. -/
theorem messages_show_answers_once : ∃ (s : Store) (rows : List MessageRow),
    listMessages firstSecond true s (some (py "alice")) (py "th") none =
        .ok (.obj [(py "thread_id", .str (py "th")), (py "items", .arr ((rows.take 50).map
          fun row => serializeMessage firstSecond (rowToMessage row)))]) ∧
      ∀ row ∈ rows, ∃ j, (inThread j).threadId = .str (py "th") ∧ Heard (inThread j)
        (received Json.bitTexts (streamTo Json.bitTexts j (answeredOnce.map Prod.fst))) row := by
  obtain ⟨s, hrun⟩ := answeredOnce_concurrent
  have hopened : (answeredOnce.map Prod.fst)[2]? =
      some (false, .getOrCreate (.str (py "th")) (py "topic") (py "alice") (.ok _)) := rfl
  obtain ⟨rows, hlist, -, hheard, -⟩ := messages_show_answers firstSecond
    Json.bitTexts_documented (oneTopic oneDelta) inThread hrun.streaming answeredOnce_keysOnce
    (List.mem_of_getElem? hopened)
  exact ⟨s, rows, hlist (py "alice") none 50 (by decide) rfl, hheard⟩

end MasterAgent
