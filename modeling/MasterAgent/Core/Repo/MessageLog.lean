/-
  MasterAgent.Core.Repo.MessageLog

  `MessageRepository` as an append-only log: its methods with the texts of the
  `jsonb` columns, `json.dumps` on the way in and `json.loads` on the way out,
  and the log they keep.

  A log lists the messages appended, each with its current status.  `Logs`
  relates the table to it, every call keeps up the relation (`logs_call`), and
  what `list_recent` returns is read off the log (`table_refines_log`).
-/

import MasterAgent.Core.Graph.Encoding
import MasterAgent.Core.Repo.Database
import MasterAgent.Lib.Machine
import MasterAgent.Python.JsonStyle

namespace MasterAgent

-- ============================================================================
-- The database
-- ============================================================================

/-- What PostgreSQL does with the values of a message. -/
structure Postgres where
  /-- Do the texts fit their columns? -/
  takes : Message → Bool
  /-- `$n::jsonb`. -/
  cast : PyStr → Except Exn Json
  /-- A `jsonb` value as the driver hands it out. -/
  text : Json → PyStr
  /-- `a || b`. -/
  concat : Json → Json → Except Exn Json

/-- What the manual says of `jsonb`. -/
structure Postgres.Documented (pg : Postgres) (floats : Json.FloatTexts) : Prop where
  /-- What `json.dumps` wrote comes out as it went in, but for the order of keys and
      the form of numbers. -/
  keeps : ∀ v w j, pg.cast (Json.ascii.dumps floats v) = .ok j →
    Json.loads floats (Json.ascii.dumps floats v) = some w →
    ∃ w', Json.loads floats (pg.text j) = some w' ∧ Json.Same floats w w'
  /-- What is handed out is JSON. -/
  json : ∀ j, ∃ w, Json.loads floats (pg.text j) = some w

namespace MessageTable

/-- The row with a new status and a new ext, if it is the one named. -/
def updateRow (messageId status : PyStr) (ext : Json → Except Exn Json) (r : MessageRow) :
    Except Exn MessageRow :=
  if r.messageId = messageId then (ext r.ext).map fun ext => { r with status, ext } else .ok r

/-- `r'` is `r` with another status and another ext, if `r` is the row named, and
    otherwise `r`. -/
structure Marked (messageId : PyStr) (r r' : MessageRow) : Prop where
  other : r.messageId ≠ messageId → r' = r
  fields : r' = { r with status := r'.status, ext := r'.ext }

theorem updateRow_marked {messageId status : PyStr} {ext : Json → Except Exn Json}
    {r r' : MessageRow} (h : updateRow messageId status ext r = .ok r') :
    Marked messageId r r' := by
  unfold updateRow at h
  split at h
  · next hid =>
      cases hext : ext r.ext with
      | error e => simp [hext, Except.map] at h
      | ok v =>
          simp only [hext, Except.map, Except.ok.injEq] at h
          subst h
          exact ⟨fun hne => absurd hid hne, rfl⟩
  · cases h
    exact ⟨fun _ => rfl, rfl⟩

/-- Every item is made into its counterpart. -/
theorem mapM_eq_ok {α β ε : Type} {f : α → Except ε β} {as : List α} {bs : List β} :
    as.mapM f = .ok bs ↔ List.Forall₂ (fun a b => f a = .ok b) as bs := by
  induction as generalizing bs with
  | nil =>
      rw [List.forall₂_nil_left_iff]
      exact ⟨fun h => (Except.ok.inj h).symm, fun h => h ▸ rfl⟩
  | cons a as ih =>
      rw [List.mapM_cons, List.forall₂_cons_left_iff]
      cases ha : f a with
      | error e => simp [bind, Except.bind]
      | ok b =>
          cases has : as.mapM f with
          | error e => simp [has, bind, Except.bind, ← ih]
          | ok bs' => simp [has, bind, Except.bind, pure, Except.pure, ← ih, eq_comm]

theorem map_eq_of_forall₂ {α β γ : Type} {R : α → β → Prop} {f : α → γ} {g : β → γ}
    {as : List α} {bs : List β} (h : List.Forall₂ R as bs) (heq : ∀ a b, R a b → g b = f a) :
    bs.map g = as.map f := by
  induction h with
  | nil => rfl
  | cons hab _ ih => rw [List.map_cons, List.map_cons, heq _ _ hab, ih]

variable (t : MessageTable)

theorem updated_marked {messageId status : PyStr} {ext : Json → Except Exn Json}
    {rows : List MessageRow} (h : t.rows.mapM (updateRow messageId status ext) = .ok rows) :
    List.Forall₂ (Marked messageId) t.rows rows :=
  (mapM_eq_ok.mp h).imp fun _ _ => updateRow_marked

/-- `UPDATE ma_message SET status = ..., ext = ... WHERE message_id = $1`. -/
def update (messageId status : PyStr) (ext : Json → Except Exn Json) :
    Except Exn Unit × MessageTable :=
  match h : t.rows.mapM (updateRow messageId status ext) with
  | .error e => (.error e, t)
  | .ok rows => (.ok (), {
      rows
      primaryKey := by
        rw [map_eq_of_forall₂ (f := MessageRow.messageId) (t.updated_marked h)
          fun r r' hr => by rw [hr.fields]]
        exact t.primaryKey
      uniqueSlot := by
        rw [map_eq_of_forall₂ (f := MessageRow.slot) (t.updated_marked h)
          fun r r' hr => by rw [hr.fields]; rfl]
        exact t.uniqueSlot })

end MessageTable

-- ============================================================================
-- The methods
-- ============================================================================

namespace MessageRepository

variable (pg : Postgres) (floats : Json.FloatTexts)

/-- `append`: the SELECT, and the INSERT with its two casts. -/
def append (msg : Message) (now : Timestamp) (t : MessageTable) :
    Except Exn Unit × MessageTable :=
  match pg.cast (Json.ascii.dumps floats msg.contentMeta),
      pg.cast (Json.ascii.dumps floats msg.ext) with
  | .error e, _ => (.error e, t)
  | .ok _, .error e => (.error e, t)
  | .ok contentMeta, .ok ext =>
      if pg.takes msg then MasterAgent.append { msg with contentMeta, ext } now t
      else (.error .dbError, t)

/-- `mark_partial`. -/
def markPartial (messageId : PyStr) (t : MessageTable) : Except Exn Unit × MessageTable :=
  t.update messageId (py "partial") .ok

/-- `mark_failed`; the ext of a row is never NULL. -/
def markFailed (messageId : PyStr) (err : Json) (t : MessageTable) :
    Except Exn Unit × MessageTable :=
  match pg.cast (Json.ascii.dumps floats err) with
  | .error e => (.error e, t)
  | .ok err => t.update messageId (py "failed") fun ext => pg.concat ext err

/-- `json.loads` of a column: without a codec the driver hands out `jsonb` as text. -/
def loadColumn (j : Json) : Except Exn Json :=
  match Json.loads floats (pg.text j) with
  | some v => .ok v
  | none => .error .valueError

/-- `_row_to_message`, on a row as the driver hands it out. -/
def rowToMessage (r : MessageRow) : Except Exn Message := do
  let contentMeta ← loadColumn pg floats r.contentMeta
  let ext ← loadColumn pg floats r.ext
  return MasterAgent.rowToMessage { r with contentMeta, ext }

/-- `list_recent`. -/
def listRecent (threadId : PyStr) (limit : Nat) (t : MessageTable) :
    Except Exn (List Message) :=
  (t.selectRecent threadId limit).mapM (rowToMessage pg floats)

/-- A call of a method that writes. -/
inductive Call where
  | append (msg : Message)
  | markPartial (messageId : PyStr)
  | markFailed (messageId : PyStr) (err : Json)

/-- What a call does. -/
def Call.exec (now : Timestamp) (t : MessageTable) : Call → Except Exn Unit × MessageTable
  | .append msg => MessageRepository.append pg floats msg now t
  | .markPartial messageId => MessageRepository.markPartial messageId t
  | .markFailed messageId err => MessageRepository.markFailed pg floats messageId err t

end MessageRepository

-- ============================================================================
-- The log
-- ============================================================================

/-- A message as appended, its current status, and whether it was ever marked
    failed. -/
structure LogEntry where
  msg : Message
  status : PyStr
  everFailed : Bool

/-- The messages appended, in this order. -/
abbrev MessageLog : Type := List LogEntry

/-- Does `list_recent` select the message? -/
def LogEntry.listed (e : LogEntry) : Bool :=
  e.status = py "complete" || e.status = py "partial"

/-- The entry, marked if it is the one named. -/
def LogEntry.mark (messageId status : PyStr) (fails : Bool) (e : LogEntry) : LogEntry :=
  if e.msg.messageId = messageId then { e with status, everFailed := e.everFailed || fails } else e

namespace MessageLog

/-- What a call does to the log. -/
def record (log : MessageLog) : MessageRepository.Call → MessageLog
  | .append msg => log ++ [⟨msg, msg.status, false⟩]
  | .markPartial messageId => log.map (LogEntry.mark messageId (py "partial") false)
  | .markFailed messageId _ => log.map (LogEntry.mark messageId (py "failed") true)

/-- The log of a thread. -/
def ofThread (log : MessageLog) (threadId : PyStr) : MessageLog :=
  log.filter fun e => e.msg.threadId.isStr threadId

/-- The last messages of a thread that are complete or partial, the latest first. -/
def recent (log : MessageLog) (threadId : PyStr) (limit : Nat) : MessageLog :=
  ((log.ofThread threadId).reverse.filter LogEntry.listed).take limit

end MessageLog

-- ============================================================================
-- The table and the log
-- ============================================================================

section Logs

variable (pg : Postgres) (floats : Json.FloatTexts)

/-- The column value `j` is handed out as what the object `v` is. -/
def Holds (j v : Json) : Prop :=
  ∃ fields w, v = .obj fields ∧ Json.loads floats (pg.text j) = some w ∧ Json.Same floats v w

/-- The row holds the message of the entry, with its current status. -/
structure Keeps (r : MessageRow) (e : LogEntry) : Prop where
  messageId : r.messageId = e.msg.messageId
  threadId : e.msg.threadId = .str r.threadId
  role : r.role = e.msg.role
  content : e.msg.content = .str r.content
  contentMeta : Holds pg floats r.contentMeta e.msg.contentMeta
  status : r.status = e.status
  route : r.route = e.msg.route
  requestId : bindTextOrNull e.msg.requestId = .ok r.requestId
  ext : e.everFailed = false → Holds pg floats r.ext e.msg.ext

/-- The rows are those of the log, and each thread is numbered from one. -/
structure Logs (t : MessageTable) (log : MessageLog) : Prop where
  rows : List.Forall₂ (Keeps pg floats) t.rows log
  numbered : ∀ threadId,
    t.seqs threadId = (List.range (t.seqs threadId).length).map fun i : Nat => (i : Int) + 1

/-- What `list_recent` returns for an entry. -/
structure Returned (m : Message) (e : LogEntry) : Prop where
  messageId : m.messageId = e.msg.messageId
  threadId : m.threadId = e.msg.threadId
  role : m.role = e.msg.role
  content : m.content = e.msg.content
  contentMeta : Json.Same floats e.msg.contentMeta m.contentMeta
  status : m.status = e.status
  route : m.route = e.msg.route
  requestId : m.requestId = e.msg.requestId
  ext : e.everFailed = false → Json.Same floats e.msg.ext m.ext

/-- A JSON object. -/
def IsJsonObject (v : Json) : Prop :=
  (∃ fields, v = .obj fields) ∧ Json.Written floats Json.Unpaired v

/-- A message without a seq of its own whose content_meta and ext are JSON objects. -/
structure Appendable (msg : Message) : Prop where
  noSeq : msg.seq = 0
  contentMeta : IsJsonObject floats msg.contentMeta
  ext : IsJsonObject floats msg.ext

/-- The database takes the values of the message. -/
structure Insertable (msg : Message) : Prop where
  contentMeta : ∃ j, pg.cast (Json.ascii.dumps floats msg.contentMeta) = .ok j
  ext : ∃ j, pg.cast (Json.ascii.dumps floats msg.ext) = .ok j
  takes : pg.takes msg = true
  threadId : ∃ s, msg.threadId = .str s
  content : ∃ s, msg.content = .str s
  requestId : ∃ o, bindTextOrNull msg.requestId = .ok o

end Logs

section Refinement

variable {pg : Postgres} {floats : Json.FloatTexts} {t t' : MessageTable} {log : MessageLog}

/-- A column that was cast from an object holds it. -/
theorem Postgres.Documented.holds (hpg : pg.Documented floats) {v j : Json}
    (hv : IsJsonObject floats v) (hcast : pg.cast (Json.ascii.dumps floats v) = .ok j) :
    Holds pg floats j v := by
  obtain ⟨⟨fields, hfields⟩, hwritten⟩ := hv
  obtain ⟨w, hloads, hsame⟩ :=
    hpg.keeps v v j hcast (Json.Style.loads_dumps Json.readable_ascii hwritten)
  exact ⟨fields, w, hfields, hloads, hsame⟩

-- ============================================================================
-- The rows of a thread
-- ============================================================================

theorem MessageTable.seqs_eq_slots (threadId : PyStr) :
    t.seqs threadId
      = ((t.rows.map MessageRow.slot).filter fun s => s.1 = threadId).map Prod.snd := by
  rw [MessageTable.seqs, List.filter_map, List.map_map]
  rfl

/-- The largest seq of a thread numbered from one is the number of its rows. -/
theorem MessageTable.maxSeq_of_numbered {threadId : PyStr}
    (h : t.seqs threadId = (List.range (t.seqs threadId).length).map fun i : Nat => (i : Int) + 1) :
    t.maxSeq threadId = (t.seqs threadId).length := by
  have hmem : ∀ s, s ∈ t.seqs threadId ↔ ∃ i < (t.seqs threadId).length, (i : Int) + 1 = s := by
    intro s
    rw [h, List.mem_map, List.length_map, List.length_range]
    simp only [List.mem_range]
  generalize hn : (t.seqs threadId).length = n at hmem
  cases n with
  | zero =>
      rw [MessageTable.maxSeq, List.eq_nil_of_length_eq_zero hn]
      rfl
  | succ n =>
      have hle := MessageTable.le_maxSeq ((hmem (n + 1)).mpr ⟨n, by omega, rfl⟩)
      have hne : t.seqs threadId ≠ [] := fun hnil => by simp [hnil] at hn
      obtain ⟨i, hi, heq⟩ := (hmem _).mp (MessageTable.maxSeq_mem hne)
      omega

/-- Where the rows of a thread ascend, `list_recent` selects from the end. -/
theorem MessageTable.selectRecent_of_ascending {threadId : PyStr} (limit : Nat)
    (h : (t.seqs threadId).Pairwise (· < ·)) :
    t.selectRecent threadId limit = ((t.rows.filter fun r => r.threadId = threadId ∧
      (r.status = py "complete" ∨ r.status = py "partial")).reverse).take limit := by
  rw [MessageTable.selectRecent]
  congr 1
  refine @MessageTable.insertionSort_eq t threadId _ _ (fun r hr => ?_)
    (List.reverse_perm _).symm ?_
  · obtain ⟨hmem, hr⟩ := List.mem_filter.mp hr
    exact ⟨hmem, (of_decide_eq_true hr).1⟩
  · rw [List.pairwise_reverse]
    rw [MessageTable.seqs, List.pairwise_map] at h
    have hsub : (t.rows.filter fun r => r.threadId = threadId ∧
        (r.status = py "complete" ∨ r.status = py "partial")).Sublist
          (t.rows.filter fun r => r.threadId = threadId) := by
      refine List.monotone_filter_right _ fun r hr => ?_
      exact decide_eq_true (of_decide_eq_true hr).1
    exact (h.sublist hsub).imp fun hlt => Int.le_of_lt hlt

-- ============================================================================
-- What a call does
-- ============================================================================

/-- An insertable message that is new takes the next place of its thread. -/
theorem append_insertable (hpg : pg.Documented floats) {msg : Message} (now : Timestamp)
    (hmsg : Appendable floats msg) (hinsertable : Insertable pg floats msg)
    (hnew : msg.messageId ∉ t.rows.map MessageRow.messageId) :
    ∃ row t', t.insert row = .ok t' ∧ Keeps pg floats row ⟨msg, msg.status, false⟩ ∧
      row.seq = t.maxSeq row.threadId + 1 ∧
      MessageRepository.append pg floats msg now t = (.ok (), t') := by
  obtain ⟨⟨contentMeta, hmeta⟩, ⟨ext, hext⟩, htakes, ⟨threadId, hthread⟩, ⟨content, hcontent⟩,
    ⟨requestId, hrequest⟩⟩ := hinsertable
  obtain ⟨row, hrow⟩ : ∃ row, row = MessageRow.mk msg.messageId threadId (t.maxSeq threadId + 1)
    msg.role content contentMeta msg.status msg.route requestId now ext := ⟨_, rfl⟩
  have htoRow : Message.toRow { msg with contentMeta, ext } (t.maxSeq threadId + 1) now
      = .ok row := by
    simp only [Message.toRow, hthread, hcontent, hrequest, bindText, bind, Except.bind, pure,
      Except.pure, hrow]
  obtain ⟨t', hinsert⟩ := MessageTable.insert_ok_iff.mpr
    (⟨by rw [hrow]; exact hnew, by rw [hrow]; exact MessageTable.next_slot_free threadId⟩ :
      row.messageId ∉ t.rows.map MessageRow.messageId ∧
        row.slot ∉ t.rows.map MessageRow.slot)
  refine ⟨row, t', hinsert, ?_, by rw [hrow], ?_⟩
  · rw [hrow]
    exact ⟨rfl, hthread, rfl, hcontent, hpg.holds hmsg.contentMeta hmeta, rfl, rfl, hrequest,
      fun _ => hpg.holds hmsg.ext hext⟩
  · have happend : MasterAgent.append { msg with contentMeta, ext } now t
        = insertMessage { msg with contentMeta, ext } (t.maxSeq threadId + 1) now t := by
      rw [MasterAgent.append, if_pos hmsg.noSeq]
      simp only [hthread, bindText]
    rw [insertMessage, htoRow] at happend
    simp only [hinsert] at happend
    simp only [MessageRepository.append, hmeta, hext, htakes, if_true, happend]

/-- `append` raises and leaves the table as it is, or what it stores is insertable
    and new. -/
theorem append_outcome (msg : Message) (now : Timestamp) (t : MessageTable) :
    (∃ e, MessageRepository.append pg floats msg now t = (.error e, t)) ∨
      (∃ t', MessageRepository.append pg floats msg now t = (.ok (), t')) ∧
        Insertable pg floats msg ∧ msg.messageId ∉ t.rows.map MessageRow.messageId := by
  unfold MessageRepository.append
  split
  · exact .inl ⟨_, rfl⟩
  · exact .inl ⟨_, rfl⟩
  · next contentMeta ext hmeta hext =>
      split
      · next htakes =>
          rcases append_cases { msg with contentMeta, ext } now t with
            ⟨e, heq⟩ | ⟨row, t', hinsert, hrow, -, heq⟩
          · exact .inl ⟨e, heq⟩
          · have hnew := (MessageTable.insert_ok_iff.mp ⟨t', hinsert⟩).1
            rw [hrow.messageId] at hnew
            exact .inr ⟨⟨t', heq⟩, ⟨⟨contentMeta, hmeta⟩, ⟨ext, hext⟩, htakes, ⟨_, hrow.threadId⟩,
              ⟨_, hrow.content⟩, ⟨_, hrow.requestId⟩⟩, hnew⟩
      · exact .inl ⟨_, rfl⟩

theorem insertable_of_append {msg : Message} {now : Timestamp}
    (h : (MessageRepository.append pg floats msg now t).1 = .ok ()) :
    Insertable pg floats msg ∧ msg.messageId ∉ t.rows.map MessageRow.messageId := by
  rcases append_outcome msg now t with ⟨e, heq⟩ | ⟨-, hinsertable⟩
  · rw [heq] at h
    cases h
  · exact hinsertable

theorem update_ok {messageId status : PyStr} {ext : Json → Except Exn Json}
    (h : t.update messageId status ext = (.ok (), t')) :
    List.Forall₂ (fun r r' => MessageTable.updateRow messageId status ext r = .ok r')
      t.rows t'.rows := by
  unfold MessageTable.update at h
  split at h
  · cases h
  · next hrows =>
      cases h
      exact MessageTable.mapM_eq_ok.mp hrows

theorem update_error {messageId status : PyStr} {ext : Json → Except Exn Json} {e : Exn}
    (h : t.update messageId status ext = (.error e, t')) : t' = t := by
  unfold MessageTable.update at h
  split at h <;> cases h
  rfl

/-- A call that raises leaves the table as it is. -/
theorem exec_error {call : MessageRepository.Call} {now : Timestamp} {e : Exn}
    (h : call.exec pg floats now t = (.error e, t')) : t' = t := by
  cases call with
  | append msg =>
      rw [MessageRepository.Call.exec] at h
      rcases append_outcome msg now t with ⟨e', heq⟩ | ⟨⟨t'', heq⟩, -⟩
      · rw [heq] at h
        cases h
        rfl
      · rw [heq] at h
        cases h
  | markPartial messageId => exact update_error h
  | markFailed messageId err =>
      simp only [MessageRepository.Call.exec, MessageRepository.markFailed] at h
      split at h
      · cases h
        rfl
      · exact update_error h

-- ============================================================================
-- The relation along a run
-- ============================================================================

theorem Logs.empty : Logs pg floats .empty [] where
  rows := .nil
  numbered := fun _ => rfl

/-- A row in the next place of its thread is the end of the log. -/
theorem Logs.insert (h : Logs pg floats t log) {row : MessageRow} {e : LogEntry}
    (hinsert : t.insert row = .ok t') (hkeeps : Keeps pg floats row e)
    (hseq : row.seq = t.maxSeq row.threadId + 1) : Logs pg floats t' (log ++ [e]) where
  rows := by
    rw [MessageTable.insert_rows hinsert]
    exact List.rel_append h.rows (.cons hkeeps .nil)
  numbered := fun threadId => by
    rw [MessageTable.seqs_insert hinsert]
    by_cases hthread : row.threadId = threadId
    · subst hthread
      rw [if_pos rfl, List.length_append, List.length_singleton, List.range_succ,
        List.map_append, ← h.numbered, hseq,
        MessageTable.maxSeq_of_numbered (h.numbered row.threadId)]
      rfl
    · rw [if_neg hthread, List.append_nil]
      exact h.numbered threadId

/-- Lists that go item by item with one list go so with each other. -/
theorem forall₂_of_forall₂ {α β γ : Type} {R : α → β → Prop} {S : α → γ → Prop}
    {T : β → γ → Prop} {as : List α} {bs : List β} {cs : List γ} (h : List.Forall₂ R as bs)
    (h' : List.Forall₂ S as cs) (hT : ∀ a b c, R a b → S a c → T b c) :
    List.Forall₂ T bs cs := by
  induction h generalizing cs with
  | nil =>
      cases h'
      exact .nil
  | cons hab _ ih =>
      cases h' with
      | cons hac hrest => exact .cons (hT _ _ _ hab hac) (ih hrest)

/-- An updated row keeps the entry that is marked with it. -/
theorem Keeps.mark {messageId status : PyStr} {ext : Json → Except Exn Json} {fails : Bool}
    (hext : fails = false → ext = .ok) {r r' : MessageRow} {e : LogEntry}
    (h : Keeps pg floats r e) (hrow : MessageTable.updateRow messageId status ext r = .ok r') :
    Keeps pg floats r' (e.mark messageId status fails) := by
  unfold MessageTable.updateRow at hrow
  unfold LogEntry.mark
  rw [← h.messageId]
  by_cases hid : r.messageId = messageId
  · rw [if_pos hid] at hrow ⊢
    cases hset : ext r.ext with
    | error err => simp [hset, Except.map] at hrow
    | ok j =>
        simp only [hset, Except.map, Except.ok.injEq] at hrow
        subst hrow
        refine { h with status := rfl, ext := fun hnever => ?_ }
        obtain ⟨hbefore, hfails⟩ := Bool.or_eq_false_iff.mp hnever
        rw [hext hfails, Except.ok.injEq] at hset
        exact hset ▸ h.ext hbefore
  · rw [if_neg hid] at hrow ⊢
    cases hrow
    exact h

theorem Logs.update (h : Logs pg floats t log) {messageId status : PyStr}
    {ext : Json → Except Exn Json} {fails : Bool} (hext : fails = false → ext = .ok)
    (hupdate : t.update messageId status ext = (.ok (), t')) :
    Logs pg floats t' (log.map (LogEntry.mark messageId status fails)) where
  rows := by
    rw [List.forall₂_map_right_iff]
    exact forall₂_of_forall₂ (update_ok hupdate) h.rows
      fun r r' e hrow hkeeps => hkeeps.mark hext hrow
  numbered := fun threadId => by
    have hslots : t'.rows.map MessageRow.slot = t.rows.map MessageRow.slot :=
      MessageTable.map_eq_of_forall₂ (update_ok hupdate) fun r r' hrow => by
        rw [(MessageTable.updateRow_marked hrow).fields]
        rfl
    have hseqs : t'.seqs threadId = t.seqs threadId := by
      rw [MessageTable.seqs_eq_slots, MessageTable.seqs_eq_slots, hslots]
    rw [hseqs]
    exact h.numbered threadId

/-- The message a mark names. -/
def MessageRepository.Call.marks : Call → Option PyStr
  | .append _ => none
  | .markPartial messageId | .markFailed messageId _ => some messageId

/-- A call whose arguments are what the method expects. -/
def MessageRepository.Call.WellFormed (floats : Json.FloatTexts) : Call → Prop
  | .append msg => Appendable floats msg
  | .markPartial _ | .markFailed _ _ => True

/-- A call that returns does to the log what it does to the table. -/
theorem logs_call (hpg : pg.Documented floats) {call : MessageRepository.Call} {now : Timestamp}
    (hcall : call.WellFormed floats) (h : Logs pg floats t log)
    (hexec : call.exec pg floats now t = (.ok (), t')) :
    Logs pg floats t' (log.record call) := by
  cases call with
  | append msg =>
      obtain ⟨hinsertable, hnew⟩ := insertable_of_append (congrArg Prod.fst hexec)
      obtain ⟨row, t'', hinsert, hkeeps, hseq, heq⟩ :=
        append_insertable hpg now hcall hinsertable hnew
      rw [MessageRepository.Call.exec, heq] at hexec
      cases hexec
      exact h.insert hinsert hkeeps hseq
  | markPartial messageId => exact h.update (fun _ => rfl) hexec
  | markFailed messageId err =>
      simp only [MessageRepository.Call.exec, MessageRepository.markFailed] at hexec
      split at hexec
      · cases hexec
      · exact h.update (fun hfails => Bool.noConfusion hfails) hexec

-- ============================================================================
-- What list_recent returns
-- ============================================================================

/-- An object that is handed out is equal to the one that was put in, and
    `or {}` leaves it as it is. -/
theorem Holds.loadColumn {j v : Json} (h : Holds pg floats j v) :
    ∃ w, MessageRepository.loadColumn pg floats j = .ok w ∧
      Json.Same floats v (w.orElse (.obj [])) := by
  obtain ⟨fields, w, rfl, hloads, hsame⟩ := h
  refine ⟨w, by simp only [MessageRepository.loadColumn, hloads], ?_⟩
  obtain ⟨fields', rfl⟩ := hsame.exists_obj
  have helse : (Json.obj fields').orElse (.obj []) = .obj fields' := by cases fields' <;> rfl
  rw [helse]
  exact hsame

theorem Keeps.returned (hpg : pg.Documented floats) {r : MessageRow} {e : LogEntry}
    (h : Keeps pg floats r e) :
    ∃ m, MessageRepository.rowToMessage pg floats r = .ok m ∧ Returned floats m e := by
  obtain ⟨contentMeta, hmeta, hsame⟩ := h.contentMeta.loadColumn
  obtain ⟨ext, hext⟩ : ∃ ext, MessageRepository.loadColumn pg floats r.ext = .ok ext := by
    obtain ⟨w, hw⟩ := hpg.json r.ext
    exact ⟨w, by simp only [MessageRepository.loadColumn, hw]⟩
  refine ⟨MasterAgent.rowToMessage { r with contentMeta, ext }, ?_, ?_⟩
  · simp only [MessageRepository.rowToMessage, hmeta, hext, bind, Except.bind, pure, Except.pure]
  · have hrequest := h.requestId
    refine ⟨h.messageId, h.threadId.symm, h.role, h.content.symm, hsame, h.status, h.route, ?_,
      fun hnever => ?_⟩
    · cases hid : e.msg.requestId <;> simp only [hid, bindTextOrNull, Except.ok.injEq,
        reduceCtorEq] at hrequest <;> simp only [MasterAgent.rowToMessage, ← hrequest]
    · obtain ⟨w, hw, hwsame⟩ := (h.ext hnever).loadColumn
      rw [hext, Except.ok.injEq] at hw
      rw [← hw] at hwsame
      exact hwsame

/-- The rows of a thread are those of its log, numbered from one. -/
theorem Logs.ofThread (h : Logs pg floats t log) (threadId : PyStr) :
    List.Forall₂ (Keeps pg floats) (t.rows.filter fun r => r.threadId = threadId)
      (log.ofThread threadId) := by
  refine List.rel_filter (fun r e hkeeps => ?_) h.rows
  show decide (r.threadId = threadId) = true ↔ e.msg.threadId.isStr threadId = true
  rw [decide_eq_true_eq, Json.isStr_eq_true, hkeeps.threadId, Json.str.injEq]

theorem Logs.seqs_eq (h : Logs pg floats t log) (threadId : PyStr) :
    t.seqs threadId
      = (List.range (log.ofThread threadId).length).map fun i : Nat => (i : Int) + 1 := by
  have hlength := (h.ofThread threadId).length_eq
  rw [← hlength]
  have hnumbered := h.numbered threadId
  have hrows : (t.seqs threadId).length
      = (t.rows.filter fun r => r.threadId = threadId).length := List.length_map ..
  rw [← hrows]
  exact hnumbered

theorem Logs.ascending (h : Logs pg floats t log) (threadId : PyStr) :
    (t.seqs threadId).Pairwise (· < ·) := by
  rw [h.numbered threadId, List.pairwise_map]
  refine List.pairwise_lt_range.imp fun hlt => ?_
  omega

/-- `list_recent` reads the log from its end. -/
theorem Logs.selectRecent (h : Logs pg floats t log) (threadId : PyStr) (limit : Nat) :
    List.Forall₂ (Keeps pg floats) (t.selectRecent threadId limit)
      (log.recent threadId limit) := by
  have hlisted : List.Forall₂ (Keeps pg floats)
      (t.rows.filter fun r => r.threadId = threadId ∧
        (r.status = py "complete" ∨ r.status = py "partial"))
      (log.filter fun e => e.listed && e.msg.threadId.isStr threadId) := by
    refine List.rel_filter (fun r e hkeeps => ?_) h.rows
    show decide (r.threadId = threadId ∧
        (r.status = py "complete" ∨ r.status = py "partial")) = true
      ↔ (e.listed && e.msg.threadId.isStr threadId) = true
    rw [decide_eq_true_eq, Bool.and_eq_true, Json.isStr_eq_true, hkeeps.threadId, Json.str.injEq,
      LogEntry.listed, Bool.or_eq_true, decide_eq_true_eq, decide_eq_true_eq, hkeeps.status,
      and_comm]
  rw [MessageTable.selectRecent_of_ascending limit (h.ascending threadId), MessageLog.recent,
    MessageLog.ofThread, List.filter_reverse, List.filter_filter]
  exact List.forall₂_take limit (List.forall₂_reverse_iff.mpr hlisted)

theorem Logs.listRecent (hpg : pg.Documented floats) (h : Logs pg floats t log)
    (threadId : PyStr) (limit : Nat) :
    ∃ msgs, MessageRepository.listRecent pg floats threadId limit t = .ok msgs ∧
      List.Forall₂ (Returned floats) msgs (log.recent threadId limit) := by
  have hmade : ∀ {rows : List MessageRow} {es : MessageLog},
      List.Forall₂ (Keeps pg floats) rows es →
      ∃ msgs, List.Forall₂ (fun r m => MessageRepository.rowToMessage pg floats r = .ok m)
          rows msgs ∧ List.Forall₂ (Returned floats) msgs es := by
    intro rows es hrows
    induction hrows with
    | nil => exact ⟨[], .nil, .nil⟩
    | cons hkeeps _ ih =>
        obtain ⟨m, hm, hreturned⟩ := hkeeps.returned hpg
        obtain ⟨msgs, hmsgs, hes⟩ := ih
        exact ⟨m :: msgs, .cons hm hmsgs, .cons hreturned hes⟩
  obtain ⟨msgs, hmsgs, hes⟩ := hmade (h.selectRecent threadId limit)
  exact ⟨msgs, MessageTable.mapM_eq_ok.mpr hmsgs, hes⟩

/-- A mark leaves the other rows alone, and of its own row it changes the status
    and the ext only. -/
theorem marked_of_exec {call : MessageRepository.Call} {messageId : PyStr} (now : Timestamp)
    (hcall : call.marks = some messageId) :
    List.Forall₂ (MessageTable.Marked messageId) t.rows (call.exec pg floats now t).2.rows := by
  have hsame : List.Forall₂ (MessageTable.Marked messageId) t.rows t.rows :=
    List.forall₂_same.mpr fun r _ => ⟨fun _ => rfl, rfl⟩
  cases hexec : call.exec pg floats now t with
  | mk result t' =>
      cases result with
      | error e =>
          rw [exec_error hexec]
          exact hsame
      | ok u =>
          cases call with
          | append msg => cases hcall
          | markPartial id =>
              cases hcall
              exact (update_ok hexec).imp fun _ _ => MessageTable.updateRow_marked
          | markFailed id err =>
              cases hcall
              simp only [MessageRepository.Call.exec, MessageRepository.markFailed] at hexec
              split at hexec
              · cases hexec
              · exact (update_ok hexec).imp fun _ _ => MessageTable.updateRow_marked

end Refinement

-- ============================================================================
-- Runs
-- ============================================================================

/-- A call on the table; the log has the calls that returned. -/
def logStep (pg : Postgres) (floats : Json.FloatTexts) (s : MessageTable × MessageLog)
    (c : Timestamp × MessageRepository.Call) : MessageTable × MessageLog :=
  match c.2.exec pg floats c.1 s.1 with
  | (.ok (), t) => (t, s.2.record c.2)
  | (.error _, t) => (t, s.2)

/-- After any calls on an empty table: each thread holds the messages of its log
    with the seqs 1, 2, ..., `append` stores exactly the insertable messages of a
    new id, a mark changes only the status and the ext of the message it names, and
    `list_recent` returns the end of the log. -/
theorem table_refines_log (pg : Postgres) (floats : Json.FloatTexts)
    (hpg : pg.Documented floats) (calls : List (Timestamp × MessageRepository.Call))
    (hcalls : ∀ c ∈ calls, c.2.WellFormed floats) :
    let t := (Machine.exec (logStep pg floats) (.empty, []) calls).1
    let log := (Machine.exec (logStep pg floats) (.empty, []) calls).2
    (∀ threadId, (t.rows.filter fun r => r.threadId = threadId).map MessageRow.messageId
          = (log.ofThread threadId).map (fun e => e.msg.messageId) ∧
        t.seqs threadId
          = (List.range (log.ofThread threadId).length).map fun i : Nat => (i : Int) + 1) ∧
      (∀ now msg, Appendable floats msg →
        ((MessageRepository.append pg floats msg now t).1 = .ok () ↔
          Insertable pg floats msg ∧ msg.messageId ∉ log.map fun e => e.msg.messageId)) ∧
      (∀ now (call : MessageRepository.Call) messageId, call.marks = some messageId →
        List.Forall₂ (MessageTable.Marked messageId) t.rows (call.exec pg floats now t).2.rows) ∧
      ∀ threadId limit, ∃ msgs,
        MessageRepository.listRecent pg floats threadId limit t = .ok msgs ∧
          List.Forall₂ (Returned floats) msgs (log.recent threadId limit) := by
  have hlogs : Logs pg floats (Machine.exec (logStep pg floats) (.empty, []) calls).1
      (Machine.exec (logStep pg floats) (.empty, []) calls).2 := by
    refine @Machine.exec_invariant_along (MessageTable × MessageLog) _ _ _ _
      (fun _ _ c => c.2.WellFormed floats) (fun _ s => Logs pg floats s.1 s.2) Logs.empty ?_ ?_
    · intro past s c hinv hcall
      unfold logStep
      split
      · next t' hexec => exact logs_call hpg hcall hinv hexec
      · next e t' hexec =>
          rw [exec_error hexec]
          exact hinv
    · intro past c rest heq
      exact hcalls c (by rw [heq]; simp)
  generalize Machine.exec (logStep pg floats) (.empty, []) calls = s at hlogs
  have hids : s.1.rows.map MessageRow.messageId = s.2.map fun e => e.msg.messageId :=
    (MessageTable.map_eq_of_forall₂ hlogs.rows fun r e hkeeps => hkeeps.messageId.symm).symm
  refine ⟨fun threadId => ⟨?_, hlogs.seqs_eq threadId⟩, fun now msg hmsg => ?_,
    fun now call messageId => marked_of_exec now, hlogs.listRecent hpg⟩
  · exact (MessageTable.map_eq_of_forall₂ (hlogs.ofThread threadId)
      fun r e hkeeps => hkeeps.messageId.symm).symm
  · rw [← hids]
    refine ⟨insertable_of_append, fun ⟨hinsertable, hnew⟩ => ?_⟩
    obtain ⟨row, t', -, -, -, heq⟩ := append_insertable hpg now hmsg hinsertable hnew
    rw [heq]

/-- A column with the one key "a". -/
def sampleColumn (n : Int) : Json := .obj [(py "a", .int n)]

/-- A database with no other columns than these and the empty ones. -/
def samplePostgres : Postgres where
  takes := fun _ => true
  cast := fun s => match Json.loads zeroFloats s with
    | some (.obj []) => .ok (.obj [])
    | some (.obj [(k, .int n)]) => if k = py "a" then .ok (sampleColumn n) else .error .dbError
    | _ => .error .dbError
  text := fun j => match j with
    | .obj [(_, .int n)] => Json.ascii.dumps zeroFloats (sampleColumn n)
    | _ => Json.ascii.dumps zeroFloats (.obj [])
  concat := fun a b => match b with
    | .obj [] => .ok a
    | _ => .ok b

theorem isJsonObject_empty : IsJsonObject zeroFloats (.obj []) :=
  ⟨⟨_, rfl⟩, .obj List.nodup_nil (by simp) (by simp)⟩

theorem isJsonObject_sampleColumn (n : Int) : IsJsonObject zeroFloats (sampleColumn n) := by
  refine ⟨⟨_, rfl⟩, .obj (List.nodup_singleton _) ?_ ?_⟩
  · rw [List.forall_mem_singleton]
    exact List.isChain_singleton _
  · rw [List.forall_mem_singleton]
    exact .int n

theorem loads_ascii {v : Json} (h : IsJsonObject zeroFloats v) :
    Json.loads zeroFloats (Json.ascii.dumps zeroFloats v) = some v :=
  Json.Style.loads_dumps Json.readable_ascii h.2

theorem samplePostgres_documented : samplePostgres.Documented zeroFloats where
  keeps := by
    intro v w j hcast hloads
    simp only [samplePostgres, hloads] at hcast
    split at hcast
    · next hw =>
        cases hw
        cases hcast
        refine ⟨.obj [], loads_ascii isJsonObject_empty, .obj (fun k => Iff.rfl) ?_⟩
        intro k v w hv
        cases hv
    · next k n hw =>
        cases hw
        split at hcast
        · next hk =>
            cases hcast
            refine ⟨sampleColumn n, loads_ascii (isJsonObject_sampleColumn n), ?_⟩
            rw [hk]
            refine .obj (fun k => Iff.rfl) ?_
            intro k v w hv hw
            rw [hv, Option.some.injEq] at hw
            subst hw
            simp only [Json.field] at hv
            split at hv <;> cases hv
            exact .number rfl rfl
        · cases hcast
    · cases hcast
  json := by
    intro j
    simp only [samplePostgres]
    split
    · next n => exact ⟨_, loads_ascii (isJsonObject_sampleColumn n)⟩
    · exact ⟨_, loads_ascii isJsonObject_empty⟩

/-- A message of the thread "t" whose content_meta and ext are written. -/
def sampleMessage (id : String) (n : Int) : Message where
  messageId := py id
  threadId := .str (py "t")
  seq := 0
  role := py "user"
  content := .str (py "hi")
  contentMeta := sampleColumn n

def sampleCalls : List (Timestamp × MessageRepository.Call) :=
  [(0, .append (sampleMessage "m1" 7)), (1, .append (sampleMessage "m2" 8)),
    (2, .markFailed (py "m2") (sampleColumn 9)), (3, .append (sampleMessage "m3" 10)),
    (4, .markPartial (py "m1"))]

theorem sampleCalls_wellFormed : ∀ c ∈ sampleCalls, c.2.WellFormed zeroFloats := by
  have hmessage : ∀ id n, Appendable zeroFloats (sampleMessage id n) := fun _ n =>
    ⟨rfl, isJsonObject_sampleColumn n, isJsonObject_empty⟩
  intro c hc
  simp only [sampleCalls, List.mem_cons, List.not_mem_nil, or_false] at hc
  rcases hc with rfl | rfl | rfl | rfl | rfl
  · exact hmessage _ _
  · exact hmessage _ _
  · trivial
  · exact hmessage _ _
  · trivial

/-- Of three messages the failed one is not returned. -/
theorem table_refines_log_sample : ∃ msgs,
    MessageRepository.listRecent samplePostgres zeroFloats (py "t") 5
        (Machine.exec (logStep samplePostgres zeroFloats) (.empty, []) sampleCalls).1 = .ok msgs ∧
      msgs.map Message.messageId = [py "m3", py "m1"] := by
  obtain ⟨-, -, -, hrecent⟩ := table_refines_log samplePostgres zeroFloats
    samplePostgres_documented sampleCalls sampleCalls_wellFormed
  obtain ⟨msgs, hmsgs, hreturned⟩ := hrecent (py "t") 5
  have hids := MessageTable.map_eq_of_forall₂ (f := Message.messageId)
    (g := fun e : LogEntry => e.msg.messageId) hreturned fun m e h => h.messageId.symm
  refine ⟨msgs, hmsgs, hids.symm.trans ?_⟩
  decide

end MasterAgent
