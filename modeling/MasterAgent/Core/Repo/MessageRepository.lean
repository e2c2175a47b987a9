/-
  MasterAgent.Core.Repo.MessageRepository

  `MessageRepository` (`ma/core/repo/message_repository.py`): the SQL statements
  it issues as functions on the message table, and its methods as sequences of
  these.  `append` takes two statements when the message has no seq of its own,
  a SELECT of the largest seq and an INSERT, and nothing makes the two atomic:
  `appendStep` is one statement at a time, `append` both without interruption.
-/

import MasterAgent.Core.Repo.Models

namespace MasterAgent

namespace MessageTable

variable (t : MessageTable)

/-- The seq values taken in a thread. -/
def seqs (threadId : PyStr) : List Int :=
  (t.rows.filter (·.threadId = threadId)).map MessageRow.seq

/-- `SELECT COALESCE(MAX(seq), 0) FROM ma_message WHERE thread_id = $1`. -/
def maxSeq (threadId : PyStr) : Int := (t.seqs threadId).max?.getD 0

/-- `INSERT INTO ma_message`: refused when the message id or the slot is taken. -/
def insert (r : MessageRow) : Except Exn MessageTable :=
  if hid : r.messageId ∈ t.rows.map MessageRow.messageId then .error .dbError
  else if hslot : r.slot ∈ t.rows.map MessageRow.slot then .error .dbError
  else .ok {
    rows := t.rows ++ [r]
    primaryKey := by
      rw [List.map_append, List.nodup_append]
      exact ⟨t.primaryKey, List.nodup_singleton _, by
        rintro a ha b hb rfl
        simp only [List.map_cons, List.map_nil, List.mem_singleton] at hb
        exact hid (hb ▸ ha)⟩
    uniqueSlot := by
      rw [List.map_append, List.nodup_append]
      exact ⟨t.uniqueSlot, List.nodup_singleton _, by
        rintro a ha b hb rfl
        simp only [List.map_cons, List.map_nil, List.mem_singleton] at hb
        exact hslot (hb ▸ ha)⟩ }

/-- `SELECT ... WHERE thread_id = $1 AND status IN ('complete', 'partial')
    ORDER BY seq DESC LIMIT $2`. -/
def selectRecent (threadId : PyStr) (limit : Nat) : List MessageRow :=
  ((t.rows.filter (fun r => r.threadId = threadId ∧
    (r.status = py "complete" ∨ r.status = py "partial"))).insertionSort
      (fun a b => b.seq ≤ a.seq)).take limit

-- ============================================================================
-- What the statements do
-- ============================================================================

variable {t}

theorem insert_rows {r : MessageRow} {t' : MessageTable} (h : t.insert r = .ok t') :
    t'.rows = t.rows ++ [r] := by
  unfold insert at h
  split at h
  · cases h
  · split at h
    · cases h
    · cases h
      rfl

/-- The INSERT goes through exactly when neither constraint is in the way. -/
theorem insert_ok_iff {r : MessageRow} :
    (∃ t', t.insert r = .ok t') ↔
      r.messageId ∉ t.rows.map MessageRow.messageId ∧ r.slot ∉ t.rows.map MessageRow.slot := by
  unfold insert
  split
  · next hid => simp [hid]
  · next hid =>
    split
    · next hslot => simp [hslot]
    · next hslot => exact ⟨fun _ => ⟨hid, hslot⟩, fun _ => ⟨_, rfl⟩⟩

theorem insert_error {r : MessageRow} {e : Exn} (h : t.insert r = .error e) :
    e = .dbError := by
  unfold insert at h
  split at h
  · cases h
    rfl
  · split at h
    · cases h
      rfl
    · cases h

theorem mem_seqs {threadId : PyStr} {s : Int} :
    s ∈ t.seqs threadId ↔ (threadId, s) ∈ t.rows.map MessageRow.slot := by
  simp only [seqs, List.mem_map, List.mem_filter, decide_eq_true_eq, MessageRow.slot,
    Prod.mk.injEq]
  constructor
  · rintro ⟨r, ⟨hr, hth⟩, rfl⟩
    exact ⟨r, hr, hth, rfl⟩
  · rintro ⟨r, hr, hth, rfl⟩
    exact ⟨r, ⟨hr, hth⟩, rfl⟩

/-- No seq of the thread is above the maximum. -/
theorem le_maxSeq {threadId : PyStr} {s : Int} (h : s ∈ t.seqs threadId) :
    s ≤ t.maxSeq threadId := by
  unfold maxSeq
  cases hs : (t.seqs threadId).max? with
  | none => simp [List.max?_eq_none_iff.mp hs] at h
  | some m => exact (List.max?_eq_some_iff.mp hs).2 s h

/-- The maximum is taken as soon as the thread has a message. -/
theorem maxSeq_mem {threadId : PyStr} (h : t.seqs threadId ≠ []) :
    t.maxSeq threadId ∈ t.seqs threadId := by
  unfold maxSeq
  cases hs : (t.seqs threadId).max? with
  | none => exact absurd (List.max?_eq_none_iff.mp hs) h
  | some m => exact (List.max?_eq_some_iff.mp hs).1

theorem seqs_insert {r : MessageRow} {t' : MessageTable} (h : t.insert r = .ok t')
    (threadId : PyStr) :
    t'.seqs threadId = t.seqs threadId ++ (if r.threadId = threadId then [r.seq] else []) := by
  simp only [seqs, insert_rows h, List.filter_append, List.map_append]
  by_cases hth : r.threadId = threadId <;> simp [hth]

/-- Inserting the successor of the maximum moves the maximum there. -/
theorem maxSeq_insert_next {r : MessageRow} {t' : MessageTable} (h : t.insert r = .ok t')
    (hseq : r.seq = t.maxSeq r.threadId + 1) :
    t'.maxSeq r.threadId = t.maxSeq r.threadId + 1 := by
  have hseqs := seqs_insert h r.threadId
  rw [if_pos rfl] at hseqs
  have hne : t'.seqs r.threadId ≠ [] := by simp [hseqs]
  apply Int.le_antisymm
  · have hmem := maxSeq_mem hne
    rw [hseqs] at hmem
    rcases List.mem_append.mp hmem with hold | hnew
    · have := le_maxSeq hold
      omega
    · rw [List.mem_singleton.mp hnew]
      omega
  · have hmem : r.seq ∈ t'.seqs r.threadId := by simp [hseqs]
    have := le_maxSeq hmem
    omega

theorem maxSeq_insert_other {r : MessageRow} {t' : MessageTable} (h : t.insert r = .ok t')
    {threadId : PyStr} (hth : r.threadId ≠ threadId) :
    t'.maxSeq threadId = t.maxSeq threadId := by
  have hseqs := seqs_insert h threadId
  rw [if_neg hth, List.append_nil] at hseqs
  simp only [maxSeq, hseqs]

/-- The slot after the maximum is free. -/
theorem next_slot_free (threadId : PyStr) :
    (threadId, t.maxSeq threadId + 1) ∉ t.rows.map MessageRow.slot := by
  intro h
  have := le_maxSeq (mem_seqs.mpr h)
  omega

/-- Rows of one thread come out of the sort in the one order in which their seqs
    descend. -/
theorem insertionSort_eq {threadId : PyStr} {rows rows' : List MessageRow}
    (hown : ∀ r ∈ rows, r ∈ t.rows ∧ r.threadId = threadId) (hperm : rows.Perm rows')
    (hsorted : rows'.Pairwise fun a b => b.seq ≤ a.seq) :
    rows.insertionSort (fun a b => b.seq ≤ a.seq) = rows' := by
  have : Std.Total fun a b : MessageRow => b.seq ≤ a.seq := ⟨fun a b => Int.le_total _ _⟩
  have : IsTrans MessageRow fun a b => b.seq ≤ a.seq := ⟨fun a b c hab hbc => Int.le_trans hbc hab⟩
  have hsort := List.perm_insertionSort (fun a b : MessageRow => b.seq ≤ a.seq) rows
  refine List.Perm.eq_of_pairwise ?_ (List.pairwise_insertionSort _ _) hsorted (hsort.trans hperm)
  intro a b ha hb hba hab
  -- two rows of one thread with one seq are the same row
  obtain ⟨ha, hathread⟩ := hown a (hsort.mem_iff.mp ha)
  obtain ⟨hb, hbthread⟩ := hown b (hperm.mem_iff.mpr hb)
  exact List.inj_on_of_nodup_map t.uniqueSlot ha hb
    (Prod.ext (hathread.trans hbthread.symm) (Int.le_antisymm hab hba))

theorem insertionSort_sorted (rows : List MessageRow) :
    (rows.insertionSort fun a b => b.seq ≤ a.seq).Pairwise fun a b => b.seq ≤ a.seq := by
  have : Std.Total fun a b : MessageRow => b.seq ≤ a.seq := ⟨fun a b => Int.le_total _ _⟩
  have : IsTrans MessageRow fun a b => b.seq ≤ a.seq := ⟨fun a b c hab hbc => Int.le_trans hbc hab⟩
  exact List.pairwise_insertionSort _ rows

/-- The selection sees the rows of its thread only. -/
theorem selectRecent_congr {t t' : MessageTable} {threadId : PyStr}
    (h : (t.rows.filter (·.threadId = threadId)).Perm (t'.rows.filter (·.threadId = threadId)))
    (limit : Nat) : t.selectRecent threadId limit = t'.selectRecent threadId limit := by
  have hown : ∀ rows : List MessageRow, rows.filter (fun r => r.threadId = threadId ∧
      (r.status = py "complete" ∨ r.status = py "partial"))
      = (rows.filter (·.threadId = threadId)).filter
          fun r => r.status = py "complete" ∨ r.status = py "partial" := by
    intro rows
    rw [List.filter_filter]
    refine List.filter_congr fun r _ => ?_
    simp only [Bool.decide_and]
    exact Bool.and_comm _ _
  have hperm := h.filter fun r => r.status = py "complete" ∨ r.status = py "partial"
  rw [← hown, ← hown] at hperm
  rw [selectRecent, selectRecent]
  congr 1
  refine @insertionSort_eq t threadId _ _ (fun r hr => ?_)
    (hperm.trans (List.perm_insertionSort _ _).symm) (insertionSort_sorted _)
  obtain ⟨hmem, hr⟩ := List.mem_filter.mp hr
  exact ⟨hmem, (of_decide_eq_true hr).1⟩

end MessageTable

-- ============================================================================
-- The methods
-- ============================================================================

/-- The row `append` inserts for `msg` at `seq`, once the driver has bound the
    text arguments. -/
def Message.toRow (msg : Message) (seq : Int) (now : Timestamp) : Except Exn MessageRow := do
  let threadId ← bindText msg.threadId
  let content ← bindText msg.content
  let requestId ← bindTextOrNull msg.requestId
  return {
    messageId := msg.messageId, threadId, seq, role := msg.role, content
    contentMeta := msg.contentMeta, status := msg.status, route := msg.route
    requestId, createdAt := now, ext := msg.ext }

/-- `_row_to_message`. -/
def rowToMessage (r : MessageRow) : Message where
  messageId := r.messageId
  threadId := .str r.threadId
  seq := r.seq
  role := r.role
  content := .str r.content
  contentMeta := r.contentMeta.orElse (.obj [])
  status := r.status
  route := r.route
  requestId := match r.requestId with
    | some s => .str s
    | none => .null
  createdAt := some r.createdAt
  ext := r.ext.orElse (.obj [])

/-- The INSERT statement of `append`. -/
def insertMessage (msg : Message) (seq : Int) (now : Timestamp) (t : MessageTable) :
    Except Exn Unit × MessageTable :=
  match msg.toRow seq now with
  | .error e => (.error e, t)
  | .ok row => match t.insert row with
    | .error e => (.error e, t)
    | .ok t' => (.ok (), t')

/-- How far a call of `append` has come. -/
inductive AppendPhase where
  | start
  /-- The SELECT returned; `seq` is the value to insert. -/
  | selected (seq : Int)
  | finished (result : Except Exn Unit)

/-- The next statement of a call `append(msg)`. -/
def appendStep (msg : Message) (now : Timestamp) :
    AppendPhase → MessageTable → Option (AppendPhase × MessageTable)
  | .start, t =>
      if msg.seq = 0 then
        match bindText msg.threadId with
        | .error e => some (.finished (.error e), t)
        | .ok threadId => some (.selected (t.maxSeq threadId + 1), t)
      else
        let (r, t') := insertMessage msg msg.seq now t
        some (.finished r, t')
  | .selected seq, t =>
      let (r, t') := insertMessage msg seq now t
      some (.finished r, t')
  | .finished _, _ => none

/-- `MessageRepository.append`, uninterrupted. -/
def append (msg : Message) (now : Timestamp) (t : MessageTable) :
    Except Exn Unit × MessageTable :=
  if msg.seq = 0 then
    match bindText msg.threadId with
    | .error e => (.error e, t)
    | .ok threadId => insertMessage msg (t.maxSeq threadId + 1) now t
  else insertMessage msg msg.seq now t

/-- `MessageRepository.list_recent`. -/
def listRecent (threadId : Json) (limit : Nat) (t : MessageTable) : Except Exn (List Message) := do
  let threadId ← bindText threadId
  return (t.selectRecent threadId limit).map rowToMessage

theorem toRow_error {msg : Message} {seq : Int} {now : Timestamp} {e : Exn}
    (h : msg.toRow seq now = .error e) : e = .dbError := by
  unfold Message.toRow at h
  simp only [bind, Except.bind] at h
  split at h
  · next he =>
    cases h
    exact bindText_error he
  · split at h
    · next he =>
      cases h
      exact bindText_error he
    · split at h
      · next he =>
        cases h
        exact bindTextOrNull_error he
      · cases h

theorem insertMessage_error {msg : Message} {seq : Int} {now : Timestamp} {t : MessageTable}
    {e : Exn} (h : (insertMessage msg seq now t).1 = .error e) : e = .dbError := by
  unfold insertMessage at h
  split at h
  · next he =>
    cases h
    exact toRow_error he
  · split at h
    · next he =>
      cases h
      exact MessageTable.insert_error he
    · cases h

/-- What `append` raises comes from the database. -/
theorem append_error {msg : Message} {now : Timestamp} {t : MessageTable} {e : Exn}
    (h : (append msg now t).1 = .error e) : e = .dbError := by
  unfold append at h
  split at h
  · split at h
    · next he =>
      cases h
      exact bindText_error he
    · exact insertMessage_error h
  · exact insertMessage_error h

/-- The steps of a call that nobody interrupts are `append`. -/
theorem append_eq_steps (msg : Message) (now : Timestamp) (t : MessageTable) :
    (∃ phase, appendStep msg now .start t = some (phase, t) ∧
        appendStep msg now phase t
          = some (.finished (append msg now t).1, (append msg now t).2)) ∨
      appendStep msg now .start t
        = some (.finished (append msg now t).1, (append msg now t).2) := by
  by_cases hseq : msg.seq = 0
  · cases hb : bindText msg.threadId with
    | error e => exact Or.inr (by simp [appendStep, append, hseq, hb])
    | ok threadId =>
        exact Or.inl ⟨.selected (t.maxSeq threadId + 1), by simp [appendStep, hseq, hb],
          by simp [appendStep, append, hseq, hb]⟩
  · exact Or.inr (by simp [appendStep, append, hseq])

end MasterAgent
