/-
  MasterAgent.Core.Transcript

  What was said in a thread: its rows in the order of their seq, read as
  utterances.  A message that is appended without a seq of its own is the last
  utterance of its thread, and what `list_recent` returns are the last
  utterances that show.
-/

import MasterAgent.Core.HistoryRace

namespace MasterAgent

open Effect

/-- What a message says, without what the table adds. -/
structure Utterance where
  messageId : PyStr
  role : PyStr
  content : Json
  status : PyStr
  requestId : Json

def Message.utterance (m : Message) : Utterance :=
  ⟨m.messageId, m.role, m.content, m.status, m.requestId⟩

/-- An utterance that is recalled. -/
def Utterance.Shown (u : Utterance) : Prop :=
  u.status = py "complete" ∨ u.status = py "partial"

instance (u : Utterance) : Decidable u.Shown :=
  inferInstanceAs (Decidable (u.status = py "complete" ∨ u.status = py "partial"))

/-- The last utterances of a log, newest first. -/
def recentUtterances (limit : Nat) (log : List Utterance) : List Utterance :=
  (log.filter fun u => u.Shown).reverse.take limit

/-- The logs after an utterance in a thread. -/
def logged (log : PyStr → List Utterance) (threadId : PyStr) (u : Utterance) :
    PyStr → List Utterance :=
  Function.update log threadId (log threadId ++ [u])

-- ============================================================================
-- The log of a thread
-- ============================================================================

namespace MessageTable

variable {t t' : MessageTable} {row : MessageRow}

/-- The rows of a thread in the order of their seq. -/
def thread (t : MessageTable) (threadId : PyStr) : List MessageRow :=
  ((t.rows.filter fun r => r.threadId = threadId).insertionSort fun a b => b.seq ≤ a.seq).reverse

theorem mem_thread {threadId : PyStr} :
    row ∈ t.thread threadId ↔ row ∈ t.rows ∧ row.threadId = threadId := by
  rw [thread, List.mem_reverse, List.mem_insertionSort, List.mem_filter, decide_eq_true_eq]

theorem thread_sorted (t : MessageTable) (threadId : PyStr) :
    (t.thread threadId).Pairwise fun a b => a.seq ≤ b.seq := by
  rw [thread, List.pairwise_reverse]
  exact insertionSort_sorted _

theorem thread_strict (t : MessageTable) (threadId : PyStr) :
    (t.thread threadId).Pairwise fun a b => a.seq < b.seq := by
  have hnodup : (t.thread threadId).Nodup := by
    rw [thread, List.nodup_reverse, (List.perm_insertionSort _ _).nodup_iff]
    exact (List.Nodup.of_map _ t.uniqueSlot).filter _
  refine ((t.thread_sorted threadId).and hnodup).imp_of_mem fun {a b} ha hb h => ?_
  obtain ⟨ha, hathread⟩ := mem_thread.mp ha
  obtain ⟨hb, hbthread⟩ := mem_thread.mp hb
  refine lt_of_le_of_ne h.1 fun hseq => h.2 ?_
  have hslot : a.slot = b.slot := by
    rw [MessageRow.slot, MessageRow.slot, hathread, hbthread, hseq]
  exact List.inj_on_of_nodup_map t.uniqueSlot ha hb hslot

/-- The rows that are recalled are those of the thread with a status that shows. -/
theorem visible_eq_thread (threadId : PyStr) :
    t.visible threadId = (t.thread threadId).filter fun r => r.Shown := by
  have hfilter : t.rows.filter (fun r => r.threadId = threadId ∧ r.Shown) =
      (t.rows.filter fun r => r.threadId = threadId).filter fun r => r.Shown := by
    rw [List.filter_filter]
    refine List.filter_congr fun r _ => ?_
    rw [Bool.decide_and, Bool.and_comm]
  rw [visible, thread, List.filter_reverse, List.reverse_inj, hfilter]
  refine @insertionSort_eq t threadId _ _ (fun r hr => ?_) ?_ ?_
  · have hmem := List.mem_filter.mp (List.mem_of_mem_filter hr)
    exact ⟨hmem.1, of_decide_eq_true hmem.2⟩
  · exact ((List.perm_insertionSort _ _).symm.filter _)
  · exact (insertionSort_sorted _).filter _

/-- A row that takes the next seq of its thread comes last there. -/
theorem thread_insert (h : t.insert row = .ok t') (hseq : row.seq = t.maxSeq row.threadId + 1)
    (threadId : PyStr) :
    t'.thread threadId = t.thread threadId ++ if row.threadId = threadId then [row] else [] := by
  by_cases hrow : row.threadId = threadId
  · have hrows : t'.rows.filter (fun r => r.threadId = threadId) =
        t.rows.filter (fun r => r.threadId = threadId) ++ [row] := by
      rw [insert_rows h, List.filter_append, List.filter_cons_of_pos (by simpa using hrow),
        List.filter_nil]
    rw [thread, thread, if_pos hrow, hrows, ← List.reverse_cons, List.reverse_inj]
    refine @insertionSort_eq t' threadId _ _ (fun r hr => ?_) ?_ ?_
    · rw [← hrows] at hr
      exact ⟨List.mem_of_mem_filter hr, of_decide_eq_true (List.mem_filter.mp hr).2⟩
    · exact List.perm_append_comm.trans ((List.perm_insertionSort _ _).symm.cons row)
    · refine List.pairwise_cons.mpr ⟨fun r hr => ?_, insertionSort_sorted _⟩
      rw [List.mem_insertionSort, List.mem_filter, decide_eq_true_eq] at hr
      have hle := le_maxSeq (mem_seqs.mpr (List.mem_map_of_mem hr.1))
      rw [hr.2, ← hrow, ← Int.lt_add_one_iff, ← hseq] at hle
      exact Int.le_of_lt hle
  · rw [if_neg hrow, List.append_nil, thread, thread, insert_rows h, List.filter_append,
      List.filter_cons_of_neg (by simpa using hrow), List.filter_nil, List.append_nil]

end MessageTable

/-- What was said in a thread. -/
def Store.transcript (s : Store) (threadId : PyStr) : List Utterance :=
  (s.messages.thread threadId).map fun row => (rowToMessage row).utterance

/-- What an act does to the messages, a failed statement changing nothing: appends
    take effect at once, and their failures may have any cause. -/
def MessageStep (t : MessageTable) : Act → MessageTable → Prop
  | .append msg (.ok ()), t' => ∃ row, t.insert row = .ok t' ∧ RowOf msg row ∧
      (msg.seq = 0 → row.seq = t.maxSeq row.threadId + 1)
  | .listRecent threadId limit (.ok msgs), t' => t' = t ∧ listRecent threadId limit t = .ok msgs
  | _, t' => t' = t

/-- The uninterrupted statements are such steps. -/
theorem messageStep_of_storeStep {s s' : Store} {a : Act} (h : StoreStep s a s') :
    MessageStep s.messages a s'.messages := by
  have hsame : (∀ msg, a ≠ .append msg (.ok ())) → s'.messages = s.messages := by
    intro hne
    rcases storeStep_messages h with hsame | ⟨msg, rfl⟩
    · exact hsame
    · exact absurd rfl (hne msg)
  cases a with
  | append msg r =>
      cases r with
      | ok u =>
          obtain ⟨-, row, hinsert, hrow, hseq⟩ := storeStep_append h
          exact ⟨row, hinsert, hrow, hseq⟩
      | error e => exact hsame (by simp)
  | listRecent threadId limit r =>
      cases r with
      | ok msgs =>
          obtain ⟨hr, rfl⟩ := h
          exact ⟨rfl, hr.symm⟩
      | error e => exact hsame (by simp)
  | _ => exact hsame (by simp)

theorem RowOf.utterance {msg : Message} {row : MessageRow} (h : RowOf msg row) :
    (rowToMessage row).utterance = msg.utterance := by
  rw [Message.utterance, Message.utterance, requestId_of_bind h.requestId, h.content]
  show Utterance.mk row.messageId row.role _ row.status _ = _
  rw [h.messageId, h.role, h.status]
  rfl

/-- An append adds its utterance to the log of its thread. -/
theorem transcript_append {s s' : Store} {msg : Message} {threadId : PyStr}
    (h : MessageStep s.messages (.append msg (.ok ())) s'.messages) (hseq : msg.seq = 0)
    (hthread : msg.threadId = .str threadId) :
    s'.transcript = logged s.transcript threadId msg.utterance := by
  obtain ⟨row, hinsert, hrow, hnext⟩ := h
  have hown : row.threadId = threadId := by
    have hthread' := hrow.threadId
    rw [hthread, Json.str.injEq] at hthread'
    exact hthread'.symm
  funext other
  rw [logged, Store.transcript, MessageTable.thread_insert hinsert (hnext hseq), hown]
  by_cases hother : threadId = other
  · subst hother
    rw [if_pos rfl, Function.update_self, List.map_append, List.map_singleton, hrow.utterance]
    rfl
  · rw [if_neg hother, List.append_nil, Function.update_of_ne (Ne.symm hother)]
    rfl

/-- What is read is what is recalled. -/
theorem transcript_read {t : MessageTable} {s : Store} {threadId : PyStr} {limit : Nat}
    {msgs : List Message} (ht : s.messages = t)
    (h : listRecent (.str threadId) limit t = .ok msgs) :
    msgs.map Message.utterance = recentUtterances limit (s.transcript threadId) := by
  subst ht
  unfold listRecent at h
  simp only [bindText, bind, Except.bind, pure, Except.pure, Except.ok.injEq] at h
  rw [← h, MessageTable.selectRecent_eq, MessageTable.visible_eq_thread, recentUtterances,
    Store.transcript, List.filter_map, List.map_map, ← List.map_reverse, ← List.map_take]
  rfl

end MasterAgent
