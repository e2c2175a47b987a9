/-
  MasterAgent.Cli.Replay

  The command that replays a request from the message table (`ma/cli/replay.py`):
  one line of JSON for each message that bears the request's id.  What it prints
  of a request that was served is the exchange its client has, or will have when the
  relay has caught up.
-/

import MasterAgent.Core.DialogueRuns
import MasterAgent.Core.Graph.Encoding
import MasterAgent.Python.JsonStyle
import MasterAgent.Python.Lines

namespace MasterAgent

open Effect
open Piece (newline)

-- ============================================================================
-- The command
-- ============================================================================

/-- `ORDER BY seq` over the rows of any threads.  Rows with one seq come in any
    order. -/
structure SeqOrder where
  sort : List MessageRow → List MessageRow
  perm : ∀ rows, (sort rows).Perm rows
  sorted : ∀ rows, (sort rows).Pairwise fun a b => a.seq ≤ b.seq

/-- The rows that `_replay` selects. -/
def replayRows (order : SeqOrder) (requestId : PyStr) (s : Store) : List MessageRow :=
  order.sort (s.messages.rows.filter fun r => r.requestId = some requestId)

/-- What is printed of a row. -/
def replayEntry (isoformat : Timestamp → PyStr) (r : MessageRow) : Json :=
  .obj
    [(py "role", .str r.role), (py "content", .str r.content), (py "status", .str r.status),
      (py "thread_id", .str r.threadId), (py "seq", .int r.seq),
      (py "created_at", .str (isoformat r.createdAt))]

/-- How the command ends: its exit code, and what it wrote. -/
structure Exit where
  code : Nat
  stdout : PyStr
  stderr : PyStr

/-- Lines as `print` writes them. -/
def printLines (lines : List PyStr) : PyStr := lines.flatMap fun line => line ++ [newline]

/-- `main`, without `--pretty`. -/
def replayMain (order : SeqOrder) (isoformat : Timestamp → PyStr) (floats : Json.FloatTexts)
    (requestId : PyStr) (s : Store) : Exit :=
  match replayRows order requestId s with
  | [] => ⟨1, [], py "no messages found for request_id=" ++ requestId ++ [newline]⟩
  | row :: rows => ⟨0, printLines ((row :: rows).map fun r =>
      Json.spaced.dumps floats (replayEntry isoformat r)), []⟩

/-- The values of a text with one of them on each line. -/
def readJsonLines (floats : Json.FloatTexts) (text : PyStr) : List (Option Json) :=
  ((text.splitOn newline).filter fun line => !line.isEmpty).map (Json.loads floats)

-- ============================================================================
-- Printed lines
-- ============================================================================

/-- Lines that were printed are read line by line. -/
theorem splitOn_printLines {lines : List PyStr} (h : ∀ line ∈ lines, newline ∉ line) :
    (printLines lines).splitOn newline = lines ++ [[]] := by
  have hprint : printLines lines = [newline].intercalate (lines ++ [[]]) := by
    induction lines with
    | nil => rfl
    | cons line lines ih =>
        have hrest := ih fun l hl => h l (List.mem_cons_of_mem _ hl)
        rw [printLines, List.flatMap_cons, List.cons_append]
        rw [printLines] at hrest
        rw [hrest]
        cases lines with
        | nil => simp [List.intercalate, List.intersperse]
        | cons next lines => simp [List.intercalate, List.intersperse]
  rw [hprint]
  refine List.splitOn_intercalate _ (fun line hline => ?_) (by simp)
  rcases List.mem_append.mp hline with hline | hline
  · exact h line hline
  · rw [List.mem_singleton.mp hline]
    exact List.not_mem_nil

/-- A printable text is one line, and not an empty one when it is a value. -/
theorem newline_notMem_of_printable {text : PyStr} (h : Json.Printable text) : newline ∉ text := by
  intro hmem
  exact absurd (h newline hmem) (by decide)

theorem replayEntry_written (floats : Json.FloatTexts) (isoformat : Timestamp → PyStr)
    (r : MessageRow) : Json.Written floats (fun _ => True) (replayEntry isoformat r) := by
  have hkeys : (["role", "content", "status", "thread_id", "seq", "created_at"].map py).Nodup :=
    List.Nodup.map (fun _ _ h => py_inj.mp h) (by decide)
  refine .obj hkeys (fun _ _ => trivial) fun e he => ?_
  simp only [List.mem_cons, List.not_mem_nil, or_false] at he
  rcases he with rfl | rfl | rfl | rfl | rfl | rfl
  all_goals first | exact .str trivial | exact .int _

/-- What the command printed is read back as the entries of its rows. -/
theorem readJsonLines_printed (floats : Json.FloatTexts) (isoformat : Timestamp → PyStr)
    (rows : List MessageRow) :
    readJsonLines floats (printLines (rows.map fun r =>
      Json.spaced.dumps floats (replayEntry isoformat r))) =
        rows.map fun r => some (replayEntry isoformat r) := by
  rw [readJsonLines, splitOn_printLines, List.filter_append, List.map_append]
  · have hfilter : (rows.map fun r => Json.spaced.dumps floats (replayEntry isoformat r)).filter
        (fun line => !line.isEmpty) =
          rows.map fun r => Json.spaced.dumps floats (replayEntry isoformat r) := by
      rw [List.filter_eq_self]
      intro line hline
      obtain ⟨r, -, rfl⟩ := List.mem_map.mp hline
      rfl
    rw [hfilter, List.map_map]
    simp only [List.isEmpty_nil, Bool.not_true, List.filter_cons, Bool.false_eq_true, if_false,
      List.filter_nil, List.map_nil, List.append_nil]
    refine List.map_congr_left fun r _ => ?_
    exact Json.Style.loads_dumps Json.readable_spaced (replayEntry_written floats isoformat r)
  · intro line hline
    obtain ⟨r, -, rfl⟩ := List.mem_map.mp hline
    exact newline_notMem_of_printable (Json.printable_dumps floats _)

-- ============================================================================
-- The rows of a request
-- ============================================================================

/-- Rows of one thread are selected in the one order of their seqs. -/
theorem SeqOrder.sort_eq (order : SeqOrder) {t : MessageTable} {threadId : PyStr}
    {rows rows' : List MessageRow} (hown : ∀ r ∈ rows, r ∈ t.rows ∧ r.threadId = threadId)
    (hperm : rows.Perm rows') (hsorted : rows'.Pairwise fun a b => a.seq ≤ b.seq) :
    order.sort rows = rows' := by
  have hsort := order.perm rows
  refine (hsort.trans hperm).eq_of_pairwise ?_ (order.sorted rows) hsorted
  intro a b ha hb hab hba
  obtain ⟨ha, hathread⟩ := hown a (hsort.mem_iff.mp ha)
  obtain ⟨hb, hbthread⟩ := hown b (hperm.mem_iff.mpr hb)
  have hslot : a.slot = b.slot := by
    rw [MessageRow.slot, MessageRow.slot, hathread, hbthread, Int.le_antisymm hab hba]
  exact List.inj_on_of_nodup_map t.uniqueSlot ha hb hslot

/-- A row bears the id of a request when its utterance does. -/
theorem utterance_requestId_iff {r : MessageRow} {requestId : PyStr} :
    (rowToMessage r).utterance.requestId = .str requestId ↔ r.requestId = some requestId := by
  cases h : r.requestId <;> simp [Message.utterance, rowToMessage, h]

/-- What a request has said in a thread are the rows that bear its id. -/
theorem saidBy_transcript {req : ChatRequest} {requestId : PyStr}
    (hid : req.requestId = .str requestId) (s : Store) (threadId : PyStr) :
    saidBy req (s.transcript threadId) =
      ((s.messages.thread threadId).filter fun r => r.requestId = some requestId).map
        fun r => (rowToMessage r).utterance := by
  rw [saidBy, Store.transcript, List.filter_map, hid]
  congr 1
  refine List.filter_congr fun r _ => ?_
  simp only [Function.comp_apply, utterance_requestId_iff]

/-- The rows that bear the id of a request whose record is in its own thread. -/
theorem replayRows_eq {req : ChatRequest} {requestId threadId : PyStr} {s : Store}
    {record : List Utterance} (hid : req.requestId = .str requestId)
    (hthread : req.threadId = .str threadId) (h : Records req s.transcript record)
    (order : SeqOrder) : replayRows order requestId s =
      (s.messages.thread threadId).filter fun r => r.requestId = some requestId := by
  have hown : ∀ r ∈ s.messages.rows.filter (fun r => r.requestId = some requestId),
      r ∈ s.messages.rows ∧ r.threadId = threadId := by
    intro r hr
    rw [List.mem_filter, decide_eq_true_eq] at hr
    refine ⟨hr.1, ?_⟩
    by_contra hother
    have hnone := h.2 r.threadId fun heq => hother (by
      rw [hthread, Json.str.injEq] at heq
      exact heq.symm)
    rw [saidBy_transcript hid, List.map_eq_nil_iff, List.filter_eq_nil_iff] at hnone
    have hmem := MessageTable.mem_thread.mpr ⟨hr.1, rfl⟩
    exact hnone r hmem (decide_eq_true hr.2)
  refine order.sort_eq hown ?_ ((s.messages.thread_sorted threadId).filter _)
  have hthreads : (s.messages.thread threadId).Perm
      (s.messages.rows.filter fun r => r.threadId = threadId) := by
    rw [MessageTable.thread]
    exact (List.reverse_perm _).trans (List.perm_insertionSort _ _)
  refine (List.Perm.trans (List.Perm.of_eq ?_) (hthreads.symm.filter _))
  rw [List.filter_filter]
  refine List.filter_congr fun r hr => ?_
  by_cases hrequest : r.requestId = some requestId
  · have hmem := hown r (List.mem_filter.mpr ⟨hr, decide_eq_true hrequest⟩)
    simp [hrequest, hmem.2]
  · simp [hrequest]

section Requests

variable {ι : Type} [DecidableEq ι] {reqs : ι → ChatRequest}

/-- For requests with distinct ids on empty tables: in every interleaving, with the
    relays as far behind as they may be and whatever fails, replaying the id of a
    request prints its record and nothing else, and the record is nothing (with exit
    code 1), or the question, or the question and the answer, under the id its client
    was promised, that holds all that was dispatched.  The client has been told the
    first of it, and all of it once its stream is done.  The lines read back as the
    rows, in the order of their seqs, all of the request's thread. -/
theorem replay_prints_exchange (topics : TopicRegistry) (reqs : ι → ChatRequest)
    (hdistinct : ∀ i j, (reqs i).requestId = (reqs j).requestId → i = j)
    {s : Store} {acts : List ((ι × Act) × Store)}
    (h : Streaming topics reqs (fun s a s' => MessageStep s.messages a s'.messages) .empty
      acts s) (i : ι) {requestId threadId : PyStr} (hid : (reqs i).requestId = .str requestId)
    (hthread : (reqs i).threadId = .str threadId) (order : SeqOrder)
    (isoformat : Timestamp → PyStr) (floats : Json.FloatTexts) :
    let part := actsOf i (acts.map Prod.fst)
    let out := replayMain order isoformat floats requestId s
    ∃ rows : List MessageRow,
      OnLog (reqs i) (word idPromised part) (word contentDispatched part)
        (rows.map fun r => (rowToMessage r).utterance) ∧
      word contentTold part <+: word contentDispatched part ∧
      (part.any Act.closes = true → word contentTold part = word contentDispatched part) ∧
      (∀ r ∈ rows, r.threadId = threadId) ∧ (rows.Pairwise fun a b => a.seq < b.seq) ∧
      readJsonLines floats out.stdout = (rows.map fun r => some (replayEntry isoformat r)) ∧
      (out.code = 0 ↔ rows ≠ []) ∧ (out.code = 0 ↔ out.stderr = []) := by
  intro part out
  obtain ⟨d, hlog, ⟨record, hfits, hrecords⟩, hof⟩ := dialogue_fits hdistinct h i
  rw [hlog] at hrecords
  have hrows := replayRows_eq hid hthread hrecords order
  have hrecord := hrecords.1 threadId hthread
  rw [saidBy_transcript hid] at hrecord
  refine ⟨replayRows order requestId s, ?_, hof.told_isPrefix, hof.told_all, ?_, ?_, ?_, ?_⟩
  · rw [hrows, hrecord]
    exact hof.onLog hfits
  · intro r hr
    rw [hrows] at hr
    exact (MessageTable.mem_thread.mp (List.mem_of_mem_filter hr)).2
  · rw [hrows]
    exact (s.messages.thread_strict threadId).filter _
  · show readJsonLines floats (replayMain order isoformat floats requestId s).stdout = _
    rw [← readJsonLines_printed]
    unfold replayMain
    split
    · next hnil => rw [hnil]; rfl
    · next hcons => rw [hcons]
  · show ((replayMain order isoformat floats requestId s).code = 0 ↔ _) ∧
      ((replayMain order isoformat floats requestId s).code = 0 ↔
        (replayMain order isoformat floats requestId s).stderr = [])
    unfold replayMain
    split
    · next hnil => simp [hnil]
    · next hcons => simp [hcons]

end Requests

/-- Rows of one seq stay in the order of the table. -/
def stableOrder : SeqOrder where
  sort := fun rows => rows.insertionSort fun a b => a.seq ≤ b.seq
  perm := fun rows => List.perm_insertionSort _ rows
  sorted := fun rows => by
    have : Std.Total fun a b : MessageRow => a.seq ≤ b.seq := ⟨fun a b => Int.le_total _ _⟩
    have : IsTrans MessageRow fun a b => a.seq ≤ b.seq := ⟨fun _ _ _ => Int.le_trans⟩
    exact List.pairwise_insertionSort _ rows

/-- The first of two requests that overlap is replayed with its answer, of which its
    client has not been told. -/
theorem replay_prints_exchange_unheard : ∃ (s : Store) (rows : List MessageRow),
    let part := actsOf false (unheard.map Prod.fst)
    OnLog (inThread false) (word idPromised part) (word contentDispatched part)
      (rows.map fun r => (rowToMessage r).utterance) ∧
    readJsonLines zeroFloats (replayMain stableOrder (fun _ => []) zeroFloats (py "1") s).stdout =
      rows.map fun r => some (replayEntry (fun _ => []) r) := by
  obtain ⟨s, hrun⟩ := unheard_streaming
  obtain ⟨rows, hlog, -, -, -, -, hprinted, -⟩ := replay_prints_exchange (oneTopic oneDelta)
    inThread inThread_distinct hrun.messages false rfl rfl stableOrder (fun _ => []) zeroFloats
  exact ⟨s, rows, hlog, hprinted⟩

end MasterAgent
