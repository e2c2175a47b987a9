/-
  MasterAgent.Core.Repo.AppendRace

  Concurrent `MessageRepository.append` calls on one `ma_message` table.

  Each call is two statements, the SELECT of the largest seq of its thread and
  the INSERT at the next one, and the statements of different calls interleave
  freely.  What holds in every reachable state is `Taken`: between the value a
  call has read and the current maximum there is no gap, so its INSERT goes
  through exactly when the value it read is still the maximum
  (`insert_ok_iff_undisturbed`).  A run in which one call inserts between the
  SELECT and the INSERT of another on the same thread loses the second message.
-/

import MasterAgent.Core.Repo.MessageRepository
import MasterAgent.Lib.Interleave

namespace MasterAgent.AppendRace

open MasterAgent.Interleave

/-- A call of `append` with a message as its callers build it: no seq of its
    own, and text where the columns hold text. -/
structure AppendCall where
  msg : Message
  threadId : PyStr
  content : PyStr
  requestId : Option PyStr
  now : Timestamp
  noSeq : msg.seq = 0
  threadId_eq : msg.threadId = .str threadId
  content_eq : msg.content = .str content
  requestId_eq : bindTextOrNull msg.requestId = .ok requestId

/-- The row the call inserts when it takes `seq`. -/
def AppendCall.row (c : AppendCall) (seq : Int) : MessageRow where
  messageId := c.msg.messageId
  threadId := c.threadId
  seq := seq
  role := c.msg.role
  content := c.content
  contentMeta := c.msg.contentMeta
  status := c.msg.status
  route := c.msg.route
  requestId := c.requestId
  createdAt := c.now
  ext := c.msg.ext

theorem AppendCall.toRow_eq (c : AppendCall) (seq : Int) :
    c.msg.toRow seq c.now = .ok (c.row seq) := by
  simp only [Message.toRow, c.threadId_eq, c.content_eq, c.requestId_eq, bindText]
  rfl

variable {ι : Type}

/-- The next statement of call `i`. -/
def step (calls : ι → AppendCall) : Step ι MessageTable AppendPhase :=
  fun i phase t => appendStep (calls i).msg (calls i).now phase t

/-- All calls are about to start on table `t`. -/
def initial (t : MessageTable) : Config ι MessageTable AppendPhase := ⟨t, fun _ => .start⟩

/-- The table holds the message of the call exactly once. -/
def StoredOnce (t : MessageTable) (c : AppendCall) : Prop :=
  ∃ seq, t.rows.filter (·.messageId = c.msg.messageId) = [c.row seq]

/-- Every call that has run to its end returned, with its message in the table
    exactly once, and no two messages of a thread share a seq. -/
def AllStored (calls : ι → AppendCall) (c : Config ι MessageTable AppendPhase) : Prop :=
  (∀ i r, c.locals i = .finished r → r = .ok () ∧ StoredOnce c.shared (calls i)) ∧
    ∀ threadId, (c.shared.seqs threadId).Nodup

/-- If call `i` is about to INSERT, the largest seq of its thread is still the
    one it read, and its message id is not in the table. -/
def Undisturbed (calls : ι → AppendCall) (c : Config ι MessageTable AppendPhase) (i : ι) :
    Prop :=
  ∀ seq, c.locals i = .selected seq →
    seq = c.shared.maxSeq (calls i).threadId + 1 ∧
      (calls i).msg.messageId ∉ c.shared.rows.map MessageRow.messageId

variable {calls : ι → AppendCall} {c : Config ι MessageTable AppendPhase} {i : ι}

-- ============================================================================
-- The invariant of every run
-- ============================================================================

/-- A call that has read its thread's maximum will insert at most one above the
    current one, and every value from there to the maximum is taken. -/
def Taken (calls : ι → AppendCall) (c : Config ι MessageTable AppendPhase) : Prop :=
  ∀ i seq, c.locals i = .selected seq →
    seq ≤ c.shared.maxSeq (calls i).threadId + 1 ∧
      ∀ x, seq ≤ x → x ≤ c.shared.maxSeq (calls i).threadId →
        ((calls i).threadId, x) ∈ c.shared.rows.map MessageRow.slot

/-- Under `Taken`, an INSERT goes through exactly when nobody inserted into the
    thread since the SELECT. -/
theorem insert_ok_iff_undisturbed (hinv : Taken calls c) {seq : Int}
    (h : c.locals i = .selected seq) :
    (∃ t', c.shared.insert ((calls i).row seq) = .ok t') ↔ Undisturbed calls c i := by
  obtain ⟨hle, htaken⟩ := hinv i seq h
  rw [MessageTable.insert_ok_iff]
  constructor
  · rintro ⟨hid, hslot⟩ seq' h'
    obtain rfl : seq = seq' := by simpa [h] using h'
    refine ⟨?_, hid⟩
    by_contra hne
    exact hslot (htaken seq (Int.le_refl _) (by omega))
  · intro hu
    obtain ⟨hseq, hid⟩ := hu seq h
    refine ⟨hid, ?_⟩
    show ((calls i).threadId, seq) ∉ _
    rw [hseq]
    exact MessageTable.next_slot_free _

theorem taken_initial (t : MessageTable) : Taken calls (initial t : Config ι _ _) := by
  intro i seq h
  simp [initial] at h

-- ============================================================================
-- What a step does
-- ============================================================================

variable [DecidableEq ι]

theorem step_start (calls : ι → AppendCall) (h : c.locals i = .start) :
    (fire (step calls) c i).locals i = .selected (c.shared.maxSeq (calls i).threadId + 1) ∧
      (fire (step calls) c i).shared = c.shared := by
  apply fire_of_some
  simp [step, appendStep, h, (calls i).noSeq, (calls i).threadId_eq, bindText]

theorem step_finished {r : Except Exn Unit} (h : c.locals i = .finished r) :
    fire (step calls) c i = c := by
  apply fire_of_none
  simp [step, appendStep, h]

theorem step_insert_ok {seq : Int} {t' : MessageTable} (h : c.locals i = .selected seq)
    (hins : c.shared.insert ((calls i).row seq) = .ok t') :
    (fire (step calls) c i).locals i = .finished (.ok ()) ∧
      (fire (step calls) c i).shared = t' := by
  apply fire_of_some
  simp [step, appendStep, h, insertMessage, (calls i).toRow_eq, hins]

theorem step_insert_error {seq : Int} {e : Exn} (h : c.locals i = .selected seq)
    (hins : c.shared.insert ((calls i).row seq) = .error e) :
    (fire (step calls) c i).locals i = .finished (.error e) ∧
      (fire (step calls) c i).shared = c.shared := by
  apply fire_of_some
  simp [step, appendStep, h, insertMessage, (calls i).toRow_eq, hins]

theorem taken_fire (hinv : Taken calls c) (i : ι) : Taken calls (fire (step calls) c i) := by
  intro j seq' hj
  by_cases hji : j = i
  · subst hji
    cases hi : c.locals j with
    | start =>
        obtain ⟨hl, hs⟩ := step_start calls hi
        rw [hl, AppendPhase.selected.injEq] at hj
        rw [hs]
        exact ⟨by omega, fun x hx hx' => by omega⟩
    | finished r =>
        rw [step_finished hi, hi] at hj
        cases hj
    | selected seq =>
        cases hins : c.shared.insert ((calls j).row seq) with
        | error e =>
            rw [(step_insert_error hi hins).1] at hj
            cases hj
        | ok t' =>
            rw [(step_insert_ok hi hins).1] at hj
            cases hj
  · rw [fire_locals_of_ne hji] at hj
    obtain ⟨hle, htaken⟩ := hinv j seq' hj
    cases hi : c.locals i with
    | start =>
        rw [(step_start calls hi).2]
        exact ⟨hle, htaken⟩
    | finished r =>
        rw [step_finished hi]
        exact ⟨hle, htaken⟩
    | selected seq =>
        cases hins : c.shared.insert ((calls i).row seq) with
        | error e =>
            rw [(step_insert_error hi hins).2]
            exact ⟨hle, htaken⟩
        | ok t' =>
            rw [(step_insert_ok hi hins).2]
            have hmax : seq = c.shared.maxSeq (calls i).threadId + 1 :=
              ((insert_ok_iff_undisturbed hinv hi).mp ⟨t', hins⟩ seq hi).1
            have hrows := MessageTable.insert_rows hins
            by_cases hth : (calls i).threadId = (calls j).threadId
            · -- the new row extends the thread by exactly its next value
              have hnext : t'.maxSeq (calls j).threadId
                  = c.shared.maxSeq (calls j).threadId + 1 := by
                rw [← hth]
                exact MessageTable.maxSeq_insert_next hins hmax
              rw [hnext, hrows]
              refine ⟨by omega, fun x hx hx' => ?_⟩
              rw [List.map_append, List.mem_append]
              by_cases hxm : x ≤ c.shared.maxSeq (calls j).threadId
              · exact Or.inl (htaken x hx hxm)
              · have hxe : x = seq := by
                  rw [hmax, hth]
                  omega
                right
                simp [MessageRow.slot, AppendCall.row, hth, hxe]
            · rw [MessageTable.maxSeq_insert_other hins hth, hrows]
              refine ⟨hle, fun x hx hx' => ?_⟩
              rw [List.map_append, List.mem_append]
              exact Or.inl (htaken x hx hx')

/-- A finished call stays finished with its result. -/
theorem finished_stays (calls : ι → AppendCall) {r : Except Exn Unit} (sched : List ι)
    (h : c.locals i = .finished r) :
    (exec (step calls) sched c).locals i = .finished r := by
  have hstep : ∀ (c : Config ι MessageTable AppendPhase) (j : ι),
      c.locals i = .finished r → (fire (step calls) c j).locals i = .finished r := by
    intro c j h
    by_cases hij : i = j
    · subst hij
      rw [step_finished h]
      exact h
    · rw [fire_locals_of_ne hij]
      exact h
  exact exec_invariant hstep sched h

-- ============================================================================
-- Stored messages stay stored
-- ============================================================================

theorem storedOnce_insert {t t' : MessageTable} {r : MessageRow} {a : AppendCall}
    (hins : t.insert r = .ok t') (h : StoredOnce t a) : StoredOnce t' a := by
  obtain ⟨seq, hseq⟩ := h
  refine ⟨seq, ?_⟩
  have hmem : a.msg.messageId ∈ t.rows.map MessageRow.messageId := by
    have : a.row seq ∈ t.rows.filter (·.messageId = a.msg.messageId) := by simp [hseq]
    exact List.mem_map.mpr ⟨a.row seq, List.mem_of_mem_filter this, rfl⟩
  have hne : r.messageId ≠ a.msg.messageId := by
    intro heq
    exact (MessageTable.insert_ok_iff.mp ⟨t', hins⟩).1 (heq ▸ hmem)
  rw [MessageTable.insert_rows hins, List.filter_append, hseq]
  simp [hne]

theorem storedOnce_new {t t' : MessageTable} {a : AppendCall} {seq : Int}
    (hins : t.insert (a.row seq) = .ok t') : StoredOnce t' a := by
  refine ⟨seq, ?_⟩
  have hid := (MessageTable.insert_ok_iff.mp ⟨t', hins⟩).1
  have hnone : t.rows.filter (·.messageId = a.msg.messageId) = [] := by
    rw [List.filter_eq_nil_iff]
    intro r hr
    simp only [decide_eq_true_eq]
    intro heq
    exact hid (List.mem_map.mpr ⟨r, hr, heq⟩)
  rw [MessageTable.insert_rows hins, List.filter_append, hnone]
  simp [AppendCall.row]

theorem seqs_nodup (t : MessageTable) (threadId : PyStr) : (t.seqs threadId).Nodup := by
  have hsub : ((t.rows.filter (·.threadId = threadId)).map MessageRow.slot).Nodup :=
    t.uniqueSlot.sublist (List.filter_sublist.map _)
  refine List.Nodup.of_map (fun s => (threadId, s)) ?_
  rw [MessageTable.seqs, List.map_map]
  convert hsub using 1
  apply List.map_congr_left
  intro r hr
  simp only [Function.comp, MessageRow.slot, Prod.mk.injEq, and_true]
  exact (of_decide_eq_true (List.mem_filter.mp hr).2).symm

/-- All finished calls have succeeded: preserved by every step whose INSERT, if
    it is one, is undisturbed. -/
theorem finished_fire (hf : ∀ j r, c.locals j = .finished r →
      r = .ok () ∧ StoredOnce c.shared (calls j))
    (hinv : Taken calls c) (hu : Undisturbed calls c i) :
    ∀ j r, (fire (step calls) c i).locals j = .finished r →
      r = .ok () ∧ StoredOnce (fire (step calls) c i).shared (calls j) := by
  intro j r hj
  cases hi : c.locals i with
  | start =>
      obtain ⟨hl, hs⟩ := step_start calls hi
      by_cases hji : j = i
      · subst hji
        rw [hl] at hj
        cases hj
      · rw [fire_locals_of_ne hji] at hj
        rw [hs]
        exact hf j r hj
  | finished r' =>
      rw [step_finished hi] at hj ⊢
      exact hf j r hj
  | selected seq =>
      obtain ⟨t', hins⟩ := (insert_ok_iff_undisturbed hinv hi).mpr hu
      obtain ⟨hl, hs⟩ := step_insert_ok hi hins
      rw [hs]
      by_cases hji : j = i
      · subst hji
        rw [hl, AppendPhase.finished.injEq] at hj
        exact ⟨hj.symm, storedOnce_new hins⟩
      · rw [fire_locals_of_ne hji] at hj
        exact ⟨(hf j r hj).1, storedOnce_insert hins (hf j r hj).2⟩

-- ============================================================================
-- Runs
-- ============================================================================

/-- Every run from a table: all calls that have ended succeeded, each message is
    stored once and the seqs of each thread are distinct, exactly when at every
    INSERT of the run the thread's maximum was still the one the call had read. -/
theorem all_stored_iff_undisturbed (calls : ι → AppendCall) (t : MessageTable)
    (sched : List ι) :
    AllStored calls (exec (step calls) sched (initial t)) ↔
      Along (step calls) (Undisturbed calls) sched (initial t) := by
  have htaken : ∀ pre, Taken calls (exec (step calls) pre (initial t)) := by
    intro pre
    have hstep : ∀ (c : Config ι MessageTable AppendPhase) i,
        Taken calls c → Taken calls (fire (step calls) c i) := fun c i h => taken_fire h i
    exact exec_invariant hstep pre (taken_initial t)
  constructor
  · rintro ⟨hall, -⟩
    rw [along_iff]
    rintro pre i post rfl seq hi
    by_contra hu
    -- a disturbed INSERT fails, and the failed call never recovers
    have hdist : ¬ Undisturbed calls (exec (step calls) pre (initial t)) i :=
      fun h => hu (h seq hi)
    cases hins : (exec (step calls) pre (initial t)).shared.insert ((calls i).row seq) with
    | ok t' => exact hdist ((insert_ok_iff_undisturbed (htaken pre) hi).mp ⟨t', hins⟩)
    | error e =>
        have hfail := finished_stays calls post (step_insert_error hi hins).1
        rw [exec_append, exec_cons] at hall
        cases (hall i (.error e) hfail).1
  · intro halong
    refine ⟨?_, fun threadId => seqs_nodup _ _⟩
    have hstep : ∀ (c : Config ι MessageTable AppendPhase) i,
        (Taken calls c ∧ ∀ j r, c.locals j = .finished r →
          r = .ok () ∧ StoredOnce c.shared (calls j)) → Undisturbed calls c i →
        (Taken calls (fire (step calls) c i) ∧
          ∀ j r, (fire (step calls) c i).locals j = .finished r →
            r = .ok () ∧ StoredOnce (fire (step calls) c i).shared (calls j)) :=
      fun c i ⟨hT, hf⟩ hu => ⟨taken_fire hT i, finished_fire hf hT hu⟩
    have hinit : Taken calls (initial t) ∧
        ∀ j r, (initial t : Config ι MessageTable AppendPhase).locals j = .finished r →
          r = .ok () ∧ StoredOnce (initial t : Config ι _ AppendPhase).shared (calls j) :=
      ⟨taken_initial t, fun j r h => by cases h⟩
    exact (exec_invariant_along hstep halong hinit).2

/-- The user message of one ask and the assistant message of another on the same
    thread, both read the empty thread before either inserts. -/
def racingCalls : Bool → AppendCall
  | false => {
      msg := {
        messageId := py "msg_u", threadId := .str (py "th_1"), seq := 0
        role := py "user", content := .str (py "q") }
      threadId := py "th_1", content := py "q", requestId := none, now := 0
      noSeq := rfl, threadId_eq := rfl, content_eq := rfl, requestId_eq := rfl }
  | true => {
      msg := {
        messageId := py "msg_a", threadId := .str (py "th_1"), seq := 0
        role := py "assistant", content := .str (py "a") }
      threadId := py "th_1", content := py "a", requestId := none, now := 0
      noSeq := rfl, threadId_eq := rfl, content_eq := rfl, requestId_eq := rfl }

/-- SELECT, SELECT, INSERT, INSERT: the second INSERT finds seq 1 taken. -/
theorem racing_appends_lose_a_message :
    (exec (step racingCalls) [false, true, false, true] (initial .empty)).locals true
        = .finished (.error .dbError) ∧
      ¬ AllStored racingCalls
        (exec (step racingCalls) [false, true, false, true] (initial .empty)) := by
  have hlost : (exec (step racingCalls) [false, true, false, true]
      (initial .empty)).locals true = .finished (.error .dbError) := by rfl
  refine ⟨hlost, fun h => ?_⟩
  cases (h.1 true _ hlost).1

end MasterAgent.AppendRace
