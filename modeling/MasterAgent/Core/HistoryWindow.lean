/-
  MasterAgent.Core.HistoryWindow

  The history against the whole log of a thread.  load_session pairs within the
  last `4 * max_turns` messages it can see, so a log with enough unpaired messages
  at its end pushes complete turns out of the window.  The history is the last
  `max_turns` turns of the log exactly when the window holds that many, or no turn
  of the log starts before the window.
-/

import Mathlib.Data.List.DropRight
import MasterAgent.Core.HistoryRace

namespace MasterAgent

open Effect

-- ============================================================================
-- The turns of a log
-- ============================================================================

/-- The adjacent pairs of a complete question and the complete answer after it. -/
def completePairs (log : List Message) : List (Message × Message) :=
  (log.zip log.tail).filter fun pair => isTurn pair.1 pair.2

theorem completePairs_cons_cons (user assistant : Message) (rest : List Message) :
    completePairs (user :: assistant :: rest) =
      (if isTurn user assistant then [(user, assistant)] else []) ++
        completePairs (assistant :: rest) := by
  rw [completePairs, List.tail_cons, List.zip_cons_cons, List.filter_cons]
  split <;> rfl

theorem completePairs_short {log : List Message} (h : log.length ≤ 1) :
    completePairs log = [] := by
  have htail : log.tail = [] := by
    rw [← List.length_eq_zero_iff, List.length_tail]
    omega
  rw [completePairs, htail, List.zip_nil_right, List.filter_nil]

/-- An answer is not the question of the next turn. -/
theorem not_isTurn_of_isTurn {user assistant next : Message} (h : isTurn user assistant = true) :
    isTurn assistant next = false := by
  have hrole := isTurn_role h
  rw [isTurn, hrole]
  rfl

/-- Pairs do not overlap, so the loop over the log finds them all. -/
theorem turns_eq_completePairs (log : List Message) : turns log = completePairs log := by
  fun_induction turns log with
  | case1 user assistant rest hturn ih =>
      rw [completePairs_cons_cons, if_pos hturn, List.singleton_append, ih]
      congr 1
      cases rest with
      | nil => rfl
      | cons next rest =>
          rw [completePairs_cons_cons assistant, not_isTurn_of_isTurn hturn]
          rfl
  | case2 user assistant rest hturn ih =>
      rw [completePairs_cons_cons, if_neg hturn, List.nil_append, ih]
  | case3 log hshort =>
      refine (completePairs_short (Nat.le_of_not_lt fun hlong => ?_)).symm
      cases log with
      | nil => exact absurd hlong (Nat.not_lt_zero 1)
      | cons user log =>
          cases log with
          | nil => exact absurd hlong (Nat.lt_irrefl 1)
          | cons assistant rest => exact hshort user assistant rest rfl

-- ============================================================================
-- The turns of a window
-- ============================================================================

/-- A turn starts at position `i`. -/
def TurnAt (log : List Message) (i : Nat) : Prop :=
  ∃ user assistant, log[i]? = some user ∧ log[i + 1]? = some assistant ∧
    isTurn user assistant = true

/-- The first message adds a pair when a turn starts with it. -/
theorem completePairs_cons (m : Message) (log : List Message) :
    ∃ first, completePairs (m :: log) = first ++ completePairs log ∧
      (first = [] ↔ ¬ TurnAt (m :: log) 0) := by
  cases log with
  | nil =>
      refine ⟨[], rfl, fun _ => ?_, fun _ => rfl⟩
      rintro ⟨user, assistant, -, hassistant, -⟩
      cases hassistant
  | cons next log =>
      have hat : TurnAt (m :: next :: log) 0 ↔ isTurn m next = true := by
        constructor
        · rintro ⟨user, assistant, huser, hassistant, hturn⟩
          cases huser
          cases hassistant
          exact hturn
        · intro hturn
          exact ⟨m, next, rfl, rfl, hturn⟩
      refine ⟨_, completePairs_cons_cons m next log, ?_⟩
      rw [hat]
      split
      · next hturn => simp [hturn]
      · next hturn => simp [hturn]

/-- What is dropped from a log costs the turns that start in it. -/
theorem completePairs_drop (log : List Message) (k : Nat) :
    ∃ before, completePairs log = before ++ completePairs (log.drop k) ∧
      (before = [] ↔ ∀ i < k, ¬ TurnAt log i) := by
  induction k generalizing log with
  | zero => exact ⟨[], rfl, fun _ i hi => absurd hi (Nat.not_lt_zero i), fun _ => rfl⟩
  | succ k ih =>
      cases log with
      | nil =>
          refine ⟨[], rfl, fun _ i _ => ?_, fun _ => rfl⟩
          rintro ⟨user, assistant, huser, -⟩
          cases huser
      | cons m log =>
          obtain ⟨first, hcons, hfirst⟩ := completePairs_cons m log
          obtain ⟨before, hdrop, hbefore⟩ := ih log
          refine ⟨first ++ before, ?_, ?_⟩
          · rw [hcons, hdrop, List.drop_succ_cons, List.append_assoc]
          · rw [List.append_eq_nil_iff, hfirst, hbefore]
            constructor
            · rintro ⟨hzero, hrest⟩ i hi
              cases i with
              | zero => exact hzero
              | succ i => exact hrest i (Nat.lt_of_succ_lt_succ hi)
            · intro hnone
              exact ⟨hnone 0 (Nat.succ_pos k), fun i hi => hnone (i + 1) (Nat.succ_lt_succ hi)⟩

/-- The messages of pairs. -/
def pairMessages (pairs : List (Message × Message)) : List Message :=
  pairs.flatMap fun pair => [pair.1, pair.2]

theorem length_pairMessages (pairs : List (Message × Message)) :
    (pairMessages pairs).length = 2 * pairs.length := by
  induction pairs with
  | nil => rfl
  | cons pair pairs ih =>
      simp only [pairMessages, List.flatMap_cons, List.length_append, List.length_cons,
        List.length_nil] at ih ⊢
      omega

/-- The last `maxTurns` turns of a log. -/
def recentHistory (maxTurns : Nat) (log : List Message) : List Message :=
  pairMessages ((completePairs log).rtake maxTurns)

/-- The window holds `maxTurns` turns, or no turn starts before it. -/
def WindowSuffices (maxTurns : Nat) (log : List Message) : Prop :=
  maxTurns ≤ (completePairs (log.rtake (maxTurns * 4))).length ∨
    ∀ i, i + maxTurns * 4 < log.length → ¬ TurnAt log i

/-- The slice of load_session is the last turns, unless it asks for none of some. -/
theorem recentTurns_eq {maxTurns : Nat} {log : List Message} (h : maxTurns = 0 → log = []) :
    recentTurns maxTurns log = recentHistory maxTurns log := by
  rw [recentTurns, turns_eq_completePairs, sliceLast]
  split
  · next hzero =>
    rw [h hzero, hzero]
    rfl
  · rfl

/-- The turns of the window are the last turns of the log exactly when the window
    suffices. -/
theorem recentTurns_window_iff (maxTurns : Nat) (log : List Message) :
    recentTurns maxTurns (log.rtake (maxTurns * 4)) = recentHistory maxTurns log ↔
      WindowSuffices maxTurns log := by
  obtain ⟨before, hpairs, hbefore⟩ := completePairs_drop log (log.length - maxTurns * 4)
  have hrange : (∀ i < log.length - maxTurns * 4, ¬ TurnAt log i) ↔
      ∀ i, i + maxTurns * 4 < log.length → ¬ TurnAt log i :=
    forall_congr' fun i => by rw [Nat.lt_sub_iff_add_lt]
  have hwindow : maxTurns = 0 → log.rtake (maxTurns * 4) = [] := by
    rintro rfl
    exact List.drop_length
  rw [recentTurns_eq hwindow, WindowSuffices, ← hrange, ← hbefore, recentHistory, recentHistory,
    hpairs]
  show pairMessages ((completePairs (log.drop (log.length - maxTurns * 4))).rtake maxTurns) = _ ↔
    maxTurns ≤ (completePairs (log.drop (log.length - maxTurns * 4))).length ∨ _
  generalize completePairs (log.drop (log.length - maxTurns * 4)) = seen
  constructor
  · intro heq
    have hlength := congrArg List.length heq
    rw [length_pairMessages, length_pairMessages, List.rtake, List.rtake, List.length_drop,
      List.length_drop, List.length_append] at hlength
    by_cases hmany : maxTurns ≤ seen.length
    · exact Or.inl hmany
    · refine Or.inr (List.length_eq_zero_iff.mp ?_)
      omega
  · rintro (hmany | rfl)
    · -- the pairs before the window are cut off
      rw [List.rtake, List.rtake, List.length_append,
        Nat.add_sub_assoc hmany, List.drop_length_add_append]
    · rfl

-- ============================================================================
-- load_session on the tables
-- ============================================================================

/-- The complete and partial messages of a thread, in the order of their seq. -/
def Db.log (db : Db) (threadId : PyStr) : List Message :=
  (db.store.messages.visible threadId).map rowToMessage

theorem selectRecent_log (db : Db) (threadId : PyStr) (limit : Nat) :
    ((db.store.messages.selectRecent threadId limit).map rowToMessage).reverse =
      (db.log threadId).rtake limit := by
  rw [MessageTable.selectRecent_eq, ← List.map_reverse, ← List.rtake_eq_reverse_take_reverse,
    List.rtake, List.map_drop, List.rtake, Db.log, List.length_map]

/-- get_or_create leaves the messages alone. -/
theorem getOrCreate_messages (s : Store) (threadId : Json) (bizId w3Account : PyStr)
    (now : Timestamp) : (s.getOrCreate threadId bizId w3Account now).2.messages = s.messages := by
  unfold Store.getOrCreate
  split <;> rfl

/-- The node returns the turns of the window. -/
theorem loadSession_history {maxTurns : Nat} {state : GraphState} {db : Db} {u : Update}
    {threadId : PyStr} (hthread : state.threadId = .str threadId)
    (h : (makeLoadSessionNode Repos.db maxTurns state db).result = .ok u) :
    u.history = some (recentTurns maxTurns ((db.log threadId).rtake (maxTurns * 4))) := by
  obtain ⟨identity, -, h⟩ := Eff.exists_of_bind_ok h
  obtain ⟨session, -, h⟩ := Eff.exists_of_bind_ok h
  obtain ⟨msgs, hmsgs, h⟩ := Eff.exists_of_bind_ok h
  rw [Eff.ofExcept_apply] at hmsgs
  have hread : listRecent state.threadId (maxTurns * 4)
      (db.store.getOrCreate state.threadId state.bizId identity.w3Account db.now).2.messages
        = .ok msgs := hmsgs
  rw [getOrCreate_messages, hthread] at hread
  cases hread
  cases h
  rw [← selectRecent_log]

/-- For every log and every `max_turns`: the history that load_session returns is
    the last `max_turns` turns of the log exactly when the window suffices. -/
theorem history_recent_iff (db : Db) (state : GraphState) (threadId : PyStr)
    (hthread : state.threadId = .str threadId) (maxTurns : Nat) (u : Update)
    (h : (makeLoadSessionNode Repos.db maxTurns state db).result = .ok u) :
    u.history = some (recentHistory maxTurns (db.log threadId)) ↔
      WindowSuffices maxTurns (db.log threadId) := by
  rw [loadSession_history hthread h, Option.some.injEq, recentTurns_window_iff]

-- ============================================================================
-- Stopped answers at the end of a log
-- ============================================================================

/-- The state of the second request of a thread. -/
def askingAgain : GraphState :=
  initialState (aliceAsks (py "th")) (py "msg_2")

set_option maxRecDepth 20000 in
/-- After one turn the window holds all there is. -/
theorem history_recent_secondAsked : ∃ u,
    (makeLoadSessionNode Repos.db 1 askingAgain secondAsked).result = .ok u ∧
      u.history = some (recentHistory 1 (secondAsked.log (py "th"))) := by
  refine ⟨_, rfl, (history_recent_iff secondAsked askingAgain (py "th") rfl 1 _ rfl).mpr ?_⟩
  exact Or.inr fun i hi => absurd (show i + 4 < 3 from hi) (by omega)

/-- An answer that was stopped. -/
def stoppedRow (messageId requestId : String) (seq : Int) (createdAt : Timestamp) : MessageRow :=
  { threadRow messageId "assistant" "a" requestId seq createdAt with status := py "partial" }

/-- A turn, two questions whose answers were stopped, and the current question. -/
def twiceStopped : Db :=
  threadDb
    ⟨[threadRow "q1" "user" "q" "1" 1 1, threadRow "a1" "assistant" "a" "1" 2 2,
      threadRow "q2" "user" "q" "2" 3 3, stoppedRow "a2" "2" 4 4,
      threadRow "q3" "user" "q" "3" 5 5, stoppedRow "a3" "3" 6 6,
      threadRow "q4" "user" "q" "4" 7 7], by decide, by decide⟩ (some 6) 8 8

set_option maxRecDepth 20000 in
/-- The one turn of the log is not in the history. -/
theorem history_recent_lost : ∃ u,
    (makeLoadSessionNode Repos.db 1 askingAgain twiceStopped).result = .ok u ∧
      u.history = some [] ∧
      (recentHistory 1 (twiceStopped.log (py "th"))).map Message.messageId =
        [py "q1", py "a1"] ∧
      u.history ≠ some (recentHistory 1 (twiceStopped.log (py "th"))) := by
  refine ⟨_, rfl, rfl, rfl, fun h => ?_⟩
  have hlength := congrArg (Option.map List.length) h
  exact absurd hlength (by decide)

end MasterAgent
