/-
  MasterAgent.Core.HistoryPairing

  The scan of load_session against all adjacent pairs of its list.  The scan
  takes a turn in two steps and skips a message in one; since an answer never
  starts a turn it misses none (`turns_eq_completePairs`), and what it returns
  is a subsequence of the list.
-/

import MasterAgent.Core.HistoryWindow
import Mathlib.Data.List.Flatten

namespace MasterAgent

/-- Questions at the even places, answers at the odd ones. -/
def Alternates (history : List Message) : Prop :=
  ∀ i m, history[i]? = some m →
    m.role = if i % 2 = 0 then py "user" else py "assistant"

theorem isTurn_iff {user assistant : Message} :
    isTurn user assistant = true ↔
      (user.role = py "user" ∧ user.status = py "complete") ∧
        assistant.role = py "assistant" ∧ assistant.status = py "complete" := by
  simp [isTurn, and_assoc]

@[simp] theorem pairMessages_cons (pair : Message × Message) (pairs : List (Message × Message)) :
    pairMessages (pair :: pairs) = pair.1 :: pair.2 :: pairMessages pairs := rfl

theorem isTurn_of_mem_completePairs {log : List Message} {pair : Message × Message}
    (h : pair ∈ completePairs log) : isTurn pair.1 pair.2 = true :=
  (List.mem_filter.mp h).2

/-- The messages of turns alternate. -/
theorem alternates_pairMessages {pairs : List (Message × Message)}
    (h : ∀ pair ∈ pairs, isTurn pair.1 pair.2 = true) : Alternates (pairMessages pairs) := by
  induction pairs with
  | nil =>
      intro i m hm
      cases hm
  | cons pair pairs ih =>
      obtain ⟨⟨huser, -⟩, hassistant, -⟩ := isTurn_iff.mp (h pair List.mem_cons_self)
      have htail := ih fun pair hpair => h pair (List.mem_cons_of_mem _ hpair)
      intro i m hm
      rw [pairMessages_cons] at hm
      match i with
      | 0 =>
          cases hm
          exact huser
      | 1 =>
          cases hm
          exact hassistant
      | i + 2 =>
          rw [Nat.add_mod_right]
          exact htail i m hm

/-- The messages of turns are complete. -/
theorem complete_pairMessages {pairs : List (Message × Message)}
    (h : ∀ pair ∈ pairs, isTurn pair.1 pair.2 = true) :
    ∀ m ∈ pairMessages pairs, m.status = py "complete" := by
  intro m hm
  obtain ⟨pair, hpair, hmem⟩ := List.mem_flatMap.mp hm
  obtain ⟨⟨-, huser⟩, -, hassistant⟩ := isTurn_iff.mp (h pair hpair)
  simp only [List.mem_cons, List.not_mem_nil, or_false] at hmem
  rcases hmem with rfl | rfl
  · exact huser
  · exact hassistant

/-- The scan goes through the list once. -/
theorem pairMessages_turns_sublist (msgs : List Message) :
    (pairMessages (turns msgs)).Sublist msgs := by
  fun_induction turns msgs with
  | case1 user assistant rest hturn ih =>
      rw [pairMessages_cons]
      exact (ih.cons_cons assistant).cons_cons user
  | case2 user assistant rest hturn ih => exact ih.cons user
  | case3 msgs hshort => exact List.nil_sublist msgs

theorem recentTurns_sublist (maxTurns : Nat) (msgs : List Message) :
    (recentTurns maxTurns msgs).Sublist msgs :=
  ((sliceLast_sublist maxTurns (turns msgs)).flatMap _).trans (pairMessages_turns_sublist msgs)

/-- What load_session makes of the messages `msgs`, the latest first. -/
structure PairsUp (maxTurns : Nat) (msgs history : List Message) : Prop where
  /-- The last `maxTurns` of all adjacent pairs. -/
  spec : history = pairMessages ((completePairs msgs.reverse).rtake maxTurns)
  alternates : Alternates history
  /-- No message is used twice, and their order is kept. -/
  sublist : history.Sublist msgs.reverse
  chronological : msgs.Pairwise (fun a b => b.seq < a.seq) →
    history.Pairwise fun a b => a.seq < b.seq
  complete : ∀ m ∈ history, m.status = py "complete"
  even : 2 ∣ history.length
  bounded : history.length ≤ 2 * maxTurns

/-- For any list of messages and any number of turns, one at least, the scan finds the
    last adjacent pairs, and the history made of them is well formed. -/
theorem pairing_spec {maxTurns : Nat} (hturns : 1 ≤ maxTurns) (msgs : List Message) :
    PairsUp maxTurns msgs (recentTurns maxTurns msgs.reverse) := by
  have hspec : recentTurns maxTurns msgs.reverse = recentHistory maxTurns msgs.reverse :=
    recentTurns_eq fun hzero => absurd hzero (Nat.ne_of_gt hturns)
  have hpairs : ∀ pair ∈ (completePairs msgs.reverse).rtake maxTurns,
      isTurn pair.1 pair.2 = true :=
    fun pair hpair => isTurn_of_mem_completePairs (List.mem_of_mem_drop hpair)
  have hsublist := recentTurns_sublist maxTurns msgs.reverse
  constructor
  · exact hspec
  · rw [hspec]
    exact alternates_pairMessages hpairs
  · exact hsublist
  · intro hdesc
    exact (List.pairwise_reverse.mpr hdesc).sublist hsublist
  · rw [hspec]
    exact complete_pairMessages hpairs
  · rw [hspec, recentHistory, length_pairMessages]
    exact Nat.dvd_mul_right 2 _
  · rw [hspec, recentHistory, length_pairMessages, List.rtake, List.length_drop]
    omega

/-- Of a turn, a question without an answer and a second turn the last turn is left. -/
theorem pairing_spec_last :
    let msgs : List Message := [("assistant", 5), ("user", 4), ("user", 3), ("assistant", 2),
      ("user", 1)].map fun m =>
        { messageId := [], threadId := .str (py "th"), role := py m.1, status := py "complete"
          content := .str [], requestId := .str [], seq := m.2 }
    (recentTurns 1 msgs.reverse).map Message.seq = [4, 5] ∧
      Alternates (recentTurns 1 msgs.reverse) := by
  intro msgs
  exact ⟨by decide, (pairing_spec (Nat.le_refl 1) msgs).alternates⟩

end MasterAgent
