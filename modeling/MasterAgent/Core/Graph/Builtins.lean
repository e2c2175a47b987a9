/-
  MasterAgent.Core.Graph.Builtins

  The built-in nodes (`ma/core/graph/builtins.py`): load_session fills the
  history, reject answers with a fixed text, persist joins the chunks into the
  assistant message.
-/

import MasterAgent.Core.Graph.NodeWrappers
import MasterAgent.Core.Repo.Factory

namespace MasterAgent

open Effect

variable {σ : Type}

-- ============================================================================
-- load_session
-- ============================================================================

/-- A complete user message and the complete assistant message after it. -/
def isTurn (user assistant : Message) : Bool :=
  user.role = py "user" && user.status = py "complete" &&
    assistant.role = py "assistant" && assistant.status = py "complete"

/-- The `while` loop: adjacent turns from the left, skipping what is none. -/
def turns : List Message → List (Message × Message)
  | user :: assistant :: rest =>
      if isTurn user assistant then (user, assistant) :: turns rest
      else turns (assistant :: rest)
  | _ => []

/-- The slice `xs[-n:]`; as `-0` is `0`, it is all of `xs` for `n = 0`. -/
def sliceLast {α : Type} (n : Nat) (xs : List α) : List α :=
  if n = 0 then xs else xs.drop (xs.length - n)

theorem sliceLast_sublist {α : Type} (n : Nat) (xs : List α) : (sliceLast n xs).Sublist xs := by
  unfold sliceLast
  split
  · exact List.Sublist.refl xs
  · exact List.drop_sublist _ xs

/-- The messages of `turns[-max_turns:]`. -/
def recentTurns (maxTurns : Nat) (msgs : List Message) : List Message :=
  (sliceLast maxTurns (turns msgs)).flatMap fun turn => [turn.1, turn.2]

/-- The turns are messages of the list. -/
theorem mem_of_mem_turns {msgs : List Message} {turn : Message × Message}
    (h : turn ∈ turns msgs) : turn.1 ∈ msgs ∧ turn.2 ∈ msgs := by
  fun_induction turns msgs with
  | case1 user assistant rest hturn ih =>
      rcases List.mem_cons.mp h with rfl | h
      · exact ⟨List.mem_cons_self, List.mem_cons_of_mem _ List.mem_cons_self⟩
      · exact ⟨List.mem_cons_of_mem _ (List.mem_cons_of_mem _ (ih h).1),
          List.mem_cons_of_mem _ (List.mem_cons_of_mem _ (ih h).2)⟩
  | case2 user assistant rest hturn ih =>
      exact ⟨List.mem_cons_of_mem _ (ih h).1, List.mem_cons_of_mem _ (ih h).2⟩
  | case3 msgs hshort => exact (List.not_mem_nil h).elim

theorem mem_of_mem_recentTurns {maxTurns : Nat} {msgs : List Message} {m : Message}
    (h : m ∈ recentTurns maxTurns msgs) : m ∈ msgs := by
  unfold recentTurns at h
  obtain ⟨turn, hturn, hm⟩ := List.mem_flatMap.mp h
  have hmem := mem_of_mem_turns ((sliceLast_sublist _ _).subset hturn)
  simp only [List.mem_cons, List.not_mem_nil, or_false] at hm
  rcases hm with rfl | rfl
  · exact hmem.1
  · exact hmem.2

def makeLoadSessionNode (repos : Repos σ) (maxTurns : Nat) : NodeFn σ := fun state => do
  -- `identity.w3_account` of `None` is an attribute error
  let identity ← Eff.ofExcept (state.identity.elim (.error .attributeError) .ok)
  let _ ← repos.callGetOrCreate state.threadId state.bizId identity.w3Account
  let msgs ← repos.callListRecent state.threadId (maxTurns * 4)
  return { history := some (recentTurns maxTurns msgs.reverse) }

-- ============================================================================
-- reject
-- ============================================================================

/-- `reject_code or "INTERNAL"`. -/
def rejectCode (auth : Option AuthResult) : PyStr :=
  match auth.bind AuthResult.rejectCode with
  | some (c :: code) => c :: code
  | _ => py "INTERNAL"

/-- The text of a rejection: the plugin's own, or the topic's for the code. -/
def rejectText (errorMessages : Dict PyStr PyStr) (auth : Option AuthResult) : PyStr :=
  match auth.bind AuthResult.rejectMessage with
  | some (c :: text) => c :: text
  | _ => (errorMessages.get? (rejectCode auth)).getD
      ((errorMessages.get? (py "INTERNAL")).getD (py "服务异常"))

def makeRejectNode (env : NodeEnv σ) (errorMessages : Dict PyStr PyStr) : NodeFn σ :=
  fun state => do
    let text := rejectText errorMessages state.auth
    env.emit (literalEvent .delta [(py "content", .str text)])
    return { answerChunks := [.str text] }

-- ============================================================================
-- persist
-- ============================================================================

/-- The assistant message with the joined chunks. -/
def assistantMessage (state : GraphState) (content : PyStr) : Message where
  messageId := state.assistantMessageId
  threadId := state.threadId
  seq := 0
  role := py "assistant"
  content := .str content
  status := if state.streamCancelled || state.answerChunks.isEmpty then py "partial"
    else py "complete"
  route := state.route
  requestId := state.requestId

def makePersistNode (repos : Repos σ) : NodeFn σ := fun state => do
  let content ← Eff.ofExcept (Json.join state.answerChunks)
  repos.callAppend (assistantMessage state content)
  repos.callTouch state.threadId
  return {}

end MasterAgent
