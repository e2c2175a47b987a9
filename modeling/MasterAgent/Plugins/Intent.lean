/-
  MasterAgent.Plugins.Intent

  `LLMClassifier` (`ma/plugins/intent/llm_classifier.py`): a prompt with the
  labels and the question goes to a chat model, and the route is parsed from its
  answer.  The model is any function from the attempt and the prompt to the
  content of a response.
-/

import MasterAgent.Core.Plugin.Base
import MasterAgent.Python.Text
import Mathlib.Data.List.Lex

namespace MasterAgent

namespace LLMClassifier

/-- `[a-zA-Z0-9_-]`. -/
def labelChar (c : CodePoint) : Bool :=
  decide (0x61 ≤ c.val ∧ c.val ≤ 0x7a) || decide (0x41 ≤ c.val ∧ c.val ≤ 0x5a) ||
    decide (0x30 ≤ c.val ∧ c.val ≤ 0x39) || c == codePoint '_' || c == codePoint '-'

/-- `^\s*route\s*:\s*([a-zA-Z0-9_-]+)\s*$`. -/
def routeRe : List Piece :=
  [.lineStart, .spaces] ++ Piece.literal "route" ++ [.spaces] ++ Piece.literal ":" ++
    [.spaces, .group labelChar, .spaces, .lineEnd]

/-- `^\s*reason\s*:\s*(.+)$`. -/
def reasonRe : List Piece :=
  [.lineStart, .spaces] ++ Piece.literal "reason" ++ [.spaces] ++ Piece.literal ":" ++
    [.spaces, .group Piece.dot, .lineEnd]

/-- `', '.join(sorted(self._labels))`, where `_labels` is a set. -/
def labelList (labels : List PyStr) : PyStr :=
  List.intercalate (py ", ") (labels.dedup.mergeSort fun a b => decide (a ≤ b))

/-- The prompt of a state. -/
def prompt (str : Json → PyStr) (labels : List PyStr) (state : GraphState) : PyStr :=
  py "你是路由分类器。返回纯文本，第一行 'route: <label>'，第二行可选 'reason: ...'\n" ++
    py "可选 label: " ++ labelList labels ++ py "\n\n用户问题：" ++ state.asked.text str

/-- `repr(s)` quotes the text in the error. -/
def unparsed (repr : PyStr → PyStr) (text : PyStr) : Exn :=
  .intentFailed (py "cannot parse route from LLM response: " ++ repr text)

/-- What is made of the text of a response. -/
def parse (repr : PyStr → PyStr) (text : PyStr) : Except Exn IntentResult :=
  match Piece.search routeRe text with
  | none => .error (unparsed repr text)
  | some route => .ok {
      route := route
      confidence := 0x3ff0000000000000#64
      reason := (Piece.search reasonRe text).elim [] strip }

/-- `LLMClassifier.classify`. -/
def classify (str : Json → PyStr) (repr : PyStr → PyStr)
    (llm : (attempt : Nat) → (prompt : PyStr) → Except Exn Json) (labels : List PyStr)
    (attempt : Nat) (state : GraphState) : Except Exn IntentResult := do
  let content ← llm attempt (prompt str labels state)
  parse repr (content.text str)

def plugin (str : Json → PyStr) (repr : PyStr → PyStr)
    (llm : (attempt : Nat) → (prompt : PyStr) → Except Exn Json) (labels : List PyStr) :
    IntentPlugin where
  classify := classify str repr llm labels

-- blanks around the label are passed over, and a label ends at its line
example : Piece.search routeRe (py "ok\n route : data-qa_1 \nreason: r")
    = some (py "data-qa_1") := by
  decide

end LLMClassifier

end MasterAgent
