/-
  MasterAgent.Core.LabelChoice

  From a label in the configuration over the prompt and the answer to the route
  that the intent node writes.  The answer is parsed by one character class, and
  the node knows the labels of the first conditional edge; the validator asks for
  neither.
-/

import MasterAgent.Core.Graph.IntentReference
import MasterAgent.Core.Routing
import MasterAgent.Plugins.RouteLines

namespace MasterAgent

open Effect
open Piece (newline)

variable {σ : Type}

/-- The classifier returns the label and the trimmed reason, and the intent node
    writes just these. -/
structure Chosen (env : Env σ) (topic : CompiledTopic) (state : GraphState) (w : σ)
    (label reason : PyStr) : Prop where
  classified : topic.intent.classify 1 state = .ok {
    route := label
    confidence := 0x3ff0000000000000#64
    reason := strip reason }
  written : (topicIntentNode env topic topic.mapping state w).result =
    .ok (intentUpdate (label, 0x3ff0000000000000#64, strip reason))

/-- An answer to the first attempt is what the node writes, if the node knows its
    route. -/
theorem topicIntentNode_answered (env : Env σ) {topic : CompiledTopic} {state : GraphState}
    (w : σ) {r : IntentResult} (hanswer : topic.intent.classify 1 state = .ok r) :
    (topicIntentNode env topic topic.mapping state w).result =
      .ok (intentUpdate (intentAnswer env.repr topic.defaultRoute topic.mapping.keys r)) := by
  have hmax := one_le_maxAttempts topic.intentRetry
  rw [topicIntentNode, makeIntentNode_eq, intentNode_live, Eff.play_result]
  exact (@intentTrace_answered env.repr topic.intent topic.defaultRoute topic.mapping.keys
    (maxAttempts topic.intentRetry) (backoffMs topic.intentRetry) state
    (maxAttempts topic.intentRetry) 1 0 r hmax hanswer
    fun j hj => absurd hj (Nat.not_lt_zero j)).1

section Label

variable {c : TopicCompiler} {cfg : TopicConfig} {envmap : Dict PyStr PyStr}
  {topic : CompiledTopic} {str : Json → PyStr} {repr : PyStr → PyStr}
  {llm : (attempt : Nat) → (prompt : PyStr) → Except Exn Json} {labels : List PyStr}
  {env : Env σ} {state : GraphState} {w : σ} {label reason : PyStr}

theorem compile_mapping (hcompile : c.compile cfg envmap = .ok topic) :
    topic.mapping = cfg.firstMapping := by
  obtain ⟨-, -, hgraph, -⟩ := compile_fields hcompile
  simp only [CompiledTopic.mapping, hgraph]
  rfl

/-- The parser knows the label. -/
theorem Chosen.isWord (hllm : topic.intent = LLMClassifier.plugin str repr llm labels)
    (hreason : newline ∉ reason)
    (hanswer : llm 1 (LLMClassifier.prompt str labels state) =
      .ok (.str (LLMClassifier.askedAnswer label reason)))
    (h : Chosen env topic state w label reason) : LLMClassifier.IsWord label := by
  have hclassified := h.classified
  rw [hllm] at hclassified
  change LLMClassifier.classify str repr llm labels 1 state = _ at hclassified
  rw [LLMClassifier.classify, hanswer] at hclassified
  exact (LLMClassifier.parse_asked_iff repr hreason).mp hclassified

/-- The node knows the label. -/
theorem Chosen.mapped (hcompile : c.compile cfg envmap = .ok topic)
    (h : Chosen env topic state w label reason) : label ∈ cfg.firstMapping.keys := by
  have hwritten := h.written
  rw [topicIntentNode_answered env w h.classified, compile_mapping hcompile] at hwritten
  by_contra hlabel
  -- the fallback has confidence zero
  rw [intentAnswer, if_neg hlabel] at hwritten
  have hconfidence := congrArg Update.routeConfidence (Except.ok.inj hwritten)
  cases hconfidence

/-- A label that the model answers in the form asked for is chosen exactly when it
    is a word the parser knows and is mapped by the first conditional edge. -/
theorem chosen_iff (hcompile : c.compile cfg envmap = .ok topic)
    (hllm : topic.intent = LLMClassifier.plugin str repr llm labels)
    (env : Env σ) (state : GraphState) (w : σ) (hreason : newline ∉ reason)
    (hanswer : llm 1 (LLMClassifier.prompt str labels state) =
      .ok (.str (LLMClassifier.askedAnswer label reason))) :
    Chosen env topic state w label reason ↔
      LLMClassifier.IsWord label ∧ label ∈ cfg.firstMapping.keys := by
  constructor
  · exact fun h => ⟨h.isWord hllm hreason hanswer, h.mapped hcompile⟩
  · rintro ⟨hword, hlabel⟩
    have hclassified : topic.intent.classify 1 state = .ok {
        route := label
        confidence := 0x3ff0000000000000#64
        reason := strip reason } := by
      rw [hllm]
      change LLMClassifier.classify str repr llm labels 1 state = _
      rw [LLMClassifier.classify, hanswer]
      exact (LLMClassifier.parse_asked_iff repr hreason).mpr hword
    refine ⟨hclassified, ?_⟩
    rw [topicIntentNode_answered env w hclassified, compile_mapping hcompile, intentAnswer,
      if_pos hlabel]

end Label

-- ============================================================================
-- A topic with two languages
-- ============================================================================

/-- A model that always answers with one label. -/
def answeringLabel (label reason : PyStr) : (attempt : Nat) → (prompt : PyStr) → Except Exn Json :=
  fun _ _ => .ok (.str (LLMClassifier.askedAnswer label reason))

/-- A registry in which `llm_classifier` asks that model. -/
def classifierCompiler (labels : List PyStr) (label reason : PyStr) : TopicCompiler :=
  ⟨{ onePlugin with
      intent := ⟨[(py "llm_classifier", fun _ => .ok (LLMClassifier.plugin (fun _ => []) id
        (answeringLabel label reason) labels))], by simp⟩ }, fun _ => .ok ()⟩

/-- The labels `sales` and `other`, asked of `llm_classifier`. -/
def twoClasses (other : PyStr) (edges : List ConditionalEdge) : TopicFields :=
  { twoLabels (py "sales") edges with
    intent := { plugin := py "llm_classifier"
                params := [(py "labels", .arr [.str (py "sales"), .str other])] } }

/-- One edge for `sales` and `法务`. -/
def mixedConfig : TopicConfig where
  toTopicFields := twoClasses (py "法务")
    [⟨⟨[(py "sales", py "sales_api"), (py "法务", py "legal_api")], by decide⟩⟩]
  topicId_ne_nil := by decide
  valid := by decide

/-- An edge for `sales` and one for `legal`. -/
def splitConfig : TopicConfig where
  toTopicFields := twoClasses (py "legal") twoEdgesConfig.edges
  topicId_ne_nil := by decide
  valid := by decide

/-- `sales` is chosen. -/
theorem chosen_iff_sales :
    let labels := [py "sales", py "法务"]
    let compiler := classifierCompiler labels (py "sales") (py "r")
    ∃ topic, compiler.compile mixedConfig .empty = .ok topic ∧
      Chosen (plainEnv idleRepos fun w => (py "1", w)) topic blankState () (py "sales")
        (py "r") := by
  intro labels compiler
  have hcompile : compiler.compile mixedConfig .empty = .ok _ := rfl
  refine ⟨_, hcompile, (chosen_iff hcompile rfl _ blankState () (by decide) rfl).mpr ?_⟩
  exact ⟨⟨by decide, List.all_eq_true.mp (by decide)⟩, by decide⟩

/-- The parser does not know `法务`, and the node does not know `legal` when the
    second edge maps it. -/
theorem labels_not_chosen :
    let env := plainEnv idleRepos fun w => (py "1", w)
    (∃ topic, (classifierCompiler [py "sales", py "法务"] (py "法务") (py "r")).compile
          mixedConfig .empty = .ok topic ∧
        topic.intent = LLMClassifier.plugin (fun _ => []) id (answeringLabel (py "法务") (py "r"))
          [py "sales", py "法务"] ∧
        mixedConfig.IsLabel (py "法务") ∧
        ¬ Chosen env topic blankState () (py "法务") (py "r")) ∧
    ∃ topic, (classifierCompiler [py "sales", py "legal"] (py "legal") (py "r")).compile
          splitConfig .empty = .ok topic ∧
        topic.intent = LLMClassifier.plugin (fun _ => []) id (answeringLabel (py "legal") (py "r"))
          [py "sales", py "legal"] ∧
        splitConfig.IsLabel (py "legal") ∧
        ¬ Chosen env topic blankState () (py "legal") (py "r") := by
  intro env
  constructor
  · have hcompile : (classifierCompiler [py "sales", py "法务"] (py "法务") (py "r")).compile
        mixedConfig .empty = .ok _ := rfl
    refine ⟨_, hcompile, rfl, ?_, fun h => ?_⟩
    · rw [TopicConfig.isLabel_iff]
      decide
    · have hword := h.isWord rfl (by decide) rfl
      exact absurd (hword.2 (codePoint '法') (by decide)) (by decide)
  · have hcompile : (classifierCompiler [py "sales", py "legal"] (py "legal") (py "r")).compile
        splitConfig .empty = .ok _ := rfl
    refine ⟨_, hcompile, rfl, ?_, fun h => ?_⟩
    · rw [TopicConfig.isLabel_iff]
      decide
    · exact absurd (h.mapped hcompile) (by decide)

end MasterAgent
