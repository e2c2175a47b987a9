/-
  MasterAgent.Core.StageActs

  Which acts each node of the graph can perform.  A fact about all acts of a
  graph run is proved node by node from these.
-/

import MasterAgent.Core.Graph.NodeTrace
import MasterAgent.Core.Pipeline

namespace MasterAgent

open Effect StateGraph

variable {σ α : Type}

/-- Acts of load_session. -/
def LoadAct : Act → Prop
  | .acquire _ => True
  | .release _ => True
  | .getOrCreate _ _ _ _ => True
  | .listRecent _ _ _ => True
  | _ => False

/-- Acts of auth_node in a state: dispatch, and the plugin's answer there. -/
def AuthAct (plugin : AuthPlugin) (s : GraphState) : Act → Prop
  | .emit ev => ev.type = .thinking ∨ ev.type = .progress
  | .authorize s' r => s' = s ∧ r = plugin.authorize s
  | _ => False

/-- Acts of reject_node. -/
def RejectAct : Act → Prop
  | .emit ev => ev.type = .delta
  | _ => False

/-- Acts of enrich_node. -/
def EnrichAct : Act → Prop
  | .emit ev => ev.type = .thinking ∨ ev.type = .progress
  | .enrich _ _ => True
  | _ => False

/-- Acts of intent_node. -/
def IntentAct : Act → Prop
  | .emit ev => ev.type = .thinking ∨ ev.type = .progress
  | .classify _ _ _ => True
  | .sleep _ => True
  | _ => False

/-- Acts of an adapter node. -/
def AdapterAct : Act → Prop
  | .emit _ => True
  | .run _ _ _ => True
  | .sleep _ => True
  | _ => False

/-- Acts of persist_node in a state: what it stores is the state's answer. -/
def PersistAct (s : GraphState) : Act → Prop
  | .acquire _ => True
  | .release _ => True
  | .append msg _ => ∃ content, Json.join s.answerChunks = .ok content ∧
      msg = assistantMessage s content
  | .touch _ _ => True
  | _ => False

theorem AuthAct.offline {plugin : AuthPlugin} {s : GraphState} {a : Act}
    (h : AuthAct plugin s a) : a.offline = true := by
  cases a <;> first | rfl | exact h.elim

theorem RejectAct.offline {a : Act} (h : RejectAct a) : a.offline = true := by
  cases a <;> first | rfl | exact h.elim

theorem EnrichAct.offline {a : Act} (h : EnrichAct a) : a.offline = true := by
  cases a <;> first | rfl | exact h.elim

theorem IntentAct.offline {a : Act} (h : IntentAct a) : a.offline = true := by
  cases a <;> first | rfl | exact h.elim

theorem AdapterAct.offline {a : Act} (h : AdapterAct a) : a.offline = true := by
  cases a <;> first | rfl | exact h.elim

theorem withConn_actsOnly {P : Act → Prop} {repos : Repos σ} {body : Prog σ α}
    (hacquire : ∀ r, P (.acquire r)) (hrelease : ∀ r, P (.release r))
    (hbody : body.ActsOnly P) : (repos.withConn body).ActsOnly P :=
  .bind (.call hacquire) fun _ => .bind (.attempt hbody) fun _ => .bind (.call hrelease)
    fun _ => .ofExcept _

theorem visit_actsOnly {P : Act → Prop} {β : Type} {n : PyStr} {f : NodeFn σ} {s : GraphState}
    {next : GraphState → Except Exn β} (henter : P (.enter n)) (hwrite : ∀ u, P (.write n u))
    (hf : (f s).ActsOnly P) : (visit langGraph n f s next).ActsOnly P :=
  .bind (.act henter) fun _ => .bind hf fun u => .bind (.ofExcept _) fun _ =>
    .bind (.act (hwrite u)) fun _ => .ret _

-- ============================================================================
-- Node by node
-- ============================================================================

section Nodes

variable (env : Env σ) (topic : CompiledTopic) (s : GraphState)

theorem loadSessionNode_acts : (loadSessionNode env topic s).ActsOnly LoadAct :=
  withConn_actsOnly (fun _ => trivial) (fun _ => trivial)
    (.bind (.ofExcept _) fun _ => .bind (.call fun _ => trivial) fun _ =>
      .bind (.call fun _ => trivial) fun _ => .ret _)

theorem authNode_acts :
    (makeAuthNode (NodeEnv.live σ) topic.auth s).ActsOnly (AuthAct topic.auth s) := by
  rw [makeAuthNode_live]
  cases h : topic.auth.authorize s with
  | error e =>
      refine .play fun a ha => ?_
      simp only [List.mem_cons, List.not_mem_nil, or_false] at ha
      rcases ha with rfl | rfl
      · exact Or.inl rfl
      · exact ⟨rfl, h.symm⟩
  | ok result =>
      refine .play fun a ha => ?_
      simp only [List.mem_cons, List.not_mem_nil, or_false] at ha
      rcases ha with rfl | rfl | rfl
      · exact Or.inl rfl
      · exact ⟨rfl, h.symm⟩
      · exact Or.inr rfl

theorem rejectNode_acts :
    (makeRejectNode (NodeEnv.live σ) topic.errorMessages s).ActsOnly RejectAct := by
  rw [makeRejectNode_live]
  refine .play fun a ha => ?_
  rw [List.mem_singleton.mp ha]
  rfl

theorem enrichNode_acts : (makeEnrichNode (NodeEnv.live σ) topic.enrich s).ActsOnly EnrichAct := by
  rw [makeEnrichNode_live]
  cases topic.enrich.enrich s with
  | error e =>
      refine .play fun a ha => ?_
      simp only [List.mem_cons, List.not_mem_nil, or_false] at ha
      rcases ha with rfl | rfl
      · exact Or.inl rfl
      · trivial
  | ok result =>
      refine .play fun a ha => ?_
      simp only [List.mem_cons, List.not_mem_nil, or_false] at ha
      rcases ha with rfl | rfl | rfl
      · exact Or.inl rfl
      · trivial
      · exact Or.inr rfl

theorem intentNode_acts (mapping : Dict PyStr PyStr) :
    (topicIntentNode env topic mapping s).ActsOnly IntentAct := by
  unfold topicIntentNode
  rw [makeIntentNode_live]
  refine .play fun a ha => ?_
  rcases List.mem_cons.mp ha with rfl | ha
  · exact Or.inl rfl
  · rcases mem_intentTrace ha with ⟨ev, hev, rfl⟩ | ⟨k, r, rfl⟩ | rfl
    · exact Or.inr hev
    · trivial
    · trivial

theorem adapterNode_acts (nodeId : PyStr) (adapter : DownstreamAdapter) :
    (topicAdapterNode topic nodeId adapter s : Prog σ Update).ActsOnly AdapterAct := by
  unfold topicAdapterNode
  rw [makeAdapterNode_live]
  refine .play fun a ha => ?_
  rcases mem_adapterTrace ha with ⟨ev, rfl⟩ | ⟨k, rfl⟩ | rfl <;> trivial

theorem persistNode_acts : (persistNode env s).ActsOnly (PersistAct s) := by
  refine withConn_actsOnly (fun _ => trivial) (fun _ => trivial) ?_
  intro w a ha
  cases hjoin : Json.join s.answerChunks with
  | error e =>
      rw [makePersistNode, hjoin] at ha
      exact (List.not_mem_nil ha).elim
  | ok content =>
      rw [makePersistNode, hjoin] at ha
      have hrest : (env.repos.callAppend (assistantMessage s content) >>= fun _ =>
          env.repos.callTouch s.threadId >>= fun _ => (pure {} : Prog σ Update)).ActsOnly
          (PersistAct s) :=
        .bind (.call fun _ => ⟨content, hjoin, rfl⟩) fun _ => .bind (.call fun _ => trivial)
          fun _ => .ret _
      exact hrest w a ha

end Nodes

-- ============================================================================
-- What the nodes return
-- ============================================================================

/-- What load_session returns: a history. -/
theorem loadSessionNode_returns (env : Env σ) (topic : CompiledTopic) (s : GraphState) :
    (loadSessionNode env topic s).ReturnsOnly fun u => ∃ history, u = { history := some history } :=
  Repos.withConn_returns _ (.bind fun _ => .bind fun _ => .bind fun _ => .ret ⟨_, rfl⟩)

theorem authNode_returns (topic : CompiledTopic) (s : GraphState) :
    (makeAuthNode (NodeEnv.live σ) topic.auth s).ReturnsOnly
      fun u => ∃ r, topic.auth.authorize s = .ok r ∧ u = authUpdate r := by
  intro w u hu
  rw [makeAuthNode_live] at hu
  cases h : topic.auth.authorize s with
  | error e =>
      rw [h] at hu
      cases hu
  | ok r =>
      rw [h] at hu
      cases hu
      exact ⟨r, rfl, rfl⟩

theorem enrichNode_returns (topic : CompiledTopic) (s : GraphState) :
    (makeEnrichNode (NodeEnv.live σ) topic.enrich s).ReturnsOnly
      fun u => ∃ r, u = enrichUpdate r := by
  intro w u hu
  rw [makeEnrichNode_live] at hu
  cases h : topic.enrich.enrich s with
  | error e =>
      rw [h] at hu
      cases hu
  | ok r =>
      rw [h] at hu
      cases hu
      exact ⟨r, rfl⟩

theorem intentNode_returns (env : Env σ) (topic : CompiledTopic) (s : GraphState)
    (mapping : Dict PyStr PyStr) :
    (topicIntentNode env topic mapping s).ReturnsOnly
      fun u => ∃ answer, u = intentUpdate answer := by
  intro w u hu
  unfold topicIntentNode at hu
  rw [makeIntentNode_live, Eff.play_result] at hu
  exact intentTrace_update hu

/-- The run of an adapter node of a topic. -/
def CompiledTopic.adapterTrace (topic : CompiledTopic) (nodeId : PyStr)
    (adapter : DownstreamAdapter) (s : GraphState) : List Act × Update :=
  MasterAgent.adapterTrace adapter true (maxAttempts (topic.adapterRetries.get? nodeId))
    (backoffMs (topic.adapterRetries.get? nodeId)) s
    (maxAttempts (topic.adapterRetries.get? nodeId)) 1 []

theorem topicAdapterNode_live (topic : CompiledTopic) (s : GraphState) (nodeId : PyStr)
    (adapter : DownstreamAdapter) :
    (topicAdapterNode topic nodeId adapter s : Prog σ Update) =
      Eff.play (topic.adapterTrace nodeId adapter s).1
        (.ok (topic.adapterTrace nodeId adapter s).2) :=
  makeAdapterNode_live adapter true _ s

theorem CompiledTopic.adapterTrace_writes (topic : CompiledTopic) (s : GraphState)
    (nodeId : PyStr) (adapter : DownstreamAdapter) : ∃ answer cancelled,
    (topic.adapterTrace nodeId adapter s).2
      = { answerChunks := answer, streamCancelled := cancelled } :=
  MasterAgent.adapterTrace_writes adapter true _ _ s _ 1 []

theorem adapterNode_returns (topic : CompiledTopic) (s : GraphState) (nodeId : PyStr)
    (adapter : DownstreamAdapter) :
    (topicAdapterNode topic nodeId adapter s : Prog σ Update).ReturnsOnly
      fun u => u = (topic.adapterTrace nodeId adapter s).2 := by
  intro w u hu
  rw [topicAdapterNode_live, Eff.play_result, Except.ok.injEq] at hu
  exact hu.symm

/-- The persist node writes nothing. -/
theorem persistNode_returns (env : Env σ) (s : GraphState) :
    (persistNode env s).ReturnsOnly fun u => u = {} :=
  Repos.withConn_returns _ (.bind fun _ => .bind fun _ => .bind fun _ => .ret rfl)

/-- The persist node under a monitor that cares only about what is stored. -/
theorem persistNode_watched {G : Type} {δ : G → Act → Option G} {g g' : G} {env : Env σ}
    {s : GraphState} (hacquire : ∀ g r, δ g (.acquire r) = some g)
    (hrelease : ∀ g r, δ g (.release r) = some g) (htouch : ∀ g t r, δ g (.touch t r) = some g)
    (happend : ∀ content r, Json.join s.answerChunks = .ok content →
      δ g (.append (assistantMessage s content) r) = some g') :
    Watched δ g (persistNode env s) fun _ g₁ => g₁ = g' := by
  refine Repos.withConn_watched _ hacquire hrelease ?_
  have hjoin : Watched δ g (Eff.ofExcept (Json.join s.answerChunks) : Prog σ PyStr)
      fun content g₁ => g₁ = g ∧ Json.join s.answerChunks = .ok content :=
    .ofExcept fun _ h => ⟨rfl, h⟩
  refine hjoin.bind fun content g₁ h => ?_
  obtain ⟨rfl, h⟩ := h
  refine (Watched.call fun r => happend content r h).bind fun _ g₂ hg₂ => ?_
  subst hg₂
  refine (Watched.call fun r => htouch _ _ r).bind fun _ g₃ hg₃ => ?_
  subst hg₃
  exact .ret rfl

-- ============================================================================
-- The graph yields nothing itself
-- ============================================================================

/-- Any act but a `yield` of the service. -/
def GraphAct : Act → Prop
  | .yield _ => False
  | _ => True

/-- Acts of one kind are handed on by nodes. -/
theorem actsOnly_stageLogic {P : Act → Prop} (henter : ∀ n, P (.enter n))
    (hwrite : ∀ n u, P (.write n u)) :
    @StageLogic σ fun _ p => p.ActsOnly P where
  bind := .bind
  ret := .ret
  enter := fun n => .act (henter n)
  write := fun n u => .act (hwrite n u)
  way := fun _ => .ofExcept _

/-- What a request does once its question is stored: acts of the graph, what the
    relay makes of them, an internal error and done. -/
theorem afterUser_acts {P : Act → Prop} {env : Env σ} {topic : CompiledTopic}
    {req : ChatRequest} {messageId : PyStr}
    (hpipeline : (pipeline env topic (initialState req messageId)).ActsOnly P)
    (hrelay : ∀ t us, P t → relay topic.errorMessages t = .ok us → ∀ u ∈ us, P u)
    (hinternal : P (.yield (internalError req topic)))
    (hcomplete : P (.yield (doneComplete messageId))) (u : Unit) :
    (afterUser env topic req messageId (.ok u)).ActsOnly P := by
  cases hbuild : buildGraph env topic with
  | error e =>
      simp only [afterUser, hbuild]
      show (Eff.raise e : Prog σ Unit).ActsOnly _
      exact fun _ _ ha => (List.not_mem_nil ha).elim
  | ok graph =>
      simp only [afterUser, hbuild]
      have hloop : (chatLoop env topic req graph messageId).ActsOnly P := by
        unfold chatLoop
        rw [graph_run_eq_pipeline hbuild]
        refine .bind (.attempt (hpipeline.consume hrelay env.grace)) fun r => ?_
        cases r with
        | ok u => exact .ret _
        | error e =>
            show (if e.isException then _ else _ : Prog σ Unit).ActsOnly _
            split
            · exact .act hinternal
            · exact fun _ _ ha => (List.not_mem_nil ha).elim
      show (chatLoop env topic req graph messageId >>= fun _ => Eff.act _).ActsOnly _
      exact .bind hloop fun _ => .act hcomplete

theorem pipeline_graphAct (env : Env σ) (topic : CompiledTopic) (s : GraphState) :
    (pipeline env topic s).ActsOnly GraphAct := by
  refine (actsOnly_stageLogic (fun _ => trivial) fun _ _ => trivial).pipeline
    (fun s => (loadSessionNode_acts env topic s).mono fun a h => ?_)
    (fun s => (authNode_acts topic s).mono fun a h => ?_)
    (fun s => (rejectNode_acts topic s).mono fun a h => ?_)
    (fun s => (enrichNode_acts topic s).mono fun a h => ?_)
    (fun s => (intentNode_acts env topic s topic.mapping).mono fun a h => ?_)
    (fun n adapter s => (adapterNode_acts topic s n adapter).mono fun a h => ?_)
    (fun s => (persistNode_acts env s).mono fun a h => ?_) s
  all_goals cases a <;> trivial

end MasterAgent
