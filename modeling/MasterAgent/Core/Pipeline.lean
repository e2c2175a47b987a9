/-
  MasterAgent.Core.Pipeline

  What the graph of a topic does, as one program: load_session, auth_node, then
  either reject_node or enrich_node, intent_node and the adapter node the
  mapping assigns to the route, and last persist_node.  Running the declared
  graph is running this program, for every topic whose graph the engine
  compiles.
-/

import MasterAgent.Core.ChatService

namespace MasterAgent

open Effect StateGraph

variable {σ : Type}

/-- An adapter node of a topic. -/
structure RoutedAdapter (topic : CompiledTopic) where
  node : PyStr
  adapter : DownstreamAdapter
  isAdapter : topic.adapters.get? node = some adapter

/-- The adapter node the conditional edge leads to from a state. -/
def routeTarget (topic : CompiledTopic) (s : GraphState) : Except Exn (RoutedAdapter topic) :=
  match h : topic.mapping.get? (s.route.getD topic.defaultRoute) with
  | none => .error .keyError
  | some node => .ok
      { node := node
        adapter := (topic.adapters.get? node).get
          (Option.isSome_iff_exists.mpr (CompiledTopic.mapping_adapter h))
        isAdapter := by simp }

theorem routeTarget_mapping {topic : CompiledTopic} {s : GraphState} {r : RoutedAdapter topic}
    (h : routeTarget topic s = .ok r) :
    topic.mapping.get? (s.route.getD topic.defaultRoute) = some r.node := by
  unfold routeTarget at h
  split at h
  · cases h
  · next node hnode =>
    cases h
    exact hnode

/-- Whether the authorisation passed. -/
def authPassed (s : GraphState) : Except Exn Bool :=
  match s.auth with
  | none => .error .keyError
  | some auth => .ok auth.passed

/-- Run a node that has one way on. -/
def step (n : String) (f : NodeFn σ) (s : GraphState) : Prog σ (GraphState × Unit) :=
  visit langGraph (py n) f s fun _ => .ok ()

/-- From the state an adapter or the reject node left. -/
def persistStage (env : Env σ) (s : GraphState) : Prog σ GraphState := do
  let p ← step "persist_node" (persistNode env) s
  return p.1

def rejectStage (env : Env σ) (topic : CompiledTopic) (s : GraphState) : Prog σ GraphState := do
  let p ← step "reject_node" (makeRejectNode (.live σ) topic.errorMessages) s
  persistStage env p.1

def adapterStage (env : Env σ) (topic : CompiledTopic) (routed : RoutedAdapter topic)
    (s : GraphState) : Prog σ GraphState := do
  let p ← visit langGraph routed.node (topicAdapterNode topic routed.node routed.adapter) s
    fun _ => .ok ()
  persistStage env p.1

def intentStage (env : Env σ) (topic : CompiledTopic) (s : GraphState) : Prog σ GraphState := do
  let p ← visit langGraph (py "intent_node") (topicIntentNode env topic topic.mapping) s
    (routeTarget topic)
  adapterStage env topic p.2 p.1

def answerStage (env : Env σ) (topic : CompiledTopic) (s : GraphState) : Prog σ GraphState := do
  let p ← step "enrich_node" (makeEnrichNode (.live σ) topic.enrich) s
  intentStage env topic p.1

def authStage (env : Env σ) (topic : CompiledTopic) (s : GraphState) : Prog σ GraphState := do
  let p ← visit langGraph (py "auth_node") (makeAuthNode (.live σ) topic.auth) s authPassed
  if p.2 then answerStage env topic p.1 else rejectStage env topic p.1

/-- The graph of a topic as one program. -/
def pipeline (env : Env σ) (topic : CompiledTopic) (s : GraphState) : Prog σ GraphState := do
  let p ← step "load_session" (loadSessionNode env topic) s
  authStage env topic p.1

-- ============================================================================
-- Stage by stage
-- ============================================================================

/-- A property of programs that the nodes of a graph hand on to its run: it is
    kept by sequencing, and the graph's own steps have it.  Where the graph finds
    no way on it raises a key error. -/
structure StageLogic (C : (α : Type) → Prog σ α → Prop) : Prop where
  bind : ∀ {α β : Type} {p : Prog σ α} {f : α → Prog σ β}, C α p → (∀ a, C β (f a)) →
    C β (p >>= f)
  ret : ∀ {α : Type} (a : α), C α (pure a)
  enter : ∀ n, C Unit (Eff.act (.enter n))
  write : ∀ n u, C Unit (Eff.act (.write n u))
  way : ∀ {β : Type} {x : Except Exn β}, (∀ e, x = .error e → e = .keyError) →
    C β (Eff.ofExcept x)

section StageLogic

variable {C : (α : Type) → Prog σ α → Prop} (hC : StageLogic C)
include hC

theorem StageLogic.visit {β : Type} {n : PyStr} {f : NodeFn σ} {s : GraphState}
    {next : GraphState → Except Exn β} (hf : C Update (f s))
    (hnext : ∀ s e, next s = .error e → e = .keyError) :
    C (GraphState × β) (visit langGraph n f s next) :=
  hC.bind (hC.enter n) fun _ => hC.bind hf fun u => hC.bind (hC.way (hnext _)) fun _ =>
    hC.bind (hC.write n u) fun _ => hC.ret _

/-- What all nodes of a topic have, its pipeline has. -/
theorem StageLogic.pipeline {env : Env σ} {topic : CompiledTopic}
    (hload : ∀ s, C Update (loadSessionNode env topic s))
    (hauth : ∀ s, C Update (makeAuthNode (.live σ) topic.auth s))
    (hreject : ∀ s, C Update (makeRejectNode (.live σ) topic.errorMessages s))
    (henrich : ∀ s, C Update (makeEnrichNode (.live σ) topic.enrich s))
    (hintent : ∀ s, C Update (topicIntentNode env topic topic.mapping s))
    (hadapter : ∀ n adapter s, C Update (topicAdapterNode topic n adapter s))
    (hpersist : ∀ s, C Update (persistNode env s)) (s : GraphState) :
    C GraphState (pipeline env topic s) := by
  have hway : ∀ (_ : GraphState) e, (Except.ok () : Except Exn Unit) = .error e → e = .keyError :=
    fun _ _ h => nomatch h
  have hlast : ∀ s, C GraphState (persistStage env s) := fun s =>
    hC.bind (hC.visit (hpersist s) hway) fun _ => hC.ret _
  have hreject' : ∀ s, C GraphState (rejectStage env topic s) := fun s =>
    hC.bind (hC.visit (hreject s) hway) fun _ => hlast _
  have hadapter' : ∀ r s, C GraphState (adapterStage env topic r s) := fun r s =>
    hC.bind (hC.visit (hadapter r.node r.adapter s) hway) fun _ => hlast _
  have hintent' : ∀ s, C GraphState (intentStage env topic s) := by
    refine fun s => hC.bind (hC.visit (hintent s) fun s e he => ?_) fun _ => hadapter' _ _
    unfold routeTarget at he
    split at he
    · cases he
      rfl
    · cases he
  have henrich' : ∀ s, C GraphState (answerStage env topic s) := fun s =>
    hC.bind (hC.visit (henrich s) hway) fun _ => hintent' _
  have hauth' : ∀ s, C GraphState (authStage env topic s) := by
    refine fun s => hC.bind (hC.visit (hauth s) fun s e he => ?_) fun p => ?_
    · unfold authPassed at he
      split at he
      · cases he
        rfl
      · cases he
    · split
      · exact henrich' _
      · exact hreject' _
  exact hC.bind (hC.visit (hload s) hway) fun _ => hauth' _

end StageLogic

-- ============================================================================
-- Lookups in the declaration
-- ============================================================================

section Declared

variable {env : Env σ} {topic : CompiledTopic}

theorem buildGraph_eq (env : Env σ) (topic : CompiledTopic) :
    buildGraph env topic =
      if env.engine.compiles (graphDecl env topic topic.mapping)
      then .ok (graphDecl env topic topic.mapping) else .error .valueError := by
  obtain ⟨edge, rest, hedges⟩ := List.exists_cons_of_ne_nil topic.graph.edges_ne_nil
  have hmapping : topic.mapping = edge.mapping := by
    simp only [CompiledTopic.mapping, hedges, List.head_cons]
  simp only [buildGraph, hedges, hmapping]

/-- The adapters' nodes stand between the built-in ones and persist_node. -/
theorem graphDecl_names (env : Env σ) (topic : CompiledTopic) :
    (graphDecl env topic topic.mapping).names =
      [py "load_session", py "auth_node", py "reject_node", py "enrich_node",
        py "intent_node"] ++ topic.adapters.keys ++ [py "persist_node"] := by
  simp [graphDecl, Decl.names, Dict.keys, Function.comp_def]

variable (hg : (graphDecl env topic topic.mapping).names.Nodup)
include hg

/-- The adapters have distinct names, none of them that of a built-in node. -/
theorem adapter_names :
    topic.adapters.keys.Nodup ∧
      ∀ n ∈ topic.adapters.keys, n ≠ py "load_session" ∧ n ≠ py "auth_node" ∧
        n ≠ py "reject_node" ∧ n ≠ py "enrich_node" ∧ n ≠ py "intent_node" ∧
        n ≠ py "persist_node" := by
  rw [graphDecl_names, List.nodup_append, List.nodup_append] at hg
  obtain ⟨⟨-, hnodup, hfront⟩, -, hback⟩ := hg
  refine ⟨hnodup, fun n hn => ?_⟩
  have hne : ∀ m ∈ [py "load_session", py "auth_node", py "reject_node", py "enrich_node",
      py "intent_node"], n ≠ m := fun m hm => (hfront m hm n hn).symm
  have hlast : n ≠ py "persist_node" :=
    hback n (List.mem_append_right _ hn) _ (List.mem_singleton.mpr rfl)
  exact ⟨hne _ (by simp), hne _ (by simp), hne _ (by simp), hne _ (by simp), hne _ (by simp),
    hlast⟩

/-- Every entry of the declaration is what its name looks up. -/
theorem find_node {n : PyStr} {f : NodeFn σ}
    (h : (n, f) ∈ (graphDecl env topic topic.mapping).nodes) :
    Dict.find n (graphDecl env topic topic.mapping).nodes = some f :=
  Dict.find_of_mem hg h

/-- Every plain edge is the one found at its source. -/
theorem find_edge {n : PyStr} {t : Target PyStr}
    (h : (n, t) ∈ (graphDecl env topic topic.mapping).edges) :
    Dict.find n (graphDecl env topic topic.mapping).edges = some t := by
  refine Dict.find_of_mem ?_ h
  obtain ⟨hnodup, hfresh⟩ := adapter_names hg
  have hkeys : (graphDecl env topic topic.mapping).edges.map Prod.fst =
      [py "load_session", py "enrich_node"] ++ topic.adapters.keys ++
        [py "reject_node", py "persist_node"] := by
    simp [graphDecl, Function.comp_def]
  rw [hkeys, List.nodup_append, List.nodup_append]
  refine ⟨⟨by simp, hnodup, ?_⟩, by simp, ?_⟩
  · intro m hm n hn
    have := hfresh n hn
    simp only [List.mem_cons, List.not_mem_nil, or_false] at hm
    rcases hm with rfl | rfl
    · exact this.1.symm
    · exact this.2.2.2.1.symm
  · intro n hn m hm
    simp only [List.mem_cons, List.not_mem_nil, or_false] at hm
    rcases List.mem_append.mp hn with hn | hn
    · simp only [List.mem_cons, List.not_mem_nil, or_false] at hn
      rcases hn with rfl | rfl <;> rcases hm with rfl | rfl <;> simp
    · have := hfresh n hn
      rcases hm with rfl | rfl
      · exact this.2.2.1
      · exact this.2.2.2.2.2

/-- The two branching nodes have no plain edge. -/
theorem find_edge_branching {n : PyStr} (hn : n = py "auth_node" ∨ n = py "intent_node") :
    Dict.find n (graphDecl env topic topic.mapping).edges = none := by
  rw [Dict.find_eq_none]
  obtain ⟨-, hfresh⟩ := adapter_names hg
  have hkeys : (graphDecl env topic topic.mapping).edges.map Prod.fst =
      [py "load_session", py "enrich_node"] ++ topic.adapters.keys ++
        [py "reject_node", py "persist_node"] := by
    simp [graphDecl, Function.comp_def]
  rw [hkeys]
  intro hmem
  have hadapter : n ∉ topic.adapters.keys := by
    intro h
    have := hfresh n h
    rcases hn with rfl | rfl
    · exact this.2.1 rfl
    · exact this.2.2.2.2.1 rfl
  simp only [List.mem_append, hadapter, or_false] at hmem
  rcases hn with rfl | rfl <;> simp at hmem

-- ============================================================================
-- Running the declaration
-- ============================================================================

/-- The way on over a plain edge. -/
theorem successor_edge {n : PyStr} {t : Target PyStr}
    (h : (n, t) ∈ (graphDecl env topic topic.mapping).edges) (s : GraphState) :
    (graphDecl env topic topic.mapping).successor langGraph n s
      = (Except.ok () : Except Exn Unit).map fun _ => t := by
  simp only [Decl.successor, find_edge hg h]
  rfl

theorem run_persist (fuel : Nat) (s : GraphState) :
    (graphDecl env topic topic.mapping).runFrom langGraph (fuel + 1) (py "persist_node") s
      = persistStage env s := by
  have hnode := find_node hg (show (py "persist_node", persistNode env) ∈ _ by simp [graphDecl])
  have hedge := successor_edge hg (show (py "persist_node", Target.finish) ∈ _ by
    simp [graphDecl])
  rw [runFrom_visit fuel s hnode hedge]
  rfl

theorem run_reject (fuel : Nat) (s : GraphState) :
    (graphDecl env topic topic.mapping).runFrom langGraph (fuel + 2) (py "reject_node") s
      = rejectStage env topic s := by
  have hnode := find_node hg (show (py "reject_node",
    makeRejectNode (.live σ) topic.errorMessages) ∈ _ by simp [graphDecl])
  have hedge := successor_edge hg (show (py "reject_node",
    Target.node (py "persist_node")) ∈ _ by simp [graphDecl])
  rw [runFrom_visit (fuel + 1) s hnode hedge]
  simp only [Decl.goOn, run_persist hg]
  rfl

theorem run_adapter (fuel : Nat) (routed : RoutedAdapter topic) (s : GraphState) :
    (graphDecl env topic topic.mapping).runFrom langGraph (fuel + 2) routed.node s
      = adapterStage env topic routed s := by
  have hentry := Dict.mem_of_find routed.isAdapter
  have hnode := find_node hg (show (routed.node,
      topicAdapterNode topic routed.node routed.adapter) ∈ _ by
    simp only [graphDecl, List.mem_append, List.mem_map]
    exact Or.inl (Or.inr ⟨_, hentry, rfl⟩))
  have hedge := successor_edge hg (show (routed.node, Target.node (py "persist_node")) ∈ _ by
    simp only [graphDecl, List.mem_append, List.mem_map]
    exact Or.inl (Or.inr ⟨_, Dict.mem_keys_of_get? routed.isAdapter, rfl⟩))
  rw [runFrom_visit (fuel + 1) s hnode hedge]
  simp only [Decl.goOn, run_persist hg]
  rfl

/-- The branch after intent_node leads where `routeTarget` says. -/
theorem successor_intent (s : GraphState) :
    (graphDecl env topic topic.mapping).successor langGraph (py "intent_node") s
      = (routeTarget topic s).map fun r => .node r.node := by
  have hbranch : Dict.find (py "intent_node") (graphDecl env topic topic.mapping).branches
      = some ⟨fun s => .ok (s.route.getD topic.defaultRoute), topic.mapping⟩ := by
    simp [graphDecl, Dict.find]
  simp only [Decl.successor, find_edge_branching hg (Or.inr rfl), hbranch]
  unfold routeTarget
  split <;> split <;> simp_all [Except.map, langGraph]

theorem run_intent (fuel : Nat) (s : GraphState) :
    (graphDecl env topic topic.mapping).runFrom langGraph (fuel + 3) (py "intent_node") s
      = intentStage env topic s := by
  have hnode := find_node hg (show (py "intent_node",
    topicIntentNode env topic topic.mapping) ∈ _ by simp [graphDecl])
  rw [runFrom_visit (fuel + 2) s hnode (successor_intent hg)]
  simp only [Decl.goOn, run_adapter hg]
  rfl

theorem run_enrich (fuel : Nat) (s : GraphState) :
    (graphDecl env topic topic.mapping).runFrom langGraph (fuel + 4) (py "enrich_node") s
      = answerStage env topic s := by
  have hnode := find_node hg (show (py "enrich_node",
    makeEnrichNode (.live σ) topic.enrich) ∈ _ by simp [graphDecl])
  have hedge := successor_edge hg (show (py "enrich_node",
    Target.node (py "intent_node")) ∈ _ by simp [graphDecl])
  rw [runFrom_visit (fuel + 3) s hnode hedge]
  simp only [Decl.goOn, run_intent hg]
  rfl

/-- The branch after auth_node leads to enrich_node if the authorisation passed. -/
theorem successor_auth (s : GraphState) :
    (graphDecl env topic topic.mapping).successor langGraph (py "auth_node") s
      = (authPassed s).map fun passed =>
          .node (if passed then py "enrich_node" else py "reject_node") := by
  have hbranch : Dict.find (py "auth_node") (graphDecl env topic topic.mapping).branches
      = some ⟨authPath, authEnds⟩ := by
    simp [graphDecl, Dict.find]
  simp only [Decl.successor, find_edge_branching hg (Or.inl rfl), hbranch, authPath, authPassed]
  cases s.auth with
  | none => rfl
  | some auth =>
      cases hp : auth.passed <;>
        simp [hp, Except.map, authEnds, Dict.get?, Dict.find]

theorem run_auth (fuel : Nat) (s : GraphState) :
    (graphDecl env topic topic.mapping).runFrom langGraph (fuel + 5) (py "auth_node") s
      = authStage env topic s := by
  have hnode := find_node hg (show (py "auth_node",
    makeAuthNode (.live σ) topic.auth) ∈ _ by simp [graphDecl])
  rw [runFrom_visit (fuel + 4) s hnode (successor_auth hg)]
  unfold authStage
  congr 1
  funext p
  cases p.2
  · exact run_reject hg (fuel + 2) p.1
  · exact run_enrich hg fuel p.1

end Declared

/-- Running the graph of a topic is running its pipeline. -/
theorem graph_run_eq_pipeline {env : Env σ} {topic : CompiledTopic} {g : ChatGraph σ}
    (hbuild : buildGraph env topic = .ok g) (s : GraphState) :
    g.run langGraph recursionLimit s = pipeline env topic s := by
  rw [buildGraph_eq] at hbuild
  split at hbuild
  · next hcompiles =>
    cases hbuild
    have hg := env.engine.names_nodup hcompiles
    have hnode := find_node hg (show (py "load_session", loadSessionNode env topic) ∈ _ by
      simp [graphDecl])
    have hedge := successor_edge hg (show (py "load_session",
      Target.node (py "auth_node")) ∈ _ by simp [graphDecl])
    show Decl.runFrom _ langGraph (24 + 1) (py "load_session") s = _
    rw [runFrom_visit 24 s hnode hedge]
    simp only [Decl.goOn, run_auth hg 19]
    rfl
  · cases hbuild

-- ============================================================================
-- The loop over the graph
-- ============================================================================

/-- The pipeline with the service relaying its events. -/
def relayed (env : Env σ) (topic : CompiledTopic) (s : GraphState) : Prog σ Unit :=
  Eff.consume (relay topic.errorMessages) env.grace (pipeline env topic s)

section Loop

variable {env : Env σ} {topic : CompiledTopic} {req : ChatRequest} {g : ChatGraph σ}
  {messageId : PyStr} {w : σ}

/-- A loop that raises nothing is the relayed pipeline. -/
theorem chatLoop_of_ok (hbuild : buildGraph env topic = .ok g)
    (h : (relayed env topic (initialState req messageId) w).result = .ok ()) :
    chatLoop env topic req g messageId w = relayed env topic (initialState req messageId) w := by
  have hattempt : (Eff.attempt (relayed env topic (initialState req messageId)) w).result
      = .ok (.ok ()) := by rw [Eff.attempt_apply, h]
  rw [chatLoop, graph_run_eq_pipeline hbuild]
  refine (Eff.bind_of_ok hattempt).trans ?_
  simp only [Eff.pure_apply, Eff.attempt_apply, Run.after, List.append_nil]
  rw [← h]

/-- An exception of the loop becomes an internal error event. -/
theorem chatLoop_of_error (hbuild : buildGraph env topic = .ok g) {e : Exn}
    (h : (relayed env topic (initialState req messageId) w).result = .error e)
    (he : e.isException = true) :
    chatLoop env topic req g messageId w =
      ⟨.ok (), (relayed env topic (initialState req messageId) w).world,
        (relayed env topic (initialState req messageId) w).acts ++
          [(.yield (internalError req topic),
            (relayed env topic (initialState req messageId) w).world)]⟩ := by
  have hattempt : (Eff.attempt (relayed env topic (initialState req messageId)) w).result
      = .ok (.error e) := by rw [Eff.attempt_apply, h]
  rw [chatLoop, graph_run_eq_pipeline hbuild]
  refine (Eff.bind_of_ok hattempt).trans ?_
  simp only [he, if_true]
  rfl

/-- A cancellation of the loop goes on. -/
theorem chatLoop_of_cancelled (hbuild : buildGraph env topic = .ok g)
    (h : (relayed env topic (initialState req messageId) w).result = .error .cancelled) :
    chatLoop env topic req g messageId w =
      ⟨.error .cancelled, (relayed env topic (initialState req messageId) w).world,
        (relayed env topic (initialState req messageId) w).acts⟩ := by
  have hattempt : (Eff.attempt (relayed env topic (initialState req messageId)) w).result
      = .ok (.error .cancelled) := by rw [Eff.attempt_apply, h]
  rw [chatLoop, graph_run_eq_pipeline hbuild]
  refine (Eff.bind_of_ok hattempt).trans ?_
  have hraise : (if Exn.isException .cancelled = true
      then Eff.act (.yield (internalError req topic)) else Eff.raise .cancelled : Prog σ Unit)
      = Eff.raise .cancelled := rfl
  simp only [hraise, Eff.attempt_apply, Run.after, Eff.raise_apply, List.append_nil]

end Loop

-- ============================================================================
-- A request
-- ============================================================================

/-- A request for an unknown topic: an error and done. -/
theorem handle_unknown {env : Env σ} {topics : TopicRegistry} {req : ChatRequest}
    (ht : topics.get req.bizId = none) :
    handle env topics req = Eff.play [.yield (topicNotFound req), .yield doneFailed] (.ok ()) := by
  simp only [handle, ht]
  rfl

/-- A request with invalid biz_params: an error and done. -/
theorem handle_invalid {env : Env σ} {topics : TopicRegistry} {req : ChatRequest}
    {topic : CompiledTopic} (ht : topics.get req.bizId = some topic)
    (hacc : topic.bizParamsModel.accepts req.bizParams = false) :
    handle env topics req
      = Eff.play [.yield (invalidParams env req), .yield doneFailed] (.ok ()) := by
  simp only [handle, ht, hacc, Bool.false_eq_true, if_false]
  rfl

theorem handle_accepted {env : Env σ} {topics : TopicRegistry} {req : ChatRequest}
    {topic : CompiledTopic} (ht : topics.get req.bizId = some topic)
    (hacc : topic.bizParamsModel.accepts req.bizParams = true) :
    handle env topics req = handleAccepted env topic req := by
  simp only [handle, ht, hacc, if_true]

/-- The id of the assistant message of a request handled from world `w`. -/
def assistantId (env : Env σ) (w : σ) : PyStr := py "msg_" ++ (env.newUlid w).1

/-- The world in which the user message is stored. -/
def afterAssistantId (env : Env σ) (w : σ) : σ := (env.newUlid w).2

/-- What an accepted request does once the user message is stored or not. -/
def afterUser (env : Env σ) (topic : CompiledTopic) (req : ChatRequest) (messageId : PyStr) :
    Except Exn Unit → Prog σ Unit
  | .error (.sessionBizMismatch detail) => do
      Eff.act (.yield (threadBound req detail))
      Eff.act (.yield doneFailed)
  | .error e => Eff.raise e
  | .ok () => do
      let graph ← Eff.ofExcept (buildGraph env topic)
      chatLoop env topic req graph messageId
      Eff.act (.yield (doneComplete messageId))

/-- The meta event, the user message, and what comes after. -/
theorem handleAccepted_run (env : Env σ) (topic : CompiledTopic) (req : ChatRequest) (w : σ) :
    handleAccepted env topic req w =
      (afterUser env topic req (assistantId env w)
          (persistUserMessage env req (afterAssistantId env w)).result
          (persistUserMessage env req (afterAssistantId env w)).world).after
        ((.yield (metaEvent req (assistantId env w)), afterAssistantId env w) ::
          (persistUserMessage env req (afterAssistantId env w)).acts) := by
  have huser : (Eff.attempt (persistUserMessage env req) (afterAssistantId env w)).result
      = .ok (persistUserMessage env req (afterAssistantId env w)).result := rfl
  have hmeta : handleAccepted env topic req w =
      ((Eff.attempt (persistUserMessage env req) >>=
          afterUser env topic req (assistantId env w)) (afterAssistantId env w)).after
        [(.yield (metaEvent req (assistantId env w)), afterAssistantId env w)] := by
    rfl
  rw [hmeta, Eff.bind_of_ok huser]
  rfl

/-- With the user message stored and the loop left without cancellation, the
    stream ends with done. -/
theorem afterUser_ok {env : Env σ} {topic : CompiledTopic} {req : ChatRequest}
    {messageId : PyStr} {g : ChatGraph σ} {w : σ} (hbuild : buildGraph env topic = .ok g)
    (hloop : (chatLoop env topic req g messageId w).result = .ok ()) :
    afterUser env topic req messageId (.ok ()) w =
      ⟨.ok (), (chatLoop env topic req g messageId w).world,
        (chatLoop env topic req g messageId w).acts ++
          [(.yield (doneComplete messageId), (chatLoop env topic req g messageId w).world)]⟩ := by
  simp only [afterUser, hbuild]
  exact Eff.bind_of_ok hloop

/-- What leaves the loop leaves `handle`. -/
theorem afterUser_error {env : Env σ} {topic : CompiledTopic} {req : ChatRequest}
    {messageId : PyStr} {g : ChatGraph σ} {w : σ} {e : Exn} (hbuild : buildGraph env topic = .ok g)
    (hloop : (chatLoop env topic req g messageId w).result = .error e) :
    afterUser env topic req messageId (.ok ()) w =
      ⟨.error e, (chatLoop env topic req g messageId w).world,
        (chatLoop env topic req g messageId w).acts⟩ := by
  simp only [afterUser, hbuild]
  show (chatLoop env topic req g messageId >>= fun _ =>
    Eff.act (.yield (doneComplete messageId))) w = _
  exact Eff.bind_of_error hloop

end MasterAgent
