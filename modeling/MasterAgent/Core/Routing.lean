/-
  MasterAgent.Core.Routing

  Where the intent phase of a compiled configuration leads.  The validator takes
  the keys of all conditional edges together, the graph builder takes the
  mapping of the first edge alone, and the intent node falls back on the default
  route; they agree exactly on the configurations that `RoutesAgree` describes.
-/

import MasterAgent.Core.Graph.NodeTrace
import MasterAgent.Core.StreamGrammar
import MasterAgent.Core.Topic.Compiler

namespace MasterAgent

open Effect StateGraph

variable {σ : Type}

-- ============================================================================
-- What the intent node writes
-- ============================================================================

/-- The route of the first attempt that returns, of `left` attempts. -/
def answeredRoute (plugin : IntentPlugin) (s : GraphState) : (left attempt : Nat) → Option PyStr
  | 0, _ => none
  | left + 1, attempt => match plugin.classify attempt s with
      | .ok result => some result.route
      | .error _ => answeredRoute plugin s left (attempt + 1)

/-- The route written: the answer if it is a label, and else the default route. -/
def writtenRoute (defaultRoute : PyStr) (labels : List PyStr) : Option PyStr → PyStr
  | some route => if route ∈ labels then route else defaultRoute
  | none => defaultRoute

/-- The plugin is not cancelled: it returns or raises an `Exception`. -/
def IntentPlugin.Exceptional (plugin : IntentPlugin) : Prop :=
  ∀ attempt s, plugin.classify attempt s ≠ .error .cancelled

section Written

variable {repr : PyStr → PyStr} {plugin : IntentPlugin} {defaultRoute : PyStr}
  {labels : List PyStr} {s : GraphState}

theorem intentTrace_route (hplugin : plugin.Exceptional)
    (maxAttempts backoffMs left attempt : Nat) :
    ∃ u, (intentTrace repr plugin defaultRoute labels maxAttempts backoffMs s left attempt).2
        = .ok u ∧
      u.route = some (writtenRoute defaultRoute labels (answeredRoute plugin s left attempt)) := by
  induction left generalizing attempt with
  | zero => exact ⟨_, rfl, rfl⟩
  | succ left ih =>
      cases hc : plugin.classify attempt s with
      | ok result =>
          refine ⟨intentUpdate (intentAnswer repr defaultRoute labels result),
            by simp only [intentTrace, hc], ?_⟩
          by_cases hlabel : result.route ∈ labels <;>
            simp [intentUpdate, intentAnswer, answeredRoute, writtenRoute, hc, hlabel]
      | error e =>
          have he : e.isException = true := by
            rw [Exn.isException_eq_true]
            rintro rfl
            exact hplugin attempt s hc
          obtain ⟨u, hu, hroute⟩ := ih (attempt + 1)
          refine ⟨u, ?_, ?_⟩
          · simp only [intentTrace, hc, he, if_true]
            exact hu
          · simp only [answeredRoute, hc]
            exact hroute

theorem makeIntentNode_route (hplugin : plugin.Exceptional) (retry : Option RetryPolicy) (w : σ) :
    ∃ u, (makeIntentNode (NodeEnv.live σ) repr plugin defaultRoute labels retry s w).result
        = .ok u ∧
      u.route = some (writtenRoute defaultRoute labels
        (answeredRoute plugin s (maxAttempts retry) 1)) := by
  rw [makeIntentNode_live, Eff.play_result]
  exact intentTrace_route hplugin _ _ _ _

end Written

-- ============================================================================
-- Misrouting
-- ============================================================================

/-- The intent node writes a route of a declared graph that its conditional edge
    maps to an adapter, and every label that was written or answered goes where
    the configuration's conditional edges map it. -/
def RoutesTo (cfg : TopicConfig) (topic : CompiledTopic) (g : ChatGraph σ) (s : GraphState) (w : σ)
    (answered : Option PyStr) : Prop :=
  ∃ node branch u route target,
    Dict.find (py "intent_node") g.nodes = some node ∧
    Dict.find (py "intent_node") g.branches = some branch ∧
    (node s w).result = .ok u ∧ u.route = some route ∧
    branch.path (s.merge u) = .ok route ∧ route ∈ branch.ends.keys ∧
    branch.ends.get? route = some target ∧ target ∈ topic.adapters.keys ∧
    ∀ label, label = route ∨ answered = some label → cfg.IsLabel label →
      ∀ edge ∈ cfg.edges, ∀ n, edge.mapping.get? label = some n → n = target

/-- However the intent plugin behaves, no request is misrouted. -/
def NeverMisroutes (env : Env σ) (cfg : TopicConfig) (topic : CompiledTopic) (w : σ) : Prop :=
  ∀ plugin : IntentPlugin, plugin.Exceptional → ∀ s : GraphState,
    RoutesTo cfg topic (graphDecl env { topic with intent := plugin } topic.mapping) s w
      (answeredRoute plugin s (maxAttempts topic.intentRetry) 1)

/-- The mapping of a configuration's first conditional edge. -/
def TopicConfig.firstMapping (cfg : TopicConfig) : Dict PyStr PyStr :=
  (cfg.edges.head cfg.edges_ne_nil).mapping

/-- The default route is a key of the first mapping, and where any edge maps a
    label, the first mapping sends it there: the label itself if it is a key of
    the first mapping, and else the default route it falls back to. -/
def TopicConfig.RoutesAgree (cfg : TopicConfig) : Prop :=
  cfg.defaultRoute ∈ cfg.firstMapping.keys ∧
    ∀ edge ∈ cfg.edges, ∀ label n, edge.mapping.get? label = some n →
      cfg.firstMapping.get?
        (if label ∈ cfg.firstMapping.keys then label else cfg.defaultRoute) = some n

section Agree

variable {env : Env σ} {cfg : TopicConfig} {topic : CompiledTopic}

/-- What a request meets in the graph declared for a topic. -/
theorem routesTo_iff (hroute : topic.defaultRoute = cfg.defaultRoute)
    (hgraph : topic.graph = cfg.graph) {plugin : IntentPlugin} (hplugin : plugin.Exceptional)
    (s : GraphState) (w : σ) {answered : Option PyStr}
    (hans : answered = answeredRoute plugin s (maxAttempts topic.intentRetry) 1) :
    RoutesTo cfg topic (graphDecl env { topic with intent := plugin } topic.mapping) s w
        answered ↔
      ∃ target, cfg.firstMapping.get?
          (writtenRoute cfg.defaultRoute cfg.firstMapping.keys answered) = some target ∧
        ∀ label, label = writtenRoute cfg.defaultRoute cfg.firstMapping.keys answered ∨
            answered = some label → cfg.IsLabel label →
          ∀ edge ∈ cfg.edges, ∀ n, edge.mapping.get? label = some n → n = target := by
  have hmapping : topic.mapping = cfg.firstMapping := by
    simp only [CompiledTopic.mapping, hgraph]
    rfl
  obtain ⟨u, hu, hwritten⟩ : ∃ u,
      (topicIntentNode env { topic with intent := plugin } topic.mapping s w).result = .ok u ∧
        u.route = some (writtenRoute topic.defaultRoute topic.mapping.keys answered) := by
    rw [hans]
    exact makeIntentNode_route hplugin topic.intentRetry w
  have hnode : Dict.find (py "intent_node")
      (graphDecl env { topic with intent := plugin } topic.mapping).nodes =
      some (topicIntentNode env { topic with intent := plugin } topic.mapping) := by
    simp [graphDecl, Dict.find]
  have hbranch : Dict.find (py "intent_node")
      (graphDecl env { topic with intent := plugin } topic.mapping).branches =
      some ⟨fun s => .ok (s.route.getD topic.defaultRoute), topic.mapping⟩ := by
    simp [graphDecl, Dict.find]
  have hpath : (s.merge u).route.getD topic.defaultRoute =
      writtenRoute cfg.defaultRoute cfg.firstMapping.keys answered := by
    rw [GraphState.merge_route, hwritten, hroute, hmapping]
    rfl
  rw [hroute, hmapping] at hwritten
  constructor
  · rintro ⟨node, branch, u', route, target, hnode', hbranch', hu', hroute', -, -, htarget, -,
      hlabels⟩
    rw [hnode, Option.some.injEq] at hnode'
    rw [hbranch, Option.some.injEq] at hbranch'
    subst hnode' hbranch'
    rw [hu, Except.ok.injEq] at hu'
    subst hu'
    rw [hwritten, Option.some.injEq] at hroute'
    subst hroute'
    exact ⟨target, hmapping ▸ htarget, hlabels⟩
  · rintro ⟨target, htarget, hlabels⟩
    obtain ⟨a, ha⟩ := CompiledTopic.mapping_adapter (hmapping.symm ▸ htarget)
    refine ⟨_, _, u, _, target, hnode, hbranch, hu, hwritten, ?_, ?_, ?_,
      Dict.mem_keys_of_get? ha, hlabels⟩
    · exact congrArg Except.ok hpath
    · rw [hmapping]
      exact Dict.mem_keys_of_get? htarget
    · rw [hmapping]
      exact htarget

/-- A label is a key of some conditional edge's mapping. -/
theorem isLabel_of_edge {edge : ConditionalEdge} (hedge : edge ∈ cfg.edges) {label n : PyStr}
    (h : edge.mapping.get? label = some n) : cfg.IsLabel label := by
  rw [cfg.isLabel_iff]
  exact List.mem_flatMap.mpr ⟨edge, hedge, Dict.mem_keys_of_get? h⟩

/-- On agreeing routes every outcome of the intent phase finds its target. -/
theorem RoutesAgree.target (h : cfg.RoutesAgree) (answered : Option PyStr) :
    ∃ target, cfg.firstMapping.get?
        (writtenRoute cfg.defaultRoute cfg.firstMapping.keys answered) = some target ∧
      ∀ label, label = writtenRoute cfg.defaultRoute cfg.firstMapping.keys answered ∨
          answered = some label → cfg.IsLabel label →
        ∀ edge ∈ cfg.edges, ∀ n, edge.mapping.get? label = some n → n = target := by
  obtain ⟨hdefault, hagree⟩ := h
  have hkey : writtenRoute cfg.defaultRoute cfg.firstMapping.keys answered
      ∈ cfg.firstMapping.keys := by
    cases answered with
    | none => exact hdefault
    | some r =>
        rw [writtenRoute]
        split
        · assumption
        · exact hdefault
  obtain ⟨target, htarget⟩ := Dict.exists_get? hkey
  refine ⟨target, htarget, fun label hlabel _ edge hedge n hn => ?_⟩
  have hsent := hagree edge hedge label n hn
  rcases hlabel with rfl | rfl
  · rw [if_pos hkey, htarget, Option.some.injEq] at hsent
    exact hsent.symm
  · rw [writtenRoute, hsent, Option.some.injEq] at htarget
    exact htarget

/-- A plugin that answers the same on every attempt. -/
def constantIntent (answer : Except Exn IntentResult) : IntentPlugin := ⟨fun _ _ => answer⟩

theorem answeredRoute_constant {result : IntentResult} (s : GraphState)
    (retry : Option RetryPolicy) :
    answeredRoute (constantIntent (.ok result)) s (maxAttempts retry) 1 = some result.route := by
  obtain ⟨left, hleft⟩ := Nat.exists_eq_succ_of_ne_zero
    (Nat.ne_of_gt (one_le_maxAttempts retry))
  rw [hleft]
  rfl

theorem answeredRoute_failing {msg : PyStr} (s : GraphState) (left attempt : Nat) :
    answeredRoute (constantIntent (.error (.intentFailed msg))) s left attempt = none := by
  induction left generalizing attempt with
  | zero => rfl
  | succ left ih => exact ih (attempt + 1)

/-- Requests are never misrouted if and only if the conditional edges and the
    default route agree. -/
theorem neverMisroutes_iff {c : TopicCompiler} {envmap : Dict PyStr PyStr}
    (hcompile : c.compile cfg envmap = .ok topic) (env : Env σ) (w : σ) :
    NeverMisroutes env cfg topic w ↔ cfg.RoutesAgree := by
  obtain ⟨-, hroute, hgraph, -⟩ := compile_fields hcompile
  constructor
  · intro h
    let s := initialState { bizId := [], threadId := .null, w3Account := [], question := .null,
                            requestId := .null } []
    have hanswer : ∀ result : IntentResult, ∃ target, cfg.firstMapping.get?
        (writtenRoute cfg.defaultRoute cfg.firstMapping.keys (some result.route)) = some target ∧
        ∀ label, label = writtenRoute cfg.defaultRoute cfg.firstMapping.keys (some result.route) ∨
            some result.route = some label → cfg.IsLabel label →
          ∀ edge ∈ cfg.edges, ∀ n, edge.mapping.get? label = some n → n = target := by
      intro result
      have hplugin : (constantIntent (.ok result)).Exceptional := fun _ _ => by
        simp [constantIntent]
      have hsent := h _ hplugin s
      rw [answeredRoute_constant] at hsent
      exact (routesTo_iff hroute hgraph hplugin _ w
        (answeredRoute_constant _ _).symm).mp hsent
    refine ⟨?_, ?_⟩
    · have hplugin : (constantIntent (.error (.intentFailed []))).Exceptional := fun _ _ => by
        simp [constantIntent]
      have hfail := h _ hplugin s
      rw [answeredRoute_failing] at hfail
      obtain ⟨target, htarget, -⟩ := (routesTo_iff hroute hgraph hplugin _ w
        (answeredRoute_failing _ _ _).symm).mp hfail
      exact Dict.mem_keys_of_get? htarget
    · intro edge hedge label n hn
      obtain ⟨target, htarget, hlabels⟩ := hanswer { route := label, confidence := 0 }
      have hn' := hlabels label (Or.inr rfl) (isLabel_of_edge hedge hn) edge hedge n hn
      rw [hn']
      exact htarget
  · intro h plugin hplugin s
    exact (routesTo_iff hroute hgraph hplugin s w rfl).mpr (RoutesAgree.target h _)

end Agree

-- ============================================================================
-- Three configurations
-- ============================================================================

/-- A registry with one plugin of each kind, all named `p`. -/
def onePlugin : PluginRegistry where
  auth := ⟨[(py "p", fun _ => .ok openAuth)], by simp⟩
  enrich := ⟨[(py "p", fun _ => .ok plainEnrich)], by simp⟩
  intent := ⟨[(py "p", fun _ =>
    .ok (constantIntent (.ok { route := py "legal", confidence := 0 })))], by simp⟩
  adapter := ⟨[(py "p", fun _ => .ok (scripted []))], by simp⟩

/-- The compiler over that registry. -/
def onePluginCompiler : TopicCompiler := ⟨onePlugin, fun _ => .ok ()⟩

/-- Two adapter nodes and the labels `sales` and `legal`. -/
def twoLabels (defaultRoute : PyStr) (edges : List ConditionalEdge) : TopicFields where
  topicId := py "topic"
  defaultRoute := defaultRoute
  history := ⟨20, by omega, by omega⟩
  auth := { plugin := py "p" }
  enrich := { plugin := py "p" }
  intent := { plugin := py "p",
              params := [(py "labels", .arr [.str (py "sales"), .str (py "legal")])] }
  nodes := [{ id := py "sales_api", adapter := py "p" },
    { id := py "legal_api", adapter := py "p" }]
  edges := edges
  bizParamsSchema := [(py "type", .str (py "object"))]
  errorMessages := ⟨requiredErrorCodes.map fun c => (c, py "text"), by decide⟩

/-- The mapping of both labels. -/
def bothLabels : ConditionalEdge :=
  ⟨⟨[(py "sales", py "sales_api"), (py "legal", py "legal_api")], by simp⟩⟩

/-- One edge and a default route it maps. -/
def agreeingConfig : TopicConfig where
  toTopicFields := twoLabels (py "sales") [bothLabels]
  topicId_ne_nil := by decide
  valid := by decide

/-- One edge and the default route `reject`, which it does not map. -/
def rejectConfig : TopicConfig where
  toTopicFields := twoLabels (py "reject") [bothLabels]
  topicId_ne_nil := by decide
  valid := by decide

/-- An edge for each label. -/
def twoEdgesConfig : TopicConfig where
  toTopicFields := twoLabels (py "sales")
    [⟨⟨[(py "sales", py "sales_api")], by simp⟩⟩, ⟨⟨[(py "legal", py "legal_api")], by simp⟩⟩]
  topicId_ne_nil := by decide
  valid := by decide

/-- With one edge it is enough that the default route is mapped. -/
theorem TopicConfig.RoutesAgree.of_edges_eq {cfg : TopicConfig} {edge : ConditionalEdge}
    (h : cfg.edges = [edge]) (hdefault : cfg.defaultRoute ∈ edge.mapping.keys) :
    cfg.RoutesAgree := by
  have hfirst : cfg.firstMapping = edge.mapping := by
    simp only [firstMapping, h, List.head_cons]
  refine ⟨hfirst ▸ hdefault, fun edge' hedge label n hn => ?_⟩
  rw [h, List.mem_singleton] at hedge
  subst hedge
  rw [hfirst, if_pos (Dict.mem_keys_of_get? hn)]
  exact hn

/-- No request for the topic with one edge is misrouted. -/
theorem neverMisroutes_iff_agreeing : ∃ topic,
    onePluginCompiler.compile agreeingConfig .empty = .ok topic ∧
      NeverMisroutes (plainEnv idleRepos fun w => (py "1", w)) agreeingConfig topic () := by
  have hcompile : onePluginCompiler.compile agreeingConfig .empty = .ok _ := rfl
  refine ⟨_, hcompile, (neverMisroutes_iff hcompile _ ()).mpr ?_⟩
  exact .of_edges_eq rfl (by decide)

/-- With the default route `reject` a failing classification leaves the mapping,
    and with an edge for each label the answer `legal` ends at the sales API. -/
theorem misroutes :
    let env := plainEnv idleRepos fun w => (py "1", w)
    (∃ topic g, onePluginCompiler.compile rejectConfig .empty = .ok topic ∧
      buildGraph env topic = .ok g ∧ ¬ NeverMisroutes env rejectConfig topic ()) ∧
    ∃ topic g, onePluginCompiler.compile twoEdgesConfig .empty = .ok topic ∧
      buildGraph env topic = .ok g ∧ ¬ NeverMisroutes env twoEdgesConfig topic () := by
  intro env
  have hbuild : ∀ topic : CompiledTopic, topic.adapters.keys = [py "sales_api", py "legal_api"] →
      ∃ g, buildGraph env topic = .ok g := by
    intro topic hkeys
    have hcompiles : env.engine.compiles (graphDecl env topic topic.mapping) = true := by
      refine Engine.lenient_compiles.mpr ?_
      rw [graphDecl_names, hkeys]
      decide
    exact ⟨_, by rw [buildGraph_eq, if_pos hcompiles]⟩
  let s := initialState (aliceAsks (py "th")) (py "msg_1")
  refine ⟨?_, ?_⟩
  · obtain ⟨topic, hcompile, hkeys⟩ : ∃ topic,
        onePluginCompiler.compile rejectConfig .empty = .ok topic ∧
          topic.adapters.keys = [py "sales_api", py "legal_api"] := ⟨_, rfl, rfl⟩
    obtain ⟨g, hg⟩ := hbuild topic hkeys
    obtain ⟨-, hroute, hgraph, -⟩ := compile_fields hcompile
    refine ⟨topic, g, hcompile, hg, fun h => ?_⟩
    have hplugin : (constantIntent (.error (.intentFailed []))).Exceptional := fun _ _ => by
      simp [constantIntent]
    obtain ⟨target, htarget, -⟩ := (routesTo_iff hroute hgraph hplugin s () rfl).mp (h _ hplugin s)
    rw [answeredRoute_failing] at htarget
    have hnone : rejectConfig.firstMapping.get? (py "reject") = none := by decide
    exact Option.some_ne_none _ (htarget.symm.trans hnone)
  · obtain ⟨topic, hcompile, hkeys⟩ : ∃ topic,
        onePluginCompiler.compile twoEdgesConfig .empty = .ok topic ∧
          topic.adapters.keys = [py "sales_api", py "legal_api"] := ⟨_, rfl, rfl⟩
    obtain ⟨g, hg⟩ := hbuild topic hkeys
    obtain ⟨-, hroute, hgraph, -⟩ := compile_fields hcompile
    refine ⟨topic, g, hcompile, hg, fun h => ?_⟩
    have hplugin :
        (constantIntent (.ok { route := py "legal", confidence := 0 })).Exceptional :=
      fun _ _ => by simp [constantIntent]
    obtain ⟨target, htarget, hlabels⟩ :=
      (routesTo_iff hroute hgraph hplugin s () rfl).mp (h _ hplugin s)
    rw [answeredRoute_constant] at htarget hlabels
    have hsales : twoEdgesConfig.firstMapping.get? (py "sales") = some (py "sales_api") := by
      decide
    have hlegal : py "legal_api" = target := by
      refine hlabels (py "legal") (Or.inr rfl) ?_ _ (List.mem_cons_of_mem _ List.mem_cons_self)
        (py "legal_api") (by decide)
      rw [TopicConfig.isLabel_iff]
      decide
    exact absurd (hlegal.trans (Option.some.inj (htarget.symm.trans hsales))) (by decide)

end MasterAgent
