/-
  MasterAgent.Core.DeclaredNodes

  A configuration against the graph built from it.  The compiler passes the
  adapters and the retry policies on in two dictionaries by node id, and the
  graph builder declares one node for each id beside its own six.  So every entry
  of `graph.nodes` has its own node exactly when the ids are distinct, none is
  the name of a built-in node and none a key of the state, and the engine lets a
  node have each of them.
-/

import MasterAgent.Core.Graph.AdapterRetry
import MasterAgent.Core.Routing

namespace MasterAgent

open Effect StateGraph

variable {σ : Type}

-- ============================================================================
-- Entries and their nodes
-- ============================================================================

/-- The names `_build_graph` gives its own nodes. -/
def builtinNames : List PyStr :=
  [py "load_session", py "auth_node", py "reject_node", py "enrich_node", py "intent_node",
    py "persist_node"]

/-- The ids are distinct, neither names of built-in nodes nor keys of the state, and
    none that the engine refuses. -/
structure TopicFields.IdsFree (refuses : PyStr → Bool) (f : TopicFields) : Prop where
  nodup : f.nodeIds.Nodup
  not_builtin : ∀ id ∈ f.nodeIds, id ∉ builtinNames
  not_stateKey : ∀ id ∈ f.nodeIds, id ∉ graphStateKeys
  allowed : ∀ id ∈ f.nodeIds, refuses id = false

/-- The adapter is the plugin that an entry names, created with its own params. -/
def Creates (c : TopicCompiler) (envmap : Dict PyStr PyStr) (node : AdapterNode)
    (adapter : DownstreamAdapter) : Prop :=
  ∃ params, resolveFields envmap node.params = .ok params ∧
    createPlugin c.registry.adapter node.adapter params = .ok adapter

/-- The node of an entry: its id, its adapter and its retry policy. -/
def ownNode (node : AdapterNode) (adapter : DownstreamAdapter) : PyStr × NodeFn σ :=
  (node.id, makeAdapterNode (.live σ) adapter true node.retry)

/-- The nodes every graph has. -/
def builtinNodes (env : Env σ) (topic : CompiledTopic) : List (PyStr × NodeFn σ) :=
  [(py "load_session", loadSessionNode env topic),
    (py "auth_node", makeAuthNode (.live σ) topic.auth),
    (py "reject_node", makeRejectNode (.live σ) topic.errorMessages),
    (py "enrich_node", makeEnrichNode (.live σ) topic.enrich),
    (py "intent_node", topicIntentNode env topic topic.mapping),
    (py "persist_node", persistNode env)]

/-- The graph is built, and besides the built-in nodes it has exactly one for each
    entry, with the entry's own adapter, params and retry policy. -/
def ServesEntries (c : TopicCompiler) (cfg : TopicConfig) (envmap : Dict PyStr PyStr)
    (env : Env σ) (topic : CompiledTopic) : Prop :=
  ∃ g adapters, buildGraph env topic = .ok g ∧
    List.Forall₂ (Creates c envmap) cfg.nodes adapters ∧
    g.nodes.Perm (builtinNodes env topic ++ List.zipWith ownNode cfg.nodes adapters)

-- ============================================================================
-- The two dictionaries
-- ============================================================================

/-- Under distinct ids the compiler keeps the adapter of every entry. -/
theorem createAdapters_entries {c : TopicCompiler} {envmap : Dict PyStr PyStr}
    {nodes : List AdapterNode} {adapters adapters' : Dict PyStr DownstreamAdapter}
    (h : c.createAdapters envmap nodes adapters = .ok adapters')
    (hnodup : (nodes.map fun node => node.id).Nodup)
    (hfresh : ∀ node ∈ nodes, node.id ∉ adapters.keys) :
    ∃ created, List.Forall₂ (Creates c envmap) nodes created ∧
      adapters'.entries = adapters.entries ++
        List.zipWith (fun node adapter => (node.id, adapter)) nodes created := by
  induction nodes generalizing adapters with
  | nil =>
      rw [TopicCompiler.createAdapters, Except.ok.injEq] at h
      exact ⟨[], .nil, by rw [h]; simp⟩
  | cons node rest ih =>
      rw [TopicCompiler.createAdapters] at h
      rw [List.map_cons, List.nodup_cons] at hnodup
      obtain ⟨params, hparams, h⟩ := exists_of_bind_eq_ok h
      obtain ⟨adapter, hcreate, h⟩ := exists_of_bind_eq_ok h
      have hlater : ∀ node' ∈ rest, node'.id ∉ (adapters.set node.id adapter).keys := by
        intro node' hnode' hmem
        rcases Dict.mem_keys_set.mp hmem with hid | hmem
        · exact hnodup.1 (hid ▸ List.mem_map_of_mem hnode')
        · exact hfresh node' (List.mem_cons_of_mem _ hnode') hmem
      obtain ⟨created, hcreated, hentries⟩ := ih h hnodup.2 hlater
      have hput : (adapters.set node.id adapter).entries
          = adapters.entries ++ [(node.id, adapter)] :=
        Dict.put_of_not_mem (hfresh node List.mem_cons_self)
      refine ⟨adapter :: created, .cons ⟨params, hparams, hcreate⟩ hcreated, ?_⟩
      rw [hentries, hput, List.zipWith_cons_cons, List.append_assoc, List.singleton_append]

/-- Entries with other ids leave the policy of an id alone. -/
theorem adapterRetries_other {nodes : List AdapterNode} {retries : Dict PyStr RetryPolicy}
    {id : PyStr} (h : id ∉ nodes.map fun node => node.id) :
    (adapterRetries nodes retries).get? id = retries.get? id := by
  induction nodes generalizing retries with
  | nil => rfl
  | cons node rest ih =>
      rw [List.map_cons, List.mem_cons, not_or] at h
      rw [adapterRetries, ih h.2]
      cases node.retry with
      | none => rfl
      | some policy => exact (Dict.get?_set _ _ _ _).trans (if_neg fun hid => h.1 hid.symm)

/-- Under distinct ids every entry finds its own policy. -/
theorem adapterRetries_own {nodes : List AdapterNode} {retries : Dict PyStr RetryPolicy}
    (hnodup : (nodes.map fun node => node.id).Nodup)
    (hfresh : ∀ node ∈ nodes, retries.get? node.id = none) {node : AdapterNode}
    (hnode : node ∈ nodes) : (adapterRetries nodes retries).get? node.id = node.retry := by
  induction nodes generalizing retries with
  | nil => exact (List.not_mem_nil hnode).elim
  | cons first rest ih =>
      rw [List.map_cons, List.nodup_cons] at hnodup
      rw [adapterRetries]
      rcases List.mem_cons.mp hnode with rfl | hnode
      · rw [adapterRetries_other hnodup.1]
        cases hretry : node.retry with
        | none => exact hfresh node List.mem_cons_self
        | some policy => exact (Dict.get?_set _ _ _ _).trans (if_pos rfl)
      · refine ih hnodup.2 (fun later hlater => ?_) hnode
        have hother : first.id ≠ later.id := fun hid =>
          hnodup.1 (hid ▸ List.mem_map_of_mem hlater)
        have hnone := hfresh later (List.mem_cons_of_mem _ hlater)
        cases first.retry with
        | none => exact hnone
        | some policy => exact (Dict.get?_set _ _ _ _).trans ((if_neg hother).trans hnone)

/-- What a compiled topic takes over for its adapter nodes. -/
theorem compile_adapters {c : TopicCompiler} {cfg : TopicConfig} {envmap : Dict PyStr PyStr}
    {topic : CompiledTopic} (h : c.compile cfg envmap = .ok topic) :
    c.createAdapters envmap cfg.nodes .empty = .ok topic.adapters ∧
      topic.adapterRetries = adapterRetries cfg.nodes .empty := by
  unfold TopicCompiler.compile at h
  iterate 6 obtain ⟨_, -, h⟩ := exists_of_bind_eq_ok h
  obtain ⟨adapters, hadapters, h⟩ := exists_of_bind_eq_ok h
  obtain ⟨_, -, h⟩ := exists_of_bind_eq_ok h
  cases h
  exact ⟨createAdapters_of_adapters hadapters, rfl⟩

-- ============================================================================
-- The graph
-- ============================================================================

section Graph

variable {env : Env σ} {topic : CompiledTopic}

/-- The declared nodes, the built-in ones first. -/
theorem graphDecl_nodes (env : Env σ) (topic : CompiledTopic) :
    (graphDecl env topic topic.mapping).nodes.Perm (builtinNodes env topic ++
      topic.adapters.entries.map fun a => (a.1, topicAdapterNode topic a.1 a.2)) := by
  rw [graphDecl, builtinNodes]
  simp only [List.cons_append, List.nil_append, List.perm_cons]
  exact List.perm_append_singleton _ _

/-- The ids are the keys of the adapters. -/
theorem mem_adapter_keys {cfg : TopicConfig} (hgraph : topic.graph = cfg.graph) {n : PyStr} :
    n ∈ topic.adapters.keys ↔ n ∈ cfg.nodeIds := by
  rw [topic.mem_adapters, hgraph, TopicConfig.graph, List.map_map]
  rfl

/-- Under distinct ids the adapter nodes are those of the entries. -/
theorem adapterNodes_own {c : TopicCompiler} {cfg : TopicConfig} {envmap : Dict PyStr PyStr}
    (hcompile : c.compile cfg envmap = .ok topic) (hnodup : cfg.nodeIds.Nodup) :
    ∃ adapters, List.Forall₂ (Creates c envmap) cfg.nodes adapters ∧
      (topic.adapters.entries.map fun a => (a.1, topicAdapterNode topic a.1 a.2)) =
        (List.zipWith ownNode cfg.nodes adapters : List (PyStr × NodeFn σ)) := by
  obtain ⟨hcreate, hretries⟩ := compile_adapters hcompile
  obtain ⟨adapters, hadapters, hentries⟩ := createAdapters_entries hcreate hnodup
    fun _ _ => List.not_mem_nil
  refine ⟨adapters, hadapters, ?_⟩
  have hempty : (Dict.empty : Dict PyStr DownstreamAdapter).entries = [] := rfl
  rw [hentries, hempty, List.nil_append, List.map_zipWith, ← List.map_uncurry_zip_eq_zipWith,
    ← List.map_uncurry_zip_eq_zipWith]
  refine List.map_congr_left fun pair hpair => ?_
  have hnode : pair.1 ∈ cfg.nodes := (List.of_mem_zip hpair).1
  have hown : topic.adapterRetries.get? pair.1.id = pair.1.retry := by
    rw [hretries]
    exact adapterRetries_own hnodup (fun _ _ => rfl) hnode
  show (pair.1.id, topicAdapterNode topic pair.1.id pair.2) = ownNode pair.1 pair.2
  rw [ownNode, topicAdapterNode, hown]

/-- The names are the built-in ones and the ids. -/
theorem graphDecl_names_perm (env : Env σ) (topic : CompiledTopic) :
    (graphDecl env topic topic.mapping).names.Perm (builtinNames ++ topic.adapters.keys) := by
  have hnames := (graphDecl_nodes env topic).map Prod.fst
  rw [List.map_append, List.map_map] at hnames
  exact hnames

theorem mem_graphDecl_names {n : PyStr} :
    n ∈ (graphDecl env topic topic.mapping).names ↔ n ∈ builtinNames ∨ n ∈ topic.adapters.keys :=
  (graphDecl_names_perm env topic).mem_iff.trans List.mem_append

/-- The declared graph leads from and to its own nodes. -/
theorem graphDecl_closed (env : Env σ) (topic : CompiledTopic) :
    (graphDecl env topic topic.mapping).Closed := by
  have hbuiltin : ∀ n ∈ builtinNames, n ∈ (graphDecl env topic topic.mapping).names :=
    fun n hn => mem_graphDecl_names.mpr (Or.inl hn)
  have htarget : ∀ entry ∈ topic.mapping.entries,
      entry.2 ∈ (graphDecl env topic topic.mapping).names := by
    intro entry hentry
    refine mem_graphDecl_names.mpr (Or.inr ((topic.mem_adapters _).mpr ?_))
    exact topic.graph.mapping_nodes _ (List.head_mem topic.graph.edges_ne_nil) _ hentry
  refine ⟨hbuiltin (py "load_session") (by decide), fun e he => ?_, fun b hb => ?_⟩
  · simp only [graphDecl, List.mem_append, List.mem_cons, List.mem_map, List.not_mem_nil,
      or_false] at he
    rcases he with ((rfl | rfl) | ⟨n, hn, rfl⟩) | rfl | rfl
    · exact ⟨hbuiltin _ (by decide), fun m hm => by cases hm; exact hbuiltin _ (by decide)⟩
    · exact ⟨hbuiltin _ (by decide), fun m hm => by cases hm; exact hbuiltin _ (by decide)⟩
    · refine ⟨mem_graphDecl_names.mpr (Or.inr hn), fun m hm => ?_⟩
      cases hm
      exact hbuiltin _ (by decide)
    · exact ⟨hbuiltin _ (by decide), fun m hm => by cases hm; exact hbuiltin _ (by decide)⟩
    · exact ⟨hbuiltin _ (by decide), fun m hm => by cases hm⟩
  · simp only [graphDecl, List.mem_cons, List.not_mem_nil, or_false] at hb
    rcases hb with rfl | rfl
    · refine ⟨hbuiltin _ (by decide), fun e he => hbuiltin _ ?_⟩
      simp only [authEnds, List.mem_cons, List.not_mem_nil, or_false] at he
      rcases he with rfl | rfl <;> decide
    · exact ⟨hbuiltin (py "intent_node") (by decide), htarget⟩

end Graph

/-- For every configuration that compiles, and an engine that refuses a graph for
    its names only, those of the built-in nodes not among them: the graph is built
    with one node for each entry, running the entry's own adapter under its own
    policy, exactly when the ids are free. -/
theorem serves_entries_iff {c : TopicCompiler} {cfg : TopicConfig} {envmap : Dict PyStr PyStr}
    {topic : CompiledTopic} (hcompile : c.compile cfg envmap = .ok topic) (env : Env σ)
    (hengine : env.engine.NamesOnly)
    (hbuiltin : ∀ n ∈ builtinNames, env.engine.refuses n = false) :
    ServesEntries c cfg envmap env topic ↔ cfg.IdsFree env.engine.refuses := by
  have hgraph := (compile_fields hcompile).2.2.1
  have hids : ∀ n, n ∈ topic.adapters.keys ↔ n ∈ cfg.nodeIds := fun n => mem_adapter_keys hgraph
  have hnames := graphDecl_names_perm env topic
  have hdistinct : builtinNames.Nodup := by decide
  have hunreserved : ∀ n ∈ builtinNames, n ∉ graphStateKeys := by decide
  constructor
  · rintro ⟨g, adapters, hbuild, hadapters, hnodes⟩
    rw [buildGraph_eq] at hbuild
    split at hbuild
    · next hcompiles =>
      cases hbuild
      -- every entry has a node, so the ids are among distinct names
      have hown : (graphDecl env topic topic.mapping).names.Perm (builtinNames ++ cfg.nodeIds) := by
        have hfst : (List.zipWith ownNode cfg.nodes adapters : List (PyStr × NodeFn σ)).map
            Prod.fst = cfg.nodeIds := by
          rw [List.map_zipWith, ← List.map_uncurry_zip_eq_zipWith, TopicFields.nodeIds]
          conv_rhs => rw [← List.map_fst_zip hadapters.length_eq.le, List.map_map]
          rfl
        have hperm := hnodes.map Prod.fst
        rw [List.map_append, hfst] at hperm
        exact hperm
      obtain ⟨-, hnodup, hdisjoint⟩ := List.nodup_append.mp
        (hown.nodup_iff.mp (env.engine.names_nodup hcompiles))
      have hdeclared : ∀ id ∈ cfg.nodeIds, id ∈ (graphDecl env topic topic.mapping).names :=
        fun id hid => hown.mem_iff.mpr (List.mem_append_right _ hid)
      exact ⟨hnodup, fun id hid hmem => hdisjoint id hmem id hid rfl,
        fun id hid => env.engine.names_free hcompiles id (hdeclared id hid),
        fun id hid => env.engine.names_allowed hcompiles id (hdeclared id hid)⟩
    · cases hbuild
  · intro hfree
    obtain ⟨adapters, hadapters, hown⟩ :=
      @adapterNodes_own σ topic c cfg envmap hcompile hfree.nodup
    have hbuild : buildGraph env topic = .ok (graphDecl env topic topic.mapping) := by
      rw [buildGraph_eq, if_pos]
      refine hengine _ (graphDecl_closed env topic) ?_ (fun n hn => ?_) fun n hn => ?_
      · rw [hnames.nodup_iff, List.nodup_append]
        refine ⟨hdistinct, topic.adapters.nodup, ?_⟩
        rintro n hn m hm rfl
        exact hfree.not_builtin n ((hids n).mp hm) hn
      · rcases mem_graphDecl_names.mp hn with hn | hn
        · exact hunreserved n hn
        · exact hfree.not_stateKey n ((hids n).mp hn)
      · rcases mem_graphDecl_names.mp hn with hn | hn
        · exact hbuiltin n hn
        · exact hfree.allowed n ((hids n).mp hn)
    refine ⟨_, adapters, hbuild, hadapters, ?_⟩
    rw [← hown]
    exact graphDecl_nodes env topic

-- ============================================================================
-- Ids that collide
-- ============================================================================

/-- The names that the engine keeps: its START and END, and those that hold one of
    its separators. -/
def keptName (name : PyStr) : Bool :=
  name == py "__start__" || name == py "__end__" || name.contains (codePoint ':') ||
    name.contains (codePoint '|')

/-- An engine that refuses graphs for their names only. -/
def namesEnv : Env Unit :=
  { plainEnv idleRepos fun w => (py "1", w) with engine := .byName _ _ _ _ _ _ _ keptName }

/-- Every entry of the topic with two labels has its node. -/
theorem serves_entries_iff_agreeing : ∃ topic,
    onePluginCompiler.compile agreeingConfig .empty = .ok topic ∧
      ServesEntries onePluginCompiler agreeingConfig .empty namesEnv topic := by
  have hcompile : onePluginCompiler.compile agreeingConfig .empty = .ok _ := rfl
  refine ⟨_, hcompile, (serves_entries_iff hcompile namesEnv Engine.byName_namesOnly
    (by decide)).mpr ?_⟩
  exact ⟨by decide, by decide, by decide, by decide⟩

/-- The topic with its nodes named as given. -/
def idsConfig (sales legal : AdapterNode) : TopicFields :=
  { twoLabels (py "sales") [⟨⟨[(py "sales", sales.id), (py "legal", legal.id)], by simp⟩⟩] with
    nodes := [sales, legal] }

/-- An entry whose id is a key of the state. -/
def historyConfig : TopicConfig where
  toTopicFields := idsConfig { id := py "history", adapter := py "p" }
    { id := py "legal_api", adapter := py "p" }
  topicId_ne_nil := by decide
  valid := by decide

/-- An entry whose id holds a separator of the engine. -/
def colonConfig : TopicConfig where
  toTopicFields := idsConfig { id := py "sales:api", adapter := py "p" }
    { id := py "legal_api", adapter := py "p" }
  topicId_ne_nil := by decide
  valid := by decide

/-- Three attempts. -/
def threeAttempts : RetryPolicy := ⟨3, 0, by omega, by omega, twice.backoffMs_le⟩

/-- Two entries with one id; the first one is retried. -/
def twiceConfig : TopicConfig where
  toTopicFields := idsConfig { id := py "api", adapter := py "p", retry := some threeAttempts }
    { id := py "api", adapter := py "p", params := [(py "base_url", .str (py "u"))] }
  topicId_ne_nil := by decide
  valid := by decide

/-- Under an id that the state or the engine keeps no graph is built. -/
theorem not_servesEntries_of_kept {c : TopicCompiler} {cfg : TopicConfig}
    {envmap : Dict PyStr PyStr} {topic : CompiledTopic} {id : PyStr} (hid : id ∈ topic.adapters.keys)
    (hkept : id ∈ graphStateKeys ∨ keptName id = true) :
    buildGraph namesEnv topic = .error .valueError ∧
      ¬ ServesEntries c cfg envmap namesEnv topic := by
  have hname := (@mem_graphDecl_names Unit namesEnv topic id).mpr (Or.inr hid)
  have hrefused : buildGraph namesEnv topic = .error .valueError := by
    rw [buildGraph_eq, if_neg]
    intro hcompiles
    rcases hkept with hstate | hengine
    · exact namesEnv.engine.names_free hcompiles id hname hstate
    · have hallowed := namesEnv.engine.names_allowed hcompiles id hname
      exact absurd (hengine.symm.trans hallowed) (by decide)
  refine ⟨hrefused, ?_⟩
  rintro ⟨g, adapters, hbuild, -⟩
  rw [hrefused] at hbuild
  cases hbuild

/-- With an id that is a key of the state, or that the engine refuses, no graph is
    built; of two entries with one id the first has no node, and its retry policy goes
    to the second. -/
theorem not_serves_entries :
    (∃ topic, onePluginCompiler.compile historyConfig .empty = .ok topic ∧
      buildGraph namesEnv topic = .error .valueError ∧
      ¬ ServesEntries onePluginCompiler historyConfig .empty namesEnv topic) ∧
    (∃ topic, onePluginCompiler.compile colonConfig .empty = .ok topic ∧
      buildGraph namesEnv topic = .error .valueError ∧
      ¬ ServesEntries onePluginCompiler colonConfig .empty namesEnv topic) ∧
    ∃ topic, onePluginCompiler.compile twiceConfig .empty = .ok topic ∧
      topic.adapters.keys = [py "api"] ∧
      topic.adapterRetries.get? (py "api") = some threeAttempts ∧
      ¬ ServesEntries onePluginCompiler twiceConfig .empty namesEnv topic := by
  refine ⟨?_, ?_, ?_⟩
  · obtain ⟨topic, hcompile, hkeys⟩ : ∃ topic,
        onePluginCompiler.compile historyConfig .empty = .ok topic ∧
          topic.adapters.keys = [py "history", py "legal_api"] := ⟨_, rfl, rfl⟩
    have hid : py "history" ∈ topic.adapters.keys := hkeys ▸ List.mem_cons_self
    exact ⟨topic, hcompile, not_servesEntries_of_kept hid (Or.inl (by decide))⟩
  · obtain ⟨topic, hcompile, hkeys⟩ : ∃ topic,
        onePluginCompiler.compile colonConfig .empty = .ok topic ∧
          topic.adapters.keys = [py "sales:api", py "legal_api"] := ⟨_, rfl, rfl⟩
    have hid : py "sales:api" ∈ topic.adapters.keys := hkeys ▸ List.mem_cons_self
    exact ⟨topic, hcompile, not_servesEntries_of_kept hid (Or.inr (by decide))⟩
  · obtain ⟨topic, hcompile, hkeys, hretry⟩ : ∃ topic,
        onePluginCompiler.compile twiceConfig .empty = .ok topic ∧
          topic.adapters.keys = [py "api"] ∧
          topic.adapterRetries.get? (py "api") = some threeAttempts := ⟨_, rfl, rfl, rfl⟩
    refine ⟨topic, hcompile, hkeys, hretry, ?_⟩
    rintro ⟨g, adapters, hbuild, hadapters, hnodes⟩
    rw [buildGraph_eq] at hbuild
    split at hbuild
    · cases hbuild
      have hlength := ((graphDecl_nodes namesEnv topic).symm.trans hnodes).length_eq
      have hone : topic.adapters.entries.length = 1 := by
        have := congrArg List.length hkeys
        rwa [Dict.keys, List.length_map] at this
      have htwo := hadapters.length_eq
      rw [List.length_append, List.length_append, List.length_map, hone, List.length_zipWith,
        ← htwo, Nat.min_self] at hlength
      exact absurd (Nat.add_left_cancel hlength) (by decide)
    · cases hbuild

end MasterAgent
