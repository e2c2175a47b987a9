/-
  MasterAgent.Core.Topic.Compiler

  `TopicConfig` with the consistency its model validator checks
  (`ma/core/topic/config.py`), and `TopicCompiler`
  (`ma/core/topic/compiler.py`), which creates a topic's plugins and its
  biz_params model.
-/

import MasterAgent.Core.Topic.Registry

namespace MasterAgent

-- ============================================================================
-- Topic configurations
-- ============================================================================

/-- The `params` of a plugin reference. -/
abbrev Params : Type := List (PyStr × Json)

/-- A `PluginRef`. -/
structure PluginRef where
  plugin : PyStr
  params : Params := []

/-- An `IntentRef`. -/
structure IntentRef extends PluginRef where
  retry : Option RetryPolicy := none

/-- A `GraphNode` with the adapter it names. -/
structure AdapterNode extends GraphNode where
  adapter : PyStr
  params : Params := []

/-- The fields of a `TopicConfig`. -/
structure TopicFields where
  topicId : PyStr
  defaultRoute : PyStr
  history : HistoryPolicy
  auth : PluginRef
  enrich : PluginRef
  intent : IntentRef
  nodes : List AdapterNode
  edges : List ConditionalEdge
  bizParamsSchema : List (PyStr × Json)
  errorMessages : Dict PyStr PyStr

/-- `_REQUIRED_ERROR_CODES`. -/
def requiredErrorCodes : List PyStr :=
  [py "FORBIDDEN_TOPIC", py "FORBIDDEN_SCOPE", py "DOWNSTREAM_TIMEOUT", py "DOWNSTREAM_ERROR",
    py "INTERNAL"]

/-- Raise `ValueError` unless `b`. -/
def require (b : Bool) : Except Exn Unit := if b then .ok () else .error .valueError

@[simp] theorem require_eq_ok {b : Bool} {u : Unit} : require b = .ok u ↔ b = true := by
  cases b <;> simp [require]

namespace TopicFields

variable (f : TopicFields)

def nodeIds : List PyStr := f.nodes.map fun n => n.id

/-- The keys of all edges' mappings together. -/
def mappingKeys : List PyStr := f.edges.flatMap fun e => e.mapping.keys

/-- `set(intent.params["labels"])`, which a missing or null entry does not reach. -/
def labels : Except Exn (List Json) :=
  match Json.field (py "labels") f.intent.params with
  | none => .error .valueError
  | some .null => .error .valueError
  | some v => v.toSet

/-- Is the set of the labels the set of the mapping keys? -/
def sameKeys (labels : List Json) (keys : List PyStr) : Bool :=
  labels.all (fun v => keys.any fun k => v.isStr k) &&
    keys.all (fun k => labels.any fun v => v.isStr k)

/-- `_validate_consistency`. -/
def validateConsistency : Except Exn Unit := do
  require (requiredErrorCodes.all fun c => decide (c ∈ f.errorMessages.keys))
  require (!f.edges.isEmpty)
  require (f.edges.all fun e => e.mapping.entries.all fun m => decide (m.2 ∈ f.nodeIds))
  require (decide (f.defaultRoute ∈ f.mappingKeys) || decide (f.defaultRoute = py "default") ||
    decide (f.defaultRoute = py "reject"))
  let labels ← f.labels
  require (sameKeys labels f.mappingKeys)

/-- What the validator checks. -/
structure Consistent : Prop where
  errorCodes : ∀ c ∈ requiredErrorCodes, c ∈ f.errorMessages.keys
  edges_ne_nil : f.edges ≠ []
  mapping_nodes : ∀ e ∈ f.edges, ∀ entry ∈ e.mapping.entries, entry.2 ∈ f.nodeIds
  defaultRoute : f.defaultRoute ∈ f.mappingKeys ∨ f.defaultRoute = py "default" ∨
    f.defaultRoute = py "reject"
  /-- The labels are strings, the mapping keys and no others. -/
  labels : ∃ labels, f.labels = .ok labels ∧ (∀ v ∈ labels, ∃ k ∈ f.mappingKeys, v = .str k) ∧
    ∀ k ∈ f.mappingKeys, .str k ∈ labels

variable {f}

theorem sameKeys_iff {labels : List Json} {keys : List PyStr} :
    sameKeys labels keys = true ↔
      (∀ v ∈ labels, ∃ k ∈ keys, v = .str k) ∧ ∀ k ∈ keys, .str k ∈ labels := by
  simp only [sameKeys, Bool.and_eq_true, List.all_eq_true, List.any_eq_true, Json.isStr_eq_true,
    exists_eq_right]

/-- The validator accepts exactly the consistent configurations. -/
theorem validateConsistency_iff : f.validateConsistency = .ok () ↔ f.Consistent := by
  have hbind : ∀ {α : Type} {b : Bool} {k : Unit → Except Exn α} {a : α},
      (require b >>= k) = .ok a ↔ b = true ∧ k () = .ok a := by
    intro α b k a
    cases b <;> simp [require, bind, Except.bind]
  have hlabels : ∀ {k : List Json → Except Exn Unit},
      (f.labels >>= k) = .ok () ↔ ∃ labels, f.labels = .ok labels ∧ k labels = .ok () := by
    intro k
    cases f.labels <;> simp [bind, Except.bind]
  unfold validateConsistency
  simp only [hbind, hlabels, require_eq_ok, sameKeys_iff, List.all_eq_true, decide_eq_true_eq,
    Bool.or_eq_true, Bool.not_eq_true', List.isEmpty_eq_false_iff]
  constructor
  · rintro ⟨hcodes, hne, hnodes, hroute, hlab⟩
    exact ⟨hcodes, hne, hnodes, or_assoc.mp hroute, hlab⟩
  · rintro ⟨hcodes, hne, hnodes, hroute, hlab⟩
    exact ⟨hcodes, hne, hnodes, or_assoc.mpr hroute, hlab⟩

end TopicFields

/-- A `TopicConfig` that model validation accepts. -/
structure TopicConfig extends TopicFields where
  topicId_ne_nil : topicId ≠ []
  valid : toTopicFields.validateConsistency = .ok ()

namespace TopicConfig

variable (cfg : TopicConfig)

theorem consistent : cfg.Consistent := TopicFields.validateConsistency_iff.mp cfg.valid

theorem edges_ne_nil : cfg.edges ≠ [] := cfg.consistent.edges_ne_nil

/-- `config.graph`. -/
def graph : GraphSpec where
  nodes := cfg.nodes.map AdapterNode.toGraphNode
  edges := cfg.edges
  edges_ne_nil := cfg.edges_ne_nil
  mapping_nodes := by
    intro e he entry hentry
    rw [List.map_map]
    exact cfg.consistent.mapping_nodes e he entry hentry

/-- Is `r` one of `intent.params.labels`? -/
def IsLabel (r : PyStr) : Prop := ∃ labels, cfg.labels = .ok labels ∧ .str r ∈ labels

/-- The labels are the mapping keys. -/
theorem isLabel_iff {r : PyStr} : cfg.IsLabel r ↔ r ∈ cfg.mappingKeys := by
  obtain ⟨labels, hlabels, hsub, hsup⟩ := cfg.consistent.labels
  constructor
  · rintro ⟨labels', hlabels', hr⟩
    rw [hlabels, Except.ok.injEq] at hlabels'
    subst hlabels'
    obtain ⟨k, hk, heq⟩ := hsub _ hr
    rw [Json.str.injEq] at heq
    exact heq ▸ hk
  · intro hr
    exact ⟨labels, hlabels, hsup r hr⟩

end TopicConfig

-- ============================================================================
-- Environment placeholders
-- ============================================================================

/-- `[A-Z_]`. -/
def isEnvStart (c : CodePoint) : Bool := (0x41 ≤ c.val && c.val ≤ 0x5a) || c.val = 0x5f

/-- `[A-Z0-9_]`. -/
def isEnvChar (c : CodePoint) : Bool := isEnvStart c || (0x30 ≤ c.val && c.val ≤ 0x39)

/-- The name of the placeholder a text starts with: `\$\{env:([A-Z_][A-Z0-9_]*)\}`. -/
def placeholder (s : PyStr) : Option PyStr :=
  if (py "$\x7benv:").isPrefixOf s then
    let rest := s.drop 6
    let name := rest.takeWhile isEnvChar
    if name.head?.any isEnvStart && (py "\x7d").isPrefixOf (rest.drop name.length) then some name
    else none
  else none

/-- `_ENV_PLACEHOLDER.sub(_sub, value)`: from left to right, skipping the rest of
    a placeholder that has been replaced. -/
def substituteEnv (env : Dict PyStr PyStr) : (skip : Nat) → PyStr → Except Exn PyStr
  | _, [] => .ok []
  | skip + 1, _ :: rest => substituteEnv env skip rest
  | 0, c :: rest => match placeholder (c :: rest) with
      | none => (substituteEnv env 0 rest).map (c :: ·)
      | some name => match env.get? name with
          | none => .error .keyError
          | some v => (substituteEnv env (name.length + 6) rest).map (v ++ ·)

mutual

/-- `_resolve_env`. -/
def resolveEnv (env : Dict PyStr PyStr) : Json → Except Exn Json
  | .str s => (substituteEnv env 0 s).map .str
  | .obj fields => (resolveFields env fields).map .obj
  | .arr items => (resolveItems env items).map .arr
  | v => .ok v

def resolveFields (env : Dict PyStr PyStr) : List (PyStr × Json) → Except Exn (List (PyStr × Json))
  | [] => .ok []
  | (k, v) :: rest => do
      let v ← resolveEnv env v
      let rest ← resolveFields env rest
      return (k, v) :: rest

def resolveItems (env : Dict PyStr PyStr) : List Json → Except Exn (List Json)
  | [] => .ok []
  | v :: rest => do
      let v ← resolveEnv env v
      let rest ← resolveItems env rest
      return v :: rest

end

-- ============================================================================
-- The compiler
-- ============================================================================

/-- A registered plugin class: an instance configured with `params`. -/
abbrev PluginClass (α : Type) : Type := Params → Except Exn α

/-- `PluginRegistry`, by kind. -/
structure PluginRegistry where
  auth : Dict PyStr (PluginClass AuthPlugin)
  enrich : Dict PyStr (PluginClass EnrichPlugin)
  intent : Dict PyStr (PluginClass IntentPlugin)
  adapter : Dict PyStr (PluginClass DownstreamAdapter)

/-- `PluginRegistry.create`; `PluginNotFound` is a `KeyError`. -/
def createPlugin {α : Type} (classes : Dict PyStr (PluginClass α)) (name : PyStr)
    (params : Params) : Except Exn α :=
  match classes.get? name with
  | none => .error .keyError
  | some cls => cls params

/-- `TopicCompiler`, and the check `create_model` makes on the fields it is given. -/
structure TopicCompiler where
  registry : PluginRegistry
  createModel : Dict PyStr Bool → Except Exn Unit

/-- The fields of the biz_params model, property by property. -/
def compileProperties (required : List Json) :
    List (PyStr × Json) → Dict PyStr Bool → Except Exn (Dict PyStr Bool)
  | [], fields => .ok fields
  | (name, prop) :: rest, fields => do
      let propType ← prop.getD (py "type") (.str (py "string"))
      require (propType.isStr (py "string"))
      compileProperties required rest (fields.set name (required.any fun v => v.isStr name))

/-- `_compile_biz_params_schema`. -/
def TopicCompiler.compileBizParamsSchema (c : TopicCompiler) (schema : List (PyStr × Json)) :
    Except Exn BizParamsModel := do
  require ((Json.field (py "type") schema).any fun t => t.isStr (py "object"))
  let required ← ((Json.field (py "required") schema).getD (.arr [])).toSet
  let properties ← ((Json.field (py "properties") schema).getD (.obj [])).items
  let fields ← compileProperties required properties .empty
  c.createModel fields
  return ⟨fields⟩

/-- The adapter of each node, by its id. -/
def TopicCompiler.createAdapters (c : TopicCompiler) (env : Dict PyStr PyStr) :
    List AdapterNode → Dict PyStr DownstreamAdapter → Except Exn (Dict PyStr DownstreamAdapter)
  | [], adapters => .ok adapters
  | node :: rest, adapters => do
      let params ← resolveFields env node.params
      let adapter ← createPlugin c.registry.adapter node.adapter params
      c.createAdapters env rest (adapters.set node.id adapter)

/-- The retry policies of the nodes that have one. -/
def adapterRetries : List AdapterNode → Dict PyStr RetryPolicy → Dict PyStr RetryPolicy
  | [], retries => retries
  | node :: rest, retries => adapterRetries rest (match node.retry with
      | none => retries
      | some policy => retries.set node.id policy)

theorem createAdapters_keys {c : TopicCompiler} {env : Dict PyStr PyStr} {nodes : List AdapterNode}
    {adapters adapters' : Dict PyStr DownstreamAdapter}
    (h : c.createAdapters env nodes adapters = .ok adapters') (n : PyStr) :
    n ∈ adapters'.keys ↔ n ∈ nodes.map (fun node => node.id) ∨ n ∈ adapters.keys := by
  induction nodes generalizing adapters with
  | nil =>
      rw [TopicCompiler.createAdapters, Except.ok.injEq] at h
      rw [h]
      simp
  | cons node rest ih =>
      rw [TopicCompiler.createAdapters] at h
      obtain ⟨params, -, h⟩ := exists_of_bind_eq_ok h
      obtain ⟨adapter, -, h⟩ := exists_of_bind_eq_ok h
      rw [ih h, Dict.mem_keys_set, List.map_cons, List.mem_cons]
      constructor
      · rintro (hn | hn | hn)
        · exact Or.inl (Or.inr hn)
        · exact Or.inl (Or.inl hn)
        · exact Or.inr hn
      · rintro ((hn | hn) | hn)
        · exact Or.inr (Or.inl hn)
        · exact Or.inl hn
        · exact Or.inr (Or.inr hn)

/-- The adapters of a configuration: one for every declared node, and no others. -/
def TopicCompiler.adapters (c : TopicCompiler) (cfg : TopicConfig) (env : Dict PyStr PyStr) :
    Except Exn {d : Dict PyStr DownstreamAdapter //
      ∀ n, n ∈ d.keys ↔ n ∈ cfg.graph.nodes.map GraphNode.id} :=
  match h : c.createAdapters env cfg.nodes .empty with
  | .error e => .error e
  | .ok d => .ok ⟨d, fun n => by
      rw [createAdapters_keys h n, TopicConfig.graph, List.map_map]
      simp [Function.comp_def]⟩

theorem createAdapters_of_adapters {c : TopicCompiler} {cfg : TopicConfig}
    {env : Dict PyStr PyStr} {d : {d : Dict PyStr DownstreamAdapter //
      ∀ n, n ∈ d.keys ↔ n ∈ cfg.graph.nodes.map GraphNode.id}}
    (h : c.adapters cfg env = .ok d) : c.createAdapters env cfg.nodes .empty = .ok d.val := by
  unfold TopicCompiler.adapters at h
  split at h
  · cases h
  · next d' hd =>
    cases h
    exact hd

/-- `TopicCompiler.compile`. -/
def TopicCompiler.compile (c : TopicCompiler) (cfg : TopicConfig) (env : Dict PyStr PyStr) :
    Except Exn CompiledTopic := do
  let authParams ← resolveFields env cfg.auth.params
  let enrichParams ← resolveFields env cfg.enrich.params
  let intentParams ← resolveFields env cfg.intent.params
  let auth ← createPlugin c.registry.auth cfg.auth.plugin authParams
  let enrich ← createPlugin c.registry.enrich cfg.enrich.plugin enrichParams
  let intent ← createPlugin c.registry.intent cfg.intent.plugin intentParams
  let adapters ← c.adapters cfg env
  let bizParamsModel ← c.compileBizParamsSchema cfg.bizParamsSchema
  return {
    topicId := cfg.topicId
    defaultRoute := cfg.defaultRoute
    history := cfg.history
    auth := auth
    enrich := enrich
    intent := intent
    adapters := adapters.val
    bizParamsModel := bizParamsModel
    errorMessages := cfg.errorMessages
    graph := cfg.graph
    intentRetry := cfg.intent.retry
    adapterRetries := adapterRetries cfg.nodes .empty
    mem_adapters := adapters.property }

-- ============================================================================
-- Startup
-- ============================================================================

/-- `TopicRegistry.register`. -/
def TopicRegistry.register (r : TopicRegistry) (compiled : CompiledTopic) :
    Except Exn TopicRegistry :=
  if compiled.topicId ∈ r.byId.keys then .error .valueError
  else .ok ⟨r.byId.set compiled.topicId compiled⟩

/-- The loop over the topic files at startup (`ma/main.py`): each configuration is
    compiled and registered. -/
def TopicCompiler.loadTopics (c : TopicCompiler) (env : Dict PyStr PyStr) :
    List TopicConfig → TopicRegistry → Except Exn TopicRegistry
  | [], topics => .ok topics
  | cfg :: rest, topics => do
      let compiled ← c.compile cfg env
      let topics ← topics.register compiled
      c.loadTopics env rest topics

/-- What a compiled topic takes over from its configuration. -/
theorem compile_fields {c : TopicCompiler} {cfg : TopicConfig} {envmap : Dict PyStr PyStr}
    {topic : CompiledTopic} (h : c.compile cfg envmap = .ok topic) :
    topic.topicId = cfg.topicId ∧ topic.defaultRoute = cfg.defaultRoute ∧
      topic.graph = cfg.graph ∧ topic.intentRetry = cfg.intent.retry := by
  unfold TopicCompiler.compile at h
  iterate 8 obtain ⟨_, -, h⟩ := exists_of_bind_eq_ok h
  cases h
  exact ⟨rfl, rfl, rfl, rfl⟩

/-- Every key of the registry is the id of its topic, and not empty. -/
def TopicRegistry.Named (topics : TopicRegistry) : Prop :=
  ∀ bizId topic, topics.get bizId = some topic → topic.topicId = bizId ∧ bizId ≠ []

theorem TopicRegistry.Named.register {topics topics' : TopicRegistry} {compiled : CompiledTopic}
    (h : topics.Named) (hid : compiled.topicId ≠ [])
    (hreg : topics.register compiled = .ok topics') : topics'.Named := by
  unfold TopicRegistry.register at hreg
  split at hreg
  · cases hreg
  · cases hreg
    intro bizId topic htopic
    rw [TopicRegistry.get, Dict.get?_set] at htopic
    split at htopic
    · next heq =>
      cases htopic
      exact ⟨heq, heq ▸ hid⟩
    · exact h bizId topic htopic

/-- Startup registers every topic under its own, non-empty id. -/
theorem loadTopics_named {c : TopicCompiler} {env : Dict PyStr PyStr} {cfgs : List TopicConfig}
    {topics topics' : TopicRegistry} (h : topics.Named)
    (hload : c.loadTopics env cfgs topics = .ok topics') : topics'.Named := by
  induction cfgs generalizing topics with
  | nil =>
      cases hload
      exact h
  | cons cfg rest ih =>
      rw [TopicCompiler.loadTopics] at hload
      obtain ⟨compiled, hcompile, hload⟩ := exists_of_bind_eq_ok hload
      obtain ⟨topics₁, hreg, hload⟩ := exists_of_bind_eq_ok hload
      have hid : compiled.topicId ≠ [] := by
        rw [(compile_fields hcompile).1]
        exact cfg.topicId_ne_nil
      exact ih (h.register hid hreg) hload

end MasterAgent
