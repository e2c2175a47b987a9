/-
  MasterAgent.Core.Plugin.Registry

  The plugin registry (`ma/core/plugin/registry.py`) and the imports that fill it
  (`ma/core/plugin/bootstrap.py`).  The registry is one dictionary of classes by
  (kind, name), written once: the first class under a key keeps it.  The tables
  by kind that the topic compiler reads are views of it.
-/

import MasterAgent.Core.Topic.Compiler
import MasterAgent.Lib.WriteOnce

namespace MasterAgent

-- ============================================================================
-- Classes and their registry
-- ============================================================================

/-- A configured instance of a plugin class. -/
inductive PluginInstance where
  | auth (plugin : AuthPlugin)
  | enrich (plugin : EnrichPlugin)
  | intent (plugin : IntentPlugin)
  | adapter (plugin : DownstreamAdapter)

/-- A class handed to `register`: its name, its class attributes as `getattr` reads
    them with the default None, and its instance configured with `params`. -/
structure PluginCls where
  clsName : PyStr
  pluginKind : Json := .null
  name : Json := .null
  make : Params → Except Exn PluginInstance

/-- The key of a class whose attributes are both strings. -/
def PluginCls.key (cls : PluginCls) : Option (PyStr × PyStr) :=
  match cls.pluginKind, cls.name with
  | .str kind, .str name => some (kind, name)
  | _, _ => none

/-- `PluginRegistry._by_kind_name`. -/
structure PluginTable where
  byKindName : Dict (PyStr × PyStr) PluginCls

/-- What `register` raises: a `TypeError` that names the class, or a
    `PluginConflict` that names the key and both classes. -/
inductive RegisterError where
  | typeError (cls : PyStr)
  | conflict (kind name registered cls : PyStr)

namespace PluginTable

def empty : PluginTable := ⟨.empty⟩

/-- `register`. -/
def register (t : PluginTable) (cls : PluginCls) : Except RegisterError PluginTable :=
  match cls.key with
  | none => .error (.typeError cls.clsName)
  | some key => match t.byKindName.get? key with
      | some registered => .error (.conflict key.1 key.2 registered.clsName cls.clsName)
      | none => .ok ⟨t.byKindName.set key cls⟩

/-- `create`; `PluginNotFound` is a `KeyError`. -/
def create (t : PluginTable) (kind name : PyStr) (params : Params) : Except Exn PluginInstance :=
  match t.byKindName.get? (kind, name) with
  | none => .error .keyError
  | some cls => cls.make params

/-- One registration after another, whose callers live with what is raised. -/
def registrations : List PluginCls → PluginTable → List (Except RegisterError Unit) × PluginTable
  | [], t => ([], t)
  | cls :: rest, t => match t.register cls with
      | .error e => (.error e :: (registrations rest t).1, (registrations rest t).2)
      | .ok t' => (.ok () :: (registrations rest t').1, (registrations rest t').2)

end PluginTable

/-- The first of the classes with a key. -/
def firstUnder (key : PyStr × PyStr) (classes : List PluginCls) : Option PluginCls :=
  classes.find? fun cls => cls.key = some key

/-- What becomes of a registration after those of `earlier`. -/
def registrationOutcome (earlier : List PluginCls) (cls : PluginCls) : Except RegisterError Unit :=
  match cls.key with
  | none => .error (.typeError cls.clsName)
  | some key => match firstUnder key earlier with
      | some registered => .error (.conflict key.1 key.2 registered.clsName cls.clsName)
      | none => .ok ()

/-- The entries that the classes ask for. -/
def keyed (classes : List PluginCls) : List ((PyStr × PyStr) × PluginCls) :=
  classes.filterMap fun cls => cls.key.map fun key => (key, cls)

theorem find_keyed (key : PyStr × PyStr) (classes : List PluginCls) :
    Dict.find key (keyed classes) = firstUnder key classes := by
  induction classes with
  | nil => rfl
  | cons cls rest ih =>
      rw [keyed, List.filterMap_cons, firstUnder, List.find?_cons]
      cases hkey : cls.key with
      | none => exact ih
      | some key' =>
          by_cases hk : key' = key
          · simp [Dict.find, hk]
          · simp only [Option.map_some, Dict.find, Option.some.injEq, hk, decide_false]
            exact ih

namespace PluginTable

variable {t t' : PluginTable} {cls : PluginCls} {classes : List PluginCls}

/-- A registration is an entry under the key of the class. -/
theorem register_ok_iff : t.register cls = .ok t' ↔
    ∃ key, cls.key = some key ∧ t.byKindName.enter key cls = some t'.byKindName := by
  rw [register]
  cases hkey : cls.key with
  | none => simp
  | some key =>
      cases hget : t.byKindName.get? key with
      | some registered =>
          have htaken := Dict.enter_taken (v := cls) (Dict.mem_keys_of_get? hget)
          simp [hget, htaken]
      | none =>
          have hfree := Dict.enter_free (v := cls) (Dict.get?_eq_none.mp hget)
          obtain ⟨byKindName⟩ := t'
          simp [hget, hfree]

/-- A class that is refused leaves the table as it is. -/
theorem registrations_table :
    (registrations classes t).2.byKindName = Dict.offerAll (keyed classes) t.byKindName := by
  induction classes generalizing t with
  | nil => rfl
  | cons cls rest ih =>
      rw [registrations, keyed, List.filterMap_cons]
      cases hreg : t.register cls with
      | ok t₁ =>
          obtain ⟨key, hkey, henter⟩ := register_ok_iff.mp hreg
          simp only [hkey, Option.map_some, Dict.offerAll, henter, Option.getD_some]
          exact ih
      | error e =>
          cases hkey : cls.key with
          | none => exact ih
          | some key =>
              have hrefused : t.byKindName.enter key cls = none := by
                cases henter : t.byKindName.enter key cls with
                | none => rfl
                | some d =>
                    have hok := register_ok_iff.mpr (⟨key, hkey, henter⟩ :
                      ∃ key, cls.key = some key ∧
                        t.byKindName.enter key cls = some (PluginTable.mk d).byKindName)
                    rw [hreg] at hok
                    cases hok
              simp only [Option.map_some, Dict.offerAll, hrefused, Option.getD_none]
              exact ih

/-- What `register` answers where the classes `earlier` were registered. -/
theorem register_outcome {earlier : List PluginCls}
    (ht : ∀ key, t.byKindName.get? key = firstUnder key earlier) :
    (t.register cls).map (fun _ => ()) = registrationOutcome earlier cls := by
  rw [register, registrationOutcome]
  cases cls.key with
  | none => rfl
  | some key =>
      simp only [ht]
      cases firstUnder key earlier <;> rfl

theorem firstUnder_append (key : PyStr × PyStr) (earlier : List PluginCls) (cls : PluginCls) :
    firstUnder key (earlier ++ [cls]) =
      (firstUnder key earlier).or (if cls.key = some key then some cls else none) := by
  rw [firstUnder, List.find?_append, List.find?_singleton, firstUnder]
  simp only [decide_eq_true_eq]

/-- One registration more. -/
theorem get?_register {earlier : List PluginCls}
    (ht : ∀ key, t.byKindName.get? key = firstUnder key earlier) (key : PyStr × PyStr) :
    ((t.register cls).toOption.getD t).byKindName.get? key =
      firstUnder key (earlier ++ [cls]) := by
  rw [firstUnder_append, ← ht]
  have hruns := @registrations_table t [cls]
  have hone : (registrations [cls] t).2 = (t.register cls).toOption.getD t := by
    rw [registrations]
    cases t.register cls <;> rfl
  rw [← hone, hruns, Dict.get?_offerAll, find_keyed, firstUnder, List.find?_singleton]
  simp only [decide_eq_true_eq]

theorem registrations_outcomes {earlier : List PluginCls}
    (ht : ∀ key, t.byKindName.get? key = firstUnder key earlier) {i : Nat}
    (hcls : classes[i]? = some cls) :
    (registrations classes t).1[i]? =
      some (registrationOutcome (earlier ++ classes.take i) cls) := by
  induction classes generalizing t earlier i with
  | nil => cases hcls
  | cons first rest ih =>
      have hnext := @get?_register t first earlier ht
      have hanswer := @register_outcome t first earlier ht
      rw [registrations]
      cases i with
      | zero =>
          rw [List.getElem?_cons_zero, Option.some.injEq] at hcls
          rw [List.take_zero, List.append_nil, ← hcls, ← hanswer]
          cases t.register first <;> rfl
      | succ i =>
          rw [List.getElem?_cons_succ] at hcls
          rw [List.take_succ_cons, ← List.singleton_append, ← List.append_assoc]
          cases hreg : t.register first with
          | ok t₁ =>
              rw [hreg] at hnext
              exact ih hnext hcls
          | error e =>
              rw [hreg] at hnext
              exact ih hnext hcls

-- ============================================================================
-- The tables of the compiler
-- ============================================================================

/-- The classes of a kind, where `view` reads the contract of the kind off an
    instance.  A caller that finds another instance fails on its first method. -/
def ofKind {α : Type} (t : PluginTable) (kind : PyStr) (view : PluginInstance → Option α) :
    Dict PyStr (PluginClass α) where
  entries := t.byKindName.entries.filterMap fun e =>
    if e.1.1 = kind then
      some (e.1.2, fun params => e.2.make params >>= fun i =>
        (view i).elim (.error .attributeError) .ok)
    else none
  nodup := by
    have hkeys : ∀ es : List ((PyStr × PyStr) × PluginCls),
        (es.filterMap fun e => if e.1.1 = kind then
            some (e.1.2, fun params => e.2.make params >>= fun i =>
              (view i).elim (.error .attributeError) Except.ok)
          else none).map Prod.fst =
        (es.map Prod.fst).filterMap fun key => if key.1 = kind then some key.2 else none := by
      intro es
      rw [List.map_filterMap, List.filterMap_map]
      congr 1
      funext e
      show Option.map Prod.fst (if e.1.1 = kind then _ else none) = if e.1.1 = kind then _ else none
      split <;> rfl
    rw [hkeys]
    apply t.byKindName.nodup.filterMap
    intro key key' name hname hname'
    simp only [Option.mem_def, Option.ite_none_right_eq_some, Option.some.injEq] at hname hname'
    exact Prod.ext (hname.1.trans hname'.1.symm) (hname.2.trans hname'.2.symm)

def asAuth : PluginInstance → Option AuthPlugin
  | .auth plugin => some plugin
  | _ => none

def asEnrich : PluginInstance → Option EnrichPlugin
  | .enrich plugin => some plugin
  | _ => none

def asIntent : PluginInstance → Option IntentPlugin
  | .intent plugin => some plugin
  | _ => none

def asAdapter : PluginInstance → Option DownstreamAdapter
  | .adapter plugin => some plugin
  | _ => none

/-- The registry as the topic compiler reads it. -/
def byKind (t : PluginTable) : PluginRegistry where
  auth := t.ofKind (py "auth") asAuth
  enrich := t.ofKind (py "enrich") asEnrich
  intent := t.ofKind (py "intent") asIntent
  adapter := t.ofKind (py "adapter") asAdapter

theorem get?_ofKind {α : Type} (t : PluginTable) (kind name : PyStr)
    (view : PluginInstance → Option α) :
    (t.ofKind kind view).get? name = (t.byKindName.get? (kind, name)).map fun cls params =>
      cls.make params >>= fun i => (view i).elim (.error .attributeError) .ok := by
  obtain ⟨⟨es, hnodup⟩⟩ := t
  rw [Dict.get?, Dict.get?]
  show Dict.find name (es.filterMap _) = (Dict.find (kind, name) es).map _
  clear hnodup
  induction es with
  | nil => rfl
  | cons e es ih =>
      obtain ⟨⟨kind', name'⟩, cls⟩ := e
      rw [List.filterMap_cons, Dict.find]
      by_cases hkind : kind' = kind
      · subst hkind
        by_cases hname : name' = name
        · simp [hname, Dict.find]
        · have hne : ¬ (kind', name') = (kind', name) := fun h => hname (Prod.ext_iff.mp h).2
          simp only [if_true, Dict.find, if_neg hname, if_neg hne]
          exact ih
      · have hne : ¬ (kind', name') = (kind, name) := fun h => hkind (Prod.ext_iff.mp h).1
        simp only [hkind, if_false, if_neg hne]
        exact ih

/-- The compiler creates from its table of a kind what `create` creates, read as
    a plugin of the kind. -/
theorem createPlugin_ofKind {α : Type} (t : PluginTable) (kind name : PyStr)
    (view : PluginInstance → Option α) (params : Params) :
    createPlugin (t.ofKind kind view) name params =
      (t.create kind name params >>= fun i => (view i).elim (.error .attributeError) .ok) := by
  rw [createPlugin, get?_ofKind, create]
  cases t.byKindName.get? (kind, name) <;> rfl

/-- A plugin of a kind is created where the instance is of that kind. -/
theorem createPlugin_eq_ok {α : Type} {t : PluginTable} {kind name : PyStr}
    {view : PluginInstance → Option α} {params : Params} {plugin : α} :
    createPlugin (t.ofKind kind view) name params = .ok plugin ↔
      ∃ i, t.create kind name params = .ok i ∧ view i = some plugin := by
  rw [createPlugin_ofKind]
  cases t.create kind name params with
  | error e => simp [bind, Except.bind]
  | ok i => cases hview : view i <;> simp [bind, Except.bind, hview]

theorem create_of_first {t : PluginTable} {classes : List PluginCls}
    (ht : ∀ key, t.byKindName.get? key = firstUnder key classes) (kind name : PyStr)
    (params : Params) : t.create kind name params =
      match firstUnder (kind, name) classes with
      | none => .error .keyError
      | some cls => cls.make params := by
  rw [create, ht]

/-- The registry after any registrations holds the first class under each key. -/
theorem get?_registrations (classes : List PluginCls) (key : PyStr × PyStr) :
    (registrations classes empty).2.byKindName.get? key = firstUnder key classes := by
  rw [registrations_table, Dict.get?_offerAll, find_keyed]
  rfl

end PluginTable

open PluginTable in
/-- For every sequence of registrations: each is answered by what came before it,
    the first class under a key keeps it, and the compiler creates a plugin of a
    kind exactly where that class makes one. -/
theorem plugin_registry_first_wins (classes : List PluginCls) :
    let outcomes := (registrations classes empty).1
    let t := (registrations classes empty).2
    (∀ i cls, classes[i]? = some cls →
        outcomes[i]? = some (registrationOutcome (classes.take i) cls)) ∧
      (∀ kind name params, t.create kind name params =
        match firstUnder (kind, name) classes with
        | none => .error .keyError
        | some cls => cls.make params) ∧
      (∀ name params plugin, createPlugin t.byKind.auth name params = .ok plugin ↔
        ∃ cls, firstUnder (py "auth", name) classes = some cls ∧
          cls.make params = .ok (.auth plugin)) ∧
      (∀ name params plugin, createPlugin t.byKind.enrich name params = .ok plugin ↔
        ∃ cls, firstUnder (py "enrich", name) classes = some cls ∧
          cls.make params = .ok (.enrich plugin)) ∧
      (∀ name params plugin, createPlugin t.byKind.intent name params = .ok plugin ↔
        ∃ cls, firstUnder (py "intent", name) classes = some cls ∧
          cls.make params = .ok (.intent plugin)) ∧
      ∀ name params plugin, createPlugin t.byKind.adapter name params = .ok plugin ↔
        ∃ cls, firstUnder (py "adapter", name) classes = some cls ∧
          cls.make params = .ok (.adapter plugin) := by
  intro outcomes t
  have hcreate := create_of_first (get?_registrations classes)
  have hkind : ∀ {α : Type} {kind : PyStr} {view : PluginInstance → Option α}
      {wrap : α → PluginInstance}, (∀ i plugin, view i = some plugin ↔ i = wrap plugin) →
      ∀ name params plugin, createPlugin (t.ofKind kind view) name params = .ok plugin ↔
        ∃ cls, firstUnder (kind, name) classes = some cls ∧
          cls.make params = .ok (wrap plugin) := by
    intro α kind view wrap hview name params plugin
    have hexact : createPlugin (t.ofKind kind view) name params = .ok plugin ↔
        t.create kind name params = .ok (wrap plugin) := by
      rw [createPlugin_eq_ok]
      constructor
      · rintro ⟨i, hi, hplugin⟩
        rw [hi, (hview i plugin).mp hplugin]
      · intro hi
        exact ⟨wrap plugin, hi, (hview _ plugin).mpr rfl⟩
    rw [hexact, hcreate]
    cases firstUnder (kind, name) classes <;> simp
  refine ⟨fun i cls hcls => ?_, hcreate, hkind ?_, hkind ?_, hkind ?_, hkind ?_⟩
  · exact @registrations_outcomes empty cls classes [] (fun key => rfl) i hcls
  all_goals
    intro i plugin
    cases i <;> simp [asAuth, asEnrich, asIntent, asAdapter]

-- ============================================================================
-- load_all_plugins
-- ============================================================================

/-- A plugin module, with the class its import registers. -/
structure PluginModule where
  module : PyStr
  clsName : PyStr
  kind : PyStr
  name : PyStr

/-- The imports of `load_all_plugins`. -/
def pluginModules : List PluginModule :=
  [⟨py "ma.plugins.adapter.knowledge_center", py "KnowledgeCenterAdapter", py "adapter",
      py "knowledge_center"⟩,
    ⟨py "ma.plugins.adapter.metagc", py "MetaGCAdapter", py "adapter", py "metagc"⟩,
    ⟨py "ma.plugins.adapter.uniioc", py "UniiocAdapter", py "adapter", py "uniioc"⟩,
    ⟨py "ma.plugins.auth.jingying_auth", py "JingyingAuth", py "auth", py "jingying_auth"⟩,
    ⟨py "ma.plugins.auth.representative_auth", py "RepresentativeAuth", py "auth",
      py "representative_auth"⟩,
    ⟨py "ma.plugins.auth.sales_contract_auth", py "SalesContractAuth", py "auth",
      py "sales_contract_auth"⟩,
    ⟨py "ma.plugins.enrich.generic_enrich", py "GenericEnrich", py "enrich", py "generic_enrich"⟩,
    ⟨py "ma.plugins.intent.llm_classifier", py "LLMClassifier", py "intent", py "llm_classifier"⟩]

/-- What the classes of the modules make. -/
abbrev PluginCode : Type := PluginModule → Params → Except Exn PluginInstance

def PluginModule.key (m : PluginModule) : PyStr × PyStr := (m.kind, m.name)

def PluginModule.cls (m : PluginModule) (code : PluginCode) : PluginCls where
  clsName := m.clsName
  pluginKind := .str m.kind
  name := .str m.name
  make := code m

/-- The modules a process has imported, and its registry. -/
structure Imports where
  done : List PyStr
  table : PluginTable

/-- The import statements `modules`.  A module is run by its first import only; a
    class that is refused fails the import of its module. -/
def loadPlugins (code : PluginCode) :
    List PluginModule → Imports → Except RegisterError Unit × Imports
  | [], s => (.ok (), s)
  | m :: rest, s =>
      if m.module ∈ s.done then loadPlugins code rest s
      else match s.table.register (m.cls code) with
        | .error e => (.error e, s)
        | .ok table => loadPlugins code rest ⟨s.done ++ [m.module], table⟩

/-- `load_all_plugins`. -/
def loadAllPlugins (code : PluginCode) : Imports → Except RegisterError Unit × Imports :=
  loadPlugins code pluginModules

/-- The class of every module that was imported is in the registry. -/
def Imports.Kept (code : PluginCode) (s : Imports) : Prop :=
  ∀ m ∈ pluginModules, m.module ∈ s.done → s.table.byKindName.get? m.key = some (m.cls code)

section Load

variable {code : PluginCode} {modules : List PluginModule} {s : Imports}

theorem register_cls_iff {t t' : PluginTable} {m : PluginModule} :
    t.register (m.cls code) = .ok t' ↔
      t.byKindName.enter m.key (m.cls code) = some t'.byKindName := by
  rw [PluginTable.register_ok_iff]
  show (∃ key, some m.key = some key ∧ _) ↔ _
  simp

/-- Modules that are done are not run again. -/
theorem loadPlugins_done (h : ∀ m ∈ modules, m.module ∈ s.done) :
    loadPlugins code modules s = (.ok (), s) := by
  induction modules with
  | nil => rfl
  | cons m rest ih =>
      rw [loadPlugins, if_pos (h m List.mem_cons_self)]
      exact ih fun m' hm' => h m' (List.mem_cons_of_mem _ hm')

/-- What the imports keep: the classes and the modules that are there. -/
theorem loadPlugins_keeps :
    (∀ n ∈ s.done, n ∈ (loadPlugins code modules s).2.done) ∧
      ∀ key cls, s.table.byKindName.get? key = some cls →
        (loadPlugins code modules s).2.table.byKindName.get? key = some cls := by
  induction modules generalizing s with
  | nil => exact ⟨fun _ hn => hn, fun _ _ hcls => hcls⟩
  | cons m rest ih =>
      rw [loadPlugins]
      split
      · exact ih
      · cases hreg : s.table.register (m.cls code) with
        | error e => exact ⟨fun _ hn => hn, fun _ _ hcls => hcls⟩
        | ok table =>
            obtain ⟨hdone, hget⟩ := @ih ⟨s.done ++ [m.module], table⟩
            refine ⟨fun n hn => hdone n (List.mem_append_left _ hn), fun key cls hcls => ?_⟩
            apply hget key cls
            rw [Dict.get?_enter (register_cls_iff.mp hreg), hcls, Option.some_or]

/-- Imports that succeed leave every module done. -/
theorem loadPlugins_all (h : (loadPlugins code modules s).1 = .ok ()) :
    ∀ m ∈ modules, m.module ∈ (loadPlugins code modules s).2.done := by
  induction modules generalizing s with
  | nil => exact fun m hm => absurd hm List.not_mem_nil
  | cons m rest ih =>
      rw [loadPlugins] at h ⊢
      by_cases hm : m.module ∈ s.done
      · rw [if_pos hm] at h ⊢
        exact List.forall_mem_cons.mpr ⟨loadPlugins_keeps.1 _ hm, ih h⟩
      · rw [if_neg hm] at h ⊢
        cases hreg : s.table.register (m.cls code) with
        | error e =>
            rw [hreg] at h
            cases h
        | ok table =>
            rw [hreg] at h
            have hlast : m.module ∈ (Imports.mk (s.done ++ [m.module]) table).done :=
              List.mem_append_right _ (List.mem_singleton.mpr rfl)
            exact List.forall_mem_cons.mpr ⟨loadPlugins_keeps.1 _ hlast, ih h⟩

/-- The imports succeed exactly when the keys of the modules still to be run are free. -/
theorem loadPlugins_ok_iff (hnames : (modules.map PluginModule.module).Nodup)
    (hkeys : (modules.map PluginModule.key).Nodup) :
    (loadPlugins code modules s).1 = .ok () ↔
      ∀ m ∈ modules, m.module ∉ s.done → m.key ∉ s.table.byKindName.keys := by
  induction modules generalizing s with
  | nil => exact ⟨fun _ m hm => absurd hm List.not_mem_nil, fun _ => rfl⟩
  | cons m rest ih =>
      rw [List.map_cons, List.nodup_cons] at hnames hkeys
      rw [loadPlugins, List.forall_mem_cons]
      by_cases hm : m.module ∈ s.done
      · rw [if_pos hm, ih hnames.2 hkeys.2]
        simp [hm]
      · rw [if_neg hm]
        cases hreg : s.table.register (m.cls code) with
        | error e =>
            have htaken : m.key ∈ s.table.byKindName.keys := by
              by_contra hfree
              have hok := register_cls_iff.mpr (Dict.enter_free (v := m.cls code) hfree :
                _ = some (PluginTable.mk (s.table.byKindName.set m.key (m.cls code))).byKindName)
              rw [hreg] at hok
              cases hok
            simp [hm, htaken]
        | ok table =>
            have henter := register_cls_iff.mp hreg
            have hfree := (Dict.enter_eq_some.mp henter).1
            show (loadPlugins code rest ⟨s.done ++ [m.module], table⟩).1 = .ok () ↔ _
            rw [ih hnames.2 hkeys.2]
            have hrest : ∀ m' ∈ rest, (m'.module ∉ s.done ++ [m.module] →
                m'.key ∉ table.byKindName.keys) ↔
                  (m'.module ∉ s.done → m'.key ∉ s.table.byKindName.keys) := by
              intro m' hm'
              have hname : m'.module ≠ m.module := fun heq =>
                hnames.1 (heq ▸ List.mem_map_of_mem hm')
              have hkey : m'.key ≠ m.key := fun heq => hkeys.1 (heq ▸ List.mem_map_of_mem hm')
              rw [Dict.mem_keys_enter henter]
              simp [hname, hkey]
            constructor
            · intro h
              exact ⟨fun _ => hfree, fun m' hm' => (hrest m' hm').mp (h m' hm')⟩
            · intro h m' hm'
              exact (hrest m' hm').mpr (h.2 m' hm')

/-- The classes of the modules that are done stay in the registry. -/
theorem loadPlugins_kept (hmodules : modules ⊆ pluginModules) (h : s.Kept code) :
    (loadPlugins code modules s).2.Kept code := by
  induction modules generalizing s with
  | nil => exact h
  | cons m rest ih =>
      have hrest : rest ⊆ pluginModules := fun m' hm' => hmodules (List.mem_cons_of_mem _ hm')
      rw [loadPlugins]
      split
      · exact ih hrest h
      · cases hreg : s.table.register (m.cls code) with
        | error e => exact h
        | ok table =>
            apply ih hrest
            intro m' hm' hdone
            rw [Dict.get?_enter (register_cls_iff.mp hreg)]
            rcases List.mem_append.mp hdone with hdone | hdone
            · rw [h m' hm' hdone, Option.some_or]
            · have hsame : m' = m := by
                have hnames : (pluginModules.map PluginModule.module).Nodup := by decide
                exact List.inj_on_of_nodup_map hnames hm' (hmodules List.mem_cons_self)
                  (List.mem_singleton.mp hdone)
              have hnone : s.table.byKindName.get? m.key = none :=
                Dict.get?_eq_none.mpr (Dict.enter_eq_some.mp (register_cls_iff.mp hreg)).1
              rw [hsame, hnone, Option.none_or, if_pos rfl]

/-- What was registered stays through later registrations. -/
theorem get?_registrations_of_some {t : PluginTable} {key : PyStr × PyStr} {cls : PluginCls}
    (h : t.byKindName.get? key = some cls) (later : List PluginCls) :
    (PluginTable.registrations later t).2.byKindName.get? key = some cls := by
  rw [PluginTable.registrations_table, Dict.get?_offerAll, h, Option.some_or]

/-- For every code of the plugins and whatever was registered before: load_all_plugins
    succeeds exactly when nothing took the key of one of its classes.  Then each of
    its plugins is created by its own class, whatever is registered later, and
    loading again does nothing.  It never displaces a class that was there. -/
theorem load_all_plugins_ok_iff (code : PluginCode) (others : List PluginCls) :
    let r := loadAllPlugins code ⟨[], (PluginTable.registrations others .empty).2⟩
    (r.1 = .ok () ↔ ∀ m ∈ pluginModules, firstUnder m.key others = none) ∧
      (r.1 = .ok () → loadAllPlugins code r.2 = (.ok (), r.2) ∧
        ∀ later, ∀ m ∈ pluginModules, ∀ params,
          (PluginTable.registrations later r.2.table).2.create m.kind m.name params =
            code m params) ∧
      ∀ key cls, firstUnder key others = some cls →
        r.2.table.byKindName.get? key = some cls := by
  intro r
  have htable := PluginTable.get?_registrations others
  have hnames : (pluginModules.map PluginModule.module).Nodup := by decide
  have hkeys : (pluginModules.map PluginModule.key).Nodup := by decide
  refine ⟨?_, fun hok => ⟨?_, fun later m hm params => ?_⟩, fun key cls hcls => ?_⟩
  · rw [show (r.1 = .ok () ↔ _) from loadPlugins_ok_iff hnames hkeys]
    apply forall₂_congr
    intro m _
    rw [← htable m.key, Dict.get?_eq_none]
    exact ⟨fun h => h List.not_mem_nil, fun h _ => h⟩
  · exact loadPlugins_done (loadPlugins_all hok)
  · have hkept : r.2.Kept code := loadPlugins_kept (List.Subset.refl _) fun m _ hdone =>
      absurd hdone List.not_mem_nil
    have hget := get?_registrations_of_some (hkept m hm (loadPlugins_all hok m hm)) later
    rw [PluginTable.create, show (m.kind, m.name) = m.key from rfl, hget]
    rfl
  · exact loadPlugins_keeps.2 key cls (by rw [htable, hcls])

end Load

end MasterAgent
