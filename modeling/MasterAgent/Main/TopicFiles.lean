/-
  MasterAgent.Main.TopicFiles

  The topic files that are loaded at startup (`lifespan` in `ma/main.py`).  They
  are read in the order of their names, and each is parsed, validated, compiled
  and registered; the first one that fails ends the startup.  What a started
  service finds under a biz_id does not depend on that order.
-/

import Mathlib.Data.List.Lex
import MasterAgent.Core.Plugin.Registry

namespace MasterAgent

/-- A file of the topics directory, and what reading it as UTF-8 gives. -/
structure TopicFile where
  name : PyStr
  text : Except Exn PyStr

/-- The topics directory, its files in the order the system lists them. -/
structure TopicsDir where
  files : List TopicFile
  nodup : (files.map TopicFile.name).Nodup

/-- What YAML and the field checks of the topic model make of a text. -/
abbrev TopicParser : Type := PyStr → Except Exn {f : TopicFields // f.topicId ≠ []}

/-- `TopicConfig.model_validate`, after the field checks. -/
def modelValidate (f : {f : TopicFields // f.topicId ≠ []}) : Except Exn TopicConfig :=
  match h : f.val.validateConsistency with
  | .error e => .error e
  | .ok () => .ok ⟨f.val, f.property, h⟩

section Loading

variable (parse : TopicParser) (c : TopicCompiler) (env : Dict PyStr PyStr)

/-- A file, up to its registration. -/
def compileFile (file : TopicFile) : Except Exn CompiledTopic := do
  let text ← file.text
  let fields ← parse text
  let cfg ← modelValidate fields
  c.compile cfg env

/-- The loop over the files. -/
def loadTopicFiles : List TopicFile → TopicRegistry → Except Exn TopicRegistry
  | [], topics => .ok topics
  | file :: rest, topics => do
      let compiled ← compileFile parse c env file
      let topics ← topics.register compiled
      loadTopicFiles rest topics

/-- `topics_dir.glob("*.yaml")`. -/
def TopicsDir.glob (dir : TopicsDir) : List TopicFile :=
  dir.files.filter fun file => (py ".yaml").isSuffixOf file.name

/-- `sorted(topics_dir.glob("*.yaml"))`. -/
def TopicsDir.sorted (dir : TopicsDir) : List TopicFile :=
  dir.glob.insertionSort fun a b => a.name ≤ b.name

/-- The registry the service is started with; a directory that is missing holds no
    topics. -/
def startTopics (dir : Option TopicsDir) : Except Exn TopicRegistry :=
  loadTopicFiles parse c env (dir.elim [] TopicsDir.sorted) ⟨.empty⟩

/-- The configurations of files that all pass validation. -/
inductive Configures : List TopicFile → List TopicConfig → Prop where
  | nil : Configures [] []
  | cons {file : TopicFile} {files : List TopicFile} {text : PyStr}
      {fields : {f : TopicFields // f.topicId ≠ []}} {cfg : TopicConfig} {cfgs : List TopicConfig}
      (htext : file.text = .ok text) (hparse : parse text = .ok fields)
      (hvalid : modelValidate fields = .ok cfg) (hrest : Configures files cfgs) :
      Configures (file :: files) (cfg :: cfgs)

end Loading

/-- `TopicRegistry.ids`. -/
def TopicRegistry.ids (r : TopicRegistry) : List PyStr := r.byId.keys.insertionSort (· ≤ ·)

section Spec

variable {parse : TopicParser} {c : TopicCompiler} {env : Dict PyStr PyStr}
  {files : List TopicFile} {topics topics' : TopicRegistry}

/-- Files that pass validation are loaded as their configurations. -/
theorem loadTopicFiles_configured {cfgs : List TopicConfig} (h : Configures parse files cfgs)
    (topics : TopicRegistry) :
    loadTopicFiles parse c env files topics = c.loadTopics env cfgs topics := by
  induction h generalizing topics with
  | nil => rfl
  | cons htext hparse hvalid _ ih =>
      rw [loadTopicFiles, compileFile, htext, TopicCompiler.loadTopics]
      show (parse _ >>= _) >>= _ = _
      rw [hparse]
      show (modelValidate _ >>= _) >>= _ = _
      rw [hvalid]
      simp only [ih]
      rfl

/-- Files that are loaded pass validation. -/
theorem exists_configures (h : loadTopicFiles parse c env files topics = .ok topics') :
    ∃ cfgs, Configures parse files cfgs ∧ c.loadTopics env cfgs topics = .ok topics' := by
  have hcfgs : ∃ cfgs, Configures parse files cfgs := by
    induction files generalizing topics with
    | nil => exact ⟨[], .nil⟩
    | cons file rest ih =>
        obtain ⟨topic, htopic, h⟩ := exists_of_bind_eq_ok h
        obtain ⟨topics₁, -, h⟩ := exists_of_bind_eq_ok h
        obtain ⟨cfgs, hcfgs⟩ := ih h
        obtain ⟨text, htext, htopic⟩ := exists_of_bind_eq_ok htopic
        obtain ⟨fields, hparse, htopic⟩ := exists_of_bind_eq_ok htopic
        obtain ⟨cfg, hvalid, -⟩ := exists_of_bind_eq_ok htopic
        exact ⟨cfg :: cfgs, .cons htext hparse hvalid hcfgs⟩
  obtain ⟨cfgs, hcfgs⟩ := hcfgs
  exact ⟨cfgs, hcfgs, by rw [← loadTopicFiles_configured hcfgs, h]⟩

/-- Registration is an entry under the id of the topic. -/
theorem TopicRegistry.register_ok_iff {compiled : CompiledTopic} :
    topics.register compiled = .ok topics' ↔
      topics.byId.enter compiled.topicId compiled = some topics'.byId := by
  rw [TopicRegistry.register, Dict.enter]
  obtain ⟨byId⟩ := topics'
  split <;> simp

/-- The entry of a compiled topic. -/
def CompiledTopic.entry (topic : CompiledTopic) : PyStr × CompiledTopic := (topic.topicId, topic)

/-- The loop gets through when every file compiles and the topics can be entered. -/
theorem loadTopicFiles_ok_iff : loadTopicFiles parse c env files topics = .ok topics' ↔
    ∃ compiled, List.Forall₂ (fun file topic => compileFile parse c env file = .ok topic)
        files compiled ∧
      Dict.enterAll (compiled.map CompiledTopic.entry) topics.byId = some topics'.byId := by
  induction files generalizing topics with
  | nil =>
      obtain ⟨byId⟩ := topics
      obtain ⟨byId'⟩ := topics'
      simp [loadTopicFiles, Dict.enterAll]
  | cons file rest ih =>
      constructor
      · intro h
        obtain ⟨topic, htopic, h⟩ := exists_of_bind_eq_ok h
        obtain ⟨topics₁, hreg, h⟩ := exists_of_bind_eq_ok h
        obtain ⟨compiled, hall, henter⟩ := ih.mp h
        refine ⟨topic :: compiled, hall.cons htopic, ?_⟩
        show (topics.byId.enter topic.topicId topic).bind _ = _
        rw [TopicRegistry.register_ok_iff.mp hreg]
        exact henter
      · rintro ⟨compiled, hall, henter⟩
        cases hall with
        | cons htopic hall =>
            rename_i topic compiled
            have hbind : (topics.byId.enter topic.topicId topic).bind
                (Dict.enterAll (compiled.map CompiledTopic.entry)) = some topics'.byId := henter
            obtain ⟨byId, hone, hrest⟩ := Option.bind_eq_some_iff.mp hbind
            have hreg : topics.register topic = .ok ⟨byId⟩ :=
              TopicRegistry.register_ok_iff.mpr hone
            rw [loadTopicFiles, htopic]
            show topics.register topic >>= _ = _
            rw [hreg]
            exact ih.mpr ⟨compiled, hall, hrest⟩

/-- Every file compiles, and no two to the same topic. -/
structure Loadable (parse : TopicParser) (c : TopicCompiler) (env : Dict PyStr PyStr)
    (files : List TopicFile) : Prop where
  compiles : ∀ file ∈ files, ∃ topic, compileFile parse c env file = .ok topic
  apart : files.Pairwise fun file file' => ∀ topic topic',
    compileFile parse c env file = .ok topic → compileFile parse c env file' = .ok topic' →
      topic.topicId ≠ topic'.topicId

/-- The topics of files that compile. -/
theorem exists_compiled (h : ∀ file ∈ files, ∃ topic, compileFile parse c env file = .ok topic) :
    ∃ compiled, List.Forall₂ (fun file topic => compileFile parse c env file = .ok topic)
      files compiled := by
  induction files with
  | nil => exact ⟨[], .nil⟩
  | cons file rest ih =>
      rw [List.forall_mem_cons] at h
      obtain ⟨topic, htopic⟩ := h.1
      obtain ⟨compiled, hall⟩ := ih h.2
      exact ⟨topic :: compiled, hall.cons htopic⟩

/-- The topics that are compiled are those of the files. -/
theorem mem_compiled {compiled : List CompiledTopic}
    (h : List.Forall₂ (fun file topic => compileFile parse c env file = .ok topic)
      files compiled) {topic : CompiledTopic} :
    topic ∈ compiled ↔ ∃ file ∈ files, compileFile parse c env file = .ok topic := by
  induction h with
  | nil => simp
  | @cons file first files compiled hfile _ ih =>
      rw [List.mem_cons, ih, List.exists_mem_cons_iff, hfile, Except.ok.injEq, eq_comm]

/-- Their ids are distinct when no two files compile to the same one. -/
theorem apart_iff {compiled : List CompiledTopic}
    (h : List.Forall₂ (fun file topic => compileFile parse c env file = .ok topic)
      files compiled) :
    ((compiled.map CompiledTopic.entry).map Prod.fst).Nodup ↔
      files.Pairwise fun file file' => ∀ topic topic',
        compileFile parse c env file = .ok topic → compileFile parse c env file' = .ok topic' →
          topic.topicId ≠ topic'.topicId := by
  rw [List.map_map, List.Nodup, List.pairwise_map]
  induction h with
  | nil => simp
  | @cons file topic files compiled hfile hall ih =>
      rw [List.pairwise_cons, List.pairwise_cons, ih]
      apply and_congr_left'
      constructor
      · intro h file' hfile' topic₁ topic' htopic htopic'
        rw [hfile, Except.ok.injEq] at htopic
        exact htopic ▸ h topic' ((mem_compiled hall).mpr ⟨file', hfile', htopic'⟩)
      · intro h topic' htopic'
        obtain ⟨file', hfile', hcompile⟩ := (mem_compiled hall).mp htopic'
        exact h file' hfile' topic topic' hfile hcompile

/-- The loop from an empty registry. -/
theorem loadTopicFiles_empty_iff :
    (∃ topics, loadTopicFiles parse c env files ⟨.empty⟩ = .ok topics) ↔
      Loadable parse c env files := by
  constructor
  · rintro ⟨topics, h⟩
    obtain ⟨compiled, hall, henter⟩ := loadTopicFiles_ok_iff.mp h
    have hnodup := (Dict.enterAll_ok_iff.mp ⟨_, henter⟩).1
    refine ⟨fun file hfile => ?_, (apart_iff hall).mp hnodup⟩
    clear henter hnodup h
    induction hall with
    | nil => exact absurd hfile List.not_mem_nil
    | cons hfirst _ ih =>
        rcases List.mem_cons.mp hfile with rfl | hfile
        · exact ⟨_, hfirst⟩
        · exact ih hfile
  · rintro ⟨hcompiles, hapart⟩
    obtain ⟨compiled, hall⟩ := exists_compiled hcompiles
    have hfree : ∀ k ∈ (compiled.map CompiledTopic.entry).map Prod.fst,
        k ∉ (Dict.empty : Dict PyStr CompiledTopic).keys := fun k _ => List.not_mem_nil
    obtain ⟨byId, henter⟩ := Dict.enterAll_ok_iff.mpr ⟨(apart_iff hall).mpr hapart, hfree⟩
    exact ⟨⟨byId⟩, loadTopicFiles_ok_iff.mpr ⟨compiled, hall, henter⟩⟩

/-- What is found in a registry that was loaded. -/
theorem get_loadTopicFiles (h : loadTopicFiles parse c env files ⟨.empty⟩ = .ok topics)
    (bizId : PyStr) (topic : CompiledTopic) : topics.get bizId = some topic ↔
      ∃ file ∈ files, compileFile parse c env file = .ok topic ∧ topic.topicId = bizId := by
  obtain ⟨compiled, hall, henter⟩ := loadTopicFiles_ok_iff.mp h
  have hentries : topics.byId.entries = compiled.map CompiledTopic.entry :=
    (Dict.entries_enterAll henter).trans (List.nil_append _)
  have hget : topics.get bizId = some topic ↔ (bizId, topic) ∈ topics.byId.entries :=
    ⟨Dict.mem_of_find, Dict.get?_of_mem⟩
  rw [hget, hentries, List.mem_map]
  constructor
  · rintro ⟨topic', htopic', heq⟩
    obtain ⟨rfl, rfl⟩ := Prod.ext_iff.mp heq
    obtain ⟨file, hfile, hcompile⟩ := (mem_compiled hall).mp htopic'
    exact ⟨file, hfile, hcompile, rfl⟩
  · rintro ⟨file, hfile, hcompile, rfl⟩
    exact ⟨topic, (mem_compiled hall).mpr ⟨file, hfile, hcompile⟩, rfl⟩

/-- A topic that was compiled has an id. -/
theorem compileFile_named {file : TopicFile} {topic : CompiledTopic}
    (h : compileFile parse c env file = .ok topic) : topic.topicId ≠ [] := by
  obtain ⟨text, -, h⟩ := exists_of_bind_eq_ok h
  obtain ⟨fields, -, h⟩ := exists_of_bind_eq_ok h
  obtain ⟨cfg, -, h⟩ := exists_of_bind_eq_ok h
  rw [(compile_fields h).1]
  exact cfg.topicId_ne_nil

/-- Loadable in one order, loadable in any. -/
theorem Loadable.perm {files' : List TopicFile} (h : Loadable parse c env files)
    (hperm : files.Perm files') : Loadable parse c env files' where
  compiles := fun file hfile => h.compiles file (hperm.mem_iff.mpr hfile)
  apart := by
    refine hperm.pairwise h.apart fun {file file'} hapart topic topic' htopic htopic' heq => ?_
    exact hapart topic' topic htopic' htopic heq.symm

end Spec

-- ============================================================================
-- The directory
-- ============================================================================

theorem TopicsDir.perm_sorted (dir : TopicsDir) : dir.sorted.Perm dir.glob :=
  List.perm_insertionSort _ _

theorem TopicsDir.glob_nodup (dir : TopicsDir) : (dir.glob.map TopicFile.name).Nodup :=
  dir.nodup.sublist (List.filter_sublist.map _)

/-- However the system lists the directory, its files are loaded in one order. -/
theorem TopicsDir.sorted_congr {dir dir' : TopicsDir} (h : dir.files.Perm dir'.files) :
    dir.sorted = dir'.sorted := by
  have hglob : dir.glob.Perm dir'.glob := h.filter _
  have hsorted : dir.sorted.Perm dir'.sorted :=
    dir.perm_sorted.trans (hglob.trans dir'.perm_sorted.symm)
  have hpair : ∀ d : TopicsDir, d.sorted.Pairwise fun a b => a.name ≤ b.name := fun d =>
    List.pairwise_insertionSort _ _
  refine hsorted.eq_of_pairwise (fun a b ha hb hab hba => ?_) (hpair dir) (hpair dir')
  have hname : a.name = b.name := le_antisymm hab hba
  exact List.inj_on_of_nodup_map dir.glob_nodup (dir.perm_sorted.mem_iff.mp ha)
    (dir.perm_sorted.mem_iff.mp (hsorted.mem_iff.mpr hb)) hname

theorem TopicRegistry.mem_ids {r : TopicRegistry} {bizId : PyStr} :
    bizId ∈ r.ids ↔ ∃ topic, r.get bizId = some topic := by
  rw [TopicRegistry.ids, List.mem_insertionSort]
  exact ⟨Dict.exists_get?, fun ⟨_, htopic⟩ => Dict.mem_keys_of_get? htopic⟩

theorem TopicRegistry.ids_sorted (r : TopicRegistry) : r.ids.Pairwise (· < ·) := by
  have hle : r.ids.Pairwise (· ≤ ·) := List.pairwise_insertionSort _ _
  have hnodup : r.ids.Nodup := (List.perm_insertionSort _ _).nodup_iff.mpr r.byId.nodup
  exact (hle.and hnodup).imp fun h => lt_of_le_of_ne h.1 h.2

/-- For every parser, compiler, environment and directory: the startup gets
    through its topic files exactly when each of them compiles and no two have one
    topic id.  Then its registry is the one of their configurations, the topic
    found under a biz_id is that of the file that says so, none is found under the
    empty one, and the ids come sorted.  Neither a failure nor the registry
    depends on how the directory is listed. -/
theorem startTopics_spec (parse : TopicParser) (c : TopicCompiler) (env : Dict PyStr PyStr)
    (dir : Option TopicsDir) :
    let files := dir.elim [] TopicsDir.glob
    ((∃ topics, startTopics parse c env dir = .ok topics) ↔ Loadable parse c env files) ∧
      (∀ topics, startTopics parse c env dir = .ok topics →
        (∃ cfgs, Configures parse (dir.elim [] TopicsDir.sorted) cfgs ∧
          c.loadTopics env cfgs ⟨.empty⟩ = .ok topics) ∧
        (∀ bizId topic, topics.get bizId = some topic ↔
          ∃ file ∈ files, compileFile parse c env file = .ok topic ∧ topic.topicId = bizId) ∧
        topics.get [] = none ∧ topics.ids.Pairwise (· < ·) ∧
        ∀ bizId, bizId ∈ topics.ids ↔ ∃ file ∈ files, ∃ topic,
          compileFile parse c env file = .ok topic ∧ topic.topicId = bizId) ∧
      ∀ d d' : TopicsDir, d.files.Perm d'.files →
        startTopics parse c env (some d) = startTopics parse c env (some d') := by
  intro files
  have hperm : (dir.elim [] TopicsDir.sorted).Perm files := by
    cases dir with
    | none => exact List.Perm.refl _
    | some d => exact d.perm_sorted
  refine ⟨?_, fun topics h => ?_, fun d d' h => ?_⟩
  · rw [startTopics, loadTopicFiles_empty_iff]
    exact ⟨fun h => h.perm hperm, fun h => h.perm hperm.symm⟩
  · have hget : ∀ bizId topic, topics.get bizId = some topic ↔
        ∃ file ∈ files, compileFile parse c env file = .ok topic ∧ topic.topicId = bizId := by
      intro bizId topic
      rw [get_loadTopicFiles h]
      simp only [hperm.mem_iff]
    refine ⟨exists_configures h, hget, ?_, topics.ids_sorted, fun bizId => ?_⟩
    · cases hnone : topics.get [] with
      | none => rfl
      | some topic =>
          obtain ⟨file, -, hcompile, hid⟩ := (hget [] topic).mp hnone
          exact absurd hid (compileFile_named hcompile)
    · rw [TopicRegistry.mem_ids]
      simp only [hget]
      exact ⟨fun ⟨topic, file, hfile, h⟩ => ⟨file, hfile, topic, h⟩,
        fun ⟨file, hfile, topic, h⟩ => ⟨topic, file, hfile, h⟩⟩
  · show loadTopicFiles parse c env d.sorted _ = loadTopicFiles parse c env d'.sorted _
    rw [TopicsDir.sorted_congr h]

end MasterAgent
