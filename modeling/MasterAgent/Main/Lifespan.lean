/-
  MasterAgent.Main.Lifespan

  From startup to shutdown: `lifespan` (`ma/main.py`) with the connection pools
  (`ma/infra/db.py`) and the readiness probe (`ma/api/health.py`).  The startup
  opens the pools, loads the plugins, compiles the topics and wires the
  services; only then is the process ready.  No step undoes an earlier one when
  it fails, and nothing is closed when serving ends with an exception.
-/

import MasterAgent.Core.Repo.Factory
import MasterAgent.Lib.Guarded
import MasterAgent.Lib.TraceLang
import MasterAgent.Main.TopicFiles

namespace MasterAgent

open Effect

variable {σ : Type}

-- ============================================================================
-- The process
-- ============================================================================

/-- What `lifespan` and `create_pools` use of the settings. -/
structure Settings where
  pgDsnRw : Option PyStr
  pgDsnRo : Option PyStr
  pgPoolMin : Int := 4
  pgPoolMax : Int := 32

/-- A pool, by its number. -/
abbrev Pool : Type := Nat

/-- The database driver, and the server that serves until it is told to stop. -/
structure Host (σ : Type) where
  createPool : (dsn : PyStr) → (minSize maxSize : Int) → σ → Except Exn Pool × σ
  close : Pool → σ → Except Exn Unit × σ
  serve : σ → Except Exn Unit × σ

inductive RepoCls where
  | sessionRepository
  | messageRepository

/-- A `_RepoFactory`. -/
structure RepoFactory where
  pool : Pool
  repoCls : RepoCls

/-- The arguments `ChatService` is built with. -/
structure WiredService where
  topicRegistry : TopicRegistry
  sessionRepoFactory : RepoFactory
  messageRepoFactory : RepoFactory

/-- `app.state`; an attribute is `none` until it is set, and may be set to None. -/
structure AppState where
  pgPoolRw : Option (Option Pool) := none
  pgPoolRo : Option (Option Pool) := none
  topicRegistry : Option TopicRegistry := none
  chatService : Option (Option WiredService) := none
  sessionRepoFactory : Option (Option RepoFactory) := none
  messageRepoFactory : Option (Option RepoFactory) := none

/-- A process: the world outside, the flag of the readiness probe, `app.state`,
    and what has been imported. -/
structure Process (σ : Type) where
  outside : σ
  ready : Bool
  app : AppState
  imports : Imports

/-- What the lifespan does, for those who look on. -/
inductive BootAct where
  | createPool (dsn : PyStr) (made : Option Pool)
  | close (pool : Pool) (closed : Bool)
  | assign
  | loadPlugins
  | compileTopics
  | markReady
  | markNotReady
  | serve (returned : Bool)

inductive StartupError where
  | raised (e : Exn)
  | register (e : RegisterError)

abbrev Boot (σ α : Type) : Type := Eff (Process σ) StartupError BootAct α

/-- What a deployment starts with. -/
structure Startup where
  settings : Settings
  code : PluginCode
  parse : TopicParser
  createModel : Dict PyStr Bool → Except Exn Unit
  environ : Dict PyStr PyStr
  topicsDir : Option TopicsDir

-- ============================================================================
-- Probes
-- ============================================================================

/-- `healthz`: the status code and the body. -/
def healthz (_ : Process σ) : Nat × Json :=
  (200, .obj [(py "status", .str (py "alive"))])

/-- `readyz`. -/
def readyz (p : Process σ) : Nat × Json :=
  if p.ready then (200, .obj [(py "status", .str (py "ready"))])
  else (503, .obj [(py "status", .str (py "not_ready"))])

theorem readyz_ok_iff {p : Process σ} : (readyz p).1 = 200 ↔ p.ready = true := by
  unfold readyz
  split <;> simp_all

-- ============================================================================
-- Statements
-- ============================================================================

/-- Ask the host. -/
def onHost {α : Type} (f : σ → Except Exn α × σ) (t : Option α → BootAct) : Boot σ α :=
  Eff.call (fun p => ((f p.outside).1.mapError .raised, { p with outside := (f p.outside).2 }))
    fun r => t r.toOption

/-- Assign attributes of `app.state`. -/
def assign (f : AppState → AppState) : Boot σ Unit :=
  Eff.call (fun p => (.ok (), { p with app := f p.app })) fun _ => .assign

/-- Read an attribute of `app.state`. -/
def getAttr {α : Type} (get : AppState → Option α) : Boot σ α := do
  let value ← Eff.draw fun p => (get p.app, p)
  Eff.ofExcept (value.elim (.error (.raised .attributeError)) .ok)

/-- `mark_ready`. -/
def markReady : Boot σ Unit :=
  Eff.call (fun p => (.ok (), { p with ready := true })) fun _ => .markReady

/-- `mark_not_ready`. -/
def markNotReady : Boot σ Unit :=
  Eff.call (fun p => (.ok (), { p with ready := false })) fun _ => .markNotReady

section Program

variable (host : Host σ) (b : Startup)

/-- `asyncpg.create_pool` with the sizes of the settings. -/
def createPool (dsn : PyStr) : Boot σ Pool :=
  onHost (host.createPool dsn b.settings.pgPoolMin b.settings.pgPoolMax) (.createPool dsn)

/-- `create_pools`. -/
def createPools : Boot σ (Pool × Option Pool) :=
  match b.settings.pgDsnRw with
  | none => .raise (.raised (.other
      (py "MA_PG_DSN_RW is required to start the service; cannot create DB pool")))
  | some dsn => do
      let poolRw ← createPool host b dsn
      match b.settings.pgDsnRo with
      | none => return (poolRw, none)
      | some dsnRo => do
          let poolRo ← createPool host b dsnRo
          return (poolRw, some poolRo)

def closePool (pool : Pool) : Boot σ Unit :=
  onHost (host.close pool) fun closed => .close pool closed.isSome

/-- `close_pools`. -/
def closePools (poolRw : Pool) (poolRo : Option Pool) : Boot σ Unit := do
  closePool host poolRw
  match poolRo with
  | none => return ()
  | some pool => closePool host pool

/-- Step 4: the pools, where there is a DSN. -/
def connect : Boot σ Unit :=
  match b.settings.pgDsnRw with
  | none => assign fun app => { app with pgPoolRw := some none, pgPoolRo := some none }
  | some _ => do
      let pools ← createPools host b
      assign fun app => { app with pgPoolRw := some (some pools.1), pgPoolRo := some pools.2 }

/-- Step 5: `load_all_plugins`. -/
def importPlugins : Boot σ Unit :=
  Eff.call (fun p => ((loadAllPlugins b.code p.imports).1.mapError .register,
    { p with imports := (loadAllPlugins b.code p.imports).2 })) fun _ => .loadPlugins

/-- The topics, compiled with the plugins that are registered. -/
def Startup.topics (imports : Imports) : Except Exn TopicRegistry :=
  startTopics b.parse ⟨imports.table.byKind, b.createModel⟩ b.environ b.topicsDir

/-- Step 6: the topic files. -/
def compileTopics : Boot σ TopicRegistry :=
  Eff.call (fun p => ((b.topics p.imports).mapError .raised, p)) fun _ => .compileTopics

/-- Step 7: the chat service on a pool, if there is one. -/
def wireService (topics : TopicRegistry) : Boot σ Unit := do
  let poolRw ← getAttr AppState.pgPoolRw
  match poolRw with
  | some pool => assign fun app => { app with chatService := some (some
      ⟨topics, ⟨pool, .sessionRepository⟩, ⟨pool, .messageRepository⟩⟩) }
  | none => assign fun app => { app with chatService := some none }

/-- The factories of the history endpoints. -/
def wireFactories : Boot σ Unit := do
  let poolRw ← getAttr AppState.pgPoolRw
  match poolRw with
  | some pool => assign fun app => { app with
      sessionRepoFactory := some (some ⟨pool, .sessionRepository⟩)
      messageRepoFactory := some (some ⟨pool, .messageRepository⟩) }
  | none => assign fun app => { app with
      sessionRepoFactory := some none, messageRepoFactory := some none }

/-- The startup, before the process is marked ready. -/
def prepare : Boot σ Unit := do
  connect host b
  importPlugins b
  let topics ← compileTopics b
  assign fun app => { app with topicRegistry := some topics }
  wireService topics
  wireFactories

/-- What follows the `yield` of `lifespan`. -/
def shutdown : Boot σ Unit := do
  markNotReady
  let poolRw ← getAttr AppState.pgPoolRw
  match poolRw with
  | none => return ()
  | some pool => do
      let poolRo ← getAttr AppState.pgPoolRo
      closePools host pool poolRo

/-- `lifespan`.  At its `yield` the server serves; what ends the server with an
    exception goes on from there. -/
def lifespan : Boot σ Unit := do
  prepare host b
  markReady
  onHost host.serve fun returned => .serve returned.isSome
  shutdown host

end Program

-- ============================================================================
-- The startup
-- ============================================================================

/-- The pool an act opens. -/
def openedPool : BootAct → Option Pool
  | .createPool _ made => made
  | _ => none

/-- The pool an act closes, or tries to. -/
def closedPool : BootAct → Option Pool
  | .close pool _ => some pool
  | _ => none

/-- How serving ended. -/
def servingEnd : BootAct → Option Bool
  | .serve returned => some returned
  | _ => none

/-- `app.state` after the startup. -/
def wiredApp (rw ro : Option Pool) (topics : TopicRegistry) : AppState where
  pgPoolRw := some rw
  pgPoolRo := some ro
  topicRegistry := some topics
  chatService := some (rw.map fun pool =>
    ⟨topics, ⟨pool, .sessionRepository⟩, ⟨pool, .messageRepository⟩⟩)
  sessionRepoFactory := some (rw.map fun pool => ⟨pool, .sessionRepository⟩)
  messageRepoFactory := some (rw.map fun pool => ⟨pool, .messageRepository⟩)

/-- The process is wired: to the pools that were opened, as the settings ask for
    them, and to the topics of its directory. -/
structure Wired (b : Startup) (opened : List Pool) (rw ro : Option Pool)
    (topics : TopicRegistry) (p : Process σ) : Prop where
  app : p.app = wiredApp rw ro topics
  opened : opened = rw.toList ++ ro.toList
  rw_iff : rw = none ↔ b.settings.pgDsnRw = none
  ro_iff : ro = none ↔ b.settings.pgDsnRw = none ∨ b.settings.pgDsnRo = none
  topics : b.topics p.imports = .ok topics
  plugins : ∀ m ∈ pluginModules, m.module ∈ p.imports.done

/-- Before the process is marked: the flag stays, nothing is closed or served. -/
def Starting (ready : Bool) (t : BootAct) (p : Process σ) : Prop :=
  p.ready = ready ∧ closedPool t = none ∧ ∀ returned, t ≠ .serve returned

section Startup

variable {host : Host σ} {b : Startup} {p : Process σ}

/-- The flag a statement starts from is the one its predecessor left. -/
theorem starting_congr {α : Type} {ready ready' : Bool} (h : ready' = ready) {m : Boot σ α}
    {Q : Except StartupError α → List BootAct → Process σ → Prop}
    (hm : Guarded (Starting ready') p m Q) : Guarded (Starting ready) p m Q :=
  h ▸ hm

theorem onHost_guarded {α : Type} {f : σ → Except Exn α × σ} {t : Option α → BootAct}
    (ht : ∀ r, closedPool (t r) = none ∧ ∀ returned, t r ≠ .serve returned) :
    Guarded (Starting p.ready) p (onHost f t) fun r ts q =>
      ts = [t r.toOption] ∧ q = { p with outside := q.outside } :=
  .call ⟨rfl, ht _⟩ ⟨rfl, rfl⟩

theorem assign_guarded (f : AppState → AppState) :
    Guarded (Starting p.ready) p (assign f) fun r ts q =>
      r = .ok () ∧ ts = [.assign] ∧ q = { p with app := f p.app } :=
  .call ⟨rfl, rfl, nofun⟩ ⟨rfl, rfl, rfl⟩

/-- The attribute is read where it is set. -/
theorem getAttr_guarded {α : Type} {get : AppState → Option α} {a : α}
    (h : get p.app = some a) {I : BootAct → Process σ → Prop} :
    Guarded I p (getAttr get) fun r ts q => r = .ok a ∧ ts = [] ∧ q = p := by
  refine Guarded.bind (Q := fun r ts q => r = .ok (some a) ∧ ts = [] ∧ q = p)
    (.draw ⟨by rw [h], rfl, rfl⟩) ?_ ?_
  · rintro e ts q ⟨hr, -⟩
    cases hr
  · rintro value ts q ⟨hr, rfl, rfl⟩
    cases hr
    exact .ret ⟨rfl, rfl, rfl⟩

/-- What `createPools` leaves: the pools it opened, also when the second one fails. -/
theorem createPools_guarded {dsn : PyStr} (hdsn : b.settings.pgDsnRw = some dsn) :
    Guarded (Starting p.ready) p (createPools host b) fun r ts q =>
      q = { p with outside := q.outside } ∧ ∀ pools, r = .ok pools →
        word openedPool ts = pools.1 :: pools.2.toList ∧
          (pools.2 = none ↔ b.settings.pgDsnRo = none) := by
  have hcreate : ∀ (p : Process σ) (dsn : PyStr),
      Guarded (Starting p.ready) p (createPool host b dsn) fun r ts q => q = { p with outside := q.outside } ∧
        ∀ pool, r = .ok pool → word openedPool ts = [pool] := by
    intro p dsn
    refine (onHost_guarded (t := .createPool dsn) fun _ => ⟨rfl, nofun⟩).mono (fun _ _ h => h) ?_
    rintro r ts q ⟨rfl, hq⟩
    refine ⟨hq, fun pool hr => ?_⟩
    rw [hr]
    rfl
  simp only [createPools, hdsn]
  refine (hcreate p dsn).bind (fun e ts q h => ⟨h.1, fun _ hr => nomatch hr⟩) ?_
  rintro poolRw ts q ⟨hq, hopened⟩
  have hready : q.ready = p.ready := by rw [hq]
  refine starting_congr hready ?_
  cases hro : b.settings.pgDsnRo with
  | none =>
      refine .ret ⟨hq, fun pools hr => ?_⟩
      cases hr
      rw [List.append_nil, hopened poolRw rfl]
      simp
  | some dsnRo =>
      refine (hcreate q dsnRo).bind (fun e us q' h => ⟨?_, fun _ hr => nomatch hr⟩) ?_
      · rw [h.1, hq]
      · rintro poolRo us q' ⟨hq', hopened'⟩
        refine .ret ⟨by rw [hq', hq], fun pools hr => ?_⟩
        cases hr
        rw [List.append_nil, word_append, hopened poolRw rfl, hopened' poolRo rfl]
        simp

/-- Step 4 opens the pools that the settings ask for, and notes them. -/
theorem connect_guarded : Guarded (Starting p.ready) p (connect host b) fun r ts q =>
    q.ready = p.ready ∧ (r = .ok () → ∃ rw ro, word openedPool ts = rw.toList ++ ro.toList ∧
      (rw = none ↔ b.settings.pgDsnRw = none) ∧
      (ro = none ↔ b.settings.pgDsnRw = none ∨ b.settings.pgDsnRo = none) ∧
      q.app = { p.app with pgPoolRw := some rw, pgPoolRo := some ro }) := by
  unfold connect
  split
  · next hdsn =>
    refine (assign_guarded _).mono (fun _ _ h => h) ?_
    rintro r ts q ⟨rfl, rfl, rfl⟩
    exact ⟨rfl, fun _ => ⟨none, none, rfl, by simp [hdsn], by simp [hdsn], rfl⟩⟩
  · next dsn hdsn =>
    refine (createPools_guarded hdsn).bind (fun e ts q h => ⟨by rw [h.1], fun hr => nomatch hr⟩) ?_
    rintro pools ts q ⟨hq, hpools⟩
    obtain ⟨hopened, hro⟩ := hpools pools rfl
    have hready : q.ready = p.ready := by rw [hq]
    refine starting_congr hready ((assign_guarded _).mono (fun _ _ h => h) ?_)
    rintro r us q' ⟨rfl, rfl, rfl⟩
    refine ⟨hready, fun _ => ⟨some pools.1, pools.2, ?_, by simp [hdsn], by simp [hdsn, hro], ?_⟩⟩
    · rw [word_append, hopened]
      exact List.append_nil _
    · rw [hq]

/-- Step 7 builds the service on the pool that was noted. -/
theorem wireService_guarded {rw' : Option Pool} (topics : TopicRegistry)
    (h : p.app.pgPoolRw = some rw') :
    Guarded (Starting p.ready) p (wireService topics) fun r ts q =>
      r = .ok () ∧ word openedPool ts = [] ∧ q = { p with app := { p.app with
        chatService := some (rw'.map fun pool =>
          ⟨topics, ⟨pool, .sessionRepository⟩, ⟨pool, .messageRepository⟩⟩) } } := by
  refine (getAttr_guarded h).bind (fun e ts q h => nomatch h.1) ?_
  rintro poolRw ts q ⟨hr, rfl, rfl⟩
  cases hr
  cases rw' with
  | none =>
      refine (assign_guarded _).mono (fun _ _ h => h) ?_
      rintro r us q' ⟨rfl, rfl, rfl⟩
      exact ⟨rfl, rfl, rfl⟩
  | some pool =>
      refine (assign_guarded _).mono (fun _ _ h => h) ?_
      rintro r us q' ⟨rfl, rfl, rfl⟩
      exact ⟨rfl, rfl, rfl⟩

theorem wireFactories_guarded {rw' : Option Pool} (h : p.app.pgPoolRw = some rw') :
    Guarded (Starting p.ready) p wireFactories fun r ts q =>
      r = .ok () ∧ word openedPool ts = [] ∧ q = { p with app := { p.app with
        sessionRepoFactory := some (rw'.map fun pool => ⟨pool, .sessionRepository⟩)
        messageRepoFactory := some (rw'.map fun pool => ⟨pool, .messageRepository⟩) } } := by
  refine (getAttr_guarded h).bind (fun e ts q h => nomatch h.1) ?_
  rintro poolRw ts q ⟨hr, rfl, rfl⟩
  cases hr
  cases rw' with
  | none =>
      refine (assign_guarded _).mono (fun _ _ h => h) ?_
      rintro r us q' ⟨rfl, rfl, rfl⟩
      exact ⟨rfl, rfl, rfl⟩
  | some pool =>
      refine (assign_guarded _).mono (fun _ _ h => h) ?_
      rintro r us q' ⟨rfl, rfl, rfl⟩
      exact ⟨rfl, rfl, rfl⟩

/-- A successful startup leaves a wired process, and a failed one closes nothing. -/
theorem prepare_guarded : Guarded (Starting p.ready) p (prepare host b) fun r ts q =>
    q.ready = p.ready ∧ (r = .ok () →
      ∃ rw ro topics, Wired b (word openedPool ts) rw ro topics q) := by
  refine (@connect_guarded σ host b p).bind (fun e ts q h => ⟨h.1, fun hr => nomatch hr⟩) ?_
  rintro ⟨⟩ ts₁ q₁ ⟨hready, hconnect⟩
  obtain ⟨rw', ro, hopened, hrw, hro, happ⟩ := hconnect rfl
  -- the plugins
  refine starting_congr hready (Guarded.bind (Q := fun r ts q => word openedPool ts = [] ∧ q.ready = q₁.ready ∧
    q.app = q₁.app ∧ (r = .ok () → ∀ m ∈ pluginModules, m.module ∈ q.imports.done))
    (.call ⟨rfl, rfl, nofun⟩ ⟨rfl, rfl, rfl, fun hr => ?_⟩)
    (fun e ts q h => ⟨h.2.1.trans hready, fun hr => nomatch hr⟩) ?_)
  · apply loadPlugins_all
    show (loadAllPlugins b.code q₁.imports).1 = .ok ()
    cases hload : (loadAllPlugins b.code q₁.imports).1 with
    | ok u => rfl
    | error e =>
        rw [hload] at hr
        cases hr
  rintro ⟨⟩ ts₂ q₂ ⟨hts₂, hready₂, happ₂, hplugins⟩
  have hplugins := hplugins rfl
  -- the topics
  refine starting_congr hready₂ (Guarded.bind (Q := fun r ts q => word openedPool ts = [] ∧ q = q₂ ∧
    ∀ topics, r = .ok topics → b.topics q₂.imports = .ok topics)
    (.call ⟨rfl, rfl, nofun⟩ ⟨rfl, rfl, fun topics hr => ?_⟩)
    (fun e ts q h => ⟨by rw [h.2.1]; exact hready₂.trans hready, fun hr => nomatch hr⟩) ?_)
  · cases htopics : b.topics q₂.imports with
    | ok topics' =>
        rw [htopics] at hr
        cases hr
        rfl
    | error e =>
        rw [htopics] at hr
        cases hr
  rintro topics ts₃ q₃ ⟨hts₃, rfl, htopics⟩
  have htopics := htopics topics rfl
  refine (assign_guarded _).bind (fun e ts q h => nomatch h.1) ?_
  rintro ⟨⟩ ts₄ q₄ ⟨-, rfl, hq₄⟩
  -- the services, on the pool that was noted
  have happ₄ : q₄.app = { p.app with
      pgPoolRw := some rw', pgPoolRo := some ro, topicRegistry := some topics } := by
    rw [hq₄, happ₂, happ]
  have hready₄ : q₄.ready = q₃.ready := by rw [hq₄]
  have hrw₄ : q₄.app.pgPoolRw = some rw' := by rw [happ₄]
  refine starting_congr hready₄ ?_
  refine (wireService_guarded topics hrw₄).bind (fun e ts q h => nomatch h.1) ?_
  rintro ⟨⟩ ts₅ q₅ ⟨-, hts₅, hq₅⟩
  have hready₅ : q₅.ready = q₄.ready := by rw [hq₅]
  have hrw₅ : q₅.app.pgPoolRw = some rw' := by rw [hq₅]; exact hrw₄
  refine starting_congr hready₅ ((wireFactories_guarded hrw₅).mono (fun _ _ h => h) ?_)
  rintro r ts₆ q₆ ⟨-, hts₆, hq₆⟩
  have hready₆ : q₆.ready = q₅.ready := by rw [hq₆]
  have himports : q₆.imports = q₃.imports := by rw [hq₆, hq₅, hq₄]
  refine ⟨hready₆.trans (hready₅.trans (hready₄.trans (hready₂.trans hready))),
    fun _ => ⟨rw', ro, topics, ?_⟩⟩
  exact
    { app := by rw [hq₆, hq₅, happ₄]; rfl
      opened := by
        have hassign : word openedPool [BootAct.assign] = [] := rfl
        simp only [word_append, hopened, hts₂, hts₃, hassign, hts₅, hts₆, List.append_nil]
      rw_iff := hrw
      ro_iff := hro
      topics := by rw [himports]; exact htopics
      plugins := by rw [himports]; exact hplugins }

-- ============================================================================
-- The shutdown
-- ============================================================================

/-- After the process is marked not ready: nothing is opened or served any more. -/
def Stopping (t : BootAct) (p : Process σ) : Prop :=
  p.ready = false ∧ openedPool t = none ∧ ∀ returned, t ≠ .serve returned

/-- `close_pools` closes the second pool once the first one is closed. -/
theorem closePools_guarded (pool : Pool) (ro : Option Pool) (hready : p.ready = false) :
    Guarded Stopping p (closePools host pool ro) fun _ ts q => q.ready = false ∧
      word closedPool ts <+: pool :: ro.toList ∧
      (word closedPool ts = pool :: ro.toList ↔ ro = none ∨ .close pool true ∈ ts) := by
  have hclose : ∀ (pool : Pool) (p : Process σ), p.ready = false →
      Guarded Stopping p (closePool host pool) fun r ts q =>
        q.ready = false ∧ ts = [.close pool r.toOption.isSome] := by
    intro pool p hready
    unfold closePool onHost
    refine .call ?_ ?_
    · exact ⟨hready, rfl, nofun⟩
    · exact ⟨hready, rfl⟩
  refine (hclose pool p hready).bind ?_ ?_
  · rintro e ts q ⟨hq, rfl⟩
    refine ⟨hq, ⟨ro.toList, rfl⟩, ?_⟩
    cases ro <;> simp [word, closedPool, Except.toOption]
  · rintro ⟨⟩ ts q ⟨hq, rfl⟩
    cases ro with
    | none => exact .ret ⟨hq, List.prefix_refl _, fun _ => Or.inl rfl, fun _ => rfl⟩
    | some other =>
        refine (hclose other q hq).mono (fun _ _ h => h) ?_
        rintro r us q' ⟨hq', rfl⟩
        refine ⟨hq', List.prefix_refl _, fun _ => Or.inr ?_, fun _ => rfl⟩
        exact List.mem_cons_self

/-- The shutdown of a wired process closes its pools as far as `close_pools` does. -/
theorem shutdown_guarded {rw' ro : Option Pool} {topics : TopicRegistry}
    (happ : p.app = wiredApp rw' ro topics) (hnone : rw' = none → ro = none) :
    Guarded Stopping p (shutdown host) fun _ ts q => q.ready = false ∧
      word closedPool ts <+: rw'.toList ++ ro.toList ∧
      (word closedPool ts = rw'.toList ++ ro.toList ↔
        ∀ first second, rw'.toList ++ ro.toList = [first, second] → .close first true ∈ ts) := by
  have hrw : p.app.pgPoolRw = some rw' := by rw [happ]; rfl
  have hro : p.app.pgPoolRo = some ro := by rw [happ]; rfl
  refine Guarded.bind (Q := fun r ts q => r = .ok () ∧ ts = [.markNotReady] ∧
    q = { p with ready := false }) (.call ⟨rfl, rfl, nofun⟩ ⟨rfl, rfl, rfl⟩)
    (fun e ts q h => nomatch h.1) ?_
  rintro ⟨⟩ ts₁ q₁ ⟨-, rfl, hq₁⟩
  have hready₁ : q₁.ready = false := by rw [hq₁]
  have hrw₁ : q₁.app.pgPoolRw = some rw' := by rw [hq₁]; exact hrw
  have hro₁ : q₁.app.pgPoolRo = some ro := by rw [hq₁]; exact hro
  refine Guarded.bind (getAttr_guarded hrw₁) (fun e ts q h => nomatch h.1) ?_
  rintro poolRw ts₂ q₂ ⟨hr, rfl, rfl⟩
  cases hr
  cases rw' with
  | none =>
      rw [hnone rfl]
      refine .ret ⟨hready₁, List.nil_prefix, fun _ first second h => ?_, fun _ => rfl⟩
      cases h
  | some pool =>
      refine Guarded.bind (getAttr_guarded hro₁) (fun e ts q h => nomatch h.1) ?_
      rintro poolRo ts₃ q₃ ⟨hr, rfl, rfl⟩
      cases hr
      refine (closePools_guarded pool ro hready₁).mono (fun _ _ h => h) ?_
      rintro r ts q ⟨hready, hfirst, hiff⟩
      refine ⟨hready, hfirst, hiff.trans ?_⟩
      cases ro with
      | none => simp
      | some other =>
          constructor
          · rintro (h | h) first second heq
            · cases h
            · cases heq
              exact List.mem_cons_of_mem _ h
          · intro h
            refine Or.inr ?_
            have hmem := h pool other rfl
            rcases List.mem_cons.mp hmem with hmem | hmem
            · cases hmem
            · exact hmem

-- ============================================================================
-- A whole lifespan
-- ============================================================================

/-- How a lifespan goes: the startup fails, or serving ends with an exception, or
    the process is shut down. -/
inductive Lived (host : Host σ) (b : Startup) (p : Process σ) : Prop where
  | failed (hacts : (lifespan host b p).acts = (prepare host b p).acts)
      (hworld : (lifespan host b p).world = (prepare host b p).world)
  | crashed {rw ro : Option Pool} {topics : TopicRegistry} {q q' : Process σ}
      (hwired : Wired b (word openedPool (prepare host b p).trace) rw ro topics q)
      (hready : q.ready = true) (hq' : q' = { q with outside := q'.outside })
      (hacts : (lifespan host b p).acts =
        (prepare host b p).acts ++ (.markReady, q) :: (.serve false, q') :: [])
      (hworld : (lifespan host b p).world = q')
  | stopped {rw ro : Option Pool} {topics : TopicRegistry} {q q' : Process σ}
      (hwired : Wired b (word openedPool (prepare host b p).trace) rw ro topics q)
      (hready : q.ready = true) (hq' : q' = { q with outside := q'.outside })
      (hacts : (lifespan host b p).acts =
        (prepare host b p).acts ++ (.markReady, q) :: (.serve true, q') :: (shutdown host q').acts)
      (hworld : (lifespan host b p).world = (shutdown host q').world)

/-- Serving, and what follows it. -/
theorem served_run (host : Host σ) (v : Process σ) :
    let q := { v with ready := true }
    let q' := { q with outside := (host.serve v.outside).2 }
    (markReady >>= fun _ => onHost host.serve (fun returned => .serve returned.isSome) >>= fun _ =>
        shutdown host) v =
      match (host.serve v.outside).1 with
      | .error e => ⟨.error (.raised e), q', [(.markReady, q), (.serve false, q')]⟩
      | .ok _ => (shutdown host q').after [(.markReady, q), (.serve true, q')] := by
  intro q q'
  have hmark : (markReady v).result = (.ok () : Except StartupError Unit) := rfl
  rw [Eff.bind_of_ok hmark]
  have hserve : (onHost host.serve (fun returned => .serve returned.isSome) : Boot σ Unit) q =
      ⟨(host.serve v.outside).1.mapError .raised, q',
        [(.serve ((host.serve v.outside).1.mapError StartupError.raised).toOption.isSome, q')]⟩ :=
    rfl
  cases hr : (host.serve v.outside).1 with
  | error e =>
      rw [hr] at hserve
      have hraised := congrArg Run.result hserve
      have hrest := Eff.bind_of_error (f := fun _ => shutdown host) hraised
      rw [hserve] at hrest
      exact congrArg (Run.after · [(.markReady, q)]) hrest
  | ok u =>
      rw [hr] at hserve
      have hreturned := congrArg Run.result hserve
      have hrest := Eff.bind_of_ok (f := fun _ => shutdown host) hreturned
      rw [hserve] at hrest
      exact congrArg (Run.after · [(.markReady, q)]) hrest

theorem lived (host : Host σ) (b : Startup) (p : Process σ) : Lived host b p := by
  have hpost := (@prepare_guarded σ host b p).post
  cases hprep : (prepare host b p).result with
  | error e =>
      have hrun : lifespan host b p = ⟨.error e, _, _⟩ := Eff.bind_of_error hprep
      exact .failed (by rw [hrun]) (by rw [hrun])
  | ok u =>
      obtain ⟨rw', ro, topics, hwired⟩ := hpost.2 hprep
      have hmarked : Wired b (word openedPool (prepare host b p).trace) rw' ro topics
          { (prepare host b p).world with ready := true } :=
        { app := hwired.app, opened := hwired.opened, rw_iff := hwired.rw_iff,
          ro_iff := hwired.ro_iff, topics := hwired.topics, plugins := hwired.plugins }
      have hrun : lifespan host b p = Run.after _ _ := Eff.bind_of_ok hprep
      rw [served_run] at hrun
      cases hserve : (host.serve (prepare host b p).world.outside).1 with
      | error e =>
          rw [hserve] at hrun
          exact .crashed hmarked rfl rfl (by rw [hrun]; rfl) (by rw [hrun]; rfl)
      | ok u =>
          rw [hserve] at hrun
          exact .stopped hmarked rfl rfl (by rw [hrun]; rfl) (by rw [hrun]; rfl)

theorem mem_trace {r : Run (Process σ) StartupError BootAct Unit} {t : BootAct} (h : t ∈ r.trace) :
    ∃ q, (t, q) ∈ r.acts := by
  obtain ⟨a, ha, rfl⟩ := List.mem_map.mp h
  exact ⟨a.2, ha⟩

/-- The startup closes nothing. -/
theorem prepare_closes : word closedPool (prepare host b p).trace = [] :=
  word_eq_nil.mpr fun _ ht =>
    have ⟨_, ha⟩ := mem_trace ht
    ((@prepare_guarded σ host b p).acts _ ha).2.1

/-- Nor does it serve. -/
theorem prepare_serve {returned : Bool} : .serve returned ∉ (prepare host b p).trace := by
  intro ht
  obtain ⟨q, ha⟩ := mem_trace ht
  exact ((@prepare_guarded σ host b p).acts _ ha).2.2 returned rfl

/-- For every host, deployment and process: the pools are closed in the order they
    were opened, none that was not opened and none twice.  All of them are closed
    exactly when there are none, or when serving came to an end and, of two
    pools, closing the first one succeeded. -/
theorem lifespan_closes_iff (host : Host σ) (b : Startup) (p : Process σ) :
    let ts := (lifespan host b p).trace
    word closedPool ts <+: word openedPool ts ∧
      (word closedPool ts = word openedPool ts ↔ word openedPool ts = [] ∨
        .serve true ∈ ts ∧
          ∀ first second, word openedPool ts = [first, second] → .close first true ∈ ts) := by
  intro ts
  have hcloses := @prepare_closes σ host b p
  cases lived host b p with
  | failed hacts _ =>
      have hts : ts = (prepare host b p).trace := congrArg (List.map Prod.fst) hacts
      have hserve : BootAct.serve true ∉ ts := hts ▸ prepare_serve
      rw [hts] at hserve ⊢
      rw [hcloses]
      exact ⟨List.nil_prefix, ⟨fun h => Or.inl h.symm, fun h => h.elim Eq.symm fun h =>
        absurd h.1 hserve⟩⟩
  | @crashed rw' ro topics q q' hwired hready hq' hacts hworld =>
      have hts : ts = (prepare host b p).trace ++ [.markReady, .serve false] := by
        show (lifespan host b p).acts.map Prod.fst = _
        rw [hacts, List.map_append]
        rfl
      have hserve : BootAct.serve true ∉ ts := by
        rw [hts]
        intro h
        rcases List.mem_append.mp h with h | h
        · exact prepare_serve h
        · simp at h
      have hclosed : word closedPool ts = [] := by
        rw [hts, word_append, hcloses]
        rfl
      rw [hclosed]
      exact ⟨List.nil_prefix, ⟨fun h => Or.inl h.symm, fun h => h.elim Eq.symm fun h =>
        absurd h.1 hserve⟩⟩
  | @stopped rw' ro topics q q' hwired hready hq' hacts hworld =>
      have hnone : rw' = none → ro = none := fun h =>
        hwired.ro_iff.mpr (Or.inl (hwired.rw_iff.mp h))
      have happ : q'.app = wiredApp rw' ro topics := by
        rw [hq']
        exact hwired.app
      have hshutdown := @shutdown_guarded σ host q' rw' ro topics happ hnone
      have hts : ts = (prepare host b p).trace ++ .markReady :: .serve true ::
          (shutdown host q').trace := by
        show (lifespan host b p).acts.map Prod.fst = _
        rw [hacts, List.map_append]
        rfl
      have hmiddle : ∀ {α : Type} {f : BootAct → Option α}, f .markReady = none →
          f (.serve true) = none →
          word f ts = word f (prepare host b p).trace ++ word f (shutdown host q').trace := by
        intro α f hmark hserve
        rw [hts, word_append, word_cons, word_cons, hmark, hserve]
        rfl
      have hopens : word openedPool (shutdown host q').trace = [] :=
        word_eq_nil.mpr fun _ ht =>
          have ⟨_, ha⟩ := mem_trace ht
          (hshutdown.acts _ ha).2.1
      have hopened : word openedPool ts = rw'.toList ++ ro.toList := by
        rw [hmiddle rfl rfl, hopens, List.append_nil, hwired.opened]
      have hclosed : word closedPool ts = word closedPool (shutdown host q').trace := by
        rw [hmiddle rfl rfl, hcloses, List.nil_append]
      have hserve : BootAct.serve true ∈ ts := by
        rw [hts]
        simp
      have hclose : ∀ pool, BootAct.close pool true ∈ ts ↔
          BootAct.close pool true ∈ (shutdown host q').trace := by
        intro pool
        rw [hts, List.mem_append, List.mem_cons, List.mem_cons]
        constructor
        · rintro (h | h | h | h)
          · have hnone := word_eq_nil.mp hcloses _ h
            cases hnone
          · cases h
          · cases h
          · exact h
        · exact fun h => Or.inr (Or.inr (Or.inr h))
      obtain ⟨-, hfirst, hiff⟩ := hshutdown.post
      rw [hclosed, hopened]
      refine ⟨hfirst, hiff.trans ?_⟩
      simp only [hserve, true_and, hclose]
      refine ⟨Or.inr, fun h => h.elim (fun hnil first second heq => ?_) id⟩
      rw [hnil] at heq
      cases heq

/-- Where a lifespan is ready: at the act that marks it and while it serves. -/
theorem ready_split {P T : List (BootAct × Process σ)} {m s : BootAct × Process σ}
    (hP : ∀ x ∈ P, x.2.ready = false) (hT : ∀ x ∈ T, x.2.ready = false)
    {pre post : List (BootAct × Process σ)} {x : BootAct × Process σ} (hx : x.2.ready = true)
    (h : P ++ m :: s :: T = pre ++ x :: post) :
    (pre = P ∧ x = m) ∨ (pre = P ++ [m] ∧ x = s) := by
  have hnot : ∀ Q : List (BootAct × Process σ), (∀ y ∈ Q, y.2.ready = false) → x ∉ Q := by
    intro Q hQ hmem
    rw [hQ x hmem] at hx
    cases hx
  rcases List.append_eq_append_iff.mp h with ⟨c, hpre, hrest⟩ | ⟨c, hP', hrest⟩
  · cases c with
    | nil =>
        simp only [List.nil_append, List.cons.injEq] at hrest
        exact Or.inl ⟨by rw [hpre, List.append_nil], hrest.1.symm⟩
    | cons y c =>
        cases c with
        | nil =>
            simp only [List.cons_append, List.nil_append, List.cons.injEq] at hrest
            exact Or.inr ⟨by rw [hpre, hrest.1], hrest.2.1.symm⟩
        | cons z c =>
            simp only [List.cons_append, List.cons.injEq] at hrest
            exact absurd (hrest.2.2 ▸ List.mem_append_right c List.mem_cons_self) (hnot T hT)
  · cases c with
    | nil =>
        simp only [List.nil_append, List.cons.injEq] at hrest
        exact Or.inl ⟨by rw [hP', List.append_nil], hrest.1⟩
    | cons y c =>
        simp only [List.cons_append, List.cons.injEq] at hrest
        exact absurd (hP' ▸ List.mem_append_right pre (hrest.1 ▸ List.mem_cons_self)) (hnot P hP)

/-- For every host, deployment and process that is not ready: whoever finds it ready,
    at any moment, finds it wired to the pools that were opened, the plugins
    imported and the topics of its directory, and no pool closed.  It is ready
    whenever it serves, and it stays so after its end when serving ended with an
    exception, and only then. -/
theorem lifespan_ready (host : Host σ) (b : Startup) (p : Process σ) (hp : p.ready = false) :
    let run := lifespan host b p
    (∀ pre t q post, run.acts = pre ++ (t, q) :: post → (readyz q).1 = 200 →
      word closedPool (pre.map Prod.fst ++ [t]) = [] ∧
        ∃ rw ro topics, Wired b (word openedPool (pre.map Prod.fst ++ [t])) rw ro topics q) ∧
      (∀ returned q, (.serve returned, q) ∈ run.acts → (readyz q).1 = 200) ∧
      ((readyz run.world).1 = 200 ↔ .serve false ∈ run.trace) := by
  intro run
  simp only [readyz_ok_iff]
  have hprepare := @prepare_guarded σ host b p
  have hbefore : ∀ x ∈ (prepare host b p).acts, x.2.ready = false := fun x hx =>
    (hprepare.acts x hx).1.trans hp
  have hunserved : ∀ returned q, (.serve returned, q) ∉ (prepare host b p).acts :=
    fun returned q h => prepare_serve (List.mem_map_of_mem h)
  -- a run that gets ready, with what follows the serving
  have hlived : ∀ {rw' ro : Option Pool} {topics : TopicRegistry} {q q' : Process σ} {served : Bool}
      {T : List (BootAct × Process σ)},
      Wired b (word openedPool (prepare host b p).trace) rw' ro topics q → q.ready = true →
      q' = { q with outside := q'.outside } →
      run.acts = (prepare host b p).acts ++ (.markReady, q) :: (.serve served, q') :: T →
      (∀ x ∈ T, Stopping x.1 x.2) →
      (∀ pre t v post, run.acts = pre ++ (t, v) :: post → v.ready = true →
        word closedPool (pre.map Prod.fst ++ [t]) = [] ∧
          ∃ rw ro topics, Wired b (word openedPool (pre.map Prod.fst ++ [t])) rw ro topics v) ∧
        ∀ returned v, (.serve returned, v) ∈ run.acts → returned = served ∧ v.ready = true := by
    intro rw' ro topics q q' served T hwired hready hq' hacts hT
    have hready' : q'.ready = true := by rw [hq']; exact hready
    have hwired' : Wired b (word openedPool (prepare host b p).trace) rw' ro topics q' := by
      rw [hq']
      exact { app := hwired.app, opened := hwired.opened, rw_iff := hwired.rw_iff,
              ro_iff := hwired.ro_iff, topics := hwired.topics, plugins := hwired.plugins }
    have hpast : ∀ {α : Type} {f : BootAct → Option α}, f .markReady = none →
        f (.serve served) = none → ∀ us, (us = [.markReady] ∨ us = [.markReady, .serve served]) →
        word f ((prepare host b p).trace ++ us) = word f (prepare host b p).trace := by
      intro α f hmark hserve us hus
      rcases hus with rfl | rfl <;>
        simp [word_append, word_cons, hmark, hserve]
    refine ⟨fun pre t v post hsplit hv => ?_, fun returned v hmem => ?_⟩
    · have htrace : (prepare host b p).acts.map Prod.fst = (prepare host b p).trace := rfl
      rw [hacts] at hsplit
      rcases ready_split hbefore (fun x hx => (hT x hx).1) hv hsplit with ⟨rfl, heq⟩ | ⟨rfl, heq⟩
      · cases heq
        rw [htrace, hpast rfl rfl _ (Or.inl rfl), hpast rfl rfl _ (Or.inl rfl)]
        exact ⟨prepare_closes, rw', ro, topics, hwired⟩
      · cases heq
        rw [List.map_append, htrace, List.append_assoc]
        show word closedPool (_ ++ [.markReady, .serve served]) = _ ∧ ∃ rw ro topics,
          Wired b (word openedPool (_ ++ [.markReady, .serve served])) rw ro topics _
        rw [hpast rfl rfl _ (Or.inr rfl), hpast rfl rfl _ (Or.inr rfl)]
        exact ⟨prepare_closes, rw', ro, topics, hwired'⟩
    · rw [hacts] at hmem
      rcases List.mem_append.mp hmem with hmem | hmem
      · exact absurd hmem (hunserved returned v)
      · rcases List.mem_cons.mp hmem with heq | hmem
        · cases heq
        · rcases List.mem_cons.mp hmem with heq | hmem
          · cases heq
            exact ⟨rfl, hready'⟩
          · exact absurd rfl ((hT _ hmem).2.2 returned)
  cases lived host b p with
  | failed hacts hworld =>
      have hend : run.world.ready = false := by
        rw [show run.world = _ from hworld, hprepare.post.1, hp]
      refine ⟨fun pre t q post hsplit hq => ?_, fun returned q hmem => ?_, ?_⟩
      · have hmem : (t, q) ∈ (prepare host b p).acts := by
          rw [← hacts, show (lifespan host b p).acts = _ from hsplit]
          exact List.mem_append_right _ List.mem_cons_self
        rw [hbefore _ hmem] at hq
        cases hq
      · exact absurd (hacts ▸ hmem) (hunserved returned q)
      · rw [hend]
        refine ⟨fun h => absurd h Bool.false_ne_true, fun h => ?_⟩
        obtain ⟨q, hmem⟩ := mem_trace h
        exact absurd (hacts ▸ hmem) (hunserved false q)
  | @crashed rw' ro topics q q' hwired hready hq' hacts hworld =>
      obtain ⟨hfound, hserving⟩ := hlived hwired hready hq' hacts (fun x hx => nomatch hx)
      have hready' : q'.ready = true := by rw [hq']; exact hready
      refine ⟨hfound, fun returned v hmem => (hserving returned v hmem).2, ?_⟩
      rw [show run.world = _ from hworld, hready']
      refine ⟨fun _ => ?_, fun _ => rfl⟩
      show _ ∈ run.acts.map Prod.fst
      rw [show run.acts = _ from hacts]
      simp
  | @stopped rw' ro topics q q' hwired hready hq' hacts hworld =>
      have hnone : rw' = none → ro = none := fun h =>
        hwired.ro_iff.mpr (Or.inl (hwired.rw_iff.mp h))
      have happ : q'.app = wiredApp rw' ro topics := by
        rw [hq']
        exact hwired.app
      have hshutdown := @shutdown_guarded σ host q' rw' ro topics happ hnone
      obtain ⟨hfound, hserving⟩ := hlived hwired hready hq' hacts hshutdown.acts
      refine ⟨hfound, fun returned v hmem => (hserving returned v hmem).2, ?_⟩
      rw [show run.world = _ from hworld, hshutdown.post.1]
      refine ⟨fun h => absurd h Bool.false_ne_true, fun h => ?_⟩
      obtain ⟨v, hmem⟩ := mem_trace h
      cases (hserving false v hmem).1

end Startup

-- ============================================================================
-- A deployment
-- ============================================================================

/-- A host that numbers its pools, and whose server is stopped. -/
def steadyHost : Host Nat where
  createPool := fun _ _ _ n => (.ok n, n + 1)
  close := fun _ n => (.ok (), n)
  serve := fun n => (.ok (), n)

/-- A deployment on two databases, without topics. -/
def twoDatabases : Startup where
  settings := { pgDsnRw := some (py "rw"), pgDsnRo := some (py "ro") }
  code := fun _ _ => .error .valueError
  parse := fun _ => .error .valueError
  createModel := fun _ => .ok ()
  environ := .empty
  topicsDir := none

/-- A process that has just started. -/
def newProcess : Process Nat := ⟨0, false, {}, ⟨[], .empty⟩⟩

set_option maxRecDepth 20000 in
/-- It serves on both pools while it is ready, and is not ready in the end. -/
theorem lifespan_ready_twoDatabases :
    let run := lifespan steadyHost twoDatabases newProcess
    (∃ q, (.serve true, q) ∈ run.acts ∧ (readyz q).1 = 200 ∧
      ∃ rw ro topics, Wired twoDatabases [0, 1] rw ro topics q) ∧ (readyz run.world).1 ≠ 200 := by
  intro run
  obtain ⟨hfound, hserving, hend⟩ := lifespan_ready steadyHost twoDatabases newProcess rfl
  have hserve : ∃ q, run.acts[9]? = some (.serve true, q) := ⟨_, rfl⟩
  obtain ⟨q, hq⟩ := hserve
  have hmem := List.mem_of_getElem? hq
  have hsplit : run.acts = run.acts.take 9 ++ (.serve true, q) :: run.acts.drop 10 := by
    obtain ⟨hlt, hget⟩ := List.getElem?_eq_some_iff.mp hq
    rw [← hget, List.cons_getElem_drop_succ, List.take_append_drop]
  have hready := hserving true q hmem
  have hopened : word openedPool ((run.acts.take 9).map Prod.fst ++ [.serve true]) = [0, 1] := rfl
  refine ⟨⟨q, hmem, hready, hopened ▸ (hfound _ _ _ _ hsplit hready).2⟩, fun h => ?_⟩
  have hends : word servingEnd run.trace = [true] := rfl
  have hcrashed : false ∈ word servingEnd run.trace := List.mem_filterMap.mpr ⟨_, hend.mp h, rfl⟩
  rw [hends, List.mem_singleton] at hcrashed
  cases hcrashed

end MasterAgent
