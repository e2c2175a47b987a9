/-
  MasterAgent.Lib.StateGraph

  Graphs of named nodes over a shared state.

  A declaration lists the nodes, the plain edges and the branches; a branch
  computes a label from the state and looks its target up.  `run` executes one
  node at a time along the declared edges: a node returns an update, which is
  merged into the state, and the first exception ends the run.  Whether a
  declaration may be run at all is the engine's decision, of which `Engine`
  keeps only what its documentation says.
-/

import MasterAgent.Lib.Dict
import MasterAgent.Lib.Monitor

namespace MasterAgent.StateGraph

open Effect

/-- Where an edge leads. -/
inductive Target (κ : Type) where
  | node (name : κ)
  /-- `END`. -/
  | finish

/-- A conditional edge: a label computed from the state, and the node for it. -/
structure Branch (κ ε S : Type) where
  path : S → Except ε κ
  ends : Dict κ κ

/-- A declared graph. -/
structure Decl (κ σ ε τ S U : Type) where
  nodes : List (κ × (S → Eff σ ε τ U))
  entry : κ
  edges : List (κ × Target κ)
  branches : List (κ × Branch κ ε S)

/-- What running a graph needs to know of its state and its acts. -/
structure Semantics (κ ε τ S U : Type) where
  merge : S → U → S
  /-- The act of starting a node. -/
  enter : κ → τ
  /-- The act of merging what a node returned. -/
  write : κ → U → τ
  /-- Raised when a branch has no target for its label. -/
  missingLabel : ε
  /-- Raised when an edge leads to no node. -/
  missingNode : ε
  /-- Raised when the recursion limit is reached. -/
  limitReached : ε

variable {κ σ ε τ S U : Type} [DecidableEq κ]

/-- The names of a graph's nodes. -/
def Decl.names (g : Decl κ σ ε τ S U) : List κ := g.nodes.map Prod.fst

/-- The target after node `n` when the state is `s`. -/
def Decl.successor (g : Decl κ σ ε τ S U) (sem : Semantics κ ε τ S U) (n : κ) (s : S) :
    Except ε (Target κ) :=
  match Dict.find n g.edges with
  | some t => .ok t
  | none => match Dict.find n g.branches with
      | none => .ok .finish
      | some b => match b.path s with
          | .error e => .error e
          | .ok label => match b.ends.get? label with
              | some m => .ok (.node m)
              | none => .error sem.missingLabel

/-- Run one node: its update is merged once the way on is known. -/
def visit {β : Type} (sem : Semantics κ ε τ S U) (n : κ) (f : S → Eff σ ε τ U) (s : S)
    (next : S → Except ε β) : Eff σ ε τ (S × β) := do
  Eff.act (sem.enter n)
  let u ← f s
  let t ← Eff.ofExcept (next (sem.merge s u))
  Eff.act (sem.write n u)
  return (sem.merge s u, t)

/-- Run from node `n`, at most `fuel` nodes. -/
def Decl.runFrom (g : Decl κ σ ε τ S U) (sem : Semantics κ ε τ S U) :
    (fuel : Nat) → κ → S → Eff σ ε τ S
  | 0, _, _ => Eff.raise sem.limitReached
  | fuel + 1, n, s => match Dict.find n g.nodes with
      | none => Eff.raise sem.missingNode
      | some f => do
          let (s', t) ← visit sem n f s (g.successor sem n)
          match t with
          | .finish => return s'
          | .node m => g.runFrom sem fuel m s'

/-- Run from the entry. -/
def Decl.run (g : Decl κ σ ε τ S U) (sem : Semantics κ ε τ S U) (limit : Nat) (s : S) :
    Eff σ ε τ S :=
  g.runFrom sem limit g.entry s

/-- An engine: which declarations it compiles.  It refuses a name that is there
    already, a name the state reserves, and the names that it keeps for itself. -/
structure Engine (κ σ ε τ S U : Type) (reserved : List κ) where
  compiles : Decl κ σ ε τ S U → Bool
  /-- The names that no node of any graph may have. -/
  refuses : κ → Bool
  names_nodup : ∀ {g : Decl κ σ ε τ S U}, compiles g = true → g.names.Nodup
  names_free : ∀ {g : Decl κ σ ε τ S U}, compiles g = true → ∀ n ∈ g.names, n ∉ reserved
  names_allowed : ∀ {g : Decl κ σ ε τ S U}, compiles g = true → ∀ n ∈ g.names, refuses n = false

/-- The engine that looks at the names alone. -/
def Engine.byName (κ σ ε τ S U : Type) [DecidableEq κ] (reserved : List κ) (refuses : κ → Bool) :
    Engine κ σ ε τ S U reserved where
  compiles := fun g =>
    decide (g.names.Nodup ∧ ∀ n ∈ g.names, n ∉ reserved ∧ refuses n = false)
  refuses := refuses
  names_nodup := fun h => (of_decide_eq_true h).1
  names_free := fun h n hn => ((of_decide_eq_true h).2 n hn).1
  names_allowed := fun h n hn => ((of_decide_eq_true h).2 n hn).2

/-- The engine that keeps no name for itself. -/
def Engine.lenient (κ σ ε τ S U : Type) [DecidableEq κ] (reserved : List κ) :
    Engine κ σ ε τ S U reserved :=
  .byName κ σ ε τ S U reserved fun _ => false

theorem Engine.lenient_compiles {reserved : List κ} {g : Decl κ σ ε τ S U} :
    (Engine.lenient κ σ ε τ S U reserved).compiles g = true ↔
      g.names.Nodup ∧ ∀ n ∈ g.names, n ∉ reserved := by
  simp only [lenient, byName, and_true, decide_eq_true_eq]

/-- The entry, the edges and the branches lead from and to declared nodes. -/
structure Decl.Closed (g : Decl κ σ ε τ S U) : Prop where
  entry : g.entry ∈ g.names
  edges : ∀ e ∈ g.edges, e.1 ∈ g.names ∧ ∀ m, e.2 = .node m → m ∈ g.names
  branches : ∀ b ∈ g.branches, b.1 ∈ g.names ∧ ∀ e ∈ b.2.ends.entries, e.2 ∈ g.names

/-- The engine refuses a closed declaration for its names only. -/
def Engine.NamesOnly {reserved : List κ} (engine : Engine κ σ ε τ S U reserved) : Prop :=
  ∀ g : Decl κ σ ε τ S U, g.Closed → g.names.Nodup → (∀ n ∈ g.names, n ∉ reserved) →
    (∀ n ∈ g.names, engine.refuses n = false) → engine.compiles g = true

theorem Engine.byName_namesOnly {reserved : List κ} {refuses : κ → Bool} :
    (Engine.byName κ σ ε τ S U reserved refuses).NamesOnly :=
  fun _ _ hnodup hfree hallowed =>
    decide_eq_true ⟨hnodup, fun n hn => ⟨hfree n hn, hallowed n hn⟩⟩

/-- The engine looks at what is declared, not at what the nodes do. -/
def Engine.IgnoresBodies {reserved : List κ} (engine : Engine κ σ ε τ S U reserved) : Prop :=
  ∀ g g' : Decl κ σ ε τ S U, g.names = g'.names → g.entry = g'.entry → g.edges = g'.edges →
    g.branches = g'.branches → engine.compiles g = engine.compiles g'

theorem Engine.lenient_ignoresBodies {reserved : List κ} :
    (Engine.lenient κ σ ε τ S U reserved).IgnoresBodies := by
  intro g g' hnames _ _ _
  simp only [lenient, byName, hnames]

-- ============================================================================
-- One node of a run
-- ============================================================================

variable {g : Decl κ σ ε τ S U} {sem : Semantics κ ε τ S U} {n : κ} {f : S → Eff σ ε τ U}

/-- The way on from a run that has visited a node. -/
def Decl.goOn (g : Decl κ σ ε τ S U) (sem : Semantics κ ε τ S U) (fuel : Nat) :
    Target κ → S → Eff σ ε τ S
  | .finish, s => pure s
  | .node m, s => g.runFrom sem fuel m s

/-- A run at a node is a visit of it, with the choice of the way on in any form
    that determines the target. -/
theorem runFrom_visit {β : Type} {next : S → Except ε β} {target : β → Target κ}
    (fuel : Nat) (s : S) (hnode : Dict.find n g.nodes = some f)
    (hnext : ∀ s, g.successor sem n s = (next s).map target) :
    g.runFrom sem (fuel + 1) n s =
      visit sem n f s next >>= fun p => g.goOn sem fuel (target p.2) p.1 := by
  funext w
  simp only [Decl.runFrom, hnode, visit, Eff.bind_apply, Eff.act_apply]
  cases hf : (f s w).result with
  | error e => simp [Run.after]
  | ok u =>
      simp only [hnext, Run.after]
      cases hn : next (sem.merge s u) with
      | error e => simp [Except.map, Eff.ofExcept]
      | ok b =>
          cases ht : target b <;> simp [Except.map, Eff.ofExcept, Eff.ret, ht, Decl.goOn]

-- a single visit looks nothing up
omit [DecidableEq κ]

/-- A visit that returns went through the node and found a way on. -/
theorem visit_ok {β : Type} {s : S} {next : S → Except ε β} {w : σ} {p : S × β}
    (h : (visit sem n f s next w).result = .ok p) :
    ∃ u, (f s w).result = .ok u ∧ p.1 = sem.merge s u ∧ next p.1 = .ok p.2 := by
  simp only [visit, Eff.bind_apply, Eff.act_apply, Run.after] at h
  cases hf : (f s w).result with
  | error e => simp [hf] at h
  | ok u =>
      cases hnext : next (sem.merge s u) with
      | error e => simp [hf, hnext] at h
      | ok b =>
          simp only [hf, hnext, Eff.ofExcept_apply, Eff.pure_apply, Except.ok.injEq] at h
          subst h
          exact ⟨u, rfl, rfl, hnext⟩

-- ============================================================================
-- A visit of a node that leaves the world alone
-- ============================================================================

section Play

variable {β : Type} {s : S} {next : S → Except ε β} {ts : List τ} {e : ε} {u : U} {b : β}

/-- The node returns and there is a way on. -/
theorem visit_play (hf : f s = Eff.play ts (.ok u)) (hnext : next (sem.merge s u) = .ok b) :
    visit sem n f s next =
      Eff.play (sem.enter n :: (ts ++ [sem.write n u])) (.ok (sem.merge s u, b)) := by
  funext w
  simp [visit, hf, hnext, Eff.bind_apply, Eff.play, Run.after]

/-- The node raises. -/
theorem visit_play_raise (hf : f s = Eff.play ts (.error e)) :
    visit sem n f s next = Eff.play (sem.enter n :: ts) (.error e) := by
  funext w
  simp [visit, hf, Eff.bind_apply, Eff.play, Run.after]

/-- There is no way on. -/
theorem visit_play_lost (hf : f s = Eff.play ts (.ok u)) (hnext : next (sem.merge s u) = .error e) :
    visit sem n f s next = Eff.play (sem.enter n :: ts) (.error e) := by
  funext w
  simp [visit, hf, hnext, Eff.bind_apply, Eff.play, Run.after]

end Play

-- ============================================================================
-- A visit under a monitor
-- ============================================================================

variable {G : Type} {δ : G → τ → Option G}

/-- A visit keeps to a monitor when entering, running and writing do. -/
theorem visit_watched {β : Type} {s : S} {next : S → Except ε β} {g₀ g₁ : G}
    {Q : U → G → Prop} {R : S × β → G → Prop} (henter : δ g₀ (sem.enter n) = some g₁)
    (hf : Watched δ g₁ (f s) Q)
    (hwrite : ∀ u g₂ b, Q u g₂ → next (sem.merge s u) = .ok b →
      ∃ g₃, δ g₂ (sem.write n u) = some g₃ ∧ R (sem.merge s u, b) g₃) :
    Watched δ g₀ (visit sem n f s next) R := by
  refine (Watched.act henter).bind fun _ g₁' hg₁ => ?_
  subst hg₁
  refine hf.bind fun u g₂ hQ => ?_
  have hnext : Watched δ g₂ (Eff.ofExcept (next (sem.merge s u)) : Eff σ ε τ β)
      fun b g₂' => g₂' = g₂ ∧ next (sem.merge s u) = .ok b :=
    .ofExcept fun b hb => ⟨rfl, hb⟩
  refine hnext.bind fun b g₂' hb => ?_
  obtain ⟨rfl, hb⟩ := hb
  obtain ⟨g₃, hg₃, hR⟩ := hwrite u g₂' b hQ hb
  refine (Watched.act hg₃).bind fun _ g₃' hg => ?_
  subst hg
  exact .ret hR

/-- A visit succeeds when the node does and the way on is known. -/
theorem visit_succeeds {β : Type} {s : S} {next : S → Except ε β} {fine : τ → Prop}
    {Q : U → Prop} {R : S × β → Prop} (hf : (f s).Succeeds fine Q)
    (hnext : ∀ u, Q u → ∃ b, next (sem.merge s u) = .ok b ∧ R (sem.merge s u, b)) :
    (visit sem n f s next).Succeeds fine R := by
  refine (Eff.Succeeds.act trivial).bind fun _ (_ : True) => hf.bind fun u hQ => ?_
  obtain ⟨b, hb, hR⟩ := hnext u hQ
  refine (Eff.Succeeds.ofExcept hb rfl).bind fun b' (hb' : b = b') => ?_
  subst hb'
  exact (Eff.Succeeds.act trivial).bind fun _ (_ : True) => .ret hR

end MasterAgent.StateGraph
