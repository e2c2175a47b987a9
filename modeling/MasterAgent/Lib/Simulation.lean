/-
  MasterAgent.Lib.Simulation

  Machines that follow a run.  An abstract machine reads the symbols of a run's
  acts; `Path.simulates` carries a relation between the concrete states and the
  machine's along a whole path, where a guard that the path keeps to may be
  assumed at every step.  `family` puts many guards side by side, one for each
  caller, and `watch_family` assembles what the callers' own histories say.
-/

import MasterAgent.Lib.Monitor
import MasterAgent.Lib.TraceLang
import MasterAgent.Lib.Transition

namespace MasterAgent.Effect

variable {G H V ι σ ε τ ς α : Type}

-- ============================================================================
-- Machines over symbols
-- ============================================================================

/-- A machine over symbols, as a monitor of acts. -/
def through (sym : τ → Option ς) (step : G → ς → Option G) (g : G) (t : τ) : Option G :=
  match sym t with
  | none => some g
  | some s => step g s

variable {sym : τ → Option ς} {step : G → ς → Option G} {g g' : G}

theorem through_none {t : τ} (h : sym t = none) : through sym step g t = some g := by
  rw [through, h]

theorem through_some {t : τ} {s : ς} (h : sym t = some s) :
    through sym step g t = step g s := by
  rw [through, h]

/-- The machine reads the word of the acts. -/
theorem watch_through (ts : List τ) :
    watch (through sym step) g ts = watch step g (word sym ts) := by
  induction ts generalizing g with
  | nil => rfl
  | cons t ts ih =>
      cases h : sym t with
      | none =>
          have hword : word sym (t :: ts) = word sym ts := by
            rw [word_cons, h]
            rfl
          rw [hword, watch_cons (through_none h), ih]
      | some s =>
          have hword : word sym (t :: ts) = s :: word sym ts := by
            rw [word_cons, h]
            rfl
          rw [hword, watch, watch, through_some h]
          cases step g s with
          | none => rfl
          | some g₁ => exact ih

-- ============================================================================
-- Many callers
-- ============================================================================

section Family

variable [DecidableEq ι] {δ : ι → G → τ → Option G} {states states' : ι → G}
  {ls : List (ι × τ)}

/-- One guard for each caller; an act moves the guard of its caller. -/
def family (δ : ι → G → τ → Option G) (states : ι → G) (l : ι × τ) : Option (ι → G) :=
  (δ l.1 (states l.1) l.2).map (Function.update states l.1)

/-- The acts of caller `i` among the acts of all. -/
def actsBy (i : ι) (ls : List (ι × τ)) : List τ := (ls.filter fun l => l.1 = i).map Prod.snd

theorem actsBy_cons (i j : ι) (t : τ) :
    actsBy i ((j, t) :: ls) = if j = i then t :: actsBy i ls else actsBy i ls := by
  by_cases h : j = i <;> simp [actsBy, h]

/-- When no caller's guard gets stuck on the caller's own acts, the family does
    not get stuck, and each guard is where its own acts led it. -/
theorem watch_family (h : ∀ i, watch (δ i) (states i) (actsBy i ls) = some (states' i)) :
    watch (family δ) states ls = some states' := by
  induction ls generalizing states with
  | nil =>
      have hsame : states = states' := funext fun i => Option.some.inj (h i)
      rw [watch_nil, hsame]
  | cons l ls ih =>
      obtain ⟨j, t⟩ := l
      have hj := h j
      rw [actsBy_cons, if_pos rfl, watch, Option.bind_eq_some_iff] at hj
      obtain ⟨g₁, hg₁, hrest⟩ := hj
      have hstep : family δ states (j, t) = some (Function.update states j g₁) := by
        rw [family, hg₁, Option.map_some]
      rw [watch_cons hstep]
      refine ih fun i => ?_
      by_cases hij : j = i
      · subst hij
        rw [Function.update_self]
        exact hrest
      · have hi := h i
        rw [actsBy_cons, if_neg hij] at hi
        rw [Function.update_of_ne (Ne.symm hij)]
        exact hi

end Family

-- ============================================================================
-- Simulation along a path
-- ============================================================================

/-- A path of one relation is a path of a wider one. -/
theorem Path.widen {next next' : V → τ → V → Prop} {as : List (τ × V)} {v v' : V}
    (h : Path next v as v') (hwider : ∀ v t v', next v t v' → next' v t v') :
    Path next' v as v' := by
  induction as generalizing v with
  | nil => exact h
  | cons a as ih => exact ⟨hwider _ _ _ h.1, ih h.2⟩

/-- Acts that change nothing may be left out of a path. -/
theorem Path.filter {next : V → τ → V → Prop} {sel : τ → Bool} {as : List (τ × V)} {v v' : V}
    (h : Path next v as v') (hquiet : ∀ v t v', next v t v' → sel t = false → v' = v) :
    Path next v (as.filter fun a => sel a.1) v' := by
  induction as generalizing v with
  | nil => exact h
  | cons a as ih =>
      cases hsel : sel a.1 with
      | true =>
          rw [List.filter_cons, hsel, if_pos rfl]
          exact ⟨h.1, ih h.2⟩
      | false =>
          rw [List.filter_cons, hsel, if_neg Bool.false_ne_true]
          have hsame := hquiet _ _ _ h.1 hsel
          exact ih (hsame ▸ h.2)

/-- A relation that every step keeps, where the guard allows the step, leads
    along a whole path that keeps to the guard. -/
theorem Path.simulates {next : V → τ → V → Prop} {guard : H → τ → Option H}
    {spec : G → τ → Option G} {R : V → H → G → Prop}
    (hstep : ∀ v t v₁ h h₁ g, R v h g → next v t v₁ → guard h t = some h₁ →
      ∃ g₁, spec g t = some g₁ ∧ R v₁ h₁ g₁)
    {as : List (τ × V)} {v v' : V} {h h' : H} {g : G} (hpath : Path next v as v')
    (hguard : watch guard h (as.map Prod.fst) = some h') (hstart : R v h g) :
    ∃ g', watch spec g (as.map Prod.fst) = some g' ∧ R v' h' g' := by
  induction as generalizing v h g with
  | nil =>
      cases hpath
      cases hguard
      exact ⟨g, rfl, hstart⟩
  | cons a as ih =>
      obtain ⟨t, v₁⟩ := a
      obtain ⟨hnext, hrest⟩ := hpath
      rw [List.map_cons, watch, Option.bind_eq_some_iff] at hguard
      obtain ⟨h₁, ht, hguard⟩ := hguard
      obtain ⟨g₁, hg₁, hrelated⟩ := hstep v t v₁ h h₁ g hstart hnext ht
      obtain ⟨g', hwatch, hend⟩ := ih hrest hguard hrelated
      refine ⟨g', ?_, hend⟩
      rw [List.map_cons, watch_cons hg₁]
      exact hwatch

/-- A relation that every step keeps leads a path of the one system along a path of
    the other under the same labels. -/
theorem Path.refines {next : V → τ → V → Prop} {spec : G → τ → G → Prop} {R : V → G → Prop}
    (hstep : ∀ v t v₁ g, R v g → next v t v₁ → ∃ g₁, spec g t g₁ ∧ R v₁ g₁)
    {as : List (τ × V)} {v v' : V} {g : G} (hpath : Path next v as v') (hstart : R v g) :
    ∃ bs g', bs.map Prod.fst = as.map Prod.fst ∧ Path spec g bs g' ∧ R v' g' := by
  induction as generalizing v g with
  | nil => exact ⟨[], g, rfl, rfl, hpath ▸ hstart⟩
  | cons a as ih =>
      obtain ⟨t, v₁⟩ := a
      obtain ⟨g₁, hspec, hrelated⟩ := hstep v t v₁ g hstart hpath.1
      obtain ⟨bs, g', hlabels, hrest, hend⟩ := ih hpath.2 hrelated
      exact ⟨(t, g₁) :: bs, g', by rw [List.map_cons, List.map_cons, hlabels],
        ⟨hspec, hrest⟩, hend⟩

end MasterAgent.Effect
