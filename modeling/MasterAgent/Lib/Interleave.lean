/-
  MasterAgent.Lib.Interleave

  Any number of callers, each a sequence of atomic steps on one shared state.

  A schedule lists which caller moves next; `exec` runs it.  A caller that has
  finished does not move.  Two rules carry the proofs about all schedules: an
  invariant of every step is an invariant of the run (`exec_invariant`), and an
  invariant of the steps that meet a condition holds along every run whose steps
  all meet it (`exec_invariant_along`).
-/

import Mathlib.Computability.Language
import Mathlib.Data.List.Sort

namespace MasterAgent.Interleave

variable {ι σ ℓ : Type}

/-- The shared state and each caller's local state. -/
structure Config (ι σ ℓ : Type) where
  shared : σ
  locals : ι → ℓ

/-- One atomic step of caller `i`: its next local state and the shared state,
    or nothing once it has finished. -/
abbrev Step (ι σ ℓ : Type) : Type := ι → ℓ → σ → Option (ℓ × σ)

variable [DecidableEq ι]

/-- Let caller `i` make its next step, if it has one. -/
def fire (step : Step ι σ ℓ) (c : Config ι σ ℓ) (i : ι) : Config ι σ ℓ :=
  match step i (c.locals i) c.shared with
  | none => c
  | some (l, s) => ⟨s, Function.update c.locals i l⟩

/-- Run a schedule. -/
def exec (step : Step ι σ ℓ) (sched : List ι) (c : Config ι σ ℓ) : Config ι σ ℓ :=
  sched.foldl (fire step) c

variable {step : Step ι σ ℓ}

@[simp] theorem exec_nil (c : Config ι σ ℓ) : exec step [] c = c := rfl

@[simp] theorem exec_cons (i : ι) (sched : List ι) (c : Config ι σ ℓ) :
    exec step (i :: sched) c = exec step sched (fire step c i) := rfl

theorem exec_append (s₁ s₂ : List ι) (c : Config ι σ ℓ) :
    exec step (s₁ ++ s₂) c = exec step s₂ (exec step s₁ c) :=
  List.foldl_append

theorem fire_of_none {c : Config ι σ ℓ} {i : ι} (h : step i (c.locals i) c.shared = none) :
    fire step c i = c := by
  simp [fire, h]

theorem fire_of_some {c : Config ι σ ℓ} {i : ι} {l : ℓ} {s : σ}
    (h : step i (c.locals i) c.shared = some (l, s)) :
    (fire step c i).locals i = l ∧ (fire step c i).shared = s := by
  simp [fire, h]

/-- A step leaves the other callers where they are. -/
theorem fire_locals_of_ne {c : Config ι σ ℓ} {i j : ι} (h : j ≠ i) :
    (fire step c i).locals j = c.locals j := by
  unfold fire
  split
  · rfl
  · exact Function.update_of_ne h _ _

/-- `P` holds of every configuration of the run together with the caller about
    to move in it. -/
def Along (step : Step ι σ ℓ) (P : Config ι σ ℓ → ι → Prop) :
    List ι → Config ι σ ℓ → Prop
  | [], _ => True
  | i :: sched, c => P c i ∧ Along step P sched (fire step c i)

theorem along_iff {P : Config ι σ ℓ → ι → Prop} {sched : List ι} {c : Config ι σ ℓ} :
    Along step P sched c ↔
      ∀ pre i post, sched = pre ++ i :: post → P (exec step pre c) i := by
  induction sched generalizing c with
  | nil => simp [Along]
  | cons j sched ih =>
      rw [Along, ih]
      constructor
      · rintro ⟨hj, hrest⟩ pre i post heq
        cases pre with
        | nil =>
            obtain ⟨rfl, -⟩ := List.cons.inj heq
            exact hj
        | cons k pre =>
            obtain ⟨rfl, htail⟩ := List.cons.inj heq
            exact hrest pre i post htail
      · intro h
        refine ⟨h [] j sched rfl, ?_⟩
        rintro pre i post rfl
        exact h (j :: pre) i post rfl

theorem exec_invariant_along {P : Config ι σ ℓ → ι → Prop} {Inv : Config ι σ ℓ → Prop}
    (hstep : ∀ c i, Inv c → P c i → Inv (fire step c i)) {sched : List ι}
    {c : Config ι σ ℓ} (hP : Along step P sched c) (h : Inv c) : Inv (exec step sched c) := by
  induction sched generalizing c with
  | nil => exact h
  | cons i sched ih =>
      obtain ⟨hi, hrest⟩ := hP
      exact ih hrest (hstep c i h hi)

theorem exec_invariant {Inv : Config ι σ ℓ → Prop}
    (hstep : ∀ c i, Inv c → Inv (fire step c i)) (sched : List ι)
    {c : Config ι σ ℓ} (h : Inv c) : Inv (exec step sched c) := by
  induction sched generalizing c with
  | nil => exact h
  | cons i sched ih => exact ih (hstep c i h)

end MasterAgent.Interleave
