/-
  MasterAgent.Lib.Machine

  Deterministic machines: a state and one input after another.

  `exec` runs a list of inputs.  `Along P` says that every input meets `P` in the
  state it arrives in.  An invariant may depend on the inputs already taken;
  `exec_invariant_along` carries it over every run whose inputs meet a
  condition, to every state on the way.
-/

import Mathlib.Computability.Language
import Mathlib.Data.List.Sort

namespace MasterAgent.Machine

variable {S ι : Type}

/-- Run the inputs from a state. -/
def exec (step : S → ι → S) (s : S) (inputs : List ι) : S := inputs.foldl step s

variable {step : S → ι → S} {s : S} {inputs : List ι}

@[simp] theorem exec_nil : exec step s [] = s := rfl

@[simp] theorem exec_cons (i : ι) : exec step s (i :: inputs) = exec step (step s i) inputs := rfl

theorem exec_append (inputs' : List ι) :
    exec step s (inputs ++ inputs') = exec step (exec step s inputs) inputs' :=
  List.foldl_append

theorem exec_concat (i : ι) : exec step s (inputs ++ [i]) = step (exec step s inputs) i := by
  rw [exec_append]
  rfl

/-- Every input meets `P`, given the inputs before it and the state it meets. -/
def Along (step : S → ι → S) (P : List ι → S → ι → Prop) (s : S) (inputs : List ι) : Prop :=
  ∀ past i rest, inputs = past ++ i :: rest → P past (exec step s past) i

theorem Along.before {P : List ι → S → ι → Prop} {past rest : List ι} (h : Along step P s inputs)
    (heq : inputs = past ++ rest) : Along step P s past := by
  intro past' i rest' heq'
  refine h past' i (rest' ++ rest) ?_
  rw [heq, heq', List.append_assoc, List.cons_append]

theorem Along.take {P : List ι → S → ι → Prop} (h : Along step P s inputs) (n : Nat) :
    Along step P s (inputs.take n) :=
  h.before (List.take_append_drop n inputs).symm

/-- An invariant of the inputs that meet a condition holds at the end of every
    run whose inputs meet it. -/
theorem exec_invariant_along {P : List ι → S → ι → Prop} {Inv : List ι → S → Prop}
    (hstart : Inv [] s)
    (hstep : ∀ past s i, Inv past s → P past s i → Inv (past ++ [i]) (step s i))
    (h : Along step P s inputs) : Inv inputs (exec step s inputs) := by
  -- from the left, the inputs split into those taken and those to come
  have hpre : ∀ rest past, inputs = past ++ rest → Inv past (exec step s past) →
      Inv inputs (exec step s inputs) := by
    intro rest
    induction rest with
    | nil =>
        intro past heq hinv
        rw [List.append_nil] at heq
        rw [heq]
        exact hinv
    | cons i rest ih =>
        intro past heq hinv
        apply ih (past ++ [i])
        · rw [heq, List.append_assoc]
          rfl
        · rw [exec_concat]
          exact hstep past _ i hinv (h past i rest heq)
  exact hpre inputs [] rfl hstart

/-- Two conditions that agree wherever an invariant holds that both keep up. -/
theorem along_congr {P Q : S → ι → Prop} {Inv : S → Prop} (hstart : Inv s)
    (hiff : ∀ s i, Inv s → (P s i ↔ Q s i)) (hstep : ∀ s i, Inv s → P s i → Inv (step s i)) :
    Along step (fun _ => P) s inputs ↔ Along step (fun _ => Q) s inputs := by
  constructor
  · intro h past i rest heq
    apply (hiff _ i ?_).mp (h past i rest heq)
    refine @exec_invariant_along _ _ _ _ _ (fun _ => P) (fun _ => Inv) hstart
      (fun _ s i hinv hp => hstep s i hinv hp) ?_
    exact (h.before heq)
  · intro h past i rest heq
    apply (hiff _ i ?_).mpr (h past i rest heq)
    refine @exec_invariant_along _ _ _ _ _ (fun _ => Q) (fun _ => Inv) hstart
      (fun _ s i hinv hq => hstep s i hinv ((hiff s i hinv).mpr hq)) ?_
    exact (h.before heq)

end MasterAgent.Machine
