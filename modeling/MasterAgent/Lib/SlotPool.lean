/-
  MasterAgent.Lib.SlotPool

  Clients that share a pool of slots.  The acts of a client are read by a monitor,
  and in some states of it the client holds a slot.  An act that takes a slot waits
  for a free one; the slot of a client with no act left is free.

  Under a discipline in which a holder takes no second slot, clients never all
  wait (`Disciplined.exists_step`), and no run is longer than their acts
  (`remaining_path`): every run can be gone on with until all are through.
-/

import MasterAgent.Lib.Monitor
import MasterAgent.Lib.Transition
import Mathlib.Algebra.BigOperators.Group.Finset.Basic
import Mathlib.Algebra.Order.BigOperators.Group.Finset

namespace MasterAgent.SlotPool

open Effect

variable {ι G τ : Type}

/-- Which acts a client may do, when it holds a slot, and which acts take one.  Only
    these take one, and who holds a slot takes none. -/
structure Discipline (G τ : Type) where
  step : G → τ → Option G
  holds : G → Bool
  takes : τ → Bool
  takes_of_holds : ∀ {g t g'}, step g t = some g' → holds g' = true →
    holds g = true ∨ takes t = true
  takes_eq_false : ∀ {g t g'}, step g t = some g' → holds g = true → takes t = false

/-- A client: where its monitor is, and the acts to come. -/
structure Client (G τ : Type) where
  state : G
  acts : List τ

/-- The slots of a client that is not through. -/
def Client.slots (d : Discipline G τ) (c : Client G τ) : Nat :=
  if d.holds c.state = true ∧ c.acts ≠ [] then 1 else 0

section Pool

variable [Fintype ι] [DecidableEq ι] (d : Discipline G τ)

/-- The slots that are taken. -/
def inUse (cs : ι → Client G τ) : Nat := ∑ i, (cs i).slots d

/-- The acts that are left. -/
def remaining (cs : ι → Client G τ) : Nat := ∑ i, (cs i).acts.length

/-- Client `i` does its next act; if that takes a slot, one is free. -/
def Step (capacity : Nat) (cs : ι → Client G τ) (i : ι) (cs' : ι → Client G τ) : Prop :=
  ∃ t rest g', (cs i).acts = t :: rest ∧ d.step (cs i).state t = some g' ∧
    (d.takes t = true → inUse d cs < capacity) ∧ cs' = Function.update cs i ⟨g', rest⟩

/-- Every client keeps to the discipline with the acts that are left to it. -/
def Disciplined (cs : ι → Client G τ) : Prop :=
  ∀ i, ∃ g, watch d.step (cs i).state (cs i).acts = some g

variable {d} {capacity : Nat} {cs cs' : ι → Client G τ} {i : ι}

theorem Client.slots_le_one (c : Client G τ) : c.slots d ≤ 1 := by
  unfold Client.slots
  split <;> omega

theorem Client.slots_eq_one {c : Client G τ} :
    c.slots d = 1 ↔ d.holds c.state = true ∧ c.acts ≠ [] := by
  unfold Client.slots
  split
  · next h => exact iff_of_true rfl h
  · next h => exact iff_of_false (by omega) h

/-- A sum over the clients when one of them has gone on. -/
theorem sum_update (f : Client G τ → Nat) (cs : ι → Client G τ) (i : ι) (c : Client G τ) :
    ∑ j, f (Function.update cs i c j) + f (cs i) = ∑ j, f (cs j) + f c := by
  have hold := Finset.sum_erase_add Finset.univ (fun j => f (cs j)) (Finset.mem_univ i)
  have hnew := Finset.sum_erase_add Finset.univ (fun j => f (Function.update cs i c j))
    (Finset.mem_univ i)
  have hsame : ∑ j ∈ Finset.univ.erase i, f (Function.update cs i c j) =
      ∑ j ∈ Finset.univ.erase i, f (cs j) := by
    apply Finset.sum_congr rfl
    intro j hj
    rw [Function.update_of_ne (Finset.ne_of_mem_erase hj)]
  rw [Function.update_self, hsame] at hnew
  omega

-- ============================================================================
-- One step
-- ============================================================================

theorem Disciplined.step (h : Disciplined d cs) (hstep : Step d capacity cs i cs') :
    Disciplined d cs' := by
  obtain ⟨t, rest, g', hacts, hnext, -, rfl⟩ := hstep
  intro j
  by_cases hj : j = i
  · subst hj
    obtain ⟨g, hg⟩ := h j
    rw [hacts, watch_cons hnext] at hg
    rw [Function.update_self]
    exact ⟨g, hg⟩
  · rw [Function.update_of_ne hj]
    exact h j

theorem Step.remaining (hstep : Step d capacity cs i cs') :
    remaining cs = remaining cs' + 1 := by
  obtain ⟨t, rest, g', hacts, -, -, rfl⟩ := hstep
  have hsum := sum_update (fun c => c.acts.length) cs i ⟨g', rest⟩
  simp only [hacts, List.length_cons] at hsum
  unfold SlotPool.remaining
  omega

/-- No more slots are taken than there are. -/
theorem Step.inUse_le (h : inUse d cs ≤ capacity) (hstep : Step d capacity cs i cs') :
    inUse d cs' ≤ capacity := by
  obtain ⟨t, rest, g', hacts, hnext, htakes, rfl⟩ := hstep
  have hsum := sum_update (fun c => c.slots d) cs i ⟨g', rest⟩
  have hone := Client.slots_le_one (d := d) ⟨g', rest⟩
  unfold inUse at h htakes ⊢
  cases hslots : Client.slots d ⟨g', rest⟩ with
  | zero => omega
  | succ n =>
      have hlive : Client.slots d ⟨g', rest⟩ = 1 := by omega
      rcases d.takes_of_holds hnext (Client.slots_eq_one.mp hlive).1 with hheld | htook
      · have hbefore : (cs i).slots d = 1 :=
          Client.slots_eq_one.mpr ⟨hheld, by rw [hacts]; exact List.cons_ne_nil _ _⟩
        omega
      · have hfree := htakes htook
        omega

/-- While an act is left, some client can go on. -/
theorem Disciplined.exists_step (hcapacity : 0 < capacity) (h : Disciplined d cs)
    (hleft : ∃ i, (cs i).acts ≠ []) : ∃ i cs', Step d capacity cs i cs' := by
  have hgo : ∀ i, (cs i).acts ≠ [] →
      (∀ t g', d.step (cs i).state t = some g' → d.takes t = true → inUse d cs < capacity) →
      ∃ i cs', Step d capacity cs i cs' := by
    intro i hi hfree
    obtain ⟨t, rest, hacts⟩ := List.exists_cons_of_ne_nil hi
    obtain ⟨g, hg⟩ := h i
    rw [hacts, watch, Option.bind_eq_some_iff] at hg
    obtain ⟨g', hnext, -⟩ := hg
    exact ⟨i, _, t, rest, g', hacts, hnext, hfree t g' hnext, rfl⟩
  by_cases hholder : ∃ j, (cs j).slots d = 1
  · -- a holder waits for nothing
    obtain ⟨j, hj⟩ := hholder
    obtain ⟨hheld, hacts⟩ := Client.slots_eq_one.mp hj
    refine hgo j hacts fun t g' hnext htook => ?_
    rw [d.takes_eq_false hnext hheld] at htook
    cases htook
  · have hnone : inUse d cs = 0 := by
      apply Finset.sum_eq_zero
      intro j _
      have hle := Client.slots_le_one (d := d) (cs j)
      have hne : (cs j).slots d ≠ 1 := fun hj => hholder ⟨j, hj⟩
      omega
    obtain ⟨i, hi⟩ := hleft
    exact hgo i hi fun _ _ _ _ => by omega

-- ============================================================================
-- Runs
-- ============================================================================

variable {sched : List (ι × (ι → Client G τ))}

theorem Disciplined.path (h : Disciplined d cs) (hpath : Path (Step d capacity) cs sched cs') :
    Disciplined d cs' :=
  hpath.invariant (I := fun _ cs => Disciplined d cs) h fun _ _ _ _ h hstep => h.step hstep

theorem inUse_path (h : inUse d cs ≤ capacity) (hpath : Path (Step d capacity) cs sched cs') :
    inUse d cs' ≤ capacity :=
  hpath.invariant (I := fun _ cs => inUse d cs ≤ capacity) h fun _ _ _ _ h hstep =>
    hstep.inUse_le h

/-- A run is as long as the acts it does. -/
theorem remaining_path (hpath : Path (Step d capacity) cs sched cs') :
    remaining cs = remaining cs' + sched.length := by
  induction sched generalizing cs with
  | nil =>
      rw [show cs' = cs from hpath]
      rfl
  | cons a sched ih =>
      obtain ⟨j, cs₁⟩ := a
      obtain ⟨hstep, hrest⟩ := hpath
      have hone := hstep.remaining
      have hmany := ih hrest
      rw [List.length_cons]
      omega

/-- What a client has done, and where that left its monitor. -/
theorem path_done (hpath : Path (Step d capacity) cs sched cs') (i : ι) :
    ∃ done, (cs i).acts = done ++ (cs' i).acts ∧
      watch d.step (cs i).state done = some (cs' i).state := by
  induction sched generalizing cs with
  | nil =>
      rw [show cs' = cs from hpath]
      exact ⟨[], rfl, rfl⟩
  | cons a sched ih =>
      obtain ⟨j, cs₁⟩ := a
      obtain ⟨⟨t, rest, g', hacts, hnext, -, rfl⟩, hrest⟩ := hpath
      obtain ⟨done, hdone, hwatch⟩ := ih hrest
      by_cases hj : i = j
      · subst hj
        rw [Function.update_self] at hdone hwatch
        refine ⟨t :: done, ?_, ?_⟩
        · rw [hacts, List.cons_append, ← show rest = done ++ (cs' i).acts from hdone]
        · rw [watch_cons hnext]
          exact hwatch
      · rw [Function.update_of_ne hj] at hdone hwatch
        exact ⟨done, hdone, hwatch⟩

end Pool

end MasterAgent.SlotPool
