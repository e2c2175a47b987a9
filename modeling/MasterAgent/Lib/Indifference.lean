/-
  MasterAgent.Lib.Indifference

  One program in two worlds.  `Indifferent R p`: from worlds related by `R` the
  program does the same acts and ends the same way, and the worlds are related
  again after every act.  With `R` as "agree on what may be seen" this is
  noninterference; with `R` as "equal, and meeting `P`" it is a frame rule.
-/

import MasterAgent.Lib.Relational

namespace MasterAgent.Effect

variable {σ ε τ α β : Type} {R : σ → σ → Prop}

/-- The same act, and related worlds after it. -/
def ActAlike (R : σ → σ → Prop) (a b : τ × σ) : Prop := a.1 = b.1 ∧ R a.2 b.2

/-- Runs that cannot be told apart but by their worlds. -/
structure RunAlike (R : σ → σ → Prop) (r r' : Run σ ε τ α) : Prop where
  result : r.result = r'.result
  world : R r.world r'.world
  acts : List.Forall₂ (ActAlike R) r.acts r'.acts

theorem RunAlike.trace {r r' : Run σ ε τ α} (h : RunAlike R r r') : r.trace = r'.trace := by
  have hacts := h.acts
  rw [Run.trace, Run.trace]
  generalize r.acts = as at hacts
  generalize r'.acts = bs at hacts
  induction hacts with
  | nil => rfl
  | cons hab _ ih => rw [List.map_cons, List.map_cons, hab.1, ih]

namespace Eff

/-- From related worlds the runs of `p` are alike. -/
def Indifferent (R : σ → σ → Prop) (p : Eff σ ε τ α) : Prop :=
  ∀ w w', R w w' → RunAlike R (p w) (p w')

variable {p : Eff σ ε τ α}

-- ============================================================================
-- One rule a combinator
-- ============================================================================

theorem Indifferent.ret (a : α) : Indifferent R (pure a : Eff σ ε τ α) :=
  fun _ _ h => ⟨rfl, h, .nil⟩

theorem Indifferent.raise (e : ε) : Indifferent R (Eff.raise e : Eff σ ε τ α) :=
  fun _ _ h => ⟨rfl, h, .nil⟩

/-- What is known of the value of `p` may be used for the rest. -/
theorem Indifferent.bind_of {P : α → Prop} {f : α → Eff σ ε τ β} (hp : Indifferent R p)
    (hreturns : ∀ w w', R w w' → ∀ a, (p w).result = .ok a → P a)
    (hf : ∀ a, P a → Indifferent R (f a)) :
    Indifferent R (p >>= f) := by
  intro w w' h
  obtain ⟨hresult, hworld, hacts⟩ := hp w w' h
  cases hr : (p w).result with
  | error e =>
      rw [hr] at hresult
      rw [bind_of_error hr, bind_of_error hresult.symm]
      exact ⟨rfl, hworld, hacts⟩
  | ok a =>
      rw [hr] at hresult
      obtain ⟨hresult', hworld', hacts'⟩ := hf a (hreturns w w' h a hr) _ _ hworld
      rw [bind_of_ok hr, bind_of_ok hresult.symm]
      exact ⟨hresult', hworld', List.rel_append hacts hacts'⟩

theorem Indifferent.bind {f : α → Eff σ ε τ β} (hp : Indifferent R p)
    (hf : ∀ a, Indifferent R (f a)) : Indifferent R (p >>= f) :=
  hp.bind_of (fun _ _ _ _ _ => trivial) fun a (_ : True) => hf a

theorem Indifferent.act (t : τ) : Indifferent R (Eff.act t : Eff σ ε τ Unit) :=
  fun _ _ h => ⟨rfl, h, .cons ⟨rfl, h⟩ .nil⟩

/-- An operation that answers the same in related worlds. -/
theorem Indifferent.call {f : σ → Except ε α × σ} {t : Except ε α → τ}
    (hf : ∀ w w', R w w' → (f w).1 = (f w').1 ∧ R (f w).2 (f w').2) :
    Indifferent R (Eff.call f t) := by
  intro w w' h
  obtain ⟨hanswer, hworld⟩ := hf w w' h
  exact ⟨hanswer, hworld, .cons ⟨congrArg t hanswer, hworld⟩ .nil⟩

theorem Indifferent.draw {f : σ → α × σ}
    (hf : ∀ w w', R w w' → (f w).1 = (f w').1 ∧ R (f w).2 (f w').2) :
    Indifferent R (Eff.draw f : Eff σ ε τ α) := by
  intro w w' h
  obtain ⟨hvalue, hworld⟩ := hf w w' h
  exact ⟨congrArg Except.ok hvalue, hworld, .nil⟩

theorem Indifferent.ofExcept (x : Except ε α) :
    Indifferent R (Eff.ofExcept x : Eff σ ε τ α) := by
  intro w w' h
  rw [ofExcept_apply, ofExcept_apply]
  exact ⟨rfl, h, .nil⟩

theorem Indifferent.attempt (hp : Indifferent R p) : Indifferent R (Eff.attempt p) := by
  intro w w' h
  obtain ⟨hresult, hworld, hacts⟩ := hp w w' h
  exact ⟨congrArg Except.ok hresult, hworld, hacts⟩

theorem Indifferent.play (ts : List τ) (x : Except ε α) :
    Indifferent R (Eff.play ts x : Eff σ ε τ α) := by
  intro w w' h
  refine ⟨rfl, h, ?_⟩
  rw [Eff.play, Eff.play, List.forall₂_map_left_iff, List.forall₂_map_right_iff]
  exact List.forall₂_same.mpr fun t _ => ⟨rfl, h⟩

-- ============================================================================
-- Consumers
-- ============================================================================

theorem worldLeft_alike {w w' last last' : σ} {grace : Nat} {as bs : List (τ × σ)}
    (h : List.Forall₂ (ActAlike R) as bs) (hw : R w w') (hlast : R last last') :
    R (worldLeft w last grace as) (worldLeft w' last' grace bs) := by
  rw [worldLeft, worldLeft, h.length_eq]
  split
  · exact hlast
  · -- the world of the last act that still happens
    have hcut : List.Forall₂ (ActAlike R) (as.take grace).reverse (bs.take grace).reverse :=
      List.rel_reverse (List.forall₂_take grace h)
    rw [List.getLast?_eq_head?_reverse, List.getLast?_eq_head?_reverse]
    generalize (as.take grace).reverse = cs at hcut
    generalize (bs.take grace).reverse = ds at hcut
    cases hcut with
    | nil => exact hw
    | cons hcd _ => exact hcd.2

theorem consumeActs_alike (react : τ → Except ε (List τ)) (grace : Nat) (x : Except ε Unit)
    {last last' : σ} (hlast : R last last') {as bs : List (τ × σ)}
    (h : List.Forall₂ (ActAlike R) as bs) :
    RunAlike R (consumeActs react grace x last as) (consumeActs react grace x last' bs) := by
  induction h with
  | nil => exact ⟨rfl, hlast, .nil⟩
  | @cons a b as bs hab hrest ih =>
      obtain ⟨t, w⟩ := a
      obtain ⟨u, w'⟩ := b
      obtain ⟨rfl, hw⟩ : t = u ∧ R w w' := hab
      simp only [consumeActs]
      cases react t with
      | error e =>
          exact ⟨rfl, worldLeft_alike hrest hw hlast,
            .cons ⟨rfl, hw⟩ (List.forall₂_take grace hrest)⟩
      | ok us =>
          refine ⟨ih.result, ih.world, List.rel_append (.cons ⟨rfl, hw⟩ ?_) ih.acts⟩
          rw [List.forall₂_map_left_iff, List.forall₂_map_right_iff]
          exact List.forall₂_same.mpr fun u _ => ⟨rfl, hw⟩

/-- A consumer sees the acts only. -/
theorem Indifferent.consume (react : τ → Except ε (List τ)) (grace : Nat)
    (hp : Indifferent R p) : Indifferent R (Eff.consume react grace p) := by
  intro w w' h
  obtain ⟨hresult, hworld, hacts⟩ := hp w w' h
  rw [Eff.consume, Eff.consume, hresult]
  exact consumeActs_alike react grace _ hworld hacts

end Eff

end MasterAgent.Effect

namespace MasterAgent.StateGraph

open Effect

variable {κ σ ε τ S U : Type} {R : σ → σ → Prop}

/-- A visit does what its node does. -/
theorem visit_indifferent {sem : Semantics κ ε τ S U} {n : κ} {f : S → Eff σ ε τ U} {s : S}
    {β : Type} {next : S → Except ε β} (hf : Eff.Indifferent R (f s)) :
    Eff.Indifferent R (visit sem n f s next) :=
  (Eff.Indifferent.act _).bind fun _ => hf.bind fun _ => (Eff.Indifferent.ofExcept _).bind
    fun _ => (Eff.Indifferent.act _).bind fun _ => .ret _

/-- A visit leaves a state of the kind its update keeps. -/
theorem visit_keeps {sem : Semantics κ ε τ S U} {n : κ} {f : S → Eff σ ε τ U} {s : S}
    {β : Type} {next : S → Except ε β} {P : S → Prop} (hmerge : ∀ u, P (sem.merge s u)) :
    (visit sem n f s next).ReturnsOnly fun p => P p.1 := by
  intro w p hp
  obtain ⟨u, -, hstate, -⟩ := visit_ok hp
  rw [hstate]
  exact hmerge u

end MasterAgent.StateGraph
