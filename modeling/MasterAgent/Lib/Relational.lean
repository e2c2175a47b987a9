/-
  MasterAgent.Lib.Relational

  Two programs side by side.  `Coupled R p q Q` says that from every world the
  runs of `p` and `q` keep step: act by act they are related by `R` and leave
  the same world, and at the end both raise the same exception or return values
  related by `Q`.  There is one rule for each combinator; what an observer sees
  of related acts is then the same in both runs.
-/

import MasterAgent.Lib.StateGraph
import MasterAgent.Lib.TraceLang
import Mathlib.Data.List.Forall2

namespace MasterAgent.Effect

variable {σ ε τ α β γ δ : Type}

/-- The same exception, or related values. -/
inductive Agree (Q : α → β → Prop) : Except ε α → Except ε β → Prop where
  | ok {a : α} {b : β} (h : Q a b) : Agree Q (.ok a) (.ok b)
  | error (e : ε) : Agree Q (.error e) (.error e)

theorem Agree.of_eq {x y : Except ε α} (h : x = y) : Agree Eq x y := by
  subst h
  cases x with
  | error e => exact .error e
  | ok a => exact .ok rfl

theorem Agree.eq {x y : Except ε α} (h : Agree Eq x y) : x = y := by
  cases h with
  | error e => rfl
  | ok h => rw [h]

theorem Agree.mono {Q Q' : α → β → Prop} {x : Except ε α} {y : Except ε β} (h : Agree Q x y)
    (hQ : ∀ a b, Q a b → Q' a b) : Agree Q' x y := by
  cases h with
  | error e => exact .error e
  | ok h => exact .ok (hQ _ _ h)

theorem Agree.map_unit {Q : α → β → Prop} {x : Except ε α} {y : Except ε β} (h : Agree Q x y) :
    x.map (fun _ => ()) = y.map fun _ => () := by
  cases h with
  | error e => rfl
  | ok h => rfl

/-- Related acts that leave the same world. -/
def Paired (R : τ → τ → Prop) (a b : τ × σ) : Prop := R a.1 b.1 ∧ a.2 = b.2

namespace Eff

/-- The runs of `p` and `q` keep step. -/
structure Coupled (R : τ → τ → Prop) (p : Eff σ ε τ α) (q : Eff σ ε τ β) (Q : α → β → Prop) :
    Prop where
  result : ∀ w, Agree Q (p w).result (q w).result
  world : ∀ w, (p w).world = (q w).world
  acts : ∀ w, List.Forall₂ (Paired R) (p w).acts (q w).acts

variable {R : τ → τ → Prop} {p : Eff σ ε τ α} {q : Eff σ ε τ β} {Q : α → β → Prop}

-- ============================================================================
-- One rule a combinator
-- ============================================================================

theorem Coupled.mono {Q' : α → β → Prop} (h : Coupled R p q Q) (hQ : ∀ a b, Q a b → Q' a b) :
    Coupled R p q Q' :=
  ⟨fun w => (h.result w).mono hQ, h.world, h.acts⟩

/-- A program keeps step with itself when its acts are related to themselves. -/
theorem Coupled.same {p : Eff σ ε τ α} (h : ActsOnly (fun t => R t t) p) : Coupled R p p Eq := by
  refine ⟨fun _ => .of_eq rfl, fun _ => rfl, fun w => List.forall₂_same.mpr fun a ha => ?_⟩
  exact ⟨h w a.1 (List.mem_map.mpr ⟨a, ha, rfl⟩), rfl⟩

/-- What the first program returns at all, it returns here. -/
theorem Coupled.returns {P : α → Prop} (h : Coupled R p q Q) (hp : p.ReturnsOnly P) :
    Coupled R p q fun a b => Q a b ∧ P a := by
  refine ⟨fun w => ?_, h.world, h.acts⟩
  have hresult := h.result w
  have hreturns := hp w
  generalize (p w).result = x at hresult hreturns
  generalize (q w).result = y at hresult
  cases hresult with
  | error e => exact .error e
  | ok hab => exact .ok ⟨hab, hreturns _ rfl⟩

theorem Coupled.ret {a : α} {b : β} (h : Q a b) :
    Coupled R (pure a : Eff σ ε τ α) (pure b : Eff σ ε τ β) Q :=
  ⟨fun _ => .ok h, fun _ => rfl, fun _ => .nil⟩

theorem Coupled.raise (e : ε) :
    Coupled R (Eff.raise e : Eff σ ε τ α) (Eff.raise e : Eff σ ε τ β) Q :=
  ⟨fun _ => .error e, fun _ => rfl, fun _ => .nil⟩

theorem Coupled.bind {f : α → Eff σ ε τ γ} {g : β → Eff σ ε τ δ} {T : γ → δ → Prop}
    (hp : Coupled R p q Q) (hf : ∀ a b, Q a b → Coupled R (f a) (g b) T) :
    Coupled R (p >>= f) (q >>= g) T := by
  have hrun : ∀ w, Agree T ((p >>= f) w).result ((q >>= g) w).result ∧
      ((p >>= f) w).world = ((q >>= g) w).world ∧
      List.Forall₂ (Paired R) ((p >>= f) w).acts ((q >>= g) w).acts := by
    intro w
    have hres := hp.result w
    have hworld := hp.world w
    have hacts := hp.acts w
    rw [bind_apply, bind_apply]
    generalize (p w).result = x at hres
    generalize (q w).result = y at hres
    cases hres with
    | error e => exact ⟨.error e, hworld, hacts⟩
    | @ok a b hab =>
        have hnext := hf a b hab
        rw [← hworld]
        exact ⟨hnext.result _, hnext.world _, List.rel_append hacts (hnext.acts _)⟩
  exact ⟨fun w => (hrun w).1, fun w => (hrun w).2.1, fun w => (hrun w).2.2⟩

theorem Coupled.act {t u : τ} (h : R t u) :
    Coupled R (Eff.act t : Eff σ ε τ Unit) (Eff.act u) fun _ _ => True :=
  ⟨fun _ => .ok trivial, fun _ => rfl, fun _ => .cons ⟨h, rfl⟩ .nil⟩

theorem Coupled.ofExcept {x : Except ε α} {y : Except ε β} (h : Agree Q x y) :
    Coupled R (Eff.ofExcept x : Eff σ ε τ α) (Eff.ofExcept y) Q := by
  refine ⟨fun w => ?_, fun w => ?_, fun w => ?_⟩
  · rw [ofExcept_apply, ofExcept_apply]
    exact h
  · rw [ofExcept_apply, ofExcept_apply]
  · rw [ofExcept_apply, ofExcept_apply]
    exact .nil

theorem Coupled.attempt (h : Coupled R p q Q) :
    Coupled R (Eff.attempt p) (Eff.attempt q) (Agree Q) :=
  ⟨fun w => .ok (h.result w), h.world, h.acts⟩

theorem Coupled.play {ts us : List τ} {x : Except ε α} {y : Except ε β}
    (hacts : List.Forall₂ R ts us) (h : Agree Q x y) :
    Coupled R (Eff.play ts x : Eff σ ε τ α) (Eff.play us y) Q := by
  refine ⟨fun _ => h, fun _ => rfl, fun w => ?_⟩
  rw [Eff.play, Eff.play, List.forall₂_map_left_iff, List.forall₂_map_right_iff]
  exact hacts.imp fun _ _ h => ⟨h, rfl⟩

-- ============================================================================
-- Consumers
-- ============================================================================

/-- Producers that keep step leave abandoned worlds that are the same. -/
theorem worldLeft_paired {w last : σ} {grace : Nat} {as bs : List (τ × σ)}
    (h : List.Forall₂ (Paired R) as bs) :
    worldLeft w last grace as = worldLeft w last grace bs := by
  have hworlds : as.map Prod.snd = bs.map Prod.snd := by
    induction h with
    | nil => rfl
    | cons hab _ ih => rw [List.map_cons, List.map_cons, hab.2, ih]
  have hlast : ∀ cs : List (τ × σ),
      (cs.take grace).getLast?.map Prod.snd = ((cs.map Prod.snd).take grace).getLast? := by
    intro cs
    rw [← List.map_take, List.getLast?_map]
  rw [worldLeft, worldLeft, h.length_eq, hlast, hlast, hworlds]

theorem consumeActs_paired {react react' : τ → Except ε (List τ)} {grace : Nat}
    (hreact : ∀ t u, R t u → Agree (List.Forall₂ R) (react t) (react' u)) {x y : Except ε Unit}
    (hxy : x = y) (last : σ) {as bs : List (τ × σ)} (h : List.Forall₂ (Paired R) as bs) :
    let r := consumeActs react grace x last as
    let r' := consumeActs react' grace y last bs
    r.result = r'.result ∧ r.world = r'.world ∧ List.Forall₂ (Paired R) r.acts r'.acts := by
  subst hxy
  induction h with
  | nil => exact ⟨rfl, rfl, .nil⟩
  | @cons a b as bs hab hrest ih =>
      obtain ⟨t, w⟩ := a
      obtain ⟨u, w'⟩ := b
      obtain ⟨hR, rfl⟩ : R t u ∧ w = w' := hab
      have hagree := hreact t u hR
      simp only [consumeActs]
      generalize react t = x at hagree
      generalize react' u = y at hagree
      cases hagree with
      | error e =>
          exact ⟨rfl, worldLeft_paired hrest,
            .cons ⟨hR, rfl⟩ (List.forall₂_take grace hrest)⟩
      | ok hout =>
          refine ⟨ih.1, ih.2.1, List.rel_append (.cons ⟨hR, rfl⟩ ?_) ih.2.2⟩
          rw [List.forall₂_map_left_iff, List.forall₂_map_right_iff]
          exact hout.imp fun _ _ h => ⟨h, rfl⟩

/-- Consumers whose reactions to related acts are related. -/
theorem Coupled.consume {react react' : τ → Except ε (List τ)} (grace : Nat)
    (h : Coupled R p q Q)
    (hreact : ∀ t u, R t u → Agree (List.Forall₂ R) (react t) (react' u)) :
    Coupled R (Eff.consume react grace p) (Eff.consume react' grace q) Eq := by
  have hrun : ∀ w,
      (Eff.consume react grace p w).result = (Eff.consume react' grace q w).result ∧
        (Eff.consume react grace p w).world = (Eff.consume react' grace q w).world ∧
        List.Forall₂ (Paired R) (Eff.consume react grace p w).acts
          (Eff.consume react' grace q w).acts := by
    intro w
    rw [Eff.consume, Eff.consume, h.world w]
    exact consumeActs_paired hreact (h.result w).map_unit _ (h.acts w)
  exact ⟨fun w => .of_eq (hrun w).1, fun w => (hrun w).2.1, fun w => (hrun w).2.2⟩

-- ============================================================================
-- What an observer sees
-- ============================================================================

theorem Coupled.trace (h : Coupled R p q Q) (w : σ) :
    List.Forall₂ R (p w).trace (q w).trace := by
  rw [Run.trace, Run.trace, List.forall₂_map_left_iff, List.forall₂_map_right_iff]
  exact (h.acts w).imp fun _ _ h => h.1

/-- Whoever cannot tell related acts apart sees the same in both runs. -/
theorem Coupled.word {ς : Type} {sym sym' : τ → Option ς} (h : Coupled R p q Q)
    (hsym : ∀ t u, R t u → sym t = sym' u) (w : σ) :
    Effect.word sym (p w).trace = Effect.word sym' (q w).trace := by
  have htrace := h.trace w
  generalize (p w).trace = ts at htrace
  generalize (q w).trace = us at htrace
  induction htrace with
  | nil => rfl
  | cons htu _ ih => rw [word_cons, word_cons, ih, hsym _ _ htu]

end Eff

end MasterAgent.Effect

namespace MasterAgent.StateGraph

open Effect

variable {κ σ ε τ S U : Type}

/-- Visits of two nodes keep step when the nodes do, and the updates they return
    are merged into related states with related ways on. -/
theorem visit_coupled {R : τ → τ → Prop} {sem : Semantics κ ε τ S U} {n n' : κ}
    {f f' : S → Eff σ ε τ U} {s s' : S} {β γ : Type} {next : S → Except ε β}
    {next' : S → Except ε γ} {Q : U → U → Prop} {T : S × β → S × γ → Prop}
    (henter : R (sem.enter n) (sem.enter n')) (hf : Eff.Coupled R (f s) (f' s') Q)
    (hwrite : ∀ u u', Q u u' → R (sem.write n u) (sem.write n' u'))
    (hnext : ∀ u u', Q u u' → Agree (fun b c => T (sem.merge s u, b) (sem.merge s' u', c))
      (next (sem.merge s u)) (next' (sem.merge s' u'))) :
    Eff.Coupled R (visit sem n f s next) (visit sem n' f' s' next') T :=
  (Eff.Coupled.act henter).bind fun _ _ _ =>
    hf.bind fun u u' hu =>
      (Eff.Coupled.ofExcept (hnext u u' hu)).bind fun _ _ hT =>
        (Eff.Coupled.act (hwrite u u' hu)).bind fun _ _ _ => .ret hT

end MasterAgent.StateGraph
