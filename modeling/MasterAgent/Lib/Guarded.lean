/-
  MasterAgent.Lib.Guarded

  Triples that also speak of the middle of a run.  `Guarded I w p Q`: run from
  `w`, every act of `p` happens in a world that `I` allows, and `Q` holds of the
  result, the acts and the final world, whether `p` returns or raises.  An
  observer who looks in between sees `I`; whoever continues knows `Q`.
-/

import MasterAgent.Lib.Effect

namespace MasterAgent.Effect

variable {σ ε τ α β : Type}

/-- `I` at every act, and `Q` at the end. -/
structure Guarded (I : τ → σ → Prop) (w : σ) (p : Eff σ ε τ α)
    (Q : Except ε α → List τ → σ → Prop) : Prop where
  acts : ∀ a ∈ (p w).acts, I a.1 a.2
  post : Q (p w).result (p w).trace (p w).world

variable {I J : τ → σ → Prop} {w : σ} {p : Eff σ ε τ α} {f : α → Eff σ ε τ β}
  {Q Q' : Except ε α → List τ → σ → Prop} {R : Except ε β → List τ → σ → Prop}

theorem Guarded.mono (hp : Guarded I w p Q) (hI : ∀ t v, I t v → J t v)
    (hQ : ∀ r ts w', Q r ts w' → Q' r ts w') : Guarded J w p Q' where
  acts := fun a ha => hI _ _ (hp.acts a ha)
  post := hQ _ _ _ hp.post

/-- What an exception leaves is what the sequence leaves; what a value leaves is
    where the rest starts from. -/
theorem Guarded.bind (hp : Guarded I w p Q) (hraise : ∀ e ts w', Q (.error e) ts w' →
    R (.error e) ts w')
    (hf : ∀ a ts w', Q (.ok a) ts w' → Guarded I w' (f a) fun r us w'' => R r (ts ++ us) w'') :
    Guarded I w (p >>= f) R := by
  have hpost := hp.post
  cases hr : (p w).result with
  | error e =>
      rw [hr] at hpost
      have hrun := @Eff.bind_of_error _ _ _ _ _ p f w e hr
      exact ⟨hrun ▸ hp.acts, hrun ▸ hraise e _ _ hpost⟩
  | ok a =>
      rw [hr] at hpost
      have hrest := hf a _ _ hpost
      have hrun := @Eff.bind_of_ok _ _ _ _ _ p f w a hr
      refine ⟨fun b hb => ?_, ?_⟩
      · rw [hrun] at hb
        rcases List.mem_append.mp hb with hb | hb
        · exact hp.acts b hb
        · exact hrest.acts b hb
      · rw [hrun, Run.trace, Run.after, List.map_append]
        exact hrest.post

theorem Guarded.ret {a : α} (h : Q (.ok a) [] w) : Guarded I w (pure a : Eff σ ε τ α) Q where
  acts := fun _ hb => absurd hb List.not_mem_nil
  post := h

theorem Guarded.call {g : σ → Except ε α × σ} {t : Except ε α → τ} (hI : I (t (g w).1) (g w).2)
    (hQ : Q (g w).1 [t (g w).1] (g w).2) : Guarded I w (Eff.call g t) Q where
  acts := fun b hb => by
    rw [List.mem_singleton.mp hb]
    exact hI
  post := hQ

theorem Guarded.draw {g : σ → α × σ} (hQ : Q (.ok (g w).1) [] (g w).2) :
    Guarded I w (Eff.draw g : Eff σ ε τ α) Q where
  acts := fun _ hb => absurd hb List.not_mem_nil
  post := hQ

end MasterAgent.Effect
