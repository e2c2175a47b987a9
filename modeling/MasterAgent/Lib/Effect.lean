/-
  MasterAgent.Lib.Effect

  Effectful programs over an abstract world.

  A program `Eff σ ε τ α` takes a world `σ`, and either returns an `α` or raises
  an `ε`.  It records the acts `τ` it performs, each with the world the act left
  behind, so that a caller which abandons the program halfway can still say
  which world it leaves.

  Reasoning is by one contract, `Meets p S`: whatever the world, the run of `p`
  is in the relation `S` between the initial world, the acts, the result and
  the final world.  `Meets.bind` composes contracts along the sequencing of
  programs; a proof about a long program states one contract a piece.
-/

import Mathlib.Computability.Language
import Mathlib.Data.List.Sort

namespace MasterAgent.Effect

/-- One run of a program: its result, the world it leaves, and the acts it
    performed, each with the world right after it. -/
structure Run (σ ε τ α : Type) where
  result : Except ε α
  world : σ
  acts : List (τ × σ)

/-- A program over world `σ` raising `ε`, performing acts `τ`, returning `α`. -/
def Eff (σ ε τ α : Type) : Type := σ → Run σ ε τ α

variable {σ ε τ α β γ : Type}

/-- The acts of a run, without the worlds. -/
def Run.trace (r : Run σ ε τ α) : List τ := r.acts.map Prod.fst

/-- `r` preceded by the acts `as`. -/
def Run.after (r : Run σ ε τ α) (as : List (τ × σ)) : Run σ ε τ α :=
  { r with acts := as ++ r.acts }

namespace Eff

/-- Return `a` without acting. -/
def ret (a : α) : Eff σ ε τ α := fun w => ⟨.ok a, w, []⟩

/-- Raise `e`. -/
def raise (e : ε) : Eff σ ε τ α := fun w => ⟨.error e, w, []⟩

/-- Run `p`, and `f` on its value unless `p` raised. -/
def andThen (p : Eff σ ε τ α) (f : α → Eff σ ε τ β) : Eff σ ε τ β := fun w =>
  match (p w).result with
  | .error e => ⟨.error e, (p w).world, (p w).acts⟩
  | .ok a => (f a (p w).world).after (p w).acts

instance : Monad (Eff σ ε τ) where
  pure := ret
  bind := andThen

/-- Perform the act `t`; the world is unchanged. -/
def act (t : τ) : Eff σ ε τ Unit := fun w => ⟨.ok (), w, [(t, w)]⟩

/-- Call the environment operation `f` and record the act its answer makes. -/
def call (f : σ → Except ε α × σ) (t : Except ε α → τ) : Eff σ ε τ α := fun w =>
  ⟨(f w).1, (f w).2, [(t (f w).1, (f w).2)]⟩

/-- Read a value off the world by an operation that cannot fail. -/
def draw (f : σ → α × σ) : Eff σ ε τ α := fun w => ⟨.ok (f w).1, (f w).2, []⟩

/-- Return or raise, as `x` says. -/
def ofExcept : Except ε α → Eff σ ε τ α
  | .ok a => ret a
  | .error e => raise e

/-- Run `p` and hand its exception, if any, to the caller as a value. -/
def attempt (p : Eff σ ε τ α) : Eff σ ε τ (Except ε α) := fun w =>
  ⟨.ok (p w).result, (p w).world, (p w).acts⟩

/-- Perform the acts `ts` one after another and give `r`; the world is unchanged. -/
def play (ts : List τ) (r : Except ε α) : Eff σ ε τ α := fun w =>
  ⟨r, w, ts.map fun t => (t, w)⟩

-- ============================================================================
-- Running the combinators
-- ============================================================================

@[simp] theorem pure_apply (a : α) (w : σ) :
    (pure a : Eff σ ε τ α) w = ⟨.ok a, w, []⟩ := rfl

@[simp] theorem raise_apply (e : ε) (w : σ) :
    (raise e : Eff σ ε τ α) w = ⟨.error e, w, []⟩ := rfl

@[simp] theorem act_apply (t : τ) (w : σ) :
    (act t : Eff σ ε τ Unit) w = ⟨.ok (), w, [(t, w)]⟩ := rfl

@[simp] theorem attempt_apply (p : Eff σ ε τ α) (w : σ) :
    attempt p w = ⟨.ok (p w).result, (p w).world, (p w).acts⟩ := rfl

theorem bind_apply (p : Eff σ ε τ α) (f : α → Eff σ ε τ β) (w : σ) :
    (p >>= f) w =
      match (p w).result with
      | .error e => ⟨.error e, (p w).world, (p w).acts⟩
      | .ok a => (f a (p w).world).after (p w).acts := rfl

theorem bind_of_ok {p : Eff σ ε τ α} {f : α → Eff σ ε τ β} {w : σ} {a : α}
    (h : (p w).result = .ok a) :
    (p >>= f) w = (f a (p w).world).after (p w).acts := by
  rw [bind_apply, h]

theorem bind_of_error {p : Eff σ ε τ α} {f : α → Eff σ ε τ β} {w : σ} {e : ε}
    (h : (p w).result = .error e) :
    (p >>= f) w = ⟨.error e, (p w).world, (p w).acts⟩ := by
  rw [bind_apply, h]

/-- The acts of a sequence. -/
theorem bind_trace (p : Eff σ ε τ α) (f : α → Eff σ ε τ β) (w : σ) :
    ((p >>= f) w).trace = (p w).trace ++ match (p w).result with
      | .ok a => (f a (p w).world).trace
      | .error _ => [] := by
  cases hr : (p w).result with
  | ok a =>
      rw [bind_of_ok hr, Run.trace, Run.after, List.map_append]
      rfl
  | error e =>
      rw [bind_of_error hr, List.append_nil]
      rfl

/-- A sequence returns when both its programs do. -/
theorem exists_of_bind_ok {p : Eff σ ε τ α} {f : α → Eff σ ε τ β} {w : σ} {b : β}
    (h : ((p >>= f) w).result = .ok b) :
    ∃ a, (p w).result = .ok a ∧ (f a (p w).world).result = .ok b := by
  cases hr : (p w).result with
  | error e =>
      rw [bind_of_error hr] at h
      cases h
  | ok a =>
      rw [bind_of_ok hr] at h
      exact ⟨a, rfl, h⟩

/-- The acts of the first program are acts of the sequence. -/
theorem mem_bind_left {p : Eff σ ε τ α} {f : α → Eff σ ε τ β} {w : σ} {t : τ}
    (h : t ∈ (p w).trace) : t ∈ ((p >>= f) w).trace := by
  cases hr : (p w).result with
  | error e =>
      rw [bind_of_error hr]
      exact h
  | ok a =>
      rw [bind_of_ok hr, Run.trace, Run.after, List.map_append]
      exact List.mem_append_left _ h

/-- So are those of the second one, where the first one returns. -/
theorem mem_bind_right {p : Eff σ ε τ α} {f : α → Eff σ ε τ β} {w : σ} {a : α} {t : τ}
    (ha : (p w).result = .ok a) (h : t ∈ (f a (p w).world).trace) : t ∈ ((p >>= f) w).trace := by
  rw [bind_of_ok ha, Run.trace, Run.after, List.map_append]
  exact List.mem_append_right _ h

-- ============================================================================
-- Programs that leave the world alone
-- ============================================================================

@[simp] theorem play_trace (ts : List τ) (r : Except ε α) (w : σ) :
    (play ts r w : Run σ ε τ α).trace = ts := by
  simp [play, Run.trace, Function.comp_def]

@[simp] theorem play_result (ts : List τ) (r : Except ε α) (w : σ) :
    (play ts r w : Run σ ε τ α).result = r := rfl

@[simp] theorem play_world (ts : List τ) (r : Except ε α) (w : σ) :
    (play ts r w : Run σ ε τ α).world = w := rfl

theorem pure_eq_play (a : α) : (pure a : Eff σ ε τ α) = play [] (.ok a) := rfl

theorem act_eq_play (t : τ) : (act t : Eff σ ε τ Unit) = play [t] (.ok ()) := rfl

/-- Acts played before a program are recorded in front of its own. -/
theorem play_ok_bind (ts : List τ) (a : α) (f : α → Eff σ ε τ β) (w : σ) :
    (play ts (.ok a) >>= f) w = (f a w).after (ts.map fun t => (t, w)) := rfl

/-- Playing on: what follows plays `us` from the value of the first part. -/
theorem play_ok_bind_of {ts us : List τ} {a : α} {f : α → Eff σ ε τ β} {r : Except ε β}
    (h : f a = play us r) : (play ts (.ok a) >>= f) = play (ts ++ us) r := by
  funext w
  rw [play_ok_bind, h]
  simp [play, Run.after]

theorem play_ok_bind_play (ts us : List τ) (a : α) (r : α → Except ε β) :
    (play ts (.ok a) >>= fun a => (play us (r a) : Eff σ ε τ β)) = play (ts ++ us) (r a) :=
  play_ok_bind_of rfl

theorem play_error_bind (ts : List τ) (e : ε) (f : α → Eff σ ε τ β) :
    (play ts (.error e) >>= f) = play ts (.error e) := rfl

-- ============================================================================
-- What a program can raise
-- ============================================================================

/-- Whatever `p` raises satisfies `P`. -/
def RaisesOnly (P : ε → Prop) (p : Eff σ ε τ α) : Prop :=
  ∀ w e, (p w).result = .error e → P e

theorem RaisesOnly.bind {P : ε → Prop} {p : Eff σ ε τ α} {f : α → Eff σ ε τ β}
    (hp : RaisesOnly P p) (hf : ∀ a, RaisesOnly P (f a)) : RaisesOnly P (p >>= f) := by
  intro w e h
  cases hr : (p w).result with
  | error e' =>
      rw [bind_of_error hr] at h
      cases h
      exact hp w _ hr
  | ok a =>
      rw [bind_of_ok hr] at h
      exact hf a _ e h

theorem RaisesOnly.ret {P : ε → Prop} (a : α) :
    RaisesOnly P (pure a : Eff σ ε τ α) := by
  intro w e h
  cases h

theorem RaisesOnly.act {P : ε → Prop} (t : τ) :
    RaisesOnly P (Eff.act t : Eff σ ε τ Unit) := by
  intro w e h
  cases h

theorem RaisesOnly.play {P : ε → Prop} {ts : List τ} {r : Except ε α}
    (h : ∀ e, r = .error e → P e) : RaisesOnly P (Eff.play ts r : Eff σ ε τ α) :=
  fun _ e he => h e he

theorem RaisesOnly.call {P : ε → Prop} {f : σ → Except ε α × σ} {t : Except ε α → τ}
    (h : ∀ w e, (f w).1 = .error e → P e) : RaisesOnly P (Eff.call f t) :=
  h

theorem RaisesOnly.ofExcept {P : ε → Prop} {x : Except ε α}
    (h : ∀ e, x = .error e → P e) : RaisesOnly P (Eff.ofExcept x : Eff σ ε τ α) := by
  intro w e he
  cases x with
  | ok a => cases he
  | error e' =>
      cases he
      exact h _ rfl

@[simp] theorem ofExcept_apply (r : Except ε α) (w : σ) :
    (Eff.ofExcept r : Eff σ ε τ α) w = ⟨r, w, []⟩ := by
  cases r <;> rfl

-- ============================================================================
-- What a program can return
-- ============================================================================

/-- Whatever `p` returns satisfies `P`. -/
def ReturnsOnly (P : α → Prop) (p : Eff σ ε τ α) : Prop :=
  ∀ w a, (p w).result = .ok a → P a

theorem ReturnsOnly.bind {P : β → Prop} {p : Eff σ ε τ α} {f : α → Eff σ ε τ β}
    (hf : ∀ a, ReturnsOnly P (f a)) : ReturnsOnly P (p >>= f) := by
  intro w b h
  cases hr : (p w).result with
  | error e =>
      rw [bind_of_error hr] at h
      cases h
  | ok a =>
      rw [bind_of_ok hr] at h
      exact hf a _ b h

theorem ReturnsOnly.ret {P : α → Prop} {a : α} (h : P a) :
    ReturnsOnly P (pure a : Eff σ ε τ α) := by
  intro w b hb
  cases hb
  exact h

-- ============================================================================
-- What a program can do
-- ============================================================================

/-- Every act of `p` satisfies `P`. -/
def ActsOnly (P : τ → Prop) (p : Eff σ ε τ α) : Prop := ∀ w, ∀ t ∈ (p w).trace, P t

theorem ActsOnly.mono {P Q : τ → Prop} {p : Eff σ ε τ α} (hp : ActsOnly P p)
    (h : ∀ t, P t → Q t) : ActsOnly Q p :=
  fun w t ht => h t (hp w t ht)

/-- What comes after `p` starts from something `p` returns. -/
theorem ActsOnly.bind_returns {P : τ → Prop} {Q : α → Prop} {p : Eff σ ε τ α}
    {f : α → Eff σ ε τ β} (hp : ActsOnly P p) (hreturns : ReturnsOnly Q p)
    (hf : ∀ a, Q a → ActsOnly P (f a)) : ActsOnly P (p >>= f) := by
  intro w t ht
  cases hr : (p w).result with
  | error e =>
      rw [bind_of_error hr] at ht
      exact hp w t ht
  | ok a =>
      rw [bind_of_ok hr, Run.trace, Run.after, List.map_append, List.mem_append] at ht
      rcases ht with ht | ht
      · exact hp w t ht
      · exact hf a (hreturns w a hr) _ t ht

theorem ActsOnly.bind {P : τ → Prop} {p : Eff σ ε τ α} {f : α → Eff σ ε τ β}
    (hp : ActsOnly P p) (hf : ∀ a, ActsOnly P (f a)) : ActsOnly P (p >>= f) :=
  hp.bind_returns (fun _ _ _ => trivial : ReturnsOnly (fun _ => True) p) fun a _ => hf a

theorem ActsOnly.ret {P : τ → Prop} (a : α) : ActsOnly P (pure a : Eff σ ε τ α) :=
  fun _ _ h => (List.not_mem_nil h).elim

theorem ActsOnly.draw {P : τ → Prop} (f : σ → α × σ) :
    ActsOnly P (Eff.draw f : Eff σ ε τ α) :=
  fun _ _ h => (List.not_mem_nil h).elim

theorem ActsOnly.ofExcept {P : τ → Prop} (x : Except ε α) :
    ActsOnly P (Eff.ofExcept x : Eff σ ε τ α) := by
  intro w t ht
  rw [ofExcept_apply] at ht
  exact (List.not_mem_nil ht).elim

theorem ActsOnly.act {P : τ → Prop} {t : τ} (h : P t) :
    ActsOnly P (Eff.act t : Eff σ ε τ Unit) := by
  intro w t' ht
  rw [List.mem_singleton.mp ht]
  exact h

theorem ActsOnly.call {P : τ → Prop} {f : σ → Except ε α × σ} {t : Except ε α → τ}
    (h : ∀ r, P (t r)) : ActsOnly P (Eff.call f t) := by
  intro w t' ht
  rw [List.mem_singleton.mp ht]
  exact h _

theorem ActsOnly.attempt {P : τ → Prop} {p : Eff σ ε τ α} (hp : ActsOnly P p) :
    ActsOnly P (Eff.attempt p) :=
  hp

theorem ActsOnly.play {P : τ → Prop} {ts : List τ} {r : Except ε α} (h : ∀ t ∈ ts, P t) :
    ActsOnly P (Eff.play ts r : Eff σ ε τ α) := by
  intro w t ht
  rw [play_trace] at ht
  exact h t ht

-- ============================================================================
-- Programs that fail only visibly
-- ============================================================================

/-- A run of `p` all of whose acts are `fine` returns, and what it returns
    satisfies `Q`. -/
def Succeeds (fine : τ → Prop) (p : Eff σ ε τ α) (Q : α → Prop) : Prop :=
  ∀ w, (∀ t ∈ (p w).trace, fine t) → ∃ a, (p w).result = .ok a ∧ Q a

section Succeeds

variable {fine : τ → Prop} {Q : α → Prop} {R : β → Prop}

theorem Succeeds.bind {p : Eff σ ε τ α} {f : α → Eff σ ε τ β} (hp : Succeeds fine p Q)
    (hf : ∀ a, Q a → Succeeds fine (f a) R) : Succeeds fine (p >>= f) R := by
  intro w hfine
  obtain ⟨a, hr, hQ⟩ := hp w fun t ht => hfine t (mem_bind_left ht)
  rw [bind_of_ok hr] at hfine ⊢
  refine hf a hQ _ fun t ht => hfine t ?_
  rw [Run.trace, Run.after, List.map_append]
  exact List.mem_append_right _ ht

theorem Succeeds.ret {a : α} (h : Q a) : Succeeds fine (pure a : Eff σ ε τ α) Q :=
  fun _ _ => ⟨a, rfl, h⟩

theorem Succeeds.act {Q : Unit → Prop} {t : τ} (h : Q ()) :
    Succeeds fine (Eff.act t : Eff σ ε τ Unit) Q :=
  fun _ _ => ⟨(), rfl, h⟩

theorem Succeeds.call {f : σ → Except ε α × σ} {t : Except ε α → τ}
    (h : ∀ r, fine (t r) → ∃ a, r = .ok a ∧ Q a) : Succeeds fine (Eff.call f t) Q :=
  fun _ hfine => h _ (hfine _ (List.mem_singleton.mpr rfl))

/-- A call whose record shows what it raised. -/
theorem Succeeds.call_shown {f : σ → Except ε α × σ} {t : Except ε α → τ}
    (h : ∀ e, ¬ fine (t (.error e))) : Succeeds fine (Eff.call f t) fun _ => True := by
  refine .call fun r hr => ?_
  cases r with
  | ok a => exact ⟨a, rfl, trivial⟩
  | error e => exact (h e hr).elim

theorem Succeeds.draw {f : σ → α × σ} (h : ∀ a, Q a) :
    Succeeds fine (Eff.draw f : Eff σ ε τ α) Q :=
  fun w _ => ⟨(f w).1, rfl, h _⟩

theorem Succeeds.attempt {p : Eff σ ε τ α} (hp : Succeeds fine p Q) :
    Succeeds fine (Eff.attempt p) fun r => ∃ a, r = .ok a ∧ Q a := by
  intro w hfine
  obtain ⟨a, hr, hQ⟩ := hp w hfine
  exact ⟨.ok a, by rw [attempt_apply, hr], a, rfl, hQ⟩

theorem Succeeds.ofExcept {x : Except ε α} {a : α} (h : x = .ok a) (hQ : Q a) :
    Succeeds fine (Eff.ofExcept x : Eff σ ε τ α) Q := by
  intro w _
  rw [ofExcept_apply]
  exact ⟨a, h, hQ⟩

theorem Succeeds.play {ts : List τ} {r : Except ε α}
    (h : (∀ t ∈ ts, fine t) → ∃ a, r = .ok a ∧ Q a) :
    Succeeds fine (Eff.play ts r : Eff σ ε τ α) Q := by
  intro w hfine
  rw [play_trace] at hfine
  exact h hfine

end Succeeds

-- ============================================================================
-- Contracts
-- ============================================================================

/-- A relation between the initial world, the acts, the result and the final
    world of a run. -/
abbrev Spec (σ ε τ α : Type) : Type := σ → List τ → Except ε α → σ → Prop

/-- Every run of `p` is in the relation `S`. -/
def Meets (p : Eff σ ε τ α) (S : Spec σ ε τ α) : Prop :=
  ∀ w, S w (p w).trace (p w).result (p w).world

/-- The contract of a sequencing: the first program raised, or it returned and
    the second one ran from there. -/
def Spec.andThen (S : Spec σ ε τ α) (T : α → Spec σ ε τ β) : Spec σ ε τ β :=
  fun w t r w' =>
    (∃ e, r = .error e ∧ S w t (.error e) w') ∨
      ∃ a t₁ t₂ w₁, t = t₁ ++ t₂ ∧ S w t₁ (.ok a) w₁ ∧ T a w₁ t₂ r w'

theorem Meets.mono {p : Eff σ ε τ α} {S T : Spec σ ε τ α} (hp : Meets p S)
    (h : ∀ w t r w', S w t r w' → T w t r w') : Meets p T :=
  fun w => h _ _ _ _ (hp w)

theorem Meets.bind {p : Eff σ ε τ α} {f : α → Eff σ ε τ β} {S : Spec σ ε τ α}
    {T : α → Spec σ ε τ β} (hp : Meets p S) (hf : ∀ a, Meets (f a) (T a)) :
    Meets (p >>= f) (S.andThen T) := by
  intro w
  have hS := hp w
  cases hr : (p w).result with
  | error e =>
      rw [bind_of_error hr]
      rw [hr] at hS
      exact Or.inl ⟨e, rfl, hS⟩
  | ok a =>
      rw [bind_of_ok hr]
      rw [hr] at hS
      refine Or.inr ⟨a, (p w).trace, (f a (p w).world).trace, (p w).world, ?_, hS, hf a _⟩
      simp [Run.trace, Run.after]

/-- Sequencing with the composed contract weakened to `U`. -/
theorem Meets.bind_of {p : Eff σ ε τ α} {f : α → Eff σ ε τ β} {S : Spec σ ε τ α}
    {T : α → Spec σ ε τ β} {U : Spec σ ε τ β} (hp : Meets p S) (hf : ∀ a, Meets (f a) (T a))
    (herr : ∀ w t e w', S w t (.error e) w' → U w t (.error e) w')
    (hok : ∀ w t₁ a w₁ t₂ r w', S w t₁ (.ok a) w₁ → T a w₁ t₂ r w' → U w (t₁ ++ t₂) r w') :
    Meets (p >>= f) U := by
  refine (hp.bind hf).mono ?_
  rintro w t r w' (⟨e, rfl, hS⟩ | ⟨a, t₁, t₂, w₁, rfl, hS, hT⟩)
  · exact herr w t e w' hS
  · exact hok w t₁ a w₁ t₂ r w' hS hT

theorem Meets.ret {a : α} {S : Spec σ ε τ α} (h : ∀ w, S w [] (.ok a) w) :
    Meets (pure a : Eff σ ε τ α) S :=
  fun w => h w

end Eff

end MasterAgent.Effect
