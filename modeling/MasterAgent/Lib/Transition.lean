/-
  MasterAgent.Lib.Transition

  Runs as paths of a labelled transition system.

  `Traces view step p`: seen through `view`, every act of a run of `p` is a step
  of the system from the state the acts before it left, and the run leaves the
  state the last act led to.  What a step relation keeps, `Path.invariant` says
  of every state of a run, those in its middle included.
-/

import MasterAgent.Lib.Consume

namespace MasterAgent.Effect

variable {σ ε τ α β V : Type}

/-- From `v` along labels, each with the state it leads to, to `v'`. -/
def Path (step : V → τ → V → Prop) (v : V) : List (τ × V) → V → Prop
  | [], v' => v' = v
  | (t, v₁) :: rest, v' => step v t v₁ ∧ Path step v₁ rest v'

variable {step : V → τ → V → Prop} {v v' : V} {as bs : List (τ × V)}

theorem path_append :
    Path step v (as ++ bs) v' ↔ ∃ m, Path step v as m ∧ Path step m bs v' := by
  induction as generalizing v with
  | nil => simp [Path]
  | cons a as ih =>
      obtain ⟨t, v₁⟩ := a
      simp only [List.cons_append, Path, ih]
      constructor
      · rintro ⟨hstep, m, has, hbs⟩
        exact ⟨m, ⟨hstep, has⟩, hbs⟩
      · rintro ⟨m, ⟨hstep, has⟩, hbs⟩
        exact ⟨hstep, m, has, hbs⟩

/-- A path ends in the state of its last label. -/
theorem Path.end_eq (h : Path step v as v') : v' = (as.getLast?.map Prod.snd).getD v := by
  induction as generalizing v with
  | nil => exact h
  | cons a as ih =>
      obtain ⟨t, v₁⟩ := a
      rw [ih h.2, List.getLast?_cons]
      cases as.getLast? <;> rfl

/-- A path may be cut anywhere. -/
theorem Path.take (h : Path step v as v') (n : Nat) :
    Path step v (as.take n) (((as.take n).getLast?.map Prod.snd).getD v) := by
  rw [← List.take_append_drop n as, path_append] at h
  obtain ⟨m, hm, -⟩ := h
  exact hm.end_eq ▸ hm

/-- What holds at the start and is kept by every step, the labels so far being
    known, holds where a path ends. -/
theorem Path.invariant {I : List τ → V → Prop} (h : Path step v as v') (hstart : I [] v)
    (hstep : ∀ past v t v', I past v → step v t v' → I (past ++ [t]) v') :
    I (as.map Prod.fst) v' := by
  have hgen : ∀ (as : List (τ × V)) (past : List τ) (v : V), I past v → Path step v as v' →
      I (past ++ as.map Prod.fst) v' := by
    intro as
    induction as with
    | nil =>
        intro past v hI hpath
        rw [List.map_nil, List.append_nil]
        exact hpath ▸ hI
    | cons a as ih =>
        intro past v hI hpath
        obtain ⟨t, v₁⟩ := a
        have hrest := ih (past ++ [t]) v₁ (hstep past v t v₁ hI hpath.1) hpath.2
        rwa [List.append_assoc] at hrest
  exact hgen as [] v hstart h

/-- Labels that leave every state as it is. -/
def Inert (step : V → τ → V → Prop) (t : τ) : Prop := ∀ v, step v t v

theorem path_inert {ts : List τ} (h : ∀ t ∈ ts, Inert step t) :
    Path step v (ts.map fun t => (t, v)) v := by
  induction ts with
  | nil => rfl
  | cons t ts ih =>
      exact ⟨h t List.mem_cons_self v, ih fun u hu => h u (List.mem_cons_of_mem _ hu)⟩

-- ============================================================================
-- Programs
-- ============================================================================

/-- The acts of a run with the views of the worlds they leave. -/
def Run.seen (view : σ → V) (r : Run σ ε τ α) : List (τ × V) :=
  r.acts.map fun a => (a.1, view a.2)

/-- Every run of `p` is a path. -/
def Traces (view : σ → V) (step : V → τ → V → Prop) (p : Eff σ ε τ α) : Prop :=
  ∀ w, Path step (view w) ((p w).seen view) (view (p w).world)

variable {view : σ → V}

theorem Traces.bind {p : Eff σ ε τ α} {f : α → Eff σ ε τ β} (hp : Traces view step p)
    (hf : ∀ a, Traces view step (f a)) : Traces view step (p >>= f) := by
  intro w
  cases hr : (p w).result with
  | error e =>
      rw [Eff.bind_of_error hr]
      exact hp w
  | ok a =>
      rw [Eff.bind_of_ok hr, Run.seen, Run.after, List.map_append]
      exact path_append.mpr ⟨_, hp w, hf a _⟩

theorem Traces.ret (a : α) : Traces view step (pure a : Eff σ ε τ α) := fun _ => rfl

theorem Traces.act {t : τ} (h : Inert step t) : Traces view step (Eff.act t : Eff σ ε τ Unit) :=
  fun w => ⟨h (view w), rfl⟩

theorem Traces.call {f : σ → Except ε α × σ} {t : Except ε α → τ}
    (h : ∀ w, step (view w) (t (f w).1) (view (f w).2)) : Traces view step (Eff.call f t) :=
  fun w => ⟨h w, rfl⟩

theorem Traces.draw {f : σ → α × σ} (h : ∀ w, view (f w).2 = view w) :
    Traces view step (Eff.draw f : Eff σ ε τ α) :=
  h

theorem Traces.ofExcept (x : Except ε α) : Traces view step (Eff.ofExcept x : Eff σ ε τ α) := by
  intro w
  rw [Eff.ofExcept_apply]
  rfl

theorem Traces.raise (e : ε) : Traces view step (Eff.raise e : Eff σ ε τ α) := fun _ => rfl

theorem Traces.attempt {p : Eff σ ε τ α} (hp : Traces view step p) :
    Traces view step (Eff.attempt p) :=
  hp

theorem Traces.play {ts : List τ} {r : Except ε α} (h : ∀ t ∈ ts, Inert step t) :
    Traces view step (Eff.play ts r : Eff σ ε τ α) := by
  intro w
  have hseen : (Eff.play ts r w : Run σ ε τ α).seen view = ts.map fun t => (t, view w) := by
    simp [Run.seen, Eff.play, Function.comp_def]
  rw [hseen]
  exact path_inert h

-- ============================================================================
-- Consumers
-- ============================================================================

/-- What a producer that is cut off leaves is on its path. -/
theorem path_worldLeft {w last : σ} {rest : List (τ × σ)} (grace : Nat)
    (h : Path step (view w) (rest.map fun a => (a.1, view a.2)) (view last)) :
    Path step (view w) ((rest.take grace).map fun a => (a.1, view a.2))
      (view (worldLeft w last grace rest)) := by
  unfold worldLeft
  split
  · next hle =>
    rw [List.take_of_length_le hle]
    exact h
  · have hcut := h.take grace
    rw [← List.map_take, List.getLast?_map, Option.map_map] at hcut
    cases hlast : (rest.take grace).getLast? with
    | none =>
        rw [hlast] at hcut
        exact hcut
    | some a =>
        rw [hlast] at hcut
        exact hcut

theorem Traces.consume {react : τ → Except ε (List τ)} {p : Eff σ ε τ α}
    (hp : Traces view step p) (hreact : ∀ t us, react t = .ok us → ∀ u ∈ us, Inert step u)
    (grace : Nat) : Traces view step (Eff.consume react grace p) := by
  intro w
  have hpath := hp w
  unfold Run.seen at hpath
  unfold Eff.consume
  generalize (p w).acts = acts at hpath
  generalize (p w).world = last at hpath ⊢
  generalize (p w).result.map (fun _ => ()) = r
  generalize view w = v at hpath ⊢
  induction acts generalizing v with
  | nil => exact hpath
  | cons a rest ih =>
      obtain ⟨t, w₁⟩ := a
      obtain ⟨hstep, hrest⟩ := hpath
      cases hr : react t with
      | error e =>
          simp only [consumeActs, hr]
          exact ⟨hstep, path_worldLeft grace hrest⟩
      | ok us =>
          have hcons : (consumeActs react grace r last ((t, w₁) :: rest)).seen view =
              (t, view w₁) :: ((us.map fun u => (u, view w₁)) ++
                (consumeActs react grace r last rest).seen view) := by
            simp [consumeActs, hr, Run.seen, Run.after, Function.comp_def]
          rw [hcons]
          have hworld : (consumeActs react grace r last ((t, w₁) :: rest)).world
              = (consumeActs react grace r last rest).world := by
            simp only [consumeActs, hr, Run.after]
          rw [hworld]
          exact ⟨hstep, path_append.mpr ⟨_, path_inert (hreact t us hr), ih _ hrest⟩⟩

end MasterAgent.Effect
