/-
  MasterAgent.Lib.Monitor

  Safety monitors.  A monitor is a partial transition function: it reads acts
  one by one and gets stuck at an act it does not allow.  `watch` runs it over
  a list of acts.

  `Watched δ g p Q`: from the monitor state `g`, no run of `p` gets stuck, and a
  run that returns `a` leaves the monitor in a state `g'` with `Q a g'`.  The
  monitor state is a ghost variable of the program, and the rules are those of
  a program logic for it: one rule for each combinator.
-/

import MasterAgent.Lib.Consume

namespace MasterAgent.Effect

variable {G σ ε τ α β : Type}

/-- The state of the monitor after the acts `ts`, unless it gets stuck. -/
def watch (δ : G → τ → Option G) (g : G) : List τ → Option G
  | [] => some g
  | t :: ts => (δ g t).bind fun g' => watch δ g' ts

variable {δ : G → τ → Option G} {g g' : G} {ts us : List τ}

@[simp] theorem watch_nil : watch δ g [] = some g := rfl

theorem watch_cons {t : τ} (h : δ g t = some g') : watch δ g (t :: ts) = watch δ g' ts := by
  rw [watch, h]
  rfl

theorem watch_append : watch δ g (ts ++ us) = (watch δ g ts).bind fun g' => watch δ g' us := by
  induction ts generalizing g with
  | nil => rfl
  | cons t ts ih =>
      rw [List.cons_append, watch, watch]
      cases δ g t with
      | none => rfl
      | some g' => exact ih

/-- A watched history may be cut anywhere. -/
theorem watch_split (h : watch δ g (ts ++ us) = some g') :
    ∃ g₁, watch δ g ts = some g₁ ∧ watch δ g₁ us = some g' := by
  rw [watch_append, Option.bind_eq_some_iff] at h
  exact h

/-- What the monitor is in at an act, and what the act makes of it. -/
theorem watch_act {t : τ} (h : watch δ g (ts ++ t :: us) = some g') :
    ∃ g₁ g₂, watch δ g ts = some g₁ ∧ δ g₁ t = some g₂ ∧ watch δ g₂ us = some g' := by
  obtain ⟨g₁, hts, hrest⟩ := watch_split h
  rw [watch, Option.bind_eq_some_iff] at hrest
  obtain ⟨g₂, ht, hus⟩ := hrest
  exact ⟨g₁, g₂, hts, ht, hus⟩

/-- Acts the monitor does not care about. -/
theorem watch_quiet (h : ∀ t ∈ ts, δ g t = some g) : watch δ g ts = some g := by
  induction ts with
  | nil => rfl
  | cons t ts ih =>
      rw [watch_cons (h t List.mem_cons_self)]
      exact ih fun u hu => h u (List.mem_cons_of_mem _ hu)

/-- The monitor sees only the selected acts. -/
theorem watch_filter {sel : τ → Bool} (h : ∀ g t, sel t = false → δ g t = some g) :
    watch δ g (ts.filter sel) = watch δ g ts := by
  induction ts generalizing g with
  | nil => rfl
  | cons t ts ih =>
      cases hsel : sel t with
      | false => rw [List.filter_cons_of_neg (by simp [hsel]), watch_cons (h g t hsel), ih]
      | true =>
          rw [List.filter_cons_of_pos hsel, watch, watch]
          cases δ g t with
          | none => rfl
          | some g' => exact ih

/-- What holds at the start and is kept by every allowed act holds of a whole
    watched history and the state it ends in. -/
theorem watch_invariant {I : List τ → G → Prop} {g₀ : G} (hstart : I [] g₀)
    (hstep : ∀ past g t g', I past g → δ g t = some g' → I (past ++ [t]) g') {ts : List τ}
    {g : G} (h : watch δ g₀ ts = some g) : I ts g := by
  have hgen : ∀ (us past : List τ) (g₁ : G), I past g₁ → watch δ g₁ us = some g →
      I (past ++ us) g := by
    intro us
    induction us with
    | nil =>
        intro past g₁ hI hus
        rw [watch_nil, Option.some.injEq] at hus
        rw [List.append_nil]
        exact hus ▸ hI
    | cons t us ih =>
        intro past g₁ hI hus
        rw [watch, Option.bind_eq_some_iff] at hus
        obtain ⟨g₂, ht, hus⟩ := hus
        have hrest := ih (past ++ [t]) g₂ (hstep past g₁ t g₂ hI ht) hus
        rwa [List.append_assoc, List.singleton_append] at hrest
  exact hgen ts [] g₀ hstart h

-- ============================================================================
-- Programs
-- ============================================================================

/-- From `g` the monitor never gets stuck on `p`, and `Q` relates what `p`
    returns to the state it leaves the monitor in. -/
def Watched (δ : G → τ → Option G) (g : G) (p : Eff σ ε τ α) (Q : α → G → Prop) : Prop :=
  ∀ w, ∃ g', watch δ g (p w).trace = some g' ∧ ∀ a, (p w).result = .ok a → Q a g'

variable {Q : α → G → Prop} {R : β → G → Prop}

theorem Watched.bind {p : Eff σ ε τ α} {f : α → Eff σ ε τ β} (hp : Watched δ g p Q)
    (hf : ∀ a g', Q a g' → Watched δ g' (f a) R) : Watched δ g (p >>= f) R := by
  intro w
  obtain ⟨g₁, hwatch, hQ⟩ := hp w
  cases hr : (p w).result with
  | error e =>
      rw [Eff.bind_of_error hr]
      exact ⟨g₁, hwatch, nofun⟩
  | ok a =>
      obtain ⟨g₂, hrest, hR⟩ := hf a g₁ (hQ a hr) (p w).world
      rw [Eff.bind_of_ok hr]
      refine ⟨g₂, ?_, hR⟩
      rw [Run.trace, Run.after, List.map_append, watch_append, show
        watch δ g ((p w).acts.map Prod.fst) = some g₁ from hwatch]
      exact hrest

theorem Watched.mono {p : Eff σ ε τ α} {Q' : α → G → Prop} (hp : Watched δ g p Q)
    (h : ∀ a g', Q a g' → Q' a g') : Watched δ g p Q' := by
  intro w
  obtain ⟨g', hwatch, hQ⟩ := hp w
  exact ⟨g', hwatch, fun a ha => h a g' (hQ a ha)⟩

theorem Watched.ret {a : α} (h : Q a g) : Watched δ g (pure a : Eff σ ε τ α) Q := by
  intro w
  refine ⟨g, rfl, fun b hb => ?_⟩
  cases hb
  exact h

theorem Watched.act {t : τ} {g' : G} (h : δ g t = some g') :
    Watched δ g (Eff.act t : Eff σ ε τ Unit) fun _ g₁ => g₁ = g' :=
  fun _ => ⟨g', watch_cons h, fun _ _ => rfl⟩

/-- A call whose answer decides what becomes of the monitor. -/
theorem Watched.call_answer {f : σ → Except ε α × σ} {t : Except ε α → τ}
    (h : ∀ r, ∃ g', δ g (t r) = some g' ∧ ∀ a, r = .ok a → Q a g') :
    Watched δ g (Eff.call f t) Q := by
  intro w
  obtain ⟨g', hstep, hQ⟩ := h (f w).1
  exact ⟨g', watch_cons hstep, hQ⟩

theorem Watched.call {f : σ → Except ε α × σ} {t : Except ε α → τ} {g' : G}
    (h : ∀ r, δ g (t r) = some g') : Watched δ g (Eff.call f t) fun _ g₁ => g₁ = g' :=
  .call_answer fun r => ⟨g', h r, fun _ _ => rfl⟩

theorem Watched.attempt {p : Eff σ ε τ α} (hp : Watched δ g p Q) :
    Watched δ g (Eff.attempt p) fun r g' => ∀ a, r = .ok a → Q a g' := by
  intro w
  obtain ⟨g', hwatch, hQ⟩ := hp w
  refine ⟨g', hwatch, fun r hr a ha => hQ a ?_⟩
  cases hr
  exact ha

theorem Watched.ofExcept {x : Except ε α} (h : ∀ a, x = .ok a → Q a g) :
    Watched δ g (Eff.ofExcept x : Eff σ ε τ α) Q := by
  intro w
  rw [Eff.ofExcept_apply]
  exact ⟨g, rfl, h⟩

theorem Watched.play {ts : List τ} {r : Except ε α} {g' : G} (hts : watch δ g ts = some g')
    (hr : ∀ a, r = .ok a → Q a g') : Watched δ g (Eff.play ts r : Eff σ ε τ α) Q := by
  intro w
  rw [Eff.play_trace]
  exact ⟨g', hts, hr⟩

/-- A program the monitor does not care about, and what it returns. -/
theorem Watched.quiet {p : Eff σ ε τ α} (h : p.ActsOnly fun t => δ g t = some g)
    (hQ : ∀ w a, (p w).result = .ok a → Q a g) : Watched δ g p Q :=
  fun w => ⟨g, watch_quiet (h w), hQ w⟩

theorem Watched.draw {f : σ → α × σ} (h : ∀ a, Q a g) :
    Watched δ g (Eff.draw f : Eff σ ε τ α) Q :=
  fun _ => ⟨g, rfl, fun a _ => h a⟩

theorem Watched.raise {e : ε} : Watched δ g (Eff.raise e : Eff σ ε τ α) Q :=
  fun _ => ⟨g, rfl, nofun⟩

/-- The monitor is not stuck after any part of a run. -/
theorem Watched.watch_of_isPrefix {p : Eff σ ε τ α} (hp : Watched δ g p Q) {w : σ}
    (h : ts <+: (p w).trace) : ∃ g', watch δ g ts = some g' := by
  obtain ⟨rest, hrest⟩ := h
  obtain ⟨g', hwatch, -⟩ := hp w
  rw [← hrest] at hwatch
  obtain ⟨g₁, hts, -⟩ := watch_split hwatch
  exact ⟨g₁, hts⟩

-- ============================================================================
-- Consumers
-- ============================================================================

/-- Reactions the monitor does not care about. -/
theorem watch_withReaction {react : τ → Except ε (List τ)}
    (hreact : ∀ t us, react t = .ok us → ∀ u ∈ us, ∀ g, δ g u = some g) :
    watch δ g (ts.flatMap (withReaction react)) = watch δ g ts := by
  induction ts generalizing g with
  | nil => rfl
  | cons t ts ih =>
      have hone : ∀ g₁, watch δ g₁ (withReaction react t) = δ g₁ t := by
        intro g₁
        unfold withReaction
        cases hr : react t with
        | error e => simp [watch]
        | ok us =>
            simp only [watch]
            cases δ g₁ t with
            | none => rfl
            | some g₂ => exact watch_quiet fun u hu => hreact t us hr u hu g₂
      rw [List.flatMap_cons, watch_append, hone, watch]
      cases δ g t with
      | none => rfl
      | some g₁ => exact ih

/-- Consuming keeps to a monitor that does not care about the reactions. -/
theorem Watched.consume {react : τ → Except ε (List τ)} {p : Eff σ ε τ α}
    (hp : Watched δ g p Q)
    (hreact : ∀ t us, react t = .ok us → ∀ u ∈ us, ∀ g, δ g u = some g) (grace : Nat) :
    Watched δ g (Eff.consume react grace p) fun _ _ => True := by
  intro w
  rcases Eff.consume_cases react grace p w with
    ⟨-, -, -, ht⟩ | ⟨pre, t, post, e, htrace, -, -, -, ht⟩
  · obtain ⟨g', hwatch, -⟩ := hp w
    refine ⟨g', ?_, fun _ _ => trivial⟩
    rw [ht, watch_withReaction hreact]
    exact hwatch
  · -- the part of the run that still happens is a prefix of it
    have hprefix : pre ++ t :: post.take grace <+: (p w).trace := by
      rw [htrace, List.prefix_append_right_inj, List.prefix_cons_inj]
      exact List.take_prefix _ _
    obtain ⟨g', hwatch⟩ := hp.watch_of_isPrefix hprefix
    refine ⟨g', ?_, fun _ _ => trivial⟩
    rw [ht, watch_append, watch_withReaction hreact, ← watch_append]
    exact hwatch

/-- Reactions that change nothing once the monitor has allowed the act they
    answer. -/
theorem watch_withReaction_after {react : τ → Except ε (List τ)}
    (hreact : ∀ g t g' us, δ g t = some g' → react t = .ok us → ∀ u ∈ us, δ g' u = some g')
    (h : watch δ g ts = some g') : watch δ g (ts.flatMap (withReaction react)) = some g' := by
  induction ts generalizing g with
  | nil => exact h
  | cons t ts ih =>
      rw [watch, Option.bind_eq_some_iff] at h
      obtain ⟨g₁, ht, hts⟩ := h
      have hone : watch δ g (withReaction react t) = some g₁ := by
        unfold withReaction
        cases hr : react t with
        | error e => exact (watch_cons ht).trans rfl
        | ok us => exact (watch_cons ht).trans (watch_quiet (hreact g t g₁ us ht hr))
      rw [List.flatMap_cons, watch_append, hone]
      exact ih hts

/-- Consuming keeps to a monitor that allows the reactions. -/
theorem Watched.consume_after {react : τ → Except ε (List τ)} {p : Eff σ ε τ α}
    (hp : Watched δ g p Q)
    (hreact : ∀ g t g' us, δ g t = some g' → react t = .ok us → ∀ u ∈ us, δ g' u = some g')
    (grace : Nat) : Watched δ g (Eff.consume react grace p) fun _ _ => True := by
  intro w
  rcases Eff.consume_cases react grace p w with
    ⟨-, -, -, ht⟩ | ⟨pre, t, post, e, htrace, -, -, -, ht⟩
  · obtain ⟨g', hwatch, -⟩ := hp w
    refine ⟨g', ?_, fun _ _ => trivial⟩
    rw [ht]
    exact watch_withReaction_after hreact hwatch
  · have hprefix : pre ++ t :: post.take grace <+: (p w).trace := by
      rw [htrace, List.prefix_append_right_inj, List.prefix_cons_inj]
      exact List.take_prefix _ _
    obtain ⟨g', hwatch⟩ := hp.watch_of_isPrefix hprefix
    obtain ⟨g₁, hpre, hrest⟩ := watch_split hwatch
    refine ⟨g', ?_, fun _ _ => trivial⟩
    rw [ht, watch_append, watch_withReaction_after hreact hpre]
    exact hrest

/-- Acts that the monitor is past once they have been answered. -/
theorem watch_withReaction_answered {react : τ → Except ε (List τ)} (hok : Reacts react ts)
    (h : ∀ t ∈ ts, ∀ us, react t = .ok us → watch δ g (t :: us) = some g) :
    watch δ g (ts.flatMap (withReaction react)) = some g := by
  induction ts with
  | nil => rfl
  | cons t ts ih =>
      obtain ⟨us, hus⟩ := hok t List.mem_cons_self
      have hone : withReaction react t = t :: us := by rw [withReaction, hus]
      rw [List.flatMap_cons, hone, watch_append, h t List.mem_cons_self us hus]
      exact ih (fun u hu => hok u (List.mem_cons_of_mem _ hu))
        fun u hu => h u (List.mem_cons_of_mem _ hu)

-- ============================================================================
-- Programs that leave the monitor where it was
-- ============================================================================

/-- However `p` ends, the monitor is in `g` before it and after it. -/
def Steady (δ : G → τ → Option G) (g : G) (p : Eff σ ε τ α) : Prop :=
  ∀ w, watch δ g (p w).trace = some g

theorem Steady.watched {p : Eff σ ε τ α} (hp : Steady δ g p) :
    Watched δ g p fun _ g' => g' = g := fun w => ⟨g, hp w, fun _ _ => rfl⟩

theorem Steady.bind {p : Eff σ ε τ α} {f : α → Eff σ ε τ β} (hp : Steady δ g p)
    (hf : ∀ a, Steady δ g (f a)) : Steady δ g (p >>= f) := by
  intro w
  rw [Eff.bind_trace, watch_append, hp w, Option.bind_some]
  cases (p w).result with
  | ok a => exact hf a _
  | error e => rfl

theorem Steady.ret (a : α) : Steady δ g (pure a : Eff σ ε τ α) := fun _ => rfl

theorem Steady.raise (e : ε) : Steady δ g (Eff.raise e : Eff σ ε τ α) := fun _ => rfl

theorem Steady.attempt {p : Eff σ ε τ α} (hp : Steady δ g p) : Steady δ g (Eff.attempt p) := hp

theorem Steady.ofExcept (x : Except ε α) : Steady δ g (Eff.ofExcept x : Eff σ ε τ α) := by
  intro w
  rw [Eff.ofExcept_apply]
  rfl

theorem Steady.draw (f : σ → α × σ) : Steady δ g (Eff.draw f : Eff σ ε τ α) := fun _ => rfl

theorem Steady.act {t : τ} (h : δ g t = some g) : Steady δ g (Eff.act t : Eff σ ε τ Unit) :=
  fun _ => (watch_cons h).trans rfl

theorem Steady.call {f : σ → Except ε α × σ} {t : Except ε α → τ} (h : ∀ r, δ g (t r) = some g) :
    Steady δ g (Eff.call f t) :=
  fun w => (watch_cons (h (f w).1)).trans rfl

theorem Steady.quiet {p : Eff σ ε τ α} (h : p.ActsOnly fun t => δ g t = some g) :
    Steady δ g p :=
  fun w => watch_quiet (h w)

/-- A steady producer whose consumer reacts where the monitor allows it: it comes to
    its end and is steady, or a reaction fails and it is cut off. -/
theorem Steady.consume {react : τ → Except ε (List τ)} {p : Eff σ ε τ α} (hp : Steady δ g p)
    (hreact : ∀ g t g' us, δ g t = some g' → react t = .ok us → ∀ u ∈ us, δ g' u = some g')
    (grace : Nat) (w : σ) :
    watch δ g (Eff.consume react grace p w).trace = some g ∨
      ∃ g' t e, watch δ g (Eff.consume react grace p w).trace = some g' ∧
        t ∈ (Eff.consume react grace p w).trace ∧ react t = .error e := by
  rcases Eff.consume_cases react grace p w with
    ⟨-, -, -, ht⟩ | ⟨pre, t, post, e, htrace, -, he, -, ht⟩
  · refine Or.inl ?_
    rw [ht]
    exact watch_withReaction_after hreact (hp w)
  · have hsplit : (p w).trace = (pre ++ t :: post.take grace) ++ post.drop grace := by
      rw [htrace, List.append_assoc, List.cons_append, List.take_append_drop]
    have hwatch := hp w
    rw [hsplit] at hwatch
    obtain ⟨g', hwatch, -⟩ := watch_split hwatch
    obtain ⟨g₁, hpre, hrest⟩ := watch_split hwatch
    refine Or.inr ⟨g', t, e, ?_, ?_, he⟩
    · rw [ht, watch_append, watch_withReaction_after hreact hpre]
      exact hrest
    · rw [ht]
      exact List.mem_append_right _ List.mem_cons_self

end MasterAgent.Effect
