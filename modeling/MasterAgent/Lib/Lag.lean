/-
  MasterAgent.Lib.Lag

  A consumer that falls behind.  The trace of a consumed program has each reaction
  right after the act that it answers.  Where the consumer is a task of its own the
  reactions come later, or not at all, and the program goes on in the meantime.

  `Lags` says which acts are then seen: the late ones in their order, the prompt
  ones in theirs, and never more effects than causes.  What a monitor of the prompt
  acts allows of the trace it allows of them (`Lags.watch`), the effects begin the
  causes (`Lags.effects`), and they are all of them once the stream of the late
  acts is closed (`Lags.closed`).
-/

import MasterAgent.Lib.Monitor
import MasterAgent.Lib.TraceLang

namespace MasterAgent.Effect

variable {G τ α : Type}

/-- `part` is what is seen of a run with the trace `whole` where the late acts, and
    with them the effects, may come later than they stand in it. -/
structure Lags (late : τ → Bool) (cause effect : τ → Option α) (whole part : List τ) :
    Prop where
  prompt : part.filter (fun t => !late t) <+: whole.filter fun t => !late t
  inOrder : part.filter late <+: whole.filter late
  causal : ∀ pre, pre <+: part → (word effect pre).length ≤ (word cause pre).length

/-- The causes are prompt and the effects are late. -/
structure Delays (late : τ → Bool) (cause effect : τ → Option α) : Prop where
  cause : ∀ t, late t = true → cause t = none
  effect : ∀ t, late t = false → effect t = none

theorem word_filter {sel : τ → Bool} {f : τ → Option α} (h : ∀ t, sel t = false → f t = none)
    (ts : List τ) : word f (ts.filter sel) = word f ts := by
  rw [word, List.filterMap_filter]
  refine List.filterMap_congr fun t _ => ?_
  cases hsel : sel t with
  | true => rfl
  | false => exact (h t hsel).symm

section Lags

variable {late : τ → Bool} {cause effect : τ → Option α} {whole part pre : List τ}

/-- What was seen earlier of the run. -/
theorem Lags.of_part (h : Lags late cause effect whole part) (hpre : pre <+: part) :
    Lags late cause effect whole pre where
  prompt := (hpre.filter _).trans h.prompt
  inOrder := (hpre.filter _).trans h.inOrder
  causal := fun before hbefore => h.causal before (hbefore.trans hpre)

/-- Only acts of the run are seen. -/
theorem Lags.subset (h : Lags late cause effect whole part) : part ⊆ whole := by
  intro t ht
  cases hlate : late t with
  | true => exact (List.mem_filter.mp (h.inOrder.subset (List.mem_filter.mpr ⟨ht, hlate⟩))).1
  | false =>
      have hprompt : t ∈ part.filter fun t => !late t :=
        List.mem_filter.mpr ⟨ht, by rw [hlate]; rfl⟩
      exact (List.mem_filter.mp (h.prompt.subset hprompt)).1

theorem Lags.causes_isPrefix (h : Lags late cause effect whole part)
    (hdelays : Delays late cause effect) : word cause part <+: word cause whole := by
  have hprompt : ∀ t, (!late t) = false → cause t = none :=
    fun t ht => hdelays.cause t (by simpa using ht)
  rw [← word_filter hprompt part, ← word_filter hprompt whole]
  exact h.prompt.filterMap cause

theorem Lags.effects_isPrefix (h : Lags late cause effect whole part)
    (hdelays : Delays late cause effect) : word effect part <+: word effect whole := by
  rw [← word_filter hdelays.effect part, ← word_filter hdelays.effect whole]
  exact h.inOrder.filterMap effect

/-- The effects begin the causes. -/
theorem Lags.effects (h : Lags late cause effect whole part)
    (hdelays : Delays late cause effect) (hwhole : word effect whole <+: word cause whole) :
    word effect part <+: word cause part := by
  have heffects := (h.effects_isPrefix hdelays).trans hwhole
  have hcauses := h.causes_isPrefix hdelays
  exact List.prefix_of_prefix_length_le heffects hcauses (h.causal part (List.prefix_refl _))

/-- Once the last late act of the run is seen, the effects are all the causes. -/
theorem Lags.closed (h : Lags late cause effect whole part)
    (hdelays : Delays late cause effect) (hwhole : word effect whole = word cause whole) {t : τ}
    (hmem : t ∈ part) (hlate : late t = true)
    (hlast : ∀ before after, whole = before ++ t :: after → ∀ u ∈ after, late u = false) :
    word effect part = word cause part := by
  -- the late acts of the run are those seen
  have hall : part.filter late = whole.filter late := by
    obtain ⟨pre, post, hpart⟩ := List.append_of_mem (List.mem_filter.mpr ⟨hmem, hlate⟩)
    obtain ⟨rest, hrest⟩ := h.inOrder
    have hsplit : whole.filter late = pre ++ t :: (post ++ rest) := by
      rw [← hrest, hpart, List.append_assoc, List.cons_append]
    obtain ⟨before, after, hbefore, -, hafter⟩ := List.filter_eq_append_iff.mp hsplit
    obtain ⟨skipped, after', rfl, -, -, hafter'⟩ := List.filter_eq_cons_iff.mp hafter
    have hnone : after'.filter late = [] := by
      rw [List.filter_eq_nil_iff]
      intro u hu
      rw [hlast (before ++ skipped) after' (by rw [hbefore, List.append_assoc]) u hu]
      exact Bool.false_ne_true
    rw [hafter', List.append_eq_nil_iff] at hnone
    rw [← hrest, hnone.2, List.append_nil]
  have hseen : word effect part = word cause whole := by
    rw [← hwhole, ← word_filter hdelays.effect part, hall, word_filter hdelays.effect whole]
  have hcauses := h.causes_isPrefix hdelays
  have hlength := h.causal part (List.prefix_refl _)
  rw [hseen] at hlength ⊢
  exact (hcauses.eq_of_length (Nat.le_antisymm hcauses.length_le hlength)).symm

/-- A monitor that does not care about the late acts allows what is seen of a run
    that it allows. -/
theorem Lags.watch {δ : G → τ → Option G} {g g' : G} (h : Lags late cause effect whole part)
    (hquiet : ∀ g t, late t = true → δ g t = some g)
    (hwhole : MasterAgent.Effect.watch δ g whole = some g') :
    ∃ g₁, MasterAgent.Effect.watch δ g part = some g₁ := by
  have hprompt : ∀ g t, (!late t) = false → δ g t = some g :=
    fun g t ht => hquiet g t (by simpa using ht)
  rw [← watch_filter hprompt] at hwhole
  obtain ⟨rest, hrest⟩ := h.prompt
  rw [← hrest] at hwhole
  obtain ⟨g₁, hpart, -⟩ := watch_split hwhole
  rw [watch_filter hprompt] at hpart
  exact ⟨g₁, hpart⟩

/-- A consumer that keeps up lags behind nothing: a part of the trace itself. -/
theorem Lags.of_isPrefix (h : part <+: whole)
    (hcausal : ∀ pre, pre <+: whole → (word effect pre).length ≤ (word cause pre).length) :
    Lags late cause effect whole part where
  prompt := h.filter _
  inOrder := h.filter _
  causal := fun pre hpre => hcausal pre (hpre.trans h)

/-- A consumer that has not reacted to anything yet. -/
theorem Lags.unseen (h : Lags late cause effect whole part)
    (hdelays : Delays late cause effect) :
    Lags late cause effect whole (part.filter fun t => !late t) where
  prompt := by
    rw [List.filter_filter]
    simp only [Bool.and_self]
    exact h.prompt
  inOrder := by
    have hnone : (part.filter fun t => !late t).filter late = [] := by
      rw [List.filter_filter, List.filter_eq_nil_iff]
      intro t _
      cases late t <;> simp
    rw [hnone]
    exact List.nil_prefix
  causal := fun pre hpre => by
    have hnone : word effect pre = [] := by
      rw [word_eq_nil]
      intro t ht
      have hmem := List.mem_filter.mp (hpre.subset ht)
      exact hdelays.effect t (by simpa using hmem.2)
    rw [hnone]
    exact Nat.zero_le _

end Lags

end MasterAgent.Effect
