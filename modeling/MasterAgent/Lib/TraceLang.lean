/-
  MasterAgent.Lib.TraceLang

  Languages of visible symbols for effectful programs.

  `Follows sym L p`: read through the partial projection `sym`, the acts of a
  run of `p` that returns spell a word of `L`, and the acts of a run that raises
  spell a prefix of one.  Sequencing multiplies languages, so the grammar of a
  long program is assembled from the grammars of its pieces.
-/

import MasterAgent.Lib.Consume
import Mathlib.Order.CompletePartialOrder

namespace MasterAgent.Effect

open Computability

variable {σ ε τ α β : Type} {ς : Type}

/-- The word of visible symbols that the acts `t` spell. -/
def word (sym : τ → Option ς) (t : List τ) : List ς := t.filterMap sym

@[simp] theorem word_nil (sym : τ → Option ς) : word sym [] = [] := rfl

@[simp] theorem word_append (sym : τ → Option ς) (t u : List τ) :
    word sym (t ++ u) = word sym t ++ word sym u :=
  List.filterMap_append

theorem word_cons (sym : τ → Option ς) (t : τ) (ts : List τ) :
    word sym (t :: ts) = (sym t).toList ++ word sym ts := by
  cases h : sym t <;> simp [word, h]

/-- All prefixes of the words of `L`. -/
def prefixes (L : Language ς) : Language ς := {u | ∃ v, u ++ v ∈ L}

theorem mem_prefixes_of_mem {L : Language ς} {u : List ς} (h : u ∈ L) : u ∈ prefixes L :=
  ⟨[], by simpa using h⟩

theorem prefixes_mono {L M : Language ς} (h : L ≤ M) : prefixes L ≤ prefixes M := by
  rintro u ⟨v, hv⟩
  exact ⟨v, h hv⟩

/-- A prefix of a prefix is a prefix. -/
theorem mem_prefixes_of_append {L : Language ς} {u v : List ς} (h : u ++ v ∈ prefixes L) :
    u ∈ prefixes L := by
  obtain ⟨x, hx⟩ := h
  exact ⟨v ++ x, by simpa using hx⟩

/-- Prefixes of the first factor extend along any word of the second. -/
theorem prefixes_mul_left {L M : Language ς} {u y : List ς} (hu : u ∈ prefixes L)
    (hy : y ∈ M) : u ∈ prefixes (L * M) := by
  obtain ⟨v, hv⟩ := hu
  refine ⟨v ++ y, ?_⟩
  rw [← List.append_assoc]
  exact Language.append_mem_mul hv hy

/-- A word of the first factor followed by a prefix of the second. -/
theorem prefixes_mul_right {L M : Language ς} {u v : List ς} (hu : u ∈ L)
    (hv : v ∈ prefixes M) : u ++ v ∈ prefixes (L * M) := by
  obtain ⟨x, hx⟩ := hv
  refine ⟨x, ?_⟩
  rw [List.append_assoc]
  exact Language.append_mem_mul hu hx

/-- Returning runs spell a word of `L`, raising runs a prefix of one. -/
def Follows (sym : τ → Option ς) (L : Language ς) (p : Eff σ ε τ α) : Prop :=
  p.Meets fun _ t r _ => match r with
    | .ok _ => word sym t ∈ L
    | .error _ => word sym t ∈ prefixes L

variable {sym : τ → Option ς} {L M : Language ς}

theorem Follows.mono {p : Eff σ ε τ α} (hp : Follows sym L p) (h : L ≤ M) :
    Follows sym M p := by
  refine Eff.Meets.mono hp ?_
  intro w t r w' hr
  cases r with
  | ok a => exact h hr
  | error e => exact prefixes_mono h hr

/-- Whatever a run that follows `L` does, it spells a prefix of a word of `L`. -/
theorem Follows.trace_mem_prefixes {p : Eff σ ε τ α} (hp : Follows sym L p) (w : σ) :
    word sym (p w).trace ∈ prefixes L := by
  have h := hp w
  cases hr : (p w).result with
  | ok a =>
      rw [hr] at h
      exact mem_prefixes_of_mem h
  | error e =>
      rw [hr] at h
      exact h

theorem Follows.bind {p : Eff σ ε τ α} {f : α → Eff σ ε τ β} {y : List ς}
    (hp : Follows sym L p) (hf : ∀ a, Follows sym M (f a)) (hy : y ∈ M) :
    Follows sym (L * M) (p >>= f) := by
  refine Eff.Meets.bind_of hp hf ?_ ?_
  · intro w t e w' ht
    exact prefixes_mul_left ht hy
  · intro w t₁ a w₁ t₂ r w' h₁ h₂
    cases r with
    | ok b =>
        rw [word_append]
        exact Language.append_mem_mul h₁ h₂
    | error e =>
        rw [word_append]
        exact prefixes_mul_right h₁ h₂

theorem Follows.ret (a : α) : Follows sym 1 (pure a : Eff σ ε τ α) :=
  Eff.Meets.ret fun _ => Language.nil_mem_one

theorem Follows.play {ts : List τ} {r : Except ε α}
    (hok : ∀ a, r = .ok a → word sym ts ∈ L)
    (herr : ∀ e, r = .error e → word sym ts ∈ prefixes L) :
    Follows sym L (Eff.play ts r : Eff σ ε τ α) := by
  intro w
  rw [Eff.play_trace, Eff.play_result]
  cases r with
  | ok a => exact hok a rfl
  | error e => exact herr e rfl

-- ============================================================================
-- Programs without visible acts
-- ============================================================================

/-- Every act of `p` is invisible. -/
abbrev Silent (sym : τ → Option ς) (p : Eff σ ε τ α) : Prop :=
  p.ActsOnly fun t => sym t = none

theorem word_eq_nil {ts : List τ} : word sym ts = [] ↔ ∀ t ∈ ts, sym t = none :=
  List.filterMap_eq_nil_iff

/-- A program that performs only invisible acts may stand anywhere. -/
theorem Silent.follows {p : Eff σ ε τ α} (h : Silent sym p) : Follows sym 1 p := by
  intro w
  rw [word_eq_nil.mpr (h w)]
  cases (p w).result with
  | ok a => exact Language.nil_mem_one
  | error e => exact mem_prefixes_of_mem Language.nil_mem_one

/-- Nothing visible after a program. -/
theorem Follows.bind_one {p : Eff σ ε τ α} {f : α → Eff σ ε τ β} (hp : Follows sym L p)
    (hf : ∀ a, Follows sym 1 (f a)) : Follows sym L (p >>= f) := by
  have h := hp.bind hf Language.nil_mem_one
  rwa [mul_one] at h

/-- Nothing visible before a program. -/
theorem Follows.one_bind {p : Eff σ ε τ α} {f : α → Eff σ ε τ β} {y : List ς}
    (hp : Follows sym 1 p) (hf : ∀ a, Follows sym L (f a)) (hy : y ∈ L) :
    Follows sym L (p >>= f) := by
  have h := hp.bind hf hy
  rwa [one_mul] at h

-- ============================================================================
-- Consumers
-- ============================================================================

theorem word_flatMap_withReaction {sym' : τ → Option ς} {react : τ → Except ε (List τ)}
    (hreact : ∀ t us, react t = .ok us → word sym' us = (sym t).toList) {ts : List τ}
    (hts : ∀ t ∈ ts, sym' t = none) (hok : Reacts react ts) :
    word sym' (ts.flatMap (withReaction react)) = word sym ts := by
  induction ts with
  | nil => rfl
  | cons t ts ih =>
      obtain ⟨us, hus⟩ := hok t List.mem_cons_self
      have ih' := ih (fun t ht => hts t (List.mem_cons_of_mem _ ht))
        (fun t ht => hok t (List.mem_cons_of_mem _ ht))
      rw [List.flatMap_cons, word_append, ih', word_cons, withReaction, hus, word_cons,
        hts t List.mem_cons_self, hreact t us hus]
      rfl

/-- A consumer that answers every symbol of the producer with the same symbol
    follows the language of the producer. -/
theorem Follows.consume {sym' : τ → Option ς} {react : τ → Except ε (List τ)}
    {p : Eff σ ε τ α} (hp : Follows sym L p) (hsilent : Silent sym' p)
    (hreact : ∀ t us, react t = .ok us → word sym' us = (sym t).toList) (grace : Nat) :
    Follows sym' L (Eff.consume react grace p) := by
  intro w
  rcases Eff.consume_cases react grace p w with
    ⟨hok, hr, -, ht⟩ | ⟨pre, t, post, e, htrace, hpre, -, hr, ht⟩
  · have hp' := hp w
    rw [hr, ht, word_flatMap_withReaction hreact (hsilent w) hok]
    cases hres : (p w).result with
    | ok a =>
        rw [hres] at hp'
        exact hp'
    | error e =>
        rw [hres] at hp'
        exact hp'
  · -- the producer is cut off after a prefix of its word
    have hpre' := hp.trace_mem_prefixes w
    have hall := hsilent w
    rw [htrace] at hpre' hall
    have hcut : word sym' (t :: post.take grace) = [] := by
      refine word_eq_nil.mpr fun u hu => hall u (List.mem_append_right _ ?_)
      rcases List.mem_cons.mp hu with rfl | hu
      · exact List.mem_cons_self
      · exact List.mem_cons_of_mem _ (List.mem_of_mem_take hu)
    rw [hr, ht, word_append, hcut, List.append_nil, word_flatMap_withReaction hreact
      (fun u hu => hall u (List.mem_append_left _ hu)) hpre]
    rw [word_append] at hpre'
    exact mem_prefixes_of_append hpre'

end MasterAgent.Effect
