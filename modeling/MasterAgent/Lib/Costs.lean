/-
  MasterAgent.Lib.Costs

  What runs cost.  Every act has a price in an ordered monoid, in which nothing is
  below zero; the bill of a run is the sum of the prices of its acts.
  `p.CostsAtMost price m` bounds the bills of all runs of `p`, and there is one rule
  for each combinator.
-/

import MasterAgent.Lib.Consume
import Mathlib.Algebra.Order.BigOperators.Group.List
import Mathlib.Algebra.Order.Monoid.Canonical.Defs

namespace MasterAgent.Effect

variable {σ ε τ α β M : Type} [AddCommMonoid M] {price : τ → M} {m n : M}

/-- What a list of acts costs. -/
def bill (price : τ → M) (ts : List τ) : M := (ts.map price).sum

theorem bill_nil : bill price [] = 0 := rfl

theorem bill_cons (t : τ) (ts : List τ) : bill price (t :: ts) = price t + bill price ts :=
  List.sum_cons

theorem bill_append (ts us : List τ) : bill price (ts ++ us) = bill price ts + bill price us := by
  rw [bill, List.map_append, List.sum_append]
  rfl

/-- Acts without a price. -/
theorem bill_free {ts : List τ} (h : ∀ t ∈ ts, price t = 0) : bill price ts = 0 := by
  apply List.sum_eq_zero
  intro m hm
  obtain ⟨t, ht, rfl⟩ := List.mem_map.mp hm
  exact h t ht

theorem bill_map_free {f : β → τ} (h : ∀ b, price (f b) = 0) (bs : List β) :
    bill price (bs.map f) = 0 := by
  apply bill_free
  intro t ht
  obtain ⟨b, -, rfl⟩ := List.mem_map.mp ht
  exact h b

/-- Reactions without a price add nothing. -/
theorem bill_withReaction {react : τ → Except ε (List τ)}
    (hreact : ∀ t us, react t = .ok us → ∀ u ∈ us, price u = 0) (ts : List τ) :
    bill price (ts.flatMap (withReaction react)) = bill price ts := by
  induction ts with
  | nil => rfl
  | cons t ts ih =>
      have hone : bill price (withReaction react t) = price t := by
        unfold withReaction
        cases hr : react t with
        | error e => rw [bill_cons, bill_nil, add_zero]
        | ok us => rw [bill_cons, bill_free (hreact t us hr), add_zero]
      rw [List.flatMap_cons, bill_append, hone, ih, bill_cons]

variable [PartialOrder M]

/-- No run of `p` costs more than `m`. -/
def Eff.CostsAtMost (price : τ → M) (m : M) (p : Eff σ ε τ α) : Prop :=
  ∀ w, bill price (p w).trace ≤ m

namespace Eff

theorem CostsAtMost.mono {p : Eff σ ε τ α} (h : p.CostsAtMost price m) (hmn : m ≤ n) :
    p.CostsAtMost price n :=
  fun w => (h w).trans hmn

theorem CostsAtMost.ret (a : α) : (pure a : Eff σ ε τ α).CostsAtMost price 0 := fun _ => le_rfl

theorem CostsAtMost.raise (e : ε) : (Eff.raise e : Eff σ ε τ α).CostsAtMost price 0 :=
  fun _ => le_rfl

theorem CostsAtMost.draw (f : σ → α × σ) : (Eff.draw f : Eff σ ε τ α).CostsAtMost price 0 :=
  fun _ => le_rfl

theorem CostsAtMost.ofExcept (x : Except ε α) :
    (Eff.ofExcept x : Eff σ ε τ α).CostsAtMost price 0 := by
  intro w
  rw [Eff.ofExcept_apply]
  exact le_rfl

theorem CostsAtMost.attempt {p : Eff σ ε τ α} (h : p.CostsAtMost price m) :
    (Eff.attempt p).CostsAtMost price m := h

theorem CostsAtMost.act {t : τ} (h : price t = m) :
    (Eff.act t : Eff σ ε τ Unit).CostsAtMost price m := by
  intro w
  have hone : bill price (Eff.act t w : Run σ ε τ Unit).trace = price t + bill price [] :=
    bill_cons _ []
  rw [hone, h, bill_nil, add_zero]

theorem CostsAtMost.call {f : σ → Except ε α × σ} {t : Except ε α → τ}
    (h : ∀ r, price (t r) = m) : (Eff.call f t).CostsAtMost price m := by
  intro w
  have hone : bill price (Eff.call f t w).trace = price (t (f w).1) + bill price [] :=
    bill_cons _ []
  rw [hone, h, bill_nil, add_zero]

theorem CostsAtMost.play {ts : List τ} {r : Except ε α} (h : bill price ts ≤ m) :
    (Eff.play ts r : Eff σ ε τ α).CostsAtMost price m := by
  intro w
  rw [Eff.play_trace]
  exact h

variable [IsOrderedAddMonoid M] [CanonicallyOrderedAdd M]

theorem CostsAtMost.bind {p : Eff σ ε τ α} {f : α → Eff σ ε τ β} (hp : p.CostsAtMost price m)
    (hf : ∀ a, (f a).CostsAtMost price n) : (p >>= f).CostsAtMost price (m + n) := by
  intro w
  rw [Eff.bind_trace, bill_append]
  apply add_le_add (hp w)
  cases (p w).result with
  | ok a => exact hf a _
  | error e => exact zero_le

/-- A consumer whose reactions are free adds nothing to its producer. -/
theorem CostsAtMost.consume {react : τ → Except ε (List τ)} {p : Eff σ ε τ α}
    (hp : p.CostsAtMost price m)
    (hreact : ∀ t us, react t = .ok us → ∀ u ∈ us, price u = 0) (grace : Nat) :
    (Eff.consume react grace p).CostsAtMost price m := by
  intro w
  rcases Eff.consume_cases react grace p w with
    ⟨-, -, -, ht⟩ | ⟨pre, t, post, e, htrace, -, -, -, ht⟩
  · rw [ht, bill_withReaction hreact]
    exact hp w
  · -- cut off, the producer has done a part of its acts
    have hpart : (pre ++ t :: post.take grace).Sublist (p w).trace := by
      rw [htrace]
      exact (List.Sublist.refl pre).append ((List.take_sublist _ _).cons_cons t)
    rw [ht, bill_append, bill_withReaction hreact, ← bill_append]
    exact ((hpart.map price).sum_le_sum fun _ _ => zero_le).trans (hp w)

end Eff

end MasterAgent.Effect
