/-
  MasterAgent.Lib.Pairing

  The neighbours of a list that match.  In a list made of blocks whose first
  elements match nothing before them (`Opens`), the matching neighbours are those of
  the blocks, and the end of a list has the last of them.
-/

import Mathlib.Data.List.DropRight
import Mathlib.Data.List.Flatten

namespace MasterAgent.Pairing

variable {α β : Type} {match? : α → α → Bool} {l : List α}

/-- The neighbours that match. -/
def pairsBy (match? : α → α → Bool) (l : List α) : List (α × α) :=
  (l.zip l.tail).filter fun pair => match? pair.1 pair.2

@[simp] theorem pairsBy_singleton (a : α) : pairsBy match? [a] = [] := rfl

theorem pairsBy_cons_cons (a b : α) (l : List α) :
    pairsBy match? (a :: b :: l) =
      (if match? a b then [(a, b)] else []) ++ pairsBy match? (b :: l) := by
  rw [pairsBy, List.tail_cons, List.zip_cons_cons, List.filter_cons]
  split <;> rfl

theorem pairsBy_map (f : β → α) (l : List β) :
    pairsBy match? (l.map f) =
      (pairsBy (fun a b => match? (f a) (f b)) l).map fun pair => (f pair.1, f pair.2) := by
  rw [pairsBy, ← List.map_tail, List.zip_map, List.filter_map]
  rfl

/-- The pairs of an end of the list are the last pairs. -/
theorem pairsBy_suffix_cons (a : α) (l : List α) :
    pairsBy match? l <:+ pairsBy match? (a :: l) := by
  cases l with
  | nil => exact List.suffix_rfl
  | cons b l =>
      rw [pairsBy_cons_cons]
      exact List.suffix_append _ _

theorem pairsBy_suffix_drop (l : List α) (k : Nat) :
    pairsBy match? (l.drop k) <:+ pairsBy match? l := by
  induction k generalizing l with
  | zero => exact List.suffix_rfl
  | succ k ih =>
      cases l with
      | nil => exact List.suffix_rfl
      | cons a l => exact (ih l).trans (pairsBy_suffix_cons a l)

/-- The first element matches nothing before it. -/
def Opens (match? : α → α → Bool) (l : List α) : Prop :=
  ∀ b ∈ l.head?, ∀ a, match? a b = false

theorem pairsBy_append {l₂ : List α} (h : Opens match? l₂) (l : List α) :
    pairsBy match? (l ++ l₂) = pairsBy match? l ++ pairsBy match? l₂ := by
  induction l with
  | nil => rfl
  | cons a l ih =>
      cases l with
      | nil =>
          cases l₂ with
          | nil => rfl
          | cons b l₂ =>
              rw [List.singleton_append, pairsBy_cons_cons, h b rfl a]
              rfl
      | cons b l =>
          rw [List.cons_append, List.cons_append, pairsBy_cons_cons, pairsBy_cons_cons,
            ← List.cons_append, ih, List.append_assoc]

theorem Opens.flatten {blocks : List (List α)} (h : ∀ block ∈ blocks, Opens match? block) :
    Opens match? blocks.flatten := by
  induction blocks with
  | nil => exact fun b hb => nomatch hb
  | cons block blocks ih =>
      cases block with
      | nil => exact ih fun block hblock => h block (List.mem_cons_of_mem _ hblock)
      | cons b rest => exact h (b :: rest) List.mem_cons_self

/-- The pairs of blocks. -/
theorem pairsBy_flatten {blocks : List (List α)} (h : ∀ block ∈ blocks, Opens match? block) :
    pairsBy match? blocks.flatten = blocks.flatMap (pairsBy match?) := by
  induction blocks with
  | nil => rfl
  | cons block blocks ih =>
      have hrest := fun block hblock => h block (List.mem_cons_of_mem _ hblock)
      rw [List.flatten_cons, pairsBy_append (Opens.flatten hrest), ih hrest, List.flatMap_cons]

/-- The last `n` of a suffix are the last ones of the list, `n` at most. -/
theorem rtake_of_suffix {l₂ : List α} (h : l₂ <:+ l) (n : Nat) :
    l₂.rtake n = l.rtake (min n l₂.length) := by
  obtain ⟨front, rfl⟩ := h
  rw [List.rtake, List.rtake, List.length_append]
  have hdrop : front.length + l₂.length - min n l₂.length =
      front.length + (l₂.length - n) := by omega
  rw [hdrop, List.drop_length_add_append]

theorem length_flatten_two {blocks : List (List α)} (h : ∀ block ∈ blocks, block.length = 2) :
    blocks.flatten.length = 2 * blocks.length := by
  induction blocks with
  | nil => rfl
  | cons block blocks ih =>
      rw [List.flatten_cons, List.length_append, h block List.mem_cons_self,
        ih fun b hb => h b (List.mem_cons_of_mem _ hb), List.length_cons]
      omega

/-- Blocks of two are dropped two by two. -/
theorem drop_two_mul_flatten {blocks : List (List α)} (h : ∀ block ∈ blocks, block.length = 2)
    (n : Nat) : blocks.flatten.drop (2 * n) = (blocks.drop n).flatten := by
  induction n generalizing blocks with
  | zero => rfl
  | succ n ih =>
      cases blocks with
      | nil => rw [List.flatten_nil, List.drop_nil, List.drop_nil, List.flatten_nil]
      | cons block blocks =>
          have hlength := h block List.mem_cons_self
          rw [List.drop_succ_cons, ← ih fun b hb => h b (List.mem_cons_of_mem _ hb),
            List.flatten_cons, Nat.mul_succ, Nat.add_comm, ← hlength,
            List.drop_length_add_append]

end MasterAgent.Pairing
