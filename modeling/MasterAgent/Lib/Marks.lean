/-
  MasterAgent.Lib.Marks

  Texts with marks in them.  The words of the marks all open with one character
  that no word has anywhere else, and none is the beginning of another, so two
  marks of a text never overlap.  A text is cut into its marks and the single
  characters between them; replacing the marks is writing the pieces out again
  with other words.
-/

import Mathlib.Data.List.Basic

namespace MasterAgent.Marks

variable {α β : Type}

/-- A piece of a text: one character, or a mark. -/
inductive Segment (α β : Type) where
  | char (c : α)
  | mark (b : β)

/-- The pieces written out, with `f b` for the mark `b`. -/
def expand (f : β → List α) : List (Segment α β) → List α
  | [] => []
  | .char c :: ps => c :: expand f ps
  | .mark b :: ps => f b ++ expand f ps

theorem expand_append (f : β → List α) (ps qs : List (Segment α β)) :
    expand f (ps ++ qs) = expand f ps ++ expand f qs := by
  induction ps with
  | nil => rfl
  | cons p ps ih =>
      cases p with
      | char c => simp only [List.cons_append, expand, ih]
      | mark b => simp only [List.cons_append, expand, ih, List.append_assoc]

/-- The word of `b` stands in `s` between `before` and `after`. -/
def Occurs (word : β → List α) (s before : List α) (b : β) (after : List α) : Prop :=
  s = before ++ (word b ++ after)

/-- Every word is the opener and a body without it, and a text begins with one
    word at most. -/
structure Delimited (word : β → List α) (opener : α) : Prop where
  opens : ∀ b, ∃ body, word b = opener :: body ∧ opener ∉ body
  unique : ∀ b b' t t', word b ++ t = word b' ++ t' → b = b'

/-- The pieces spell the text, and every occurrence of a mark is one of them. -/
structure Segmented (word : β → List α) (s : List α) (ps : List (Segment α β)) : Prop where
  source : expand word ps = s
  complete : ∀ before b after, Occurs word s before b after →
    ∃ us vs, ps = us ++ .mark b :: vs ∧ expand word us = before ∧ expand word vs = after

section

variable {word : β → List α} {opener : α}

theorem Delimited.word_ne_nil (h : Delimited word opener) (b : β) : word b ≠ [] := by
  obtain ⟨body, hbody, -⟩ := h.opens b
  rw [hbody]
  exact List.cons_ne_nil _ _

/-- Behind a word at the start of a text the next mark begins no earlier than
    where the word ends. -/
theorem Delimited.occurs_append (h : Delimited word opener) {b b' : β} {t before after : List α}
    (hocc : Occurs word (word b ++ t) before b' after) :
    (before = [] ∧ b' = b ∧ after = t) ∨
      ∃ before', before = word b ++ before' ∧ Occurs word t before' b' after := by
  unfold Occurs at hocc
  rcases List.append_eq_append_iff.mp hocc with ⟨rest, hbefore, ht⟩ | ⟨rest, hword, hrest⟩
  · exact Or.inr ⟨rest, hbefore, ht⟩
  · cases before with
    | nil =>
        have hb : b = b' := h.unique b b' t after hocc
        subst hb
        exact Or.inl ⟨rfl, rfl, (List.append_cancel_left hocc).symm⟩
    | cons c before =>
        cases rest with
        | nil =>
            have hbefore : word b = c :: before := by rw [hword, List.append_nil]
            have ht : word b' ++ after = t := hrest
            exact Or.inr ⟨[], by rw [hbefore, List.append_nil], ht.symm⟩
        | cons d rest =>
            -- the word of `b` would have the opener of `b'` in its body
            obtain ⟨body, hbody, hnot⟩ := h.opens b
            obtain ⟨body', hbody', -⟩ := h.opens b'
            have hd : opener = d := by
              rw [hbody'] at hrest
              exact (List.cons.inj hrest).1
            have htail : body = before ++ d :: rest := by
              rw [hbody] at hword
              exact (List.cons.inj hword).2
            have hmem : opener ∈ body := by
              rw [htail, hd]
              exact List.mem_append_right before List.mem_cons_self
            exact absurd hmem hnot

theorem Segmented.nil (h : Delimited word opener) : Segmented word [] [] where
  source := rfl
  complete before b after hocc := by
    have hnil : word b ++ after = [] := (List.append_eq_nil_iff.mp hocc.symm).2
    exact absurd (List.append_eq_nil_iff.mp hnil).1 (h.word_ne_nil b)

theorem Segmented.char {s : List α} {ps : List (Segment α β)} (hs : Segmented word s ps) {c : α}
    (hfront : ∀ b after, c :: s ≠ word b ++ after) :
    Segmented word (c :: s) (.char c :: ps) where
  source := by rw [expand, hs.source]
  complete before b after hocc := by
    cases before with
    | nil => exact absurd hocc (hfront b after)
    | cons d before =>
        obtain ⟨hcd, hrest⟩ := List.cons.inj hocc
        obtain ⟨us, vs, hps, hus, hvs⟩ := hs.complete before b after hrest
        refine ⟨.char c :: us, vs, ?_, ?_, hvs⟩
        · rw [hps, List.cons_append]
        · rw [expand, hus, hcd]

theorem Segmented.mark (h : Delimited word opener) {t : List α} {ps : List (Segment α β)}
    (ht : Segmented word t ps) (b : β) : Segmented word (word b ++ t) (.mark b :: ps) where
  source := by rw [expand, ht.source]
  complete before b' after hocc := by
    rcases h.occurs_append hocc with ⟨rfl, rfl, rfl⟩ | ⟨before, rfl, hrest⟩
    · exact ⟨[], ps, rfl, rfl, ht.source⟩
    · obtain ⟨us, vs, hps, hus, hvs⟩ := ht.complete before b' after hrest
      refine ⟨.mark b :: us, vs, ?_, ?_, hvs⟩
      · rw [hps, List.cons_append]
      · rw [expand, hus]

/-- Every text can be cut into pieces. -/
theorem exists_segmented (h : Delimited word opener) (s : List α) :
    ∃ ps, Segmented word s ps := by
  induction hn : s.length using Nat.strongRecOn generalizing s with
  | ind n ih =>
      by_cases hfront : ∃ b t, s = word b ++ t
      · obtain ⟨b, t, rfl⟩ := hfront
        have hpos : 0 < (word b).length := List.length_pos_iff.mpr (h.word_ne_nil b)
        have hlt : t.length < n := by
          rw [List.length_append] at hn
          omega
        obtain ⟨ps, hps⟩ := ih t.length hlt t rfl
        exact ⟨.mark b :: ps, hps.mark h b⟩
      · cases s with
        | nil => exact ⟨[], Segmented.nil h⟩
        | cons c s =>
            have hlt : s.length < n := by
              rw [List.length_cons] at hn
              omega
            obtain ⟨ps, hps⟩ := ih s.length hlt s rfl
            exact ⟨.char c :: ps, hps.char fun b t heq => hfront ⟨b, t, heq⟩⟩

theorem expand_eq_nil (h : Delimited word opener) {ps : List (Segment α β)}
    (hps : expand word ps = []) : ps = [] := by
  cases ps with
  | nil => rfl
  | cons p ps =>
      cases p with
      | char c => cases hps
      | mark b => exact absurd (List.append_eq_nil_iff.mp hps).1 (h.word_ne_nil b)

variable {s : List α} {p : Segment α β} {ps : List (Segment α β)}

/-- A text whose first piece is a character does not begin with a mark. -/
theorem Segmented.front (h : Delimited word opener) {c : α}
    (hs : Segmented word s (.char c :: ps)) (b : β) (after : List α) : s ≠ word b ++ after := by
  intro heq
  obtain ⟨us, vs, hps, hus, -⟩ := hs.complete [] b after heq
  rw [expand_eq_nil h hus] at hps
  cases hps

/-- What stands behind the first piece is cut by the other pieces. -/
theorem Segmented.tail (h : Delimited word opener) (hs : Segmented word s (p :: ps)) :
    Segmented word (expand word ps) ps where
  source := rfl
  complete before b after hocc := by
    have hsplit : expand word (p :: ps) = expand word [p] ++ expand word ps :=
      expand_append word [p] ps
    have hwhole : Occurs word s (expand word [p] ++ before) b after := by
      unfold Occurs at hocc ⊢
      rw [← hs.source, hsplit, hocc, List.append_assoc]
    obtain ⟨us, vs, hps, hus, hvs⟩ := hs.complete _ b after hwhole
    cases us with
    | nil =>
        have hp : expand word [p] = [] := (List.append_eq_nil_iff.mp hus.symm).1
        exact absurd (expand_eq_nil h hp) (List.cons_ne_nil _ _)
    | cons q us =>
        rw [List.cons_append] at hps
        obtain ⟨rfl, hrest⟩ := List.cons.inj hps
        have hcons : expand word (p :: us) = expand word [p] ++ expand word us :=
          expand_append word [p] us
        rw [hcons] at hus
        exact ⟨us, vs, hrest, List.append_cancel_left hus, hvs⟩

/-- The marks among the pieces are those that occur in the text. -/
theorem Segmented.mem_iff (hs : Segmented word s ps) {b : β} :
    .mark b ∈ ps ↔ ∃ before after, Occurs word s before b after := by
  constructor
  · intro hb
    obtain ⟨us, vs, rfl⟩ := List.append_of_mem hb
    refine ⟨expand word us, expand word vs, ?_⟩
    rw [← hs.source, Occurs, expand_append, expand]
  · rintro ⟨before, after, hocc⟩
    obtain ⟨us, vs, rfl, -, -⟩ := hs.complete before b after hocc
    exact List.mem_append_right us List.mem_cons_self

end

end MasterAgent.Marks
