/-
  MasterAgent.Python.Lines

  Texts line by line, and what a pattern finds in them: `strip` as a
  decomposition, the text behind each line start, and the first match of a
  pattern that is anchored at a line start.
-/

import Mathlib.Data.List.TakeWhile
import MasterAgent.Python.Text

namespace MasterAgent

open Piece (newline dot)

-- ============================================================================
-- Blanks
-- ============================================================================

/-- Only blanks, line breaks among them. -/
def Blank (s : PyStr) : Prop := ∀ c ∈ s, isSpace c = true

/-- The text starts with something other than a blank. -/
def Inked (s : PyStr) : Prop := ∃ c, s.head? = some c ∧ isSpace c = false

/-- No blank at either end. -/
structure Trimmed (s : PyStr) : Prop where
  head : ∀ c, s.head? = some c → isSpace c = false
  last : ∀ c, s.getLast? = some c → isSpace c = false

theorem Blank.append {s t : PyStr} (hs : Blank s) (ht : Blank t) : Blank (s ++ t) :=
  fun c hc => (List.mem_append.mp hc).elim (hs c) (ht c)

theorem blank_nil : Blank [] := fun _ hc => absurd hc List.not_mem_nil

theorem blank_takeWhile (s : PyStr) : Blank (s.takeWhile isSpace) :=
  fun _ hc => List.mem_takeWhile_imp hc

theorem Inked.append {s : PyStr} (h : Inked s) (t : PyStr) : Inked (s ++ t) := by
  obtain ⟨c, hc, hspace⟩ := h
  cases s with
  | nil => cases hc
  | cons d s => exact ⟨c, hc, hspace⟩

/-- Blanks in front go, and nothing else. -/
theorem dropWhile_blank {s t : PyStr} (hs : Blank s)
    (ht : ∀ c, t.head? = some c → isSpace c = false) :
    (s ++ t).dropWhile isSpace = t := by
  rw [List.dropWhile_append_of_pos hs]
  cases t with
  | nil => rfl
  | cons c t => rw [List.dropWhile_cons, ht c rfl]; rfl

theorem head_dropWhile_space {s : PyStr} {c : CodePoint}
    (h : (s.dropWhile isSpace).head? = some c) : isSpace c = false := by
  have hall := List.head?_dropWhile_not isSpace s
  rw [h] at hall
  simpa using hall

/-- `strip` takes the blanks at both ends. -/
theorem strip_eq_iff {s w : PyStr} :
    strip s = w ↔ Trimmed w ∧ ∃ l r, s = l ++ (w ++ r) ∧ Blank l ∧ Blank r := by
  constructor
  · rintro rfl
    have hinner : s.dropWhile isSpace =
        strip s ++ ((s.dropWhile isSpace).reverse.takeWhile isSpace).reverse := by
      rw [strip, ← List.reverse_append, List.takeWhile_append_dropWhile, List.reverse_reverse]
    refine ⟨⟨fun c hc => ?_, fun c hc => ?_⟩, s.takeWhile isSpace,
      ((s.dropWhile isSpace).reverse.takeWhile isSpace).reverse, ?_, blank_takeWhile s, ?_⟩
    · refine head_dropWhile_space (s := s) ?_
      rw [hinner, List.head?_append, hc]
      rfl
    · rw [strip, List.getLast?_reverse] at hc
      exact head_dropWhile_space hc
    · rw [← hinner, List.takeWhile_append_dropWhile]
    · intro c hc
      exact blank_takeWhile _ c (List.mem_reverse.mp hc)
  · rintro ⟨⟨hhead, hlast⟩, l, r, rfl, hl, hr⟩
    cases w with
    | nil =>
        rw [strip, List.nil_append, ← List.append_nil (l ++ r),
          dropWhile_blank (hl.append hr) (fun c hc => by cases hc)]
        rfl
    | cons d w =>
        rw [strip, dropWhile_blank hl fun c hc => hhead c (by simpa using hc),
          List.reverse_append, dropWhile_blank, List.reverse_reverse]
        · exact fun c hc => hr c (List.mem_reverse.mp hc)
        · intro c hc
          rw [List.head?_reverse] at hc
          exact hlast c hc

theorem trimmed_strip (s : PyStr) : Trimmed (strip s) := (strip_eq_iff.mp rfl).1

theorem strip_of_trimmed {s : PyStr} (h : Trimmed s) : strip s = s :=
  strip_eq_iff.mpr ⟨h, [], [], by simp, blank_nil, blank_nil⟩

theorem Trimmed.inked {r : PyStr} (h : Trimmed r) (hne : r ≠ []) : Inked r := by
  cases r with
  | nil => exact absurd rfl hne
  | cons c r => exact ⟨c, rfl, h.head c rfl⟩

theorem Inked.ne_nil {s : PyStr} (h : Inked s) : s ≠ [] := by
  obtain ⟨c, hc, -⟩ := h
  rintro rfl
  cases hc

theorem Blank.not_inked {s : PyStr} (hs : Blank s) : ¬ Inked s := by
  rintro ⟨c, hc, hspace⟩
  rw [hs c (List.mem_of_head? hc)] at hspace
  cases hspace

theorem dropWhile_inked {s t : PyStr} (hs : Blank s) (ht : Inked t) :
    (s ++ t).dropWhile isSpace = t := by
  obtain ⟨c, hc, hspace⟩ := ht
  exact dropWhile_blank hs fun d hd => by
    rw [hc, Option.some.injEq] at hd
    exact hd ▸ hspace

theorem strip_eq_nil_iff {s : PyStr} : strip s = [] ↔ Blank s := by
  rw [strip_eq_iff]
  constructor
  · rintro ⟨-, l, r, rfl, hl, hr⟩
    exact hl.append hr
  · intro h
    exact ⟨⟨(fun _ hc => by cases hc), (fun _ hc => by cases hc)⟩, s, [], by simp, h, blank_nil⟩

theorem Inked.strip_ne_nil {s : PyStr} (h : Inked s) : strip s ≠ [] := by
  intro hnil
  exact (strip_eq_nil_iff.mp hnil).not_inked h

-- ============================================================================
-- Lines
-- ============================================================================

/-- The line that a text starts with. -/
def firstLine (text : PyStr) : PyStr := text.takeWhile dot

/-- The text behind each line break. -/
def behindBreaks : PyStr → List PyStr
  | [] => []
  | c :: text => if c = newline then text :: behindBreaks text else behindBreaks text

/-- The text from each line start on. -/
def starts (text : PyStr) : List PyStr := text :: behindBreaks text

theorem newline_notMem_firstLine (text : PyStr) : newline ∉ firstLine text := by
  intro h
  have hdot := List.mem_takeWhile_imp h
  exact absurd hdot (by decide)

theorem firstLine_append {line : PyStr} (h : newline ∉ line) (text : PyStr) :
    firstLine (line ++ text) = line ++ firstLine text := by
  refine List.takeWhile_append_of_pos fun c hc => ?_
  have hne : c ≠ newline := fun he => h (he ▸ hc)
  simpa [dot] using hne

theorem firstLine_newline (text : PyStr) : firstLine (newline :: text) = [] := rfl

theorem behindBreaks_line {line : PyStr} (h : newline ∉ line) (text : PyStr) :
    behindBreaks (line ++ text) = behindBreaks text := by
  induction line with
  | nil => rfl
  | cons c line ih =>
      rw [List.mem_cons, not_or] at h
      rw [List.cons_append, behindBreaks, if_neg (Ne.symm h.1), ih h.2]

/-- What stands behind the first line, from its line break on. -/
def behindFirst (text : PyStr) : PyStr := text.dropWhile dot

theorem firstLine_behindFirst (text : PyStr) : firstLine text ++ behindFirst text = text :=
  List.takeWhile_append_dropWhile

theorem head_behindFirst {text : PyStr} {c : CodePoint}
    (h : (behindFirst text).head? = some c) : c = newline := by
  have hall := List.head?_dropWhile_not dot text
  rw [behindFirst] at h
  rw [h] at hall
  simpa [dot] using hall

theorem firstLine_of_behindFirst (text : PyStr) : firstLine (behindFirst text) = [] := by
  cases h : behindFirst text with
  | nil => rfl
  | cons c rest =>
      have hc : c = newline := head_behindFirst (by rw [h]; rfl)
      rw [hc, firstLine_newline]

/-- A text is one line, or a line, a line break and a text. -/
theorem line_cases (text : PyStr) :
    newline ∉ text ∨ ∃ line rest, newline ∉ line ∧ text = line ++ newline :: rest := by
  have hsplit := firstLine_behindFirst text
  cases hrest : behindFirst text with
  | nil =>
      rw [hrest, List.append_nil] at hsplit
      exact .inl (hsplit ▸ newline_notMem_firstLine text)
  | cons c rest =>
      have hc : c = newline := head_behindFirst (by rw [hrest]; rfl)
      rw [hrest, hc] at hsplit
      exact .inr ⟨firstLine text, rest, newline_notMem_firstLine text, hsplit.symm⟩

/-- Induction on the lines of a text. -/
theorem lines_induction {P : PyStr → Prop} (last : ∀ line, newline ∉ line → P line)
    (step : ∀ line rest, newline ∉ line → P rest → P (line ++ newline :: rest))
    (text : PyStr) : P text := by
  induction hn : text.length using Nat.strongRecOn generalizing text with
  | ind n ih =>
      rcases line_cases text with hline | ⟨line, rest, hline, rfl⟩
      · exact last text hline
      · have hlen : rest.length < n := by
          rw [← hn, List.length_append, List.length_cons]
          omega
        exact step line rest hline (ih rest.length hlen rest rfl)

theorem starts_line {line : PyStr} (h : newline ∉ line) : starts line = [line] := by
  rw [starts]
  conv_lhs => rw [← List.append_nil line, behindBreaks_line h]
  rw [List.append_nil]
  rfl

theorem starts_append {line : PyStr} (h : newline ∉ line) (rest : PyStr) :
    starts (line ++ newline :: rest) = (line ++ newline :: rest) :: starts rest := by
  rw [starts, behindBreaks_line h, behindBreaks, if_pos rfl]
  rfl

theorem firstLine_of_line {line : PyStr} (h : newline ∉ line) : firstLine line = line := by
  have happend := firstLine_append h []
  rw [List.append_nil] at happend
  rw [happend]
  exact List.append_nil line

theorem firstLine_append_newline {line : PyStr} (h : newline ∉ line) (rest : PyStr) :
    firstLine (line ++ newline :: rest) = line := by
  rw [firstLine_append h, firstLine_newline, List.append_nil]

/-- The lines are what `split` at the line breaks gives. -/
theorem firstLine_starts (text : PyStr) :
    (starts text).map firstLine = text.splitOn newline := by
  induction text using lines_induction with
  | last line hline =>
      rw [starts_line hline, List.map_singleton, firstLine_of_line hline,
        List.splitOn_eq_singleton hline]
  | step line rest hline ih =>
      rw [starts_append hline, List.map_cons, firstLine_append_newline hline, ih,
        List.splitOn_append_cons_self, List.splitOn_eq_singleton hline, List.singleton_append]

theorem firstLine_append_of_mem {s : PyStr} (h : newline ∈ s) (t : PyStr) :
    firstLine (s ++ t) = firstLine s := by
  rcases line_cases s with hline | ⟨line, rest, hline, rfl⟩
  · exact absurd h hline
  · rw [List.append_assoc, List.cons_append, firstLine_append_newline hline,
      firstLine_append_newline hline]

theorem Inked.firstLine {text : PyStr} (h : Inked text) : Inked (firstLine text) := by
  obtain ⟨c, hc, hspace⟩ := h
  cases text with
  | nil => cases hc
  | cons d text =>
      cases hc
      have hdot : dot c = true := by
        rw [dot, bne_iff_ne]
        rintro rfl
        cases hspace
      refine ⟨c, ?_, hspace⟩
      rw [MasterAgent.firstLine, List.takeWhile_cons, if_pos hdot]
      rfl

-- ============================================================================
-- The first that fits
-- ============================================================================

section First

variable {α β γ : Type} {P Q : α → β → Prop}

/-- `b` belongs to the first entry of the list that has something belonging to it. -/
def First (P : α → β → Prop) (as : List α) (b : β) : Prop :=
  ∃ before a after, as = before ++ a :: after ∧ P a b ∧ ∀ x ∈ before, ∀ b', ¬ P x b'

theorem not_first_nil {b : β} : ¬ First P [] b := by
  rintro ⟨before, a, after, h, -⟩
  simp at h

theorem first_cons {a : α} {as : List α} {b : β} :
    First P (a :: as) b ↔ P a b ∨ ((∀ b', ¬ P a b') ∧ First P as b) := by
  constructor
  · rintro ⟨before, x, after, h, hx, hbefore⟩
    cases before with
    | nil =>
        cases h
        exact .inl hx
    | cons y before =>
        cases h
        rw [List.forall_mem_cons] at hbefore
        exact .inr ⟨hbefore.1, before, x, after, rfl, hx, hbefore.2⟩
  · rintro (ha | ⟨ha, before, x, after, rfl, hx, hbefore⟩)
    · exact ⟨[], a, as, rfl, ha, fun _ h => absurd h List.not_mem_nil⟩
    · exact ⟨a :: before, x, after, rfl, hx, List.forall_mem_cons.mpr ⟨ha, hbefore⟩⟩

theorem first_singleton {a : α} {b : β} : First P [a] b ↔ P a b := by
  rw [first_cons, or_iff_left fun h => not_first_nil h.2]

theorem first_map {f : γ → α} {cs : List γ} {b : β} :
    First P (cs.map f) b ↔ First (fun c => P (f c)) cs b := by
  induction cs with
  | nil => exact iff_of_false not_first_nil not_first_nil
  | cons c cs ih => rw [List.map_cons, first_cons, first_cons, ih]

theorem first_congr {as : List α} (h : ∀ a ∈ as, ∀ b, P a b ↔ Q a b) {b : β} :
    First P as b ↔ First Q as b := by
  induction as with
  | nil => exact iff_of_false not_first_nil not_first_nil
  | cons a as ih =>
      rw [List.forall_mem_cons] at h
      rw [first_cons, first_cons, ih h.2, h.1 b, forall_congr' fun b' => not_congr (h.1 b')]

theorem First.exists_mem {as : List α} {b : β} (h : First P as b) : ∃ a ∈ as, P a b := by
  obtain ⟨before, a, after, rfl, ha, -⟩ := h
  exact ⟨a, by simp, ha⟩

/-- Where something belongs to some entry, there is a first one. -/
theorem exists_first {as : List α} {a : α} (ha : a ∈ as) {b : β} (hb : P a b) :
    ∃ b', First P as b' := by
  induction as with
  | nil => cases ha
  | cons x as ih =>
      by_cases hx : ∃ b', P x b'
      · obtain ⟨b', hx⟩ := hx
        exact ⟨b', first_cons.mpr (.inl hx)⟩
      · rw [not_exists] at hx
        rcases List.mem_cons.mp ha with rfl | ha
        · exact absurd hb (hx b)
        · obtain ⟨b', hfirst⟩ := ih ha
          exact ⟨b', first_cons.mpr (.inr ⟨hx, hfirst⟩)⟩

/-- There is one first, where an entry has at most one. -/
theorem First.unique (hP : ∀ a b b', P a b → P a b' → b = b') {as : List α} {b b' : β}
    (h : First P as b) (h' : First P as b') : b = b' := by
  induction as with
  | nil => exact absurd h not_first_nil
  | cons a as ih =>
      rcases first_cons.mp h with ha | ⟨hno, hrest⟩
      · rcases first_cons.mp h' with ha' | ⟨hno', -⟩
        · exact hP a b b' ha ha'
        · exact absurd ha (hno' b)
      · rcases first_cons.mp h' with ha' | ⟨-, hrest'⟩
        · exact absurd ha' (hno b')
        · exact ih hrest hrest'

end First

-- ============================================================================
-- Matches
-- ============================================================================

namespace Piece

variable {p : CodePoint → Bool} {ps : List Piece}

/-- The longest run comes first. -/
theorem findSome?_runs_longest {β : Type} {f : PyStr × PyStr → Option β} {text : PyStr} {b : β}
    (h : f (text.takeWhile p, text.dropWhile p) = some b) : (runs p text).findSome? f = some b := by
  induction text generalizing f with
  | nil => rw [runs, List.findSome?_singleton, h.symm]; rfl
  | cons c text ih =>
      by_cases hc : p c = true
      · rw [runs, if_pos hc, List.findSome?_append, List.findSome?_map, ih, Option.some_or]
        rw [List.takeWhile_cons, List.dropWhile_cons, if_pos hc, if_pos hc] at h
        exact h
      · rw [List.takeWhile_cons, List.dropWhile_cons, if_neg hc, if_neg hc] at h
        rw [runs, if_neg hc, List.findSome?_cons, h]

/-- Where the rest never matches inside a run, only the longest run is left. -/
theorem findSome?_runs_only {β : Type} {f : PyStr × PyStr → Option β} {text : PyStr}
    (h : ∀ xs c rest, p c = true → f (xs, c :: rest) = none) :
    (runs p text).findSome? f = f (text.takeWhile p, text.dropWhile p) := by
  induction text generalizing f with
  | nil => rw [runs, List.findSome?_singleton, List.takeWhile_nil, List.dropWhile_nil]
  | cons c text ih =>
      rw [List.takeWhile_cons, List.dropWhile_cons]
      by_cases hc : p c = true
      · rw [runs, if_pos hc, if_pos hc, if_pos hc, List.findSome?_append, List.findSome?_map,
          ih fun xs d rest hd => h (c :: xs) d rest hd, List.findSome?_cons, h [] c text hc,
          List.findSome?_nil, Option.or_none]
        rfl
      · rw [runs, if_neg hc, if_neg hc, if_neg hc, List.findSome?_singleton]

/-- Behind the anchors of a pattern the character in front does not count. -/
theorem matchAt_prev (h : ∀ piece ∈ ps, piece ≠ .lineStart) (prev prev' : Option CodePoint)
    (text : PyStr) : matchAt ps prev text = matchAt ps prev' text := by
  induction ps generalizing prev prev' text with
  | nil => rfl
  | cons piece ps ih =>
      rw [List.forall_mem_cons] at h
      cases piece with
      | lineStart => exact absurd rfl h.1
      | lineEnd => rw [matchAt, matchAt, ih h.2 prev prev']
      | one q =>
          cases text with
          | nil => rfl
          | cons c text => rfl
      | many q =>
          rw [matchAt, matchAt]
          exact congrArg (List.findSome? · (runs q text)) (funext fun r => ih h.2 _ _ _)
      | group q =>
          rw [matchAt, matchAt]
          refine congrArg (List.findSome? · (runs q text)) (funext fun r => ?_)
          rw [ih h.2 (r.1.getLast?.or prev) (r.1.getLast?.or prev')]

/-- A literal stands for itself. -/
theorem matchAt_literal (key : String) (h : ∀ piece ∈ ps, piece ≠ .lineStart)
    (prev : Option CodePoint) (text g : PyStr) :
    matchAt (literal key ++ ps) prev text = some g ↔
      ∃ rest, text = py key ++ rest ∧ matchAt ps none rest = some g := by
  rw [literal]
  induction py key generalizing prev text with
  | nil => simp [matchAt_prev h prev none]
  | cons c key ih =>
      cases text with
      | nil => simp [matchAt]
      | cons d text =>
          rw [List.map_cons, List.cons_append, matchAt]
          by_cases hd : d = c
          · subst hd
            rw [if_pos (beq_self_eq_true d), ih]
            simp
          · rw [if_neg (by simpa using hd)]
            refine iff_of_false (fun h => by cases h) ?_
            rintro ⟨rest, hrest, -⟩
            rw [List.cons_append, List.cons.injEq] at hrest
            exact hd hrest.1

/-- Blanks, where the rest cannot start with one. -/
theorem matchAt_spaces (hps : ∀ piece ∈ ps, piece ≠ .lineStart)
    (h : ∀ prev c rest, isSpace c = true → matchAt ps prev (c :: rest) = none)
    (prev : Option CodePoint) (text : PyStr) :
    matchAt (spaces :: ps) prev text = matchAt ps none (text.dropWhile isSpace) := by
  rw [spaces, matchAt, findSome?_runs_only fun xs c rest hc => h _ c rest hc,
    matchAt_prev hps _ none]

/-- Blanks up to the end of the line. -/
theorem matchAt_spaces_lineEnd (prev : Option CodePoint) (text : PyStr) :
    matchAt [spaces, lineEnd] prev text =
      if (firstLine text).all isSpace then some [] else none := by
  rw [spaces, matchAt]
  simp only [matchAt]
  induction text with
  | nil => rfl
  | cons c text ih =>
      by_cases hnl : c = newline
      · -- the line ends here, so every way to go on ends at the same
        subst hnl
        rw [runs, if_pos (by decide), List.findSome?_append, List.findSome?_map]
        refine (congrArg (Option.or · _) ih).trans ?_
        split <;> rfl
      · have hline : firstLine (c :: text) = c :: firstLine text := by
          rw [firstLine, List.takeWhile_cons, if_pos (by simpa [dot] using hnl)]
          rfl
        have hhead : ((c :: text).head?.all fun x => x == newline) = false := by
          simpa using hnl
        by_cases hc : isSpace c = true
        · rw [runs, if_pos hc, List.findSome?_append, List.findSome?_map,
            List.findSome?_singleton, hhead, hline, List.all_cons, hc, Bool.true_and, ← ih]
          exact Option.or_none
        · rw [runs, if_neg hc, List.findSome?_singleton, hhead, hline, List.all_cons,
            eq_false_of_ne_true hc]
          rfl

/-- The first match of an anchored pattern is the first one at a line start. -/
theorem searchFrom_anchored (hps : ∀ piece ∈ ps, piece ≠ .lineStart)
    (prev : Option CodePoint) (text : PyStr) :
    searchFrom (.lineStart :: ps) prev text =
      (if prev.all (· == newline) then matchAt ps none text else none).or
        ((behindBreaks text).findSome? (matchAt ps none)) := by
  induction text generalizing prev with
  | nil =>
      rw [searchFrom, matchAt, matchAt_prev hps prev none, behindBreaks, List.findSome?_nil,
        Option.or_none]
  | cons c text ih =>
      rw [searchFrom, matchAt, matchAt_prev hps prev none, ih, behindBreaks]
      by_cases hc : c = newline
      · rw [if_pos hc, hc, List.findSome?_cons]
        simp only [Option.all_some, beq_self_eq_true, if_true]
        cases matchAt ps none text <;> rfl
      · have hall : (some c).all (· == newline) = false := by simpa using hc
        rw [if_neg hc, hall]
        rfl

theorem search_anchored (hps : ∀ piece ∈ ps, piece ≠ .lineStart) (text : PyStr) :
    search (.lineStart :: ps) text = (starts text).findSome? (matchAt ps none) := by
  rw [search, searchFrom_anchored hps, starts, List.findSome?_cons]
  cases matchAt ps none text <;> rfl

end Piece

end MasterAgent
