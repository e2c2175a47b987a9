/-
  MasterAgent.Plugins.RouteLines

  What `LLMClassifier` reads from an answer, line by line.

  `RouteLine` and `ReasonLine` say what an entry on one line is.  In the patterns
  `\s*` also passes over line breaks, so that an entry may be spread over several
  lines (`Spread`); the answer is read line by line exactly when no spread entry
  gets in front of the first one on a line.
-/

import MasterAgent.Plugins.Intent
import MasterAgent.Python.Lines

namespace MasterAgent

open Piece (newline)

namespace LLMClassifier

-- ============================================================================
-- Entries
-- ============================================================================

/-- A non-empty word over `[A-Za-z0-9_-]`. -/
def IsWord (r : PyStr) : Prop := r ≠ [] ∧ ∀ c ∈ r, labelChar c = true

/-- Up to blanks around it: `route`, blanks, `:`, blanks and the word `r`. -/
def RouteLine (line r : PyStr) : Prop :=
  ∃ a b, strip line = py "route" ++ (a ++ (py ":" ++ (b ++ r))) ∧ Blank a ∧ Blank b ∧ IsWord r

/-- Up to blanks around it: `reason`, blanks, `:` and a remainder that is `r`
    when trimmed. -/
def ReasonLine (line r : PyStr) : Prop :=
  ∃ a rest, strip line = py "reason" ++ (a ++ (py ":" ++ rest)) ∧ Blank a ∧
    strip rest = r ∧ r ≠ []

/-- `text` is `key`, a colon and `rest`, with blanks or line breaks around them. -/
structure Opening (key : String) (text indent a b rest : PyStr) : Prop where
  split : text = indent ++ (py key ++ (a ++ (py ":" ++ (b ++ rest))))
  indented : Blank indent
  front : Blank a
  behind : Blank b
  inked : Inked rest

/-- An entry with the value `w` that starts on the first line of `text` and goes
    on behind a line break. -/
def Spread (key : String) (ok : PyStr → Prop) (text w : PyStr) : Prop :=
  ∃ indent a b rest, Opening key text indent a b rest ∧ newline ∉ indent ∧
    newline ∈ a ++ b ∧ strip (firstLine rest) = w ∧ ok w

/-- An entry with the value `w` on one line. -/
def KeyLine (key : String) (ok : PyStr → Prop) (line w : PyStr) : Prop :=
  ∃ a rest, strip line = py key ++ (a ++ (py ":" ++ rest)) ∧ Blank a ∧ strip rest = w ∧ ok w

/-- An entry, with line breaks in front or not. -/
def Loose (key : String) (ok : PyStr → Prop) (text w : PyStr) : Prop :=
  ∃ indent a b rest, Opening key text indent a b rest ∧ strip (firstLine rest) = w ∧ ok w

/-- An entry that starts on the first line of `text`. -/
def Entry (key : String) (ok : PyStr → Prop) (text w : PyStr) : Prop :=
  KeyLine key ok (firstLine text) w ∨ Spread key ok text w

/-- The first entry of `text` is spread over several lines. -/
def SpreadFirst (key : String) (ok : PyStr → Prop) (text w : PyStr) : Prop :=
  ∃ before tail after, starts text = before ++ tail :: after ∧ Spread key ok tail w ∧
    ∀ t ∈ before, ∀ w', ¬ Entry key ok t w'

/-- A spread entry that comes first has the value of the first entry on one line. -/
def SpreadAgrees (key : String) (ok : PyStr → Prop) (text : PyStr) : Prop :=
  ∀ w, SpreadFirst key ok text w → First (KeyLine key ok) (text.splitOn newline) w

theorem labelChar_not_space {c : CodePoint} (h : labelChar c = true) : isSpace c = false := by
  have hval : 0x2d ≤ c.val ∧ c.val ≤ 0x7a := by
    simp only [labelChar, Bool.or_eq_true, decide_eq_true_eq, beq_iff_eq] at h
    rcases h with (((h | h) | h) | rfl) | rfl
    · omega
    · omega
    · omega
    · decide
    · decide
  simp only [isSpace, Bool.or_eq_false_iff, decide_eq_false_iff_not, List.contains_eq_mem,
    List.mem_cons, List.not_mem_nil, or_false]
  omega

theorem IsWord.trimmed {r : PyStr} (h : IsWord r) : Trimmed r where
  head := fun c hc => labelChar_not_space (h.2 c (List.mem_of_head? hc))
  last := fun c hc => labelChar_not_space (h.2 c (List.mem_of_getLast? hc))

variable {key : String} {ok : PyStr → Prop}

theorem inked_colon (s : PyStr) : Inked (py ":" ++ s) := ⟨codePoint ':', rfl, by decide⟩

/-- Where an entry begins is found by passing over blanks. -/
theorem opening_iff (hkey : Inked (py key)) {text rest : PyStr} :
    (∃ indent a b, Opening key text indent a b rest) ↔
      ∃ t, text.dropWhile isSpace = py key ++ t ∧
        ∃ u, t.dropWhile isSpace = py ":" ++ u ∧ u.dropWhile isSpace = rest ∧ Inked rest := by
  constructor
  · rintro ⟨indent, a, b, rfl, hindent, ha, hb, hrest⟩
    exact ⟨_, dropWhile_inked hindent (hkey.append _), _, dropWhile_inked ha (inked_colon _),
      dropWhile_inked hb hrest, hrest⟩
  · rintro ⟨t, ht, u, hu, rfl, hrest⟩
    refine ⟨text.takeWhile isSpace, t.takeWhile isSpace, u.takeWhile isSpace, ?_,
      blank_takeWhile text, blank_takeWhile t, blank_takeWhile u, hrest⟩
    rw [List.takeWhile_append_dropWhile, ← hu, List.takeWhile_append_dropWhile, ← ht,
      List.takeWhile_append_dropWhile]

theorem Loose.value_ok {text w : PyStr} (h : Loose key ok text w) : ok w := by
  obtain ⟨-, -, -, -, -, -, hw⟩ := h
  exact hw

/-- An entry has one value. -/
theorem Loose.unique (hkey : Inked (py key)) {text w w' : PyStr} (h : Loose key ok text w)
    (h' : Loose key ok text w') : w = w' := by
  obtain ⟨indent, a, b, rest, hopen, rfl, -⟩ := h
  obtain ⟨indent', a', b', rest', hopen', rfl, -⟩ := h'
  obtain ⟨t, ht, u, hu, rfl, -⟩ := (opening_iff hkey).mp ⟨indent, a, b, hopen⟩
  obtain ⟨t', ht', u', hu', rfl, -⟩ := (opening_iff hkey).mp ⟨indent', a', b', hopen'⟩
  obtain rfl := List.append_cancel_left (ht.symm.trans ht')
  obtain rfl := List.append_cancel_left (hu.symm.trans hu')
  rfl

theorem KeyLine.unique {line w w' : PyStr} (h : KeyLine key ok line w)
    (h' : KeyLine key ok line w') : w = w' := by
  obtain ⟨a, rest, hstrip, ha, rfl, -⟩ := h
  obtain ⟨a', rest', hstrip', ha', rfl, -⟩ := h'
  have hbehind := List.append_cancel_left (hstrip.symm.trans hstrip')
  have hdrop := congrArg (List.dropWhile isSpace) hbehind
  rw [dropWhile_inked ha (inked_colon rest), dropWhile_inked ha' (inked_colon rest')] at hdrop
  rw [List.append_cancel_left hdrop]

theorem notMem_append {α : Type} {a : α} {s t : List α} : a ∉ s ++ t ↔ a ∉ s ∧ a ∉ t := by
  rw [List.mem_append, not_or]

/-- On one line an entry is what its trimmed text says. -/
theorem keyLine_iff (hkey : Inked (py key)) (hok : ∀ w, ok w → w ≠ []) {line w : PyStr}
    (hline : newline ∉ line) : KeyLine key ok line w ↔ Loose key ok line w := by
  constructor
  · rintro ⟨a, rest, hstrip, ha, hrest, hw⟩
    obtain ⟨-, l, r, rfl, hl, hr⟩ := strip_eq_iff.mp hstrip
    obtain ⟨htrim, b, r', rfl, hb, hr'⟩ := strip_eq_iff.mp hrest
    have hend : newline ∉ w ++ (r' ++ r) := by
      simp only [notMem_append] at hline ⊢
      tauto
    refine ⟨l, a, b, w ++ (r' ++ r), ⟨?_, hl, ha, hb, (htrim.inked (hok w hw)).append _⟩, ?_, hw⟩
    · simp only [List.append_assoc]
    · rw [firstLine_of_line hend]
      exact strip_eq_iff.mpr ⟨htrim, [], r' ++ r, rfl, blank_nil,
        hr'.append hr⟩
  · rintro ⟨indent, a, b, rest, ⟨rfl, hindent, ha, hb, hrest⟩, hw, hok'⟩
    have hend : newline ∉ rest := by
      simp only [notMem_append] at hline
      tauto
    rw [firstLine_of_line hend] at hw
    obtain ⟨htrim, l, r, rfl, hl, hr⟩ := strip_eq_iff.mp hw
    refine ⟨a, b ++ (l ++ w), strip_eq_iff.mpr ⟨⟨fun c hc => ?_, fun c hc => ?_⟩, indent, r, ?_,
      hindent, hr⟩, ha, strip_eq_iff.mpr ⟨htrim, b ++ l, [], ?_, hb.append hl,
        blank_nil⟩, hok'⟩
    · -- the first character is the one of the key
      obtain ⟨d, hd, hspace⟩ := hkey.append (a ++ (py ":" ++ (b ++ (l ++ w))))
      rw [hd, Option.some.injEq] at hc
      exact hc ▸ hspace
    · -- the last character is the one of the value
      refine htrim.last c ?_
      obtain ⟨d, hd⟩ := Option.isSome_iff_exists.mp
        (List.getLast?_isSome.mpr (hok w hok'))
      simpa [List.getLast?_append, hd] using hc
    · simp only [List.append_assoc]
    · simp only [List.append_assoc, List.append_nil]

/-- An entry that has all its parts on the first line. -/
theorem loose_firstLine (hbreak : newline ∉ py key) {text w : PyStr} :
    Loose key ok (firstLine text) w ↔
      ∃ indent a b rest, Opening key text indent a b rest ∧ newline ∉ indent ∧ newline ∉ a ++ b ∧
        strip (firstLine rest) = w ∧ ok w := by
  constructor
  · rintro ⟨indent, a, b, rest, ⟨hsplit, hindent, ha, hb, hrest⟩, hw, hok⟩
    have hline := newline_notMem_firstLine text
    rw [hsplit] at hline
    simp only [notMem_append] at hline
    obtain ⟨hindent', -, ha', -, hb', hrest'⟩ := hline
    refine ⟨indent, a, b, rest ++ behindFirst text, ⟨?_, hindent, ha, hb, hrest.append _⟩, hindent',
      notMem_append.mpr ⟨ha', hb'⟩, ?_, hok⟩
    · conv_lhs => rw [← firstLine_behindFirst text, hsplit]
      simp only [List.append_assoc]
    · rwa [firstLine_append hrest', firstLine_of_behindFirst, List.append_nil,
        ← firstLine_of_line hrest']
  · rintro ⟨indent, a, b, rest, ⟨rfl, hindent, ha, hb, hrest⟩, hindent', hab, hw, hok⟩
    obtain ⟨ha', hb'⟩ := notMem_append.mp hab
    refine ⟨indent, a, b, firstLine rest, ⟨?_, hindent, ha, hb, hrest.firstLine⟩, ?_, hok⟩
    · rw [firstLine_append hindent', firstLine_append hbreak, firstLine_append ha',
        firstLine_append (by decide), firstLine_append hb']
    · rwa [firstLine_of_line (newline_notMem_firstLine rest)]

/-- What belongs to the first line of a text, if the line is not blank. -/
theorem entry_iff_loose (hkey : Inked (py key)) (hbreak : newline ∉ py key)
    (hok : ∀ w, ok w → w ≠ []) {text w : PyStr} (hline : ¬ Blank (firstLine text)) :
    Entry key ok text w ↔ Loose key ok text w := by
  rw [Entry, keyLine_iff hkey hok (newline_notMem_firstLine text), loose_firstLine hbreak]
  constructor
  · rintro (⟨indent, a, b, rest, hopen, -, -, hw⟩ | ⟨indent, a, b, rest, hopen, -, -, hw⟩)
    · exact ⟨indent, a, b, rest, hopen, hw⟩
    · exact ⟨indent, a, b, rest, hopen, hw⟩
  · rintro ⟨indent, a, b, rest, hopen, hw⟩
    have hindent : newline ∉ indent := by
      -- the first line would be part of the blanks
      intro hmem
      rw [hopen.split, firstLine_append_of_mem hmem] at hline
      exact hline fun c hc => hopen.indented c ((List.takeWhile_sublist _).subset hc)
    by_cases hab : newline ∈ a ++ b
    · exact .inr ⟨indent, a, b, rest, hopen, hindent, hab, hw⟩
    · exact .inl ⟨indent, a, b, rest, hopen, hindent, hab, hw⟩

/-- A blank line begins no entry. -/
theorem not_entry_of_blank (hkey : Inked (py key)) (hbreak : newline ∉ py key)
    (hok : ∀ w, ok w → w ≠ []) {text w : PyStr} (hline : Blank (firstLine text)) :
    ¬ Entry key ok text w := by
  have hno : ∀ {indent a b rest : PyStr}, newline ∉ indent →
      ¬ Opening key text indent a b rest := by
    intro indent a b rest hindent hopen
    rw [hopen.split, firstLine_append hindent, firstLine_append hbreak] at hline
    exact Blank.not_inked (fun c hc => hline c (List.mem_append_right _
      (List.mem_append_left _ hc))) hkey
  rw [Entry, keyLine_iff hkey hok (newline_notMem_firstLine text), loose_firstLine hbreak]
  rintro (⟨indent, a, b, rest, hopen, hindent, -⟩ | ⟨indent, a, b, rest, hopen, hindent, -⟩)
  · exact hno hindent hopen
  · exact hno hindent hopen

/-- Blank lines in front change nothing. -/
theorem loose_blank_line (hkey : Inked (py key)) {line rest w : PyStr} (hline : Blank line) :
    Loose key ok (line ++ newline :: rest) w ↔ Loose key ok rest w := by
  have hfront : Blank (line ++ [newline]) := hline.append fun c hc => by
    rw [List.mem_singleton.mp hc]
    decide
  have hdrop : (line ++ newline :: rest).dropWhile isSpace = rest.dropWhile isSpace := by
    rw [List.append_cons, List.dropWhile_append_of_pos hfront]
  have hopening : ∀ after, (∃ indent a b, Opening key (line ++ newline :: rest) indent a b after) ↔
      ∃ indent a b, Opening key rest indent a b after := by
    intro after
    rw [opening_iff hkey, opening_iff hkey, hdrop]
  constructor
  · rintro ⟨indent, a, b, after, hopen, hw⟩
    obtain ⟨indent', a', b', hopen'⟩ := (hopening after).mp ⟨indent, a, b, hopen⟩
    exact ⟨indent', a', b', after, hopen', hw⟩
  · rintro ⟨indent, a, b, after, hopen, hw⟩
    obtain ⟨indent', a', b', hopen'⟩ := (hopening after).mpr ⟨indent, a, b, hopen⟩
    exact ⟨indent', a', b', after, hopen', hw⟩

/-- The first entry, blank lines in front of it or not. -/
theorem first_loose_iff (hkey : Inked (py key)) (hbreak : newline ∉ py key)
    (hok : ∀ w, ok w → w ≠ []) (text w : PyStr) :
    First (Loose key ok) (starts text) w ↔ First (Entry key ok) (starts text) w := by
  induction text using lines_induction with
  | last line hline =>
      rw [starts_line hline, first_singleton, first_singleton]
      by_cases hblank : Blank line
      · have hfirst : Blank (firstLine line) := by rwa [firstLine_of_line hline]
        refine iff_of_false ?_ (not_entry_of_blank hkey hbreak hok hfirst)
        rintro ⟨indent, a, b, rest, hopen, -⟩
        refine Blank.not_inked (fun c hc => hblank c ?_) hkey
        rw [hopen.split]
        exact List.mem_append_right _ (List.mem_append_left _ hc)
      · refine (entry_iff_loose hkey hbreak hok ?_).symm
        rwa [firstLine_of_line hline]
  | step line rest hline ih =>
      rw [starts_append hline, first_cons, first_cons, ih]
      by_cases hblank : Blank line
      · have hfirst : Blank (firstLine (line ++ newline :: rest)) := by
          rwa [firstLine_append_newline hline]
        have hno : ∀ w', ¬ Entry key ok (line ++ newline :: rest) w' :=
          fun w' => not_entry_of_blank hkey hbreak hok hfirst
        rw [or_iff_right (hno w), and_iff_right hno]
        simp only [loose_blank_line hkey hblank]
        rw [← ih, starts, first_cons]
        tauto
      · have hfirst : ¬ Blank (firstLine (line ++ newline :: rest)) := by
          rwa [firstLine_append_newline hline]
        simp only [entry_iff_loose hkey hbreak hok hfirst]

/-- The first entry on one line, over the texts from each line start on. -/
theorem first_keyLine_iff {text w : PyStr} :
    First (KeyLine key ok) (text.splitOn newline) w ↔
      First (fun t => KeyLine key ok (firstLine t)) (starts text) w := by
  rw [← firstLine_starts, first_map]

/-- The first entry is the first one on a line, exactly when spread entries do
    not get in front of it. -/
theorem spreadAgrees_iff (hkey : Inked (py key)) (hbreak : newline ∉ py key)
    (hok : ∀ w, ok w → w ≠ []) (text : PyStr) :
    SpreadAgrees key ok text ↔ ∀ w, First (Loose key ok) (starts text) w →
      First (KeyLine key ok) (text.splitOn newline) w := by
  constructor
  · intro h w hw
    obtain ⟨before, tail, after, hsplit, hentry, hbefore⟩ :=
      (first_loose_iff hkey hbreak hok text w).mp hw
    rcases hentry with hline | hspread
    · exact first_keyLine_iff.mpr ⟨before, tail, after, hsplit, hline,
        fun t ht w' hw' => hbefore t ht w' (.inl hw')⟩
    · exact h w ⟨before, tail, after, hsplit, hspread, hbefore⟩
  · rintro h w ⟨before, tail, after, hsplit, hspread, hbefore⟩
    refine h w ((first_loose_iff hkey hbreak hok text w).mpr ?_)
    exact ⟨before, tail, after, hsplit, .inr hspread, hbefore⟩

/-- Then the first one on a line is also the first of all. -/
theorem SpreadAgrees.first_loose (hkey : Inked (py key)) (hbreak : newline ∉ py key)
    (hok : ∀ w, ok w → w ≠ []) {text w : PyStr} (h : SpreadAgrees key ok text)
    (hw : First (KeyLine key ok) (text.splitOn newline) w) :
    First (Loose key ok) (starts text) w := by
  -- some entry is first, and its value is the one of the first line
  obtain ⟨tail, htail, hline⟩ := (first_keyLine_iff.mp hw).exists_mem
  have hentry : Entry key ok tail w := .inl hline
  obtain ⟨w', hw'⟩ := exists_first htail hentry
  have hloose := (first_loose_iff hkey hbreak hok text w').mpr hw'
  have hfirst := (spreadAgrees_iff hkey hbreak hok text).mp h w' hloose
  have hunique : ∀ line v v', KeyLine key ok line v → KeyLine key ok line v' → v = v' :=
    fun _ _ _ hv hv' => hv.unique hv'
  rwa [hw.unique hunique hfirst]

-- ============================================================================
-- What the patterns match
-- ============================================================================

/-- `\s*key\s*:\s*` and the rest of a pattern. -/
def keyPattern (key : String) (tail : List Piece) : List Piece :=
  .spaces :: (Piece.literal key ++ (.spaces :: (Piece.literal ":" ++ (.spaces :: tail))))

def routeTail : List Piece := [.group labelChar, .spaces, .lineEnd]

def reasonTail : List Piece := [.group Piece.dot, .lineEnd]

theorem routeRe_eq : routeRe = .lineStart :: keyPattern "route" routeTail := by
  simp [routeRe, keyPattern, routeTail]

theorem reasonRe_eq : reasonRe = .lineStart :: keyPattern "reason" reasonTail := by
  simp [reasonRe, keyPattern, reasonTail]

theorem literal_ne_lineStart {key : String} : ∀ piece ∈ Piece.literal key, piece ≠ .lineStart := by
  intro piece hpiece
  obtain ⟨c, -, rfl⟩ := List.mem_map.mp hpiece
  exact Piece.noConfusion

variable {tail : List Piece}

theorem keyPattern_ne_lineStart (htail : ∀ piece ∈ tail, piece ≠ .lineStart) :
    ∀ piece ∈ keyPattern key tail, piece ≠ .lineStart := by
  have hspaces : ∀ {ps : List Piece}, (∀ piece ∈ ps, piece ≠ .lineStart) →
      ∀ piece ∈ Piece.spaces :: ps, piece ≠ .lineStart :=
    fun h => List.forall_mem_cons.mpr ⟨Piece.noConfusion, h⟩
  exact hspaces (List.forall_mem_append.mpr ⟨literal_ne_lineStart,
    hspaces (List.forall_mem_append.mpr ⟨literal_ne_lineStart, hspaces htail⟩)⟩)

/-- What stands behind the colon is matched by the rest of the pattern. -/
theorem matchAt_keyPattern (hkey : Inked (py key)) (htail : ∀ piece ∈ tail, piece ≠ .lineStart)
    {text g : PyStr} :
    Piece.matchAt (keyPattern key tail) none text = some g ↔
      ∃ t, text.dropWhile isSpace = py key ++ t ∧
        ∃ u, t.dropWhile isSpace = py ":" ++ u ∧
          Piece.matchAt (.spaces :: tail) none u = some g := by
  have hspaces : ∀ piece ∈ Piece.spaces :: tail, piece ≠ .lineStart :=
    List.forall_mem_cons.mpr ⟨Piece.noConfusion, htail⟩
  have hcolon : ∀ piece ∈ Piece.literal ":" ++ (.spaces :: tail), piece ≠ .lineStart :=
    List.forall_mem_append.mpr ⟨literal_ne_lineStart, hspaces⟩
  have hfront : ∀ piece ∈ Piece.spaces :: (Piece.literal ":" ++ (.spaces :: tail)),
      piece ≠ .lineStart := List.forall_mem_cons.mpr ⟨Piece.noConfusion, hcolon⟩
  have hbegin : ∀ piece ∈ Piece.literal key ++
      (.spaces :: (Piece.literal ":" ++ (.spaces :: tail))), piece ≠ .lineStart :=
    List.forall_mem_append.mpr ⟨literal_ne_lineStart, hfront⟩
  -- a literal does not start with a blank
  have hink : ∀ {k : String} {ps : List Piece}, Inked (py k) →
      (∀ piece ∈ ps, piece ≠ .lineStart) → ∀ prev c rest, isSpace c = true →
      Piece.matchAt (Piece.literal k ++ ps) prev (c :: rest) = none := by
    intro k ps hk hps prev c rest hc
    cases hmatch : Piece.matchAt (Piece.literal k ++ ps) prev (c :: rest) with
    | none => rfl
    | some g =>
        obtain ⟨after, hsplit, -⟩ := (Piece.matchAt_literal k hps prev _ g).mp hmatch
        obtain ⟨d, hd, hspace⟩ := hk.append after
        rw [← hsplit, List.head?_cons, Option.some.injEq] at hd
        rw [← hd, hc] at hspace
        cases hspace
  rw [keyPattern, Piece.matchAt_spaces hbegin (hink hkey hfront), Piece.matchAt_literal key hfront]
  refine exists_congr fun t => and_congr_right fun _ => ?_
  rw [Piece.matchAt_spaces hcolon (hink ⟨codePoint ':', rfl, by decide⟩ hspaces),
    Piece.matchAt_literal ":" hspaces]

theorem blank_iff_all {s : PyStr} : Blank s ↔ s.all isSpace = true := List.all_eq_true.symm

theorem labelChar_dot {c : CodePoint} (h : labelChar c = true) : Piece.dot c = true := by
  rw [Piece.dot, bne_iff_ne]
  rintro rfl
  exact absurd h (by decide)

/-- Behind a word the line goes on with a blank or ends. -/
theorem not_labelChar_of_blank {v : PyStr} (hv : Blank (firstLine v)) :
    ∀ c, v.head? = some c → labelChar c = false := by
  intro c hc
  cases v with
  | nil => cases hc
  | cons d v =>
      cases hc
      by_contra hlabel
      rw [Bool.not_eq_false] at hlabel
      have hmem : c ∈ firstLine (c :: v) := by
        rw [firstLine, List.takeWhile_cons, if_pos (labelChar_dot hlabel)]
        exact List.mem_cons_self
      have hspace := hv c hmem
      rw [labelChar_not_space hlabel] at hspace
      cases hspace

/-- A word and blanks up to the end of the line. -/
theorem matchAt_routeTail {text g : PyStr} :
    Piece.matchAt routeTail none text = some g ↔
      IsWord g ∧ ∃ v, text = g ++ v ∧ Blank (firstLine v) := by
  have hlongest : Piece.matchAt routeTail none text =
      if (text.takeWhile labelChar).isEmpty then none
      else if (firstLine (text.dropWhile labelChar)).all isSpace then
        some (text.takeWhile labelChar) else none := by
    rw [routeTail, Piece.matchAt, Piece.findSome?_runs_only]
    · rw [Piece.matchAt_spaces_lineEnd]
      split_ifs <;> rfl
    · -- no blank follows inside the word
      intro xs c rest hc
      have hline : (firstLine (c :: rest)).all isSpace = false := by
        rw [firstLine, List.takeWhile_cons, if_pos (labelChar_dot hc), List.all_cons,
          labelChar_not_space hc, Bool.false_and]
      simp only [Piece.matchAt_spaces_lineEnd, hline]
      split <;> rfl
  rw [hlongest]
  constructor
  · intro h
    split_ifs at h with hne hblank
    cases h
    rw [List.isEmpty_iff] at hne
    exact ⟨⟨hne, fun c hc => List.mem_takeWhile_imp hc⟩, text.dropWhile labelChar,
      List.takeWhile_append_dropWhile.symm, blank_iff_all.mpr hblank⟩
  · rintro ⟨hword, v, rfl, hv⟩
    have htake : (g ++ v).takeWhile labelChar = g ∧ (g ++ v).dropWhile labelChar = v := by
      rw [List.takeWhile_append_of_pos hword.2, List.dropWhile_append_of_pos hword.2]
      cases v with
      | nil => exact ⟨List.append_nil g, rfl⟩
      | cons c v =>
          rw [List.takeWhile_cons, List.dropWhile_cons, not_labelChar_of_blank hv c rfl]
          exact ⟨List.append_nil g, rfl⟩
    rw [htake.1, htake.2, if_neg (by simpa using hword.1), if_pos (blank_iff_all.mp hv)]

/-- The word is what the line is when trimmed. -/
theorem word_iff {text g : PyStr} (h : Inked text) :
    (IsWord g ∧ ∃ v, text = g ++ v ∧ Blank (firstLine v)) ↔
      strip (firstLine text) = g ∧ IsWord g := by
  rw [and_comm]
  refine and_congr_left fun hword => ?_
  have hbreak : newline ∉ g := fun hmem => absurd (hword.2 _ hmem) (by decide)
  constructor
  · rintro ⟨v, rfl, hv⟩
    rw [firstLine_append hbreak]
    exact strip_eq_iff.mpr ⟨hword.trimmed, [], firstLine v, rfl,
      blank_nil, hv⟩
  · intro hstrip
    obtain ⟨-, l, r, hsplit, hl, hr⟩ := strip_eq_iff.mp hstrip
    -- nothing is in front of the word
    have hfirst : firstLine text = g ++ r := by
      have hdrop := congrArg (List.dropWhile isSpace) hsplit
      rw [dropWhile_inked hl ((hword.trimmed.inked hword.1).append r)] at hdrop
      rw [← hdrop]
      exact (dropWhile_inked (s := []) (blank_nil) h.firstLine).symm
    refine ⟨r ++ behindFirst text, ?_, ?_⟩
    · rw [← List.append_assoc, ← hfirst, firstLine_behindFirst]
    · have hr' : newline ∉ r := fun hmem =>
        newline_notMem_firstLine text (hfirst ▸ List.mem_append_right _ hmem)
      rwa [firstLine_append hr', firstLine_of_behindFirst, List.append_nil]

theorem routeTail_ne_lineStart : ∀ piece ∈ routeTail, piece ≠ .lineStart := by
  simp [routeTail, Piece.spaces]

theorem reasonTail_ne_lineStart : ∀ piece ∈ reasonTail, piece ≠ .lineStart := by
  simp [reasonTail]

theorem blank_space : Blank (py " ") := by
  intro c hc
  rw [show py " " = [codePoint ' '] from rfl, List.mem_singleton] at hc
  rw [hc]
  decide

theorem inked_route : Inked (py "route") := ⟨codePoint 'r', rfl, by decide⟩

theorem inked_reason : Inked (py "reason") := ⟨codePoint 'r', rfl, by decide⟩

/-- The route pattern matches the entries. -/
theorem matchAt_route {text g : PyStr} :
    Piece.matchAt (keyPattern "route" routeTail) none text = some g ↔
      Loose "route" IsWord text g := by
  have htail : ∀ u : PyStr, Piece.matchAt (.spaces :: routeTail) none u = some g ↔
      ∃ rest, u.dropWhile isSpace = rest ∧ Inked rest ∧ strip (firstLine rest) = g ∧ IsWord g := by
    intro u
    have hspace : ∀ prev c rest, isSpace c = true →
        Piece.matchAt routeTail prev (c :: rest) = none := by
      intro prev c rest hc
      rw [Piece.matchAt_prev routeTail_ne_lineStart prev none]
      cases hmatch : Piece.matchAt routeTail none (c :: rest) with
      | none => rfl
      | some g =>
          obtain ⟨hword, v, hsplit, -⟩ := matchAt_routeTail.mp hmatch
          obtain ⟨d, hd, hink⟩ := (hword.trimmed.inked hword.1).append v
          rw [← hsplit, List.head?_cons, Option.some.injEq] at hd
          rw [← hd, hc] at hink
          cases hink
    rw [Piece.matchAt_spaces routeTail_ne_lineStart hspace, matchAt_routeTail]
    constructor
    · rintro ⟨hword, v, hsplit, hv⟩
      have hink : Inked (u.dropWhile isSpace) := by
        rw [hsplit]
        exact (hword.trimmed.inked hword.1).append v
      exact ⟨_, rfl, hink, (word_iff hink).mp ⟨hword, v, hsplit, hv⟩⟩
    · rintro ⟨rest, rfl, hink, hw⟩
      exact (word_iff hink).mpr hw
  rw [matchAt_keyPattern inked_route routeTail_ne_lineStart]
  constructor
  · rintro ⟨t, ht, u, hu, hmatch⟩
    obtain ⟨rest, hrest, hink, hw⟩ := (htail u).mp hmatch
    obtain ⟨indent, a, b, hopen⟩ := (opening_iff inked_route).mpr ⟨t, ht, u, hu, hrest, hink⟩
    exact ⟨indent, a, b, rest, hopen, hw⟩
  · rintro ⟨indent, a, b, rest, hopen, hw⟩
    obtain ⟨t, ht, u, hu, hrest, hink⟩ := (opening_iff inked_route).mp ⟨indent, a, b, hopen⟩
    exact ⟨t, ht, u, hu, (htail u).mpr ⟨rest, hrest, hink, hw⟩⟩

/-- The rest of a line that has one. -/
theorem matchAt_reasonTail (prev : Option CodePoint) (text : PyStr) :
    Piece.matchAt reasonTail prev text =
      if (firstLine text).isEmpty then none else some (firstLine text) := by
  rw [reasonTail, Piece.matchAt, Piece.findSome?_runs_only]
  · have hend : (behindFirst text).head?.all (· == newline) = true := by
      cases hhead : (behindFirst text).head? with
      | none => rfl
      | some c => simp [head_behindFirst hhead]
    rw [Piece.matchAt, Piece.matchAt]
    change (if (firstLine text).isEmpty then none else Option.map _
      (if (behindFirst text).head?.all (· == newline) then some [] else none)) = _
    rw [hend]
    rfl
  · intro xs c rest hc
    have hhead : ((c :: rest).head?.all (· == newline)) = false := by
      simpa [Piece.dot] using hc
    rw [Piece.matchAt, hhead]
    split <;> rfl

theorem mem_runs {p : CodePoint → Bool} {text : PyStr} {r : PyStr × PyStr}
    (h : r ∈ Piece.runs p text) : r.1 ++ r.2 = text := by
  induction text generalizing r with
  | nil =>
      rw [Piece.runs, List.mem_singleton] at h
      rw [h]
      rfl
  | cons c text ih =>
      rw [Piece.runs] at h
      split at h
      · rcases List.mem_append.mp h with h | h
        · obtain ⟨r', hr', rfl⟩ := List.mem_map.mp h
          exact congrArg (c :: ·) (ih hr')
        · rw [List.mem_singleton.mp h]
          rfl
      · rw [List.mem_singleton.mp h]
        rfl

/-- Behind the colon of `reason`: the first line with something on it, or blanks
    where there is none. -/
theorem matchAt_spaces_reasonTail (u : PyStr) :
    (Inked (u.dropWhile isSpace) ∧ Piece.matchAt (.spaces :: reasonTail) none u =
        some (firstLine (u.dropWhile isSpace))) ∨
      (Blank u ∧ ∀ g, Piece.matchAt (.spaces :: reasonTail) none u = some g → Blank g) := by
  by_cases hblank : Blank u
  · refine .inr ⟨hblank, fun g hg => ?_⟩
    rw [Piece.spaces, Piece.matchAt] at hg
    obtain ⟨r, hr, hmatch⟩ := List.exists_of_findSome?_eq_some hg
    rw [matchAt_reasonTail] at hmatch
    split at hmatch
    · cases hmatch
    · cases hmatch
      intro c hc
      refine hblank c ?_
      rw [← mem_runs hr]
      exact List.mem_append_right _ ((List.takeWhile_sublist _).subset hc)
  · have hink : Inked (u.dropWhile isSpace) := by
      cases hdrop : u.dropWhile isSpace with
      | nil =>
          rw [List.dropWhile_eq_nil_iff] at hdrop
          exact absurd hdrop hblank
      | cons c rest => exact ⟨c, rfl, head_dropWhile_space (s := u) (by rw [hdrop]; rfl)⟩
    refine .inl ⟨hink, ?_⟩
    rw [Piece.spaces, Piece.matchAt]
    refine Piece.findSome?_runs_longest ?_
    rw [matchAt_reasonTail, if_neg]
    simpa using hink.firstLine.ne_nil

/-- The value of a reason. -/
def Given (w : PyStr) : Prop := w ≠ []

/-- A reason without a text: behind its colon only blanks follow. -/
def Dangling (text : PyStr) : Prop :=
  ∃ indent a u, text = indent ++ (py "reason" ++ (a ++ (py ":" ++ u))) ∧
    Blank indent ∧ Blank a ∧ Blank u

theorem loose_of_matchAt_reason {text g : PyStr}
    (h : Piece.matchAt (keyPattern "reason" reasonTail) none text = some g) :
    Loose "reason" Given text (strip g) ∨ (strip g = [] ∧ Dangling text) := by
  obtain ⟨t, ht, u, hu, hmatch⟩ := (matchAt_keyPattern inked_reason reasonTail_ne_lineStart).mp h
  rcases matchAt_spaces_reasonTail u with ⟨hink, hline⟩ | ⟨hblank, hno⟩
  · rw [hline, Option.some.injEq] at hmatch
    obtain ⟨indent, a, b, hopen⟩ :=
      (opening_iff inked_reason).mpr ⟨t, ht, u, hu, rfl, hink⟩
    refine .inl ⟨indent, a, b, _, hopen, by rw [hmatch], ?_⟩
    exact hmatch ▸ hink.firstLine.strip_ne_nil
  · refine .inr ⟨strip_eq_nil_iff.mpr (hno g hmatch), text.takeWhile isSpace,
      t.takeWhile isSpace, u, ?_, blank_takeWhile text, blank_takeWhile t, hblank⟩
    rw [← hu, List.takeWhile_append_dropWhile, ← ht, List.takeWhile_append_dropWhile]

theorem matchAt_of_loose_reason {text w : PyStr} (h : Loose "reason" Given text w) :
    ∃ g, Piece.matchAt (keyPattern "reason" reasonTail) none text = some g ∧ strip g = w := by
  obtain ⟨indent, a, b, rest, hopen, hw, -⟩ := h
  obtain ⟨t, ht, u, hu, rfl, hink⟩ := (opening_iff inked_reason).mp ⟨indent, a, b, hopen⟩
  rcases matchAt_spaces_reasonTail u with ⟨-, hline⟩ | ⟨hblank, -⟩
  · exact ⟨_, (matchAt_keyPattern inked_reason reasonTail_ne_lineStart).mpr ⟨t, ht, u, hu, hline⟩,
      hw⟩
  · exact absurd hink (Blank.not_inked fun c hc => hblank c ((List.dropWhile_sublist _).subset hc))

theorem countP_blank {s : PyStr} (h : Blank s) : s.countP (fun c => !isSpace c) = 0 :=
  List.countP_eq_zero.mpr fun c hc => by simp [h c hc]

theorem countP_inked {s : PyStr} (h : Inked s) : 0 < s.countP (fun c => !isSpace c) := by
  obtain ⟨c, hc, hspace⟩ := h
  exact List.countP_pos_iff.mpr ⟨c, List.mem_of_head? hc, by simp [hspace]⟩

/-- No entry follows where a reason dangles: it would need more ink. -/
theorem Dangling.not_loose {text tail w : PyStr} (h : Dangling text) (htail : tail <:+ text) :
    ¬ Loose "reason" Given tail w := by
  obtain ⟨indent, a, u, rfl, hindent, ha, hu⟩ := h
  rintro ⟨indent', a', b', rest, ⟨rfl, -, -, -, hrest⟩, -⟩
  have hcount := List.Sublist.countP_le (p := fun c => !isSpace c) htail.sublist
  simp only [List.countP_append, countP_blank hindent, countP_blank ha, countP_blank hu] at hcount
  have hpos := countP_inked hrest
  omega

theorem starts_suffix (text : PyStr) : ∀ t ∈ starts text, t <:+ text := by
  induction text using lines_induction with
  | last line hline =>
      rw [starts_line hline]
      simp
  | step line rest hline ih =>
      rw [starts_append hline, List.forall_mem_cons]
      refine ⟨List.suffix_refl _, fun t ht => (ih t ht).trans ?_⟩
      exact ⟨line ++ [newline], by simp⟩

theorem starts_pairwise (text : PyStr) : (starts text).Pairwise fun t t' => t' <:+ t := by
  induction text using lines_induction with
  | last line hline =>
      rw [starts_line hline]
      exact List.pairwise_singleton _ _
  | step line rest hline ih =>
      have hsuffix := starts_suffix (line ++ newline :: rest)
      rw [starts_append hline, List.forall_mem_cons] at hsuffix
      rw [starts_append hline]
      exact List.pairwise_cons.mpr ⟨hsuffix.2, ih⟩

/-- The first match of the reason pattern in a list of ever shorter texts. -/
theorem findSome?_reason {w : PyStr} {ts : List PyStr}
    (hts : ts.Pairwise fun t t' => t' <:+ t) :
    ((ts.findSome? (Piece.matchAt (keyPattern "reason" reasonTail) none)).elim [] strip = w ∧
        w ≠ []) ↔ First (Loose "reason" Given) ts w := by
  induction ts with
  | nil => exact iff_of_false (fun h => h.2 h.1.symm) not_first_nil
  | cons t ts ih =>
      obtain ⟨hsuffix, hts⟩ := List.pairwise_cons.mp hts
      rw [first_cons, List.findSome?_cons]
      cases hmatch : Piece.matchAt (keyPattern "reason" reasonTail) none t with
      | none =>
          have hno : ∀ w', ¬ Loose "reason" Given t w' := by
            intro w' hw'
            obtain ⟨g, hg, -⟩ := matchAt_of_loose_reason hw'
            rw [hmatch] at hg
            cases hg
          rw [or_iff_right (hno w), and_iff_right hno]
          exact ih hts
      | some g =>
          rcases loose_of_matchAt_reason hmatch with hloose | ⟨hnil, hdangling⟩
          · constructor
            · rintro ⟨rfl, -⟩
              exact .inl hloose
            · rintro (hw | ⟨hno, -⟩)
              · have hgiven : Given w := Loose.value_ok hw
                exact ⟨hloose.unique inked_reason hw, hgiven⟩
              · exact absurd hloose (hno _)
          · -- nothing but blanks follows, so nothing is found later either
            refine iff_of_false (fun h => h.2 (h.1.symm.trans hnil)) ?_
            rintro (hw | ⟨-, hlater⟩)
            · exact hdangling.not_loose (List.suffix_refl t) hw
            · obtain ⟨t', ht', hw⟩ := hlater.exists_mem
              exact hdangling.not_loose (hsuffix t' ht') hw

/-- What is made of the match of the reason pattern. -/
theorem reason_iff {text w : PyStr} :
    ((Piece.search reasonRe text).elim [] strip = w ∧ w ≠ []) ↔
      First (Loose "reason" Given) (starts text) w := by
  rw [reasonRe_eq, Piece.search_anchored (keyPattern_ne_lineStart reasonTail_ne_lineStart)]
  exact findSome?_reason (starts_pairwise text)

/-- What the route pattern finds. -/
theorem route_iff {text w : PyStr} :
    Piece.search routeRe text = some w ↔ First (Loose "route" IsWord) (starts text) w := by
  rw [routeRe_eq, Piece.search_anchored (keyPattern_ne_lineStart routeTail_ne_lineStart),
    List.findSome?_eq_some_iff]
  simp only [First, matchAt_route, Option.eq_none_iff_forall_ne_some, ne_eq]

-- ============================================================================
-- Line by line
-- ============================================================================

/-- The outcome for `text` is what reading it line by line gives: the route of
    the first route line, or the failure without one; and a reason that is given
    is the one of the first reason line. -/
structure ReadByLine (outcome : Except Exn IntentResult) (text : PyStr) : Prop where
  route : ∀ r, (∃ res, outcome = .ok res ∧ res.route = r) ↔
    First RouteLine (text.splitOn newline) r
  fails : (∀ line ∈ text.splitOn newline, ∀ r, ¬ RouteLine line r) →
    ∃ message, outcome = .error (.intentFailed message)
  reason : ∀ res, outcome = .ok res → res.reason ≠ [] →
    First ReasonLine (text.splitOn newline) res.reason

/-- Spread route entries do not get in front of the first route line, nor spread
    reason entries in front of the first reason line where there is a route. -/
structure EntriesOnLines (text : PyStr) : Prop where
  route : SpreadAgrees "route" IsWord text
  reason : (∃ line ∈ text.splitOn newline, ∃ r, RouteLine line r) →
    SpreadAgrees "reason" Given text

theorem routeLine_iff {line r : PyStr} : RouteLine line r ↔ KeyLine "route" IsWord line r := by
  constructor
  · rintro ⟨a, b, hstrip, ha, hb, hword⟩
    exact ⟨a, b ++ r, hstrip, ha, strip_eq_iff.mpr ⟨hword.trimmed, b, [], by simp, hb,
      blank_nil⟩, hword⟩
  · rintro ⟨a, rest, hstrip, ha, hrest, hword⟩
    obtain ⟨-, b, r', rfl, hb, hr'⟩ := strip_eq_iff.mp hrest
    -- the trimmed line does not end with a blank
    have hnil : r' = [] := by
      cases hlast : r'.getLast? with
      | none => exact List.getLast?_eq_none_iff.mp hlast
      | some c =>
          have hspace := hr' c (List.mem_of_getLast? hlast)
          have hend : (strip line).getLast? = some c := by
            rw [hstrip]
            simp [List.getLast?_append, hlast]
          rw [(trimmed_strip line).last c hend] at hspace
          cases hspace
    rw [hnil, List.append_nil] at hstrip
    exact ⟨a, b, hstrip, ha, hb, hword⟩

theorem not_newline_route : newline ∉ py "route" := by decide

theorem not_newline_reason : newline ∉ py "reason" := by decide

/-- The route is the first one found. -/
theorem parse_route_iff {repr : PyStr → PyStr} {text r : PyStr} :
    (∃ res, parse repr text = .ok res ∧ res.route = r) ↔
      First (Loose "route" IsWord) (starts text) r := by
  rw [← route_iff, parse]
  cases Piece.search routeRe text <;> simp

theorem parse_reason {repr : PyStr → PyStr} {text : PyStr} {res : IntentResult}
    (h : parse repr text = .ok res) :
    res.reason = (Piece.search reasonRe text).elim [] strip := by
  rw [parse] at h
  cases hsearch : Piece.search routeRe text <;> rw [hsearch] at h <;> cases h
  rfl

theorem parse_error {repr : PyStr → PyStr} {text : PyStr} {e : Exn}
    (h : parse repr text = .error e) : e = unparsed repr text := by
  rw [parse] at h
  cases hsearch : Piece.search routeRe text <;> rw [hsearch] at h <;> cases h
  rfl

/-- A text whose entries stand on one line each is read line by line, and no
    other text is. -/
theorem parse_readByLine_iff (repr : PyStr → PyStr) (text : PyStr) :
    ReadByLine (parse repr text) text ↔ EntriesOnLines text := by
  have hroute := fun r => @parse_route_iff repr text r
  have hline : ∀ r, First RouteLine (text.splitOn newline) r ↔
      First (KeyLine "route" IsWord) (text.splitOn newline) r :=
    fun r => first_congr fun _ _ _ => routeLine_iff
  have hword : ∀ w, IsWord w → w ≠ [] := fun _ hw => hw.1
  have hgiven : ∀ w, Given w → w ≠ [] := fun _ hw => hw
  constructor
  · intro h
    constructor
    · refine (spreadAgrees_iff inked_route not_newline_route hword text).mpr fun w hw => ?_
      exact (hline w).mp ((h.route w).mp ((hroute w).mpr hw))
    · rintro ⟨line, hmem, r, hr⟩
      refine (spreadAgrees_iff inked_reason not_newline_reason hgiven text).mpr fun w hw => ?_
      obtain ⟨r', hr'⟩ := exists_first hmem hr
      obtain ⟨res, hres, -⟩ := (h.route r').mpr hr'
      obtain ⟨hvalue, hne⟩ := reason_iff.mpr hw
      rw [← parse_reason hres] at hvalue
      rw [← hvalue] at hne ⊢
      exact h.reason res hres hne
  · intro h
    have hfirst : ∀ r, First (Loose "route" IsWord) (starts text) r ↔
        First RouteLine (text.splitOn newline) r := by
      intro r
      rw [hline]
      exact ⟨(spreadAgrees_iff inked_route not_newline_route hword text).mp h.route r,
        h.route.first_loose inked_route not_newline_route hword⟩
    constructor
    · exact fun r => (hroute r).trans (hfirst r)
    · intro hno
      cases hparse : parse repr text with
      | error e => exact ⟨_, congrArg Except.error (parse_error hparse)⟩
      | ok res =>
          obtain ⟨line, hmem, hr⟩ :=
            ((hfirst res.route).mp ((hroute _).mp ⟨res, hparse, rfl⟩)).exists_mem
          exact absurd hr (hno line hmem _)
    · intro res hres hne
      obtain ⟨line, hmem, hr⟩ :=
        ((hfirst res.route).mp ((hroute _).mp ⟨res, hres, rfl⟩)).exists_mem
      refine (spreadAgrees_iff inked_reason not_newline_reason hgiven text).mp
        (h.reason ⟨line, hmem, _, hr⟩) _ ?_
      exact reason_iff.mp ⟨(parse_reason hres).symm, hne⟩

/-- A chat model's answer is read line by line exactly when no entry that is
    spread over several lines gets in front of those on one line. -/
theorem classify_readByLine_iff (str : Json → PyStr) (repr : PyStr → PyStr)
    (llm : (attempt : Nat) → (prompt : PyStr) → Except Exn Json) (labels : List PyStr)
    (attempt : Nat) (state : GraphState) (content : Json)
    (hanswer : llm attempt (prompt str labels state) = .ok content) :
    ReadByLine (classify str repr llm labels attempt state) (content.text str) ↔
      EntriesOnLines (content.text str) := by
  have hclassify : classify str repr llm labels attempt state = parse repr (content.text str) := by
    rw [classify, hanswer]
    rfl
  rw [hclassify]
  exact parse_readByLine_iff repr (content.text str)

/-- A question without a history. -/
def asking (question : PyStr) : GraphState where
  requestId := .str (py "r")
  bizId := py "b"
  threadId := .str (py "t")
  identity := none
  question := .str question
  bizParams := .null
  assistantMessageId := py "m"

/-- A route on one line, and one spread over the next two. -/
def twoRoutes : PyStr := py "route: foo\nroute:\nbar"

/-- The spread entry comes second, so that the answer is read line by line. -/
theorem classify_readByLine_foo :
    ReadByLine (classify (fun _ => []) id (fun _ _ => .ok (.str twoRoutes)) [py "foo"] 0
      (asking (py "q"))) twoRoutes := by
  have hroute : SpreadAgrees "route" IsWord twoRoutes := by
    rw [spreadAgrees_iff inked_route not_newline_route fun _ hword => hword.1]
    intro w hfirst
    obtain ⟨t, -, hloose⟩ := hfirst.exists_mem
    have hsearch : Piece.search routeRe twoRoutes = some (py "foo") := by decide
    have hlines : twoRoutes.splitOn newline = [py "route: foo", py "route:", py "bar"] := by decide
    rw [← route_iff, hsearch, Option.some.injEq] at hfirst
    have hline : RouteLine (py "route: foo") w := by
      rw [← hfirst]
      exact ⟨[], py " ", by decide, blank_nil, blank_space, hfirst ▸ hloose.value_ok⟩
    rw [hlines]
    exact first_cons.mpr (.inl (routeLine_iff.mp hline))
  have hreason : SpreadAgrees "reason" Given twoRoutes := by
    refine (spreadAgrees_iff inked_reason not_newline_reason (fun _ hgiven => hgiven) _).mpr ?_
    intro w hfirst
    -- there is no reason entry at all
    have hsearch : Piece.search reasonRe twoRoutes = none := by decide
    obtain ⟨hvalue, hne⟩ := reason_iff.mpr hfirst
    rw [hsearch] at hvalue
    exact absurd hvalue.symm hne
  exact (classify_readByLine_iff (fun _ => []) id (fun _ _ => .ok (.str twoRoutes)) [py "foo"] 0
    (asking (py "q")) (.str twoRoutes) rfl).mpr ⟨hroute, fun _ => hreason⟩

theorem RouteLine.length {line r : PyStr} (h : RouteLine line r) : 7 ≤ (strip line).length := by
  obtain ⟨a, b, hstrip, -, -, hword⟩ := h
  have hr : 0 < r.length := List.length_pos_iff.mpr hword.1
  have hroute : (py "route").length = 5 := by decide
  have hcolon : (py ":").length = 1 := by decide
  rw [hstrip]
  simp only [List.length_append]
  omega

/-- `route:` with the label on the next line is read as that label. -/
theorem classify_spread_route :
    ¬ ReadByLine (classify (fun _ => []) id (fun _ _ => .ok (.str (py "route:\nfoo"))) [py "foo"] 0
        (asking (py "q"))) (py "route:\nfoo") := by
  intro h
  have hlines : (py "route:\nfoo").splitOn newline = [py "route:", py "foo"] := by decide
  have hno : ∀ line ∈ (py "route:\nfoo").splitOn newline, ∀ r, ¬ RouteLine line r := by
    rw [hlines]
    intro line hline r hr
    have hlen := hr.length
    rcases List.mem_cons.mp hline with rfl | hline
    · exact absurd hlen (by decide)
    · rw [List.mem_singleton.mp hline] at hlen
      exact absurd hlen (by decide)
  obtain ⟨message, hfails⟩ := h.fails hno
  cases hfails

-- ============================================================================
-- The answer that the prompt asks for
-- ============================================================================

/-- `route: label` on the first line, `reason: reason` on the second. -/
def askedAnswer (label reason : PyStr) : PyStr :=
  py "route: " ++ (label ++ newline :: (py "reason: " ++ reason))

section Asked

variable {label reason : PyStr}

/-- A route that is read is a word. -/
theorem isWord_of_search {text r : PyStr} (h : Piece.search routeRe text = some r) :
    IsWord r := by
  obtain ⟨t, -, hloose⟩ := (route_iff.mp h).exists_mem
  exact hloose.value_ok

theorem search_route_asked (hlabel : IsWord label) :
    Piece.search routeRe (askedAnswer label reason) = some label := by
  have hbreak : newline ∉ label := fun h => absurd (hlabel.2 _ h) (by decide)
  have hopen : Opening "route" (askedAnswer label reason) [] [] (py " ")
      (label ++ newline :: (py "reason: " ++ reason)) :=
    ⟨rfl, blank_nil, blank_nil,
      blank_space, (hlabel.trimmed.inked hlabel.1).append _⟩
  refine route_iff.mpr (first_cons.mpr (.inl ⟨[], [], py " ", _, hopen, ?_, hlabel⟩))
  rw [firstLine_append_newline hbreak]
  exact strip_of_trimmed hlabel.trimmed

/-- The first line is no reason entry, and the second is one if it has a reason. -/
theorem search_reason_asked (hlabel : newline ∉ label) (hreason : newline ∉ reason) :
    (Piece.search reasonRe (askedAnswer label reason)).elim [] strip = strip reason := by
  have hsecond : newline ∉ py "reason: " ++ reason :=
    notMem_append.mpr ⟨by decide, hreason⟩
  have hstarts : starts (askedAnswer label reason) =
      [askedAnswer label reason, py "reason: " ++ reason] := by
    have hline : newline ∉ py "route: " ++ label := notMem_append.mpr ⟨by decide, hlabel⟩
    rw [askedAnswer, ← List.append_assoc, starts_append hline, starts_line hsecond]
  have hfirst : ∀ w, First (Loose "reason" Given) (starts (askedAnswer label reason)) w ↔
      Loose "reason" Given (py "reason: " ++ reason) w := by
    intro w
    have hno : ∀ w', ¬ Loose "reason" Given (askedAnswer label reason) w' := by
      rintro w' ⟨indent, a, b, rest, hopen, -⟩
      obtain ⟨t, ht, -⟩ := (opening_iff inked_reason).mp ⟨indent, a, b, hopen⟩
      -- `ro` is not `re`
      have hletter := congrArg (fun s : PyStr => s[1]?) ht
      cases hletter
    rw [hstarts, first_cons, or_iff_right (hno w), and_iff_right hno, first_singleton]
  by_cases hblank : Blank reason
  · by_contra hvalue
    rw [strip_eq_nil_iff.mpr hblank] at hvalue
    have hdangling : Dangling (py "reason: " ++ reason) :=
      ⟨[], [], py " " ++ reason, rfl, blank_nil, blank_nil, blank_space.append hblank⟩
    have hloose := (hfirst _).mp (reason_iff.mp ⟨rfl, hvalue⟩)
    exact hdangling.not_loose (List.suffix_refl _) hloose
  · have hne : strip reason ≠ [] := fun hnil => hblank (strip_eq_nil_iff.mp hnil)
    obtain ⟨htrim, l, r, hsplit, hl, hr⟩ := strip_eq_iff.mp (rfl : strip reason = strip reason)
    have hrest : newline ∉ strip reason ++ r := by
      rw [hsplit, notMem_append] at hreason
      exact hreason.2
    refine (reason_iff.mpr ((hfirst _).mpr ⟨[], [], py " " ++ l, strip reason ++ r, ?_, ?_, hne⟩)).1
    · have htext : py "reason: " ++ reason = py "reason: " ++ (l ++ (strip reason ++ r)) := by
        rw [← hsplit]
      exact ⟨htext, blank_nil, blank_nil, blank_space.append hl,
        (htrim.inked hne).append _⟩
    · rw [firstLine_of_line hrest]
      exact strip_eq_iff.mpr ⟨htrim, [], r, rfl, blank_nil, hr⟩

/-- The answer is read as it is meant exactly when the label is a word. -/
theorem parse_asked_iff (repr : PyStr → PyStr) (hreason : newline ∉ reason) :
    parse repr (askedAnswer label reason) = .ok {
        route := label
        confidence := 0x3ff0000000000000#64
        reason := strip reason } ↔ IsWord label := by
  rw [parse]
  constructor
  · intro h
    cases hsearch : Piece.search routeRe (askedAnswer label reason) with
    | none =>
        rw [hsearch] at h
        cases h
    | some route =>
        rw [hsearch] at h
        simp only [Except.ok.injEq, IntentResult.mk.injEq] at h
        exact h.1 ▸ isWord_of_search hsearch
  · intro h
    have hbreak : newline ∉ label := fun hmem => absurd (h.2 _ hmem) (by decide)
    rw [search_route_asked h, search_reason_asked hbreak hreason]

end Asked

end LLMClassifier

end MasterAgent
