/-
  MasterAgent.Lib.EventStream

  The event-stream format, over any characters.  A stream is read line by line; a
  line ends at LF, CR or CRLF.  A blank line dispatches the event that the fields
  before it describe, a line that starts with a colon is a comment, and what
  follows the last line end is dropped.

  `parse_frame` and `parse_comment` say how a reader takes what a writer puts on
  the stream.
-/

import Mathlib.Data.List.Basic
import Mathlib.Tactic.Tauto

namespace MasterAgent.EventStream

/-- The characters of the format, the names of the two fields that make an
    event, and the type of an event that names none. -/
structure Marks (α : Type) where
  lf : α
  cr : α
  colon : α
  space : α
  event : List α
  data : List α
  message : List α
  event_ne_data : event ≠ data
  event_ne_nil : event ≠ []
  data_ne_nil : data ≠ []
  colon_not_mem_event : colon ∉ event
  colon_not_mem_data : colon ∉ data
  oneLine : ∀ c ∈ colon :: space :: (event ++ data), c ≠ lf ∧ c ≠ cr

variable {α : Type} [DecidableEq α] (m : Marks α)

-- ============================================================================
-- Reading
-- ============================================================================

/-- The lines of a text, `line` being the begin of the first one.  An LF right
    after a CR belongs to the end of the line before. -/
def lines : (afterCr : Bool) → (line : List α) → List α → List (List α)
  | _, _, [] => []
  | afterCr, line, c :: s =>
      if c = m.lf then
        if afterCr then lines false [] s else line :: lines false [] s
      else if c = m.cr then line :: lines true [] s
      else lines false (line ++ [c]) s

/-- What a reader dispatches. -/
structure Event (α : Type) where
  type : List α
  data : List α

/-- The buffers of a reader. -/
structure Reader (α : Type) where
  type : List α := []
  data : List α := []

/-- The name and the value of a field; one space before the value is left out. -/
def field (line : List α) : List α × List α :=
  (line.takeWhile (· ≠ m.colon),
    match line.dropWhile (· ≠ m.colon) with
    | [] => []
    | [_] => []
    | _ :: c :: value => if c = m.space then value else c :: value)

/-- The event of the buffers: the last line end of the data is left out, and
    there is none without data. -/
def Reader.event (r : Reader α) : Option (Event α) :=
  if r.data = [] then none
  else some ⟨if r.type = [] then m.message else r.type, r.data.dropLast⟩

/-- Take a line. -/
def Reader.take (r : Reader α) (line : List α) : Reader α × Option (Event α) :=
  match line with
  | [] => ({}, r.event m)
  | c :: _ =>
      if c = m.colon then (r, none)
      else if (field m line).1 = m.event then ({ r with type := (field m line).2 }, none)
      else if (field m line).1 = m.data then
        ({ r with data := r.data ++ (field m line).2 ++ [m.lf] }, none)
      else (r, none)

/-- The events of lines. -/
def Reader.read (r : Reader α) : List (List α) → List (Event α)
  | [] => []
  | line :: rest => (r.take m line).2.toList ++ (r.take m line).1.read rest

/-- The events of a stream. -/
def parse (text : List α) : List (Event α) := ({} : Reader α).read m (lines m false [] text)

-- ============================================================================
-- Writing
-- ============================================================================

/-- A line with a field. -/
def fieldLine (name value : List α) : List α := name ++ m.colon :: m.space :: (value ++ [m.lf])

/-- An event on the stream. -/
def frame (ev : Event α) : List α :=
  fieldLine m m.event ev.type ++ (fieldLine m m.data ev.data ++ [m.lf])

/-- A comment on the stream. -/
def comment (text : List α) : List α := m.colon :: (text ++ [m.lf, m.lf])

/-- The text is part of one line. -/
def OneLine (s : List α) : Prop := ∀ c ∈ s, c ≠ m.lf ∧ c ≠ m.cr

variable {m}

section OneLine

omit [DecidableEq α]

theorem OneLine.append {s t : List α} (hs : OneLine m s) (ht : OneLine m t) :
    OneLine m (s ++ t) := by
  intro c hc
  rcases List.mem_append.mp hc with hc | hc
  · exact hs c hc
  · exact ht c hc

/-- What stands before the value of a field. -/
theorem Marks.oneLine_event : OneLine m (m.event ++ [m.colon, m.space]) := by
  intro c hc
  refine m.oneLine c ?_
  simp only [List.mem_append, List.mem_cons, List.not_mem_nil, or_false] at hc ⊢
  tauto

theorem Marks.oneLine_data : OneLine m (m.data ++ [m.colon, m.space]) := by
  intro c hc
  refine m.oneLine c ?_
  simp only [List.mem_append, List.mem_cons, List.not_mem_nil, or_false] at hc ⊢
  tauto

theorem Marks.oneLine_colon : OneLine m [m.colon] :=
  List.forall_mem_singleton.mpr (m.oneLine _ List.mem_cons_self)

theorem oneLine_nil : OneLine m [] := fun _ hc => (List.not_mem_nil hc).elim

end OneLine

/-- Up to its end a line is one line. -/
theorem lines_of_oneLine {l : List α} (h : OneLine m l) (line s : List α) :
    lines m false line (l ++ m.lf :: s) = (line ++ l) :: lines m false [] s := by
  induction l generalizing line with
  | nil => simp [lines]
  | cons c l ih =>
      obtain ⟨hlf, hcr⟩ := h c List.mem_cons_self
      have hrest := ih (fun d hd => h d (List.mem_cons_of_mem _ hd)) (line ++ [c])
      rw [List.cons_append, lines, if_neg hlf, if_neg hcr, hrest, List.append_assoc]
      rfl

/-- The field of a line that was written. -/
theorem field_written {name : List α} (hname : m.colon ∉ name) (value : List α) :
    field m (name ++ m.colon :: m.space :: value) = (name, value) := by
  have hall : ∀ c ∈ name, decide (c ≠ m.colon) = true := by
    intro c hc
    rw [decide_eq_true_eq]
    rintro rfl
    exact hname hc
  unfold field
  rw [List.takeWhile_append_of_pos hall, List.dropWhile_append_of_pos hall]
  simp

/-- A line with a field does not start with a colon. -/
theorem take_fieldLine (r : Reader α) {name : List α} (hne : name ≠ [])
    (hname : m.colon ∉ name) (value : List α) :
    r.take m (name ++ m.colon :: m.space :: value) =
      if name = m.event then ({ r with type := value }, none)
      else if name = m.data then ({ r with data := r.data ++ value ++ [m.lf] }, none)
      else (r, none) := by
  have hfield := field_written hname value
  cases name with
  | nil => exact absurd rfl hne
  | cons c name =>
      have hc : c ≠ m.colon := by
        rintro rfl
        exact hname List.mem_cons_self
      rw [List.cons_append] at hfield ⊢
      rw [Reader.take, if_neg hc, hfield]

/-- An event that was written is read, and leaves the reader as it was at first. -/
theorem parse_frame {ev : Event α} (hne : ev.type ≠ []) (htype : OneLine m ev.type)
    (hdata : OneLine m ev.data) (rest : List α) :
    parse m (frame m ev ++ rest) = ev :: parse m rest := by
  have hlines : lines m false [] (frame m ev ++ rest) =
      (m.event ++ m.colon :: m.space :: ev.type) :: (m.data ++ m.colon :: m.space :: ev.data) ::
        [] :: lines m false [] rest := by
    have hfirst := lines_of_oneLine (m.oneLine_event.append htype) []
      (fieldLine m m.data ev.data ++ [m.lf] ++ rest)
    have hsecond := lines_of_oneLine (m.oneLine_data.append hdata) [] ([m.lf] ++ rest)
    have hblank := lines_of_oneLine (oneLine_nil (m := m)) [] rest
    simp only [frame, fieldLine, List.append_assoc, List.cons_append, List.nil_append]
      at hfirst hsecond hblank ⊢
    rw [hfirst, hsecond, hblank]
  rw [parse, hlines, Reader.read, take_fieldLine _ m.event_ne_nil m.colon_not_mem_event, if_pos rfl,
    Reader.read, take_fieldLine _ m.data_ne_nil m.colon_not_mem_data,
    if_neg m.event_ne_data.symm, if_pos rfl, Reader.read, Reader.take]
  simp [Reader.event, hne, parse]

/-- A comment is passed over. -/
theorem parse_comment {text : List α} (htext : OneLine m text) (rest : List α) :
    parse m (comment m text ++ rest) = parse m rest := by
  have hlines : lines m false [] (comment m text ++ rest) =
      (m.colon :: text) :: [] :: lines m false [] rest := by
    have hfirst := lines_of_oneLine (m.oneLine_colon.append htext) [] ([m.lf] ++ rest)
    have hblank := lines_of_oneLine (oneLine_nil (m := m)) [] rest
    simp only [comment, List.append_assoc, List.cons_append, List.nil_append] at hfirst hblank ⊢
    rw [hfirst, hblank]
  rw [parse, hlines, Reader.read, Reader.take, if_pos rfl, Reader.read, Reader.take]
  simp [Reader.event, parse]

end MasterAgent.EventStream
