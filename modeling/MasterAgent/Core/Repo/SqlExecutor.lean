/-
  MasterAgent.Core.Repo.SqlExecutor

  `translate_named_params` (`ma/core/repo/sql_executor.py`): the placeholders
  `:name` of a template become `$1`, `$2` and so on, and the values are handed
  over in that order.

  `pieces` is the pattern's walk over the text and `replaceAll` the stateful
  replacement of its matches.  What a template is made of is stated without the
  walk, by `IsPlaceholder`; the two meet in `Scanned`, one derivation per walk.
-/

import Mathlib.Data.List.TakeWhile
import MasterAgent.Lib.Dict
import MasterAgent.Lib.Numbering
import MasterAgent.Python.JsonText

namespace MasterAgent

open MasterAgent.Numbering

-- ============================================================================
-- The pattern
-- ============================================================================

def colon : CodePoint := codePoint ':'

def dollar : CodePoint := codePoint '$'

/-- `[a-zA-Z_]`. -/
def identStart (c : CodePoint) : Bool :=
  decide (0x61 ≤ c.val ∧ c.val ≤ 0x7a) || decide (0x41 ≤ c.val ∧ c.val ≤ 0x5a) ||
    c == codePoint '_'

/-- `[a-zA-Z0-9_]`. -/
def identChar (c : CodePoint) : Bool := identStart c || Json.isDigit c

/-- The name behind a match of `(?<!:):([a-zA-Z_][a-zA-Z0-9_]*)` that starts here. -/
def namedParam (prev : Option CodePoint) : PyStr → Option PyStr
  | [] => none
  | c :: text =>
      if c = colon ∧ prev ≠ some colon ∧ text.head?.any identStart then
        some (text.takeWhile identChar)
      else none

/-- A piece of a template: a character that stays, or a match. -/
inductive SqlPiece where
  | char (c : CodePoint)
  | param (name : PyStr)

/-- The text of a piece in the template. -/
def SqlPiece.source : SqlPiece → PyStr
  | .char c => [c]
  | .param name => colon :: name

/-- The walk from left to right behind the character `prev`; `skip` characters
    are still part of the last match. -/
def pieces : (skip : Nat) → (prev : Option CodePoint) → PyStr → List SqlPiece
  | _, _, [] => []
  | skip + 1, _, c :: text => pieces skip (some c) text
  | 0, prev, c :: text => match namedParam prev (c :: text) with
      | none => .char c :: pieces 0 (some c) text
      | some name => .param name :: pieces name.length (some c) text

-- ============================================================================
-- The replacement
-- ============================================================================

/-- `MissingSqlParam`. -/
structure MissingSqlParam where
  name : PyStr

/-- `name_to_idx` and `args`. -/
structure Bindings (ν : Type) where
  nameToIdx : Dict PyStr Nat
  args : List ν

section Translate

variable {ν : Type} (params : Dict PyStr ν)

/-- The index of a name, which is bound at its first occurrence. -/
def Bindings.bind (b : Bindings ν) (name : PyStr) :
    Except MissingSqlParam (Nat × Bindings ν) :=
  match b.nameToIdx.get? name with
  | some i => .ok (i, b)
  | none => match params.get? name with
      | none => .error ⟨name⟩
      | some v =>
          .ok (b.args.length + 1,
            ⟨b.nameToIdx.set name (b.args.length + 1), b.args ++ [v]⟩)

/-- `f"${idx}"`. -/
def dollarIndex (i : Nat) : PyStr := dollar :: Json.natText i

/-- `_NAMED_PARAM_RE.sub(_replace, sql)`. -/
def replaceAll : Bindings ν → List SqlPiece → Except MissingSqlParam (PyStr × Bindings ν)
  | b, [] => .ok ([], b)
  | b, .char c :: rest => do
      let (text, b) ← replaceAll b rest
      return (c :: text, b)
  | b, .param name :: rest => do
      let (i, b) ← b.bind params name
      let (text, b) ← replaceAll b rest
      return (dollarIndex i ++ text, b)

/-- `translate_named_params`. -/
def translateNamedParams (sql : PyStr) : Except MissingSqlParam (PyStr × List ν) := do
  let (newSql, b) ← replaceAll params ⟨.empty, []⟩ (pieces 0 none sql)
  return (newSql, b.args)

end Translate

-- ============================================================================
-- Placeholders
-- ============================================================================

/-- `[a-zA-Z_][a-zA-Z0-9_]*`. -/
structure IsName (name : PyStr) : Prop where
  start : name.head?.any identStart = true
  chars : ∀ c ∈ name, identChar c = true

/-- The name ends where `after` starts. -/
def Ends (after : PyStr) : Prop := ∀ c, after.head? = some c → identChar c = false

/-- Behind the character `prev`: `sql` has a placeholder for `name` between
    `before` and `after`. -/
structure PlaceholderFrom (prev : Option CodePoint) (sql before name after : PyStr) : Prop where
  split : sql = before ++ colon :: (name ++ after)
  single : before.getLast?.or prev ≠ some colon
  isName : IsName name
  maximal : Ends after

/-- A colon that does not follow a colon, and a maximal identifier behind it. -/
abbrev IsPlaceholder (sql before name after : PyStr) : Prop :=
  PlaceholderFrom none sql before name after

theorem IsName.ne_nil {name : PyStr} (h : IsName name) : name ≠ [] := by
  rintro rfl
  cases h.start

theorem identChar_of_start {c : CodePoint} (h : identStart c = true) : identChar c = true := by
  rw [identChar, h, Bool.true_or]

theorem IsName.ne_colon {name : PyStr} (h : IsName name) {c : CodePoint} (hc : c ∈ name) :
    c ≠ colon := by
  rintro rfl
  exact absurd (h.chars colon hc) (by decide)

theorem IsName.getLast?_ne_colon {name : PyStr} (h : IsName name) :
    name.getLast? ≠ some colon :=
  fun hlast => h.ne_colon (List.mem_of_getLast? hlast) rfl

/-- A maximal identifier is what `takeWhile` takes. -/
theorem takeWhile_name {name after : PyStr} (h : IsName name) (hend : Ends after) :
    (name ++ after).takeWhile identChar = name ∧ (name ++ after).dropWhile identChar = after := by
  rw [List.takeWhile_append_of_pos h.chars, List.dropWhile_append_of_pos h.chars]
  cases after with
  | nil => exact ⟨List.append_nil name, rfl⟩
  | cons c after =>
      rw [List.takeWhile_cons, List.dropWhile_cons, hend c rfl]
      exact ⟨List.append_nil name, rfl⟩

/-- Two maximal identifiers at one place are one. -/
theorem name_unique {name name' after after' : PyStr} (h : IsName name) (h' : IsName name')
    (hend : Ends after) (hend' : Ends after') (heq : name ++ after = name' ++ after') :
    name = name' ∧ after = after' := by
  have htake := takeWhile_name h hend
  rw [heq, (takeWhile_name h' hend').1, (takeWhile_name h' hend').2] at htake
  exact ⟨htake.1.symm, htake.2.symm⟩

theorem namedParam_eq_some {prev : Option CodePoint} {sql name : PyStr} :
    namedParam prev sql = some name ↔
      ∃ after, sql = colon :: (name ++ after) ∧ prev ≠ some colon ∧ IsName name ∧ Ends after := by
  constructor
  · intro h
    cases sql with
    | nil => cases h
    | cons c text =>
        rw [namedParam] at h
        split_ifs at h with hmatch
        obtain ⟨rfl, hprev, hstart⟩ := hmatch
        cases h
        refine ⟨text.dropWhile identChar, ?_, hprev, ⟨?_, fun c hc => ?_⟩, fun c hc => ?_⟩
        · rw [List.takeWhile_append_dropWhile]
        · cases text with
          | nil => cases hstart
          | cons d text =>
              rw [List.takeWhile_cons, identChar_of_start hstart]
              exact hstart
        · exact List.mem_takeWhile_imp hc
        · have hall := List.head?_dropWhile_not identChar text
          rw [hc] at hall
          simpa using hall
  · rintro ⟨after, rfl, hprev, hname, hend⟩
    have hstart : (name ++ after).head?.any identStart = true := by
      cases name with
      | nil => exact absurd rfl hname.ne_nil
      | cons c name => exact hname.start
    rw [namedParam, if_pos ⟨rfl, hprev, hstart⟩, (takeWhile_name hname hend).1]

-- ============================================================================
-- The walk
-- ============================================================================

/-- `ps` is the walk over `sql` behind the character `prev`. -/
inductive Scanned : (prev : Option CodePoint) → (sql : PyStr) → (ps : List SqlPiece) → Prop where
  | nil {prev : Option CodePoint} : Scanned prev [] []
  | char {prev : Option CodePoint} {c : CodePoint} {text : PyStr} {ps : List SqlPiece}
      (hchar : namedParam prev (c :: text) = none) (rest : Scanned (some c) text ps) :
      Scanned prev (c :: text) (.char c :: ps)
  | param {prev : Option CodePoint} {name text : PyStr} {ps : List SqlPiece}
      (hprev : prev ≠ some colon) (hname : IsName name) (hend : Ends text)
      (rest : Scanned name.getLast? text ps) :
      Scanned prev (colon :: (name ++ text)) (.param name :: ps)

/-- The characters of the last match are passed over. -/
theorem pieces_skip (xs text : PyStr) (prev : Option CodePoint) :
    pieces xs.length prev (xs ++ text) = pieces 0 (xs.getLast?.or prev) text := by
  induction xs generalizing prev with
  | nil => rfl
  | cons c xs ih =>
      rw [List.length_cons, List.cons_append, pieces, ih, List.getLast?_cons]
      cases xs.getLast? <;> rfl

theorem scanned_pieces (prev : Option CodePoint) (sql : PyStr) :
    Scanned prev sql (pieces 0 prev sql) := by
  -- a match takes the walk several characters further
  induction hn : sql.length using Nat.strongRecOn generalizing prev sql with
  | ind n ih =>
      cases sql with
      | nil => exact .nil
      | cons c text =>
          cases hmatch : namedParam prev (c :: text) with
          | none =>
              rw [pieces, hmatch]
              exact .char hmatch (ih text.length (by simp [← hn]) (some c) text rfl)
          | some name =>
              rw [pieces, hmatch]
              obtain ⟨after, hsql, hprev, hname, hend⟩ := namedParam_eq_some.mp hmatch
              rw [List.cons.injEq] at hsql
              obtain ⟨rfl, rfl⟩ := hsql
              have hlast : name.getLast?.or (some colon) = name.getLast? := by
                cases hl : name.getLast? with
                | none => exact absurd (List.getLast?_eq_none_iff.mp hl) hname.ne_nil
                | some d => rfl
              simp only [pieces_skip, hlast]
              refine .param hprev hname hend (ih after.length ?_ name.getLast? after rfl)
              rw [← hn, List.length_cons, List.length_append]
              omega

variable {prev : Option CodePoint} {sql : PyStr} {ps : List SqlPiece}

/-- The walk loses nothing. -/
theorem Scanned.source (h : Scanned prev sql ps) : ps.flatMap SqlPiece.source = sql := by
  induction h with
  | nil => rfl
  | char hchar rest ih => rw [List.flatMap_cons, ih]; rfl
  | param hprev hname hend rest ih => rw [List.flatMap_cons, ih]; rfl

theorem getLast?_cons_or (c : CodePoint) (xs : PyStr) (prev : Option CodePoint) :
    (c :: xs).getLast?.or prev = xs.getLast?.or (some c) := by
  rw [List.getLast?_cons]
  cases xs.getLast? <;> rfl

/-- Behind a name the character before is the last one of the name. -/
theorem getLast?_name_or {name : PyStr} (h : IsName name) (xs : PyStr)
    (prev : Option CodePoint) : (name ++ xs).getLast?.or prev = xs.getLast?.or name.getLast? := by
  rw [List.getLast?_append]
  cases hlast : name.getLast? with
  | none => exact absurd (List.getLast?_eq_none_iff.mp hlast) h.ne_nil
  | some d => cases xs.getLast? <;> rfl

/-- No colon is in a name. -/
theorem split_behind_name {name text before rest : PyStr} (h : IsName name)
    (heq : name ++ text = before ++ colon :: rest) :
    ∃ between, before = name ++ between ∧ text = between ++ colon :: rest := by
  rcases List.append_eq_append_iff.mp heq with ⟨between, rfl, htext⟩ | ⟨more, rfl, hrest⟩
  · exact ⟨between, rfl, htext⟩
  · cases more with
    | nil => exact ⟨[], by simp, hrest.symm⟩
    | cons c more =>
        rw [List.cons_append, List.cons.injEq] at hrest
        exact absurd hrest.1.symm (h.ne_colon (by simp))

/-- The walk finds the placeholders and nothing else. -/
theorem Scanned.placeholder_iff (h : Scanned prev sql ps) {before name after : PyStr} :
    PlaceholderFrom prev sql before name after ↔
      ∃ us vs, ps = us ++ .param name :: vs ∧ us.flatMap SqlPiece.source = before ∧
        vs.flatMap SqlPiece.source = after := by
  induction h generalizing before with
  | nil =>
      constructor
      · intro hplace
        have hsplit := hplace.split
        simp at hsplit
      · rintro ⟨us, vs, hps, -⟩
        simp at hps
  | @char prev c text ps hchar rest ih =>
      constructor
      · rintro ⟨hsplit, hsingle, hname, hend⟩
        cases before with
        | nil =>
            -- the walk would have matched here
            have hmatch : namedParam prev (c :: text) = some name :=
              namedParam_eq_some.mpr ⟨after, hsplit, hsingle, hname, hend⟩
            rw [hchar] at hmatch
            cases hmatch
        | cons d before =>
            rw [List.cons_append, List.cons.injEq] at hsplit
            obtain ⟨rfl, hsplit⟩ := hsplit
            rw [getLast?_cons_or] at hsingle
            obtain ⟨us, vs, rfl, rfl, hvs⟩ := ih.mp ⟨hsplit, hsingle, hname, hend⟩
            exact ⟨.char c :: us, vs, rfl, rfl, hvs⟩
      · rintro ⟨us, vs, hps, rfl, hvs⟩
        cases us with
        | nil => cases hps
        | cons u us =>
            rw [List.cons_append, List.cons.injEq] at hps
            obtain ⟨rfl, hps⟩ := hps
            obtain ⟨hsplit, hsingle, hname, hend⟩ := ih.mpr ⟨us, vs, hps, rfl, hvs⟩
            refine ⟨congrArg (c :: ·) hsplit, ?_, hname, hend⟩
            rw [List.flatMap_cons]
            exact (getLast?_cons_or c _ prev).symm ▸ hsingle
  | @param prev name' text ps hprev hname' hend' rest ih =>
      constructor
      · rintro ⟨hsplit, hsingle, hname, hend⟩
        cases before with
        | nil =>
            rw [List.nil_append, List.cons.injEq] at hsplit
            obtain ⟨rfl, rfl⟩ := name_unique hname' hname hend' hend hsplit.2
            exact ⟨[], ps, rfl, rfl, rest.source⟩
        | cons d before =>
            rw [List.cons_append, List.cons.injEq] at hsplit
            obtain ⟨rfl, hsplit⟩ := hsplit
            -- no colon is in a name, so the placeholder stands behind this one
            obtain ⟨before, rfl, htext⟩ := split_behind_name hname' hsplit
            rw [getLast?_cons_or, getLast?_name_or hname'] at hsingle
            obtain ⟨us, vs, rfl, rfl, hvs⟩ := ih.mp ⟨htext, hsingle, hname, hend⟩
            exact ⟨.param name' :: us, vs, rfl, rfl, hvs⟩
      · rintro ⟨us, vs, hps, rfl, hvs⟩
        cases us with
        | nil =>
            cases hps
            refine ⟨?_, hprev, hname', ?_⟩
            · rw [← hvs, rest.source]
              rfl
            · rw [← hvs, rest.source]
              exact hend'
        | cons u us =>
            rw [List.cons_append, List.cons.injEq] at hps
            obtain ⟨rfl, hps⟩ := hps
            obtain ⟨hsplit, hsingle, hname, hend⟩ := ih.mpr ⟨us, vs, hps, rfl, hvs⟩
            refine ⟨?_, ?_, hname, hend⟩
            · rw [hsplit, List.flatMap_cons, SqlPiece.source, List.cons_append, List.cons_append,
                List.append_assoc]
            · rw [List.flatMap_cons, SqlPiece.source, List.cons_append, getLast?_cons_or,
                getLast?_name_or hname']
              exact hsingle

-- ============================================================================
-- The result
-- ============================================================================

/-- The names of the placeholders, in order. -/
def paramNames : List SqlPiece → List PyStr
  | [] => []
  | .char _ :: ps => paramNames ps
  | .param name :: ps => name :: paramNames ps

/-- The text of a piece in the result. -/
def SqlPiece.rendered (index : PyStr → Nat) : SqlPiece → PyStr
  | .char c => [c]
  | .param name => dollarIndex (index name)

/-- Each maximal `$digits` is read as an index, and `:` and its name put back;
    `skip` characters are still part of the last token. -/
def putBack (nameOf : Nat → PyStr) : (skip : Nat) → PyStr → PyStr
  | _, [] => []
  | skip + 1, _ :: text => putBack nameOf skip text
  | 0, c :: text =>
      if c = dollar ∧ text.head?.any Json.isDigit then
        let digits := text.takeWhile Json.isDigit
        colon :: (nameOf (Json.natValue digits) ++ putBack nameOf digits.length text)
      else c :: putBack nameOf 0 text

theorem mem_paramNames {ps : List SqlPiece} {name : PyStr} :
    name ∈ paramNames ps ↔ .param name ∈ ps := by
  induction ps with
  | nil => simp [paramNames]
  | cons p ps ih => cases p <;> simp [paramNames, ih]

section Run

variable {ν : Type} {params : Dict PyStr ν}

/-- `names` are the names bound so far, in the order of their first occurrence. -/
structure Bound (params : Dict PyStr ν) (names : List PyStr) (b : Bindings ν) : Prop where
  indices : ∀ name, b.nameToIdx.get? name =
    if name ∈ names then some (number names name) else none
  values : names.map params.get? = b.args.map some

theorem bound_nil : Bound params [] ⟨.empty, []⟩ := ⟨fun _ => rfl, rfl⟩

theorem Bound.length_eq {names : List PyStr} {b : Bindings ν} (hb : Bound params names b) :
    names.length = b.args.length := by
  have hlen := congrArg List.length hb.values
  rwa [List.length_map, List.length_map] at hlen

/-- The value behind the number of a bound name. -/
theorem Bound.value {names : List PyStr} {b : Bindings ν} (hb : Bound params names b)
    {name : PyStr} (hmem : name ∈ names) :
    ∃ v, params.get? name = some v ∧ b.args[number names name - 1]? = some v := by
  have hget : (b.args.map some)[number names name - 1]? = some (params.get? name) := by
    rw [← hb.values, List.getElem?_map, getElem?_number hmem, Option.map_some]
  rw [List.getElem?_map, Option.map_eq_some_iff] at hget
  obtain ⟨v, hv, hname⟩ := hget
  exact ⟨v, hname.symm, hv⟩

/-- One occurrence of a name. -/
theorem bind_spec {names : List PyStr} {b : Bindings ν} (hb : Bound params names b)
    (name : PyStr) :
    (b.bind params name = .error ⟨name⟩ ∧ params.get? name = none) ∨
      ∃ b', b.bind params name = .ok (number (note names name) name, b') ∧
        params.get? name ≠ none ∧ Bound params (note names name) b' := by
  rw [Bindings.bind, hb.indices name]
  by_cases hmem : name ∈ names
  · obtain ⟨v, hv, -⟩ := hb.value hmem
    rw [if_pos hmem, note_of_mem hmem, hv]
    exact .inr ⟨b, rfl, Option.some_ne_none v, hb⟩
  · rw [if_neg hmem, note_of_not_mem hmem]
    cases hv : params.get? name with
    | none => exact .inl ⟨rfl, rfl⟩
    | some v =>
        refine .inr ⟨⟨b.nameToIdx.set name (b.args.length + 1), b.args ++ [v]⟩, ?_,
          Option.some_ne_none v, fun other => ?_, ?_⟩
        · rw [number_concat hmem, hb.length_eq]
        · rw [Dict.get?_set]
          by_cases hother : name = other
          · rw [if_pos hother, if_pos (by simp [hother]), ← hother, number_concat hmem,
              hb.length_eq]
          · rw [if_neg hother, hb.indices other]
            by_cases hin : other ∈ names
            · rw [if_pos hin, if_pos (List.mem_append_left _ hin),
                number_of_extends (List.prefix_append names [name]) hin]
            · rw [if_neg hin, if_neg (by simp [hin, Ne.symm hother])]
        · rw [List.map_append, List.map_append, hb.values, List.map_singleton, hv,
            List.map_singleton]

/-- The whole replacement: it fails at the first name without a value, and
    otherwise each name is rendered with the number it has in the end. -/
theorem replaceAll_spec {names : List PyStr} {b : Bindings ν} (hb : Bound params names b)
    (ps : List SqlPiece) :
    (∃ name ∈ paramNames ps, replaceAll params b ps = .error ⟨name⟩ ∧
        params.get? name = none) ∨
      ∃ b', replaceAll params b ps =
          .ok (ps.flatMap (SqlPiece.rendered (number (firstsFrom names (paramNames ps)))), b') ∧
        (∀ name ∈ paramNames ps, params.get? name ≠ none) ∧
        Bound params (firstsFrom names (paramNames ps)) b' := by
  induction ps generalizing names b with
  | nil => exact .inr ⟨b, rfl, fun _ h => absurd h List.not_mem_nil, hb⟩
  | cons p ps ih =>
      cases p with
      | char c =>
          rw [replaceAll]
          rcases ih hb with ⟨name, hmem, herr, hnone⟩ | ⟨b', hok, hsome, hb'⟩
          · exact .inl ⟨name, hmem, by rw [herr]; rfl, hnone⟩
          · exact .inr ⟨b', by rw [hok]; rfl, hsome, hb'⟩
      | param name =>
          rw [replaceAll]
          rcases bind_spec hb name with ⟨herr, hnone⟩ | ⟨b₁, hok, hsome, hb₁⟩
          · exact .inl ⟨name, List.mem_cons_self, by rw [herr]; rfl, hnone⟩
          · rcases ih hb₁ with ⟨other, hmem, herr, hnone⟩ | ⟨b', hok', hrest, hb'⟩
            · exact .inl ⟨other, List.mem_cons_of_mem _ hmem,
                by simp only [hok, herr, bind, Except.bind], hnone⟩
            · -- the number given here is the one of the final names
              have hnum : number (note names name) name =
                  number (firstsFrom names (paramNames (.param name :: ps))) name :=
                (number_of_extends (firstsFrom_extends _ _) (mem_note.mpr (.inl rfl))).symm
              refine .inr ⟨b', ?_, List.forall_mem_cons.mpr ⟨hsome, hrest⟩, hb'⟩
              rw [List.flatMap_cons, SqlPiece.rendered, ← hnum]
              simp only [hok, hok', bind, Except.bind]
              rfl

end Run

-- ============================================================================
-- Reading the result
-- ============================================================================

section Rendered

variable {index : PyStr → Nat} {nameOf : Nat → PyStr}

/-- An index in the result does not run into what follows it. -/
theorem Scanned.head_rendered (h : Scanned prev sql ps) (hend : Ends sql) {c : CodePoint}
    (hc : (ps.flatMap (SqlPiece.rendered index)).head? = some c) : Json.isDigit c = false := by
  cases h with
  | nil => cases hc
  | @char _ d text ps hchar rest =>
      have hd : identChar d = false := hend d rfl
      rw [identChar, Bool.or_eq_false_iff] at hd
      cases hc
      exact hd.2
  | param hprev hname hend' rest =>
      cases hc
      rfl

theorem putBack_skip (xs text : PyStr) :
    putBack nameOf xs.length (xs ++ text) = putBack nameOf 0 text := by
  induction xs with
  | nil => rfl
  | cons c xs ih => exact ih

/-- A `$digits` that is a whole token is read as its number. -/
theorem putBack_dollarIndex (i : Nat) {text : PyStr}
    (hend : ∀ c, text.head? = some c → Json.isDigit c = false) :
    putBack nameOf 0 (dollarIndex i ++ text) = colon :: (nameOf i ++ putBack nameOf 0 text) := by
  have htake : (Json.natText i ++ text).takeWhile Json.isDigit = Json.natText i := by
    rw [List.takeWhile_append_of_pos fun c hc => Json.isDigit_natText hc]
    cases text with
    | nil => exact List.append_nil _
    | cons c text =>
        rw [List.takeWhile_cons, hend c rfl]
        exact List.append_nil _
  have hhead : (Json.natText i ++ text).head?.any Json.isDigit = true := by
    obtain ⟨c, s, hcs, hdigit⟩ := Json.natText_eq_cons i
    rw [hcs]
    exact hdigit
  rw [dollarIndex, List.cons_append, putBack, if_pos ⟨rfl, hhead⟩]
  simp only [htake, Json.natValue_natText, putBack_skip]

/-- A character that is not `$` stays. -/
theorem putBack_char {c : CodePoint} (hc : c ≠ dollar) (text : PyStr) :
    putBack nameOf 0 (c :: text) = c :: putBack nameOf 0 text := by
  rw [putBack, if_neg fun h => hc h.1]

/-- Putting the names back gives the template. -/
theorem Scanned.putBack_rendered (h : Scanned prev sql ps) (hdollar : dollar ∉ sql)
    (hname : ∀ name ∈ paramNames ps, nameOf (index name) = name) :
    putBack nameOf 0 (ps.flatMap (SqlPiece.rendered index)) = sql := by
  induction h with
  | nil => rfl
  | @char prev c text ps hchar rest ih =>
      rw [List.mem_cons, not_or] at hdollar
      rw [List.flatMap_cons, SqlPiece.rendered, List.singleton_append,
        putBack_char (Ne.symm hdollar.1), ih hdollar.2 hname]
  | @param prev name text ps hprev hname' hend rest ih =>
      rw [paramNames, List.forall_mem_cons] at hname
      have htext : dollar ∉ text := fun hmem => hdollar (by simp [hmem])
      rw [List.flatMap_cons, SqlPiece.rendered,
        putBack_dollarIndex _ fun c hc => rest.head_rendered hend hc, hname.1, ih htext hname.2]

/-- What `pieces` gives on text without a match. -/
theorem pieces_char {prev : Option CodePoint} {c : CodePoint} {text : PyStr}
    (h : namedParam prev (c :: text) = none) :
    pieces 0 prev (c :: text) = .char c :: pieces 0 (some c) text := by
  rw [pieces, h]

theorem namedParam_of_ne_colon {prev : Option CodePoint} {c : CodePoint} (text : PyStr)
    (h : c ≠ colon) : namedParam prev (c :: text) = none := by
  rw [namedParam, if_neg fun hmatch => h hmatch.1]

/-- Digits and what is in them match nowhere. -/
theorem pieces_of_ne_colon {prev : Option CodePoint} (xs text : PyStr)
    (h : ∀ c ∈ xs, c ≠ colon) :
    pieces 0 prev (xs ++ text) = xs.map .char ++ pieces 0 (xs.getLast?.or prev) text := by
  induction xs generalizing prev with
  | nil => rfl
  | cons c xs ih =>
      rw [List.forall_mem_cons] at h
      rw [List.cons_append, pieces_char (namedParam_of_ne_colon _ h.1), ih h.2,
        getLast?_cons_or, List.map_cons, List.cons_append]

/-- The first character of the rest is the one of the template or a `$`. -/
theorem Scanned.head_identStart (h : Scanned prev sql ps)
    (hstart : (ps.flatMap (SqlPiece.rendered index)).head?.any identStart = true) :
    sql.head?.any identStart = true := by
  cases h with
  | nil => exact hstart
  | char hchar rest => exact hstart
  | param hprev hname hend rest => cases hstart

theorem dollarIndex_ne_colon (i : Nat) {c : CodePoint} (hc : c ∈ dollarIndex i) : c ≠ colon := by
  rcases List.mem_cons.mp hc with rfl | hc
  · decide
  · exact Json.ne_of_isDigit (Json.isDigit_natText hc) rfl

/-- There is nothing to translate in a result; the character in front only
    counts as a colon or not. -/
theorem Scanned.pieces_rendered (h : Scanned prev sql ps) {prev' : Option CodePoint}
    (hprev : prev = some colon → prev' = some colon) :
    pieces 0 prev' (ps.flatMap (SqlPiece.rendered index)) =
      (ps.flatMap (SqlPiece.rendered index)).map .char := by
  induction h generalizing prev' with
  | nil => rfl
  | @char prev c text ps hchar rest ih =>
      have hnone : namedParam prev' (c :: ps.flatMap (SqlPiece.rendered index)) = none := by
        rw [namedParam, if_neg]
        rintro ⟨rfl, hsingle, hstart⟩
        rw [namedParam, if_pos ⟨rfl, fun h => hsingle (hprev h), rest.head_identStart hstart⟩]
          at hchar
        cases hchar
      rw [List.flatMap_cons, SqlPiece.rendered, List.singleton_append, pieces_char hnone,
        ih id, List.map_cons]
  | @param prev name text ps hprev' hname hend rest ih =>
      rw [List.flatMap_cons, SqlPiece.rendered,
        pieces_of_ne_colon _ _ fun c => dollarIndex_ne_colon (index name), List.map_append,
        ih fun h => absurd h hname.getLast?_ne_colon]

end Rendered

/-- Text without a match is left as it is. -/
theorem replaceAll_chars {ν : Type} (params : Dict PyStr ν) (b : Bindings ν) (text : PyStr) :
    replaceAll params b (text.map .char) = .ok (text, b) := by
  induction text with
  | nil => rfl
  | cons c text ih =>
      rw [List.map_cons, replaceAll, ih]
      rfl

-- ============================================================================
-- The translation
-- ============================================================================

/-- How `sql` became `out`: `ps` cuts it at its placeholders, and `index` is the
    index that each name got. -/
structure Translation {ν : Type} (params : Dict PyStr ν) (sql out : PyStr) (args : List ν)
    (ps : List SqlPiece) (index : PyStr → Nat) : Prop where
  source : ps.flatMap SqlPiece.source = sql
  places : ∀ before name after, IsPlaceholder sql before name after ↔
    ∃ us vs, ps = us ++ .param name :: vs ∧ us.flatMap SqlPiece.source = before ∧
      vs.flatMap SqlPiece.source = after
  text : ps.flatMap (SqlPiece.rendered index) = out
  inOrder : firsts ((paramNames ps).map index) = List.range' 1 args.length
  distinct : ∀ a ∈ paramNames ps, ∀ b ∈ paramNames ps, index a = index b ↔ a = b
  values : ∀ name ∈ paramNames ps, ∃ v, params.get? name = some v ∧
    args[index name - 1]? = some v

/-- A placeholder names a key that is missing. -/
def MissingKey {ν : Type} (params : Dict PyStr ν) (sql name : PyStr) : Prop :=
  params.get? name = none ∧ ∃ before after, IsPlaceholder sql before name after

theorem mem_paramNames_pieces {sql name : PyStr} :
    name ∈ paramNames (pieces 0 none sql) ↔
      ∃ before after, IsPlaceholder sql before name after := by
  rw [mem_paramNames, List.mem_iff_append]
  constructor
  · rintro ⟨us, vs, hps⟩
    exact ⟨_, _, (scanned_pieces none sql).placeholder_iff.mpr ⟨us, vs, hps, rfl, rfl⟩⟩
  · rintro ⟨before, after, hplace⟩
    obtain ⟨us, vs, hps, -⟩ := (scanned_pieces none sql).placeholder_iff.mp hplace
    exact ⟨us, vs, hps⟩

/-- What the translation gives in each case. -/
theorem translateNamedParams_cases {ν : Type} (params : Dict PyStr ν) (sql : PyStr) :
    (∃ name, translateNamedParams params sql = .error ⟨name⟩ ∧ MissingKey params sql name) ∨
      ∃ index args, translateNamedParams params sql =
          .ok ((pieces 0 none sql).flatMap (SqlPiece.rendered index), args) ∧
        (∀ name, ¬ MissingKey params sql name) ∧
        Translation params sql ((pieces 0 none sql).flatMap (SqlPiece.rendered index)) args
          (pieces 0 none sql) index := by
  rw [translateNamedParams]
  rcases replaceAll_spec (@bound_nil ν params) (pieces 0 none sql) with
    ⟨name, hmem, herr, hnone⟩ | ⟨b, hok, hsome, hb⟩
  · refine .inl ⟨name, ?_, hnone, mem_paramNames_pieces.mp hmem⟩
    rw [herr]
    rfl
  · refine .inr ⟨number (firsts (paramNames (pieces 0 none sql))), b.args, ?_, ?_, ?_⟩
    · rw [hok]
      rfl
    · rintro name ⟨hnone, hplace⟩
      exact hsome name (mem_paramNames_pieces.mpr hplace) hnone
    · exact {
        source := (scanned_pieces none sql).source
        places := fun _ _ _ => (scanned_pieces none sql).placeholder_iff
        text := rfl
        inOrder := by
          rw [firsts_map_number]
          exact congrArg (List.range' 1) hb.length_eq
        distinct := fun a ha b hb => number_inj (mem_firsts.mpr ha) (mem_firsts.mpr hb)
        values := fun name hmem => hb.value (mem_firsts.mpr hmem) }

/-- The translation fails exactly at a placeholder without a value.  Otherwise
    the indices count up from one by first occurrence and carry the values of
    their names, the template can be read back from the result, and translating
    the result again changes nothing and binds nothing. -/
theorem translate_preserves_bindings {ν : Type} (params : Dict PyStr ν) (sql : PyStr)
    (hdollar : dollar ∉ sql) :
    ((∃ e, translateNamedParams params sql = .error e) ↔ ∃ name, MissingKey params sql name) ∧
      ∀ out args, translateNamedParams params sql = .ok (out, args) →
        ∃ ps index, Translation params sql out args ps index ∧
          (∀ nameOf : Nat → PyStr, (∀ name ∈ paramNames ps, nameOf (index name) = name) →
            putBack nameOf 0 out = sql) ∧
          ∀ params' : Dict PyStr ν, translateNamedParams params' out = .ok (out, []) := by
  rcases translateNamedParams_cases params sql with
    ⟨name, herr, hmissing⟩ | ⟨index, args, hok, hnone, htrans⟩
  · refine ⟨⟨fun _ => ⟨name, hmissing⟩, fun _ => ⟨_, herr⟩⟩, fun out args h => ?_⟩
    rw [herr] at h
    cases h
  · refine ⟨⟨?_, fun ⟨name, h⟩ => absurd h (hnone name)⟩, fun out args' h => ?_⟩
    · rintro ⟨e, herr⟩
      rw [hok] at herr
      cases herr
    · rw [hok, Except.ok.injEq, Prod.mk.injEq] at h
      obtain ⟨rfl, rfl⟩ := h
      refine ⟨pieces 0 none sql, index, htrans, fun nameOf hname => ?_, fun params' => ?_⟩
      · exact (scanned_pieces none sql).putBack_rendered hdollar hname
      · rw [translateNamedParams, (scanned_pieces none sql).pieces_rendered id, replaceAll_chars]
        rfl

/-- `:a::x,:b,:a` with values for `a` and `b`. -/
theorem translate_preserves_bindings_cast :
    let sql : PyStr := [colon, codePoint 'a', colon, colon, codePoint 'x', codePoint ',', colon,
      codePoint 'b', codePoint ',', colon, codePoint 'a']
    let out : PyStr := [dollar, codePoint '1', colon, colon, codePoint 'x', codePoint ',', dollar,
      codePoint '2', codePoint ',', dollar, codePoint '1']
    let params : Dict PyStr Nat := (Dict.empty.set [codePoint 'a'] 7).set [codePoint 'b'] 8
    translateNamedParams params sql = .ok (out, [7, 8]) ∧
      ∃ ps index, Translation params sql out [7, 8] ps index := by
  intro sql out params
  have hok : translateNamedParams params sql = .ok (out, [7, 8]) := by rfl
  obtain ⟨ps, index, htrans, -⟩ :=
    (translate_preserves_bindings params sql (by decide)).2 out [7, 8] hok
  exact ⟨hok, ps, index, htrans⟩

end MasterAgent
