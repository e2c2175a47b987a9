/-
  MasterAgent.Core.Repo.SqlTemplates

  The loader of SQL templates (`ma/core/repo/sql_loader.py`) and the executor
  that runs them (`ma/core/repo/sql_executor.py`).  The loader refuses templates
  with placeholders other than `:name`; what the executor sends is the template
  with `$n` in their place, and the values travel beside it.
-/

import MasterAgent.Core.Repo.SqlExecutor
import MasterAgent.Lib.Effect

namespace MasterAgent

open Effect MasterAgent.Numbering

-- ============================================================================
-- Forbidden placeholders
-- ============================================================================

/-- The class `\w` of a pattern on text: letters and digits of any script. -/
structure WordChars where
  isWord : CodePoint → Bool
  not_word : ∀ c ∈ [codePoint '\x7d', codePoint ')', dollar], isWord c = false

section Patterns

variable (w : WordChars)

/-- `[a-zA-Z_]\w*` and then `close`; what follows it is left. -/
def wordThen (close : CodePoint) : PyStr → Option PyStr
  | [] => none
  | c :: text =>
      if identStart c then
        match text.dropWhile w.isWord with
        | d :: rest => if d = close then some rest else none
        | [] => none
      else none

/-- `\{[a-zA-Z_]\w*\}` at the start of a text. -/
def bracesAt : PyStr → Bool
  | [] => false
  | c :: text => decide (c = codePoint '\x7b') && (wordThen w (codePoint '\x7d') text).isSome

/-- `%\([a-zA-Z_]\w*\)s` at the start of a text. -/
def percentNamedAt (text : PyStr) : Bool :=
  (py "%(").isPrefixOf text &&
    (wordThen w (codePoint ')') (text.drop 2)).any fun rest => rest.head? = some (codePoint 's')

/-- `%s` at the start of a text. -/
def percentAt (text : PyStr) : Bool := (py "%s").isPrefixOf text

/-- `_FORBIDDEN_PATTERNS`, with their labels. -/
def forbiddenPatterns : List ((PyStr → Bool) × PyStr) :=
  [(bracesAt w, py "Python f-string / str.format() placeholder"),
    (percentNamedAt w, py "percent-style named placeholder"),
    (percentAt, py "percent-style positional placeholder")]

/-- `pattern.search(content)`. -/
def searchPattern (matchesAt : PyStr → Bool) (content : PyStr) : Bool :=
  content.tails.any matchesAt

/-- The label of the first forbidden pattern that is found. -/
def forbiddenLabel (content : PyStr) : Option PyStr :=
  ((forbiddenPatterns w).find? fun pattern => searchPattern pattern.1 content).map Prod.snd

/-- A name as the patterns have it. -/
structure IsWordName (name : PyStr) : Prop where
  start : name.head?.any identStart = true
  chars : ∀ c ∈ name.tail, w.isWord c = true

/-- The placeholders that are forbidden. -/
inductive Forbidden : PyStr → Prop where
  | braces {name : PyStr} (h : IsWordName w name) :
      Forbidden (codePoint '\x7b' :: (name ++ [codePoint '\x7d']))
  | percentNamed {name : PyStr} (h : IsWordName w name) :
      Forbidden (codePoint '%' :: codePoint '(' :: (name ++ [codePoint ')', codePoint 's']))
  | percent : Forbidden [codePoint '%', codePoint 's']

end Patterns

section Patterns

variable {w : WordChars}

theorem wordThen_eq_some {close : CodePoint} (hclose : w.isWord close = false) {text rest : PyStr} :
    wordThen w close text = some rest ↔
      ∃ name, IsWordName w name ∧ text = name ++ close :: rest := by
  constructor
  · intro h
    cases text with
    | nil => cases h
    | cons c text =>
        rw [wordThen] at h
        split_ifs at h with hstart
        refine ⟨c :: text.takeWhile w.isWord, ⟨hstart, fun d hd => List.mem_takeWhile_imp hd⟩, ?_⟩
        split at h
        · next d rest' hdrop =>
          split_ifs at h with hd
          cases h
          rw [List.cons_append, ← hd, ← hdrop, List.takeWhile_append_dropWhile]
        · cases h
  · rintro ⟨name, hname, rfl⟩
    cases name with
    | nil => cases hname.start
    | cons c name =>
        have hdrop : (name ++ close :: rest).dropWhile w.isWord = close :: rest := by
          have hchars : ∀ d ∈ name, w.isWord d = true := hname.chars
          rw [List.dropWhile_append_of_pos hchars, List.dropWhile_cons, hclose]
          rfl
        have hstart : identStart c = true := hname.start
        rw [List.cons_append, wordThen, if_pos hstart, hdrop]
        simp

theorem bracesAt_iff {text : PyStr} : bracesAt w text = true ↔
    ∃ name rest, IsWordName w name ∧
      text = codePoint '\x7b' :: (name ++ [codePoint '\x7d']) ++ rest := by
  have hclose := w.not_word (codePoint '\x7d') (by simp)
  cases text with
  | nil => simp [bracesAt]
  | cons c text =>
      rw [bracesAt, Bool.and_eq_true, decide_eq_true_eq, Option.isSome_iff_exists]
      simp only [wordThen_eq_some hclose]
      constructor
      · rintro ⟨rfl, rest, name, hname, rfl⟩
        exact ⟨name, rest, hname, by simp⟩
      · rintro ⟨name, rest, hname, heq⟩
        simp only [List.cons_append, List.cons.injEq] at heq
        exact ⟨heq.1, rest, name, hname, by rw [heq.2]; simp⟩

theorem percentNamedAt_iff {text : PyStr} : percentNamedAt w text = true ↔
    ∃ name rest, IsWordName w name ∧
      text =
        codePoint '%' :: codePoint '(' :: (name ++ [codePoint ')', codePoint 's']) ++ rest := by
  have hclose := w.not_word (codePoint ')') (by simp)
  rw [percentNamedAt, Bool.and_eq_true, List.isPrefixOf_iff_prefix, Option.any_eq_true]
  simp only [wordThen_eq_some hclose, decide_eq_true_eq]
  constructor
  · rintro ⟨⟨tail, rfl⟩, rest, ⟨name, hname, hrest⟩, hs⟩
    cases rest with
    | nil => cases hs
    | cons d rest =>
        rw [List.head?_cons, Option.some.injEq] at hs
        have htail : tail = name ++ codePoint ')' :: d :: rest := hrest
        exact ⟨name, rest, hname, by rw [htail, hs]; simp; rfl⟩
  · rintro ⟨name, rest, hname, rfl⟩
    refine ⟨⟨_, by rw [List.cons_append, List.cons_append]; rfl⟩, codePoint 's' :: rest,
      ⟨name, hname, ?_⟩, rfl⟩
    simp

theorem percentAt_iff {text : PyStr} :
    percentAt text = true ↔ ∃ rest, text = [codePoint '%', codePoint 's'] ++ rest := by
  rw [percentAt, List.isPrefixOf_iff_prefix]
  exact exists_congr fun rest => eq_comm

/-- A text starts with a forbidden placeholder when one of the patterns matches there. -/
theorem matchesAt_iff {text : PyStr} : (∃ pattern ∈ forbiddenPatterns w, pattern.1 text = true) ↔
    ∃ found, Forbidden w found ∧ found <+: text := by
  simp only [forbiddenPatterns, List.mem_cons, List.not_mem_nil, or_false, exists_eq_or_imp,
    exists_eq_left, bracesAt_iff, percentNamedAt_iff, percentAt_iff]
  constructor
  · rintro (⟨name, rest, hname, rfl⟩ | ⟨name, rest, hname, rfl⟩ | ⟨rest, rfl⟩)
    · exact ⟨_, .braces hname, List.prefix_append _ _⟩
    · exact ⟨_, .percentNamed hname, List.prefix_append _ _⟩
    · exact ⟨_, .percent, List.prefix_append _ _⟩
  · rintro ⟨found, hfound, rest, rfl⟩
    cases hfound with
    | braces hname => exact Or.inl ⟨_, rest, hname, rfl⟩
    | percentNamed hname => exact Or.inr (Or.inl ⟨_, rest, hname, rfl⟩)
    | percent => exact Or.inr (Or.inr ⟨rest, rfl⟩)

/-- No placeholder of a forbidden kind. -/
def Clean (w : WordChars) (content : PyStr) : Prop :=
  ∀ found, Forbidden w found → ¬ found <:+: content

/-- A content without a label has no forbidden placeholder anywhere. -/
theorem forbiddenLabel_eq_none {content : PyStr} :
    forbiddenLabel w content = none ↔ Clean w content := by
  rw [forbiddenLabel, Option.map_eq_none_iff, List.find?_eq_none]
  simp only [searchPattern, List.any_eq_true, not_exists, not_and, List.mem_tails]
  constructor
  · rintro h found hfound ⟨before, after, hsplit⟩
    obtain ⟨pattern, hpattern, hmatch⟩ := matchesAt_iff.mpr
      ⟨found, hfound, List.prefix_append found after⟩
    rw [List.append_assoc] at hsplit
    exact h pattern hpattern _ ⟨before, hsplit⟩ hmatch
  · rintro h pattern hpattern text hsuffix hmatch
    obtain ⟨found, hfound, hstart⟩ := matchesAt_iff.mp ⟨pattern, hpattern, hmatch⟩
    exact h found hfound (hstart.isInfix.trans hsuffix.isInfix)

end Patterns

-- ============================================================================
-- The loader
-- ============================================================================

/-- A path below the root: its directories, its name, and what reading it gives. -/
structure SqlFile where
  dirs : List PyStr
  name : PyStr
  text : Except Exn PyStr

/-- `name` of `with_suffix("")`: without what its last dot starts, unless the dot is
    its first or its last character. -/
def withoutSuffix (name : PyStr) : PyStr :=
  let suffix := name.reverse.takeWhile fun c => c ≠ codePoint '.'
  if suffix = [] ∨ name.length ≤ suffix.length + 1 then name
  else name.take (name.length - suffix.length - 1)

/-- `"/".join(rel.parts)`. -/
def SqlFile.key (file : SqlFile) : PyStr :=
  [codePoint '/'].intercalate (file.dirs ++ [withoutSuffix file.name])

/-- `root.rglob("*.sql")`. -/
def sqlFiles (files : List SqlFile) : List SqlFile :=
  files.filter fun file => (py ".sql").isSuffixOf file.name

/-- What `SqlLoader(root)` raises. -/
inductive SqlLoaderError where
  | rootNotFound
  | read (e : Exn)
  | unsafeTemplate (file : SqlFile) (label : PyStr)

section Loader

variable (w : WordChars)

/-- The loop over the files. -/
def loadTemplates : List SqlFile → Dict PyStr PyStr → Except SqlLoaderError (Dict PyStr PyStr)
  | [], templates => .ok templates
  | file :: rest, templates =>
      match file.text with
      | .error e => .error (.read e)
      | .ok content => match forbiddenLabel w content with
        | some label => .error (.unsafeTemplate file label)
        | none => loadTemplates rest (templates.set file.key content)

/-- `SqlLoader(root)`; `none` is a root that is no directory. -/
def sqlLoader : Option (List SqlFile) → Except SqlLoaderError (Dict PyStr PyStr)
  | none => .error .rootNotFound
  | some files => loadTemplates w (sqlFiles files) .empty

end Loader

section Loader

variable {w : WordChars} {files : List SqlFile} {templates templates' : Dict PyStr PyStr}

/-- The templates are loaded exactly when every file can be read and none has a
    forbidden placeholder. -/
theorem loadTemplates_ok_iff : (∃ templates', loadTemplates w files templates = .ok templates') ↔
    ∀ file ∈ files, ∃ content, file.text = .ok content ∧ Clean w content := by
  induction files generalizing templates with
  | nil => simp [loadTemplates]
  | cons file rest ih =>
      rw [loadTemplates, List.forall_mem_cons]
      cases htext : file.text with
      | error e => simp
      | ok content =>
          cases hlabel : forbiddenLabel w content with
          | some label =>
              have hnot : ¬ Clean w content := by
                rw [← forbiddenLabel_eq_none, hlabel]
                exact Option.some_ne_none label
              simp [hlabel, hnot]
          | none =>
              have hclean := forbiddenLabel_eq_none.mp hlabel
              simp [hlabel, ih, hclean]

/-- What is under a key: the content of the last file with the key, or what was
    there before. -/
theorem get?_loadTemplates (h : loadTemplates w files templates = .ok templates') (key : PyStr) :
    templates'.get? key =
      ((files.reverse.find? fun file => file.key = key).bind fun file => file.text.toOption).or
        (templates.get? key) := by
  induction files generalizing templates with
  | nil =>
      cases h
      rfl
  | cons file rest ih =>
      rw [loadTemplates] at h
      cases htext : file.text with
      | error e =>
          rw [htext] at h
          cases h
      | ok content =>
          cases hlabel : forbiddenLabel w content with
          | some label =>
              simp only [htext, hlabel] at h
              cases h
          | none =>
              simp only [htext, hlabel] at h
              rw [ih h, List.reverse_cons, List.find?_append, Dict.get?_set]
              cases hfind : rest.reverse.find? fun file => file.key = key with
              | some last =>
                  have hmem := List.mem_reverse.mp (List.mem_of_find?_eq_some hfind)
                  obtain ⟨text, hlast, -⟩ := loadTemplates_ok_iff.mp ⟨_, h⟩ last hmem
                  simp [hlast, Except.toOption]
              | none =>
                  by_cases hkey : file.key = key
                  · simp [hkey, htext, Except.toOption]
                  · simp [hkey]

/-- A template that was loaded is the clean content of a file. -/
theorem loaded_template {key sql : PyStr} (h : loadTemplates w files .empty = .ok templates)
    (hget : templates.get? key = some sql) :
    ∃ file ∈ files, file.key = key ∧ file.text = .ok sql ∧ Clean w sql := by
  rw [get?_loadTemplates h] at hget
  have hbind : ((files.reverse.find? fun file => file.key = key).bind fun file =>
      file.text.toOption) = some sql := by
    rcases Option.or_eq_some_iff.mp hget with hget | ⟨-, hnone⟩
    · exact hget
    · cases hnone
  obtain ⟨file, hfind, htext⟩ := Option.bind_eq_some_iff.mp hbind
  have hmem := List.mem_reverse.mp (List.mem_of_find?_eq_some hfind)
  have hkey := List.find?_some hfind
  obtain ⟨content, hcontent, hclean⟩ := loadTemplates_ok_iff.mp ⟨_, h⟩ file hmem
  rw [hcontent] at htext
  cases htext
  exact ⟨file, hmem, of_decide_eq_true hkey, hcontent, hclean⟩

end Loader

-- ============================================================================
-- The text that is sent
-- ============================================================================

/-- A template with the number of each name in its place. -/
def statementText (sql : PyStr) : PyStr :=
  (pieces 0 none sql).flatMap
    (SqlPiece.rendered (number (firsts (paramNames (pieces 0 none sql)))))

/-- The names of a template, in the order of their numbers. -/
def statementNames (sql : PyStr) : List PyStr := firsts (paramNames (pieces 0 none sql))

/-- The translation fails at a name without a value.  Otherwise its text is that of
    the template, whatever the values are, and the values are those of the names. -/
theorem translate_text {ν : Type} (params : Dict PyStr ν) (sql : PyStr) :
    (∃ name ∈ statementNames sql, params.get? name = none ∧
        translateNamedParams params sql = .error ⟨name⟩) ∨
      ∃ args, translateNamedParams params sql = .ok (statementText sql, args) ∧
        (statementNames sql).map params.get? = args.map some := by
  rcases replaceAll_spec (@bound_nil ν params) (pieces 0 none sql) with
    ⟨name, hmem, herr, hnone⟩ | ⟨b, hok, -, hb⟩
  · refine .inl ⟨name, mem_firsts.mpr hmem, hnone, ?_⟩
    rw [translateNamedParams, herr]
    rfl
  · refine .inr ⟨b.args, ?_, hb.values⟩
    rw [translateNamedParams, hok]
    rfl

/-- Without a dollar, what the result starts with is what the template starts with. -/
theorem prefix_of_rendered {index : PyStr → Nat} {ps : List SqlPiece} {m : PyStr}
    (hdollar : dollar ∉ m) (h : m <+: ps.flatMap (SqlPiece.rendered index)) :
    m <+: ps.flatMap SqlPiece.source := by
  induction ps generalizing m with
  | nil => exact h
  | cons p ps ih =>
      cases m with
      | nil => exact List.nil_prefix
      | cons c m =>
          rw [List.mem_cons, not_or] at hdollar
          rw [List.flatMap_cons] at h ⊢
          cases p with
          | char d =>
              obtain ⟨rfl, hrest⟩ := List.cons_prefix_cons.mp h
              exact List.cons_prefix_cons.mpr ⟨rfl, ih hdollar.2 hrest⟩
          | param name =>
              obtain ⟨heq, -⟩ := List.cons_prefix_cons.mp h
              exact absurd heq.symm hdollar.1

/-- A stretch of the result without a dollar that starts with neither a digit nor a
    dollar is one of the template. -/
theorem infix_of_rendered {index : PyStr → Nat} {ps : List SqlPiece} {c : CodePoint} {m : PyStr}
    (hdigit : Json.isDigit c = false) (hdollar : dollar ∉ c :: m)
    (h : (c :: m) <:+: ps.flatMap (SqlPiece.rendered index)) :
    (c :: m) <:+: ps.flatMap SqlPiece.source := by
  induction ps with
  | nil => exact h
  | cons p ps ih =>
      have hrest : (c :: m) <:+: ps.flatMap (SqlPiece.rendered index) →
          (c :: m) <:+: (p :: ps).flatMap SqlPiece.source := fun h =>
        (ih h).trans (List.suffix_append p.source _).isInfix
      have hstart : (c :: m) <+: (p :: ps).flatMap (SqlPiece.rendered index) →
          (c :: m) <:+: (p :: ps).flatMap SqlPiece.source := fun h =>
        (prefix_of_rendered hdollar h).isInfix
      cases p with
      | char d =>
          rcases List.infix_cons_iff.mp h with h | h
          · exact hstart h
          · exact hrest h
      | param name =>
          -- behind the dollar there are digits, and then the rest
          have hskip : ∀ ds text : PyStr, (∀ d ∈ ds, d ≠ c) → (c :: m) <:+: ds ++ text →
              (c :: m) <:+: text := by
            intro ds text hds
            induction ds with
            | nil => exact id
            | cons d ds ih =>
                rw [List.forall_mem_cons] at hds
                intro h
                rcases List.infix_cons_iff.mp h with h | h
                · exact absurd (List.cons_prefix_cons.mp h).1.symm hds.1
                · exact ih hds.2 h
          refine hrest (hskip (dollarIndex (index name)) _ (fun d hd => ?_) h)
          rcases List.mem_cons.mp hd with rfl | hd
          · rintro rfl
            exact hdollar List.mem_cons_self
          · rintro rfl
            rw [Json.isDigit_natText hd] at hdigit
            cases hdigit

/-- The statement of a clean template is clean. -/
theorem Clean.statementText {w : WordChars} {sql : PyStr} (h : Clean w sql) :
    Clean w (statementText sql) := by
  have hsource : (pieces 0 none sql).flatMap SqlPiece.source = sql :=
    (scanned_pieces none sql).source
  have hword : w.isWord dollar = false := w.not_word dollar (by simp)
  have hname : ∀ {name : PyStr}, IsWordName w name → dollar ∉ name := by
    intro name hname hmem
    cases name with
    | nil => exact absurd hmem List.not_mem_nil
    | cons c name =>
        rcases List.mem_cons.mp hmem with rfl | hmem
        · have hstart : identStart dollar = true := hname.start
          exact absurd hstart (by decide)
        · rw [hname.chars dollar hmem] at hword
          cases hword
  intro found hfound hinfix
  refine h found hfound ?_
  rw [← hsource]
  cases hfound with
  | braces hn =>
      refine infix_of_rendered (by decide) ?_ hinfix
      simp only [List.mem_cons, List.mem_append, List.not_mem_nil, or_false, not_or]
      exact ⟨by decide, hname hn, by decide⟩
  | percentNamed hn =>
      refine infix_of_rendered (by decide) ?_ hinfix
      simp only [List.mem_cons, List.mem_append, List.not_mem_nil, or_false, not_or]
      exact ⟨by decide, by decide, hname hn, by decide, by decide⟩
  | percent => exact infix_of_rendered (by decide) (by decide) hinfix

-- ============================================================================
-- The executor
-- ============================================================================

/-- How a statement is run: `conn.fetch`, `conn.fetchrow` or `conn.execute`. -/
inductive SqlMethod where
  | fetch
  | fetchrow
  | execute
deriving DecidableEq

/-- The driver over a world `σ`, with pools `π`, values `ν` and answers `ρ`. -/
structure SqlDriver (σ π ν ρ : Type) where
  acquire : π → σ → Except Exn Unit × σ
  release : π → σ → Except Exn Unit × σ
  run : π → SqlMethod → (sql : PyStr) → (args : List ν) → σ → Except Exn ρ × σ

/-- What an executor does to its pools. -/
inductive SqlAct (π ν : Type) where
  | acquire (pool : π) (ok : Bool)
  | run (pool : π) (method : SqlMethod) (sql : PyStr) (args : List ν)
  | release (pool : π)

/-- `SqlTemplateNotFound`, `MissingSqlParam`, or what the driver raised. -/
inductive SqlError where
  | templateNotFound (name : PyStr)
  | missingParam (name : PyStr)
  | raised (e : Exn)

/-- `SqlExecutor`: the templates of its loader, and its pools. -/
structure SqlExecutor (π : Type) where
  templates : Dict PyStr PyStr
  poolRw : π
  poolRo : Option π := none

namespace SqlExecutor

variable {σ π ν ρ : Type} (ex : SqlExecutor π) (driver : SqlDriver σ π ν ρ)

/-- `self._ro`. -/
def reads : π := ex.poolRo.getD ex.poolRw

/-- The pool a method runs on. -/
def poolOf : SqlMethod → π
  | .execute => ex.poolRw
  | _ => ex.reads

/-- `self._loader.get(name)` and `translate_named_params`. -/
def prepareStatement (name : PyStr) (params : Dict PyStr ν) :
    Except SqlError (PyStr × List ν) :=
  match ex.templates.get? name with
  | none => .error (.templateNotFound name)
  | some sql => match translateNamedParams params sql with
      | .error missing => .error (.missingParam missing.name)
      | .ok translated => .ok translated

/-- Ask the driver. -/
def callDriver {α : Type} (f : σ → Except Exn α × σ) (t : Bool → SqlAct π ν) :
    Eff σ SqlError (SqlAct π ν) α :=
  Eff.call (fun w => ((f w).1.mapError .raised, (f w).2)) fun r => t r.toOption.isSome

/-- `async with pool.acquire() as conn`, and the statement in it. -/
def runOn (pool : π) (method : SqlMethod) (statement : PyStr × List ν) :
    Eff σ SqlError (SqlAct π ν) ρ := do
  callDriver (driver.acquire pool) (.acquire pool)
  let r ← Eff.attempt (callDriver (driver.run pool method statement.1 statement.2)
    fun _ => .run pool method statement.1 statement.2)
  callDriver (driver.release pool) fun _ => .release pool
  Eff.ofExcept r

/-- A method of the executor. -/
def call (method : SqlMethod) (name : PyStr) (params : Dict PyStr ν) :
    Eff σ SqlError (SqlAct π ν) ρ := do
  let statement ← Eff.ofExcept (ex.prepareStatement name params)
  runOn driver (ex.poolOf method) method statement

/-- `fetch_all`. -/
def fetchAll (name : PyStr) (params : Dict PyStr ν) : Eff σ SqlError (SqlAct π ν) ρ :=
  ex.call driver .fetch name params

/-- `fetch_one`. -/
def fetchOne (name : PyStr) (params : Dict PyStr ν) : Eff σ SqlError (SqlAct π ν) ρ :=
  ex.call driver .fetchrow name params

/-- `execute`. -/
def execute (name : PyStr) (params : Dict PyStr ν) : Eff σ SqlError (SqlAct π ν) ρ :=
  ex.call driver .execute name params

variable {ex} {driver}

/-- What is done with a statement: one connection of the pool is acquired, and if
    that succeeds the statement is sent once and the connection released. -/
theorem runOn_trace (pool : π) (method : SqlMethod) (statement : PyStr × List ν) (w : σ) :
    (runOn driver pool method statement w).trace =
      match (driver.acquire pool w).1 with
      | .error _ => [.acquire pool false]
      | .ok _ => [.acquire pool true, .run pool method statement.1 statement.2,
          .release pool] := by
  have hcall : ∀ {α : Type} (f : σ → Except Exn α × σ) (t : Bool → SqlAct π ν) (w : σ),
      (callDriver f t w).trace = [t (f w).1.toOption.isSome] ∧
        (callDriver f t w).result = (f w).1.mapError .raised := by
    intro α f t w
    refine ⟨?_, rfl⟩
    show [t ((f w).1.mapError SqlError.raised).toOption.isSome] = _
    cases (f w).1 <;> rfl
  have hrelease : ∀ (r : Except SqlError ρ) (w : σ),
      ((callDriver (driver.release pool) (fun _ => SqlAct.release pool) >>= fun _ =>
        (Eff.ofExcept r : Eff σ SqlError (SqlAct π ν) ρ)) w).trace = [.release pool] := by
    intro r w
    rw [Eff.bind_trace, (hcall _ _ w).1, (hcall _ _ w).2]
    cases (driver.release pool w).1 <;> cases r <;> rfl
  have hbody : ∀ w : σ, ((Eff.attempt (callDriver
      (driver.run pool method statement.1 statement.2)
        fun _ => .run pool method statement.1 statement.2) >>= fun r =>
      callDriver (driver.release pool) (fun _ => .release pool) >>= fun _ =>
        (Eff.ofExcept r : Eff σ SqlError (SqlAct π ν) ρ)) w).trace =
      [.run pool method statement.1 statement.2, .release pool] := by
    intro w
    refine (Eff.bind_trace _ _ w).trans ?_
    exact congrArg (SqlAct.run pool method statement.1 statement.2 :: ·) (hrelease _ _)
  refine (Eff.bind_trace _ _ w).trans ?_
  rw [(hcall _ _ w).1, (hcall _ _ w).2]
  cases (driver.acquire pool w).1 with
  | error e => rfl
  | ok u => exact congrArg (SqlAct.acquire pool true :: ·) (hbody _)

/-- The acts of a method: none when it has no statement, and otherwise those of its
    statement on its pool. -/
theorem call_trace (method : SqlMethod) (name : PyStr) (params : Dict PyStr ν) (w : σ) :
    (ex.call driver method name params w).trace =
      match ex.prepareStatement name params with
      | .error _ => []
      | .ok statement => (runOn driver (ex.poolOf method) method statement w).trace := by
  refine (Eff.bind_trace _ _ w).trans ?_
  cases ex.prepareStatement name params <;> rfl

/-- The statement of a template. -/
theorem prepareStatement_cases (name : PyStr) (params : Dict PyStr ν) :
    (∃ e, ex.prepareStatement name params = .error e ∧ ∀ sql, ex.templates.get? name = some sql →
        ∃ key ∈ statementNames sql, params.get? key = none) ∨
      ∃ sql args, ex.templates.get? name = some sql ∧
        ex.prepareStatement name params = .ok (statementText sql, args) ∧
        (statementNames sql).map params.get? = args.map some := by
  rw [prepareStatement]
  cases hget : ex.templates.get? name with
  | none => exact .inl ⟨_, rfl, nofun⟩
  | some sql =>
      rcases translate_text params sql with ⟨key, hmem, hnone, herr⟩ | ⟨args, hok, hargs⟩
      · refine .inl ⟨.missingParam key, by simp only [herr], fun sql' hsql => ?_⟩
        cases hsql
        exact ⟨key, hmem, hnone⟩
      · exact .inr ⟨sql, args, rfl, by simp only [hok], hargs⟩

end SqlExecutor

/-- The letters of the patterns in ASCII. -/
def asciiWords : WordChars where
  isWord := identChar
  not_word := fun c hc => by
    simp only [List.mem_cons, List.not_mem_nil, or_false] at hc
    rcases hc with rfl | rfl | rfl <;> rfl

/-- `ns/q.sql` with the text `:a`. -/
def selectFile : SqlFile := ⟨[py "ns"], py "q.sql", .ok [colon, codePoint 'a']⟩

/-- An executor on it. -/
def selectExecutor : SqlExecutor Bool where
  templates := .set .empty (py "ns/q") [colon, codePoint 'a']
  poolRw := true
  poolRo := some false

/-- A driver whose calls succeed. -/
def willingDriver : SqlDriver Unit Bool Nat Unit where
  acquire := fun _ _ => (.ok (), ())
  release := fun _ _ => (.ok (), ())
  run := fun _ _ _ _ _ => (.ok (), ())

end MasterAgent
