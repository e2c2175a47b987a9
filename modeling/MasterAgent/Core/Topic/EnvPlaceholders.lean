/-
  MasterAgent.Core.Topic.EnvPlaceholders

  What `_resolve_env` (`ma/core/topic/compiler.py`) makes of a configuration
  value.  The placeholders of a string are marks that never overlap, so the
  string is cut in them and the characters between them, and the substitution
  writes the same pieces with the values of the variables.  Over a whole value
  the one way to fail is a placeholder, somewhere in a string, whose variable is
  unset.
-/

import MasterAgent.Core.Topic.Compiler
import MasterAgent.Lib.Marks
import Mathlib.Data.List.TakeWhile

namespace MasterAgent

open Marks

-- ============================================================================
-- Computations with one way to fail
-- ============================================================================

/-- `x` raises `e` if `bad` holds, and otherwise returns a value that is `good`. -/
def RaisesIff {ε α : Type} (e : ε) (bad : Prop) (good : α → Prop) (x : Except ε α) : Prop :=
  (bad ∧ x = .error e) ∨ (¬ bad ∧ ∃ a, x = .ok a ∧ good a)

namespace RaisesIff

variable {ε α β : Type} {e : ε} {bad bad' : Prop} {good : α → Prop} {good' : β → Prop}
  {x : Except ε α}

theorem error_iff (h : RaisesIff e bad good x) : x = .error e ↔ bad := by
  rcases h with ⟨hbad, hx⟩ | ⟨hbad, a, hx, -⟩
  · exact ⟨fun _ => hbad, fun _ => hx⟩
  · constructor
    · intro herr
      rw [hx] at herr
      cases herr
    · intro h
      exact absurd h hbad

theorem error_or_good (h : RaisesIff e bad good x) : x = .error e ∨ ∃ a, x = .ok a ∧ good a := by
  rcases h with ⟨-, hx⟩ | ⟨-, hgood⟩
  · exact Or.inl hx
  · exact Or.inr hgood

theorem congr (h : RaisesIff e bad good x) (hbad : bad' ↔ bad) : RaisesIff e bad' good x := by
  rcases h with ⟨hb, hx⟩ | ⟨hb, hgood⟩
  · exact Or.inl ⟨hbad.mpr hb, hx⟩
  · exact Or.inr ⟨fun h => hb (hbad.mp h), hgood⟩

theorem map (h : RaisesIff e bad good x) {f : α → β} (hf : ∀ a, good a → good' (f a)) :
    RaisesIff e bad good' (x.map f) := by
  rcases h with ⟨hbad, rfl⟩ | ⟨hbad, a, rfl, hgood⟩
  · exact Or.inl ⟨hbad, rfl⟩
  · exact Or.inr ⟨hbad, f a, rfl, hf a hgood⟩

theorem bind (h : RaisesIff e bad good x) {f : α → Except ε β}
    (hf : ∀ a, good a → RaisesIff e bad' good' (f a)) :
    RaisesIff e (bad ∨ bad') good' (x >>= f) := by
  rcases h with ⟨hbad, rfl⟩ | ⟨hbad, a, rfl, hgood⟩
  · exact Or.inl ⟨Or.inl hbad, rfl⟩
  · exact (hf a hgood).congr (or_iff_right hbad)

end RaisesIff

-- ============================================================================
-- Placeholders
-- ============================================================================

/-- The name of a variable: `[A-Z_][A-Z0-9_]*`. -/
@[ext] structure EnvName where
  text : PyStr
  start : text.head?.any isEnvStart = true
  chars : ∀ c ∈ text, isEnvChar c = true

namespace EnvName

variable (n : EnvName)

/-- The placeholder of the variable: `${env:NAME}`. -/
def written : PyStr := py "$\x7benv:" ++ (n.text ++ py "\x7d")

theorem takeWhile_text (t : PyStr) :
    (n.text ++ (py "\x7d" ++ t)).takeWhile isEnvChar = n.text := by
  have hclose : (py "\x7d" ++ t).takeWhile isEnvChar = [] := by
    have hno : isEnvChar (codePoint '\x7d') = false := by decide
    show (codePoint '\x7d' :: t).takeWhile isEnvChar = []
    rw [List.takeWhile_cons, hno]
    rfl
  rw [List.takeWhile_append_of_pos n.chars, hclose, List.append_nil]

theorem placeholder_written (t : PyStr) : placeholder (n.written ++ t) = some n.text := by
  have hopen : (py "$\x7benv:").isPrefixOf (n.written ++ t) = true := by
    rw [List.isPrefixOf_iff_prefix, written, List.append_assoc]
    exact List.prefix_append _ _
  have hrest : (n.written ++ t).drop 6 = n.text ++ (py "\x7d" ++ t) := by
    rw [written, List.append_assoc, List.append_assoc]
    exact List.drop_left' rfl
  have hclose : (py "\x7d").isPrefixOf (py "\x7d" ++ t) = true := by
    rw [List.isPrefixOf_iff_prefix]
    exact List.prefix_append _ _
  have hguard :
      (n.text.head?.any isEnvStart && (py "\x7d").isPrefixOf (py "\x7d" ++ t)) = true := by
    rw [n.start, hclose]
    rfl
  simp only [placeholder, hopen, if_true, hrest, n.takeWhile_text, List.drop_left, hguard]

/-- The placeholder a text starts with is the one it starts with as written. -/
theorem exists_of_placeholder {s name : PyStr} (h : placeholder s = some name) :
    ∃ n : EnvName, n.text = name ∧ ∃ t, s = n.written ++ t := by
  unfold placeholder at h
  split at h
  · next hopen =>
    obtain ⟨rest, rfl⟩ := List.isPrefixOf_iff_prefix.mp hopen
    have hrest : (py "$\x7benv:" ++ rest).drop 6 = rest := List.drop_left' rfl
    simp only [hrest] at h
    split at h
    · next hguard =>
      rw [Bool.and_eq_true] at hguard
      obtain ⟨t, ht⟩ := List.isPrefixOf_iff_prefix.mp hguard.2
      refine ⟨⟨rest.takeWhile isEnvChar, hguard.1, fun c hc => List.mem_takeWhile_imp hc⟩,
        Option.some.inj h, t, ?_⟩
      have hdrop : rest.takeWhile isEnvChar ++ rest.drop (rest.takeWhile isEnvChar).length
          = rest :=
        List.prefix_iff_eq_append.mp (List.takeWhile_prefix isEnvChar)
      show py "$\x7benv:" ++ rest = (py "$\x7benv:" ++ (rest.takeWhile isEnvChar ++ py "\x7d")) ++ t
      rw [List.append_assoc, List.append_assoc, ht, hdrop]
    · cases h
  · cases h

/-- No placeholder overlaps another: only their first character is a dollar sign. -/
theorem delimited : Delimited written (codePoint '$') where
  opens n := by
    refine ⟨py "\x7benv:" ++ (n.text ++ py "\x7d"), rfl, ?_⟩
    intro hmem
    rcases List.mem_append.mp hmem with hopen | hmem
    · revert hopen
      decide
    rcases List.mem_append.mp hmem with hname | hclose
    · have hchar := n.chars _ hname
      revert hchar
      decide
    · revert hclose
      decide
  unique n n' t t' heq := by
    have hplace := n.placeholder_written t
    rw [heq, n'.placeholder_written t'] at hplace
    exact EnvName.ext (Option.some.inj hplace).symm

end EnvName

/-- The placeholder of `n` stands somewhere in `s`. -/
def Mentions (s : PyStr) (n : EnvName) : Prop :=
  ∃ before after, Occurs EnvName.written s before n after

/-- `t` is `s` with the value of its variable for every placeholder, and every
    other character as it is. -/
def Expands (env : Dict PyStr PyStr) (s t : PyStr) : Prop :=
  ∃ ps, Segmented EnvName.written s ps ∧
    ∃ value : EnvName → PyStr, (∀ n, .mark n ∈ ps → env.get? n.text = some (value n)) ∧
      t = expand value ps

/-- A placeholder of `s` names a variable that is not set. -/
def MentionsUnset (env : Dict PyStr PyStr) (s : PyStr) : Prop :=
  ∃ n, Mentions s n ∧ env.get? n.text = none

-- ============================================================================
-- The substitution
-- ============================================================================

section

variable {env : Dict PyStr PyStr}

/-- What is left of a replaced placeholder is skipped. -/
theorem substituteEnv_skip (skipped rest : PyStr) :
    substituteEnv env skipped.length (skipped ++ rest) = substituteEnv env 0 rest := by
  induction skipped with
  | nil => rfl
  | cons c skipped ih =>
      rw [List.length_cons, List.cons_append, substituteEnv, ih]

variable {s : PyStr} {ps : List (Segment CodePoint EnvName)}

theorem substituteEnv_char {c : CodePoint} (hs : Segmented EnvName.written s (.char c :: ps)) :
    substituteEnv env 0 s = (substituteEnv env 0 (expand EnvName.written ps)).map (c :: ·) := by
  have hsource : c :: expand EnvName.written ps = s := hs.source
  have hnone : placeholder s = none := by
    rw [Option.eq_none_iff_forall_ne_some]
    intro name hname
    obtain ⟨n, -, t, heq⟩ := EnvName.exists_of_placeholder hname
    exact hs.front EnvName.delimited n t heq
  rw [← hsource] at hnone ⊢
  rw [substituteEnv, hnone]

theorem substituteEnv_mark {n : EnvName} (hs : Segmented EnvName.written s (.mark n :: ps)) :
    substituteEnv env 0 s = match env.get? n.text with
      | none => .error .keyError
      | some v => (substituteEnv env 0 (expand EnvName.written ps)).map (v ++ ·) := by
  have hsource : n.written ++ expand EnvName.written ps = s := hs.source
  have hplace : placeholder s = some n.text := by
    rw [← hsource]
    exact n.placeholder_written _
  obtain ⟨body, hbody, -⟩ := EnvName.delimited.opens n
  have hlen : n.text.length + 6 = body.length := by
    have h := congrArg List.length hbody
    have hopen : (py "$\x7benv:").length = 6 := by decide
    have hclose : (py "\x7d").length = 1 := by decide
    rw [EnvName.written, List.length_append, List.length_append, List.length_cons] at h
    omega
  rw [← hsource, hbody, List.cons_append] at hplace ⊢
  cases hv : env.get? n.text with
  | none => simp only [substituteEnv, hplace, hv]
  | some v => simp only [substituteEnv, hplace, hv, hlen, substituteEnv_skip]

/-- The substitution writes the pieces again, with the values. -/
theorem substituteEnv_set (hs : Segmented EnvName.written s ps) {value : EnvName → PyStr}
    (hset : ∀ n, .mark n ∈ ps → env.get? n.text = some (value n)) :
    substituteEnv env 0 s = .ok (expand value ps) := by
  induction ps generalizing s with
  | nil =>
      rw [← hs.source]
      rfl
  | cons p ps ih =>
      have hrest := ih (hs.tail EnvName.delimited) fun n hn => hset n (List.mem_cons_of_mem _ hn)
      cases p with
      | char c =>
          rw [substituteEnv_char hs, hrest]
          rfl
      | mark n =>
          rw [substituteEnv_mark hs, hset n List.mem_cons_self, hrest]
          rfl

/-- It raises at a placeholder whose variable is unset, whatever stands before. -/
theorem substituteEnv_unset (hs : Segmented EnvName.written s ps) {n : EnvName}
    (hn : .mark n ∈ ps) (hunset : env.get? n.text = none) :
    substituteEnv env 0 s = .error .keyError := by
  induction ps generalizing s with
  | nil => cases hn
  | cons p ps ih =>
      have hrest : .mark n ∈ ps →
          substituteEnv env 0 (expand EnvName.written ps) = .error .keyError :=
        ih (hs.tail EnvName.delimited)
      cases p with
      | char c =>
          have hmem : .mark n ∈ ps := (List.mem_cons.mp hn).resolve_left (by simp)
          rw [substituteEnv_char hs, hrest hmem]
          rfl
      | mark m =>
          rw [substituteEnv_mark hs]
          cases hm : env.get? m.text with
          | none => rfl
          | some v =>
              have hmem : .mark n ∈ ps := by
                refine (List.mem_cons.mp hn).resolve_left ?_
                intro heq
                rw [← Segment.mark.inj heq, hunset] at hm
                cases hm
              rw [hrest hmem]
              rfl

end

/-- The substitution raises exactly at a placeholder without a value, and
    otherwise expands the string. -/
theorem substituteEnv_raisesIff (env : Dict PyStr PyStr) (s : PyStr) :
    RaisesIff .keyError (MentionsUnset env s) (Expands env s) (substituteEnv env 0 s) := by
  obtain ⟨ps, hps⟩ := exists_segmented EnvName.delimited s
  by_cases hunset : MentionsUnset env s
  · obtain ⟨n, hn, hnone⟩ := hunset
    have hmem : .mark n ∈ ps := hps.mem_iff.mpr hn
    exact Or.inl ⟨⟨n, hn, hnone⟩, substituteEnv_unset hps hmem hnone⟩
  · have hset : ∀ n, .mark n ∈ ps → env.get? n.text = some ((env.get? n.text).getD []) := by
      intro n hn
      cases hv : env.get? n.text with
      | none => exact absurd ⟨n, hps.mem_iff.mp hn, hv⟩ hunset
      | some v => rfl
    exact Or.inr ⟨hunset, _, substituteEnv_set hps hset, ps, hps, _, hset, rfl⟩

-- A placeholder in a value is not expanded again.
example : substituteEnv (Dict.empty.set (py "A") (py "<$\x7benv:A\x7d>")) 0
    (py "$\x7benv:A\x7d$") = .ok (py "<$\x7benv:A\x7d>$") := by decide

-- ============================================================================
-- Values
-- ============================================================================

/-- A value of a configuration: a string, a dictionary with string keys, a list,
    or anything else. -/
inductive ConfigValue (ι : Type) where
  | str (s : PyStr)
  | dict (entries : List (PyStr × ConfigValue ι))
  | list (items : List (ConfigValue ι))
  | leaf (x : ι)

namespace ConfigValue

variable {ι : Type}

mutual

/-- `_resolve_env`. -/
def resolveEnv (env : Dict PyStr PyStr) : ConfigValue ι → Except Exn (ConfigValue ι)
  | .str s => (substituteEnv env 0 s).map .str
  | .dict entries => (resolveEntries env entries).map .dict
  | .list items => (resolveItems env items).map .list
  | .leaf x => .ok (.leaf x)

def resolveEntries (env : Dict PyStr PyStr) :
    List (PyStr × ConfigValue ι) → Except Exn (List (PyStr × ConfigValue ι))
  | [] => .ok []
  | (k, v) :: rest => do
      let v ← resolveEnv env v
      let rest ← resolveEntries env rest
      return (k, v) :: rest

def resolveItems (env : Dict PyStr PyStr) :
    List (ConfigValue ι) → Except Exn (List (ConfigValue ι))
  | [] => .ok []
  | v :: rest => do
      let v ← resolveEnv env v
      let rest ← resolveItems env rest
      return v :: rest

end

mutual

/-- The strings in a value, at every depth; dictionary keys are not among them. -/
def stringLeaves : ConfigValue ι → List PyStr
  | .str s => [s]
  | .dict entries => entriesLeaves entries
  | .list items => itemsLeaves items
  | .leaf _ => []

def entriesLeaves : List (PyStr × ConfigValue ι) → List PyStr
  | [] => []
  | (_, v) :: rest => stringLeaves v ++ entriesLeaves rest

def itemsLeaves : List (ConfigValue ι) → List PyStr
  | [] => []
  | v :: rest => stringLeaves v ++ itemsLeaves rest

end

/-- One value is another with its strings expanded: the same shape, keys,
    lengths and other leaves. -/
inductive Resolved (env : Dict PyStr PyStr) : ConfigValue ι → ConfigValue ι → Prop where
  | str {s t : PyStr} (h : Expands env s t) : Resolved env (.str s) (.str t)
  | dict {es es' : List (PyStr × ConfigValue ι)} (hkeys : es.map Prod.fst = es'.map Prod.fst)
      (h : List.Forall₂ (Resolved env) (es.map Prod.snd) (es'.map Prod.snd)) :
      Resolved env (.dict es) (.dict es')
  | list {vs vs' : List (ConfigValue ι)} (h : List.Forall₂ (Resolved env) vs vs') :
      Resolved env (.list vs) (.list vs')
  | leaf (x : ι) : Resolved env (.leaf x) (.leaf x)

/-- Does a string among `leaves` need a variable that is not set? -/
def AnyUnset (env : Dict PyStr PyStr) (leaves : List PyStr) : Prop :=
  ∃ s ∈ leaves, MentionsUnset env s

theorem anyUnset_append {env : Dict PyStr PyStr} {leaves leaves' : List PyStr} :
    AnyUnset env (leaves ++ leaves') ↔ AnyUnset env leaves ∨ AnyUnset env leaves' := by
  simp only [AnyUnset, List.mem_append, or_and_right, exists_or]

theorem not_anyUnset_nil {env : Dict PyStr PyStr} : ¬ AnyUnset env [] := by
  rintro ⟨s, hs, -⟩
  cases hs

mutual

theorem resolveEnv_raisesIff (env : Dict PyStr PyStr) :
    ∀ v : ConfigValue ι, RaisesIff .keyError (AnyUnset env v.stringLeaves) (Resolved env v)
      (v.resolveEnv env)
  | .str s => by
      have hone : AnyUnset env (stringLeaves (.str s : ConfigValue ι)) ↔ MentionsUnset env s := by
        simp only [AnyUnset, stringLeaves, List.mem_singleton, exists_eq_left]
      exact ((substituteEnv_raisesIff env s).map fun t ht => .str ht).congr hone
  | .dict entries => by
      have h := resolveEntries_raisesIff env entries
      exact h.map fun entries' hentries => .dict hentries.1 hentries.2
  | .list items => by
      have h := resolveItems_raisesIff env items
      exact h.map fun items' hitems => .list hitems
  | .leaf x => Or.inr ⟨not_anyUnset_nil, _, rfl, .leaf x⟩

theorem resolveEntries_raisesIff (env : Dict PyStr PyStr) :
    ∀ es : List (PyStr × ConfigValue ι), RaisesIff .keyError (AnyUnset env (entriesLeaves es))
      (fun es' => es.map Prod.fst = es'.map Prod.fst ∧
        List.Forall₂ (Resolved env) (es.map Prod.snd) (es'.map Prod.snd))
      (resolveEntries env es)
  | [] => Or.inr ⟨not_anyUnset_nil, _, rfl, rfl, .nil⟩
  | (k, v) :: rest => by
      refine ((resolveEnv_raisesIff env v).bind fun v' hv =>
        (resolveEntries_raisesIff env rest).map fun rest' hrest => ?_).congr anyUnset_append
      exact ⟨by rw [List.map_cons, List.map_cons, hrest.1], .cons hv hrest.2⟩

theorem resolveItems_raisesIff (env : Dict PyStr PyStr) :
    ∀ vs : List (ConfigValue ι), RaisesIff .keyError (AnyUnset env (itemsLeaves vs))
      (List.Forall₂ (Resolved env) vs) (resolveItems env vs)
  | [] => Or.inr ⟨not_anyUnset_nil, _, rfl, .nil⟩
  | v :: rest => by
      exact ((resolveEnv_raisesIff env v).bind fun v' hv =>
        (resolveItems_raisesIff env rest).map fun rest' hrest => .cons hv hrest).congr
          anyUnset_append

end

/-- Resolving raises `KeyError` exactly if a string somewhere in the value has a
    placeholder whose variable is unset.  Otherwise it returns the value with
    every placeholder replaced once, and all else as it was. -/
theorem resolveEnv_exact (env : Dict PyStr PyStr) (v : ConfigValue ι) :
    (v.resolveEnv env = .error .keyError ↔ AnyUnset env v.stringLeaves) ∧
      (v.resolveEnv env = .error .keyError ∨
        ∃ v', v.resolveEnv env = .ok v' ∧ Resolved env v v') := by
  have h := resolveEnv_raisesIff env v
  exact ⟨h.error_iff, h.error_or_good⟩

mutual

theorem resolveEnv_of_resolved {env : Dict PyStr PyStr} :
    ∀ {v v' : ConfigValue ι}, Resolved env v v' → v.resolveEnv env = .ok v'
  | _, _, .str ⟨ps, hps, value, hset, ht⟩ => by
      rw [resolveEnv, substituteEnv_set hps hset, ht]
      rfl
  | .dict es, _, .dict hkeys h => by
      rw [resolveEnv, resolveEntries_of_resolved hkeys h]
      rfl
  | .list vs, _, .list h => by
      rw [resolveEnv, resolveItems_of_resolved h]
      rfl
  | _, _, .leaf x => rfl

theorem resolveEntries_of_resolved {env : Dict PyStr PyStr} :
    ∀ {es es' : List (PyStr × ConfigValue ι)}, es.map Prod.fst = es'.map Prod.fst →
      List.Forall₂ (Resolved env) (es.map Prod.snd) (es'.map Prod.snd) →
      resolveEntries env es = .ok es'
  | [], [], _, _ => rfl
  | (k, v) :: es, (k', v') :: es', hkeys, h => by
      obtain ⟨hk, hkeys⟩ := List.cons.inj hkeys
      obtain ⟨hv, hes⟩ := List.forall₂_cons.mp h
      have hk : k = k' := hk
      rw [resolveEntries, resolveEnv_of_resolved hv, resolveEntries_of_resolved hkeys hes, hk]
      rfl

theorem resolveItems_of_resolved {env : Dict PyStr PyStr} :
    ∀ {vs vs' : List (ConfigValue ι)}, List.Forall₂ (Resolved env) vs vs' →
      resolveItems env vs = .ok vs'
  | [], [], _ => rfl
  | v :: vs, v' :: vs', h => by
      obtain ⟨hv, hvs⟩ := List.forall₂_cons.mp h
      rw [resolveItems, resolveEnv_of_resolved hv, resolveItems_of_resolved hvs]
      rfl

end

/-- What resolving returns is the one value resolved from the given one. -/
theorem resolveEnv_eq_ok_iff {env : Dict PyStr PyStr} {v v' : ConfigValue ι} :
    v.resolveEnv env = .ok v' ↔ Resolved env v v' := by
  constructor
  · intro h
    rcases (resolveEnv_raisesIff env v).error_or_good with herr | ⟨w, hw, hres⟩
    · rw [h] at herr
      cases herr
    · rw [h] at hw
      rw [Except.ok.inj hw]
      exact hres
  · exact resolveEnv_of_resolved

end ConfigValue

-- ============================================================================
-- The parameters of a topic's plugins
-- ============================================================================

mutual

/-- A JSON value as a value of a configuration: the other values are leaves. -/
def Json.config : Json → ConfigValue Json
  | .str s => .str s
  | .obj fields => .dict (configFields fields)
  | .arr items => .list (configItems items)
  | v => .leaf v

def Json.configFields : List (PyStr × Json) → List (PyStr × ConfigValue Json)
  | [] => []
  | (k, v) :: rest => (k, v.config) :: configFields rest

def Json.configItems : List Json → List (ConfigValue Json)
  | [] => []
  | v :: rest => v.config :: configItems rest

end

mutual

/-- Resolving JSON values is resolving values of a configuration. -/
theorem resolveEnv_config (env : Dict PyStr PyStr) :
    ∀ v : Json, v.config.resolveEnv env = (resolveEnv env v).map Json.config
  | .str s => by
      rw [Json.config, ConfigValue.resolveEnv, resolveEnv]
      cases substituteEnv env 0 s with
      | error e => rfl
      | ok t => rfl
  | .obj fields => by
      rw [Json.config, ConfigValue.resolveEnv, resolveEnv, resolveFields_config env fields]
      cases resolveFields env fields with
      | error e => rfl
      | ok fields' => rfl
  | .arr items => by
      rw [Json.config, ConfigValue.resolveEnv, resolveEnv, resolveItems_config env items]
      cases resolveItems env items with
      | error e => rfl
      | ok items' => rfl
  | .null => rfl
  | .bool _ => rfl
  | .int _ => rfl
  | .float _ => rfl

theorem resolveFields_config (env : Dict PyStr PyStr) :
    ∀ fields : List (PyStr × Json), ConfigValue.resolveEntries env (Json.configFields fields)
      = (resolveFields env fields).map Json.configFields
  | [] => rfl
  | (k, v) :: rest => by
      rw [Json.configFields, ConfigValue.resolveEntries, resolveFields, resolveEnv_config env v,
        resolveFields_config env rest]
      cases resolveEnv env v with
      | error e => rfl
      | ok v' =>
          cases resolveFields env rest with
          | error e => rfl
          | ok rest' => rfl

theorem resolveItems_config (env : Dict PyStr PyStr) :
    ∀ items : List Json, ConfigValue.resolveItems env (Json.configItems items)
      = (resolveItems env items).map Json.configItems
  | [] => rfl
  | v :: rest => by
      rw [Json.configItems, ConfigValue.resolveItems, resolveItems, resolveEnv_config env v,
        resolveItems_config env rest]
      cases resolveEnv env v with
      | error e => rfl
      | ok v' =>
          cases resolveItems env rest with
          | error e => rfl
          | ok rest' => rfl

end

/-- The strings in plugin parameters, at every depth. -/
def Params.leaves (params : Params) : List PyStr :=
  ConfigValue.entriesLeaves (Json.configFields params)

/-- Parameters are resolved exactly if every variable they need is set. -/
theorem resolveFields_ok_iff {env : Dict PyStr PyStr} {params : Params} :
    (∃ params', resolveFields env params = .ok params') ↔
      ¬ ConfigValue.AnyUnset env params.leaves := by
  have h := ConfigValue.resolveEntries_raisesIff env (Json.configFields params)
  rw [resolveFields_config] at h
  rcases h with ⟨hbad, herr⟩ | ⟨hset, fields, hok, -⟩
  · refine iff_of_false ?_ (not_not_intro hbad)
    rintro ⟨params', hok⟩
    rw [hok] at herr
    cases herr
  · refine iff_of_true ?_ hset
    cases hres : resolveFields env params with
    | error e =>
        rw [hres] at hok
        cases hok
    | ok params' => exact ⟨params', rfl⟩

theorem createAdapters_set {c : TopicCompiler} {env : Dict PyStr PyStr} {nodes : List AdapterNode}
    {adapters adapters' : Dict PyStr DownstreamAdapter}
    (h : c.createAdapters env nodes adapters = .ok adapters') :
    ∀ node ∈ nodes, ¬ ConfigValue.AnyUnset env (Params.leaves node.params) := by
  induction nodes generalizing adapters with
  | nil =>
      intro node hnode
      cases hnode
  | cons first rest ih =>
      rw [TopicCompiler.createAdapters] at h
      obtain ⟨params, hparams, h⟩ := exists_of_bind_eq_ok h
      obtain ⟨adapter, -, h⟩ := exists_of_bind_eq_ok h
      intro node hnode
      rcases List.mem_cons.mp hnode with rfl | hnode
      · exact resolveFields_ok_iff.mp ⟨params, hparams⟩
      · exact ih h node hnode

/-- A topic is compiled only if every variable its plugins' parameters need is set. -/
theorem compile_set {c : TopicCompiler} {cfg : TopicConfig} {env : Dict PyStr PyStr}
    {topic : CompiledTopic} (h : c.compile cfg env = .ok topic) :
    ∀ params ∈ cfg.auth.params :: cfg.enrich.params :: cfg.intent.params ::
        cfg.nodes.map (fun node => node.params),
      ¬ ConfigValue.AnyUnset env (Params.leaves params) := by
  unfold TopicCompiler.compile at h
  obtain ⟨auth, hauth, h⟩ := exists_of_bind_eq_ok h
  obtain ⟨enrich, henrich, h⟩ := exists_of_bind_eq_ok h
  obtain ⟨intent, hintent, h⟩ := exists_of_bind_eq_ok h
  iterate 3 obtain ⟨_, -, h⟩ := exists_of_bind_eq_ok h
  obtain ⟨adapters, hadapters, -⟩ := exists_of_bind_eq_ok h
  intro params hparams
  simp only [List.mem_cons, List.mem_map] at hparams
  rcases hparams with rfl | rfl | rfl | ⟨node, hnode, rfl⟩
  · exact resolveFields_ok_iff.mp ⟨auth, hauth⟩
  · exact resolveFields_ok_iff.mp ⟨enrich, henrich⟩
  · exact resolveFields_ok_iff.mp ⟨intent, hintent⟩
  · exact createAdapters_set (createAdapters_of_adapters hadapters) node hnode

end MasterAgent
