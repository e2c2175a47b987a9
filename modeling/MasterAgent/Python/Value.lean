/-
  MasterAgent.Python.Value

  The Python values the service handles: strings as sequences of code points
  (a JSON decoder also produces lone surrogates), JSON values, and the built-in
  operations on them that the code uses, with the exceptions these raise.
-/

import Mathlib.Computability.Language
import Mathlib.Data.List.Sort

namespace MasterAgent

-- ============================================================================
-- Strings
-- ============================================================================

/-- A Unicode code point, surrogates included. -/
abbrev CodePoint : Type := Fin 0x110000

/-- A Python `str`. -/
abbrev PyStr : Type := List CodePoint

instance PyStr.lawfulBEq : LawfulBEq PyStr := inferInstance

theorem Char.toNat_lt_codePoints (c : Char) : c.toNat < 0x110000 := by
  rcases c.valid with h | ⟨_, h⟩
  · have h' : c.toNat < 0xd800 := h
    omega
  · exact h

/-- The code point of a character. -/
def codePoint (c : Char) : CodePoint := ⟨c.toNat, Char.toNat_lt_codePoints c⟩

/-- A string literal of the source. -/
def py (s : String) : PyStr := s.toList.map codePoint

/-- Distinct literals are distinct strings. -/
@[simp] theorem py_inj {s t : String} : py s = py t ↔ s = t := by
  constructor
  · intro h
    have hinj : Function.Injective codePoint := by
      intro a b hab
      have hn := congrArg Fin.val hab
      exact Char.toNat_inj.mp hn
    exact String.toList_inj.mp (List.map_injective_iff.mpr hinj h)
  · rintro rfl
    rfl

-- ============================================================================
-- Exceptions
-- ============================================================================

/-- What a call of the service can raise.  Every constructor but `cancelled`
    is a subclass of `Exception`; `asyncio.CancelledError` is not. -/
inductive Exn where
  | typeError
  | keyError
  | indexError
  | attributeError
  | valueError
  /-- An error of the database driver or server. -/
  | dbError
  | assertionError
  | sessionBizMismatch (msg : PyStr)
  | intentFailed (msg : PyStr)
  /-- Any other subclass of `Exception`. -/
  | other (msg : PyStr)
  /-- `asyncio.CancelledError`. -/
  | cancelled
deriving DecidableEq

/-- Is it caught by `except Exception`? -/
def Exn.isException : Exn → Bool
  | .cancelled => false
  | _ => true

@[simp] theorem Exn.isException_eq_true {e : Exn} : e.isException = true ↔ e ≠ .cancelled := by
  cases e <;> simp [Exn.isException]

@[simp] theorem Exn.isException_eq_false {e : Exn} : e.isException = false ↔ e = .cancelled := by
  cases e <;> simp [Exn.isException]

/-- What runs to its end got past its first step. -/
theorem exists_of_bind_eq_ok {α β : Type} {x : Except Exn α} {k : α → Except Exn β} {b : β}
    (h : (x >>= k) = .ok b) : ∃ a, x = .ok a ∧ k a = .ok b := by
  cases x with
  | error e => cases h
  | ok a => exact ⟨a, rfl, h⟩

-- ============================================================================
-- JSON values
-- ============================================================================

/-- A float, by its bits. -/
abbrev PyFloat : Type := BitVec 64

/-- What `json.loads` returns.  An object keeps its entries in order. -/
inductive Json where
  | null
  | bool (b : Bool)
  | int (n : Int)
  | float (x : PyFloat)
  | str (s : PyStr)
  | arr (items : List Json)
  | obj (fields : List (PyStr × Json))

namespace Json

/-- `bool(v)`: null, false, zero (of either sign) and the empty string, array
    and object are falsy. -/
def truthy : Json → Bool
  | .null => false
  | .bool b => b
  | .int n => n != 0
  | .float x => x.toNat % 2 ^ 63 != 0
  | .str s => !s.isEmpty
  | .arr items => !items.isEmpty
  | .obj fields => !fields.isEmpty

/-- `v or default`. -/
def orElse (v default : Json) : Json := if v.truthy then v else default

/-- Arrays and objects cannot be dictionary keys or set members. -/
def hashable : Json → Bool
  | .arr _ => false
  | .obj _ => false
  | _ => true

/-- Is the value the string `s`?  A string equals no value of another type. -/
def isStr (s : PyStr) : Json → Bool
  | .str t => t = s
  | _ => false

@[simp] theorem isStr_eq_true {s : PyStr} {v : Json} : v.isStr s = true ↔ v = .str s := by
  cases v <;> simp [isStr]

/-- The value of the entry for `k`. -/
def field (k : PyStr) : List (PyStr × Json) → Option Json
  | [] => none
  | (k', v) :: rest => if k' = k then some v else field k rest

theorem field_eq_none {k : PyStr} {fields : List (PyStr × Json)} :
    field k fields = none ↔ k ∉ fields.map Prod.fst := by
  induction fields with
  | nil => simp [field]
  | cons e rest ih =>
      by_cases h : e.1 = k
      · simp [field, h]
      · have hne : k ≠ e.1 := fun hk => h hk.symm
        simp [field, h, ih, hne]

/-- `v.get(k)`; only objects have the method. -/
def get (v : Json) (k : PyStr) : Except Exn (Option Json) :=
  match v with
  | .obj fields => .ok (field k fields)
  | _ => .error .attributeError

/-- `v.get(k, default)`. -/
def getD (v : Json) (k : PyStr) (default : Json) : Except Exn Json :=
  match v.get k with
  | .ok o => .ok (o.getD default)
  | .error e => .error e

/-- `v[k]` for a string key. -/
def getItem (v : Json) (k : PyStr) : Except Exn Json :=
  match v with
  | .obj fields => match field k fields with
    | some x => .ok x
    | none => .error .keyError
  | _ => .error .typeError

/-- The entries with `k` set to `v`, as in `{**fields, k: v}`. -/
def setField (k : PyStr) (v : Json) : List (PyStr × Json) → List (PyStr × Json)
  | [] => [(k, v)]
  | (k', v') :: rest => if k' = k then (k, v) :: rest else (k', v') :: setField k v rest

/-- `{**v, k: x}`. -/
def setItem (v : Json) (k : PyStr) (x : Json) : Except Exn Json :=
  match v with
  | .obj fields => .ok (.obj (setField k x fields))
  | _ => .error .typeError

/-- `s in v`: substring of a string, element of an array, key of an object; a
    value of another type is not iterable. -/
def contains (v : Json) (s : PyStr) : Except Exn Bool :=
  match v with
  | .str t => .ok (decide (s <:+: t))
  | .arr items => .ok (items.any (isStr s))
  | .obj fields => .ok (decide (s ∈ fields.map Prod.fst))
  | _ => .error .typeError

/-- `list(v)`: the characters of a string, the items of an array, the keys of an
    object. -/
def elements : Json → Except Exn (List Json)
  | .str s => .ok (s.map fun c => .str [c])
  | .arr items => .ok items
  | .obj fields => .ok (fields.map fun e => .str e.1)
  | _ => .error .typeError

/-- The members of `set(v)`. -/
def toSet (v : Json) : Except Exn (List Json) :=
  match v.elements with
  | .error e => .error e
  | .ok vs => if vs.all hashable then .ok vs else .error .typeError

/-- `v.items()`; only objects have the method. -/
def items : Json → Except Exn (List (PyStr × Json))
  | .obj fields => .ok fields
  | _ => .error .attributeError

/-- `"".join(items)`. -/
def join : List Json → Except Exn PyStr
  | [] => .ok []
  | .str s :: rest => match join rest with
    | .ok t => .ok (s ++ t)
    | .error e => .error e
  | _ :: _ => .error .typeError

@[simp] theorem join_nil : join [] = .ok [] := rfl

theorem join_cons_str (s : PyStr) (rest : List Json) :
    join (.str s :: rest) = (join rest).map (s ++ ·) := by
  simp only [join]
  cases join rest <;> rfl

/-- `join` succeeds exactly on lists of strings. -/
theorem join_isOk {items : List Json} :
    (∃ s, join items = .ok s) ↔ ∀ v ∈ items, ∃ s, v = .str s := by
  induction items with
  | nil => simp
  | cons v rest ih =>
      cases v with
      | str s =>
          rw [List.forall_mem_cons, ← ih, join_cons_str]
          cases join rest <;> simp [Except.map]
      | _ => simp [join]

/-- `join` concatenates strings. -/
theorem join_eq_ok {items : List Json} {s : PyStr} :
    join items = .ok s ↔ ∃ texts : List PyStr, items = texts.map .str ∧ s = texts.flatten := by
  induction items generalizing s with
  | nil =>
      constructor
      · rintro ⟨⟩
        exact ⟨[], rfl, rfl⟩
      · rintro ⟨texts, htexts, rfl⟩
        rw [eq_comm, List.map_eq_nil_iff] at htexts
        rw [htexts]
        rfl
  | cons v rest ih =>
      constructor
      · intro h
        cases v with
        | str t =>
            cases hrest : join rest with
            | error e => simp [join_cons_str, hrest, Except.map] at h
            | ok u =>
                obtain ⟨texts, htexts, rfl⟩ := ih.mp hrest
                simp only [join_cons_str, hrest, Except.map, Except.ok.injEq] at h
                exact ⟨t :: texts, by rw [htexts, List.map_cons], h.symm⟩
        | _ => simp [join] at h
      · rintro ⟨texts, htexts, rfl⟩
        obtain ⟨t, texts, rfl, rfl, rfl⟩ := List.map_eq_cons_iff.mp htexts.symm
        rw [join_cons_str, ih.mpr ⟨texts, rfl, rfl⟩]
        rfl

end Json

end MasterAgent
