/-
  MasterAgent.Python.DictKey

  JSON values as dictionary keys.  Two values are one key when they are equal in
  Python: `1`, `1.0` and `True` are.  A NaN is equal to nothing but a dictionary
  asks for identity first, and every `NaN` that `json.loads` reads is one object
  of the `json` module: so all of them are one key.
-/

import MasterAgent.Python.Value

namespace MasterAgent

/-- What a hashable JSON value is as a key. -/
inductive PyKey where
  | none
  | int (n : Int)
  /-- A float that is no integer. -/
  | float (x : PyFloat)
  /-- The one NaN of `json.loads`. -/
  | nan
  | str (s : PyStr)
deriving DecidableEq

namespace PyFloat

/-- The exponent field. -/
def exponent (x : PyFloat) : Nat := x.toNat / 2 ^ 52 % 2 ^ 11

/-- The fraction field. -/
def fraction (x : PyFloat) : Nat := x.toNat % 2 ^ 52

def isNaN (x : PyFloat) : Bool := exponent x = 2047 && fraction x ≠ 0

def negative (x : PyFloat) : Bool := 2 ^ 63 ≤ x.toNat

/-- The integer a float is equal to. -/
def toInt? (x : PyFloat) : Option Int :=
  let mantissa := 2 ^ 52 + fraction x
  let signed (n : Nat) : Int := if negative x then -n else n
  if exponent x = 2047 then none
  else if exponent x = 0 then if fraction x = 0 then some 0 else none
  else if 1075 ≤ exponent x then some (signed (mantissa * 2 ^ (exponent x - 1075)))
  else if mantissa % 2 ^ (1075 - exponent x) = 0 then
    some (signed (mantissa / 2 ^ (1075 - exponent x)))
  else none

end PyFloat

/-- The key of a value; arrays and objects are unhashable. -/
def Json.pyKey : Json → Option PyKey
  | .null => some .none
  | .bool b => some (.int (if b then 1 else 0))
  | .int n => some (.int n)
  | .float x =>
      if PyFloat.isNaN x then some .nan
      else match PyFloat.toInt? x with
        | some n => some (.int n)
        | none => some (.float x)
  | .str s => some (.str s)
  | .arr _ => none
  | .obj _ => none

/-- `1.0` is the key `1`, and `0.5` is no integer. -/
example : Json.pyKey (.float 0x3ff0000000000000) = Json.pyKey (.bool true) ∧
    Json.pyKey (.float 0x3fe0000000000000) = some (.float 0x3fe0000000000000) := by decide

theorem pyKey_isSome (v : Json) : v.pyKey.isSome = v.hashable := by
  cases v with
  | float x =>
      simp only [Json.pyKey]
      split
      · rfl
      · split <;> rfl
  | _ => rfl

@[simp] theorem pyKey_str (s : PyStr) : (Json.str s).pyKey = some (.str s) := rfl

end MasterAgent
