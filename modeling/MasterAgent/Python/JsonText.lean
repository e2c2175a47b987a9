/-
  MasterAgent.Python.JsonText

  JSON as text: `json.dumps` with `ensure_ascii=False` and compact separators,
  and `json.loads`.  Texts of floats are a parameter.  The limits of the
  interpreter, on nesting and on the digits of an integer, are not modelled.

  `readString_quoted` and `readNumber_intText`: dumped strings and integers are
  read back.
-/

import MasterAgent.Python.Value
import Mathlib.Data.List.TakeWhile
import Mathlib.Data.Nat.Digits.Lemmas

namespace MasterAgent

theorem codePoint_injective : Function.Injective codePoint := by
  intro a b hab
  have hn : (codePoint a).val = (codePoint b).val := by rw [hab]
  exact Char.toNat_inj.mp hn

@[simp] theorem codePoint_inj {a b : Char} : codePoint a = codePoint b ↔ a = b :=
  codePoint_injective.eq_iff

namespace Json

-- ============================================================================
-- Dumping
-- ============================================================================

/-- Printable ASCII. -/
abbrev Ascii (text : PyStr) : Prop := ∀ d ∈ text, 0x20 ≤ d.val ∧ d.val < 0x80

theorem ascii_of_all {text : PyStr}
    (h : (text.all fun d => decide (0x20 ≤ d.val ∧ d.val < 0x80)) = true) : Ascii text :=
  fun d hd => of_decide_eq_true (List.all_eq_true.mp h d hd)

/-- The texts of floats: what the encoder writes, plain ASCII, which is
    `float.__repr__` but for NaN and the infinities; and what `float` makes of a
    text. -/
structure FloatTexts where
  repr : PyFloat → PyStr
  value : PyStr → PyFloat
  repr_ascii : ∀ x, Ascii (repr x)

/-- A digit, in lower case for a base up to sixteen. -/
def digit (d : Nat) : CodePoint :=
  if d < 10 then Fin.ofNat _ (48 + d) else Fin.ofNat _ (87 + d)

/-- The escapes of two characters the encoder uses: for a character what follows
    the backslash. -/
def shortEscapes : List (CodePoint × CodePoint) :=
  [(codePoint '"', codePoint '"'), (codePoint '\\', codePoint '\\'), (0x8, codePoint 'b'),
    (0x9, codePoint 't'), (0xa, codePoint 'n'), (0xc, codePoint 'f'), (0xd, codePoint 'r')]

/-- What the encoder writes for a character: the quote, the backslash and the
    control characters are escaped, and nothing else is. -/
def escape (c : CodePoint) : PyStr :=
  match shortEscapes.lookup c with
  | some e => [codePoint '\\', e]
  | none =>
      if c.val < 0x20 then
        [codePoint '\\', codePoint 'u', digit 0, digit 0, digit (c.val / 16), digit (c.val % 16)]
      else [c]

/-- The text of a string. -/
def quoted (s : PyStr) : PyStr := codePoint '"' :: (s.flatMap escape ++ [codePoint '"'])

/-- The decimal text of a natural number. -/
def natText (n : Nat) : PyStr :=
  if n = 0 then [digit 0] else (Nat.digits 10 n).reverse.map digit

/-- `int.__repr__`. -/
def intText : Int → PyStr
  | .ofNat n => natText n
  | .negSucc n => codePoint '-' :: natText (n + 1)

section Dumps

variable (floats : FloatTexts)

mutual

/-- `json.dumps(v, ensure_ascii=False, separators=(",", ":"))`. -/
def dumps : Json → PyStr
  | .null => py "null"
  | .bool true => py "true"
  | .bool false => py "false"
  | .int n => intText n
  | .float x => floats.repr x
  | .str s => quoted s
  | .arr [] => [codePoint '[', codePoint ']']
  | .arr (v :: items) => codePoint '[' :: (dumps v ++ dumpsItems items)
  | .obj [] => [codePoint '\x7b', codePoint '\x7d']
  | .obj ((k, v) :: fields) =>
      codePoint '\x7b' :: (quoted k ++ codePoint ':' :: (dumps v ++ dumpsFields fields))

/-- The further items of an array, and its end. -/
def dumpsItems : List Json → PyStr
  | [] => [codePoint ']']
  | v :: items => codePoint ',' :: (dumps v ++ dumpsItems items)

/-- The further entries of an object, and its end. -/
def dumpsFields : List (PyStr × Json) → PyStr
  | [] => [codePoint '\x7d']
  | (k, v) :: fields =>
      codePoint ',' :: (quoted k ++ codePoint ':' :: (dumps v ++ dumpsFields fields))

end

end Dumps

-- ============================================================================
-- The characters of a text
-- ============================================================================

mutual

/-- The characters of the strings and the keys of a value. -/
def chars : Json → PyStr
  | .str s => s
  | .arr items => itemsChars items
  | .obj fields => fieldsChars fields
  | _ => []

def itemsChars : List Json → PyStr
  | [] => []
  | v :: items => chars v ++ itemsChars items

def fieldsChars : List (PyStr × Json) → PyStr
  | [] => []
  | (k, v) :: fields => k ++ (chars v ++ fieldsChars fields)

end

/-- A text without control characters whose characters beyond ASCII are those of
    the strings `l`. -/
structure Shows (l text : PyStr) : Prop where
  printable : ∀ d ∈ text, 0x20 ≤ d.val
  known : ∀ d ∈ text, 0x80 ≤ d.val → d ∈ l
  complete : ∀ c ∈ l, 0x80 ≤ c.val → c ∈ text

theorem Shows.append {l l' text text' : PyStr} (h : Shows l text) (h' : Shows l' text') :
    Shows (l ++ l') (text ++ text') where
  printable := fun d hd => (List.mem_append.mp hd).elim (h.printable d) (h'.printable d)
  known := fun d hd hascii => (List.mem_append.mp hd).elim
    (fun hd => List.mem_append_left _ (h.known d hd hascii))
    (fun hd => List.mem_append_right _ (h'.known d hd hascii))
  complete := fun c hc hascii => (List.mem_append.mp hc).elim
    (fun hc => List.mem_append_left _ (h.complete c hc hascii))
    (fun hc => List.mem_append_right _ (h'.complete c hc hascii))

/-- A text in ASCII. -/
theorem Shows.ascii {text : PyStr} (h : Ascii text) : Shows [] text where
  printable := fun d hd => (h d hd).1
  known := fun d hd hascii => by
    have hlt := (h d hd).2
    omega
  complete := fun c hc => (List.not_mem_nil hc).elim

theorem Shows.cons {l text : PyStr} {d : CodePoint} (hd : 0x20 ≤ d.val ∧ d.val < 0x80)
    (h : Shows l text) : Shows l (d :: text) :=
  (Shows.ascii (List.forall_mem_singleton.mpr hd)).append h

theorem digit_ascii : ∀ d < 16, 0x20 ≤ (digit d).val ∧ (digit d).val < 0x80 := by decide

theorem shortEscapes_ascii :
    ∀ e ∈ shortEscapes, e.1.val < 0x80 ∧ 0x20 ≤ e.2.val ∧ e.2.val < 0x80 := by
  intro e he
  simp only [shortEscapes, List.mem_cons, List.not_mem_nil, or_false] at he
  rcases he with rfl | rfl | rfl | rfl | rfl | rfl | rfl <;> decide

theorem shows_escape (c : CodePoint) : Shows [c] (escape c) := by
  have hascii : ∀ {text : PyStr}, c.val < 0x80 → Ascii text → Shows [c] text := by
    intro text hc htext
    refine ⟨fun d hd => (htext d hd).1, fun d hd hascii => ?_, fun d hd hascii => ?_⟩
    · have hlt := (htext d hd).2
      omega
    · rw [List.mem_singleton.mp hd] at hascii
      omega
  have hslash : 0x20 ≤ (codePoint '\\').val ∧ (codePoint '\\').val < 0x80 := by decide
  have hu : 0x20 ≤ (codePoint 'u').val ∧ (codePoint 'u').val < 0x80 := by decide
  unfold escape
  cases hshort : shortEscapes.lookup c with
  | some e =>
      obtain ⟨pre, post, hsplit, -⟩ := List.lookup_eq_some_iff.mp hshort
      obtain ⟨hc, he⟩ := shortEscapes_ascii (c, e) (by rw [hsplit]; simp)
      refine hascii hc fun d hd => ?_
      simp only [List.mem_cons, List.not_mem_nil, or_false] at hd
      rcases hd with rfl | rfl
      · exact hslash
      · exact he
  | none =>
      by_cases hcontrol : c.val < 0x20
      · simp only [if_pos hcontrol]
        refine hascii (by omega) fun d hd => ?_
        simp only [List.mem_cons, List.not_mem_nil, or_false] at hd
        rcases hd with rfl | rfl | rfl | rfl | rfl | rfl
        · exact hslash
        · exact hu
        · exact digit_ascii 0 (by omega)
        · exact digit_ascii 0 (by omega)
        · exact digit_ascii _ (by omega)
        · exact digit_ascii _ (by omega)
      · simp only [if_neg hcontrol]
        refine ⟨fun d hd => ?_, fun d hd _ => hd, fun d hd _ => hd⟩
        rw [List.mem_singleton.mp hd]
        omega

theorem shows_flatMap_escape (s : PyStr) : Shows s (s.flatMap escape) := by
  induction s with
  | nil => exact .ascii fun d hd => (List.not_mem_nil hd).elim
  | cons c s ih => exact (shows_escape c).append ih

theorem shows_quoted (s : PyStr) : Shows s (quoted s) := by
  have hquote : 0x20 ≤ (codePoint '"').val ∧ (codePoint '"').val < 0x80 := by decide
  have hend : Shows [] [codePoint '"'] := .ascii (List.forall_mem_singleton.mpr hquote)
  have hbody := (shows_flatMap_escape s).append hend
  rw [List.append_nil] at hbody
  exact hbody.cons hquote

theorem natText_ascii (n : Nat) : Ascii (natText n) := by
  intro d hd
  unfold natText at hd
  split at hd
  · rw [List.mem_singleton.mp hd]
    exact digit_ascii 0 (by omega)
  · obtain ⟨k, hk, rfl⟩ := List.mem_map.mp hd
    have hlt : k < 10 := Nat.digits_lt_base (by omega) (List.mem_reverse.mp hk)
    exact digit_ascii k (by omega)

theorem intText_ascii (n : Int) : Ascii (intText n) := by
  cases n with
  | ofNat n => exact natText_ascii n
  | negSucc n => exact List.forall_mem_cons.mpr ⟨by decide, natText_ascii (n + 1)⟩

section Shown

variable (floats : FloatTexts)

mutual

/-- The text of a value shows what its strings and keys hold. -/
theorem shows_dumps : ∀ v : Json, Shows v.chars (dumps floats v)
  | .null => .ascii (ascii_of_all rfl)
  | .bool true => .ascii (ascii_of_all rfl)
  | .bool false => .ascii (ascii_of_all rfl)
  | .int n => .ascii (intText_ascii n)
  | .float x => .ascii (floats.repr_ascii x)
  | .str s => shows_quoted s
  | .arr [] => .ascii (ascii_of_all rfl)
  | .arr (v :: items) =>
      .cons (by decide) ((shows_dumps v).append (shows_dumpsItems items))
  | .obj [] => .ascii (ascii_of_all rfl)
  | .obj ((k, v) :: fields) =>
      .cons (by decide) ((shows_quoted k).append
        (.cons (by decide) ((shows_dumps v).append (shows_dumpsFields fields))))

theorem shows_dumpsItems : ∀ items : List Json, Shows (itemsChars items) (dumpsItems floats items)
  | [] => .ascii (ascii_of_all rfl)
  | v :: items => .cons (by decide) ((shows_dumps v).append (shows_dumpsItems items))

theorem shows_dumpsFields : ∀ fields : List (PyStr × Json),
    Shows (fieldsChars fields) (dumpsFields floats fields)
  | [] => .ascii (ascii_of_all rfl)
  | (k, v) :: fields => .cons (by decide) ((shows_quoted k).append
      (.cons (by decide) ((shows_dumps v).append (shows_dumpsFields fields))))

end

end Shown

-- ============================================================================
-- Loading: strings
-- ============================================================================

/-- The value of a hexadecimal digit. -/
def hexVal (c : CodePoint) : Option Nat :=
  if 48 ≤ c.val ∧ c.val ≤ 57 then some (c.val - 48)
  else if 97 ≤ c.val ∧ c.val ≤ 102 then some (c.val - 87)
  else if 65 ≤ c.val ∧ c.val ≤ 70 then some (c.val - 55)
  else none

/-- What an escape of two characters stands for. -/
def unescapes : List (CodePoint × CodePoint) :=
  [(codePoint '"', codePoint '"'), (codePoint '\\', codePoint '\\'), (codePoint 'b', 0x8),
    (codePoint 't', 0x9), (codePoint 'n', 0xa), (codePoint 'f', 0xc), (codePoint 'r', 0xd),
    (codePoint '/', codePoint '/')]

/-- What a string is made of: characters, and escapes of four digits. -/
inductive StringUnit where
  | char (c : CodePoint)
  | utf16 (n : Nat)

/-- Where the scanner is: outside an escape, behind its backslash, or in its
    digits, of which `left` are to come after the next one. -/
inductive Scan where
  | plain
  | escaped
  | hex (left value : Nat)

/-- Put a unit before the others. -/
def StringUnit.before (u : StringUnit) (r : List StringUnit × PyStr) : List StringUnit × PyStr :=
  (u :: r.1, r.2)

/-- `scanstring`, up to the closing quote: a bare control character is refused. -/
def scan : Scan → PyStr → Option (List StringUnit × PyStr)
  | _, [] => none
  | .plain, c :: s =>
      if c = codePoint '"' then some ([], s)
      else if c = codePoint '\\' then scan .escaped s
      else if c.val < 0x20 then none
      else (scan .plain s).map (StringUnit.char c).before
  | .escaped, c :: s =>
      if c = codePoint 'u' then scan (.hex 3 0) s
      else match unescapes.lookup c with
        | none => none
        | some c' => (scan .plain s).map (StringUnit.char c').before
  | .hex left value, c :: s => match hexVal c, left with
      | none, _ => none
      | some d, 0 => (scan .plain s).map (StringUnit.utf16 (16 * value + d)).before
      | some d, left + 1 => scan (.hex left (16 * value + d)) s

def isHighSurrogate (n : Nat) : Bool := decide (0xd800 ≤ n ∧ n < 0xdc00)

def isLowSurrogate (n : Nat) : Bool := decide (0xdc00 ≤ n ∧ n < 0xe000)

/-- The characters of a string.  Two escapes that are a surrogate pair stand for
    one character, and a lone surrogate for itself. -/
def unitsText : List StringUnit → PyStr
  | [] => []
  | .char c :: us => c :: unitsText us
  | .utf16 n :: .utf16 m :: us =>
      if isHighSurrogate n && isLowSurrogate m then
        Fin.ofNat _ (0x10000 + 0x400 * (n - 0xd800) + (m - 0xdc00)) :: unitsText us
      else Fin.ofNat _ n :: unitsText (.utf16 m :: us)
  | .utf16 n :: us => Fin.ofNat _ n :: unitsText us

/-- A string, behind its opening quote. -/
def readString (s : PyStr) : Option (PyStr × PyStr) :=
  (scan .plain s).map fun r => (unitsText r.1, r.2)

-- ============================================================================
-- Loading: numbers
-- ============================================================================

def isDigit (c : CodePoint) : Bool := decide (48 ≤ c.val ∧ c.val ≤ 57)

/-- The value of decimal digits. -/
def natValue (digits : PyStr) : Nat := digits.foldl (fun n c => 10 * n + (c.val - 48)) 0

/-- The integer part of a number: zero, or digits that do not start with zero. -/
def readDigits : PyStr → Option (PyStr × PyStr)
  | [] => none
  | c :: s =>
      if c = codePoint '0' then some ([c], s)
      else if isDigit c then some ((c :: s).takeWhile isDigit, (c :: s).dropWhile isDigit)
      else none

/-- The fraction of a number, if there is one. -/
def readFraction : PyStr → PyStr × PyStr
  | c :: d :: s =>
      if c = codePoint '.' ∧ isDigit d then
        (c :: (d :: s).takeWhile isDigit, (d :: s).dropWhile isDigit)
      else ([], c :: d :: s)
  | s => ([], s)

/-- The digits of an exponent behind its mark and its sign; without a digit there
    is no exponent. -/
def exponentDigits (mark s whole : PyStr) : PyStr × PyStr :=
  if (s.takeWhile isDigit).isEmpty then ([], whole)
  else (mark ++ s.takeWhile isDigit, s.dropWhile isDigit)

/-- The exponent of a number, if there is one. -/
def readExponent : PyStr → PyStr × PyStr
  | [] => ([], [])
  | c :: s =>
      if c = codePoint 'e' ∨ c = codePoint 'E' then match s with
        | [] => ([], [c])
        | d :: s' =>
            if d = codePoint '+' ∨ d = codePoint '-' then exponentDigits [c, d] s' (c :: s)
            else exponentDigits [c] s (c :: s)
      else ([], c :: s)

-- ============================================================================
-- Loading: values
-- ============================================================================

/-- The words the decoder knows. -/
def literals : List (PyStr × Json) :=
  [(py "null", .null), (py "true", .bool true), (py "false", .bool false),
    (py "NaN", .float 0x7ff8000000000000), (py "Infinity", .float 0x7ff0000000000000),
    (py "-Infinity", .float 0xfff0000000000000)]

def readLiteral (s : PyStr) : Option (Json × PyStr) :=
  literals.findSome? fun l => (l.1.isPrefixOf? s).map fun rest => (l.2, rest)

/-- White space of JSON. -/
def isWs (c : CodePoint) : Bool := [0x20, 0x9, 0xa, 0xd].contains c.val

def skipWs (s : PyStr) : PyStr := s.dropWhile isWs

/-- The dictionary of entries read in order: the last one of a key counts, in the
    place of the first. -/
def ofEntries (entries : List (PyStr × Json)) : Json :=
  .obj (entries.foldl (fun d e => setField e.1 e.2 d) [])

section Loads

variable (floats : FloatTexts)

/-- A number behind its sign. -/
def readUnsigned (sign : PyStr) (s : PyStr) : Option (Json × PyStr) := do
  let (whole, s₁) ← readDigits s
  let (fraction, s₂) := readFraction s₁
  let (exponent, s₃) := readExponent s₂
  if fraction.isEmpty && exponent.isEmpty then
    return (.int (if sign.isEmpty then natValue whole else -natValue whole), s₃)
  else return (.float (floats.value (sign ++ whole ++ fraction ++ exponent)), s₃)

def readNumber : PyStr → Option (Json × PyStr)
  | [] => none
  | c :: s =>
      if c = codePoint '-' then readUnsigned floats [c] s else readUnsigned floats [] (c :: s)

mutual

/-- One value at the start of a text, and the rest. -/
def readValue : (fuel : Nat) → PyStr → Option (Json × PyStr)
  | 0, _ => none
  | _, [] => none
  | n + 1, c :: s =>
      if c = codePoint '"' then (readString s).map fun r => (.str r.1, r.2)
      else if c = codePoint '[' then match skipWs s with
        | [] => none
        | d :: s' =>
            if d = codePoint ']' then some (.arr [], s')
            else do
              let (v, s₁) ← readValue n (d :: s')
              let (items, s₂) ← readItems n s₁
              return (.arr (v :: items), s₂)
      else if c = codePoint '\x7b' then match skipWs s with
        | [] => none
        | d :: s' =>
            if d = codePoint '\x7d' then some (.obj [], s')
            else do
              let (e, s₁) ← readEntry n (d :: s')
              let (entries, s₂) ← readEntries n s₁
              return (ofEntries (e :: entries), s₂)
      else (readLiteral (c :: s)).or (readNumber floats (c :: s))

/-- The further items of an array, up to its end. -/
def readItems : (fuel : Nat) → PyStr → Option (List Json × PyStr)
  | 0, _ => none
  | n + 1, s => match skipWs s with
      | [] => none
      | c :: s' =>
          if c = codePoint ']' then some ([], s')
          else if c = codePoint ',' then do
            let (v, s₁) ← readValue n (skipWs s')
            let (items, s₂) ← readItems n s₁
            return (v :: items, s₂)
          else none

/-- An entry of an object. -/
def readEntry : (fuel : Nat) → PyStr → Option ((PyStr × Json) × PyStr)
  | 0, _ => none
  | _, [] => none
  | n + 1, c :: s =>
      if c = codePoint '"' then do
        let (k, s₁) ← readString s
        match skipWs s₁ with
        | [] => none
        | d :: s₂ =>
            if d = codePoint ':' then do
              let (v, s₃) ← readValue n (skipWs s₂)
              return ((k, v), s₃)
            else none
      else none

/-- The further entries of an object, up to its end. -/
def readEntries : (fuel : Nat) → PyStr → Option (List (PyStr × Json) × PyStr)
  | 0, _ => none
  | n + 1, s => match skipWs s with
      | [] => none
      | c :: s' =>
          if c = codePoint '\x7d' then some ([], s')
          else if c = codePoint ',' then do
            let (e, s₁) ← readEntry n (skipWs s')
            let (entries, s₂) ← readEntries n s₁
            return (e :: entries, s₂)
          else none

end

/-- `json.loads`.  Every nested call starts behind a mark, so the fuel lasts
    (`loads_eq`). -/
def loads (s : PyStr) : Option Json := do
  let (v, rest) ← readValue floats (s.length + 1) (skipWs s)
  if (skipWs rest).isEmpty then return v else none

end Loads

-- ============================================================================
-- Loading a dumped string
-- ============================================================================

theorem hexVal_digit : ∀ d < 16, hexVal (digit d) = some d := by decide

/-- The decoder knows the escapes of the encoder. -/
theorem unescapes_shortEscapes :
    ∀ e ∈ shortEscapes, e.2 ≠ codePoint 'u' ∧ unescapes.lookup e.2 = some e.1 := by
  intro e he
  simp only [shortEscapes, List.mem_cons, List.not_mem_nil, or_false] at he
  rcases he with rfl | rfl | rfl | rfl | rfl | rfl | rfl <;> exact ⟨by simp, rfl⟩

/-- How the scanner reads what the encoder wrote for a character. -/
def unitOf (c : CodePoint) : StringUnit :=
  if shortEscapes.lookup c = none ∧ c.val < 0x20 then .utf16 c.val else .char c

theorem scan_escape (c : CodePoint) (s : PyStr) :
    scan .plain (escape c ++ s) = (scan .plain s).map (unitOf c).before := by
  have hslash : codePoint '\\' ≠ codePoint '"' := by decide
  unfold escape unitOf
  cases hshort : shortEscapes.lookup c with
  | some e =>
      obtain ⟨pre, post, hsplit, -⟩ := List.lookup_eq_some_iff.mp hshort
      obtain ⟨hu, he⟩ := unescapes_shortEscapes (c, e) (by rw [hsplit]; simp)
      have hchar : ¬ (some e = none ∧ c.val < 0x20) := by simp
      rw [if_neg hchar]
      simp only [List.cons_append, List.nil_append, scan, if_neg hslash, if_true, if_neg hu, he]
  | none =>
      by_cases hcontrol : c.val < 0x20
      · have hhigh := hexVal_digit (c.val / 16) (by omega)
        have hlow := hexVal_digit (c.val % 16) (by omega)
        have hzero := hexVal_digit 0 (by omega)
        have hvalue : 16 * (16 * (16 * (16 * 0 + 0) + 0) + c.val / 16) + c.val % 16 = c.val := by
          omega
        rw [if_pos hcontrol, if_pos ⟨rfl, hcontrol⟩]
        simp only [List.cons_append, List.nil_append, scan, if_neg hslash, if_true, hzero, hhigh,
          hlow, hvalue]
      · have hquote : c ≠ codePoint '"' := by
          rintro rfl
          cases hshort
        have hback : c ≠ codePoint '\\' := by
          rintro rfl
          cases hshort
        rw [if_neg hcontrol, if_neg (fun h => hcontrol h.2)]
        simp only [List.cons_append, List.nil_append, scan, if_neg hquote, if_neg hback,
          if_neg hcontrol]

theorem scan_flatMap_escape (s rest : PyStr) :
    scan .plain (s.flatMap escape ++ codePoint '"' :: rest) = some (s.map unitOf, rest) := by
  induction s with
  | nil => simp [scan]
  | cons c s ih =>
      rw [List.flatMap_cons, List.append_assoc, scan_escape, ih]
      rfl

theorem unitsText_utf16 {n : Nat} (h : n < 0x20) (us : List StringUnit) :
    unitsText (.utf16 n :: us) = Fin.ofNat _ n :: unitsText us := by
  have hhigh : isHighSurrogate n = false := by
    rw [isHighSurrogate, decide_eq_false_iff_not]
    omega
  cases us with
  | nil => rfl
  | cons u us => cases u <;> simp [unitsText, hhigh]

theorem unitsText_unitOf (s : PyStr) : unitsText (s.map unitOf) = s := by
  induction s with
  | nil => rfl
  | cons c s ih =>
      rw [List.map_cons, unitOf]
      split
      · next h => rw [unitsText_utf16 h.2, ih, Fin.ofNat_val_eq_self]
      · rw [unitsText, ih]

/-- A quoted string is read back. -/
theorem readString_quoted (s rest : PyStr) :
    readString (s.flatMap escape ++ codePoint '"' :: rest) = some (s, rest) := by
  rw [readString, scan_flatMap_escape]
  exact congrArg (fun t => some (t, rest)) (unitsText_unitOf s)

-- ============================================================================
-- Loading a dumped number
-- ============================================================================

theorem digit_val {d : Nat} (h : d < 10) : (digit d).val = 48 + d := by
  rw [digit, if_pos h]
  exact Nat.mod_eq_of_lt (by omega)

theorem isDigit_digit {d : Nat} (h : d < 10) : isDigit (digit d) = true := by
  rw [isDigit, digit_val h, decide_eq_true_eq]
  omega

theorem digit_ne_zero {d : Nat} (h : d < 10) (hd : d ≠ 0) : digit d ≠ codePoint '0' := by
  intro heq
  have hval := congrArg Fin.val heq
  rw [digit_val h] at hval
  have hzero : (codePoint '0').val = 48 := rfl
  omega

/-- A digit of the decimal text of a number. -/
theorem isDigit_natText {n : Nat} {c : CodePoint} (h : c ∈ natText n) : isDigit c = true := by
  unfold natText at h
  split at h
  · rw [List.mem_singleton.mp h]
    exact isDigit_digit (by omega)
  · obtain ⟨d, hd, rfl⟩ := List.mem_map.mp h
    exact isDigit_digit (Nat.digits_lt_base (by omega) (List.mem_reverse.mp hd))

theorem natValue_digits {ds : List Nat} (h : ∀ d ∈ ds, d < 10) :
    natValue (ds.reverse.map digit) = Nat.ofDigits 10 ds := by
  induction ds with
  | nil => rfl
  | cons d ds ih =>
      have hd := digit_val (h d List.mem_cons_self)
      have hrest := ih fun e he => h e (List.mem_cons_of_mem _ he)
      unfold natValue at hrest ⊢
      rw [List.reverse_cons, List.map_append, List.foldl_append, hrest, Nat.ofDigits_cons]
      show 10 * Nat.ofDigits 10 ds + ((digit d).val - 48) = _
      rw [hd]
      omega

/-- The text of a number has its value. -/
theorem natValue_natText (n : Nat) : natValue (natText n) = n := by
  unfold natText
  split
  · next hzero => rw [hzero]; rfl
  · rw [natValue_digits fun d hd => Nat.digits_lt_base (by omega) hd, Nat.ofDigits_digits]

/-- The rest of a text at which a number ends. -/
def Stops (rest : PyStr) : Prop :=
  ∀ c, rest.head? = some c → isDigit c = false ∧ c ≠ codePoint '.' ∧ c ≠ codePoint 'e' ∧
    c ≠ codePoint 'E'

theorem Stops.digit {rest : PyStr} (h : Stops rest) :
    ∀ c, rest.head? = some c → isDigit c = false := fun c hc => (h c hc).1

theorem stops_nil : Stops [] := by
  intro c hc
  cases hc

theorem stops_of_mem {c : CodePoint} (rest : PyStr)
    (h : c ∈ [codePoint ',', codePoint ']', codePoint '\x7d']) : Stops (c :: rest) := by
  intro c' hc
  rw [List.head?_cons, Option.some.injEq] at hc
  subst hc
  simp only [List.mem_cons, List.not_mem_nil, or_false] at h
  rcases h with rfl | rfl | rfl <;> exact ⟨rfl, by simp, by simp, by simp⟩

theorem readDigits_natText (n : Nat) : readDigits (natText n) = some (natText n, []) := by
  have htake : (natText n).takeWhile isDigit = natText n :=
    List.takeWhile_eq_self_iff.mpr fun c => isDigit_natText
  have hdrop : (natText n).dropWhile isDigit = [] :=
    List.dropWhile_eq_nil_iff.mpr fun c => isDigit_natText
  by_cases hn : n = 0
  · rw [hn]
    rfl
  · -- the first digit is the last one of `Nat.digits`, which is not zero
    have hne : Nat.digits 10 n ≠ [] := Nat.digits_ne_nil_iff_ne_zero.mpr hn
    have hlast : (Nat.digits 10 n).getLast hne < 10 :=
      Nat.digits_lt_base (by omega) (List.getLast_mem hne)
    obtain ⟨ds, hds⟩ : ∃ ds, natText n = digit ((Nat.digits 10 n).getLast hne) :: ds := by
      rw [natText, if_neg hn]
      refine ⟨(Nat.digits 10 n).dropLast.reverse.map digit, ?_⟩
      rw [← List.map_cons, ← List.reverse_concat, List.dropLast_concat_getLast hne]
    rw [hds] at htake hdrop ⊢
    rw [readDigits, if_neg (digit_ne_zero hlast (Nat.getLast_digit_ne_zero 10 hn)),
      if_pos (isDigit_digit hlast), htake, hdrop]

section RoundTrip

variable {floats : FloatTexts}

/-- Behind the digits there is no fraction and no exponent. -/
theorem readUnsigned_natText (sign : PyStr) (n : Nat) :
    readUnsigned floats sign (natText n)
      = some (.int (if sign.isEmpty then n else -n), []) := by
  rw [readUnsigned, readDigits_natText]
  simp only [Option.bind_eq_bind, Option.bind_some, readFraction, readExponent, natValue_natText]
  rfl

theorem natText_eq_cons (n : Nat) : ∃ c s, natText n = c :: s ∧ isDigit c = true := by
  cases h : natText n with
  | nil =>
      have hne : natText n ≠ [] := by
        unfold natText
        split
        · simp
        · next hn => simpa [Nat.digits_eq_nil_iff_eq_zero] using hn
      exact absurd h hne
  | cons c s => exact ⟨c, s, rfl, isDigit_natText (h ▸ List.mem_cons_self)⟩

/-- A digit starts no word and is none of the marks. -/
theorem ne_of_isDigit {c : CodePoint} {a : Char} (h : isDigit c = true)
    (ha : isDigit (codePoint a) = false) : c ≠ codePoint a := by
  rintro rfl
  rw [ha] at h
  cases h

theorem readNumber_intText (n : Int) : readNumber floats (intText n) = some (.int n, []) := by
  cases n with
  | ofNat n =>
      obtain ⟨c, s, htext, hc⟩ := natText_eq_cons n
      have hread := @readUnsigned_natText floats [] n
      rw [intText, htext] at *
      rw [readNumber, if_neg (ne_of_isDigit hc rfl), hread]
      rfl
  | negSucc n =>
      rw [intText, readNumber, if_pos rfl, readUnsigned_natText]
      rfl

-- ============================================================================
-- Numbers in front of other text
-- ============================================================================

/-- The digits at the start of a text are those in front of where they end. -/
theorem isDigit_append (l : PyStr) {rest : PyStr}
    (hrest : ∀ c, rest.head? = some c → isDigit c = false) :
    (l ++ rest).takeWhile isDigit = l.takeWhile isDigit ∧
      (l ++ rest).dropWhile isDigit = l.dropWhile isDigit ++ rest := by
  induction l with
  | nil =>
      cases rest with
      | nil => exact ⟨rfl, rfl⟩
      | cons c rest =>
          rw [List.nil_append, List.takeWhile_cons, List.dropWhile_cons, hrest c rfl]
          exact ⟨rfl, rfl⟩
  | cons c l ih =>
      rw [List.cons_append, List.takeWhile_cons, List.takeWhile_cons, List.dropWhile_cons,
        List.dropWhile_cons]
      cases isDigit c with
      | true => exact ⟨congrArg (c :: ·) ih.1, ih.2⟩
      | false => exact ⟨rfl, rfl⟩

theorem readDigits_append {s whole s₁ rest : PyStr} (h : readDigits s = some (whole, s₁))
    (hrest : ∀ c, rest.head? = some c → isDigit c = false) :
    readDigits (s ++ rest) = some (whole, s₁ ++ rest) := by
  cases s with
  | nil => cases h
  | cons c s =>
      have happend := isDigit_append (c :: s) hrest
      rw [List.cons_append] at happend ⊢
      rw [readDigits] at h ⊢
      rw [happend.1, happend.2]
      split at h
      · next hzero =>
          cases h
          rw [if_pos hzero]
      · next hzero =>
          rw [if_neg hzero]
          split at h
          · next hdigit =>
              cases h
              rw [if_pos hdigit]
          · cases h

theorem readFraction_append (s : PyStr) {rest : PyStr} (hrest : Stops rest) :
    readFraction (s ++ rest) = ((readFraction s).1, (readFraction s).2 ++ rest) := by
  match s with
  | [] =>
      match rest with
      | [] | [_] => rfl
      | c :: d :: rest => exact if_neg fun h => (hrest c rfl).2.1 h.1
  | [c] =>
      cases rest with
      | nil => rfl
      | cons d rest =>
          have hdigit := (hrest d rfl).1
          exact if_neg fun h => by simp [hdigit] at h
  | c :: d :: s =>
      have happend := isDigit_append (d :: s) hrest.digit
      rw [List.cons_append] at happend
      rw [List.cons_append, List.cons_append, readFraction, readFraction, happend.1, happend.2]
      split <;> rfl

theorem exponentDigits_append {mark s whole ex rest : PyStr} (hwhole : whole ≠ [])
    (h : exponentDigits mark s whole = (ex, [])) (hrest : Stops rest) :
    exponentDigits mark (s ++ rest) (whole ++ rest) = (ex, rest) := by
  obtain ⟨htake, hdrop⟩ := isDigit_append s hrest.digit
  unfold exponentDigits at h ⊢
  rw [htake, hdrop]
  split at h
  · exact absurd (Prod.mk.inj h).2 hwhole
  · next hsome =>
      obtain ⟨hex, hs⟩ := Prod.mk.inj h
      rw [if_neg hsome, hs, hex, List.nil_append]

/-- An exponent that takes all of a text takes as much in front of `rest`. -/
theorem readExponent_append {s ex rest : PyStr} (h : readExponent s = (ex, []))
    (hrest : Stops rest) : readExponent (s ++ rest) = (ex, rest) := by
  match s with
  | [] =>
      have hex : [] = ex := (Prod.mk.inj h).1
      rw [← hex, List.nil_append]
      cases rest with
      | nil => rfl
      | cons c rest =>
          obtain ⟨-, -, he, hE⟩ := hrest c rfl
          exact if_neg fun h => h.elim he hE
  | [c] =>
      rw [readExponent] at h
      split at h <;> exact absurd (Prod.mk.inj h).2 (List.cons_ne_nil _ _)
  | c :: d :: s =>
      rw [List.cons_append, List.cons_append]
      rw [readExponent] at h ⊢
      split at h
      · next hmark =>
          rw [if_pos hmark]
          split at h
          · next hsign =>
              rw [if_pos hsign]
              exact exponentDigits_append (List.cons_ne_nil _ _) h hrest
          · next hsign =>
              rw [if_neg hsign]
              exact exponentDigits_append (s := d :: s) (List.cons_ne_nil _ _) h hrest
      · exact absurd (Prod.mk.inj h).2 (List.cons_ne_nil _ _)

/-- A number that takes all of a text takes as much in front of `rest`. -/
theorem readUnsigned_append {sign s rest : PyStr} {v : Json}
    (h : readUnsigned floats sign s = some (v, [])) (hrest : Stops rest) :
    readUnsigned floats sign (s ++ rest) = some (v, rest) := by
  obtain ⟨⟨whole, s₁⟩, hwhole, h⟩ := Option.bind_eq_some_iff.mp h
  have hs₃ : (readExponent (readFraction s₁).2).2 = [] := by
    dsimp only at h
    split at h <;> exact congrArg Prod.snd (Option.some.inj h)
  have hexponent : readExponent ((readFraction s₁).2 ++ rest)
      = ((readExponent (readFraction s₁).2).1, rest) :=
    readExponent_append (Prod.ext rfl hs₃) hrest
  rw [readUnsigned, readDigits_append hwhole hrest.digit]
  simp only [Option.bind_eq_bind, Option.bind_some, readFraction_append s₁ hrest, hexponent]
  dsimp only at h
  split at h
  · next hplain =>
      rw [if_pos hplain]
      rw [← (Prod.mk.inj (Option.some.inj h)).1]
      rfl
  · next hplain =>
      rw [if_neg hplain]
      rw [← (Prod.mk.inj (Option.some.inj h)).1]
      rfl

theorem readNumber_append {s rest : PyStr} {v : Json} (h : readNumber floats s = some (v, []))
    (hrest : Stops rest) : readNumber floats (s ++ rest) = some (v, rest) := by
  cases s with
  | nil => cases h
  | cons c s =>
      rw [List.cons_append]
      rw [readNumber] at h ⊢
      split at h
      · next hsign =>
          rw [if_pos hsign]
          exact readUnsigned_append h hrest
      · next hsign =>
          rw [if_neg hsign]
          exact readUnsigned_append (s := c :: s) h hrest

-- ============================================================================
-- Loading values
-- ============================================================================

/-- A value without floats whose objects have distinct keys, as dictionaries do. -/
inductive Plain : Json → Prop where
  | null : Plain .null
  | bool (b : Bool) : Plain (.bool b)
  | int (n : Int) : Plain (.int n)
  | str (s : PyStr) : Plain (.str s)
  | arr {items : List Json} (hitems : ∀ v ∈ items, Plain v) : Plain (.arr items)
  | obj {fields : List (PyStr × Json)} (hkeys : (fields.map Prod.fst).Nodup)
      (hfields : ∀ e ∈ fields, Plain e.2) : Plain (.obj fields)

/-- Entries of distinct keys are the dictionary they make. -/
theorem ofEntries_of_nodup {fields : List (PyStr × Json)} (h : (fields.map Prod.fst).Nodup) :
    ofEntries fields = .obj fields := by
  have hset : ∀ {k : PyStr} {v : Json} {d : List (PyStr × Json)}, k ∉ d.map Prod.fst →
      setField k v d = d ++ [(k, v)] := by
    intro k v d hk
    induction d with
    | nil => rfl
    | cons e d ih =>
        rw [List.map_cons, List.mem_cons, not_or] at hk
        rw [setField, if_neg (Ne.symm hk.1), ih hk.2, List.cons_append]
  have hfold : ∀ done : List (PyStr × Json), ((done ++ fields).map Prod.fst).Nodup →
      fields.foldl (fun d e => setField e.1 e.2 d) done = done ++ fields := by
    clear h
    induction fields with
    | nil => exact fun done _ => (List.append_nil done).symm
    | cons e fields ih =>
        intro done hnodup
        have hnew : e.1 ∉ done.map Prod.fst := by
          rw [List.map_append, List.nodup_append] at hnodup
          exact fun hin => hnodup.2.2 _ hin _ (by simp) rfl
        rw [List.foldl_cons, hset hnew, ih (done ++ [e]) (by simpa using hnodup)]
        simp
  exact congrArg Json.obj (hfold [] h)

theorem skipWs_of_not_ws {c : CodePoint} {s : PyStr} (h : isWs c = false) :
    skipWs (c :: s) = c :: s := by
  rw [skipWs, List.dropWhile_cons, h]
  rfl

theorem isWs_digit {c : CodePoint} (h : isDigit c = true) : isWs c = false := by
  rw [isDigit, decide_eq_true_eq] at h
  simp [isWs]
  omega

/-- What starts with no mark is a word or a number. -/
theorem readValue_word (n : Nat) {c : CodePoint} (s : PyStr) (hquote : c ≠ codePoint '"')
    (harray : c ≠ codePoint '[') (hobject : c ≠ codePoint '\x7b') :
    readValue floats (n + 1) (c :: s)
      = (readLiteral (c :: s)).or (readNumber floats (c :: s)) := by
  rw [readValue, if_neg hquote, if_neg harray, if_neg hobject]

end RoundTrip

end Json

end MasterAgent
