/-
  MasterAgent.Python.Utf8

  `str.encode("utf-8")`.  A surrogate is a code point without an encoding: a text
  that holds one is refused, and any other text has the bytes of its characters,
  from which a reader decodes it.
-/

import MasterAgent.Python.JsonText

namespace MasterAgent

/-- Half of a pair in UTF-16, and no character. -/
def isSurrogate (c : CodePoint) : Bool := decide (0xd800 ≤ c.val ∧ c.val < 0xe000)

/-- `s.encode("utf-8")`; a `UnicodeEncodeError` is a `ValueError`. -/
def encodeUtf8 : PyStr → Except Exn (List UInt8)
  | [] => .ok []
  | c :: s =>
      if isSurrogate c then .error .valueError
      else (encodeUtf8 s).map (String.utf8EncodeChar (Char.ofNat c.val) ++ ·)

/-- A text of characters: no surrogate is in it. -/
def Scalars (s : PyStr) : Prop := ∀ c ∈ s, isSurrogate c = false

instance (s : PyStr) : Decidable (Scalars s) :=
  inferInstanceAs (Decidable (∀ c ∈ s, isSurrogate c = false))

theorem isSurrogate_codePoint (c : Char) : isSurrogate (codePoint c) = false := by
  have hval : (codePoint c).val = c.toNat := rfl
  rw [isSurrogate, decide_eq_false_iff_not, hval]
  rcases c.valid with h | ⟨h, -⟩
  · have hlt : c.toNat < 0xd800 := h
    omega
  · have hlt : 0xdfff < c.toNat := h
    omega

theorem isSurrogate_ascii {c : CodePoint} (h : c.val < 0x80) : isSurrogate c = false := by
  rw [isSurrogate, decide_eq_false_iff_not]
  omega

/-- A literal of the source is a text of characters. -/
theorem scalars_py (s : String) : Scalars (py s) := by
  intro c hc
  obtain ⟨ch, -, rfl⟩ := List.mem_map.mp hc
  exact isSurrogate_codePoint ch

theorem scalars_append {s t : PyStr} : Scalars (s ++ t) ↔ Scalars s ∧ Scalars t :=
  List.forall_mem_append

/-- The text of a value holds the surrogates of the value, and no others. -/
theorem Json.Shows.scalars {l text : PyStr} (h : Json.Shows l text) :
    Scalars text ↔ Scalars l := by
  constructor
  · intro hs c hc
    rcases Nat.lt_or_ge c.val 0x80 with hlow | hhigh
    · exact isSurrogate_ascii hlow
    · exact hs c (h.complete c hc hhigh)
  · intro hs c hc
    rcases Nat.lt_or_ge c.val 0x80 with hlow | hhigh
    · exact isSurrogate_ascii hlow
    · exact hs c (h.known c hc hhigh)

/-- Exactly the texts of characters can be encoded. -/
theorem encodeUtf8_ok {s : PyStr} : (∃ bytes, encodeUtf8 s = .ok bytes) ↔ Scalars s := by
  induction s with
  | nil => exact ⟨fun _ => List.forall_mem_nil _, fun _ => ⟨[], rfl⟩⟩
  | cons c s ih =>
      have hcons : Scalars (c :: s) ↔ isSurrogate c = false ∧ Scalars s := List.forall_mem_cons
      rw [hcons, ← ih]
      cases hc : isSurrogate c with
      | true => simp [encodeUtf8, hc]
      | false =>
          cases hs : encodeUtf8 s <;> simp [encodeUtf8, hc, hs, Except.map]

/-- What a reader makes of bytes, if they are UTF-8. -/
def decodeUtf8 (bytes : List UInt8) : Option PyStr :=
  bytes.toByteArray.utf8Decode?.map fun cs => cs.toList.map codePoint

/-- No surrogate is a character. -/
theorem codePoint_ofNat {c : CodePoint} (h : isSurrogate c = false) :
    codePoint (Char.ofNat c.val) = c := by
  have hvalid : c.val.isValidChar := by
    rw [isSurrogate, decide_eq_false_iff_not] at h
    have hlt := c.isLt
    unfold Nat.isValidChar
    omega
  apply Fin.ext
  show (Char.ofNat c.val).toNat = c.val
  rw [Char.ofNat, dif_pos hvalid]
  rfl

/-- The bytes of a text are those of its characters. -/
theorem encodeUtf8_eq_ok {s : PyStr} {bytes : List UInt8} (h : encodeUtf8 s = .ok bytes) :
    ∃ cs : List Char, cs.map codePoint = s ∧ bytes = cs.flatMap String.utf8EncodeChar := by
  induction s generalizing bytes with
  | nil =>
      cases h
      exact ⟨[], rfl, rfl⟩
  | cons c s ih =>
      cases hc : isSurrogate c with
      | true => simp [encodeUtf8, hc] at h
      | false =>
          cases hs : encodeUtf8 s with
          | error e => simp [encodeUtf8, hc, hs, Except.map] at h
          | ok rest =>
              obtain ⟨cs, rfl, rfl⟩ := ih hs
              simp only [encodeUtf8, hc, hs, Except.map, Bool.false_eq_true, if_false,
                Except.ok.injEq] at h
              refine ⟨Char.ofNat c.val :: cs, ?_, ?_⟩
              · rw [List.map_cons, codePoint_ofNat hc]
              · rw [← h, List.flatMap_cons]

/-- What is encoded is decoded. -/
theorem decodeUtf8_encodeUtf8 {s : PyStr} {bytes : List UInt8} (h : encodeUtf8 s = .ok bytes) :
    decodeUtf8 bytes = some s := by
  obtain ⟨cs, rfl, rfl⟩ := encodeUtf8_eq_ok h
  have hdecode : (cs.flatMap String.utf8EncodeChar).toByteArray.utf8Decode? = some cs.toArray :=
    List.utf8Decode?_utf8Encode
  rw [decodeUtf8, hdecode]
  simp

/-- The bytes of two texts after each other are those of the text they make. -/
theorem encodeUtf8_append {s t : PyStr} {bytes bytes' : List UInt8}
    (hs : encodeUtf8 s = .ok bytes) (ht : encodeUtf8 t = .ok bytes') :
    encodeUtf8 (s ++ t) = .ok (bytes ++ bytes') := by
  induction s generalizing bytes with
  | nil =>
      cases hs
      exact ht
  | cons c s ih =>
      cases hc : isSurrogate c with
      | true => simp [encodeUtf8, hc] at hs
      | false =>
          cases hrest : encodeUtf8 s with
          | error e => simp [encodeUtf8, hc, hrest, Except.map] at hs
          | ok rest =>
              simp only [encodeUtf8, hc, hrest, Except.map, Bool.false_eq_true, if_false,
                Except.ok.injEq] at hs
              rw [List.cons_append, encodeUtf8, hc, ih hrest, ← hs, List.append_assoc]
              rfl

end MasterAgent
