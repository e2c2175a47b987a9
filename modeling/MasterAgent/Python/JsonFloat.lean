/-
  MasterAgent.Python.JsonFloat

  Floats in JSON.  What is written for a number is read as that number.  There are
  words for NaN and for the infinities, and every NaN is read as the one of the
  `json` module.

  `loads_dumps_documented`: every value is read back, but for which NaN it holds and
  for keys that stand twice in an object, as they do in no dictionary.
-/

import MasterAgent.Python.DictKey
import MasterAgent.Python.JsonStyle

namespace MasterAgent

namespace Json

/-- What is documented of the texts of floats: `float` inverts `repr`, whose text is
    a number with a fraction or an exponent, and there is a word for each of the
    others. -/
structure FloatTexts.Documented (floats : FloatTexts) : Prop where
  number : ∀ x, PyFloat.exponent x ≠ 2047 →
    readNumber floats (floats.repr x) = some (.float x, [])
  nan : ∀ x, PyFloat.isNaN x = true → floats.repr x = py "NaN"
  infinity : floats.repr 0x7ff0000000000000 = py "Infinity"
  negInfinity : floats.repr 0xfff0000000000000 = py "-Infinity"

/-- The float that is read where `x` was written. -/
def floatBack (x : PyFloat) : PyFloat := if PyFloat.isNaN x then 0x7ff8000000000000 else x

/-- What is read where a value was written. -/
abbrev reread (v : Json) : Json := v.readBack floatBack

/-- A float whose exponent is all ones is a NaN or an infinity. -/
theorem infinity_of_exponent {x : PyFloat} (hexp : PyFloat.exponent x = 2047)
    (hnan : PyFloat.isNaN x = false) : x = 0x7ff0000000000000 ∨ x = 0xfff0000000000000 := by
  have hfraction : PyFloat.fraction x = 0 := by
    rw [PyFloat.isNaN, hexp] at hnan
    simpa using hnan
  have hlt := x.isLt
  unfold PyFloat.exponent at hexp
  unfold PyFloat.fraction at hfraction
  have hbits : x.toNat = 0x7ff0000000000000 ∨ x.toNat = 0xfff0000000000000 := by omega
  exact hbits.imp (fun h => BitVec.eq_of_toNat_eq h) (fun h => BitVec.eq_of_toNat_eq h)

section Documented

variable {floats : FloatTexts}

theorem FloatTexts.Documented.loadable (h : floats.Documented) (x : PyFloat) :
    Loadable floats (fun _ => True) floatBack (.float x) := by
  by_cases hnan : PyFloat.isNaN x = true
  · refine .word ?_
    rw [h.nan x hnan, floatBack, if_pos hnan]
    simp [literals]
  · have hback : floatBack x = x := if_neg hnan
    by_cases hexp : PyFloat.exponent x = 2047
    · refine .word ?_
      rw [hback]
      rcases infinity_of_exponent hexp (Bool.eq_false_iff.mpr hnan) with rfl | rfl
      · rw [h.infinity]
        simp [literals]
      · rw [h.negInfinity]
        simp [literals]
    · refine .number ?_
      rw [hback]
      exact h.number x hexp

mutual

theorem loadable_documented (h : floats.Documented) :
    ∀ v : Json, Loadable floats (fun _ => True) floatBack v
  | .null => .null
  | .bool b => .bool b
  | .int n => .int n
  | .float x => h.loadable x
  | .str _ => .str trivial
  | .arr items => .arr (loadable_items h items)
  | .obj fields => .obj (fun _ _ => trivial) (loadable_fields h fields)

theorem loadable_items (h : floats.Documented) :
    ∀ items : List Json, ∀ v ∈ items, Loadable floats (fun _ => True) floatBack v
  | [] => List.forall_mem_nil _
  | v :: items => List.forall_mem_cons.mpr ⟨loadable_documented h v, loadable_items h items⟩

theorem loadable_fields (h : floats.Documented) :
    ∀ fields : List (PyStr × Json), ∀ e ∈ fields,
      Loadable floats (fun _ => True) floatBack e.2
  | [] => List.forall_mem_nil _
  | (_, v) :: fields =>
      List.forall_mem_cons.mpr ⟨loadable_documented h v, loadable_fields h fields⟩

end

/-- Loading inverts compact dumping, but for which NaN a value holds and for keys
    that stand twice. -/
theorem loads_dumps_documented (h : floats.Documented) (v : Json) :
    loads floats (dumps floats v) = some v.reread := by
  rw [← dumps_compact]
  exact Style.loads_dumps_readBack readable_compact (loadable_documented h v)

end Documented

-- ============================================================================
-- Texts as they are documented
-- ============================================================================

/-- Texts of floats that show the bits of a number as a decimal.  Like `repr` they
    write `0.0` for zero. -/
def bitTexts : FloatTexts where
  repr := fun x =>
    if PyFloat.isNaN x then py "NaN"
    else if x = 0x7ff0000000000000 then py "Infinity"
    else if x = 0xfff0000000000000 then py "-Infinity"
    else natText x.toNat ++ py ".0"
  value := fun s => BitVec.ofNat 64 (natValue (s.takeWhile isDigit))
  repr_ascii := fun x => by
    have hfraction : Ascii (py ".0") := ascii_of_all rfl
    split
    · exact ascii_of_all rfl
    · split
      · exact ascii_of_all rfl
      · split
        · exact ascii_of_all rfl
        · exact fun d hd => (List.mem_append.mp hd).elim (natText_ascii x.toNat d) (hfraction d)

theorem readNumber_bits (n : Nat) : readNumber bitTexts (natText n ++ py ".0")
    = some (.float (BitVec.ofNat 64 n), []) := by
  have hdot : ∀ c, (py ".0").head? = some c → isDigit c = false := by
    intro c hc
    cases hc
    rfl
  have hdigits := readDigits_append (readDigits_natText n) hdot
  have htake : (natText n ++ py ".0").takeWhile isDigit = natText n := by
    rw [(isDigit_append (natText n) hdot).1, List.takeWhile_eq_self_iff]
    exact fun c => isDigit_natText
  have hvalue : bitTexts.value (natText n ++ py ".0") = BitVec.ofNat 64 n := by
    show BitVec.ofNat 64 (natValue ((natText n ++ py ".0").takeWhile isDigit)) = _
    rw [htake, natValue_natText]
  have hread : readUnsigned bitTexts [] (natText n ++ py ".0")
      = some (.float (bitTexts.value (natText n ++ py ".0")), []) := by
    rw [readUnsigned, hdigits]
    simp only [List.nil_append, Option.bind_eq_bind, Option.bind_some]
    have hfraction : readFraction (py ".0") = (py ".0", []) := rfl
    have hne : py ".0" ≠ [] := List.cons_ne_nil _ _
    rw [hfraction]
    simp [readExponent, hne]
  obtain ⟨c, s, htext, hc⟩ := natText_eq_cons n
  rw [hvalue] at hread
  rw [htext, List.cons_append] at hread ⊢
  rw [readNumber, if_neg (ne_of_isDigit hc rfl)]
  exact hread

theorem bitTexts_documented : bitTexts.Documented where
  number := fun x hexp => by
    have hnan : ¬ PyFloat.isNaN x = true := by simp [PyFloat.isNaN, hexp]
    have hinf : x ≠ 0x7ff0000000000000 := by
      rintro rfl
      exact hexp rfl
    have hneg : x ≠ 0xfff0000000000000 := by
      rintro rfl
      exact hexp rfl
    have hrepr : bitTexts.repr x = natText x.toNat ++ py ".0" := by
      simp only [bitTexts, if_neg hnan, if_neg hinf, if_neg hneg]
    rw [hrepr, readNumber_bits, BitVec.ofNat_toNat, BitVec.setWidth_eq]
  nan := fun x hnan => if_pos hnan
  infinity := rfl
  negInfinity := rfl

end Json

end MasterAgent
