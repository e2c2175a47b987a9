/-
  MasterAgent.Python.JsonStyle

  The two ways in which the service writes JSON: the compact one of
  `MasterAgent.Python.JsonText`, and the defaults of `json.dumps`, in ASCII and
  with a space behind each separator.

  `Style.loads_dumps`: loading inverts dumping, in every style whose strings are
  read back.
-/

import MasterAgent.Python.JsonText

namespace MasterAgent

namespace Json

/-- A way to write JSON: what stands for a character of a string, and the space
    behind a separator. -/
structure Style where
  escape : CodePoint → PyStr
  space : PyStr

namespace Style

variable (style : Style) (floats : FloatTexts)

/-- The text of a string. -/
def quoted (s : PyStr) : PyStr := codePoint '"' :: (s.flatMap style.escape ++ [codePoint '"'])

mutual

/-- `json.dumps(v)` with the separators `","` and `":"`, each followed by the
    space of the style. -/
def dumps : Json → PyStr
  | .null => py "null"
  | .bool true => py "true"
  | .bool false => py "false"
  | .int n => intText n
  | .float x => floats.repr x
  | .str s => style.quoted s
  | .arr [] => [codePoint '[', codePoint ']']
  | .arr (v :: items) => codePoint '[' :: (dumps v ++ dumpsItems items)
  | .obj [] => [codePoint '\x7b', codePoint '\x7d']
  | .obj ((k, v) :: fields) =>
      codePoint '\x7b' :: (style.quoted k ++
        codePoint ':' :: (style.space ++ (dumps v ++ dumpsFields fields)))

/-- The further items of an array, and its end. -/
def dumpsItems : List Json → PyStr
  | [] => [codePoint ']']
  | v :: items => codePoint ',' :: (style.space ++ (dumps v ++ dumpsItems items))

/-- The further entries of an object, and its end. -/
def dumpsFields : List (PyStr × Json) → PyStr
  | [] => [codePoint '\x7d']
  | (k, v) :: fields =>
      codePoint ',' :: (style.space ++ (style.quoted k ++
        codePoint ':' :: (style.space ++ (dumps v ++ dumpsFields fields))))

end

/-- White space behind the separators, and strings of the kind `fine` are read
    back. -/
structure Readable (fine : PyStr → Prop) : Prop where
  space : ∀ c ∈ style.space, isWs c = true
  string : ∀ s rest, fine s →
    readString (s.flatMap style.escape ++ codePoint '"' :: rest) = some (s, rest)

end Style

/-- `ensure_ascii=False, separators=(",", ":")`. -/
def compact : Style := ⟨escape, []⟩

theorem readable_compact : compact.Readable fun _ => True where
  space := fun _ hc => (List.not_mem_nil hc).elim
  string := fun s rest _ => readString_quoted s rest

mutual

theorem dumps_compact (floats : FloatTexts) : ∀ v : Json, compact.dumps floats v = dumps floats v
  | .null | .bool true | .bool false | .int _ | .float _ | .str _ | .arr [] | .obj [] => rfl
  | .arr (v :: items) => by
      rw [Style.dumps, dumps, dumps_compact floats v, dumpsItems_compact floats items]
  | .obj ((k, v) :: fields) => by
      rw [Style.dumps, dumps, dumps_compact floats v, dumpsFields_compact floats fields]
      rfl

theorem dumpsItems_compact (floats : FloatTexts) :
    ∀ items : List Json, compact.dumpsItems floats items = dumpsItems floats items
  | [] => rfl
  | v :: items => by
      rw [Style.dumpsItems, dumpsItems, dumps_compact floats v, dumpsItems_compact floats items]
      rfl

theorem dumpsFields_compact (floats : FloatTexts) :
    ∀ fields : List (PyStr × Json), compact.dumpsFields floats fields = dumpsFields floats fields
  | [] => rfl
  | (k, v) :: fields => by
      rw [Style.dumpsFields, dumpsFields, dumps_compact floats v,
        dumpsFields_compact floats fields]
      rfl

end

-- ============================================================================
-- How numbers start
-- ============================================================================

section Numbers

variable {floats : FloatTexts}

/-- A text that starts as numbers do: with a digit, or with a sign and a digit. -/
def StartsNumber (s : PyStr) : Prop :=
  ∃ c s', isDigit c = true ∧ (s = c :: s' ∨ s = codePoint '-' :: c :: s')

/-- What is read as a number starts as one. -/
theorem startsNumber_of_readNumber {s : PyStr} {r : Json × PyStr}
    (h : readNumber floats s = some r) : StartsNumber s := by
  have hunsigned : ∀ {sign s : PyStr}, readUnsigned floats sign s = some r →
      ∃ c s', s = c :: s' ∧ isDigit c = true := by
    intro sign s h
    obtain ⟨d, hd, -⟩ := Option.bind_eq_some_iff.mp h
    cases s with
    | nil => cases hd
    | cons c s =>
        refine ⟨c, s, rfl, ?_⟩
        rw [readDigits] at hd
        split at hd
        · next hzero =>
            rw [hzero]
            rfl
        · split at hd
          · assumption
          · cases hd
  cases s with
  | nil => cases h
  | cons c s =>
      rw [readNumber] at h
      split at h
      · next hsign =>
          obtain ⟨d, s', rfl, hd⟩ := hunsigned h
          exact ⟨d, s', hd, .inr (by rw [hsign])⟩
      · obtain ⟨d, s', hs, hd⟩ := hunsigned h
        exact ⟨d, s', hd, .inl hs⟩

/-- No word starts as numbers do. -/
theorem StartsNumber.readLiteral {s : PyStr} (h : StartsNumber s) (rest : PyStr) :
    readLiteral (s ++ rest) = none := by
  have hne : ∀ {a c : CodePoint} {w s : PyStr}, a ≠ c →
      (a :: w).isPrefixOf? (c :: s) = none := by
    intro a c w s h
    rw [List.isPrefixOf?, if_neg (by simpa using h)]
  have hcons : ∀ {a : CodePoint} {w s : PyStr},
      (a :: w).isPrefixOf? (a :: s) = w.isPrefixOf? s := by
    intro a w s
    rw [List.isPrefixOf?, if_pos (by simp)]
  unfold Json.readLiteral
  rw [List.findSome?_eq_none_iff]
  intro l hl
  simp only [literals, List.mem_cons, List.not_mem_nil, or_false] at hl
  obtain ⟨c, s', hc, rfl | rfl⟩ := h
  · rw [List.cons_append, Option.map_eq_none_iff]
    rcases hl with rfl | rfl | rfl | rfl | rfl | rfl <;> exact hne (ne_of_isDigit hc rfl).symm
  · rw [List.cons_append, List.cons_append, Option.map_eq_none_iff]
    rcases hl with rfl | rfl | rfl | rfl | rfl | rfl
    · exact hne (a := codePoint 'n') (by simp)
    · exact hne (a := codePoint 't') (by simp)
    · exact hne (a := codePoint 'f') (by simp)
    · exact hne (a := codePoint 'N') (by simp)
    · exact hne (a := codePoint 'I') (by simp)
    · exact hcons.trans (hne (ne_of_isDigit hc rfl).symm)

/-- The first character of a number is none of the marks. -/
theorem StartsNumber.head {s : PyStr} (h : StartsNumber s) :
    ∃ c s', s = c :: s' ∧ isWs c = false ∧ c ≠ codePoint ']' ∧ c ≠ codePoint '"' ∧
      c ≠ codePoint '[' ∧ c ≠ codePoint '\x7b' := by
  obtain ⟨c, s', hc, rfl | rfl⟩ := h
  · exact ⟨c, s', rfl, isWs_digit hc, ne_of_isDigit hc rfl, ne_of_isDigit hc rfl,
      ne_of_isDigit hc rfl, ne_of_isDigit hc rfl⟩
  · exact ⟨codePoint '-', _, rfl, rfl, by simp, by simp, by simp, by simp⟩

end Numbers

-- ============================================================================
-- Loading a dumped value
-- ============================================================================

/-- A value that is written as JSON: its floats are numbers, its objects have
    distinct keys, as dictionaries do, and its strings are of the kind `fine`. -/
inductive Written (floats : FloatTexts) (fine : PyStr → Prop) : Json → Prop where
  | null : Written floats fine .null
  | bool (b : Bool) : Written floats fine (.bool b)
  | int (n : Int) : Written floats fine (.int n)
  | float {x : PyFloat} (h : readNumber floats (floats.repr x) = some (.float x, [])) :
      Written floats fine (.float x)
  | str {s : PyStr} (h : fine s) : Written floats fine (.str s)
  | arr {items : List Json} (hitems : ∀ v ∈ items, Written floats fine v) :
      Written floats fine (.arr items)
  | obj {fields : List (PyStr × Json)} (hkeys : (fields.map Prod.fst).Nodup)
      (hfine : ∀ e ∈ fields, fine e.1) (hfields : ∀ e ∈ fields, Written floats fine e.2) :
      Written floats fine (.obj fields)

theorem Plain.written {v : Json} (h : Plain v) (floats : FloatTexts) :
    Written floats (fun _ => True) v := by
  induction h with
  | null => exact .null
  | bool b => exact .bool b
  | int n => exact .int n
  | str s => exact .str trivial
  | arr _ ih => exact .arr ih
  | obj hkeys _ ih => exact .obj hkeys (fun _ _ => trivial) ih

section ReadBack

variable (back : PyFloat → PyFloat)

mutual

/-- What is read where a value was written, `back x` being read for a float `x`. -/
def readBack : Json → Json
  | .float x => .float (back x)
  | .arr items => .arr (readBackItems items)
  | .obj fields => ofEntries (readBackFields fields)
  | v => v

def readBackItems : List Json → List Json
  | [] => []
  | v :: items => readBack v :: readBackItems items

def readBackFields : List (PyStr × Json) → List (PyStr × Json)
  | [] => []
  | (k, v) :: fields => (k, readBack v) :: readBackFields fields

end

theorem readBackItems_eq_map (items : List Json) :
    readBackItems back items = items.map (readBack back) := by
  induction items with
  | nil => rfl
  | cons v items ih => rw [readBackItems, ih, List.map_cons]

theorem readBackFields_eq_map (fields : List (PyStr × Json)) :
    readBackFields back fields = fields.map fun e => (e.1, readBack back e.2) := by
  induction fields with
  | nil => rfl
  | cons e fields ih => rw [readBackFields, ih, List.map_cons]

/-- A dictionary is read as one with the same keys. -/
theorem readBack_obj {fields : List (PyStr × Json)} (h : (fields.map Prod.fst).Nodup) :
    readBack back (.obj fields) = .obj (fields.map fun e => (e.1, readBack back e.2)) := by
  rw [readBack, readBackFields_eq_map]
  refine ofEntries_of_nodup ?_
  rw [List.map_map]
  exact h

/-- A dictionary has each key once. -/
def KeysOnce : Json → Prop
  | .obj fields => (fields.map Prod.fst).Nodup
  | _ => True

/-- Its values are found where they were written. -/
theorem getItem_readBack {v : Json} (h : v.KeysOnce) (k : PyStr) :
    (readBack back v).getItem k = (v.getItem k).map (readBack back) := by
  cases v with
  | obj fields =>
      have hfield : ∀ entries : List (PyStr × Json),
          field k (entries.map fun e => (e.1, readBack back e.2)) =
            (field k entries).map (readBack back) := by
        intro entries
        induction entries with
        | nil => rfl
        | cons e entries ih =>
            by_cases hk : e.1 = k
            · simp [field, hk]
            · simp [field, hk, ih]
      rw [readBack_obj back h, getItem, getItem, hfield]
      cases field k fields <;> rfl
  | _ => rfl

end ReadBack

/-- A value whose floats are written as numbers or as words of the decoder, and are
    read as `back` says; its strings are of the kind `fine`. -/
inductive Loadable (floats : FloatTexts) (fine : PyStr → Prop) (back : PyFloat → PyFloat) :
    Json → Prop where
  | null : Loadable floats fine back .null
  | bool (b : Bool) : Loadable floats fine back (.bool b)
  | int (n : Int) : Loadable floats fine back (.int n)
  | number {x : PyFloat}
      (h : readNumber floats (floats.repr x) = some (.float (back x), [])) :
      Loadable floats fine back (.float x)
  | word {x : PyFloat} (h : (floats.repr x, .float (back x)) ∈ literals) :
      Loadable floats fine back (.float x)
  | str {s : PyStr} (h : fine s) : Loadable floats fine back (.str s)
  | arr {items : List Json} (hitems : ∀ v ∈ items, Loadable floats fine back v) :
      Loadable floats fine back (.arr items)
  | obj {fields : List (PyStr × Json)} (hfine : ∀ e ∈ fields, fine e.1)
      (hfields : ∀ e ∈ fields, Loadable floats fine back e.2) :
      Loadable floats fine back (.obj fields)

theorem Written.loadable {floats : FloatTexts} {fine : PyStr → Prop} {v : Json}
    (h : Written floats fine v) : Loadable floats fine id v := by
  induction h with
  | null => exact .null
  | bool b => exact .bool b
  | int n => exact .int n
  | float hread => exact .number hread
  | str hs => exact .str hs
  | arr _ ih => exact .arr ih
  | obj _ hfine _ ih => exact .obj hfine ih

theorem Written.readBack_id {floats : FloatTexts} {fine : PyStr → Prop} {v : Json}
    (h : Written floats fine v) : readBack id v = v := by
  induction h with
  | @arr items _ ih =>
      rw [readBack, readBackItems_eq_map, List.map_congr_left ih, List.map_id']
  | @obj fields hkeys _ _ ih =>
      have hfields : ∀ e ∈ fields, (e.1, readBack id e.2) = e := fun e he => by rw [ih e he]
      rw [readBack_obj id hkeys, List.map_congr_left hfields, List.map_id']
  | _ => rfl

/-- A word is read in front of any text. -/
theorem readLiteral_append {l : PyStr × Json} (hl : l ∈ literals) (rest : PyStr) :
    readLiteral (l.1 ++ rest) = some (l.2, rest) := by
  simp only [literals, List.mem_cons, List.not_mem_nil, or_false] at hl
  rcases hl with rfl | rfl | rfl | rfl | rfl | rfl <;> rfl

/-- The first character of a word is none of the marks. -/
theorem head_of_mem_literals {l : PyStr × Json} (hl : l ∈ literals) :
    ∃ c s', l.1 = c :: s' ∧ isWs c = false ∧ c ≠ codePoint ']' ∧ c ≠ codePoint '"' ∧
      c ≠ codePoint '[' ∧ c ≠ codePoint '\x7b' := by
  simp only [literals, List.mem_cons, List.not_mem_nil, or_false] at hl
  rcases hl with rfl | rfl | rfl | rfl | rfl | rfl <;>
    exact ⟨_, _, rfl, rfl, by decide, by decide, by decide, by decide⟩

namespace Style

section RoundTrip

variable {style : Style} {floats : FloatTexts} {fine : PyStr → Prop} {back : PyFloat → PyFloat}

/-- The text of a value starts with neither white space nor the end of an array. -/
theorem dumps_head {v : Json} (h : Loadable floats fine back v) :
    ∃ c s, style.dumps floats v = c :: s ∧ isWs c = false ∧ c ≠ codePoint ']' := by
  have hnumber : ∀ {s : PyStr}, StartsNumber s →
      ∃ c s', s = c :: s' ∧ isWs c = false ∧ c ≠ codePoint ']' := by
    intro s hs
    obtain ⟨c, s', htext, hws, hend, -⟩ := hs.head
    exact ⟨c, s', htext, hws, hend⟩
  cases h with
  | null => exact ⟨codePoint 'n', _, rfl, rfl, by simp⟩
  | bool b => cases b with
    | true => exact ⟨codePoint 't', _, rfl, rfl, by simp⟩
    | false => exact ⟨codePoint 'f', _, rfl, rfl, by simp⟩
  | int n => exact hnumber (startsNumber_of_readNumber (@readNumber_intText floats n))
  | number hread => exact hnumber (startsNumber_of_readNumber hread)
  | word hword =>
      obtain ⟨c, s', htext, hws, hend, -⟩ := head_of_mem_literals hword
      exact ⟨c, s', htext, hws, hend⟩
  | str => exact ⟨codePoint '"', _, rfl, rfl, by simp⟩
  | @arr items => cases items with
    | nil => exact ⟨codePoint '[', _, rfl, rfl, by simp⟩
    | cons v items => exact ⟨codePoint '[', _, rfl, rfl, by simp⟩
  | @obj fields => cases fields with
    | nil => exact ⟨codePoint '\x7b', _, rfl, rfl, by simp⟩
    | cons e fields => exact ⟨codePoint '\x7b', _, rfl, rfl, by simp⟩

theorem skipWs_dumps {v : Json} (h : Loadable floats fine back v) (rest : PyStr) :
    skipWs (style.dumps floats v ++ rest) = style.dumps floats v ++ rest := by
  obtain ⟨c, s, htext, hws, -⟩ := @dumps_head style floats fine back v h
  rw [htext, List.cons_append, skipWs_of_not_ws hws]

/-- The space behind a separator is skipped. -/
theorem Readable.skipWs_space (hstyle : style.Readable fine) (s : PyStr) :
    skipWs (style.space ++ s) = skipWs s := by
  unfold skipWs
  exact List.dropWhile_append_of_pos hstyle.space

/-- A value is read back from the start of a text. -/
def ReadsBack (style : Style) (floats : FloatTexts) (back : PyFloat → PyFloat) (v : Json) :
    Prop :=
  ∀ n rest, (style.dumps floats v).length ≤ n → Stops rest →
    readValue floats n (style.dumps floats v ++ rest) = some (v.readBack back, rest)

theorem stops_dumpsItems (items : List Json) (rest : PyStr) :
    Stops (style.dumpsItems floats items ++ rest) := by
  cases items <;> exact stops_of_mem _ (by simp)

theorem stops_dumpsFields (fields : List (PyStr × Json)) (rest : PyStr) :
    Stops (style.dumpsFields floats fields ++ rest) := by
  cases fields with
  | nil => exact stops_of_mem _ (by simp)
  | cons e fields => exact stops_of_mem _ (by simp)

/-- The further items of an array are read back. -/
theorem readItems_dumpsItems (hstyle : style.Readable fine) {items : List Json}
    (hwritten : ∀ v ∈ items, Loadable floats fine back v)
    (hback : ∀ v ∈ items, style.ReadsBack floats back v) (n : Nat) (rest : PyStr)
    (hn : (style.dumpsItems floats items).length ≤ n) :
    readItems floats n (style.dumpsItems floats items ++ rest)
      = some (readBackItems back items, rest) := by
  induction items generalizing n with
  | nil =>
      cases n with
      | zero => simp [dumpsItems] at hn
      | succ n => rfl
  | cons v items ih =>
      cases n with
      | zero => simp [dumpsItems] at hn
      | succ n =>
          simp only [dumpsItems, List.length_cons, List.length_append] at hn
          have hvalue := hback v List.mem_cons_self n (style.dumpsItems floats items ++ rest)
            (by omega) (stops_dumpsItems items rest)
          have hrest := ih (fun w hw => hwritten w (List.mem_cons_of_mem _ hw))
            (fun w hw => hback w (List.mem_cons_of_mem _ hw)) n (by omega)
          have hskip := @skipWs_dumps style floats fine back v (hwritten v List.mem_cons_self)
            (style.dumpsItems floats items ++ rest)
          rw [dumpsItems, List.cons_append, List.append_assoc, List.append_assoc, readItems,
            skipWs_of_not_ws rfl]
          simp only [codePoint_inj, Char.reduceEq, if_false, if_true, hstyle.skipWs_space, hskip,
            hvalue, hrest, Option.bind_eq_bind, Option.bind_some]
          rfl

/-- An entry of an object is read back. -/
theorem readEntry_dumps (hstyle : style.Readable fine) {k : PyStr} {v : Json} (hkey : fine k)
    (hwritten : Loadable floats fine back v) (hback : style.ReadsBack floats back v) (n : Nat)
    {rest : PyStr} (hn : (style.dumps floats v).length < n) (hrest : Stops rest) :
    readEntry floats n
        (style.quoted k ++ codePoint ':' :: (style.space ++ (style.dumps floats v ++ rest)))
      = some ((k, v.readBack back), rest) := by
  cases n with
  | zero => omega
  | succ n =>
      have hvalue := hback n rest (by omega) hrest
      have hread := hstyle.string k
        (codePoint ':' :: (style.space ++ (style.dumps floats v ++ rest))) hkey
      rw [quoted, List.cons_append, List.append_assoc, List.singleton_append, readEntry, if_pos rfl,
        hread]
      simp only [Option.bind_eq_bind, Option.bind_some]
      rw [skipWs_of_not_ws rfl]
      simp only [if_true, hstyle.skipWs_space, skipWs_dumps hwritten, hvalue, Option.bind_some]
      rfl

/-- The further entries of an object are read back. -/
theorem readEntries_dumpsFields (hstyle : style.Readable fine) {fields : List (PyStr × Json)}
    (hkeys : ∀ e ∈ fields, fine e.1) (hwritten : ∀ e ∈ fields, Loadable floats fine back e.2)
    (hback : ∀ e ∈ fields, style.ReadsBack floats back e.2) (n : Nat) (rest : PyStr)
    (hn : (style.dumpsFields floats fields).length ≤ n) :
    readEntries floats n (style.dumpsFields floats fields ++ rest)
      = some (readBackFields back fields, rest) := by
  induction fields generalizing n with
  | nil =>
      cases n with
      | zero => simp [dumpsFields] at hn
      | succ n => rfl
  | cons e fields ih =>
      obtain ⟨k, v⟩ := e
      cases n with
      | zero => simp [dumpsFields] at hn
      | succ n =>
          simp only [dumpsFields, quoted, List.length_cons, List.length_append] at hn
          have hentry := readEntry_dumps hstyle (k := k) (v := v)
            (hkeys (k, v) List.mem_cons_self) (hwritten (k, v) List.mem_cons_self)
            (hback (k, v) List.mem_cons_self) n (by omega)
            (@stops_dumpsFields style floats fields rest)
          have hrest := ih (fun w hw => hkeys w (List.mem_cons_of_mem _ hw))
            (fun w hw => hwritten w (List.mem_cons_of_mem _ hw))
            (fun w hw => hback w (List.mem_cons_of_mem _ hw)) n (by omega)
          have hskip : ∀ s, skipWs (style.quoted k ++ s) = style.quoted k ++ s :=
            fun s => skipWs_of_not_ws rfl
          rw [dumpsFields, List.cons_append, List.append_assoc, List.append_assoc,
            List.cons_append, List.append_assoc, List.append_assoc, readEntries,
            skipWs_of_not_ws rfl]
          simp only [codePoint_inj, Char.reduceEq, if_false, if_true, hstyle.skipWs_space, hskip,
            hentry, hrest, Option.bind_eq_bind, Option.bind_some]
          rfl

/-- No value has the empty text. -/
theorem ReadsBack.of_succ {v : Json} (hwritten : Loadable floats fine back v)
    (h : ∀ n rest, (style.dumps floats v).length ≤ n + 1 → Stops rest →
      readValue floats (n + 1) (style.dumps floats v ++ rest) = some (v.readBack back, rest)) :
    style.ReadsBack floats back v := by
  intro n rest hn hrest
  cases n with
  | zero =>
      obtain ⟨c, s, htext, -⟩ := @dumps_head style floats fine back v hwritten
      rw [htext] at hn
      cases hn
  | succ n => exact h n rest hn hrest

theorem readsBack_number {v : Json} (hwritten : Loadable floats fine back v)
    (hread : readNumber floats (style.dumps floats v) = some (v.readBack back, [])) :
    style.ReadsBack floats back v := by
  refine .of_succ hwritten fun n rest _ hrest => ?_
  have hstart := startsNumber_of_readNumber hread
  have hliteral := hstart.readLiteral rest
  have hnumber := readNumber_append hread hrest
  obtain ⟨c, s, htext, -, -, hquote, harray, hobject⟩ := hstart.head
  rw [htext, List.cons_append] at hliteral hnumber ⊢
  rw [readValue_word n _ hquote harray hobject, hliteral, hnumber]
  rfl

theorem readsBack_word {x : PyFloat} (hword : (floats.repr x, .float (back x)) ∈ literals) :
    style.ReadsBack floats back (.float x) := by
  refine .of_succ (@Loadable.word floats (fun _ => True) back x hword) fun n rest _ _ => ?_
  have hliteral := readLiteral_append hword rest
  obtain ⟨c, s, htext, -, -, hquote, harray, hobject⟩ := head_of_mem_literals hword
  dsimp only at hliteral htext
  rw [htext, List.cons_append] at hliteral
  rw [dumps, htext, List.cons_append, readValue_word n _ hquote harray hobject, hliteral]
  rfl

theorem readsBack_str (hstyle : style.Readable fine) {s : PyStr} (hs : fine s) :
    style.ReadsBack floats back (.str s) := by
  refine .of_succ (Loadable.str hs) fun n rest _ _ => ?_
  rw [dumps, quoted, List.cons_append, List.append_assoc, List.singleton_append, readValue,
    if_pos rfl, hstyle.string s rest hs]
  rfl

theorem readsBack_arr (hstyle : style.Readable fine) {items : List Json}
    (hwritten : ∀ v ∈ items, Loadable floats fine back v)
    (hback : ∀ v ∈ items, style.ReadsBack floats back v) :
    style.ReadsBack floats back (.arr items) := by
  refine .of_succ (.arr hwritten) fun n rest hn _ => ?_
  cases items with
  | nil => rfl
  | cons v items =>
      obtain ⟨c, s, htext, hws, hend⟩ :=
        @dumps_head style floats fine back v (hwritten v List.mem_cons_self)
      simp only [dumps, List.length_cons, List.length_append] at hn
      have hvalue := hback v List.mem_cons_self n (style.dumpsItems floats items ++ rest)
        (by omega) (stops_dumpsItems items rest)
      have hitems := readItems_dumpsItems hstyle
        (fun w hw => hwritten w (List.mem_cons_of_mem _ hw))
        (fun w hw => hback w (List.mem_cons_of_mem _ hw)) n rest (by omega)
      rw [htext, List.cons_append] at hvalue
      rw [dumps, List.cons_append, List.append_assoc, htext, List.cons_append, readValue,
        if_neg (by simp), if_pos rfl, skipWs_of_not_ws hws]
      simp only [if_neg hend, hvalue, hitems, Option.bind_eq_bind, Option.bind_some]
      rfl

theorem readsBack_obj (hstyle : style.Readable fine) {fields : List (PyStr × Json)}
    (hkeys : ∀ e ∈ fields, fine e.1)
    (hwritten : ∀ e ∈ fields, Loadable floats fine back e.2)
    (hback : ∀ e ∈ fields, style.ReadsBack floats back e.2) :
    style.ReadsBack floats back (.obj fields) := by
  refine .of_succ (.obj hkeys hwritten) fun n rest hn _ => ?_
  cases fields with
  | nil => rfl
  | cons e fields =>
      obtain ⟨k, v⟩ := e
      simp only [dumps, quoted, List.length_cons, List.length_append] at hn
      have hentry := readEntry_dumps hstyle (k := k) (v := v)
        (hkeys (k, v) List.mem_cons_self) (hwritten (k, v) List.mem_cons_self)
        (hback (k, v) List.mem_cons_self) n (by omega) (@stops_dumpsFields style floats fields rest)
      have hentries := readEntries_dumpsFields hstyle
        (fun w hw => hkeys w (List.mem_cons_of_mem _ hw))
        (fun w hw => hwritten w (List.mem_cons_of_mem _ hw))
        (fun w hw => hback w (List.mem_cons_of_mem _ hw)) n rest (by omega)
      rw [quoted, List.cons_append] at hentry
      rw [dumps, List.cons_append, List.append_assoc, List.cons_append, List.append_assoc,
        List.append_assoc, quoted, List.cons_append, readValue, if_neg (by simp), if_neg (by simp),
        if_pos rfl, skipWs_of_not_ws rfl]
      simp only [codePoint_inj, Char.reduceEq, if_false, hentry, hentries, Option.bind_eq_bind,
        Option.bind_some]
      rfl

/-- Every value is read back. -/
theorem readsBack_of_loadable (hstyle : style.Readable fine) {v : Json}
    (h : Loadable floats fine back v) : style.ReadsBack floats back v := by
  induction h with
  | null =>
      exact .of_succ (@Loadable.null floats fine back) fun n rest _ _ =>
        (readValue_word (c := codePoint 'n') n _ (by simp) (by simp) (by simp)).trans rfl
  | bool b =>
      refine .of_succ (@Loadable.bool floats fine back b) fun n rest _ _ => ?_
      cases b with
      | true =>
          exact (readValue_word (c := codePoint 't') n _ (by simp) (by simp) (by simp)).trans rfl
      | false =>
          exact (readValue_word (c := codePoint 'f') n _ (by simp) (by simp) (by simp)).trans rfl
  | int k => exact readsBack_number (@Loadable.int floats fine back k) (readNumber_intText k)
  | number hread => exact readsBack_number (@Loadable.number floats fine back _ hread) hread
  | word hword => exact readsBack_word hword
  | str hs => exact readsBack_str hstyle hs
  | arr hitems ih => exact readsBack_arr hstyle hitems ih
  | obj hkeys hfields ih => exact readsBack_obj hstyle hkeys hfields ih

/-- Loading inverts dumping, but for what happens to floats and to keys that stand
    twice. -/
theorem loads_dumps_readBack (hstyle : style.Readable fine) {v : Json}
    (h : Loadable floats fine back v) :
    loads floats (style.dumps floats v) = some (v.readBack back) := by
  have hread := @readsBack_of_loadable style floats fine back hstyle v h
    ((style.dumps floats v).length + 1) [] (by omega) stops_nil
  have hskip := @skipWs_dumps style floats fine back v h []
  rw [List.append_nil] at hread hskip
  rw [loads, hskip, hread]
  rfl

/-- Loading inverts dumping. -/
theorem loads_dumps (hstyle : style.Readable fine) {v : Json} (h : Written floats fine v) :
    loads floats (style.dumps floats v) = some v := by
  rw [loads_dumps_readBack hstyle h.loadable, h.readBack_id]

end RoundTrip

end Style

/-- Loading inverts compact dumping, for a value without floats. -/
theorem loads_dumps {floats : FloatTexts} {v : Json} (h : Plain v) :
    loads floats (dumps floats v) = some v := by
  rw [← dumps_compact]
  exact Style.loads_dumps readable_compact (h.written floats)

-- ============================================================================
-- The defaults of `json.dumps`
-- ============================================================================

/-- An escape of four hexadecimal digits. -/
def hexEscape (n : Nat) : PyStr :=
  [codePoint '\\', codePoint 'u', digit (n / 0x1000), digit (n / 0x100 % 16),
    digit (n / 0x10 % 16), digit (n % 16)]

/-- The surrogates of a character beyond `0xffff`. -/
def surrogates (n : Nat) : Nat × Nat :=
  (0xd800 + (n - 0x10000) / 0x400, 0xdc00 + (n - 0x10000) % 0x400)

/-- `ensure_ascii`: whatever is not printable ASCII is escaped, beyond `0xffff` as
    a surrogate pair. -/
def asciiEscape (c : CodePoint) : PyStr :=
  match shortEscapes.lookup c with
  | some e => [codePoint '\\', e]
  | none =>
      if 0x20 ≤ c.val ∧ c.val < 0x7f then [c]
      else if c.val < 0x10000 then hexEscape c.val
      else hexEscape (surrogates c.val).1 ++ hexEscape (surrogates c.val).2

/-- `json.dumps(v)`. -/
def ascii : Style := ⟨asciiEscape, py " "⟩

/-- A string as a decoder makes it: no surrogate pair stands for a character. -/
def Unpaired (s : PyStr) : Prop :=
  s.IsChain fun c d => ¬ (isHighSurrogate c.val = true ∧ isLowSurrogate d.val = true)

/-- How the scanner reads what the encoder wrote for a character. -/
def asciiUnits (c : CodePoint) : List StringUnit :=
  if (shortEscapes.lookup c).isSome ∨ 0x20 ≤ c.val ∧ c.val < 0x7f then [.char c]
  else if c.val < 0x10000 then [.utf16 c.val]
  else [.utf16 (surrogates c.val).1, .utf16 (surrogates c.val).2]

theorem surrogates_spec {n : Nat} (h : 0x10000 ≤ n) (hn : n < 0x110000) :
    isHighSurrogate (surrogates n).1 = true ∧ isLowSurrogate (surrogates n).2 = true ∧
      0x10000 + 0x400 * ((surrogates n).1 - 0xd800) + ((surrogates n).2 - 0xdc00) = n := by
  have hlow : (n - 0x10000) % 0x400 < 0x400 := Nat.mod_lt _ (by omega)
  have hhigh : (n - 0x10000) / 0x400 < 0x400 := by omega
  have hsum := Nat.div_add_mod (n - 0x10000) 0x400
  refine ⟨decide_eq_true ?_, decide_eq_true ?_, ?_⟩ <;> simp only [surrogates] <;> omega

/-- Units read in front of others. -/
def unitsBefore (us : List StringUnit) (r : List StringUnit × PyStr) :
    List StringUnit × PyStr :=
  (us ++ r.1, r.2)

theorem scan_hexEscape {n : Nat} (h : n < 0x10000) (s : PyStr) :
    scan .plain (hexEscape n ++ s) = (scan .plain s).map (unitsBefore [.utf16 n]) := by
  have hslash : codePoint '\\' ≠ codePoint '"' := by decide
  have h₃ := hexVal_digit (n / 0x1000) (by omega)
  have h₂ := hexVal_digit (n / 0x100 % 16) (by omega)
  have h₁ := hexVal_digit (n / 0x10 % 16) (by omega)
  have h₀ := hexVal_digit (n % 16) (by omega)
  have hvalue : 16 * (16 * (16 * (16 * 0 + n / 0x1000) + n / 0x100 % 16) + n / 0x10 % 16)
      + n % 16 = n := by omega
  simp only [hexEscape, List.cons_append, List.nil_append, scan, if_neg hslash, if_true, h₃, h₂,
    h₁, h₀, hvalue]
  rfl

theorem scan_asciiEscape (c : CodePoint) (s : PyStr) :
    scan .plain (asciiEscape c ++ s) = (scan .plain s).map (unitsBefore (asciiUnits c)) := by
  cases hshort : shortEscapes.lookup c with
  | some e =>
      have hescape : asciiEscape c = escape c := by simp only [asciiEscape, escape, hshort]
      have hunits : asciiUnits c = [unitOf c] := by simp [asciiUnits, unitOf, hshort]
      rw [hescape, hunits, scan_escape]
      rfl
  | none =>
      by_cases hprint : 0x20 ≤ c.val ∧ c.val < 0x7f
      · have hnot : ¬ c.val < 0x20 := Nat.not_lt.mpr hprint.1
        have hescape : asciiEscape c = escape c := by
          simp only [asciiEscape, escape, hshort, if_pos hprint, if_neg hnot]
        have hunits : asciiUnits c = [unitOf c] := by
          simp [asciiUnits, unitOf, hshort, hprint, hnot]
        rw [hescape, hunits, scan_escape]
        rfl
      · by_cases hbasic : c.val < 0x10000
        · have hescape : asciiEscape c = hexEscape c.val := by
            simp only [asciiEscape, hshort, if_neg hprint, if_pos hbasic]
          have hunits : asciiUnits c = [.utf16 c.val] := by
            simp [asciiUnits, hshort, hprint, hbasic]
          rw [hescape, hunits, scan_hexEscape hbasic]
        · have hescape : asciiEscape c
              = hexEscape (surrogates c.val).1 ++ hexEscape (surrogates c.val).2 := by
            simp only [asciiEscape, hshort, if_neg hprint, if_neg hbasic]
          have hunits : asciiUnits c
              = [.utf16 (surrogates c.val).1, .utf16 (surrogates c.val).2] := by
            simp [asciiUnits, hshort, hprint, hbasic]
          obtain ⟨hhigh, hlow, -⟩ := surrogates_spec (Nat.not_lt.mp hbasic) c.isLt
          simp only [isHighSurrogate, isLowSurrogate, decide_eq_true_eq] at hhigh hlow
          rw [hescape, hunits, List.append_assoc, scan_hexEscape (by omega),
            scan_hexEscape (by omega), Option.map_map]
          rfl

theorem scan_flatMap_asciiEscape (s rest : PyStr) :
    scan .plain (s.flatMap asciiEscape ++ codePoint '"' :: rest)
      = some (s.flatMap asciiUnits, rest) := by
  induction s with
  | nil => simp [scan]
  | cons c s ih =>
      rw [List.flatMap_cons, List.append_assoc, scan_asciiEscape, ih]
      rfl

/-- A lone surrogate, or another character, in front of what makes no pair of it. -/
theorem unitsText_lone {n : Nat} {us : List StringUnit}
    (h : ∀ m us', us = .utf16 m :: us' → (isHighSurrogate n && isLowSurrogate m) = false) :
    unitsText (.utf16 n :: us) = Fin.ofNat _ n :: unitsText us := by
  match us with
  | [] | .char _ :: _ => rfl
  | .utf16 m :: us =>
      have hlone := h m us rfl
      rw [unitsText, if_neg (by rw [hlone]; exact Bool.false_ne_true)]

/-- What the units of a string start with is, if a low surrogate, its first character. -/
theorem low_of_asciiUnits {s : PyStr} {m : Nat} {us : List StringUnit}
    (h : s.flatMap asciiUnits = .utf16 m :: us) (hlow : isLowSurrogate m = true) :
    ∃ c, s.head? = some c ∧ c.val = m := by
  cases s with
  | nil => cases h
  | cons c s =>
      refine ⟨c, rfl, ?_⟩
      rw [List.flatMap_cons, asciiUnits] at h
      split at h
      · cases h
      · split at h
        · cases h
          rfl
        · next hlong =>
            obtain ⟨hhigh, -⟩ := surrogates_spec (Nat.not_lt.mp hlong) c.isLt
            cases h
            simp only [isHighSurrogate, isLowSurrogate, decide_eq_true_eq] at hhigh hlow
            omega

theorem unitsText_asciiUnits {s : PyStr} (h : Unpaired s) :
    unitsText (s.flatMap asciiUnits) = s := by
  induction s with
  | nil => rfl
  | cons c s ih =>
      have htail := ih h.tail
      rw [List.flatMap_cons, asciiUnits]
      split
      · rw [List.singleton_append, unitsText, htail]
      · split
        · rw [List.singleton_append, unitsText_lone, htail, Fin.ofNat_val_eq_self]
          intro m us hus
          rw [Bool.and_eq_false_iff, ← Bool.not_eq_true, ← Bool.not_eq_true, ← not_and_or]
          rintro ⟨hhigh, hlow⟩
          obtain ⟨d, hd, rfl⟩ := low_of_asciiUnits hus hlow
          cases s with
          | nil => cases hd
          | cons d' s =>
              cases hd
              exact (List.isChain_cons_cons.mp h).1 ⟨hhigh, hlow⟩
        · next hlong =>
            obtain ⟨hhigh, hlow, hvalue⟩ := surrogates_spec (Nat.not_lt.mp hlong) c.isLt
            rw [List.cons_append, List.singleton_append, unitsText, hhigh, hlow, hvalue, htail,
              Fin.ofNat_val_eq_self]
            rfl

theorem readable_ascii : ascii.Readable Unpaired where
  space := fun c hc => by
    rw [List.mem_singleton.mp hc]
    rfl
  string := fun s rest hs => by
    show readString (s.flatMap asciiEscape ++ codePoint '"' :: rest) = some (s, rest)
    rw [readString, scan_flatMap_asciiEscape]
    exact congrArg (fun t => some (t, rest)) (unitsText_asciiUnits hs)

-- ============================================================================
-- Equal values
-- ============================================================================

/-- The exponent behind its mark. -/
def exponentValue : PyStr → ℤ
  | [] | [_] => 0
  | _ :: c :: s =>
      if c = codePoint '-' then -natValue s
      else if c = codePoint '+' then natValue s
      else natValue (c :: s)

/-- What a numeral without a sign stands for. -/
def unsignedDecimal (s : PyStr) : Option ℚ := do
  let (whole, s₁) ← readDigits s
  let (fraction, s₂) := readFraction s₁
  let (exponent, s₃) := readExponent s₂
  if s₃.isEmpty then
    return natValue (whole ++ fraction.tail) *
      10 ^ (exponentValue exponent - fraction.tail.length)
  else none

/-- What a numeral stands for. -/
def decimalValue : PyStr → Option ℚ
  | [] => none
  | c :: s =>
      if c = codePoint '-' then (unsignedDecimal s).map Neg.neg else unsignedDecimal (c :: s)

/-- The number that the text of a value stands for. -/
def number (floats : FloatTexts) : Json → Option ℚ
  | .int n => some n
  | .float x => decimalValue (floats.repr x)
  | _ => none

/-- Equal as JSON: the order of the keys does not count, nor does the form of a
    number. -/
inductive Same (floats : FloatTexts) : Json → Json → Prop where
  | null : Same floats .null .null
  | bool (b : Bool) : Same floats (.bool b) (.bool b)
  | number {v w : Json} {q : ℚ} (hv : number floats v = some q) (hw : number floats w = some q) :
      Same floats v w
  | str (s : PyStr) : Same floats (.str s) (.str s)
  | arr {vs ws : List Json} (hlength : vs.length = ws.length)
      (hitems : ∀ (i : Nat) v w, vs[i]? = some v → ws[i]? = some w → Same floats v w) :
      Same floats (.arr vs) (.arr ws)
  | obj {fields fields' : List (PyStr × Json)}
      (hkeys : ∀ k, k ∈ fields.map Prod.fst ↔ k ∈ fields'.map Prod.fst)
      (hfields : ∀ k v w, field k fields = some v → field k fields' = some w → Same floats v w) :
      Same floats (.obj fields) (.obj fields')

/-- What equals an object is one. -/
theorem Same.exists_obj {floats : FloatTexts} {fields : List (PyStr × Json)} {w : Json}
    (h : Same floats (.obj fields) w) : ∃ fields', w = .obj fields' := by
  cases h with
  | number hv => cases hv
  | obj => exact ⟨_, rfl⟩

-- ============================================================================
-- One value on one line
-- ============================================================================

/-- `ensure_ascii=False` with the default separators. -/
def spaced : Style := ⟨escape, py " "⟩

theorem readable_spaced : spaced.Readable fun _ => True where
  space := readable_ascii.space
  string := fun s rest _ => readString_quoted s rest

/-- A text without control characters, so on one line. -/
def Printable (text : PyStr) : Prop := ∀ c ∈ text, 0x20 ≤ c.val

theorem Printable.append {text text' : PyStr} (h : Printable text) (h' : Printable text') :
    Printable (text ++ text') :=
  fun c hc => (List.mem_append.mp hc).elim (h c) (h' c)

theorem Printable.cons {c : CodePoint} {text : PyStr} (hc : 0x20 ≤ c.val) (h : Printable text) :
    Printable (c :: text) :=
  List.forall_mem_cons.mpr ⟨hc, h⟩

theorem printable_ascii {text : PyStr} (h : Ascii text) : Printable text := fun c hc => (h c hc).1

theorem printable_quoted (s : PyStr) : Printable (spaced.quoted s) :=
  (shows_quoted s).printable

section Printable

variable (floats : FloatTexts)

mutual

/-- A dumped value takes one line, whatever its strings hold. -/
theorem printable_dumps : ∀ v : Json, Printable (spaced.dumps floats v)
  | .null | .bool true | .bool false | .arr [] | .obj [] => printable_ascii (ascii_of_all rfl)
  | .int n => printable_ascii (intText_ascii n)
  | .float x => printable_ascii (floats.repr_ascii x)
  | .str s => printable_quoted s
  | .arr (v :: items) => (printable_dumps v).append (printable_dumpsItems items) |>.cons (by decide)
  | .obj ((k, v) :: fields) => by
      have hspace : Printable spaced.space := printable_ascii (ascii_of_all rfl)
      have hvalue := hspace.append ((printable_dumps v).append (printable_dumpsFields fields))
      have hcolon : 0x20 ≤ (codePoint ':').val := by decide
      exact ((printable_quoted k).append (hvalue.cons hcolon)).cons (by decide)

theorem printable_dumpsItems : ∀ items : List Json, Printable (spaced.dumpsItems floats items)
  | [] => printable_ascii (ascii_of_all rfl)
  | v :: items => by
      have hspace : Printable spaced.space := printable_ascii (ascii_of_all rfl)
      have hrest := (printable_dumps v).append (printable_dumpsItems items)
      exact (hspace.append hrest).cons (by decide)

theorem printable_dumpsFields :
    ∀ fields : List (PyStr × Json), Printable (spaced.dumpsFields floats fields)
  | [] => printable_ascii (ascii_of_all rfl)
  | (k, v) :: fields => by
      have hspace : Printable spaced.space := printable_ascii (ascii_of_all rfl)
      have hvalue := hspace.append ((printable_dumps v).append (printable_dumpsFields fields))
      have hcolon : 0x20 ≤ (codePoint ':').val := by decide
      have hentry := (printable_quoted k).append (hvalue.cons hcolon)
      exact (hspace.append hentry).cons (by decide)

end

end Printable

end Json

end MasterAgent
