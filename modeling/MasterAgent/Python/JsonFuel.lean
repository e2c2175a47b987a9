/-
  MasterAgent.Python.JsonFuel

  The fuel of `json.loads`.  Every reader leaves an end of its text and every
  nested one starts behind a mark, so a fuel longer than the text is never used
  up: `loads_eq`.
-/

import MasterAgent.Python.JsonText

namespace MasterAgent

namespace Json

-- ============================================================================
-- What a reader leaves
-- ============================================================================

/-- What a reader leaves is an end of its text. -/
def LeavesSuffix {α : Type} (read : PyStr → Option (α × PyStr)) : Prop :=
  ∀ s v rest, read s = some (v, rest) → rest <:+ s

/-- A first reading and a second one behind it. -/
theorem bind_suffix {α β γ : Type} {f : PyStr → Option (α × PyStr)}
    {g : PyStr → Option (β × PyStr)} (hf : LeavesSuffix f) (hg : LeavesSuffix g)
    (made : α → β → γ) {s rest : PyStr} {v : γ}
    (h : ((f s).bind fun r => (g r.2).bind fun r' => some (made r.1 r'.1, r'.2))
      = some (v, rest)) : rest <:+ s := by
  obtain ⟨⟨x, s₁⟩, hx, h⟩ := Option.bind_eq_some_iff.mp h
  obtain ⟨⟨y, s₂⟩, hy, h⟩ := Option.bind_eq_some_iff.mp h
  cases h
  exact (hg s₁ y s₂ hy).trans (hf s x s₁ hx)

theorem skipWs_suffix (s : PyStr) : skipWs s <:+ s := List.dropWhile_suffix isWs

/-- Behind the white space and the mark that starts it. -/
theorem tail_suffix {c : CodePoint} {s s' : PyStr} (h : skipWs s = c :: s') : s' <:+ s :=
  (List.suffix_cons c s').trans (h ▸ skipWs_suffix s)

/-- White space, a mark and white space: the mark at least is consumed. -/
theorem skipWs_behind_mark {c : CodePoint} {s s' : PyStr} (h : skipWs s = c :: s') :
    (skipWs s').length < s.length := by
  have hskip := (skipWs_suffix s').length_le
  have hmark := (skipWs_suffix s).length_le
  rw [h, List.length_cons] at hmark
  omega

theorem scan_leavesSuffix : ∀ m : Scan, LeavesSuffix (scan m) := by
  suffices h : ∀ s m us rest, scan m s = some (us, rest) → rest <:+ s from
    fun m s us rest => h s m us rest
  intro s
  induction s with
  | nil => intro m us rest h; cases m <;> simp [scan] at h
  | cons c s ih =>
      intro m us rest h
      have hmap : ∀ {u : StringUnit}, (scan .plain s).map u.before = some (us, rest) →
          rest <:+ s := by
        intro u hu
        obtain ⟨⟨vs, rest'⟩, hs, heq⟩ := Option.map_eq_some_iff.mp hu
        cases heq
        exact ih .plain vs rest' hs
      refine List.IsSuffix.trans ?_ (List.suffix_cons c s)
      cases m with
      | plain =>
          simp only [scan] at h
          split_ifs at h
          · cases h; exact List.suffix_refl _
          · exact ih .escaped us rest h
          · exact hmap h
      | escaped =>
          simp only [scan] at h
          split_ifs at h
          · exact ih _ us rest h
          · split at h
            · cases h
            · exact hmap h
      | hex left value =>
          simp only [scan] at h
          split at h
          · cases h
          · exact hmap h
          · exact ih _ us rest h

theorem readString_leavesSuffix : LeavesSuffix readString := by
  intro s t rest h
  obtain ⟨⟨us, rest'⟩, hs, heq⟩ := Option.map_eq_some_iff.mp h
  cases heq
  exact scan_leavesSuffix .plain s us rest' hs

theorem readLiteral_leavesSuffix : LeavesSuffix readLiteral := by
  intro s v rest h
  obtain ⟨l, -, hl⟩ := List.exists_of_findSome?_eq_some h
  obtain ⟨rest', hrest, heq⟩ := Option.map_eq_some_iff.mp hl
  cases heq
  exact ⟨l.1, (List.isPrefixOf?_eq_some_iff_append_eq.mp hrest)⟩

theorem readDigits_leavesSuffix : LeavesSuffix readDigits := by
  intro s v rest h
  cases s with
  | nil => cases h
  | cons c s =>
      simp only [readDigits] at h
      split_ifs at h
      · cases h; exact List.suffix_cons _ _
      · cases h; exact List.dropWhile_suffix _

theorem readFraction_suffix (s : PyStr) : (readFraction s).2 <:+ s := by
  unfold readFraction
  split
  · split_ifs
    · exact (List.dropWhile_suffix _).trans (List.suffix_cons _ _)
    · exact List.suffix_refl _
  · exact List.suffix_refl _

theorem exponentDigits_suffix {mark s whole : PyStr} (h : s <:+ whole) :
    (exponentDigits mark s whole).2 <:+ whole := by
  unfold exponentDigits
  split_ifs
  · exact List.suffix_refl _
  · exact (List.dropWhile_suffix _).trans h

theorem readExponent_suffix (s : PyStr) : (readExponent s).2 <:+ s := by
  unfold readExponent
  split
  · exact List.suffix_refl _
  · split_ifs
    · split
      · exact List.suffix_refl _
      · split_ifs
        · exact exponentDigits_suffix ((List.suffix_cons _ _).trans (List.suffix_cons _ _))
        · exact exponentDigits_suffix (List.suffix_cons _ _)
    · exact List.suffix_refl _

variable (floats : FloatTexts)

theorem readUnsigned_leavesSuffix (sign : PyStr) : LeavesSuffix (readUnsigned floats sign) := by
  intro s v rest h
  obtain ⟨⟨whole, s₁⟩, hdigits, h⟩ := Option.bind_eq_some_iff.mp h
  have hrest : rest = (readExponent (readFraction s₁).2).2 := by
    dsimp only at h
    split_ifs at h <;> (cases h; rfl)
  rw [hrest]
  exact (readExponent_suffix _).trans
    ((readFraction_suffix s₁).trans (readDigits_leavesSuffix s whole s₁ hdigits))

theorem readNumber_leavesSuffix : LeavesSuffix (readNumber floats) := by
  intro s v rest h
  cases s with
  | nil => cases h
  | cons c s =>
      simp only [readNumber] at h
      split_ifs at h
      · exact (readUnsigned_leavesSuffix floats _ s v rest h).trans (List.suffix_cons c s)
      · exact readUnsigned_leavesSuffix floats _ _ v rest h

/-- The four readers leave an end of their text, with a fuel of `n`. -/
structure ReadersLeaveSuffix (n : Nat) : Prop where
  value : LeavesSuffix (readValue floats n)
  items : LeavesSuffix (readItems floats n)
  entry : LeavesSuffix (readEntry floats n)
  entries : LeavesSuffix (readEntries floats n)

variable {floats} {n m : Nat}

theorem ReadersLeaveSuffix.value_succ (h : ReadersLeaveSuffix floats n) :
    LeavesSuffix (readValue floats (n + 1)) := by
  intro s v rest hread
  cases s with
  | nil => simp [readValue] at hread
  | cons c s =>
      rw [readValue] at hread
      split_ifs at hread with hquote harray hobject
      · obtain ⟨⟨t, rest'⟩, hs, heq⟩ := Option.map_eq_some_iff.mp hread
        cases heq
        exact (readString_leavesSuffix s t rest' hs).trans (List.suffix_cons c s)
      · refine List.IsSuffix.trans ?_ (List.suffix_cons c s)
        split at hread
        · cases hread
        · next d s' hskip =>
          split_ifs at hread with hclose
          · cases hread
            exact tail_suffix hskip
          · have hitems := bind_suffix h.value h.items (fun v items => Json.arr (v :: items)) hread
            exact hitems.trans (hskip ▸ skipWs_suffix s)
      · refine List.IsSuffix.trans ?_ (List.suffix_cons c s)
        split at hread
        · cases hread
        · next d s' hskip =>
          split_ifs at hread with hclose
          · cases hread
            exact tail_suffix hskip
          · have hentries := bind_suffix h.entry h.entries (fun e es => ofEntries (e :: es)) hread
            exact hentries.trans (hskip ▸ skipWs_suffix s)
      · rcases Option.or_eq_some_iff.mp hread with hword | ⟨-, hnumber⟩
        · exact readLiteral_leavesSuffix _ v rest hword
        · exact readNumber_leavesSuffix floats _ v rest hnumber

theorem ReadersLeaveSuffix.items_succ (h : ReadersLeaveSuffix floats n) :
    LeavesSuffix (readItems floats (n + 1)) := by
  intro s v rest hread
  rw [readItems] at hread
  split at hread
  · cases hread
  · next c s' hskip =>
    refine List.IsSuffix.trans ?_ (tail_suffix hskip)
    split_ifs at hread with hclose hcomma
    · cases hread
      exact List.suffix_refl _
    · exact (bind_suffix h.value h.items List.cons hread).trans (skipWs_suffix s')

theorem ReadersLeaveSuffix.entry_succ (h : ReadersLeaveSuffix floats n) :
    LeavesSuffix (readEntry floats (n + 1)) := by
  intro s v rest hread
  cases s with
  | nil => simp [readEntry] at hread
  | cons c s =>
      refine List.IsSuffix.trans ?_ (List.suffix_cons c s)
      rw [readEntry] at hread
      split_ifs at hread with hquote
      obtain ⟨⟨k, s₁⟩, hk, hread⟩ := Option.bind_eq_some_iff.mp hread
      refine List.IsSuffix.trans ?_ (readString_leavesSuffix s k s₁ hk)
      dsimp only at hread
      split at hread
      · cases hread
      · next d s₂ hskip =>
        refine List.IsSuffix.trans ?_ (tail_suffix hskip)
        split_ifs at hread with hcolon
        obtain ⟨⟨w, s₃⟩, hw, hread⟩ := Option.bind_eq_some_iff.mp hread
        cases hread
        exact (h.value _ w s₃ hw).trans (skipWs_suffix s₂)

theorem ReadersLeaveSuffix.entries_succ (h : ReadersLeaveSuffix floats n) :
    LeavesSuffix (readEntries floats (n + 1)) := by
  intro s v rest hread
  rw [readEntries] at hread
  split at hread
  · cases hread
  · next c s' hskip =>
    refine List.IsSuffix.trans ?_ (tail_suffix hskip)
    split_ifs at hread with hclose hcomma
    · cases hread
      exact List.suffix_refl _
    · exact (bind_suffix h.entry h.entries List.cons hread).trans (skipWs_suffix s')

/-- The readers of values leave an end of their text, with every fuel. -/
theorem readers_leaveSuffix (floats : FloatTexts) (n : Nat) : ReadersLeaveSuffix floats n := by
  induction n with
  | zero =>
      refine ⟨?_, ?_, ?_, ?_⟩ <;> intro s v rest h
      · simp [readValue] at h
      · simp [readItems] at h
      · simp [readEntry] at h
      · simp [readEntries] at h
  | succ n ih => exact ⟨ih.value_succ, ih.items_succ, ih.entry_succ, ih.entries_succ⟩

-- ============================================================================
-- Enough fuel
-- ============================================================================

/-- Readers that agree on the texts shorter than `k`. -/
def AgreeUpTo {α : Type} (k : Nat) (f g : PyStr → Option (α × PyStr)) : Prop :=
  ∀ s, s.length < k → f s = g s

/-- Readers that agree also agree on a first reading and a second one behind it. -/
theorem bind_agree {α β γ : Type} {k : Nat} {f g : PyStr → Option (α × PyStr)}
    {f' g' : PyStr → Option (β × PyStr)} (h : AgreeUpTo k f g) (h' : AgreeUpTo k f' g')
    (hg : LeavesSuffix g) (made : α → β → γ) {s : PyStr} (hs : s.length < k) :
    ((f s).bind fun r => (f' r.2).bind fun r' => some (made r.1 r'.1, r'.2))
      = (g s).bind fun r => (g' r.2).bind fun r' => some (made r.1 r'.1, r'.2) := by
  rw [h s hs]
  cases hread : g s with
  | none => rfl
  | some r =>
      have hle : r.2.length ≤ s.length := (hg s r.1 r.2 hread).length_le
      simp only [Option.bind_some]
      rw [h' r.2 (by omega)]

/-- The four readers read the same with the fuels `n` and `m` of a text shorter
    than `k`. -/
structure ReadersAgree (floats : FloatTexts) (k n m : Nat) : Prop where
  value : AgreeUpTo k (readValue floats n) (readValue floats m)
  items : AgreeUpTo k (readItems floats n) (readItems floats m)
  entry : AgreeUpTo k (readEntry floats n) (readEntry floats m)
  entries : AgreeUpTo k (readEntries floats n) (readEntries floats m)

variable {k : Nat}

theorem ReadersAgree.value_succ (h : ReadersAgree floats k n m) :
    AgreeUpTo (k + 1) (readValue floats (n + 1)) (readValue floats (m + 1)) := by
  intro s hs
  have hm := readers_leaveSuffix floats m
  cases s with
  | nil => rw [readValue, readValue] <;> simp
  | cons c s =>
      have hskip : (skipWs s).length < k :=
        (skipWs_suffix s).length_le.trans_lt (Nat.succ_lt_succ_iff.mp hs)
      simp only [readValue]
      split_ifs with hquote harray hobject
      · rfl
      · split
        · rfl
        · next d s' heq =>
          rw [heq] at hskip
          exact if_congr Iff.rfl rfl
            (bind_agree h.value h.items hm.value (fun v items => Json.arr (v :: items)) hskip)
      · split
        · rfl
        · next d s' heq =>
          rw [heq] at hskip
          exact if_congr Iff.rfl rfl
            (bind_agree h.entry h.entries hm.entry (fun e es => ofEntries (e :: es)) hskip)
      · rfl

theorem ReadersAgree.items_succ (h : ReadersAgree floats k n m) :
    AgreeUpTo (k + 1) (readItems floats (n + 1)) (readItems floats (m + 1)) := by
  intro s hs
  simp only [readItems]
  split
  · rfl
  · next c s' heq =>
    have hs' : (skipWs s').length < k := by
      have hmark := skipWs_behind_mark heq
      omega
    exact if_congr Iff.rfl rfl (if_congr Iff.rfl
      (bind_agree h.value h.items (readers_leaveSuffix floats m).value List.cons hs') rfl)

theorem ReadersAgree.entry_succ (h : ReadersAgree floats k n m) :
    AgreeUpTo (k + 1) (readEntry floats (n + 1)) (readEntry floats (m + 1)) := by
  intro s hs
  cases s with
  | nil => rw [readEntry, readEntry] <;> simp
  | cons c s =>
      simp only [readEntry]
      refine if_congr Iff.rfl ?_ rfl
      cases hk : readString s with
      | none => rfl
      | some r =>
          obtain ⟨key, s₁⟩ := r
          simp only [bind, Option.bind_some]
          split
          · rfl
          · next d s₂ heq =>
            have hs₂ : (skipWs s₂).length < k := by
              have hstring := (readString_leavesSuffix s key s₁ hk).length_le
              have hmark := skipWs_behind_mark heq
              simp only [List.length_cons] at hs
              omega
            rw [h.value _ hs₂]

theorem ReadersAgree.entries_succ (h : ReadersAgree floats k n m) :
    AgreeUpTo (k + 1) (readEntries floats (n + 1)) (readEntries floats (m + 1)) := by
  intro s hs
  simp only [readEntries]
  split
  · rfl
  · next c s' heq =>
    have hs' : (skipWs s').length < k := by
      have hmark := skipWs_behind_mark heq
      omega
    exact if_congr Iff.rfl rfl (if_congr Iff.rfl
      (bind_agree h.entry h.entries (readers_leaveSuffix floats m).entry List.cons hs') rfl)

/-- Two fuels longer than a text read the same of it. -/
theorem readers_agree (floats : FloatTexts) (k : Nat) :
    ∀ n m, k ≤ n → k ≤ m → ReadersAgree floats k n m := by
  induction k with
  | zero =>
      intro n m _ _
      exact ⟨fun s hs => absurd hs (Nat.not_lt_zero _), fun s hs => absurd hs (Nat.not_lt_zero _),
        fun s hs => absurd hs (Nat.not_lt_zero _), fun s hs => absurd hs (Nat.not_lt_zero _)⟩
  | succ k ih =>
      intro n m hn hm
      obtain ⟨n, rfl⟩ := Nat.exists_eq_add_one_of_ne_zero (Nat.ne_zero_of_lt hn)
      obtain ⟨m, rfl⟩ := Nat.exists_eq_add_one_of_ne_zero (Nat.ne_zero_of_lt hm)
      have h := ih n m (Nat.le_of_succ_le_succ hn) (Nat.le_of_succ_le_succ hm)
      exact ⟨h.value_succ, h.items_succ, h.entry_succ, h.entries_succ⟩

/-- Every fuel longer than the text gives what `json.loads` gives. -/
theorem loads_eq (s : PyStr) {n : Nat} (hn : s.length < n) :
    loads floats s = (readValue floats n (skipWs s)).bind fun r =>
      if (skipWs r.2).isEmpty then some r.1 else none := by
  have hs := (skipWs_suffix s).length_le
  have hread := (readers_agree floats (s.length + 1) (s.length + 1) n le_rfl hn).value
    (skipWs s) (by omega)
  rw [loads, hread]
  rfl

end Json

end MasterAgent
