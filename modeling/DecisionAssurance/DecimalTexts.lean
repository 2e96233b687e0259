import Mathlib.Algebra.Field.Rat
import Mathlib.Tactic.Ring
import DecisionAssurance.DecimalNumbers

/-!
# Plain decimal texts

Texts of digits with at most one point, the number that such a text denotes, and the two directions
between them: parsing one reads the number it denotes, and the text without an exponent denotes the
number it is written for.
-/

namespace DecisionAssurance

/-- The values of decimal digits, of which the separators and white space are none. -/
structure DigitValues (decimal : Char → Option ℕ) : Prop where
  lt : ∀ c d, decimal c = some d → d < 10
  point : decimal '.' = none
  comma : decimal ',' = none
  underscore : decimal '_' = none
  space : ∀ c, isSpace c = true → decimal c = none

/-- The number of a text of digits of any script. -/
def digitsNumber (decimal : Char → Option ℕ) (cs : List Char) : ℕ :=
  cs.foldl (fun n c => 10 * n + (decimal c).getD 0) 0

namespace DecimalNumber

/-- Digits, and a point and further digits where there are some. -/
def plain (whole fraction : List Char) : List Char :=
  whole ++ if fraction = [] then [] else '.' :: fraction

/-- The text is a plain decimal text of the number. -/
def Denotes (s : List Char) (q : ℚ) : Prop :=
  ∃ whole fraction, whole ≠ [] ∧ (∀ c ∈ whole ++ fraction, c.isDigit = true) ∧
    s = plain whole fraction ∧ q = Nat.ofDigitChars 10 (whole ++ fraction) 0 / 10 ^ fraction.length

/-! ## Reading -/

section Reading

variable {decimal : Char → Option ℕ} {whole fraction digits rest cs : List Char}

theorem readDigits_append (hdigits : ∀ c ∈ digits, c.isDigit = true)
    (hrest : ∀ c, rest.head? = some c → c.isDigit = false) (value n : ℕ) :
    readDigits value n (digits ++ rest) =
      (Nat.ofDigitChars 10 digits value, n + digits.length, rest) := by
  induction digits generalizing value n with
  | nil =>
    cases rest with
    | nil => rfl
    | cons c rest =>
      have hc := hrest c rfl
      simp [readDigits, hc]
  | cons c digits ih =>
    have hc := hdigits c List.mem_cons_self
    rw [List.cons_append, readDigits, if_pos hc,
      ih fun d hd => hdigits d (List.mem_cons_of_mem _ hd)]
    simp only [Nat.ofDigitChars_cons, List.length_cons, Prod.mk.injEq, and_true]
    exact ⟨rfl, by omega⟩

theorem readFinite_plain (hne : whole ≠ [])
    (hdigits : ∀ c ∈ whole ++ fraction, c.isDigit = true) :
    readFinite false (plain whole fraction) =
      if inRange fraction.length (Nat.ofDigitChars 10 (whole ++ fraction) 0) (-fraction.length) then
        some (.finite false (Nat.ofDigitChars 10 (whole ++ fraction) 0) (-fraction.length))
      else none := by
  have hwhole : ∀ c ∈ whole, c.isDigit = true := fun c hc =>
    hdigits c (List.mem_append_left _ hc)
  have hfraction : ∀ c ∈ fraction, c.isDigit = true := fun c hc =>
    hdigits c (List.mem_append_right _ hc)
  have hlength : whole.length ≠ 0 := by simpa using hne
  unfold readFinite plain
  by_cases hnone : fraction = []
  · subst hnone
    rw [if_pos rfl, readDigits_append hwhole (by simp)]
    simp [hlength, readExponent]
  · have hpoint : ∀ c, ('.' :: fraction).head? = some c → c.isDigit = false := by
      intro c hc
      cases hc
      rfl
    have hend : readDigits (Nat.ofDigitChars 10 whole 0) 0 fraction =
        (Nat.ofDigitChars 10 fraction (Nat.ofDigitChars 10 whole 0), 0 + fraction.length, []) := by
      have h : readDigits (Nat.ofDigitChars 10 whole 0) 0 (fraction ++ []) = _ :=
        readDigits_append hfraction (by simp) _ _
      rwa [List.append_nil] at h
    rw [if_neg hnone, readDigits_append hwhole hpoint]
    simp only [hend, Nat.ofDigitChars_append]
    simp [hlength, readExponent]

theorem strip_of_forall (h : ∀ c ∈ cs, isSpace c = false) : strip cs = cs := by
  have hkeep : ∀ l : List Char, (∀ c ∈ l, isSpace c = false) → l.dropWhile isSpace = l := by
    intro l hl
    cases l with
    | nil => rfl
    | cons c l => rw [List.dropWhile_cons_of_neg (by simp [hl c List.mem_cons_self])]
  unfold strip
  rw [hkeep cs h, hkeep cs.reverse fun c hc => h c (List.mem_reverse.mp hc), List.reverse_reverse]

/-- The ASCII digit of a digit, and any other character as it is. -/
def asciiDigit (decimal : Char → Option ℕ) (c : Char) : Char :=
  match decimal c with
  | some d => Char.ofNat (48 + d)
  | none => c

theorem isDigit_ofNat {d : ℕ} (hd : d < 10) :
    (Char.ofNat (48 + d)).isDigit = true ∧ (Char.ofNat (48 + d)).toNat - 48 = d := by
  revert d
  decide

theorem asciiDigit_digit (h : DigitValues decimal) {c : Char} (hc : (decimal c).isSome = true) :
    (asciiDigit decimal c).isDigit = true ∧
      (asciiDigit decimal c).toNat - 48 = (decimal c).getD 0 := by
  obtain ⟨d, hd⟩ := Option.isSome_iff_exists.mp hc
  unfold asciiDigit
  rw [hd]
  exact isDigit_ofNat (h.lt c d hd)

theorem ofDigitChars_asciiDigit (h : DigitValues decimal)
    (hcs : ∀ c ∈ cs, (decimal c).isSome = true) (n : ℕ) :
    Nat.ofDigitChars 10 (cs.map (asciiDigit decimal)) n =
      cs.foldl (fun n c => 10 * n + (decimal c).getD 0) n := by
  induction cs generalizing n with
  | nil => simp
  | cons c cs ih =>
    rw [List.map_cons, Nat.ofDigitChars_cons, List.foldl_cons,
      ih fun d hd => hcs d (List.mem_cons_of_mem _ hd)]
    congr 2
    exact (asciiDigit_digit h (hcs c List.mem_cons_self)).2

theorem asciiNumeric_plain (h : DigitValues decimal)
    (hdigits : ∀ c ∈ whole ++ fraction, (decimal c).isSome = true) :
    asciiNumeric decimal (plain whole fraction) =
      plain (whole.map (asciiDigit decimal)) (fraction.map (asciiDigit decimal)) := by
  have hchars : ∀ c ∈ plain whole fraction, c = '.' ∨ (decimal c).isSome = true := by
    intro c hc
    unfold plain at hc
    split_ifs at hc
    · exact .inr (hdigits c (List.mem_append_left _ (by simpa using hc)))
    · rcases List.mem_append.mp hc with hc | hc
      · exact .inr (hdigits c (List.mem_append_left _ hc))
      · rcases List.mem_cons.mp hc with rfl | hc
        · exact .inl rfl
        · exact .inr (hdigits c (List.mem_append_right _ hc))
  have hstrip : strip (plain whole fraction) = plain whole fraction := by
    apply strip_of_forall
    intro c hc
    rcases hchars c hc with rfl | hc
    · decide
    · by_contra hspace
      rw [Bool.not_eq_false] at hspace
      rw [h.space c hspace] at hc
      cases hc
  have hmap : (plain whole fraction).map (asciiDigit decimal) =
      plain (whole.map (asciiDigit decimal)) (fraction.map (asciiDigit decimal)) := by
    have hpoint : asciiDigit decimal '.' = '.' := by
      unfold asciiDigit
      rw [h.point]
    unfold plain
    by_cases hnone : fraction = []
    · simp [hnone]
    · simp [hnone, hpoint]
  unfold asciiNumeric
  rw [hstrip, ← hmap, ← List.filterMap_eq_map]
  apply List.filterMap_congr
  intro c hc
  have hne : c ≠ '_' := by
    rintro rfl
    rcases hchars '_' hc with hc | hc
    · exact absurd hc (by decide)
    · rw [h.underscore] at hc
      cases hc
  rw [if_neg hne]
  rfl

theorem readSign_digit {c : Char} (hc : c.isDigit = true) (cs : List Char) :
    readSign (c :: cs) = (false, c :: cs) := by
  have hminus : c ≠ '-' := by
    rintro rfl
    exact absurd hc (by decide)
  have hplus : c ≠ '+' := by
    rintro rfl
    exact absurd hc (by decide)
  unfold readSign
  split
  · next heq => exact absurd (List.cons.inj heq).1 hminus
  · next heq => exact absurd (List.cons.inj heq).1 hplus
  · rfl

theorem toLower_digit {c : Char} (hc : c.isDigit = true) : c.toLower = c := by
  unfold Char.isDigit at hc
  rw [Bool.and_eq_true, decide_eq_true_eq, decide_eq_true_eq] at hc
  unfold Char.toLower
  rw [dif_neg]
  rintro ⟨hupper, -⟩
  exact absurd (UInt32.le_trans hupper hc.2) (by decide)

/-- A text that starts with a digit is no word for a number. -/
theorem word_of_digit {c : Char} (hc : c.isDigit = true) (cs : List Char) :
    ¬((c :: cs).map Char.toLower = "inf".toList ∨
      (c :: cs).map Char.toLower = "infinity".toList) ∧
      isNan ((c :: cs).map Char.toLower) = false := by
  have hne : ∀ d : Char, d.isDigit = false → c ≠ d := by
    rintro d hd rfl
    rw [hc] at hd
    cases hd
  rw [List.map_cons, toLower_digit hc]
  refine ⟨?_, ?_⟩
  · rintro (h | h)
    · exact hne 'i' (by decide) (List.cons.inj h).1
    · exact hne 'i' (by decide) (List.cons.inj h).1
  · unfold isNan
    have hs : [c] ≠ ['s'] := by simpa using hne 's' (by decide)
    have hn : c ≠ 'n' := hne 'n' (by decide)
    simp [hs, hn]

/-- Parsing a plain text reads its number, unless it is beyond the limits. -/
theorem parse_plain (h : DigitValues decimal) (hne : whole ≠ [])
    (hdigits : ∀ c ∈ whole ++ fraction, (decimal c).isSome = true) :
    parse decimal (plain whole fraction) =
      if inRange fraction.length (digitsNumber decimal (whole ++ fraction)) (-fraction.length) then
        some (.finite false (digitsNumber decimal (whole ++ fraction)) (-fraction.length))
      else none := by
  have hascii : ∀ c ∈ whole.map (asciiDigit decimal) ++ fraction.map (asciiDigit decimal),
      c.isDigit = true := by
    rw [← List.map_append]
    intro c hc
    obtain ⟨d, hd, rfl⟩ := List.mem_map.mp hc
    exact (asciiDigit_digit h (hdigits d hd)).1
  have hnumber : Nat.ofDigitChars 10
      (whole.map (asciiDigit decimal) ++ fraction.map (asciiDigit decimal)) 0 =
        digitsNumber decimal (whole ++ fraction) := by
    rw [← List.map_append, ofDigitChars_asciiDigit h hdigits]
    rfl
  obtain ⟨c, digits, rfl⟩ := List.exists_cons_of_ne_nil hne
  have hc : (asciiDigit decimal c).isDigit = true := hascii _ (by simp)
  unfold parse
  rw [asciiNumeric_plain h hdigits]
  have hread := readFinite_plain (by simp) hascii
  rw [hnumber, List.length_map] at hread
  unfold plain at hread ⊢
  rw [List.map_cons, List.cons_append] at hread ⊢
  obtain ⟨hwords, hnan⟩ := word_of_digit hc (digits.map (asciiDigit decimal) ++
    if fraction.map (asciiDigit decimal) = [] then []
    else '.' :: fraction.map (asciiDigit decimal))
  rw [readSign_digit hc]
  dsimp only
  rw [if_neg hwords, hnan, if_neg Bool.false_ne_true]
  exact hread

end Reading

/-! ## Writing -/

section Writing

theorem isDigit_toDigits {n : ℕ} : ∀ c ∈ Nat.toDigits 10 n, c.isDigit = true := fun _ hc =>
  Nat.isDigit_of_mem_toDigits (by decide) (by decide) hc

theorem plain_of_ne {whole fraction : List Char} (h : fraction ≠ []) :
    plain whole fraction = whole ++ '.' :: fraction := by
  unfold plain
  rw [if_neg h]

/-- The digits of a number with the point before the last `m` of them. -/
theorem layout_denotes {digits : List Char} (hpos : 0 < digits.length)
    (hdigits : ∀ c ∈ digits, c.isDigit = true) (m : ℕ) :
    Denotes (layout digits (-m + digits.length))
      (Nat.ofDigitChars 10 digits 0 / 10 ^ m) := by
  unfold layout
  by_cases hshort : (-m + digits.length : ℤ) ≤ 0
  · rw [if_pos hshort]
    have hzeros : (-(-m + digits.length : ℤ)).toNat = m - digits.length := by omega
    have hlength : (List.replicate (m - digits.length) '0' ++ digits).length = m := by
      simp only [List.length_append, List.length_replicate]
      omega
    refine ⟨['0'], List.replicate (m - digits.length) '0' ++ digits, by simp, ?_, ?_, ?_⟩
    · intro c hc
      simp only [List.cons_append, List.nil_append, List.mem_cons, List.mem_append] at hc
      rcases hc with rfl | hc | hc
      · decide
      · rw [List.eq_of_mem_replicate hc]
        decide
      · exact hdigits c hc
    · rw [hzeros, plain_of_ne]
      · rfl
      · exact List.ne_nil_of_length_pos (by rw [hlength]; omega)
    · rw [hlength, ← List.append_assoc, Nat.ofDigitChars_append]
      congr 2
      have hzero : Nat.ofDigitChars 10 (['0'] ++ List.replicate (m - digits.length) '0') 0 = 0 := by
        rw [Nat.ofDigitChars_append, Nat.ofDigitChars_replicate_zero]
        rfl
      rw [hzero]
  · rw [if_neg hshort]
    have hplace : (-m + digits.length : ℤ).toNat = digits.length - m := by omega
    rw [hplace]
    by_cases hwhole : digits.length ≤ digits.length - m
    · have hm : m = 0 := by omega
      subst hm
      rw [if_pos hwhole]
      refine ⟨digits, [], List.ne_nil_of_length_pos hpos, ?_, ?_, ?_⟩
      · simpa using hdigits
      · simp [plain]
      · simp
    · rw [if_neg hwhole]
      refine ⟨digits.take (digits.length - m), digits.drop (digits.length - m), ?_, ?_, ?_, ?_⟩
      · exact List.ne_nil_of_length_pos (by rw [List.length_take]; omega)
      · rwa [List.take_append_drop]
      · exact (plain_of_ne (List.ne_nil_of_length_pos (by rw [List.length_drop]; omega))).symm
      · have hlength : (digits.drop (digits.length - m)).length = m := by
          rw [List.length_drop]
          omega
        rw [List.take_append_drop, hlength]

/-- The text without an exponent denotes the number. -/
theorem fixedText_denotes (n m : ℕ) :
    Denotes (finite false n (-m)).fixedText (n / 10 ^ m) := by
  have hexponent : ¬0 < (-m : ℤ) := by omega
  have hmin : min (-m : ℤ) 0 = -m := min_eq_left (by omega)
  have h : Denotes (layout (Nat.toDigits 10 n) (-m + (Nat.toDigits 10 n).length)) _ :=
    layout_denotes Nat.length_toDigits_pos isDigit_toDigits m
  rw [Nat.ofDigitChars_ten_toDigits] at h
  simp only [fixedText, signText, if_neg hexponent, hmin, List.nil_append, Bool.false_eq_true,
    if_false]
  exact h

end Writing

end DecimalNumber

end DecisionAssurance
