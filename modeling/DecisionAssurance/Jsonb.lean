import DecisionAssurance.WrittenJson
import DecisionAssurance.NumberLiterals

/-!
# Floating point numbers in stored JSON

A text column keeps the literal that Python writes; a `jsonb` column keeps an exact decimal and
prints it without exponent, and without digits after the point where it has none.
-/

namespace DecisionAssurance

/-- `repr` of the double nearest to a decimal, by its sign and magnitude. -/
structure FloatFormat where
  repr : Bool → ℚ → List Char
  repr_zero : repr false 0 = ['0', '.', '0']

namespace NumberLiteral

/-- The digits that `repr` writes: a fraction where there is no exponent; at most as many digits
after the point as the exponent is large; and `0.0` for zero. -/
structure Canonical (l : NumberLiteral) : Prop where
  plain : l.exponent = none → l.fraction ≠ []
  large : ∀ ds, l.exponent = some (false, ds) → l.fraction.length ≤ digitsValue ds
  small : ∀ ds, l.exponent = some (true, ds) → 1 ≤ digitsValue ds
  zero : l.coefficient = 0 → l.whole = [0] ∧ l.fraction = [0] ∧ l.exponent = none

/-- A number below `1e16` that is not the negative zero. -/
def Kept (l : NumberLiteral) : Prop :=
  (∀ ds, l.exponent ≠ some (false, ds)) ∧ ¬ (l.negative = true ∧ l.coefficient = 0)

end NumberLiteral

open NumberLiteral

/-- The text of a finite floating point number. -/
def PythonFloat (ff : FloatFormat) (t : String) : Prop :=
  ∃ l : NumberLiteral, t.toList = l.text ∧ l.Canonical ∧ ff.repr l.negative l.magnitude = l.text

/-- `json.loads` of a literal with a point or an exponent. -/
def loadsFloat (ff : FloatFormat) (t : String) : Json :=
  let l := NumberLiteral.parse t.toList
  .float (String.ofList (ff.repr l.negative l.magnitude))

/-- `json.loads` of the decimal that `jsonb` prints for a literal. -/
def jsonbNumber (ff : FloatFormat) (t : String) : Json :=
  let n := (NumberLiteral.parse t.toList).decimal
  if n.scale = 0 then .int n.toInt
  else .float (String.ofList (ff.repr n.negative n.magnitude))

def KeptFloat (t : String) : Prop := (NumberLiteral.parse t.toList).Kept

variable {ff : FloatFormat} {t : String} {l : NumberLiteral}

theorem loadsFloat_of_pythonFloat (h : PythonFloat ff t) : loadsFloat ff t = .float t := by
  obtain ⟨l, ht, -, hrepr⟩ := h
  simp only [loadsFloat, ht, parse_text, hrepr]
  rw [← ht, String.ofList_toList]

/-! ## The decimal of a literal -/

namespace NumberLiteral

theorem decimal_scale_of_large (hl : l.Canonical) {ds : List (Fin 10)}
    (hexp : l.exponent = some (false, ds)) : l.decimal.scale = 0 := by
  have hle := hl.large ds hexp
  simp only [decimal, exponentValue, hexp]
  omega

theorem decimal_scale_of_small (hl : l.Canonical) {ds : List (Fin 10)}
    (hexp : l.exponent = some (true, ds)) : l.decimal.scale ≠ 0 := by
  have hle := hl.small ds hexp
  simp only [decimal, exponentValue, hexp]
  omega

theorem decimal_scale_of_plain (hl : l.Canonical) (hexp : l.exponent = none) :
    l.decimal.scale ≠ 0 := by
  have hpos := List.length_pos_of_ne_nil (hl.plain hexp)
  simp only [decimal, exponentValue, hexp]
  omega

theorem decimal_scale_ne_zero (hl : l.Canonical)
    (hexp : ∀ ds, l.exponent ≠ some (false, ds)) : l.decimal.scale ≠ 0 := by
  cases h : l.exponent with
  | none => exact decimal_scale_of_plain hl h
  | some e =>
    obtain ⟨negative, ds⟩ := e
    cases negative with
    | true => exact decimal_scale_of_small hl h
    | false => exact absurd h (hexp ds)

theorem magnitude_eq_zero (h : l.coefficient = 0) : l.magnitude = 0 := by
  simp only [magnitude, Decimal.magnitude, decimal, h, Nat.zero_mul, Nat.cast_zero, zero_div]

theorem decimal_negative (h : ¬ (l.negative = true ∧ l.coefficient = 0)) :
    l.decimal.negative = l.negative := by
  simp only [decimal]
  cases hneg : l.negative with
  | false => rfl
  | true => simpa [hneg] using h

theorem text_zero (hl : l.Canonical) (hneg : l.negative = true) (h : l.coefficient = 0) :
    l.text = ['-', '0', '.', '0'] := by
  obtain ⟨negative, whole, fraction, exponent⟩ := l
  obtain ⟨hwhole, hfraction, hexp⟩ := hl.zero h
  dsimp only at hneg hwhole hfraction hexp
  subst hneg hwhole hfraction hexp
  rfl

end NumberLiteral

/-! ## Marks of the numbers read -/

theorem jsonbNumber_of_kept (h : PythonFloat ff t) (hkept : KeptFloat t) :
    jsonbNumber ff t = .float t := by
  obtain ⟨l, ht, hl, hrepr⟩ := h
  rw [KeptFloat, ht, parse_text] at hkept
  simp only [jsonbNumber, ht, parse_text]
  rw [if_neg (decimal_scale_ne_zero hl hkept.1), decimal_negative hkept.2]
  have hmag : l.decimal.magnitude = l.magnitude := rfl
  rw [hmag, hrepr, ← ht, String.ofList_toList]

theorem marks_digits (ds : List (Fin 10)) : Json.marks (ds.map digitChar) = 0 := by
  have hcount : ∀ c : Char, c.isDigit = false → (ds.map digitChar).count c = 0 := by
    intro c hc
    refine List.count_eq_zero.mpr fun hmem => ?_
    obtain ⟨d, -, hd⟩ := List.mem_map.mp hmem
    exact digitChar_ne hc d hd
  simp only [Json.marks, hcount '+' (by decide), hcount '-' (by decide)]

theorem marks_mantissaText (whole fraction : List (Fin 10)) :
    Json.marks (mantissaText whole fraction) = 0 := by
  simp only [mantissaText, Json.marks_append, marks_digits]
  split_ifs
  · rfl
  · rw [Json.marks_cons_of_ne (by decide) (by decide), marks_digits]

theorem marks_text (l : NumberLiteral) : Json.marks l.text =
    (if l.negative then 1 else 0) + if l.exponent.isSome then 1 else 0 := by
  have hsign : Json.marks (if l.negative then ['-'] else []) = if l.negative then 1 else 0 := by
    cases l.negative <;> rfl
  have hexp : Json.marks (exponentText l.exponent) = if l.exponent.isSome then 1 else 0 := by
    rcases l.exponent with _ | ⟨negative, ds⟩
    · rfl
    · have hcons : exponentText (some (negative, ds)) =
          'e' :: ([if negative then '-' else '+'] ++ ds.map digitChar) := rfl
      rw [hcons, Json.marks_cons_of_ne (by decide) (by decide), Json.marks_append, marks_digits]
      cases negative <;> rfl
  simp only [text, Json.marks_append, marks_mantissaText, hsign, hexp, Nat.zero_add]

theorem marks_repr (n : ℕ) : Json.marks (Nat.repr n).toList = 0 := by
  have hcount : ∀ c : Char, c.isDigit = false → (Nat.repr n).toList.count c = 0 := by
    intro c hc
    refine List.count_eq_zero.mpr fun hmem => ?_
    rw [Nat.toList_repr] at hmem
    have hdigit := Nat.isDigit_of_mem_toDigits (by decide) (by decide) hmem
    rw [hc] at hdigit
    cases hdigit
  simp only [Json.marks, hcount '+' (by decide), hcount '-' (by decide)]

theorem marks_int_le (n : Decimal) :
    Json.marks (Json.dumps (.int n.toInt)) ≤ if n.negative then 1 else 0 := by
  have hdumps : Json.dumps (.int n.toInt) = (toString n.toInt).toList := rfl
  rw [hdumps, Int.toString_eq_repr, Decimal.toInt]
  cases n.negative with
  | false =>
    have hrepr : Int.repr n.coefficient = Nat.repr n.coefficient := rfl
    simp only [Bool.false_eq_true, if_false, hrepr, marks_repr, le_refl]
  | true =>
    simp only [if_true]
    rw [Int.repr_eq_if]
    split_ifs
    · rw [marks_repr]
      omega
    · have hsign : Json.marks "-".toList = 1 := rfl
      rw [String.toList_append, Json.marks_append, marks_repr, hsign]

/-- `jsonb` never adds marks, and keeps them all for the numbers it keeps only. -/
theorem losesMarks_jsonbNumber :
    Json.LosesMarks (PythonFloat ff) KeptFloat (jsonbNumber ff) := by
  intro t ht
  by_cases hkept : KeptFloat t
  · rw [jsonbNumber_of_kept ht hkept]
    exact ⟨le_rfl, fun _ => hkept⟩
  · have hlt : Json.marks (jsonbNumber ff t).dumps < Json.marks t.toList := by
      obtain ⟨l, ht, hl, hrepr⟩ := ht
      rw [KeptFloat, ht, parse_text] at hkept
      simp only [jsonbNumber, ht, parse_text]
      by_cases hlarge : ∃ ds, l.exponent = some (false, ds)
      · obtain ⟨ds, hds⟩ := hlarge
        have hle := marks_int_le l.decimal
        rw [if_pos (decimal_scale_of_large hl hds), marks_text, hds, Option.isSome_some]
        have hneg : (if l.decimal.negative then 1 else 0) ≤ if l.negative then 1 else 0 := by
          by_cases hneg : l.negative = true
          · rw [if_pos hneg]
            split_ifs <;> omega
          · simp only [decimal, hneg, Bool.false_and, Bool.false_eq_true, if_false, le_refl]
        simp only [if_true]
        omega
      · have hexp : ∀ ds, l.exponent ≠ some (false, ds) := fun ds hds => hlarge ⟨ds, hds⟩
        have hzero : l.negative = true ∧ l.coefficient = 0 := by
          by_contra hzero
          exact hkept ⟨hexp, hzero⟩
        obtain ⟨hneg, hcoefficient⟩ := hzero
        have hdecimal : l.decimal.negative = false := by
          simp only [decimal, hcoefficient, ne_eq, not_true_eq_false, decide_false, Bool.and_false]
        have hmag : l.decimal.magnitude = 0 := magnitude_eq_zero hcoefficient
        rw [if_neg (decimal_scale_ne_zero hl hexp), text_zero hl hneg hcoefficient, hdecimal, hmag,
          ff.repr_zero]
        decide
    exact ⟨hlt.le, fun heq => absurd heq hlt.ne⟩

end DecisionAssurance
