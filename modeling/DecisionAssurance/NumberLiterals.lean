import Mathlib.Algebra.Field.Rat
import DecisionAssurance.Json

/-!
# Number literals and exact decimals

The literals of JSON numbers by their digits, and the exact decimal that a literal denotes: it
keeps the digits after the point that the literal has, and knows no negative zero.
-/

namespace DecisionAssurance

structure NumberLiteral where
  negative : Bool
  whole : List (Fin 10)
  fraction : List (Fin 10)
  /-- The sign and the digits after `e`. -/
  exponent : Option (Bool × List (Fin 10))
  deriving DecidableEq

def digitChar (d : Fin 10) : Char := Char.ofNat (48 + d)

def digitOf (c : Char) : Fin 10 := Fin.ofNat 10 (c.toNat - 48)

def digitsValue (ds : List (Fin 10)) : ℕ := ds.foldl (fun n d => 10 * n + d) 0

namespace NumberLiteral

def exponentText : Option (Bool × List (Fin 10)) → List Char
  | none => []
  | some (negative, ds) => 'e' :: (if negative then '-' else '+') :: ds.map digitChar

def mantissaText (whole fraction : List (Fin 10)) : List Char :=
  whole.map digitChar ++ if fraction.isEmpty then [] else '.' :: fraction.map digitChar

/-- A literal as Python writes floating point numbers. -/
def text (l : NumberLiteral) : List Char :=
  (if l.negative then ['-'] else []) ++
    (mantissaText l.whole l.fraction ++ exponentText l.exponent)

def parseSign : List Char → Bool × List Char
  | '-' :: cs => (true, cs)
  | cs => (false, cs)

def parseExponent : List Char → Option (Bool × List (Fin 10))
  | [] => none
  | _ :: '-' :: cs => some (true, cs.map digitOf)
  | _ :: '+' :: cs => some (false, cs.map digitOf)
  | _ :: cs => some (false, cs.map digitOf)

def parse (cs : List Char) : NumberLiteral :=
  let (negative, cs) := parseSign cs
  let mantissa := cs.takeWhile (· ≠ 'e')
  { negative := negative
    whole := (mantissa.takeWhile (· ≠ '.')).map digitOf
    fraction := ((mantissa.dropWhile (· ≠ '.')).drop 1).map digitOf
    exponent := parseExponent (cs.dropWhile (· ≠ 'e')) }

/-- The digits of a literal without its point. -/
def coefficient (l : NumberLiteral) : ℕ := digitsValue (l.whole ++ l.fraction)

def exponentValue (l : NumberLiteral) : ℤ :=
  match l.exponent with
  | none => 0
  | some (true, ds) => -digitsValue ds
  | some (false, ds) => digitsValue ds

end NumberLiteral

/-- An exact decimal: `coefficient / 10 ^ scale`, with `scale` digits after the point. -/
structure Decimal where
  negative : Bool
  coefficient : ℕ
  scale : ℕ
  deriving DecidableEq

namespace Decimal

def magnitude (n : Decimal) : ℚ := n.coefficient / 10 ^ n.scale

def toInt (n : Decimal) : ℤ := if n.negative then -n.coefficient else n.coefficient

end Decimal

namespace NumberLiteral

/-- The exact decimal of a literal. -/
def decimal (l : NumberLiteral) : Decimal :=
  let scale := (l.fraction.length : ℤ) - l.exponentValue
  { negative := l.negative && l.coefficient ≠ 0
    coefficient := l.coefficient * 10 ^ (-scale).toNat
    scale := scale.toNat }

def magnitude (l : NumberLiteral) : ℚ := l.decimal.magnitude

example : (parse "-12.50".toList).decimal = ⟨true, 1250, 2⟩ ∧
    (parse "1e-05".toList).decimal = ⟨false, 1, 5⟩ ∧
    (parse "1.5e+16".toList).decimal = ⟨false, 15000000000000000, 0⟩ ∧
    (parse "-0.0".toList).decimal = ⟨false, 0, 1⟩ := by decide

/-! ## Parsing what was written -/

theorem digitOf_digitChar (d : Fin 10) : digitOf (digitChar d) = d := by
  revert d
  decide

theorem digitChar_ne {c : Char} (hc : c.isDigit = false) (d : Fin 10) : digitChar d ≠ c := by
  have hdigit : ∀ d : Fin 10, (digitChar d).isDigit = true := by decide
  intro h
  rw [← h, hdigit d] at hc
  cases hc

theorem map_digitOf_digitChar (ds : List (Fin 10)) : (ds.map digitChar).map digitOf = ds := by
  rw [List.map_map]
  exact (List.map_congr_left fun d _ => digitOf_digitChar d).trans (List.map_id ds)

theorem ne_of_mem_digits {c : Char} (hc : c.isDigit = false) {ds : List (Fin 10)} :
    ∀ x ∈ ds.map digitChar, decide (x ≠ c) = true := by
  intro x hx
  obtain ⟨d, -, rfl⟩ := List.mem_map.mp hx
  exact decide_eq_true (digitChar_ne hc d)

theorem ne_e_of_mem_mantissa {whole fraction : List (Fin 10)} :
    ∀ x ∈ mantissaText whole fraction, decide (x ≠ 'e') = true := by
  intro x hx
  rcases List.mem_append.mp hx with hx | hx
  · exact ne_of_mem_digits (by decide) x hx
  · split_ifs at hx
    · cases hx
    · rcases List.mem_cons.mp hx with rfl | hx
      · decide
      · exact ne_of_mem_digits (by decide) x hx

theorem takeWhile_exponentText (e : Option (Bool × List (Fin 10))) :
    (exponentText e).takeWhile (fun c => decide (c ≠ 'e')) = [] := by
  cases e with
  | none => rfl
  | some e => rfl

theorem dropWhile_exponentText (e : Option (Bool × List (Fin 10))) :
    (exponentText e).dropWhile (fun c => decide (c ≠ 'e')) = exponentText e := by
  cases e with
  | none => rfl
  | some e => rfl

theorem parseExponent_exponentText (e : Option (Bool × List (Fin 10))) :
    parseExponent (exponentText e) = e := by
  rcases e with _ | ⟨negative, ds⟩
  · rfl
  · cases negative with
    | true => simp only [exponentText, if_true, parseExponent, map_digitOf_digitChar]
    | false =>
      simp only [exponentText, Bool.false_eq_true, if_false, parseExponent, map_digitOf_digitChar]

theorem parseSign_cons_of_ne {c : Char} (h : c ≠ '-') (cs : List Char) :
    parseSign (c :: cs) = (false, c :: cs) := by
  unfold parseSign
  split
  · rename_i hcs
    exact absurd (List.cons.inj hcs).1 h
  · rfl

theorem parseSign_text (l : NumberLiteral) :
    parseSign l.text = (l.negative, mantissaText l.whole l.fraction ++ exponentText l.exponent) := by
  obtain ⟨negative, whole, fraction, exponent⟩ := l
  cases negative with
  | true => rfl
  | false =>
    cases whole with
    | cons d ds =>
      have hne : digitChar d ≠ '-' := digitChar_ne (by decide) d
      simp only [text, mantissaText, List.map_cons, List.cons_append, Bool.false_eq_true, if_false,
        List.nil_append]
      exact parseSign_cons_of_ne hne _
    | nil =>
      cases fraction with
      | cons d ds => rfl
      | nil =>
        rcases exponent with _ | ⟨n, ds⟩
        · rfl
        · rfl

theorem parse_text (l : NumberLiteral) : parse l.text = l := by
  obtain ⟨negative, whole, fraction, exponent⟩ := l
  have htake : (mantissaText whole fraction ++ exponentText exponent).takeWhile
      (fun c => decide (c ≠ 'e')) = mantissaText whole fraction := by
    rw [List.takeWhile_append_of_pos ne_e_of_mem_mantissa, takeWhile_exponentText,
      List.append_nil]
  have hdrop : (mantissaText whole fraction ++ exponentText exponent).dropWhile
      (fun c => decide (c ≠ 'e')) = exponentText exponent := by
    rw [List.dropWhile_append_of_pos ne_e_of_mem_mantissa, dropWhile_exponentText]
  have hwhole : (mantissaText whole fraction).takeWhile (fun c => decide (c ≠ '.')) =
      whole.map digitChar := by
    unfold mantissaText
    rw [List.takeWhile_append_of_pos (ne_of_mem_digits (by decide))]
    split_ifs
    · simp only [List.takeWhile_nil, List.append_nil]
    · simp only [ne_eq, not_true_eq_false, decide_false, Bool.false_eq_true, not_false_eq_true,
        List.takeWhile_cons_of_neg, List.append_nil]
  have hfraction : ((mantissaText whole fraction).dropWhile (fun c => decide (c ≠ '.'))).drop 1 =
      fraction.map digitChar := by
    unfold mantissaText
    rw [List.dropWhile_append_of_pos (ne_of_mem_digits (by decide))]
    split_ifs with hempty
    · rw [List.isEmpty_iff.mp hempty]
      rfl
    · simp only [ne_eq, not_true_eq_false, decide_false, Bool.false_eq_true, not_false_eq_true,
        List.dropWhile_cons_of_neg, List.drop_succ_cons, List.drop_zero]
  simp only [parse, parseSign_text, htake, hdrop, hwhole, hfraction, map_digitOf_digitChar,
    parseExponent_exponentText]

end NumberLiteral

end DecisionAssurance
