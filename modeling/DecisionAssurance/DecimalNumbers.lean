import Mathlib.Algebra.Order.Group.Unbundled.Int
import Mathlib.Data.Nat.Digits.Defs
import DecisionAssurance.Identifiers

/-!
# Decimal floating point numbers

The numbers of the general decimal arithmetic, without rounding: parsing, the order comparisons
(which signal on a NaN), truncation, the scientific text and the text without an exponent.
-/

namespace DecisionAssurance

inductive DecimalNumber
  | finite (negative : Bool) (coefficient : ℕ) (exponent : ℤ)
  | infinite (negative : Bool)
  | nan
  deriving DecidableEq

namespace DecimalNumber

/-! ## Parsing -/

/-- The value of the leading digits, their number, and what follows them. -/
def readDigits : ℕ → ℕ → List Char → ℕ × ℕ × List Char
  | value, n, c :: cs =>
    if c.isDigit then readDigits (10 * value + (c.toNat - 48)) (n + 1) cs else (value, n, c :: cs)
  | value, n, [] => (value, n, [])

def readSign : List Char → Bool × List Char
  | '-' :: cs => (true, cs)
  | '+' :: cs => (false, cs)
  | cs => (false, cs)

/-- `(E[-+]?\d+)?` up to the end of the text -/
def readExponent : List Char → Option ℤ
  | [] => some 0
  | c :: cs =>
    if c ≠ 'e' ∧ c ≠ 'E' then none
    else
      let (negative, cs) := readSign cs
      let (value, n, rest) := readDigits 0 0 cs
      if n = 0 ∨ rest ≠ [] then none else some (if negative then -value else value)

/-- The number of digits of a coefficient. -/
def digitCount (coefficient : ℕ) : ℕ := (Nat.toDigits 10 coefficient).length

/-- The decimal places, digits and exponents the widest context represents exactly. -/
def inRange (places coefficient : ℕ) (exponent : ℤ) : Bool :=
  places ≤ 999999999999999999 ∧ digitCount coefficient ≤ 999999999999999999 ∧
    -1999999999999999997 ≤ exponent ∧ exponent + digitCount coefficient - 1 ≤ 999999999999999999

def readFinite (negative : Bool) (cs : List Char) : Option DecimalNumber :=
  let (whole, n, cs) := readDigits 0 0 cs
  let (coefficient, m, cs) := match cs with
    | '.' :: cs => readDigits whole 0 cs
    | cs => (whole, 0, cs)
  if n + m = 0 then none
  else match readExponent cs with
    | none => none
    | some e =>
      if inRange m coefficient (e - m) then some (finite negative coefficient (e - m)) else none

def isNan (cs : List Char) : Bool :=
  let cs := if cs.take 1 = ['s'] then cs.drop 1 else cs
  cs.take 3 = ['n', 'a', 'n'] && (cs.drop 3).all Char.isDigit

/-- The digits of other scripts count as the ASCII ones; underscores do not count. -/
def asciiNumeric (decimal : Char → Option ℕ) (cs : List Char) : List Char :=
  (strip cs).filterMap fun c =>
    if c = '_' then none
    else some (match decimal c with
      | some d => Char.ofNat (48 + d)
      | none => c)

/-- `Decimal(text)`, where it does not raise -/
def parse (decimal : Char → Option ℕ) (cs : List Char) : Option DecimalNumber :=
  let (negative, cs) := readSign (asciiNumeric decimal cs)
  let lowered := cs.map Char.toLower
  if lowered = "inf".toList ∨ lowered = "infinity".toList then some (infinite negative)
  else if isNan lowered then some nan
  else readFinite negative cs

/-! ## Comparing and truncating -/

def signed (negative : Bool) (n : ℕ) : ℤ := if negative then -n else n

/-- `a < b`, where neither is a NaN -/
def less : DecimalNumber → DecimalNumber → Option Bool
  | nan, _ => none
  | _, nan => none
  | infinite a, infinite b => some (a && !b)
  | infinite a, finite _ _ _ => some a
  | finite _ _ _, infinite b => some !b
  | finite s c e, finite s' c' e' =>
    some (signed s (c * 10 ^ (e - min e e').toNat) < signed s' (c' * 10 ^ (e' - min e e').toNat))

/-- `int(a)`, where it is finite -/
def truncate : DecimalNumber → Option ℤ
  | finite s c (.ofNat e) => some (signed s (c * 10 ^ e))
  | finite s c (.negSucc e) => some (signed s (c / 10 ^ (e + 1)))
  | _ => none

/-! ## Texts -/

/-- The digits with the point after `dotplace` of them. -/
def layout (digits : List Char) (dotplace : ℤ) : List Char :=
  if dotplace ≤ 0 then '0' :: '.' :: List.replicate (-dotplace).toNat '0' ++ digits
  else if digits.length ≤ dotplace.toNat then
    digits ++ List.replicate (dotplace.toNat - digits.length) '0'
  else digits.take dotplace.toNat ++ '.' :: digits.drop dotplace.toNat

def signText (negative : Bool) : List Char := if negative then ['-'] else []

/-- `str(a)` -/
def text : DecimalNumber → List Char
  | nan => "NaN".toList
  | infinite s => signText s ++ "Infinity".toList
  | finite s c e =>
    let digits := Nat.toDigits 10 c
    let leftdigits := e + digits.length
    if e ≤ 0 ∧ -6 < leftdigits then signText s ++ layout digits leftdigits
    else
      let exponent := leftdigits - 1
      signText s ++ layout digits 1 ++ 'E' :: (if exponent < 0 then '-' else '+') ::
        Nat.toDigits 10 exponent.natAbs

/-- `format(a, "f")` -/
def fixedText : DecimalNumber → List Char
  | finite s c e =>
    let digits := Nat.toDigits 10 (if 0 < e then c * 10 ^ e.toNat else c)
    signText s ++ layout digits (min e 0 + digits.length)
  | a => a.text

end DecimalNumber

end DecisionAssurance
