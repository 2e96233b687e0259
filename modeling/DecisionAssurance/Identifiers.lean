import Mathlib.Data.List.Basic

/-!
# Identifier patterns, numbered ids and blank texts

The regular expressions the contracts put on identifiers all have the form of one letter or
digit followed by a bounded number of letters, digits and a few extra characters.
-/

namespace DecisionAssurance

/-- `[A-Za-z0-9][A-Za-z0-9…]{0,n}` with the extra characters of the class. -/
def matchesIdentifier (extra : List Char) (n : Nat) : List Char → Bool
  | [] => false
  | c :: cs =>
    c.isAlphanum && decide (cs.length ≤ n) && cs.all fun d => d.isAlphanum || extra.contains d

/-- `_TENANT_ID`, matched in full. -/
def isTenantId (s : String) : Bool := matchesIdentifier ['.', '_', '-'] 127 s.toList

/-- `_ID` of the production and research contracts, matched in full. -/
def isContractId (s : String) : Bool := matchesIdentifier ['.', '_', ':', '-'] 255 s.toList

theorem matchesIdentifier_length {extra : List Char} {n : Nat} {cs : List Char}
    (h : matchesIdentifier extra n cs = true) : cs.length ≤ n + 1 := by
  cases cs with
  | nil => cases h
  | cons c cs =>
    simp only [matchesIdentifier, Bool.and_eq_true, decide_eq_true_eq] at h
    rw [List.length_cons]
    exact Nat.succ_le_succ h.1.2

/-- The characters `str.isspace` holds of. -/
def isSpace (c : Char) : Bool :=
  let n := c.toNat
  (9 ≤ n && n ≤ 13) || (28 ≤ n && n ≤ 32) || n = 0x85 || n = 0xA0 || n = 0x1680 ||
    (0x2000 ≤ n && n ≤ 0x200A) || n = 0x2028 || n = 0x2029 || n = 0x202F || n = 0x205F ||
    n = 0x3000

/-- `not value.strip()` -/
def isBlank (s : String) : Bool := s.toList.all isSpace

/-- `value.split()`: the maximal runs of characters that are no white space. -/
def words (cs : List Char) : List (List Char) :=
  (cs.splitOnP isSpace).filter fun w => !w.isEmpty

/-- `value.strip()` -/
def strip (cs : List Char) : List Char :=
  ((cs.dropWhile isSpace).reverse.dropWhile isSpace).reverse

theorem repr_injective : Function.Injective Nat.repr := by
  intro m n h
  have hdigits := congrArg (fun text => Nat.ofDigitChars 10 text.toList 0) h
  simpa using hdigits

/-- Numbered ids of one stem differ. -/
theorem numbered_injective (stem : String) (tag : String) :
    Function.Injective fun n : ℕ => s!"{stem}{tag}{toString n}" := by
  intro m n h
  have hchars := congrArg String.toList h
  simp only [toString, String.toList_append, List.append_assoc, List.append_cancel_left_eq] at hchars
  exact repr_injective (String.toList_inj.mp hchars)

/-- A tenant; building one checks `_TENANT_ID`. -/
structure TenantContext where
  tenantId : String
  valid : isTenantId tenantId = true
  deriving DecidableEq

/-- A tenant of the examples. -/
def tenantA : TenantContext := ⟨"tenant-a", by decide⟩

end DecisionAssurance
