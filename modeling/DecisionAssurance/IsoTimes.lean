import Mathlib.Data.Nat.Digits.Lemmas
import Mathlib.Tactic.IntervalCases
import Mathlib.Tactic.Ring

/-!
# Dates and times as texts

A date with a time of day in microseconds and an offset from UTC, the extended form of ISO 8601 in
which it is written, and the reading of that form: reading undoes writing, for every offset. The
replacing of a text by a character and of the character by the text undo each other likewise.
-/

namespace DecisionAssurance.IsoTimes

def isLeap (year : ℕ) : Bool := year % 4 = 0 && (year % 100 ≠ 0 || year % 400 = 0)

def daysInMonth (year month : ℕ) : ℕ :=
  if month = 2 then if isLeap year then 29 else 28
  else if month = 4 ∨ month = 6 ∨ month = 9 ∨ month = 11 then 30
  else 31

/-- A `datetime`; an offset is in microseconds and less than a day. -/
structure DateTime where
  year : ℕ
  month : ℕ
  day : ℕ
  hour : ℕ
  minute : ℕ
  second : ℕ
  microsecond : ℕ
  offset : Option ℤ
  yearValid : 1 ≤ year ∧ year ≤ 9999
  dateValid : (1 ≤ month ∧ month ≤ 12) ∧ 1 ≤ day ∧ day ≤ daysInMonth year month
  timeValid : hour < 24 ∧ minute < 60 ∧ second < 60 ∧ microsecond < 1000000
  offsetValid : ∀ o, offset = some o → o.natAbs < 86400000000

/-! ## Writing -/

/-- The last digits of a number. -/
def digits : ℕ → ℕ → List Char
  | 0, _ => []
  | width + 1, n => Nat.digitChar (n / 10 ^ width % 10) :: digits width n

def writeFraction (microsecond : ℕ) : List Char :=
  if microsecond = 0 then [] else '.' :: digits 6 microsecond

/-- The seconds of an offset, where it has any. -/
def writeSeconds (second microsecond : ℕ) : List Char :=
  if second = 0 ∧ microsecond = 0 then []
  else ':' :: (digits 2 second ++ writeFraction microsecond)

def writeOffset : Option ℤ → List Char
  | none => []
  | some o =>
    let n := o.natAbs
    (if o < 0 then '-' else '+') :: (digits 2 (n / 3600000000) ++
      ':' :: (digits 2 (n / 60000000 % 60) ++
        writeSeconds (n / 1000000 % 60) (n % 1000000)))

/-- `isoformat()` -/
def isoformat (t : DateTime) : List Char :=
  digits 4 t.year ++ '-' :: (digits 2 t.month ++ '-' :: (digits 2 t.day ++
    'T' :: (digits 2 t.hour ++ ':' :: (digits 2 t.minute ++ ':' :: (digits 2 t.second ++
      (writeFraction t.microsecond ++ writeOffset t.offset))))))

/-! ## Reading -/

/-- A number of so many digits, after the value read so far, and what follows it. -/
def readDigits : ℕ → ℕ → List Char → Option (ℕ × List Char)
  | 0, value, cs => some (value, cs)
  | _ + 1, _, [] => none
  | width + 1, value, c :: cs =>
    if c.isDigit then readDigits width (10 * value + (c.toNat - 48)) cs else none

/-- What follows a character. -/
def expect (c : Char) : List Char → Option (List Char)
  | [] => none
  | d :: cs => if d = c then some cs else none

def readFraction : List Char → Option (ℕ × List Char)
  | '.' :: cs => readDigits 6 0 cs
  | cs => some (0, cs)

def readSeconds : List Char → Option (ℕ × ℕ × List Char)
  | ':' :: cs => do
    let (second, cs) ← readDigits 2 0 cs
    let (microsecond, cs) ← readFraction cs
    return (second, microsecond, cs)
  | cs => some (0, 0, cs)

def readSign : Char → Option ℤ
  | '+' => some 1
  | '-' => some (-1)
  | _ => none

def readOffset : List Char → Option (Option ℤ)
  | [] => some none
  | c :: cs => do
    let sign ← readSign c
    let (hour, cs) ← readDigits 2 0 cs
    let cs ← expect ':' cs
    let (minute, cs) ← readDigits 2 0 cs
    let (second, microsecond, cs) ← readSeconds cs
    if cs = [] ∧ minute < 60 ∧ second < 60 then
      return some (sign * (((hour * 60 + minute) * 60 + second) * 1000000 + microsecond : ℕ))
    else none

/-- The date and time of these fields, if there is one. -/
def build (year month day hour minute second microsecond : ℕ) (offset : Option ℤ) :
    Option DateTime :=
  if hyear : 1 ≤ year ∧ year ≤ 9999 then
    if hdate : (1 ≤ month ∧ month ≤ 12) ∧ 1 ≤ day ∧ day ≤ daysInMonth year month then
      if htime : hour < 24 ∧ minute < 60 ∧ second < 60 ∧ microsecond < 1000000 then
        if hoffset : offset.all (fun o => o.natAbs < 86400000000) = true then
          some ⟨year, month, day, hour, minute, second, microsecond, offset, hyear, hdate, htime, by
            intro o ho
            simpa [ho] using hoffset⟩
        else none
      else none
    else none
  else none

/-- The extended form that `isoformat` writes. -/
def readIso (cs : List Char) : Option DateTime := do
  let (year, cs) ← readDigits 4 0 cs
  let cs ← expect '-' cs
  let (month, cs) ← readDigits 2 0 cs
  let cs ← expect '-' cs
  let (day, cs) ← readDigits 2 0 cs
  let cs ← expect 'T' cs
  let (hour, cs) ← readDigits 2 0 cs
  let cs ← expect ':' cs
  let (minute, cs) ← readDigits 2 0 cs
  let cs ← expect ':' cs
  let (second, cs) ← readDigits 2 0 cs
  let (microsecond, cs) ← readFraction cs
  let offset ← readOffset cs
  build year month day hour minute second microsecond offset

/-! ## Reading what is written -/

theorem some_bind {α β : Type} (a : α) (f : α → Option β) : (some a >>= f) = f a := rfl

theorem digitChar_isDigit {d : ℕ} (h : d < 10) :
    (Nat.digitChar d).isDigit = true ∧ (Nat.digitChar d).toNat - 48 = d := by
  interval_cases d <;> decide

theorem readDigits_digits (width value n : ℕ) (rest : List Char) :
    readDigits width value (digits width n ++ rest) =
      some (value * 10 ^ width + n % 10 ^ width, rest) := by
  induction width generalizing value with
  | zero => simp [readDigits, digits, Nat.mod_one]
  | succ width ih =>
    obtain ⟨hdigit, hvalue⟩ := digitChar_isDigit (Nat.mod_lt (n / 10 ^ width) (by norm_num))
    rw [digits, List.cons_append, readDigits, if_pos hdigit, hvalue, ih, Nat.mod_pow_succ]
    congr 2
    ring

theorem read_two {n : ℕ} (h : n < 100) (rest : List Char) :
    readDigits 2 0 (digits 2 n ++ rest) = some (n, rest) := by
  rw [readDigits_digits, Nat.mod_eq_of_lt (by omega), Nat.zero_mul, Nat.zero_add]

@[simp] theorem expect_cons (c : Char) (cs : List Char) : expect c (c :: cs) = some cs := by
  simp [expect]

/-- The first character ends a number and a fraction. -/
def Ends (rest : List Char) : Prop := ∀ c, rest.head? = some c → c ≠ '.' ∧ c ≠ ':'

theorem readFraction_write {microsecond : ℕ} (h : microsecond < 1000000) {rest : List Char}
    (hrest : Ends rest) :
    readFraction (writeFraction microsecond ++ rest) = some (microsecond, rest) := by
  unfold writeFraction
  by_cases hzero : microsecond = 0
  · rw [if_pos hzero, List.nil_append, hzero]
    cases rest with
    | nil => rfl
    | cons c rest =>
      have hc := (hrest c rfl).1
      unfold readFraction
      split
      · next heq => exact absurd (List.cons.inj heq).1 hc
      · rfl
  · rw [if_neg hzero, List.cons_append, readFraction, readDigits_digits,
      Nat.mod_eq_of_lt (by omega), Nat.zero_mul, Nat.zero_add]

theorem ends_nil : Ends [] := by simp [Ends]

theorem readSeconds_write {second microsecond : ℕ} (hsecond : second < 60)
    (hmicrosecond : microsecond < 1000000) :
    readSeconds (writeSeconds second microsecond) = some (second, microsecond, []) := by
  unfold writeSeconds
  by_cases hzero : second = 0 ∧ microsecond = 0
  · rw [if_pos hzero, hzero.1, hzero.2]
    rfl
  · have hfraction := readFraction_write hmicrosecond ends_nil
    rw [List.append_nil] at hfraction
    rw [if_neg hzero]
    simp [readSeconds, read_two (show second < 100 by omega), hfraction]

theorem readOffset_write {offset : Option ℤ}
    (h : ∀ o, offset = some o → o.natAbs < 86400000000) :
    readOffset (writeOffset offset) = some offset := by
  cases offset with
  | none => rfl
  | some o =>
    have hbound := h o rfl
    have hhour : o.natAbs / 3600000000 < 100 := by omega
    have hminute : o.natAbs / 60000000 % 60 < 100 := by omega
    have hseconds := readSeconds_write (show o.natAbs / 1000000 % 60 < 60 by omega)
      (show o.natAbs % 1000000 < 1000000 by omega)
    have hsum : ((o.natAbs / 3600000000 * 60 + o.natAbs / 60000000 % 60) * 60 +
        o.natAbs / 1000000 % 60) * 1000000 + o.natAbs % 1000000 = o.natAbs := by omega
    have hchecks : o.natAbs / 60000000 % 60 < 60 ∧ o.natAbs / 1000000 % 60 < 60 := by omega
    by_cases hsign : o < 0
    · have habs : (-1 : ℤ) * (o.natAbs : ℕ) = o := by omega
      simp only [writeOffset, hsign, if_true, readOffset, readSign, some_bind, read_two hhour,
        expect_cons, read_two hminute, hseconds, true_and, hchecks, and_self, hsum, habs]
      rfl
    · have habs : (1 : ℤ) * (o.natAbs : ℕ) = o := by omega
      simp only [writeOffset, hsign, if_false, readOffset, readSign, some_bind, read_two hhour,
        expect_cons, read_two hminute, hseconds, true_and, hchecks, and_self, hsum, habs, if_true]
      rfl

theorem ends_writeOffset (offset : Option ℤ) : Ends (writeOffset offset) := by
  cases offset with
  | none => exact ends_nil
  | some o =>
    intro c hc
    by_cases hsign : o < 0
    · simp only [writeOffset, hsign, if_true, List.head?_cons, Option.some.injEq] at hc
      subst hc
      decide
    · simp only [writeOffset, hsign, if_false, List.head?_cons, Option.some.injEq] at hc
      subst hc
      decide

theorem daysInMonth_le (year month : ℕ) : daysInMonth year month ≤ 31 := by
  unfold daysInMonth
  split_ifs <;> omega

theorem build_fields (t : DateTime) :
    build t.year t.month t.day t.hour t.minute t.second t.microsecond t.offset = some t := by
  have hoffset : t.offset.all (fun o => o.natAbs < 86400000000) = true := by
    cases h : t.offset with
    | none => rfl
    | some o => simpa using t.offsetValid o h
  rw [build, dif_pos t.yearValid, dif_pos t.dateValid, dif_pos t.timeValid, dif_pos hoffset]

/-- What `isoformat` writes is read as it was. -/
theorem readIso_isoformat (t : DateTime) : readIso (isoformat t) = some t := by
  have hyear := t.yearValid
  obtain ⟨⟨-, hmonth⟩, -, hday⟩ := t.dateValid
  obtain ⟨hhour, hminute, hsecond, hmicrosecond⟩ := t.timeValid
  have hdays := daysInMonth_le t.year t.month
  have hfour (rest : List Char) :
      readDigits 4 0 (digits 4 t.year ++ rest) = some (t.year, rest) := by
    rw [readDigits_digits, Nat.mod_eq_of_lt (by omega), Nat.zero_mul, Nat.zero_add]
  simp only [readIso, isoformat, some_bind, hfour, expect_cons,
    read_two (show t.month < 100 by omega), read_two (show t.day < 100 by omega),
    read_two (show t.hour < 100 by omega), read_two (show t.minute < 100 by omega),
    read_two (show t.second < 100 by omega),
    readFraction_write hmicrosecond (ends_writeOffset t.offset), readOffset_write t.offsetValid]
  exact build_fields t

/-! ## The form of what is written -/

@[simp] theorem length_digits (width n : ℕ) : (digits width n).length = width := by
  induction width with
  | zero => rfl
  | succ width ih => rw [digits, List.length_cons, ih]

theorem mem_digits {width n : ℕ} {c : Char} (h : c ∈ digits width n) : c.isDigit = true := by
  induction width with
  | zero => cases h
  | succ width ih =>
    rcases List.mem_cons.mp h with rfl | h
    · exact (digitChar_isDigit (Nat.mod_lt _ (by norm_num))).1
    · exact ih h

/-- The characters of a time that is written. -/
def isTimeChar (c : Char) : Bool := c.isDigit || c ∈ ['-', 'T', ':', '.', '+']

theorem all_digits (width n : ℕ) : (digits width n).all isTimeChar = true := by
  rw [List.all_eq_true]
  intro c hc
  simp [isTimeChar, mem_digits hc]

theorem all_writeFraction (microsecond : ℕ) :
    (writeFraction microsecond).all isTimeChar = true := by
  unfold writeFraction
  split_ifs with h
  · rfl
  · simp [all_digits, isTimeChar]

theorem all_writeOffset (offset : Option ℤ) : (writeOffset offset).all isTimeChar = true := by
  cases offset with
  | none => rfl
  | some o =>
    have hsign : isTimeChar (if o < 0 then '-' else '+') = true := by
      split_ifs <;> decide
    have hcolon : isTimeChar ':' = true := by decide
    simp only [writeOffset, writeSeconds, List.all_cons, List.all_append, all_digits, hsign, hcolon,
      Bool.true_and]
    split_ifs
    · rfl
    · simp only [List.all_cons, List.all_append, all_digits, all_writeFraction, hcolon,
        Bool.true_and]

theorem all_isoformat (t : DateTime) : (isoformat t).all isTimeChar = true := by
  have hcolon : isTimeChar ':' = true := by decide
  have hdash : isTimeChar '-' = true := by decide
  have hmark : isTimeChar 'T' = true := by decide
  simp only [isoformat, List.all_cons, List.all_append, all_digits, all_writeFraction,
    all_writeOffset, hcolon, hdash, hmark, Bool.true_and]

theorem not_mem_isoformat (t : DateTime) {c : Char} (h : isTimeChar c = false) :
    c ∉ isoformat t := by
  intro hc
  have htime := List.all_eq_true.mp (all_isoformat t) c hc
  rw [h] at htime
  cases htime

theorem length_writeFraction (microsecond : ℕ) : (writeFraction microsecond).length ≤ 7 := by
  unfold writeFraction
  split_ifs <;> simp

theorem length_writeOffset (offset : Option ℤ) : (writeOffset offset).length ≤ 16 := by
  cases offset with
  | none => simp [writeOffset]
  | some o =>
    have hfraction := length_writeFraction (o.natAbs % 1000000)
    simp only [writeOffset, writeSeconds, List.length_cons, List.length_append, length_digits]
    split_ifs
    · simp
    · simp only [List.length_cons, List.length_append, length_digits]
      omega

theorem length_isoformat (t : DateTime) :
    0 < (isoformat t).length ∧ (isoformat t).length ≤ 42 := by
  have hfraction := length_writeFraction t.microsecond
  have hoffset := length_writeOffset t.offset
  simp only [isoformat, List.length_cons, List.length_append, length_digits]
  omega

/-! ## Replacing -/

section Replacing

variable {α : Type} [DecidableEq α]

/-- Each occurrence of a text by another, from the left, after so many skipped characters. -/
def replaceFrom (old new : List α) : ℕ → List α → List α
  | _, [] => []
  | n + 1, _ :: cs => replaceFrom old new n cs
  | 0, c :: cs =>
    if old.isPrefixOf (c :: cs) then new ++ replaceFrom old new (old.length - 1) cs
    else c :: replaceFrom old new 0 cs

/-- `text.replace(old, new)` -/
def replace (old new cs : List α) : List α := replaceFrom old new 0 cs

/-- Each occurrence of a character by a text. -/
def replaceChar (c : α) (new cs : List α) : List α :=
  cs.flatMap fun d => if d = c then new else [d]

theorem replaceChar_replaceFrom {c : α} {old cs : List α} (hold : old ≠ []) (hcs : c ∉ cs)
    (n : ℕ) : replaceChar c old (replaceFrom old [c] n cs) = cs.drop n := by
  induction cs generalizing n with
  | nil => simp [replaceFrom, replaceChar]
  | cons d cs ih =>
    have hrest : c ∉ cs := fun h => hcs (List.mem_cons_of_mem d h)
    cases n with
    | succ n => exact ih hrest n
    | zero =>
      unfold replaceFrom
      by_cases hprefix : old.isPrefixOf (d :: cs) = true
      · have hlength : 0 < old.length := List.length_pos_of_ne_nil hold
        have happend := List.prefix_iff_eq_append.mp (List.isPrefixOf_iff_prefix.mp hprefix)
        rw [if_pos hprefix, List.singleton_append, replaceChar, List.flatMap_cons, if_pos rfl]
        have hdrop : (d :: cs).drop old.length = cs.drop (old.length - 1) := by
          obtain ⟨k, hk⟩ : ∃ k, old.length = k + 1 := ⟨old.length - 1, by omega⟩
          rw [hk, List.drop_succ_cons, Nat.add_sub_cancel]
        rw [List.drop_zero, ← happend, hdrop]
        exact congrArg (old ++ ·) (ih hrest _)
      · have hne : d ≠ c := fun h => hcs (by rw [h]; exact List.mem_cons_self)
        rw [if_neg hprefix, replaceChar, List.flatMap_cons, if_neg hne]
        exact congrArg (d :: ·) (ih hrest 0)

/-- Replacing a text by a new character is undone by replacing the character. -/
theorem replaceChar_replace {c : α} {old cs : List α} (hold : old ≠ []) (hcs : c ∉ cs) :
    replaceChar c old (replace old [c] cs) = cs :=
  replaceChar_replaceFrom hold hcs 0

theorem length_replaceFrom (c : α) (old cs : List α) (n : ℕ) :
    (replaceFrom old [c] n cs).length ≤ cs.length := by
  induction cs generalizing n with
  | nil => simp [replaceFrom]
  | cons d cs ih =>
    cases n with
    | succ n => exact (ih n).trans (Nat.le_succ _)
    | zero =>
      unfold replaceFrom
      have hskipped := ih (old.length - 1)
      have hkept := ih 0
      split_ifs
      · rw [List.length_append, List.length_singleton, List.length_cons]
        omega
      · rw [List.length_cons, List.length_cons]
        omega

theorem length_replace (c : α) (old cs : List α) : (replace old [c] cs).length ≤ cs.length :=
  length_replaceFrom c old cs 0

theorem replace_ne_nil (c : α) (old : List α) {cs : List α} (h : cs ≠ []) :
    replace old [c] cs ≠ [] := by
  cases cs with
  | nil => exact absurd rfl h
  | cons d cs =>
    unfold replace replaceFrom
    split_ifs <;> simp

end Replacing

end DecisionAssurance.IsoTimes
