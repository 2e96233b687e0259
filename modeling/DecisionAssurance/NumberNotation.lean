import DecisionAssurance.DecimalTexts
import DecisionAssurance.IntakeTrust

/-!
# Numbers in the notation of a locale

Groups of digits and a decimal separator as a locale writes them. Whatever the locale, the
separators of a number are taken for what they are, so the normalized text denotes the number as
long as a decimal can hold it.
-/

namespace DecisionAssurance.Intake

open DecimalNumber QuoteExtractor

/-- A number as it is written: digits, ungrouped or in groups of three, and the digits after the
decimal separator if there are any. -/
structure WrittenNumber (decimal : Char → Option ℕ) where
  head : List Char
  groups : List (List Char)
  fraction : List Char
  head_ne : head ≠ []
  grouped : groups ≠ [] → head.length ≤ 3
  threes : ∀ g ∈ groups, g.length = 3
  digits : ∀ c ∈ head ++ groups.flatten ++ fraction, (decimal c).isSome = true

namespace WrittenNumber

variable {decimal : Char → Option ℕ} (n : WrittenNumber decimal)

def whole : List Char := n.head ++ n.groups.flatten

/-- The digits of the number without its separators. -/
def coefficient : ℕ := digitsNumber decimal (n.whole ++ n.fraction)

def value : ℚ := n.coefficient / 10 ^ n.fraction.length

/-- The limits of what a decimal holds exactly. -/
def Representable : Prop :=
  inRange n.fraction.length n.coefficient (-n.fraction.length) = true

def text (group point : Char) : List Char :=
  n.head ++ n.groups.flatMap (group :: ·) ++ if n.fraction = [] then [] else point :: n.fraction

/-- The number in the notation of a locale, English unless German. -/
def textIn (locale : String) : List Char :=
  if locale = "de" then n.text '.' ',' else n.text ',' '.'

variable {n}

theorem whole_ne : n.whole ≠ [] := by
  unfold whole
  simp [n.head_ne]

theorem ne_of_digit {c : Char} (hc : decimal c = none) :
    c ∉ n.head ∧ (∀ g ∈ n.groups, c ∉ g) ∧ c ∉ n.fraction := by
  have hnot : c ∉ n.head ++ n.groups.flatten ++ n.fraction := by
    intro hmem
    have hdigit := n.digits c hmem
    rw [hc] at hdigit
    cases hdigit
  simp only [List.mem_append, not_or, List.mem_flatten, not_exists, not_and] at hnot
  exact ⟨hnot.1.1, hnot.1.2, hnot.2⟩

theorem filter_flatMap {group : Char} {groups : List (List Char)} (h : ∀ g ∈ groups, group ∉ g) :
    (groups.flatMap (group :: ·)).filter (· ≠ group) = groups.flatten := by
  induction groups with
  | nil => rfl
  | cons g groups ih =>
    have hg : g.filter (· ≠ group) = g := by
      apply List.filter_eq_self.mpr
      rintro c hc
      apply decide_eq_true
      rintro rfl
      exact h g List.mem_cons_self hc
    have hrest := ih fun k hk => h k (List.mem_cons_of_mem _ hk)
    simp only [List.flatMap_cons, List.filter_append, List.flatten_cons, hrest]
    simpa using hg

/-- Without its group separators the text is plain but for the decimal separator. -/
theorem filter_text {group point : Char} (hgroup : decimal group = none) (hne : point ≠ group) :
    (n.text group point).filter (· ≠ group) =
      n.whole ++ if n.fraction = [] then [] else point :: n.fraction := by
  obtain ⟨hhead, hgroups, hfraction⟩ := ne_of_digit hgroup
  have hkeep : ∀ cs : List Char, group ∉ cs → cs.filter (· ≠ group) = cs := by
    intro cs hcs
    apply List.filter_eq_self.mpr
    rintro c hc
    apply decide_eq_true
    rintro rfl
    exact hcs hc
  unfold text whole
  rw [List.filter_append, List.filter_append, hkeep _ hhead, filter_flatMap hgroups]
  congr 1
  split_ifs
  · rfl
  · rw [List.filter_cons_of_pos (by simpa using hne), hkeep _ hfraction]

theorem text_eq_intercalate (group point : Char) (h : n.fraction = []) :
    n.text group point = [group].intercalate (n.head :: n.groups) := by
  have hgroups : ∀ (head : List Char) (groups : List (List Char)),
      [group].intercalate (head :: groups) = head ++ groups.flatMap (group :: ·) := by
    intro head groups
    induction groups generalizing head with
    | nil => simp
    | cons g groups ih => rw [List.intercalate_cons_cons, ih]; simp
  unfold text
  rw [h, if_pos rfl, List.append_nil, hgroups]

end WrittenNumber

section Normalizing

variable {py : Interpreter} {n : WrittenNumber py.decimal}

theorem german_normalized (h : DigitValues py.decimal) :
    ((n.text '.' ',').filter (· ≠ '.')).map (fun c => if c = ',' then '.' else c) =
      plain n.whole n.fraction := by
  have hcomma := WrittenNumber.ne_of_digit (n := n) h.comma
  have hkeep : ∀ cs : List Char, ',' ∉ cs → cs.map (fun c => if c = ',' then '.' else c) = cs := by
    intro cs hcs
    conv_rhs => rw [← List.map_id cs]
    apply List.map_congr_left
    intro c hc
    apply if_neg
    rintro rfl
    exact hcs hc
  have hwhole : ',' ∉ n.whole := by
    unfold WrittenNumber.whole
    rw [List.mem_append, List.mem_flatten, not_or]
    refine ⟨hcomma.1, ?_⟩
    rintro ⟨g, hg, hmem⟩
    exact hcomma.2.1 g hg hmem
  rw [WrittenNumber.filter_text h.point (by decide), List.map_append, hkeep _ hwhole]
  unfold plain
  split_ifs
  · rfl
  · rw [List.map_cons, hkeep _ hcomma.2.2, if_pos rfl]

theorem point_mem_english (h : DigitValues py.decimal) :
    '.' ∈ n.text ',' '.' ↔ n.fraction ≠ [] := by
  obtain ⟨hhead, hgroups, hfraction⟩ := WrittenNumber.ne_of_digit (n := n) h.point
  unfold WrittenNumber.text
  constructor
  · intro hmem hnone
    rw [hnone, if_pos rfl, List.append_nil, List.mem_append, List.mem_flatMap] at hmem
    rcases hmem with hmem | ⟨g, hg, hmem⟩
    · exact hhead hmem
    · rcases List.mem_cons.mp hmem with heq | hmem
      · exact absurd heq (by decide)
      · exact hgroups g hg hmem
  · intro hsome
    rw [if_neg hsome]
    simp

theorem comma_mem_english (h : DigitValues py.decimal) (hnone : n.fraction = []) :
    ',' ∈ n.text ',' '.' ↔ n.groups ≠ [] := by
  obtain ⟨hhead, hgroups, hfraction⟩ := WrittenNumber.ne_of_digit (n := n) h.comma
  unfold WrittenNumber.text
  rw [hnone, if_pos rfl, List.append_nil, List.mem_append, or_iff_right hhead, List.mem_flatMap]
  constructor
  · rintro ⟨g, hg, -⟩
    exact List.ne_nil_of_mem hg
  · intro hne
    obtain ⟨g, groups, hcons⟩ := List.exists_cons_of_ne_nil hne
    exact ⟨g, by simp [hcons], List.mem_cons_self⟩

/-- Grouped digits without a point are put together, as their last group has three. -/
theorem english_parts (h : DigitValues py.decimal) (hnone : n.fraction = [])
    (hgroups : n.groups ≠ []) :
    (((n.text ',' '.').splitOn ',').getLastD []).length = 3 ∧
      ((n.text ',' '.').splitOn ',').flatten = n.whole := by
  obtain ⟨hhead, hnot, -⟩ := WrittenNumber.ne_of_digit (n := n) h.comma
  have hparts : (n.text ',' '.').splitOn ',' = n.head :: n.groups := by
    rw [WrittenNumber.text_eq_intercalate ',' '.' hnone]
    apply List.splitOn_intercalate
    · intro l hl
      rcases List.mem_cons.mp hl with rfl | hl
      · exact hhead
      · exact hnot l hl
    · exact List.cons_ne_nil _ _
  rw [hparts]
  refine ⟨?_, rfl⟩
  apply n.threes
  rw [List.getLastD_cons, List.getLastD_eq_getLast?, List.getLast?_eq_some_getLast hgroups]
  exact List.getLast_mem hgroups

/-- What the English branch makes of a text. -/
def englishNormalized (value : List Char) : List Char :=
  if value.contains ',' && !value.contains '.' then
    let parts := value.splitOn ','
    if (parts.getLastD []).length = 3 then parts.flatten else ['.'].intercalate parts
  else value.filter (· ≠ ',')

theorem english_normalized (h : DigitValues py.decimal) :
    englishNormalized (n.text ',' '.') = plain n.whole n.fraction := by
  unfold englishNormalized
  by_cases hnone : n.fraction = []
  · have hplain : plain n.whole n.fraction = n.whole := by
      simp [plain, hnone]
    by_cases hgroups : n.groups = []
    · have hcomma : (n.text ',' '.').contains ',' = false := by
        rw [← Bool.not_eq_true, List.contains_iff_mem, comma_mem_english h hnone]
        exact not_not.mpr hgroups
      rw [hcomma, Bool.false_and, if_neg Bool.false_ne_true,
        WrittenNumber.filter_text h.comma (by decide)]
      rfl
    · have hcomma : (n.text ',' '.').contains ',' = true := by
        rw [List.contains_iff_mem, comma_mem_english h hnone]
        exact hgroups
      have hpoint : (n.text ',' '.').contains '.' = false := by
        rw [← Bool.not_eq_true, List.contains_iff_mem, point_mem_english h]
        exact not_not.mpr hnone
      obtain ⟨hlast, hflatten⟩ := english_parts h hnone hgroups
      rw [hcomma, hpoint, if_pos (by decide)]
      dsimp only
      rw [if_pos hlast, hflatten, hplain]
  · have hpoint : (n.text ',' '.').contains '.' = true := by
      rw [List.contains_iff_mem, point_mem_english h]
      exact hnone
    rw [hpoint, Bool.not_true, Bool.and_false, if_neg Bool.false_ne_true,
      WrittenNumber.filter_text h.comma (by decide)]
    rfl

/-- What is parsed of a number in the notation of the locale. -/
theorem normalizeNumber_textIn (h : DigitValues py.decimal) {locale : String}
    (hlocale : locale = "de" ∨ locale = "en") :
    normalizeNumber py (n.textIn locale) locale =
      match DecimalNumber.parse py.decimal (plain n.whole n.fraction) with
      | none => n.textIn locale
      | some number => number.fixedText := by
  rcases hlocale with rfl | rfl
  · rw [← german_normalized h]
    rfl
  · rw [← english_normalized h]
    rfl

theorem normalizeNumber_within (h : DigitValues py.decimal) (hrange : n.Representable)
    {locale : String} (hlocale : locale = "de" ∨ locale = "en") :
    normalizeNumber py (n.textIn locale) locale =
      (DecimalNumber.finite false n.coefficient (-n.fraction.length)).fixedText := by
  have hdigits : ∀ c ∈ n.whole ++ n.fraction, (py.decimal c).isSome = true := n.digits
  rw [normalizeNumber_textIn h hlocale, parse_plain h WrittenNumber.whole_ne hdigits]
  unfold WrittenNumber.Representable WrittenNumber.coefficient at hrange
  rw [if_pos hrange]
  rfl

theorem normalizeNumber_beyond (h : DigitValues py.decimal) (hrange : ¬n.Representable)
    {locale : String} (hlocale : locale = "de" ∨ locale = "en") :
    normalizeNumber py (n.textIn locale) locale = n.textIn locale := by
  have hdigits : ∀ c ∈ n.whole ++ n.fraction, (py.decimal c).isSome = true := n.digits
  rw [normalizeNumber_textIn h hlocale, parse_plain h WrittenNumber.whole_ne hdigits]
  unfold WrittenNumber.Representable WrittenNumber.coefficient at hrange
  rw [if_neg hrange]

end Normalizing

/-- The normalized text of a number in the notation of a locale denotes the number, and a number
beyond the limits of a decimal is left as it was written. -/
theorem normalizeNumber_denotes (py : Interpreter) (h : DigitValues py.decimal)
    (n : WrittenNumber py.decimal) (locale : String) (hlocale : locale = "de" ∨ locale = "en") :
    (n.Representable → Denotes (normalizeNumber py (n.textIn locale) locale) n.value) ∧
      (¬n.Representable → normalizeNumber py (n.textIn locale) locale = n.textIn locale) := by
  refine ⟨fun hrange => ?_, fun hrange => normalizeNumber_beyond h hrange hlocale⟩
  rw [normalizeNumber_within h hrange hlocale]
  exact fixedText_denotes _ _

/-! ## A grouped number -/

theorem digitValues_ascii : DigitValues asciiInterpreter.decimal where
  lt := by
    intro c d hd
    change (if c.isDigit then some (c.toNat - 48) else none) = some d at hd
    split_ifs at hd with hdigit
    obtain rfl := Option.some.inj hd
    have hbounds : 48 ≤ c.toNat ∧ c.toNat ≤ 57 := Char.isDigit_iff_toNat.mp hdigit
    omega
  point := rfl
  comma := rfl
  underscore := rfl
  space := by
    intro c hc
    apply if_neg
    intro hdigit
    have hbounds : 48 ≤ c.toNat ∧ c.toNat ≤ 57 := Char.isDigit_iff_toNat.mp hdigit
    simp only [isSpace, Bool.or_eq_true, Bool.and_eq_true, decide_eq_true_eq] at hc
    omega

def groupedNumber : WrittenNumber asciiInterpreter.decimal where
  head := ['1']
  groups := [['2', '3', '4']]
  fraction := ['5']
  head_ne := by decide
  grouped := by decide
  threes := by decide
  digits := List.all_eq_true.mp (by decide)

theorem normalizeNumber_denotes_grouped :
    Denotes (normalizeNumber asciiInterpreter "1.234,5".toList "de") groupedNumber.value :=
  (normalizeNumber_denotes asciiInterpreter digitValues_ascii groupedNumber "de" (.inl rfl)).1
    (show inRange _ _ _ = true by rfl)

end DecisionAssurance.Intake
