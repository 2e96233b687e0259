import DecisionAssurance.Identifiers
import DecisionAssurance.WrittenJson
import DecisionAssurance.NumberLiterals

/-!
# What a canonical text says

A canonical text is the text of one value, up to the order of fields: strings end at a quote that
is not escaped, numbers and names at a delimiter, and arrays and objects at their brackets.
-/

namespace DecisionAssurance.Json

/-! ## Tokens -/

def delimiter (c : Char) : Bool := c = ',' || c = ']' || c = '}'

/-- A text that may follow a token. -/
def Ended (r : List Char) : Prop := ∀ c ∈ r.head?, delimiter c = true

theorem ended_nil : Ended [] := by
  rintro _ ⟨⟩

theorem ended_cons {c : Char} {r : List Char} (h : delimiter c = true) : Ended (c :: r) := by
  rintro _ ⟨⟩
  exact h

theorem token_unique {t t' r r' : List Char} (ht : ∀ c ∈ t, delimiter c = false)
    (ht' : ∀ c ∈ t', delimiter c = false) (hr : Ended r) (hr' : Ended r')
    (h : t ++ r = t' ++ r') : t = t' ∧ r = r' := by
  induction t generalizing t' with
  | nil =>
    cases t' with
    | nil => exact ⟨rfl, h⟩
    | cons c' t' =>
      have hend := hr c' (by simp [show r = c' :: (t' ++ r') from h])
      rw [ht' c' List.mem_cons_self] at hend
      cases hend
  | cons c t ih =>
    cases t' with
    | nil =>
      have hend := hr' c (by simp [show r' = c :: (t ++ r) from h.symm])
      rw [ht c List.mem_cons_self] at hend
      cases hend
    | cons c' t' =>
      obtain ⟨rfl, hrest⟩ := List.cons.inj h
      obtain ⟨rfl, hsame⟩ := ih (fun x hx => ht x (List.mem_cons_of_mem _ hx))
        (fun x hx => ht' x (List.mem_cons_of_mem _ hx)) hrest
      exact ⟨rfl, hsame⟩

/-! ## Strings -/

def hexValue (c : Char) : ℕ := if c.isDigit then c.toNat - 48 else c.toNat - 87

/-- The first character that an escaped text stands for, and what follows it. -/
def readChar : List Char → Option (Char × List Char)
  | '\\' :: 'n' :: cs => some ('\n', cs)
  | '\\' :: 'r' :: cs => some ('\r', cs)
  | '\\' :: 't' :: cs => some ('\t', cs)
  | '\\' :: 'b' :: cs => some (Char.ofNat 8, cs)
  | '\\' :: 'f' :: cs => some (Char.ofNat 12, cs)
  | '\\' :: 'u' :: _ :: _ :: a :: b :: cs => some (Char.ofNat (16 * hexValue a + hexValue b), cs)
  | '\\' :: c :: cs => some (c, cs)
  | c :: cs => some (c, cs)
  | [] => none

theorem readChar_escape (c : Char) (cs : List Char) : readChar (escape c ++ cs) = some (c, cs) := by
  have hhex : ∀ n < 32, 16 * hexValue (hexDigit (n / 16)) + hexValue (hexDigit (n % 16)) = n := by
    decide
  unfold escape
  split_ifs with h₁ h₂ h₃ h₄ h₅ h₆ h₇ h₈
  · simp [readChar, h₁]
  · simp [readChar, h₂]
  · simp [readChar, h₃]
  · simp [readChar, h₄]
  · simp [readChar, h₅]
  · have hchar : Char.ofNat 8 = c := by rw [← h₆, Char.ofNat_toNat]
    simpa [readChar] using hchar
  · have hchar : Char.ofNat 12 = c := by rw [← h₇, Char.ofNat_toNat]
    simpa [readChar] using hchar
  · simp [readChar, hhex _ h₈]
  · simp only [List.singleton_append]
    unfold readChar
    split
    all_goals simp_all

theorem escape_unique {c c' : Char} {cs cs' : List Char}
    (h : escape c ++ cs = escape c' ++ cs') : c = c' ∧ cs = cs' := by
  have hread := congrArg readChar h
  rw [readChar_escape, readChar_escape] at hread
  exact Prod.mk.inj (Option.some.inj hread)

theorem escape_ne_quote (c : Char) (cs r : List Char) : escape c ++ cs ≠ '"' :: r := by
  intro h
  have hread := congrArg readChar h
  rw [readChar_escape] at hread
  obtain ⟨rfl, -⟩ := Prod.mk.inj (Option.some.inj hread)
  have hhead := congrArg List.head? h
  simp [escape] at hhead

theorem quote_unique {s s' : String} {r r' : List Char}
    (h : quote escape s ++ r = quote escape s' ++ r') : s = s' ∧ r = r' := by
  have hchars : ∀ cs cs' : List Char, cs.flatMap escape ++ '"' :: r =
      cs'.flatMap escape ++ '"' :: r' → cs = cs' ∧ r = r' := by
    intro cs
    induction cs with
    | nil =>
      intro cs' h
      cases cs' with
      | nil => exact ⟨rfl, (List.cons.inj h).2⟩
      | cons c' cs' =>
        rw [List.flatMap_cons, List.append_assoc] at h
        exact absurd h.symm (escape_ne_quote _ _ _)
    | cons c cs ih =>
      intro cs' h
      cases cs' with
      | nil =>
        rw [List.flatMap_cons, List.append_assoc] at h
        exact absurd h (escape_ne_quote _ _ _)
      | cons c' cs' =>
        rw [List.flatMap_cons, List.flatMap_cons, List.append_assoc, List.append_assoc] at h
        obtain ⟨rfl, hrest⟩ := escape_unique h
        obtain ⟨rfl, hsame⟩ := ih cs' hrest
        exact ⟨rfl, hsame⟩
  unfold quote at h
  simp only [List.cons_append, List.append_assoc, List.cons.injEq, true_and] at h
  obtain ⟨hsame, hrest⟩ := hchars _ _ h
  exact ⟨String.toList_inj.mp hsame, hrest⟩

/-! ## Numbers and names -/

/-- The text of a floating point number: a literal with a point or an exponent, or no number. -/
def FloatText (text : String) : Prop :=
  text ∈ ["NaN", "Infinity", "-Infinity"] ∨ ∃ l : NumberLiteral, text.toList = l.text ∧
    (l.fraction ≠ [] ∨ l.exponent ≠ none)

def literalChar (c : Char) : Bool := c.isDigit || c = '-' || c = '+' || c = '.' || c = 'e'

theorem literalChar_digitChar (d : Fin 10) : literalChar (digitChar d) = true := by
  revert d
  decide

theorem literalChar_text (l : NumberLiteral) : ∀ c ∈ l.text, literalChar c = true := by
  have hdigits : ∀ ds : List (Fin 10), ∀ c ∈ ds.map digitChar, literalChar c = true := by
    intro ds c hc
    obtain ⟨d, -, rfl⟩ := List.mem_map.mp hc
    exact literalChar_digitChar d
  intro c hc
  unfold NumberLiteral.text at hc
  rcases List.mem_append.mp hc with hc | hc
  · split_ifs at hc
    · rw [List.mem_singleton.mp hc]
      rfl
    · cases hc
  rcases List.mem_append.mp hc with hc | hc
  · unfold NumberLiteral.mantissaText at hc
    rcases List.mem_append.mp hc with hc | hc
    · exact hdigits _ c hc
    · split_ifs at hc
      · cases hc
      · rcases List.mem_cons.mp hc with rfl | hc
        · rfl
        · exact hdigits _ c hc
  · cases hexponent : l.exponent with
    | none =>
      rw [hexponent] at hc
      cases hc
    | some e =>
      obtain ⟨negative, ds⟩ := e
      rw [hexponent] at hc
      rcases List.mem_cons.mp hc with rfl | hc
      · rfl
      rcases List.mem_cons.mp hc with rfl | hc
      · cases negative <;> rfl
      · exact hdigits _ c hc

/-- A character that only the texts of floating point numbers have. -/
def floatMark (c : Char) : Bool := c = '.' || c = 'e' || c = 'N' || c = 'I'

theorem exists_floatMark {text : String} (h : FloatText text) :
    ∃ c ∈ text.toList, floatMark c = true := by
  rcases h with hname | ⟨l, htext, hmark⟩
  · simp only [List.mem_cons, List.not_mem_nil, or_false] at hname
    rcases hname with rfl | rfl | rfl
    · exact ⟨'N', by decide, rfl⟩
    · exact ⟨'I', by decide, rfl⟩
    · exact ⟨'I', by decide, rfl⟩
  · rw [htext]
    rcases hmark with hfraction | hexponent
    · refine ⟨'.', ?_, rfl⟩
      cases hf : l.fraction with
      | nil => exact absurd hf hfraction
      | cons d ds => simp [NumberLiteral.text, NumberLiteral.mantissaText, hf]
    · refine ⟨'e', ?_, rfl⟩
      cases he : l.exponent with
      | none => exact absurd he hexponent
      | some e =>
        obtain ⟨negative, ds⟩ := e
        simp [NumberLiteral.text, NumberLiteral.exponentText, he]

theorem repr_digits (n : ℕ) : ∀ c ∈ n.repr.toList, c.isDigit = true := by
  intro c hc
  rw [Nat.toList_repr] at hc
  exact Nat.isDigit_of_mem_toDigits (by decide) (by decide) hc

theorem toList_negSucc (n : ℕ) :
    (toString (Int.negSucc n)).toList = '-' :: (n + 1).repr.toList := by
  simp [Int.toString_eq_repr, Int.repr]

theorem toString_int_chars (n : ℤ) : ∀ c ∈ (toString n).toList, c.isDigit = true ∨ c = '-' := by
  cases n with
  | ofNat n =>
    intro c hc
    exact Or.inl (repr_digits n c hc)
  | negSucc n =>
    intro c hc
    rw [toList_negSucc] at hc
    rcases List.mem_cons.mp hc with rfl | hc
    · exact Or.inr rfl
    · exact Or.inl (repr_digits _ c hc)

theorem toString_int_injective {m n : ℤ} (h : (toString m).toList = (toString n).toList) :
    m = n := by
  have hsign : ∀ i j : ℕ, i.repr.toList ≠ '-' :: (j + 1).repr.toList := by
    intro i j hsame
    have hdigit := repr_digits i '-' (by rw [hsame]; exact List.mem_cons_self)
    cases hdigit
  cases m with
  | ofNat i =>
    cases n with
    | ofNat j => rw [repr_injective (String.toList_inj.mp h)]
    | negSucc j =>
      rw [toList_negSucc] at h
      exact absurd h (hsign i j)
  | negSucc i =>
    cases n with
    | ofNat j =>
      rw [toList_negSucc] at h
      exact absurd h.symm (hsign j i)
    | negSucc j =>
      rw [toList_negSucc, toList_negSucc] at h
      have hsame := repr_injective (String.toList_inj.mp (List.cons.inj h).2)
      rw [Nat.succ_injective hsame]

theorem int_ne_float {n : ℤ} {text : String} (h : FloatText text) :
    (toString n).toList ≠ text.toList := by
  intro hsame
  obtain ⟨c, hc, hmark⟩ := exists_floatMark h
  rw [← hsame] at hc
  rcases toString_int_chars n c hc with hdigit | rfl
  · simp only [floatMark, Bool.or_eq_true, decide_eq_true_eq] at hmark
    rcases hmark with ((rfl | rfl) | rfl) | rfl <;> cases hdigit
  · cases hmark

/-- The names `null`, `true` and `false` are no numbers. -/
theorem name_ne_number {name : String} (h : name ∈ ["null", "true", "false"]) :
    (∀ n : ℤ, name.toList ≠ (toString n).toList) ∧
      ∀ text, FloatText text → name.toList ≠ text.toList := by
  have hletter : ∃ c ∈ name.toList, literalChar c = false := by
    simp only [List.mem_cons, List.not_mem_nil, or_false] at h
    rcases h with rfl | rfl | rfl
    · exact ⟨'n', by decide⟩
    · exact ⟨'t', by decide⟩
    · exact ⟨'f', by decide⟩
  obtain ⟨c, hc, hliteral⟩ := hletter
  constructor
  · intro n hsame
    rw [hsame] at hc
    rcases toString_int_chars n c hc with hdigit | rfl
    · simp [literalChar, hdigit] at hliteral
    · cases hliteral
  · intro text htext hsame
    rcases htext with hname | ⟨l, hl, -⟩
    · rw [← String.toList_inj.mp hsame] at hname
      simp only [List.mem_cons, List.not_mem_nil, or_false] at h hname
      rcases h with rfl | rfl | rfl <;> simp at hname
    · rw [hsame, hl] at hc
      rw [literalChar_text l c hc] at hliteral
      cases hliteral

/-- A value that is written as one token. -/
def IsToken : Json → Prop
  | .null | .bool _ | .int _ | .float _ => True
  | .str _ | .arr _ | .obj _ => False

/-- A character within a token. -/
def tokenChar (c : Char) : Bool := !delimiter c && c ≠ '"' && c ≠ '[' && c ≠ '{'

theorem tokenChar_of_literalChar {c : Char} (h : literalChar c = true) : tokenChar c = true := by
  simp only [literalChar, Bool.or_eq_true, decide_eq_true_eq] at h
  rcases h with (((hdigit | rfl) | rfl) | rfl) | rfl
  · unfold tokenChar delimiter
    have hne : ∀ x : Char, x.isDigit = false → c ≠ x := by
      rintro x hx rfl
      rw [hdigit] at hx
      cases hx
    simp [hne ',' rfl, hne ']' rfl, hne '}' rfl, hne '"' rfl, hne '[' rfl, hne '{' rfl]
  · rfl
  · rfl
  · rfl
  · rfl

theorem token_chars {v : Json} (hv : v.IsToken) (hfloats : v.Floats FloatText) :
    ∀ c ∈ v.dumps, tokenChar c = true := by
  cases v with
  | null => exact List.all_eq_true.mp (by decide)
  | bool b => cases b <;> exact List.all_eq_true.mp (by decide)
  | int n =>
    intro c hc
    apply tokenChar_of_literalChar
    rcases toString_int_chars n c hc with hdigit | rfl
    · simp [literalChar, hdigit]
    · rfl
  | float text =>
    rcases hfloats with hname | ⟨l, hl, -⟩
    · simp only [List.mem_cons, List.not_mem_nil, or_false] at hname
      rcases hname with rfl | rfl | rfl <;> exact List.all_eq_true.mp (by decide)
    · intro c hc
      apply tokenChar_of_literalChar
      apply literalChar_text l c
      rw [← hl]
      exact hc
  | str s => cases hv
  | arr items => cases hv
  | obj fields => cases hv

theorem token_injective {v w : Json} (hv : v.IsToken) (hw : w.IsToken)
    (hfloats : v.Floats FloatText) (hfloats' : w.Floats FloatText) (h : v.dumps = w.dumps) :
    v = w := by
  have hbool : ∀ b : Bool, ∃ name ∈ ["null", "true", "false"], (Json.bool b).dumps = name.toList := by
    intro b
    cases b with
    | true => exact ⟨"true", by simp, rfl⟩
    | false => exact ⟨"false", by simp, rfl⟩
  have hnull := @name_ne_number "null" (by simp)
  cases v with
  | null =>
    cases w with
    | null => rfl
    | bool b => cases b <;> exact absurd h (by decide)
    | int n => exact absurd h (hnull.1 n)
    | float text => exact absurd h (hnull.2 text hfloats')
    | _ => cases hw
  | bool b =>
    obtain ⟨name, hname, htext⟩ := hbool b
    rw [htext] at h
    cases w with
    | null =>
      rw [← htext] at h
      cases b <;> exact absurd h (by decide)
    | bool b' =>
      rw [← htext] at h
      cases b <;> cases b' <;> first | rfl | exact absurd h (by decide)
    | int n => exact absurd h ((name_ne_number hname).1 n)
    | float text => exact absurd h ((name_ne_number hname).2 text hfloats')
    | _ => cases hw
  | int n =>
    cases w with
    | null => exact absurd h.symm (hnull.1 n)
    | bool b =>
      obtain ⟨name, hname, htext⟩ := hbool b
      rw [htext] at h
      exact absurd h.symm ((name_ne_number hname).1 n)
    | int n' => rw [toString_int_injective h]
    | float text => exact absurd h (int_ne_float hfloats')
    | _ => cases hw
  | float text =>
    cases w with
    | null => exact absurd h.symm (hnull.2 text hfloats)
    | bool b =>
      obtain ⟨name, hname, htext⟩ := hbool b
      rw [htext] at h
      exact absurd h.symm ((name_ne_number hname).2 text hfloats)
    | int n => exact absurd h.symm (int_ne_float hfloats)
    | float text' => rw [String.toList_inj.mp h]
    | _ => cases hw
  | _ => cases hv

/-! ## Values -/

mutual

/-- The text of a value with the fields of its objects as they come. -/
def write : Json → List Char
  | .arr items => '[' :: writeArray items
  | .obj fields => '{' :: writeObject fields
  | .str s => quote escape s
  | .float text => text.toList
  | .int n => (toString n).toList
  | .bool true => "true".toList
  | .bool false => "false".toList
  | .null => "null".toList

/-- The items of an array with its closing bracket. -/
def writeArray : List Json → List Char
  | [] => [']']
  | x :: xs => write x ++ writeItems xs

def writeItems : List Json → List Char
  | [] => [']']
  | x :: xs => ',' :: (write x ++ writeItems xs)

/-- The fields of an object with its closing bracket. -/
def writeObject : List (String × Json) → List Char
  | [] => ['}']
  | (k, x) :: xs => quote escape k ++ ':' :: (write x ++ writeFields xs)

def writeFields : List (String × Json) → List Char
  | [] => ['}']
  | (k, x) :: xs => ',' :: (quote escape k ++ ':' :: (write x ++ writeFields xs))

end

/-- A character that the text of a value begins with. -/
def opens : Json → Char → Bool
  | .str _, c => c = '"'
  | .arr _, c => c = '['
  | .obj _, c => c = '{'
  | _, c => tokenChar c

theorem write_token {v : Json} (hv : v.IsToken) : v.write = v.dumps := by
  cases v with
  | null => rfl
  | bool b => cases b <;> rfl
  | int n => rfl
  | float text => rfl
  | _ => cases hv

theorem exists_opens (v : Json) (hfloats : v.Floats FloatText) :
    ∃ c cs, v.write = c :: cs ∧ v.opens c = true := by
  have htoken : v.IsToken → ∃ c cs, v.write = c :: cs ∧ tokenChar c = true := by
    intro hv
    have hne : v.dumps ≠ [] := by
      cases v with
      | null => decide
      | bool b => cases b <;> decide
      | int n =>
        intro hnil
        have hsame : (toString n).toList = [] := hnil
        cases n with
        | ofNat n =>
          have hrepr : n.repr = "" := String.toList_eq_nil_iff.mp hsame
          exact absurd hrepr Nat.repr_ne_empty
        | negSucc n =>
          rw [toList_negSucc] at hsame
          cases hsame
      | float text =>
        intro hnil
        obtain ⟨c, hc, -⟩ := exists_floatMark hfloats
        have hsame : text.toList = [] := hnil
        rw [hsame] at hc
        cases hc
      | _ => cases hv
    obtain ⟨c, cs, hcs⟩ := List.exists_cons_of_ne_nil hne
    refine ⟨c, cs, (write_token hv).trans hcs, ?_⟩
    apply token_chars hv hfloats
    rw [hcs]
    exact List.mem_cons_self
  cases v with
  | str s => exact ⟨'"', _, rfl, rfl⟩
  | arr items => exact ⟨'[', _, rfl, rfl⟩
  | obj fields => exact ⟨'{', _, rfl, rfl⟩
  | _ => exact htoken trivial

/-- Values whose texts begin alike begin in the same way. -/
theorem exists_opens_both {v w : Json} (hv : v.Floats FloatText) (hw : w.Floats FloatText)
    {r r' : List Char} (h : v.write ++ r = w.write ++ r') :
    ∃ c, v.opens c = true ∧ w.opens c = true := by
  obtain ⟨c, cs, hc, hopens⟩ := exists_opens v hv
  obtain ⟨c', cs', hc', hopens'⟩ := exists_opens w hw
  rw [hc, hc'] at h
  obtain ⟨rfl, -⟩ := List.cons.inj h
  exact ⟨c, hopens, hopens'⟩

theorem delimiter_of_opens {v : Json} {c : Char} (h : v.opens c = true) : delimiter c = false := by
  have hchar : ∀ x, decide (c = x) = true → delimiter x = false → delimiter c = false := by
    intro x hx hdelimiter
    rw [of_decide_eq_true hx]
    exact hdelimiter
  have htoken : tokenChar c = true → delimiter c = false := by
    intro ht
    simp only [tokenChar, Bool.and_eq_true, Bool.not_eq_true'] at ht
    exact ht.1.1.1
  cases v with
  | str s => exact hchar '"' h rfl
  | arr items => exact hchar '[' h rfl
  | obj fields => exact hchar '{' h rfl
  | _ => exact htoken h

theorem ended_writeItems (xs : List Json) (r : List Char) : Ended (writeItems xs ++ r) := by
  cases xs with
  | nil => exact ended_cons rfl
  | cons x xs => exact ended_cons rfl

theorem ended_writeFields (xs : List (String × Json)) (r : List Char) :
    Ended (writeFields xs ++ r) := by
  cases xs with
  | nil => exact ended_cons rfl
  | cons x xs => exact ended_cons rfl

/-- The text of a value is no closing bracket. -/
theorem write_ne_delimiter {v : Json} (hv : v.Floats FloatText) {cs r : List Char} {c : Char}
    (hc : delimiter c = true) : v.write ++ cs ≠ c :: r := by
  intro h
  obtain ⟨c', cs', hc', hopens⟩ := exists_opens v hv
  rw [hc'] at h
  obtain ⟨rfl, -⟩ := List.cons.inj h
  rw [delimiter_of_opens hopens] at hc
  cases hc

theorem write_unique_token {v w : Json} {r r' : List Char} (hv : v.IsToken)
    (hfloats : v.Floats FloatText) (hfloats' : w.Floats FloatText) (hr : Ended r) (hr' : Ended r')
    (h : v.write ++ r = w.write ++ r') : v = w ∧ r = r' := by
  have hw : w.IsToken := by
    obtain ⟨c, hc, hc'⟩ := exists_opens_both hfloats hfloats' h
    have hchar : tokenChar c = true := by
      cases v with
      | str s => cases hv
      | arr items => cases hv
      | obj fields => cases hv
      | _ => exact hc
    cases w with
    | str s =>
      rw [of_decide_eq_true hc'] at hchar
      cases hchar
    | arr items =>
      rw [of_decide_eq_true hc'] at hchar
      cases hchar
    | obj fields =>
      rw [of_decide_eq_true hc'] at hchar
      cases hchar
    | _ => trivial
  rw [write_token hv, write_token hw] at h
  have hdelimiter : ∀ v : Json, v.IsToken → v.Floats FloatText →
      ∀ c ∈ v.dumps, delimiter c = false := by
    intro v hv hfloats c hc
    have htoken := token_chars hv hfloats c hc
    simp only [tokenChar, Bool.and_eq_true, Bool.not_eq_true'] at htoken
    exact htoken.1.1.1
  obtain ⟨hsame, hrest⟩ := token_unique (hdelimiter v hv hfloats) (hdelimiter w hw hfloats') hr hr' h
  exact ⟨token_injective hv hw hfloats hfloats' hsame, hrest⟩

mutual

theorem write_unique : ∀ (v w : Json) {r r' : List Char}, v.Floats FloatText →
    w.Floats FloatText → Ended r → Ended r' → v.write ++ r = w.write ++ r' → v = w ∧ r = r'
  | .null, _, _, _, hv, hw, hr, hr', h
  | .bool _, _, _, _, hv, hw, hr, hr', h
  | .int _, _, _, _, hv, hw, hr, hr', h
  | .float _, _, _, _, hv, hw, hr, hr', h => write_unique_token trivial hv hw hr hr' h
  | .str s, w, r, r', hv, hw, hr, hr', h => by
    cases w with
    | str s' =>
      obtain ⟨rfl, hrest⟩ := quote_unique h
      exact ⟨rfl, hrest⟩
    | arr items => exact absurd (List.cons.inj h).1 (by decide)
    | obj fields => exact absurd (List.cons.inj h).1 (by decide)
    | _ =>
      obtain ⟨hsame, -⟩ := write_unique_token (by trivial) hw hv hr' hr h.symm
      cases hsame
  | .arr items, w, r, r', hv, hw, hr, hr', h => by
    cases w with
    | arr items' =>
      obtain ⟨rfl, hrest⟩ := writeArray_unique items items' hv hw (List.cons.inj h).2
      exact ⟨rfl, hrest⟩
    | str s => exact absurd (List.cons.inj h).1 (by decide)
    | obj fields => exact absurd (List.cons.inj h).1 (by decide)
    | _ =>
      obtain ⟨hsame, -⟩ := write_unique_token (by trivial) hw hv hr' hr h.symm
      cases hsame
  | .obj fields, w, r, r', hv, hw, hr, hr', h => by
    cases w with
    | obj fields' =>
      obtain ⟨rfl, hrest⟩ := writeObject_unique fields fields' hv hw (List.cons.inj h).2
      exact ⟨rfl, hrest⟩
    | str s => exact absurd (List.cons.inj h).1 (by decide)
    | arr items => exact absurd (List.cons.inj h).1 (by decide)
    | _ =>
      obtain ⟨hsame, -⟩ := write_unique_token (by trivial) hw hv hr' hr h.symm
      cases hsame

theorem writeArray_unique : ∀ (xs ys : List Json) {r r' : List Char}, FloatsItems FloatText xs →
    FloatsItems FloatText ys → writeArray xs ++ r = writeArray ys ++ r' → xs = ys ∧ r = r'
  | [], ys, _, _, _, hys, h => by
    cases ys with
    | nil => exact ⟨rfl, (List.cons.inj h).2⟩
    | cons y ys =>
      rw [writeArray, writeArray, List.append_assoc] at h
      exact absurd h.symm (write_ne_delimiter hys.1 rfl)
  | x :: xs, ys, _, _, hxs, hys, h => by
    cases ys with
    | nil =>
      rw [writeArray, writeArray, List.append_assoc] at h
      exact absurd h (write_ne_delimiter hxs.1 rfl)
    | cons y ys =>
      rw [writeArray, writeArray, List.append_assoc, List.append_assoc] at h
      obtain ⟨rfl, hrest⟩ := write_unique x y hxs.1 hys.1 (ended_writeItems _ _)
        (ended_writeItems _ _) h
      obtain ⟨rfl, hsame⟩ := writeItems_unique xs ys hxs.2 hys.2 hrest
      exact ⟨rfl, hsame⟩

theorem writeItems_unique : ∀ (xs ys : List Json) {r r' : List Char}, FloatsItems FloatText xs →
    FloatsItems FloatText ys → writeItems xs ++ r = writeItems ys ++ r' → xs = ys ∧ r = r'
  | [], ys, _, _, _, _, h => by
    cases ys with
    | nil => exact ⟨rfl, (List.cons.inj h).2⟩
    | cons y ys => exact absurd (List.cons.inj h).1 (by decide)
  | x :: xs, ys, _, _, hxs, hys, h => by
    cases ys with
    | nil => exact absurd (List.cons.inj h).1 (by decide)
    | cons y ys =>
      rw [writeItems, writeItems, List.cons_append, List.cons_append, List.append_assoc,
        List.append_assoc] at h
      obtain ⟨rfl, hrest⟩ := write_unique x y hxs.1 hys.1 (ended_writeItems _ _)
        (ended_writeItems _ _) (List.cons.inj h).2
      obtain ⟨rfl, hsame⟩ := writeItems_unique xs ys hxs.2 hys.2 hrest
      exact ⟨rfl, hsame⟩

theorem writeObject_unique : ∀ (xs ys : List (String × Json)) {r r' : List Char},
    FloatsFields FloatText xs → FloatsFields FloatText ys →
      writeObject xs ++ r = writeObject ys ++ r' → xs = ys ∧ r = r'
  | [], ys, _, _, _, _, h => by
    cases ys with
    | nil => exact ⟨rfl, (List.cons.inj h).2⟩
    | cons y ys => exact absurd (List.cons.inj h).1 (by decide)
  | (k, x) :: xs, ys, _, _, hxs, hys, h => by
    cases ys with
    | nil => exact absurd (List.cons.inj h).1 (by decide)
    | cons y ys =>
      obtain ⟨l, y⟩ := y
      rw [writeObject, writeObject, List.append_assoc, List.append_assoc] at h
      obtain ⟨rfl, hvalue⟩ := quote_unique h
      rw [List.cons_append, List.cons_append, List.append_assoc, List.append_assoc] at hvalue
      obtain ⟨rfl, hrest⟩ := write_unique x y hxs.1 hys.1 (ended_writeFields _ _)
        (ended_writeFields _ _) (List.cons.inj hvalue).2
      obtain ⟨rfl, hsame⟩ := writeFields_unique xs ys hxs.2 hys.2 hrest
      exact ⟨rfl, hsame⟩

theorem writeFields_unique : ∀ (xs ys : List (String × Json)) {r r' : List Char},
    FloatsFields FloatText xs → FloatsFields FloatText ys →
      writeFields xs ++ r = writeFields ys ++ r' → xs = ys ∧ r = r'
  | [], ys, _, _, _, _, h => by
    cases ys with
    | nil => exact ⟨rfl, (List.cons.inj h).2⟩
    | cons y ys => exact absurd (List.cons.inj h).1 (by decide)
  | (k, x) :: xs, ys, _, _, hxs, hys, h => by
    cases ys with
    | nil => exact absurd (List.cons.inj h).1 (by decide)
    | cons y ys =>
      obtain ⟨l, y⟩ := y
      rw [writeFields, writeFields, List.cons_append, List.cons_append, List.append_assoc,
        List.append_assoc] at h
      obtain ⟨rfl, hvalue⟩ := quote_unique (List.cons.inj h).2
      rw [List.cons_append, List.cons_append, List.append_assoc, List.append_assoc] at hvalue
      obtain ⟨rfl, hrest⟩ := write_unique x y hxs.1 hys.1 (ended_writeFields _ _)
        (ended_writeFields _ _) (List.cons.inj hvalue).2
      obtain ⟨rfl, hsame⟩ := writeFields_unique xs ys hxs.2 hys.2 hrest
      exact ⟨rfl, hsame⟩

end

/-! ## Sorted values -/

/-- The fields of an object by name. -/
def byName : KeyOrder where
  arrange := List.insertionSort fun f g => f.1 ≤ g.1
  perm := perm_sortByName

/-- A value with the fields of every object sorted by name. -/
def normal (v : Json) : Json := v.reread byName .float

def named (f : String × Json) : String × List Char := (f.1, f.2.write)

/-- Texts are sorted by the names that their values are sorted by. -/
theorem insertionSort_map_named (fields : List (String × Json)) :
    (fields.map named).insertionSort keyLe = (byName.arrange fields).map named := by
  symm
  apply List.map_insertionSort
  intro f _ g _
  rfl

theorem intercalate_writeItems (x : Json) (xs : List Json) :
    [','].intercalate ((x :: xs).map write) ++ [']'] = x.write ++ writeItems xs := by
  induction xs generalizing x with
  | nil => simp [writeItems]
  | cons y xs ih =>
    have hrest := ih y
    simp only [List.map_cons] at hrest ⊢
    rw [List.intercalate_cons_cons, writeItems, List.append_assoc, List.append_assoc, hrest]
    rfl

theorem intercalate_writeFields (f : String × Json) (fields : List (String × Json)) :
    [','].intercalate (((f :: fields).map named).map (field escape)) ++ ['}'] =
      field escape (named f) ++ writeFields fields := by
  induction fields generalizing f with
  | nil => simp [writeFields]
  | cons g fields ih =>
    have hrest := ih g
    obtain ⟨k, x⟩ := g
    simp only [List.map_cons] at hrest ⊢
    rw [List.intercalate_cons_cons, writeFields, List.append_assoc, List.append_assoc, hrest]
    simp [field, named]

theorem write_arr (items : List Json) :
    (Json.arr items).write = '[' :: [','].intercalate (items.map write) ++ [']'] := by
  cases items with
  | nil => rfl
  | cons x xs =>
    rw [List.cons_append, intercalate_writeItems]
    rfl

theorem write_obj (fields : List (String × Json)) :
    (Json.obj fields).write =
      '{' :: [','].intercalate ((fields.map named).map (field escape)) ++ ['}'] := by
  cases fields with
  | nil => rfl
  | cons f fields =>
    obtain ⟨k, x⟩ := f
    rw [List.cons_append, intercalate_writeFields]
    simp [write, writeObject, field, named]

mutual

/-- The canonical text is the text of the sorted value. -/
theorem write_normal : ∀ v : Json, v.normal.write = v.dumps
  | .null | .bool true | .bool false | .int _ | .float _ | .str _ => rfl
  | .arr items => by
    have hitems := map_write_normal items
    simp only [normal, reread, dumps, dumpsWith, write_arr, hitems]
  | .obj fields => by
    have hfields := map_named_normal fields
    simp only [normal, reread, dumps, dumpsWith, write_obj]
    rw [← insertionSort_map_named, hfields]

theorem map_write_normal : ∀ items : List Json,
    (rereadItems byName .float items).map write = dumpsItems escape items
  | [] => rfl
  | x :: xs => congrArg₂ List.cons (write_normal x) (map_write_normal xs)

theorem map_named_normal : ∀ fields : List (String × Json),
    (rereadFields byName .float fields).map named = dumpsFields escape fields
  | [] => rfl
  | (k, x) :: fields =>
    congrArg₂ List.cons (congrArg (Prod.mk k) (write_normal x)) (map_named_normal fields)

end

theorem floatsFields_iff {P : String → Prop} {fields : List (String × Json)} :
    FloatsFields P fields ↔ ∀ f ∈ fields, f.2.Floats P := by
  induction fields with
  | nil => simp [FloatsFields]
  | cons f fields ih =>
    obtain ⟨k, x⟩ := f
    simp [FloatsFields, ih]

mutual

theorem floats_normal {P : String → Prop} : ∀ {v : Json}, v.Floats P → v.normal.Floats P
  | .null, _ | .bool _, _ | .int _, _ | .str _, _ => trivial
  | .float _, h => h
  | .arr _, h => floatsItems_normal h
  | .obj fields, h => by
    have hreread : FloatsFields P (rereadFields byName .float fields) := floatsFields_normal h
    have hfields := floatsFields_iff.mp hreread
    refine floatsFields_iff.mpr fun f hf => hfields f ?_
    exact (byName.perm _).mem_iff.mp hf

theorem floatsItems_normal {P : String → Prop} : ∀ {items : List Json}, FloatsItems P items →
    FloatsItems P (rereadItems byName .float items)
  | [], _ => trivial
  | _ :: _, h => ⟨floats_normal h.1, floatsItems_normal h.2⟩

theorem floatsFields_normal {P : String → Prop} : ∀ {fields : List (String × Json)},
    FloatsFields P fields → FloatsFields P (rereadFields byName .float fields)
  | [], _ => trivial
  | (_, _) :: _, h => ⟨floats_normal h.1, floatsFields_normal h.2⟩

end

/-- Values of one canonical text are one value, up to the order of fields. -/
theorem normal_eq_of_dumps {v w : Json} (hv : v.Floats FloatText) (hw : w.Floats FloatText)
    (h : v.dumps = w.dumps) : v.normal = w.normal := by
  rw [← write_normal v, ← write_normal w] at h
  have hunique : v.normal = w.normal ∧ ([] : List Char) = [] :=
    write_unique v.normal w.normal (floats_normal hv) (floats_normal hw) ended_nil ended_nil
      (by rw [h])
  exact hunique.1

end DecisionAssurance.Json
