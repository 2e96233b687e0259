import DecisionAssurance.EvidencePolicies
import DecisionAssurance.RegexSubstitution

/-!
# The patterns of the evidence normaliser

The regular expressions that `EvidenceNormalizer` compiles, the texts they accept, and the library
whose pattern functions run them.
-/

namespace DecisionAssurance.Research

namespace Sanitizing

open Regex

/-! ## The patterns -/

/-- The letter that a character stands for under `re.IGNORECASE`; the letters `ı`, `İ` and `ſ` and
the Kelvin sign stand for a letter of ASCII. -/
def folded (c : Char) : Char :=
  if c = 'ı' ∨ c = 'İ' then 'i'
  else if c = 'ſ' then 's'
  else if c = '\u212a' then 'k'
  else c.toLower

/-- A text under `re.IGNORECASE`. -/
def caseless (s : String) : Regex Char := literal (fun a c => a = folded c) s.toList

def space : Regex Char := .char isSpace

def mark (a : Char) : Regex Char := .char fun c => c = a

def noMark (a : Char) : Regex Char := .char fun c => c ≠ a

def oneOf (cs : String) : Regex Char := .char fun c => cs.toList.contains c

/-- `[a-z0-9…]` under `re.IGNORECASE`. -/
def alphanumeric (extra : String) : Regex Char :=
  .char fun c => isWordChar (folded c) || extra.toList.contains c

def elementName : Regex Char :=
  alts [caseless "script", caseless "style", caseless "iframe", caseless "object", caseless "embed"]

/-- `_ACTIVE_HTML` -/
def activeHtml : Regex Char :=
  seqs [mark '<', star space, elementName, star (noMark '>'), mark '>',
    rep false 0 none (.char fun _ => true), mark '<', star space, mark '/', star space, elementName,
    star space, mark '>']

/-- `_HTML` -/
def html : Regex Char := seqs [mark '<', plus (noMark '>'), mark '>']

/-- `\((?:javascript|data):[^)]*\)` -/
def linkTarget : Regex Char :=
  seqs [mark '(', alt (caseless "javascript") (caseless "data"), mark ':', star (noMark ')'),
    mark ')']

/-- `_ACTIVE_LINK` -/
def activeLink : Regex Char := seq (mark ']') linkTarget

def keyName : Regex Char :=
  alts [seqs [caseless "api", optional (oneOf "_ -"), caseless "key"], caseless "token",
    caseless "secret"]

/-- `_SECRET` -/
def secret : Regex Char :=
  alt (seq (caseless "sk-") (rep true 20 none (alphanumeric "_-")))
    (seqs [keyName, star space, oneOf ":=", star space, rep true 16 none (alphanumeric "_./+-")])

/-- `(?:…\s+)?` -/
def optionalWord (s : String) : Regex Char := optional (seq (caseless s) (plus space))

/-- Words with white space between them. -/
def spaced : List String → Regex Char
  | [] => empty
  | [s] => caseless s
  | s :: t :: rest => seqs [caseless s, plus space, spaced (t :: rest)]

/-- `_INJECTION` -/
def injections : List (Regex Char) :=
  [seqs [caseless "ignore", plus space, optionalWord "all", spaced ["previous", "instructions"]],
    spaced ["mark", "this", "source", "as", "verified"],
    seqs [caseless "reveal", plus space, optionalWord "the", spaced ["system", "prompt"],
      optional (caseless "s")],
    seqs [alt (caseless "set") (caseless "return"), plus space, optionalWord "the",
      optionalWord "outcome", optionalWord "to", alt (caseless "pass") (caseless "approved")]]

end Sanitizing

open Sanitizing in
/-- The library with the patterns of the normaliser. -/
def TextLibrary.withPatterns (lib : TextLibrary) : TextLibrary :=
  { lib with
    hasActiveHtml := fun s => activeHtml.search s.toList
    subActiveHtml := fun s => String.ofList (activeHtml.sub [' '] s.toList)
    hasActiveLink := fun s => activeLink.search s.toList
    subActiveLink := fun s => String.ofList (activeLink.sub "](about:blank)".toList s.toList)
    subHtml := fun s => String.ofList (html.sub [' '] s.toList)
    hasSecret := fun s => secret.search s.toList
    subSecret := fun s => String.ofList (secret.sub "[REDACTED]".toList s.toList)
    injections := Sanitizing.injections.map fun pattern s => pattern.search s.toList }

namespace Sanitizing

open Regex

/-! ## What they accept -/

def HtmlWord (u : List Char) : Prop := ∃ x, u = '<' :: (x ++ ['>']) ∧ x ≠ [] ∧ '>' ∉ x

def Scheme (h : List Char) : Prop :=
  h.map folded = "javascript".toList ∨ h.map folded = "data".toList

def TargetWord (u : List Char) : Prop :=
  ∃ h x, u = '(' :: (h ++ ':' :: (x ++ [')'])) ∧ Scheme h ∧ ')' ∉ x

def Spaces (u : List Char) : Prop := ∀ c ∈ u, isSpace c = true

def KeyName (k : List Char) : Prop :=
  (∃ a m b, k = a ++ (m ++ b) ∧ a.map folded = "api".toList ∧
      (m = [] ∨ ∃ c ∈ "_ -".toList, m = [c]) ∧ b.map folded = "key".toList) ∨
    k.map folded = "token".toList ∨ k.map folded = "secret".toList

/-- The characters of a class, at least so many of them. -/
def Filled (least : ℕ) (extra : String) (v : List Char) : Prop :=
  least ≤ v.length ∧ ∀ c ∈ v, isWordChar (folded c) = true ∨ c ∈ extra.toList

def SecretWord (u : List Char) : Prop :=
  (∃ k v, u = k ++ v ∧ k.map folded = "sk-".toList ∧ Filled 20 "_-" v) ∨
    ∃ k s c t v, u = k ++ (s ++ c :: (t ++ v)) ∧ KeyName k ∧ Spaces s ∧ c ∈ ":=".toList ∧
      Spaces t ∧ Filled 16 "_./+-" v

theorem denotes_folded (a : Char) :
    Denotes (.char fun c => a = folded c) fun u => u.map folded = [a] := by
  refine denotes_char.congr fun u => ?_
  rw [List.map_eq_singleton_iff]
  constructor
  · intro ⟨c, hu, hc⟩
    exact ⟨c, hu, (of_decide_eq_true hc).symm⟩
  · intro ⟨c, hu, hc⟩
    exact ⟨c, hu, decide_eq_true hc.symm⟩

theorem denotes_literal (s : List Char) :
    Denotes (literal (fun a c => a = folded c) s) fun u => u.map folded = s := by
  induction s with
  | nil => exact denotes_empty.congr fun u => List.map_eq_nil_iff.symm
  | cons a s ih =>
    cases s with
    | nil => exact denotes_folded a
    | cons b s =>
      refine ((denotes_folded a).seq ih).congr fun u => ?_
      rw [show a :: b :: s = [a] ++ (b :: s) from rfl, List.map_eq_append_iff]

theorem denotes_caseless (s : String) : Denotes (caseless s) fun u => u.map folded = s.toList :=
  denotes_literal s.toList

theorem denotes_mark (a : Char) : Denotes (mark a) fun u => u = [a] := by
  refine denotes_char.congr fun u => ?_
  simp

theorem denotes_noMark_rep (greedy : Bool) (least : ℕ) (a : Char) :
    Denotes (rep greedy least none (noMark a)) fun u => least ≤ u.length ∧ a ∉ u := by
  refine (denotes_rep_char least).congr fun u => ?_
  rw [and_congr_right_iff]
  intro _
  constructor
  · intro h ha
    exact absurd rfl (of_decide_eq_true (h a ha))
  · intro h c hc
    exact decide_eq_true fun hca => h (hca ▸ hc)

theorem denotes_spaces : Denotes (star space) Spaces :=
  (denotes_rep_char 0).congr fun _ => and_iff_right (Nat.zero_le _)

theorem denotes_filled (least : ℕ) (extra : String) :
    Denotes (rep true least none (alphanumeric extra)) (Filled least extra) := by
  refine (denotes_rep_char least).congr fun u => ?_
  simp [Filled]

theorem denotes_oneOf (cs : String) : Denotes (oneOf cs) fun u => ∃ c ∈ cs.toList, u = [c] := by
  refine denotes_char.congr fun u => ?_
  simp only [List.contains_eq_mem, decide_eq_true_eq]
  exact exists_congr fun c => and_comm

theorem denotes_html : Denotes html HtmlWord := by
  refine ((denotes_mark '<').seq ((denotes_noMark_rep true 1 '>').seq (denotes_mark '>'))).congr
    fun u => ?_
  constructor
  · rintro ⟨_, _, rfl, rfl, x, _, rfl, ⟨hx, hfree⟩, rfl⟩
    exact ⟨x, rfl, List.length_pos_iff.mp hx, hfree⟩
  · rintro ⟨x, rfl, hx, hfree⟩
    exact ⟨_, _, rfl, rfl, x, _, rfl, ⟨List.length_pos_iff.mpr hx, hfree⟩, rfl⟩

theorem denotes_linkTarget : Denotes linkTarget TargetWord := by
  refine ((denotes_mark '(').seq (((denotes_caseless "javascript").alt
    (denotes_caseless "data")).seq ((denotes_mark ':').seq
      ((denotes_noMark_rep true 0 ')').seq (denotes_mark ')'))))).congr fun u => ?_
  constructor
  · rintro ⟨_, _, rfl, rfl, h, _, rfl, hh, _, _, rfl, rfl, x, _, rfl, ⟨-, hx⟩, rfl⟩
    exact ⟨h, x, rfl, hh, hx⟩
  · rintro ⟨h, x, rfl, hh, hx⟩
    exact ⟨_, _, rfl, rfl, h, _, rfl, hh, _, _, rfl, rfl, x, _, rfl, ⟨Nat.zero_le _, hx⟩, rfl⟩

theorem denotes_activeLink : Denotes activeLink fun u => ∃ t, u = ']' :: t ∧ TargetWord t := by
  refine ((denotes_mark ']').seq denotes_linkTarget).congr fun u => ?_
  constructor
  · rintro ⟨_, t, rfl, rfl, ht⟩
    exact ⟨t, rfl, ht⟩
  · rintro ⟨t, rfl, ht⟩
    exact ⟨_, t, rfl, rfl, ht⟩

theorem denotes_keyName : Denotes keyName KeyName := by
  have hoptional := (denotes_oneOf "_ -").optional (by simp)
  have hapi := (denotes_caseless "api").seq (hoptional.seq (denotes_caseless "key"))
  refine (hapi.alt ((denotes_caseless "token").alt (denotes_caseless "secret"))).congr fun u => ?_
  apply or_congr_left
  constructor
  · rintro ⟨a, _, rfl, ha, m, b, rfl, hm, hb⟩
    exact ⟨a, m, b, rfl, ha, hm, hb⟩
  · rintro ⟨a, m, b, rfl, ha, hm, hb⟩
    exact ⟨a, _, rfl, ha, m, b, rfl, hm, hb⟩

theorem denotes_secret : Denotes secret SecretWord := by
  have hsk := (denotes_caseless "sk-").seq (denotes_filled 20 "_-")
  have hkey := denotes_keyName.seq (denotes_spaces.seq ((denotes_oneOf ":=").seq
    (denotes_spaces.seq (denotes_filled 16 "_./+-"))))
  refine (hsk.alt hkey).congr fun u => ?_
  apply or_congr_right
  constructor
  · rintro ⟨k, _, rfl, hk, s, _, rfl, hs, _, _, rfl, ⟨c, hc, rfl⟩, t, v, rfl, ht, hv⟩
    exact ⟨k, s, c, t, v, rfl, hk, hs, hc, ht, hv⟩
  · rintro ⟨k, s, c, t, v, rfl, hk, hs, hc, ht, hv⟩
    exact ⟨k, _, rfl, hk, s, _, rfl, hs, _, _, rfl, ⟨c, hc, rfl⟩, t, v, rfl, ht, hv⟩

end Sanitizing

end DecisionAssurance.Research
