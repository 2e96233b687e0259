import Mathlib.Data.List.Basic

/-!
# Backtracking regular expressions

Expressions over an arbitrary alphabet, matched as a backtracking engine does: the first way to
match counts, where alternatives are tried from the left and a greedy repetition goes on for as
long as it can. A character class and a test on the neighbouring characters are predicates.
-/

namespace DecisionAssurance

inductive Regex (α : Type)
  | empty
  | char (p : α → Bool)
  | look (p : Option α → Option α → Bool)
  | seq (r s : Regex α)
  | alt (r s : Regex α)
  | rep (greedy : Bool) (least : ℕ) (most : Option ℕ) (r : Regex α)
  | group (name : String) (r : Regex α)

namespace Regex

variable {α β : Type}

/-- A place in a text, with the character before it. -/
structure Cursor (α : Type) where
  index : ℕ
  prev : Option α
  rest : List α

namespace Cursor

def start (text : List α) : Cursor α := ⟨0, none, text⟩

def next : Cursor α → Option (α × Cursor α)
  | ⟨_, _, []⟩ => none
  | ⟨i, _, a :: rest⟩ => some (a, ⟨i + 1, some a, rest⟩)

def advance (c : Cursor α) : ℕ → Cursor α
  | 0 => c
  | n + 1 => match c.next with
    | none => c
    | some (_, c) => c.advance n

end Cursor

abbrev Groups (α : Type) := List (String × List α)

/-- What is left to match once a part has been matched. -/
abbrev Continuation (α β : Type) := Cursor α → Groups α → Option β

/-- Repetitions of `one`. An iteration past the required ones must consume something; `fuel` bounds
the iterations, and the length of the rest of the text is enough of it. -/
def repeated (one : Cursor α → Groups α → Continuation α β → Option β) (greedy : Bool) :
    ℕ → ℕ → Option ℕ → Cursor α → Groups α → Continuation α β → Option β
  | 0, 0, _, c, g, k => k c g
  | 0, _ + 1, _, _, _, _ => none
  | fuel + 1, least + 1, most, c, g, k =>
    one c g fun c' g' => repeated one greedy fuel least (most.map (· - 1)) c' g' k
  | fuel + 1, 0, most, c, g, k =>
    let more : Option β :=
      if most = some 0 then none
      else one c g fun c' g' =>
        if c'.index = c.index then none
        else repeated one greedy fuel 0 (most.map (· - 1)) c' g' k
    if greedy then more.orElse fun _ => k c g else (k c g).orElse fun _ => more

def run : Regex α → Cursor α → Groups α → Continuation α β → Option β
  | empty, c, g, k => k c g
  | char p, c, g, k => match c.next with
    | none => none
    | some (a, c') => if p a then k c' g else none
  | look p, c, g, k => if p c.prev c.rest.head? then k c g else none
  | seq r s, c, g, k => r.run c g fun c' g' => s.run c' g' k
  | alt r s, c, g, k => (r.run c g k).orElse fun _ => s.run c g k
  | rep greedy least most r, c, g, k =>
    repeated (fun c' g' k' => r.run c' g' k') greedy (c.rest.length + least) least most c g k
  | group name r, c, g, k =>
    r.run c g fun c' g' => k c' ((name, c.rest.take (c'.index - c.index)) :: g')

structure Match (α : Type) where
  start : ℕ
  stop : ℕ
  text : List α
  groups : Groups α

/-- `match.group(name)` -/
def Match.group (m : Match α) (name : String) : List α :=
  ((m.groups.find? fun g => g.1 = name).map Prod.snd).getD []

def matchAt (r : Regex α) (c : Cursor α) : Option (Match α) :=
  r.run c [] fun c' g => some ⟨c.index, c'.index, c.rest.take (c'.index - c.index), g⟩

/-- The matches from a place on, left to right and without overlaps. -/
def finditerFrom (r : Regex α) : ℕ → Cursor α → List (Match α)
  | 0, _ => []
  | fuel + 1, c => match r.matchAt c with
    | some m => m :: r.finditerFrom fuel (c.advance (max 1 (m.stop - c.index)))
    | none => match c.next with
      | none => []
      | some (_, c) => r.finditerFrom fuel c

def finditer (r : Regex α) (text : List α) : List (Match α) :=
  r.finditerFrom (text.length + 1) (Cursor.start text)

/-- `re.search(r, text) is not None` -/
def search (r : Regex α) (text : List α) : Bool := !(r.finditer text).isEmpty

/-! ## Abbreviations of the concrete syntax -/

def seqs : List (Regex α) → Regex α
  | [] => empty
  | [r] => r
  | r :: rs => seq r (seqs rs)

def alts : List (Regex α) → Regex α
  | [] => char fun _ => false
  | [r] => r
  | r :: rs => alt r (alts rs)

def star (r : Regex α) : Regex α := rep true 0 none r

def plus (r : Regex α) : Regex α := rep true 1 none r

def optional (r : Regex α) : Regex α := rep true 0 (some 1) r

def exactly (n : ℕ) (r : Regex α) : Regex α := rep true n (some n) r

def between (least most : ℕ) (r : Regex α) : Regex α := rep true least (some most) r

/-- A text, compared letter by letter. -/
def literal (same : α → α → Bool) (text : List α) : Regex α := seqs (text.map fun a => char (same a))

end Regex

end DecisionAssurance
