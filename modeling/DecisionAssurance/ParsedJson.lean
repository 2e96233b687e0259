import DecisionAssurance.WrittenJson

/-!
# What `json.loads` returns

Strings may hold surrogates that stand alone; a value whose strings hold none can be encoded, and
is then JSON with a canonical text. The keys of dictionaries are distinct.
-/

namespace DecisionAssurance

open Json

/-! ## Values -/

/-- A code point of a Python string: a character, or one of the surrogates from `U+D800` on. -/
inductive CodePoint
  | char (c : Char)
  | surrogate (n : Fin 2048)
  deriving DecidableEq

def CodePoint.toChar? : CodePoint → Option Char
  | .char c => some c
  | .surrogate _ => none

/-- `text.encode("utf-8")`, by the characters encoded. -/
def encodeText (text : List CodePoint) : Option String :=
  (text.mapM CodePoint.toChar?).map String.ofList

/-- A value that `json.loads` returns. -/
inductive RawJson
  | null
  | bool (b : Bool)
  | int (n : Int)
  | float (text : String)
  | str (text : List CodePoint)
  | arr (items : List RawJson)
  | obj (fields : List (List CodePoint × RawJson))

namespace RawJson

mutual

/-- A value all of whose strings can be encoded. -/
def encoded : RawJson → Option Json
  | .null => some .null
  | .bool b => some (.bool b)
  | .int n => some (.int n)
  | .float text => some (.float text)
  | .str text => (encodeText text).map Json.str
  | .arr items => (encodedItems items).map Json.arr
  | .obj fields => (encodedFields fields).map Json.obj

def encodedItems : List RawJson → Option (List Json)
  | [] => some []
  | x :: xs => (encoded x).bind fun y => (encodedItems xs).map (y :: ·)

def encodedFields : List (List CodePoint × RawJson) → Option (List (String × Json))
  | [] => some []
  | (k, x) :: xs => (encodeText k).bind fun l => (encoded x).bind fun y =>
    (encodedFields xs).map ((l, y) :: ·)

end

mutual

/-- The keys of every dictionary are distinct. -/
def DistinctNames : RawJson → Prop
  | .null | .bool _ | .int _ | .float _ | .str _ => True
  | .arr items => DistinctNamesItems items
  | .obj fields => (fields.map Prod.fst).Nodup ∧ DistinctNamesFields fields

def DistinctNamesItems : List RawJson → Prop
  | [] => True
  | x :: xs => DistinctNames x ∧ DistinctNamesItems xs

def DistinctNamesFields : List (List CodePoint × RawJson) → Prop
  | [] => True
  | (_, x) :: xs => DistinctNames x ∧ DistinctNamesFields xs

end

end RawJson

/-! ## JSON as a parsed value -/

namespace Json

mutual

/-- A value whose strings have no surrogates. -/
def raw : Json → RawJson
  | .null => .null
  | .bool b => .bool b
  | .int n => .int n
  | .float text => .float text
  | .str s => .str (s.toList.map CodePoint.char)
  | .arr items => .arr (rawItems items)
  | .obj fields => .obj (rawFields fields)

def rawItems : List Json → List RawJson
  | [] => []
  | x :: xs => raw x :: rawItems xs

def rawFields : List (String × Json) → List (List CodePoint × RawJson)
  | [] => []
  | (k, x) :: xs => (k.toList.map CodePoint.char, raw x) :: rawFields xs

end

end Json

theorem encodeText_chars (s : String) : encodeText (s.toList.map CodePoint.char) = some s := by
  have hchars : ∀ cs : List Char, (cs.map CodePoint.char).mapM CodePoint.toChar? = some cs := by
    intro cs
    induction cs with
    | nil => rfl
    | cons c cs ih =>
      rw [List.map_cons, List.mapM_cons, ih]
      rfl
  rw [encodeText, hchars, Option.map_some, String.ofList_toList]

namespace Json

mutual

theorem encoded_raw : ∀ j : Json, j.raw.encoded = some j
  | .null | .bool _ | .int _ | .float _ => rfl
  | .str s => congrArg (Option.map Json.str) (encodeText_chars s)
  | .arr items => congrArg (Option.map Json.arr) (encodedItems_raw items)
  | .obj fields => congrArg (Option.map Json.obj) (encodedFields_raw fields)

theorem encodedItems_raw : ∀ items : List Json,
    RawJson.encodedItems (rawItems items) = some items
  | [] => rfl
  | x :: xs => by
    rw [rawItems, RawJson.encodedItems, encoded_raw x, encodedItems_raw xs]
    rfl

theorem encodedFields_raw : ∀ fields : List (String × Json),
    RawJson.encodedFields (rawFields fields) = some fields
  | [] => rfl
  | (k, x) :: xs => by
    rw [rawFields, RawJson.encodedFields, encodeText_chars, encoded_raw x, encodedFields_raw xs]
    rfl

end

end Json

end DecisionAssurance
