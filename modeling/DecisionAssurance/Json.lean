import Mathlib.Data.List.Sort
import Mathlib.Data.String.Basic

/-!
# JSON values and their canonical text

Objects keep their fields in insertion order, as Python dictionaries do; a floating point
number is kept as the text it is written with. `dumps` is the text with sorted keys, minimal
separators and no escapes outside ASCII control characters.
-/

namespace DecisionAssurance

inductive Json
  | null
  | bool (b : Bool)
  | int (n : Int)
  | float (text : String)
  | str (s : String)
  | arr (items : List Json)
  | obj (fields : List (String × Json))

namespace Json

/-! ## Equality -/

mutual

def decEq : (a c : Json) → Decidable (a = c)
  | .null, c => match c with
    | .null => isTrue rfl
    | .bool _ | .int _ | .float _ | .str _ | .arr _ | .obj _ => isFalse nofun
  | .bool a, c => match c with
    | .bool b => decidable_of_iff (a = b) ⟨congrArg _, Json.bool.inj⟩
    | .null | .int _ | .float _ | .str _ | .arr _ | .obj _ => isFalse nofun
  | .int a, c => match c with
    | .int b => decidable_of_iff (a = b) ⟨congrArg _, Json.int.inj⟩
    | .null | .bool _ | .float _ | .str _ | .arr _ | .obj _ => isFalse nofun
  | .float a, c => match c with
    | .float b => decidable_of_iff (a = b) ⟨congrArg _, Json.float.inj⟩
    | .null | .bool _ | .int _ | .str _ | .arr _ | .obj _ => isFalse nofun
  | .str a, c => match c with
    | .str b => decidable_of_iff (a = b) ⟨congrArg _, Json.str.inj⟩
    | .null | .bool _ | .int _ | .float _ | .arr _ | .obj _ => isFalse nofun
  | .arr a, c => match c with
    | .arr b =>
      have := decEqItems a b
      decidable_of_iff (a = b) ⟨congrArg _, Json.arr.inj⟩
    | .null | .bool _ | .int _ | .float _ | .str _ | .obj _ => isFalse nofun
  | .obj a, c => match c with
    | .obj b =>
      have := decEqFields a b
      decidable_of_iff (a = b) ⟨congrArg _, Json.obj.inj⟩
    | .null | .bool _ | .int _ | .float _ | .str _ | .arr _ => isFalse nofun

def decEqItems : (a c : List Json) → Decidable (a = c)
  | [], [] => isTrue rfl
  | [], _ :: _ => isFalse nofun
  | _ :: _, [] => isFalse nofun
  | x :: xs, y :: ys =>
    have := decEq x y
    have := decEqItems xs ys
    decidable_of_iff (x = y ∧ xs = ys) ⟨fun ⟨h, h'⟩ => by rw [h, h'], List.cons.inj⟩

def decEqFields : (a c : List (String × Json)) → Decidable (a = c)
  | [], [] => isTrue rfl
  | [], _ :: _ => isFalse nofun
  | _ :: _, [] => isFalse nofun
  | (k, x) :: xs, (l, y) :: ys =>
    have := decEq x y
    have := decEqFields xs ys
    decidable_of_iff ((k = l ∧ x = y) ∧ xs = ys)
      ⟨fun ⟨⟨h, h'⟩, h''⟩ => by rw [h, h', h''],
        fun h => ⟨Prod.mk.inj (List.cons.inj h).1, (List.cons.inj h).2⟩⟩

end

instance : DecidableEq Json := decEq

/-! ## Reading objects -/

/-- `value.get(key)`, with `null` for a missing key and for a value that is no object. -/
def get (j : Json) (key : String) : Json :=
  match j with
  | .obj fields => ((fields.find? fun f => f.1 = key).map Prod.snd).getD .null
  | _ => .null

def asString : Json → Option String
  | .str s => some s
  | _ => none

/-- The operator `->>` of PostgreSQL on a key, for the text of a string value. -/
def getText (j : Json) (key : String) : Option String := (j.get key).asString

def ofOption : Option String → Json
  | none => .null
  | some s => .str s

def strings (ss : List String) : Json := .arr (ss.map Json.str)

/-! ## Canonical text -/

def hexDigit (n : Nat) : Char := "0123456789abcdef".toList.getD n '0'

def escape (c : Char) : List Char :=
  if c = '"' then ['\\', '"']
  else if c = '\\' then ['\\', '\\']
  else if c = '\n' then ['\\', 'n']
  else if c = '\r' then ['\\', 'r']
  else if c = '\t' then ['\\', 't']
  else if c.toNat = 8 then ['\\', 'b']
  else if c.toNat = 12 then ['\\', 'f']
  else if c.toNat < 32 then
    ['\\', 'u', '0', '0', hexDigit (c.toNat / 16), hexDigit (c.toNat % 16)]
  else [c]

def hexDigits (n : Nat) : List Char :=
  [hexDigit (n / 4096 % 16), hexDigit (n / 256 % 16), hexDigit (n / 16 % 16), hexDigit (n % 16)]

/-- The escapes of a text that is kept within printable ASCII. -/
def escapeAscii (c : Char) : List Char :=
  let n := c.toNat
  if n < 127 then escape c
  else if n < 0x10000 then '\\' :: 'u' :: hexDigits n
  else
    '\\' :: 'u' :: hexDigits (0xD800 + (n - 0x10000) / 0x400) ++
      '\\' :: 'u' :: hexDigits (0xDC00 + (n - 0x10000) % 0x400)

section Text

variable (esc : Char → List Char)

def quote (s : String) : List Char := '"' :: s.toList.flatMap esc ++ ['"']

def keyLe (a b : String × List Char) : Prop := a.1 ≤ b.1

instance : DecidableRel keyLe := fun a b => inferInstanceAs (Decidable (a.1 ≤ b.1))

def field (f : String × List Char) : List Char := quote esc f.1 ++ ':' :: f.2

mutual

/-- `json.dumps(value, sort_keys=True, separators=(",", ":"))` under an escape of characters. -/
def dumpsWith : Json → List Char
  | .null => "null".toList
  | .bool true => "true".toList
  | .bool false => "false".toList
  | .int n => (toString n).toList
  | .float text => text.toList
  | .str s => quote esc s
  | .arr items => '[' :: [','].intercalate (dumpsItems items) ++ [']']
  | .obj fields =>
    '{' :: [','].intercalate (((dumpsFields fields).insertionSort keyLe).map (field esc)) ++ ['}']

def dumpsItems : List Json → List (List Char)
  | [] => []
  | x :: xs => dumpsWith x :: dumpsItems xs

def dumpsFields : List (String × Json) → List (String × List Char)
  | [] => []
  | (k, x) :: xs => (k, dumpsWith x) :: dumpsFields xs

end

end Text

/-- The characters of the canonical text, `ensure_ascii=False`. -/
def dumps : Json → List Char := dumpsWith escape

/-- The characters of the text within ASCII. -/
def dumpsAscii : Json → List Char := dumpsWith escapeAscii

example : dumps (.obj [("b", .arr [.int (-3), .null]), ("a", .str "x\"y")]) =
    "\x7b\"a\":\"x\\\"y\",\"b\":[-3,null]\x7d".toList := by rfl

end Json

end DecisionAssurance
