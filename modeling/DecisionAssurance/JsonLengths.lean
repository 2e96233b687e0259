import DecisionAssurance.CanonicalText
import DecisionAssurance.ExportSigning

/-!
# The length of a JSON text

A bound on the characters that a value is written with, and on their bytes in UTF-8.
-/

namespace DecisionAssurance.Json

open Export (utf8)

/-! ## The bytes of a text -/

theorem utf8_injective {cs cs' : List Char} (h : utf8 cs = utf8 cs') : cs = cs' := by
  apply String.ofList_injective
  apply String.toByteArray_inj.mp
  rw [String.toByteArray_ofList, String.toByteArray_ofList]
  exact congrArg List.toByteArray h

theorem length_utf8_toList (s : String) : (utf8 s.toList).length = s.utf8ByteSize := by
  conv_rhs => rw [← String.ofList_toList (s := s)]
  rw [String.utf8ByteSize, String.toByteArray_ofList, List.utf8Encode, List.size_toByteArray, utf8]

theorem length_le_length_utf8 (cs : List Char) : cs.length ≤ (utf8 cs).length := by
  induction cs with
  | nil => exact le_rfl
  | cons c cs ih =>
    have hpos : 0 < c.utf8Size := Char.utf8Size_pos c
    rw [utf8, List.flatMap_cons, List.length_append, String.length_utf8EncodeChar,
      List.length_cons]
    rw [utf8] at ih
    omega

theorem length_utf8_le (cs : List Char) : (utf8 cs).length ≤ 4 * cs.length := by
  induction cs with
  | nil => exact le_rfl
  | cons c cs ih =>
    have hle : c.utf8Size ≤ 4 := Char.utf8Size_le_four c
    rw [utf8, List.flatMap_cons, List.length_append, String.length_utf8EncodeChar,
      List.length_cons]
    rw [utf8] at ih
    omega

theorem length_escape_le (c : Char) : (escape c).length ≤ 6 := by
  unfold escape
  split_ifs <;> simp

theorem length_quote_le (s : String) :
    (quote escape s).length ≤ 6 * s.utf8ByteSize + 2 := by
  have hchars : ∀ cs : List Char, (cs.flatMap escape).length ≤ 6 * cs.length := by
    intro cs
    induction cs with
    | nil => exact le_rfl
    | cons c cs ih =>
      have hc := length_escape_le c
      rw [List.flatMap_cons, List.length_append, List.length_cons]
      omega
  have hflat := hchars s.toList
  have hbytes := length_le_length_utf8 s.toList
  rw [length_utf8_toList] at hbytes
  rw [quote, List.cons_append, List.length_cons, List.length_append, List.length_singleton]
  omega

theorem length_token_le (s : String) : s.toList.length ≤ s.utf8ByteSize := by
  have hbytes := length_le_length_utf8 s.toList
  rwa [length_utf8_toList] at hbytes

/-! ## The weight of a value -/

mutual

/-- A bound on the length of the text of a value. -/
def weight : Json → ℕ
  | .null => 4
  | .bool _ => 5
  | .int n => (toString n).utf8ByteSize
  | .float text => text.utf8ByteSize
  | .str s => 6 * s.utf8ByteSize + 2
  | .arr items => weightItems items + 2
  | .obj fields => weightFields fields + 2

def weightItems : List Json → ℕ
  | [] => 0
  | x :: xs => weight x + weightItems xs + 1

def weightFields : List (String × Json) → ℕ
  | [] => 0
  | (k, x) :: xs => 6 * k.utf8ByteSize + weight x + weightFields xs + 4

end

mutual

theorem length_write_le : ∀ v : Json, v.write.length ≤ v.weight
  | .null | .bool true | .bool false => by decide
  | .int n => length_token_le _
  | .float text => length_token_le _
  | .str s => length_quote_le s
  | .arr items => by
    have hitems := length_writeArray_le items
    rw [write, weight, List.length_cons]
    omega
  | .obj fields => by
    have hfields := length_writeObject_le fields
    rw [write, weight, List.length_cons]
    omega

theorem length_writeArray_le : ∀ items : List Json,
    (writeArray items).length ≤ weightItems items + 1
  | [] => le_rfl
  | x :: xs => by
    have hx := length_write_le x
    have hxs := length_writeItems_le xs
    rw [writeArray, weightItems, List.length_append]
    omega

theorem length_writeItems_le : ∀ items : List Json,
    (writeItems items).length ≤ weightItems items + 1
  | [] => le_rfl
  | x :: xs => by
    have hx := length_write_le x
    have hxs := length_writeItems_le xs
    rw [writeItems, weightItems, List.length_cons, List.length_append]
    omega

theorem length_writeObject_le : ∀ fields : List (String × Json),
    (writeObject fields).length ≤ weightFields fields + 1
  | [] => le_rfl
  | (k, x) :: xs => by
    have hk := length_quote_le k
    have hx := length_write_le x
    have hxs := length_writeFields_le xs
    rw [writeObject, weightFields, List.length_append, List.length_cons, List.length_append]
    omega

theorem length_writeFields_le : ∀ fields : List (String × Json),
    (writeFields fields).length ≤ weightFields fields + 1
  | [] => le_rfl
  | (k, x) :: xs => by
    have hk := length_quote_le k
    have hx := length_write_le x
    have hxs := length_writeFields_le xs
    rw [writeFields, weightFields, List.length_cons, List.length_append, List.length_cons,
      List.length_append]
    omega

end

end DecisionAssurance.Json
