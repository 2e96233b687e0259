import DecisionAssurance.WrittenPieces

/-!
# Query strings

`urllib.parse.urlencode` and `parse_qsl` with blank values kept: names and values are quoted byte by
byte in UTF-8 and joined by `=` and `&`. What was encoded is read back exactly. How a sequence of
bytes that is no UTF-8 is decoded is a parameter, which the reading back never uses.
-/

namespace DecisionAssurance.QueryStrings

/-! ## Bytes -/

def bytesOf (s : String) : List UInt8 := s.toByteArray.data.toList

section Decoding

variable (invalid : List UInt8 → String)

/-- `bytes.decode("utf-8", errors="replace")` -/
def decode (bytes : List UInt8) : String :=
  if h : (ByteArray.mk bytes.toArray).IsValidUTF8 then String.ofByteArray _ h else invalid bytes

theorem decode_bytesOf (s : String) : decode invalid (bytesOf s) = s := by
  have hbytes : ByteArray.mk (bytesOf s).toArray = s.toByteArray := by simp [bytesOf]
  unfold decode
  rw [dif_pos (by rw [hbytes]; exact s.isValidUTF8)]
  simp only [hbytes]

/-! ## Quoting -/

/-- The characters that `quote` leaves as they are. -/
def isUnreserved (c : Char) : Bool := c.isAlphanum || "_.-~".toList.contains c

def hexDigit (n : ℕ) : Char := Char.ofNat (if n < 10 then 48 + n else 55 + n)

def hexValue (c : Char) : Option ℕ :=
  if c.isDigit then some (c.toNat - 48)
  else if 'A' ≤ c ∧ c ≤ 'F' then some (c.toNat - 55)
  else if 'a' ≤ c ∧ c ≤ 'f' then some (c.toNat - 87)
  else none

/-- One byte under `quote_plus`. -/
def quoteByte (b : UInt8) : List Char :=
  let c := Char.ofNat b.toNat
  if isUnreserved c then [c]
  else if c = ' ' then ['+']
  else ['%', hexDigit (b.toNat / 16), hexDigit (b.toNat % 16)]

/-- `quote_plus(s)` -/
def quotePlus (s : String) : List Char := (bytesOf s).flatMap quoteByte

/-- `unquote`, with the bytes read since the last character outside ASCII. -/
def unquoteFrom : List Char → List UInt8 → List Char
  | '%' :: a :: b :: cs, pending => match hexValue a, hexValue b with
    | some x, some y => unquoteFrom cs (pending ++ [UInt8.ofNat (16 * x + y)])
    | _, _ => unquoteFrom (a :: b :: cs) (pending ++ [UInt8.ofNat '%'.toNat])
  | c :: cs, pending =>
    if c.toNat < 128 then unquoteFrom cs (pending ++ [UInt8.ofNat c.toNat])
    else (decode invalid pending).toList ++ c :: unquoteFrom cs []
  | [], pending => (decode invalid pending).toList

/-- `unquote(text.replace("+", " "))` -/
def unquotePlus (cs : List Char) : String :=
  String.ofList (unquoteFrom invalid (cs.map fun c => if c = '+' then ' ' else c) [])

/-- A name and its value. -/
def field (item : String × String) : List Char := quotePlus item.1 ++ '=' :: quotePlus item.2

def urlencode (items : List (String × String)) : List Char := ['&'].intercalate (items.map field)

/-- `parse_qsl(query, keep_blank_values=True)` -/
def parseQsl (query : List Char) : List (String × String) :=
  ((query.splitOn '&').filter (· ≠ [])).map fun part =>
    (unquotePlus invalid (part.takeWhile (· ≠ '=')),
      unquotePlus invalid ((part.dropWhile (· ≠ '=')).drop 1))

end Decoding

/-! ## Reading back -/

/-- What is left as it is is ASCII, and neither a plus nor a percent sign. -/
theorem unreserved_byte : ∀ n < 256, isUnreserved (Char.ofNat n) = true →
    (Char.ofNat n).toNat = n ∧ n < 128 ∧ Char.ofNat n ≠ '+' ∧ Char.ofNat n ≠ '%' := by
  decide +kernel

theorem space_byte : ∀ n < 256, Char.ofNat n = ' ' → n = 32 := by decide +kernel

theorem hexValue_hexDigit : ∀ n < 16, hexValue (hexDigit n) = some n := by decide

theorem hexDigit_ne_plus : ∀ n < 16, hexDigit n ≠ '+' := by decide

variable {invalid : List UInt8 → String} {c a b : Char} {cs : List Char} {pending : List UInt8}

theorem unquoteFrom_ascii (hne : c ≠ '%') (hascii : c.toNat < 128) :
    unquoteFrom invalid (c :: cs) pending =
      unquoteFrom invalid cs (pending ++ [UInt8.ofNat c.toNat]) := by
  rw [unquoteFrom.eq_2 _ _ _ _ (by simp [hne]), if_pos hascii]

theorem unquoteFrom_escape {x y : ℕ} (ha : hexValue a = some x) (hb : hexValue b = some y) :
    unquoteFrom invalid ('%' :: a :: b :: cs) pending =
      unquoteFrom invalid cs (pending ++ [UInt8.ofNat (16 * x + y)]) := by
  rw [unquoteFrom, ha, hb]

/-- A byte is read back. -/
theorem unquoteFrom_quoteByte (byte : UInt8) (cs : List Char) (pending : List UInt8) :
    unquoteFrom invalid ((quoteByte byte).map (fun c => if c = '+' then ' ' else c) ++ cs)
        pending =
      unquoteFrom invalid cs (pending ++ [byte]) := by
  have hlt : byte.toNat < 256 := byte.toNat_lt
  simp only [quoteByte]
  split_ifs with hplain hspace
  · obtain ⟨hsame, hascii, hplus, hpercent⟩ := unreserved_byte _ hlt hplain
    rw [List.map_singleton, if_neg hplus, List.singleton_append,
      unquoteFrom_ascii hpercent (by omega), hsame, UInt8.ofNat_toNat]
  · have hbyte : byte = UInt8.ofNat 32 := by
      rw [← space_byte _ hlt hspace, UInt8.ofNat_toNat]
    rw [List.map_singleton, if_pos rfl, List.singleton_append,
      unquoteFrom_ascii (by decide) (by decide), hbyte]
    rfl
  · have hhigh : byte.toNat / 16 < 16 := by omega
    have hlow : byte.toNat % 16 < 16 := by omega
    have hsum : 16 * (byte.toNat / 16) + byte.toNat % 16 = byte.toNat := Nat.div_add_mod _ _
    have hpercent : '%' ≠ '+' := by decide
    rw [List.map_cons, List.map_cons, List.map_singleton, if_neg hpercent,
      if_neg (hexDigit_ne_plus _ hhigh), if_neg (hexDigit_ne_plus _ hlow)]
    simp only [List.cons_append, List.nil_append]
    rw [unquoteFrom_escape (hexValue_hexDigit _ hhigh) (hexValue_hexDigit _ hlow), hsum,
      UInt8.ofNat_toNat]

/-- What was quoted is read back. -/
theorem unquotePlus_quotePlus (s : String) : unquotePlus invalid (quotePlus s) = s := by
  have hbytes : ∀ bytes pending, unquoteFrom invalid
      ((bytes.flatMap quoteByte).map fun c => if c = '+' then ' ' else c) pending =
        (decode invalid (pending ++ bytes)).toList := by
    intro bytes
    induction bytes with
    | nil =>
      intro pending
      rw [List.flatMap_nil, List.map_nil, unquoteFrom, List.append_nil]
    | cons byte bytes ih =>
      intro pending
      rw [List.flatMap_cons, List.map_append, unquoteFrom_quoteByte, ih, List.append_assoc,
        List.singleton_append]
  rw [unquotePlus, quotePlus, hbytes, List.nil_append, decode_bytesOf, String.ofList_toList]

/-! ## The characters of an encoded query -/

def isQuoted (c : Char) : Bool := isUnreserved c || c = '+' || c = '%'

theorem isUnreserved_hexDigit : ∀ n < 16, isUnreserved (hexDigit n) = true := by decide

theorem isQuoted_quotePlus {s : String} (hc : c ∈ quotePlus s) : isQuoted c = true := by
  obtain ⟨byte, -, hc⟩ := List.mem_flatMap.mp hc
  have hlt : byte.toNat < 256 := byte.toNat_lt
  simp only [quoteByte] at hc
  split_ifs at hc with hplain hspace
  · rw [List.mem_singleton.mp hc, isQuoted, hplain]
    rfl
  · rw [List.mem_singleton.mp hc]
    decide
  · simp only [List.mem_cons, List.not_mem_nil, or_false] at hc
    rcases hc with rfl | rfl | rfl
    · decide
    · rw [isQuoted, isUnreserved_hexDigit _ (by omega)]
      rfl
    · rw [isQuoted, isUnreserved_hexDigit _ (by omega)]
      rfl

theorem not_mem_quotePlus {s : String} (hc : isQuoted c = false) : c ∉ quotePlus s := by
  intro hmem
  rw [isQuoted_quotePlus hmem] at hc
  cases hc

/-- An encoded query holds quoted characters and the two separators. -/
theorem mem_urlencode {items : List (String × String)} (hc : c ∈ urlencode items) :
    isQuoted c = true ∨ c = '=' ∨ c = '&' := by
  rcases TextPieces.mem_intercalate hc with hc | ⟨part, hpart, hc⟩
  · exact Or.inr (Or.inr (List.mem_singleton.mp hc))
  · obtain ⟨item, -, rfl⟩ := List.mem_map.mp hpart
    rw [field, List.mem_append, List.mem_cons] at hc
    rcases hc with hc | rfl | hc
    · exact Or.inl (isQuoted_quotePlus hc)
    · exact Or.inr (Or.inl rfl)
    · exact Or.inl (isQuoted_quotePlus hc)

/-! ## The round trip -/

theorem field_ne_nil (item : String × String) : field item ≠ [] := by simp [field]

theorem not_mem_field (item : String × String) : '&' ∉ field item := by
  rw [field, List.mem_append, List.mem_cons]
  rintro (h | h | h)
  · exact not_mem_quotePlus (by decide) h
  · exact absurd h (by decide)
  · exact not_mem_quotePlus (by decide) h

theorem takeWhile_field (item : String × String) :
    (field item).takeWhile (· ≠ '=') = quotePlus item.1 := by
  rw [field, List.takeWhile_append_of_pos]
  · simp
  · intro c hc
    rw [decide_eq_true_eq]
    rintro rfl
    exact not_mem_quotePlus (by decide) hc

theorem dropWhile_field (item : String × String) :
    (field item).dropWhile (· ≠ '=') = '=' :: quotePlus item.2 := by
  rw [field, List.dropWhile_append_of_pos]
  · simp
  · intro c hc
    rw [decide_eq_true_eq]
    rintro rfl
    exact not_mem_quotePlus (by decide) hc

/-- An encoded query is read back. -/
theorem parseQsl_urlencode (items : List (String × String)) :
    parseQsl invalid (urlencode items) = items := by
  cases items with
  | nil => rfl
  | cons item items =>
    have hparts : (urlencode (item :: items)).splitOn '&' = (item :: items).map field := by
      apply List.splitOn_intercalate
      · intro part hpart
        obtain ⟨item, -, rfl⟩ := List.mem_map.mp hpart
        exact not_mem_field item
      · simp
    have hall : ((item :: items).map field).filter (· ≠ []) = (item :: items).map field := by
      apply List.filter_eq_self.mpr
      intro part hpart
      obtain ⟨item, -, rfl⟩ := List.mem_map.mp hpart
      exact decide_eq_true (field_ne_nil item)
    rw [parseQsl, hparts, hall, List.map_map]
    conv_rhs => rw [← List.map_id (item :: items)]
    apply List.map_congr_left
    intro item _
    simp only [Function.comp_apply, takeWhile_field, dropWhile_field, List.drop_one,
      List.tail_cons, unquotePlus_quotePlus, id]

end DecisionAssurance.QueryStrings
