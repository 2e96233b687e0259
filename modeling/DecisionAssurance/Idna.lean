import DecisionAssurance.WrittenPieces

/-!
# The IDNA codec

The encoding of host names as the `idna` codec of Python does it: labels are split at four dots,
every label is encoded by itself, and a dot at the end is kept. How a label outside ASCII is
encoded (nameprep and Punycode) is a parameter.
-/

namespace DecisionAssurance.Idna

/-- The dots that separate labels: the full stop and three dots outside ASCII. -/
def isDot (c : Char) : Bool := c = '.' || c = '。' || c = '．' || c = '｡'

def isAscii (c : Char) : Bool := decide (c.toNat < 128)

/-- The length of a label is from 1 to 63. -/
def fits (label : List Char) : Bool := 0 < label.length && label.length < 64

section Codec

variable (foreign : List Char → Option (List Char))

/-- `ToASCII` -/
def toAscii (label : List Char) : Option (List Char) :=
  if label.all isAscii then if fits label then some label else none else foreign label

/-- The labels and the dot at the end. -/
def labelsOf (input : List Char) : List (List Char) × List Char :=
  let labels := input.splitOnP isDot
  if labels.getLast? = some [] then (labels.dropLast, ['.']) else (labels, [])

/-- `input.encode("idna").decode("ascii")` -/
def encode (input : List Char) : Option (List Char) :=
  if input.isEmpty then some []
  else if input.all isAscii then
    let labels := input.splitOn '.'
    if labels.dropLast.all fits && labels.getLast?.any fun l => l.length < 64 then some input
    else none
  else
    let (labels, dot) := labelsOf input
    (labels.mapM (toAscii foreign)).map fun encoded => ['.'].intercalate encoded ++ dot

end Codec

/-- The full stop in place of the other dots. -/
def plainDot (c : Char) : Char := if isDot c then '.' else c

def mapDots (cs : List Char) : List Char := cs.map plainDot

variable {foreign : List Char → Option (List Char)} {cs : List Char} {c : Char}

theorem isDot_plainDot (c : Char) : isDot (plainDot c) = isDot c := by
  unfold plainDot
  split
  · next h => exact h.symm
  · rfl

theorem plainDot_of_not_isDot (h : isDot c = false) : plainDot c = c := by
  simp [plainDot, h]

theorem plainDot_of_isAscii (h : isAscii c = true) : plainDot c = c := by
  unfold plainDot
  split
  · next hdot =>
    simp only [isDot, Bool.or_eq_true, decide_eq_true_eq] at hdot
    rcases hdot with ((rfl | rfl) | rfl) | rfl
    · rfl
    · exact absurd h (by decide)
    · exact absurd h (by decide)
    · exact absurd h (by decide)
  · rfl

theorem mapDots_of_ascii (h : cs.all isAscii = true) : mapDots cs = cs := by
  rw [mapDots]
  conv_rhs => rw [← List.map_id cs]
  apply List.map_congr_left
  intro c hc
  exact plainDot_of_isAscii (List.all_eq_true.mp h c hc)

/-- Mapping the dots changes no label. -/
theorem splitOnP_mapDots (cs : List Char) :
    (mapDots cs).splitOnP isDot = cs.splitOnP isDot := by
  induction cs with
  | nil => rfl
  | cons c cs ih =>
    rw [show mapDots (c :: cs) = plainDot c :: mapDots cs from rfl,
      List.splitOnP_cons_eq_if_modifyHead, List.splitOnP_cons_eq_if_modifyHead, isDot_plainDot, ih]
    cases hdot : isDot c with
    | true => rfl
    | false => rw [plainDot_of_not_isDot hdot]

/-- On ASCII, and after the mapping, only the full stop separates labels. -/
theorem splitOn_of_plain (h : ∀ c ∈ cs, isDot c = true → c = '.') :
    cs.splitOn '.' = cs.splitOnP isDot := by
  induction cs with
  | nil => rfl
  | cons c cs ih =>
    obtain ⟨hc, hcs⟩ := List.forall_mem_cons.mp h
    rw [List.splitOn_cons_eq_if_modifyHead, List.splitOnP_cons_eq_if_modifyHead, ih hcs]
    cases hdot : isDot c with
    | true => simp [hc hdot]
    | false =>
      have hne : c ≠ '.' := by
        rintro rfl
        exact absurd hdot (by decide)
      simp [hne]

theorem plain_mapDots : ∀ c ∈ mapDots cs, isDot c = true → c = '.' := by
  intro c hc hdot
  obtain ⟨d, -, rfl⟩ := List.mem_map.mp hc
  rw [isDot_plainDot] at hdot
  simp [plainDot, hdot]

theorem intercalate_labels (cs : List Char) :
    ['.'].intercalate (cs.splitOnP isDot) = mapDots cs := by
  rw [← splitOnP_mapDots, ← splitOn_of_plain plain_mapDots, List.intercalate_splitOn]

/-- A separator-free end lengthens the last label. -/
theorem splitOnP_append (xs : List Char) {ys : List Char} (hys : ∀ c ∈ ys, isDot c = false) :
    ∃ labels last, xs.splitOnP isDot = labels ++ [last] ∧
      (xs ++ ys).splitOnP isDot = labels ++ [last ++ ys] := by
  induction xs with
  | nil => exact ⟨[], [], rfl, List.splitOnP_eq_singleton hys⟩
  | cons x xs ih =>
    obtain ⟨labels, last, hxs, happend⟩ := ih
    rw [List.cons_append, List.splitOnP_cons_eq_if_modifyHead, List.splitOnP_cons_eq_if_modifyHead,
      hxs, happend]
    cases isDot x with
    | true => exact ⟨[] :: labels, last, rfl, rfl⟩
    | false =>
      cases labels with
      | nil => exact ⟨[], x :: last, rfl, rfl⟩
      | cons label labels => exact ⟨(x :: label) :: labels, last, rfl, rfl⟩

/-- The last label is empty exactly after a dot. -/
theorem getLast?_labels {cs : List Char} {d : Char} :
    ((cs ++ [d]).splitOnP isDot).getLast? = some [] ↔ isDot d = true := by
  cases hdot : isDot d with
  | true =>
    rw [List.splitOnP_append_cons cs [] hdot]
    simp
  | false =>
    obtain ⟨labels, last, -, happend⟩ := @splitOnP_append cs [d] (by simpa using hdot)
    rw [happend]
    simp

/-! ## Encoding -/

theorem encode_ascii (hne : cs ≠ []) (h : cs.all isAscii = true) :
    encode foreign cs = if (cs.splitOn '.').dropLast.all fits &&
      (cs.splitOn '.').getLast?.any fun l => l.length < 64 then some cs else none := by
  simp [encode, hne, h]

theorem encode_foreign (h : cs.all isAscii = false) :
    encode foreign cs = ((labelsOf cs).1.mapM (toAscii foreign)).map fun encoded =>
      ['.'].intercalate encoded ++ (labelsOf cs).2 := by
  have hne : cs ≠ [] := by
    rintro rfl
    cases h
  simp [encode, hne, h]

theorem mapM_toAscii_of_ascii {labels : List (List Char)}
    (h : ∀ label ∈ labels, label.all isAscii = true) :
    labels.mapM (toAscii foreign) = if labels.all fits then some labels else none := by
  induction labels with
  | nil => rfl
  | cons label labels ih =>
    obtain ⟨hlabel, hlabels⟩ := List.forall_mem_cons.mp h
    rw [List.mapM_cons, toAscii, if_pos hlabel, ih hlabels, List.all_cons]
    cases fits label with
    | false => rfl
    | true => cases labels.all fits <;> rfl

theorem mapM_eq_none {α β : Type} {f : α → Option β} {x : α} {xs : List α} (hx : x ∈ xs)
    (h : f x = none) : xs.mapM f = none := by
  induction xs with
  | nil => cases hx
  | cons y xs ih =>
    rw [List.mapM_cons]
    rcases List.mem_cons.mp hx with rfl | hx
    · rw [h]
      rfl
    · rw [ih hx]
      cases f y <;> rfl

section Names

variable {d : Char}

theorem fits_of_last (hlast : (cs.splitOnP isDot).getLast? ≠ some []) :
    ((cs.splitOnP isDot).dropLast.all fits &&
      (cs.splitOnP isDot).getLast?.any fun l => l.length < 64) = (cs.splitOnP isDot).all fits := by
  obtain ⟨labels, last, hlabels⟩ : ∃ labels last, cs.splitOnP isDot = labels ++ [last] :=
    ⟨_, _, (List.dropLast_concat_getLast (List.splitOnP_ne_nil isDot cs)).symm⟩
  rw [hlabels] at hlast ⊢
  have hpos : 0 < last.length := by
    rw [List.length_pos_iff]
    rintro rfl
    simp at hlast
  simp [fits, hpos]

/-- A name that ends in no dot is encoded label by label. -/
theorem encode_labels (hlast : isDot d = false) :
    encode foreign (cs ++ [d]) =
      (((cs ++ [d]).splitOnP isDot).mapM (toAscii foreign)).map (['.'].intercalate ·) := by
  have hend : ((cs ++ [d]).splitOnP isDot).getLast? ≠ some [] := by
    rw [Ne, getLast?_labels, hlast]
    exact Bool.false_ne_true
  cases hascii : (cs ++ [d]).all isAscii with
  | true =>
    have hchars : ∀ c ∈ cs ++ [d], isAscii c = true := List.all_eq_true.mp hascii
    have hplain : ∀ c ∈ cs ++ [d], isDot c = true → c = '.' := by
      intro c hc hdot
      have hsame := plainDot_of_isAscii (hchars c hc)
      rw [← hsame]
      simp [plainDot, hdot]
    have hlabels : ∀ label ∈ (cs ++ [d]).splitOnP isDot, label.all isAscii = true := by
      intro label hlabel
      have hsub := TextPieces.sublist_of_mem_splitOnP hlabel
      exact List.all_eq_true.mpr fun c hc => hchars c (hsub.subset hc)
    rw [encode_ascii (by simp) hascii, splitOn_of_plain hplain, fits_of_last hend,
      mapM_toAscii_of_ascii hlabels]
    cases ((cs ++ [d]).splitOnP isDot).all fits with
    | false => rfl
    | true => simp [intercalate_labels, mapDots_of_ascii hascii]
  | false =>
    rw [encode_foreign hascii, labelsOf, if_neg hend]
    simp only [List.append_nil]

/-- The spelling of the inner dots does not matter. -/
theorem encode_mapDots (hlast : isDot d = false) :
    encode foreign (mapDots (cs ++ [d])) = encode foreign (cs ++ [d]) := by
  have hmap : mapDots (cs ++ [d]) = mapDots cs ++ [plainDot d] := List.map_append
  rw [hmap, encode_labels (by rw [isDot_plainDot, hlast]), encode_labels hlast, ← hmap,
    splitOnP_mapDots]

/-- A dot at the end that is no full stop stays, as a full stop. -/
theorem encode_dot (hdot : isDot d = true) (hforeign : isAscii d = false) {name : List Char}
    (h : encode foreign (cs ++ [d]) = some name) :
    ∃ init e encoded, cs = init ++ [e] ∧ isDot e = false ∧ encode foreign cs = some encoded ∧
      name = encoded ++ ['.'] := by
  have hascii : (cs ++ [d]).all isAscii = false := by simp [hforeign]
  have hlabels : (cs ++ [d]).splitOnP isDot = cs.splitOnP isDot ++ [[]] :=
    List.splitOnP_append_cons cs [] hdot
  rw [encode_foreign hascii, labelsOf, hlabels] at h
  simp only [List.getLast?_append, List.getLast?_singleton, Option.some_or, if_true,
    List.dropLast_concat, Option.map_eq_some_iff] at h
  obtain ⟨encoded, hencoded, rfl⟩ := h
  cases cs using List.reverseRecOn with
  | nil => exact absurd hencoded (by simp [toAscii, fits])
  | append_singleton init e =>
    have he : isDot e = false := by
      rw [Bool.eq_false_iff]
      intro he
      have hempty : [] ∈ (init ++ [e]).splitOnP isDot := by
        rw [List.splitOnP_append_cons init [] he]
        simp
      have hnone : toAscii foreign [] = none := rfl
      rw [mapM_eq_none hempty hnone] at hencoded
      cases hencoded
    refine ⟨init, e, _, rfl, he, ?_, rfl⟩
    rw [encode_labels he, hencoded, Option.map_some]

end Names

end DecisionAssurance.Idna
