import DecisionAssurance.SanitizingPatterns

/-!
# What is left of a text after sanitising

No tag and no secret survives the four substitutions and the tidying of the lines. A link with an
active target survives exactly where a redacted secret stood directly before the target: the `]` of
the replacement completes the link.
-/

namespace DecisionAssurance.Research

namespace Sanitizing

open Regex

/-! ## Substitutions in general -/

section Scanned

variable {r : Regex Char} {replacement : List Char} {prev : Option Char} {text result k : List Char}
  {ends : List (List Char)} {z c : Char}

/-- What starts the result without a piece of the replacement starts the text. -/
theorem prefix_text (h : Scanned r (z :: replacement) prev text result ends) (hz : z ∉ k)
    (hk : k <+: result) : k <+: text := by
  generalize hrep : z :: replacement = whole at h
  induction h generalizing k with
  | done => exact hk
  | kept _ _ ih =>
    cases k with
    | nil => exact List.nil_prefix
    | cons b k =>
      obtain ⟨rfl, hrest⟩ := List.cons_prefix_cons.mp hk
      have hz' : z ∉ k := fun hmem => hz (List.mem_cons_of_mem _ hmem)
      exact List.cons_prefix_cons.mpr ⟨rfl, ih hz' hrest⟩
  | replaced _ _ _ _ =>
    cases k with
    | nil => exact List.nil_prefix
    | cons b k =>
      rw [← hrep] at hk
      obtain ⟨rfl, -⟩ := List.cons_prefix_cons.mp hk
      exact absurd List.mem_cons_self hz

/-- What starts the text and overlaps no match starts the result. -/
theorem prefix_result (h : Scanned r replacement prev text result ends)
    (hsafe : ∀ t, t <:+ k → t ≠ [] →
      ∀ prev u rest, Regex.Accepts r prev u rest → ¬ t <+: u ++ rest)
    (hk : k <+: text) : k <+: result := by
  induction h generalizing k with
  | done => exact hk
  | kept _ _ ih =>
    cases k with
    | nil => exact List.nil_prefix
    | cons b k =>
      obtain ⟨rfl, hrest⟩ := List.cons_prefix_cons.mp hk
      apply List.cons_prefix_cons.mpr
      exact ⟨rfl, ih (fun t ht => hsafe t (ht.trans (List.suffix_cons _ _))) hrest⟩
  | replaced _ haccepts _ _ =>
    cases k with
    | nil => exact List.nil_prefix
    | cons b k =>
      exact absurd hk (hsafe _ (List.suffix_refl _) (List.cons_ne_nil _ _) _ _ _ haccepts)

theorem mem_text (h : Scanned r replacement prev text result ends) (hc : c ∉ replacement)
    (hmem : c ∈ result) : c ∈ text := by
  induction h with
  | done => exact hmem
  | kept _ _ ih => exact List.mem_cons.mpr ((List.mem_cons.mp hmem).imp_right ih)
  | replaced _ _ _ ih =>
    apply List.mem_append_right
    exact ih ((List.mem_append.mp hmem).resolve_left hc)

theorem mem_result (h : Scanned r replacement prev text result ends)
    (hc : ∀ prev u rest, Regex.Accepts r prev u rest → c ∉ u) (hmem : c ∈ text) : c ∈ result := by
  induction h with
  | done => exact hmem
  | kept _ _ ih => exact List.mem_cons.mpr ((List.mem_cons.mp hmem).imp_right ih)
  | replaced _ haccepts _ ih =>
    apply List.mem_append_right
    exact ih ((List.mem_append.mp hmem).resolve_left (hc _ _ _ haccepts))

/-- A character that starts the text and no match starts the result. -/
theorem head_result (h : Scanned r replacement prev text result ends)
    (hwords : ∀ prev u rest, Regex.Accepts r prev u rest → u.head? ≠ some c)
    (hhead : text.head? = some c) : result.head? = some c := by
  cases h with
  | done => exact hhead
  | kept _ _ => exact hhead
  | @replaced _ u _ _ _ hne haccepts _ =>
    cases u with
    | nil => exact absurd rfl hne
    | cons b u =>
      have hother : (b :: u).head? ≠ some c := hwords _ _ _ haccepts
      exact absurd hhead hother

/-- A word that cannot start with a character starts after it. -/
theorem infix_of_infix_cons {u y : List Char} (hu : ∀ t, u ≠ z :: t) (h : u <:+: z :: y) :
    u <:+: y := by
  rcases List.infix_cons_iff.mp h with h | h
  · rcases List.prefix_cons_iff.mp h with rfl | ⟨t, rfl, -⟩
    · exact List.nil_infix
    · exact absurd rfl (hu t)
  · exact h

theorem infix_of_infix_append {u x y : List Char} (hu : ∀ c ∈ x, ∀ t, u ≠ c :: t)
    (h : u <:+: x ++ y) : u <:+: y := by
  induction x with
  | nil => exact h
  | cons c x ih =>
    obtain ⟨hc, hx⟩ := List.forall_mem_cons.mp hu
    exact ih hx (infix_of_infix_cons hc h)

/-- A word that lacks a character of the text around it lies on one side of it. -/
theorem infix_append_cons {u x y : List Char} (hu : z ∉ u) (h : u <:+: x ++ z :: y) :
    u <:+: x ∨ u <:+: y := by
  have hstart : ∀ t, u ≠ z :: t := by
    rintro t rfl
    exact hu List.mem_cons_self
  rcases List.infix_append_iff_ne_nil.mp h with h | h | ⟨l₁, l₂, -, hne, rfl, -, h⟩
  · exact .inl h
  · exact .inr (infix_of_infix_cons hstart h)
  · rcases List.prefix_cons_iff.mp h with hnil | ⟨t, rfl, -⟩
    · exact absurd hnil hne
    · exact absurd (List.mem_append_right _ List.mem_cons_self) hu

end Scanned

/-! ## Tags -/

section Words

variable {u text result : List Char} {prev : Option Char} {ends : List (List Char)} {z c : Char}

/-- A tag without its bracket at the start of a text. -/
theorem tag_of_mem {text : List Char} (hstart : text.head? ≠ some '>') (hmem : '>' ∈ text) :
    ∃ u rest, '<' :: text = u ++ rest ∧ HtmlWord u := by
  obtain ⟨x, rest, rfl, hx⟩ := List.eq_append_cons_of_mem hmem
  refine ⟨'<' :: (x ++ ['>']), rest, by simp, x, rfl, ?_, hx⟩
  rintro rfl
  exact hstart rfl

/-- A tag at a kept bracket of the result is one of the text. -/
theorem tag_at_bracket {r : Regex Char} {replacement x : List Char}
    (h : Scanned r replacement prev text result ends) (hreplacement : '>' ∉ replacement)
    (hwords : ∀ prev u rest, Regex.Accepts r prev u rest → u.head? ≠ some '>') (hx : x ≠ [])
    (hfree : '>' ∉ x) (hstart : x ++ ['>'] <+: result) :
    ∃ u rest, '<' :: text = u ++ rest ∧ HtmlWord u := by
  apply tag_of_mem
  · intro hhead
    have hresult := head_result h hwords hhead
    cases x with
    | nil => exact hx rfl
    | cons b x =>
      obtain ⟨rest, rfl⟩ := hstart
      obtain rfl : b = '>' := Option.some.inj hresult
      exact hfree List.mem_cons_self
  · apply mem_text h hreplacement
    exact hstart.subset (List.mem_append_right _ (List.mem_singleton_self _))

theorem html_absent (h : Scanned html [' '] prev text result ends) (hu : HtmlWord u) :
    ¬ u <:+: result := by
  have hwords : ∀ prev u rest, Regex.Accepts html prev u rest → u.head? ≠ some '>' := by
    intro prev u rest haccepts
    obtain ⟨x, rfl, -⟩ := (denotes_html _ _ _).mp haccepts
    simp
  induction h with
  | done =>
    obtain ⟨x, rfl, -⟩ := hu
    simp
  | kept hnone h ih =>
    intro hwithin
    rcases List.infix_cons_iff.mp hwithin with hstart | hwithin
    · obtain ⟨x, rfl, hx, hfree⟩ := hu
      obtain ⟨rfl, htail⟩ := List.cons_prefix_cons.mp hstart
      obtain ⟨u, rest, htext, hu⟩ := tag_at_bracket h (by decide) hwords hx hfree htail
      exact hnone u rest htext ((denotes_html _ _ _).mpr hu)
    · exact ih hwithin
  | replaced _ _ _ ih =>
    intro hwithin
    refine ih (infix_of_infix_cons ?_ hwithin)
    obtain ⟨x, rfl, -⟩ := hu
    exact fun t h => absurd (List.cons.inj h).1 (by decide)

theorem denotes_elementName : Denotes elementName fun u =>
    ∃ name ∈ ["script", "style", "iframe", "object", "embed"], u.map folded = name.toList := by
  refine ((denotes_caseless "script").alt ((denotes_caseless "style").alt
    ((denotes_caseless "iframe").alt ((denotes_caseless "object").alt
      (denotes_caseless "embed"))))).congr fun u => ?_
  simp

/-- Where there is active content there is a tag. -/
theorem tag_of_activeHtml {rest : List Char} (h : Regex.Accepts activeHtml prev u rest) :
    ∃ t, HtmlWord t ∧ t <:+: u := by
  cases h with
  | @seq _ _ _ _ v₁ _ h₁ h =>
  cases h with
  | @seq _ _ _ _ v₂ _ h₂ h =>
  cases h with
  | @seq _ _ _ _ v₃ _ h₃ h =>
  cases h with
  | @seq _ _ _ _ v₄ _ h₄ h =>
  cases h with
  | @seq _ _ _ _ v₅ v₆ h₅ h =>
  obtain rfl := (denotes_mark _ _ _ _).mp h₁
  obtain rfl := (denotes_mark _ _ _ _).mp h₅
  have hspaces := (denotes_spaces _ _ _).mp h₂
  obtain ⟨name, hname, hfolded⟩ := (denotes_elementName _ _ _).mp h₃
  have hrest := ((denotes_noMark_rep _ _ _ _ _ _).mp h₄).2
  refine ⟨'<' :: (v₂ ++ (v₃ ++ v₄) ++ ['>']), ⟨_, rfl, ?_, ?_⟩, [], v₆, by simp⟩
  · intro hnil
    obtain ⟨rfl, -⟩ := List.append_eq_nil_iff.mp (List.append_eq_nil_iff.mp hnil).2
    revert hfolded
    revert name
    decide
  · intro hmem
    rcases List.mem_append.mp hmem with hmem | hmem
    · exact absurd (hspaces _ hmem) (by decide)
    · rcases List.mem_append.mp hmem with hmem | hmem
      · have hletter := List.mem_map_of_mem (f := folded) hmem
        rw [hfolded] at hletter
        revert hletter
        clear hfolded
        revert name
        decide
      · exact hrest hmem

/-! ## Secrets -/

/-- A character that none of the names and classes of a secret contain. -/
def Foreign (c : Char) : Prop :=
  (∀ s ∈ ["sk-", "api", "key", "token", "secret"], folded c ∉ s.toList) ∧
    isWordChar (folded c) = false ∧ ∀ s ∈ ["_-", "_./+-", "_ -", ":="], c ∉ s.toList

instance (c : Char) : Decidable (Foreign c) :=
  inferInstanceAs (Decidable ((∀ s ∈ ["sk-", "api", "key", "token", "secret"],
    folded c ∉ s.toList) ∧ isWordChar (folded c) = false ∧
      ∀ s ∈ ["_-", "_./+-", "_ -", ":="], c ∉ s.toList))

theorem Foreign.not_mem_name (hz : Foreign z) {k : List Char} {s : String}
    (hs : s ∈ ["sk-", "api", "key", "token", "secret"]) (hk : k.map folded = s.toList) :
    z ∉ k := by
  intro hmem
  exact hz.1 s hs (hk ▸ List.mem_map_of_mem hmem)

theorem Foreign.not_mem_filled (hz : Foreign z) {least : ℕ} {extra : String} {v : List Char}
    (hextra : extra ∈ ["_-", "_./+-", "_ -", ":="]) (hv : Filled least extra v) : z ∉ v := by
  intro hmem
  rcases hv.2 z hmem with h | h
  · rw [hz.2.1] at h
    cases h
  · exact hz.2.2 extra hextra h

theorem Foreign.not_mem_keyName (hz : Foreign z) {k : List Char} (hk : KeyName k) : z ∉ k := by
  rcases hk with ⟨a, m, b, rfl, ha, hm, hb⟩ | hk | hk
  · have hza := hz.not_mem_name (by simp) ha
    have hzb := hz.not_mem_name (by simp) hb
    have hzm : z ∉ m := by
      rcases hm with rfl | ⟨c, hc, rfl⟩
      · exact List.not_mem_nil
      · intro hmem
        rw [List.mem_singleton.mp hmem] at hz
        exact hz.2.2 "_ -" (by simp) hc
    simp [hza, hzb, hzm]
  · exact hz.not_mem_name (by simp) hk
  · exact hz.not_mem_name (by simp) hk

theorem Foreign.not_mem_secret (hz : Foreign z) (hspace : isSpace z = false) (hu : SecretWord u) :
    z ∉ u := by
  have hspaces : ∀ {s : List Char}, Spaces s → z ∉ s := by
    intro s hs hmem
    rw [hs z hmem] at hspace
    cases hspace
  rcases hu with ⟨k, v, rfl, hk, hv⟩ | ⟨k, s, c, t, v, rfl, hk, hs, hc, ht, hv⟩
  · have hzk := hz.not_mem_name (by simp) hk
    have hzv := hz.not_mem_filled (by simp) hv
    simp [hzk, hzv]
  · have hzk := hz.not_mem_keyName hk
    have hzv := hz.not_mem_filled (by simp) hv
    have hzc : z ≠ c := by
      rintro rfl
      exact hz.2.2 ":=" (by simp) hc
    simp [hzk, hzv, hzc, hspaces hs, hspaces ht]

theorem SecretWord.long (hu : SecretWord u) : 16 ≤ u.length := by
  rcases hu with ⟨k, v, rfl, -, hv⟩ | ⟨k, s, c, t, v, rfl, -, -, -, -, hv⟩
  · have := hv.1
    simp only [List.length_append]
    omega
  · have := hv.1
    simp only [List.length_append, List.length_cons]
    omega

/-- How a secret starts. -/
theorem SecretWord.start (hu : SecretWord u) : (u.map folded).take 2 ∈
    ["sk".toList, "ap".toList, "to".toList, "se".toList] := by
  rcases hu with ⟨k, v, rfl, hk, -⟩ | ⟨k, s, c, t, v, rfl, hk, -⟩
  · simp [hk]
  · rcases hk with ⟨a, m, b, rfl, ha, -⟩ | hk | hk
    · simp [ha]
    · simp [hk]
    · simp [hk]

theorem secret_absent (h : Scanned secret "[REDACTED]".toList prev text result ends)
    (hu : SecretWord u) : ¬ u <:+: result := by
  have hopen : '[' ∉ u := Foreign.not_mem_secret (by decide) (by decide) hu
  have hclose : ']' ∉ u := Foreign.not_mem_secret (by decide) (by decide) hu
  have hne : u ≠ [] := by
    rintro rfl
    exact absurd hu.long (by simp)
  induction h with
  | done =>
    intro hwithin
    exact hne (List.infix_nil.mp hwithin)
  | @kept prev a text result _ hnone h ih =>
    intro hwithin
    rcases List.infix_cons_iff.mp hwithin with hstart | hwithin
    · obtain ⟨rest, htext⟩ := prefix_text (.kept hnone h) hopen hstart
      exact hnone u rest htext.symm ((denotes_secret _ _ _).mpr hu)
    · exact ih hwithin
  | replaced _ _ _ ih =>
    intro hwithin
    rcases infix_append_cons (x := "[REDACTED".toList) hclose hwithin with hinside | hwithin
    · have hlength := hinside.length_le
      have hlong := hu.long
      simp at hlength
      omega
    · exact ih hwithin

/-- Redacting changes no bracket, so that it makes no tag. -/
theorem tag_of_redacted (h : Scanned secret "[REDACTED]".toList prev text result ends)
    (hu : HtmlWord u) (hwithin : u <:+: result) : ∃ w, HtmlWord w ∧ w <:+: text := by
  have hwords : ∀ prev u rest, Regex.Accepts secret prev u rest → u.head? ≠ some '>' := by
    intro prev u rest haccepts hhead
    have hfree : '>' ∉ u :=
      Foreign.not_mem_secret (by decide) (by decide) ((denotes_secret _ _ _).mp haccepts)
    exact hfree (List.mem_of_mem_head? hhead)
  induction h with
  | done => exact ⟨u, hu, hwithin⟩
  | kept _ h ih =>
    rcases List.infix_cons_iff.mp hwithin with hstart | hwithin
    · obtain ⟨x, rfl, hx, hfree⟩ := hu
      obtain ⟨rfl, htail⟩ := List.cons_prefix_cons.mp hstart
      obtain ⟨w, rest, htext, hw⟩ := tag_at_bracket h (by decide) hwords hx hfree htail
      exact ⟨w, hw, [], rest, htext.symm⟩
    · obtain ⟨w, hw, hinside⟩ := ih hwithin
      exact ⟨w, hw, List.infix_cons hinside⟩
  | replaced _ _ _ ih =>
    have hstart : ∀ c ∈ "[REDACTED]".toList, ∀ t, u ≠ c :: t := by
      obtain ⟨x, rfl, -⟩ := hu
      intro c hc t h
      rw [← (List.cons.inj h).1] at hc
      exact absurd hc (by decide)
    obtain ⟨w, hw, hinside⟩ := ih (infix_of_infix_append hstart hwithin)
    exact ⟨w, hw, hinside.trans (List.suffix_append _ _).isInfix⟩

/-! ## Links -/

/-- The start of a link target. -/
def TargetHead (k : List Char) : Prop := ∃ h, Scheme h ∧ k = '(' :: (h ++ [':'])

/-- A link target stands at the start of the text. -/
def TargetAt (t : List Char) : Prop := (∃ k, TargetHead k ∧ k <+: t) ∧ ')' ∈ t

def HasLink : List Char → Prop
  | [] => False
  | a :: t => a = ']' ∧ TargetAt t ∨ HasLink t

theorem TargetHead.folded {k : List Char} (hk : TargetHead k) :
    k.map folded ∈ ["(javascript:".toList, "(data:".toList] := by
  obtain ⟨h, hh | hh, rfl⟩ := hk
  · simp [hh, Sanitizing.folded]
  · simp [hh, Sanitizing.folded]

theorem TargetHead.not_mem {k : List Char} (hk : TargetHead k)
    (hz : ∀ s ∈ ["(javascript:".toList, "(data:".toList], Sanitizing.folded z ∉ s) : z ∉ k := by
  intro hmem
  exact hz _ hk.folded (List.mem_map_of_mem hmem)

theorem targetAt_iff {t : List Char} :
    TargetAt t ↔ ∃ u rest, t = u ++ rest ∧ TargetWord u := by
  constructor
  · intro ⟨⟨k, hk, hstart⟩, hmem⟩
    obtain ⟨rest, rfl⟩ := hstart
    have hclose : ')' ∉ k := hk.not_mem (by decide)
    obtain ⟨x, rest', rfl, hx⟩ :=
      List.eq_append_cons_of_mem ((List.mem_append.mp hmem).resolve_left hclose)
    obtain ⟨h, hh, rfl⟩ := hk
    exact ⟨'(' :: (h ++ ':' :: (x ++ [')'])), rest', by simp, h, x, rfl, hh, hx⟩
  · rintro ⟨_, rest, rfl, h, x, rfl, hh, hx⟩
    refine ⟨⟨'(' :: (h ++ [':']), ⟨h, hh, rfl⟩, x ++ ')' :: rest, by simp⟩, by simp⟩

theorem hasLink_iff {t : List Char} :
    HasLink t ↔ ∃ u, u <:+: t ∧ ∃ w, u = ']' :: w ∧ TargetWord w := by
  induction t with
  | nil => simp [HasLink]
  | cons a t ih =>
    rw [HasLink, ih, targetAt_iff]
    constructor
    · intro h
      rcases h with ⟨rfl, w, rest, rfl, hw⟩ | ⟨u, hwithin, hu⟩
      · exact ⟨']' :: w, List.infix_cons_iff.mpr (.inl (List.prefix_append _ _)), w, rfl, hw⟩
      · exact ⟨u, List.infix_cons hwithin, hu⟩
    · rintro ⟨_, hwithin, w, rfl, hw⟩
      rcases List.infix_cons_iff.mp hwithin with hstart | hwithin
      · obtain ⟨rfl, rest, hrest⟩ := List.cons_prefix_cons.mp hstart
        exact .inl ⟨rfl, w, rest, hrest.symm, hw⟩
      · exact .inr ⟨_, hwithin, w, rfl, hw⟩

theorem search_activeLink {t : List Char} : activeLink.search t = true ↔ HasLink t := by
  rw [search_iff, denotes_activeLink.occurs, hasLink_iff]

theorem hasLink_append {u t : List Char} (hu : ']' ∉ u) : HasLink (u ++ t) ↔ HasLink t := by
  induction u with
  | nil => rfl
  | cons a u ih =>
    obtain ⟨ha, hu⟩ := not_or.mp (List.mem_cons.not.mp hu)
    rw [List.cons_append, HasLink, ih hu, or_iff_right fun h => ha h.1.symm]

theorem HasLink.prepend {u t : List Char} (h : HasLink t) : HasLink (u ++ t) := by
  induction u with
  | nil => exact h
  | cons a u ih => exact .inr ih

/-- A target in the result is one of the text. -/
theorem TargetAt.kept {r : Regex Char} {replacement : List Char}
    (h : Scanned r (z :: replacement) prev text result ends)
    (hz : ∀ s ∈ ["(javascript:".toList, "(data:".toList], folded z ∉ s)
    (hclose : ')' ∈ result → ')' ∈ text) (ht : TargetAt result) : TargetAt text := by
  obtain ⟨⟨k, hk, hstart⟩, hmem⟩ := ht
  exact ⟨⟨k, hk, prefix_text h (hk.not_mem hz) hstart⟩, hclose hmem⟩

theorem close_of_activeLink (h : Scanned activeLink "](about:blank)".toList prev text result ends)
    (hmem : ')' ∈ result) : ')' ∈ text := by
  induction h with
  | done => exact hmem
  | kept _ _ ih => exact List.mem_cons.mpr ((List.mem_cons.mp hmem).imp_right ih)
  | replaced _ haccepts _ _ =>
    obtain ⟨w, rfl, h, x, rfl, -⟩ := (denotes_activeLink _ _ _).mp haccepts
    simp

/-- The replacement of a link starts no target. -/
theorem blank_no_target {k rest : List Char} (hk : TargetHead k) :
    ¬ k <+: "(about:blank)".toList ++ rest := by
  intro hstart
  have htake := (hstart.map folded).take 2
  rw [List.map_append, List.take_append_of_le_length (by decide)] at htake
  have hapart : ∀ head ∈ ["(javascript:".toList, "(data:".toList],
      ¬ head.take 2 <+: ("(about:blank)".toList.map folded).take 2 := by decide
  exact hapart _ hk.folded htake

theorem link_absent (h : Scanned activeLink "](about:blank)".toList prev text result ends) :
    ¬ HasLink result := by
  induction h with
  | done => exact id
  | @kept prev a text result _ hnone h ih =>
    intro hlink
    rcases hlink with ⟨rfl, ht⟩ | hlink
    · obtain ⟨u, rest, rfl, hu⟩ := targetAt_iff.mp (ht.kept h (by decide) (close_of_activeLink h))
      exact hnone (']' :: u) rest rfl ((denotes_activeLink _ _ _).mpr ⟨u, rfl, hu⟩)
    · exact ih hlink
  | @replaced _ _ _ result _ _ _ _ ih =>
    intro hlink
    rcases hlink with ⟨-, ⟨k, hk, hstart⟩, -⟩ | hlink
    · exact blank_no_target hk hstart
    · have hinert : ']' ∉ "(about:blank)".toList := by decide
      exact ih ((hasLink_append hinert).mp hlink)

/-- Removing tags completes no link. -/
theorem link_of_html (h : Scanned html [' '] prev text result ends) (hlink : HasLink result) :
    HasLink text := by
  induction h with
  | done => exact hlink
  | kept _ h ih =>
    rcases hlink with ⟨rfl, ht⟩ | hlink
    · exact .inl ⟨rfl, ht.kept h (by decide) (mem_text h (by decide))⟩
    · exact .inr (ih hlink)
  | replaced _ _ _ ih =>
    rcases hlink with ⟨hspace, -⟩ | hlink
    · exact absurd hspace (by decide)
    · exact (ih hlink).prepend

/-- No secret starts within the start of a link target. -/
theorem target_no_secret {k t rest : List Char} (hk : TargetHead k) (ht : t <:+ k) (hne : t ≠ [])
    (hu : SecretWord u) : ¬ t <+: u ++ rest := by
  intro hstart
  have hlong := hu.long
  have htake : (t.map folded).take 2 <+: (u.map folded).take 2 := by
    have hmap := (hstart.map folded).take 2
    rw [List.map_append, List.take_append_of_le_length (by rw [List.length_map]; omega)] at hmap
    exact hmap
  have hsuffix : t.map folded ∈ (k.map folded).tails := (List.mem_tails _ _).mpr (ht.map folded)
  have hsome : t.map folded ≠ [] := by simpa using hne
  have hapart : ∀ head ∈ ["(javascript:".toList, "(data:".toList], ∀ s ∈ head.tails, s ≠ [] →
      ∀ start ∈ ["sk".toList, "ap".toList, "to".toList, "se".toList], ¬ s.take 2 <+: start := by
    decide
  exact hapart _ hk.folded _ hsuffix hsome _ hu.start htake

theorem targetAt_secret (h : Scanned secret "[REDACTED]".toList prev text result ends) :
    TargetAt result ↔ TargetAt text := by
  constructor
  · intro ht
    exact ht.kept h (by decide) (mem_text h (by decide))
  · intro ⟨⟨k, hk, hstart⟩, hmem⟩
    refine ⟨⟨k, hk, prefix_result h ?_ hstart⟩, mem_result h ?_ hmem⟩
    · intro t ht hne prev u rest haccepts
      exact target_no_secret hk ht hne ((denotes_secret _ _ _).mp haccepts)
    · intro prev u rest haccepts
      have hu := (denotes_secret _ _ _).mp haccepts
      exact Foreign.not_mem_secret (by decide) (by decide) hu

/-- The replacement of a secret completes a link exactly where a target follows the secret. -/
theorem link_iff_secret (h : Scanned secret "[REDACTED]".toList prev text result ends) :
    HasLink result ↔ HasLink text ∨ ∃ e ∈ ends, TargetAt e := by
  induction h with
  | done => simp [HasLink]
  | kept _ h ih => rw [HasLink, HasLink, ih, targetAt_secret h, or_assoc]
  | @replaced _ u rest result ends _ haccepts h ih =>
    have hu := (denotes_secret _ _ _).mp haccepts
    have hclose : ']' ∉ u := Foreign.not_mem_secret (by decide) (by decide) hu
    have hinert : ']' ∉ "[REDACTED".toList := by decide
    have hresult : HasLink ("[REDACTED]".toList ++ result) ↔ TargetAt result ∨ HasLink result := by
      rw [show "[REDACTED]".toList ++ result = "[REDACTED".toList ++ ']' :: result from rfl,
        hasLink_append hinert, HasLink, eq_self, true_and]
    rw [hresult, ih, targetAt_secret h, hasLink_append hclose, List.exists_mem_cons_iff]
    exact or_left_comm

end Words

end Sanitizing

end DecisionAssurance.Research
