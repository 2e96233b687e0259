import Mathlib.Data.List.TakeWhile
import DecisionAssurance.SanitizedText
import DecisionAssurance.SemanticFingerprint

/-!
# The text of a snapshot

Tidying the lines only changes white space: a run of it with a line break becomes a run with one
`\n`, and what stands at both ends goes. With that, the absence of tags and secrets carries over
to the snapshot, and a link is in the snapshot exactly where one is in the redacted text.
-/

namespace DecisionAssurance.Research

namespace Sanitizing

open Regex

/-! ## White space -/

/-- The second text has a `\n` in place of some runs of white space of the first. -/
inductive Respaced : List Char → List Char → Prop
  | nil : Respaced [] []
  | keep {c s t} (h : Respaced s t) : Respaced (c :: s) (c :: t)
  | space {ws s t} (hne : ws ≠ []) (hws : Spaces ws) (h : Respaced s t) :
      Respaced (ws ++ s) ('\n' :: t)

section Respaced

variable {s t u v k : List Char} {c : Char}

theorem Respaced.prefixed (h : Respaced s t) : Respaced (u ++ s) (u ++ t) := by
  induction u with
  | nil => exact h
  | cons c u ih => exact ih.keep

theorem Respaced.refl : Respaced s s := by
  simpa using Respaced.nil.prefixed (u := s)

theorem Respaced.prefix_source (h : Respaced s t) (hk : '\n' ∉ k) (hstart : k <+: t) :
    k <+: s := by
  induction h generalizing k with
  | nil => exact hstart
  | keep _ ih =>
    cases k with
    | nil => exact List.nil_prefix
    | cons b k =>
      obtain ⟨rfl, hrest⟩ := List.cons_prefix_cons.mp hstart
      apply List.cons_prefix_cons.mpr
      exact ⟨rfl, ih (fun hmem => hk (List.mem_cons_of_mem _ hmem)) hrest⟩
  | space _ _ _ _ =>
    cases k with
    | nil => exact List.nil_prefix
    | cons b k =>
      obtain ⟨rfl, -⟩ := List.cons_prefix_cons.mp hstart
      exact absurd List.mem_cons_self hk

theorem Respaced.prefix_target (h : Respaced s t) (hk : ∀ c ∈ k, isSpace c = false)
    (hstart : k <+: s) : k <+: t := by
  induction h generalizing k with
  | nil => exact hstart
  | keep _ ih =>
    cases k with
    | nil => exact List.nil_prefix
    | cons b k =>
      obtain ⟨rfl, hrest⟩ := List.cons_prefix_cons.mp hstart
      apply List.cons_prefix_cons.mpr
      exact ⟨rfl, ih (fun c hc => hk c (List.mem_cons_of_mem _ hc)) hrest⟩
  | @space ws _ _ hne hws _ _ =>
    cases k with
    | nil => exact List.nil_prefix
    | cons b k =>
      cases ws with
      | nil => exact absurd rfl hne
      | cons w ws =>
        obtain ⟨rfl, -⟩ := List.cons_prefix_cons.mp hstart
        have hspace := hws b List.mem_cons_self
        rw [hk b List.mem_cons_self] at hspace
        cases hspace

theorem Respaced.mem_iff (h : Respaced s t) (hc : isSpace c = false) : c ∈ s ↔ c ∈ t := by
  induction h with
  | nil => rfl
  | keep _ ih => rw [List.mem_cons, List.mem_cons, ih]
  | @space ws _ _ _ hws _ ih =>
    have hws' : c ∉ ws := by
      intro hmem
      rw [hws c hmem] at hc
      cases hc
    have hline : c ≠ '\n' := by
      rintro rfl
      cases hc
    rw [List.mem_append, List.mem_cons, or_iff_right hws', or_iff_right hline, ih]

theorem Respaced.split (h : Respaced s (u ++ v)) :
    ∃ s₁ s₂, s = s₁ ++ s₂ ∧ Respaced s₁ u ∧ Respaced s₂ v := by
  induction u generalizing s with
  | nil => exact ⟨[], s, rfl, .nil, h⟩
  | cons c u ih =>
    cases h with
    | keep h =>
      obtain ⟨s₁, s₂, rfl, h₁, h₂⟩ := ih h
      exact ⟨_ :: s₁, s₂, rfl, h₁.keep, h₂⟩
    | @space ws _ _ hne hws h =>
      obtain ⟨s₁, s₂, rfl, h₁, h₂⟩ := ih h
      exact ⟨ws ++ s₁, s₂, (List.append_assoc _ _ _).symm, .space hne hws h₁, h₂⟩

/-- Text without a `\n` was not changed. -/
theorem Respaced.eq (h : Respaced s t) (ht : '\n' ∉ t) : s = t := by
  induction h with
  | nil => rfl
  | keep _ ih => rw [ih fun hmem => ht (List.mem_cons_of_mem _ hmem)]
  | space _ _ _ _ => exact absurd List.mem_cons_self ht

theorem Respaced.spaces (h : Respaced s t) (ht : Spaces t) : Spaces s := by
  induction h with
  | nil => exact ht
  | keep _ ih =>
    obtain ⟨hc, ht⟩ := List.forall_mem_cons.mp ht
    exact List.forall_mem_cons.mpr ⟨hc, ih ht⟩
  | space _ hws _ ih =>
    exact List.forall_mem_append.mpr ⟨hws, ih (List.forall_mem_cons.mp ht).2⟩

theorem Respaced.ne_nil (h : Respaced s t) (ht : t ≠ []) : s ≠ [] := by
  cases h with
  | nil => exact ht
  | keep _ => exact List.cons_ne_nil _ _
  | space hne _ _ => exact fun hnil => hne (List.append_eq_nil_iff.mp hnil).1

theorem Respaced.infix (h : Respaced s t) (hu : u <:+: t) :
    ∃ w, w <:+: s ∧ Respaced w u := by
  obtain ⟨before, rest, rfl⟩ := hu
  rw [List.append_assoc] at h
  obtain ⟨s₁, s₂, rfl, -, h⟩ := h.split
  obtain ⟨w, s₃, rfl, hw, -⟩ := h.split
  exact ⟨w, ⟨s₁, s₃, List.append_assoc _ _ _⟩, hw⟩

/-! ## The words before the change -/

theorem HtmlWord.source (hu : HtmlWord u) (h : Respaced s u) : HtmlWord s := by
  obtain ⟨x, rfl, hx, hfree⟩ := hu
  obtain ⟨a, s, rfl, ha, h⟩ := (show Respaced s (['<'] ++ (x ++ ['>'])) from h).split
  obtain ⟨y, b, rfl, hy, hb⟩ := h.split
  obtain rfl := ha.eq (by decide)
  obtain rfl := hb.eq (by decide)
  exact ⟨y, rfl, hy.ne_nil hx, fun hmem => hfree ((hy.mem_iff (by decide)).mp hmem)⟩

theorem SecretWord.source (hu : SecretWord u) (h : Respaced s u) : SecretWord s := by
  have hbreak : Foreign '\n' := by decide
  rcases hu with ⟨k, v, rfl, hk, hv⟩ | ⟨k, x, c, y, v, rfl, hk, hx, hc, hy, hv⟩
  · obtain ⟨k', v', rfl, hk', hv'⟩ := h.split
    obtain rfl := hk'.eq (hbreak.not_mem_name (by simp) hk)
    obtain rfl := hv'.eq (hbreak.not_mem_filled (by simp) hv)
    exact .inl ⟨k', v', rfl, hk, hv⟩
  · obtain ⟨k', s, rfl, hk', h⟩ := h.split
    obtain ⟨x', s, rfl, hx', h⟩ := h.split
    obtain ⟨c', s, rfl, hc', h⟩ := (show Respaced s ([c] ++ (y ++ v)) from h).split
    obtain ⟨y', v', rfl, hy', hv'⟩ := h.split
    have hmark : '\n' ∉ [c] := by
      intro hmem
      exact hbreak.2.2 ":=" (by simp) (List.mem_singleton.mp hmem ▸ hc)
    obtain rfl := hk'.eq (hbreak.not_mem_keyName hk)
    obtain rfl := hc'.eq hmark
    obtain rfl := hv'.eq (hbreak.not_mem_filled (by simp) hv)
    exact .inr ⟨k', x', c, y', v', rfl, hk, hx'.spaces hx, hc, hy'.spaces hy, hv⟩

/-! ## Links -/

theorem isSpace_folded (hc : isSpace c = true) : folded c = c := by
  have hlower : c.toLower = c := by
    unfold Char.toLower
    rw [dif_neg]
    intro ⟨hupper, hlast⟩
    have hlow : 65 ≤ c.toNat := hupper
    have hhigh : c.toNat ≤ 90 := hlast
    simp only [isSpace, Bool.or_eq_true, Bool.and_eq_true, decide_eq_true_eq] at hc
    omega
  unfold folded
  split_ifs with hi hs hk
  · rcases hi with rfl | rfl
    · exact absurd hc (by decide)
    · exact absurd hc (by decide)
  · exact absurd (hs ▸ hc) (by decide)
  · exact absurd (hk ▸ hc) (by decide)
  · exact hlower

theorem TargetHead.solid (hk : TargetHead k) : ∀ c ∈ k, isSpace c = false := by
  intro c hc
  rw [Bool.eq_false_iff]
  intro hspace
  have hmem : Sanitizing.folded c ∈ k.map Sanitizing.folded := List.mem_map_of_mem hc
  rw [isSpace_folded hspace] at hmem
  have hsolid : ∀ head ∈ ["(javascript:".toList, "(data:".toList],
      head.all (fun c => !isSpace c) = true := by decide
  have hc' := List.all_eq_true.mp (hsolid _ hk.folded) c hmem
  rw [hspace] at hc'
  cases hc'

theorem targetAt_respaced (h : Respaced s t) : TargetAt s ↔ TargetAt t := by
  have hmem : ')' ∈ s ↔ ')' ∈ t := h.mem_iff (by decide)
  constructor
  · intro ⟨⟨k, hk, hstart⟩, hclose⟩
    exact ⟨⟨k, hk, h.prefix_target hk.solid hstart⟩, hmem.mp hclose⟩
  · intro ⟨⟨k, hk, hstart⟩, hclose⟩
    exact ⟨⟨k, hk, h.prefix_source (hk.not_mem (by decide)) hstart⟩, hmem.mpr hclose⟩

theorem Spaces.not_mem {ws : List Char} (hws : Spaces ws) (hc : isSpace c = false) : c ∉ ws := by
  intro hmem
  rw [hws c hmem] at hc
  cases hc

theorem hasLink_respaced (h : Respaced s t) : HasLink s ↔ HasLink t := by
  induction h with
  | nil => rfl
  | keep h ih => rw [HasLink, HasLink, targetAt_respaced h, ih]
  | space _ hws _ ih =>
    rw [hasLink_append (hws.not_mem (by decide)), ih, HasLink]
    exact (or_iff_right fun hline => absurd hline.1 (by decide)).symm

theorem targetAt_append {ws : List Char} (hws : Spaces ws) : TargetAt (t ++ ws) ↔ TargetAt t := by
  have hclose : ')' ∈ t ++ ws ↔ ')' ∈ t := by
    rw [List.mem_append, or_iff_left (hws.not_mem (by decide))]
  rw [TargetAt, TargetAt, hclose, and_congr_left_iff]
  intro _
  apply exists_congr
  intro k
  rw [and_congr_right_iff]
  intro hk
  constructor
  · intro hstart
    rcases List.prefix_or_prefix_of_prefix hstart (List.prefix_append t ws) with h | ⟨x, rfl⟩
    · exact h
    · cases x with
      | nil => simp
      | cons c x =>
        have hc : c ∈ ws := ((List.prefix_append_right_inj t).mp hstart).subset List.mem_cons_self
        have hsolid := hk.solid c (List.mem_append_right _ List.mem_cons_self)
        exact absurd hc (hws.not_mem hsolid)
  · exact fun hstart => hstart.trans (List.prefix_append t ws)

theorem hasLink_append_spaces {ws : List Char} (hws : Spaces ws) :
    HasLink (t ++ ws) ↔ HasLink t := by
  induction t with
  | nil =>
    have hnone := hasLink_append (t := []) (hws.not_mem (c := ']') (by decide))
    simpa using hnone
  | cons a t ih => rw [List.cons_append, HasLink, HasLink, targetAt_append hws, ih]

/-! ## Lines -/

theorem rstrip_append (cs : List Char) : ∃ tail, Spaces tail ∧ cs = rstrip cs ++ tail := by
  refine ⟨(cs.reverse.takeWhile isSpace).reverse, fun c hc => ?_, ?_⟩
  · exact List.mem_takeWhile_imp (List.mem_reverse.mp hc)
  · rw [rstrip, ← List.reverse_append, List.takeWhile_append_dropWhile, List.reverse_reverse]

theorem strip_append (cs : List Char) : ∃ before after, Spaces before ∧ Spaces after ∧
    cs = before ++ (strip cs ++ after) := by
  obtain ⟨after, hafter, h⟩ := rstrip_append (cs.dropWhile isSpace)
  refine ⟨cs.takeWhile isSpace, after, fun c hc => List.mem_takeWhile_imp hc, hafter, ?_⟩
  rw [show strip cs = rstrip (cs.dropWhile isSpace) from rfl, ← h,
    List.takeWhile_append_dropWhile]

/-- The lines without white space at their ends, joined again. -/
def joined (lines : List (List Char)) : List Char := ['\n'].intercalate (lines.map rstrip)

theorem joined_cons {line : List Char} {lines : List (List Char)} (h : lines ≠ []) :
    joined (line :: lines) = rstrip line ++ '\n' :: joined lines := by
  cases lines with
  | nil => exact absurd rfl h
  | cons next lines => simp [joined]

theorem isSpace_of_isLineBreak (h : isLineBreak c = true) : isSpace c = true := by
  simp only [isLineBreak, Bool.or_eq_true, Bool.and_eq_true, decide_eq_true_eq] at h
  simp only [isSpace, Bool.or_eq_true, Bool.and_eq_true, decide_eq_true_eq]
  omega

/-- A line, its break and the tidied rest. -/
theorem respaced_line {line cs : List Char} (ending : List Char) {lines : List (List Char)}
    (hne : ending ≠ []) (hending : Spaces ending)
    (h : ∃ s tail, cs = s ++ tail ∧ Spaces tail ∧ Respaced s (joined lines)) :
    ∃ s tail, line ++ (ending ++ cs) = s ++ tail ∧ Spaces tail ∧
      Respaced s (joined (line :: lines)) := by
  obtain ⟨s, tail, rfl, htail, hs⟩ := h
  obtain ⟨cut, hcut, hline⟩ := rstrip_append line
  have hspaces : Spaces (cut ++ ending) := List.forall_mem_append.mpr ⟨hcut, hending⟩
  by_cases hlines : lines = []
  · subst hlines
    cases hs
    refine ⟨rstrip line, cut ++ (ending ++ tail), ?_, ?_, ?_⟩
    · conv_lhs => rw [hline]
      simp
    · exact List.forall_mem_append.mpr ⟨hcut, List.forall_mem_append.mpr ⟨hending, htail⟩⟩
    · simpa [joined] using Respaced.refl
  · refine ⟨rstrip line ++ (cut ++ ending ++ s), tail, ?_, htail, ?_⟩
    · conv_lhs => rw [hline]
      simp
    · rw [joined_cons hlines]
      exact (Respaced.space (by simp [hne]) hspaces hs).prefixed

theorem respaced_lines (cs line : List Char) :
    ∃ s tail, line ++ cs = s ++ tail ∧ Spaces tail ∧ Respaced s (joined (splitlines cs line)) := by
  fun_induction splitlines cs line with
  | case1 line hempty =>
    obtain rfl := List.isEmpty_iff.mp hempty
    exact ⟨[], [], rfl, nofun, .nil⟩
  | case2 line hline =>
    obtain ⟨tail, htail, h⟩ := rstrip_append line
    refine ⟨rstrip line, tail, ?_, htail, ?_⟩
    · rw [List.append_nil, ← h]
    · simpa [joined] using Respaced.refl
  | case3 cs line ih =>
    rw [List.nil_append] at ih
    have hending : ∀ c ∈ ['\r', '\n'], isSpace c = true := List.all_eq_true.mp rfl
    exact respaced_line ['\r', '\n'] (by simp) hending ih
  | case4 c cs line _ hbreak ih =>
    rw [List.nil_append] at ih
    have hending : Spaces [c] := by
      intro d hd
      rw [List.mem_singleton.mp hd]
      exact isSpace_of_isLineBreak hbreak
    exact respaced_line [c] (by simp) hending ih
  | case5 c cs line _ _ ih =>
    rw [List.append_assoc] at ih
    exact ih

theorem tidyLines_toList (cs : List Char) :
    (tidyLines (String.ofList cs)).toList = strip (joined (splitlines cs [])) := by
  simp [tidyLines, joined]

/-- A word that white space does not tear apart is in the tidied text only if it is in the text. -/
theorem infix_of_tidied {word : List Char → Prop}
    (hword : ∀ u s, word u → Respaced s u → word s)
    (hu : word u) (hwithin : u <:+: (tidyLines (String.ofList s)).toList) :
    ∃ w, word w ∧ w <:+: s := by
  obtain ⟨t, tail, hs, -, h⟩ := respaced_lines s []
  obtain ⟨before, after, -, -, hstrip⟩ := strip_append (joined (splitlines s []))
  rw [tidyLines_toList] at hwithin
  have hjoined : u <:+: joined (splitlines s []) := by
    rw [hstrip]
    exact (List.infix_append_of_infix_left hwithin).trans (List.suffix_append _ _).isInfix
  obtain ⟨w, hw, hspaced⟩ := h.infix hjoined
  refine ⟨w, hword u w hu hspaced, ?_⟩
  rw [show s = t ++ tail from hs]
  exact hw.trans (List.prefix_append _ _).isInfix

theorem hasLink_tidied : HasLink (tidyLines (String.ofList s)).toList ↔ HasLink s := by
  obtain ⟨t, tail, hs, htail, h⟩ := respaced_lines s []
  obtain ⟨before, after, hbefore, hafter, hstrip⟩ := strip_append (joined (splitlines s []))
  have hjoined := hasLink_respaced h
  rw [hstrip, hasLink_append (hbefore.not_mem (by decide)), hasLink_append_spaces hafter,
    ← tidyLines_toList] at hjoined
  rw [← hjoined, show s = t ++ tail from hs, hasLink_append_spaces htail]

end Respaced

/-! ## The snapshot -/

/-- The text without active content, active links and tags. -/
def untagged (raw : List Char) : List Char :=
  html.sub [' '] (activeLink.sub "](about:blank)".toList (activeHtml.sub [' '] raw))

def redacted (raw : List Char) : List Char := secret.sub "[REDACTED]".toList (untagged raw)

/-- A link target stands directly at the start of the text. -/
def startsWithTarget (text : List Char) : Bool := (linkTarget.matchAt (Cursor.start text)).isSome

theorem startsWithTarget_iff {text : List Char} : startsWithTarget text = true ↔ TargetAt text := by
  rw [targetAt_iff, startsWithTarget]
  constructor
  · intro h
    obtain ⟨m, hm⟩ := Option.isSome_iff_exists.mp h
    obtain ⟨u, rest, hu, haccepts, -⟩ := matchAt_sound hm
    exact ⟨u, rest, hu, (denotes_linkTarget _ _ _).mp haccepts⟩
  · intro ⟨u, rest, hu, hword⟩
    rw [Option.isSome_iff_ne_none]
    intro hnone
    exact matchAt_complete hnone hu ((denotes_linkTarget _ _ _).mpr hword)

theorem consuming_of_denotes {r : Regex Char} {language : List Char → Prop}
    (hr : Denotes r language) (hne : ¬ language []) : Consuming r :=
  fun prev rest h => hne ((hr prev [] rest).mp h)

theorem not_secretWord_nil : ¬ SecretWord [] := fun h => absurd h.long (by simp)

theorem untagged_no_tag {raw u : List Char} (hu : HtmlWord u) : ¬ u <:+: untagged raw := by
  have hconsuming : Consuming html := consuming_of_denotes denotes_html (by simp [HtmlWord])
  exact html_absent (hconsuming.scanned_sub _) hu

theorem untagged_no_link (raw : List Char) : ¬ HasLink (untagged raw) := by
  have hconsuming : Consuming activeLink := consuming_of_denotes denotes_activeLink (by simp)
  have hhtml : Consuming html := consuming_of_denotes denotes_html (by simp [HtmlWord])
  intro hlink
  exact link_absent (hconsuming.scanned_sub _) (link_of_html (hhtml.scanned_sub _) hlink)

theorem scanned_redacted (raw : List Char) :
    Scanned secret "[REDACTED]".toList none (untagged raw) (redacted raw)
      ((secret.finditer (untagged raw)).map fun m => (untagged raw).drop m.stop) :=
  (consuming_of_denotes denotes_secret not_secretWord_nil).scanned_sub _

/-- What the normaliser promises of a snapshot's text. -/
structure Sanitized (snapshot : SourceSnapshot) : Prop where
  activeHtml : activeHtml.search snapshot.text.toList = false
  html : html.search snapshot.text.toList = false
  activeLink : activeLink.search snapshot.text.toList = false
  secret : secret.search snapshot.text.toList = false
  flagged : snapshot.risk.promptInjectionSuspected = true ↔
    ∃ pattern ∈ injections, pattern.search snapshot.text.toList = true

variable {pf : Platform} {lib : TextLibrary} {n : EvidenceNormalizer} {source : SourceCandidate}
  {content : ExtractedContent} {snapshot : SourceSnapshot}

theorem sanitize_withPatterns (raw : String) :
    sanitize lib.withPatterns raw = tidyLines (String.ofList (redacted raw.toList)) := by
  simp [sanitize, TextLibrary.withPatterns, redacted, untagged]

theorem normalize_text {lib : TextLibrary} (h : n.normalize pf lib source content = .ok snapshot) :
    snapshot.text = sanitize lib content.markdown ∧
      snapshot.risk = contentRisk lib content.markdown := by
  obtain ⟨_, -, h⟩ := bind_ok_cases h
  obtain ⟨_, -, h⟩ := bind_ok_cases h
  obtain ⟨_, -, h⟩ := bind_ok_cases h
  obtain ⟨_, -, h⟩ := bind_ok_cases h
  cases h
  exact ⟨rfl, rfl⟩

theorem flagged_iff (raw : String) :
    (contentRisk lib.withPatterns raw).promptInjectionSuspected = true ↔
      ∃ pattern ∈ injections, pattern.search (sanitize lib.withPatterns raw).toList = true := by
  simp [contentRisk, TextLibrary.withPatterns]

theorem search_eq_false {r : Regex Char} {text : List Char} :
    r.search text = false ↔ ¬ Occurs r none text := by
  rw [← search_iff, Bool.not_eq_true]

theorem tidied_no_tag {raw u : List Char} (hu : HtmlWord u) :
    ¬ u <:+: (tidyLines (String.ofList (redacted raw))).toList := by
  intro hwithin
  obtain ⟨v, hv, hredacted⟩ := infix_of_tidied (fun u s => HtmlWord.source) hu hwithin
  obtain ⟨w, hw, huntagged⟩ := tag_of_redacted (scanned_redacted raw) hv hredacted
  exact untagged_no_tag hw huntagged

theorem tidied_no_secret {raw u : List Char} (hu : SecretWord u) :
    ¬ u <:+: (tidyLines (String.ofList (redacted raw))).toList := by
  intro hwithin
  obtain ⟨v, hv, hredacted⟩ := infix_of_tidied (fun u s => SecretWord.source) hu hwithin
  exact secret_absent (scanned_redacted raw) hv hredacted

/-- The text of a snapshot is free of links unless a redacted secret completes one. -/
theorem link_in_tidied {raw : List Char} :
    activeLink.search (tidyLines (String.ofList (redacted raw))).toList = false ↔
      ∀ m ∈ secret.finditer (untagged raw),
        startsWithTarget ((untagged raw).drop m.stop) = false := by
  have hlink : activeLink.search (tidyLines (String.ofList (redacted raw))).toList = true ↔
      ∃ m ∈ secret.finditer (untagged raw), TargetAt ((untagged raw).drop m.stop) := by
    rw [search_activeLink, hasLink_tidied, link_iff_secret (scanned_redacted raw),
      or_iff_right (untagged_no_link raw)]
    simp only [List.mem_map, exists_exists_and_eq_and]
  rw [← Bool.not_eq_true, hlink]
  simp only [not_exists, not_and, ← startsWithTarget_iff, Bool.not_eq_true]

/-- A snapshot is sanitised exactly where no link target follows one of the redacted secrets. -/
theorem sanitized_iff (h : n.normalize pf lib.withPatterns source content = .ok snapshot) :
    Sanitized snapshot ↔
      ∀ m ∈ secret.finditer (untagged content.markdown.toList),
        startsWithTarget ((untagged content.markdown.toList).drop m.stop) = false := by
  obtain ⟨htext, hrisk⟩ := normalize_text h
  have hchars : snapshot.text.toList =
      (tidyLines (String.ofList (redacted content.markdown.toList))).toList := by
    rw [htext, sanitize_withPatterns]
  constructor
  · intro hsanitized
    rw [← link_in_tidied, ← hchars]
    exact hsanitized.activeLink
  · intro hfree
    constructor
    · rw [hchars, search_eq_false]
      intro ⟨before, u, rest, heq, haccepts⟩
      obtain ⟨t, ht, hinside⟩ := tag_of_activeHtml haccepts
      have hwithin : u <:+: (tidyLines (String.ofList (redacted content.markdown.toList))).toList :=
        ⟨before, rest, by rw [heq, List.append_assoc]⟩
      exact tidied_no_tag ht (hinside.trans hwithin)
    · rw [hchars, search_eq_false, denotes_html.occurs]
      exact fun ⟨u, hwithin, hu⟩ => tidied_no_tag hu hwithin
    · rw [hchars, link_in_tidied]
      exact hfree
    · rw [hchars, search_eq_false, denotes_secret.occurs]
      exact fun ⟨u, hwithin, hu⟩ => tidied_no_secret hu hwithin
    · rw [hrisk, htext]
      exact flagged_iff content.markdown

/-- A page of a found source, with this text. -/
def pageOf (markdown : String) : ExtractedContent where
  markdown := markdown
  title := "Notes"
  canonicalUrl := "https://example.org/"
  retrievedAt := "2026-01-01T00:00:00+00:00"
  mimeType := "text/markdown"
  httpStatus := 200
  language := "en"
  contentProvider := "firecrawl"
  contentProviderVersion := "1"

def foundSource : SourceCandidate where
  sourceId := "research-1:source:1"
  originalUrl := "https://example.org/"
  canonicalUrl := "https://example.org/"
  domain := "example.org"
  title := "Notes"
  snippet := ""
  rank := 1
  searchedAt := "2026-01-01T00:00:00+00:00"
  searchProvider := "tavily"
  searchProviderVersion := "1"
  publishedAt := none
  status := "SELECTED"
  reasonCodes := []
  citationKind := "WEB"
  artifactType := "SOURCE_CANDIDATE"

theorem standardSize : 1000 ≤ 1000000 ∧ 1000000 ≤ 10000000 := by decide

def standardNormalizer : EvidenceNormalizer := ⟨1000000, 86400, standardSize⟩

/-- The snapshot of a page. -/
def snapshotOfPage (markdown : String) : Raises SourceSnapshot :=
  standardNormalizer.normalize plainPlatform plainLibrary.toTextLibrary.withPatterns foundSource
    (pageOf markdown)

theorem sanitized_iff_plain :
    ∃ snapshot, snapshotOfPage "token: aaaaaaaaaaaaaaaaaaaa <b>(see below)" = .ok snapshot ∧
      Sanitized snapshot := by
  have hread : (toOption
      (snapshotOfPage "token: aaaaaaaaaaaaaaaaaaaa <b>(see below)")).isSome := by
    rfl
  obtain ⟨snapshot, hsnapshot⟩ := Option.isSome_iff_exists.mp hread
  have h := toOption_eq_some.mp hsnapshot
  exact ⟨snapshot, h, (sanitized_iff h).mpr (by decide +kernel)⟩

/-- The bracket of the redaction turns the parenthesis after a token into an active link. -/
theorem redaction_completes_link :
    ∃ snapshot, snapshotOfPage "token: aaaaaaaaaaaaaaaaaaaa(javascript:alert(1))" = .ok snapshot ∧
      snapshot.text = "[REDACTED](javascript:alert(1))" ∧ ¬ Sanitized snapshot := by
  have hread : (toOption (snapshotOfPage
      "token: aaaaaaaaaaaaaaaaaaaa(javascript:alert(1))")).map SourceSnapshot.text =
        some "[REDACTED](javascript:alert(1))" := by
    rfl
  obtain ⟨snapshot, hsnapshot, htext⟩ := Option.map_eq_some_iff.mp hread
  refine ⟨snapshot, toOption_eq_some.mp hsnapshot, htext, fun hsanitized => ?_⟩
  have hlink := hsanitized.activeLink
  rw [htext] at hlink
  revert hlink
  decide

end Sanitizing

end DecisionAssurance.Research
