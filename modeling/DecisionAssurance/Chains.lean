import Mathlib.Data.List.Nodup
import Mathlib.Logic.Function.Basic

/-!
# Hash chains

A chain of events links each event to the hash of the one before it; the first event links
to nothing.
-/

namespace DecisionAssurance.Chains

variable {ε η : Type*} (hash : ε → η) (previous : ε → Option η)

/-- Every event links to the one before it, the first one to `tip`. -/
def LinkedFrom : Option η → List ε → Prop
  | _, [] => True
  | tip, e :: es => previous e = tip ∧ LinkedFrom (some (hash e)) es

def Linked (es : List ε) : Prop := LinkedFrom hash previous none es

/-- The hash the next event links to. -/
def tip (es : List ε) : Option η := es.getLast?.map hash

variable {hash previous}

theorem linkedFrom_append_singleton {t : Option η} {es : List ε} {e : ε} :
    LinkedFrom hash previous t (es ++ [e]) ↔
      LinkedFrom hash previous t es ∧ previous e = (tip hash es).or t := by
  induction es generalizing t with
  | nil =>
    have htip : (tip hash ([] : List ε)).or t = t := rfl
    rw [htip]
    exact ⟨fun h => ⟨trivial, h.1⟩, fun h => ⟨h.2, trivial⟩⟩
  | cons a es ih =>
    have htip : (tip hash (a :: es)).or t = (tip hash es).or (some (hash a)) := by
      cases es with
      | nil => rfl
      | cons b es =>
        have hlast : (a :: b :: es).getLast? = (b :: es).getLast? := List.getLast?_cons_cons
        have hsome : (b :: es).getLast? = some ((b :: es).getLast (List.cons_ne_nil b es)) :=
          List.getLast?_eq_some_getLast (List.cons_ne_nil b es)
        simp only [tip, hlast, hsome, Option.map_some, Option.some_or]
    rw [htip]
    simp only [List.cons_append, LinkedFrom, ih, and_assoc]

theorem linked_append_singleton {es : List ε} {e : ε} :
    Linked hash previous (es ++ [e]) ↔ Linked hash previous es ∧ previous e = tip hash es := by
  rw [Linked, linkedFrom_append_singleton, Option.or_none]
  rfl

theorem linked_singleton {e : ε} : Linked hash previous [e] ↔ previous e = none :=
  ⟨fun h => h.1, fun h => ⟨h, trivial⟩⟩

/-! ## The order of a chain -/

theorem previous_getElem {t : Option η} {es : List ε} (h : LinkedFrom hash previous t es) :
    (∀ hi : 0 < es.length, previous es[0] = t) ∧
      ∀ i (hi : i + 1 < es.length), previous es[i + 1] = some (hash es[i]) := by
  induction es generalizing t with
  | nil => exact ⟨fun hi => absurd hi (Nat.lt_irrefl 0), fun i hi => absurd hi (Nat.not_lt_zero _)⟩
  | cons e es ih =>
    obtain ⟨hfirst, hrest⟩ := ih h.2
    refine ⟨fun _ => h.1, fun i hi => ?_⟩
    cases i with
    | zero => exact hfirst (Nat.lt_of_succ_lt_succ hi)
    | succ i => exact hrest i (Nat.lt_of_succ_lt_succ hi)

/-- No two events of a chain link to one event, where hashes tell what an event links to. -/
theorem nodup_previous {es : List ε} (h : Linked hash previous es)
    (hhash : ∀ e ∈ es, ∀ e' ∈ es, hash e = hash e' → previous e = previous e') :
    (es.map previous).Nodup := by
  obtain ⟨hfirst, hrest⟩ := previous_getElem h
  rw [List.Nodup, List.pairwise_map, List.pairwise_iff_getElem]
  intro i j hi hj hij
  -- two events that link to one event follow two events with one hash
  induction i generalizing j with
  | zero =>
    obtain ⟨k, rfl⟩ : ∃ k, j = k + 1 := ⟨j - 1, by omega⟩
    rw [hfirst hi, hrest k hj]
    simp
  | succ i ih =>
    obtain ⟨k, rfl⟩ : ∃ k, j = k + 1 := ⟨j - 1, by omega⟩
    rw [hrest i hi, hrest k hj]
    intro hsame
    apply ih k (by omega) (by omega) (by omega)
    exact hhash _ (List.getElem_mem _) _ (List.getElem_mem _) (Option.some.inj hsame)

/-- A chain can be put in one order alone. -/
theorem linkedFrom_eq_of_perm {t : Option η} {es es' : List ε} (h : LinkedFrom hash previous t es)
    (h' : LinkedFrom hash previous t es') (hperm : es.Perm es')
    (hnodup : (es.map previous).Nodup) : es = es' := by
  induction es generalizing t es' with
  | nil => exact hperm.nil_eq
  | cons e es ih =>
    cases es' with
    | nil => exact absurd hperm.length_eq (by simp)
    | cons e' es' =>
      have hmem : e' ∈ e :: es := hperm.mem_iff.mpr List.mem_cons_self
      obtain rfl : e = e' := List.inj_on_of_nodup_map hnodup List.mem_cons_self hmem
        (h.1.trans h'.1.symm)
      rw [ih h.2 h'.2 hperm.cons_inv (List.nodup_cons.mp hnodup).2]

/-! ## Chains among each other -/

section Streams

variable {κ : Type*} [DecidableEq κ] (stream : ε → κ)

/-- Every event links to the last one of its stream, a first one to the tip of the stream. -/
def LinkedStreams (hash : ε → η) (previous : ε → Option η) : (κ → Option η) → List ε → Prop
  | _, [] => True
  | tips, e :: es => previous e = tips (stream e) ∧
      LinkedStreams hash previous (Function.update tips (stream e) (some (hash e))) es

theorem linkedStreams_iff {tips : κ → Option η} {es : List ε} :
    LinkedStreams stream hash previous tips es ↔
      ∀ k, LinkedFrom hash previous (tips k) (es.filter fun e => stream e = k) := by
  induction es generalizing tips with
  | nil => simp [LinkedStreams, LinkedFrom]
  | cons e es ih =>
    rw [LinkedStreams, ih]
    constructor
    · rintro ⟨hlink, hrest⟩ k
      have hk := hrest k
      by_cases h : stream e = k
      · subst h
        rw [Function.update_self] at hk
        rw [List.filter_cons_of_pos (by simp)]
        exact ⟨hlink, hk⟩
      · rw [Function.update_of_ne (Ne.symm h)] at hk
        rwa [List.filter_cons_of_neg (by simpa using h)]
    · intro hall
      have hself := hall (stream e)
      rw [List.filter_cons_of_pos (by simp)] at hself
      refine ⟨hself.1, fun k => ?_⟩
      by_cases h : stream e = k
      · subst h
        rw [Function.update_self]
        exact hself.2
      · have hk := hall k
        rw [List.filter_cons_of_neg (by simpa using h)] at hk
        rwa [Function.update_of_ne (Ne.symm h)]

end Streams

end DecisionAssurance.Chains
