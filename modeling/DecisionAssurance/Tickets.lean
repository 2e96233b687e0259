import Mathlib.Data.List.Nodup
import Mathlib.Data.List.Range
import Mathlib.Data.List.Perm.Subperm
import Mathlib.Logic.Function.Basic
import Mathlib.Tactic.SplitIfs
import DecisionAssurance.WovenRuns

/-!
# Numbered tickets

Clients draw numbered tickets and hand them in. Where every ticket that is drawn has the next
number, the tickets are distinct and consecutive; a number that was drawn twice is handed in
twice in the end.
-/

namespace DecisionAssurance.Tickets

variable {γ : Type*} [DecidableEq γ]

/-- The number the counter stands at, the tickets that clients hold and those handed in. -/
structure Desk (γ : Type*) where
  counter : ℕ
  held : γ → Option ℕ
  returned : List ℕ

def Desk.draw (d : Desk γ) (c : γ) (v n : ℕ) : Desk γ :=
  ⟨n, Function.update d.held c (some v), d.returned⟩

def Desk.handIn (d : Desk γ) (c : γ) (v : ℕ) : Desk γ :=
  ⟨d.counter, Function.update d.held c none, d.returned ++ [v]⟩

/-- One step of a desk; `draws` relates the counter, the number drawn and the next counter. -/
inductive Step (draws : ℕ → ℕ → ℕ → Prop) (d : Desk γ) : Desk γ → Prop
  | idle : Step draws d d
  | draw (c : γ) (v n : ℕ) (free : d.held c = none) (drawn : draws d.counter v n) :
      Step draws d (d.draw c v n)
  | handIn (c : γ) (v : ℕ) (holds : d.held c = some v) : Step draws d (d.handIn c v)

/-- The next number is drawn, below a limit. -/
def InOrder (limit counter v n : ℕ) : Prop := counter < limit ∧ v = counter + 1 ∧ n = counter + 1

/-- A number is out: handed in, or in the hands of a client. -/
def Desk.Out (d : Desk γ) (v : ℕ) : Prop := v ∈ d.returned ∨ ∃ c, d.held c = some v

/-- A desk whose tickets were drawn in order. -/
structure Sound (limit : ℕ) (d : Desk γ) : Prop where
  within : d.counter ≤ limit
  nodup : d.returned.Nodup
  out : ∀ v, d.Out v ↔ 1 ≤ v ∧ v ≤ d.counter
  apart : ∀ c v, d.held c = some v → v ∉ d.returned
  single : ∀ c c' v, d.held c = some v → d.held c' = some v → c = c'

variable {limit : ℕ} {d d' : Desk γ} {c c' : γ} {v w n : ℕ}

theorem held_draw : (d.draw c v n).held c' = some w ↔ (c' = c ∧ v = w) ∨
    (c' ≠ c ∧ d.held c' = some w) := by
  by_cases hc : c' = c
  · simp [Desk.draw, hc]
  · simp [Desk.draw, hc]

theorem held_handIn : (d.handIn c v).held c' = some w ↔ c' ≠ c ∧ d.held c' = some w := by
  by_cases hc : c' = c
  · simp [Desk.handIn, hc]
  · simp [Desk.handIn, hc]

theorem out_draw (hfree : d.held c = none) : (d.draw c v n).Out w ↔ w = v ∨ d.Out w := by
  unfold Desk.Out
  constructor
  · rintro (hw | ⟨c', hc'⟩)
    · exact .inr (.inl hw)
    · rcases held_draw.mp hc' with ⟨-, hv⟩ | ⟨-, hc'⟩
      · exact .inl hv.symm
      · exact .inr (.inr ⟨c', hc'⟩)
  · rintro (rfl | hw | ⟨c', hc'⟩)
    · exact .inr ⟨c, held_draw.mpr (.inl ⟨rfl, rfl⟩)⟩
    · exact .inl hw
    · have hne : c' ≠ c := by
        rintro rfl
        rw [hfree] at hc'
        cases hc'
      exact .inr ⟨c', held_draw.mpr (.inr ⟨hne, hc'⟩)⟩

theorem out_handIn (hheld : d.held c = some v) : (d.handIn c v).Out w ↔ d.Out w := by
  unfold Desk.Out
  constructor
  · rintro (hw | ⟨c', hc'⟩)
    · rcases List.mem_append.mp hw with hw | hw
      · exact .inl hw
      · exact .inr ⟨c, by rw [List.mem_singleton.mp hw, hheld]⟩
    · exact .inr ⟨c', (held_handIn.mp hc').2⟩
  · rintro (hw | ⟨c', hc'⟩)
    · exact .inl (List.mem_append_left _ hw)
    · by_cases hc : c' = c
      · have hvw : v = w := Option.some.inj (hheld.symm.trans (hc ▸ hc'))
        exact .inl (hvw ▸ List.mem_append_right _ (List.mem_singleton_self v))
      · exact .inr ⟨c', held_handIn.mpr ⟨hc, hc'⟩⟩

omit [DecidableEq γ] in
theorem sound_empty {held : γ → Option ℕ} (hfree : ∀ c, held c = none) :
    Sound limit ⟨0, held, []⟩ := by
  refine ⟨Nat.zero_le _, List.nodup_nil, fun v => ?_, fun c v hc => ?_, fun c _ v hc => ?_⟩
  · simp only [Desk.Out, List.not_mem_nil, hfree, reduceCtorEq, exists_false, or_self, false_iff]
    omega
  · simp [hfree] at hc
  · simp [hfree] at hc

theorem Sound.step (h : Sound limit d) (hstep : Step (InOrder limit) d d') : Sound limit d' := by
  cases hstep with
  | idle => exact h
  | draw c v n free drawn =>
    obtain ⟨hlt, rfl, rfl⟩ := drawn
    have hnew : ¬ d.Out (d.counter + 1) := by
      rw [h.out]
      omega
    refine ⟨hlt, h.nodup, fun w => ?_, fun c' w hc' => ?_, fun c₁ c₂ w h₁ h₂ => ?_⟩
    · rw [out_draw free, h.out]
      change _ ↔ 1 ≤ w ∧ w ≤ d.counter + 1
      omega
    · rcases held_draw.mp hc' with ⟨-, rfl⟩ | ⟨-, hc'⟩
      · exact fun hw => hnew (.inl hw)
      · exact h.apart c' w hc'
    · rcases held_draw.mp h₁ with ⟨rfl, rfl⟩ | ⟨-, h₁⟩
      · rcases held_draw.mp h₂ with ⟨rfl, -⟩ | ⟨-, h₂⟩
        · rfl
        · exact absurd (.inr ⟨c₂, h₂⟩) hnew
      · rcases held_draw.mp h₂ with ⟨-, hw⟩ | ⟨-, h₂⟩
        · exact absurd (.inr ⟨c₁, hw ▸ h₁⟩) hnew
        · exact h.single c₁ c₂ w h₁ h₂
  | handIn c v holds =>
    refine ⟨h.within, ?_, fun w => ?_, fun c' w hc' => ?_, fun c₁ c₂ w h₁ h₂ => ?_⟩
    · exact List.nodup_append.mpr ⟨h.nodup, List.nodup_singleton v, fun a ha b hb => by
        rw [List.mem_singleton.mp hb]
        rintro rfl
        exact h.apart c a holds ha⟩
    · rw [out_handIn holds]
      exact h.out w
    · obtain ⟨hne, hc'⟩ := held_handIn.mp hc'
      intro hw
      rcases List.mem_append.mp hw with hw | hw
      · exact h.apart c' w hc' hw
      · rw [List.mem_singleton.mp hw] at hc'
        exact hne (h.single c' c v hc' holds)
    · exact h.single c₁ c₂ w (held_handIn.mp h₁).2 (held_handIn.mp h₂).2

omit [DecidableEq γ] in
/-- No more tickets come back than the limit. -/
theorem Sound.length_le (h : Sound limit d) : d.returned.length ≤ limit := by
  have hsub : d.returned ⊆ List.range' 1 d.counter := by
    intro v hv
    have hout := (h.out v).mp (.inl hv)
    rw [List.mem_range'_1]
    omega
  have hlength := (List.subperm_of_subset h.nodup hsub).length_le
  rw [List.length_range'] at hlength
  exact hlength.trans h.within

omit [DecidableEq γ] in
/-- Where no client holds a ticket any more, the numbers handed in are consecutive. -/
theorem Sound.perm (h : Sound limit d) (hfree : ∀ c, d.held c = none) :
    d.returned.Perm (List.range' 1 d.returned.length) := by
  have hperm : d.returned.Perm (List.range' 1 d.counter) := by
    rw [List.perm_ext_iff_of_nodup h.nodup List.nodup_range']
    intro v
    have hout := h.out v
    simp only [Desk.Out, hfree, reduceCtorEq, exists_false, or_false] at hout
    rw [hout, List.mem_range'_1]
    omega
  have hlength : d.returned.length = d.counter := by
    rw [hperm.length_eq, List.length_range']
  rw [hlength]
  exact hperm

/-! ## A number that is drawn twice -/

/-- Two tickets of one number are out. -/
def Twice (v : ℕ) (d : Desk γ) : Prop :=
  2 ≤ d.returned.count v ∨ (v ∈ d.returned ∧ ∃ c, d.held c = some v) ∨
    ∃ c c', c ≠ c' ∧ d.held c = some v ∧ d.held c' = some v

theorem twice_draw (hfree : d.held c = none) (hout : d.Out v) : Twice v (d.draw c v n) := by
  rcases hout with hv | ⟨c', hc'⟩
  · exact .inr (.inl ⟨hv, c, held_draw.mpr (.inl ⟨rfl, rfl⟩)⟩)
  · have hne : c' ≠ c := by
      rintro rfl
      rw [hfree] at hc'
      cases hc'
    refine .inr (.inr ⟨c, c', hne.symm, ?_, ?_⟩)
    · exact held_draw.mpr (.inl ⟨rfl, rfl⟩)
    · exact held_draw.mpr (.inr ⟨hne, hc'⟩)

theorem Twice.step {draws : ℕ → ℕ → ℕ → Prop} (h : Twice v d) (hstep : Step draws d d') :
    Twice v d' := by
  cases hstep with
  | idle => exact h
  | draw c w n free drawn =>
    have hkeep : ∀ c', d.held c' = some v → (d.draw c w n).held c' = some v := by
      intro c' hc'
      have hne : c' ≠ c := by
        rintro rfl
        rw [free] at hc'
        cases hc'
      exact held_draw.mpr (.inr ⟨hne, hc'⟩)
    rcases h with h | ⟨hv, c', hc'⟩ | ⟨c₁, c₂, hne, h₁, h₂⟩
    · exact .inl h
    · exact .inr (.inl ⟨hv, c', hkeep c' hc'⟩)
    · exact .inr (.inr ⟨c₁, c₂, hne, hkeep c₁ h₁, hkeep c₂ h₂⟩)
  | handIn c w holds =>
    have hmem : v = w → v ∈ (d.handIn c w).returned := by
      rintro rfl
      exact List.mem_append_right _ (List.mem_singleton_self v)
    rcases h with h | ⟨hv, c', hc'⟩ | ⟨c₁, c₂, hne, h₁, h₂⟩
    · refine .inl (h.trans ?_)
      exact List.Sublist.count_le v (List.sublist_append_left _ _)
    · by_cases hc : c' = c
      · have hvw : v = w := Option.some.inj ((hc ▸ hc').symm.trans holds)
        left
        have hcount := List.count_pos_iff.mpr hv
        simp only [Desk.handIn, List.count_append, hvw, List.count_singleton_self] at hcount ⊢
        omega
      · exact .inr (.inl ⟨List.mem_append_left _ hv, c', held_handIn.mpr ⟨hc, hc'⟩⟩)
    · by_cases hc₁ : c₁ = c
      · have hvw : v = w := Option.some.inj ((hc₁ ▸ h₁).symm.trans holds)
        exact .inr (.inl ⟨hmem hvw, c₂, held_handIn.mpr ⟨fun hc => hne (hc₁.trans hc.symm), h₂⟩⟩)
      · by_cases hc₂ : c₂ = c
        · have hvw : v = w := Option.some.inj ((hc₂ ▸ h₂).symm.trans holds)
          exact .inr (.inl ⟨hmem hvw, c₁, held_handIn.mpr ⟨hc₁, h₁⟩⟩)
        · exact .inr (.inr ⟨c₁, c₂, hne, held_handIn.mpr ⟨hc₁, h₁⟩, held_handIn.mpr ⟨hc₂, h₂⟩⟩)

omit [DecidableEq γ] in
/-- Once every ticket is handed in, a number that was drawn twice shows. -/
theorem Twice.not_nodup (h : Twice v d) (hfree : ∀ c, d.held c = none) : ¬ d.returned.Nodup := by
  simp only [Twice, hfree, reduceCtorEq, exists_false, and_false, or_false] at h
  intro hnodup
  have hone := List.nodup_iff_count_le_one.mp hnodup v
  omega

/-! ## The tickets of a system -/

section Systems

open Interleaving

variable {σ τ ε ρ : Type} {startable : Proc σ τ ε ρ ℕ → Prop} {counter : σ → ℕ}
  {draws : ℕ → ℕ → ℕ → Prop} {tr : SystemTrace σ τ ε ρ ℕ} {sys sys' : System σ τ ε ρ ℕ}
  {a : Action σ τ ε ρ ℕ} {t : τ} {p : Proc σ τ ε ρ ℕ} {client : ℕ}

/-- The ticket of a client that is about to return. -/
def ticket : Option (Proc σ τ ε ρ ℕ) → Option ℕ
  | some (.done (.ok v)) => some v
  | _ => none

/-- The desk of a system whose clients return the tickets they draw. -/
def deskOf (counter : σ → ℕ) (tr : SystemTrace σ τ ε ρ ℕ) (sys : System σ τ ε ρ ℕ) : Desk ℕ :=
  ⟨counter sys.shared, fun c => ticket (sys.procs c), returned tr⟩

/-- The state after one step of a client. -/
def advanced (sys : System σ τ ε ρ ℕ) (c : ℕ) (t : τ) (p : Proc σ τ ε ρ ℕ) : System σ τ ε ρ ℕ :=
  ⟨(p.advance t sys.shared).1, Function.update sys.procs c (p.advance t sys.shared).2⟩

theorem ticket_update (procs : ℕ → Option (Proc σ τ ε ρ ℕ)) (c : ℕ)
    (p : Option (Proc σ τ ε ρ ℕ)) :
    (fun c' => ticket (Function.update procs c p c')) =
      Function.update (fun c' => ticket (procs c')) c (ticket p) := by
  funext c'
  by_cases hc : c' = c
  · simp [hc]
  · simp [hc]

theorem ticket_eq_none (hp : ∀ r, p ≠ .done r) : ticket (some p) = none := by
  cases p with
  | done r => exact absurd rfl (hp r)
  | _ => rfl

theorem deskOf_advanced (hclient : sys.procs client = some p) (hp : ∀ r, p ≠ .done r) :
    deskOf counter (tr ++ [⟨sys, .advance client t, advanced sys client t p⟩])
        (advanced sys client t p) =
      ⟨counter (p.advance t sys.shared).1,
        Function.update (deskOf counter tr sys).held client (ticket (p.advance t sys.shared).2),
        returned tr⟩ := by
  unfold deskOf
  rw [returned_snoc, ended_advance hclient hp]
  simp only [advanced, ticket_update, Option.bind_none, Option.toList_none, List.append_nil]

theorem deskOf_free (hclient : sys.procs client = some p) (hp : ∀ r, p ≠ .done r) :
    (deskOf counter tr sys).held client = none := by
  change ticket (sys.procs client) = none
  rw [hclient]
  exact ticket_eq_none hp

/-- A client that comes to hold a ticket has drawn it. -/
theorem deskOf_draw {v : ℕ} (hclient : sys.procs client = some p) (hp : ∀ r, p ≠ .done r)
    (hv : ticket (p.advance t sys.shared).2 = some v) :
    deskOf counter (tr ++ [⟨sys, .advance client t, advanced sys client t p⟩])
        (advanced sys client t p) =
      (deskOf counter tr sys).draw client v (counter (p.advance t sys.shared).1) := by
  rw [deskOf_advanced hclient hp, hv]
  rfl

/-- A client that returns hands its ticket in. -/
theorem deskOf_handIn {v : ℕ} (hclient : sys.procs client = some (.done (.ok v))) :
    deskOf counter (tr ++ [⟨sys, .advance client t, advanced sys client t (.done (.ok v))⟩])
        (advanced sys client t (.done (.ok v))) = (deskOf counter tr sys).handIn client v := by
  unfold deskOf
  rw [returned_snoc, ended_done hclient]
  simp only [advanced, Proc.advance, ticket_update]
  rfl

theorem deskOf_raised {e : ε} (hclient : sys.procs client = some (.done (.error e))) :
    deskOf counter (tr ++ [⟨sys, .advance client t, advanced sys client t (.done (.error e))⟩])
        (advanced sys client t (.done (.error e))) = deskOf counter tr sys := by
  have hheld : ticket (sys.procs client) = none := by
    rw [hclient]
    rfl
  unfold deskOf
  rw [returned_snoc, ended_done hclient]
  simp only [advanced, Proc.advance, ticket_update]
  rw [show ticket (none : Option (Proc σ τ ε ρ ℕ)) = ticket (sys.procs client) from hheld.symm,
    Function.update_eq_self]
  simp [toOption]

theorem deskOf_spawn (hclient : sys.procs client = none) (hp : ticket (some p) = none) :
    deskOf counter (tr ++ [⟨sys, .spawn client p, sys'⟩])
        ⟨sys.shared, Function.update sys.procs client (some p)⟩ = deskOf counter tr sys := by
  have hheld : ticket (some p) = ticket (sys.procs client) := by
    rw [hclient, hp]
    rfl
  unfold deskOf
  rw [returned_snoc]
  simp only [ticket_update]
  rw [hheld, Function.update_eq_self]
  simp [ended]

/-- One step of a system is one step of its desk. -/
theorem deskOf_step (hstart : ∀ p, startable p → ticket (some p) = none)
    (hdraws : ∀ c t p, a = .advance c t → sys.procs c = some p → (∀ r, p ≠ .done r) →
      match ticket (p.advance t sys.shared).2 with
      | none => counter (p.advance t sys.shared).1 = counter sys.shared
      | some v => draws (counter sys.shared) v (counter (p.advance t sys.shared).1))
    (hstep : SystemStep startable sys a sys') :
    Step draws (deskOf counter tr sys) (deskOf counter (tr ++ [⟨sys, a, sys'⟩]) sys') := by
  cases a with
  | spawn c p =>
    obtain ⟨hidle, hp, rfl⟩ := hstep
    rw [deskOf_spawn hidle (hstart p hp)]
    exact .idle
  | advance c t =>
    obtain ⟨p, hc, hsys⟩ := hstep
    have hsys : sys' = advanced sys c t p := hsys
    subst hsys
    by_cases hp : ∀ r, p ≠ .done r
    · have hdraw := hdraws c t p rfl hc hp
      cases hv : ticket (p.advance t sys.shared).2 with
      | none =>
        simp only [hv] at hdraw
        rw [deskOf_advanced hc hp, hv, hdraw, ← deskOf_free hc hp, Function.update_eq_self]
        exact .idle
      | some v =>
        simp only [hv] at hdraw
        rw [deskOf_draw hc hp hv]
        exact .draw c v _ (deskOf_free hc hp) hdraw
    · push Not at hp
      obtain ⟨r, rfl⟩ := hp
      cases r with
      | error e =>
        rw [deskOf_raised hc]
        exact .idle
      | ok v =>
        rw [deskOf_handIn hc]
        refine .handIn c v ?_
        change ticket (sys.procs c) = some v
        rw [hc]
        rfl

end Systems

end DecisionAssurance.Tickets
