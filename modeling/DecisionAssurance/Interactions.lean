import Mathlib.Logic.Function.Basic
import DecisionAssurance.Runs

/-!
# Programs that call their surroundings

An interaction is a finite program whose steps are calls, each answered by something outside it:
a provider, a store, a clock. What it does is told by its log, the calls with their answers.
`Ensures` is the weakest precondition of a property of results and logs: it holds at a log if the
property holds wherever the program may end after it, for all answers. On the way every call
must be one that the log permits.
-/

namespace DecisionAssurance.Interactions

structure Signature where
  Call : Type
  Answer : Call → Type

/-- A call with its answer. -/
abbrev Event (S : Signature) := (c : S.Call) × S.Answer c

abbrev Log (S : Signature) := List (Event S)

inductive Interaction (S : Signature) (ε α : Type)
  | done (result : Except ε α)
  | call (c : S.Call) (k : S.Answer c → Interaction S ε α)

variable {S : Signature} {ε α β : Type}

namespace Interaction

def bind : Interaction S ε α → (α → Interaction S ε β) → Interaction S ε β
  | .done (.ok a), f => f a
  | .done (.error e), _ => .done (.error e)
  | .call c k, f => .call c fun a => (k a).bind f

instance : Monad (Interaction S ε) where
  pure a := .done (.ok a)
  bind := bind

/-- One call. -/
def ask (c : S.Call) : Interaction S ε (S.Answer c) := .call c fun a => .done (.ok a)

def raise (e : ε) : Interaction S ε α := .done (.error e)

/-- The value of a computation that may raise. -/
def lift (x : Except ε α) : Interaction S ε α := .done x

/-- `try`: a program with what it returned or raised. -/
def attempt : Interaction S ε α → Interaction S ε (Except ε α)
  | .done r => .done (.ok r)
  | .call c k => .call c fun a => (k a).attempt

/-- The program that remains after a log. -/
inductive Follows : Interaction S ε α → Log S → Interaction S ε α → Prop
  | nil (p : Interaction S ε α) : Follows p [] p
  | cons {c : S.Call} {k : S.Answer c → Interaction S ε α} {a : S.Answer c} {t : Log S}
      {q : Interaction S ε α} : Follows (k a) t q → Follows (.call c k) (⟨c, a⟩ :: t) q

/-- A program ends with a result after a log. -/
def Ends (p : Interaction S ε α) (t : Log S) (r : Except ε α) : Prop := p.Follows t (.done r)

theorem Follows.bind {p q : Interaction S ε α} {t : Log S} (h : p.Follows t q)
    (f : α → Interaction S ε β) : (p >>= f).Follows t (q >>= f) := by
  induction h with
  | nil p => exact .nil _
  | cons _ ih => exact .cons ih

theorem Follows.attempt {p q : Interaction S ε α} {t : Log S} (h : p.Follows t q) :
    p.attempt.Follows t q.attempt := by
  induction h with
  | nil p => exact .nil _
  | cons _ ih => exact .cons ih

theorem follows_append_cases {p q : Interaction S ε α} {t t' : Log S}
    (h : p.Follows (t ++ t') q) : ∃ p', p.Follows t p' ∧ p'.Follows t' q := by
  induction t generalizing p with
  | nil => exact ⟨p, .nil p, h⟩
  | cons x t ih =>
    cases h with
    | cons h =>
      obtain ⟨p', ht, ht'⟩ := ih h
      exact ⟨p', .cons ht, ht'⟩

/-- A sequence under way is in its first part, or past it. -/
theorem follows_bind_cases {p : Interaction S ε α} {f : α → Interaction S ε β} {t : Log S}
    {q : Interaction S ε β} (h : (p >>= f).Follows t q) :
    (∃ p', p.Follows t p' ∧ q = p' >>= f) ∨
      ∃ t₁ t₂ a, t = t₁ ++ t₂ ∧ p.Ends t₁ (.ok a) ∧ (f a).Follows t₂ q := by
  induction p generalizing t with
  | done r =>
    cases r with
    | ok a => exact .inr ⟨[], t, a, rfl, .nil _, h⟩
    | error e =>
      cases h
      exact .inl ⟨_, .nil _, rfl⟩
  | call c k ih =>
    cases h with
    | nil => exact .inl ⟨_, .nil _, rfl⟩
    | @cons _ _ a t' _ h =>
      rcases ih a h with ⟨p', hp', rfl⟩ | ⟨t₁, t₂, b, rfl, hp, hf⟩
      · exact .inl ⟨p', .cons hp', rfl⟩
      · exact .inr ⟨⟨c, a⟩ :: t₁, t₂, b, rfl, .cons hp, hf⟩

theorem follows_done_cases {r : Except ε α} {t : Log S} {q : Interaction S ε α}
    (h : (.done r : Interaction S ε α).Follows t q) : t = [] ∧ q = .done r := by
  cases h
  exact ⟨rfl, rfl⟩

/-- A call under way is not answered yet, or what follows it is under way. -/
theorem follows_ask_bind_cases {c : S.Call} {f : S.Answer c → Interaction S ε β} {t : Log S}
    {q : Interaction S ε β} (h : (ask c >>= f).Follows t q) :
    t = [] ∧ (∀ r, q ≠ .done r) ∨ ∃ a t', t = ⟨c, a⟩ :: t' ∧ (f a).Follows t' q := by
  cases h with
  | nil => exact .inl ⟨rfl, nofun⟩
  | cons h => exact .inr ⟨_, _, rfl, h⟩

theorem ends_ask_bind_cases {c : S.Call} {f : S.Answer c → Interaction S ε β} {t : Log S}
    {r : Except ε β} (h : (ask c >>= f).Ends t r) :
    ∃ a t', t = ⟨c, a⟩ :: t' ∧ (f a).Ends t' r := by
  rcases follows_ask_bind_cases h with ⟨-, hcall⟩ | hpast
  · exact absurd rfl (hcall r)
  · exact hpast

theorem ends_bind_cases {p : Interaction S ε α} {f : α → Interaction S ε β} {t : Log S}
    {r : Except ε β} (h : (p >>= f).Ends t r) :
    (∃ e, p.Ends t (.error e) ∧ r = .error e) ∨
      ∃ t₁ t₂ a, t = t₁ ++ t₂ ∧ p.Ends t₁ (.ok a) ∧ (f a).Ends t₂ r := by
  rcases follows_bind_cases h with ⟨p', hp, hq⟩ | hpast
  · cases p' with
    | call c k => cases hq
    | done r' =>
      cases r' with
      | ok a =>
        refine .inr ⟨t, [], a, (List.append_nil t).symm, hp, ?_⟩
        change (f a).Follows [] (.done r)
        rw [hq]
        exact .nil _
      | error e =>
        cases hq
        exact .inl ⟨e, hp, rfl⟩
  · exact .inr hpast

theorem ends_attempt {p : Interaction S ε α} {t : Log S} {r : Except ε (Except ε α)} :
    p.attempt.Ends t r ↔ ∃ r', p.Ends t r' ∧ r = .ok r' := by
  constructor
  · intro h
    induction p generalizing t with
    | done r' =>
      cases h
      exact ⟨r', .nil _, rfl⟩
    | call c k ih =>
      cases h with
      | cons h =>
        obtain ⟨r', hr', rfl⟩ := ih _ h
        exact ⟨r', .cons hr', rfl⟩
  · rintro ⟨r', h, rfl⟩
    exact Follows.attempt h

theorem follows_attempt_cases {p : Interaction S ε α} {t : Log S}
    {q : Interaction S ε (Except ε α)} (h : p.attempt.Follows t q) :
    ∃ p', p.Follows t p' ∧ q = p'.attempt := by
  induction p generalizing t with
  | done r' =>
    cases h
    exact ⟨_, .nil _, rfl⟩
  | call c k ih =>
    cases h with
    | nil => exact ⟨_, .nil _, rfl⟩
    | cons h =>
      obtain ⟨p', hp', rfl⟩ := ih _ h
      exact ⟨p', .cons hp', rfl⟩

/-- A program under way in a `try` whose handler makes no call. -/
theorem follows_attempt_lift_cases {p : Interaction S ε α} {f : Except ε α → Except ε β}
    {t : Log S} {q : Interaction S ε β} (h : (p.attempt >>= fun r => lift (f r)).Follows t q) :
    ∃ p', p.Follows t p' ∧ q = (p'.attempt >>= fun r => lift (f r)) := by
  rcases follows_bind_cases h with ⟨p', hp', rfl⟩ | ⟨t₁, t₂, r, rfl, hr, hlift⟩
  · obtain ⟨p'', hp'', rfl⟩ := follows_attempt_cases hp'
    exact ⟨p'', hp'', rfl⟩
  · obtain ⟨r', hr', hr⟩ := ends_attempt.mp hr
    cases hr
    obtain ⟨rfl, rfl⟩ := follows_done_cases hlift
    rw [List.append_nil]
    exact ⟨.done r, hr', rfl⟩

/-- A program run on answers that may depend on the log: its result and its log. -/
def play (answer : Log S → (c : S.Call) → S.Answer c) :
    Interaction S ε α → Log S → Except ε α × Log S
  | .done r, t => (r, t)
  | .call c k, t => (k (answer t c)).play answer (t ++ [⟨c, answer t c⟩])

theorem play_ends (answer : Log S → (c : S.Call) → S.Answer c) (p : Interaction S ε α)
    (t : Log S) : ∃ t', (p.play answer t).2 = t ++ t' ∧ p.Ends t' (p.play answer t).1 := by
  induction p generalizing t with
  | done r => exact ⟨[], (List.append_nil t).symm, .nil _⟩
  | call c k ih =>
    obtain ⟨t', ht, hends⟩ := ih (answer t c) (t ++ [⟨c, answer t c⟩])
    exact ⟨⟨c, answer t c⟩ :: t', by rw [play, ht, List.append_assoc]; rfl, .cons hends⟩

/-- Every event of a log that was played is an answer to the log before it. -/
theorem play_answers {answer : Log S → (c : S.Call) → S.Answer c} {p : Interaction S ε α}
    {t : Log S} {i : ℕ} {x : Event S} (hi : t.length ≤ i) (hx : (p.play answer t).2[i]? = some x) :
    ∃ t₀ : Log S, t₀.length = i ∧ x.2 = answer t₀ x.1 := by
  induction p generalizing t with
  | done r =>
    rw [play, List.getElem?_eq_none hi] at hx
    cases hx
  | call c k ih =>
    by_cases hlast : i = t.length
    · obtain ⟨t', ht, -⟩ := play_ends answer (k (answer t c)) (t ++ [⟨c, answer t c⟩])
      rw [play, ht, List.append_assoc, List.getElem?_append_right (by omega), hlast, Nat.sub_self]
        at hx
      cases hx
      exact ⟨t, hlast.symm, rfl⟩
    · exact ih (answer t c) (by rw [List.length_append, List.length_singleton]; omega) hx

end Interaction

/-! ## Served logs -/

/-- A log whose events a state answers one after the other. -/
inductive Served {σ : Type} (serves : σ → Event S → σ → Prop) : σ → Log S → σ → Prop
  | nil (s : σ) : Served serves s [] s
  | cons {s s' s'' : σ} {x : Event S} {t : Log S} :
      serves s x s' → Served serves s' t s'' → Served serves s (x :: t) s''

section Served

variable {σ : Type} {serves : σ → Event S → σ → Prop} {s s' s'' : σ} {t t' : Log S}

theorem served_append_cases (h : Served serves s (t ++ t') s'') :
    ∃ s', Served serves s t s' ∧ Served serves s' t' s'' := by
  induction t generalizing s with
  | nil => exact ⟨s, .nil s, h⟩
  | cons x t ih =>
    cases h with
    | cons hx h =>
      obtain ⟨s', ht, ht'⟩ := ih h
      exact ⟨s', .cons hx ht, ht'⟩

/-- What every answer preserves, a log preserves. -/
theorem Served.invariant {I : σ → Prop} (h : Served serves s t s')
    (hI : ∀ s x s', x ∈ t → I s → serves s x s' → I s') (hs : I s) : I s' := by
  induction h with
  | nil s => exact hs
  | cons hx _ ih =>
    exact ih (fun s y s' hy => hI s y s' (List.mem_cons_of_mem _ hy))
      (hI _ _ _ List.mem_cons_self hs hx)

end Served

section PlayOn

variable {σ : Type} {serves : σ → Event S → σ → Prop}

namespace Interaction

/-- A program run against a server: its result, its log and the last state of the server. -/
def playOn (serve : σ → (c : S.Call) → S.Answer c × σ) :
    Interaction S ε α → σ → Except ε α × Log S × σ
  | .done r, s => (r, [], s)
  | .call c k, s =>
    let rest := (k (serve s c).1).playOn serve (serve s c).2
    (rest.1, ⟨c, (serve s c).1⟩ :: rest.2.1, rest.2.2)

theorem playOn_ends (serve : σ → (c : S.Call) → S.Answer c × σ) (p : Interaction S ε α) (s : σ) :
    p.Ends (p.playOn serve s).2.1 (p.playOn serve s).1 := by
  induction p generalizing s with
  | done r => exact .nil _
  | call c k ih => exact .cons (ih _ _)

theorem playOn_served {serve : σ → (c : S.Call) → S.Answer c × σ}
    (hserve : ∀ s c, serves s ⟨c, (serve s c).1⟩ (serve s c).2) (p : Interaction S ε α) (s : σ) :
    Served serves s (p.playOn serve s).2.1 (p.playOn serve s).2.2 := by
  induction p generalizing s with
  | done r => exact .nil _
  | call c k ih => exact .cons (hserve s c) (ih _ _)

theorem playOn_answers (serve : σ → (c : S.Call) → S.Answer c × σ) (p : Interaction S ε α) (s : σ) :
    ∀ x ∈ (p.playOn serve s).2.1, ∃ s', x.2 = (serve s' x.1).1 := by
  induction p generalizing s with
  | done r => exact fun _ hx => absurd hx List.not_mem_nil
  | call c k ih =>
    intro x hx
    rcases List.mem_cons.mp hx with rfl | hx
    · exact ⟨s, rfl⟩
    · exact ih _ _ x hx

open Runs (Transition Trace Run)

/-- The transitions of a server that a program is run against. -/
def traceOn (serve : σ → (c : S.Call) → S.Answer c × σ) :
    Interaction S ε α → σ → Trace σ (Event S)
  | .done _, _ => []
  | .call c k, s =>
    ⟨s, ⟨c, (serve s c).1⟩, (serve s c).2⟩ :: (k (serve s c).1).traceOn serve (serve s c).2

theorem traceOn_labels (serve : σ → (c : S.Call) → S.Answer c × σ) (p : Interaction S ε α)
    (s : σ) : (p.traceOn serve s).map Transition.label = (p.playOn serve s).2.1 := by
  induction p generalizing s with
  | done r => rfl
  | call c k ih =>
    simp only [traceOn, playOn, List.map_cons, ih]

theorem traceOn_run {serve : σ → (c : S.Call) → S.Answer c × σ}
    (hserve : ∀ s c, serves s ⟨c, (serve s c).1⟩ (serve s c).2) (p : Interaction S ε α) (s : σ) :
    Run serves s (p.traceOn serve s) (p.playOn serve s).2.2 := by
  induction p generalizing s with
  | done r => exact .nil
  | call c k ih => exact Run.append (.single (hserve s c)) (ih _ _)

end Interaction

end PlayOn

/-! ## Sums of signatures -/

@[reducible] def Signature.sum (S S' : Signature) : Signature where
  Call := S.Call ⊕ S'.Call
  Answer
    | .inl c => S.Answer c
    | .inr c => S'.Answer c

section Sum

variable {S' : Signature} {ε' : Type}

namespace Interaction

/-- A program with more calls at hand, which it does not make. -/
def left (f : ε → ε') : Interaction S ε α → Interaction (S.sum S') ε' α
  | .done r => .done (r.mapError f)
  | .call c k => .call (.inl c) fun a => (k a).left f

end Interaction

end Sum

/-! ## Weakest preconditions -/

/-- What a program owes and is owed: the calls that its log permits, and what it may rely on in
the answers. -/
structure Terms (S : Signature) where
  may : Log S → S.Call → Prop
  given : Log S → Event S → Prop

/-- A log whose answers are as the terms promise, after an earlier one. -/
def Terms.Grants (T : Terms S) (t t' : Log S) : Prop :=
  ∀ pre x post, t' = pre ++ x :: post → T.given (t ++ pre) x

namespace Interaction

section Ensures

variable {T : Terms S}

def Ensures (T : Terms S) (Q : Except ε α → Log S → Prop) : Interaction S ε α → Log S → Prop
  | .done r, t => Q r t
  | .call c k, t => T.may t c ∧ ∀ a, T.given t ⟨c, a⟩ → (k a).Ensures T Q (t ++ [⟨c, a⟩])

variable {Q : Except ε α → Log S → Prop} {p : Interaction S ε α} {t : Log S}

theorem Ensures.mono {Q' : Except ε α → Log S → Prop} (h : p.Ensures T Q t)
    (hQ : ∀ r t, Q r t → Q' r t) : p.Ensures T Q' t := by
  induction p generalizing t with
  | done r => exact hQ r t h
  | call c k ih => exact ⟨h.1, fun a ha => ih a (h.2 a ha)⟩

/-- What a program ensures under terms, it ensures under terms that permit more and promise more. -/
theorem Ensures.under {T' : Terms S} (h : p.Ensures T Q t)
    (hmay : ∀ t c, T.may t c → T'.may t c) (hgiven : ∀ t x, T'.given t x → T.given t x) :
    p.Ensures T' Q t := by
  induction p generalizing t with
  | done r => exact h
  | call c k ih => exact ⟨hmay t c h.1, fun a ha => ih a (h.2 a (hgiven t _ ha))⟩

theorem ensures_bind {f : α → Interaction S ε β} {Q : Except ε β → Log S → Prop} :
    (p >>= f).Ensures T Q t ↔ p.Ensures T (fun r t => match r with
      | .ok a => (f a).Ensures T Q t
      | .error e => Q (.error e) t) t := by
  change (p.bind f).Ensures T Q t ↔ _
  induction p generalizing t with
  | done r =>
    cases r with
    | ok a => exact Iff.rfl
    | error e => exact Iff.rfl
  | call c k ih => exact and_congr Iff.rfl (forall₂_congr fun a _ => ih a)

theorem ensures_attempt {Q : Except ε (Except ε α) → Log S → Prop} :
    p.attempt.Ensures T Q t ↔ p.Ensures T (fun r t => Q (.ok r) t) t := by
  induction p generalizing t with
  | done r => exact Iff.rfl
  | call c k ih => exact and_congr Iff.rfl (forall₂_congr fun a _ => ih a)

/-- The rule for a call and what follows it. -/
theorem ensures_ask_bind {c : S.Call} {f : S.Answer c → Interaction S ε β}
    {Q : Except ε β → Log S → Prop} : (ask c >>= f).Ensures T Q t ↔
      T.may t c ∧ ∀ a, T.given t ⟨c, a⟩ → (f a).Ensures T Q (t ++ [⟨c, a⟩]) := ensures_bind

theorem ensures_pure {a : α} :
    (pure a : Interaction S ε α).Ensures T Q t ↔ Q (.ok a) t := Iff.rfl

theorem ensures_lift {x : Except ε α} :
    (lift x : Interaction S ε α).Ensures T Q t ↔ Q x t := Iff.rfl

/-- The rule of consequence for a sequence. -/
theorem Ensures.bind {f : α → Interaction S ε β} {Q' : Except ε β → Log S → Prop}
    (h : p.Ensures T Q t) (hok : ∀ a t, Q (.ok a) t → (f a).Ensures T Q' t)
    (herror : ∀ e t, Q (.error e) t → Q' (.error e) t) : (p >>= f).Ensures T Q' t := by
  refine ensures_bind.mpr (h.mono fun r t hr => ?_)
  cases r with
  | ok a => exact hok a t hr
  | error e => exact herror e t hr

theorem Ensures.follows {q : Interaction S ε α} {t' : Log S} (h : p.Ensures T Q t)
    (hp : p.Follows t' q) (hgiven : T.Grants t t') : q.Ensures T Q (t ++ t') := by
  induction hp generalizing t with
  | nil p => rwa [List.append_nil]
  | @cons c k a t' q _ ih =>
    have hfirst := hgiven [] ⟨c, a⟩ t' rfl
    rw [List.append_nil] at hfirst
    have hnext := ih (h.2 a hfirst) fun pre x post hx => by
      rw [List.append_assoc]
      exact hgiven (⟨c, a⟩ :: pre) x post (by rw [hx, List.cons_append])
    rwa [List.append_assoc] at hnext

theorem Ensures.ends {r : Except ε α} {t' : Log S} (h : p.Ensures T Q t) (hp : p.Ends t' r)
    (hgiven : T.Grants t t') : Q r (t ++ t') := h.follows hp hgiven

/-- A program only extends its log. -/
theorem Ensures.grows (h : p.Ensures T Q t) : p.Ensures T (fun r t' => Q r t' ∧ t <+: t') t := by
  induction p generalizing t with
  | done r => exact ⟨h, List.prefix_rfl⟩
  | call c k ih =>
    refine ⟨h.1, fun a ha => (ih a (h.2 a ha)).mono fun r t' ⟨hr, ht⟩ => ⟨hr, ?_⟩⟩
    exact (List.prefix_append t [⟨c, a⟩]).trans ht

/-- Every call of a program is one that its log permitted. -/
theorem Ensures.permitted {q : Interaction S ε α} {pre post : Log S} {x : Event S}
    (h : p.Ensures T Q t) (hp : p.Follows (pre ++ x :: post) q) (hgiven : T.Grants t pre) :
    T.may (t ++ pre) x.1 := by
  obtain ⟨p', hpre, hx⟩ := follows_append_cases hp
  have hrest := h.follows hpre hgiven
  cases hx
  exact hrest.1

end Ensures

/-! ## Programs that raise on faults only -/

section Exact

variable {T : Terms S} (calm fault : Event S → Prop)

/-- A log without faults, if it is calm. -/
def Clean (t : Log S) : Prop := (∀ x ∈ t, calm x) → ∀ x ∈ t, ¬ fault x

/-- A log with a fault, if it is calm. -/
def Stained (t : Log S) : Prop := (∀ x ∈ t, calm x) → ∃ x ∈ t, fault x

/-- A result with its log: a value with the postcondition where the log is clean, and an
exception where it is stained. -/
def Exact (Post : α → Log S → Prop) : Except ε α → Log S → Prop
  | .ok a, t => Clean calm fault t ∧ Post a t
  | .error _, t => Stained calm fault t

variable {calm fault} {Post : α → Log S → Prop} {p : Interaction S ε α} {t : Log S}

theorem clean_nil : Clean calm fault [] := fun _ _ hx => absurd hx List.not_mem_nil

theorem clean_snoc {x : Event S} (ht : Clean calm fault t) (hx : calm x → ¬ fault x) :
    Clean calm fault (t ++ [x]) := by
  intro hcalm
  have hfirst := ht fun y hy => hcalm y (List.mem_append_left _ hy)
  have hlast := hx (hcalm x (List.mem_append_right _ (List.mem_singleton_self x)))
  intro y hy
  rcases List.mem_append.mp hy with hy | hy
  · exact hfirst y hy
  · rwa [List.mem_singleton.mp hy]

theorem stained_snoc {x : Event S} (hx : calm x → fault x) :
    Stained calm fault (t ++ [x]) := by
  intro hcalm
  have hlast : x ∈ t ++ [x] := List.mem_append_right _ (List.mem_singleton_self x)
  exact ⟨x, hlast, hx (hcalm x hlast)⟩

/-- Exactness of a sequence: an exception of its first part is one of the sequence. -/
theorem Ensures.exact_bind {f : α → Interaction S ε β} {Post' : β → Log S → Prop}
    (h : p.Ensures T (Exact calm fault Post) t)
    (hf : ∀ a t, Clean calm fault t → Post a t →
      (f a).Ensures T (Exact calm fault Post') t) :
    (p >>= f).Ensures T (Exact calm fault Post') t :=
  h.bind (fun a t ha => hf a t ha.1 ha.2) fun _ _ he => he

theorem Ensures.exact_mono {Post' : α → Log S → Prop}
    (h : p.Ensures T (Exact calm fault Post) t) (hPost : ∀ a t, Post a t → Post' a t) :
    p.Ensures T (Exact calm fault Post') t := by
  refine h.mono fun r t hr => ?_
  cases r with
  | ok a => exact ⟨hr.1, hPost a t hr.2⟩
  | error e => exact hr

theorem Ensures.exact_grows (h : p.Ensures T (Exact calm fault Post) t) :
    p.Ensures T (Exact calm fault fun a t' => Post a t' ∧ t <+: t') t := by
  refine h.grows.mono fun r t' hr => ?_
  cases r with
  | ok a => exact ⟨hr.1.1, hr.1.2, hr.2⟩
  | error e => exact hr.1

/-- An exact program has a value if and only if its calm log has no fault. -/
theorem Exact.ok_iff {r : Except ε α} (h : Exact calm fault Post r t) (ht : ∀ x ∈ t, calm x) :
    (∃ a, r = .ok a ∧ Post a t) ↔ ∀ x ∈ t, ¬ fault x := by
  cases r with
  | ok a => exact ⟨fun _ => h.1 ht, fun _ => ⟨a, rfl, h.2⟩⟩
  | error e =>
    obtain ⟨x, hx, hfault⟩ := h ht
    exact ⟨fun ⟨_, ha, _⟩ => (nomatch ha), fun hclean => absurd hfault (hclean x hx)⟩

end Exact

end Interaction

end DecisionAssurance.Interactions
