import DecisionAssurance.Interactions
import DecisionAssurance.Reservations

/-!
# Programs that reserve keys

Several programs run against one store, their events in any order. Some of their calls are
requests to a store of reserved keys, others are the acts that a reservation or a search is for.
-/

namespace DecisionAssurance.Interactions

/-! ## Programs side by side -/

section Together

variable {ι σ : Type} [DecidableEq ι] {S : Signature}

/-- The events of one program. -/
def own (i : ι) (t : List (ι × Event S)) : Log S := (t.filter fun x => x.1 = i).map Prod.snd

variable {i j : ι} {t t' : List (ι × Event S)} {x : Event S}

theorem own_append : own i (t ++ t') = own i t ++ own i t' := by
  simp [own]

theorem own_cons_self : own i ((i, x) :: t) = x :: own i t := by
  simp [own]

theorem own_snoc_self : own i (t ++ [(i, x)]) = own i t ++ [x] := by
  simp [own]

theorem own_snoc_of_ne (h : i ≠ j) : own i (t ++ [(j, x)]) = own i t := by
  simp [own, h.symm]

/-- Programs side by side, each as far as it has come. -/
structure Together {ε α : ι → Type} (serves : σ → Event S → σ → Prop)
    (p : (i : ι) → Interaction S (ε i) (α i)) (s : σ) (t : List (ι × Event S)) (s' : σ) : Prop where
  served : Served serves s (t.map Prod.snd) s'
  follows : ∀ i, ∃ q, (p i).Follows (own i t) q

variable {ε α : ι → Type} {serves : σ → Event S → σ → Prop}
  {p : (i : ι) → Interaction S (ε i) (α i)} {s s' : σ}

theorem Together.cut {s'' : σ} (h : Together serves p s (t ++ t') s'') :
    ∃ s', Together serves p s t s' ∧ Served serves s' (t'.map Prod.snd) s'' := by
  have hserved := h.served
  rw [List.map_append] at hserved
  obtain ⟨s', ht, ht'⟩ := served_append_cases hserved
  refine ⟨s', ⟨ht, fun i => ?_⟩, ht'⟩
  obtain ⟨q, hq⟩ := h.follows i
  rw [own_append] at hq
  obtain ⟨q', hq', -⟩ := Interaction.follows_append_cases hq
  exact ⟨q', hq'⟩

/-- What every next event of a program keeps, holds of programs side by side. -/
theorem Together.invariant (J : List (ι × Event S) → σ → Prop) (hnil : J [] s)
    (hsnoc : ∀ t s' i x s'', Together serves p s t s' → J t s' → serves s' x s'' →
      (∃ q, (p i).Follows (own i t ++ [x]) q) → J (t ++ [(i, x)]) s'')
    (h : Together serves p s t s') : J t s' := by
  induction t using List.reverseRecOn generalizing s' with
  | nil =>
    have hserved := h.served
    cases hserved
    exact hnil
  | append_singleton t y ih =>
    obtain ⟨i, x⟩ := y
    obtain ⟨s₁, ht, hlast⟩ := h.cut
    cases hlast with
    | cons hx hrest =>
      cases hrest
      obtain ⟨q, hq⟩ := h.follows i
      rw [own_snoc_self] at hq
      exact hsnoc t s₁ i x s' ht (ih ht) hx ⟨q, hq⟩

end Together

end DecisionAssurance.Interactions

namespace DecisionAssurance.Reservations

open Interactions Interaction

/-- How the calls of programs are requests to a store of reserved keys. -/
structure Counter (S : Signature) (κ δ ρ : Type) where
  request : S.Call → Option (Request κ δ ρ)
  reply : Event S → Reply ρ
  /-- The calls that a reservation or a search is for. -/
  Acts : S.Call → Prop
  /-- The requests that the store understands. -/
  Sane : S.Call → Prop

/-- A client reserves a key, or looks one up, for a digest. -/
inductive Role (κ δ : Type)
  | reserving (k : κ) (d : δ)
  | searching (k : κ) (d : δ)
  | idle

namespace Role

variable {κ δ ρ : Type}

/-- A client acts when it holds its key, or when it has found nothing under it. -/
def Ready : Role κ δ → Stage κ δ ρ → Prop
  | .reserving k d, st => st = .holding k d
  | .searching k d, st => st = .missing k d
  | .idle, _ => False

def Mine : Role κ δ → Request κ δ ρ → Prop
  | .reserving k d, q => q.key = k ∧ q.digest = d ∧ q.Reserves
  | .searching k d, q => q.key = k ∧ q.digest = d ∧ ¬ q.Reserves
  | .idle, _ => False

def subject : Role κ δ → Option (κ × δ)
  | .reserving k d | .searching k d => some (k, d)
  | .idle => none

theorem subject_of_mine {role : Role κ δ} {q : Request κ δ ρ} (h : role.Mine q) :
    role.subject = some (q.key, q.digest) := by
  cases role with
  | reserving k d =>
    obtain ⟨rfl, rfl, -⟩ := h
    rfl
  | searching k d =>
    obtain ⟨rfl, rfl, -⟩ := h
    rfl
  | idle => exact h.elim

end Role

namespace Counter

variable {S : Signature} {κ δ ρ : Type} (b : Counter S κ δ ρ)

/-- The stage that a program has come to with an event. -/
def after (st : Stage κ δ ρ) (x : Event S) : Stage κ δ ρ :=
  match b.request x.1 with
  | some q => Stage.next q (b.reply x)
  | none => st

def stageOf (t : Log S) : Stage κ δ ρ := t.foldl b.after .fresh

theorem stageOf_snoc {t : Log S} {x : Event S} :
    b.stageOf (t ++ [x]) = b.after (b.stageOf t) x := by
  rw [stageOf, List.foldl_append]
  rfl

/-- The terms of a client: it asks in turn, for what is its own, and acts when it is ready. -/
def terms (role : Role κ δ) : Terms S where
  may t c := b.Sane c ∧
    (∀ q, b.request c = some q → (b.stageOf t).Allows q ∧ role.Mine q) ∧
    (b.Acts c → role.Ready (b.stageOf t))
  given _ _ := True

/-- A log of a client that keeps to its terms. -/
def Obeys (role : Role κ δ) (t : Log S) : Prop :=
  ∀ pre x post, t = pre ++ x :: post → (b.terms role).may pre x.1

/-- An event that puts the answer under a key into the store. -/
def Writes (k : κ) (x : Event S) : Prop :=
  ∃ q, b.request x.1 = some q ∧ q.key = k ∧ q.Answers ∧ b.reply x = .done

/-- A store of programs that is a store of reserved keys. -/
def Shows {σ : Type} [DecidableEq κ] [DecidableEq δ] (view : σ → Store κ δ ρ)
    (serves : σ → Event S → σ → Prop) : Prop :=
  ∀ s x s', b.Sane x.1 → serves s x s' →
    match b.request x.1 with
    | some q => Serves (view s) q (b.reply x) (view s')
    | none => view s' = view s

variable {b} {role : Role κ δ} {t t' : Log S} {x : Event S} {k : κ} {d : δ} {a : ρ}

theorem grants_true : (b.terms role).Grants t t' := fun _ _ _ _ => trivial

theorem after_plain {st : Stage κ δ ρ} (hx : b.request x.1 = none) : b.after st x = st := by
  rw [after, hx]

theorem stageOf_plain (hx : b.request x.1 = none) : b.stageOf (t ++ [x]) = b.stageOf t := by
  rw [stageOf_snoc, after_plain hx]

theorem stageOf_request {q : Request κ δ ρ} (hx : b.request x.1 = some q) :
    b.stageOf (t ++ [x]) = Stage.next q (b.reply x) := by
  rw [stageOf_snoc, after, hx]

/-! ## Programs from one stage to another -/

/-- What a program ensures from a stage of its client on: a property of its result and of the
stage that it leaves its client at. -/
def Triple {ε α : Type} (b : Counter S κ δ ρ) (T : Terms S) (st : Stage κ δ ρ)
    (p : Interaction S ε α) (Q : Except ε α → Stage κ δ ρ → Prop) : Prop :=
  ∀ t, b.stageOf t = st → p.Ensures T (fun r t' => Q r (b.stageOf t')) t

section Triple

variable {ε α β : Type} {T : Terms S} {st : Stage κ δ ρ} {p : Interaction S ε α}
  {Q : Except ε α → Stage κ δ ρ → Prop}

theorem Triple.ensures (h : b.Triple T .fresh p Q) :
    p.Ensures T (fun r t => Q r (b.stageOf t)) [] := h [] rfl

theorem Triple.mono {Q' : Except ε α → Stage κ δ ρ → Prop} (h : b.Triple T st p Q)
    (hQ : ∀ r st', Q r st' → Q' r st') : b.Triple T st p Q' :=
  fun t ht => (h t ht).mono fun r t' => hQ r (b.stageOf t')

theorem triple_done {r : Except ε α} (h : Q r st) : b.Triple T st (.done r) Q := by
  intro t ht
  change Q r (b.stageOf t)
  rwa [ht]

theorem triple_ask {c : S.Call} {f : S.Answer c → Interaction S ε β}
    {Q : Except ε β → Stage κ δ ρ → Prop} (hmay : ∀ t, b.stageOf t = st → T.may t c)
    (h : ∀ a, b.Triple T (b.after st ⟨c, a⟩) (f a) Q) : b.Triple T st (ask c >>= f) Q := by
  refine fun t ht => ensures_ask_bind.mpr ⟨hmay t ht, fun a _ => h a _ ?_⟩
  rw [stageOf_snoc, ht]

theorem Triple.bind {f : α → Interaction S ε β} {Q' : Except ε β → Stage κ δ ρ → Prop}
    (h : b.Triple T st p Q) (hok : ∀ a st', Q (.ok a) st' → b.Triple T st' (f a) Q')
    (herror : ∀ e st', Q (.error e) st' → Q' (.error e) st') : b.Triple T st (p >>= f) Q' :=
  fun t ht => (h t ht).bind (fun a t' ha => hok a (b.stageOf t') ha t' rfl)
    fun e t' => herror e (b.stageOf t')

theorem Triple.attempt {Q : Except ε (Except ε α) → Stage κ δ ρ → Prop}
    (h : b.Triple T st p fun r => Q (.ok r)) : b.Triple T st p.attempt Q :=
  fun t ht => ensures_attempt.mpr (h t ht)

/-- A program that leaves its client at its stage. -/
def Steady (b : Counter S κ δ ρ) (T : Terms S) (st : Stage κ δ ρ) (p : Interaction S ε α) : Prop :=
  b.Triple T st p fun _ st' => st' = st

theorem steady_done (r : Except ε α) : b.Steady T st (.done r) := triple_done rfl

theorem steady_ask {c : S.Call} (hmay : ∀ t, b.stageOf t = st → T.may t c)
    (hplain : b.request c = none) :
    b.Steady T st (ask c : Interaction S ε (S.Answer c)) := by
  refine fun t ht => ⟨hmay t ht, fun a _ => ?_⟩
  change b.stageOf (t ++ [⟨c, a⟩]) = st
  rw [stageOf_plain hplain, ht]

/-- A program after one that leaves its client at its stage. -/
theorem Steady.then {f : α → Interaction S ε β} {Q : Except ε β → Stage κ δ ρ → Prop}
    (h : b.Steady T st p) (hf : ∀ a, b.Triple T st (f a) Q) (herror : ∀ e, Q (.error e) st) :
    b.Triple T st (p >>= f) Q := by
  refine Triple.bind h (fun a st' hst => ?_) fun e st' hst => ?_
  · rw [hst]
    exact hf a
  · rw [hst]
    exact herror e

theorem Steady.bind {f : α → Interaction S ε β} (h : b.Steady T st p)
    (hf : ∀ a, b.Steady T st (f a)) : b.Steady T st (p >>= f) := Steady.then h hf fun _ => rfl

theorem steady_left {S' : Signature} {b : Counter (S.sum S') κ δ ρ} {T : Terms (S.sum S')}
    {ε' : Type} {f : ε → ε'} (p : Interaction S ε α)
    (hmay : ∀ t c, b.stageOf t = st → T.may t (.inl c))
    (hplain : ∀ c, b.request (.inl c) = none) : b.Steady T st (p.left f) := by
  induction p with
  | done r => exact steady_done _
  | call c k ih =>
    intro t ht
    refine ⟨hmay t c ht, fun a _ => ih a _ ?_⟩
    rw [stageOf_plain (hplain c), ht]

/-- A call that a client's terms permit at a stage. -/
theorem may_of {c : S.Call} (hsane : b.Sane c)
    (hrequest : ∀ q, b.request c = some q → st.Allows q ∧ role.Mine q)
    (hacts : b.Acts c → role.Ready st) (ht : b.stageOf t = st) : (b.terms role).may t c := by
  subst ht
  exact ⟨hsane, hrequest, hacts⟩

end Triple

/-! ## One client -/

theorem obeys_of_ensures {ε α : Type} {p q : Interaction S ε α}
    {Q : Except ε α → Log S → Prop} (hp : p.Ensures (b.terms role) Q []) (hq : p.Follows t q) :
    b.Obeys role t := by
  rintro pre x post rfl
  exact hp.permitted hq grants_true

theorem Obeys.cut (h : b.Obeys role (t ++ t')) : b.Obeys role t := by
  rintro pre x post rfl
  exact h pre x (post ++ t') (by rw [List.append_assoc, List.cons_append])

theorem Obeys.last (h : b.Obeys role (t ++ [x])) : (b.terms role).may t x.1 := h t x [] rfl

/-- Before its first request a client does not act. -/
theorem Obeys.idle (h : b.Obeys role t) (hfresh : b.stageOf t = .fresh) :
    ∀ x ∈ t, ¬ b.Acts x.1 := by
  induction t using List.reverseRecOn with
  | nil => exact fun x hx => absurd hx List.not_mem_nil
  | append_singleton t y ih =>
    cases hq : b.request y.1 with
    | some q =>
      rw [stageOf_request hq] at hfresh
      exact absurd hfresh Stage.next_ne_fresh
    | none =>
      rw [stageOf_plain hq] at hfresh
      intro x hx hacts
      rcases List.mem_append.mp hx with hx | hx
      · exact ih h.cut hfresh x hx hacts
      · obtain rfl := List.mem_singleton.mp hx
        have hready := h.last.2.2 hacts
        rw [hfresh] at hready
        cases role with
        | reserving k d => cases hready
        | searching k d => cases hready
        | idle => exact hready

/-- A client that has nothing left to ask for stays at its stage. -/
theorem Obeys.settled (h : b.Obeys role (t ++ t')) (hover : (b.stageOf t).Over) :
    b.stageOf (t ++ t') = b.stageOf t := by
  induction t' using List.reverseRecOn with
  | nil => rw [List.append_nil]
  | append_singleton t' y ih =>
    rw [← List.append_assoc] at h ⊢
    have hstage := ih h.cut
    cases hq : b.request y.1 with
    | none => rw [stageOf_plain hq, hstage]
    | some q =>
      have hallows := (h.last.2.1 q hq).1
      rw [hstage] at hallows
      exact absurd hallows (hover q)

/-- A client that holds its key goes on holding it, or it has nothing left to ask for. -/
theorem Obeys.holding (h : b.Obeys role (t ++ t')) (hholding : b.stageOf t = .holding k d) :
    b.stageOf (t ++ t') = .holding k d ∨ (b.stageOf (t ++ t')).Over := by
  induction t' using List.reverseRecOn with
  | nil =>
    rw [List.append_nil]
    exact .inl hholding
  | append_singleton t' y ih =>
    rw [← List.append_assoc] at h ⊢
    rcases ih h.cut with hstage | hover
    · cases hq : b.request y.1 with
      | none =>
        rw [stageOf_plain hq]
        exact .inl hstage
      | some q =>
        have hallows := (h.last.2.1 q hq).1
        rw [hstage] at hallows
        rw [stageOf_request hq]
        exact .inr (Stage.next_of_holding hallows)
    · rw [h.settled hover]
      exact .inr hover

/-- Between two moments in which a client holds its key, it holds it. -/
theorem Obeys.between {t'' : Log S} (h : b.Obeys role (t ++ t' ++ t''))
    (hfirst : b.stageOf t = .holding k d) (hlast : b.stageOf (t ++ t' ++ t'') = .holding k d) :
    b.stageOf (t ++ t') = .holding k d := by
  rcases h.cut.holding hfirst with hholding | hover
  · exact hholding
  · rw [h.settled hover] at hlast
    rw [hlast] at hover
    exact absurd hover Stage.not_over_holding

/-- A claim is that of a client that reserves. -/
theorem Obeys.claims (h : b.Obeys role t) (hclaims : (b.stageOf t).claims = some (k, d)) :
    role = .reserving k d := by
  induction t using List.reverseRecOn with
  | nil => cases hclaims
  | append_singleton t y ih =>
    cases hq : b.request y.1 with
    | none =>
      rw [stageOf_plain hq] at hclaims
      exact ih h.cut hclaims
    | some q =>
      rw [stageOf_request hq] at hclaims
      obtain ⟨rfl, rfl, hreserves⟩ := Stage.claims_next hclaims
      have hmine := (h.last.2.1 q hq).2
      cases role with
      | reserving k d =>
        obtain ⟨rfl, rfl, -⟩ := hmine
        rfl
      | searching k d => exact absurd hreserves hmine.2.2
      | idle => exact hmine.elim

/-- An answer is to a client's own request; if it has acted, the answer is one that it wrote. -/
theorem Obeys.answered (h : b.Obeys role t) (hst : b.stageOf t = .answered k d a) :
    role.subject = some (k, d) ∧ ((∃ x ∈ t, b.Acts x.1) → ∃ x ∈ t, b.Writes k x) := by
  induction t using List.reverseRecOn with
  | nil => cases hst
  | append_singleton t y ih =>
    cases hq : b.request y.1 with
    | none =>
      rw [stageOf_plain hq] at hst
      obtain ⟨hsubject, hwrites⟩ := ih h.cut hst
      refine ⟨hsubject, ?_⟩
      rintro ⟨x, hx, hacts⟩
      rcases List.mem_append.mp hx with hx | hx
      · obtain ⟨z, hz, hwritten⟩ := hwrites ⟨x, hx, hacts⟩
        exact ⟨z, List.mem_append_left _ hz, hwritten⟩
      · obtain rfl := List.mem_singleton.mp hx
        have hready := h.last.2.2 hacts
        rw [hst] at hready
        cases role with
        | reserving k d => cases hready
        | searching k d => cases hready
        | idle => exact hready.elim
    | some q =>
      rw [stageOf_request hq] at hst
      obtain ⟨hallows, hmine⟩ := h.last.2.1 q hq
      obtain ⟨rfl, rfl, ⟨hanswers, hdone⟩ | hbegins⟩ := Stage.next_answered hst
      · refine ⟨Role.subject_of_mine hmine, fun _ => ⟨y, ?_, q, hq, rfl, hanswers, hdone⟩⟩
        exact List.mem_append_right _ (List.mem_singleton_self y)
      · refine ⟨Role.subject_of_mine hmine, ?_⟩
        rintro ⟨x, hx, hacts⟩
        rcases List.mem_append.mp hx with hx | hx
        · exact absurd hacts (h.cut.idle (hallows.eq_fresh hbegins) x hx)
        · obtain rfl := List.mem_singleton.mp hx
          have hready := h.last.2.2 hacts
          rw [hallows.eq_fresh hbegins] at hready
          cases role with
          | reserving k d => cases hready
          | searching k d => cases hready
          | idle => exact hready.elim

/-- A client that holds its key has been granted it. -/
theorem granted_of_holding (h : b.stageOf t = .holding k d) :
    ∃ x ∈ t, b.request x.1 = some (.reserve k d) ∧ b.reply x = .granted := by
  induction t using List.reverseRecOn with
  | nil => cases h
  | append_singleton t y ih =>
    have hy : y ∈ t ++ [y] := List.mem_append_right _ (List.mem_singleton_self y)
    cases hq : b.request y.1 with
    | none =>
      rw [stageOf_plain hq] at h
      obtain ⟨x, hx, hgranted⟩ := ih h
      exact ⟨x, List.mem_append_left _ hx, hgranted⟩
    | some q =>
      rw [stageOf_request hq] at h
      obtain ⟨rfl, hreply⟩ := Stage.next_holding h
      exact ⟨y, hy, hq, hreply⟩

theorem stageOf_ne_lost (h : ∀ x ∈ t, b.reply x ≠ .raised) : b.stageOf t ≠ .lost k d := by
  induction t using List.reverseRecOn with
  | nil =>
    intro hlost
    cases hlost
  | append_singleton t y ih =>
    cases hq : b.request y.1 with
    | none =>
      rw [stageOf_plain hq]
      exact ih fun x hx => h x (List.mem_append_left _ hx)
    | some q =>
      rw [stageOf_request hq]
      intro hlost
      exact h y (List.mem_append_right _ (List.mem_singleton_self y)) (Stage.next_lost hlost)

/-! ## Clients side by side -/

section Hall

variable {ι σ : Type} [DecidableEq ι] {view : σ → Store κ δ ρ} {serves : σ → Event S → σ → Prop}
  {ε α : ι → Type} {p : (i : ι) → Interaction S (ε i) (α i)}
  {Q : (i : ι) → Except (ε i) (α i) → Log S → Prop} {roles : ι → Role κ δ}
  {s s' s'' : σ} {t : List (ι × Event S)} {i j : ι}

/-- The stages of programs side by side and what the store shows of itself. -/
def hall (b : Counter S κ δ ρ) (view : σ → Store κ δ ρ) (t : List (ι × Event S)) (s : σ) :
    Hall ι κ δ ρ :=
  ⟨fun i => b.stageOf (own i t), view s⟩

theorem obeys_own (hp : ∀ i, (p i).Ensures (b.terms (roles i)) (Q i) [])
    (h : Together serves p s t s') (i : ι) : b.Obeys (roles i) (own i t) := by
  obtain ⟨q, hq⟩ := h.follows i
  exact obeys_of_ensures (hp i) hq

/-- An act is done by a client that is ready for it. -/
theorem act_ready {t' : List (ι × Event S)}
    (hp : ∀ i, (p i).Ensures (b.terms (roles i)) (Q i) [])
    (h : Together serves p s (t ++ (i, x) :: t') s') (hx : b.Acts x.1) :
    (roles i).Ready (b.stageOf (own i t)) := by
  refine (obeys_own hp h i (own i t) x (own i t') ?_).2.2 hx
  rw [own_append, own_cons_self]

variable [DecidableEq κ] [DecidableEq δ]

/-- Every next event of a client is one of a hall, or leaves it as it is. -/
theorem hall_snoc (hshows : b.Shows view serves) (hmay : (b.terms (roles i)).may (own i t) x.1)
    (hx : serves s' x s'') :
    (∃ q, b.request x.1 = some q ∧
      Step (b.hall view t s') (i, q, b.reply x) (b.hall view (t ++ [(i, x)]) s'')) ∨
    b.request x.1 = none ∧ b.hall view (t ++ [(i, x)]) s'' = b.hall view t s' := by
  have hstages : (fun j => b.stageOf (own j (t ++ [(i, x)]))) =
      Function.update (fun j => b.stageOf (own j t)) i (b.after (b.stageOf (own i t)) x) := by
    funext j
    by_cases hji : j = i
    · subst hji
      rw [own_snoc_self, stageOf_snoc, Function.update_self]
    · rw [own_snoc_of_ne hji, Function.update_of_ne hji]
  obtain ⟨hsane, hallows, -⟩ := hmay
  have hview := hshows s' x s'' hsane hx
  unfold hall
  rw [hstages]
  cases hq : b.request x.1 with
  | none =>
    rw [hq] at hview
    refine .inr ⟨rfl, ?_⟩
    rw [show view s'' = view s' from hview, after_plain hq]
    simp only [Function.update_eq_self]
  | some q =>
    rw [hq] at hview
    refine .inl ⟨q, rfl, ?_⟩
    have hafter : b.after (b.stageOf (own i t)) x = Stage.next q (b.reply x) := by
      rw [after, hq]
    rw [hafter]
    exact .mk (hallows q hq).1 hview

/-- Clients side by side are told what the store holds. -/
theorem hall_sound (hshows : b.Shows view serves) (hempty : view s = fun _ => none)
    (hp : ∀ i, (p i).Ensures (b.terms (roles i)) (Q i) []) (h : Together serves p s t s') :
    Sound (b.hall view t s') := by
  refine h.invariant (fun t s' => Sound (b.hall view t s')) ?_ fun t s₁ i x s₂ _ hs hx hq => ?_
  · have hhall : b.hall view [] s = (Hall.empty : Hall ι κ δ ρ) := by
      rw [hall, hempty]
      rfl
    rw [hhall]
    exact sound_empty
  · obtain ⟨q, hq⟩ := hq
    rcases hall_snoc hshows (obeys_of_ensures (hp i) hq).last hx with ⟨q, -, hstep⟩ | ⟨-, heq⟩
    · exact hs.step hstep
    · rwa [heq]

/-- A client waits because of another one that reserves the key. -/
theorem waits (hshows : b.Shows view serves) (hempty : view s = fun _ => none)
    (hp : ∀ i, (p i).Ensures (b.terms (roles i)) (Q i) []) (h : Together serves p s t s') :
    ∀ i k d, b.stageOf (own i t) = .waiting k d → ∃ j, roles j = .reserving k d := by
  refine h.invariant (fun t _ =>
    ∀ i k d, b.stageOf (own i t) = .waiting k d → ∃ j, roles j = .reserving k d) nofun
    fun t s₁ l y s₂ ht hs hy hl => ?_
  obtain ⟨q, hq⟩ := hl
  have hobeys := obeys_of_ensures (hp l) hq
  intro i k d hi
  by_cases hil : i = l
  · subst hil
    rw [own_snoc_self] at hi
    rcases hall_snoc hshows hobeys.last hy with ⟨q, hrequest, hstep⟩ | ⟨hnone, -⟩
    · rw [stageOf_request hrequest] at hi
      obtain ⟨rfl, hreply, hfresh, rfl⟩ := Stage.next_waiting hi
      rw [hreply] at hstep
      obtain ⟨j, hj⟩ := (hall_sound hshows hempty hp ht).waits hstep hfresh
      exact ⟨j, (obeys_own hp ht j).claims hj⟩
    · rw [stageOf_plain hnone] at hi
      exact hs i k d hi
  · rw [own_snoc_of_ne hil] at hi
    exact hs i k d hi

/-- What is written under a key is written once and stays. -/
theorem writes_once (hshows : b.Shows view serves) (hempty : view s = fun _ => none)
    (hp : ∀ i, (p i).Ensures (b.terms (roles i)) (Q i) []) (h : Together serves p s t s') :
    (∀ i, (∃ x ∈ own i t, b.Writes k x) → ∃ d a, view s' k = some ⟨d, some a⟩) ∧
    ∀ i j, (∃ x ∈ own i t, b.Writes k x) → (∃ x ∈ own j t, b.Writes k x) → i = j := by
  refine h.invariant (fun t s' =>
    (∀ i, (∃ x ∈ own i t, b.Writes k x) → ∃ d a, view s' k = some ⟨d, some a⟩) ∧
    ∀ i j, (∃ x ∈ own i t, b.Writes k x) → (∃ x ∈ own j t, b.Writes k x) → i = j) ?_
    fun t s₁ l y s₂ ht hs hy hl => ?_
  · exact ⟨fun i ⟨x, hx, _⟩ => absurd hx List.not_mem_nil,
      fun i j ⟨x, hx, _⟩ => absurd hx List.not_mem_nil⟩
  · obtain ⟨hkept, honce⟩ := hs
    obtain ⟨q, hq⟩ := hl
    have hsound := hall_sound hshows hempty hp ht
    have hsnoc := hall_snoc hshows (obeys_of_ensures (hp l) hq).last hy
    -- a write of the last event finds the key unanswered and leaves it answered
    have hlast : b.Writes k y → (∀ d a, view s₁ k ≠ some ⟨d, some a⟩) ∧
        ∃ d a, view s₂ k = some ⟨d, some a⟩ := by
      rintro ⟨q', hrequest, rfl, hanswers, hdone⟩
      rcases hsnoc with ⟨q'', hrequest', hstep⟩ | ⟨hnone, -⟩
      · obtain rfl := Option.some.inj (hrequest.symm.trans hrequest')
        rw [hdone] at hstep
        exact hsound.answers hstep hanswers
      · rw [hrequest] at hnone
        cases hnone
    have hstays : ∀ {d a}, view s₁ k = some ⟨d, some a⟩ → view s₂ k = some ⟨d, some a⟩ := by
      intro d a hk
      rcases hsnoc with ⟨q', -, hstep⟩ | ⟨-, heq⟩
      · exact hsound.stays hstep hk
      · rwa [show view s₂ = view s₁ from congrArg Hall.store heq]
    have hcases : ∀ {i}, (∃ x ∈ own i (t ++ [(l, y)]), b.Writes k x) →
        (∃ x ∈ own i t, b.Writes k x) ∨ i = l ∧ b.Writes k y := by
      rintro i ⟨x, hx, hwrites⟩
      by_cases hil : i = l
      · subst hil
        rw [own_snoc_self] at hx
        rcases List.mem_append.mp hx with hx | hx
        · exact .inl ⟨x, hx, hwrites⟩
        · obtain rfl := List.mem_singleton.mp hx
          exact .inr ⟨rfl, hwrites⟩
      · rw [own_snoc_of_ne hil] at hx
        exact .inl ⟨x, hx, hwrites⟩
    have hnew : ∀ {i}, (∃ x ∈ own i t, b.Writes k x) → ¬ b.Writes k y := by
      intro i hi hwrites
      obtain ⟨d, a, hk⟩ := hkept i hi
      exact (hlast hwrites).1 d a hk
    constructor
    · intro i hi
      rcases hcases hi with hi | ⟨-, hwrites⟩
      · obtain ⟨d, a, hk⟩ := hkept i hi
        exact ⟨d, a, hstays hk⟩
      · exact (hlast hwrites).2
    · intro i j hi hj
      rcases hcases hi with hi | ⟨rfl, hwrites⟩
      · rcases hcases hj with hj | ⟨-, hwrites⟩
        · exact honce i j hi hj
        · exact absurd hwrites (hnew hi)
      · rcases hcases hj with hj | ⟨rfl, -⟩
        · exact absurd hwrites (hnew hj)
        · rfl

/-- Of the clients with an answer under one key at most one has acted. -/
theorem acted_once {d' : δ} {a' : ρ} (hshows : b.Shows view serves)
    (hempty : view s = fun _ => none)
    (hp : ∀ i, (p i).Ensures (b.terms (roles i)) (Q i) []) (h : Together serves p s t s')
    (hi : b.stageOf (own i t) = .answered k d a) (hj : b.stageOf (own j t) = .answered k d' a')
    (hacti : ∃ x ∈ own i t, b.Acts x.1) (hactj : ∃ x ∈ own j t, b.Acts x.1) : i = j :=
  (writes_once hshows hempty hp h).2 i j (((obeys_own hp h i).answered hi).2 hacti)
    (((obeys_own hp h j).answered hj).2 hactj)

/-- While a client holds its key, no other client that reserves it acts. -/
theorem acts_alone {t₁ t₂ t₃ : List (ι × Event S)} {d' : δ} (hshows : b.Shows view serves)
    (hempty : view s = fun _ => none)
    (hp : ∀ i, (p i).Ensures (b.terms (roles i)) (Q i) [])
    (h : Together serves p s (t₁ ++ t₂ ++ (j, x) :: t₃) s')
    (hfirst : b.stageOf (own i t₁) = .holding k d)
    (hlast : b.stageOf (own i (t₁ ++ t₂ ++ (j, x) :: t₃)) = .holding k d)
    (hj : roles j = .reserving k d') (hx : b.Acts x.1) : i = j := by
  have hother : b.stageOf (own j (t₁ ++ t₂)) = .holding k d' := by
    have hready := act_ready hp h hx
    rwa [hj] at hready
  have hobeys := obeys_own hp h i
  rw [own_append, own_append] at hobeys hlast
  have hmiddle := hobeys.between hfirst hlast
  rw [← own_append] at hmiddle
  obtain ⟨s₁, hupto, -⟩ := h.cut
  exact (hall_sound hshows hempty hp hupto).single hmiddle hother

end Hall

end Counter

end DecisionAssurance.Reservations
