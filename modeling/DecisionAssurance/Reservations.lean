import Mathlib.Logic.Function.Basic
import DecisionAssurance.Runs

/-!
# Reserved keys

A store keeps under a key the digest of a request and, once the request was served, its answer. A
client may reserve its key before it acts and complete or release it afterwards; or it may look
its key up, act and store its answer in the end. Every request to the store may raise, with or
without its effect, and a client may stop anywhere. The answers that are given out under one key
agree all the same, and no two clients hold one key at a time.
-/

namespace DecisionAssurance.Reservations

open Runs (Run Trace Transition)

variable {ι κ δ ρ : Type*}

/-- The digest of a request with its answer, if it has been served. -/
structure Entry (δ ρ : Type*) where
  digest : δ
  answer : Option ρ

abbrev Store (κ δ ρ : Type*) := κ → Option (Entry δ ρ)

inductive Request (κ δ ρ : Type*)
  | reserve (k : κ) (d : δ)
  | complete (k : κ) (d : δ) (a : ρ)
  | release (k : κ) (d : δ)
  | look (k : κ) (d : δ)
  | store (k : κ) (d : δ) (a : ρ)

def Request.key : Request κ δ ρ → κ
  | .reserve k _ | .complete k _ _ | .release k _ | .look k _ | .store k _ _ => k

def Request.digest : Request κ δ ρ → δ
  | .reserve _ d | .complete _ d _ | .release _ d | .look _ d | .store _ d _ => d

/-- The requests of clients that reserve. -/
def Request.Reserves : Request κ δ ρ → Prop
  | .reserve _ _ | .complete _ _ _ | .release _ _ => True
  | .look _ _ | .store _ _ _ => False

/-- The requests that put an answer into the store. -/
def Request.Answers : Request κ δ ρ → Prop
  | .complete _ _ _ | .store _ _ _ => True
  | .reserve _ _ | .release _ _ | .look _ _ => False

inductive Reply (ρ : Type*)
  | granted
  | absent
  | replayed (a : ρ)
  | inProgress
  | reused
  | done
  | raised

/-- What a client is told of an entry that is there. -/
def Entry.reply [DecidableEq δ] (e : Entry δ ρ) (d : δ) : Reply ρ :=
  if e.digest = d then
    match e.answer with
    | some a => .replayed a
    | none => .inProgress
  else .reused

/-- An entry is the reservation of a request. -/
def Entry.Reserves (e : Entry δ ρ) (d : δ) : Prop := e.digest = d ∧ e.answer = none

section Store

variable [DecidableEq κ] [DecidableEq δ]

instance (e : Entry δ ρ) (d : δ) : Decidable (e.Reserves d) :=
  match h : e.answer with
  | none => decidable_of_iff (e.digest = d) (by simp [Entry.Reserves, h])
  | some _ => .isFalse fun hr => by simp [Entry.Reserves, h] at hr

def act (s : Store κ δ ρ) : Request κ δ ρ → Reply ρ × Store κ δ ρ
  | .reserve k d =>
    match s k with
    | none => (.granted, Function.update s k (some ⟨d, none⟩))
    | some e => (e.reply d, s)
  | .complete k d a =>
    if (s k).any fun e => e.Reserves d then (.done, Function.update s k (some ⟨d, some a⟩))
    else (.raised, s)
  | .release k d =>
    if (s k).any fun e => e.Reserves d then (.done, Function.update s k none) else (.done, s)
  | .look k d =>
    match s k with
    | none => (.absent, s)
    | some e => (e.reply d, s)
  | .store k d a =>
    match s k with
    | none => (.done, Function.update s k (some ⟨d, some a⟩))
    | some _ => (.raised, s)

/-- A request is served, or raises with or without its effect. -/
def Serves (s : Store κ δ ρ) (q : Request κ δ ρ) (r : Reply ρ) (s' : Store κ δ ρ) : Prop :=
  (r, s') = act s q ∨ r = .raised ∧ (s' = s ∨ s' = (act s q).2)

variable {s s' : Store κ δ ρ} {q : Request κ δ ρ} {r : Reply ρ} {k k' : κ} {d d' : δ} {a a' : ρ}

theorem reply_eq_replayed {e : Entry δ ρ} : e.reply d = .replayed a ↔ e = ⟨d, some a⟩ := by
  obtain ⟨d', x⟩ := e
  cases x <;> simp only [Entry.reply] <;> split_ifs with hd <;> simp [hd]

theorem reply_ne {e : Entry δ ρ} :
    e.reply d ≠ .granted ∧ e.reply d ≠ .absent ∧ e.reply d ≠ .done ∧ e.reply d ≠ .raised := by
  obtain ⟨d', x⟩ := e
  cases x <;> simp only [Entry.reply] <;> split_ifs with hd <;> simp

/-- Nothing but the entry of its key is changed by a request. -/
theorem act_other (hk : k ≠ q.key) : (act s q).2 k = s k := by
  cases q <;> simp only [act] <;> split <;> simp_all [Request.key]

theorem Serves.other (h : Serves s q r s') (hk : k ≠ q.key) : s' k = s k := by
  rcases h with h | ⟨-, rfl | rfl⟩
  · rw [show s' = (act s q).2 from congrArg Prod.snd h, act_other hk]
  · rfl
  · exact act_other hk

theorem serves_reserve_cases (h : Serves s (.reserve k d) r s') :
    s k = none ∧ s' = Function.update s k (some ⟨d, none⟩) ∧ (r = .granted ∨ r = .raised) ∨
      s' = s ∧ (r = .raised ∨ ∃ e, s k = some e ∧ r = e.reply d) := by
  cases hk : s k with
  | none =>
    simp only [Serves, act, hk] at h
    rcases h with h | ⟨hr, h | h⟩
    · exact .inl ⟨rfl, congrArg Prod.snd h, .inl (congrArg Prod.fst h)⟩
    · exact .inr ⟨h, .inl hr⟩
    · exact .inl ⟨rfl, h, .inr hr⟩
  | some e =>
    simp only [Serves, act, hk, or_self] at h
    rcases h with h | ⟨hr, h⟩
    · exact .inr ⟨congrArg Prod.snd h, .inr ⟨e, rfl, congrArg Prod.fst h⟩⟩
    · exact .inr ⟨h, .inl hr⟩

theorem serves_look_cases (h : Serves s (.look k d) r s') :
    s' = s ∧ (r = .raised ∨ s k = none ∧ r = .absent ∨ ∃ e, s k = some e ∧ r = e.reply d) := by
  cases hk : s k with
  | none =>
    simp only [Serves, act, hk, or_self] at h
    rcases h with h | ⟨hr, h⟩
    · exact ⟨congrArg Prod.snd h, .inr (.inl ⟨rfl, congrArg Prod.fst h⟩)⟩
    · exact ⟨h, .inl hr⟩
  | some e =>
    simp only [Serves, act, hk, or_self] at h
    rcases h with h | ⟨hr, h⟩
    · exact ⟨congrArg Prod.snd h, .inr (.inr ⟨e, rfl, congrArg Prod.fst h⟩)⟩
    · exact ⟨h, .inl hr⟩

/-- The reservation of a request is completed, or the request raises and it stays. -/
theorem serves_complete_cases (hk : s k = some ⟨d, none⟩) (h : Serves s (.complete k d a) r s') :
    s' = Function.update s k (some ⟨d, some a⟩) ∧ (r = .done ∨ r = .raised) ∨
      s' = s ∧ r = .raised := by
  have hact : act s (.complete k d a) = (.done, Function.update s k (some ⟨d, some a⟩)) := by
    simp [act, hk, Entry.Reserves]
  rw [Serves, hact] at h
  rcases h with h | ⟨hr, h | h⟩
  · exact .inl ⟨congrArg Prod.snd h, .inl (congrArg Prod.fst h)⟩
  · exact .inr ⟨h, hr⟩
  · exact .inl ⟨h, .inr hr⟩

theorem serves_release_cases (hk : s k = some ⟨d, none⟩) (h : Serves s (.release k d) r s') :
    s' = Function.update s k none ∧ (r = .done ∨ r = .raised) ∨ s' = s ∧ r = .raised := by
  have hact : act s (.release k d) = (.done, Function.update s k none) := by
    simp [act, hk, Entry.Reserves]
  rw [Serves, hact] at h
  rcases h with h | ⟨hr, h | h⟩
  · exact .inl ⟨congrArg Prod.snd h, .inl (congrArg Prod.fst h)⟩
  · exact .inr ⟨h, hr⟩
  · exact .inl ⟨h, .inr hr⟩

theorem serves_store_cases (h : Serves s (.store k d a) r s') :
    s k = none ∧ s' = Function.update s k (some ⟨d, some a⟩) ∧ (r = .done ∨ r = .raised) ∨
      s' = s ∧ r = .raised := by
  cases hk : s k with
  | none =>
    simp only [Serves, act, hk] at h
    rcases h with h | ⟨hr, h | h⟩
    · exact .inl ⟨rfl, congrArg Prod.snd h, .inl (congrArg Prod.fst h)⟩
    · exact .inr ⟨h, hr⟩
    · exact .inl ⟨rfl, h, .inr hr⟩
  | some e =>
    simp only [Serves, act, hk, or_self] at h
    rcases h with h | ⟨hr, h⟩
    · exact .inr ⟨congrArg Prod.snd h, congrArg Prod.fst h⟩
    · exact .inr ⟨h, hr⟩

end Store

/-! ## Clients -/

/-- What a client has been told of its key. -/
inductive Stage (κ δ ρ : Type*)
  | fresh
  | holding (k : κ) (d : δ)
  | missing (k : κ) (d : δ)
  | answered (k : κ) (d : δ) (a : ρ)
  /-- Somebody else has the key reserved. -/
  | waiting (k : κ) (d : δ)
  /-- A request that may have left the key reserved has raised. -/
  | lost (k : κ) (d : δ)
  | closed

namespace Stage

/-- The requests of a client: one to begin with, and one to end a reservation or a search. -/
inductive Allows : Stage κ δ ρ → Request κ δ ρ → Prop
  | reserve (k : κ) (d : δ) : Allows .fresh (.reserve k d)
  | look (k : κ) (d : δ) : Allows .fresh (.look k d)
  | complete (k : κ) (d : δ) (a : ρ) : Allows (.holding k d) (.complete k d a)
  | release (k : κ) (d : δ) : Allows (.holding k d) (.release k d)
  | store (k : κ) (d : δ) (a : ρ) : Allows (.missing k d) (.store k d a)

/-- The key and the digest of a reservation that a client may have in the store. -/
def claims : Stage κ δ ρ → Option (κ × δ)
  | .holding k d | .lost k d => some (k, d)
  | .fresh | .missing _ _ | .answered _ _ _ | .waiting _ _ | .closed => none

/-- After the reply to a reservation. -/
def reserving (k : κ) (d : δ) : Reply ρ → Stage κ δ ρ
  | .granted => .holding k d
  | .replayed a => .answered k d a
  | .inProgress => .waiting k d
  | .raised => .lost k d
  | .absent | .reused | .done => .closed

/-- After the reply to a search. -/
def looking (k : κ) (d : δ) : Reply ρ → Stage κ δ ρ
  | .absent => .missing k d
  | .replayed a => .answered k d a
  | .inProgress => .waiting k d
  | .granted | .raised | .reused | .done => .closed

/-- After the reply to a request that ends a reservation or a search. -/
def ended (done raised : Stage κ δ ρ) : Reply ρ → Stage κ δ ρ
  | .done => done
  | .raised => raised
  | .granted | .absent | .replayed _ | .inProgress | .reused => .closed

def next : Request κ δ ρ → Reply ρ → Stage κ δ ρ
  | .reserve k d, r => reserving k d r
  | .look k d, r => looking k d r
  | .complete k d a, r => ended (.answered k d a) (.lost k d) r
  | .release k d, r => ended .closed (.lost k d) r
  | .store k d a, r => ended (.answered k d a) .closed r

/-- A stage in which nothing is left to ask for. -/
def Over (st : Stage κ δ ρ) : Prop := ∀ q, ¬ st.Allows q

section Next

variable {q : Request κ δ ρ} {r : Reply ρ} {k : κ} {d : δ} {a : ρ} {st : Stage κ δ ρ}

/-- Only the requests of clients that reserve lead to a claim. -/
theorem claims_next (h : (next q r).claims = some (k, d)) :
    q.key = k ∧ q.digest = d ∧ q.Reserves := by
  cases q <;> cases r <;> cases h <;> exact ⟨rfl, rfl, trivial⟩

theorem next_answered (h : next q r = .answered k d a) :
    q.key = k ∧ q.digest = d ∧ (q.Answers ∧ r = .done ∨ Allows .fresh q) := by
  cases q with
  | reserve k d =>
    cases r <;> cases h
    exact ⟨rfl, rfl, .inr (.reserve k d)⟩
  | look k d =>
    cases r <;> cases h
    exact ⟨rfl, rfl, .inr (.look k d)⟩
  | complete k d a =>
    cases r <;> cases h
    exact ⟨rfl, rfl, .inl ⟨trivial, rfl⟩⟩
  | release k d => cases r <;> cases h
  | store k d a =>
    cases r <;> cases h
    exact ⟨rfl, rfl, .inl ⟨trivial, rfl⟩⟩

theorem next_holding (h : next q r = .holding k d) : q = .reserve k d ∧ r = .granted := by
  cases q <;> cases r <;> cases h
  exact ⟨rfl, rfl⟩

/-- A client waits for the key that it is told to be in progress. -/
theorem next_waiting (h : next q r = .waiting k d) :
    q.key = k ∧ r = .inProgress ∧ Allows .fresh q ∧ q.digest = d := by
  cases q with
  | reserve k d =>
    cases r <;> cases h
    exact ⟨rfl, rfl, .reserve k d, rfl⟩
  | look k d =>
    cases r <;> cases h
    exact ⟨rfl, rfl, .look k d, rfl⟩
  | complete k d a => cases r <;> cases h
  | release k d => cases r <;> cases h
  | store k d a => cases r <;> cases h

theorem next_lost (h : next q r = .lost k d) : r = .raised := by
  cases q <;> cases r <;> cases h <;> rfl

theorem next_ne_fresh : next q r ≠ .fresh := by
  intro h
  cases q <;> cases r <;> cases h

/-- What a client begins with is not asked for later on. -/
theorem Allows.eq_fresh (h : st.Allows q) (hfresh : Allows .fresh q) : st = .fresh := by
  cases hfresh <;> cases h <;> rfl

theorem over_answered : (answered k d a).Over := nofun

theorem over_lost : (lost k d : Stage κ δ ρ).Over := nofun

theorem over_closed : (closed : Stage κ δ ρ).Over := nofun

theorem not_over_holding : ¬ (holding k d : Stage κ δ ρ).Over := fun h => h _ (.release k d)

/-- A reservation that is ended is over. -/
theorem next_of_holding (h : (holding k d).Allows q) : (next q r).Over := by
  cases h <;> cases r <;>
    first | exact over_answered | exact over_lost | exact over_closed

end Next

end Stage

/-! ## The hall -/

/-- The stages of all clients, and the store. -/
structure Hall (ι κ δ ρ : Type*) where
  stages : ι → Stage κ δ ρ
  store : Store κ δ ρ

def Hall.empty : Hall ι κ δ ρ := ⟨fun _ => .fresh, fun _ => none⟩

/-- What the clients were told is what the store holds. -/
structure Sound (h : Hall ι κ δ ρ) : Prop where
  held : ∀ {i k d}, h.stages i = .holding k d → h.store k = some ⟨d, none⟩
  single : ∀ {i j k d d'}, h.stages i = .holding k d → h.stages j = .holding k d' → i = j
  kept : ∀ {i k d a}, h.stages i = .answered k d a → h.store k = some ⟨d, some a⟩
  accounted : ∀ {k d}, h.store k = some ⟨d, none⟩ → ∃ i, (h.stages i).claims = some (k, d)

theorem sound_empty : Sound (Hall.empty : Hall ι κ δ ρ) where
  held h := nomatch h
  single h := nomatch h
  kept h := nomatch h
  accounted h := nomatch h

variable {h h' : Hall ι κ δ ρ} {i j : ι} {k : κ} {d : δ} {a : ρ} {q : Request κ δ ρ} {r : Reply ρ}
  {st : Stage κ δ ρ}

/-- The answers that two clients have under one key are those to the same request, and equal. -/
theorem Sound.agree {d' : δ} {a' : ρ} (hs : Sound h) (hi : h.stages i = .answered k d a)
    (hj : h.stages j = .answered k d' a') : d = d' ∧ a = a' := by
  have heq := (hs.kept hi).symm.trans (hs.kept hj)
  cases heq
  exact ⟨rfl, rfl⟩

/-- Nobody holds a key that has been answered. -/
theorem Sound.apart {d' : δ} (hs : Sound h) (hi : h.stages i = .answered k d a) :
    h.stages j ≠ .holding k d' := by
  intro hj
  have heq := (hs.kept hi).symm.trans (hs.held hj)
  cases heq

/-- Where no request has raised, the reservations in the store are those that clients hold. -/
theorem Sound.reserved_iff (hs : Sound h) (hlost : ∀ i k d, h.stages i ≠ .lost k d) :
    h.store k = some ⟨d, none⟩ ↔ ∃ i, h.stages i = .holding k d := by
  constructor
  · intro hk
    obtain ⟨i, hi⟩ := hs.accounted hk
    refine ⟨i, ?_⟩
    cases hst : h.stages i with
    | holding k' d' =>
      rw [hst] at hi
      cases hi
      rfl
    | lost k' d' => exact absurd hst (hlost i k' d')
    | fresh => simp [hst, Stage.claims] at hi
    | missing k' d' => simp [hst, Stage.claims] at hi
    | answered k' d' a => simp [hst, Stage.claims] at hi
    | waiting k' d' => simp [hst, Stage.claims] at hi
    | closed => simp [hst, Stage.claims] at hi
  · rintro ⟨i, hi⟩
    exact hs.held hi

variable [DecidableEq ι]

theorem stages_update {x : Stage κ δ ρ} : Function.update h.stages i st j = x ↔
    j = i ∧ st = x ∨ j ≠ i ∧ h.stages j = x := by
  by_cases hji : j = i <;> simp [hji]

/-- A client without a claim is told something and gets no hold. -/
theorem Sound.told (hs : Sound h) (hi : (h.stages i).claims = none)
    (hst : ∀ k d, st ≠ .holding k d)
    (hkept : ∀ k d a, st = .answered k d a → h.store k = some ⟨d, some a⟩) :
    Sound ⟨Function.update h.stages i st, h.store⟩ := by
  have hother : ∀ {j k d}, Function.update h.stages i st j = .holding k d →
      h.stages j = .holding k d := by
    intro j k d hj
    rcases stages_update.mp hj with ⟨-, hst'⟩ | ⟨-, hj⟩
    · exact absurd hst' (hst k d)
    · exact hj
  constructor
  · intro j k d hj
    exact hs.held (hother hj)
  · intro j j' k d d' hj hj'
    exact hs.single (hother hj) (hother hj')
  · intro j k d a hj
    rcases stages_update.mp hj with ⟨-, hst'⟩ | ⟨-, hj⟩
    · exact hkept k d a hst'
    · exact hs.kept hj
  · intro k d hk
    obtain ⟨j, hj⟩ := hs.accounted hk
    have hji : j ≠ i := by
      rintro rfl
      rw [hi] at hj
      cases hj
    exact ⟨j, (congrArg Stage.claims (Function.update_of_ne hji st h.stages)).trans hj⟩

variable [DecidableEq κ]

/-- A client changes the entry of a key that is free or that it holds. -/
theorem Sound.moved {x : Option (Entry δ ρ)} (hs : Sound h)
    (hfree : h.store k = none ∧ (h.stages i).claims = none ∨ ∃ d, h.stages i = .holding k d)
    (hheld : ∀ k' d, st = .holding k' d → k' = k ∧ x = some ⟨d, none⟩)
    (hkept : ∀ k' d a, st = .answered k' d a → k' = k ∧ x = some ⟨d, some a⟩)
    (haccounted : ∀ d, x = some ⟨d, none⟩ → st.claims = some (k, d)) :
    Sound ⟨Function.update h.stages i st, Function.update h.store k x⟩ := by
  have hclaims : ∀ {k' d}, (h.stages i).claims = some (k', d) → k' = k := by
    intro k' d hi
    rcases hfree with ⟨-, hnone⟩ | ⟨d', hi'⟩
    · rw [hnone] at hi
      cases hi
    · rw [hi'] at hi
      cases hi
      rfl
  have hothers : ∀ {j k' d}, j ≠ i → h.stages j = .holding k' d → k' ≠ k := by
    rintro j k' d hji hj rfl
    rcases hfree with ⟨hnone, -⟩ | ⟨d', hi⟩
    · rw [hs.held hj] at hnone
      cases hnone
    · exact hji (hs.single hj hi)
  have hanswered : ∀ {j k' d a}, h.stages j = .answered k' d a → k' ≠ k := by
    rintro j k' d a hj rfl
    have hkey := hs.kept hj
    rcases hfree with ⟨hnone, -⟩ | ⟨d', hi⟩
    · rw [hnone] at hkey
      cases hkey
    · rw [hs.held hi] at hkey
      cases hkey
  constructor
  · intro j k' d hj
    rcases stages_update.mp hj with ⟨-, hst⟩ | ⟨hji, hj⟩
    · obtain ⟨rfl, rfl⟩ := hheld k' d hst
      exact Function.update_self _ _ _
    · exact (Function.update_of_ne (hothers hji hj) _ _).trans (hs.held hj)
  · intro j j' k' d d' hj hj'
    rcases stages_update.mp hj with ⟨hji, hst⟩ | ⟨hji, hj⟩
    · rcases stages_update.mp hj' with ⟨hji', -⟩ | ⟨hji', hj'⟩
      · exact hji.trans hji'.symm
      · exact absurd (hheld k' d hst).1 (hothers hji' hj')
    · rcases stages_update.mp hj' with ⟨-, hst⟩ | ⟨-, hj'⟩
      · exact absurd (hheld k' d' hst).1 (hothers hji hj)
      · exact hs.single hj hj'
  · intro j k' d a hj
    rcases stages_update.mp hj with ⟨-, hst⟩ | ⟨-, hj⟩
    · obtain ⟨rfl, rfl⟩ := hkept k' d a hst
      exact Function.update_self _ _ _
    · exact (Function.update_of_ne (hanswered hj) _ _).trans (hs.kept hj)
  · intro k' d hk'
    by_cases hkk : k' = k
    · subst hkk
      have hst := haccounted d ((Function.update_self k' x h.store).symm.trans hk')
      exact ⟨i, (congrArg Stage.claims (Function.update_self i st h.stages)).trans hst⟩
    · obtain ⟨j, hj⟩ := hs.accounted ((Function.update_of_ne hkk x h.store).symm.trans hk')
      have hji : j ≠ i := by
        rintro rfl
        exact hkk (hclaims hj)
      exact ⟨j, (congrArg Stage.claims (Function.update_of_ne hji st h.stages)).trans hj⟩

/-- A client leaves the entry of the key that it holds as it is, and no longer answers for it. -/
theorem Sound.abandoned (hs : Sound h) (hi : h.stages i = .holding k d) :
    Sound ⟨Function.update h.stages i (.lost k d), h.store⟩ := by
  have hmoved : Sound ⟨Function.update h.stages i (.lost k d),
      Function.update h.store k (h.store k)⟩ := by
    refine hs.moved (.inr ⟨d, hi⟩) nofun nofun fun d' hd' => ?_
    rw [hs.held hi] at hd'
    cases hd'
    rfl
  rwa [Function.update_eq_self] at hmoved

variable [DecidableEq δ]

/-- One request of one client. -/
inductive Step (h : Hall ι κ δ ρ) : ι × Request κ δ ρ × Reply ρ → Hall ι κ δ ρ → Prop
  | mk {i : ι} {q : Request κ δ ρ} {r : Reply ρ} {s' : Store κ δ ρ}
      (allowed : (h.stages i).Allows q) (served : Serves h.store q r s') :
      Step h (i, q, r) ⟨Function.update h.stages i (Stage.next q r), s'⟩

omit [DecidableEq κ] in
/-- A client is told of an entry that is there. -/
theorem Sound.told_of {e : Entry δ ρ} {f : Reply ρ → Stage κ δ ρ} (hs : Sound h)
    (hi : (h.stages i).claims = none) (hk : h.store k = some e)
    (hreplayed : ∀ a, f (.replayed a) = .answered k d a)
    (hrefused : f .inProgress = .waiting k d ∧ f .reused = .closed) :
    Sound ⟨Function.update h.stages i (f (e.reply d)), h.store⟩ := by
  cases hr : e.reply d with
  | replayed a =>
    rw [hreplayed]
    refine hs.told hi nofun fun k' d' a' h => ?_
    cases h
    rw [hk, reply_eq_replayed.mp hr]
  | inProgress =>
    rw [hrefused.1]
    exact hs.told hi nofun nofun
  | reused =>
    rw [hrefused.2]
    exact hs.told hi nofun nofun
  | granted => exact absurd hr reply_ne.1
  | absent => exact absurd hr reply_ne.2.1
  | done => exact absurd hr reply_ne.2.2.1
  | raised => exact absurd hr reply_ne.2.2.2

theorem Sound.step (hs : Sound h) {e : ι × Request κ δ ρ × Reply ρ} (hstep : Step h e h') :
    Sound h' := by
  obtain ⟨allowed, served⟩ := hstep
  rename_i i q r s'
  generalize hst : h.stages i = st at allowed
  cases allowed with
  | reserve k d =>
    have hclaims : (h.stages i).claims = none := by rw [hst]; rfl
    rcases serves_reserve_cases served with ⟨hk, rfl, rfl | rfl⟩ | ⟨rfl, rfl | ⟨e, hk, rfl⟩⟩
    · exact hs.moved (.inl ⟨hk, hclaims⟩) (fun _ _ h => by cases h; exact ⟨rfl, rfl⟩) nofun
        fun _ h => by cases h; rfl
    · exact hs.moved (.inl ⟨hk, hclaims⟩) nofun nofun fun _ h => by cases h; rfl
    · exact hs.told hclaims nofun nofun
    · exact hs.told_of hclaims hk (fun _ => rfl) ⟨rfl, rfl⟩
  | look k d =>
    have hclaims : (h.stages i).claims = none := by rw [hst]; rfl
    obtain ⟨rfl, rfl | ⟨-, rfl⟩ | ⟨e, hk, rfl⟩⟩ := serves_look_cases served
    · exact hs.told hclaims nofun nofun
    · exact hs.told hclaims nofun nofun
    · exact hs.told_of hclaims hk (fun _ => rfl) ⟨rfl, rfl⟩
  | complete k d a =>
    rcases serves_complete_cases (hs.held hst) served with ⟨rfl, rfl | rfl⟩ | ⟨rfl, rfl⟩
    · exact hs.moved (.inr ⟨d, hst⟩) nofun (fun _ _ _ h => by cases h; exact ⟨rfl, rfl⟩) nofun
    · exact hs.moved (.inr ⟨d, hst⟩) nofun nofun nofun
    · exact hs.abandoned hst
  | release k d =>
    rcases serves_release_cases (hs.held hst) served with ⟨rfl, rfl | rfl⟩ | ⟨rfl, rfl⟩
    · exact hs.moved (.inr ⟨d, hst⟩) nofun nofun nofun
    · exact hs.moved (.inr ⟨d, hst⟩) nofun nofun nofun
    · exact hs.abandoned hst
  | store k d a =>
    have hclaims : (h.stages i).claims = none := by rw [hst]; rfl
    rcases serves_store_cases served with ⟨hk, rfl, rfl | rfl⟩ | ⟨rfl, rfl⟩
    · exact hs.moved (.inl ⟨hk, hclaims⟩) nofun (fun _ _ _ h => by cases h; exact ⟨rfl, rfl⟩) nofun
    · exact hs.moved (.inl ⟨hk, hclaims⟩) nofun nofun nofun
    · exact hs.told hclaims nofun nofun

/-- An answer stays in the store. -/
theorem Sound.stays (hs : Sound h) {e : ι × Request κ δ ρ × Reply ρ} (hstep : Step h e h')
    (hk : h.store k = some ⟨d, some a⟩) : h'.store k = some ⟨d, some a⟩ := by
  obtain ⟨allowed, served⟩ := hstep
  rename_i i q r s'
  change s' k = _
  by_cases hkey : k = q.key
  · generalize hst : h.stages i = st at allowed
    cases allowed with
    | reserve k' d' =>
      obtain rfl : k = k' := hkey
      rcases serves_reserve_cases served with ⟨hnone, -⟩ | ⟨rfl, -⟩
      · rw [hk] at hnone
        cases hnone
      · exact hk
    | look k' d' => rwa [(serves_look_cases served).1]
    | complete k' d' a' =>
      obtain rfl : k = k' := hkey
      have heq := hk.symm.trans (hs.held hst)
      cases heq
    | release k' d' =>
      obtain rfl : k = k' := hkey
      have heq := hk.symm.trans (hs.held hst)
      cases heq
    | store k' d' a' =>
      obtain rfl : k = k' := hkey
      rcases serves_store_cases served with ⟨hnone, -⟩ | ⟨rfl, -⟩
      · rw [hk] at hnone
        cases hnone
      · exact hk
  · exact (served.other hkey).trans hk

omit [DecidableEq ι] [DecidableEq κ] [DecidableEq δ] in
theorem Entry.reply_inProgress [DecidableEq δ] {e : Entry δ ρ} (h : e.reply d = .inProgress) :
    e = ⟨d, none⟩ := by
  obtain ⟨d', x⟩ := e
  cases x <;> simp only [Entry.reply] at h <;> split_ifs at h with hd
  rw [hd]

/-- A client waits because of another one that has reserved the key. -/
theorem Sound.waits (hs : Sound h) (hstep : Step h (i, q, .inProgress) h')
    (hq : Stage.Allows .fresh q) : ∃ j, (h.stages j).claims = some (q.key, q.digest) := by
  obtain ⟨-, served⟩ := hstep
  cases hq with
  | reserve k d =>
    rcases serves_reserve_cases served with ⟨-, -, hr⟩ | ⟨-, hr | ⟨e, hk, hr⟩⟩
    · rcases hr with hr | hr <;> cases hr
    · cases hr
    · obtain rfl := Entry.reply_inProgress hr.symm
      exact hs.accounted hk
  | look k d =>
    obtain ⟨-, hr | ⟨-, hr⟩ | ⟨e, hk, hr⟩⟩ := serves_look_cases served
    · cases hr
    · cases hr
    · obtain rfl := Entry.reply_inProgress hr.symm
      exact hs.accounted hk

/-- An answer that is put into the store is the first one under its key. -/
theorem Sound.answers (hs : Sound h) (hstep : Step h (i, q, .done) h') (hq : q.Answers) :
    (∀ d a, h.store q.key ≠ some ⟨d, some a⟩) ∧ ∃ d a, h'.store q.key = some ⟨d, some a⟩ := by
  obtain ⟨allowed, served⟩ := hstep
  rename_i s'
  generalize hst : h.stages i = st at allowed
  cases allowed with
  | reserve k d => exact hq.elim
  | look k d => exact hq.elim
  | release k d => exact hq.elim
  | complete k d a =>
    rcases serves_complete_cases (hs.held hst) served with ⟨rfl, -⟩ | ⟨-, hr⟩
    · refine ⟨fun d' a' hk => ?_, d, a, Function.update_self _ _ _⟩
      have heq := hk.symm.trans (hs.held hst)
      cases heq
    · cases hr
  | store k d a =>
    rcases serves_store_cases served with ⟨hnone, rfl, -⟩ | ⟨-, hr⟩
    · refine ⟨fun d' a' hk => ?_, d, a, Function.update_self _ _ _⟩
      have heq := hk.symm.trans hnone
      cases heq
    · cases hr

end DecisionAssurance.Reservations
