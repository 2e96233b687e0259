import Mathlib.Data.List.Nodup
import Mathlib.Data.List.Induction

/-!
# Leases on keys

A lease protocol over arbitrary keys and tokens. A history is the list of what happened to
the leases: a token is granted a key until an instant, the holder renews or settles its
lease, or the lease is revoked from outside. `holder` reads the current lease of a key off
a history; an orderly history renews and settles only on behalf of the holder, before the
lease runs out. In an orderly history with distinct granted tokens every token settles at
most once, and a token whose lease ended never holds a key again.
-/

namespace DecisionAssurance.Leases

variable {κ τ : Type*}

structure Lease (τ : Type*) where
  token : τ
  expiresAt : Int

inductive LeaseEvent (κ τ : Type*)
  | grant (key : κ) (token : τ) (expiresAt : Int)
  | renew (key : κ) (token : τ) (now expiresAt : Int)
  | settle (key : κ) (token : τ) (now : Int)
  | revoke (key : κ)

abbrev History (κ τ : Type*) := List (LeaseEvent κ τ)

def LeaseEvent.key : LeaseEvent κ τ → κ
  | .grant k _ _ => k
  | .renew k _ _ _ => k
  | .settle k _ _ => k
  | .revoke k => k

def LeaseEvent.grantedToken : LeaseEvent κ τ → Option τ
  | .grant _ t _ => some t
  | _ => none

/-- The lease of an event's key after the event. -/
def LeaseEvent.apply : LeaseEvent κ τ → Option (Lease τ) → Option (Lease τ)
  | .grant _ t e, _ => some ⟨t, e⟩
  | .renew _ _ _ e, l => l.map fun l => { l with expiresAt := e }
  | .settle _ _ _, _ => none
  | .revoke _, _ => none

/-- What the protocol asks of the lease an event meets. -/
def LeaseEvent.Permitted : LeaseEvent κ τ → Option (Lease τ) → Prop
  | .grant _ _ _, l => l = none
  | .renew _ t now _, l => ∃ e, l = some ⟨t, e⟩ ∧ now < e
  | .settle _ t now, l => ∃ e, l = some ⟨t, e⟩ ∧ now < e
  | .revoke _, _ => True

def granted (h : History κ τ) : List τ := h.filterMap LeaseEvent.grantedToken

theorem granted_append (h h' : History κ τ) : granted (h ++ h') = granted h ++ granted h' :=
  List.filterMap_append

section Holder

variable [DecidableEq κ]

def advance (k : κ) (l : Option (Lease τ)) (e : LeaseEvent κ τ) : Option (Lease τ) :=
  if e.key = k then e.apply l else l

def holder (h : History κ τ) (k : κ) : Option (Lease τ) := h.foldl (advance k) none

inductive Orderly : History κ τ → Prop
  | nil : Orderly []
  | snoc {h : History κ τ} {e : LeaseEvent κ τ} :
      Orderly h → e.Permitted (holder h e.key) → Orderly (h ++ [e])

variable {h pre post : History κ τ} {e : LeaseEvent κ τ} {k k' : κ} {l : Lease τ} {t : τ}

theorem holder_append (h h' : History κ τ) (k : κ) :
    holder (h ++ h') k = h'.foldl (advance k) (holder h k) := List.foldl_append

theorem holder_snoc (h : History κ τ) (e : LeaseEvent κ τ) (k : κ) :
    holder (h ++ [e]) k = if e.key = k then e.apply (holder h k) else holder h k := by
  rw [holder_append, List.foldl_cons, List.foldl_nil, advance]

theorem orderly_append_cons (ho : Orderly (pre ++ e :: post)) :
    Orderly pre ∧ e.Permitted (holder pre e.key) := by
  induction post using List.reverseRecOn with
  | nil =>
    generalize hh : pre ++ [e] = h at ho
    cases ho with
    | nil => simp at hh
    | snoc ho he =>
      obtain ⟨rfl, hx⟩ := List.append_inj' hh rfl
      cases hx
      exact ⟨ho, he⟩
  | append_singleton post y ih =>
    generalize hh : pre ++ e :: (post ++ [y]) = h at ho
    cases ho with
    | nil => simp at hh
    | snoc ho he =>
      rw [← List.cons_append, ← List.append_assoc] at hh
      obtain ⟨rfl, -⟩ := List.append_inj' hh rfl
      exact ih ho

theorem orderly_revokes {ι : Type*} {f : ι → κ} (ho : Orderly h) (rows : List ι) :
    Orderly (h ++ rows.map fun r => .revoke (f r)) := by
  induction rows generalizing h with
  | nil => simpa only [List.map_nil, List.append_nil] using ho
  | cons r rows ih =>
    rw [List.map_cons, List.append_cons]
    exact ih (ho.snoc trivial)

/-- The token of a lease after an event was granted by the event or held before it. -/
theorem advance_token {l₀ : Option (Lease τ)} (h : advance k l₀ e = some l) :
    (e.key = k ∧ e.grantedToken = some l.token) ∨ ∃ l', l₀ = some l' ∧ l'.token = l.token := by
  unfold advance at h
  by_cases hk : e.key = k
  · rw [if_pos hk] at h
    cases e with
    | grant _ t' x =>
      cases h
      exact .inl ⟨hk, rfl⟩
    | renew _ t' i x =>
      obtain ⟨l', hl', rfl⟩ := Option.map_eq_some_iff.mp h
      exact .inr ⟨l', hl', rfl⟩
    | settle _ t' i => cases h
    | revoke _ => cases h
  · rw [if_neg hk] at h
    exact .inr ⟨l, h, rfl⟩

theorem foldl_advance_token {l₀ : Option (Lease τ)}
    (h : post.foldl (advance k) l₀ = some l) :
    l.token ∈ granted post ∨ ∃ l', l₀ = some l' ∧ l'.token = l.token := by
  induction post using List.reverseRecOn generalizing l with
  | nil => exact .inr ⟨l, h, rfl⟩
  | append_singleton post e ih =>
    rw [List.foldl_append, List.foldl_cons, List.foldl_nil] at h
    rw [granted_append, List.mem_append]
    rcases advance_token h with ⟨-, hg⟩ | ⟨l', hl', ht⟩
    · exact .inl (.inr (List.mem_filterMap.mpr ⟨e, List.mem_singleton_self e, hg⟩))
    · rcases ih hl' with hm | ⟨l'', hl'', ht'⟩
      · exact .inl (.inl (ht ▸ hm))
      · exact .inr ⟨l'', hl'', ht'.trans ht⟩

theorem holder_token_mem (hl : holder h k = some l) : l.token ∈ granted h := by
  rcases foldl_advance_token hl with hm | ⟨l', hl', -⟩
  · exact hm
  · cases hl'

/-- With distinct granted tokens a token holds at most one key. -/
theorem holder_injective (hf : (granted h).Nodup) {l' : Lease τ} (hl : holder h k = some l)
    (hl' : holder h k' = some l') (ht : l.token = l'.token) : k = k' := by
  induction h using List.reverseRecOn generalizing l l' with
  | nil => cases hl
  | append_singleton h e ih =>
    rw [granted_append] at hf
    have hnew : ∀ {t}, e.grantedToken = some t → t ∉ granted h := fun hg hm =>
      (List.disjoint_of_nodup_append hf) hm
        (List.mem_filterMap.mpr ⟨e, List.mem_singleton_self e, hg⟩)
    rw [holder_append] at hl hl'
    rcases advance_token hl with ⟨hk, hg⟩ | ⟨m, hm, hmt⟩ <;>
      rcases advance_token hl' with ⟨hk', hg'⟩ | ⟨m', hm', hmt'⟩
    · exact hk.symm.trans hk'
    · exact absurd (holder_token_mem hm') (hmt'.trans ht.symm ▸ hnew hg)
    · exact absurd (holder_token_mem hm) (hmt.trans ht ▸ hnew hg')
    · exact ih hf.of_append_left hm hm' (hmt.trans (ht.trans hmt'.symm))

/-- A granted token that holds no key holds none later. -/
theorem token_stays_out (hf : (granted (pre ++ post)).Nodup) (ht : t ∈ granted pre)
    (hout : ∀ k l, holder pre k = some l → l.token ≠ t) (k : κ) (l : Lease τ)
    (hl : holder (pre ++ post) k = some l) : l.token ≠ t := by
  rw [holder_append] at hl
  rw [granted_append] at hf
  rintro rfl
  rcases foldl_advance_token hl with hm | ⟨l', hl', he⟩
  · exact (List.disjoint_of_nodup_append hf) ht hm
  · exact hout k l' hl' he

/-- Once the lease of a token is gone from its key, the token is out for good. -/
theorem token_out_of_end (hf : (granted (pre ++ e :: post)).Nodup)
    (hl : holder pre k = some l) (hend : holder (pre ++ [e]) k = none) (k' : κ) (l' : Lease τ)
    (hl' : holder (pre ++ e :: post) k' = some l') : l'.token ≠ l.token := by
  rw [List.append_cons] at hf hl'
  have hmem : l.token ∈ granted (pre ++ [e]) := by
    rw [granted_append]
    exact List.mem_append_left _ (holder_token_mem hl)
  refine token_stays_out hf hmem (fun j m hm ht => ?_) k' l' hl'
  have hfpre : (granted (pre ++ [e])).Nodup := by
    rw [granted_append] at hf
    exact hf.of_append_left
  by_cases hj : j = k
  · subst hj
    rw [hend] at hm
    cases hm
  · rw [holder_append] at hm
    rw [granted_append] at hfpre
    rcases advance_token hm with ⟨-, hg⟩ | ⟨m', hm', hmt⟩
    · exact (List.disjoint_of_nodup_append hfpre) (holder_token_mem hl)
        (List.mem_filterMap.mpr ⟨e, List.mem_singleton_self e, ht ▸ hg⟩)
    · exact hj (holder_injective hfpre.of_append_left hm' hl (hmt.trans ht))

theorem holder_snoc_settle (h : History κ τ) (k : κ) (t : τ) (now : Int) :
    holder (h ++ [.settle k t now]) k = none := by
  rw [holder_snoc]
  exact if_pos rfl

theorem settle_unique {k₁ k₂ : κ} {i₁ i₂ : Int} {mid : History κ τ}
    (ho : Orderly (pre ++ .settle k₁ t i₁ :: mid ++ .settle k₂ t i₂ :: post))
    (hf : (granted (pre ++ .settle k₁ t i₁ :: mid ++ .settle k₂ t i₂ :: post)).Nodup) :
    False := by
  obtain ⟨ho', e₂, hl₂, -⟩ := orderly_append_cons ho
  obtain ⟨-, e₁, hl₁, -⟩ := orderly_append_cons ho'
  rw [granted_append] at hf
  exact token_out_of_end hf.of_append_left hl₁ (holder_snoc_settle _ _ _ _) _ _ hl₂ rfl

def renewedDeadline (k : κ) (d : Int) : LeaseEvent κ τ → Int
  | .renew k' _ _ d' => if k' = k then d' else d
  | _ => d

theorem renewedDeadline_of_ne (hk : e.key ≠ k) (d : Int) : renewedDeadline k d e = d := by
  cases e with
  | renew k' t i d' => exact if_neg hk
  | grant _ _ _ => rfl
  | settle _ _ _ => rfl
  | revoke _ => rfl

/-- The deadline of a lease of `k` granted until `d`, after the renewals in a history. -/
def deadline (k : κ) (d : Int) (h : History κ τ) : Int := h.foldl (renewedDeadline k) d

theorem deadline_snoc (k : κ) (d : Int) (h : History κ τ) (e : LeaseEvent κ τ) :
    deadline k d (h ++ [e]) = renewedDeadline k (deadline k d h) e := by
  rw [deadline, List.foldl_append, List.foldl_cons, List.foldl_nil, deadline]

/-- A lease comes from the last grant of its key: since then the key saw only renewals,
which moved the deadline. -/
def Origin (h : History κ τ) (k : κ) (l : Lease τ) : Prop :=
  ∃ pre d post, h = pre ++ .grant k l.token d :: post ∧
    (∀ x ∈ post, x.key = k → ∃ t i d', x = .renew k t i d') ∧ l.expiresAt = deadline k d post

theorem Origin.snoc {l' : Lease τ} (ho : Origin h k l) (ht : l.token = l'.token)
    (he : e.key = k → ∃ t i d', e = .renew k t i d')
    (hd : l'.expiresAt = renewedDeadline k l.expiresAt e) : Origin (h ++ [e]) k l' := by
  obtain ⟨pre, d, post, rfl, hpost, hdead⟩ := ho
  refine ⟨pre, d, post ++ [e], by rw [ht, List.append_assoc, List.cons_append], ?_, ?_⟩
  · intro x hx hxk
    rcases List.mem_append.mp hx with hx | hx
    · exact hpost x hx hxk
    · rw [List.mem_singleton.mp hx] at hxk ⊢
      exact he hxk
  · rw [deadline_snoc, ← hdead]
    exact hd

theorem holder_origin (hl : holder h k = some l) : Origin h k l := by
  induction h using List.reverseRecOn generalizing l with
  | nil => cases hl
  | append_singleton h e ih =>
    rw [holder_snoc] at hl
    by_cases hk : e.key = k
    · rw [if_pos hk] at hl
      cases e with
      | grant k' t d =>
        cases hl
        cases hk
        exact ⟨h, d, [], rfl, fun _ hx => absurd hx List.not_mem_nil, rfl⟩
      | renew k' t i d =>
        obtain ⟨m, hm, rfl⟩ := Option.map_eq_some_iff.mp hl
        cases hk
        exact (ih hm).snoc rfl (fun _ => ⟨t, i, d, rfl⟩) (if_pos rfl).symm
      | settle k' t i => cases hl
      | revoke k' => cases hl
    · rw [if_neg hk] at hl
      exact (ih hl).snoc rfl (fun he => absurd he hk) (renewedDeadline_of_ne hk _).symm

/-- With distinct granted tokens, a history in which a token holds a key has seen only
renewals of that key since the token was granted. -/
theorem renewals_since_grant {d : Int} (hf : (granted (pre ++ .grant k t d :: post)).Nodup)
    (hl : holder (pre ++ .grant k t d :: post) k' = some l) (ht : l.token = t) :
    k' = k ∧ ∀ x ∈ post, x.key = k → ∃ t i d', x = .renew k t i d' := by
  obtain ⟨pre', d', post', he, hpost, -⟩ := holder_origin hl
  have hnew : ∀ {k d k' d'} {a c : History κ τ}, (granted
      (a ++ .grant k l.token d :: c)).Nodup → .grant k' l.token d' ∉ a ++ c := by
    intro k d k' d' a c hn hm
    have hp : (granted (a ++ .grant k l.token d :: c)).Perm (l.token :: granted (a ++ c)) :=
      (List.perm_middle.filterMap LeaseEvent.grantedToken).trans (List.Perm.refl _)
    have hmem : l.token ∈ granted (a ++ c) := List.mem_filterMap.mpr ⟨_, hm, rfl⟩
    exact (List.nodup_cons.mp (hp.nodup_iff.mp hn)).1 hmem
  subst ht
  rcases List.append_eq_append_iff.mp he with ⟨m, rfl, hm⟩ | ⟨m, rfl, hm⟩
  · cases m with
    | nil =>
      cases hm
      exact ⟨rfl, hpost⟩
    | cons x m =>
      rw [List.cons_append] at hm
      obtain ⟨rfl, rfl⟩ := List.cons.inj hm
      exact absurd (List.mem_append_right _ (List.mem_append_right _ List.mem_cons_self))
        (hnew hf)
  · cases m with
    | nil =>
      cases hm
      exact ⟨rfl, hpost⟩
    | cons x m =>
      rw [List.cons_append] at hm
      obtain ⟨rfl, rfl⟩ := List.cons.inj hm
      rw [List.append_assoc, List.cons_append] at hf
      have hmem : LeaseEvent.grant k l.token d ∈ pre' ++ (m ++ .grant k l.token d :: post) :=
        List.mem_append_right _ (List.mem_append_right _ List.mem_cons_self)
      exact absurd hmem (hnew hf)

end Holder

end DecisionAssurance.Leases
