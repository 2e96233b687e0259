import Mathlib.Order.Defs.LinearOrder
import Mathlib.Data.Int.Cast.Defs
import DecisionAssurance.Tables

/-!
# Login transactions of the pilot pages

`LoginTransactionStore` keeps one transaction for each login that a browser has begun. The times
are those of the clock of the store; a call reads it when it prunes and once more at its end.
-/

namespace DecisionAssurance.Pilot

open Tables

structure LoginTransaction (τ : Type) where
  state : String
  nonce : String
  codeVerifier : String
  returnPath : String
  expiresAt : τ
  browserBindingHash : String
  deriving DecidableEq

/-- What a `LoginTransactionStore` is built with; its constructor checks the limits. -/
structure LoginTransactionStore where
  ttlSeconds : ℤ
  capacity : ℕ
  allowedReturnPaths : List String
  limits : (30 ≤ ttlSeconds ∧ ttlSeconds ≤ 600) ∧ 1 ≤ capacity ∧ capacity ≤ 10000

/-- The random texts of a new transaction. -/
structure LoginTokens where
  state : String
  nonce : String
  codeVerifier : String
  deriving DecidableEq

section Store

variable {τ : Type} [LinearOrder τ] [Add τ] [IntCast τ]
  (store : LoginTransactionStore) (sha256 : String → String)

/-- `_browser_binding_hash` -/
def browserBindingHash (value : String) : Except String String :=
  if value.toList = [] ∨ 256 < value.toList.length then .error "OIDC_BROWSER_BINDING_INVALID"
  else .ok (sha256 value)

/-- `_prune` -/
def prune (now : τ) (values : List (LoginTransaction τ)) : List (LoginTransaction τ) :=
  deleteWhere (fun value => value.expiresAt ≤ now) values

/-- `create`: what it returns, and the transactions then stored. -/
def create (returnPath browserBinding : String) (tokens : LoginTokens) (prunedAt createdAt : τ)
    (values : List (LoginTransaction τ)) :
    Except String (LoginTransaction τ) × List (LoginTransaction τ) :=
  if returnPath ∉ store.allowedReturnPaths then (.error "OIDC_RETURN_PATH_INVALID", values)
  else
    match browserBindingHash sha256 browserBinding with
    | .error e => (.error e, values)
    | .ok bindingHash =>
      let values := prune prunedAt values
      if store.capacity ≤ values.length then (.error "OIDC_LOGIN_CAPACITY_EXCEEDED", values)
      else
        let transaction : LoginTransaction τ :=
          { state := tokens.state
            nonce := tokens.nonce
            codeVerifier := tokens.codeVerifier
            returnPath := returnPath
            expiresAt := createdAt + (store.ttlSeconds : τ)
            browserBindingHash := bindingHash }
        (.ok transaction, upsert LoginTransaction.state transaction values)

/-- `consume` -/
def consume (state browserBinding : String) (prunedAt checkedAt : τ)
    (values : List (LoginTransaction τ)) :
    Except String (LoginTransaction τ) × List (LoginTransaction τ) :=
  if state.toList = [] ∨ 256 < state.toList.length then (.error "OIDC_STATE_INVALID", values)
  else
    match browserBindingHash sha256 browserBinding with
    | .error e => (.error e, values)
    | .ok bindingHash =>
      let values := prune prunedAt values
      match (lookup LoginTransaction.state state values).filter
        (fun transaction => transaction.browserBindingHash = bindingHash) with
      | none => (.error "OIDC_STATE_INVALID", values)
      | some transaction =>
        let values := deleteWhere (fun value => value.state = state) values
        if transaction.expiresAt ≤ checkedAt then (.error "OIDC_STATE_INVALID", values)
        else (.ok transaction, values)

/-- A call, with the readings of the clock it makes. -/
inductive LoginCall (τ : Type) where
  | create (returnPath browserBinding : String) (tokens : LoginTokens) (prunedAt createdAt : τ)
  | consume (state browserBinding : String) (prunedAt checkedAt : τ)

def LoginCall.perform :
    LoginCall τ → List (LoginTransaction τ) →
      Except String (LoginTransaction τ) × List (LoginTransaction τ)
  | .create returnPath browserBinding tokens prunedAt createdAt =>
    Pilot.create store sha256 returnPath browserBinding tokens prunedAt createdAt
  | .consume state browserBinding prunedAt checkedAt =>
    Pilot.consume sha256 state browserBinding prunedAt checkedAt

/-- A call that was made: the transactions stored before it, its outcome, and those stored
afterwards. -/
structure LoginEntry (τ : Type) where
  before : List (LoginTransaction τ)
  call : LoginCall τ
  outcome : Except String (LoginTransaction τ)
  after : List (LoginTransaction τ)

/-- The calls of a store, one after another. -/
def loginLog (values : List (LoginTransaction τ)) : List (LoginCall τ) → List (LoginEntry τ)
  | [] => []
  | call :: calls =>
    let (outcome, after) := call.perform store sha256 values
    ⟨values, call, outcome, after⟩ :: loginLog after calls

/-- The transaction a call created, with the binding of its browser. -/
def LoginEntry.created (e : LoginEntry τ) : Option (LoginTransaction τ × String) :=
  match e.call, e.outcome with
  | .create _ browserBinding _ _ _, .ok transaction => some (transaction, browserBinding)
  | _, _ => none

/-- The transaction a call returned to a browser that gave its state. -/
def LoginEntry.consumed (e : LoginEntry τ) : Option (LoginTransaction τ) :=
  match e.call, e.outcome with
  | .consume _ _ _ _, .ok transaction => some transaction
  | _, _ => none

/-- The entry records what its call did. -/
def LoginEntry.Performed (e : LoginEntry τ) : Prop :=
  e.call.perform store sha256 e.before = (e.outcome, e.after)

end Store

/-! ## What one call does -/

variable {τ : Type} [LinearOrder τ] {store : LoginTransactionStore} {sha256 : String → String}

theorem browserBindingHash_ok {value hash : String}
    (h : browserBindingHash sha256 value = .ok hash) : hash = sha256 value := by
  unfold browserBindingHash at h
  split_ifs at h
  cases h
  rfl

theorem mem_prune {now : τ} {values : List (LoginTransaction τ)}
    {transaction : LoginTransaction τ} :
    transaction ∈ prune now values ↔ transaction ∈ values ∧ now < transaction.expiresAt := by
  rw [prune, mem_deleteWhere, decide_eq_false_iff_not, not_le]

theorem prune_sublist (now : τ) (values : List (LoginTransaction τ)) :
    (prune now values).Sublist values := List.filter_sublist

/-- A call of `consume` prunes; where it finds the state under the binding it also removes it, and
it returns what it removed unless that has expired by then. -/
theorem consume_cases {state browserBinding : String} {prunedAt checkedAt : τ}
    {values after : List (LoginTransaction τ)} {outcome : Except String (LoginTransaction τ)}
    (h : consume sha256 state browserBinding prunedAt checkedAt values = (outcome, after)) :
    (∃ e, outcome = .error e ∧ (after = values ∨ after = prune prunedAt values)) ∨
    ∃ transaction,
      lookup LoginTransaction.state state (prune prunedAt values) = some transaction ∧
      transaction.browserBindingHash = sha256 browserBinding ∧
      after = deleteWhere (fun value => value.state = state) (prune prunedAt values) ∧
      ∀ returned, outcome = .ok returned →
        returned = transaction ∧ checkedAt < transaction.expiresAt := by
  unfold consume at h
  split_ifs at h with hstate
  · cases h
    exact .inl ⟨_, rfl, .inl rfl⟩
  cases hhash : browserBindingHash sha256 browserBinding with
  | error e =>
    rw [hhash] at h
    cases h
    exact .inl ⟨_, rfl, .inl rfl⟩
  | ok bindingHash =>
    rw [hhash] at h
    dsimp only at h
    cases hfound : (lookup LoginTransaction.state state (prune prunedAt values)).filter
        (fun transaction => transaction.browserBindingHash = bindingHash) with
    | none =>
      rw [hfound] at h
      cases h
      exact .inl ⟨_, rfl, .inr rfl⟩
    | some transaction =>
      rw [hfound] at h
      obtain ⟨hlookup, hbinding⟩ := Option.filter_eq_some_iff.mp hfound
      rw [decide_eq_true_eq, browserBindingHash_ok hhash] at hbinding
      refine .inr ⟨transaction, hlookup, hbinding, ?_⟩
      dsimp only at h
      split_ifs at h with hexpired
      · cases h
        exact ⟨rfl, fun returned hok => by cases hok⟩
      · cases h
        refine ⟨rfl, fun returned hok => ?_⟩
        cases hok
        exact ⟨rfl, lt_of_not_ge hexpired⟩

theorem consume_sublist {state browserBinding : String} {prunedAt checkedAt : τ}
    {values after : List (LoginTransaction τ)} {outcome : Except String (LoginTransaction τ)}
    (h : consume sha256 state browserBinding prunedAt checkedAt values = (outcome, after)) :
    after.Sublist values := by
  rcases consume_cases h with ⟨_, _, rfl | rfl⟩ | ⟨_, _, _, rfl, _⟩
  · exact List.Sublist.refl _
  · exact prune_sublist _ _
  · exact List.filter_sublist.trans (prune_sublist _ _)

/-- A transaction that has not expired stays when another binding is given, whatever the state. -/
theorem consume_keeps {state browserBinding : String} {prunedAt checkedAt : τ}
    {values after : List (LoginTransaction τ)} {outcome : Except String (LoginTransaction τ)}
    (h : consume sha256 state browserBinding prunedAt checkedAt values = (outcome, after))
    (hkeyed : Keyed LoginTransaction.state values) {transaction : LoginTransaction τ}
    (hmem : transaction ∈ values)
    (hother : transaction.browserBindingHash ≠ sha256 browserBinding)
    (hlive : prunedAt < transaction.expiresAt) : transaction ∈ after := by
  have hpruned : transaction ∈ prune prunedAt values := mem_prune.mpr ⟨hmem, hlive⟩
  rcases consume_cases h with ⟨_, _, rfl | rfl⟩ | ⟨found, hlookup, hbinding, rfl, _⟩
  · exact hmem
  · exact hpruned
  · rw [mem_deleteWhere, decide_eq_false_iff_not]
    refine ⟨hpruned, fun hstate => ?_⟩
    have hfound := (mem_prune.mp (mem_of_lookup hlookup)).1
    have hsame := hkeyed.eq_of_mem hmem hfound (hstate.trans (key_of_lookup hlookup).symm)
    rw [hsame] at hother
    exact hother hbinding

variable [Add τ] [IntCast τ]

theorem create_cases {returnPath browserBinding : String} {tokens : LoginTokens}
    {prunedAt createdAt : τ} {values after : List (LoginTransaction τ)}
    {outcome : Except String (LoginTransaction τ)}
    (h : create store sha256 returnPath browserBinding tokens prunedAt createdAt values =
      (outcome, after)) :
    (∃ e, outcome = .error e ∧ after.Sublist values) ∨
    ∃ transaction, outcome = .ok transaction ∧
      transaction.browserBindingHash = sha256 browserBinding ∧
      (prune prunedAt values).length < store.capacity ∧
      after = upsert LoginTransaction.state transaction (prune prunedAt values) := by
  unfold create at h
  by_cases hpath : returnPath ∈ store.allowedReturnPaths
  swap
  · rw [if_pos hpath] at h
    cases h
    exact .inl ⟨_, rfl, List.Sublist.refl _⟩
  rw [if_neg (not_not.mpr hpath)] at h
  cases hhash : browserBindingHash sha256 browserBinding with
  | error e =>
    rw [hhash] at h
    cases h
    exact .inl ⟨_, rfl, List.Sublist.refl _⟩
  | ok bindingHash =>
    rw [hhash] at h
    dsimp only at h
    split_ifs at h with hfull
    · cases h
      exact .inl ⟨_, rfl, prune_sublist _ _⟩
    · cases h
      exact .inr ⟨_, rfl, browserBindingHash_ok hhash, Nat.lt_of_not_le hfull, rfl⟩

/-- A call creates a transaction, or returns one that it removes, or does neither. -/
theorem LoginEntry.Performed.cases {e : LoginEntry τ} (h : e.Performed store sha256) :
    (∃ transaction browserBinding kept, e.created = some (transaction, browserBinding) ∧
      e.consumed = none ∧ transaction.browserBindingHash = sha256 browserBinding ∧
      kept.Sublist e.before ∧ kept.length < store.capacity ∧
      e.after = upsert LoginTransaction.state transaction kept) ∨
    (e.created = none ∧ e.after.Sublist e.before ∧ ∀ transaction, e.consumed = some transaction →
      transaction ∈ e.before ∧ ∀ value ∈ e.after, value.state ≠ transaction.state) := by
  obtain ⟨before, call, outcome, after⟩ := e
  cases call with
  | create returnPath browserBinding tokens prunedAt createdAt =>
    rcases create_cases h with ⟨e, houtcome, hsub⟩ | ⟨transaction, houtcome, hhash, hroom, hafter⟩
    · dsimp only at houtcome
      subst houtcome
      exact .inr ⟨rfl, hsub, fun _ hc => by cases hc⟩
    · dsimp only at houtcome
      subst houtcome
      exact .inl ⟨transaction, browserBinding, _, rfl, rfl, hhash, prune_sublist _ _, hroom, hafter⟩
  | consume state browserBinding prunedAt checkedAt =>
    refine .inr ⟨rfl, consume_sublist h, fun transaction hconsumed => ?_⟩
    cases houtcome : outcome with
    | error e => simp [LoginEntry.consumed, houtcome] at hconsumed
    | ok returned =>
      simp only [LoginEntry.consumed, houtcome, Option.some.injEq] at hconsumed
      subst hconsumed
      rcases consume_cases h with ⟨e, he, _⟩ | ⟨found, hlookup, _, hafter, hreturned⟩
      · rw [houtcome] at he
        cases he
      · obtain ⟨rfl, -⟩ := hreturned returned houtcome
        refine ⟨(mem_prune.mp (mem_of_lookup hlookup)).1, fun value hvalue => ?_⟩
        rw [hafter, mem_deleteWhere, decide_eq_false_iff_not] at hvalue
        rw [key_of_lookup hlookup]
        exact hvalue.2

/-! ## Any sequence of calls -/

/-- The entries of calls that were made so far, and the transactions now stored. -/
inductive Made (store : LoginTransactionStore) (sha256 : String → String) :
    List (LoginEntry τ) → List (LoginTransaction τ) → Prop where
  | start : Made store sha256 [] []
  | call {earlier : List (LoginEntry τ)} {e : LoginEntry τ} (h : Made store sha256 earlier e.before)
      (he : e.Performed store sha256) : Made store sha256 (earlier ++ [e]) e.after

theorem made_log {earlier : List (LoginEntry τ)} {values : List (LoginTransaction τ)}
    (h : Made store sha256 earlier values) (calls : List (LoginCall τ)) :
    (∃ after, Made store sha256 (earlier ++ loginLog store sha256 values calls) after) ∧
    ∀ before e later, loginLog store sha256 values calls = before ++ e :: later →
      Made store sha256 (earlier ++ before) e.before ∧ e.Performed store sha256 := by
  induction calls generalizing earlier values with
  | nil => exact ⟨⟨values, by simpa [loginLog] using h⟩, by simp [loginLog]⟩
  | cons call calls ih =>
    rw [loginLog]
    have hfirst : (LoginEntry.mk values call (call.perform store sha256 values).1
        (call.perform store sha256 values).2).Performed store sha256 := rfl
    obtain ⟨hall, hprefix⟩ := ih (.call h hfirst)
    constructor
    · simpa using hall
    · intro before e later hlog
      cases before with
      | nil =>
        obtain ⟨rfl, -⟩ := List.cons.inj hlog
        exact ⟨by simpa using h, hfirst⟩
      | cons first before =>
        obtain ⟨rfl, hrest⟩ := List.cons.inj hlog
        rw [List.append_cons]
        exact hprefix before e later hrest

/-- The states of the transactions created. -/
def createdStates (entries : List (LoginEntry τ)) : List String :=
  (entries.filterMap LoginEntry.created).map fun made => made.1.state

/-- The transaction was created for the binding. -/
def CreatedFor (entries : List (LoginEntry τ)) (transaction : LoginTransaction τ)
    (browserBinding : String) : Prop :=
  ∃ e ∈ entries, e.created = some (transaction, browserBinding)

omit [LinearOrder τ] [Add τ] [IntCast τ] in
theorem createdStates_append (entries more : List (LoginEntry τ)) :
    createdStates (entries ++ more) = createdStates entries ++ createdStates more := by
  simp only [createdStates, List.filterMap_append, List.map_append]

omit [LinearOrder τ] [Add τ] [IntCast τ] in
theorem CreatedFor.state_mem {entries : List (LoginEntry τ)} {transaction : LoginTransaction τ}
    {browserBinding : String} (h : CreatedFor entries transaction browserBinding) :
    transaction.state ∈ createdStates entries := by
  obtain ⟨e, he, hcreated⟩ := h
  exact List.mem_map.mpr ⟨_, List.mem_filterMap.mpr ⟨e, he, hcreated⟩, rfl⟩

omit [LinearOrder τ] [Add τ] [IntCast τ] in
theorem CreatedFor.append {entries : List (LoginEntry τ)} {transaction : LoginTransaction τ}
    {browserBinding : String} (h : CreatedFor entries transaction browserBinding)
    (more : List (LoginEntry τ)) : CreatedFor (entries ++ more) transaction browserBinding := by
  obtain ⟨e, he, hcreated⟩ := h
  exact ⟨e, List.mem_append_left more he, hcreated⟩

/-- What the calls keep: stored transactions have distinct states, were created under the hash of
a binding and fit in; those returned are no longer stored, and none was returned twice. -/
structure Sound (store : LoginTransactionStore) (sha256 : String → String)
    (entries : List (LoginEntry τ)) (values : List (LoginTransaction τ)) : Prop where
  keyed : Keyed LoginTransaction.state values
  made : ∀ transaction ∈ values, ∃ browserBinding, CreatedFor entries transaction browserBinding ∧
    transaction.browserBindingHash = sha256 browserBinding
  room : values.length ≤ store.capacity
  once : ((entries.filterMap LoginEntry.consumed).map LoginTransaction.state).Nodup
  spent : ∀ transaction ∈ entries.filterMap LoginEntry.consumed,
    (∃ browserBinding, CreatedFor entries transaction browserBinding) ∧
      ∀ value ∈ values, value.state ≠ transaction.state

theorem Sound.call {entries : List (LoginEntry τ)} {e : LoginEntry τ}
    (h : Sound store sha256 entries e.before) (he : e.Performed store sha256)
    (hfresh : (createdStates (entries ++ [e])).Nodup) :
    Sound store sha256 (entries ++ [e]) e.after := by
  rcases he.cases with ⟨transaction, browserBinding, kept, hcreated, hconsumed, hhash, hkept, hroom,
    hafter⟩ | ⟨hcreated, hsub, hconsumed⟩
  · -- a new transaction, whose state no earlier one has
    have hnew : transaction.state ∉ createdStates entries := by
      intro hmem
      rw [createdStates_append, List.nodup_append] at hfresh
      exact hfresh.2.2 _ hmem transaction.state (by simp [createdStates, hcreated]) rfl
    have hmine : CreatedFor (entries ++ [e]) transaction browserBinding :=
      ⟨e, by simp, hcreated⟩
    rw [hafter]
    refine ⟨keyed_upsert (h.keyed.sublist (hkept.map _)), ?_, ?_, ?_, ?_⟩
    · intro value hvalue
      rcases mem_upsert hvalue with rfl | hvalue
      · exact ⟨browserBinding, hmine, hhash⟩
      · obtain ⟨b, hb, hbhash⟩ := h.made value (hkept.subset hvalue)
        exact ⟨b, hb.append _, hbhash⟩
    · exact (length_upsert_le _ _).trans hroom
    · simpa [hconsumed] using h.once
    · intro returned hreturned
      rw [List.filterMap_append, List.mem_append] at hreturned
      rcases hreturned with hreturned | hreturned
      · obtain ⟨⟨b, hb⟩, hgone⟩ := h.spent returned hreturned
        refine ⟨⟨b, hb.append _⟩, fun value hvalue => ?_⟩
        rcases mem_upsert hvalue with rfl | hvalue
        · exact fun heq => hnew (heq ▸ hb.state_mem)
        · exact hgone value (hkept.subset hvalue)
      · simp [hconsumed] at hreturned
  · refine ⟨h.keyed.sublist (hsub.map _), ?_, hsub.length_le.trans h.room, ?_, ?_⟩
    · intro value hvalue
      obtain ⟨b, hb, hbhash⟩ := h.made value (hsub.subset hvalue)
      exact ⟨b, hb.append _, hbhash⟩
    · rw [List.filterMap_append, List.map_append]
      cases hreturned : e.consumed with
      | none => simpa [hreturned] using h.once
      | some returned =>
        have hstored := (hconsumed returned hreturned).1
        have hunspent : returned.state ∉
            (entries.filterMap LoginEntry.consumed).map LoginTransaction.state := by
          intro hmem
          obtain ⟨other, hother, hstate⟩ := List.mem_map.mp hmem
          exact (h.spent other hother).2 returned hstored hstate.symm
        apply List.Nodup.append h.once
        · simp [hreturned]
        · simpa [hreturned] using hunspent
    · intro returned hreturned
      rw [List.filterMap_append, List.mem_append] at hreturned
      rcases hreturned with hreturned | hreturned
      · obtain ⟨⟨b, hb⟩, hgone⟩ := h.spent returned hreturned
        exact ⟨⟨b, hb.append _⟩, fun value hvalue => hgone value (hsub.subset hvalue)⟩
      · obtain ⟨hstored, hgone⟩ := hconsumed returned (by simpa using hreturned)
        obtain ⟨b, hb, -⟩ := h.made returned hstored
        exact ⟨⟨b, hb.append _⟩, hgone⟩

theorem Made.sound {entries : List (LoginEntry τ)} {values : List (LoginTransaction τ)}
    (h : Made store sha256 entries values) (hfresh : (createdStates entries).Nodup) :
    Sound store sha256 entries values := by
  induction h with
  | start => exact ⟨List.nodup_nil, by simp, by simp, List.nodup_nil, by simp⟩
  | call _ he ih =>
    apply Sound.call (ih _) he hfresh
    rw [createdStates_append] at hfresh
    exact (List.nodup_append.mp hfresh).1

/-- A transaction carries the hash of the binding it was created for. -/
theorem Made.hashed {entries : List (LoginEntry τ)} {values : List (LoginTransaction τ)}
    (h : Made store sha256 entries values) {transaction : LoginTransaction τ}
    {browserBinding : String} (hcreated : CreatedFor entries transaction browserBinding) :
    transaction.browserBindingHash = sha256 browserBinding := by
  induction h with
  | start => simp [CreatedFor] at hcreated
  | call _ he ih =>
    obtain ⟨e, hmem, hc⟩ := hcreated
    rcases List.mem_append.mp hmem with hmem | hmem
    · exact ih ⟨e, hmem, hc⟩
    · obtain rfl := List.mem_singleton.mp hmem
      rcases he.cases with ⟨_, _, _, hmade, _, hhash, _⟩ | ⟨hnone, _⟩
      · rw [hmade] at hc
        cases hc
        exact hhash
      · rw [hnone] at hc
        cases hc

/-- The readings of the clock, in the order a call makes them. -/
def LoginCall.readings : LoginCall τ → List τ
  | .create _ _ _ prunedAt createdAt => [prunedAt, createdAt]
  | .consume _ _ prunedAt checkedAt => [prunedAt, checkedAt]

/-- Over any calls whose new states are distinct, and whatever the clock shows: no transaction is
returned twice; one is returned to its state and its binding alone, before it expires; another
binding does not remove it before it expires; and no more than the capacity are stored. -/
theorem transactions_single_use (store : LoginTransactionStore) (sha256 : String → String)
    (hsha : Function.Injective sha256) (calls : List (LoginCall τ))
    (hfresh : (createdStates (loginLog store sha256 [] calls)).Nodup) :
    (((loginLog store sha256 [] calls).filterMap LoginEntry.consumed).map
      LoginTransaction.state).Nodup ∧
    ∀ earlier e later, loginLog store sha256 [] calls = earlier ++ e :: later →
      e.before.length ≤ store.capacity ∧ e.after.length ≤ store.capacity ∧
      ∀ state browserBinding prunedAt checkedAt,
        e.call = .consume state browserBinding prunedAt checkedAt →
        (∀ transaction, e.outcome = .ok transaction → transaction.state = state ∧
          CreatedFor earlier transaction browserBinding ∧ prunedAt < transaction.expiresAt ∧
          checkedAt < transaction.expiresAt) ∧
        ∀ transaction binding, CreatedFor earlier transaction binding →
          binding ≠ browserBinding → transaction ∈ e.before →
          prunedAt < transaction.expiresAt → transaction ∈ e.after := by
  have hstart : Made store sha256 ([] : List (LoginEntry τ)) [] := .start
  obtain ⟨⟨values, hall⟩, hprefix⟩ := made_log hstart calls
  refine ⟨(hall.sound hfresh).once, fun earlier e later hlog => ?_⟩
  obtain ⟨hmade, he⟩ := hprefix earlier e later hlog
  have hsofar : (createdStates (earlier ++ [e])).Nodup := by
    rw [hlog, List.append_cons, createdStates_append] at hfresh
    exact (List.nodup_append.mp hfresh).1
  have hbefore : (createdStates earlier).Nodup := by
    rw [createdStates_append] at hsofar
    exact (List.nodup_append.mp hsofar).1
  have hsound : Sound store sha256 earlier e.before := Made.sound hmade hbefore
  refine ⟨hsound.room, (Made.sound (.call hmade he) hsofar).room, ?_⟩
  intro state browserBinding prunedAt checkedAt hcall
  rw [LoginEntry.Performed, hcall] at he
  constructor
  · intro transaction houtcome
    rcases consume_cases he with ⟨_, herror, _⟩ | ⟨found, hlookup, hbinding, _, hreturned⟩
    · rw [houtcome] at herror
      cases herror
    · obtain ⟨rfl, hchecked⟩ := hreturned transaction houtcome
      obtain ⟨hmem, hpruned⟩ := mem_prune.mp (mem_of_lookup hlookup)
      obtain ⟨binding, hcreated, hhash⟩ := hsound.made transaction hmem
      have hsame : binding = browserBinding := hsha (hhash.symm.trans hbinding)
      rw [hsame] at hcreated
      exact ⟨key_of_lookup hlookup, hcreated, hpruned, hchecked⟩
  · intro transaction binding hcreated hother hmem hlive
    apply consume_keeps he hsound.keyed hmem _ hlive
    rw [hmade.hashed hcreated]
    exact fun hsame => hother (hsha hsame)

/-- The store of the defaults. -/
def defaultStore : LoginTransactionStore := ⟨180, 256, ["/", "/cases"], by decide⟩

/-- A login that is taken up in time, and one that another browser asks for after it expired. -/
def twoLogins : List (LoginCall ℤ) :=
  [.create "/" "browser-a" ⟨"state-1", "nonce-1", "verifier-1"⟩ 10 10,
    .create "/cases" "browser-a" ⟨"state-2", "nonce-2", "verifier-2"⟩ 20 20,
    .consume "state-1" "browser-a" 100 100,
    .consume "state-2" "browser-b" 300 300]

/-- A digest that is not its text. -/
def reversedDigest (text : String) : String := String.ofList text.toList.reverse

theorem reversedDigest_injective : Function.Injective reversedDigest := by
  intro a b h
  have hreversed := String.ofList_injective h
  exact String.toList_injective (List.reverse_injective hreversed)

/-- Another browser asks for a login first, and its own browser asks twice. -/
def contestedLogins : List (LoginCall ℤ) :=
  [.create "/" "browser-b" ⟨"state-1", "nonce-1", "verifier-1"⟩ 10 10,
    .create "/cases" "browser-a" ⟨"state-2", "nonce-2", "verifier-2"⟩ 20 20,
    .consume "state-2" "browser-b" 100 100,
    .consume "state-2" "browser-a" 110 110,
    .consume "state-2" "browser-a" 120 120]

def contestedLog : List (LoginEntry ℤ) := loginLog defaultStore reversedDigest [] contestedLogins

/-- The transaction that both browsers ask for. -/
def contestedTransaction : LoginTransaction ℤ :=
  ⟨"state-2", "nonce-2", "verifier-2", "/cases", 200, reversedDigest "browser-a"⟩

/-- The login stays for its own browser, which takes it up once. -/
theorem transactions_single_use_contested : ∃ first second third fourth fifth,
    contestedLog = [first, second, third, fourth, fifth] ∧
      third.call = .consume "state-2" "browser-b" 100 100 ∧
      contestedTransaction ∈ third.after ∧
      fourth.outcome = .ok contestedTransaction ∧
      CreatedFor [first, second, third] contestedTransaction "browser-a" ∧
      110 < contestedTransaction.expiresAt ∧ fifth.after.length ≤ defaultStore.capacity ∧
      ((contestedLog.filterMap LoginEntry.consumed).map LoginTransaction.state).Nodup := by
  obtain ⟨honce, hentries⟩ := transactions_single_use defaultStore reversedDigest
    reversedDigest_injective contestedLogins (by decide)
  have hcreated : CreatedFor (contestedLog.take 2) contestedTransaction "browser-a" := by
    unfold CreatedFor
    decide
  obtain ⟨-, -, hthird⟩ := hentries (contestedLog.take 2) _ _ rfl
  obtain ⟨-, -, hfourth⟩ := hentries (contestedLog.take 3) _ _ rfl
  obtain ⟨-, hroom, -⟩ := hentries (contestedLog.take 4) _ _ rfl
  have hkept := (hthird "state-2" "browser-b" 100 100 rfl).2 contestedTransaction "browser-a"
    hcreated (by decide) (by decide) (by decide)
  obtain ⟨-, hfor, -, hlive⟩ := (hfourth "state-2" "browser-a" 110 110 rfl).1
    contestedTransaction rfl
  exact ⟨_, _, _, _, _, rfl, rfl, hkept, rfl, hfor, hlive, hroom, honce⟩

/-- A call with another binding removes a transaction that has expired. -/
theorem otherBinding_removes_expired :
    (twoLogins.flatMap LoginCall.readings).Pairwise (· ≤ ·) ∧
    (createdStates (loginLog defaultStore id [] twoLogins)).Nodup ∧
    ∃ first second third fourth transaction,
      loginLog defaultStore id [] twoLogins = [first, second, third, fourth] ∧
      second.created = some (transaction, "browser-a") ∧
      fourth.call = .consume "state-2" "browser-b" 300 300 ∧
      transaction ∈ fourth.before ∧ transaction ∉ fourth.after :=
  ⟨by decide, by decide, _, _, _, _, _, rfl, rfl, rfl, by decide, by decide⟩

end DecisionAssurance.Pilot
