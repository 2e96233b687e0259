import DecisionAssurance.Exceptions
import DecisionAssurance.HoldSafety

/-!
# Both lifecycle repositories obey the laws

The dictionaries of the in-memory repository and the tables of the PostgreSQL repository are
two views; each satisfies the laws the safety of the service rests on.
-/

namespace DecisionAssurance.Lifecycle

open Tables Interleaving Runs

theorem persistCheck_some {current : Option DeletionRequest} {r c : DeletionRequest}
    {e : LifecycleEvent} {expected : Option DeletionStatus}
    (h : persistCheck current r e expected = .ok (some c)) : current = some c := by
  unfold persistCheck at h
  cases current with
  | none =>
    dsimp only at h
    split_ifs at h
    cases h
  | some current =>
    cases expected with
    | none =>
      dsimp only at h
      split_ifs at h
      cases h
      rfl
    | some expected =>
      dsimp only at h
      split_ifs at h
      · cases h
        rfl
      · cases h

theorem persistCheck_none {current : Option DeletionRequest} {r : DeletionRequest}
    {e : LifecycleEvent} {expected : Option DeletionStatus}
    (h : persistCheck current r e expected = .ok none) :
    (∀ c, current = some c → expected = some c.status ∧
      e.previousEventHash = some c.eventHash) ∧
      (current = none → expected = none ∧ e.previousEventHash = none) := by
  unfold persistCheck at h
  cases current with
  | none =>
    dsimp only at h
    split_ifs at h with hexp hprev
    refine ⟨nofun, fun _ => ⟨?_, ?_⟩⟩
    · simpa only [Bool.not_eq_true, Option.isSome_eq_false_iff, Option.isNone_iff_eq_none]
        using hexp
    · simpa only [Bool.not_eq_true, Option.isSome_eq_false_iff, Option.isNone_iff_eq_none]
        using hprev
  | some current =>
    refine ⟨fun c hc => ?_, nofun⟩
    cases hc
    cases expected with
    | none =>
      dsimp only at h
      split_ifs at h
      cases h
    | some expected =>
      dsimp only at h
      split_ifs at h with hne hor hprev
      · cases h
      · exact ⟨congrArg some (not_not.mp hne).symm, not_not.mp hprev⟩

theorem completeCheck_inl {current : Option DeletionRequest} {c : DeletionRequest}
    {e : LifecycleEvent} (h : completeCheck current e = .ok (.inl c)) :
    current = some c ∧ c.status = .completed := by
  unfold completeCheck at h
  cases current with
  | none => cases h
  | some current =>
    dsimp only at h
    split at h
    · cases h
      exact ⟨rfl, ‹_›⟩
    · split_ifs at h
      cases h
    · cases h

theorem completeCheck_inr {current : Option DeletionRequest} {d : String} {e : LifecycleEvent}
    (h : completeCheck current e = .ok (.inr d)) : ∃ c, current = some c ∧
      c.status = .executing ∧ c.decisionId = some d ∧ e.previousEventHash = some c.eventHash := by
  unfold completeCheck at h
  cases current with
  | none => cases h
  | some current =>
    dsimp only at h
    split at h
    · cases h
    · rename_i hs hd
      split_ifs at h with hprev
      cases h
      exact ⟨current, rfl, hs, hd, hprev⟩
    · cases h

theorem completeCheck_error {current : Option DeletionRequest} {e : LifecycleEvent}
    {err : LifecycleError} (h : completeCheck current e = .error err) :
    err ≠ .legalHoldActive := by
  unfold completeCheck at h
  cases current with
  | none => cases h; nofun
  | some current =>
    dsimp only at h
    split at h
    · cases h
    · split_ifs at h
      cases h
      nofun
    · cases h
      nofun

/-! ## In memory -/

def memoryView : StoreView MemoryStore (List (String × String)) where
  request := MemoryStore.request
  held s tenantId decisionId := decide ((tenantId, decisionId) ∈ s.holds)
  caseData := MemoryStore.cases
  erase cases tenantId decisionId := cases.filter fun k => k ≠ (tenantId, decisionId)
  log := MemoryStore.events

theorem memory_stores {r : DeletionRequest} {e : LifecycleEvent} {s s' : MemoryStore}
    (hr : s'.requests = upsert DeletionRequest.key r s.requests)
    (he : s'.events = s.events ++ [e]) : Stores memoryView r e s s' := by
  refine ⟨?_, fun k hk => ?_, he⟩
  · change (lookup DeletionRequest.key r.key s'.requests).map _ = _
    rw [hr, lookup_upsert, if_pos rfl]
    rfl
  · change (lookup DeletionRequest.key k s'.requests).map _ = _
    rw [hr, lookup_upsert, if_neg (Ne.symm hk)]
    rfl

theorem memory_laws : Laws inMemory memoryView where
  getRequest _ _ _ := rfl
  request_key s k r h := key_of_lookup h
  persist r e expected s reply s' h := by
    change MemoryStore.persistTransition r e expected s = _ at h
    unfold MemoryStore.persistTransition at h
    cases hc : persistCheck (s.request r.key) r e expected with
    | error err => simp only [hc, reduceCtorEq] at h
    | ok c =>
      cases c with
      | some c =>
        simp only [hc] at h
        cases h
        exact .inl ⟨rfl, c, persistCheck_some hc, rfl⟩
      | none =>
        simp only [hc] at h
        cases h
        exact .inr ⟨rfl, fun c hcur => ((persistCheck_none hc).1 c hcur).1,
          memory_stores rfl rfl, rfl⟩
  complete r e s reply s' h := by
    change MemoryStore.completeDeletion r e s = _ at h
    unfold MemoryStore.completeDeletion at h
    cases hc : completeCheck (s.request r.key) e with
    | error err => simp only [hc, reduceCtorEq] at h
    | ok c =>
      cases c with
      | inl current =>
        simp only [hc] at h
        cases h
        exact .inl rfl
      | inr d =>
        simp only [hc] at h
        split_ifs at h with hheld
        cases h
        obtain ⟨current, hcur, hexec, hd, -⟩ := completeCheck_inr hc
        exact .inr ⟨current, d, hcur, hexec, hd, decide_eq_false hheld, memory_stores rfl rfl,
          rfl⟩
  complete_held r e s h := by
    change MemoryStore.completeDeletion r e s = _ at h
    unfold MemoryStore.completeDeletion at h
    cases hc : completeCheck (s.request r.key) e with
    | error err =>
      simp only [hc, Except.error.injEq] at h
      exact absurd h (completeCheck_error hc)
    | ok c =>
      cases c with
      | inl current => simp only [hc, reduceCtorEq] at h
      | inr d =>
        obtain ⟨current, hcur, hexec, -⟩ := completeCheck_inr hc
        rw [status_of_request (v := memoryView) hcur, hexec]
  setHold tenant d hid a c t e s reply s' h := by
    change MemoryStore.setHold tenant d hid a c t e s = _ at h
    unfold MemoryStore.setHold at h
    split_ifs at h with hheld htip
    · cases h
      exact ⟨fun _ => rfl, rfl, .inl rfl⟩
    · cases h
      exact ⟨fun _ => rfl, rfl, .inr rfl⟩
  releaseHold tenant d a t e s reply s' h := by
    change MemoryStore.releaseHold tenant d a t e s = _ at h
    unfold MemoryStore.releaseHold at h
    split_ifs at h with hheld htip
    · cases h
      exact ⟨fun _ => rfl, rfl, .inr rfl⟩
    · cases h
      exact ⟨fun _ => rfl, rfl, .inl rfl⟩

/-! ## PostgreSQL -/

section Postgres

variable {δ : Type}

theorem appendEvent_cases {e : LifecycleEvent} {s s' : PostgresStore δ}
    (h : s.appendEvent e = .ok s') : s' = { s with events := s.events ++ [e] } := by
  unfold PostgresStore.appendEvent at h
  split_ifs at h
  cases h
  rfl

theorem appendHoldEvent_cases {e : LifecycleEvent} {s s' : PostgresStore δ}
    (h : s.appendHoldEvent e = .ok s') : s' = { s with holdEvents := s.holdEvents ++ [e] } := by
  unfold PostgresStore.appendHoldEvent at h
  split_ifs at h
  cases h
  rfl

theorem insertRequest_cases {r : DeletionRequest} {s s' : PostgresStore δ}
    (h : s.insertRequest r = .ok s') :
    s' = { s with requests := s.requests ++ [PostgresStore.toRow r] } := by
  unfold PostgresStore.insertRequest at h
  split_ifs at h
  cases h
  rfl

variable [CaseTables δ] (isoformat : String → String)

def postgresView : StoreView (PostgresStore δ) δ where
  request := PostgresStore.request isoformat
  held := PostgresStore.held
  caseData := PostgresStore.tables
  erase := CaseTables.eraseCase
  log := PostgresStore.events

theorem postgres_standing (s : PostgresStore δ) (k : RequestKey) :
    (postgresView isoformat).standing s k =
      (lookup RequestRow.key k s.requests).map fun row => (row.status, row.decisionId) := by
  change ((lookup RequestRow.key k s.requests).map (s.read isoformat)).map _ = _
  rw [Option.map_map]
  rfl

/-- The standing of every request after one row was updated. -/
theorem standing_of_update {r : DeletionRequest} {s s' : PostgresStore δ}
    (hr : s'.requests = (s.updateRequest r).requests)
    (hsome : (lookup RequestRow.key r.key s.requests).isSome) (k : RequestKey) :
    (postgresView isoformat).standing s' k =
      if k = r.key then some (r.status, r.decisionId) else (postgresView isoformat).standing s k := by
  have hkey : ∀ row : RequestRow, decide (row.key = r.key) = true →
      (row.setFrom r).key = row.key := fun _ _ => rfl
  rw [postgres_standing, postgres_standing, hr, PostgresStore.updateRequest,
    lookup_updateWhere hkey, Option.map_map]
  cases hl : lookup RequestRow.key k s.requests with
  | none =>
    have hk : k ≠ r.key := by
      rintro rfl
      rw [hl] at hsome
      cases hsome
    rw [if_neg hk]
    rfl
  | some row =>
    have hrow := key_of_lookup hl
    by_cases hk : k = r.key
    · simp only [Option.map_some, Function.comp_apply, hrow, hk, decide_true, if_true,
        RequestRow.setFrom_status, RequestRow.setFrom_decisionId]
    · simp only [Option.map_some, Function.comp_apply, hrow, hk, decide_false, if_false,
        Bool.false_eq_true]

theorem standing_of_insert {r : DeletionRequest} {s s' : PostgresStore δ}
    (hr : s'.requests = s.requests ++ [PostgresStore.toRow r])
    (hnone : lookup RequestRow.key r.key s.requests = none) (k : RequestKey) :
    (postgresView isoformat).standing s' k =
      if k = r.key then some (r.status, r.decisionId) else (postgresView isoformat).standing s k := by
  have hkey : (PostgresStore.toRow r).key = r.key := rfl
  rw [postgres_standing, postgres_standing, hr]
  by_cases hk : k = r.key
  · rw [if_pos hk, hk, ← hkey, lookup_append_self (hkey ▸ hnone)]
    rfl
  · rw [if_neg hk, lookup_append_of_ne (hkey ▸ Ne.symm hk)]

theorem writeRequest_cases {r : DeletionRequest} {s s' : PostgresStore δ}
    (h : s.writeRequest isoformat r = .ok s') : s'.tables = s.tables ∧ s'.events = s.events ∧
      ∀ k, (postgresView isoformat).standing s' k =
        if k = r.key then some (r.status, r.decisionId) else (postgresView isoformat).standing s k := by
  have hsome : (s.request isoformat r.key).isSome =
      (lookup RequestRow.key r.key s.requests).isSome := Option.isSome_map
  unfold PostgresStore.writeRequest at h
  rw [hsome] at h
  split_ifs at h with hstored
  · cases h
    exact ⟨rfl, rfl, standing_of_update isoformat rfl hstored⟩
  · have hs' := insertRequest_cases h
    subst hs'
    rw [Bool.not_eq_true, Option.isSome_eq_false_iff, Option.isNone_iff_eq_none] at hstored
    exact ⟨rfl, rfl, standing_of_insert isoformat rfl hstored⟩

theorem stores_of_standing {r : DeletionRequest} {e : LifecycleEvent} {s s' : PostgresStore δ}
    (hs : ∀ k, (postgresView isoformat).standing s' k =
      if k = r.key then some (r.status, r.decisionId) else (postgresView isoformat).standing s k)
    (he : s'.events = s.events ++ [e]) : Stores (postgresView isoformat) r e s s' :=
  ⟨by rw [hs, if_pos rfl], fun k hk => by rw [hs, if_neg hk], he⟩

theorem deleteCaseData_cases {t d : String} {s s' : PostgresStore δ}
    (h : s.deleteCaseData t d = .ok s') : s.held t d = false ∧
      CaseTables.hasCase s.tables t d = true ∧ s' = { s with
        tables := CaseTables.eraseCase s.tables t d
        holds := deleteWhere (fun h => h.tenantId = t && h.decisionId = d) s.holds } := by
  unfold PostgresStore.deleteCaseData at h
  split_ifs at h with hheld hcase
  cases h
  simp only [Bool.not_eq_true, Bool.not_eq_true'] at hheld hcase
  exact ⟨hheld, by simpa only [Bool.not_eq_false] using hcase, rfl⟩

theorem postgres_laws : Laws (postgres isoformat δ) (postgresView isoformat) where
  getRequest _ _ _ := rfl
  request_key s k r h := by
    obtain ⟨row, hl, rfl⟩ := Option.map_eq_some_iff.mp h
    have hkey : row.key = k := key_of_lookup hl
    exact hkey
  persist r e expected s reply s' h := by
    change PostgresStore.persistTransition isoformat r e expected s = _ at h
    unfold PostgresStore.persistTransition at h
    cases hc : persistCheck (s.request isoformat r.key) r e expected with
    | error err => simp only [hc, reduceCtorEq] at h
    | ok c =>
      cases c with
      | some c =>
        simp only [hc] at h
        cases h
        exact .inl ⟨rfl, c, persistCheck_some hc, rfl⟩
      | none =>
        simp only [hc] at h
        obtain ⟨s₁, hs₁, h⟩ := bind_ok_cases h
        obtain ⟨s₂, hs₂, h⟩ := bind_ok_cases h
        cases h
        obtain ⟨htables, hevents, hstanding⟩ := writeRequest_cases isoformat hs₁
        have hev := appendEvent_cases hs₂
        subst hev
        refine .inr ⟨rfl, fun c hcur => ((persistCheck_none hc).1 c hcur).1, ?_, htables⟩
        refine stores_of_standing isoformat (fun k => ?_) (congrArg (· ++ [e]) hevents)
        rw [← hstanding, postgres_standing, postgres_standing]
  complete r e s reply s' h := by
    change PostgresStore.completeDeletion isoformat r e s = _ at h
    unfold PostgresStore.completeDeletion at h
    cases hc : completeCheck (s.request isoformat r.key) e with
    | error err => simp only [hc, reduceCtorEq] at h
    | ok c =>
      cases c with
      | inl current =>
        simp only [hc] at h
        cases h
        exact .inl rfl
      | inr d =>
        simp only [hc] at h
        obtain ⟨s₁, hs₁, h⟩ := bind_ok_cases h
        obtain ⟨s₂, hs₂, h⟩ := bind_ok_cases h
        cases h
        obtain ⟨hheld, -, rfl⟩ := deleteCaseData_cases hs₁
        have hev := appendEvent_cases hs₂
        subst hev
        obtain ⟨current, hcur, hexec, hd, -⟩ := completeCheck_inr hc
        have hsome : (lookup RequestRow.key r.key s.requests).isSome := by
          obtain ⟨row, hrow, -⟩ := Option.map_eq_some_iff.mp hcur
          rw [hrow]
          rfl
        exact .inr ⟨current, d, hcur, hexec, hd, hheld,
          stores_of_standing isoformat (standing_of_update isoformat rfl hsome) rfl, rfl⟩
  complete_held r e s h := by
    change PostgresStore.completeDeletion isoformat r e s = _ at h
    unfold PostgresStore.completeDeletion at h
    cases hc : completeCheck (s.request isoformat r.key) e with
    | error err =>
      simp only [hc, Except.error.injEq] at h
      exact absurd h (completeCheck_error hc)
    | ok c =>
      cases c with
      | inl current => simp only [hc, reduceCtorEq] at h
      | inr d =>
        obtain ⟨current, hcur, hexec, -⟩ := completeCheck_inr hc
        rw [status_of_request (v := postgresView isoformat) hcur, hexec]
  setHold tenant d hid a c t e s reply s' h := by
    change PostgresStore.setHold tenant d hid a c t e s = _ at h
    unfold PostgresStore.setHold at h
    dsimp only at h
    split_ifs at h with hheld htip hfk
    · cases h
      exact ⟨fun _ => rfl, rfl, .inl rfl⟩
    · obtain ⟨s₁, hs₁, h⟩ := bind_ok_cases h
      cases h
      have hev := appendHoldEvent_cases hs₁
      subst hev
      exact ⟨fun _ => rfl, rfl, .inl rfl⟩
  releaseHold tenant d a t e s reply s' h := by
    change PostgresStore.releaseHold tenant d a t e s = _ at h
    unfold PostgresStore.releaseHold at h
    split_ifs at h with hheld htip
    · cases h
      exact ⟨fun _ => rfl, rfl, .inl rfl⟩
    · obtain ⟨s₁, hs₁, h⟩ := bind_ok_cases h
      cases h
      have hev := appendHoldEvent_cases hs₁
      subst hev
      exact ⟨fun _ => rfl, rfl, .inl rfl⟩

end Postgres

end DecisionAssurance.Lifecycle
