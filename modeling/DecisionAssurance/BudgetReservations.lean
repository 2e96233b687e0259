import DecisionAssurance.WovenRuns
import DecisionAssurance.RunBudgets
import DecisionAssurance.Tickets

/-!
# Reserving budget under interleaving

Any number of calls reserve units of the budget of one run, interleaved statement by statement.
The PostgreSQL repository tests and increments the units in one `UPDATE`; the SQLite repository
reads them and writes them back in two statements. The units that calls return are tickets: they
are drawn in order as long as every `UPDATE` finds the units as its `SELECT` read them.
-/

namespace DecisionAssurance.Research

open Interleaving Runs Tables Tickets
open Jobs (JobDatabase BudgetRow)

/-- The statements of a `reserve_budget` call; an `UPDATE` replies with the units it returns. -/
abbrev BudgetCall := Proc JobDatabase Unit ResearchException (Option ℕ) ℕ

variable (tenant : TenantContext) (runId : String) (limit : ℕ)

def updateUnits (f : ℕ → ℕ) (db : JobDatabase) : JobDatabase :=
  { db with
    budgets := updateWhere (fun b => b.tenantId = tenant.tenantId && b.researchRunId = runId)
      (fun b => { b with usedUnits := f b.usedUnits }) db.budgets }

def selectBudget (db : JobDatabase) : Option BudgetRow :=
  lookup budgetKey (tenant.tenantId, runId) db.budgets

namespace SqliteResearchRepository

/-- The call when the units it read allow one more: the `UPDATE`, committed, and the return. -/
def granting (used : ℕ) : BudgetCall := do
  let _ ← Proc.commit fun db => .ok (none, updateUnits tenant runId (fun _ => used) db)
  return used

def reserveBudget : BudgetCall := do
  match ← Proc.get (selectBudget tenant runId) with
  | none => Proc.raise (.keyError "RESEARCH_RUN_NOT_FOUND")
  | some row =>
    let used := row.usedUnits
    if limit ≤ used then Proc.raise (.valueError "BUDGET_EXCEEDED")
    else granting tenant runId (used + 1)

end SqliteResearchRepository

namespace PostgresResearchRepository

/-- `UPDATE … WHERE used_units < limit RETURNING used_units` -/
def takeUnit (db : JobDatabase) : Raises (Option ℕ × JobDatabase) :=
  match selectBudget tenant runId db with
  | none => .ok (none, db)
  | some row =>
    if row.usedUnits < limit then
      .ok (some (row.usedUnits + 1), updateUnits tenant runId (· + 1) db)
    else .ok (none, db)

/-- The call when the `UPDATE` returned no row. -/
def refusing : BudgetCall := do
  match ← Proc.get (selectBudget tenant runId) with
  | none => Proc.raise (.keyError "RESEARCH_RUN_NOT_FOUND")
  | some _ => Proc.raise (.valueError "BUDGET_EXCEEDED")

def reserving : BudgetCall :=
  if limit < 1 then Proc.raise (.valueError "BUDGET_EXCEEDED")
  else do
    match ← Proc.commit (takeUnit tenant runId limit) with
    | some used => return used
    | none => refusing tenant runId

end PostgresResearchRepository

/-! ## Units -/

section Units

variable {tenant runId limit} {db : JobDatabase}

theorem selectBudget_updateUnits (tenant : TenantContext) (runId : String) (db : JobDatabase)
    (f : ℕ → ℕ) :
    selectBudget tenant runId (updateUnits tenant runId f db) =
      (selectBudget tenant runId db).map fun row => { row with usedUnits := f row.usedUnits } := by
  unfold selectBudget updateUnits
  dsimp only
  rw [lookup_updateWhere]
  · cases hrow : lookup budgetKey (tenant.tenantId, runId) db.budgets with
    | none => rfl
    | some row =>
      have hkey := key_of_lookup hrow
      obtain ⟨htenant, hid⟩ := Prod.mk.inj hkey
      simp [htenant, hid]
  · intro row _
    rfl

theorem usedUnits_of_selectBudget {row : BudgetRow} (hrow : selectBudget tenant runId db = some row) :
    usedUnits db (tenant.tenantId, runId) = row.usedUnits := by
  unfold selectBudget at hrow
  rw [usedUnits, hrow]
  rfl

theorem usedUnits_updateUnits (f : ℕ → ℕ) (hrow : (selectBudget tenant runId db).isSome) :
    usedUnits (updateUnits tenant runId f db) (tenant.tenantId, runId) =
      f (usedUnits db (tenant.tenantId, runId)) := by
  obtain ⟨row, hrow⟩ := Option.isSome_iff_exists.mp hrow
  have hupdated := selectBudget_updateUnits tenant runId db f
  rw [hrow, Option.map_some] at hupdated
  rw [usedUnits_of_selectBudget hrow, usedUnits_of_selectBudget hupdated]

end Units

/-! ## Granted reservations -/

abbrev BudgetSystem := System JobDatabase Unit ResearchException (Option ℕ) ℕ

abbrev BudgetTrace := SystemTrace JobDatabase Unit ResearchException (Option ℕ) ℕ

/-- At most `limit` calls return, with different numbers; when no call is under way, these are
`1` to the number of calls that returned. -/
structure Granted (limit : ℕ) (tr : BudgetTrace) (sys : BudgetSystem) : Prop where
  within : (returned tr).length ≤ limit
  distinct : (returned tr).Nodup
  consecutive : (∀ c, sys.procs c = none) →
    (returned tr).Perm (List.range' 1 (returned tr).length)

def budgetDesk (tr : BudgetTrace) (sys : BudgetSystem) : Desk ℕ :=
  deskOf (fun db => usedUnits db (tenant.tenantId, runId)) tr sys

section Calls

variable {tenant runId limit} {db : JobDatabase} {tr : BudgetTrace} {sys sys' : BudgetSystem}
  {a : Action JobDatabase Unit ResearchException (Option ℕ) ℕ} {p : BudgetCall}

theorem budgetDesk_idle (hidle : ∀ c, sys.procs c = none) (c : ℕ) :
    (budgetDesk tenant runId tr sys).held c = none := by
  change ticket (sys.procs c) = none
  rw [hidle]
  rfl

theorem granted_of_sound (h : Tickets.Sound limit (budgetDesk tenant runId tr sys)) :
    Granted limit tr sys :=
  ⟨h.length_le, h.nodup, fun hidle => h.perm (budgetDesk_idle hidle)⟩

theorem sound_unused (hunused : usedUnits db (tenant.tenantId, runId) = 0) :
    Tickets.Sound limit (budgetDesk tenant runId [] (System.idle db)) := by
  unfold budgetDesk deskOf
  dsimp only [System.idle_shared]
  rw [hunused]
  exact sound_empty fun _ => rfl

/-! ## The calls of the PostgreSQL repository -/

open PostgresResearchRepository in
theorem takeUnit_cases (tenant : TenantContext) (runId : String) (limit : ℕ) (db : JobDatabase) :
    takeUnit tenant runId limit db = .ok (none, db) ∨
    ∃ used db', takeUnit tenant runId limit db = .ok (some used, db') ∧
      InOrder limit (usedUnits db (tenant.tenantId, runId)) used
        (usedUnits db' (tenant.tenantId, runId)) := by
  unfold takeUnit
  cases hrow : selectBudget tenant runId db with
  | none => exact .inl rfl
  | some row =>
    by_cases hused : row.usedUnits < limit
    · refine .inr ⟨row.usedUnits + 1, updateUnits tenant runId (· + 1) db, if_pos hused, ?_⟩
      rw [usedUnits_updateUnits _ (by rw [hrow]; rfl), usedUnits_of_selectBudget hrow]
      exact ⟨hused, rfl, rfl⟩
    · exact .inl (if_neg hused)

/-- Where a call of the PostgreSQL repository is. -/
inductive Reserving (tenant : TenantContext) (runId : String) (limit : ℕ) : BudgetCall → Prop
  | taking : Reserving tenant runId limit (PostgresResearchRepository.reserving tenant runId limit)
  | refusing : Reserving tenant runId limit (PostgresResearchRepository.refusing tenant runId)
  | ended (r : Except ResearchException ℕ) : Reserving tenant runId limit (.done r)

open PostgresResearchRepository in
theorem advance_reserving (hlimit : ¬ limit < 1) {r : Option ℕ} {db' : JobDatabase}
    (htake : takeUnit tenant runId limit db = .ok (r, db')) :
    (reserving tenant runId limit).advance () db = (db', some (match r with
      | some used => .done (.ok used)
      | none => refusing tenant runId)) := by
  unfold reserving
  rw [if_neg hlimit]
  change Proc.advance () db (.write (takeUnit tenant runId limit) _) = _
  simp only [Proc.advance, htake]
  cases r <;> rfl

open PostgresResearchRepository in
theorem advance_refusing (tenant : TenantContext) (runId : String) (db : JobDatabase) : ∃ e,
    (refusing tenant runId).advance () db = (db, some (.done (.error e))) := by
  cases hrow : selectBudget tenant runId db with
  | none =>
    refine ⟨.keyError "RESEARCH_RUN_NOT_FOUND", ?_⟩
    change (db, some _) = _
    simp only [hrow]
    rfl
  | some row =>
    refine ⟨.valueError "BUDGET_EXCEEDED", ?_⟩
    change (db, some _) = _
    simp only [hrow]
    rfl

/-- A statement of a call leaves the units as they are or takes the next one. -/
theorem Reserving.advance (h : Reserving tenant runId limit p) (hp : ∀ r, p ≠ .done r)
    (db : JobDatabase) : (∃ p', (p.advance () db).2 = some p' ∧ Reserving tenant runId limit p') ∧
      match ticket (p.advance () db).2 with
      | none => usedUnits (p.advance () db).1 (tenant.tenantId, runId) =
          usedUnits db (tenant.tenantId, runId)
      | some v => InOrder limit (usedUnits db (tenant.tenantId, runId)) v
          (usedUnits (p.advance () db).1 (tenant.tenantId, runId)) := by
  cases h with
  | taking =>
    have hlimit : ¬ limit < 1 := by
      intro hlimit
      refine hp (.error (.valueError "BUDGET_EXCEEDED")) ?_
      rw [PostgresResearchRepository.reserving, if_pos hlimit]
      rfl
    rcases takeUnit_cases tenant runId limit db with
      htake | ⟨used, db', htake, hdrawn⟩
    · rw [advance_reserving hlimit htake]
      exact ⟨⟨_, rfl, .refusing⟩, rfl⟩
    · rw [advance_reserving hlimit htake]
      exact ⟨⟨_, rfl, .ended _⟩, hdrawn⟩
  | refusing =>
    obtain ⟨e, hadvance⟩ := advance_refusing tenant runId db
    rw [hadvance]
    exact ⟨⟨_, rfl, .ended _⟩, rfl⟩
  | ended r => exact absurd rfl (hp r)

theorem reserving_places (hstep : SystemStep
      (· = PostgresResearchRepository.reserving tenant runId limit) sys a sys')
    (h : Everywhere (fun _ => Reserving tenant runId limit) sys) :
    Everywhere (fun _ => Reserving tenant runId limit) sys' := by
  refine everywhere_step ?_ (fun db p t h => ⟨fun p' hp' => ?_, ?_⟩) h hstep
  · rintro _ p rfl
    exact .taking
  · by_cases hp : ∀ r, p ≠ .done r
    · obtain ⟨⟨p'', hp'', hplace⟩, -⟩ := h.advance hp db
      rw [hp''] at hp'
      cases hp'
      exact hplace
    · push Not at hp
      obtain ⟨r, rfl⟩ := hp
      cases hp'
  · exact fun _ hp' => hp'

theorem reserving_desk (hstep : SystemStep
      (· = PostgresResearchRepository.reserving tenant runId limit) sys a sys')
    (h : Everywhere (fun _ => Reserving tenant runId limit) sys) :
    Tickets.Step (InOrder limit) (budgetDesk tenant runId tr sys)
      (budgetDesk tenant runId (tr ++ [⟨sys, a, sys'⟩]) sys') := by
  refine deskOf_step (fun p hp => ?_) (fun c t p _ hc hp => ?_) hstep
  · subst hp
    unfold PostgresResearchRepository.reserving
    split_ifs <;> rfl
  · exact ((h c p hc).advance hp sys.shared).2

/-- The calls of the PostgreSQL repository draw their units in order. -/
theorem postgres_granted (hunused : usedUnits db (tenant.tenantId, runId) = 0)
    (hr : Run (SystemStep (· = PostgresResearchRepository.reserving tenant runId limit))
      (System.idle db) tr sys) : Granted limit tr sys := by
  suffices hinv : Everywhere (fun _ => Reserving tenant runId limit) sys ∧
      Tickets.Sound limit (budgetDesk tenant runId tr sys) from granted_of_sound hinv.2
  refine hr.invariant (fun tr sys => Everywhere (fun _ => Reserving tenant runId limit) sys ∧
    Tickets.Sound limit (budgetDesk tenant runId tr sys)) ?_ ?_
  · exact ⟨everywhere_idle _ _, sound_unused hunused⟩
  · rintro tr t a u - ⟨hplaces, hsound⟩ hstep
    exact ⟨reserving_places hstep hplaces, hsound.step (reserving_desk hstep hplaces)⟩

/-! ## The calls of the SQLite repository -/

open SqliteResearchRepository

/-- Where a call of the SQLite repository is. -/
inductive Reading (tenant : TenantContext) (runId : String) (limit : ℕ) (db : JobDatabase) :
    BudgetCall → Prop
  | reading : Reading tenant runId limit db (reserveBudget tenant runId limit)
  | granting (used : ℕ) (pos : 1 ≤ used) (within : used ≤ limit)
      (found : (selectBudget tenant runId db).isSome) :
      Reading tenant runId limit db (granting tenant runId used)
  | ended (r : Except ResearchException ℕ) : Reading tenant runId limit db (.done r)

theorem advance_granting (tenant : TenantContext) (runId : String) (db : JobDatabase) (used : ℕ) :
    (granting tenant runId used).advance () db =
    (updateUnits tenant runId (fun _ => used) db, some (.done (.ok used))) := rfl

theorem granting_inj {used used' : ℕ}
    (h : granting tenant runId used = granting tenant runId used') : used = used' := by
  have hadvance := advance_granting tenant runId ⟨[], [], [], [], []⟩ used
  rw [h, advance_granting] at hadvance
  cases hadvance
  rfl

theorem advance_reading (tenant : TenantContext) (runId : String) (limit : ℕ) (db : JobDatabase) :
    (∃ e, (reserveBudget tenant runId limit).advance () db =
      (db, some (.done (.error e)))) ∨
    (usedUnits db (tenant.tenantId, runId) < limit ∧ (selectBudget tenant runId db).isSome ∧
      (reserveBudget tenant runId limit).advance () db =
        (db, some (granting tenant runId (usedUnits db (tenant.tenantId, runId) + 1)))) := by
  unfold reserveBudget
  cases hrow : selectBudget tenant runId db with
  | none =>
    refine .inl ⟨.keyError "RESEARCH_RUN_NOT_FOUND", ?_⟩
    change (db, some _) = _
    simp only [hrow]
    rfl
  | some row =>
    by_cases hused : limit ≤ row.usedUnits
    · refine .inl ⟨.valueError "BUDGET_EXCEEDED", ?_⟩
      change (db, some _) = _
      simp only [hrow]
      change (db, some (if limit ≤ row.usedUnits then _ else _)) = _
      rw [if_pos hused]
      rfl
    · refine .inr ⟨?_, rfl, ?_⟩
      · rw [usedUnits_of_selectBudget hrow]
        exact Nat.lt_of_not_le hused
      · change (db, some _) = _
        simp only [hrow]
        change (db, some (if limit ≤ row.usedUnits then _ else _)) = _
        rw [if_neg hused, usedUnits_of_selectBudget hrow]

theorem selectBudget_updateUnits_isSome {f : ℕ → ℕ} (h : (selectBudget tenant runId db).isSome) :
    (selectBudget tenant runId (updateUnits tenant runId f db)).isSome := by
  rw [selectBudget_updateUnits, Option.isSome_map]
  exact h

theorem reading_places (hstep : SystemStep (· = reserveBudget tenant runId limit) sys a sys')
    (h : Everywhere (Reading tenant runId limit) sys) :
    Everywhere (Reading tenant runId limit) sys' := by
  refine everywhere_step ?_ (fun db p t h => ?_) h hstep
  · rintro _ p rfl
    exact .reading
  · cases h with
    | reading =>
      rcases advance_reading tenant runId limit db with
        ⟨e, hadvance⟩ | ⟨hused, hfound, hadvance⟩
      · rw [hadvance]
        refine ⟨fun p' hp' => ?_, fun _ hp' => hp'⟩
        cases hp'
        exact .ended _
      · rw [hadvance]
        refine ⟨fun p' hp' => ?_, fun _ hp' => hp'⟩
        cases hp'
        exact .granting _ (Nat.le_add_left _ _) hused hfound
    | granting used pos within found =>
      rw [advance_granting]
      refine ⟨fun p' hp' => ?_, fun p' hp' => ?_⟩
      · cases hp'
        exact .ended _
      · cases hp' with
        | reading => exact .reading
        | granting used' pos' within' _ =>
          exact .granting used' pos' within' (selectBudget_updateUnits_isSome found)
        | ended r => exact .ended r
    | ended r => exact ⟨nofun, fun _ hp' => hp'⟩

/-- An `UPDATE` of the transition finds the units as the `SELECT` of its call read them. -/
def FindsAsRead (tenant : TenantContext) (runId : String)
    (x : Transition BudgetSystem (Action JobDatabase Unit ResearchException (Option ℕ) ℕ)) : Prop :=
  ∀ c t used, x.label = .advance c t → x.before.procs c = some (granting tenant runId used) →
    usedUnits x.before.shared (tenant.tenantId, runId) + 1 = used

/-- Every `UPDATE` finds the units as the `SELECT` of its call read them. -/
def Undisturbed (tenant : TenantContext) (runId : String) (tr : BudgetTrace) : Prop :=
  ∀ x ∈ tr, FindsAsRead tenant runId x

/-- The statements other than an `UPDATE` leave the units; an `UPDATE` draws what it writes. -/
theorem reading_desk {draws : ℕ → ℕ → ℕ → Prop}
    (hstep : SystemStep (· = reserveBudget tenant runId limit) sys a sys')
    (h : Everywhere (Reading tenant runId limit) sys)
    (hdraws : ∀ c t used, a = .advance c t → sys.procs c = some (granting tenant runId used) →
      used ≤ limit → draws (usedUnits sys.shared (tenant.tenantId, runId)) used used) :
    Tickets.Step draws (budgetDesk tenant runId tr sys)
      (budgetDesk tenant runId (tr ++ [⟨sys, a, sys'⟩]) sys') := by
  refine deskOf_step (fun p hp => ?_) (fun c t p ha hc hp => ?_) hstep
  · subst hp
    rfl
  · cases h c p hc with
    | reading =>
      rcases advance_reading tenant runId limit sys.shared with ⟨e, hadvance⟩ | ⟨-, -, hadvance⟩
      · rw [hadvance]
        rfl
      · rw [hadvance]
        rfl
    | granting used pos within found =>
      rw [advance_granting]
      change draws _ used (usedUnits (updateUnits tenant runId (fun _ => used) sys.shared) _)
      rw [usedUnits_updateUnits _ found]
      exact hdraws c t used ha hc within
    | ended r => exact absurd rfl (hp r)

/-- An `UPDATE` that finds the units as they were read takes the next one. -/
theorem undisturbed_desk (hstep : SystemStep (· = reserveBudget tenant runId limit) sys a sys')
    (h : Everywhere (Reading tenant runId limit) sys)
    (hfinds : FindsAsRead tenant runId ⟨sys, a, sys'⟩) :
    Tickets.Step (InOrder limit) (budgetDesk tenant runId tr sys)
      (budgetDesk tenant runId (tr ++ [⟨sys, a, sys'⟩]) sys') := by
  apply reading_desk hstep h
  intro c t used ha hc hwithin
  have hread : usedUnits sys.shared (tenant.tenantId, runId) + 1 = used := hfinds c t used ha hc
  exact ⟨by omega, hread.symm, hread.symm⟩

/-- No call is about to write more than the next unit. -/
def Behind (tenant : TenantContext) (runId : String) (sys : BudgetSystem) : Prop :=
  ∀ c used, sys.procs c = some (granting tenant runId used) →
    used ≤ usedUnits sys.shared (tenant.tenantId, runId) + 1

theorem Reading.granting_cases {used : ℕ}
    (h : Reading tenant runId limit db (SqliteResearchRepository.granting tenant runId used)) :
    1 ≤ used ∧ (selectBudget tenant runId db).isSome := by
  generalize hp : SqliteResearchRepository.granting tenant runId used = p at h
  cases h with
  | reading => cases hp
  | granting used' pos within found =>
    rw [granting_inj hp]
    exact ⟨pos, found⟩
  | ended r => cases hp

theorem behind_step (hstep : SystemStep (· = reserveBudget tenant runId limit) sys a sys')
    (hplaces : Everywhere (Reading tenant runId limit) sys) (h : Behind tenant runId sys)
    (hfinds : FindsAsRead tenant runId ⟨sys, a, sys'⟩) : Behind tenant runId sys' := by
  intro c' used' hc'
  cases a with
  | spawn c p =>
    obtain ⟨-, rfl, rfl⟩ := hstep
    by_cases hc : c' = c
    · subst hc
      simp only [Function.update_self] at hc'
      cases hc'
    · simp only [Function.update_of_ne hc] at hc'
      exact h c' used' hc'
  | advance c t =>
    obtain ⟨p, hp, rfl⟩ := hstep
    cases hplaces c p hp with
    | reading =>
      rcases advance_reading tenant runId limit sys.shared with ⟨e, hadvance⟩ | ⟨hused, -, hadvance⟩
      · simp only [hadvance] at hc' ⊢
        by_cases hc : c' = c
        · subst hc
          simp only [Function.update_self] at hc'
          cases hc'
        · simp only [Function.update_of_ne hc] at hc'
          exact h c' used' hc'
      · simp only [hadvance] at hc' ⊢
        by_cases hc : c' = c
        · subst hc
          simp only [Function.update_self, Option.some.injEq] at hc'
          rw [granting_inj hc']
        · simp only [Function.update_of_ne hc] at hc'
          exact h c' used' hc'
    | granting used pos within found =>
      have hread := hfinds c t used rfl hp
      change used' ≤ usedUnits (updateUnits tenant runId (fun _ => used) sys.shared) _ + 1
      rw [usedUnits_updateUnits _ found]
      dsimp only at hread
      by_cases hc : c' = c
      · subst hc
        simp only [Function.update_self] at hc'
        cases hc'
      · simp only [Function.update_of_ne hc] at hc'
        have hbefore := h c' used' hc'
        omega
    | ended r =>
      by_cases hc : c' = c
      · subst hc
        simp only [Proc.advance, Function.update_self, reduceCtorEq] at hc'
      · simp only [Proc.advance, Function.update_of_ne hc] at hc' ⊢
        exact h c' used' hc'

/-- An `UPDATE` that does not find the units as they were read writes a number for the second time. -/
theorem disturbed_twice (hstep : SystemStep (· = reserveBudget tenant runId limit) sys a sys')
    (hplaces : Everywhere (Reading tenant runId limit) sys) (hbehind : Behind tenant runId sys)
    (hsound : Tickets.Sound limit (budgetDesk tenant runId tr sys))
    (hdisturbed : ¬ FindsAsRead tenant runId ⟨sys, a, sys'⟩) :
    ∃ v, Twice v (budgetDesk tenant runId (tr ++ [⟨sys, a, sys'⟩]) sys') := by
  unfold FindsAsRead at hdisturbed
  push Not at hdisturbed
  obtain ⟨c, t, used, rfl, hc, hne⟩ := hdisturbed
  obtain ⟨p, hp, hsys⟩ := hstep
  have hpc : p = granting tenant runId used := Option.some.inj (hp.symm.trans hc)
  subst hpc
  have hsys : sys' = advanced sys c t (granting tenant runId used) := hsys
  subst hsys
  obtain ⟨hpos, -⟩ := (hplaces c _ hc).granting_cases
  have hused := hbehind c used hc
  dsimp only at hne
  have hout : (budgetDesk tenant runId tr sys).Out used := by
    rw [hsound.out]
    refine ⟨hpos, ?_⟩
    change used ≤ usedUnits sys.shared (tenant.tenantId, runId)
    omega
  have hheld : (budgetDesk tenant runId tr sys).held c = none := deskOf_free hc nofun
  refine ⟨used, ?_⟩
  unfold budgetDesk
  rw [deskOf_draw hc nofun rfl]
  exact twice_draw hheld hout

/-- Where the calls of the SQLite repository stand after a run. -/
structure Reserved (tenant : TenantContext) (runId : String) (limit : ℕ) (tr : BudgetTrace)
    (sys : BudgetSystem) : Prop where
  places : Everywhere (Reading tenant runId limit) sys
  ordered : Undisturbed tenant runId tr →
    Tickets.Sound limit (budgetDesk tenant runId tr sys) ∧ Behind tenant runId sys
  doubled : ¬ Undisturbed tenant runId tr → ∃ v, Twice v (budgetDesk tenant runId tr sys)

theorem undisturbed_snoc {x : Transition BudgetSystem
      (Action JobDatabase Unit ResearchException (Option ℕ) ℕ)} :
    Undisturbed tenant runId (tr ++ [x]) ↔
      Undisturbed tenant runId tr ∧ FindsAsRead tenant runId x := by
  unfold Undisturbed
  simp only [List.mem_append, List.mem_singleton, or_imp, forall_and, forall_eq]

theorem sqlite_reserved (hunused : usedUnits db (tenant.tenantId, runId) = 0)
    (hr : Run (SystemStep (· = reserveBudget tenant runId limit)) (System.idle db) tr sys) :
    Reserved tenant runId limit tr sys := by
  refine hr.invariant (Reserved tenant runId limit) ?_ ?_
  · refine ⟨everywhere_idle _ _, fun _ => ⟨sound_unused hunused, nofun⟩, fun h => ?_⟩
    exact absurd (fun x hx => absurd hx List.not_mem_nil) h
  · rintro tr t a u - ⟨hplaces, hordered, hdoubled⟩ hstep
    refine ⟨reading_places hstep hplaces, fun h => ?_, fun h => ?_⟩
    · obtain ⟨hbefore, hfinds⟩ := undisturbed_snoc.mp h
      obtain ⟨hsound, hbehind⟩ := hordered hbefore
      exact ⟨hsound.step (undisturbed_desk hstep hplaces hfinds),
        behind_step hstep hplaces hbehind hfinds⟩
    · by_cases hbefore : Undisturbed tenant runId tr
      · obtain ⟨hsound, hbehind⟩ := hordered hbefore
        exact disturbed_twice hstep hplaces hbehind hsound
          fun hfinds => h (undisturbed_snoc.mpr ⟨hbefore, hfinds⟩)
      · obtain ⟨v, hv⟩ := hdoubled hbefore
        have hdesk : Tickets.Step (fun _ _ _ => True) (budgetDesk tenant runId tr t) _ :=
          reading_desk hstep hplaces fun _ _ _ _ _ _ => trivial
        exact ⟨v, hv.step hdesk⟩

/-- The calls of the PostgreSQL repository are granted their reservations in every interleaving,
those of the SQLite repository as long as every `UPDATE` finds the units as its `SELECT` read
them; otherwise a number is returned twice. -/
theorem reservations_granted_iff (hunused : usedUnits db (tenant.tenantId, runId) = 0) :
    (∀ tr sys, Run (SystemStep (· = PostgresResearchRepository.reserving tenant runId limit))
      (System.idle db) tr sys → Granted limit tr sys) ∧
    ∀ tr sys, Run (SystemStep (· = reserveBudget tenant runId limit)) (System.idle db) tr sys →
      (Undisturbed tenant runId tr → Granted limit tr sys) ∧
        ((∀ c, sys.procs c = none) → (Granted limit tr sys ↔ Undisturbed tenant runId tr)) := by
  refine ⟨fun tr sys hr => postgres_granted hunused hr, fun tr sys hr => ?_⟩
  have hreserved := sqlite_reserved hunused hr
  have hgranted : Undisturbed tenant runId tr → Granted limit tr sys :=
    fun h => granted_of_sound (hreserved.ordered h).1
  refine ⟨hgranted, fun hidle => ⟨fun h => ?_, hgranted⟩⟩
  by_contra hdisturbed
  obtain ⟨v, hv⟩ := hreserved.doubled hdisturbed
  exact hv.not_nodup (budgetDesk_idle hidle) h.distinct

end Calls

/-- A run of which no unit is used. -/
def unusedRun : JobDatabase := ⟨[], [⟨"tenant-a", "run-1", 0⟩], [], [], []⟩

/-- Both calls read the units before either of them writes. -/
def readBeforeWrite : List (Action JobDatabase Unit ResearchException (Option ℕ) ℕ) :=
  let call := SqliteResearchRepository.reserveBudget Jobs.pilotTenant "run-1" 1
  [.spawn 0 call, .spawn 1 call, .advance 0 (), .advance 1 (), .advance 0 (), .advance 1 (),
    .advance 0 (), .advance 1 ()]

theorem readBeforeWrite_run : Run
    (SystemStep (· = SqliteResearchRepository.reserveBudget Jobs.pilotTenant "run-1" 1))
    (System.idle unusedRun) (execute System.next (System.idle unusedRun) readBeforeWrite)
    (readBeforeWrite.foldl System.next (System.idle unusedRun)) :=
  (((((((Run.single ⟨rfl, rfl, rfl⟩).append (Run.single ⟨rfl, rfl, rfl⟩)).append
    (Run.single ⟨_, rfl, rfl⟩)).append (Run.single ⟨_, rfl, rfl⟩)).append
    (Run.single ⟨_, rfl, rfl⟩)).append (Run.single ⟨_, rfl, rfl⟩)).append
    (Run.single ⟨_, rfl, rfl⟩)).append (Run.single ⟨_, rfl, rfl⟩)

section Turns

variable {tenant : TenantContext} {runId : String} {sys sys' : BudgetSystem} {c : ℕ}

theorem findsAsRead_spawn {p : BudgetCall} : FindsAsRead tenant runId ⟨sys, .spawn c p, sys'⟩ :=
  nofun

theorem findsAsRead_of_ne_write {p : BudgetCall} (hc : sys.procs c = some p)
    (hp : ∀ w k, p ≠ .write w k) : FindsAsRead tenant runId ⟨sys, .advance c (), sys'⟩ := by
  intro c' t used hlabel hc'
  cases hlabel
  exact absurd (Option.some.inj (hc.symm.trans hc')) (hp _ _)

theorem findsAsRead_granting {used : ℕ}
    (hc : sys.procs c = some (SqliteResearchRepository.granting tenant runId used))
    (hused : usedUnits sys.shared (tenant.tenantId, runId) + 1 = used) :
    FindsAsRead tenant runId ⟨sys, .advance c (), sys'⟩ := by
  intro c' t used' hlabel hc'
  cases hlabel
  rw [← granting_inj (Option.some.inj (hc.symm.trans hc'))]
  exact hused

end Turns

/-- The second call begins when the first has returned. -/
def readAfterWrite : List (Action JobDatabase Unit ResearchException (Option ℕ) ℕ) :=
  let call := SqliteResearchRepository.reserveBudget Jobs.pilotTenant "run-1" 2
  [.spawn 0 call, .advance 0 (), .advance 0 (), .advance 0 (), .spawn 1 call, .advance 1 (),
    .advance 1 (), .advance 1 ()]

theorem readAfterWrite_run : Run
    (SystemStep (· = SqliteResearchRepository.reserveBudget Jobs.pilotTenant "run-1" 2))
    (System.idle unusedRun) (execute System.next (System.idle unusedRun) readAfterWrite)
    (readAfterWrite.foldl System.next (System.idle unusedRun)) :=
  (((((((Run.single ⟨rfl, rfl, rfl⟩).append (Run.single ⟨_, rfl, rfl⟩)).append
    (Run.single ⟨_, rfl, rfl⟩)).append (Run.single ⟨_, rfl, rfl⟩)).append
    (Run.single ⟨rfl, rfl, rfl⟩)).append (Run.single ⟨_, rfl, rfl⟩)).append
    (Run.single ⟨_, rfl, rfl⟩)).append (Run.single ⟨_, rfl, rfl⟩)

theorem readAfterWrite_undisturbed : Undisturbed Jobs.pilotTenant "run-1"
    (execute System.next (System.idle unusedRun) readAfterWrite) := by
  unfold Undisturbed readAfterWrite
  simp only [execute, List.forall_mem_cons]
  exact ⟨findsAsRead_spawn, findsAsRead_of_ne_write rfl nofun, findsAsRead_granting rfl rfl,
    findsAsRead_of_ne_write rfl nofun, findsAsRead_spawn, findsAsRead_of_ne_write rfl nofun,
    findsAsRead_granting rfl rfl, findsAsRead_of_ne_write rfl nofun, nofun⟩

theorem reservations_granted_iff_pilot :
    usedUnits unusedRun (Jobs.pilotTenant.tenantId, "run-1") = 0 ∧
      (∀ tr sys, Run (SystemStep
        (· = PostgresResearchRepository.reserving Jobs.pilotTenant "run-1" 1))
        (System.idle unusedRun) tr sys → Granted 1 tr sys) ∧
      ∃ tr sys, Run
        (SystemStep (· = SqliteResearchRepository.reserveBudget Jobs.pilotTenant "run-1" 2))
        (System.idle unusedRun) tr sys ∧ returned tr = [1, 2] ∧
          Undisturbed Jobs.pilotTenant "run-1" tr ∧ Granted 2 tr sys := by
  have hunused : usedUnits unusedRun (Jobs.pilotTenant.tenantId, "run-1") = 0 := rfl
  have hsqlite := (reservations_granted_iff hunused).2 _ _ readAfterWrite_run
  exact ⟨hunused, (reservations_granted_iff hunused).1, _, _, readAfterWrite_run, rfl,
    readAfterWrite_undisturbed, hsqlite.1 readAfterWrite_undisturbed⟩

/-- Two calls are granted the only unit. -/
theorem unit_granted_twice : ∃ tr sys, Run
    (SystemStep (· = SqliteResearchRepository.reserveBudget Jobs.pilotTenant "run-1" 1))
    (System.idle unusedRun) tr sys ∧ returned tr = [1, 1] ∧ ¬ Granted 1 tr sys := by
  have hreturned : returned (execute System.next (System.idle unusedRun) readBeforeWrite) =
      [1, 1] := by
    rfl
  refine ⟨_, _, readBeforeWrite_run, hreturned, fun h => ?_⟩
  have hwithin := h.within
  rw [hreturned] at hwithin
  exact absurd hwithin (by decide)

end DecisionAssurance.Research
