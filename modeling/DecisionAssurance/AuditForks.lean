import DecisionAssurance.ProjectionMirror

/-!
# Audit logs that do not fork

A save may come from a copy of the run that was loaded long ago. The rows of its audit events are
not overwritten: an event whose id is stored must be the stored one, and an event whose number is
taken is refused. So whatever copies are saved in whatever order, the stored events of a run are
one log, and the log of every copy that a save accepted is a beginning of it.
-/

namespace DecisionAssurance.Research

open Tables Runs
open Jobs (JobDatabase RunRow)
open PostgresResearchRepository (storedRun)

namespace ResearchTables

variable {T T' : ResearchTables} {run : ResearchRun} {k : RunKey} {rows rows' : List AuditEventRow}
  {log : List ResearchAuditEvent} {e : ResearchAuditEvent} {n : ℕ}

/-- `list_audit`: `ORDER BY sequence` -/
def listAudit (T : ResearchTables) (k : RunKey) : List ResearchAuditEvent :=
  ((T.auditEvents.filter fun r => (r.tenantId, r.researchRunId) = k).insertionSort
    fun a b => a.sequence ≤ b.sequence).map AuditEventRow.event

/-! ## One event -/

/-- The rows of a run are a log, numbered from one in the order of its insertion. -/
structure Logs (k : RunKey) (rows : List AuditEventRow) (log : List ResearchAuditEvent) : Prop where
  labelled : auditEventTable.Labelled rows
  parts : auditEventTable.partsOf k rows = log.zipIdx 1
  numbered : Numbered k.2 log

theorem Logs.getElem_of_mem (h : Logs k rows log) {d : ResearchAuditEvent × ℕ}
    (hd : d ∈ auditEventTable.partsOf k rows) : 1 ≤ d.2 ∧ log[d.2 - 1]? = some d.1 := by
  rw [h.parts] at hd
  exact List.mem_zipIdx_iff_le_and_getElem?_sub.mp hd

/-- The stored event of an id is the one at its position. -/
theorem Logs.position (h : Logs k rows log) {d : ResearchAuditEvent × ℕ}
    (hd : d ∈ auditEventTable.partsOf k rows) (hid : d.1.eventId ∈ eventIds k.2 (n + 1)) :
    d.2 = n + 1 := by
  obtain ⟨hpos, hlog⟩ := h.getElem_of_mem hd
  have hsame := eventIds_position (h.numbered _ _ hlog) hid
  omega

theorem saveEvent_write {d : ResearchAuditEvent × ℕ} (h : saveEvent k rows d = .ok rows') :
    agrees k rows d = true ∧
      auditEventTable.write k (admitsEvent k) rows d = some rows' := by
  unfold saveEvent at h
  split_ifs at h with hagrees
  rw [Bool.not_eq_true', Bool.not_eq_false] at hagrees
  exact ⟨hagrees, orRaise_ok.mp h⟩

/-- The row of a stored id. -/
theorem lookup_row (h : Logs k rows log)
    (hfound : (lookup auditEventTable.key (k, e.eventId) rows).isSome = true) :
    ∃ row, lookup auditEventTable.key (k, e.eventId) rows = some row ∧
      row.event.eventId = e.eventId ∧
      (row.event, row.sequence) ∈ auditEventTable.partsOf k rows := by
  obtain ⟨row, hrow⟩ := Option.isSome_iff_exists.mp hfound
  have hmem := mem_of_lookup hrow
  have hkey := key_of_lookup hrow
  refine ⟨row, hrow, ?_, ?_⟩
  · exact (h.labelled.named row hmem).trans (congrArg Prod.snd hkey)
  · exact Projection.mem_partsOf.mpr ⟨row, hmem, congrArg Prod.fst hkey, rfl⟩

theorem place_kept {parts : List (ResearchAuditEvent × ℕ)} {d : ResearchAuditEvent × ℕ}
    (hmem : auditEventTable.ident d ∈ parts.map auditEventTable.ident) :
    place auditEventTable.ident auditEventTable.merge parts d = parts := by
  unfold place
  rw [if_pos hmem]
  have hid : (fun p => if auditEventTable.ident p = auditEventTable.ident d then
      auditEventTable.merge p d else p) = id := by
    funext p
    split_ifs
    · rfl
    · rfl
  rw [hid, List.map_id]

/-- An event at a position of the log is accepted only as the event stored there. -/
theorem Logs.known (h : Logs k rows log) (hn : n < log.length)
    (hid : e.eventId ∈ eventIds k.2 (n + 1)) (hsave : saveEvent k rows (e, n + 1) = .ok rows') :
    log[n]? = some e ∧ Logs k rows' log := by
  obtain ⟨hagrees, hwrite⟩ := saveEvent_write hsave
  have hlabelled := h.labelled.write hwrite
  have hparts := Projection.partsOf_write h.labelled hwrite
  by_cases hfound :
      (lookup auditEventTable.key (k, auditEventTable.ident (e, n + 1)) rows).isSome = true
  · obtain ⟨row, hrow, hrowId, hpart⟩ := lookup_row h hfound
    have hevent : row.event = e := by
      unfold agrees at hagrees
      rw [hrow] at hagrees
      exact of_decide_eq_true hagrees
    have hsequence : row.sequence = n + 1 := h.position hpart (hrowId ▸ hid)
    have hstored := (h.getElem_of_mem hpart).2
    rw [hsequence, hevent] at hstored
    have hmem : auditEventTable.ident (e, n + 1) ∈
        (auditEventTable.partsOf k rows).map auditEventTable.ident :=
      (Projection.lookup_isSome_iff h.labelled).mp hfound
    rw [place_kept hmem, h.parts] at hparts
    exact ⟨hstored, hlabelled, hparts, h.numbered⟩
  · exfalso
    -- the number is taken
    have htaken : (log[n], n + 1) ∈ auditEventTable.partsOf k rows := by
      rw [h.parts]
      apply List.mem_zipIdx_iff_le_and_getElem?_sub.mpr
      exact ⟨Nat.le_add_left 1 n, List.getElem?_eq_getElem hn⟩
    obtain ⟨row, hrow, hkey, hpart⟩ := Projection.mem_partsOf.mp htaken
    have hadmits : admitsEvent k rows (e, n + 1) = false := by
      unfold admitsEvent
      rw [Bool.not_eq_false', List.any_eq_true]
      refine ⟨row, hrow, ?_⟩
      rw [Bool.and_eq_true]
      exact ⟨decide_eq_true hkey, decide_eq_true (congrArg Prod.snd hpart)⟩
    unfold Projection.write at hwrite
    rw [if_neg hfound, hadmits] at hwrite
    cases hwrite

/-- An event after the log is appended. -/
theorem Logs.fresh (h : Logs k rows log) (hid : e.eventId ∈ eventIds k.2 (log.length + 1))
    (hsave : saveEvent k rows (e, log.length + 1) = .ok rows') : Logs k rows' (log ++ [e]) := by
  obtain ⟨-, hwrite⟩ := saveEvent_write hsave
  have hparts := Projection.partsOf_write h.labelled hwrite
  have hfresh : auditEventTable.ident (e, log.length + 1) ∉
      (auditEventTable.partsOf k rows).map auditEventTable.ident := by
    intro hmem
    obtain ⟨d, hd, hsame⟩ := List.mem_map.mp hmem
    have hdid : d.1.eventId = e.eventId := hsame
    have hposition := h.position hd (hdid ▸ hid)
    obtain ⟨-, hlog⟩ := h.getElem_of_mem hd
    have hlt := (List.getElem?_eq_some_iff.mp hlog).1
    omega
  refine ⟨h.labelled.write hwrite, ?_, h.numbered.append hid⟩
  rw [hparts, place, if_neg hfresh, h.parts, List.zipIdx_append]
  simp only [List.zipIdx_cons, List.zipIdx_nil]
  rw [Nat.add_comm]

/-! ## The events of a save -/

/-- Events that go on at a position of the log: accepted, they are those stored there, or they
start with them and the log goes on with the rest. -/
theorem Logs.saveEvents {events : List ResearchAuditEvent} (h : Logs k rows log)
    (hn : n ≤ log.length)
    (hids : ∀ i e, events[i]? = some e → e.eventId ∈ eventIds k.2 (n + i + 1))
    (hsave : (events.zipIdx (n + 1)).foldlM (saveEvent k) rows = .ok rows') :
    (events <+: log.drop n ∧ Logs k rows' log) ∨
      (log.drop n <+: events ∧ Logs k rows' (log.take n ++ events)) := by
  induction events generalizing n rows log with
  | nil =>
    cases hsave
    exact .inl ⟨List.nil_prefix, h⟩
  | cons e events ih =>
    rw [List.zipIdx_cons, List.foldlM_cons] at hsave
    obtain ⟨rows₁, hfirst, hrest⟩ := bind_ok_cases hsave
    have hid : e.eventId ∈ eventIds k.2 (n + 1) := hids 0 e rfl
    have hlater : ∀ i d, events[i]? = some d → d.eventId ∈ eventIds k.2 (n + 1 + i + 1) := by
      intro i d hd
      have hnext := hids (i + 1) d hd
      rwa [show n + (i + 1) + 1 = n + 1 + i + 1 by omega] at hnext
    by_cases hinside : n < log.length
    · obtain ⟨hstored, hlogs⟩ := h.known hinside hid hfirst
      have hdrop : log.drop n = e :: log.drop (n + 1) := by
        rw [List.drop_eq_getElem_cons hinside,
          Option.some.inj ((List.getElem?_eq_getElem hinside).symm.trans hstored)]
      have htake : log.take (n + 1) = log.take n ++ [e] := by
        rw [List.take_succ_eq_append_getElem hinside,
          Option.some.inj ((List.getElem?_eq_getElem hinside).symm.trans hstored)]
      rw [hdrop]
      rcases ih hlogs (by omega) hlater hrest with ⟨hpre, hend⟩ | ⟨hpre, hend⟩
      · exact .inl ⟨List.cons_prefix_cons.mpr ⟨rfl, hpre⟩, hend⟩
      · rw [htake, List.append_assoc] at hend
        exact .inr ⟨List.cons_prefix_cons.mpr ⟨rfl, hpre⟩, hend⟩
    · have hlength : n = log.length := by omega
      subst hlength
      have hlogs := h.fresh hid hfirst
      have hlong : (log ++ [e]).length = log.length + 1 := List.length_append
      rcases ih hlogs (by omega) hlater hrest with ⟨hpre, hend⟩ | ⟨-, hend⟩
      · rw [List.drop_eq_nil_of_le (by omega), List.prefix_nil] at hpre
        subst hpre
        refine .inr ⟨?_, ?_⟩
        · rw [List.drop_length]
          exact List.nil_prefix
        · rw [List.take_length]
          exact hend
      · refine .inr ⟨?_, ?_⟩
        · rw [List.drop_length]
          exact List.nil_prefix
        · rw [List.take_of_length_le (by omega), List.append_assoc] at hend
          rw [List.take_length]
          exact hend

/-- The tables hold one log for every run. -/
def Unforked (T : ResearchTables) : Prop := ∀ k, Logs k T.auditEvents (T.listAudit k)

theorem Logs.listAudit (h : Logs k T.auditEvents log) : T.listAudit k = log := by
  have hrows : ((T.auditEvents.filter fun r => (r.tenantId, r.researchRunId) = k).map
      fun r => (r.event, r.sequence)) = log.zipIdx 1 := h.parts
  have hsorted : (T.auditEvents.filter fun r => (r.tenantId, r.researchRunId) = k).Pairwise
      fun a b => a.sequence ≤ b.sequence := by
    have hnumbers := congrArg (List.map Prod.snd) hrows
    rw [List.map_map, List.zipIdx_map_snd] at hnumbers
    have hrange : (List.range' 1 log.length).Pairwise (· ≤ ·) := List.pairwise_le_range'
    rw [← hnumbers, List.pairwise_map] at hrange
    exact hrange
  unfold ResearchTables.listAudit
  rw [hsorted.insertionSort_eq]
  have hevents := congrArg (List.map Prod.fst) hrows
  rw [List.map_map, List.zipIdx_map_fst] at hevents
  exact hevents

theorem unforked_empty : empty.Unforked := by
  intro k
  refine ⟨?_, rfl, ?_⟩
  · exact labelled_empty.auditEvents
  · intro n e he
    cases List.getElem?_nil.symm.trans he

/-- An accepted save: its log begins the stored one or goes on with it. -/
theorem Unforked.save (h : T.Unforked) (hrun : Numbered run.researchRunId run.auditEvents)
    (hsave : T.save run = .ok T') : T'.Unforked ∧ (∀ k, T.listAudit k <+: T'.listAudit k) ∧
      run.auditEvents <+: T'.listAudit run.key ∧
      (T'.listAudit run.key = T.listAudit run.key ∨ T'.listAudit run.key = run.auditEvents) := by
  have hwrote := save_wrote hsave
  have hevents : (numberedEvents run).foldlM (saveEvent run.key) T.auditEvents =
      .ok T'.auditEvents := by
    obtain ⟨sources, -, hsave⟩ := bind_ok_cases hsave
    obtain ⟨snapshots, -, hsave⟩ := bind_ok_cases hsave
    obtain ⟨evidence, -, hsave⟩ := bind_ok_cases hsave
    obtain ⟨attempts, -, hsave⟩ := bind_ok_cases hsave
    obtain ⟨auditEvents, hevents, hsave⟩ := bind_ok_cases hsave
    cases hsave
    exact hevents
  have hids : ∀ i e, run.auditEvents[i]? = some e →
      e.eventId ∈ eventIds run.key.2 (0 + i + 1) := by
    intro i e he
    rw [Nat.zero_add]
    exact hrun i e he
  have hothers : ∀ k ≠ run.key, T'.listAudit k = T.listAudit k ∧
      Logs k T'.auditEvents (T.listAudit k) := by
    intro k hk
    have hlogs : Logs k T'.auditEvents (T.listAudit k) := by
      refine ⟨(h k).labelled.writeAll hwrote.auditEvents, ?_, (h k).numbered⟩
      rw [Projection.partsOf_writeAll_of_ne hk hwrote.auditEvents]
      exact (h k).parts
    exact ⟨hlogs.listAudit, hlogs⟩
  have hown := (h run.key).saveEvents (Nat.zero_le _) hids hevents
  rw [List.drop_zero, List.take_zero, List.nil_append] at hown
  have hunforked (hlogs : Logs run.key T'.auditEvents (T'.listAudit run.key)) : T'.Unforked := by
    intro k
    by_cases hk : k = run.key
    · rw [hk]
      exact hlogs
    · rw [(hothers k hk).1]
      exact (hothers k hk).2
  have hextends (hlogs : T.listAudit run.key <+: T'.listAudit run.key) (k : RunKey) :
      T.listAudit k <+: T'.listAudit k := by
    by_cases hk : k = run.key
    · rw [hk]
      exact hlogs
    · rw [(hothers k hk).1]
  rcases hown with ⟨hpre, hlogs⟩ | ⟨hpre, hlogs⟩
  · have hsame := hlogs.listAudit
    rw [hsame] at hunforked hextends ⊢
    exact ⟨hunforked hlogs, hextends List.prefix_rfl, hpre, .inl rfl⟩
  · have hsame := hlogs.listAudit
    rw [hsame] at hunforked hextends ⊢
    exact ⟨hunforked hlogs, hextends hpre, List.prefix_rfl, .inr rfl⟩

end ResearchTables

/-! ## Saves of any copies in any order -/

/-- The rows of the runs with the tables of their parts. -/
structure ResearchStore where
  db : JobDatabase
  tables : ResearchTables

/-- A copy of a run that someone saves. -/
abbrev SavedCopy := TenantContext × ResearchRun

namespace ResearchStore

/-- `save`, one transaction. -/
def save (s : ResearchStore) (tenant : TenantContext) (run : ResearchRun) :
    Raises ResearchStore := do
  let db ← PostgresResearchRepository.save s.db tenant run
  let tables ← s.tables.save run
  return ⟨db, tables⟩

/-- The store after a save; one that raises is rolled back. -/
def saved (s : ResearchStore) (w : SavedCopy) : ResearchStore :=
  match s.save w.1 w.2 with
  | .ok s' => s'
  | .error _ => s

def listAudit (s : ResearchStore) (k : RunKey) : List ResearchAuditEvent := s.tables.listAudit k

variable {s s' : ResearchStore} {tenant : TenantContext} {run : ResearchRun} {k : RunKey}
  {w : SavedCopy} {ws : List SavedCopy}

theorem save_parts (h : s.save tenant run = .ok s') :
    PostgresResearchRepository.save s.db tenant run = .ok s'.db ∧
      s.tables.save run = .ok s'.tables := by
  obtain ⟨db, hdb, h⟩ := bind_ok_cases h
  obtain ⟨tables, htables, h⟩ := bind_ok_cases h
  cases h
  exact ⟨hdb, htables⟩

theorem storedRun_saved {db db' : JobDatabase}
    (h : PostgresResearchRepository.save db tenant run = .ok db') {stored : ResearchRun}
    (hstored : storedRun db' k = some stored) :
    (k = run.key ∧ stored = run) ∨ storedRun db k = some stored := by
  cases hbefore : storedRun db k with
  | some run₀ =>
    rw [PostgresResearchRepository.storedRun_save h hbefore, Option.some.injEq] at hstored
    by_cases hk : run.key = k
    · rw [if_pos hk] at hstored
      exact .inl ⟨hk.symm, hstored.symm⟩
    · rw [if_neg hk] at hstored
      exact .inr (congrArg some hstored)
  | none =>
    obtain ⟨-, rfl⟩ := PostgresResearchRepository.save_cases h
    have hnone : lookup RunRow.key k db.runs = none := Option.map_eq_none_iff.mp hbefore
    obtain ⟨row, hrow, -⟩ := Option.map_eq_some_iff.mp hstored
    have hupdate : lookup RunRow.key k (updateWhere (fun r => r.key = run.key)
        (fun r => { r with run := run }) db.runs) = (lookup RunRow.key k db.runs).map fun r =>
          if decide (r.key = run.key) then { r with run := run } else r :=
      lookup_updateWhere fun _ _ => rfl
    rw [hupdate, hnone] at hrow
    cases hrow

/-- The stored run of a key may be behind the stored log, but is never beside it. -/
structure Unforked (s : ResearchStore) : Prop where
  tables : s.tables.Unforked
  behind : ∀ k run, storedRun s.db k = some run → run.auditEvents <+: s.listAudit k

/-- What a save that was accepted has done to the logs. -/
structure Accepted (s : ResearchStore) (run : ResearchRun) (s' : ResearchStore) : Prop where
  unforked : s'.Unforked
  extended : ∀ k, s.listAudit k <+: s'.listAudit k
  began : run.auditEvents <+: s'.listAudit run.key
  listed : s'.listAudit run.key = s.listAudit run.key ∨
    s'.listAudit run.key = run.auditEvents

theorem Unforked.save (h : s.Unforked) (hrun : Numbered run.researchRunId run.auditEvents)
    (hsave : s.save tenant run = .ok s') : Accepted s run s' := by
  obtain ⟨hdb, htables⟩ := save_parts hsave
  obtain ⟨hunforked, hextended, hbegan, hlisted⟩ := h.tables.save hrun htables
  refine ⟨⟨hunforked, ?_⟩, hextended, hbegan, hlisted⟩
  intro k stored hstored
  rcases storedRun_saved hdb hstored with ⟨rfl, rfl⟩ | hbefore
  · exact hbegan
  · exact (h.behind k stored hbefore).trans (hextended k)

theorem Unforked.saved (h : s.Unforked) (hw : Numbered w.2.researchRunId w.2.auditEvents) :
    (s.saved w).Unforked ∧ ∀ k, s.listAudit k <+: (s.saved w).listAudit k := by
  unfold ResearchStore.saved
  split
  · rename_i s' hsave
    have haccepted := h.save hw hsave
    exact ⟨haccepted.unforked, haccepted.extended⟩
  · exact ⟨h, fun _ => List.prefix_rfl⟩

theorem Unforked.saves (h : s.Unforked)
    (hws : ∀ w ∈ ws, Numbered w.2.researchRunId w.2.auditEvents) :
    (ws.foldl ResearchStore.saved s).Unforked ∧
      ∀ k, s.listAudit k <+: (ws.foldl ResearchStore.saved s).listAudit k := by
  induction ws generalizing s with
  | nil => exact ⟨h, fun _ => List.prefix_rfl⟩
  | cons w ws ih =>
    obtain ⟨hfirst, hextends⟩ := h.saved (hws w List.mem_cons_self)
    obtain ⟨hlast, hrest⟩ := ih hfirst fun w hw => hws w (List.mem_cons_of_mem _ hw)
    exact ⟨hlast, fun k => (hextends k).trans (hrest k)⟩

/-- Neither log goes on with the other. -/
def Forked (log events : List ResearchAuditEvent) : Prop := ¬ events <+: log ∧ ¬ log <+: events

theorem Accepted.not_forked (h : Accepted s run s') :
    ¬ Forked (s.listAudit run.key) run.auditEvents := by
  rintro ⟨hshort, hlong⟩
  rcases h.listed with hsame | hsame
  · apply hshort
    rw [← hsame]
    exact h.began
  · apply hlong
    rw [← hsame]
    exact h.extended run.key

theorem Unforked.refused (h : s.Unforked) (hw : Numbered w.2.researchRunId w.2.auditEvents)
    (hforked : Forked (s.listAudit w.2.key) w.2.auditEvents) :
    (∃ e, s.save w.1 w.2 = .error e) ∧ s.saved w = s := by
  cases hsave : s.save w.1 w.2 with
  | ok s' => exact absurd hforked (h.save hw hsave).not_forked
  | error e =>
    refine ⟨⟨e, rfl⟩, ?_⟩
    unfold ResearchStore.saved
    rw [hsave]

/-- Copies of runs are saved by anyone in any order, however old they are: the stored log of a run
only grows, every copy that was accepted and the stored run itself hold a beginning of it, and a
copy whose log has gone another way is refused and changes nothing. -/
theorem audit_unforked (hempty : s.tables = .empty)
    (hblank : ∀ k run, storedRun s.db k = some run → run.auditEvents = [])
    (hws : ∀ w ∈ ws, Numbered w.2.researchRunId w.2.auditEvents) :
    (∀ x ∈ execute ResearchStore.saved s ws,
      (∀ k, x.before.listAudit k <+: x.after.listAudit k) ∧
      (∀ s', x.before.save x.label.1 x.label.2 = .ok s' →
        x.label.2.auditEvents <+:
          (ws.foldl ResearchStore.saved s).listAudit x.label.2.key) ∧
      (Forked (x.before.listAudit x.label.2.key) x.label.2.auditEvents →
        (∃ e, x.before.save x.label.1 x.label.2 = .error e) ∧ x.after = x.before)) ∧
    ∀ k run, storedRun (ws.foldl ResearchStore.saved s).db k = some run →
      run.auditEvents <+: (ws.foldl ResearchStore.saved s).listAudit k := by
  have hstart : s.Unforked := by
    refine ⟨hempty ▸ ResearchTables.unforked_empty, ?_⟩
    intro k run hrun
    rw [hblank k run hrun]
    exact List.nil_prefix
  refine ⟨?_, (hstart.saves hws).1.behind⟩
  clear hempty hblank
  induction ws generalizing s with
  | nil => exact fun x hx => absurd hx List.not_mem_nil
  | cons w ws ih =>
    have hw := hws w List.mem_cons_self
    have hlater := fun w hw => hws w (List.mem_cons_of_mem _ hw)
    obtain ⟨hunforked, hextends⟩ := hstart.saved hw
    intro x hx
    rcases List.mem_cons.mp hx with rfl | hx
    · refine ⟨hextends, ?_, hstart.refused hw⟩
      intro s' hsave
      have hafter : s.saved w = s' := by
        unfold ResearchStore.saved
        rw [hsave]
      have hrest := (hunforked.saves hlater).2 w.2.key
      exact (hafter ▸ (hstart.save hw hsave).began).trans hrest
    · exact ih hlater hunforked x hx

/-! ## A copy that comes too late -/

/-- The store with one run that has been prepared. -/
def preparedDatabase : JobDatabase :=
  ⟨[⟨"tenant-a", pilotProposal.researchRunId, pilotProposal.request.decisionFileId,
    pilotProposal.semanticFingerprint, pilotProposal⟩],
    [⟨"tenant-a", pilotProposal.researchRunId, 0⟩], [], [], []⟩

def cancelledRun : ResearchRun :=
  pilotProposal.moved plainPlatform .cancelled (plainLibrary.isoformat 0) "generator-1"
    ["RESEARCH_CANCELLED"] (.obj [("run_id", .str pilotProposal.researchRunId)])

/-- The prepared run, started from a copy of the time before its cancellation. -/
def staleRun : ResearchRun :=
  pilotProposal.moved plainPlatform .searching (plainLibrary.isoformat 0) "generator-1"
    ["RESEARCH_STARTED"] (.obj [("run_id", .str pilotProposal.researchRunId)])

def racedStore : ResearchStore := ⟨preparedDatabase, .empty⟩

theorem numbered_moved {target : ResearchStatus} {now actor : String} {reasons : List String}
    {payload : Json} :
    Numbered pilotProposal.researchRunId
      (pilotProposal.moved plainPlatform target now actor reasons payload).auditEvents := by
  have hnone : Numbered pilotProposal.researchRunId pilotProposal.auditEvents := by
    intro n e he
    cases List.getElem?_nil.symm.trans he
  exact hnone.append ResearchRun.transitionEvent_id

theorem racedStore_unforked : racedStore.Unforked where
  tables := ResearchTables.unforked_empty
  behind := by
    intro k run hrun
    obtain ⟨row, hrow, rfl⟩ := Option.map_eq_some_iff.mp hrun
    rw [List.mem_singleton.mp (mem_of_lookup hrow)]
    exact List.nil_prefix

theorem racedStore_save : ∃ s', racedStore.save Jobs.pilotTenant cancelledRun =
    .ok s' := by
  have hrow : ¬ (lookup RunRow.key (Jobs.pilotTenant.tenantId,
      cancelledRun.researchRunId) racedStore.db.runs).isNone = true := by
    let row : RunRow := ⟨"tenant-a", pilotProposal.researchRunId,
      pilotProposal.request.decisionFileId, pilotProposal.semanticFingerprint, pilotProposal⟩
    have hfound : lookup RunRow.key row.key ([] ++ [row]) = some row := lookup_append_self rfl
    intro hnone
    exact Bool.false_ne_true ((congrArg Option.isNone hfound).symm.trans hnone)
  have htenant : ¬ Jobs.pilotTenant.tenantId ≠ cancelledRun.tenantId :=
    not_not.mpr rfl
  have hdb : ∃ db, PostgresResearchRepository.save racedStore.db Jobs.pilotTenant
      cancelledRun = .ok db := by
    unfold PostgresResearchRepository.save
    rw [if_neg htenant, if_neg hrow]
    exact ⟨_, rfl⟩
  obtain ⟨db, hdb⟩ := hdb
  obtain ⟨tables, htables⟩ : ∃ T, racedStore.tables.save cancelledRun = .ok T :=
    ⟨_, rfl⟩
  refine ⟨⟨db, tables⟩, ?_⟩
  unfold save
  rw [hdb, ok_bind, htables]
  rfl

/-- The cancellation is stored; the copy that comes too late is refused. -/
theorem audit_unforked_stale :
    (racedStore.saved (Jobs.pilotTenant, cancelledRun)).listAudit staleRun.key =
        cancelledRun.auditEvents ∧
      (racedStore.saved (Jobs.pilotTenant, cancelledRun)).saved
        (Jobs.pilotTenant, staleRun) =
      racedStore.saved (Jobs.pilotTenant, cancelledRun) := by
  obtain ⟨s', hsave⟩ := racedStore_save
  have hsaved : racedStore.saved (Jobs.pilotTenant, cancelledRun) = s' := by
    unfold saved
    rw [hsave]
  have hfirst : Numbered cancelledRun.researchRunId
      cancelledRun.auditEvents := numbered_moved
  have haccepted := racedStore_unforked.save hfirst hsave
  have hlisted : s'.listAudit staleRun.key = cancelledRun.auditEvents := by
    rcases haccepted.listed with hsame | hsame
    · have hbegan := haccepted.began
      rw [hsame] at hbegan
      exact absurd (List.prefix_nil.mp hbegan) (List.cons_ne_nil _ _)
    · exact hsame
  have hblank : ∀ k run, storedRun racedStore.db k = some run → run.auditEvents = [] := by
    intro k run hrun
    obtain ⟨row, hrow, rfl⟩ := Option.map_eq_some_iff.mp hrun
    rw [List.mem_singleton.mp (mem_of_lookup hrow)]
    rfl
  have hws : ∀ w ∈ [(Jobs.pilotTenant, cancelledRun), (Jobs.pilotTenant, staleRun)],
      Numbered w.2.researchRunId w.2.auditEvents := by
    intro w hw
    rcases List.mem_cons.mp hw with rfl | hw
    · exact hfirst
    · rw [List.mem_singleton.mp hw]
      exact numbered_moved
  have hdiffer : ∀ a b : ResearchAuditEvent, a.toStatus ≠ b.toStatus → ¬ [a] <+: [b] := by
    intro a b hne hpre
    rw [List.cons_prefix_cons] at hpre
    exact hne (congrArg ResearchAuditEvent.toStatus hpre.1)
  have hforked : Forked (s'.listAudit staleRun.key) staleRun.auditEvents := by
    rw [hlisted]
    exact ⟨hdiffer _ _ ResearchStatus.noConfusion, hdiffer _ _ ResearchStatus.noConfusion⟩
  rw [hsaved]
  refine ⟨hlisted, ?_⟩
  have hsecond := (audit_unforked rfl hblank hws).1 _ (List.mem_cons_of_mem _ List.mem_cons_self)
  rw [hsaved] at hsecond
  exact (hsecond.2.2 hforked).2

end ResearchStore

end DecisionAssurance.Research
