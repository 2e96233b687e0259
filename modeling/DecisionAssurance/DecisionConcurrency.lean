import DecisionAssurance.IdempotentReplay

/-!
# Evaluations and transitions step by step

Any number of evaluations and transitions are under way at once. Each loads a document, computes a
new one from it and saves that one over the stored document, whatever is stored by then. Only the
ids of the audit events stand in the way of a save that would undo another one, and these name the
kind of the request beside the position of its event.
-/

namespace DecisionAssurance

open Tables Runs

/-! ## Requests and their steps -/

inductive DecisionWork
  | evaluate (c : Caller) (decisionId : String)
  | transition (c : Caller) (decisionId : String) (target : Target) (decidedAt : String)
    (tokens : ℕ → String)

namespace DecisionWork

def caller : DecisionWork → Caller
  | evaluate c _ | transition c _ _ _ _ => c

def decisionId : DecisionWork → String
  | evaluate _ decisionId | transition _ decisionId _ _ _ => decisionId

/-- The decision a request is about. -/
def case (work : DecisionWork) : CaseKey :=
  (work.caller.identity.tenant.tenantId, work.decisionId)

variable (pf : Platform)

/-- The key and the document of a request, up to its load; none where its reply is replayed. -/
def load (t : DecisionTables) : DecisionWork → Answers (Option (String × DecisionFile))
  | evaluate c decisionId => do
    require c.identity .decisionEvaluate
    let key ← requireIdempotencyKey c.idempotencyKey
    let replay ← replayOf c.identity key (evaluateOperation decisionId) (payloadHash pf (.obj [])) t
    if replay.isSome then return none
    else
      let document ← DecisionAssurance.load c decisionId t
      return some (key, document)
  | transition c decisionId target _ _ => do
    let key ← requireIdempotencyKey c.idempotencyKey
    requireTarget c.identity target
    let document ← DecisionAssurance.load c decisionId t
    requireBlocked c.identity target document
    let replay ← replayOf c.identity key (transitionOperation decisionId target)
      (payloadHash pf (targetJson target)) t
    if replay.isSome then return none else return some (key, document)

def compute (key : String) (d : DecisionFile) : DecisionWork → Answers SavedResult
  | evaluate c decisionId => (evaluateResult pf c key decisionId d).map Prod.snd
  | transition c decisionId target decidedAt tokens =>
    transitionResult pf c key decisionId target decidedAt tokens d

end DecisionWork

inductive DecisionStage
  | loaded (key : String) (d : DecisionFile)
  | computed (d : DecisionFile) (r : SavedResult)

/-- The document that was loaded. -/
def DecisionStage.document : DecisionStage → DecisionFile
  | loaded _ d | computed d _ => d

structure DecisionFlight where
  work : DecisionWork
  stage : DecisionStage

/-- The tables, and the requests that clients are in the middle of. -/
structure CaseDesk where
  tables : DecisionTables
  flights : ℕ → Option DecisionFlight

def CaseDesk.idle (t : DecisionTables) : CaseDesk := ⟨t, fun _ => none⟩

inductive CaseAct
  | load (client : ℕ) (work : DecisionWork)
  | compute (client : ℕ)
  | save (client : ℕ)

section Steps

variable (b : Backend) (pf : Platform)

/-- The flight of a client, or none. -/
def CaseDesk.put (w : CaseDesk) (client : ℕ) (f : Option DecisionFlight) : CaseDesk :=
  ⟨w.tables, Function.update w.flights client f⟩

/-- A client that is idle loads, or takes the next step of its request; one that fails is done. -/
def CaseDesk.next (w : CaseDesk) : CaseAct → CaseDesk
  | .load client work =>
    match w.flights client, work.load pf w.tables with
    | none, .ok (some (key, d)) => w.put client (some ⟨work, .loaded key d⟩)
    | _, _ => w
  | .compute client =>
    match w.flights client with
    | some ⟨work, .loaded key d⟩ =>
      w.put client ((toOption (work.compute pf key d)).map fun r => ⟨work, .computed d r⟩)
    | _ => w
  | .save client =>
    match w.flights client with
    | some ⟨work, .computed _ r⟩ =>
      CaseDesk.put ⟨valueOr (save b work.caller r w.tables) w.tables, w.flights⟩ client none
    | _ => w

end Steps

/-! ## What a request computes -/

section Computed

variable {pf : Platform} {work : DecisionWork} {key : String} {d : DecisionFile} {r : SavedResult}

/-- A status stays or moves along an edge of the transition policy. -/
def StatusMoves (d d' : DecisionFile) : Prop :=
  d'.status = d.status ∨ ∃ role, allowedTransition d.status d'.status = some role

theorem compute_evaluate {c : Caller} {decisionId : String}
    (h : (DecisionWork.evaluate c decisionId).compute pf key d = .ok r) :
    ∃ report, evaluateResult pf c key decisionId d = .ok (report, r) := by
  change (evaluateResult pf c key decisionId d).map Prod.snd = .ok r at h
  cases hresult : evaluateResult pf c key decisionId d with
  | error e =>
    rw [hresult] at h
    cases h
  | ok result =>
    rw [hresult] at h
    cases h
    exact ⟨result.1, rfl⟩

theorem compute_appends (h : work.compute pf key d = .ok r) :
    ∃ e, Appends pf d r.document e ∧ r.events = [e] := by
  cases work with
  | evaluate c decisionId =>
    obtain ⟨report, hresult⟩ := compute_evaluate h
    exact ⟨_, evaluateResult_appends hresult, (evaluateResult_cases hresult).2.2.2⟩
  | transition c decisionId target decidedAt tokens =>
    have htransitioned := transitionResult_cases h
    exact ⟨_, htransitioned.appends, htransitioned.events⟩

theorem compute_status (h : work.compute pf key d = .ok r) : StatusMoves d r.document := by
  cases work with
  | evaluate c decisionId =>
    obtain ⟨report, hresult⟩ := compute_evaluate h
    rw [StatusMoves, (evaluateResult_cases hresult).2.2.1]
    exact .inl rfl
  | transition c decisionId target decidedAt tokens =>
    have htransitioned := transitionResult_cases h
    have hallowed := (rejectionReasons_nil htransitioned.reasons).1
    rw [boundDocument_status] at hallowed
    rw [StatusMoves, htransitioned.status]
    exact .inr ⟨_, hallowed⟩

theorem load_stored {t : DecisionTables} (h : work.load pf t = .ok (some (key, d))) :
    t.getDecision work.caller.identity.tenant work.decisionId = some d := by
  cases work with
  | evaluate c decisionId =>
    obtain ⟨u, -, h⟩ := bind_ok_cases h
    obtain ⟨key', -, h⟩ := bind_ok_cases h
    obtain ⟨replay, -, h⟩ := bind_ok_cases h
    split_ifs at h with hreplay
    · cases h
    · obtain ⟨document, hload, h⟩ := bind_ok_cases h
      cases h
      exact orRaise_ok.mp hload
  | transition c decisionId target decidedAt tokens =>
    obtain ⟨key', -, h⟩ := bind_ok_cases h
    obtain ⟨u, -, h⟩ := bind_ok_cases h
    obtain ⟨document, hload, h⟩ := bind_ok_cases h
    obtain ⟨u', -, h⟩ := bind_ok_cases h
    obtain ⟨replay, -, h⟩ := bind_ok_cases h
    split_ifs at h with hreplay
    · cases h
    · cases h
      exact orRaise_ok.mp hload

end Computed

/-! ## What a save leaves -/

/-- One of the keys that a save inserts is in its table. -/
def Taken (c : Caller) (r : SavedResult) (t : DecisionTables) : Prop :=
  (∃ e ∈ r.events, ∃ row ∈ t.auditEvents,
    row.key = (e.row c.identity.tenant r.document.decisionId).key) ∨
  ∃ row ∈ t.idempotency,
    row.key = IdempotencyRow.key ⟨r.idempotency, c.identity.tenant.tenantId⟩

section Saves

variable {b : Backend} {c : Caller} {t t' : DecisionTables} {r : SavedResult} {e : AuditEvent}
  {k : CaseKey}

/-- The case a result is saved for. -/
def SavedResult.case (c : Caller) (r : SavedResult) : CaseKey :=
  (c.identity.tenant.tenantId, r.document.decisionId)

theorem isSome_document_of_save (h : save b c r t = .ok t') : (t.document (r.case c)).isSome := by
  have hsave := mapError_ok h
  unfold DecisionTables.saveResult at hsave
  split_ifs at hsave with hmissing
  rw [DecisionTables.document, Option.isSome_map]
  exact Option.isSome_iff_ne_none.mpr (mt Option.isNone_iff_eq_none.mpr hmissing)

theorem document_of_save (h : save b c r t = .ok t') :
    t'.document k = if k = r.case c then some r.document else t.document k := by
  obtain ⟨d, hd⟩ := Option.isSome_iff_exists.mp (isSome_document_of_save h)
  exact DecisionTables.document_writeDocument hd (DecisionTables.saveResult_cases (mapError_ok h)).1

theorem ledger_of_save (hevents : r.events = [e]) (h : save b c r t = .ok t') :
    t'.ledger k = t.ledger k ++ if k = r.case c then [e] else [] := by
  obtain ⟨-, haudit, -⟩ := DecisionTables.saveResult_cases (mapError_ok h)
  rw [hevents] at haudit
  exact ledger_snoc haudit k

theorem sound_of_save (hs : t.Sound) (h : save b c r t = .ok t') : t'.Sound :=
  (DecisionTables.saveResult_cases (mapError_ok h)).2.2.2.2 hs

/-- A save that goes through found its keys free. -/
theorem not_taken_of_save (hs : t.Sound) (h : save b c r t = .ok t') : ¬ Taken c r t := by
  have hkeyed := (sound_of_save hs h).auditEvents
  rw [(DecisionTables.saveResult_cases (mapError_ok h)).2.1, Keyed, List.map_append,
    List.nodup_append'] at hkeyed
  rintro (⟨e, he, row, hrow, hkey⟩ | ⟨row, hrow, hkey⟩)
  · refine hkeyed.2.2 (List.mem_map_of_mem hrow) ?_
    rw [hkey]
    exact List.mem_map_of_mem (List.mem_map_of_mem he)
  · exact (DecisionTables.saveResult_records (mapError_ok h)).fresh row hrow hkey

/-- A save over a stored document goes through where its keys are free. -/
theorem save_of_not_taken (hevents : r.events = [e]) (hstored : (t.document (r.case c)).isSome)
    (h : ¬ Taken c r t) : ∃ t', save b c r t = .ok t' := by
  obtain ⟨haudit, hidempotency⟩ := not_or.mp h
  simp only [hevents, List.mem_singleton, exists_eq_left] at haudit
  rw [DecisionTables.document, Option.isSome_map] at hstored
  have hpresent : (lookup DecisionRow.key (c.identity.tenant.tenantId, r.document.decisionId)
      t.decisions).isNone = false := by
    rw [← Option.not_isSome, Bool.not_eq_false']
    exact hstored
  have hinsert := insertRow_of_fresh fun row hrow hkey => haudit ⟨row, hrow, hkey⟩
  have hrecord := insertRow_of_fresh fun row hrow hkey => hidempotency ⟨row, hrow, hkey⟩
  unfold save DecisionTables.saveResult
  rw [hpresent, hevents]
  simp only [Bool.false_eq_true, if_false, List.foldlM_cons, List.foldlM_nil,
    DecisionTables.insertAudit, hinsert, DecisionTables.insertIdempotency, Option.map_some,
    orRaise, ok_bind, pure, Except.pure, hrecord]
  exact ⟨_, rfl⟩

end Saves

/-! ## Interleavings -/

section Interleavings

variable {b : Backend} {pf : Platform} {k : CaseKey} {t₀ : DecisionTables} {d₀ : DecisionFile}
  {w w' : CaseDesk} {a : CaseAct}

/-- What a step can do; only a save that goes through changes the tables. -/
inductive CaseDesk.Takes (b : Backend) (pf : Platform) (w : CaseDesk) :
    CaseAct → CaseDesk → Prop
  | passed (a : CaseAct) (nothing : ∀ client work d r, a = .save client →
      w.flights client ≠ some ⟨work, .computed d r⟩) : Takes b pf w a w
  | loaded (client : ℕ) (work : DecisionWork) (key : String) (d : DecisionFile)
      (loads : work.load pf w.tables = .ok (some (key, d))) :
      Takes b pf w (.load client work) (w.put client (some ⟨work, .loaded key d⟩))
  | dropped (client : ℕ) : Takes b pf w (.compute client) (w.put client none)
  | computed (client : ℕ) (work : DecisionWork) (key : String) (d : DecisionFile) (r : SavedResult)
      (flight : w.flights client = some ⟨work, .loaded key d⟩)
      (computes : work.compute pf key d = .ok r) :
      Takes b pf w (.compute client) (w.put client (some ⟨work, .computed d r⟩))
  | refused (client : ℕ) (work : DecisionWork) (d : DecisionFile) (r : SavedResult)
      (flight : w.flights client = some ⟨work, .computed d r⟩)
      (refuses : ∀ t', save b work.caller r w.tables ≠ .ok t') :
      Takes b pf w (.save client) (w.put client none)
  | saved (client : ℕ) (work : DecisionWork) (d : DecisionFile) (r : SavedResult)
      (t' : DecisionTables) (flight : w.flights client = some ⟨work, .computed d r⟩)
      (saves : save b work.caller r w.tables = .ok t') :
      Takes b pf w (.save client) (CaseDesk.put ⟨t', w.flights⟩ client none)

theorem next_takes (b : Backend) (pf : Platform) (w : CaseDesk) (a : CaseAct) :
    w.Takes b pf a (w.next b pf a) := by
  cases a with
  | load client work =>
    simp only [CaseDesk.next]
    split
    · rename_i key d hflight hload
      exact .loaded client work key d hload
    · exact .passed _ fun _ _ _ _ h => by cases h
  | compute client =>
    simp only [CaseDesk.next]
    split
    · rename_i work key d hflight
      cases hcompute : work.compute pf key d with
      | error e => exact .dropped client
      | ok r => exact .computed client work key d r hflight hcompute
    · exact .passed _ fun _ _ _ _ h => by cases h
  | save client =>
    simp only [CaseDesk.next]
    split
    · rename_i work d r hflight
      cases hsave : save b work.caller r w.tables with
      | error e =>
        refine .refused client work d r hflight fun t' ht => ?_
        rw [hsave] at ht
        cases ht
      | ok t' => exact .saved client work d r t' hflight hsave
    · rename_i hidle
      refine .passed _ fun client' work d r h hflight => ?_
      cases h
      exact hidle work d r hflight

theorem put_flights {client client' : ℕ} {f : Option DecisionFlight} {g : DecisionFlight}
    (h : (w.put client f).flights client' = some g) : f = some g ∨ w.flights client' = some g := by
  change Function.update w.flights client f client' = some g at h
  by_cases hc : client' = client
  · subst hc
    rw [Function.update_self] at h
    exact .inl h
  · rw [Function.update_of_ne hc] at h
    exact .inr h

/-- A request in flight works on the document of its decision, and its result is computed. -/
structure DecisionFlight.Held (pf : Platform) (f : DecisionFlight) : Prop where
  named : f.stage.document.decisionId = f.work.decisionId
  computed : ∀ d r, f.stage = .computed d r → ∃ key, f.work.compute pf key d = .ok r

/-- The events committed for a case since the start, and how many of them a document can hold. -/
structure CaseDesk.Kept (pf : Platform) (k : CaseKey) (t₀ : DecisionTables) (d₀ : DecisionFile)
    (w : CaseDesk) : Prop where
  sound : w.tables.Sound
  stored : ∃ d, w.tables.document k = some d ∧ d.auditEvents.length + (t₀.ledger k).length ≤
    d₀.auditEvents.length + (w.tables.ledger k).length
  held : ∀ client f, w.flights client = some f → f.Held pf
  behind : ∀ client f, w.flights client = some f → f.work.case = k →
    w.tables.document k = some f.stage.document ∨
      f.stage.document.auditEvents.length + (t₀.ledger k).length <
        d₀.auditEvents.length + (w.tables.ledger k).length

namespace CaseDesk.Kept

variable {client : ℕ}

theorem idle (hs : t₀.Sound) (hd : t₀.document k = some d₀) :
    (CaseDesk.idle t₀).Kept pf k t₀ d₀ :=
  ⟨hs, ⟨d₀, hd, le_rfl⟩, fun _ _ h => (Option.some_ne_none _ h.symm).elim,
    fun _ _ h => (Option.some_ne_none _ h.symm).elim⟩

/-- A step that leaves the tables alone. -/
theorem put {f : Option DecisionFlight} (hk : w.Kept pf k t₀ d₀)
    (hheld : ∀ g, f = some g → g.Held pf)
    (hbehind : ∀ g, f = some g → g.work.case = k → w.tables.document k = some g.stage.document ∨
      g.stage.document.auditEvents.length + (t₀.ledger k).length <
        d₀.auditEvents.length + (w.tables.ledger k).length) :
    (w.put client f).Kept pf k t₀ d₀ := by
  refine ⟨hk.sound, hk.stored, fun client' g hg => ?_, fun client' g hg hcase => ?_⟩
  · rcases put_flights hg with h | h
    · exact hheld g h
    · exact hk.held client' g h
  · rcases put_flights hg with h | h
    · exact hbehind g h hcase
    · exact hk.behind client' g h hcase

theorem put_none (hk : w.Kept pf k t₀ d₀) : (w.put client none).Kept pf k t₀ d₀ :=
  hk.put (fun _ h => (Option.some_ne_none _ h.symm).elim)
    fun _ h => (Option.some_ne_none _ h.symm).elim

end CaseDesk.Kept

/-- The result of a flight: the document it loaded with one more event, for its own case. -/
theorem DecisionFlight.Held.appends {work : DecisionWork} {d : DecisionFile} {r : SavedResult}
    (h : DecisionFlight.Held pf ⟨work, .computed d r⟩) :
    ∃ e, Appends pf d r.document e ∧ r.events = [e] ∧ r.case work.caller = work.case := by
  obtain ⟨key, hcompute⟩ := h.computed d r rfl
  obtain ⟨e, happends, hevents⟩ := compute_appends hcompute
  refine ⟨e, happends, hevents, ?_⟩
  rw [SavedResult.case, happends.named.trans h.named]
  rfl

theorem kept_step (hk : w.Kept pf k t₀ d₀) (h : w.Takes b pf a w') : w'.Kept pf k t₀ d₀ := by
  cases h with
  | passed => exact hk
  | loaded client work key d loads =>
    have hstored := load_stored loads
    refine hk.put (fun g hg => ?_) fun g hg hcase => ?_
    · cases hg
      exact ⟨hk.sound.getDecision_named hstored, fun _ _ h => by cases h⟩
    · cases hg
      subst hcase
      exact .inl hstored
  | dropped client => exact hk.put_none
  | computed client work key d r flight computes =>
    refine hk.put (fun g hg => ?_) fun g hg hcase => ?_
    · cases hg
      refine ⟨(hk.held client _ flight).named, fun d' r' h => ?_⟩
      cases h
      exact ⟨key, computes⟩
    · cases hg
      exact hk.behind client ⟨work, .loaded key d⟩ flight hcase
  | refused client work d r flight refuses => exact hk.put_none
  | saved client work d r t' flight saves =>
    obtain ⟨e, happends, hevents, hcase⟩ := (hk.held client _ flight).appends
    have hsound := sound_of_save hk.sound saves
    have hdocument := document_of_save (k := k) saves
    have hledger := ledger_of_save (k := k) hevents saves
    rw [hcase] at hdocument hledger
    have hsaved : CaseDesk.Kept pf k t₀ d₀ ⟨t', w.flights⟩ := by
      obtain ⟨d₁, hd₁, hle⟩ := hk.stored
      by_cases hkey : k = work.case
      · rw [if_pos hkey] at hdocument hledger
        have hlength : (t'.ledger k).length = (w.tables.ledger k).length + 1 := by
          rw [hledger, List.length_append, List.length_singleton]
        have hgrown : r.document.auditEvents.length = d.auditEvents.length + 1 := by
          rw [happends.events, List.length_append, List.length_singleton]
        have hflight : d.auditEvents.length + (t₀.ledger k).length ≤
            d₀.auditEvents.length + (w.tables.ledger k).length := by
          rcases hk.behind client _ flight hkey.symm with hsame | hlt
          · obtain rfl : d = d₁ := Option.some.inj (hsame.symm.trans hd₁)
            exact hle
          · exact hlt.le
        refine ⟨hsound, ⟨r.document, hdocument, ?_⟩, hk.held, fun client' g hg hcase' => .inr ?_⟩
        · simp only [hlength, hgrown]
          omega
        · simp only [hlength]
          rcases hk.behind client' g hg hcase' with hsame | hlt
          · rw [Option.some.inj (hsame.symm.trans hd₁)]
            omega
          · omega
      · rw [if_neg hkey] at hdocument hledger
        rw [List.append_nil] at hledger
        refine ⟨hsound, ⟨d₁, hdocument.trans hd₁, ?_⟩, hk.held, fun client' g hg hcase' => ?_⟩
        · simp only [hledger]
          exact hle
        · simp only [hdocument, hledger]
          exact hk.behind client' g hg hcase'
    exact hsaved.put_none

/-- The stored document holds every event committed for the case since the start, in the order
they were committed, and its events are one hash chain. -/
def LedgerIntact (pf : Platform) (k : CaseKey) (t₀ : DecisionTables) (d₀ : DecisionFile)
    (t : DecisionTables) : Prop :=
  ∃ d saved, t.document k = some d ∧ d.Chained pf ∧ t.ledger k = t₀.ledger k ++ saved ∧
    d.auditEvents = d₀.auditEvents ++ saved

/-- At a save for the case, the stored document is the one that the request loaded, or the id of
the event or the idempotency key is in its table already. -/
def Current (k : CaseKey) (x : Transition CaseDesk CaseAct) : Prop :=
  ∀ client work d r, x.label = .save client →
    x.before.flights client = some ⟨work, .computed d r⟩ → work.case = k →
    x.before.tables.document k = some d ∨ Taken work.caller r x.before.tables

theorem intact_iff_current (hk : w.Kept pf k t₀ d₀) (hi : LedgerIntact pf k t₀ d₀ w.tables)
    (h : w.Takes b pf a w') : LedgerIntact pf k t₀ d₀ w'.tables ↔ Current k ⟨w, a, w'⟩ := by
  cases h with
  | passed _ nothing =>
    exact iff_of_true hi fun client work d r hlabel hflight => (nothing _ _ _ _ hlabel hflight).elim
  | loaded client work key d loads => exact iff_of_true hi fun _ _ _ _ h => by cases h
  | dropped client => exact iff_of_true hi fun _ _ _ _ h => by cases h
  | computed client work key d r flight computes =>
    exact iff_of_true hi fun _ _ _ _ h => by cases h
  | refused client work d r flight refuses =>
    refine iff_of_true hi fun client' work' d' r' hlabel hflight hkey => .inr ?_
    cases hlabel
    cases flight.symm.trans hflight
    obtain ⟨e, -, hevents, hcase⟩ := (hk.held client _ flight).appends
    obtain ⟨d₁, hd₁, -⟩ := hk.stored
    by_contra hfree
    have hstored : (w.tables.document (r.case work.caller)).isSome := by
      rw [hcase, hkey, hd₁]
      rfl
    obtain ⟨t', hsave⟩ := save_of_not_taken hevents hstored hfree
    exact refuses t' hsave
  | saved client work d r t' flight saves =>
    obtain ⟨e, happends, hevents, hcase⟩ := (hk.held client _ flight).appends
    have hdocument := document_of_save (k := k) saves
    have hledger := ledger_of_save (k := k) hevents saves
    rw [hcase] at hdocument hledger
    by_cases hkey : k = work.case
    · rw [if_pos hkey] at hdocument hledger
      constructor
      · rintro ⟨d', saved, hd', -, hl', he'⟩ client' work' d'' r' hlabel hflight -
        cases hlabel
        cases flight.symm.trans hflight
        cases hdocument.symm.trans hd'
        have hlengths := congrArg List.length (hledger.symm.trans hl')
        have hevents' := congrArg List.length (happends.events.symm.trans he')
        simp only [List.length_append, List.length_singleton] at hlengths hevents'
        refine (hk.behind client _ flight hkey.symm).imp id fun hlt => ?_
        simp only [DecisionStage.document] at hlt
        omega
      · intro hcurrent
        obtain ⟨d₁, saved, hd₁, hchained, hl, he⟩ := hi
        have hsame : w.tables.document k = some d := by
          refine (hcurrent client work d r rfl flight hkey.symm).resolve_right ?_
          exact not_taken_of_save hk.sound saves
        cases hsame.symm.trans hd₁
        refine ⟨r.document, saved ++ [e], hdocument, happends.chained hchained, ?_, ?_⟩
        · rw [← List.append_assoc, ← hl]
          exact hledger
        · rw [happends.events, he, List.append_assoc]
    · rw [if_neg hkey] at hdocument hledger
      rw [List.append_nil] at hledger
      refine iff_of_true ?_ fun client' work' d' r' hlabel hflight hcase' => ?_
      · obtain ⟨d₁, saved, hd₁, hchained, hl, he⟩ := hi
        exact ⟨d₁, saved, hdocument.trans hd₁, hchained, hledger.trans hl, he⟩
      · cases hlabel
        cases flight.symm.trans hflight
        exact absurd hcase'.symm hkey

theorem status_of_current (hk : w.Kept pf k t₀ d₀) (h : w.Takes b pf a w')
    (hcurrent : Current k ⟨w, a, w'⟩) {d d' : DecisionFile} (hd : w.tables.document k = some d)
    (hd' : w'.tables.document k = some d') : StatusMoves d d' := by
  cases h with
  | passed => exact .inl (congrArg DecisionFile.status (Option.some.inj (hd'.symm.trans hd)))
  | loaded => exact .inl (congrArg DecisionFile.status (Option.some.inj (hd'.symm.trans hd)))
  | dropped => exact .inl (congrArg DecisionFile.status (Option.some.inj (hd'.symm.trans hd)))
  | computed => exact .inl (congrArg DecisionFile.status (Option.some.inj (hd'.symm.trans hd)))
  | refused => exact .inl (congrArg DecisionFile.status (Option.some.inj (hd'.symm.trans hd)))
  | saved client work d₁ r t' flight saves =>
    have hheld := hk.held client _ flight
    obtain ⟨e, -, -, hcase⟩ := hheld.appends
    have hdocument := document_of_save (k := k) saves
    rw [hcase] at hdocument
    by_cases hkey : k = work.case
    · rw [if_pos hkey] at hdocument
      have hsame : w.tables.document k = some d₁ := by
        refine (hcurrent client work d₁ r rfl flight hkey.symm).resolve_right ?_
        exact not_taken_of_save hk.sound saves
      cases hsame.symm.trans hd
      cases hdocument.symm.trans hd'
      obtain ⟨key, hcompute⟩ := hheld.computed _ r rfl
      exact compute_status hcompute
    · rw [if_neg hkey] at hdocument
      exact .inl (congrArg DecisionFile.status
        (Option.some.inj (hd'.symm.trans (hdocument.trans hd))))

/-- No committed event is lost, the chain stays linear, and the status does not move back. -/
structure SafeStep (pf : Platform) (k : CaseKey) (t₀ : DecisionTables) (d₀ : DecisionFile)
    (x : Transition CaseDesk CaseAct) : Prop where
  intact : LedgerIntact pf k t₀ d₀ x.after.tables
  status : ∀ d d', x.before.tables.document k = some d → x.after.tables.document k = some d' →
    StatusMoves d d'

/-- However the steps of evaluations and transitions interleave, every one of them is safe exactly
when no save goes through over a document that changed since it was loaded. -/
theorem interleaving_safe_iff (b : Backend) (pf : Platform) (k : CaseKey) {t₀ : DecisionTables}
    {d₀ : DecisionFile} (hs : t₀.Sound) (hd : t₀.document k = some d₀) (hchained : d₀.Chained pf)
    (acts : List CaseAct) :
    (∀ x ∈ execute (CaseDesk.next b pf) (.idle t₀) acts, SafeStep pf k t₀ d₀ x) ↔
      ∀ x ∈ execute (CaseDesk.next b pf) (.idle t₀) acts, Current k x := by
  have hrun := run_execute (fun w a w' => w.Takes b pf a w') (CaseDesk.next b pf)
    (next_takes b pf) (.idle t₀) acts
  have hidle : (CaseDesk.idle t₀).Kept pf k t₀ d₀ := .idle hs hd
  have hstart : LedgerIntact pf k t₀ d₀ (CaseDesk.idle t₀).tables :=
    ⟨d₀, [], hd, hchained, (List.append_nil _).symm, (List.append_nil _).symm⟩
  have hiff := hrun.forall_after_iff (CaseDesk.Kept pf k t₀ d₀)
    (fun w => LedgerIntact pf k t₀ d₀ w.tables) (Current k) hidle hstart
    (fun _ _ _ => kept_step) fun _ _ _ => intact_iff_current
  constructor
  · exact fun hsafe => hiff.mp fun x hx => (hsafe x hx).intact
  · intro hcurrent x hx
    refine ⟨hiff.mpr hcurrent x hx, fun d d' => ?_⟩
    obtain ⟨pre, post, hsplit⟩ := List.append_of_mem hx
    rw [hsplit] at hrun
    obtain ⟨hpre, htakes, -⟩ := hrun.split
    have hkept := hpre.invariant_state (CaseDesk.Kept pf k t₀ d₀) hidle fun _ _ _ => kept_step
    exact status_of_current hkept htakes (hcurrent x hx)

end Interleavings

/-! ## An evaluation that undoes a transition -/

def openedCase (b : Backend) : DecisionTables :=
  served b plainPlatform .empty (.create authorCaller draftCase)

def evaluationWork : DecisionWork := .evaluate validatorCaller "case-1"

def validationWork : DecisionWork :=
  .transition { validatorCaller with idempotencyKey := some "key-2" } "case-1" .validation
    "2026-01-01" fun _ => "nonce"

/-- Both load the case in DRAFT; the transition is saved before the evaluation. -/
def raceActs : List CaseAct :=
  [.load 0 evaluationWork, .load 1 validationWork, .compute 0, .compute 1, .save 1, .save 0]

theorem openedCase_document (b : Backend) : (openedCase b).document ("tenant-a", "case-1") =
    some (draftCase.withCreation plainPlatform authorCaller) := by
  cases b <;> rfl

theorem interleaving_safe_iff_race :
    (∀ x ∈ execute (CaseDesk.next .sqlite plainPlatform) (.idle (openedCase .sqlite)) raceActs,
      SafeStep plainPlatform ("tenant-a", "case-1") (openedCase .sqlite)
        (draftCase.withCreation plainPlatform authorCaller) x) ↔
      ∀ x ∈ execute (CaseDesk.next .sqlite plainPlatform) (.idle (openedCase .sqlite)) raceActs,
        Current ("tenant-a", "case-1") x :=
  interleaving_safe_iff .sqlite plainPlatform _ (sound_served DecisionTables.sound_empty _)
    (openedCase_document .sqlite) (Chains.linked_singleton.mpr rfl) raceActs

/-- The desk after the first steps of the race. -/
def raceDesk (b : Backend) (n : ℕ) : CaseDesk :=
  (raceActs.take n).foldl (CaseDesk.next b plainPlatform) (.idle (openedCase b))

theorem raceDesk_documents (b : Backend) :
    ((raceDesk b 5).tables.document ("tenant-a", "case-1")).map DecisionFile.status =
        some .validation ∧
      ((raceDesk b 6).tables.document ("tenant-a", "case-1")).map DecisionFile.status =
        some .draft ∧
      ((raceDesk b 6).tables.ledger ("tenant-a", "case-1")).map AuditEvent.eventId =
        ["case-1:created:1", "case-1:transition:2", "case-1:evaluation:2"] ∧
      ((raceDesk b 6).tables.document ("tenant-a", "case-1")).map
        (fun d => d.auditEvents.map AuditEvent.eventId) =
          some ["case-1:created:1", "case-1:evaluation:2"] := by
  cases b <;> decide

/-- A save drops an event that was committed before it, and the status moves back. -/
def Undoes (k : CaseKey) (x : Transition CaseDesk CaseAct) : Prop :=
  ∃ d d', x.before.tables.document k = some d ∧ x.after.tables.document k = some d' ∧
    ¬ StatusMoves d d' ∧ ∃ e ∈ x.after.tables.ledger k, e ∉ d'.auditEvents

theorem raceDesk_undoes (b : Backend) :
    Undoes ("tenant-a", "case-1") ⟨raceDesk b 5, .save 0, raceDesk b 6⟩ := by
  obtain ⟨hbefore, hafter, hledger, hevents⟩ := raceDesk_documents b
  obtain ⟨d, hd, hstatus⟩ := Option.map_eq_some_iff.mp hbefore
  obtain ⟨d', hd', hstatus'⟩ := Option.map_eq_some_iff.mp hafter
  rw [hd', Option.map_some, Option.some.injEq] at hevents
  obtain ⟨e, he, hid⟩ : ∃ e ∈ (raceDesk b 6).tables.ledger ("tenant-a", "case-1"),
      e.eventId = "case-1:transition:2" := by
    rw [← List.mem_map, hledger]
    decide
  refine ⟨d, d', hd, hd', ?_, e, he, fun hmem => ?_⟩
  · rintro (hsame | ⟨role, hrole⟩)
    · rw [hstatus, hstatus'] at hsame
      cases hsame
    · rw [hstatus, hstatus'] at hrole
      cases hrole
  · have hlisted := List.mem_map_of_mem (f := AuditEvent.eventId) hmem
    rw [hevents, hid] at hlisted
    revert hlisted
    decide

/-- An evaluation that loaded the case before a transition was saved takes the transition and its
event out of the document, with either backend. -/
theorem race_undoes_transition :
    (∃ x ∈ execute (CaseDesk.next .sqlite plainPlatform) (.idle (openedCase .sqlite)) raceActs,
      Undoes ("tenant-a", "case-1") x) ∧
    ∃ x ∈ execute (CaseDesk.next .postgresql plainPlatform) (.idle (openedCase .postgresql))
      raceActs, Undoes ("tenant-a", "case-1") x := by
  have hlast (b : Backend) : ⟨raceDesk b 5, .save 0, raceDesk b 6⟩ ∈
      execute (CaseDesk.next b plainPlatform) (.idle (openedCase b)) raceActs :=
    .tail _ (.tail _ (.tail _ (.tail _ (.tail _ (.head _)))))
  exact ⟨⟨_, hlast .sqlite, raceDesk_undoes .sqlite⟩,
    ⟨_, hlast .postgresql, raceDesk_undoes .postgresql⟩⟩

end DecisionAssurance
