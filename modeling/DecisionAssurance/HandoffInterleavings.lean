import DecisionAssurance.DecisionConcurrency
import DecisionAssurance.HandoffFrame

/-!
# Handoffs side by side

A handoff holds its decision from the moment it reads it: PostgreSQL locks the row of the
decision, SQLite the database. Whatever the clients of the tables do meanwhile, a handoff answers
what it would answer if it ran at once where it ends, and evidence that was handed off is answered
with the document as it is by then.
-/

namespace DecisionAssurance

open Research Tables Runs

structure HandoffCall where
  tenant : TenantContext
  decisionFileId : String
  expectedDocumentHash : String
  evidence : List DecisionEvidence

namespace HandoffCall

variable (b : Backend) (pf : Platform) (call : HandoffCall)

def case : CaseKey := (call.tenant.tenantId, call.decisionFileId)

/-- The primary key of the handoff in `research_handoffs`. -/
def handoffKey (v : Delivery) : String × String × String × String :=
  (call.tenant.tenantId, v.runId, call.decisionFileId, v.handoffId pf)

/-- The call as one transaction. -/
def atOnce (stored : List (String × String)) (t : DecisionTables) :
    Except HandoffError (DecisionTables × DecisionFile) :=
  attach b pf stored call.tenant call.decisionFileId call.expectedDocumentHash call.evidence t

/-- The update of the document and the two inserts. -/
def write (stored : List (String × String)) (v : Delivery) (d d' : DecisionFile) (t : DecisionTables) :
    Except HandoffError DecisionTables := do
  let t ← (DecisionTables.insertAudit b call.tenant call.decisionFileId
    { t with
      decisions := DecisionTables.writeDocument call.tenant call.decisionFileId d' t.decisions }
    (handoffEvent pf call.tenant call.decisionFileId d v)).mapError .repository
  let rows ← insertHandoff b stored ⟨call.tenant.tenantId, v.runId, call.decisionFileId,
    v.handoffId pf, payloadHash pf d'.toJson⟩ t.researchHandoffs
  return { t with researchHandoffs := rows }

/-- The document that the evidence makes of another one. -/
def compute (v : Delivery) (d : DecisionFile) : Except HandoffError DecisionFile :=
  attachDocument pf call.tenant call.decisionFileId call.expectedDocumentHash v d

end HandoffCall

section AtOnce

variable {b : Backend} {pf : Platform} {stored : List (String × String)} {call : HandoffCall}
  {v : Delivery} {t : DecisionTables} {d d' : DecisionFile}

theorem atOnce_undelivered {e : HandoffRejection} (h : deliver call.evidence = .error e) :
    call.atOnce b pf stored t = .error (.rejected e) := by
  rw [HandoffCall.atOnce, attach, h]
  rfl

theorem atOnce_missing (h : deliver call.evidence = .ok v) (hd : t.document call.case = none) :
    call.atOnce b pf stored t = .error (.rejected .decisionNotFound) := by
  rw [HandoffCall.atOnce, attach, h, DecisionTables.getDecision_eq]
  change (orRaise _ (t.document call.case) >>= _) = _
  rw [hd]
  rfl

theorem atOnce_replayed (h : deliver call.evidence = .ok v) (hd : t.document call.case = some d)
    (hreplay : lookup HandoffRow.key (call.handoffKey pf v) t.researchHandoffs ≠ none) :
    call.atOnce b pf stored t = .ok (t, d) :=
  attach_replayed h hd hreplay

/-- A handoff that is no replay computes a document and writes it. -/
theorem atOnce_fresh (h : deliver call.evidence = .ok v) (hd : t.document call.case = some d)
    (hreplay : lookup HandoffRow.key (call.handoffKey pf v) t.researchHandoffs = none) :
    call.atOnce b pf stored t = (call.compute pf v d >>= fun d' =>
      (call.write b pf stored v d d' t).map fun t' => (t', d')) := by
  have hload : t.getDecision call.tenant call.decisionFileId = some d := hd
  unfold HandoffCall.handoffKey at hreplay
  unfold HandoffCall.atOnce attach
  rw [h, hload]
  change (if _ then _ else _) = _
  rw [if_neg (Option.not_isSome_iff_eq_none.mpr hreplay)]
  refine congrArg _ (funext fun d' => ?_)
  unfold HandoffCall.write
  cases DecisionTables.insertAudit b call.tenant call.decisionFileId _ _ with
  | error e => rfl
  | ok t₁ =>
    change (insertHandoff _ _ _ _ >>= _) = Except.map _ (insertHandoff _ _ _ _ >>= _)
    cases insertHandoff b stored _ t₁.researchHandoffs <;> rfl

/-- A handoff whose event has the id of one in the tables violates their key. -/
theorem atOnce_taken (h : deliver call.evidence = .ok v) (hd : t.document call.case = some d)
    (hreplay : lookup HandoffRow.key (call.handoffKey pf v) t.researchHandoffs = none)
    (hcompute : call.compute pf v d = .ok d') {r : AuditRow} (hr : r ∈ t.auditEvents)
    (hkey : r.key = AuditRow.key ((handoffEvent pf call.tenant call.decisionFileId d v).row
      call.tenant call.decisionFileId)) :
    call.atOnce b pf stored t = .error (.repository b.violation) := by
  have hinsert : insertRow AuditRow.key ((handoffEvent pf call.tenant call.decisionFileId d v).row
      call.tenant call.decisionFileId) t.auditEvents = none := insertRow_of_taken hr hkey
  rw [atOnce_fresh h hd hreplay, hcompute]
  change (HandoffCall.write b pf call stored v d d' t).map _ = _
  unfold HandoffCall.write DecisionTables.insertAudit
  rw [hinsert]
  rfl

end AtOnce

/-! ## Handoffs in flight -/

inductive HandoffStage
  | locked (v : Delivery) (d : DecisionFile)
  | checked (v : Delivery) (d d' : DecisionFile)

def HandoffStage.delivery : HandoffStage → Delivery
  | locked v _ | checked v _ _ => v

/-- The document as it was read. -/
def HandoffStage.document : HandoffStage → DecisionFile
  | locked _ d | checked _ d _ => d

structure HandoffFlight where
  call : HandoffCall
  stage : HandoffStage

/-- The keys of `research_runs`, the tables, and the handoffs that clients are in the middle of. -/
structure HandoffFloor where
  runs : List (String × String)
  tables : DecisionTables
  flights : ℕ → Option HandoffFlight

namespace HandoffFloor

def idle (stored : List (String × String)) (t : DecisionTables) : HandoffFloor :=
  ⟨stored, t, fun _ => none⟩

def put (w : HandoffFloor) (client : ℕ) (f : Option HandoffFlight) : HandoffFloor :=
  ⟨w.runs, w.tables, Function.update w.flights client f⟩

/-- What a transaction on one case keeps from one on another: SQLite's lock is on the database. -/
def Excludes (b : Backend) (k k' : CaseKey) : Prop := b = .sqlite ∨ k = k'

/-- No handoff holds what a transaction on a case needs. -/
def Free (b : Backend) (w : HandoffFloor) (k : CaseKey) : Prop :=
  ∀ client f, w.flights client = some f → ¬ Excludes b f.call.case k

end HandoffFloor

/-- Nothing is written of a case: its document, and the handoffs to it. -/
structure SameCase (k : CaseKey) (t t' : DecisionTables) : Prop where
  document : t'.document k = t.document k
  handoffs : ∀ runId handoffId, lookup HandoffRow.key (k.1, runId, k.2, handoffId)
    t'.researchHandoffs = lookup HandoffRow.key (k.1, runId, k.2, handoffId) t.researchHandoffs

/-- No decision and no handoff is deleted. -/
structure Keeping (t t' : DecisionTables) : Prop where
  documents : ∀ k, (t.document k).isSome → (t'.document k).isSome
  handoffs : ∀ key, lookup HandoffRow.key key t.researchHandoffs ≠ none →
    lookup HandoffRow.key key t'.researchHandoffs ≠ none

inductive HandoffEvent
  | began (client : ℕ) (call : HandoffCall)
  | computed (client : ℕ)
  | answered (client : ℕ) (call : HandoffCall) (answer : Except HandoffError DecisionFile)
  | other

/-- The steps of the handoffs. Other clients wait for the cases that handoffs hold. -/
inductive HandoffFloor.Step (b : Backend) (pf : Platform) (w : HandoffFloor) :
    HandoffEvent → HandoffFloor → Prop
  | undelivered (client : ℕ) (call : HandoffCall) (e : HandoffRejection)
      (fails : deliver call.evidence = .error e) :
      Step b pf w (.answered client call (.error (.rejected e))) w
  | missing (client : ℕ) (call : HandoffCall) (v : Delivery)
      (delivered : deliver call.evidence = .ok v) (absent : w.tables.document call.case = none) :
      Step b pf w (.answered client call (.error (.rejected .decisionNotFound))) w
  | began (client : ℕ) (call : HandoffCall) (v : Delivery) (d : DecisionFile)
      (idle : w.flights client = none) (free : w.Free b call.case)
      (delivered : deliver call.evidence = .ok v) (present : w.tables.document call.case = some d) :
      Step b pf w (.began client call) (w.put client (some ⟨call, .locked v d⟩))
  | replayed (client : ℕ) (call : HandoffCall) (v : Delivery) (d : DecisionFile)
      (flight : w.flights client = some ⟨call, .locked v d⟩)
      (replay : lookup HandoffRow.key (call.handoffKey pf v) w.tables.researchHandoffs ≠ none) :
      Step b pf w (.answered client call (.ok d)) (w.put client none)
  | rejected (client : ℕ) (call : HandoffCall) (v : Delivery) (d : DecisionFile) (e : HandoffError)
      (flight : w.flights client = some ⟨call, .locked v d⟩)
      (fresh : lookup HandoffRow.key (call.handoffKey pf v) w.tables.researchHandoffs = none)
      (fails : call.compute pf v d = .error e) :
      Step b pf w (.answered client call (.error e)) (w.put client none)
  | computed (client : ℕ) (call : HandoffCall) (v : Delivery) (d d' : DecisionFile)
      (flight : w.flights client = some ⟨call, .locked v d⟩)
      (fresh : lookup HandoffRow.key (call.handoffKey pf v) w.tables.researchHandoffs = none)
      (computes : call.compute pf v d = .ok d') :
      Step b pf w (.computed client) (w.put client (some ⟨call, .checked v d d'⟩))
  | violated (client : ℕ) (call : HandoffCall) (v : Delivery) (d d' : DecisionFile)
      (e : HandoffError) (flight : w.flights client = some ⟨call, .checked v d d'⟩)
      (fails : call.write b pf w.runs v d d' w.tables = .error e) :
      Step b pf w (.answered client call (.error e)) (w.put client none)
  | committed (client : ℕ) (call : HandoffCall) (v : Delivery) (d d' : DecisionFile)
      (t' : DecisionTables) (flight : w.flights client = some ⟨call, .checked v d d'⟩)
      (writes : call.write b pf w.runs v d d' w.tables = .ok t') :
      Step b pf w (.answered client call (.ok d'))
        (HandoffFloor.put ⟨w.runs, t', w.flights⟩ client none)
  | other (runs : List (String × String)) (t' : DecisionTables)
      (waits : ∀ client f, w.flights client = some f → SameCase f.call.case w.tables t')
      (keeps : Keeping w.tables t') : Step b pf w .other ⟨runs, t', w.flights⟩

section Floor

variable {b : Backend} {pf : Platform} {stored : List (String × String)} {call : HandoffCall}
  {v : Delivery} {t t' : DecisionTables} {d d' : DecisionFile} {w w' : HandoffFloor} {x : HandoffEvent}

/-- What a handoff has read and computed is still so. -/
structure HandoffFlight.Held (pf : Platform) (t : DecisionTables) (f : HandoffFlight) : Prop where
  delivered : deliver f.call.evidence = .ok f.stage.delivery
  present : t.document f.call.case = some f.stage.document
  checked : ∀ v d d', f.stage = .checked v d d' →
    lookup HandoffRow.key (f.call.handoffKey pf v) t.researchHandoffs = none ∧
      f.call.compute pf v d = .ok d'

theorem HandoffFlight.Held.sameCase {f : HandoffFlight} (h : f.Held pf t)
    (hsame : SameCase f.call.case t t') : f.Held pf t' := by
  refine ⟨h.delivered, hsame.document.trans h.present, fun v d d' hstage => ?_⟩
  obtain ⟨hfresh, hcompute⟩ := h.checked v d d' hstage
  exact ⟨(hsame.handoffs v.runId (v.handoffId pf)).trans hfresh, hcompute⟩

/-- Every handoff in flight holds, and no two of them hold the same. -/
structure HandoffFloor.Sound (b : Backend) (pf : Platform) (w : HandoffFloor) : Prop where
  held : ∀ client f, w.flights client = some f → f.Held pf w.tables
  apart : ∀ client client' f f', w.flights client = some f → w.flights client' = some f' →
    client ≠ client' → ¬ HandoffFloor.Excludes b f.call.case f'.call.case

theorem HandoffFloor.put_cases {client client' : ℕ} {f : Option HandoffFlight} {g : HandoffFlight}
    (h : (w.put client f).flights client' = some g) :
    (client' = client ∧ f = some g) ∨ (client' ≠ client ∧ w.flights client' = some g) := by
  change Function.update w.flights client f client' = some g at h
  by_cases hc : client' = client
  · subst hc
    rw [Function.update_self] at h
    exact .inl ⟨rfl, h⟩
  · rw [Function.update_of_ne hc] at h
    exact .inr ⟨hc, h⟩

theorem HandoffFloor.Sound.idle (stored : List (String × String)) (t : DecisionTables) :
    (HandoffFloor.idle stored t).Sound b pf :=
  ⟨fun _ _ h => (Option.some_ne_none _ h.symm).elim,
    fun _ _ _ _ h => (Option.some_ne_none _ h.symm).elim⟩

theorem HandoffFloor.Sound.drop (hw : w.Sound b pf) (client : ℕ) :
    (w.put client none).Sound b pf := by
  have hkept : ∀ client' g, (w.put client none).flights client' = some g →
      w.flights client' = some g := by
    intro client' g hg
    rcases put_cases hg with ⟨-, hnone⟩ | ⟨-, h⟩
    · cases hnone
    · exact h
  exact ⟨fun client' g hg => hw.held client' g (hkept client' g hg),
    fun c c' f f' hf hf' hne => hw.apart c c' f f' (hkept c f hf) (hkept c' f' hf') hne⟩

/-! ## What a handoff writes -/

theorem write_cases (h : call.write b pf stored v d d' t = .ok t') :
    t'.decisions = DecisionTables.writeDocument call.tenant call.decisionFileId d' t.decisions ∧
      ∃ row, row.key = call.handoffKey pf v ∧
        t'.researchHandoffs = t.researchHandoffs ++ [row] := by
  obtain ⟨t₁, hinsert, h⟩ := bind_ok_cases h
  obtain ⟨handoffs, hhandoffs, h⟩ := bind_ok_cases h
  cases h
  obtain ⟨audit, haudit, rfl⟩ := Option.map_eq_some_iff.mp (orRaise_ok.mp (mapError_ok hinsert))
  obtain ⟨-, rfl⟩ := insertHandoff_cases hhandoffs
  exact ⟨rfl, _, rfl, rfl⟩

theorem sameCase_of_write (hd : t.document call.case = some d)
    (h : call.write b pf stored v d d' t = .ok t') {k : CaseKey} (hk : k ≠ call.case) :
    SameCase k t t' := by
  obtain ⟨hdecisions, row, hkey, hhandoffs⟩ := write_cases h
  constructor
  · rw [DecisionTables.document_writeDocument hd hdecisions]
    exact if_neg hk
  · intro runId handoffId
    rw [hhandoffs]
    refine lookup_append_of_ne fun hsame => hk ?_
    rw [hkey, HandoffCall.handoffKey, Prod.mk.injEq, Prod.mk.injEq, Prod.mk.injEq] at hsame
    exact Prod.ext hsame.1.symm hsame.2.2.1.symm

theorem keeping_of_write (hd : t.document call.case = some d)
    (h : call.write b pf stored v d d' t = .ok t') : Keeping t t' := by
  obtain ⟨hdecisions, row, -, hhandoffs⟩ := write_cases h
  constructor
  · intro k hk
    rw [DecisionTables.document_writeDocument hd hdecisions]
    split_ifs
    · rfl
    · exact hk
  · intro key hkey
    rw [hhandoffs, lookup_append_singleton]
    obtain ⟨row', hrow'⟩ := Option.ne_none_iff_exists'.mp hkey
    rw [hrow']
    exact Option.some_ne_none _

/-! ## A handoff answers as if it ran at once -/

theorem sound_step (hw : w.Sound b pf) (h : w.Step b pf x w') : w'.Sound b pf := by
  cases h with
  | undelivered => exact hw
  | missing => exact hw
  | began client call v d idle free delivered present =>
    constructor
    · intro client' g hg
      rcases HandoffFloor.put_cases hg with ⟨-, hnew⟩ | ⟨-, h⟩
      · cases hnew
        exact ⟨delivered, present, fun _ _ _ h => by cases h⟩
      · exact hw.held client' g h
    · intro c c' f f' hf hf' hne
      rcases HandoffFloor.put_cases hf with ⟨hc, hnew⟩ | ⟨-, hold⟩
      · rcases HandoffFloor.put_cases hf' with ⟨hc', -⟩ | ⟨-, hold'⟩
        · exact absurd (hc.trans hc'.symm) hne
        · cases hnew
          exact fun hexcludes => free c' f' hold' (hexcludes.imp id Eq.symm)
      · rcases HandoffFloor.put_cases hf' with ⟨-, hnew'⟩ | ⟨-, hold'⟩
        · cases hnew'
          exact free c f hold
        · exact hw.apart c c' f f' hold hold' hne
  | replayed client => exact hw.drop client
  | rejected client => exact hw.drop client
  | violated client => exact hw.drop client
  | computed client call v d d' flight fresh computes =>
    have hcase : ∀ c f, (w.put client (some ⟨call, .checked v d d'⟩)).flights c = some f →
        ∃ f₀, w.flights c = some f₀ ∧ f₀.call = f.call := by
      intro c f hf
      rcases HandoffFloor.put_cases hf with ⟨hc, hnew⟩ | ⟨-, hold⟩
      · cases hnew
        subst hc
        exact ⟨_, flight, rfl⟩
      · exact ⟨f, hold, rfl⟩
    constructor
    · intro client' g hg
      rcases HandoffFloor.put_cases hg with ⟨-, hnew⟩ | ⟨-, h⟩
      · cases hnew
        have hheld := hw.held client _ flight
        refine ⟨hheld.delivered, hheld.present, fun _ _ _ hstage => ?_⟩
        cases hstage
        exact ⟨fresh, computes⟩
      · exact hw.held client' g h
    · intro c c' f f' hf hf' hne
      obtain ⟨f₀, hf₀, hcall⟩ := hcase c f hf
      obtain ⟨f₀', hf₀', hcall'⟩ := hcase c' f' hf'
      rw [← hcall, ← hcall']
      exact hw.apart c c' f₀ f₀' hf₀ hf₀' hne
  | committed client call v d d' t' flight writes =>
    have hpresent : w.tables.document call.case = some d := (hw.held client _ flight).present
    have hdropped := hw.drop client
    refine ⟨fun client' g hg => ?_, hdropped.apart⟩
    rcases HandoffFloor.put_cases hg with ⟨-, hnone⟩ | ⟨hne, h⟩
    · cases hnone
    · refine (hw.held client' g h).sameCase (sameCase_of_write hpresent writes ?_)
      intro hsame
      exact hw.apart client' client g _ h flight hne (.inr hsame)
  | other runs t' waits keeps =>
    exact ⟨fun client f hf => (hw.held client f hf).sameCase (waits client f hf), hw.apart⟩

/-- What a handoff answers, and the tables it leaves, are those of the call run at once. -/
theorem answered_at_once {client : ℕ} {answer : Except HandoffError DecisionFile}
    (hw : w.Sound b pf) (h : w.Step b pf (.answered client call answer) w') :
    call.atOnce b pf w.runs w.tables = answer.map fun d => (w'.tables, d) := by
  cases h with
  | undelivered _ _ e fails => exact atOnce_undelivered fails
  | missing _ _ v delivered absent => exact atOnce_missing delivered absent
  | replayed _ _ v d flight replay =>
    have hheld := hw.held client _ flight
    exact atOnce_replayed hheld.delivered hheld.present replay
  | rejected _ _ v d e flight fresh fails =>
    have hheld := hw.held client _ flight
    rw [atOnce_fresh hheld.delivered hheld.present fresh]
    change (call.compute pf v d >>= _) = _
    rw [fails]
    rfl
  | violated _ _ v d d' e flight fails =>
    have hheld := hw.held client _ flight
    obtain ⟨hfresh, hcompute⟩ := hheld.checked v d d' rfl
    rw [atOnce_fresh hheld.delivered hheld.present hfresh]
    change (call.compute pf v d >>= _) = _
    rw [hcompute, ok_bind]
    change Except.map _ (call.write b pf w.runs v d d' w.tables) = _
    rw [fails]
    rfl
  | committed _ _ v d d' t' flight writes =>
    have hheld := hw.held client _ flight
    obtain ⟨hfresh, hcompute⟩ := hheld.checked v d d' rfl
    rw [atOnce_fresh hheld.delivered hheld.present hfresh]
    change (call.compute pf v d >>= _) = _
    rw [hcompute, ok_bind]
    change Except.map _ (call.write b pf w.runs v d d' w.tables) = _
    rw [writes]
    rfl

/-- Evidence of a call has been handed off to a decision that is there. -/
def OnRecord (pf : Platform) (call : HandoffCall) (t : DecisionTables) : Prop :=
  ∃ v, deliver call.evidence = .ok v ∧
    lookup HandoffRow.key (call.handoffKey pf v) t.researchHandoffs ≠ none ∧
    (t.document call.case).isSome

theorem OnRecord.keeping (h : OnRecord pf call t) (hkeeps : Keeping t t') :
    OnRecord pf call t' := by
  obtain ⟨v, hdeliver, hkey, hdocument⟩ := h
  exact ⟨v, hdeliver, hkeeps.handoffs _ hkey, hkeeps.documents _ hdocument⟩

/-- A handoff that succeeds is a replay or writes. -/
theorem atOnce_ok (h : call.atOnce b pf stored t = .ok (t', d')) :
    (t' = t ∧ OnRecord pf call t) ∨ ∃ v d, deliver call.evidence = .ok v ∧
      t.document call.case = some d ∧ call.write b pf stored v d d' t = .ok t' := by
  obtain ⟨v, d, hdeliver, hload, ⟨hreplay, rfl, -⟩ | ⟨hreplay, -⟩⟩ := attach_cases h
  · refine .inl ⟨rfl, v, hdeliver, hreplay, ?_⟩
    rw [DecisionTables.getDecision_eq] at hload
    rw [HandoffCall.case, hload]
    rfl
  · rw [atOnce_fresh hdeliver hload hreplay] at h
    obtain ⟨d₁, -, hwritten⟩ := bind_ok_cases h
    cases hwrite : call.write b pf stored v d d₁ t with
    | error e =>
      rw [hwrite] at hwritten
      cases hwritten
    | ok t₁ =>
      rw [hwrite] at hwritten
      cases hwritten
      exact .inr ⟨v, d, hdeliver, hload, hwrite⟩

theorem recorded_of_ok (h : call.atOnce b pf stored t = .ok (t', d')) : OnRecord pf call t' := by
  rcases atOnce_ok h with ⟨rfl, hrecorded⟩ | ⟨v, d, hdeliver, hpresent, hwrite⟩
  · exact hrecorded
  · obtain ⟨-, row, hkey, hhandoffs⟩ := write_cases hwrite
    have hdocument : (t.document call.case).isSome := by
      rw [hpresent]
      rfl
    refine ⟨v, hdeliver, ?_, (keeping_of_write hpresent hwrite).documents _ hdocument⟩
    rw [hhandoffs, lookup_append_singleton, if_pos hkey]
    cases lookup HandoffRow.key (call.handoffKey pf v) t.researchHandoffs with
    | none => exact Option.some_ne_none _
    | some row' => exact Option.some_ne_none _

theorem keeping_step (hw : w.Sound b pf) (h : w.Step b pf x w') : Keeping w.tables w'.tables := by
  have hrefl : Keeping w.tables w.tables := ⟨fun _ h => h, fun _ h => h⟩
  cases h with
  | undelivered => exact hrefl
  | missing => exact hrefl
  | began => exact hrefl
  | replayed => exact hrefl
  | rejected => exact hrefl
  | computed => exact hrefl
  | violated => exact hrefl
  | committed client call v d d' t' flight writes =>
    exact keeping_of_write (hw.held client _ flight).present writes
  | other runs t' waits keeps => exact keeps

/-- Evidence that has been handed off is answered with the document as it is, whatever hash is
expected, and nothing changes. -/
theorem atOnce_recorded {hash : String} (h : OnRecord pf call t) :
    ∃ d, t.document call.case = some d ∧
      HandoffCall.atOnce b pf { call with expectedDocumentHash := hash } stored t = .ok (t, d) := by
  obtain ⟨v, hdeliver, hkey, hdocument⟩ := h
  obtain ⟨d, hd⟩ := Option.isSome_iff_exists.mp hdocument
  exact ⟨d, hd, atOnce_replayed hdeliver hd hkey⟩

/-- After an answer with a document, every answer to the same evidence is the document as it is,
and nothing changes. -/
def HandedOnce (tr : Trace HandoffFloor HandoffEvent) : Prop :=
  ∀ pre x mid y post client client' call hash d answer,
    tr = pre ++ x :: (mid ++ y :: post) → x.label = .answered client call (.ok d) →
    y.label = .answered client' { call with expectedDocumentHash := hash } answer →
    ∃ d', y.before.tables.document call.case = some d' ∧ answer = .ok d' ∧
      y.after.tables = y.before.tables

theorem handedOnce_of_run {tr : Trace HandoffFloor HandoffEvent}
    (hrun : Run (HandoffFloor.Step b pf) (.idle stored t) tr w) : HandedOnce tr := by
  rintro pre x mid y post client client' call hash d answer rfl hx hy
  obtain ⟨hpre, hxstep, hrest⟩ := hrun.split
  obtain ⟨hmid, hystep, -⟩ := hrest.split
  have hsound : x.before.Sound b pf :=
    hpre.invariant_state (HandoffFloor.Sound b pf) (.idle stored t) fun _ _ _ => sound_step
  have hrecorded : OnRecord pf call x.after.tables := by
    rw [hx] at hxstep
    exact recorded_of_ok (answered_at_once hsound hxstep)
  have hbefore : y.before.Sound b pf ∧ OnRecord pf call y.before.tables :=
    hmid.invariant_state (fun w => w.Sound b pf ∧ OnRecord pf call w.tables)
      ⟨sound_step hsound hxstep, hrecorded⟩
      fun _ _ _ h hstep => ⟨sound_step h.1 hstep, h.2.keeping (keeping_step h.1 hstep)⟩
  have hreplayed : ∃ d, y.before.tables.document call.case = some d ∧
      HandoffCall.atOnce b pf { call with expectedDocumentHash := hash } y.before.runs
        y.before.tables =
        .ok (y.before.tables, d) := atOnce_recorded hbefore.2
  obtain ⟨d', hd', hatOnce⟩ := hreplayed
  rw [hy] at hystep
  have hanswer := (answered_at_once hbefore.1 hystep).symm.trans hatOnce
  cases answer with
  | error e => cases hanswer
  | ok d₁ =>
    obtain ⟨htables, rfl⟩ := Prod.mk.inj (Except.ok.inj hanswer)
    exact ⟨d₁, hd', rfl, htables⟩

end Floor

/-! ## One adapter and the other -/

section Adapters

variable {pf : Platform} {stored : List (String × String)} {call : HandoffCall}
  {t : DecisionTables}

/-- What PostgreSQL raises where SQLite raises an error. -/
def HandoffError.asPostgres : HandoffError → HandoffError
  | .repository .integrityError => .repository .uniqueViolation
  | .unknownRun _ => .unknownRun .postgresql
  | e => e

theorem asPostgres_compute {v : Delivery} {d : DecisionFile} {e : HandoffError}
    (h : call.compute pf v d = .error e) : e.asPostgres = e := by
  have hchecked : ∀ {x : Except DecisionError Unit} {u : HandoffError},
      x.mapError HandoffError.decision = .error u → u.asPostgres = u := by
    intro x u hx
    cases x with
    | error e =>
      cases hx
      rfl
    | ok a => cases hx
  unfold HandoffCall.compute attachDocument at h
  split_ifs at h
  · cases h
    rfl
  · cases h
    rfl
  · cases h
    rfl
  · rcases bind_error_cases h with h | ⟨_, -, h⟩
    · exact hchecked h
    · rcases bind_error_cases h with h | ⟨_, -, h⟩
      · exact hchecked h
      · cases h

theorem write_adapters {v : Delivery} {d d' : DecisionFile} :
    call.write .postgresql pf stored v d d' t =
      (call.write .sqlite pf stored v d d' t).mapError HandoffError.asPostgres := by
  unfold HandoffCall.write DecisionTables.insertAudit
  dsimp only
  generalize insertRow AuditRow.key _ t.auditEvents = inserted
  cases inserted with
  | none => rfl
  | some rows =>
    change (insertHandoff .postgresql stored _ t.researchHandoffs >>= _) =
      Except.mapError _ (insertHandoff .sqlite stored _ t.researchHandoffs >>= _)
    unfold insertHandoff
    generalize insertRow HandoffRow.key _ t.researchHandoffs = handoffs
    split_ifs
    · cases handoffs with
      | none => rfl
      | some rows' => rfl
    · rfl

/-- The adapters answer alike, but for the exception that a taken key raises. -/
theorem atOnce_adapters : call.atOnce .postgresql pf stored t =
    (call.atOnce .sqlite pf stored t).mapError HandoffError.asPostgres := by
  cases hdeliver : deliver call.evidence with
  | error e =>
    rw [atOnce_undelivered hdeliver, atOnce_undelivered hdeliver]
    rfl
  | ok v =>
    cases hd : t.document call.case with
    | none =>
      rw [atOnce_missing hdeliver hd, atOnce_missing hdeliver hd]
      rfl
    | some d =>
      by_cases hreplay : lookup HandoffRow.key (call.handoffKey pf v) t.researchHandoffs = none
      · rw [atOnce_fresh hdeliver hd hreplay, atOnce_fresh hdeliver hd hreplay]
        cases hcompute : call.compute pf v d with
        | error e =>
          change Except.error e = Except.error e.asPostgres
          rw [asPostgres_compute hcompute]
        | ok d' =>
          rw [ok_bind, ok_bind, write_adapters]
          cases call.write .sqlite pf stored v d d' t with
          | error e => rfl
          | ok t' => rfl
      · rw [atOnce_replayed hdeliver hd hreplay, atOnce_replayed hdeliver hd hreplay]
        rfl

end Adapters

/-! ## Other requests for decisions -/

/-- The evidence of a page under another run, with an event of its own id in the tables. -/
def secondRunCall : HandoffCall where
  tenant := Jobs.pilotTenant
  decisionFileId := "case-1"
  expectedDocumentHash := payloadHash plainPlatform
    (draftCase.withHandoff plainPlatform Jobs.pilotTenant "case-1"
      ⟨"run-1", "correlation-1", [compiledPage "2026-01-02"], List.cons_ne_nil _ _⟩).toJson
  evidence := [{ compiledPage "2026-01-02" with researchRunId := "run-2" }]

def handedTables : DecisionTables :=
  attached .sqlite plainPlatform pageRuns Jobs.pilotTenant "case-1"
    (payloadHash plainPlatform draftCase.toJson) [compiledPage "2026-01-02"] draftTables

def secondDelivery : Delivery :=
  ⟨"run-2", "correlation-1", secondRunCall.evidence, List.cons_ne_nil _ _⟩

/-- Both runs are stored. -/
def secondRuns : List (String × String) := ("tenant-a", "run-2") :: pageRuns

end DecisionAssurance
