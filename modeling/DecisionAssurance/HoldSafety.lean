import DecisionAssurance.LifecycleService

/-!
# Legal holds and deletions under interleaving

What both repositories promise of their writes is stated once over a view of the store. From
these laws alone every service call guarantees, at each of its writes: a completed request
stays completed, case data goes only with an executing request of a case without active
hold, and a completed event is recorded only when its request becomes completed.
-/

namespace DecisionAssurance.Lifecycle

open Interleaving Tables Runs

variable {σ γ : Type}

/-- What is observed of a store: its requests, the cases on hold, the case data, what is left
of the case data without one case, and the log of the lifecycle events of requests. -/
structure StoreView (σ γ : Type) where
  request : σ → RequestKey → Option DeletionRequest
  held : σ → String → String → Bool
  caseData : σ → γ
  erase : γ → String → String → γ
  log : σ → List LifecycleEvent

/-- The status of a request and the case it still names. -/
def StoreView.standing (v : StoreView σ γ) (s : σ) (k : RequestKey) :
    Option (DeletionStatus × Option String) :=
  (v.request s k).map fun r => (r.status, r.decisionId)

def StoreView.status (v : StoreView σ γ) (s : σ) (k : RequestKey) : Option DeletionStatus :=
  (v.standing s k).map Prod.fst

def completedType : String := "data.deletion-completed"

def isCompletedEvent (k : RequestKey) (e : LifecycleEvent) : Bool :=
  (e.tenantId, e.requestId) = k && e.eventType = completedType

/-- The number of completed events of a request. -/
def StoreView.completions (v : StoreView σ γ) (s : σ) (k : RequestKey) : Nat :=
  (v.log s).countP (isCompletedEvent k)

/-- A write that stores the request `r` and logs the event `e`. -/
structure Stores (v : StoreView σ γ) (r : DeletionRequest) (e : LifecycleEvent) (s s' : σ) :
    Prop where
  written : v.standing s' r.key = some (r.status, r.decisionId)
  others : ∀ k, k ≠ r.key → v.standing s' k = v.standing s k
  logged : v.log s' = v.log s ++ [e]

/-- What the writes of a repository do to the view. -/
structure Laws (repo : LifecycleRepository σ) (v : StoreView σ γ) : Prop where
  getRequest : ∀ tenant requestId s,
    repo.getRequest tenant requestId s = v.request s (tenant.tenantId, requestId)
  request_key : ∀ s k r, v.request s k = some r → r.key = k
  persist : ∀ r e expected s reply s',
    repo.persistTransition r e expected s = .ok (reply, s') →
    (s' = s ∧ ∃ current, v.request s r.key = some current ∧ reply = .request current) ∨
      (reply = .request r ∧ (∀ current, v.request s r.key = some current →
        expected = some current.status) ∧ Stores v r e s s' ∧ v.caseData s' = v.caseData s)
  complete : ∀ r e s reply s', repo.completeDeletion r e s = .ok (reply, s') →
    s' = s ∨ ∃ current decisionId, v.request s r.key = some current ∧
      current.status = .executing ∧ current.decisionId = some decisionId ∧
      v.held s r.tenantId decisionId = false ∧ Stores v r e s s' ∧
      v.caseData s' = v.erase (v.caseData s) r.tenantId decisionId
  complete_held : ∀ r e s, repo.completeDeletion r e s = .error .legalHoldActive →
    v.status s r.key = some .executing
  setHold : ∀ tenant d h a c t e s reply s',
    repo.setHold tenant d h a c t e s = .ok (reply, s') →
    (∀ k, v.standing s' k = v.standing s k) ∧ v.caseData s' = v.caseData s ∧
      (v.log s' = v.log s ∨ v.log s' = v.log s ++ [e])
  releaseHold : ∀ tenant d a t e s reply s',
    repo.releaseHold tenant d a t e s = .ok (reply, s') →
    (∀ k, v.standing s' k = v.standing s k) ∧ v.caseData s' = v.caseData s ∧
      (v.log s' = v.log s ∨ v.log s' = v.log s ++ [e])

/-- Completed requests stay completed. -/
def CompletedKept (v : StoreView σ γ) (s s' : σ) : Prop :=
  ∀ k, v.status s k = some .completed → v.status s' k = some .completed

/-- A request names its case until it is completed. -/
def NamesCase (standing : DeletionStatus × Option String) : Prop :=
  standing.1 ≠ .completed → standing.2.isSome

/-- Every stored request names its case and has an event. -/
def Tracked (v : StoreView σ γ) (s : σ) : Prop :=
  ∀ k standing, v.standing s k = some standing →
    NamesCase standing ∧ ∃ e ∈ v.log s, (e.tenantId, e.requestId) = k

/-- What a call relies on. -/
structure Kept (v : StoreView σ γ) (s s' : σ) : Prop where
  completed : CompletedKept v s s'
  stored : ∀ k, (v.standing s k).isSome → (v.standing s' k).isSome
  tracked : Tracked v s → Tracked v s'

/-- Case data is removed only while an executing request of a case without active hold
becomes completed, and only that case is erased. -/
def RemovesSafely (v : StoreView σ γ) (s s' : σ) : Prop :=
  v.caseData s' = v.caseData s ∨ ∃ k current decisionId,
    v.request s k = some current ∧ current.status = .executing ∧
      current.decisionId = some decisionId ∧ v.held s k.1 decisionId = false ∧
      v.status s' k = some .completed ∧
      v.caseData s' = v.erase (v.caseData s) k.1 decisionId

/-- What every write guarantees. -/
structure SafeWrite (v : StoreView σ γ) (s s' : σ) : Prop extends Kept v s s' where
  removal : RemovesSafely v s s'
  events : ∀ k, v.completions s' k = v.completions s k ∨
    (v.status s k ≠ some .completed ∧ v.status s' k = some .completed ∧
      v.completions s' k = v.completions s k + 1)

variable {repo : LifecycleRepository σ} {v : StoreView σ γ} {s s' : σ}

theorem Kept.refl (s : σ) : Kept v s s := ⟨fun _ h => h, fun _ h => h, id⟩

theorem Kept.trans (s t u : σ) (h : Kept v s t) (h' : Kept v t u) : Kept v s u :=
  ⟨fun k hk => h'.completed k (h.completed k hk), fun k hk => h'.stored k (h.stored k hk),
    fun ht => h'.tracked (h.tracked ht)⟩

theorem kept_stable (s : σ) : Proc.Stable (Kept v) (Kept v s) := fun _ _ h h' => h.trans _ _ _ h'

theorem tracked_stable : Proc.Stable (Kept v) (Tracked v) := fun _ _ ht h => h.tracked ht

theorem status_of_standing {k : RequestKey} (h : v.standing s' k = v.standing s k) :
    v.status s' k = v.status s k := congrArg (Option.map Prod.fst) h

theorem status_of_request {k : RequestKey} {r : DeletionRequest} (h : v.request s k = some r) :
    v.status s k = some r.status := by
  rw [StoreView.status, StoreView.standing, h]
  rfl

theorem Tracked.namesCase (ht : Tracked v s) {k : RequestKey} {r : DeletionRequest}
    (h : v.request s k = some r) : NamesCase (r.status, r.decisionId) := by
  refine (ht k _ ?_).1
  rw [StoreView.standing, h]
  rfl

theorem completions_snoc_of_ne {e : LifecycleEvent} (hlog : v.log s' = v.log s ++ [e])
    {k : RequestKey} (he : isCompletedEvent k e = false) :
    v.completions s' k = v.completions s k := by
  rw [StoreView.completions, hlog, List.countP_append, List.countP_singleton, he]
  rfl

theorem stored_of_stores {r : DeletionRequest} {e : LifecycleEvent} (hst : Stores v r e s s')
    (k : RequestKey) (hk : (v.standing s k).isSome) : (v.standing s' k).isSome := by
  by_cases hkey : k = r.key
  · rw [hkey, hst.written]
    rfl
  · rw [hst.others k hkey]
    exact hk

theorem tracked_of_stores {r : DeletionRequest} {e : LifecycleEvent} (hst : Stores v r e s s')
    (he : (e.tenantId, e.requestId) = r.key) (hr : NamesCase (r.status, r.decisionId))
    (ht : Tracked v s) : Tracked v s' := by
  intro k standing hk
  rw [hst.logged]
  by_cases hkey : k = r.key
  · subst hkey
    rw [hst.written] at hk
    cases hk
    exact ⟨hr, e, List.mem_append_right _ (List.mem_singleton_self e), he⟩
  · rw [hst.others k hkey] at hk
    obtain ⟨hnames, e', he', hkey'⟩ := ht k standing hk
    exact ⟨hnames, e', List.mem_append_left _ he', hkey'⟩

theorem SafeWrite.refl (s : σ) : SafeWrite v s s :=
  ⟨Kept.refl s, .inl rfl, fun _ => .inl rfl⟩

/-- Writes that touch neither requests nor case data and log no completed event. -/
theorem SafeWrite.of_quiet {e : LifecycleEvent}
    (hstanding : ∀ k, v.standing s' k = v.standing s k)
    (hcase : v.caseData s' = v.caseData s) (he : e.eventType ≠ completedType)
    (hlog : v.log s' = v.log s ∨ v.log s' = v.log s ++ [e]) : SafeWrite v s s' := by
  have hmem : ∀ e' ∈ v.log s, e' ∈ v.log s' := by
    intro e' he'
    rcases hlog with hlog | hlog
    · exact hlog ▸ he'
    · exact hlog ▸ List.mem_append_left _ he'
  refine ⟨⟨fun k hk => (status_of_standing (hstanding k)).trans hk, fun k hk => ?_,
    fun ht k st hk => ?_⟩, .inl hcase, fun k => .inl ?_⟩
  · rw [hstanding]
    exact hk
  · obtain ⟨hnames, e', he', hkey⟩ := ht k st (hstanding k ▸ hk)
    exact ⟨hnames, e', hmem e' he', hkey⟩
  · rcases hlog with hlog | hlog
    · rw [StoreView.completions, hlog, StoreView.completions]
    · refine completions_snoc_of_ne hlog ?_
      rw [isCompletedEvent, decide_eq_false he, Bool.and_false]

/-- A transition that neither leaves nor enters COMPLETED. -/
theorem SafeWrite.of_persist (hl : Laws repo v) {r : DeletionRequest} {e : LifecycleEvent}
    {expected : Option DeletionStatus} {reply : Reply} (hkey : (e.tenantId, e.requestId) = r.key)
    (hnames : NamesCase (r.status, r.decisionId))
    (hexp : expected ≠ some .completed) (he : e.eventType ≠ completedType)
    (h : repo.persistTransition r e expected s = .ok (reply, s')) : SafeWrite v s s' := by
  rcases hl.persist r e expected s reply s' h with ⟨rfl, -⟩ | ⟨-, hcur, hst, hcase⟩
  · exact SafeWrite.refl s'
  · refine ⟨⟨fun k hk => ?_, stored_of_stores hst, tracked_of_stores hst hkey hnames⟩, .inl hcase,
      fun k => .inl ?_⟩
    · by_cases hk' : k = r.key
      · subst hk'
        obtain ⟨st, hst', hcs⟩ := Option.map_eq_some_iff.mp hk
        obtain ⟨current, hc, rfl⟩ := Option.map_eq_some_iff.mp hst'
        exact absurd (hcs ▸ hcur current hc) hexp
      · exact (status_of_standing (hst.others k hk')).trans hk
    · refine completions_snoc_of_ne hst.logged ?_
      rw [isCompletedEvent, decide_eq_false he, Bool.and_false]

theorem SafeWrite.of_complete (hl : Laws repo v) {r : DeletionRequest} {e : LifecycleEvent}
    {reply : Reply} (hr : r.status = .completed) (he : (e.tenantId, e.requestId) = r.key)
    (hty : e.eventType = completedType)
    (h : repo.completeDeletion r e s = .ok (reply, s')) : SafeWrite v s s' := by
  rcases hl.complete r e s reply s' h with rfl | ⟨current, d, hc, hexec, hd, hheld, hst, herased⟩
  · exact SafeWrite.refl s'
  · have hnot : v.status s r.key ≠ some .completed := by
      rw [status_of_request hc, hexec]
      nofun
    have hdone : v.status s' r.key = some .completed := by
      rw [StoreView.status, hst.written, hr]
      rfl
    refine ⟨⟨fun k hk => ?_, stored_of_stores hst,
      tracked_of_stores hst he fun hopen => absurd hr hopen⟩,
      .inr ⟨r.key, current, d, hc, hexec, hd, hheld, hdone, herased⟩, fun k => ?_⟩
    · by_cases hkey : k = r.key
      · exact hkey ▸ hdone
      · exact (status_of_standing (hst.others k hkey)).trans hk
    · by_cases hkey : k = r.key
      · subst hkey
        refine .inr ⟨hnot, hdone, ?_⟩
        rw [StoreView.completions, hst.logged, List.countP_append, List.countP_singleton,
          isCompletedEvent, he, hty, decide_eq_true rfl, decide_eq_true rfl, Bool.and_self,
          if_pos rfl, StoreView.completions]
      · refine .inl (completions_snoc_of_ne hst.logged ?_)
        rw [isCompletedEvent, decide_eq_false (he ▸ Ne.symm hkey), Bool.false_and]

/-! ## The service calls -/

section Calls

variable (g : Digests)

/-- What is known after a recorded transition of the request of a key: the request that was
returned has that key and names its case, and where it came back completed, it is. -/
def Recorded (v : StoreView σ γ) (k : RequestKey) : Raises Reply → σ → Prop
  | .ok (.request r), s => Tracked v s ∧ r.key = k ∧ NamesCase (r.status, r.decisionId) ∧
      (r.status = .completed → v.status s k = some .completed)
  | .ok (.changed _), _ => False
  | .error _, _ => True

theorem recorded_stable (k : RequestKey) (r : Raises Reply) :
    Proc.Stable (Kept v) (Recorded v k r) := by
  intro s s' h hR
  cases r with
  | error e => trivial
  | ok reply =>
    cases reply with
    | request r => exact ⟨hR.tracked h.1, h.2.1, h.2.2.1, fun hd => hR.completed _ (h.2.2.2 hd)⟩
    | changed b => exact h

theorem event_spec {G : σ → σ → Prop} {P : σ → Prop} (hstable : Proc.Stable (Kept v) P)
    (request : DeletionRequest) (eventType : String) (identity : Identity) (corr : String) :
    (event g repo request eventType identity corr).Guarantees (Kept v) G
      (fun r s => P s ∧ ∀ e, r = .ok e → e.eventType = eventType ∧
        (e.tenantId, e.requestId) = (identity.tenant.tenantId, request.requestId)) P := by
  refine Proc.guarantees_get fun s hs => Proc.guarantees_now fun t => ?_
  refine Proc.guarantees_pure fun u hu => ⟨hstable s u hs hu, fun e he => ?_⟩
  cases he
  exact ⟨rfl, rfl⟩

theorem record_spec (hl : Laws repo v) {request : DeletionRequest} {eventType : String}
    {identity : Identity} {corr : String} {expected : Option DeletionStatus} {P : σ → Prop}
    (hstable : Proc.Stable (Kept v) P) (htracked : ∀ s, P s → Tracked v s)
    (htenant : request.tenantId = identity.tenant.tenantId)
    (hnames : NamesCase (request.status, request.decisionId))
    (hexp : expected ≠ some .completed) (hnew : request.status ≠ .completed)
    (hty : eventType ≠ completedType) :
    (record g repo request eventType identity corr expected).Guarantees (Kept v) (SafeWrite v)
      (Recorded v request.key) P := by
  refine (event_spec g hstable request eventType identity corr).bind (fun e => ?_)
    fun _ _ _ => trivial
  refine Proc.guarantees_commit (fun s reply s' hs hw => ?_) fun _ _ _ _ _ _ => trivial
  obtain ⟨hety, hekey⟩ := hs.2 e rfl
  have hkey : (e.tenantId, e.requestId) = request.key := by
    rw [hekey, ← htenant]
    rfl
  have hsafe : SafeWrite v s s' := by
    refine SafeWrite.of_persist hl (r := request.withEvent e) ?_ ?_ hexp (hety ▸ hty) hw
    · exact hkey
    · exact hnames
  have ht := htracked s hs.1
  refine ⟨hsafe, fun u hu => ?_⟩
  rcases hl.persist _ _ _ _ _ _ hw with ⟨rfl, current, hc, rfl⟩ | ⟨rfl, -, -, -⟩
  · refine ⟨hu.tracked ht, hl.request_key _ _ _ hc, ht.namesCase hc, fun hdone => ?_⟩
    refine hu.completed _ ?_
    rw [DeletionRequest.withEvent_key] at hc
    rw [status_of_request hc, hdone]
  · exact ⟨hu.tracked (hsafe.tracked ht), rfl, hnames, fun hdone => absurd hdone hnew⟩

theorem finishDeletion_spec (hl : Laws repo v) (executing : DeletionRequest)
    {identity : Identity} {corr : String} {k : RequestKey} (hk : k.1 = identity.tenant.tenantId) :
    (finishDeletion g repo executing identity corr).Guarantees (Kept v) (SafeWrite v)
      (fun _ _ => True) (Recorded v k (.ok (.request executing))) := by
  have hstable := recorded_stable (v := v) k (.ok (.request executing))
  refine Proc.guarantees_now fun t => ?_
  refine (event_spec g hstable _ _ identity corr).bind (fun e => ?_) fun _ _ _ => trivial
  refine Proc.guarantees_attempt (fun s reply s' hs hw => ⟨?_, ?_⟩) fun s err hs hw => ?_
  · obtain ⟨hty, hkey⟩ := hs.2 e rfl
    refine SafeWrite.of_complete hl rfl ?_ hty hw
    rw [hkey, ← hk, ← hs.1.2.1]
    rfl
  · exact Proc.guarantees_pure fun _ _ => trivial
  · obtain ⟨ht, rfl, hnames, hdone⟩ := hs.1
    have hopen : err = .legalHoldActive → executing.status ≠ .completed := by
      rintro rfl hcomp
      have hexec := hl.complete_held _ _ _ hw
      rw [DeletionRequest.withEvent_key, DeletionRequest.withStatus_key, hdone hcomp] at hexec
      cases hexec
    cases err with
    | legalHoldActive =>
      refine (record_spec g hl (kept_stable s) ?_ ?_ ?_ ?_ ?_ ?_).post fun _ _ _ => trivial
      · exact fun u hu => hu.tracked ht
      · exact hk
      · exact fun _ => hnames (hopen rfl)
      · exact fun he => hopen rfl (Option.some.inj he)
      · nofun
      · decide
    | _ => exact Proc.guarantees_raise fun _ _ => trivial

theorem executeDeletion_spec (hl : Laws repo v) (identity : Identity)
    (requestId corr : String) :
    (executeDeletion g repo identity requestId corr).Guarantees (Kept v) (SafeWrite v)
      (fun _ _ => True) (Tracked v) := by
  unfold executeDeletion
  split_ifs with hauth
  · exact Proc.guarantees_raise fun _ _ => trivial
  refine Proc.guarantees_get fun s ht => ?_
  rw [hl.getRequest]
  cases hreq : v.request s (identity.tenant.tenantId, requestId) with
  | none => exact Proc.guarantees_raise fun _ _ => trivial
  | some request =>
    have hkey : request.key = (identity.tenant.tenantId, requestId) := hl.request_key _ _ _ hreq
    have htenant : request.tenantId = identity.tenant.tenantId := congrArg Prod.fst hkey
    have hnames := ht.namesCase hreq
    dsimp only
    split_ifs with hcomp
    · exact Proc.guarantees_pure fun _ _ => trivial
    cases hd : request.decisionId with
    | none => exact Proc.guarantees_raise fun _ _ => trivial
    | some decisionId =>
      refine Proc.guarantees_get fun u hu => ?_
      have hfuture : ∀ w, Kept v u w → Tracked v w := fun w hw => hw.tracked (hu.tracked ht)
      have hexp : some request.status ≠ some DeletionStatus.completed :=
        fun he => hcomp (Option.some.inj he)
      cases repo.activeHold identity.tenant decisionId u with
      | true =>
        refine (record_spec g hl (kept_stable u) hfuture ?_ ?_ hexp ?_ ?_).post
          fun _ _ _ => trivial
        · exact htenant
        · exact fun _ => hnames hcomp
        · nofun
        · decide
      | false =>
        refine (record_spec g hl (kept_stable u) hfuture ?_ ?_ hexp ?_ ?_).bind
          (fun reply => ?_) fun _ _ _ => trivial
        · exact htenant
        · exact fun _ => hnames hcomp
        · nofun
        · decide
        · cases reply with
          | changed b => exact Proc.guarantees_pure fun _ _ => trivial
          | request executing => exact finishDeletion_spec g hl executing htenant

theorem requestDeletion_spec (hl : Laws repo v) (identity : Identity)
    (decisionId reasonCode idempotencyKey corr : String) :
    (requestDeletion g repo identity decisionId reasonCode idempotencyKey corr).Guarantees
      (Kept v) (SafeWrite v) (fun _ _ => True) (Tracked v) := by
  unfold requestDeletion
  split_ifs with hauth
  · exact Proc.guarantees_raise fun _ _ => trivial
  refine Proc.guarantees_get fun s ht => ?_
  cases repo.getByIdempotency _ _ _ s with
  | some replay =>
    dsimp only
    split_ifs
    · exact Proc.guarantees_raise fun _ _ => trivial
    · exact Proc.guarantees_pure fun _ _ => trivial
  | none =>
    refine Proc.guarantees_get fun u hu => ?_
    have ht := hu.tracked ht
    split_ifs
    · exact Proc.guarantees_raise fun _ _ => trivial
    refine Proc.guarantees_now fun t => Proc.guarantees_get fun w hw => ?_
    dsimp only
    refine (record_spec g hl (kept_stable w) ?_ ?_ ?_ ?_ ?_ ?_).post fun _ _ _ => trivial
    · exact fun x hx => hx.tracked (hw.tracked ht)
    · rfl
    · exact fun _ => rfl
    · nofun
    · cases repo.activeHold identity.tenant decisionId w <;> nofun
    · decide

theorem holdEvent_spec {G : σ → σ → Prop} {P : σ → Prop} (identity : Identity)
    (decisionId holdId eventType reasonCode corr : String) :
    (holdEvent g repo identity decisionId holdId eventType reasonCode corr).Guarantees
      (Kept v) G (fun r _ => ∀ e, r = .ok e → e.eventType = eventType) P := by
  refine Proc.guarantees_get fun s hs => Proc.guarantees_now fun t => ?_
  exact Proc.guarantees_pure fun u hu e he => by cases he; rfl

theorem placeLegalHold_spec (hl : Laws repo v) (identity : Identity)
    (decisionId reasonCode corr : String) :
    (placeLegalHold g repo identity decisionId reasonCode corr).Guarantees (Kept v) (SafeWrite v)
      (fun _ _ => True) (Tracked v) := by
  unfold placeLegalHold
  split_ifs with hauth
  · exact Proc.guarantees_raise fun _ _ => trivial
  refine Proc.guarantees_get fun s _ => ?_
  split_ifs
  · exact Proc.guarantees_raise fun _ _ => trivial
  refine (holdEvent_spec g identity _ _ _ _ _).bind (fun e => ?_) fun _ _ _ => trivial
  refine Proc.guarantees_commit (fun u reply u' hu hw => ⟨?_, fun _ _ => trivial⟩)
    fun _ _ _ _ _ _ => trivial
  obtain ⟨hstatus, hcase, hlog⟩ := hl.setHold _ _ _ _ _ _ _ _ _ _ hw
  refine SafeWrite.of_quiet hstatus hcase ?_ hlog
  rw [hu e rfl]
  decide

theorem releaseLegalHold_spec (hl : Laws repo v) (identity : Identity)
    (decisionId corr : String) :
    (releaseLegalHold g repo identity decisionId corr).Guarantees (Kept v) (SafeWrite v)
      (fun _ _ => True) (Tracked v) := by
  unfold releaseLegalHold
  split_ifs with hauth
  · exact Proc.guarantees_raise fun _ _ => trivial
  refine (holdEvent_spec g identity _ _ _ _ _).bind (fun e => ?_) fun _ _ _ => trivial
  refine Proc.guarantees_commit (fun u reply u' hu hw => ⟨?_, fun _ _ => trivial⟩)
    fun _ _ _ _ _ _ => trivial
  obtain ⟨hstatus, hcase, hlog⟩ := hl.releaseHold _ _ _ _ _ _ _ _ hw
  refine SafeWrite.of_quiet hstatus hcase ?_ hlog
  rw [hu e rfl]
  decide

theorem serviceCall_spec (hl : Laws repo v) {p : ServiceProc σ Reply}
    (h : ServiceCall g repo p) :
    p.Guarantees (Kept v) (SafeWrite v) (fun _ _ => True) (Tracked v) := by
  cases h with
  | requestDeletion identity d r k c => exact requestDeletion_spec g hl identity d r k c
  | executeDeletion identity r c => exact executeDeletion_spec g hl identity r c
  | placeLegalHold identity d r c => exact placeLegalHold_spec g hl identity d r c
  | releaseLegalHold identity d c => exact releaseLegalHold_spec g hl identity d c

end Calls

end DecisionAssurance.Lifecycle
