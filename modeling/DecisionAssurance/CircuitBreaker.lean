import DecisionAssurance.ResearchExchange
import Mathlib.Algebra.Order.Field.Rat
import Mathlib.Data.List.Induction
import Mathlib.Tactic.Linarith

/-!
# The provider circuit breaker

`InMemoryProviderCircuitBreaker` keeps two numbers for a tenant and provider. What it answers is
compared here with the history itself: the retryable failures recorded since the last call that
cleared the key. The clock is exact, and one call reads it at most once, under the lock.
-/

namespace DecisionAssurance.Research

/-- `_CircuitState` -/
structure CircuitState where
  failures : ℕ
  openedUntil : ℚ
  deriving DecidableEq

structure InMemoryProviderCircuitBreaker where
  threshold : ℕ
  recoverySeconds : ℚ
  threshold_valid : 1 ≤ threshold ∧ threshold ≤ 100
  recovery_valid : 1 ≤ recoverySeconds ∧ recoverySeconds ≤ 3600

inductive CircuitCall
  | beforeCall
  | recordSuccess
  | recordFailure (retryable : Bool)
  deriving DecidableEq

/-- A call with the reading of the clock at it. -/
structure CircuitEvent where
  call : CircuitCall
  tenantId : String
  providerId : String
  now : ℚ
  deriving DecidableEq

/-- `_states` -/
abbrev Circuits := String × String → Option CircuitState

/-- `_key` -/
def circuitKey (tenantId providerId : String) : Raises (String × String) :=
  if isBlank tenantId || isBlank providerId then .error (.valueError "INVALID_CIRCUIT_CONTEXT")
  else .ok (tenantId, providerId)

namespace InMemoryProviderCircuitBreaker

variable (b : InMemoryProviderCircuitBreaker)

/-- `before_call` at the dictionary's entry for the key. -/
def beforeCall (now : ℚ) : Option CircuitState → Raises Unit × Option CircuitState
  | none => (.ok (), none)
  | some state =>
    if now < state.openedUntil then (.error .circuitOpen, some state)
    else if state.openedUntil ≠ 0 then (.ok (), some ⟨b.threshold - 1, 0⟩)
    else (.ok (), some state)

/-- `record_success` -/
def recordSuccess (_ : Option CircuitState) : Raises Unit × Option CircuitState :=
  (.ok (), none)

/-- `record_failure` -/
def recordFailure (now : ℚ) (retryable : Bool) (entry : Option CircuitState) :
    Raises Unit × Option CircuitState :=
  if !retryable then (.ok (), none)
  else
    let state := entry.getD ⟨0, 0⟩
    let failures := state.failures + 1
    if b.threshold ≤ failures then (.ok (), some ⟨failures, now + b.recoverySeconds⟩)
    else (.ok (), some ⟨failures, state.openedUntil⟩)

def call (now : ℚ) : CircuitCall → Option CircuitState → Raises Unit × Option CircuitState
  | .beforeCall => b.beforeCall now
  | .recordSuccess => recordSuccess
  | .recordFailure retryable => b.recordFailure now retryable

/-- One call on the breaker's dictionary. -/
def perform (states : Circuits) (e : CircuitEvent) : Raises Unit × Circuits :=
  match circuitKey e.tenantId e.providerId with
  | .error error => (.error error, states)
  | .ok key =>
    let (answer, entry) := b.call e.now e.call (states key)
    (answer, Function.update states key entry)

/-- The dictionary after a sequence of calls on a new breaker. -/
def after (history : List CircuitEvent) : Circuits :=
  history.foldl (fun states e => (b.perform states e).2) fun _ => none

/-- What a call answers after a sequence of calls. -/
def answer (history : List CircuitEvent) (e : CircuitEvent) : Raises Unit :=
  (b.perform (b.after history) e).1

end InMemoryProviderCircuitBreaker

namespace CircuitEvent

/-- The call is made for the key; a call whose context is blank is refused and records nothing. -/
def concerns (key : String × String) (e : CircuitEvent) : Bool :=
  (circuitKey e.tenantId e.providerId).toOption == some key

/-- A success or a failure that is not retryable. -/
def clears (e : CircuitEvent) : Bool :=
  e.call = .recordSuccess || e.call = .recordFailure false

/-- The time of a retryable failure. -/
def failedAt (e : CircuitEvent) : Option ℚ :=
  if e.call = .recordFailure true then some e.now else none

end CircuitEvent

/-- The times of the retryable failures of a key since its last success or non-retryable failure,
latest first. -/
def failuresSince (key : String × String) (history : List CircuitEvent) : List ℚ :=
  (((history.filter (·.concerns key)).reverse).takeWhile fun e => !e.clears).filterMap
    CircuitEvent.failedAt

/-- The specification: enough failures, the last of them less than the recovery time ago. -/
def InMemoryProviderCircuitBreaker.Open (b : InMemoryProviderCircuitBreaker) (failures : List ℚ)
    (now : ℚ) : Prop :=
  b.threshold ≤ failures.length ∧ ∃ last ∈ failures.head?, now < last + b.recoverySeconds

/-- The clock never goes back and is positive. -/
structure Clocked (history : List CircuitEvent) : Prop where
  ordered : (history.map CircuitEvent.now).Pairwise (· ≤ ·)
  positive : ∀ e ∈ history, 0 < e.now

theorem clocked_append_singleton {history : List CircuitEvent} {e : CircuitEvent} :
    Clocked (history ++ [e]) ↔
      Clocked history ∧ (∀ x ∈ history, x.now ≤ e.now) ∧ 0 < e.now := by
  constructor
  · intro ⟨hordered, hpositive⟩
    rw [List.map_append, List.pairwise_append] at hordered
    simp only [List.forall_mem_append, List.forall_mem_singleton] at hpositive
    refine ⟨⟨hordered.1, hpositive.1⟩, fun x hx => ?_, hpositive.2⟩
    exact hordered.2.2 _ (List.mem_map_of_mem hx) _ (List.mem_singleton_self _)
  · intro ⟨⟨hordered, hpositive⟩, hlast, hnow⟩
    constructor
    · rw [List.map_append, List.pairwise_append]
      refine ⟨hordered, List.pairwise_singleton _ _, fun t ht u hu => ?_⟩
      obtain ⟨x, hx, rfl⟩ := List.mem_map.mp ht
      rw [List.mem_singleton.mp hu]
      exact hlast x hx
    · simp only [List.forall_mem_append, List.forall_mem_singleton]
      exact ⟨hpositive, hnow⟩

section failures

variable {key : String × String} {history : List CircuitEvent} {e : CircuitEvent}

theorem failuresSince_other (h : e.concerns key = false) :
    failuresSince key (history ++ [e]) = failuresSince key history := by
  simp [failuresSince, h]

theorem failuresSince_cleared (h : e.concerns key = true) (hc : e.clears = true) :
    failuresSince key (history ++ [e]) = [] := by
  simp [failuresSince, h, hc]

theorem failuresSince_kept (h : e.concerns key = true) (hc : e.clears = false) :
    failuresSince key (history ++ [e]) = e.failedAt.toList ++ failuresSince key history := by
  cases hf : e.failedAt <;> simp [failuresSince, h, hc, hf]

theorem key_of_concerns (h : e.concerns key = true) :
    circuitKey e.tenantId e.providerId = .ok key := by
  rw [CircuitEvent.concerns, beq_iff_eq] at h
  cases hk : circuitKey e.tenantId e.providerId with
  | error error =>
    rw [hk] at h
    cases h
  | ok key' =>
    rw [hk] at h
    exact congrArg _ (Option.some.inj h)

theorem eq_of_concerns (h : e.concerns key = true) : (e.tenantId, e.providerId) = key := by
  have hk := key_of_concerns h
  unfold circuitKey at hk
  split at hk
  · cases hk
  · exact Except.ok.inj hk

end failures

namespace InMemoryProviderCircuitBreaker

variable {b : InMemoryProviderCircuitBreaker}

/-- What an entry of the dictionary may be when the failures since the key was cleared are these
and the clock has reached `now`. -/
inductive Summary (b : InMemoryProviderCircuitBreaker) : List ℚ → ℚ → Option CircuitState → Prop
  | cleared {now : ℚ} : Summary b [] now none
  | counting {failures : List ℚ} {now : ℚ} (hsome : 0 < failures.length)
      (hfew : failures.length < b.threshold) : Summary b failures now (some ⟨failures.length, 0⟩)
  | opened {last : ℚ} {earlier : List ℚ} {n : ℕ} {now : ℚ}
      (hmany : b.threshold ≤ (last :: earlier).length) (hn : b.threshold ≤ n) :
      Summary b (last :: earlier) now (some ⟨n, last + b.recoverySeconds⟩)
  | trial {last : ℚ} {earlier : List ℚ} {now : ℚ}
      (hmany : b.threshold ≤ (last :: earlier).length) (hpast : last + b.recoverySeconds ≤ now) :
      Summary b (last :: earlier) now (some ⟨b.threshold - 1, 0⟩)

theorem Summary.later {failures : List ℚ} {now now' : ℚ} {entry : Option CircuitState}
    (h : Summary b failures now entry) (hnow : now ≤ now') : Summary b failures now' entry := by
  cases h with
  | cleared => exact .cleared
  | counting hsome hfew => exact .counting hsome hfew
  | opened hmany hn => exact .opened hmany hn
  | trial hmany hpast => exact .trial hmany (le_trans hpast hnow)

theorem beforeCall_some (now : ℚ) (state : CircuitState) :
    b.beforeCall now (some state) =
      if now < state.openedUntil then (.error .circuitOpen, some state)
      else if state.openedUntil ≠ 0 then (.ok (), some ⟨b.threshold - 1, 0⟩)
      else (.ok (), some state) := rfl

theorem Summary.beforeCall {failures : List ℚ} {now : ℚ} {entry : Option CircuitState}
    (h : Summary b failures now entry) : Summary b failures now (b.beforeCall now entry).2 := by
  cases h with
  | cleared => exact .cleared
  | counting hsome hfew =>
    rw [beforeCall_some]
    split_ifs with hopen hset
    · exact .counting hsome hfew
    · exact absurd rfl hset
    · exact .counting hsome hfew
  | opened hmany hn =>
    rw [beforeCall_some]
    split_ifs with hopen hset
    · exact .opened hmany hn
    · exact .trial hmany (not_lt.mp hopen)
    · exact .opened hmany hn
  | trial hmany hpast =>
    rw [beforeCall_some]
    split_ifs with hopen hset
    · exact .trial hmany hpast
    · exact absurd rfl hset
    · exact .trial hmany hpast

/-- The entry decides as the failures do. -/
theorem Summary.raises_iff {failures : List ℚ} {now : ℚ} {entry : Option CircuitState}
    (h : Summary b failures now entry) (hnow : 0 < now) :
    (b.beforeCall now entry).1 = .error .circuitOpen ↔ b.Open failures now := by
  have hthreshold : 1 ≤ b.threshold := b.threshold_valid.1
  cases h with
  | cleared => simp [InMemoryProviderCircuitBreaker.beforeCall, Open]
  | counting hsome hfew =>
    have hclosed : ¬ now < 0 := not_lt.mpr hnow.le
    simp [InMemoryProviderCircuitBreaker.beforeCall, Open, hclosed, not_le.mpr hfew]
  | opened hmany hn =>
    rw [beforeCall_some]
    split_ifs with hopen hset
    · simpa [Open, hopen] using hmany
    · simp [Open, hopen]
    · simp [Open, hopen]
  | trial hmany hpast =>
    have hclosed : ¬ now < 0 := not_lt.mpr hnow.le
    simp [InMemoryProviderCircuitBreaker.beforeCall, Open, hclosed, not_lt.mpr hpast]

/-- A retryable failure: also one reported while the circuit is open, which opens it anew. -/
theorem Summary.recordFailure {failures : List ℚ} {now : ℚ} {entry : Option CircuitState}
    (h : Summary b failures now entry) :
    Summary b (now :: failures) now (b.recordFailure now true entry).2 := by
  have hthreshold : 1 ≤ b.threshold := b.threshold_valid.1
  cases h with
  | cleared =>
    by_cases hone : b.threshold ≤ 1
    · have hopened : Summary b [now] now (some ⟨1, now + b.recoverySeconds⟩) := .opened hone hone
      simpa [InMemoryProviderCircuitBreaker.recordFailure, hone] using hopened
    · have hcounted : Summary b [now] now (some ⟨1, 0⟩) :=
        .counting Nat.one_pos (not_le.mp hone)
      simpa [InMemoryProviderCircuitBreaker.recordFailure, hone] using hcounted
  | counting hsome hfew =>
    by_cases hfull : b.threshold ≤ failures.length + 1
    · have hopened : Summary b (now :: failures) now
          (some ⟨failures.length + 1, now + b.recoverySeconds⟩) := .opened hfull hfull
      simpa [InMemoryProviderCircuitBreaker.recordFailure, hfull] using hopened
    · have hcounted : Summary b (now :: failures) now (some ⟨failures.length + 1, 0⟩) :=
        .counting (Nat.succ_pos _) (not_le.mp hfull)
      simpa [InMemoryProviderCircuitBreaker.recordFailure, hfull] using hcounted
  | opened hmany hn =>
    have hfull := Nat.le_succ_of_le hn
    simpa [InMemoryProviderCircuitBreaker.recordFailure, hfull] using
      Summary.opened (Nat.le_succ_of_le hmany) hfull
  | trial hmany hpast =>
    have hfull : b.threshold ≤ b.threshold - 1 + 1 := by omega
    simpa [InMemoryProviderCircuitBreaker.recordFailure, hfull] using
      Summary.opened (Nat.le_succ_of_le hmany) hfull

/-- One call keeps the entry of its key the summary of the failures with it. -/
theorem Summary.call {key : String × String} {history : List CircuitEvent} {e : CircuitEvent}
    {entry : Option CircuitState} (h : Summary b (failuresSince key history) e.now entry)
    (he : e.concerns key = true) :
    Summary b (failuresSince key (history ++ [e])) e.now (b.call e.now e.call entry).2 := by
  cases hcall : e.call with
  | beforeCall =>
    rw [failuresSince_kept he (by simp [CircuitEvent.clears, hcall])]
    simpa [CircuitEvent.failedAt, hcall, InMemoryProviderCircuitBreaker.call] using h.beforeCall
  | recordSuccess =>
    rw [failuresSince_cleared he (by simp [CircuitEvent.clears, hcall])]
    exact .cleared
  | recordFailure retryable =>
    cases retryable with
    | false =>
      rw [failuresSince_cleared he (by simp [CircuitEvent.clears, hcall])]
      exact .cleared
    | true =>
      rw [failuresSince_kept he (by simp [CircuitEvent.clears, hcall])]
      simpa [CircuitEvent.failedAt, hcall, InMemoryProviderCircuitBreaker.call] using
        h.recordFailure

variable (b)

theorem after_append_singleton (history : List CircuitEvent) (e : CircuitEvent) :
    b.after (history ++ [e]) = (b.perform (b.after history) e).2 := by
  simp [after, List.foldl_append]

/-- A call changes no entry of another key. -/
theorem perform_other (states : Circuits) {key : String × String} {e : CircuitEvent}
    (h : e.concerns key = false) : (b.perform states e).2 key = states key := by
  unfold perform
  cases hk : circuitKey e.tenantId e.providerId with
  | error error => rfl
  | ok key' =>
    have hne : key ≠ key' := by
      rintro rfl
      simp [CircuitEvent.concerns, hk, Except.toOption] at h
    exact Function.update_of_ne hne _ _

theorem perform_own (states : Circuits) {key : String × String} {e : CircuitEvent}
    (h : e.concerns key = true) :
    (b.perform states e).2 key = (b.call e.now e.call (states key)).2 := by
  simp [perform, key_of_concerns h]

/-- After every sequence of calls, every entry summarises the failures of its key. -/
theorem after_summary {history : List CircuitEvent} (hclock : Clocked history) {now : ℚ}
    (hnow : ∀ x ∈ history, x.now ≤ now) (key : String × String) :
    Summary b (failuresSince key history) now (b.after history key) := by
  induction history using List.reverseRecOn generalizing now with
  | nil => exact .cleared
  | append_singleton history e ih =>
    obtain ⟨hbefore, hordered, -⟩ := clocked_append_singleton.mp hclock
    have hreached : e.now ≤ now := hnow e (List.mem_append_right _ (List.mem_singleton_self e))
    have hsummary := ih hbefore hordered
    apply Summary.later _ hreached
    rw [after_append_singleton]
    cases he : e.concerns key with
    | false =>
      rw [perform_other b _ he, failuresSince_other he]
      exact hsummary
    | true =>
      rw [perform_own b _ he]
      exact hsummary.call he

/-- The entry of a key after a sequence of calls is the one after the calls on that key. -/
theorem after_filter (history : List CircuitEvent) (key : String × String) :
    b.after (history.filter fun x => (x.tenantId, x.providerId) = key) key =
      b.after history key := by
  induction history using List.reverseRecOn with
  | nil => rfl
  | append_singleton history e ih =>
    rw [List.filter_append, after_append_singleton]
    by_cases hkey : (e.tenantId, e.providerId) = key
    · rw [List.filter_singleton, decide_eq_true hkey, cond_true, after_append_singleton]
      cases he : e.concerns key with
      | false => rw [perform_other b _ he, perform_other b _ he, ih]
      | true => rw [perform_own b _ he, perform_own b _ he, ih]
    · have he : e.concerns key = false := by
        rw [Bool.eq_false_iff]
        exact fun h => hkey (eq_of_concerns h)
      rw [List.filter_singleton, decide_eq_false hkey, cond_false, List.append_nil, ih,
        perform_other b _ he]

theorem answer_eq (history : List CircuitEvent) (e : CircuitEvent) :
    b.answer history e = match circuitKey e.tenantId e.providerId with
      | .error error => .error error
      | .ok key => (b.call e.now e.call (b.after history key)).1 := by
  unfold answer perform
  cases circuitKey e.tenantId e.providerId <;> rfl

theorem failuresSince_blank {history : List CircuitEvent} {tenantId providerId : String}
    {error : ResearchException} (h : circuitKey tenantId providerId = .error error) :
    failuresSince (tenantId, providerId) history = [] := by
  have hnone : history.filter (·.concerns (tenantId, providerId)) = [] := by
    rw [List.filter_eq_nil_iff]
    intro e _ he
    obtain ⟨rfl, rfl⟩ := Prod.mk.inj (eq_of_concerns he)
    rw [key_of_concerns he] at h
    cases h
  simp [failuresSince, hnone]

/-- `before_call` refuses exactly while the specification says the circuit is open, and the calls
on other keys do not change what it answers. -/
theorem beforeCall_raises_iff (history : List CircuitEvent) (e : CircuitEvent)
    (hcall : e.call = .beforeCall) (hclock : Clocked (history ++ [e])) :
    (b.answer history e = .error .circuitOpen ↔
        b.Open (failuresSince (e.tenantId, e.providerId) history) e.now) ∧
      b.answer (history.filter fun x =>
          (x.tenantId, x.providerId) = (e.tenantId, e.providerId)) e = b.answer history e := by
  obtain ⟨hbefore, hordered, hpositive⟩ := clocked_append_singleton.mp hclock
  rw [answer_eq, answer_eq]
  cases hk : circuitKey e.tenantId e.providerId with
  | error error =>
    have hthreshold : 1 ≤ b.threshold := b.threshold_valid.1
    have hother : error ≠ .circuitOpen := by
      unfold circuitKey at hk
      split at hk <;> cases hk
      exact nofun
    refine ⟨?_, rfl⟩
    rw [failuresSince_blank hk]
    simp [Open, hother]
  | ok key =>
    have hkey : (e.tenantId, e.providerId) = key :=
      eq_of_concerns (by simp [CircuitEvent.concerns, hk, Except.toOption])
    simp only [hkey, after_filter, hcall, and_true]
    exact (b.after_summary hbefore hordered key).raises_iff hpositive

/-- The breaker of the deployments: three failures, thirty seconds. -/
def standard : InMemoryProviderCircuitBreaker := ⟨3, 30, by decide, by decide⟩

/-- Two failures, a success elsewhere and a third failure: refused until the thirty seconds pass. -/
def outage : List CircuitEvent :=
  [⟨.recordFailure true, "tenant-a", "tavily", 1⟩, ⟨.recordFailure true, "tenant-a", "tavily", 2⟩,
    ⟨.recordSuccess, "tenant-b", "tavily", 3⟩, ⟨.recordFailure true, "tenant-a", "tavily", 4⟩]

theorem beforeCall_raises_iff_outage :
    Clocked (outage ++ [⟨.beforeCall, "tenant-a", "tavily", 33⟩]) ∧
      (standard.answer outage ⟨.beforeCall, "tenant-a", "tavily", 33⟩ = .error .circuitOpen ↔
        standard.Open (failuresSince ("tenant-a", "tavily") outage) 33) ∧
      standard.answer outage ⟨.beforeCall, "tenant-a", "tavily", 33⟩ = .error .circuitOpen ∧
      standard.answer outage ⟨.beforeCall, "tenant-a", "tavily", 34⟩ = .ok () := by
  have hclock : Clocked (outage ++ [⟨.beforeCall, "tenant-a", "tavily", 33⟩]) :=
    ⟨by decide, by decide⟩
  exact ⟨hclock, (standard.beforeCall_raises_iff outage _ rfl hclock).1, by decide +kernel,
    by decide +kernel⟩

end InMemoryProviderCircuitBreaker

end DecisionAssurance.Research
