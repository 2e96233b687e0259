import DecisionAssurance.Identifiers
import Mathlib.Algebra.Group.Nat.Defs

/-!
# Research jobs: statuses, policy, leases

The job records of the production contracts. A record is built only with the checks of its
constructor, so they are fields of the structure.
-/

namespace DecisionAssurance.Jobs

/-- A point in time as PostgreSQL keeps it, in microseconds. -/
abbrev Instant := Int

def seconds (n : Nat) : Int := 1000000 * n

inductive JobStatus
  | queued | running | retryWait | completed | partiallyDone | failed | cancelled | deadLetter
  deriving DecidableEq

def JobStatus.value : JobStatus → String
  | .queued => "QUEUED"
  | .running => "RUNNING"
  | .retryWait => "RETRY_WAIT"
  | .completed => "COMPLETED"
  | .partiallyDone => "PARTIAL"
  | .failed => "FAILED"
  | .cancelled => "CANCELLED"
  | .deadLetter => "DEAD_LETTER"

/-- The status graph of `jobs/lifecycle.py`. -/
def allowedTargets : JobStatus → List JobStatus
  | .queued => [.running, .cancelled]
  | .retryWait => [.running, .cancelled]
  | .running => [.completed, .partiallyDone, .retryWait, .failed, .cancelled, .deadLetter]
  | .completed => [.queued]
  | .partiallyDone => [.queued]
  | .failed => [.queued]
  | .deadLetter => [.queued]
  | .cancelled => []

inductive JobError
  | value (message : String)
  | key (message : String)
  | conflict (message : String)
  | leaseRejected (message : String)
  | runtime (message : String)
  | integrity (constraint : String)
  deriving DecidableEq

structure JobPolicy where
  maxAttempts : Nat
  leaseSeconds : Nat
  baseBackoffSeconds : Nat
  maximumBackoffSeconds : Nat
  attempts_ok : 1 ≤ maxAttempts ∧ maxAttempts ≤ 20
  lease_ok : 5 ≤ leaseSeconds ∧ leaseSeconds ≤ 3600
  backoff_ok : 1 ≤ baseBackoffSeconds ∧ baseBackoffSeconds ≤ maximumBackoffSeconds ∧
    maximumBackoffSeconds ≤ 86400

/-- `JobPolicy()` -/
def JobPolicy.standard : JobPolicy where
  maxAttempts := 5
  leaseSeconds := 60
  baseBackoffSeconds := 5
  maximumBackoffSeconds := 300
  attempts_ok := by decide
  lease_ok := by decide
  backoff_ok := by decide

def retryDelay (policy : JobPolicy) (attemptCount : Nat) : Except JobError Nat :=
  if attemptCount < 1 then .error (.value "INVALID_JOB_ATTEMPT_COUNT")
  else
    let exponent := min (attemptCount - 1) 30
    .ok (min policy.maximumBackoffSeconds (policy.baseBackoffSeconds * 2 ^ exponent))

structure LeaseToken where
  value : String
  long_enough : 12 ≤ value.length
  deriving DecidableEq

/-- What `ResearchJob.__post_init__` checks of a job's identity. -/
def validIdentity (jobId tenantId researchRunId correlationId : String) : Bool :=
  [jobId, tenantId, researchRunId, correlationId].all isContractId

def validPayloadHash (h : String) : Bool :=
  "sha256:".toList.isPrefixOf h.toList && h.length = 71

structure ResearchJob where
  jobId : String
  tenantId : String
  researchRunId : String
  correlationId : String
  payloadHash : String
  status : JobStatus
  attemptCount : Nat
  availableAt : Instant
  createdAt : Instant
  updatedAt : Instant
  leaseTokenHash : Option String
  leaseExpiresAt : Option Instant
  identity_ok : validIdentity jobId tenantId researchRunId correlationId = true
  payload_ok : validPayloadHash payloadHash = true
  lease_complete : leaseTokenHash.isNone = leaseExpiresAt.isNone
  deriving DecidableEq

/-- Without a lease there is neither a token nor an expiry. -/
theorem leaseless : (none : Option String).isNone = (none : Option Instant).isNone := rfl

structure ClaimedJob where
  job : ResearchJob
  leaseToken : LeaseToken
  deriving DecidableEq

end DecisionAssurance.Jobs
