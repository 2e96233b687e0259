import DecisionAssurance.ResearchDeployments

/-!
# The research worker

The processor that `load_worker` builds. The cancellation check is one call for the worker and the
orchestrator; the thread that renews the lease works on the job in the meantime, and may set the
flag of a lost lease before any check.
-/

namespace DecisionAssurance.Research

open Interactions Interaction
open Jobs (ResearchJob)

/-- `TenantContext(tenant_id)` -/
def tenantContext (tenantId : String) : Raises TenantContext :=
  if h : isTenantId tenantId = true then .ok ⟨tenantId, h⟩
  else .error (.valueError "INVALID_TENANT_ID")

namespace ResearchOrchestrator

variable (o : ResearchOrchestrator)

/-- `_required` of the worker -/
def requiredRun (tenant : TenantContext) (runId : String) : Program ResearchRun := do
  let found ← perform (.getRun tenant runId)
  lift (do
    let run ← found
    orRaise (.other "RESEARCH_RUN_NOT_FOUND") run)

/-- The operation of a worker on the run of a job. -/
def operation (tenant : TenantContext) (run : ResearchRun) (correlationId : String) :
    Program ResearchRun :=
  if run.status = .created then
    o.execute tenant run.actorId run.request run.expectedDocumentHash correlationId none
  else o.retry tenant run.actorId run.researchRunId correlationId

/-- The run that an operation returns, unless it is cancelled. -/
def unlessCancelled : Raises ResearchRun → Raises (Option ResearchRun)
  | .ok run => .ok (some run)
  | .error .cancelled => .ok none
  | .error e => .error e

/-- The operation, where the worker is not told to stop before it. -/
def resume (tenant : TenantContext) (run : ResearchRun) (correlationId : String) :
    Program (Option ResearchRun) := do
  let cancelled ← perform .cancelled
  if cancelled then return none
  else
    let result ← attempt (o.operation tenant run correlationId)
    lift (unlessCancelled result)

/-- The run that a worker's operation returns for a job. -/
def processed (job : ResearchJob) : Program (Option ResearchRun) := do
  let tenant ← lift (tenantContext job.tenantId)
  let run ← requiredRun tenant job.researchRunId
  o.resume tenant run job.correlationId

end ResearchOrchestrator

end DecisionAssurance.Research
