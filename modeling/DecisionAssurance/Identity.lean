import DecisionAssurance.Identifiers

/-!
# Identities, roles and permissions

`Role` joins the roles of authenticated identities with those of the actors written into
Decision Files; both are written as the same texts.
-/

namespace DecisionAssurance

inductive Role
  | generator | validator | approver | auditor | reviewer | tenantAdmin | systemAdministrator
  | researchOperator | readonly | owner | system
  deriving DecidableEq

def Role.value : Role → String
  | .generator => "GENERATOR"
  | .validator => "VALIDATOR"
  | .approver => "APPROVER"
  | .auditor => "AUDITOR"
  | .reviewer => "REVIEWER"
  | .tenantAdmin => "TENANT_ADMIN"
  | .systemAdministrator => "SYSTEM_ADMINISTRATOR"
  | .researchOperator => "RESEARCH_OPERATOR"
  | .readonly => "READONLY"
  | .owner => "OWNER"
  | .system => "SYSTEM"

/-- The roles the Decision File contract lets an actor have. -/
def Role.inContract : Role → Bool
  | .generator | .validator | .reviewer | .approver | .owner | .system => true
  | _ => false

inductive ActorKind
  | human | agent | service
  deriving DecidableEq

def ActorKind.value : ActorKind → String
  | .human => "HUMAN"
  | .agent => "AGENT"
  | .service => "SERVICE"

/-- An authenticated identity; `roles` are its effective roles. -/
structure Identity where
  actorId : String
  tenant : TenantContext
  role : Role
  kind : ActorKind
  roles : List Role
  named : isBlank actorId = false
  primary : role ∈ roles
  deriving DecidableEq

inductive Permission
  | decisionCreate | decisionRead | decisionEvaluate | decisionValidate | decisionApprove
  | reportRead | auditRead | intakeCreate | intakeRead | intakeConfirm | intakeCompile
  | researchCreate | researchRead | researchRetry | researchCancel | researchHandoff
  | researchForceRefresh | researchAuditRead | pilotExport | dataDelete | legalHoldManage
  deriving DecidableEq

def Role.permits : Role → Permission → Bool
  | .generator, p => p ∈ [Permission.decisionCreate, .decisionRead, .reportRead,
      .intakeCreate, .intakeRead, .researchCreate, .researchRead, .researchCancel,
      .researchHandoff]
  | .validator, p => p ∈ [Permission.decisionRead, .decisionEvaluate, .decisionValidate,
      .reportRead, .intakeRead, .intakeConfirm, .intakeCompile, .researchCreate,
      .researchRead, .researchRetry, .researchCancel, .researchHandoff]
  | .approver, p => p ∈ [Permission.decisionRead, .decisionApprove, .reportRead, .intakeRead,
      .intakeConfirm, .intakeCompile, .researchRead, .pilotExport]
  | .auditor, p => p ∈ [Permission.decisionRead, .reportRead, .auditRead, .intakeRead,
      .researchRead, .researchAuditRead, .pilotExport]
  | .reviewer, p => p ∈ [Permission.decisionRead, .reportRead, .intakeRead, .researchRead,
      .researchAuditRead]
  | .tenantAdmin, _ => true
  | .systemAdministrator, p => p ∈ [Permission.reportRead, .auditRead, .researchAuditRead]
  | .researchOperator, p => p ∈ [Permission.decisionRead, .reportRead, .researchCreate,
      .researchRead, .researchRetry, .researchCancel, .researchHandoff,
      .researchForceRefresh, .researchAuditRead]
  | .readonly, p => p ∈ [Permission.decisionRead, .reportRead, .intakeRead, .researchRead]
  | .owner, _ => false
  | .system, _ => false

/-- `authorize(identity, permission)` does not raise. -/
def Identity.authorized (identity : Identity) (p : Permission) : Bool :=
  identity.roles.any fun role => role.permits p

end DecisionAssurance
