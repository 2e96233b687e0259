import DecisionAssurance.Leases
import DecisionAssurance.Tables
import DecisionAssurance.Runs
import DecisionAssurance.JobContracts
import DecisionAssurance.ResearchContracts
import DecisionAssurance.Exceptions
import DecisionAssurance.JobRepository
import DecisionAssurance.JobLeases
import DecisionAssurance.JobRuns
import DecisionAssurance.LeaseExclusivity
import DecisionAssurance.Identity
import DecisionAssurance.WovenRuns
import DecisionAssurance.Json
import DecisionAssurance.LifecycleContracts
import DecisionAssurance.LifecycleRepositories
import DecisionAssurance.HoldSafety
import DecisionAssurance.LifecycleLaws
import DecisionAssurance.LegalHolds
import DecisionAssurance.DeletionResume
import DecisionAssurance.DecisionFile
import DecisionAssurance.DecisionJson
import DecisionAssurance.DecisionContract
import DecisionAssurance.Engine
import DecisionAssurance.Transitions
import DecisionAssurance.SeparationOfDuties
import DecisionAssurance.Chains
import DecisionAssurance.EvidenceHandoff
import DecisionAssurance.DecisionDatabase
import DecisionAssurance.WorkflowRoutes
import DecisionAssurance.DecisionWrites
import DecisionAssurance.DecisionLedger
import DecisionAssurance.ApprovalProvenance
import DecisionAssurance.JobLifecycle
import DecisionAssurance.IdempotentReplay
import DecisionAssurance.ClaimConcurrency
import DecisionAssurance.DecisionValidity
import DecisionAssurance.DecisionPersistence
import DecisionAssurance.Containment
import DecisionAssurance.ResearchDeployments
import DecisionAssurance.ResearchWorker
import DecisionAssurance.RunIdentity
import DecisionAssurance.JobAttempts
import DecisionAssurance.Resubmission
import DecisionAssurance.SubmissionPaths
import DecisionAssurance.HandoffFrame
import DecisionAssurance.HandoffTimes
import DecisionAssurance.RunBudgets
import DecisionAssurance.StatusPropagation
import DecisionAssurance.Tickets
import DecisionAssurance.BudgetReservations
import DecisionAssurance.LifecycleChains
import DecisionAssurance.LifecycleEquivalence
import DecisionAssurance.LifecycleExports
import DecisionAssurance.WrittenPatterns
import DecisionAssurance.DecimalNumbers
import DecisionAssurance.IntakeContracts
import DecisionAssurance.QuoteExtractor
import DecisionAssurance.IntakeVerification
import DecisionAssurance.IntakeTrust
import DecisionAssurance.IntakeRevisions
import DecisionAssurance.IntakeConflicts
import DecisionAssurance.IntakeRequirements
import DecisionAssurance.IntakeJson
import DecisionAssurance.IntakeDatabase
import DecisionAssurance.DecisionCompiler
import DecisionAssurance.IntakeRoutes
import DecisionAssurance.IntakeHistories
import DecisionAssurance.IntakeSteps
import DecisionAssurance.CompiledDecisions
import DecisionAssurance.IntakeConcurrency
import DecisionAssurance.WrittenAssessments
import DecisionAssurance.EvaluationOutcomes
import DecisionAssurance.ApproverIndependence
import DecisionAssurance.ReachedDecisions
import DecisionAssurance.TransitionNumbers
import DecisionAssurance.TransitionRefusals
import DecisionAssurance.Paging
import DecisionAssurance.DecisionListing
import DecisionAssurance.CanonicalText
import DecisionAssurance.ApprovalBinding
import DecisionAssurance.JsonReaders
import DecisionAssurance.DecisionReading
import DecisionAssurance.ParsedJson
import DecisionAssurance.RequestBodies
import DecisionAssurance.ExportSigning
import DecisionAssurance.ExportEvents
import DecisionAssurance.ExportValidator
import DecisionAssurance.SignedExports
import DecisionAssurance.IntakeStability
import DecisionAssurance.PolicyVerdicts
import DecisionAssurance.PolicyCoverage
import DecisionAssurance.PolicyReadability
import DecisionAssurance.RejectedFacts
import DecisionAssurance.FastReadiness
import DecisionAssurance.IntakeAvailability
import DecisionAssurance.DecimalTexts
import DecisionAssurance.NumberNotation
import DecisionAssurance.ConflictMeaning
import DecisionAssurance.CompiledContracts
import DecisionAssurance.ReportLaws
import DecisionAssurance.StoredContracts
import DecisionAssurance.PolicyProvenance
import DecisionAssurance.DecisionConcurrency
import DecisionAssurance.StaleOutcomes
import DecisionAssurance.HandoffInterleavings
import DecisionAssurance.CircuitBreaker
import DecisionAssurance.Contradictions
import DecisionAssurance.RegexMeaning
import DecisionAssurance.RegexSubstitution
import DecisionAssurance.SanitizingPatterns
import DecisionAssurance.SanitizedText
import DecisionAssurance.SanitizedSnapshots
import DecisionAssurance.WrittenPieces
import DecisionAssurance.Idna
import DecisionAssurance.DomainRules
import DecisionAssurance.QueryStrings
import DecisionAssurance.UrlSplitting
import DecisionAssurance.UrlPaths
import DecisionAssurance.NormalDomains
import DecisionAssurance.WrittenUrls
import DecisionAssurance.CanonicalUrls
import DecisionAssurance.ReleaseVerification
import DecisionAssurance.LoginTransactions
import DecisionAssurance.ProductionContracts
import DecisionAssurance.RuntimeConfiguration
import DecisionAssurance.ResidencyEgress
import DecisionAssurance.JsonRecords
import DecisionAssurance.ResearchCodec
import DecisionAssurance.IntakeCodec
import DecisionAssurance.EventEnvelopes
import DecisionAssurance.FingerprintIdentity
import DecisionAssurance.ExportTotality
import DecisionAssurance.CanonicalValues
import DecisionAssurance.OpenAIWebSearch
import DecisionAssurance.JsonLengths
import DecisionAssurance.PilotAcceptance
import DecisionAssurance.DiscoveredSources
import DecisionAssurance.SnapshotIntegrity
import DecisionAssurance.ServiceIdempotency
import DecisionAssurance.JobEventLog
import DecisionAssurance.AuditForks
