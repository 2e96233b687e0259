import DecisionAssurance.DecisionContract
import DecisionAssurance.Interactions
import DecisionAssurance.SemanticFingerprint

/-!
# The calls of the orchestrator

The calls that a research orchestrator makes to its ports, to its clock and cancellation check
and to the collaborators it is constructed with. A provider may have residency decisions
recorded before it answers; where a record is refused, the provider ends in its own way.
-/

namespace DecisionAssurance.Research

open Interactions
open Jobs (Instant)

/-- What a provider does in one call: the decisions it has recorded, how it ends, and how it ends
where a record raises. -/
structure ProviderReply (α : Type) where
  decisions : List EgressDecision
  outcome : Raises α
  refused : ResearchException → Raises α

inductive ResearchCall
  | clock
  | cancelled
  | createOrGet (tenant : TenantContext) (run : ResearchRun)
  | getRun (tenant : TenantContext) (runId : String)
  | save (tenant : TenantContext) (run : ResearchRun)
  /-- The save of a recorded residency decision, within a provider's call. -/
  | record (tenant : TenantContext) (run : ResearchRun)
  | getSnapshot (tenant : TenantContext) (canonicalUrl currentTime : String)
  | reserveBudget (tenant : TenantContext) (runId : String) (limit : ℕ)
  | beforeCall (tenantId providerId : String)
  | recordSuccess (tenantId providerId : String)
  | recordFailure (tenantId providerId : String) (retryable : Bool)
  | search (query : SearchQuery)
  | extract (request : ExtractionRequest)
  | validateUrl (policy : PublicUrlPolicy) (url : String)
  /-- `url.encode()`, for the id of a source. -/
  | encodeUrl (url : String)
  | normalize (source : SourceCandidate) (content : ExtractedContent)
  | assess (snapshot : SourceSnapshot) (source : SourceCandidate) (maximumAgeDays : ℕ)
      (now : Instant)
  | attach (tenant : TenantContext) (decisionFileId expectedDocumentHash : String)
      (evidence : List DecisionEvidence)

@[reducible] def ResearchCall.Answer : ResearchCall → Type
  | .clock => Instant
  | .cancelled => Bool
  | .createOrGet _ _ => Raises ResearchRun
  | .getRun _ _ => Raises (Option ResearchRun)
  | .save _ _ | .record _ _ => Raises Unit
  | .getSnapshot _ _ _ => Raises (Option SourceSnapshot)
  | .reserveBudget _ _ _ => Raises ℕ
  | .beforeCall _ _ | .recordSuccess _ _ | .recordFailure _ _ _ => Raises Unit
  | .search _ => ProviderReply SearchResponse
  | .extract _ => ProviderReply ExtractionResponse
  | .validateUrl _ _ => Raises SafeUrl
  | .encodeUrl _ => Raises Unit
  | .normalize _ _ => Raises SourceSnapshot
  | .assess _ _ _ _ => Raises EvidenceAssessment
  | .attach _ _ _ _ => Raises DecisionFile

@[reducible] def researchCalls : Signature := ⟨ResearchCall, ResearchCall.Answer⟩

abbrev ResearchEvent := Event researchCalls

abbrev ResearchLog := Log researchCalls

abbrev Program := Interaction researchCalls ResearchException

/-- One call of the orchestrator. -/
@[reducible] def perform (c : ResearchCall) : Program c.Answer :=
  Interaction.ask (S := researchCalls) c

/-- An orchestrator's configuration and the functions of the platform it uses. -/
structure ResearchOrchestrator where
  pf : Platform
  lib : ResearchLibrary
  policy : ResearchPolicy
  searchProviderId : String
  extractorProviderId : String

def plainOrchestrator : ResearchOrchestrator where
  pf := plainPlatform
  lib := plainLibrary
  policy := ResearchPolicy.standard
  searchProviderId := "search"
  extractorProviderId := "extractor"

end DecisionAssurance.Research
