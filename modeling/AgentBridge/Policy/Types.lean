import AgentBridge.Workflow.Types

/-! Vocabulary of the execution policy. -/

namespace AgentBridge

namespace Policy

def policyVersion : Text := "2026-07-31.v2".toList
def maxProviderCandidates : Nat := 32
def maxRequiredProviderKeys : Nat := 8
def maxCapabilities : Nat := 64
def maxCapabilityBytes : Nat := 120
def maxAgentKeyBytes : Nat := 120
def maxModelBytes : Nat := 200
def absMaxProviders : Nat := 8
def absMaxRounds : Nat := 4
def absMaxWallClockMs : Nat := 3600000
def absMaxInputTokens : Nat := 2000000
def absMaxOutputTokens : Nat := 500000
def absMaxRetries : Nat := 5
def absMaxConcurrency : Nat := 8
def absMaxCostMicroUsd : Nat := 200000000

end Policy

inductive TaskRisk
  | low | medium | high | critical
deriving DecidableEq

inductive DataSensitivity
  | «public» | internal | confidential | restricted
deriving DecidableEq

inductive ProviderAvailability
  | available | degraded | outage | disabled
deriving DecidableEq

inductive ProviderRole
  | worker | reviewer
deriving DecidableEq

inductive DegradationBehavior
  | failClosed
  | reduceProviderCount
  | fallbackToSingleWithHumanApproval
  | queueUntilRequiredProvidersAreAvailable
deriving DecidableEq

inductive CoordinationProtocol
  | direct
  | sequentialHandoff
  | independentCandidates
  | blindCandidatesWithReviewerReveal
  | reviewerConsensus
  | adversarialReviewRequired
deriving DecidableEq

inductive ExecutionTarget
  | standardWorkflow | blindCompetition | adversarialReview
deriving DecidableEq

inductive PolicyDisposition
  | execute | requireHumanApproval | queue | deny
deriving DecidableEq

inductive ProviderExclusionReason
  | disabled | outage | unavailable | restrictedTrustRequired | missingCapability
deriving DecidableEq

structure ProviderCandidate where
  agentKey : Text
  kind : AgentKind
  model : Text
  available : Bool
  availability : ProviderAvailability
  capabilities : List Text
  trustedForRestricted : Bool
  historicalQualityBps : Nat
  healthScoreBps : Nat
  recentErrorRateBps : Nat
  p95LatencyMs : Nat
  estimatedCostMicroUsd : Nat
  maxContextTokens : Nat
deriving DecidableEq

structure RequestedBudget where
  maxProviders : Option Nat := none
  maxRounds : Option Nat := none
  maxWallClockMs : Option Nat := none
  maxInputTokens : Option Nat := none
  maxOutputTokens : Option Nat := none
  maxRetries : Option Nat := none
  maxConcurrency : Option Nat := none
  maxCostMicroUsd : Option Nat := none
deriving DecidableEq

structure PolicyRequest where
  taskRisk : TaskRisk
  dataSensitivity : DataSensitivity
  requestedMode : Option WorkflowMode
  requestedProtocol : Option CoordinationProtocol
  requestedDegradation : Option DegradationBehavior
  requiredAgentKeys : List Text
  requiredReviewerAgentKey : Option Text
  requiredCapabilities : List Text
  requiresRepositoryWrite : Bool
  expectedDurationMs : Nat
  requestedBudget : RequestedBudget
  providers : List ProviderCandidate
deriving DecidableEq

structure BudgetLimits where
  maxProviders : Nat
  maxRounds : Nat
  maxWallClockMs : Nat
  maxInputTokens : Nat
  maxOutputTokens : Nat
  maxRetries : Nat
  maxConcurrency : Nat
  maxCostMicroUsd : Nat
deriving DecidableEq

structure SelectedProvider where
  ordinal : Nat
  agentKey : Text
  kind : AgentKind
  model : Text
  role : ProviderRole
  estimatedCostMicroUsd : Nat
deriving DecidableEq

structure ProviderExclusion where
  agentKey : Text
  reason : ProviderExclusionReason
deriving DecidableEq

structure SelectionSummary where
  requestedMode : WorkflowMode
  requiredMode : WorkflowMode
  requestedProtocol : CoordinationProtocol
  selectedProtocol : CoordinationProtocol
  desiredProviderCount : Nat
  minimumProviderCount : Nat
  eligibleProviderCount : Nat
  excludedProviderCount : Nat
  requiredAgentKeys : List Text
  missingRequiredAgentKeys : List Text
  reviewerAgentKey : Option Text
deriving DecidableEq

structure PolicyEstimates where
  selectedProviderCount : Nat
  estimatedProviderCalls : Nat
  totalEstimatedCostMicroUsd : Nat
  estimatedWallClockMs : Nat
  minimumContextTokens : Nat
deriving DecidableEq

structure DegradationDecision where
  behavior : DegradationBehavior
  trigger : Text
  fromMode : WorkflowMode
  toMode : Option WorkflowMode
  fromProtocol : CoordinationProtocol
  toProtocol : Option CoordinationProtocol
  humanApprovalRequired : Bool
deriving DecidableEq

structure PolicyDecision where
  policyVersion : Text
  allowed : Bool
  disposition : PolicyDisposition
  mode : WorkflowMode
  coordinationProtocol : CoordinationProtocol
  executionTarget : ExecutionTarget
  selectedProviders : List SelectedProvider
  excludedProviders : List ProviderExclusion
  selection : SelectionSummary
  estimates : PolicyEstimates
  budget : BudgetLimits
  requireHumanApproval : Bool
  requireFiduciaLease : Bool
  degradationBehavior : DegradationBehavior
  degradation : Option DegradationDecision
  reasons : List Text
  denialReason : Option Text
deriving DecidableEq

def TaskRisk.rank : TaskRisk → Nat
  | low => 0
  | medium => 1
  | high => 2
  | critical => 3

def TaskRisk.max (a b : TaskRisk) : TaskRisk := if a.rank ≤ b.rank then b else a

def TaskRisk.debug : TaskRisk → Text
  | low => "Low".toList
  | medium => "Medium".toList
  | high => "High".toList
  | critical => "Critical".toList

def ProviderAvailability.rank : ProviderAvailability → Nat
  | available => 0
  | degraded => 1
  | outage => 2
  | disabled => 3

def DegradationBehavior.debug : DegradationBehavior → Text
  | failClosed => "FailClosed".toList
  | reduceProviderCount => "ReduceProviderCount".toList
  | fallbackToSingleWithHumanApproval => "FallbackToSingleWithHumanApproval".toList
  | queueUntilRequiredProvidersAreAvailable => "QueueUntilRequiredProvidersAreAvailable".toList

def CoordinationProtocol.debug : CoordinationProtocol → Text
  | direct => "Direct".toList
  | sequentialHandoff => "SequentialHandoff".toList
  | independentCandidates => "IndependentCandidates".toList
  | blindCandidatesWithReviewerReveal => "BlindCandidatesWithReviewerReveal".toList
  | reviewerConsensus => "ReviewerConsensus".toList
  | adversarialReviewRequired => "AdversarialReviewRequired".toList

def BudgetLimits.toJson (b : BudgetLimits) : Json :=
  .obj [("max_providers".toList, .nat b.maxProviders), ("max_rounds".toList, .nat b.maxRounds),
    ("max_wall_clock_ms".toList, .nat b.maxWallClockMs),
    ("max_input_tokens".toList, .nat b.maxInputTokens),
    ("max_output_tokens".toList, .nat b.maxOutputTokens),
    ("max_retries".toList, .nat b.maxRetries), ("max_concurrency".toList, .nat b.maxConcurrency),
    ("max_cost_micro_usd".toList, .nat b.maxCostMicroUsd)]

end AgentBridge
