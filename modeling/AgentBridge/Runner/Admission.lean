import AgentBridge.Http.Requests
import Mathlib.Data.List.Infix

/-! The runner's side of policy admission: its providers, their prices, and the policy
request it derives from a workflow. -/

namespace AgentBridge

inductive ProviderProtocol
  | openAiResponses | anthropicMessages | geminiGenerateContent | openAiCompatibleChat
deriving DecidableEq

namespace Runner

structure ProviderConfig where
  name : Text
  protocol : ProviderProtocol
  model : Text

structure ProviderWorker where
  config : ProviderConfig
  capabilities : List Text

structure ProviderPricing where
  inputMicroUsdPerMillion : Nat
  outputMicroUsdPerMillion : Nat
  fixedCallReserveMicroUsd : Nat
  maxContextTokens : Nat

structure AdmissionControl where
  actor : Text
  approvedBy : Option Text
  pricing : Text → Option ProviderPricing

inductive AdmissionClientError
  | invalidConfig (message : Text)
  /-- The request failed, or no record came back: `Transport`, `HttpStatus`, `ResponseTooLarge` and
  `InvalidResponse`. -/
  | unanswered
  | notActive
  | unpricedUsage
  | inputTooLarge
deriving DecidableEq

def inferAgentKind (config : ProviderConfig) : AgentKind :=
  match config.protocol with
  | .openAiResponses => .codex
  | .anthropicMessages => .claude
  | .geminiGenerateContent => .gemini
  | .openAiCompatibleChat =>
    let name := Text.toAsciiLowercase config.name
    let mentions (part : String) : Bool := part.toList <:+: name
    if mentions "kimi" || mentions "moonshot" then .kimi
    else if mentions "qwen" || mentions "dashscope" then .qwen
    else .other

def riskForMode : WorkflowMode → TaskRisk
  | .single => .low
  | .sequential => .medium
  | .competitive => .high
  | .consensus => .high

def candidateOf (provider : ProviderWorker) (pricing : ProviderPricing) : ProviderCandidate where
  agentKey := provider.config.name
  kind := inferAgentKind provider.config
  model := provider.config.model
  available := true
  availability := .available
  capabilities := provider.capabilities
  trustedForRestricted := provider.capabilities.any fun value => value = "restricted-data".toList
  historicalQualityBps := 10000
  healthScoreBps := 10000
  recentErrorRateBps := 0
  p95LatencyMs := 0
  estimatedCostMicroUsd := pricing.fixedCallReserveMicroUsd
  maxContextTokens := pricing.maxContextTokens

namespace AdmissionControl

/-- The provider loop of `policy_request`: the planned providers, in configuration order. -/
def candidates (control : AdmissionControl) (planned : KeySet Text) :
    List ProviderWorker → Except AdmissionClientError (List ProviderCandidate)
  | [] => .ok []
  | provider :: providers =>
    if provider.config.name ∉ planned then control.candidates planned providers
    else match control.pricing provider.config.name with
    | none => .error .unpricedUsage
    | some pricing => do
      let rest ← control.candidates planned providers
      return candidateOf provider pricing :: rest

/-- A member of the plan's metadata, which may be left out. -/
def metadataField {α : Type} (metadata : Json) (field : String) (read : Json → Option α) (default : α) :
    Except AdmissionClientError α :=
  match metadata.get field.toList with
  | none => .ok default
  | some value =>
    match read value with
    | none => .error (.invalidConfig ("workflow ".toList ++ field.toList ++ " metadata is invalid".toList))
    | some a => .ok a

def policyRequest (control : AdmissionControl) (workflow : WorkflowView) (providers : List ProviderWorker) :
    Except AdmissionClientError PolicyRequest := do
  let planned := PolicyAdmission.plannedAgents workflow.plan
  let candidates ← control.candidates planned providers
  if candidates.length ≠ planned.size then
    .error (.invalidConfig "workflow assignments do not all have configured providers".toList)
  else do
    let requestedBudget ← metadataField workflow.plan.metadata "requested_budget" RequestedBudget.read {}
    let dataSensitivity ←
      metadataField workflow.plan.metadata "data_sensitivity" DataSensitivity.read .internal
    return {
      taskRisk := riskForMode workflow.plan.mode
      dataSensitivity := dataSensitivity
      requestedMode := some workflow.plan.mode
      requestedProtocol := none
      requestedDegradation := none
      requiredAgentKeys := workflow.plan.assignments.map WorkflowAssignment.agentKey
      requiredReviewerAgentKey :=
        (workflow.plan.assignments.find? fun a => a.role = .reviewer).map WorkflowAssignment.agentKey
      requiredCapabilities := workflow.plan.requiredCapabilities
      requiresRepositoryWrite := workflow.plan.fileLease.any FileLeaseRequirement.required
      expectedDurationMs :=
        ((workflow.plan.metadata.get "expected_duration_ms".toList).bind Json.asU64).getD 0
      requestedBudget := requestedBudget
      providers := candidates }

/-- The body `ensure` posts for a workflow without an admission. -/
def admitReq (control : AdmissionControl) (request : PolicyRequest) : AdmitReq where
  requestedBy := control.actor
  approvedBy := control.approvedBy
  overrideReason := none
  policyRequest := request

end AdmissionControl
end Runner
end AgentBridge
