import AgentBridge.Base.Decode
import AgentBridge.Blind.Handlers
import AgentBridge.Http.Message

/-! Request bodies and query strings, with the readers derived for them. -/

namespace AgentBridge
open Decode

def AgentKind.read : Json → Option AgentKind :=
  variant [("claude", .claude), ("codex", .codex), ("gemini", .gemini), ("kimi", .kimi), ("qwen", .qwen),
    ("human", .human), ("other", .other)]

def Role.read : Json → Option Role :=
  variant [("user", .user), ("assistant", .assistant), ("system", .system), ("tool", .tool)]

def MemberRole.read : Json → Option MemberRole :=
  variant [("owner", .owner), ("member", .member), ("observer", .observer)]

def WorkflowMode.read : Json → Option WorkflowMode :=
  variant [("single", .single), ("sequential", .sequential), ("competitive", .competitive),
    ("compete", .competitive), ("consensus", .consensus)]

def TaskRisk.read : Json → Option TaskRisk :=
  variant [("low", .low), ("medium", .medium), ("high", .high), ("critical", .critical)]

def DataSensitivity.read : Json → Option DataSensitivity :=
  variant [("public", .public), ("internal", .internal), ("confidential", .confidential),
    ("restricted", .restricted)]

def ProviderAvailability.read : Json → Option ProviderAvailability :=
  variant [("available", .available), ("degraded", .degraded), ("outage", .outage),
    ("disabled", .disabled)]

def CoordinationProtocol.read : Json → Option CoordinationProtocol :=
  variant [("direct", .direct), ("sequential_handoff", .sequentialHandoff),
    ("independent_candidates", .independentCandidates),
    ("blind_candidates_with_reviewer_reveal", .blindCandidatesWithReviewerReveal),
    ("reviewer_consensus", .reviewerConsensus),
    ("adversarial_review_required", .adversarialReviewRequired)]

def DegradationBehavior.read : Json → Option DegradationBehavior :=
  variant [("fail_closed", .failClosed), ("reduce_provider_count", .reduceProviderCount),
    ("fallback_to_single_with_human_approval", .fallbackToSingleWithHumanApproval),
    ("queue_until_required_providers_are_available", .queueUntilRequiredProvidersAreAvailable)]

def ProviderCandidate.read : Json → Option ProviderCandidate := record 13 fun s => do
  return {
    agentKey := ← s.required 0 "agent_key" Json.asStr
    kind := ← s.required 1 "kind" AgentKind.read
    model := ← s.required 2 "model" Json.asStr
    available := ← s.defaulted 3 "available" true Json.asBool
    availability := ← s.defaulted 4 "availability" .available ProviderAvailability.read
    capabilities := ← s.defaulted 5 "capabilities" [] (list Json.asStr)
    trustedForRestricted := ← s.defaulted 6 "trusted_for_restricted" false Json.asBool
    historicalQualityBps := ← s.defaulted 7 "historical_quality_bps" 10000 (uint 16)
    healthScoreBps := ← s.defaulted 8 "health_score_bps" 10000 (uint 16)
    recentErrorRateBps := ← s.defaulted 9 "recent_error_rate_bps" 0 (uint 16)
    p95LatencyMs := ← s.defaulted 10 "p95_latency_ms" 0 (uint 64)
    estimatedCostMicroUsd := ← s.defaulted 11 "estimated_cost_micro_usd" 0 (uint 64)
    maxContextTokens := ← s.defaulted 12 "max_context_tokens" 0 (uint 64) }

def RequestedBudget.read : Json → Option RequestedBudget := record 8 fun s => do
  return {
    maxProviders := ← s.optional 0 "max_providers" (nullable (uint 8))
    maxRounds := ← s.optional 1 "max_rounds" (nullable (uint 8))
    maxWallClockMs := ← s.optional 2 "max_wall_clock_ms" (nullable (uint 64))
    maxInputTokens := ← s.optional 3 "max_input_tokens" (nullable (uint 64))
    maxOutputTokens := ← s.optional 4 "max_output_tokens" (nullable (uint 64))
    maxRetries := ← s.optional 5 "max_retries" (nullable (uint 8))
    maxConcurrency := ← s.optional 6 "max_concurrency" (nullable (uint 8))
    maxCostMicroUsd := ← s.optional 7 "max_cost_micro_usd" (nullable (uint 64)) }

def PolicyRequest.read : Json → Option PolicyRequest := record 12 fun s => do
  return {
    taskRisk := ← s.defaulted 0 "task_risk" .low TaskRisk.read
    dataSensitivity := ← s.defaulted 1 "data_sensitivity" .internal DataSensitivity.read
    requestedMode := ← s.defaulted 2 "requested_mode" none (nullable WorkflowMode.read)
    requestedProtocol := ← s.defaulted 3 "requested_protocol" none (nullable CoordinationProtocol.read)
    requestedDegradation := ←
      s.defaulted 4 "requested_degradation" none (nullable DegradationBehavior.read)
    requiredAgentKeys := ← s.defaulted 5 "required_agent_keys" [] (list Json.asStr)
    requiredReviewerAgentKey := ←
      s.defaulted 6 "required_reviewer_agent_key" none (nullable Json.asStr)
    requiredCapabilities := ← s.defaulted 7 "required_capabilities" [] (list Json.asStr)
    requiresRepositoryWrite := ← s.defaulted 8 "requires_repository_write" false Json.asBool
    expectedDurationMs := ← s.defaulted 9 "expected_duration_ms" 0 (uint 64)
    requestedBudget := ← s.defaulted 10 "requested_budget" {} RequestedBudget.read
    providers := ← s.required 11 "providers" (list ProviderCandidate.read) }

def AdmitReq.read : Json → Option AdmitReq := record 4 fun s => do
  return {
    requestedBy := ← s.required 0 "requested_by" Json.asStr
    approvedBy := ← s.defaulted 1 "approved_by" none (nullable Json.asStr)
    overrideReason := ← s.defaulted 2 "override_reason" none (nullable Json.asStr)
    policyRequest := ← s.required 3 "policy_request" PolicyRequest.read }

def UsageDelta.read : Json → Option UsageDelta := record 7 fun s => do
  return {
    inputTokens := ← s.defaulted 0 "input_tokens" 0 (uint 64)
    outputTokens := ← s.defaulted 1 "output_tokens" 0 (uint 64)
    costMicroUsd := ← s.defaulted 2 "cost_micro_usd" 0 (uint 64)
    retries := ← s.defaulted 3 "retries" 0 (uint 64)
    providerCalls := ← s.defaulted 4 "provider_calls" 0 (uint 64)
    elapsedMs := ← s.defaulted 5 "elapsed_ms" 0 (uint 64)
    concurrency := ← s.defaulted 6 "concurrency" 0 (uint 8) }

structure UsageReq where
  updatedBy : Text
  providerAgentKey : Text
  delta : UsageDelta

def UsageReq.read : Json → Option UsageReq := record 3 fun s => do
  return {
    updatedBy := ← s.required 0 "updated_by" Json.asStr
    providerAgentKey := ← s.required 1 "provider_agent_key" Json.asStr
    delta := ← s.required 2 "delta" UsageDelta.read }

structure TerminalReq where
  updatedBy : Text
  reason : Option Text

def TerminalReq.read : Json → Option TerminalReq := record 2 fun s => do
  return {
    updatedBy := ← s.required 0 "updated_by" Json.asStr
    reason := ← s.defaulted 1 "reason" none (nullable Json.asStr) }

def CreateWorkflowReq.read : Json → Option CreateWorkflowReq := record 14 fun s => do
  return {
    title := ← s.required 0 "title" Json.asStr
    prompt := ← s.required 1 "prompt" Json.asStr
    createdBy := ← s.required 2 "created_by" Json.asStr
    mode := ← s.required 3 "mode" WorkflowMode.read
    agentKeys := ← s.defaulted 4 "agent_keys" [] (list Json.asStr)
    agentKinds := ← s.defaulted 5 "agent_kinds" [] (list AgentKind.read)
    requiredCapabilities := ← s.defaulted 6 "required_capabilities" [] (list Json.asStr)
    workerCount := ← s.defaulted 7 "worker_count" none (nullable (uint 64))
    reviewerAgentKey := ← s.defaulted 8 "reviewer_agent_key" none (nullable Json.asStr)
    repository := ← s.defaulted 9 "repository" none (nullable Json.asStr)
    paths := ← s.defaulted 10 "paths" [] (list Json.asStr)
    requireFileLeases := ← s.defaulted 11 "require_file_leases" false Json.asBool
    leaseTtlMs := ← s.defaulted 12 "lease_ttl_ms" none (nullable (uint 64))
    metadata := ← s.defaulted 13 "meta" .null generic }

def SubmitWorkflowReq.read : Json → Option SubmitWorkflowReq := record 3 fun s => do
  return {
    agentKey := ← s.required 0 "agent_key" Json.asStr
    content := ← s.required 1 "content" Json.asStr
    metadata := ← s.defaulted 2 "meta" .null generic }

def CreateBlindCompetitionReq.read : Json → Option CreateBlindCompetitionReq := record 6 fun s => do
  return {
    title := ← s.required 0 "title" Json.asStr
    prompt := ← s.required 1 "prompt" Json.asStr
    createdBy := ← s.required 2 "created_by" Json.asStr
    workerAgentKeys := ← s.required 3 "worker_agent_keys" (list Json.asStr)
    reviewerAgentKey := ← s.required 4 "reviewer_agent_key" Json.asStr
    metadata := ← s.defaulted 5 "meta" .null generic }

def SubmitBlindCompetitionReq.read : Json → Option SubmitBlindCompetitionReq := record 3 fun s => do
  return {
    agentKey := ← s.required 0 "agent_key" Json.asStr
    content := ← s.required 1 "content" Json.asStr
    metadata := ← s.defaulted 2 "meta" .null generic }

namespace Http

structure RegisterReq where
  agentKey : Text
  displayName : Text
  kind : AgentKind
  host : Option Text
  metadata : Json

def RegisterReq.read : Json → Option RegisterReq := record 5 fun s => do
  return {
    agentKey := ← s.required 0 "agent_key" Json.asStr
    displayName := ← s.defaulted 1 "display_name" [] Json.asStr
    kind := ← s.defaulted 2 "kind" .other AgentKind.read
    host := ← s.defaulted 3 "host" none (nullable Json.asStr)
    metadata := ← s.defaulted 4 "meta" .null generic }

def defaultFileLeaseTtlMs : Nat := 30000

structure AcquireFileLeasesReq where
  repository : Text
  paths : List Text
  agentKey : Text
  ttlMs : Option Nat
  wait : Bool

def AcquireFileLeasesReq.read : Json → Option AcquireFileLeasesReq := record 5 fun s => do
  return {
    repository := ← s.required 0 "repository" Json.asStr
    paths := ← s.required 1 "paths" (list Json.asStr)
    agentKey := ← s.required 2 "agent_key" Json.asStr
    ttlMs := ← s.defaulted 3 "ttl_ms" none (nullable (uint 64))
    wait := ← s.defaulted 4 "wait" false Json.asBool }

structure AcquireCompatibleFileLeaseReq where
  repository : Text
  path : Text
  agentKey : Text
  ttlMs : Nat
  recursive : Bool
  purpose : Text
  metadata : Json

def AcquireCompatibleFileLeaseReq.read : Json → Option AcquireCompatibleFileLeaseReq :=
  record 7 fun s => do
    return {
      repository := ← s.required 0 "repository" Json.asStr
      path := ← s.required 1 "path" Json.asStr
      agentKey := ← s.required 2 "agent_key" Json.asStr
      ttlMs := ← s.defaulted 3 "ttl_ms" defaultFileLeaseTtlMs (uint 64)
      recursive := ← s.defaulted 4 "recursive" false Json.asBool
      purpose := ← s.defaulted 5 "purpose" [] Json.asStr
      metadata := ← s.defaulted 6 "meta" .null generic }

structure ReleaseFileLeaseReq where
  agentKey : Text
  fencingToken : Nat

def ReleaseFileLeaseReq.read : Json → Option ReleaseFileLeaseReq := record 2 fun s => do
  return {
    agentKey := ← s.required 0 "agent_key" Json.asStr
    fencingToken := ← s.required 1 "fencing_token" (uint 64) }

structure MutateFileLeaseReq where
  agentKey : Text
  fencingToken : Nat
  ttlMs : Nat

def MutateFileLeaseReq.read : Json → Option MutateFileLeaseReq := record 3 fun s => do
  return {
    agentKey := ← s.required 0 "agent_key" Json.asStr
    fencingToken := ← s.required 1 "fencing_token" (uint 64)
    ttlMs := ← s.defaulted 2 "ttl_ms" defaultFileLeaseTtlMs (uint 64) }

/-- The body of a canonical renewal. -/
structure RenewFileLeaseReq where
  repository : Text
  paths : List Text
  agentKey : Text
  fencingToken : Nat
  ttlMs : Nat

def RenewFileLeaseReq.read : Json → Option RenewFileLeaseReq := record 5 fun s => do
  return {
    repository := ← s.required 0 "repository" Json.asStr
    paths := ← s.required 1 "paths" (list Json.asStr)
    agentKey := ← s.required 2 "agent_key" Json.asStr
    fencingToken := ← s.required 3 "fencing_token" (uint 64)
    ttlMs := ← s.defaulted 4 "ttl_ms" defaultFileLeaseTtlMs (uint 64) }

structure CreateChannelReq where
  slug : Text
  topic : Text
  createdBy : Text

def CreateChannelReq.read : Json → Option CreateChannelReq := record 3 fun s => do
  return {
    slug := ← s.required 0 "slug" Json.asStr
    topic := ← s.defaulted 1 "topic" [] Json.asStr
    createdBy := ← s.defaulted 2 "created_by" [] Json.asStr }

structure SearchReq where
  query : Text
  limit : Nat

def SearchReq.read : Json → Option SearchReq := record 2 fun s => do
  return {
    query := ← s.required 0 "query" Json.asStr
    limit := ← s.defaulted 1 "limit" 10 (uint 64) }

structure ResolveReq where
  query : Text
  createdBy : Text
  threshold : Option Float32

def readF32 (env : Env) : Json → Option Float32
  | .num n => some (env.parseF32 n)
  | _ => none

def ResolveReq.read (env : Env) : Json → Option ResolveReq := record 3 fun s => do
  return {
    query := ← s.required 0 "query" Json.asStr
    createdBy := ← s.defaulted 1 "created_by" [] Json.asStr
    threshold := ← s.defaulted 2 "threshold" none (nullable (readF32 env)) }

structure JoinReq where
  agentKey : Text
  role : MemberRole

def JoinReq.read : Json → Option JoinReq := record 2 fun s => do
  return {
    agentKey := ← s.required 0 "agent_key" Json.asStr
    role := ← s.defaulted 1 "role" .member MemberRole.read }

structure LeaveReq where
  agentKey : Text

def LeaveReq.read : Json → Option LeaveReq := record 1 fun s => do
  return { agentKey := ← s.required 0 "agent_key" Json.asStr }

structure PostReq where
  sender : Text
  content : Text
  role : Role
  metadata : Json

def PostReq.read : Json → Option PostReq := record 4 fun s => do
  return {
    sender := ← s.required 0 "from" Json.asStr
    content := ← s.required 1 "content" Json.asStr
    role := ← s.defaulted 2 "role" .user Role.read
    metadata := ← s.defaulted 3 "meta" .null generic }

structure SetContextReq where
  key : Text
  value : Json
  updatedBy : Text

def SetContextReq.read : Json → Option SetContextReq := record 3 fun s => do
  return {
    key := ← s.required 0 "key" Json.asStr
    value := ← s.required 1 "value" generic
    updatedBy := ← s.defaulted 2 "updated_by" [] Json.asStr }

/-- The value of a query parameter: an inner `none` when it is absent, an outer one
when it repeats. -/
def queryField (name : String) (query : List (Text × Text)) : Option (Option Text) :=
  match query.filter fun p => p.1 = name.toList with
  | [] => some none
  | [p] => some (some p.2)
  | _ => none

def parseU64 (text : Text) : Option Nat :=
  let digits := match text with
    | '+' :: rest => rest
    | _ => text
  if digits.isEmpty || !digits.all Char.isDigit then none
  else
    let n := Nat.ofDigitChars 10 digits 0
    if n < 2 ^ 64 then some n else none

def parseBool (text : Text) : Option Bool :=
  if text = "true".toList then some true else if text = "false".toList then some false else none

structure FileLeaseQuery where
  repository : Option Text
  path : Option Text
  agentKey : Option Text
  includeDescendants : Bool

def FileLeaseQuery.read (query : List (Text × Text)) : Option FileLeaseQuery := do
  return {
    repository := ← queryField "repository" query
    path := ← queryField "path" query
    agentKey := ← queryField "agent_key" query
    includeDescendants := ←
      (queryField "include_descendants" query).bind fun found => found.elim (some false) parseBool }

/-- The `since` parameter of a message listing. -/
def readSince (query : List (Text × Text)) : Option (Option Nat) :=
  (queryField "since" query).bind fun found => found.elim (some none) fun text => (parseU64 text).map some

end Http
end AgentBridge
