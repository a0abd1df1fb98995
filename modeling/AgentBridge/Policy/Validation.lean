import AgentBridge.Base.KeySet
import AgentBridge.Base.Word
import AgentBridge.Policy.Types

/-! Validation of a policy request, the risk and mode tables, budget profiles and
provider eligibility. -/

namespace AgentBridge.Policy

abbrev PolicyResult := Except Text

def normalizeAgentKey (value : Text) : PolicyResult Text :=
  let value := Text.trim value
  if !Text.printable maxAgentKeyBytes value then
    .error ("provider agent_key must be 1..=".toList ++ Text.decimal maxAgentKeyBytes ++
      " printable bytes".toList)
  else .ok value

/-- The loop of `normalize_agent_keys`, from the keys inserted so far. -/
def insertAgentKeys (normalized : KeySet Text) : List Text → PolicyResult (KeySet Text)
  | [] => .ok normalized
  | value :: values => do
    let value ← normalizeAgentKey value
    if value ∈ normalized then
      .error ("duplicate required agent_key '".toList ++ value ++ "'".toList)
    else insertAgentKeys (normalized.insert value) values

def normalizeAgentKeys (values : List Text) : PolicyResult (KeySet Text) :=
  insertAgentKeys .empty values

def insertCapabilities (normalized : KeySet Text) : List Text → PolicyResult (KeySet Text)
  | [] => .ok normalized
  | value :: values =>
    let value := Text.toAsciiLowercase (Text.trim value)
    if !Text.printable maxCapabilityBytes value then
      .error ("invalid capability '".toList ++ value ++ "'".toList)
    else insertCapabilities (normalized.insert value) values

def normalizeCapabilities (values : List Text) : PolicyResult (KeySet Text) :=
  if values.length > maxCapabilities then
    .error ("capability list exceeds the maximum of ".toList ++ Text.decimal maxCapabilities)
  else insertCapabilities .empty values

def checkBps (agentKey field : Text) (value : Nat) : PolicyResult Unit :=
  if value > 10000 then
    .error ("provider '".toList ++ agentKey ++ "' ".toList ++ field ++ " must be <= 10000".toList)
  else .ok ()

/-- The provider loop of `validate_request`: the agent keys it has seen. -/
def validateProviders (keys : KeySet Text) : List ProviderCandidate → PolicyResult (KeySet Text)
  | [] => .ok keys
  | provider :: providers => do
    let agentKey ← normalizeAgentKey provider.agentKey
    if agentKey ∈ keys then
      .error ("duplicate provider agent_key '".toList ++ agentKey ++ "'".toList)
    else if !Text.printable maxModelBytes (Text.trim provider.model) then
      .error ("provider model must be 1..=".toList ++ Text.decimal maxModelBytes ++
        " printable bytes".toList)
    else do
      checkBps agentKey "historical_quality_bps".toList provider.historicalQualityBps
      checkBps agentKey "health_score_bps".toList provider.healthScoreBps
      checkBps agentKey "recent_error_rate_bps".toList provider.recentErrorRateBps
      let _ ← normalizeCapabilities provider.capabilities
      validateProviders (keys.insert agentKey) providers

/-- The first of `required` that `keys` lacks is an error. -/
def requirePresent (keys : KeySet Text) (what : Text) : List Text → PolicyResult Unit
  | [] => .ok ()
  | required :: rest =>
    if required ∉ keys then
      .error ("required ".toList ++ what ++ " '".toList ++ required ++
        "' is absent from providers".toList)
    else requirePresent keys what rest

def validateRequest (request : PolicyRequest) : PolicyResult Unit :=
  if request.providers.isEmpty then .error "providers must contain at least one candidate".toList
  else if request.providers.length > maxProviderCandidates then
    .error ("providers exceeds the maximum of ".toList ++ Text.decimal maxProviderCandidates)
  else if request.requiredAgentKeys.length > maxRequiredProviderKeys then
    .error ("required_agent_keys exceeds the maximum of ".toList ++
      Text.decimal maxRequiredProviderKeys)
  else if request.requiredCapabilities.length > maxCapabilities then
    .error ("required_capabilities exceeds the maximum of ".toList ++ Text.decimal maxCapabilities)
  else do
    let requiredKeys ← normalizeAgentKeys request.requiredAgentKeys
    let reviewerKey ← request.requiredReviewerAgentKey.mapM normalizeAgentKey
    let keys ← validateProviders .empty request.providers
    requirePresent keys "provider".toList requiredKeys.keys
    requirePresent keys "reviewer".toList reviewerKey.toList

def isSecuritySensitive (capability : Text) : Bool :=
  capability = "security".toList || capability = "secrets".toList ||
    capability = "authentication".toList || capability = "authorization".toList ||
    capability = "cryptography".toList

def effectiveRisk (request : PolicyRequest) (capabilities : KeySet Text) : TaskRisk :=
  let risk := request.taskRisk
  let risk := if capabilities.keys.any isSecuritySensitive then risk.max .high else risk
  let risk := if request.requiresRepositoryWrite then risk.max .medium else risk
  if request.dataSensitivity = .restricted then risk.max .critical else risk

def minimumMode (risk : TaskRisk) (sensitivity : DataSensitivity) (requiresRepositoryWrite : Bool) :
    WorkflowMode :=
  if sensitivity = .restricted ∨ TaskRisk.rank .high ≤ risk.rank then .consensus
  else if risk = .medium ∧ requiresRepositoryWrite then .sequential
  else .single

def protocolRequiredMode : CoordinationProtocol → WorkflowMode
  | .direct => .single
  | .sequentialHandoff => .sequential
  | .independentCandidates => .competitive
  | .blindCandidatesWithReviewerReveal => .consensus
  | .reviewerConsensus => .consensus
  | .adversarialReviewRequired => .consensus

def defaultProtocol : WorkflowMode → CoordinationProtocol
  | .single => .direct
  | .sequential => .sequentialHandoff
  | .competitive => .independentCandidates
  | .consensus => .reviewerConsensus

def modeRank : WorkflowMode → Nat
  | .single => 0
  | .sequential => 1
  | .competitive => 2
  | .consensus => 3

def selectedProtocol (mode : WorkflowMode) (requested : CoordinationProtocol) : CoordinationProtocol :=
  if modeRank (protocolRequiredMode requested) < modeRank mode then defaultProtocol mode else requested

def executionTarget : CoordinationProtocol → ExecutionTarget
  | .blindCandidatesWithReviewerReveal => .blindCompetition
  | .adversarialReviewRequired => .adversarialReview
  | _ => .standardWorkflow

def saferMode (requested required : WorkflowMode) : WorkflowMode :=
  if modeRank required ≤ modeRank requested then requested else required

def minimumProviderCount : WorkflowMode → Nat
  | .single => 1
  | .sequential => 2
  | .competitive => 2
  | .consensus => 3

def desiredProviderCount (mode : WorkflowMode) (available : Nat) : Nat :=
  match mode with
  | .single => min available 1
  | .sequential => min available 3
  | .competitive => min available 3
  | .consensus => min available 4

def highestFeasibleMode (available : Nat) : Option WorkflowMode :=
  if minimumProviderCount .consensus ≤ available then some .consensus
  else if minimumProviderCount .competitive ≤ available then some .competitive
  else if minimumProviderCount .single ≤ available then some .single
  else none

def totalEstimatedCost (providers : List ProviderCandidate) : Nat :=
  providers.foldl (fun total provider => saturatingAdd total provider.estimatedCostMicroUsd) 0

def minimumContextTokens (providers : List ProviderCandidate) : Nat :=
  (((providers.map ProviderCandidate.maxContextTokens).filter (0 < ·)).min?).getD 0

def defaultDegradationBehavior (risk : TaskRisk) (sensitivity : DataSensitivity)
    (requiresRepositoryWrite : Bool) : DegradationBehavior :=
  if sensitivity = .restricted ∨ risk = .critical then .failClosed
  else if TaskRisk.rank .high ≤ risk.rank ∨ requiresRepositoryWrite then
    .queueUntilRequiredProvidersAreAvailable
  else if risk = .medium then .fallbackToSingleWithHumanApproval
  else .reduceProviderCount

def degradationRank : DegradationBehavior → Nat
  | .reduceProviderCount => 0
  | .fallbackToSingleWithHumanApproval => 1
  | .queueUntilRequiredProvidersAreAvailable => 2
  | .failClosed => 3

def effectiveDegradationBehavior (default : DegradationBehavior) (requested : Option DegradationBehavior)
    (hasRequiredProvider specializedExecutor : Bool) : DegradationBehavior :=
  let selected := (requested.filter fun r => degradationRank default < degradationRank r).getD default
  if (hasRequiredProvider || specializedExecutor) &&
      degradationRank selected < degradationRank .queueUntilRequiredProvidersAreAvailable then
    .queueUntilRequiredProvidersAreAvailable
  else selected

def unsuitedReason (provider : ProviderCandidate) (requiredCapabilities : KeySet Text)
    (sensitivity : DataSensitivity) : PolicyResult (Option ProviderExclusionReason) :=
  if sensitivity = .restricted ∧ provider.trustedForRestricted = false then
    .ok (some .restrictedTrustRequired)
  else do
    let capabilities ← normalizeCapabilities provider.capabilities
    if ∀ required ∈ requiredCapabilities.keys, required ∈ capabilities then .ok none
    else .ok (some .missingCapability)

def exclusionReason (provider : ProviderCandidate) (requiredCapabilities : KeySet Text)
    (sensitivity : DataSensitivity) : PolicyResult (Option ProviderExclusionReason) :=
  if provider.available = false then .ok (some .unavailable)
  else match provider.availability with
  | .disabled => .ok (some .disabled)
  | .outage => .ok (some .outage)
  | .available => unsuitedReason provider requiredCapabilities sensitivity
  | .degraded => unsuitedReason provider requiredCapabilities sensitivity

def budgetProfile : TaskRisk → BudgetLimits
  | .low => ⟨1, 1, 600000, 100000, 25000, 1, 1, 2000000⟩
  | .medium => ⟨3, 2, 1800000, 300000, 75000, 2, 3, 10000000⟩
  | .high => ⟨4, 3, 2700000, 750000, 200000, 3, 4, 50000000⟩
  | .critical => ⟨4, 3, 3600000, 1000000, 250000, 3, 4, 100000000⟩

/-- `clamp_u8` and `clamp_u64`. -/
def clamp (requested : Option Nat) (profile absolute : Nat) : Nat :=
  min (min (max (requested.getD profile) 1) profile) absolute

def clampBudget (requested : RequestedBudget) (profile : BudgetLimits) : BudgetLimits where
  maxProviders := clamp requested.maxProviders profile.maxProviders absMaxProviders
  maxRounds := clamp requested.maxRounds profile.maxRounds absMaxRounds
  maxWallClockMs := clamp requested.maxWallClockMs profile.maxWallClockMs absMaxWallClockMs
  maxInputTokens := clamp requested.maxInputTokens profile.maxInputTokens absMaxInputTokens
  maxOutputTokens := clamp requested.maxOutputTokens profile.maxOutputTokens absMaxOutputTokens
  maxRetries := clamp requested.maxRetries profile.maxRetries absMaxRetries
  maxConcurrency := clamp requested.maxConcurrency profile.maxConcurrency absMaxConcurrency
  maxCostMicroUsd := clamp requested.maxCostMicroUsd profile.maxCostMicroUsd absMaxCostMicroUsd

end AgentBridge.Policy
