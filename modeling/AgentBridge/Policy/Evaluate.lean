import AgentBridge.Policy.Validation

/-! `evaluate`, in the order of the source: what is read off the request, the
shortage handling with its degradation behaviours, the selection of providers,
the cost-reduction loop and the decision. -/

namespace AgentBridge.Policy

/-- What `evaluate` computes from the request before it looks at provider counts. -/
structure Intake where
  requiredSelection : KeySet Text
  requiredReviewerAgentKey : Option Text
  effectiveRisk : TaskRisk
  defaultRequestedMode : WorkflowMode
  requestedProtocol : CoordinationProtocol
  requiredMode : WorkflowMode
  budget : BudgetLimits
  mode : WorkflowMode
  protocol : CoordinationProtocol
  degradationBehavior : DegradationBehavior
  eligible : List ProviderCandidate
  excludedProviders : List ProviderExclusion
  missingRequiredAgentKeys : List Text
  requireHumanApproval : Bool
  reasons : List Text

/-- The variables that shortage handling may rewrite. -/
structure Course where
  mode : WorkflowMode
  protocol : CoordinationProtocol
  target : ExecutionTarget
  requireHumanApproval : Bool
  degradation : Option DegradationDecision
  reasons : List Text

def budgetRisk (effectiveRisk : TaskRisk) : WorkflowMode → TaskRisk
  | .single => effectiveRisk
  | .sequential => effectiveRisk.max .medium
  | .competitive => effectiveRisk.max .high
  | .consensus => effectiveRisk.max .high

/-- The provider loop: eligible candidates and exclusions, in request order. -/
def partitionProviders (requiredCapabilities : KeySet Text) (sensitivity : DataSensitivity) :
    List ProviderCandidate → PolicyResult (List ProviderCandidate × List ProviderExclusion)
  | [] => .ok ([], [])
  | provider :: providers => do
    let reason ← exclusionReason provider requiredCapabilities sensitivity
    let (eligible, excluded) ← partitionProviders requiredCapabilities sensitivity providers
    match reason with
    | some reason =>
      return (eligible, { agentKey := Text.trim provider.agentKey, reason := reason } :: excluded)
    | none => return (provider :: eligible, excluded)

def compareText (a b : Text) : Ordering := if a < b then .lt else if a = b then .eq else .gt

def compareProviders (left right : ProviderCandidate) : Ordering :=
  (compare left.availability.rank right.availability.rank).then <|
  (compare (min right.historicalQualityBps 10000) (min left.historicalQualityBps 10000)).then <|
  (compare (min right.healthScoreBps 10000) (min left.healthScoreBps 10000)).then <|
  (compare (min left.recentErrorRateBps 10000) (min right.recentErrorRateBps 10000)).then <|
  (compare left.p95LatencyMs right.p95LatencyMs).then <|
  (compare left.estimatedCostMicroUsd right.estimatedCostMicroUsd).then <|
  compareText left.agentKey right.agentKey

def rankProviders (providers : List ProviderCandidate) : List ProviderCandidate :=
  providers.insertionSort fun left right => compareProviders left right ≠ .gt

def trimmedKey (provider : ProviderCandidate) : Text := Text.trim provider.agentKey

section Demand
variable (request : PolicyRequest) (effectiveRisk : TaskRisk) (reviewer : Option Text)

def baseRequiredMode : WorkflowMode :=
  minimumMode effectiveRisk request.dataSensitivity request.requiresRepositoryWrite

def defaultRequestedMode : WorkflowMode :=
  request.requestedMode.getD (baseRequiredMode request effectiveRisk)

def requestedProtocol : CoordinationProtocol :=
  request.requestedProtocol.getD (defaultProtocol (defaultRequestedMode request effectiveRisk))

/-- The mode that risk, protocol and a required reviewer ask for together. -/
def requiredMode : WorkflowMode :=
  saferMode (saferMode (baseRequiredMode request effectiveRisk)
    (protocolRequiredMode (requestedProtocol request effectiveRisk)))
    (if reviewer.isSome then .consensus else .single)

def raisedMode : WorkflowMode :=
  saferMode (defaultRequestedMode request effectiveRisk) (requiredMode request effectiveRisk reviewer)

def raisedProtocol : CoordinationProtocol :=
  selectedProtocol (raisedMode request effectiveRisk reviewer) (requestedProtocol request effectiveRisk)

def defaultDegradation : DegradationBehavior :=
  defaultDegradationBehavior effectiveRisk request.dataSensitivity request.requiresRepositoryWrite

def degradationBehavior (requiredSelection : KeySet Text) : DegradationBehavior :=
  effectiveDegradationBehavior (defaultDegradation request effectiveRisk) request.requestedDegradation
    (!requiredSelection.keys.isEmpty)
    (executionTarget (raisedProtocol request effectiveRisk reviewer) ≠ .standardWorkflow)

def requiresHumanApproval : Bool :=
  TaskRisk.rank .high ≤ effectiveRisk.rank || request.dataSensitivity = .restricted ||
    (request.requiresRepositoryWrite && TaskRisk.rank .medium ≤ effectiveRisk.rank)

def intakeReasons (requiredSelection : KeySet Text) : List Text :=
  let requiredMode := requiredMode request effectiveRisk reviewer
  let budgetRisk := budgetRisk effectiveRisk requiredMode
  let defaultMode := defaultRequestedMode request effectiveRisk
  let mode := raisedMode request effectiveRisk reviewer
  let requestedProtocol := requestedProtocol request effectiveRisk
  let protocol := raisedProtocol request effectiveRisk reviewer
  let defaultDegradation := defaultDegradation request effectiveRisk
  let degradation := degradationBehavior request effectiveRisk reviewer requiredSelection
  (if request.taskRisk.rank < effectiveRisk.rank then
    ["risk elevated by repository-write or security-sensitive capability policy".toList] else []) ++
  (if effectiveRisk.rank < budgetRisk.rank then
    ["budget profile elevated from ".toList ++ effectiveRisk.debug ++ " to ".toList ++
      budgetRisk.debug ++ " because execution mode ".toList ++ requiredMode.debug ++
      " requires multiple bounded providers".toList] else []) ++
  (if mode ≠ defaultMode then
    ["requested mode ".toList ++ defaultMode.debug ++ " was raised to ".toList ++ mode.debug ++
      " by policy".toList] else []) ++
  (if protocol ≠ requestedProtocol then
    ["requested protocol ".toList ++ requestedProtocol.debug ++ " was raised to ".toList ++
      protocol.debug ++ " to match mode ".toList ++ mode.debug] else []) ++
  (if degradation ≠ defaultDegradation then
    ["degradation policy tightened from ".toList ++ defaultDegradation.debug ++ " to ".toList ++
      degradation.debug] else [])

/-- All that is read off the request once its keys are normalised and its
candidates are split into eligible and excluded ones. -/
def Intake.of (requiredSelection : KeySet Text) (eligible : List ProviderCandidate)
    (excluded : List ProviderExclusion) : Intake where
  requiredSelection := requiredSelection
  requiredReviewerAgentKey := reviewer
  effectiveRisk := effectiveRisk
  defaultRequestedMode := Policy.defaultRequestedMode request effectiveRisk
  requestedProtocol := Policy.requestedProtocol request effectiveRisk
  requiredMode := Policy.requiredMode request effectiveRisk reviewer
  budget := clampBudget request.requestedBudget
    (budgetProfile (budgetRisk effectiveRisk (Policy.requiredMode request effectiveRisk reviewer)))
  mode := raisedMode request effectiveRisk reviewer
  protocol := raisedProtocol request effectiveRisk reviewer
  degradationBehavior := Policy.degradationBehavior request effectiveRisk reviewer requiredSelection
  eligible := rankProviders eligible
  excludedProviders := excluded
  missingRequiredAgentKeys :=
    requiredSelection.difference (.ofList ((rankProviders eligible).map trimmedKey))
  requireHumanApproval := requiresHumanApproval request effectiveRisk
  reasons := intakeReasons request effectiveRisk reviewer requiredSelection

end Demand

def intake (request : PolicyRequest) : PolicyResult Intake := do
  validateRequest request
  let requiredCapabilities ← normalizeCapabilities request.requiredCapabilities
  let requiredAgentKeys ← normalizeAgentKeys request.requiredAgentKeys
  let reviewer ← request.requiredReviewerAgentKey.mapM normalizeAgentKey
  let requiredSelection := reviewer.elim requiredAgentKeys requiredAgentKeys.insert
  let (eligible, excluded) ←
    partitionProviders requiredCapabilities request.dataSensitivity request.providers
  return .of request (effectiveRisk request requiredCapabilities) reviewer requiredSelection eligible
    excluded

namespace Intake

def course (i : Intake) : Course where
  mode := i.mode
  protocol := i.protocol
  target := executionTarget i.protocol
  requireHumanApproval := i.requireHumanApproval
  degradation := none
  reasons := i.reasons

def maxSelectable (i : Intake) : Nat := min i.budget.maxProviders i.eligible.length

def minimum (i : Intake) (mode : WorkflowMode) : Nat :=
  max (minimumProviderCount mode) i.requiredSelection.size

def desired (i : Intake) (mode : WorkflowMode) : Nat :=
  min (max (desiredProviderCount mode i.maxSelectable) i.requiredSelection.size) i.maxSelectable

def selectionSummary (i : Intake) (c : Course) (missing : List Text) : SelectionSummary where
  requestedMode := i.defaultRequestedMode
  requiredMode := i.requiredMode
  requestedProtocol := i.requestedProtocol
  selectedProtocol := c.protocol
  desiredProviderCount := i.desired c.mode
  minimumProviderCount := i.minimum c.mode
  eligibleProviderCount := i.eligible.length
  excludedProviderCount := i.excludedProviders.length
  requiredAgentKeys := i.requiredSelection.keys
  missingRequiredAgentKeys := missing
  reviewerAgentKey := i.requiredReviewerAgentKey

def nonExecuteDecision (i : Intake) (request : PolicyRequest) (c : Course)
    (disposition : PolicyDisposition) (denialReason : Text) (missing : List Text) :
    PolicyDecision where
  policyVersion := policyVersion
  allowed := false
  disposition := disposition
  mode := c.mode
  coordinationProtocol := c.protocol
  executionTarget := c.target
  selectedProviders := []
  excludedProviders := i.excludedProviders
  selection := i.selectionSummary c missing
  estimates := ⟨0, 0, 0, 0, 0⟩
  budget := i.budget
  requireHumanApproval := c.requireHumanApproval
  requireFiduciaLease := request.requiresRepositoryWrite
  degradationBehavior := i.degradationBehavior
  degradation := c.degradation
  reasons := c.reasons
  denialReason := some denialReason

/-- A degradation away from the course `c`, to `next` when execution goes on. -/
def degrade (i : Intake) (c : Course) (trigger : Text)
    (next : Option (WorkflowMode × CoordinationProtocol)) (humanApprovalRequired : Bool) :
    DegradationDecision where
  behavior := i.degradationBehavior
  trigger := trigger
  fromMode := c.mode
  toMode := next.map Prod.fst
  fromProtocol := c.protocol
  toProtocol := next.map Prod.snd
  humanApprovalRequired := humanApprovalRequired

def checkRequired (i : Intake) (request : PolicyRequest) (c : Course) : Except PolicyDecision Unit :=
  if i.missingRequiredAgentKeys = [] then .ok ()
  else
    let trigger := "required provider(s) unavailable or ineligible: ".toList ++
      ", ".toList.intercalate i.missingRequiredAgentKeys
    .error (i.nonExecuteDecision request
      { c with
        degradation := some (i.degrade c trigger none c.requireHumanApproval)
        reasons := c.reasons ++ [trigger] }
      (if i.degradationBehavior = .failClosed then .deny else .queue) trigger
      i.missingRequiredAgentKeys)

/-- Fewer providers than the mode needs: refuse, queue, or go on with a smaller course. -/
def resolveShortage (i : Intake) (request : PolicyRequest) (c : Course) : Except PolicyDecision Course :=
  let trigger := "mode ".toList ++ c.mode.debug ++ " requires at least ".toList ++
    Text.decimal (i.minimum c.mode) ++ " eligible providers; ".toList ++
    Text.decimal (i.desired c.mode) ++ " are available within budget".toList
  let stop (disposition : PolicyDisposition) : Except PolicyDecision Course :=
    .error (i.nonExecuteDecision request
      { c with degradation := some (i.degrade c trigger none c.requireHumanApproval) }
      disposition trigger [])
  match i.degradationBehavior with
  | .failClosed => stop .deny
  | .queueUntilRequiredProvidersAreAvailable => stop .queue
  | .fallbackToSingleWithHumanApproval =>
    if i.maxSelectable = 0 then
      .error (i.nonExecuteDecision request { c with requireHumanApproval := true } .deny
        "no eligible provider is available for the approved single-provider fallback".toList [])
    else .ok {
      mode := .single
      protocol := .direct
      target := .standardWorkflow
      requireHumanApproval := true
      degradation := some (i.degrade c trigger (some (.single, .direct)) true)
      reasons := c.reasons ++ [("provider shortage selected one provider only; parallel candidates " ++
        "and consensus were refused and explicit human approval is required").toList] }
  | .reduceProviderCount =>
    match highestFeasibleMode i.maxSelectable with
    | none =>
      .error (i.nonExecuteDecision request c .deny "no eligible provider is available".toList [])
    | some feasible =>
      let mode := if modeRank c.mode < modeRank feasible then c.mode else feasible
      .ok {
        mode := mode
        protocol := defaultProtocol mode
        target := executionTarget (defaultProtocol mode)
        requireHumanApproval := c.requireHumanApproval
        degradation :=
          some (i.degrade c trigger (some (mode, defaultProtocol mode)) c.requireHumanApproval)
        reasons := c.reasons ++ ["provider shortage reduced execution from ".toList ++ c.mode.debug ++
          " to ".toList ++ mode.debug ++
          "; the policy did not silently preserve the stronger mode".toList] }

def afterShortage (i : Intake) (request : PolicyRequest) (c : Course) : Except PolicyDecision Course :=
  if i.desired c.mode < i.minimum c.mode then i.resolveShortage request c else .ok c

def infeasible : Text := "degradation did not produce a feasible provider set".toList

/-- The course after shortage handling; a shortage that is left over is refused. -/
def settle (i : Intake) (request : PolicyRequest) (c : Course) : Except PolicyDecision Course := do
  let c ← i.afterShortage request c
  if i.desired c.mode < i.minimum c.mode then
    .error (i.nonExecuteDecision request c .deny infeasible [])
  else .ok c

end Intake

def fillOptional (required : KeySet Text) (desired : Nat) (selected : List ProviderCandidate) :
    List ProviderCandidate → List ProviderCandidate
  | [] => selected
  | provider :: eligible =>
    if desired ≤ selected.length then selected
    else if trimmedKey provider ∈ required then fillOptional required desired selected eligible
    else fillOptional required desired (selected ++ [provider]) eligible

/-- Required providers in key order, then optional ones in ranking order. -/
def pickProviders (required : KeySet Text) (eligible : List ProviderCandidate) (desired : Nat) :
    List ProviderCandidate :=
  fillOptional required desired
    (required.keys.filterMap fun key => eligible.find? fun p => trimmedKey p = key) eligible

def moveReviewerLast (reviewer : Option Text) (selected : List ProviderCandidate) :
    List ProviderCandidate :=
  match reviewer with
  | none => selected
  | some reviewer =>
    match selected.find? (fun p => trimmedKey p = reviewer) with
    | none => selected
    | some p => selected.eraseP (fun p => trimmedKey p = reviewer) ++ [p]

def removable (required : KeySet Text) (reviewer : Option Text) (provider : ProviderCandidate) : Bool :=
  trimmedKey provider ∉ required && reviewer.all (trimmedKey provider ≠ ·)

/-- The cost loop: drop the last optional provider while the total is over the
ceiling. `fuel` bounds the iterations; the list's length is enough. -/
def dropOptional (required : KeySet Text) (reviewer : Option Text) (maxCost minimum : Nat) :
    Nat → List ProviderCandidate → List ProviderCandidate
  | 0, selected => selected
  | fuel + 1, selected =>
    if maxCost < totalEstimatedCost selected ∧ minimum < selected.length ∧
        selected.any (removable required reviewer) then
      dropOptional required reviewer maxCost minimum fuel
        (selected.reverse.eraseP (removable required reviewer)).reverse
    else selected

namespace Intake

/-- The selection before and after cost reduction. -/
def pick (i : Intake) (c : Course) : List ProviderCandidate :=
  moveReviewerLast i.requiredReviewerAgentKey
    (pickProviders i.requiredSelection i.eligible (i.desired c.mode))

def reduced (i : Intake) (c : Course) : List ProviderCandidate :=
  let selected := i.pick c
  if i.degradationBehavior = .reduceProviderCount then
    dropOptional i.requiredSelection i.requiredReviewerAgentKey i.budget.maxCostMicroUsd
      (i.minimum c.mode) selected.length selected
  else selected

def selectedProviders (mode : WorkflowMode) (selected : List ProviderCandidate) :
    List SelectedProvider :=
  selected.mapIdx fun ordinal provider => {
    ordinal := ordinal
    agentKey := trimmedKey provider
    kind := provider.kind
    model := Text.trim provider.model
    role := if mode = .consensus ∧ ordinal + 1 = selected.length then .reviewer else .worker
    estimatedCostMicroUsd := provider.estimatedCostMicroUsd }

def protocolReason : CoordinationProtocol → Text
  | .direct => ("one provider selected because the effective risk does not justify parallel " ++
      "candidates or reviewer consensus").toList
  | .sequentialHandoff => ("providers execute one at a time; each handoff receives only bounded " ++
      "accepted prior context").toList
  | .independentCandidates => ("independent candidates execute without prior peer submissions; no " ++
      "reviewer synthesis is required").toList
  | .blindCandidatesWithReviewerReveal => ("candidate outputs require the blind-competition executor " ++
      "and remain hidden until reviewer reveal").toList
  | .reviewerConsensus => "independent workers are followed by one reviewer synthesis phase".toList
  | .adversarialReviewRequired => ("execution requires the separate adversarial branch-review " ++
      "protocol; standard workflow admission is not sufficient").toList

def estimatedWallClockMs (request : PolicyRequest) (mode : WorkflowMode)
    (selected : List ProviderCandidate) : Nat :=
  if 0 < request.expectedDurationMs then request.expectedDurationMs
  else if mode = .sequential then
    selected.foldl (fun total provider => saturatingAdd total provider.p95LatencyMs) 0
  else (selected.map ProviderCandidate.p95LatencyMs).max?.getD 0

def allow (i : Intake) (request : PolicyRequest) (c : Course) (selected : List ProviderCandidate) :
    PolicyDecision where
  policyVersion := policyVersion
  allowed := true
  disposition := if c.requireHumanApproval then .requireHumanApproval else .execute
  mode := c.mode
  coordinationProtocol := c.protocol
  executionTarget := c.target
  selectedProviders := selectedProviders c.mode selected
  excludedProviders := i.excludedProviders
  selection := i.selectionSummary c []
  estimates := {
    selectedProviderCount := selected.length
    estimatedProviderCalls := saturatingMul selected.length i.budget.maxRounds
    totalEstimatedCostMicroUsd := totalEstimatedCost selected
    estimatedWallClockMs := estimatedWallClockMs request c.mode selected
    minimumContextTokens := minimumContextTokens selected }
  budget := i.budget
  requireHumanApproval := c.requireHumanApproval
  requireFiduciaLease := request.requiresRepositoryWrite
  degradationBehavior := i.degradationBehavior
  degradation := c.degradation
  reasons := c.reasons ++ [protocolReason c.protocol,
    ("providers ranked deterministically by availability, historical quality, health, recent error " ++
      "rate, latency, estimated cost, and agent key").toList,
    "selected ".toList ++ Text.decimal selected.length ++ " provider(s) using policy ".toList ++
      policyVersion]
  denialReason := none

/-- The course with the reason that cost reduction leaves. -/
def noteReduction (i : Intake) (c : Course) : Course where
  mode := c.mode
  protocol := c.protocol
  target := c.target
  requireHumanApproval := c.requireHumanApproval
  degradation := c.degradation
  reasons := if (i.reduced c).length < (i.pick c).length then c.reasons ++
      ["dropped optional provider(s) to remain within the hard cost ceiling".toList]
    else c.reasons

/-- Selection, the cost ceiling and the wall-clock ceiling. -/
def conclude (i : Intake) (request : PolicyRequest) (c : Course) : PolicyDecision :=
  let selected := i.reduced c
  let c := i.noteReduction c
  if selected.length < i.minimum c.mode ∨ i.budget.maxCostMicroUsd < totalEstimatedCost selected then
    i.nonExecuteDecision request c .deny
      ("eligible provider estimates exceed the hard cost ceiling without a permitted safe " ++
        "reduction").toList []
  else if 0 < request.expectedDurationMs ∧ i.budget.maxWallClockMs < request.expectedDurationMs then
    i.nonExecuteDecision request c .deny
      ("expected duration ".toList ++ Text.decimal request.expectedDurationMs ++
        " ms exceeds the hard wall-clock ceiling ".toList ++ Text.decimal i.budget.maxWallClockMs ++
        " ms".toList) []
  else i.allow request c selected

/-- The decision for a request that was read: early returns are the `error`s of the stages. -/
def decision (i : Intake) (request : PolicyRequest) : PolicyDecision :=
  match i.checkRequired request i.course with
  | .error refused => refused
  | .ok () =>
    match i.settle request i.course with
    | .error refused => refused
    | .ok c => i.conclude request c

end Intake

def evaluate (request : PolicyRequest) : PolicyResult PolicyDecision := do
  let i ← intake request
  return i.decision request

end AgentBridge.Policy
