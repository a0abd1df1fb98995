import AgentBridge.Base.KeySet
import AgentBridge.Policy.Evaluate
import AgentBridge.State.Context
import Mathlib.Data.Option.Basic

/-! Policy admission of workflows: one record for each workflow, created against the
policy decision, charged with usage, and closed by exhaustion, completion or
cancellation. Every operation runs under one lock. -/

namespace AgentBridge

structure AdmissionFailure where
  status : Nat
  code : Text
  message : Text
  admission : Option AdmissionRecord := none
deriving DecidableEq

abbrev AdmissionResult := Except AdmissionFailure

namespace PolicyAdmission

def admissionContextKey : Text := "workflow.admission.v1".toList
def workflowPlanContextKey : Text := "workflow.plan.v1".toList
def maxActorBytes : Nat := 120
def maxReasonBytes : Nat := 2048

def conflict (code message : String) : AdmissionFailure where
  status := 409
  code := code.toList
  message := message.toList

def domainFailure (error : BridgeError) : AdmissionFailure where
  status := error.httpStatus
  code := error.code
  message := error.message

def channelOf (workflowId : Text) : Text := "workflow-".toList ++ workflowId

def loadPlan (s : AppState) (workflowId : Text) : BridgeResult WorkflowPlan := do
  match ← s.getContextKeyInternal (channelOf workflowId) workflowPlanContextKey with
  | none => .error (.badRequest "workflow plan is missing".toList)
  | some entry =>
    match entry.value with
    | .workflowPlan plan => .ok plan
    | _ => .error (.badRequest "workflow plan is invalid".toList)

def loadAdmission (s : AppState) (workflowId : Text) : BridgeResult (Option AdmissionRecord) := do
  match ← s.getContextKeyInternal (channelOf workflowId) admissionContextKey with
  | none => .ok none
  | some entry =>
    match entry.value with
    | .admission record => .ok (some record)
    | _ => .error (.badRequest "workflow admission is invalid".toList)

def persistAdmission (s : AppState) (now : Now) (admission : AdmissionRecord) :
    BridgeResult ContextEntry × AppState :=
  s.setContextInternal now (channelOf admission.workflowId) admissionContextKey (.admission admission)
    admission.requestedBy

def normalizeActor (value : Text) : AdmissionResult Text :=
  let value := Text.trim value
  if !Text.printable maxActorBytes value then
    .error { status := 400, code := "invalid_admission_actor".toList,
             message := "admission actor must be 1-120 printable bytes".toList }
  else .ok value

def normalizeReason (value : Text) : AdmissionResult Text :=
  let value := Text.trim value
  if !Text.printable maxReasonBytes value then
    .error { status := 400, code := "invalid_admission_reason".toList,
             message := "admission reason must be 1-2048 printable bytes".toList }
  else .ok value

def normalizedCapability (value : Text) : Text := Text.toAsciiLowercase (Text.trim value)

def plannedAgents (plan : WorkflowPlan) : KeySet Text :=
  .ofList (plan.assignments.map WorkflowAssignment.agentKey)

def validateRequestMatchesPlan (plan : WorkflowPlan) (request : PolicyRequest) : AdmissionResult Unit :=
  let mismatch (code message : String) : AdmissionResult Unit :=
    .error { status := 400, code := code.toList, message := message.toList }
  if request.requestedMode ≠ some plan.mode then
    mismatch "policy_mode_mismatch" "policy requested_mode must exactly match the workflow mode"
  else if request.requiresRepositoryWrite ≠ plan.fileLease.any FileLeaseRequirement.required then
    mismatch "policy_lease_mismatch"
      "policy repository-write flag must match the workflow lease requirement"
  else if ¬ KeySet.SameKeys (.ofList (plan.requiredCapabilities.map normalizedCapability))
      (.ofList (request.requiredCapabilities.map normalizedCapability)) then
    mismatch "policy_capability_mismatch" "policy capabilities must exactly match the workflow plan"
  else if ¬ KeySet.SameKeys (plannedAgents plan)
      (.ofList (request.providers.map ProviderCandidate.agentKey)) then
    mismatch "policy_candidate_mismatch" "policy candidates must exactly match workflow assignments"
  else .ok ()

def selectedAgents (decision : PolicyDecision) : KeySet Text :=
  .ofList (decision.selectedProviders.map SelectedProvider.agentKey)

/-- What `create_admission` asks of the decision before it looks at the request. -/
def decisionChecks (plan : WorkflowPlan) (decision : PolicyDecision) : AdmissionResult Unit :=
  if !decision.allowed then
    .error { status := 409, code := "policy_denied".toList,
             message := decision.denialReason.getD "policy denied managed execution".toList }
  else if decision.executionTarget ≠ .standardWorkflow then
    .error (conflict "specialized_executor_required"
      "policy requires the blind-competition or adversarial-review executor; standard workflow admission is not permitted")
  else if decision.mode ≠ plan.mode then
    .error (conflict "policy_mode_escalated"
      "policy requires a different workflow mode; create a matching workflow plan")
  else if ¬ KeySet.SameKeys (plannedAgents plan) (selectedAgents decision) then
    .error (conflict "policy_assignment_mismatch"
      "workflow assignments do not exactly match the policy-selected providers")
  else .ok ()

def approvalCheck (decision : PolicyDecision) (approvedBy : Option Text) : AdmissionResult Unit :=
  if decision.requireHumanApproval && approvedBy.isNone then
    .error (conflict "human_approval_required" "the policy decision requires an explicit approver")
  else .ok ()

def policySnapshot (decision : PolicyDecision) : AdmissionPolicySnapshot where
  policyVersion := decision.policyVersion
  mode := decision.mode
  selectedAgentKeys := (selectedAgents decision).keys
  budget := decision.budget
  requireHumanApproval := decision.requireHumanApproval
  requireFiduciaLease := decision.requireFiduciaLease
  reasons := decision.reasons

def evaluatePolicy (request : PolicyRequest) : AdmissionResult PolicyDecision :=
  (Policy.evaluate request).mapError fun message =>
    { status := 400, code := "invalid_policy_request".toList, message := message }

/-- The record `create_admission` stores, after all its checks. -/
def newAdmission (s : AppState) (now : Now) (workflowId : Text) (request : AdmitReq) :
    AdmissionResult AdmissionRecord := do
  let plan ← (loadPlan s workflowId).mapError domainFailure
  validateRequestMatchesPlan plan request.policyRequest
  let decision ← evaluatePolicy request.policyRequest
  decisionChecks plan decision
  let requestedBy ← normalizeActor request.requestedBy
  let approvedBy ← request.approvedBy.mapM normalizeActor
  approvalCheck decision approvedBy
  let overrideReason ← request.overrideReason.mapM normalizeReason
  return {
    version := 1
    workflowId := workflowId
    requestedBy := requestedBy
    approvedBy := approvedBy
    overrideReason := overrideReason
    policy := policySnapshot decision
    status := .active
    usage := {}
    createdAt := now.ts
    updatedAt := now.ts
    terminalReason := none
    lastRejectedDelta := none }

/-- Stores the record and answers with it, or fails with the error of the store. -/
def persisted (s : AppState) (now : Now) (admission : AdmissionRecord) :
    AdmissionResult AdmissionRecord × AppState :=
  match persistAdmission s now admission with
  | (.error e, s) => (.error (domainFailure e), s)
  | (.ok _, s) => (.ok admission, s)

def createAdmission (s : AppState) (now : Now) (workflowId : Text) (request : AdmitReq) :
    AdmissionResult (AdmissionRecord × Bool) × AppState :=
  match loadAdmission s workflowId with
  | .error e => (.error (domainFailure e), s)
  | .ok (some existing) => (.ok (existing, false), s)
  | .ok none =>
    match newAdmission s now workflowId request with
    | .error e => (.error e, s)
    | .ok admission =>
      let r := persisted s now admission
      (r.1.map fun admission => (admission, true), r.2)

def requireActive (admission : AdmissionRecord) : AdmissionResult Unit :=
  if admission.status = .active then .ok ()
  else .error {
    status := 409
    code := "admission_terminal".toList
    message := "admission is ".toList ++ admission.status.debug
    admission := some admission }

def attemptedTotals (current : UsageTotals) (delta : UsageDelta) : Option UsageTotals := do
  let inputTokens ← checkedAdd current.inputTokens delta.inputTokens
  let outputTokens ← checkedAdd current.outputTokens delta.outputTokens
  let costMicroUsd ← checkedAdd current.costMicroUsd delta.costMicroUsd
  let retries ← checkedAdd current.retries delta.retries
  let providerCalls ← checkedAdd current.providerCalls delta.providerCalls
  let elapsedMs ← checkedAdd current.elapsedMs delta.elapsedMs
  return {
    inputTokens := inputTokens
    outputTokens := outputTokens
    costMicroUsd := costMicroUsd
    retries := retries
    providerCalls := providerCalls
    elapsedMs := elapsedMs
    peakConcurrency := max current.peakConcurrency delta.concurrency }

def maxProviderCalls (budget : BudgetLimits) : Nat :=
  saturatingMul (saturatingMul budget.maxProviders budget.maxRounds) (saturatingAdd budget.maxRetries 1)

def budgetViolation (budget : BudgetLimits) (usage : UsageTotals) : Option Text :=
  if usage.inputTokens > budget.maxInputTokens then some "input token budget exhausted".toList
  else if usage.outputTokens > budget.maxOutputTokens then
    some "output token budget exhausted".toList
  else if usage.costMicroUsd > budget.maxCostMicroUsd then some "cost budget exhausted".toList
  else if usage.retries > budget.maxRetries then some "retry budget exhausted".toList
  else if usage.peakConcurrency > budget.maxConcurrency then
    some "concurrency budget exhausted".toList
  else if usage.elapsedMs > budget.maxWallClockMs then some "wall-clock budget exhausted".toList
  else if usage.providerCalls > maxProviderCalls budget then
    some "provider call budget exhausted".toList
  else none

/-- Closes the admission over a delta that does not fit; the usage stays. -/
def exhaust (s : AppState) (now : Now) (admission : AdmissionRecord) (delta : UsageDelta) (reason : Text) :
    AdmissionFailure × AppState :=
  let admission := { admission with
    status := .exhausted
    updatedAt := now.ts
    terminalReason := some reason
    lastRejectedDelta := some delta }
  match persistAdmission s now admission with
  | (.error e, s) => (domainFailure e, s)
  | (.ok _, s) =>
    ({ conflict "admission_exhausted" "" with message := reason, admission := some admission }, s)

/-- The failed call over a delta that does not fit. -/
def rejected (s : AppState) (now : Now) (admission : AdmissionRecord) (delta : UsageDelta) (reason : Text) :
    AdmissionResult AdmissionRecord × AppState :=
  let r := exhaust s now admission delta reason
  (.error r.1, r.2)

def requireAdmission (s : AppState) (workflowId : Text) (message : String) :
    AdmissionResult AdmissionRecord :=
  match loadAdmission s workflowId with
  | .error e => .error (domainFailure e)
  | .ok none => .error (conflict "admission_required" message)
  | .ok (some admission) => .ok admission

def selectedActorCheck (admission : AdmissionRecord) (actor : Text) : AdmissionResult Unit :=
  if admission.policy.selectedAgentKeys.contains actor then .ok ()
  else .error {
    status := 403
    code := "admission_actor_not_selected".toList
    message := "usage may be reported only by a policy-selected provider".toList }

def recordUsage (s : AppState) (now : Now) (workflowId updatedBy : Text) (delta : UsageDelta) :
    AdmissionResult AdmissionRecord × AppState :=
  match (do
    let admission ← requireAdmission s workflowId
      "managed provider work requires an active admission"
    requireActive admission
    let updatedBy ← normalizeActor updatedBy
    selectedActorCheck admission updatedBy
    return admission) with
  | .error e => (.error e, s)
  | .ok admission =>
    match attemptedTotals admission.usage delta with
    | none => rejected s now admission delta "usage counter overflow".toList
    | some attempted =>
      match budgetViolation admission.policy.budget attempted with
      | some reason => rejected s now admission delta reason
      | none => persisted s now { admission with
          usage := attempted
          updatedAt := now.ts
          lastRejectedDelta := none }

def authorizedActorCheck (admission : AdmissionRecord) (actor : Text) : AdmissionResult Unit :=
  if actor = admission.requestedBy || admission.policy.selectedAgentKeys.contains actor then .ok ()
  else .error {
    status := 403
    code := "admission_actor_not_authorized".toList
    message := "actor is not authorized to transition this admission".toList }

def transition (s : AppState) (now : Now) (workflowId updatedBy : Text) (status : AdmissionStatus)
    (reason : Option Text) : AdmissionResult AdmissionRecord × AppState :=
  match (do
    let admission ← requireAdmission s workflowId "workflow admission is missing"
    requireActive admission
    let actor ← normalizeActor updatedBy
    authorizedActorCheck admission actor
    let terminalReason ← reason.mapM normalizeReason
    return (admission, terminalReason)) with
  | .error e => (.error e, s)
  | .ok (admission, terminalReason) => persisted s now { admission with
      status := status
      updatedAt := now.ts
      terminalReason := terminalReason }

end PolicyAdmission
end AgentBridge
