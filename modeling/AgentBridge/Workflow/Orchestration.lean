import AgentBridge.Base.KeySet
import AgentBridge.State.Channels

/-! Workflow orchestration: candidate selection, assignments, the records a
workflow keeps in its channel's context, its status and the turn check. -/

namespace AgentBridge

inductive WorkflowStage
  | ready | running | awaitingReview | completed
deriving DecidableEq

structure WorkflowStatus where
  stage : WorkflowStage
  currentAgentKey : Option Text
  submittedAgents : List Text
  pendingAgents : List Text
deriving DecidableEq

structure WorkflowView where
  plan : WorkflowPlan
  status : WorkflowStatus
  submissions : List WorkflowSubmission

structure CreateWorkflowReq where
  title : Text
  prompt : Text
  createdBy : Text
  mode : WorkflowMode
  agentKeys : List Text := []
  agentKinds : List AgentKind := []
  requiredCapabilities : List Text := []
  workerCount : Option Nat := none
  reviewerAgentKey : Option Text := none
  repository : Option Text := none
  paths : List Text := []
  requireFileLeases : Bool := false
  leaseTtlMs : Option Nat := none
  metadata : Json := .null

structure SubmitWorkflowReq where
  agentKey : Text
  content : Text
  metadata : Json := .null

namespace Orchestration

def planContextKey : Text := "workflow.plan.v1".toList
def submissionContextPrefix : Text := "workflow.submission.v1.".toList
def maxWorkflowTitleBytes : Nat := 1024
def maxAssignments : Nat := 30
def maxPathBytes : Nat := 4096
def defaultLeaseTtlMs : Nat := 30000
def minLeaseTtlMs : Nat := 100
def maxLeaseTtlMs : Nat := 3600000

def normalizeAgentKey (value : Text) : BridgeResult Text :=
  let value := Text.trim value
  if value = [] then .error (.badRequest "agent_key is required".toList)
  else if Text.byteLen value > 120 then .error (.payloadTooLarge "agent_key".toList 120)
  else .ok value

def normalizeRequiredText (value name : Text) (limit : Nat) : BridgeResult Text :=
  let value := Text.trim value
  if value = [] then .error (.badRequest (name ++ " is required".toList))
  else if Text.byteLen value > limit then .error (.payloadTooLarge name limit)
  else .ok value

/-- The loop of `normalize_capabilities`. -/
def insertCapabilities (capabilities : KeySet Text) : List Text → BridgeResult (KeySet Text)
  | [] => .ok capabilities
  | value :: values =>
    let value := Text.toAsciiLowercase (Text.trim value)
    if value = [] then
      .error (.badRequest "required capabilities cannot contain empty values".toList)
    else if Text.byteLen value > 120 || value.any Text.isControl then
      .error (.badRequest ("invalid required capability '".toList ++ value ++ "'".toList))
    else insertCapabilities (capabilities.insert value) values

def normalizeCapabilities (values : List Text) : BridgeResult (List Text) :=
  (insertCapabilities .empty values).map KeySet.keys

def agentHasCapabilities (agent : Agent) (required : List Text) : Bool :=
  let advertised := (((agent.metadata.get "capabilities".toList).bind Json.asArray).getD []).filterMap
    fun v => v.asStr.map fun t => Text.toAsciiLowercase (Text.trim t)
  required.all fun value => advertised.contains value

def validateJsonSize (value : Json) (limit : Nat) (what : Text) : BridgeResult Unit :=
  if value.bytes > limit then .error (.payloadTooLarge what limit) else .ok ()

/-- The explicit branch of `select_candidates`; repeated keys are skipped. -/
def requestedCandidates (agents : List Agent) (requiredCapabilities : List Text) (seen : KeySet Text) :
    List Text → BridgeResult (List Agent)
  | [] => .ok []
  | requested :: rest => do
    let key ← normalizeAgentKey requested
    if key ∈ seen then requestedCandidates agents requiredCapabilities seen rest
    else match agents.find? (fun a => a.agentKey = key) with
    | none => .error (.agentNotFound key)
    | some agent =>
      if !requiredCapabilities.isEmpty && !agentHasCapabilities agent requiredCapabilities then
        .error (.badRequest ("agent '".toList ++ agent.agentKey ++
          "' does not advertise all required capabilities".toList))
      else do
        let selected ← requestedCandidates agents requiredCapabilities (seen.insert key) rest
        return agent :: selected

def matchingCandidates (agents : List Agent) (kinds : List AgentKind) (requiredCapabilities : List Text) :
    List Agent :=
  (agents.insertionSort fun a b => a.agentKey ≤ b.agentKey).filter fun agent =>
    agent.kind ≠ .human && (kinds.isEmpty || kinds.contains agent.kind) &&
      agentHasCapabilities agent requiredCapabilities

def selectCandidates (agents : List Agent) (requestedKeys : List Text) (requestedKinds : List AgentKind)
    (requiredCapabilities : List Text) : BridgeResult (List Agent) := do
  let selected ← if requestedKeys.isEmpty then
      .ok (matchingCandidates agents requestedKinds requiredCapabilities)
    else requestedCandidates agents requiredCapabilities .empty requestedKeys
  if selected.isEmpty then
    .error (.badRequest "no registered agents match the workflow selection".toList)
  else .ok selected

def normalizedWorkerCount (requested : Option Nat) (default minimum : Nat) : BridgeResult Nat :=
  let count := requested.getD default
  if count < minimum then
    .error (.badRequest ("workflow mode requires at least ".toList ++ Text.decimal minimum ++
      " worker(s)".toList))
  else if count > maxAssignments then
    .error (.capacityExceeded "workflow assignments".toList maxAssignments)
  else .ok count

def ensureCandidateCount (candidates : List Agent) (count : Nat) (mode : Text) : BridgeResult Unit :=
  if candidates.length < count then
    .error (.badRequest (mode ++ " mode requested ".toList ++ Text.decimal count ++
      " worker(s), but only ".toList ++ Text.decimal candidates.length ++
      " matching agent(s) are registered".toList))
  else .ok ()

/-- The first `count` candidates as workers, each in the phase of its ordinal. -/
def workers (phase : Nat → Nat) (candidates : List Agent) (count : Nat) : List WorkflowAssignment :=
  (candidates.take count).mapIdx fun ordinal worker =>
    { ordinal := ordinal, agentKey := worker.agentKey, role := .worker, phase := phase ordinal }

/-- The reviewer of a consensus plan: named, or the candidate after the workers. -/
def consensusReviewer (candidates : List Agent) (workerCount : Option Nat)
    (explicitReviewer : Option Text) : BridgeResult Text :=
  match explicitReviewer with
  | some reviewer => .ok reviewer
  | none =>
    if candidates.length < 3 then
      .error (.badRequest "consensus mode requires at least two workers and one reviewer".toList)
    else match candidates[workerCount.getD (min (candidates.length - 1) 3)]? with
    | none => .error (.badRequest "consensus mode needs one candidate reserved as reviewer".toList)
    | some agent => .ok agent.agentKey

def consensusAssignments (candidates : List Agent) (workerCount : Option Nat)
    (explicitReviewer : Option Text) : BridgeResult (List WorkflowAssignment) := do
  let reviewer ← consensusReviewer candidates workerCount explicitReviewer
  let maxWorkers := if explicitReviewer.isSome then candidates.length else candidates.length - 1
  let count ← normalizedWorkerCount workerCount (min maxWorkers 3) 2
  ensureCandidateCount candidates count "consensus".toList
  let assignments := workers (fun _ => 0) candidates count
  if assignments.any (fun item => item.agentKey = reviewer) then
    .error (.badRequest "consensus reviewer must be distinct from every worker".toList)
  else .ok (assignments ++
    [{ ordinal := assignments.length, agentKey := reviewer, role := .reviewer, phase := 1 }])

def modeAssignments (mode : WorkflowMode) (candidates : List Agent) (workerCount : Option Nat)
    (explicitReviewer : Option Text) : BridgeResult (List WorkflowAssignment) :=
  match mode with
  | .single =>
    if workerCount.any (· ≠ 1) then
      .error (.badRequest "single mode requires worker_count=1".toList)
    else match candidates.head? with
    | none => .error (.badRequest "single mode requires one matching agent".toList)
    | some worker => .ok [{ ordinal := 0, agentKey := worker.agentKey, role := .worker, phase := 0 }]
  | .sequential => do
    let count ← normalizedWorkerCount workerCount (min candidates.length 3) 1
    ensureCandidateCount candidates count "sequential".toList
    return workers id candidates count
  | .competitive => do
    let count ← normalizedWorkerCount workerCount (min candidates.length 3) 2
    ensureCandidateCount candidates count "competitive".toList
    return workers (fun _ => 0) candidates count
  | .consensus => consensusAssignments candidates workerCount explicitReviewer

def buildAssignments (mode : WorkflowMode) (candidates : List Agent) (workerCount : Option Nat)
    (explicitReviewer : Option Text) : BridgeResult (List WorkflowAssignment) := do
  let assignments ← modeAssignments mode candidates workerCount explicitReviewer
  if assignments.length > maxAssignments then
    .error (.capacityExceeded "workflow assignments".toList maxAssignments)
  else .ok assignments

def normalizeRepository (value : Text) : BridgeResult Text := State.normalizeRepository value

def normalizeRepoPath (value : Text) : BridgeResult Text :=
  let value := Text.trimMatches '/' (Text.trim value)
  if value = [] then .error (.badRequest "file-lease path is required".toList)
  else if Text.byteLen value > maxPathBytes then
    .error (.payloadTooLarge "file-lease path".toList maxPathBytes)
  else if value.any Text.isControl ||
      (value.splitOn '/').any (fun part => part = [] || part = ".".toList || part = "..".toList) ||
      value.contains '\\' then
    .error (.badRequest ("file-lease path '".toList ++ value ++
      "' is not canonical and repository-relative".toList))
  else .ok value

def normalizeRepoPaths (seen : KeySet Text) : List Text → BridgeResult (List Text)
  | [] => .ok []
  | path :: paths => do
    let path ← normalizeRepoPath path
    let rest ← normalizeRepoPaths (seen.insert path) paths
    return if path ∈ seen then rest else path :: rest

def buildFileLeaseRequirement (repository : Option Text) (paths : List Text) (required : Bool)
    (ttlMs : Option Nat) : BridgeResult (Option FileLeaseRequirement) :=
  let hasRepository := repository.any fun value => Text.trim value ≠ []
  if !hasRepository && paths.isEmpty && !required then .ok none
  else do
    let repository ← normalizeRepository (repository.getD [])
    if paths.isEmpty then
      .error (.badRequest
        "file-lease workflows require at least one exact repository-relative path".toList)
    else do
      let normalizedPaths ← normalizeRepoPaths .empty paths
      return some {
        repository := repository
        paths := normalizedPaths
        required := true
        ttlMs := min (max (ttlMs.getD defaultLeaseTtlMs) minLeaseTtlMs) maxLeaseTtlMs
        acquirePath := "/file-leases/acquire".toList
        releasePath := "/file-leases/release".toList }

def validWorkflowId (workflowId : Text) : Bool :=
  !workflowId.isEmpty && Text.byteLen workflowId ≤ 64 &&
    workflowId.all fun c => Text.isAsciiAlphanumeric c || c = '-'

def workflowChannel (workflowId : Text) : BridgeResult Text :=
  let workflowId := Text.trim workflowId
  if validWorkflowId workflowId then .ok ("workflow-".toList ++ workflowId)
  else .error (.badRequest "invalid workflow id".toList)

/-- Insert-only: an existing key is refused. -/
def insertWorkflowContext (s : AppState) (now : Now) (slug key : Text) (value : ContextValue)
    (updatedBy : Text) : BridgeResult ContextEntry × AppState :=
  match s.getContextKeyInternal slug key with
  | .error e => (.error e, s)
  | .ok (some _) =>
    (.error (.badRequest ("workflow context key '".toList ++ key ++ "' already exists".toList)), s)
  | .ok none => s.setContextInternal now slug key value updatedBy

def loadPlanByChannel (s : AppState) (channel : Text) : BridgeResult WorkflowPlan := do
  match ← s.getContextKeyInternal channel planContextKey with
  | none => .error (.badRequest ("workflow plan missing in '".toList ++ channel ++ "'".toList))
  | some entry =>
    match entry.value with
    | .workflowPlan plan => .ok plan
    | _ => .error (.badRequest ("workflow plan in '".toList ++ channel ++ "' is invalid".toList))

def loadPlan (s : AppState) (workflowId : Text) : BridgeResult WorkflowPlan := do
  let channel ← workflowChannel workflowId
  loadPlanByChannel s channel

def parseSubmission (entry : ContextEntry) : Option WorkflowSubmission :=
  if submissionContextPrefix.isPrefixOf entry.key then
    match entry.value with
    | .workflowSubmission submission => some submission
    | _ => none
  else none

def loadSubmissions (s : AppState) (channel : Text) : BridgeResult (List WorkflowSubmission) :=
  (s.getContextInternal channel).map fun entries =>
    (entries.filterMap parseSubmission).insertionSort
      fun a b => a.assignmentOrdinal ≤ b.assignmentOrdinal

def submittedOrdinals (submissions : List WorkflowSubmission) : List Nat :=
  submissions.map WorkflowSubmission.assignmentOrdinal

def workflowStatus (plan : WorkflowPlan) (submissions : List WorkflowSubmission) : WorkflowStatus :=
  let submitted := submittedOrdinals submissions
  let submittedAgents := (plan.assignments.filter fun a => submitted.contains a.ordinal).map
    WorkflowAssignment.agentKey
  let pending := plan.assignments.filter fun a => a.role = .worker && !submitted.contains a.ordinal
  let pendingAgents := pending.map WorkflowAssignment.agentKey
  let inProgress (current : Option Text) : WorkflowStatus := {
    stage := if submitted.isEmpty then .ready else .running
    currentAgentKey := current
    submittedAgents := submittedAgents
    pendingAgents := pendingAgents }
  let completed : WorkflowStatus := {
    stage := .completed
    currentAgentKey := none
    submittedAgents := submittedAgents
    pendingAgents := [] }
  if !pending.isEmpty then
    match plan.mode with
    | .sequential => inProgress pendingAgents.head?
    | .single => inProgress pendingAgents.head?
    | .consensus => inProgress none
    | .competitive => inProgress none
  else match plan.mode, plan.assignments.find? (fun a => a.role = .reviewer) with
  | .consensus, some reviewer =>
    if submitted.contains reviewer.ordinal then completed
    else {
      stage := .awaitingReview
      currentAgentKey := some reviewer.agentKey
      submittedAgents := submittedAgents
      pendingAgents := [reviewer.agentKey] }
  | _, _ => completed

def workflowView (s : AppState) (plan : WorkflowPlan) : BridgeResult WorkflowView :=
  (loadSubmissions s plan.channel).map fun submissions =>
    { plan := plan, status := workflowStatus plan submissions, submissions := submissions }

def validateSubmissionTurn (plan : WorkflowPlan) (assignment : WorkflowAssignment)
    (submissions : List WorkflowSubmission) : BridgeResult Unit :=
  let submitted := submittedOrdinals submissions
  if submitted.contains assignment.ordinal then
    .error (.badRequest ("assignment ".toList ++ Text.decimal assignment.ordinal ++
      " has already submitted".toList))
  else match plan.mode with
  | .sequential =>
    let firstMissing :=
      plan.assignments.find? fun c => c.role = .worker && !submitted.contains c.ordinal
    if firstMissing.map WorkflowAssignment.ordinal ≠ some assignment.ordinal then
      .error (.badRequest ("sequential workflow is waiting for agent '".toList ++
        (firstMissing.map WorkflowAssignment.agentKey).getD "none".toList ++ "'".toList))
    else .ok ()
  | .consensus =>
    match assignment.role with
    | .worker =>
      if plan.assignments.any (fun c => c.role = .reviewer && submitted.contains c.ordinal) then
        .error (.badRequest "worker submissions are closed after the reviewer submitted".toList)
      else .ok ()
    | .reviewer =>
      if plan.assignments.any (fun c => c.role = .worker && !submitted.contains c.ordinal) then
        .error (.badRequest "reviewer must wait for every worker submission".toList)
      else .ok ()
  | .single | .competitive =>
    if assignment.role ≠ .worker then
      .error (.badRequest "reviewer assignments are only valid in consensus mode".toList)
    else .ok ()

end Orchestration
end AgentBridge
