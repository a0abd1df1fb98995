import AgentBridge.Workflow.Orchestration

/-! The workflow handlers. A submission is a sequence of separately locked steps:
`SubmitCall` says how far a call has come, and other requests may run in between. -/

namespace AgentBridge.Orchestration

/-- The candidates without a reviewer named in the request, who must be registered. -/
def workerCandidates (agents candidates : List Agent) : Option Text → BridgeResult (List Agent)
  | none => .ok candidates
  | some reviewer =>
    if agents.any (fun a => a.agentKey = reviewer) then
      .ok (candidates.filter fun a => a.agentKey ≠ reviewer)
    else .error (.agentNotFound reviewer)

/-- What a new plan is made of, after all checks of `create_workflow`. -/
def buildPlan (s : AppState) (now : Now) (id : Text) (req : CreateWorkflowReq) :
    BridgeResult WorkflowPlan := do
  let title ← normalizeRequiredText req.title "title".toList maxWorkflowTitleBytes
  let prompt ← normalizeRequiredText req.prompt "prompt".toList s.config.maxContentBytes
  let createdBy ← normalizeAgentKey req.createdBy
  validateJsonSize req.metadata s.config.maxContentBytes "workflow meta".toList
  let requiredCapabilities ← normalizeCapabilities req.requiredCapabilities
  let agents := s.listAgents
  let candidates ← selectCandidates agents req.agentKeys req.agentKinds requiredCapabilities
  let reviewer ← req.reviewerAgentKey.mapM normalizeAgentKey
  let candidates ← workerCandidates agents candidates reviewer
  let assignments ← buildAssignments req.mode candidates req.workerCount reviewer
  let fileLease ←
    buildFileLeaseRequirement req.repository req.paths req.requireFileLeases req.leaseTtlMs
  return {
    version := 1
    id := id
    channel := "workflow-".toList ++ id
    title := title
    prompt := prompt
    mode := req.mode
    createdBy := createdBy
    createdAt := now.ts
    assignments := assignments
    fileLease := fileLease
    requiredCapabilities := requiredCapabilities
    metadata := req.metadata }

/-- Seats for the assigned agents, in order; the first failure ends it. -/
def joinAll (s : AppState) (now : Now) (channel : Text) : List Text → BridgeResult Unit × AppState
  | [] => (.ok (), s)
  | key :: keys =>
    match s.join now channel key .member with
    | (.error e, s) => (.error e, s)
    | (.ok _, s) => joinAll s now channel keys

def createdMessage (plan : WorkflowPlan) : Text :=
  "Workflow ".toList ++ plan.id ++ " created in ".toList ++ plan.mode.debug ++ " mode with ".toList ++
    Text.decimal plan.assignments.length ++ " assignment(s).".toList

/-- The part of `create_workflow` that changes the state. -/
def installPlan (s : AppState) (w : Surroundings) (now : Now) (messageId : Text) (plan : WorkflowPlan) :
    BridgeResult WorkflowView × AppState :=
  match s.createOrGetChannel w now plan.channel plan.title plan.createdBy with
  | (.error e, s) => (.error e, s)
  | (.ok _, s) =>
    match joinAll s now plan.channel (plan.assignments.map WorkflowAssignment.agentKey) with
    | (.error e, s) => (.error e, s)
    | (.ok _, s) =>
      match insertWorkflowContext s now plan.channel planContextKey (.workflowPlan plan)
          plan.createdBy with
      | (.error e, s) => (.error e, s)
      | (.ok _, s) =>
        match s.postMessage now messageId plan.channel plan.createdBy .system (createdMessage plan)
            (.obj [("kind".toList, .str "workflow_created".toList), ("workflow_id".toList, .str plan.id),
              ("mode".toList, .str plan.mode.name)]) with
        | (.error e, s) => (.error e, s)
        | (.ok _, s) => (workflowView s plan, s)

def createWorkflow (s : AppState) (w : Surroundings) (now : Now) (id messageId : Text)
    (req : CreateWorkflowReq) : BridgeResult WorkflowView × AppState :=
  match buildPlan s now id req with
  | .error e => (.error e, s)
  | .ok plan => installPlan s w now messageId plan

def listWorkflows (s : AppState) : List WorkflowView :=
  let views := (s.listChannels.filter fun ch => "workflow-".toList.isPrefixOf ch.slug).filterMap fun ch =>
    ((loadPlanByChannel s ch.slug).bind (workflowView s)).toOption
  views.insertionSort fun a b => a.plan.createdAt ≤ b.plan.createdAt

def getWorkflow (s : AppState) (workflowId : Text) : BridgeResult WorkflowView := do
  let plan ← loadPlan s workflowId
  workflowView s plan

structure SubmissionInput where
  agentKey : Text
  content : Text
  metadata : Json

def submitChecks (s : AppState) (req : SubmitWorkflowReq) : BridgeResult SubmissionInput := do
  let agentKey ← normalizeAgentKey req.agentKey
  let content ←
    normalizeRequiredText req.content "submission content".toList s.config.maxContentBytes
  validateJsonSize req.metadata s.config.maxContentBytes "submission meta".toList
  return { agentKey := agentKey, content := content, metadata := req.metadata }

def findAssignment (plan : WorkflowPlan) (agentKey : Text) : BridgeResult WorkflowAssignment :=
  match plan.assignments.find? (fun a => a.agentKey = agentKey) with
  | some assignment => .ok assignment
  | none => .error (.badRequest ("agent '".toList ++ agentKey ++
      "' is not assigned to workflow '".toList ++ plan.id ++ "'".toList))

def newSubmission (plan : WorkflowPlan) (assignment : WorkflowAssignment) (input : SubmissionInput)
    (now : Now) : WorkflowSubmission where
  workflowId := plan.id
  assignmentOrdinal := assignment.ordinal
  agentKey := input.agentKey
  role := assignment.role
  content := input.content
  metadata := input.metadata
  submittedAt := now.ts

def submissionKey (ordinal : Nat) : Text := submissionContextPrefix ++ Text.decimal ordinal

def submissionMetadata (plan : WorkflowPlan) (assignment : WorkflowAssignment) : Json :=
  .obj [("kind".toList, .str "workflow_submission".toList), ("workflow_id".toList, .str plan.id),
    ("assignment_ordinal".toList, .nat assignment.ordinal),
    ("assignment_role".toList, .str assignment.role.name), ("phase".toList, .nat assignment.phase)]

inductive SubmitCall
  | checked (workflowId : Text) (input : SubmissionInput)
  | planned (plan : WorkflowPlan) (assignment : WorkflowAssignment) (input : SubmissionInput)
  | validated (plan : WorkflowPlan) (assignment : WorkflowAssignment) (input : SubmissionInput)
  | stored (plan : WorkflowPlan) (assignment : WorkflowAssignment) (input : SubmissionInput)
  | finished (result : BridgeResult WorkflowView)

def SubmitCall.step (s : AppState) (now : Now) (messageId : Text) : SubmitCall → SubmitCall × AppState
  | checked workflowId input =>
    match (do
      let plan ← loadPlan s workflowId
      let assignment ← findAssignment plan input.agentKey
      return (plan, assignment)) with
    | .error e => (finished (.error e), s)
    | .ok (plan, assignment) => (planned plan assignment input, s)
  | planned plan assignment input =>
    match (do
      let submissions ← loadSubmissions s plan.channel
      validateSubmissionTurn plan assignment submissions) with
    | .error e => (finished (.error e), s)
    | .ok () => (validated plan assignment input, s)
  | validated plan assignment input =>
    match insertWorkflowContext s now plan.channel (submissionKey assignment.ordinal)
        (.workflowSubmission (newSubmission plan assignment input now)) input.agentKey with
    | (.error e, s) => (finished (.error e), s)
    | (.ok _, s) => (stored plan assignment input, s)
  | stored plan assignment input =>
    match s.postMessage now messageId plan.channel input.agentKey .assistant input.content
        (submissionMetadata plan assignment) with
    | (.error e, s) => (finished (.error e), s)
    | (.ok _, s) => (finished (workflowView s plan), s)
  | finished result => (finished result, s)

def SubmitCall.start (s : AppState) (workflowId : Text) (req : SubmitWorkflowReq) : SubmitCall :=
  match submitChecks s req with
  | .error e => finished (.error e)
  | .ok input => checked workflowId input

/-- The whole handler: all four steps, with nothing in between. -/
def submitWorkflow (s : AppState) (now : Now) (messageId workflowId : Text) (req : SubmitWorkflowReq) :
    SubmitCall × AppState :=
  let (call, s) := (SubmitCall.start s workflowId req).step s now messageId
  let (call, s) := call.step s now messageId
  let (call, s) := call.step s now messageId
  call.step s now messageId

end AgentBridge.Orchestration
