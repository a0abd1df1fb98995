import AgentBridge.Blind.Storage
import AgentBridge.Security.Credentials
import AgentBridge.Workflow.Handlers

/-! The blind-competition handlers. -/

namespace AgentBridge

structure CreateBlindCompetitionReq where
  title : Text
  prompt : Text
  createdBy : Text
  workerAgentKeys : List Text
  reviewerAgentKey : Text
  metadata : Json

structure SubmitBlindCompetitionReq where
  agentKey : Text
  content : Text
  metadata : Json

namespace BlindCompetition

/-- The loop over the requested workers; `workers` are those found so far. -/
def collectWorkers (s : AppState) (workers : List BlindWorker) : List Text → BridgeResult (List BlindWorker)
  | [] => .ok workers
  | requested :: rest => do
    let agentKey ← normalizeAgentKey requested
    if (workers.map BlindWorker.agentKey).contains agentKey then
      .error (.badRequest ("duplicate blind competition worker '".toList ++ agentKey ++ "'".toList))
    else if !s.listAgents.any (fun agent => agent.agentKey = agentKey) then
      .error (.agentNotFound agentKey)
    else collectWorkers s (workers ++ [{ ordinal := workers.length, agentKey := agentKey }]) rest

def checkReviewer (s : AppState) (workers : List BlindWorker) (reviewer : Text) : BridgeResult Unit :=
  if (workers.map BlindWorker.agentKey).contains reviewer then
    .error (.badRequest "blind competition reviewer must be distinct from every worker".toList)
  else if !s.listAgents.any (fun agent => agent.agentKey = reviewer) then
    .error (.agentNotFound reviewer)
  else .ok ()

def checkWorkerCount (count : Nat) : BridgeResult Unit :=
  if count < 2 then
    .error (.badRequest "blind competition requires at least two workers".toList)
  else if count > maxBlindWorkers then
    .error (.capacityExceeded "blind competition workers".toList maxBlindWorkers)
  else .ok ()

/-- What a new plan is made of, after all checks of `create_blind_competition`. -/
def buildPlan (s : AppState) (now : Now) (id : Text) (req : CreateBlindCompetitionReq) :
    BridgeResult BlindCompetitionPlan := do
  let title ← normalizeRequiredText req.title "title".toList maxTitleBytes
  let prompt ← normalizeRequiredText req.prompt "prompt".toList s.config.maxContentBytes
  let createdBy ← normalizeAgentKey req.createdBy
  validateJsonSize req.metadata s.config.maxContentBytes "blind competition meta".toList
  checkWorkerCount req.workerAgentKeys.length
  let workers ← collectWorkers s [] req.workerAgentKeys
  let reviewerAgentKey ← normalizeAgentKey req.reviewerAgentKey
  checkReviewer s workers reviewerAgentKey
  let channel ← blindChannel id
  return {
    version := 1
    id := id
    channel := channel
    title := title
    prompt := prompt
    createdBy := createdBy
    createdAt := now.ts
    workers := workers
    reviewerAgentKey := reviewerAgentKey
    metadata := req.metadata }

def seated (plan : BlindCompetitionPlan) : List Text :=
  plan.workers.map BlindWorker.agentKey ++ [plan.reviewerAgentKey]

def openedMessage (plan : BlindCompetitionPlan) : Text :=
  "Blind competition ".toList ++ plan.id ++ " opened for ".toList ++
    Text.decimal plan.workers.length ++ " workers.".toList

def openedMetadata (plan : BlindCompetitionPlan) : Json :=
  .obj [("kind".toList, .str "blind_competition_created".toList), ("workflow_id".toList, .str plan.id),
    ("worker_count".toList, .nat plan.workers.length),
    ("reviewer_agent_key".toList, .str plan.reviewerAgentKey)]

/-- A record goes into the context, a notice into the channel, and the view comes back. -/
def publish (s : AppState) (now : Now) (messageId : Text) (plan : BlindCompetitionPlan) (key : Text)
    (value : ContextValue) (actor notice : Text) (metadata : Json) (viewer : Option Text) :
    BridgeResult BlindCompetitionView × AppState :=
  match insertBlindContext s now plan.channel key value actor with
  | (.error e, s) => (.error e, s)
  | (.ok _, s) =>
    match s.postMessage now messageId plan.channel actor .system notice metadata with
    | (.error e, s) => (.error e, s)
    | (.ok _, s) => (buildView s plan viewer, s)

/-- The part of `create_blind_competition` that changes the state. -/
def installPlan (s : AppState) (w : Surroundings) (now : Now) (messageId : Text)
    (plan : BlindCompetitionPlan) (viewer : Option Text) :
    BridgeResult BlindCompetitionView × AppState :=
  match s.createOrGetChannel w now plan.channel plan.title plan.createdBy with
  | (.error e, s) => (.error e, s)
  | (.ok _, s) =>
    match Orchestration.joinAll s now plan.channel (seated plan) with
    | (.error e, s) => (.error e, s)
    | (.ok _, s) =>
      publish s now messageId plan blindPlanContextKey (.blindPlan plan) plan.createdBy
        (openedMessage plan) (openedMetadata plan) viewer

variable (s : AppState) (now : Now) (viewer : Option AuthenticatedAdapter)

def viewerKey : Option AuthenticatedAdapter → Option Text := Option.map AuthenticatedAdapter.agentKey

def createBlindCompetition (w : Surroundings) (id messageId : Text) (req : CreateBlindCompetitionReq) :
    BridgeResult BlindCompetitionView × AppState :=
  match buildPlan s now id req with
  | .error e => (.error e, s)
  | .ok plan => installPlan s w now messageId plan (viewerKey viewer)

def getBlindCompetition (workflowId : Text) : BridgeResult BlindCompetitionView := do
  let plan ← loadPlan s workflowId
  buildView s plan (viewerKey viewer)

def submissionKey (ordinal : Nat) : Text := blindSubmissionContextPrefix ++ Text.decimal ordinal

def submitChecks (identity : AuthenticatedAdapter) (workflowId : Text) (req : SubmitBlindCompetitionReq) :
    BridgeResult (BlindCompetitionPlan × BlindSubmission) := do
  let requestedAgentKey ← normalizeAgentKey req.agentKey
  if requestedAgentKey ≠ identity.agentKey then .error .unauthorized
  else do
    let content ←
      normalizeRequiredText req.content "blind submission content".toList s.config.maxContentBytes
    validateJsonSize req.metadata s.config.maxContentBytes "blind submission meta".toList
    let plan ← loadPlan s workflowId
    let reveal ← loadReveal s plan.channel
    if reveal.isSome then
      .error (.badRequest "blind competition submissions are closed after reveal".toList)
    else match plan.workers.find? (fun worker => worker.agentKey = identity.agentKey) with
    | none => .error (.badRequest ("agent '".toList ++ identity.agentKey ++
        "' is not a worker in blind competition '".toList ++ plan.id ++ "'".toList))
    | some worker => .ok (plan, {
        workflowId := plan.id
        assignmentOrdinal := worker.ordinal
        agentKey := identity.agentKey
        content := content
        metadata := req.metadata
        submittedAt := now.ts })

def submissionMetadata (submission : BlindSubmission) : Json :=
  .obj [("kind".toList, .str "blind_submission_received".toList),
    ("workflow_id".toList, .str submission.workflowId),
    ("assignment_ordinal".toList, .nat submission.assignmentOrdinal),
    ("agent_key".toList, .str submission.agentKey),
    ("candidate_content_in_channel".toList, .bool false)]

def submitBlindCompetition (messageId workflowId : Text) (req : SubmitBlindCompetitionReq) :
    BridgeResult BlindCompetitionView × AppState :=
  match viewer with
  | none => (.error .unauthorized, s)
  | some identity =>
    match submitChecks s now identity workflowId req with
    | .error e => (.error e, s)
    | .ok (plan, submission) =>
      publish s now messageId plan (submissionKey submission.assignmentOrdinal)
        (.blindSubmission submission) identity.agentKey
        ("Blind candidate ".toList ++ Text.decimal submission.assignmentOrdinal ++ " submitted.".toList)
        (submissionMetadata submission) (some identity.agentKey)

def revealChecks (identity : AuthenticatedAdapter) (workflowId : Text) :
    BridgeResult (BlindCompetitionPlan × Nat) := do
  let plan ← loadPlan s workflowId
  if identity.agentKey ≠ plan.reviewerAgentKey then .error .unauthorized
  else do
    let submissions ← loadSubmissions s plan.channel
    if submissions.length ≠ plan.workers.length then
      .error (.badRequest ("reviewer must wait for all ".toList ++ Text.decimal plan.workers.length ++
        " worker submissions; received ".toList ++ Text.decimal submissions.length))
    else .ok (plan, submissions.length)

def revealMetadata (plan : BlindCompetitionPlan) (candidates : Nat) : Json :=
  .obj [("kind".toList, .str "blind_competition_revealed".toList), ("workflow_id".toList, .str plan.id),
    ("reviewer_agent_key".toList, .str plan.reviewerAgentKey),
    ("candidate_count".toList, .nat candidates)]

def revealBlindCompetition (messageId workflowId : Text) : BridgeResult BlindCompetitionView × AppState :=
  match viewer with
  | none => (.error .unauthorized, s)
  | some identity =>
    match revealChecks s identity workflowId with
    | .error e => (.error e, s)
    | .ok (plan, candidates) =>
      let reveal : BlindReveal := {
        workflowId := plan.id
        reviewerAgentKey := identity.agentKey
        revealedAt := now.ts }
      publish s now messageId plan blindRevealContextKey (.blindReveal reveal) identity.agentKey
        "Blind candidate set revealed to authorized workflow readers.".toList
        (revealMetadata plan candidates) (some identity.agentKey)

end BlindCompetition
end AgentBridge
