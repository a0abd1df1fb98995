import AgentBridge.Base.Json
import AgentBridge.Base.Run
import AgentBridge.Slack.EventStore

/-! The workers of accepted events and of dispatched tasks: they ask the bridge for a workflow, poll it until the
deadline, and reply in Slack, while others may ask for their run to be canceled. A step is at most one section under
the lock of the records, or one await. -/

namespace AgentBridge.Slack

def maxSlackMessageBytes : Nat := 35000

structure ModelRoute where
  agentKey : Text
  label : Text
deriving DecidableEq

inductive ModelSelection
  | claude | chatgpt | both
deriving DecidableEq

namespace ModelSelection

def workflowMode : ModelSelection → Text
  | both => "competitive".toList
  | _ => "single".toList

def asStr : ModelSelection → Text
  | claude => "claude".toList
  | chatgpt => "chatgpt".toList
  | both => "both".toList

end ModelSelection

/-- What the workers read of the configuration, which is refused where the keys are equal. -/
structure SlackConfig where
  claudeAgentKey : Text
  openaiAgentKey : Text
  distinct : claudeAgentKey ≠ openaiAgentKey
  dryRun : Bool

def SlackConfig.claude (config : SlackConfig) : ModelRoute := ⟨config.claudeAgentKey, "Claude Fable".toList⟩
def SlackConfig.openai (config : SlackConfig) : ModelRoute := ⟨config.openaiAgentKey, "ChatGPT 5.6 Sol".toList⟩

def SlackConfig.selectedModels (config : SlackConfig) : ModelSelection → List ModelRoute
  | .claude => [config.claude]
  | .chatgpt => [config.openai]
  | .both => [config.claude, config.openai]

structure AcceptedEvent where
  eventId : Text
  teamId : Text
  channel : Text
  threadTs : Text
  user : Text
  prompt : Text
  selection : ModelSelection

/-- What `process_dispatch` reads of its request once the workflow is asked for. -/
structure DispatchRequest where
  dispatchId : Text
  providerSlug : Text
  agentKey : Text

structure WorkflowSubmission where
  agentKey : Text
  content : Text

structure WorkflowView where
  planId : Text
  /-- The agent keys of the assignments of the plan. -/
  assignments : List Text
  stage : Text
  submissions : List WorkflowSubmission

def workflowCreatePayload (config : SlackConfig) (event : AcceptedEvent) : Json :=
  let agentKeys := (config.selectedModels event.selection).map ModelRoute.agentKey
  let count := Json.num (.posInt agentKeys.length)
  .obj [
    ("title".toList, .str ("Slack ".toList ++ event.selection.asStr ++ " request ".toList ++ event.eventId)),
    ("prompt".toList, .str event.prompt),
    ("created_by".toList, .str (agentKeys.headD [])),
    ("mode".toList, .str event.selection.workflowMode),
    ("agent_keys".toList, .arr (agentKeys.map .str)),
    ("worker_count".toList, count),
    ("meta".toList, .obj [
      ("source".toList, .str "slack".toList),
      ("slack_event_id".toList, .str event.eventId),
      ("slack_team_id".toList, .str event.teamId),
      ("slack_channel_id".toList, .str event.channel),
      ("slack_thread_ts".toList, .str event.threadTs),
      ("slack_user_id".toList, .str event.user),
      ("requested_agent_count".toList, count),
      ("model_selection".toList, .str event.selection.asStr)])]

def validateWorkflowResponse (config : SlackConfig) (workflow : WorkflowView) : Except AdapterError Unit := do
  .refuseIf (!validEventId workflow.planId) .bridge
  .refuseIf (¬ KeySet.SameKeys (.ofList workflow.assignments) (.ofList [config.claudeAgentKey, config.openaiAgentKey]) ∨
    workflow.assignments.length ≠ 2) .bridge

def validateSingleAgentWorkflow (workflow : WorkflowView) (agentKey : Text) : Except AdapterError Unit := do
  .refuseIf (!validEventId workflow.planId) .bridge
  .refuseIf (workflow.assignments ≠ [agentKey]) .bridge

/-- `create_workflow` and `get_workflow`, and their forms for one agent: `answer` is the workflow in the bridge's
response, where there is one. -/
def readWorkflow (validate : WorkflowView → Except AdapterError Unit) (answer : Option WorkflowView) :
    Except AdapterError WorkflowView :=
  match answer with
  | none => .error .bridge
  | some workflow => (validate workflow).map fun _ => workflow

def getWorkflow (validate : WorkflowView → Except AdapterError Unit) (workflowId : Text)
    (answer : Option WorkflowView) :
    Except AdapterError WorkflowView := do
  .refuseIf (!validEventId workflowId) .bridge
  readWorkflow validate answer

def truncatedSuffix : Text := "\n… [truncated]".toList

def truncateUtf8 (value : Text) (maximumBytes : Nat) : Text :=
  if Text.byteLen value ≤ maximumBytes then value
  else if maximumBytes ≤ Text.byteLen truncatedSuffix then Text.truncateBytes maximumBytes value
  else Text.truncateBytes (maximumBytes - Text.byteLen truncatedSuffix) value ++ truncatedSuffix

/-- The text that a post sends. -/
def slackText (text : Text) : Text := truncateUtf8 text maxSlackMessageBytes

def labeled (label agentKey rest : Text) : Text :=
  "*".toList ++ label ++ " (`".toList ++ agentKey ++ "`)*\n".toList ++ rest

def labeledReply (model : ModelRoute) (content : Text) : Text :=
  labeled model.label model.agentKey (truncateUtf8 content maxSlackMessageBytes)

def labeledFailure (model : ModelRoute) (reason : Text) : Text :=
  labeled model.label model.agentKey (":warning: ".toList ++ reason)

def startFailure : Text := "The bounded bridge workflow could not be started safely.".toList

def closingReason (terminal : Bool) : Text :=
  if terminal then "The bridge completed without a submission from this configured model.".toList
  else "No response was available before the bounded workflow deadline.".toList

/-- A message that Slack took, with its text: a reply of a model, or the news that there is none. -/
inductive Message
  | reply (agentKey text : Text)
  | failure (agentKey text : Text)

def Message.agentKey : Message → Text
  | reply agentKey _ => agentKey
  | failure agentKey _ => agentKey

/-- The local variables of the polling loop. -/
structure PollState where
  workflowId : Text
  posted : KeySet Text
  terminal : Bool

inductive EventStage
  | begun
  | created (workflowId : Text)
  /-- `post_start_failure_pair`, with the models still to be told. -/
  | failing (left : List ModelRoute) (posted : Nat)
  | failingMark (model : ModelRoute) (left : List ModelRoute) (posted : Nat)
  | correlated (workflowId : Text)
  | testing (poll : PollState)
  | canceling
  | fetching (poll : PollState)
  | replying (workflow : WorkflowView) (left : List ModelRoute) (poll : PollState)
  | marking (workflow : WorkflowView) (model : ModelRoute) (left : List ModelRoute) (poll : PollState)
  | waiting (poll : PollState)
  | closing (left : List ModelRoute) (posted : KeySet Text) (terminal : Bool)
  | closingMark (model : ModelRoute) (left : List ModelRoute) (posted : KeySet Text) (terminal : Bool)
  | finishing
  | ended

/-- Where `process_dispatch` is; what comes before it asks for the workflow leaves the records alone. -/
inductive TaskStage
  | begun
  | refused
  | created (workflowId : Text)
  | testing (workflowId : Text)
  | fetching (workflowId : Text)
  | waiting (workflowId : Text)
  | replying (outcome : Option Text)
  | completing
  | ended

inductive Worker
  | event (event : AcceptedEvent) (stage : EventStage)
  | dispatch (request : DispatchRequest) (stage : TaskStage)

/-- A call of `request_cancel` between its sections, or answered. -/
inductive CancelCall
  | checked
  | answered (outcome : Except AdapterError CancelOutcome)
deriving DecidableEq

/-- A worker with the store. `remaining` counts the tests of its loop that come before the deadline. -/
structure SlackWorld where
  store : EventStore
  remaining : Nat
  worker : Worker
  messages : List Message
  /-- The submissions of the workflows that polls got. -/
  seen : List WorkflowSubmission
  cancels : List CancelCall

/-- What a step of the worker meets: the bridge's answer, whether Slack takes a message, and the journal. -/
structure WorkerInput where
  answer : Option WorkflowView
  posted : Bool
  io : AppendIo
  now : Text

inductive SlackAction
  | work (input : WorkerInput)
  /-- A new call of `request_cancel` for the run, up to its second section. -/
  | cancel
  | record (call : Nat) (now : Text) (io : AppendIo)

namespace SlackWorld

def eventId (w : SlackWorld) : Text :=
  match w.worker with
  | .event event _ => event.eventId
  | .dispatch request _ => request.dispatchId

def update (w : SlackWorld) (mutation : Mutation) (now : Text) (io : AppendIo) :
    Except AdapterError Unit × EventStore := w.store.update w.eventId mutation now io

def goEvent (w : SlackWorld) (event : AcceptedEvent) (stage : EventStage) : SlackWorld :=
  { w with worker := .event event stage }

/-- A section that changes the record, and the stage after it, by whether it succeeded. -/
def writeEvent (w : SlackWorld) (event : AcceptedEvent) (mutation : Mutation)
    (input : WorkerInput) (stage : Bool → EventStage) : SlackWorld :=
  { w with
    store := (w.store.update event.eventId mutation input.now input.io).2
    worker := .event event (stage (w.store.update event.eventId mutation input.now input.io).1.isOk) }

/-- A message, and the stage after it, by whether Slack took it. -/
def post (w : SlackWorld) (event : AcceptedEvent) (message : Message) (input : WorkerInput)
    (stage : Bool → EventStage) :
    SlackWorld :=
  { w with
    messages := if input.posted then w.messages ++ [message] else w.messages
    worker := .event event (stage input.posted) }

def stepEvent (config : SlackConfig) (w : SlackWorld) (event : AcceptedEvent)
    (input : WorkerInput) : EventStage → SlackWorld
  | .begun =>
    if config.dryRun then w.writeEvent event .complete input fun _ => .ended
    else match readWorkflow (validateWorkflowResponse config) input.answer with
    | .ok workflow => w.goEvent event (.created workflow.planId)
    | .error _ => w.goEvent event (.failing (config.selectedModels event.selection) 0)
  | .created workflowId =>
    w.writeEvent event (.setWorkflow workflowId) input fun ok =>
      if ok then .correlated workflowId else .failing (config.selectedModels event.selection) 0
  | .failing [] posted =>
    if posted = (config.selectedModels event.selection).length then
      w.writeEvent event .complete input fun _ => .ended
    else w.goEvent event .ended
  | .failing (model :: left) posted =>
    w.post event (.failure model.agentKey (slackText (labeledFailure model startFailure))) input fun ok =>
      if ok then .failingMark model left posted else .failing left posted
  | .failingMark model left posted =>
    w.writeEvent event (.markPosted model.agentKey) input fun ok =>
      if ok then .failing left (posted + 1) else .ended
  | .correlated workflowId =>
    let posted := ((w.store.snapshot event.eventId).map EventRecord.postedAgents).getD .empty
    w.goEvent event (.testing ⟨workflowId, posted, false⟩)
  | .testing poll =>
    if w.remaining = 0 then
      w.goEvent event (.closing (config.selectedModels event.selection) poll.posted poll.terminal)
    else { w.goEvent event (if w.store.cancelRequested event.eventId then .canceling else .fetching poll) with
      remaining := w.remaining - 1 }
  | .canceling => w.writeEvent event .markCanceled input fun _ => .ended
  | .fetching poll =>
    match getWorkflow (validateWorkflowResponse config) poll.workflowId input.answer with
    | .error _ => w.goEvent event (.waiting poll)
    | .ok workflow =>
      let poll := { poll with terminal := workflow.stage = "completed".toList }
      { w.goEvent event (.replying workflow (config.selectedModels event.selection) poll) with
        seen := w.seen ++ workflow.submissions }
  | .replying _ [] poll =>
    if poll.posted.size = (config.selectedModels event.selection).length then
      w.writeEvent event .complete input fun _ => .ended
    else if poll.terminal then
      w.goEvent event (.closing (config.selectedModels event.selection) poll.posted poll.terminal)
    else w.goEvent event (.waiting poll)
  | .replying workflow (model :: left) poll =>
    if model.agentKey ∈ poll.posted then w.goEvent event (.replying workflow left poll)
    else match workflow.submissions.find? fun submission => submission.agentKey = model.agentKey with
    | none => w.goEvent event (.replying workflow left poll)
    | some submission =>
      w.post event (.reply model.agentKey (slackText (labeledReply model submission.content))) input fun ok =>
        if ok then .marking workflow model left poll else .replying workflow left poll
  | .marking workflow model left poll =>
    w.writeEvent event (.markPosted model.agentKey) input fun ok =>
      if ok then .replying workflow left { poll with posted := poll.posted.insert model.agentKey } else .ended
  | .waiting poll => w.goEvent event (.testing poll)
  | .closing [] _ _ =>
    if (w.store.snapshot event.eventId).any fun record => record.postedAgents.size = 2 then
      w.goEvent event .finishing
    else w.goEvent event .ended
  | .closing (model :: left) posted terminal =>
    if model.agentKey ∈ posted then w.goEvent event (.closing left posted terminal)
    else
      w.post event (.failure model.agentKey (slackText (labeledFailure model (closingReason terminal)))) input fun ok =>
        if ok then .closingMark model left posted terminal else .closing left posted terminal
  | .closingMark model left posted terminal =>
    w.writeEvent event (.markPosted model.agentKey) input fun ok =>
      if ok then .closing left posted terminal else .ended
  | .finishing => w.writeEvent event .complete input fun _ => .ended
  | .ended => w

def goTask (w : SlackWorld) (request : DispatchRequest) (stage : TaskStage) : SlackWorld :=
  { w with worker := .dispatch request stage }

def writeTask (w : SlackWorld) (request : DispatchRequest) (mutation : Mutation)
    (input : WorkerInput) (stage : TaskStage) : SlackWorld :=
  { w.goTask request stage with
    store := (w.store.update request.dispatchId mutation input.now input.io).2 }

def taskMessage (request : DispatchRequest) : Option Text → Message
  | some content => .reply request.agentKey
      (slackText (labeled request.providerSlug request.agentKey (truncateUtf8 content maxSlackMessageBytes)))
  | none => .failure request.agentKey
      (slackText ":warning: No response was available before the bounded workflow deadline.".toList)

/-- `process_dispatch`, with the loop of `await_submission`. -/
def stepTask (w : SlackWorld) (request : DispatchRequest) (input : WorkerInput) :
    TaskStage → SlackWorld
  | .begun =>
    match readWorkflow (validateSingleAgentWorkflow · request.agentKey) input.answer with
    | .ok workflow => w.goTask request (.created workflow.planId)
    | .error _ => { w.goTask request .refused with
        messages := if input.posted then
          w.messages ++ [.failure request.agentKey (slackText (":warning: ".toList ++ startFailure))] else w.messages }
  | .refused => w.writeTask request .complete input .ended
  | .created workflowId => w.writeTask request (.setWorkflow workflowId) input (.testing workflowId)
  | .testing workflowId =>
    if w.remaining = 0 then w.goTask request (.replying none)
    else { w.goTask request (.fetching workflowId) with remaining := w.remaining - 1 }
  | .fetching workflowId =>
    match getWorkflow (validateSingleAgentWorkflow · request.agentKey) workflowId input.answer with
    | .error _ => w.goTask request (.waiting workflowId)
    | .ok workflow =>
      match workflow.submissions.find? fun submission => submission.agentKey = request.agentKey with
      | some submission => w.goTask request (.replying (some submission.content))
      | none =>
        if workflow.stage = "completed".toList then w.goTask request (.replying none)
        else w.goTask request (.waiting workflowId)
  | .waiting workflowId => w.goTask request (.testing workflowId)
  | .replying outcome =>
    { w.goTask request .completing with
      messages := if input.posted then w.messages ++ [taskMessage request outcome] else w.messages }
  | .completing => w.writeTask request .complete input .ended
  | .ended => w

def step (config : SlackConfig) (w : SlackWorld) : SlackAction → SlackWorld
  | .work input =>
    match w.worker with
    | .event event stage => w.stepEvent config event input stage
    | .dispatch request stage => w.stepTask request input stage
  | .cancel =>
    { w with cancels := w.cancels ++ [match w.store.cancelAnswer w.eventId with
      | some outcome => .answered (.ok outcome)
      | none => .checked] }
  | .record i now io =>
    match w.cancels[i]? with
    | some .checked => { w with
        store := (w.update .requestCancel now io).2
        cancels := w.cancels.set i (.answered ((w.update .requestCancel now io).1.map fun _ => .requested)) }
    | _ => w

def claimed (store : EventStore) (remaining : Nat) (worker : Worker) : SlackWorld where
  store := store
  remaining := remaining
  worker := worker
  messages := []
  seen := []
  cancels := []

end SlackWorld
end AgentBridge.Slack
