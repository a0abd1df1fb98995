import AgentBridge.Workflow.Orchestration

/-! The records a blind competition keeps in its channel's context, and the view of
them each reader gets: before the reveal a reader sees only its own candidate. -/

namespace AgentBridge

inductive BlindCompetitionStage
  | collecting | readyToReveal | revealed
deriving DecidableEq

structure BlindCompetitionView where
  plan : BlindCompetitionPlan
  stage : BlindCompetitionStage
  submissionCount : Nat
  hiddenSubmissionCount : Nat
  revealed : Bool
  reviewerCanReveal : Bool
  submissions : List BlindSubmission
  reveal : Option BlindReveal

namespace BlindCompetition

def blindPlanContextKey : Text := "workflow.blind.plan.v1".toList
def blindSubmissionContextPrefix : Text := "workflow.blind.submission.v1.".toList
def blindRevealContextKey : Text := "workflow.blind.reveal.v1".toList
def maxBlindWorkers : Nat := 8
def maxTitleBytes : Nat := 1024
def maxAgentKeyBytes : Nat := 120

/-- Insert-only: an existing key is refused. -/
def insertBlindContext (s : AppState) (now : Now) (channel key : Text) (value : ContextValue)
    (updatedBy : Text) : BridgeResult ContextEntry × AppState :=
  match s.getContextKeyInternal channel key with
  | .error e => (.error e, s)
  | .ok (some _) =>
    (.error (.badRequest ("blind competition context key '".toList ++ key ++
      "' already exists".toList)), s)
  | .ok none => s.setContextInternal now channel key value updatedBy

def blindChannel (workflowId : Text) : BridgeResult Text :=
  let workflowId := Text.trim workflowId
  if workflowId.isEmpty || Text.byteLen workflowId > 64 ||
      !workflowId.all (fun c => Text.isAsciiAlphanumeric c || c = '-') then
    .error (.badRequest "invalid blind competition id".toList)
  else .ok ("blind-workflow-".toList ++ workflowId)

def loadPlan (s : AppState) (workflowId : Text) : BridgeResult BlindCompetitionPlan := do
  let channel ← blindChannel workflowId
  match ← s.getContextKeyInternal channel blindPlanContextKey with
  | none =>
    .error (.badRequest ("blind competition plan missing in '".toList ++ channel ++ "'".toList))
  | some entry =>
    match entry.value with
    | .blindPlan plan => .ok plan
    | _ => .error (.badRequest ("blind competition plan in '".toList ++ channel ++
        "' is invalid".toList))

def parseSubmission (entry : ContextEntry) : Option BlindSubmission :=
  if blindSubmissionContextPrefix.isPrefixOf entry.key then
    match entry.value with
    | .blindSubmission submission => some submission
    | _ => none
  else none

def loadSubmissions (s : AppState) (channel : Text) : BridgeResult (List BlindSubmission) :=
  (s.getContextInternal channel).map fun entries =>
    (entries.filterMap parseSubmission).insertionSort
      fun a b => a.assignmentOrdinal ≤ b.assignmentOrdinal

def loadReveal (s : AppState) (channel : Text) : BridgeResult (Option BlindReveal) := do
  match ← s.getContextKeyInternal channel blindRevealContextKey with
  | none => .ok none
  | some entry =>
    match entry.value with
    | .blindReveal reveal => .ok (some reveal)
    | _ => .error (.badRequest ("blind competition reveal in '".toList ++ channel ++
        "' is invalid".toList))

def buildView (s : AppState) (plan : BlindCompetitionPlan) (viewerAgentKey : Option Text) :
    BridgeResult BlindCompetitionView := do
  let allSubmissions ← loadSubmissions s plan.channel
  let reveal ← loadReveal s plan.channel
  let revealed := reveal.isSome
  let visibleSubmissions :=
    if revealed then allSubmissions
    else allSubmissions.filter fun submission => viewerAgentKey = some submission.agentKey
  let allWorkersSubmitted := allSubmissions.length = plan.workers.length
  return {
    plan := plan
    stage := if revealed then .revealed else if allWorkersSubmitted then .readyToReveal else .collecting
    submissionCount := allSubmissions.length
    hiddenSubmissionCount := allSubmissions.length - visibleSubmissions.length
    revealed := revealed
    reviewerCanReveal :=
      !revealed && allWorkersSubmitted && viewerAgentKey = some plan.reviewerAgentKey
    submissions := visibleSubmissions
    reveal := reveal }

def normalizeAgentKey (value : Text) : BridgeResult Text :=
  let value := Text.trim value
  if value = [] then .error (.badRequest "agent_key is required".toList)
  else if Text.byteLen value > maxAgentKeyBytes || value.any Text.isControl then
    .error (.badRequest ("agent_key must be 1..=".toList ++ Text.decimal maxAgentKeyBytes ++
      " printable bytes".toList))
  else .ok value

def normalizeRequiredText (value name : Text) (limit : Nat) : BridgeResult Text :=
  Orchestration.normalizeRequiredText value name limit

def validateJsonSize (value : Json) (limit : Nat) (what : Text) : BridgeResult Unit :=
  Orchestration.validateJsonSize value limit what

end BlindCompetition
end AgentBridge
