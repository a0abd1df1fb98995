import AgentBridge.Http.Leases
import AgentBridge.Security.Middleware

/-! The claim check in front of submissions: the runner's claim on its assignment is
renewed at the control plane right before the submission goes through. -/

namespace AgentBridge

structure SubmissionEnvelope where
  agentKey : Text
  metadata : Json

structure AssignmentClaim where
  repository : Text
  paths : List Text
  owner : Text
  fencingToken : Nat
  ttlMs : Nat
  assignmentOrdinal : Nat
  instanceId : Text

open Decode Http

def SubmissionEnvelope.read : Json → Option SubmissionEnvelope := record 2 fun s => do
  return {
    agentKey := ← s.required 0 "agent_key" Json.asStr
    metadata := ← s.defaulted 1 "meta" .null generic }

def AssignmentClaim.read : Json → Option AssignmentClaim := record 7 fun s => do
  return {
    repository := ← s.required 0 "repository" Json.asStr
    paths := ← s.required 1 "paths" (list Json.asStr)
    owner := ← s.required 2 "owner" Json.asStr
    fencingToken := ← s.required 3 "fencing_token" (uint 64)
    ttlMs := ← s.required 4 "ttl_ms" (uint 64)
    assignmentOrdinal := ← s.required 5 "assignment_ordinal" (uint 64)
    instanceId := ← s.required 6 "instance_id" Json.asStr }

namespace AssignmentClaims

def planContextKey : Text := "workflow.plan.v1".toList

def validWorkflowId (value : Text) : Bool :=
  !value.isEmpty && Text.byteLen value ≤ 64 &&
    value.all fun c => Text.isAsciiAlphanumeric c || c = '-'

def submissionWorkflowId (method : Method) (path : Text) : Option Text :=
  if method ≠ .post then none
  else match (Text.trimMatches '/' path).splitOn '/' with
  | [root, id, verb] =>
    if root = "workflows".toList && verb = "submissions".toList && validWorkflowId id then some id
    else none
  | _ => none

def claimPath (workflowId : Text) (assignmentOrdinal : Nat) : Text :=
  "workflows/".toList ++ workflowId ++ "/assignments/".toList ++ Text.decimal assignmentOrdinal

def loadPlan (s : AppState) (workflowId : Text) : BridgeResult WorkflowPlan := do
  match ← s.getContextKeyInternal ("workflow-".toList ++ workflowId) planContextKey with
  | none => .error (.badRequest "workflow plan is missing".toList)
  | some entry =>
    match entry.value with
    | .workflowPlan plan => .ok plan
    | _ => .error (.badRequest "workflow plan is invalid".toList)

def claimRefused (status : Nat) (code message : String) : Reply :=
  .claimRefused status code.toList message.toList

/-- The claim is the one a runner holds on this assignment, within the policy. -/
def claimMatches (policy : AssignmentClaimPolicy) (claim : AssignmentClaim) (workflowId : Text)
    (ordinal : Nat) : Bool :=
  claim.assignmentOrdinal = ordinal &&
    Text.toAsciiLowercase (Text.trim claim.repository) = policy.repository &&
    claim.paths = [claimPath workflowId ordinal] &&
    !(Text.trim claim.owner).isEmpty &&
    Text.trim claim.owner = "runner/".toList ++ Text.trim claim.instanceId &&
    !(Text.trim claim.instanceId).isEmpty && !claim.instanceId.any Text.isControl &&
    claim.fencingToken ≠ 0 && claim.ttlMs ≠ 0 && claim.ttlMs ≤ policy.maxTtlMs

/-- The renewal a matching claim asks for. -/
def renewal (policy : AssignmentClaimPolicy) (claim : AssignmentClaim) (workflowId : Text)
    (ordinal : Nat) : ControlPlaneCall :=
  .renew policy.repository [claimPath workflowId ordinal] (Text.trim claim.owner) claim.fencingToken
    claim.ttlMs

/-- The checks of a presented claim: the renewal to ask for and the token it must return. -/
def claimChecks (policy : AssignmentClaimPolicy) (s : AppState) (workflowId agentKey : Text)
    (claimValue : Json) : Except Reply (ControlPlaneCall × Nat) :=
  match AssignmentClaim.read claimValue with
  | none =>
    .error (claimRefused 400 "invalid_assignment_claim" "assignment_claim has an invalid shape")
  | some claim =>
    if !s.config.controlPlane then .error (.failed .controlPlaneNotConfigured)
    else match loadPlan s workflowId with
    | .error e => .error (.failed e)
    | .ok plan =>
      match plan.assignments.find? (fun a => a.agentKey = Text.trim agentKey) with
      | none => .error (claimRefused 400 "assignment_claim_agent_mismatch"
          "the submitting agent is not assigned to this workflow")
      | some assignment =>
        if !claimMatches policy claim workflowId assignment.ordinal then
          .error (claimRefused 400 "assignment_claim_mismatch"
            "assignment claim does not match the workflow assignment or policy")
        else .ok (renewal policy claim workflowId assignment.ordinal, claim.fencingToken)

/-- A reply of the control plane that confirms the claim under its token. -/
def confirms (response : ControlPlaneResponse) (token : Nat) : Bool :=
  (findBool response.body "renewed").getD false &&
    (findU64 response.body "fencing_token").getD 0 = token

/-- What follows a renewal call: the submission goes on, after the call, or is refused. -/
def afterRenewal (next : Service) (req : Request) (s : AppState) (call : ControlPlaneCall) (token : Nat) :
    BridgeResult ControlPlaneResponse → Outcome
  | .error e => ⟨.failed e, s, [call]⟩
  | .ok response =>
    if !controlPlaneSuccess response.status then ⟨.controlPlane response, s, [call]⟩
    else if !confirms response token then
      ⟨claimRefused 409 "stale_assignment_claim"
        "the assignment claim is stale or no longer owned by this runner", s, [call]⟩
    else
      let outcome := next req s
      { outcome with calls := call :: outcome.calls }

def enforce (policy : AssignmentClaimPolicy) (env : Env) (next : Service) : Service := fun req s =>
  match submissionWorkflowId req.method req.path with
  | none => next req s
  | some workflowId =>
    if req.body.length > s.config.maxHttpBodyBytes then
      .quiet (.failed (.payloadTooLarge "workflow submission".toList s.config.maxHttpBodyBytes)) s
    else match req.body.document.bind SubmissionEnvelope.read with
    | none => .quiet (.failed (.badRequest "invalid workflow submission JSON".toList)) s
    | some submission =>
      match submission.metadata.get "assignment_claim".toList with
      | none =>
        if policy.required then
          .quiet (claimRefused 409 "assignment_claim_required"
            "a current Fiducia assignment claim is required") s
        else next req s
      | some claimValue =>
        match claimChecks policy s workflowId submission.agentKey claimValue with
        | .error reply => .quiet reply s
        | .ok (call, token) => afterRenewal next req s call token (env.controlPlane call)

end AssignmentClaims
end AgentBridge
