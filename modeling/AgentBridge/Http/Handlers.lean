import AgentBridge.Base.Url
import AgentBridge.Http.Requests

/-! The handlers of the HTTP API, each from its extracted arguments. -/

namespace AgentBridge.Http
open Orchestration

section Extractors
variable {α : Type} (req : Request) (s : AppState)

/-- The JSON extractor in front of a handler, under the router's body limit. -/
def withBody (limit : Nat) (read : Json → Option α) (run : α → Outcome) : Outcome :=
  if !req.jsonContentType || req.body.length > limit then .quiet .malformed s
  else match req.body.document.bind read with
  | none => .quiet .malformed s
  | some a => run a

def withPath (segment : Text) (run : Text → Outcome) : Outcome :=
  match Url.percentDecode segment with
  | none => .quiet .malformed s
  | some value => run value

def withQuery (found : Option α) (run : α → Outcome) : Outcome :=
  match found with
  | none => .quiet .malformed s
  | some a => run a

end Extractors

section Inbox
variable (env : Env) (s : AppState)

/-- `compat::field`: a string member, or the default, cut to `max` characters. -/
def inboxField (data : Json) (key default : String) (max : Nat) : Text :=
  (((data.get key.toList).bind Json.asStr).getD default.toList).take max

def acceptedTokens (config : Config) : List Text :=
  config.inboxToken.toList ++ config.apiAuthBearer.toList

def inboxAuthorized (config : Config) (req : HttpRequest) : Bool :=
  (acceptedTokens config).isEmpty ||
    (req.authorization.bind WorkflowSecurity.headerText).any fun presented =>
      (acceptedTokens config).any fun token => presented = "Bearer ".toList ++ token

/-- Mirrors an inbox message onto the chat bus; failures are only logged. -/
def mirrorInbox (line : InboxLine) : AppState :=
  if line.prompt = [] then s
  else
    let slug := State.slugify env.surroundings line.topic
    let slug := if slug = [] then "claude-inbox".toList else slug
    let topic := if Text.trim line.topic = [] then "claude inbox".toList else line.topic
    match s.createOrGetChannel env.surroundings env.now slug topic line.sender with
    | (.error _, s) => s
    | (.ok _, s) => (s.postMessage env.now (env.newId 0) slug line.sender .user line.prompt
        (.obj [("id".toList, .nat line.id), ("via".toList, .str "claude-inbox".toList)])).2

def claudeInbox (req : Request) : Outcome :=
  if req.body.length > s.config.maxHttpBodyBytes then .quiet .malformed s
  else if !inboxAuthorized s.config req.toHttpRequest then
    .quiet (.refused 401 "unauthorized".toList) s
  else match (if req.body.length = 0 then some (.obj []) else req.body.json.map Json.value) with
  | none => .quiet (.refused 400 "invalid json body".toList) s
  | some data =>
    let line : InboxLine := {
      id := env.now.utc
      ts := env.iso8601Secs
      sender := inboxField data "from" "codex" 64
      topic := inboxField data "topic" "" 128
      prompt := ((data.get "prompt".toList).bind Json.asStr).getD [] }
    if !env.inboxWritable then .quiet (.refused 500 "inbox write failed".toList) s
    else .quiet (.queued line.id) (mirrorInbox env { s with inbox := s.inbox ++ [line] } line)

end Inbox

section Agents
variable (env : Env) (s : AppState)

def registerAgent (req : RegisterReq) : Outcome :=
  .ofResult .agent (s.registerAgent env.now {
    agentKey := req.agentKey
    displayName := req.displayName
    kind := req.kind
    host := req.host
    metadata := req.metadata
    registeredAt := env.now.ts })

def requireRegisteredAgent (agentKey : Text) : BridgeResult Unit :=
  if (s.getAgent (Text.trim agentKey)).isSome then .ok () else .error (.agentNotFound (Text.trim agentKey))

def throughControlPlane (call : ControlPlaneCall) : Outcome :=
  match env.controlPlane call with
  | .error e => ⟨.failed e, s, [call]⟩
  | .ok response => ⟨.controlPlane response, s, [call]⟩

def acquireFileLeases (req : AcquireFileLeasesReq) : Outcome :=
  match requireRegisteredAgent s req.agentKey with
  | .error e => .quiet (.failed e) s
  | .ok () =>
    if !s.config.controlPlane then .quiet (.failed .controlPlaneNotConfigured) s
    else throughControlPlane env s
      (.acquire req.repository req.paths (Text.trim req.agentKey) (req.ttlMs.getD 30000) req.wait)

def acquireCompatibleFileLease (req : AcquireCompatibleFileLeaseReq) : Outcome :=
  match requireRegisteredAgent s req.agentKey with
  | .error e => .quiet (.failed e) s
  | .ok () =>
    if s.config.controlPlane then
      if req.recursive then
        .quiet (.failed (.badRequest
          "recursive leases are unavailable with the external control plane; send exact paths".toList)) s
      else throughControlPlane env s
        (.acquire req.repository [req.path] (Text.trim req.agentKey) req.ttlMs false)
    else .ofResult .lease (s.acquireFileLease env.now (env.newId 0) req.repository req.path req.agentKey
      req.ttlMs req.recursive req.purpose req.metadata)

def renewFileLease (leaseId : Text) (req : MutateFileLeaseReq) : Outcome :=
  if s.config.controlPlane then
    .quiet (.refused 501 "external_lease_renewal_not_supported".toList) s
  else .ofResult .lease (s.renewFileLease env.now leaseId req.agentKey req.fencingToken req.ttlMs)

def releaseFileLease (req : ReleaseFileLeaseReq) : Outcome :=
  if !s.config.controlPlane then .quiet (.failed .controlPlaneNotConfigured) s
  else throughControlPlane env s (.release (Text.trim req.agentKey) req.fencingToken)

def releaseCompatibleFileLease (leaseId : Text) (req : MutateFileLeaseReq) : Outcome :=
  if s.config.controlPlane then
    throughControlPlane env s (.release (Text.trim req.agentKey) req.fencingToken)
  else .ofResult .lease (s.releaseFileLease env.now leaseId req.agentKey req.fencingToken)

/-- The registered agent a lookup names as the holder. -/
def lookupAgent (response : ControlPlaneResponse) : Option Agent :=
  if response.status < 400 then
    (((response.body.get "lock".toList).bind fun lock => lock.get "holder".toList).bind Json.asStr).bind
      s.getAgent
  else none

def fileLeaseHolders (query : FileLeaseQuery) : Outcome :=
  if s.config.controlPlane then
    match query.repository, query.path with
    | some repository, some path =>
      let call : ControlPlaneCall := .lookup repository path
      match env.controlPlane call with
      | .error e => ⟨.failed e, s, [call]⟩
      | .ok response =>
        let reply := Reply.lookup response (lookupAgent s response)
        ⟨if response.status < 400 then extended response reply else reply, s, [call]⟩
    | _, _ => .quiet (.failed (.badRequest
        "repository and path are required for control-plane lookup".toList)) s
  else .ofResult .assignments
    (s.fileLeaseHolders env.now query.repository query.path query.agentKey query.includeDescendants)

end Agents

section Channels
variable (env : Env) (s : AppState)

def createChannel (req : CreateChannelReq) : Outcome :=
  .ofResult .channel (s.createOrGetChannel env.surroundings env.now req.slug req.topic req.createdBy)

def resolveChannel (req : ResolveReq) : Outcome :=
  .ofResult .resolved
    (s.resolveChannel env.surroundings env.now (env.newId 0) (env.newId 1) req.query req.createdBy
      req.threshold)

def joinChannel (slug : Text) (req : JoinReq) : Outcome :=
  .ofResult .joined (s.join env.now slug req.agentKey req.role)

def leaveChannel (slug : Text) (req : LeaveReq) : Outcome :=
  .ofResult .removed (s.leave env.now slug req.agentKey)

def postMessage (slug : Text) (req : PostReq) : Outcome :=
  .ofResult .message
    (s.postMessage env.now (env.newId 0) slug req.sender req.role req.content req.metadata)

/-- A live stream holds one connection permit from here on. -/
def streamChannel (slug : Text) (agentKey : Option Text) : Outcome :=
  if s.sseConnections = 0 then
    .quiet (.failed (.capacityExceeded "sse connections".toList s.config.maxSseConnections)) s
  else match s.subscribe env.now slug agentKey with
  | (.error e, s) => .quiet (.failed e) s
  | (.ok (position, _), s) => .quiet (.stream position) { s with sseConnections := s.sseConnections - 1 }

def putContext (slug : Text) (req : SetContextReq) : Outcome :=
  .ofResult .entry (s.setContext env.now slug req.key req.value req.updatedBy)

end Channels

section Workflows
variable (env : Env) (s : AppState)

def createWorkflow (req : CreateWorkflowReq) : Outcome :=
  .ofResult .workflow (Orchestration.createWorkflow s env.surroundings env.now (env.newId 0) (env.newId 1) req)

def submitReply : SubmitCall → Reply
  | .finished (.ok view) => .workflow view
  | .finished (.error e) => .failed e
  | .checked .. | .planned .. | .validated .. | .stored .. => .malformed

def submitWorkflow (workflowId : Text) (req : SubmitWorkflowReq) : Outcome :=
  let (call, s) := Orchestration.submitWorkflow s env.now (env.newId 0) workflowId req
  .quiet (submitReply call) s

end Workflows

section Admission
variable (env : Env) (s : AppState)
open PolicyAdmission

def maxAdmissionBodyBytes : Nat := 512 * 1024

def Outcome.ofAdmission {α : Type} (reply : α → Reply) (r : AdmissionResult α × AppState) : Outcome :=
  match r with
  | (.error failure, s) => .quiet (.admissionFailed failure) s
  | (.ok a, s) => .quiet (reply a) s

def getAdmission (workflowId : Text) : Outcome :=
  match loadAdmission s workflowId with
  | .error e => .quiet (.failed e) s
  | .ok none => .quiet (.admissionFailed {
      status := 404
      code := "admission_not_found".toList
      message := "workflow admission is missing".toList }) s
  | .ok (some record) => .quiet (.admission (some false) record) s

def admitWorkflow (workflowId : Text) (req : AdmitReq) : Outcome :=
  .ofAdmission (fun p => .admission (some p.2) p.1) (createAdmission s env.now workflowId req)

def reportUsage (workflowId : Text) (req : UsageReq) : Outcome :=
  match loadAdmission s workflowId with
  | .error e => .quiet (.failed e) s
  | .ok none => .quiet (.admissionFailed (conflict "admission_required"
      "managed provider work requires an active admission")) s
  | .ok (some admission) =>
    if admission.requestedBy ≠ Text.trim req.updatedBy then
      .quiet (.admissionFailed {
        status := 403
        code := "admission_reporter_mismatch".toList
        message := "usage reporter does not own this admission".toList }) s
    else .ofAdmission (.admission none) (recordUsage s env.now workflowId req.providerAgentKey req.delta)

def transitionAdmission (status : AdmissionStatus) (workflowId : Text) (req : TerminalReq) : Outcome :=
  .ofAdmission (.admission none) (transition s env.now workflowId req.updatedBy status req.reason)

def completeAdmission (workflowId : Text) (req : TerminalReq) : Outcome :=
  transitionAdmission env s .completed workflowId req

def cancelAdmission (workflowId : Text) (req : TerminalReq) : Outcome :=
  transitionAdmission env s .cancelled workflowId req

def maxPolicyBodyBytes : Nat := 262144

def explainPolicy (req : PolicyRequest) : Outcome :=
  match Policy.evaluate req with
  | .ok decision => .quiet (.decision decision) s
  | .error detail => .quiet (.policyInvalid detail) s

end Admission

section Blind
variable (env : Env) (s : AppState) (viewer : Option AuthenticatedAdapter)

def createBlindCompetition (req : CreateBlindCompetitionReq) : Outcome :=
  .ofResult .competition (BlindCompetition.createBlindCompetition s env.now viewer env.surroundings
    (env.newId 0) (env.newId 1) req)

def submitBlindCompetition (workflowId : Text) (req : SubmitBlindCompetitionReq) : Outcome :=
  .ofResult .competition
    (BlindCompetition.submitBlindCompetition s env.now viewer (env.newId 0) workflowId req)

def revealBlindCompetition (workflowId : Text) : Outcome :=
  .ofResult .competition
    (BlindCompetition.revealBlindCompetition s env.now viewer (env.newId 0) workflowId)

end Blind
end AgentBridge.Http
