import AgentBridge.Http.AssignmentClaims
import AgentBridge.Http.Handlers

/-! The routes of the merged routers, their auth layers, and the server as `main`
assembles it: each middleware wraps everything that was added before it. -/

namespace AgentBridge.Http

/-- One handler, with the segment its path captures as it was sent. -/
inductive Endpoint
  | index | healthz | agentPontifexDescriptor | prometheusMetrics | healthCompat | claudeInbox
  | registerAgent | listAgents | fileLeaseHolders | acquireCompatibleFileLease | acquireFileLeases
  | releaseFileLease
  | renewFileLease (leaseId : Text)
  | releaseCompatibleFileLease (leaseId : Text)
  | listChannels | createChannel | searchChannels | resolveChannel
  | getChannel (slug : Text)
  | joinChannel (slug : Text)
  | leaveChannel (slug : Text)
  | listMembers (slug : Text)
  | listMessages (slug : Text)
  | postMessage (slug : Text)
  | streamChannel (slug : Text)
  | getContext (slug : Text)
  | putContext (slug : Text)
  | listWorkflows | createWorkflow
  | getWorkflow (workflowId : Text)
  | submitWorkflow (workflowId : Text)
  | describePolicy | explainPolicy
  | getAdmission (workflowId : Text)
  | admitWorkflow (workflowId : Text)
  | reportUsage (workflowId : Text)
  | completeAdmission (workflowId : Text)
  | cancelAdmission (workflowId : Text)
  | createBlindCompetition
  | getBlindCompetition (workflowId : Text)
  | submitBlindCompetition (workflowId : Text)
  | revealBlindCompetition (workflowId : Text)
deriving DecidableEq

/-- The handlers of one path by method. A `GET` handler answers `HEAD` too. -/
structure MethodRouter where
  get : Option Endpoint := none
  post : Option Endpoint := none
  put : Option Endpoint := none

def MethodRouter.endpoint (r : MethodRouter) : Method → Option Endpoint
  | .get | .head => r.get
  | .post => r.post
  | .put => r.put
  | .other => none

inductive Segment
  | lit (text : String)
  | param
deriving DecidableEq

structure RouteEntry where
  pattern : List Segment
  methods : Text → MethodRouter

open Segment in
/-- The routes of all routers. A literal segment goes before a captured one. -/
def routes : List RouteEntry := [
  ⟨[lit "healthz"], fun _ => { get := some .healthz }⟩,
  ⟨[lit "readyz"], fun _ => { get := some .healthz }⟩,
  ⟨[lit ".well-known", lit "agent-pontifex"], fun _ => { get := some .agentPontifexDescriptor }⟩,
  ⟨[lit "metrics"], fun _ => { get := some .prometheusMetrics }⟩,
  ⟨[lit ""], fun _ => { get := some .index }⟩,
  ⟨[lit "health"], fun _ => { get := some .healthCompat }⟩,
  ⟨[lit "claude"], fun _ => { post := some .claudeInbox }⟩,
  ⟨[lit "agents", lit "register"], fun _ => { post := some .registerAgent }⟩,
  ⟨[lit "agents"], fun _ => { get := some .listAgents }⟩,
  ⟨[lit "agents", lit "by-file"], fun _ => { get := some .fileLeaseHolders }⟩,
  ⟨[lit "file-leases"], fun _ =>
    { get := some .fileLeaseHolders, post := some .acquireCompatibleFileLease }⟩,
  ⟨[lit "file-leases", lit "acquire"], fun _ => { post := some .acquireFileLeases }⟩,
  ⟨[lit "file-leases", lit "release"], fun _ => { post := some .releaseFileLease }⟩,
  ⟨[lit "file-leases", param, lit "renew"], fun id => { post := some (.renewFileLease id) }⟩,
  ⟨[lit "file-leases", param, lit "release"], fun id =>
    { post := some (.releaseCompatibleFileLease id) }⟩,
  ⟨[lit "channels"], fun _ => { get := some .listChannels, post := some .createChannel }⟩,
  ⟨[lit "channels", lit "search"], fun _ => { post := some .searchChannels }⟩,
  ⟨[lit "channels", lit "resolve"], fun _ => { post := some .resolveChannel }⟩,
  ⟨[lit "channels", param], fun slug => { get := some (.getChannel slug) }⟩,
  ⟨[lit "channels", param, lit "join"], fun slug => { post := some (.joinChannel slug) }⟩,
  ⟨[lit "channels", param, lit "leave"], fun slug => { post := some (.leaveChannel slug) }⟩,
  ⟨[lit "channels", param, lit "members"], fun slug => { get := some (.listMembers slug) }⟩,
  ⟨[lit "channels", param, lit "messages"], fun slug =>
    { get := some (.listMessages slug), post := some (.postMessage slug) }⟩,
  ⟨[lit "channels", param, lit "stream"], fun slug => { get := some (.streamChannel slug) }⟩,
  ⟨[lit "channels", param, lit "context"], fun slug =>
    { get := some (.getContext slug), post := some (.putContext slug), put := some (.putContext slug) }⟩,
  ⟨[lit "workflows"], fun _ => { get := some .listWorkflows, post := some .createWorkflow }⟩,
  ⟨[lit "workflows", param], fun id => { get := some (.getWorkflow id) }⟩,
  ⟨[lit "workflows", param, lit "submissions"], fun id => { post := some (.submitWorkflow id) }⟩,
  ⟨[lit "workflow-policy"], fun _ => { get := some .describePolicy }⟩,
  ⟨[lit "workflow-policy", lit "explain"], fun _ => { post := some .explainPolicy }⟩,
  ⟨[lit "workflows", param, lit "admission"], fun id =>
    { get := some (.getAdmission id), post := some (.admitWorkflow id) }⟩,
  ⟨[lit "workflows", param, lit "admission", lit "usage"], fun id => { post := some (.reportUsage id) }⟩,
  ⟨[lit "workflows", param, lit "admission", lit "complete"], fun id =>
    { post := some (.completeAdmission id) }⟩,
  ⟨[lit "workflows", param, lit "admission", lit "cancel"], fun id =>
    { post := some (.cancelAdmission id) }⟩,
  ⟨[lit "blind-workflows"], fun _ => { post := some .createBlindCompetition }⟩,
  ⟨[lit "blind-workflows", param], fun id => { get := some (.getBlindCompetition id) }⟩,
  ⟨[lit "blind-workflows", param, lit "submissions"], fun id =>
    { post := some (.submitBlindCompetition id) }⟩,
  ⟨[lit "blind-workflows", param, lit "reveal"], fun id =>
    { post := some (.revealBlindCompetition id) }⟩]

/-- The segment a pattern captures; a captured segment is never empty. -/
def capture : List Segment → List Text → Option Text
  | [], [] => some []
  | .lit text :: pattern, part :: parts => if part = text.toList then capture pattern parts else none
  | .param :: pattern, part :: parts =>
    if part = [] then none else (capture pattern parts).map fun _ => part
  | _, _ => none

def route (parts : List Text) : Option MethodRouter :=
  routes.findSome? fun entry => (capture entry.pattern parts).map entry.methods

/-- Whether the endpoint's router has the auth layer: the API, orchestration and
blind-competition routers do. -/
def Endpoint.authenticated : Endpoint → Bool
  | .index | .healthz | .agentPontifexDescriptor | .prometheusMetrics | .healthCompat | .claudeInbox => false
  | .describePolicy | .explainPolicy => false
  | .getAdmission _ | .admitWorkflow _ | .reportUsage _ | .completeAdmission _ | .cancelAdmission _ => false
  | _ => true

/-- A path belongs to one router, so one of its endpoints tells whether the layer is there. -/
def MethodRouter.authenticated (r : MethodRouter) : Bool :=
  (r.get <|> r.post <|> r.put).any Endpoint.authenticated

/-- The bearer gate of a router: open when no bearer is configured. -/
def authorized (config : Config) (req : HttpRequest) : Bool :=
  config.apiAuthBearer.all fun expected => (bearerToken req).any fun presented => presented = expected

def Endpoint.handle (env : Env) (req : Request) (s : AppState) : Endpoint → Outcome
  | .index => .quiet (.page "index") s
  | .healthz => .quiet (.page "healthz") s
  | .agentPontifexDescriptor => .quiet (.page "agent-pontifex") s
  | .prometheusMetrics => .quiet (.page "metrics") s
  | .healthCompat => .quiet (.health s.inbox.length) s
  | .claudeInbox => Http.claudeInbox env s req
  | .registerAgent => withBody req s s.config.maxHttpBodyBytes RegisterReq.read (Http.registerAgent env s)
  | .listAgents => .quiet (.agents s.listAgents) s
  | .fileLeaseHolders => withQuery s (FileLeaseQuery.read req.query) (Http.fileLeaseHolders env s)
  | .acquireCompatibleFileLease =>
    withBody req s s.config.maxHttpBodyBytes AcquireCompatibleFileLeaseReq.read
      (Http.acquireCompatibleFileLease env s)
  | .acquireFileLeases =>
    withBody req s s.config.maxHttpBodyBytes AcquireFileLeasesReq.read (Http.acquireFileLeases env s)
  | .releaseFileLease =>
    withBody req s s.config.maxHttpBodyBytes ReleaseFileLeaseReq.read (Http.releaseFileLease env s)
  | .renewFileLease id => withPath s id fun id =>
    withBody req s s.config.maxHttpBodyBytes MutateFileLeaseReq.read (Http.renewFileLease env s id)
  | .releaseCompatibleFileLease id => withPath s id fun id =>
    withBody req s s.config.maxHttpBodyBytes MutateFileLeaseReq.read
      (Http.releaseCompatibleFileLease env s id)
  | .listChannels => .quiet (.channels s.listChannels) s
  | .createChannel =>
    withBody req s s.config.maxHttpBodyBytes CreateChannelReq.read (Http.createChannel env s)
  | .searchChannels => withBody req s s.config.maxHttpBodyBytes SearchReq.read fun search =>
    .quiet (.results (s.searchChannels env.surroundings search.query search.limit)) s
  | .resolveChannel =>
    withBody req s s.config.maxHttpBodyBytes (ResolveReq.read env) (Http.resolveChannel env s)
  | .getChannel slug => withPath s slug fun slug => .ofResult .channel (s.getChannel slug, s)
  | .joinChannel slug => withPath s slug fun slug =>
    withBody req s s.config.maxHttpBodyBytes JoinReq.read (Http.joinChannel env s slug)
  | .leaveChannel slug => withPath s slug fun slug =>
    withBody req s s.config.maxHttpBodyBytes LeaveReq.read (Http.leaveChannel env s slug)
  | .listMembers slug => withPath s slug fun slug => .ofResult .members (s.members slug, s)
  | .listMessages slug => withPath s slug fun slug => withQuery s (readSince req.query) fun since =>
    .ofResult .messages (s.history slug since, s)
  | .postMessage slug => withPath s slug fun slug =>
    withBody req s s.config.maxHttpBodyBytes PostReq.read (Http.postMessage env s slug)
  | .streamChannel slug => withPath s slug fun slug =>
    withQuery s (queryField "agent_key" req.query) (Http.streamChannel env s slug)
  | .getContext slug => withPath s slug fun slug => .ofResult .context (s.getContext slug, s)
  | .putContext slug => withPath s slug fun slug =>
    withBody req s s.config.maxHttpBodyBytes SetContextReq.read (Http.putContext env s slug)
  | .listWorkflows => .quiet (.workflows (Orchestration.listWorkflows s)) s
  | .createWorkflow =>
    withBody req s s.config.maxHttpBodyBytes CreateWorkflowReq.read (Http.createWorkflow env s)
  | .getWorkflow id => withPath s id fun id => .ofResult .workflow (Orchestration.getWorkflow s id, s)
  | .submitWorkflow id => withPath s id fun id =>
    withBody req s s.config.maxHttpBodyBytes SubmitWorkflowReq.read (Http.submitWorkflow env s id)
  | .describePolicy => .quiet (.page "workflow-policy") s
  | .explainPolicy => withBody req s maxPolicyBodyBytes PolicyRequest.read (Http.explainPolicy s)
  | .getAdmission id => withPath s id (Http.getAdmission s)
  | .admitWorkflow id => withPath s id fun id =>
    withBody req s maxAdmissionBodyBytes AdmitReq.read (Http.admitWorkflow env s id)
  | .reportUsage id => withPath s id fun id =>
    withBody req s maxAdmissionBodyBytes UsageReq.read (Http.reportUsage env s id)
  | .completeAdmission id => withPath s id fun id =>
    withBody req s maxAdmissionBodyBytes TerminalReq.read (Http.completeAdmission env s id)
  | .cancelAdmission id => withPath s id fun id =>
    withBody req s maxAdmissionBodyBytes TerminalReq.read (Http.cancelAdmission env s id)
  | .createBlindCompetition =>
    withBody req s s.config.maxHttpBodyBytes CreateBlindCompetitionReq.read
      (Http.createBlindCompetition env s req.adapter)
  | .getBlindCompetition id => withPath s id fun id =>
    .ofResult .competition (BlindCompetition.getBlindCompetition s req.adapter id, s)
  | .submitBlindCompetition id => withPath s id fun id =>
    withBody req s s.config.maxHttpBodyBytes SubmitBlindCompetitionReq.read
      (Http.submitBlindCompetition env s req.adapter id)
  | .revealBlindCompetition id => withPath s id fun id =>
    Http.revealBlindCompetition env s req.adapter id

def routeOf (path : Text) : Option MethodRouter := (Url.segments path).bind route

/-- The merged routers. An auth layer runs once its route is found, before the method is looked at. -/
def routers (env : Env) : Service := fun req s =>
  match routeOf req.path with
  | none => .quiet .notFound s
  | some r =>
    if r.authenticated && !authorized s.config req.toHttpRequest then .quiet (.failed .unauthorized) s
    else match r.endpoint req.method with
    | none => .quiet .methodNotAllowed s
    | some endpoint => endpoint.handle env req s

/-- The server: security outermost, then descriptors, renewal, claims and the routers. -/
def serve (d : Deployment) (env : Env) (req : HttpRequest) (s : AppState) : Outcome :=
  d.security.enforce
    (LeaseDescriptors.intercept env
      (LeaseRenewal.intercept env
        (AssignmentClaims.enforce d.claims env (routers env))))
    { req with adapter := none } s

end AgentBridge.Http
