import AgentBridge.Admission.Storage
import AgentBridge.Blind.Storage
import AgentBridge.Security.Credentials

/-! HTTP requests as the router and its middlewares see them, the replies, and what
handling one request does: the reply, the state it leaves and the calls it made to
the control plane. -/

namespace AgentBridge

inductive ControlPlaneCall
  | acquire (repository : Text) (paths : List Text) (agentKey : Text) (ttlMs : Nat) (wait : Bool)
  | renew (repository : Text) (paths : List Text) (agentKey : Text) (fencingToken ttlMs : Nat)
  | release (agentKey : Text) (fencingToken : Nat)
  | lookup (repository path : Text)
deriving DecidableEq

/-- `body` is a generic value, so an object has its members in key order, each once. -/
structure ControlPlaneResponse where
  status : Nat
  body : Json

def controlPlaneSuccess (status : Nat) : Bool := 200 ≤ status && status < 300

namespace Http

inductive Method
  | get | post | put | head | other
deriving DecidableEq

/-- `json` is the document the bytes spell, if they spell one. -/
structure Body where
  length : Nat
  json : Option Json

def Body.document (body : Body) : Option Json := if body.length = 0 then none else body.json

structure HttpRequest where
  method : Method
  /-- The path as it was sent, without the query. -/
  path : Text
  /-- The decoded pairs of the query string. -/
  query : List (Text × Text)
  /-- The value of the first `Authorization` header. -/
  authorization : Option Text
  /-- The content type announces JSON. -/
  jsonContentType : Bool
  body : Body

/-- A request on its way inwards, with the identity a middleware may attach. -/
structure Request extends HttpRequest where
  adapter : Option AuthenticatedAdapter

/-- What the server reads from its environment while it handles one request. -/
structure Env where
  now : Now
  newId : Nat → Text
  surroundings : Surroundings
  controlPlane : ControlPlaneCall → BridgeResult ControlPlaneResponse
  /-- The UTC milliseconds of an RFC 3339 timestamp. -/
  parseRfc3339 : Text → Option Int
  parseF32 : JsonNumber → Float32
  /-- The time stamp of an inbox line. -/
  iso8601Secs : Text
  /-- Whether the inbox file takes another line. -/
  inboxWritable : Bool

inductive Reply
  | refused (status : Nat) (error : Text)
  | failed (error : BridgeError)
  | claimRefused (status : Nat) (code message : Text)
  | admissionFailed (failure : AdmissionFailure)
  | policyInvalid (detail : Text)
  /-- An extractor's rejection: content type, body, query or path. -/
  | malformed
  | notFound
  | methodNotAllowed
  | controlPlane (response : ControlPlaneResponse)
  | descriptor (response : ControlPlaneResponse) (lease : AuthoritativeLeaseDescriptor)
  | lookup (response : ControlPlaneResponse) (agent : Option Agent)
  | page (name : String)
  | health (inboxMessages : Nat)
  | queued (id : Nat)
  | agent (agent : Agent)
  | agents (agents : List Agent)
  | lease (lease : FileLease)
  | assignments (holders : List FileLeaseHolder)
  | channel (channel : Channel)
  | channels (channels : List Channel)
  | results (results : List ScoredChannel)
  | resolved (outcome : ResolveOutcome)
  | joined (outcome : JoinOutcome)
  | removed (removed : Bool)
  | members (members : List Member)
  | message (message : Message)
  | messages (messages : List Message)
  /-- A live stream from the given position of the channel's events. -/
  | stream (position : Nat)
  | context (entries : List ContextEntry)
  | entry (entry : ContextEntry)
  | workflow (view : WorkflowView)
  | workflows (views : List WorkflowView)
  | admission (created : Option Bool) (record : AdmissionRecord)
  | decision (decision : PolicyDecision)
  | competition (view : BlindCompetitionView)
  /-- The handler panics, and the connection is closed without a reply. -/
  | panicked

/-- A document that a member can be assigned to. -/
def isIndexable : Json → Bool
  | .null | .obj _ => true
  | .bool _ | .num _ | .str _ | .arr _ => false

/-- A reply for which a member is assigned to the body of the control plane. -/
def extended (response : ControlPlaneResponse) (reply : Reply) : Reply :=
  if isIndexable response.body then reply else .panicked

structure Outcome where
  reply : Reply
  state : AppState
  calls : List ControlPlaneCall

/-- A service: a handler, or a middleware with what it wraps. -/
abbrev Service := Request → AppState → Outcome

/-- A reply that leaves the state alone and calls nobody. -/
def Outcome.quiet (reply : Reply) (s : AppState) : Outcome := ⟨reply, s, []⟩

def Outcome.ofResult {α : Type} (reply : α → Reply) (r : BridgeResult α × AppState) : Outcome :=
  match r with
  | (.error e, s) => .quiet (.failed e) s
  | (.ok a, s) => .quiet (reply a) s

/-- `serde_json` values of a control-plane reply, searched depth first. -/
def findMember {α : Type} (read : Json → Option α) (key : Text) : Json → Option α
  | .obj fields => ((Json.obj fields).get key).bind read <|> Json.firstByName (inFields fields)
  | .arr items => inItems items
  | _ => none
where
  inFields : List (Text × Json) → List (Text × Option α)
    | [] => []
    | (k, v) :: rest => (k, findMember read key v) :: inFields rest
  inItems : List Json → Option α
    | [] => none
    | j :: js => findMember read key j <|> inItems js

def findBool (body : Json) (key : String) : Option Bool := findMember Json.asBool key.toList body
def findU64 (body : Json) (key : String) : Option Nat := findMember Json.asU64 key.toList body
def findString (body : Json) (key : String) : Option Text := findMember Json.asStr key.toList body

/-- The token of an `Authorization` header, if it is a bearer token in visible ASCII. -/
def bearerToken (req : HttpRequest) : Option Text :=
  (req.authorization.bind WorkflowSecurity.headerText).bind fun value =>
    if "Bearer ".toList.isPrefixOf value then some (value.drop "Bearer ".toList.length) else none

end Http
end AgentBridge
