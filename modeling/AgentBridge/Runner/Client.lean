import AgentBridge.Runner.Claims
import AgentBridge.Http.Router

/-! The bridge as a runner calls it: the requests it sends for its leases and submissions,
and what it makes of the replies. -/

namespace AgentBridge.Runner
open Http

structure LeaseHandle where
  fencingToken : Nat
  releasePath : Text
  repository : Text
  paths : List Text
  ttlMs : Nat
deriving DecidableEq

inductive BridgeClientError
  /-- The request failed, or no document came back: `InvalidConfig`, `Transport`, `HttpStatus`,
  `ResponseTooLarge` and `InvalidResponse`. -/
  | unanswered
  | leaseNotAcquired
  | leaseRenewalRejected
deriving DecidableEq

/-- The document of a reply, if the bridge answered with success and in time. -/
abbrev BridgeReply := Except BridgeClientError Json

/-- A request before it is joined to the URL of the bridge. -/
structure ClientRequest where
  path : Text
  body : Json

def trimPath (value : Text) : Text := (Text.trim value).dropWhile (· = '/')

/-- The request as it reaches a bridge at the root of its origin. -/
def ClientRequest.sent (req : ClientRequest) (bearer : Option Text) (length : Nat) : HttpRequest where
  method := .post
  path := '/' :: trimPath req.path
  query := []
  authorization := bearer.map fun token => "Bearer ".toList ++ token
  jsonContentType := true
  body := ⟨length, some req.body⟩

namespace BridgeClient

def acquireRequest (acquirePath repository : Text) (paths : List Text) (agentKey : Text) (ttlMs : Nat) :
    ClientRequest where
  path := acquirePath
  body := .obj [
    ("agent_key".toList, .str agentKey),
    ("paths".toList, .arr (paths.map .str)),
    ("repository".toList, .str repository),
    ("ttl_ms".toList, .num (.posInt ttlMs)),
    ("wait".toList, .bool false)]

def renewRequest (handle : LeaseHandle) (agentKey : Text) : ClientRequest where
  path := "file-leases/renew".toList
  body := .obj [
    ("agent_key".toList, .str agentKey),
    ("fencing_token".toList, .num (.posInt handle.fencingToken)),
    ("paths".toList, .arr (handle.paths.map .str)),
    ("repository".toList, .str handle.repository),
    ("ttl_ms".toList, .num (.posInt handle.ttlMs))]

def releaseRequest (handle : LeaseHandle) (agentKey : Text) : ClientRequest where
  path := handle.releasePath
  body := .obj [
    ("agent_key".toList, .str agentKey),
    ("fencing_token".toList, .num (.posInt handle.fencingToken))]

def submitRequest (workflowId agentKey content : Text) (metadata : Json) : ClientRequest where
  path := "workflows/".toList ++ workflowId ++ "/submissions".toList
  body := .obj [
    ("agent_key".toList, .str agentKey),
    ("content".toList, .str content),
    ("meta".toList, metadata)]

/-- The fencing token a reply shows, wherever it stands in the document. -/
def fencingToken (response : Json) : Option Nat := (findU64 response "fencing_token").filter (0 < ·)

/-- What `acquire_lease` returns. A reply that does not say whether it acquired the lease counts as one that did. -/
def acquired (releasePath repository : Text) (paths : List Text) (ttlMs : Nat) (reply : BridgeReply) :
    Except BridgeClientError LeaseHandle := do
  let response ← reply
  match fencingToken response with
  | none => throw .leaseNotAcquired
  | some token =>
    if !(findBool response "acquired").getD true then throw .leaseNotAcquired
    return ⟨token, trimPath releasePath, repository, paths, ttlMs⟩

def renewed (handle : LeaseHandle) (reply : BridgeReply) : Except BridgeClientError Unit := do
  let response ← reply
  match fencingToken response with
  | none => throw .leaseRenewalRejected
  | some token =>
    if !(findBool response "renewed").getD false || token ≠ handle.fencingToken then throw .leaseRenewalRejected

end BridgeClient

/-- A reply as the client of the lease routes reads it: they answer a lease call with the document of the control
plane, or not with success. -/
def readLeaseReply : Http.Reply → BridgeReply
  | .controlPlane response =>
    if controlPlaneSuccess response.status then .ok response.body else .error .unanswered
  | _ => .error .unanswered

end AgentBridge.Runner
