import AgentBridge.Base.Json
import AgentBridge.Base.Timestamp

/-! Wire types shared by the HTTP and TCP transports, and the domain errors with
the status and code each maps to. -/

namespace AgentBridge

inductive AgentKind
  | claude | codex | gemini | kimi | qwen | human | other
deriving DecidableEq

structure Agent where
  agentKey : Text
  displayName : Text
  kind : AgentKind
  host : Option Text
  metadata : Json
  registeredAt : Timestamp

/-- A time-bounded claim on a repository-relative path. A recursive lease covers
the named directory and every descendant, any other lease exactly one path. -/
structure FileLease where
  id : Text
  repository : Text
  path : Text
  recursive : Bool
  agentKey : Text
  purpose : Text
  metadata : Json
  fencingToken : Nat
  acquiredAt : Timestamp
  expiresAt : Timestamp

structure FileLeaseHolder where
  lease : FileLease
  agent : Agent

inductive Role
  | user | assistant | system | tool
deriving DecidableEq

inductive MemberRole
  | owner | member | observer
deriving DecidableEq

structure Member where
  agentKey : Text
  role : MemberRole
  joinedAt : Timestamp
  lastSeenAt : Timestamp
deriving DecidableEq

/-- `seq` is a per-channel counter that starts at one. -/
structure Message where
  id : Text
  channel : Text
  seq : Nat
  sender : Text
  role : Role
  content : Text
  metadata : Json
  createdAt : Timestamp

/-- Public view of a channel, without its embedding. -/
structure Channel where
  slug : Text
  topic : Text
  topicSummary : Option Text
  createdBy : Text
  createdAt : Timestamp
  memberCount : Nat
  messageCount : Nat
  embeddingModel : Text
  metadata : Json

inductive PresenceKind
  | joined | left
deriving DecidableEq

inductive Event
  | message (m : Message)
  | presence (channel agentKey : Text) (event : PresenceKind) (memberCount : Nat) (occurredAt : Timestamp)

inductive BridgeError
  | channelNotFound (slug : Text)
  | channelFull (slug : Text) (current limit next : Nat)
  | notAMember (agent slug : Text)
  | agentNotFound (agent : Text)
  | fileLeaseConflict (repository path holder : Text)
  | fileLeaseNotFound (leaseId : Text)
  | fileLeaseOwnerMismatch (leaseId agent : Text)
  | staleFencingToken (leaseId : Text)
  | badRequest (message : Text)
  | payloadTooLarge (what : Text) (limit : Nat)
  | capacityExceeded (what : Text) (limit : Nat)
  | unauthorized
  | controlPlaneNotConfigured
  | controlPlane (message : Text)
deriving DecidableEq

abbrev BridgeResult := Except BridgeError

def BridgeError.code : BridgeError → Text
  | channelNotFound _ => "channel_not_found".toList
  | channelFull .. => "channel_full".toList
  | notAMember .. => "not_a_member".toList
  | agentNotFound _ => "agent_not_found".toList
  | fileLeaseConflict .. => "file_lease_conflict".toList
  | fileLeaseNotFound _ => "file_lease_not_found".toList
  | fileLeaseOwnerMismatch .. => "file_lease_owner_mismatch".toList
  | staleFencingToken _ => "stale_fencing_token".toList
  | badRequest _ => "bad_request".toList
  | payloadTooLarge .. => "payload_too_large".toList
  | capacityExceeded .. => "capacity_exceeded".toList
  | unauthorized => "unauthorized".toList
  | controlPlaneNotConfigured => "control_plane_not_configured".toList
  | controlPlane _ => "control_plane_error".toList

def BridgeError.httpStatus : BridgeError → Nat
  | channelNotFound _ => 404
  | channelFull .. => 409
  | notAMember .. => 403
  | agentNotFound _ => 404
  | fileLeaseConflict .. => 409
  | fileLeaseNotFound _ => 404
  | fileLeaseOwnerMismatch .. => 403
  | staleFencingToken _ => 409
  | badRequest _ => 400
  | payloadTooLarge .. => 413
  | capacityExceeded .. => 429
  | unauthorized => 401
  | controlPlaneNotConfigured => 503
  | controlPlane _ => 502

/-- The message a client reads. -/
def BridgeError.message : BridgeError → Text
  | channelNotFound slug => "channel '".toList ++ slug ++ "' not found".toList
  | channelFull slug current limit next =>
    "channel '".toList ++ slug ++ "' is full (".toList ++ Text.decimal current ++ "/".toList ++
      Text.decimal limit ++ ") — the ".toList ++ Text.decimal next ++
      " participant was bounced".toList
  | notAMember agent slug =>
    "agent '".toList ++ agent ++ "' is not a member of channel '".toList ++ slug ++ "'".toList
  | agentNotFound agent => "agent '".toList ++ agent ++ "' is not registered".toList
  | fileLeaseConflict repository path holder =>
    "path '".toList ++ path ++ "' in repository '".toList ++ repository ++
      "' is leased by agent '".toList ++ holder ++ "'".toList
  | fileLeaseNotFound leaseId => "file lease '".toList ++ leaseId ++ "' not found or expired".toList
  | fileLeaseOwnerMismatch leaseId agent =>
    "agent '".toList ++ agent ++ "' does not own file lease '".toList ++ leaseId ++ "'".toList
  | staleFencingToken leaseId =>
    "stale fencing token for file lease '".toList ++ leaseId ++ "'".toList
  | badRequest message => "bad request: ".toList ++ message
  | payloadTooLarge what limit =>
    what ++ " exceeds the ".toList ++ Text.decimal limit ++ "-byte limit".toList
  | capacityExceeded what limit =>
    "capacity for ".toList ++ what ++ " reached (".toList ++ Text.decimal limit ++ ")".toList
  | unauthorized => "unauthorized".toList
  | controlPlaneNotConfigured => "control plane is not configured".toList
  | controlPlane message => "control plane request failed: ".toList ++ message

end AgentBridge
