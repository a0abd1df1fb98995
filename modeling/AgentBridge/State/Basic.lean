import AgentBridge.Admission.Types
import AgentBridge.Base.Table
import AgentBridge.Base.Word
import AgentBridge.Blind.Types

/-! The in-memory source of truth for agents, leases, channels and shared
context.

A context value the program writes for itself is kept as the record it was
serialised from: `serde_json` reads such a value back as that record, and
`ContextValue.toJson` gives the document whose size is limited. -/

namespace AgentBridge

/-- Configuration values the modelled operations read. -/
structure Config where
  apiAuthBearer : Option Text
  inboxToken : Option Text
  controlPlane : Bool
  historyLimit : Nat
  resolveThreshold : Float32
  maxChannels : Nat
  maxAgents : Nat
  maxFileLeases : Nat
  maxContentBytes : Nat
  maxHttpBodyBytes : Nat
  maxSseConnections : Nat
  maxChannelHistoryBytes : Nat

/-- A dependency-free configuration with the default limits: no auth, no control plane. -/
def Config.inMemory : Config where
  apiAuthBearer := none
  inboxToken := none
  controlPlane := false
  historyLimit := 1000
  resolveThreshold := 0.72
  maxChannels := 10000
  maxAgents := 50000
  maxFileLeases := 100000
  maxContentBytes := 1048576
  maxHttpBodyBytes := 2097152
  maxSseConnections := 4096
  maxChannelHistoryBytes := 8388608

/-- The clocks one call reads: the monotonic instant and UTC, in milliseconds. -/
structure Now where
  instant : Nat
  utc : Nat

def Now.ts (now : Now) : Timestamp := Timestamp.ofMillis now.utc

inductive DescriptorStatus
  | active | released
deriving DecidableEq

/-- Durable descriptor of a lease the external control plane granted. -/
structure AuthoritativeLeaseDescriptor where
  version : Nat
  leaseId : Text
  repository : Text
  paths : List Text
  agentKey : Text
  fencingToken : Nat
  ttlMs : Nat
  acquiredAt : Timestamp
  expiresAt : Text
  status : DescriptorStatus
  releasedAt : Option Timestamp
deriving DecidableEq

def AuthoritativeLeaseDescriptor.toJson (d : AuthoritativeLeaseDescriptor) : Json :=
  .obj ([("version".toList, .nat d.version), ("lease_id".toList, .str d.leaseId),
    ("repository".toList, .str d.repository), ("paths".toList, .texts d.paths),
    ("agent_key".toList, .str d.agentKey), ("fencing_token".toList, .nat d.fencingToken),
    ("ttl_ms".toList, .nat d.ttlMs), ("acquired_at".toList, .str d.acquiredAt),
    ("expires_at".toList, .str d.expiresAt),
    ("status".toList, .str (if d.status = .active then "active".toList else "released".toList))] ++
    Json.optional "released_at".toList (d.releasedAt.map .str))

inductive ContextValue
  | json (value : Json)
  | workflowPlan (plan : WorkflowPlan)
  | workflowSubmission (submission : WorkflowSubmission)
  | admission (record : AdmissionRecord)
  | blindPlan (plan : BlindCompetitionPlan)
  | blindSubmission (submission : BlindSubmission)
  | blindReveal (reveal : BlindReveal)
  | leaseDescriptor (descriptor : AuthoritativeLeaseDescriptor)

def ContextValue.toJson : ContextValue → Json
  | json value => value
  | workflowPlan plan => plan.toJson
  | workflowSubmission submission => submission.toJson
  | admission record => record.toJson
  | blindPlan plan => plan.toJson
  | blindSubmission submission => submission.toJson
  | blindReveal reveal => reveal.toJson
  | leaseDescriptor descriptor => descriptor.toJson

structure ContextEntry where
  key : Text
  value : ContextValue
  /-- A `u32`. -/
  version : Nat
  updatedBy : Text
  updatedAt : Timestamp

structure ChannelState where
  slug : Text
  topic : Text
  topicSummary : Option Text
  embedding : List Float32
  embeddingModel : Text
  createdBy : Text
  createdAt : Timestamp
  metadata : Json
  members : Table Text Member
  messages : List Message
  historyBytes : Nat
  /-- Both are counted up by one for a message; that 64 bits hold them is taken for granted. -/
  nextSeq : Nat
  messageCount : Nat
  context : Table Text ContextEntry
  /-- What was sent on the broadcast channel so far, oldest first. -/
  events : List Event
  historyLimit : Nat

structure FileLeaseState where
  lease : FileLease
  expiresAt : Nat

structure InboxLine where
  id : Nat
  ts : Text
  sender : Text
  topic : Text
  prompt : Text
deriving DecidableEq

structure AppState where
  config : Config
  agents : Table Text Agent
  fileLeases : Table Text FileLeaseState
  /-- A `u64` counter. -/
  nextFileFencingToken : Nat
  channels : Table Text ChannelState
  inbox : List InboxLine
  /-- Free permits of the SSE semaphore. -/
  sseConnections : Nat

def AppState.new (config : Config) : AppState where
  config := config
  agents := .empty
  fileLeases := .empty
  nextFileFencingToken := 0
  channels := .empty
  inbox := []
  sseConnections := config.maxSseConnections

def ChannelState.toPublic (c : ChannelState) : Channel where
  slug := c.slug
  topic := c.topic
  topicSummary := c.topicSummary
  createdBy := c.createdBy
  createdAt := c.createdAt
  memberCount := c.members.size
  messageCount := c.messageCount
  embeddingModel := c.embeddingModel
  metadata := c.metadata

end AgentBridge
