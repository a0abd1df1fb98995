import AgentBridge.Types

/-! Workflow plans, their assignments and the submissions made to them. -/

namespace AgentBridge

inductive WorkflowMode
  | single | sequential | competitive | consensus
deriving DecidableEq

inductive AssignmentRole
  | worker | reviewer
deriving DecidableEq

/-- Assignments of one phase may run in parallel. A higher phase cannot submit
before the gate of the preceding one. -/
structure WorkflowAssignment where
  ordinal : Nat
  agentKey : Text
  role : AssignmentRole
  phase : Nat
deriving DecidableEq

structure FileLeaseRequirement where
  repository : Text
  paths : List Text
  required : Bool
  ttlMs : Nat
  acquirePath : Text
  releasePath : Text
deriving DecidableEq

structure WorkflowPlan where
  version : Nat
  id : Text
  channel : Text
  title : Text
  prompt : Text
  mode : WorkflowMode
  createdBy : Text
  createdAt : Timestamp
  assignments : List WorkflowAssignment
  fileLease : Option FileLeaseRequirement
  requiredCapabilities : List Text
  metadata : Json

structure WorkflowSubmission where
  workflowId : Text
  assignmentOrdinal : Nat
  agentKey : Text
  role : AssignmentRole
  content : Text
  metadata : Json
  submittedAt : Timestamp

def WorkflowMode.name : WorkflowMode → Text
  | single => "single".toList
  | sequential => "sequential".toList
  | competitive => "competitive".toList
  | consensus => "consensus".toList

/-- The name the derived `Debug` prints. -/
def WorkflowMode.debug : WorkflowMode → Text
  | single => "Single".toList
  | sequential => "Sequential".toList
  | competitive => "Competitive".toList
  | consensus => "Consensus".toList

def AssignmentRole.name : AssignmentRole → Text
  | worker => "worker".toList
  | reviewer => "reviewer".toList

def WorkflowAssignment.toJson (a : WorkflowAssignment) : Json :=
  .obj [("ordinal".toList, .nat a.ordinal), ("agent_key".toList, .str a.agentKey),
    ("role".toList, .str a.role.name), ("phase".toList, .nat a.phase)]

def FileLeaseRequirement.toJson (r : FileLeaseRequirement) : Json :=
  .obj [("repository".toList, .str r.repository), ("paths".toList, .texts r.paths),
    ("required".toList, .bool r.required), ("ttl_ms".toList, .nat r.ttlMs),
    ("acquire_path".toList, .str r.acquirePath), ("release_path".toList, .str r.releasePath)]

def WorkflowPlan.toJson (p : WorkflowPlan) : Json :=
  .obj ([("version".toList, .nat p.version), ("id".toList, .str p.id),
    ("channel".toList, .str p.channel), ("title".toList, .str p.title),
    ("prompt".toList, .str p.prompt), ("mode".toList, .str p.mode.name),
    ("created_by".toList, .str p.createdBy), ("created_at".toList, .str p.createdAt),
    ("assignments".toList, .arr (p.assignments.map WorkflowAssignment.toJson))] ++
    Json.optional "file_lease".toList (p.fileLease.map FileLeaseRequirement.toJson) ++
    [("required_capabilities".toList, .texts p.requiredCapabilities),
      ("meta".toList, p.metadata)])

def WorkflowSubmission.toJson (s : WorkflowSubmission) : Json :=
  .obj [("workflow_id".toList, .str s.workflowId),
    ("assignment_ordinal".toList, .nat s.assignmentOrdinal),
    ("agent_key".toList, .str s.agentKey), ("role".toList, .str s.role.name),
    ("content".toList, .str s.content), ("meta".toList, s.metadata),
    ("submitted_at".toList, .str s.submittedAt)]

end AgentBridge
