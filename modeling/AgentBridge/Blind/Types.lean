import AgentBridge.Types

/-! Records of a blind competition. -/

namespace AgentBridge

structure BlindWorker where
  ordinal : Nat
  agentKey : Text
deriving DecidableEq

structure BlindCompetitionPlan where
  version : Nat
  id : Text
  channel : Text
  title : Text
  prompt : Text
  createdBy : Text
  createdAt : Timestamp
  workers : List BlindWorker
  reviewerAgentKey : Text
  metadata : Json

structure BlindSubmission where
  workflowId : Text
  assignmentOrdinal : Nat
  agentKey : Text
  content : Text
  metadata : Json
  submittedAt : Timestamp

structure BlindReveal where
  workflowId : Text
  reviewerAgentKey : Text
  revealedAt : Timestamp

def BlindCompetitionPlan.toJson (p : BlindCompetitionPlan) : Json :=
  .obj [("version".toList, .nat p.version), ("id".toList, .str p.id),
    ("channel".toList, .str p.channel), ("title".toList, .str p.title),
    ("prompt".toList, .str p.prompt), ("created_by".toList, .str p.createdBy),
    ("created_at".toList, .str p.createdAt),
    ("workers".toList, .arr (p.workers.map fun w =>
      .obj [("ordinal".toList, .nat w.ordinal), ("agent_key".toList, .str w.agentKey)])),
    ("reviewer_agent_key".toList, .str p.reviewerAgentKey), ("meta".toList, p.metadata)]

def BlindSubmission.toJson (s : BlindSubmission) : Json :=
  .obj [("workflow_id".toList, .str s.workflowId),
    ("assignment_ordinal".toList, .nat s.assignmentOrdinal),
    ("agent_key".toList, .str s.agentKey), ("content".toList, .str s.content),
    ("meta".toList, s.metadata), ("submitted_at".toList, .str s.submittedAt)]

def BlindReveal.toJson (r : BlindReveal) : Json :=
  .obj [("workflow_id".toList, .str r.workflowId),
    ("reviewer_agent_key".toList, .str r.reviewerAgentKey),
    ("revealed_at".toList, .str r.revealedAt)]

end AgentBridge
