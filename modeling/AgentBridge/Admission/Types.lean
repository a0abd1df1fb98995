import AgentBridge.Policy.Types

/-! The durable admission record and the usage it accounts for. -/

namespace AgentBridge

inductive AdmissionStatus
  | active | exhausted | completed | cancelled
deriving DecidableEq

structure UsageTotals where
  inputTokens : Nat := 0
  outputTokens : Nat := 0
  costMicroUsd : Nat := 0
  retries : Nat := 0
  providerCalls : Nat := 0
  elapsedMs : Nat := 0
  peakConcurrency : Nat := 0
deriving DecidableEq

structure UsageDelta where
  inputTokens : Nat := 0
  outputTokens : Nat := 0
  costMicroUsd : Nat := 0
  retries : Nat := 0
  providerCalls : Nat := 0
  elapsedMs : Nat := 0
  concurrency : Nat := 0
deriving DecidableEq

structure AdmissionPolicySnapshot where
  policyVersion : Text
  mode : WorkflowMode
  selectedAgentKeys : List Text
  budget : BudgetLimits
  requireHumanApproval : Bool
  requireFiduciaLease : Bool
  reasons : List Text
deriving DecidableEq

structure AdmissionRecord where
  version : Nat
  workflowId : Text
  requestedBy : Text
  approvedBy : Option Text
  overrideReason : Option Text
  policy : AdmissionPolicySnapshot
  status : AdmissionStatus
  usage : UsageTotals
  createdAt : Timestamp
  updatedAt : Timestamp
  terminalReason : Option Text
  lastRejectedDelta : Option UsageDelta
deriving DecidableEq

structure AdmitReq where
  requestedBy : Text
  approvedBy : Option Text
  overrideReason : Option Text
  policyRequest : PolicyRequest

def AdmissionStatus.name : AdmissionStatus → Text
  | active => "active".toList
  | exhausted => "exhausted".toList
  | completed => "completed".toList
  | cancelled => "cancelled".toList

def AdmissionStatus.debug : AdmissionStatus → Text
  | active => "Active".toList
  | exhausted => "Exhausted".toList
  | completed => "Completed".toList
  | cancelled => "Cancelled".toList

def UsageTotals.toJson (u : UsageTotals) : Json :=
  .obj [("input_tokens".toList, .nat u.inputTokens), ("output_tokens".toList, .nat u.outputTokens),
    ("cost_micro_usd".toList, .nat u.costMicroUsd), ("retries".toList, .nat u.retries),
    ("provider_calls".toList, .nat u.providerCalls), ("elapsed_ms".toList, .nat u.elapsedMs),
    ("peak_concurrency".toList, .nat u.peakConcurrency)]

def UsageDelta.toJson (u : UsageDelta) : Json :=
  .obj [("input_tokens".toList, .nat u.inputTokens), ("output_tokens".toList, .nat u.outputTokens),
    ("cost_micro_usd".toList, .nat u.costMicroUsd), ("retries".toList, .nat u.retries),
    ("provider_calls".toList, .nat u.providerCalls), ("elapsed_ms".toList, .nat u.elapsedMs),
    ("concurrency".toList, .nat u.concurrency)]

def AdmissionPolicySnapshot.toJson (p : AdmissionPolicySnapshot) : Json :=
  .obj [("policy_version".toList, .str p.policyVersion), ("mode".toList, .str p.mode.name),
    ("selected_agent_keys".toList, .texts p.selectedAgentKeys),
    ("budget".toList, p.budget.toJson),
    ("require_human_approval".toList, .bool p.requireHumanApproval),
    ("require_fiducia_lease".toList, .bool p.requireFiduciaLease),
    ("reasons".toList, .texts p.reasons)]

def AdmissionRecord.toJson (r : AdmissionRecord) : Json :=
  .obj ([("version".toList, .nat r.version), ("workflow_id".toList, .str r.workflowId),
    ("requested_by".toList, .str r.requestedBy)] ++
    Json.optional "approved_by".toList (r.approvedBy.map .str) ++
    Json.optional "override_reason".toList (r.overrideReason.map .str) ++
    [("policy".toList, r.policy.toJson), ("status".toList, .str r.status.name),
      ("usage".toList, r.usage.toJson), ("created_at".toList, .str r.createdAt),
      ("updated_at".toList, .str r.updatedAt)] ++
    Json.optional "terminal_reason".toList (r.terminalReason.map .str) ++
    Json.optional "last_rejected_delta".toList (r.lastRejectedDelta.map UsageDelta.toJson))

end AgentBridge
