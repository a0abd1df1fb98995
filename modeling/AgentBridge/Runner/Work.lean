import AgentBridge.Workflow.Orchestration

/-! What the runner reads off a workflow view. -/

namespace AgentBridge.Runner

/-- The assignment a runner may start for an agent, as far as the view tells. -/
def eligibleAssignment (workflow : WorkflowView) (agentKey : Text) : Option WorkflowAssignment :=
  match workflow.plan.assignments.find? (fun a => a.agentKey = agentKey) with
  | none => none
  | some assignment =>
    if workflow.submissions.any (fun s => s.assignmentOrdinal = assignment.ordinal) then none
    else if !workflow.status.pendingAgents.any (fun pending => pending = agentKey) then none
    else if workflow.status.currentAgentKey.any (fun current => current ≠ agentKey) then none
    else some assignment

end AgentBridge.Runner
