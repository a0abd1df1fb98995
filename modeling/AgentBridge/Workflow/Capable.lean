import AgentBridge.Policy.Exclusion
import AgentBridge.Workflow.WellFormed

/-! The capabilities of the agents of a plan. Candidates are selected by what they advertise; a
reviewer named in the request is only looked up, and the policy checks the capabilities again. -/

namespace AgentBridge.Orchestration
open State

section Plan
variable {s : AppState} {agents : Table Text Agent} {now : Now} {id : Text} {req : CreateWorkflowReq}
  {plan : WorkflowPlan}

theorem CastOk.get_of_mem (hs : CastOk s) {agent : Agent} (h : agent ∈ s.listAgents) :
    s.agents.get agent.agentKey = some agent := by
  obtain ⟨key, hget⟩ := Table.mem_values.mp h
  rw [(hs.agents key agent hget).1]
  exact hget

end Plan

def rustAgent (key : Text) : Agent :=
  { namedAgent key with metadata := .obj [("capabilities".toList, .texts [" Rust".toList])] }

/-- Two agents that advertise a capability, and a third one. -/
def enrollments (third : Agent) : List WorkflowAction :=
  [.register ⟨0, 0⟩ (rustAgent "ada".toList), .register ⟨1, 1⟩ (rustAgent "bob".toList), .register ⟨2, 2⟩ third]

/-- A consensus request for that capability that names the third agent as reviewer. -/
def rustReq : CreateWorkflowReq where
  title := "Title".toList
  prompt := "Prompt".toList
  createdBy := "ada".toList
  mode := .consensus
  agentKeys := ["ada".toList, "bob".toList]
  requiredCapabilities := ["rust".toList]
  reviewerAgentKey := some "cyd".toList

def rustCreate : WorkflowAction := .create asciiSurroundings ⟨3, 3⟩ "w1".toList "m0".toList rustReq

def created (third : Agent) : AppState := (SubmitWorld.run .inMemory (enrollments third ++ [rustCreate])).state

end AgentBridge.Orchestration
