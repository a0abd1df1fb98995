import AgentBridge.Workflow.Cast

/-! The plans `create_workflow` makes: from any registry of agents, with every list of
requested keys, worker count and reviewer, the assignments have the shape of their mode. -/

namespace AgentBridge.Orchestration
open State

structure Registry where
  agents : Table Text Agent
  keyed : ∀ key agent, agents.get key = some agent → agent.agentKey = key

namespace Registry

def list (registry : Registry) : List Agent := registry.agents.values

def IsRegistered (registry : Registry) (key : Text) : Prop := ∃ agent, registry.agents.get key = some agent

theorem nodup_list (registry : Registry) : (agentKeys registry.list).Nodup := nodup_agentKeys registry.keyed

theorem isRegistered_of_mem {registry : Registry} {agent : Agent} (h : agent ∈ registry.list) :
    registry.IsRegistered agent.agentKey := by
  obtain ⟨key, hget⟩ := Table.mem_values.mp h
  rw [registry.keyed key agent hget]
  exact ⟨agent, hget⟩

end Registry

def workersOf (assignments : List WorkflowAssignment) : List WorkflowAssignment :=
  assignments.filter fun a => a.role = .worker

/-- The assignments of each mode; a consensus plan ends with its reviewer. -/
def Shape (requestedReviewer : Option Text) (assignments : List WorkflowAssignment) : WorkflowMode → Prop
  | .single => assignments.length = 1 ∧ ∀ a ∈ assignments, a.role = .worker
  | .sequential => ∀ a ∈ assignments, a.role = .worker ∧ a.phase = a.ordinal
  | .competitive => 2 ≤ assignments.length ∧ ∀ a ∈ assignments, a.role = .worker ∧ a.phase = 0
  | .consensus => ∃ (workers : List WorkflowAssignment) (reviewer : WorkflowAssignment),
      assignments = workers ++ [reviewer] ∧ 2 ≤ workers.length ∧ (∀ a ∈ workers, a.role = .worker ∧ a.phase = 0) ∧
      reviewer.role = .reviewer ∧ reviewer.phase = 1 ∧
      ∀ requested ∈ requestedReviewer, reviewer.agentKey = Text.trim requested

/-- What a request for a plan is given: assignments numbered by position, to distinct registered
agents, in the shape of the mode and with the workers asked for. -/
structure WellFormed (registry : Registry) (req : CreateWorkflowReq) (assignments : List WorkflowAssignment) :
    Prop where
  ordinals : assignments.map WorkflowAssignment.ordinal = List.range assignments.length
  keys : (assignedKeys assignments).Nodup
  registered : ∀ a ∈ assignments, registry.IsRegistered a.agentKey
  nonempty : 1 ≤ assignments.length
  bounded : assignments.length ≤ maxAssignments
  shape : Shape req.reviewerAgentKey assignments req.mode
  workerCount : ∀ count ∈ req.workerCount, (workersOf assignments).length = count

theorem length_workersOf {l : List WorkflowAssignment} (h : ∀ a ∈ l, a.role = .worker) : workersOf l = l :=
  List.filter_eq_self.mpr fun a ha => decide_eq_true (h a ha)

section Drawn
variable {mode : WorkflowMode} {candidates : List Agent} {workerCount : Option Nat} {reviewer : Option Text}
  {assignments : List WorkflowAssignment} {count : Nat} {reviewers : List WorkflowAssignment}

theorem Drawn.workersOf (h : Drawn mode candidates workerCount reviewer assignments count reviewers) :
    Orchestration.workersOf assignments = workers (workerPhase mode) candidates count := by
  have hworkers := length_workersOf (l := workers (workerPhase mode) candidates count) fun a ha => (mem_workers ha).1
  rw [h.assignments, Orchestration.workersOf, List.filter_append]
  rw [Orchestration.workersOf] at hworkers
  by_cases hmode : mode = .consensus
  · obtain ⟨key, -, -, rfl⟩ := h.reviewed hmode
    simp [hworkers]
  · rw [h.alone hmode, hworkers, List.filter_nil, List.append_nil]

theorem Drawn.shape {requested : Option Text}
    (h : Drawn mode candidates workerCount reviewer assignments count reviewers)
    (hreviewer : requested.mapM normalizeAgentKey = .ok reviewer) : Shape requested assignments mode := by
  have hworkers {a : WorkflowAssignment} (ha : a ∈ workers (workerPhase mode) candidates count) := mem_workers ha
  have hlength := @length_workers _ (workerPhase mode) _ h.available
  have henough := h.enough
  have hassignments := h.assignments
  cases mode with
  | single =>
    rw [h.alone nofun, List.append_nil] at hassignments
    rw [hassignments]
    exact ⟨hlength.trans (h.single rfl), fun a ha => (hworkers ha).1⟩
  | sequential =>
    rw [h.alone nofun, List.append_nil] at hassignments
    rw [hassignments]
    exact fun a ha => hworkers ha
  | competitive =>
    rw [h.alone nofun, List.append_nil] at hassignments
    rw [hassignments]
    exact ⟨hlength.symm ▸ henough, fun a ha => hworkers ha⟩
  | consensus =>
    obtain ⟨key, hkey, -, rfl⟩ := h.reviewed rfl
    refine ⟨_, _, hassignments, hlength.symm ▸ henough, fun a ha => hworkers ha, rfl, rfl, ?_⟩
    -- a name in the request leaves the choice of the reviewer no other branch
    intro value hvalue
    have hnamed : reviewer = some (Text.trim value) := by
      rw [mapM_normalizeAgentKey hreviewer, Option.mem_def.mp hvalue, Option.map_some]
    rcases consensusReviewer_ok hkey with hkey | ⟨hnone, -⟩
    · exact Option.some_inj.mp (hkey.symm.trans hnamed)
    · rw [hnone] at hnamed
      cases hnamed

end Drawn

section Picked
variable {registry : Registry} {req : CreateWorkflowReq} {capabilities : List Text} {reviewer : Option Text}
  {selected candidates : List Agent} {assignments : List WorkflowAssignment}

theorem Picked.registered (h : Picked registry.list req capabilities reviewer selected candidates assignments) :
    ∀ a ∈ assignments, registry.IsRegistered a.agentKey := by
  obtain ⟨hsub, hnamed⟩ := workerCandidates_spec h.retain
  obtain ⟨-, hselected⟩ := selectCandidates_spec registry.nodup_list h.select
  obtain ⟨-, count, reviewers, hdrawn⟩ := buildAssignments_drawn h.build
  intro a ha
  rcases hdrawn.agent_of_mem ha with ⟨agent, hagent, heq⟩ | ⟨-, -, hreviewer⟩
  · rw [← heq]
    exact Registry.isRegistered_of_mem (hselected agent (hsub.subset hagent)).1
  · obtain ⟨agent, hagent, heq⟩ := hnamed a.agentKey hreviewer
    rw [← heq]
    exact Registry.isRegistered_of_mem hagent

theorem Picked.wellFormed (h : Picked registry.list req capabilities reviewer selected candidates assignments) :
    WellFormed registry req assignments := by
  obtain ⟨hbounded, count, reviewers, hdrawn⟩ := buildAssignments_drawn h.build
  obtain ⟨hselected, -⟩ := selectCandidates_spec registry.nodup_list h.select
  have hcandidates : (agentKeys candidates).Nodup := hselected.sublist ((workerCandidates_spec h.retain).1.map _)
  have hlength := @length_workers _ (workerPhase req.mode) _ hdrawn.available
  have hminimum : 1 ≤ minimumWorkers req.mode := by cases req.mode <;> decide
  refine ⟨hdrawn.numbered.ordinals, hdrawn.nodup_keys hcandidates, h.registered, ?_, hbounded, hdrawn.shape h.name, ?_⟩
  · have hworkers : (workersOf assignments).length ≤ assignments.length := List.length_filter_le ..
    rw [hdrawn.workersOf, hlength] at hworkers
    exact (hminimum.trans hdrawn.enough).trans hworkers
  · intro n hn
    rw [hdrawn.workersOf, hlength, hdrawn.requested n hn]

end Picked

/-- From any registry, whatever is requested: assignments that are made are well formed. -/
theorem assignments_wellFormed (registry : Registry) (req : CreateWorkflowReq) (capabilities : List Text)
    (reviewer : Option Text) (selected candidates : List Agent) (assignments : List WorkflowAssignment)
    (hselect : selectCandidates registry.list req.agentKeys req.agentKinds capabilities = .ok selected)
    (hname : req.reviewerAgentKey.mapM normalizeAgentKey = .ok reviewer)
    (hretain : workerCandidates registry.list selected reviewer = .ok candidates)
    (hbuild : buildAssignments req.mode candidates req.workerCount reviewer = .ok assignments) :
    WellFormed registry req assignments :=
  Picked.wellFormed ⟨hselect, hname, hretain, hbuild⟩

section History
variable {w : SubmitWorld} {config : Config}

/-- Of all actions only `create` stores a plan, the one it built on the state it found. -/
theorem SubmitWorld.step_plan {a : WorkflowAction} {c : Text} {e : ContextEntry} {plan : WorkflowPlan}
    (he : (w.step a).state.entry c planContextKey = some e) (hv : e.value = .workflowPlan plan) :
    w.state.entry c planContextKey = some e ∨
      ∃ env now id messageId req, a = .create env now id messageId req ∧ buildPlan w.state now id req = .ok plan := by
  cases a with
  | register now agent =>
    left
    rw [← he]
    simp only [step, AppState.entry, registerAgent_channels]
  | setContext now slug key value updatedBy =>
    left
    rw [← setContext_planEntry w.state now slug key value updatedBy]
    exact he
  | submit workflowId req => exact .inl he
  | advance i now messageId =>
    left
    rw [step] at he
    cases hcall : w.calls[i]? with
    | none =>
      rw [hcall] at he
      exact he
    | some call =>
      rw [hcall] at he
      rw [← (call.step_keeps w.state now messageId).2 c]
      exact he
  | create env now id messageId req =>
    simp only [step, createWorkflow] at he
    cases hbuild : buildPlan w.state now id req with
    | error err =>
      rw [hbuild] at he
      exact .inl he
    | ok built =>
      rw [hbuild] at he
      rcases installPlan_cases w.state env now messageId built with hsame | ⟨e', -, -, hvalue, hput⟩
      · exact .inl ((hsame c _).symm.trans he)
      · dsimp only at he
        rw [hput.entry] at he
        by_cases hnew : c = built.channel ∧ planContextKey = e'.key
        · rw [if_pos hnew] at he
          cases he
          rw [hvalue] at hv
          cases hv
          exact .inr ⟨env, now, id, messageId, req, rfl, hbuild⟩
        · rw [if_neg hnew] at he
          exact .inl he

/-- The entry was stored by a step of the run, which built the plan for `req` on the state that `before`
led to. -/
def SubmitWorld.StoredBy (config : Config) (as before : List WorkflowAction) (req : CreateWorkflowReq) (c : Text)
    (e : ContextEntry) (plan : WorkflowPlan) : Prop :=
  ∃ env now id messageId after, as = before ++ .create env now id messageId req :: after ∧
    buildPlan (run config before).state now id req = .ok plan ∧
    (run config before).state.entry c planContextKey ≠ some e ∧
    ((run config before).step (.create env now id messageId req)).state.entry c planContextKey = some e

theorem SubmitWorld.exists_storedBy {as : List WorkflowAction} {c : Text} {e : ContextEntry} {plan : WorkflowPlan}
    (he : (run config as).state.entry c planContextKey = some e) (hv : e.value = .workflowPlan plan) :
    ∃ before req, StoredBy config as before req c e plan := by
  have hinit : ¬ (init config).state.entry c planContextKey = some e := nofun
  obtain ⟨before, a, after, hsplit, hbefore, hstep⟩ :=
    Run.exists_step_of_exec (P := fun w : SubmitWorld => w.state.entry c planContextKey = some e) hinit he
  rcases step_plan hstep hv with hold | ⟨env, now, id, messageId, req, rfl, hbuild⟩
  · exact absurd hold hbefore
  · exact ⟨before, req, env, now, id, messageId, after, hsplit, hbuild, hbefore, hstep⟩

def CastOk.registry {s : AppState} (h : CastOk s) : Registry where
  agents := s.agents
  keyed := fun key agent hget => (h.agents key agent hget).1

theorem CastOk.list_registry {s : AppState} (h : CastOk s) : h.registry.list = s.listAgents := rfl

theorem SubmitWorld.stored_wellFormed {as : List WorkflowAction} {c : Text} {e : ContextEntry} {plan : WorkflowPlan}
    (he : (run config as).state.entry c planContextKey = some e) (hv : e.value = .workflowPlan plan) :
    ∃ before req, StoredBy config as before req c e plan ∧
      WellFormed (run_cast config before).registry req plan.assignments := by
  obtain ⟨before, req, hstored⟩ := exists_storedBy he hv
  refine ⟨before, req, hstored, ?_⟩
  obtain ⟨env, now, id, messageId, after, -, hbuild, -⟩ := hstored
  obtain ⟨-, -, reviewer, selected, candidates, hpicked⟩ := buildPlan_picked hbuild
  rw [← (run_cast config before).list_registry] at hpicked
  exact hpicked.wellFormed

end History

namespace Registry

def empty : Registry := ⟨.empty, nofun⟩

def enroll (registry : Registry) (agent : Agent) : Registry where
  agents := registry.agents.insert agent.agentKey agent
  keyed := by
    intro key agent' hget
    rw [Table.get_insert] at hget
    by_cases hkey : key = agent.agentKey
    · rw [if_pos hkey] at hget
      cases hget
      exact hkey.symm
    · rw [if_neg hkey] at hget
      exact registry.keyed key agent' hget

end Registry

def namedAgent (key : Text) : Agent where
  agentKey := key
  displayName := key
  kind := .claude
  host := none
  metadata := .null
  registeredAt := []

def threeAgents : Registry :=
  ((Registry.empty.enroll (namedAgent "ada".toList)).enroll (namedAgent "bob".toList)).enroll (namedAgent "cyd".toList)

/-- Two workers, one of them named twice, and a reviewer among the candidates. -/
def reviewedReq : CreateWorkflowReq where
  title := "Title".toList
  prompt := "Prompt".toList
  createdBy := "ada".toList
  mode := .consensus
  agentKeys := [" bob ".toList, "cyd".toList, "bob".toList, "ada".toList]
  reviewerAgentKey := some " ada".toList

theorem assignments_wellFormed_reviewed :
    WellFormed threeAgents reviewedReq
      [{ ordinal := 0, agentKey := "bob".toList, role := .worker, phase := 0 },
        { ordinal := 1, agentKey := "cyd".toList, role := .worker, phase := 0 },
        { ordinal := 2, agentKey := "ada".toList, role := .reviewer, phase := 1 }] :=
  assignments_wellFormed threeAgents reviewedReq [] (some "ada".toList)
    [namedAgent "bob".toList, namedAgent "cyd".toList, namedAgent "ada".toList]
    [namedAgent "bob".toList, namedAgent "cyd".toList] _ rfl rfl rfl rfl

end AgentBridge.Orchestration
