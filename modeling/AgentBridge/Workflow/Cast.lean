import AgentBridge.Workflow.Protocol

/-! The agents of a plan: registered under their own keys, selected and assigned without
repetition, so that in every reachable state an agent has at most one assignment of a plan.
A single plan has one assignment. -/

namespace AgentBridge.Orchestration
open State

def agentKeys (agents : List Agent) : List Text := agents.map Agent.agentKey

def assignedKeys (assignments : List WorkflowAssignment) : List Text :=
  assignments.map WorkflowAssignment.agentKey

/-- Agents without repetition, under trimmed keys. -/
structure Roster (agents : List Agent) : Prop where
  nodup : (agentKeys agents).Nodup
  trimmed : ∀ agent ∈ agents, Text.trim agent.agentKey = agent.agentKey

/-- No agent is assigned twice, and a single plan assigns one agent. -/
structure Cast (mode : WorkflowMode) (assignments : List WorkflowAssignment) : Prop where
  keys : (assignedKeys assignments).Nodup
  trimmed : ∀ a ∈ assignments, Text.trim a.agentKey = a.agentKey
  single : mode = .single → assignments.length = 1

theorem Cast.eq_of_agentKey {mode : WorkflowMode} {assignments : List WorkflowAssignment} {a b : WorkflowAssignment}
    (h : Cast mode assignments) (ha : a ∈ assignments) (hb : b ∈ assignments) (hab : a.agentKey = b.agentKey) :
    a = b :=
  List.inj_on_of_nodup_map h.keys ha hb hab

section Selection
variable {agents candidates selected : List Agent} {capabilities : List Text}

theorem Roster.sublist (h : Roster agents) (hsub : selected.Sublist agents) : Roster selected where
  nodup := h.nodup.sublist (hsub.map _)
  trimmed := fun agent hmem => h.trimmed agent (hsub.subset hmem)

theorem Roster.perm (h : Roster agents) (hperm : selected.Perm agents) : Roster selected where
  nodup := (hperm.map Agent.agentKey).nodup_iff.mpr h.nodup
  trimmed := fun agent hmem => h.trimmed agent (hperm.subset hmem)

theorem agentHasCapabilities_of_isEmpty (agent : Agent) (h : capabilities.isEmpty = true) :
    agentHasCapabilities agent capabilities = true := by
  rw [List.isEmpty_iff.mp h]
  rfl

/-- A requested key that was seen before is skipped; the others name registered, capable agents. -/
theorem requestedCandidates_fresh {seen : KeySet Text} {requested : List Text}
    (h : requestedCandidates agents capabilities seen requested = .ok selected) :
    (agentKeys selected).Nodup ∧ (∀ key ∈ agentKeys selected, key ∉ seen) ∧
      ∀ agent ∈ selected, agent ∈ agents ∧ agentHasCapabilities agent capabilities = true := by
  -- a key already seen is passed over, one that is not registered is refused
  induction requested generalizing seen selected with
  | nil =>
    cases h
    exact ⟨List.nodup_nil, List.forall_mem_nil _, List.forall_mem_nil _⟩
  | cons request rest ih =>
    rw [requestedCandidates] at h
    obtain ⟨key, -, h⟩ := Except.bind_eq_ok.mp h
    by_cases hseen : key ∈ seen
    · rw [if_pos hseen] at h
      exact ih h
    · rw [if_neg hseen] at h
      cases hfind : agents.find? (fun a => a.agentKey = key) with
      | none =>
        rw [hfind] at h
        cases h
      | some agent =>
        rw [hfind] at h
        dsimp only at h
        obtain ⟨hcapable, h⟩ := Except.check_eq_ok.mp h
        obtain ⟨others, hothers, h⟩ := Except.bind_eq_ok.mp h
        cases h
        have hkey : agent.agentKey = key := by simpa using List.find?_some hfind
        have hable : agentHasCapabilities agent capabilities = true := by
          by_cases hempty : capabilities.isEmpty = true
          · exact agentHasCapabilities_of_isEmpty agent hempty
          · simpa [hempty] using hcapable
        obtain ⟨hnodup, hfresh, hfrom⟩ := ih hothers
        refine ⟨List.nodup_cons.mpr ⟨?_, hnodup⟩, ?_,
          List.forall_mem_cons.mpr ⟨⟨List.mem_of_find?_eq_some hfind, hable⟩, hfrom⟩⟩
        · intro hmem
          exact hfresh _ hmem (KeySet.mem_insert.mpr (.inl hkey))
        · intro k hk
          rcases List.mem_cons.mp hk with rfl | hk
          · exact hkey ▸ hseen
          · intro hold
            exact hfresh k hk (KeySet.mem_insert.mpr (.inr hold))

theorem selectCandidates_spec {keys : List Text} {kinds : List AgentKind} (hagents : (agentKeys agents).Nodup)
    (h : selectCandidates agents keys kinds capabilities = .ok selected) :
    (agentKeys selected).Nodup ∧
      ∀ agent ∈ selected, agent ∈ agents ∧ agentHasCapabilities agent capabilities = true := by
  unfold selectCandidates at h
  by_cases hkeys : keys.isEmpty = true
  · rw [if_pos hkeys] at h
    obtain ⟨-, h⟩ := Except.check_eq_ok.mp h
    cases h
    have hsorted := List.perm_insertionSort (fun a b : Agent => a.agentKey ≤ b.agentKey) agents
    refine ⟨?_, ?_⟩
    · have hnodup := (hsorted.map Agent.agentKey).nodup_iff.mpr hagents
      exact hnodup.sublist (List.filter_sublist.map _)
    · intro agent hmem
      obtain ⟨hmem, hcond⟩ := List.mem_filter.mp hmem
      exact ⟨hsorted.subset hmem, (Bool.and_eq_true_iff.mp hcond).2⟩
  · rw [if_neg hkeys] at h
    obtain ⟨chosen, hchosen, h⟩ := Except.bind_eq_ok.mp h
    obtain ⟨-, h⟩ := Except.check_eq_ok.mp h
    cases h
    obtain ⟨hnodup, -, hfrom⟩ := requestedCandidates_fresh hchosen
    exact ⟨hnodup, hfrom⟩

theorem selectCandidates_roster {keys : List Text} {kinds : List AgentKind} (hagents : Roster agents)
    (h : selectCandidates agents keys kinds capabilities = .ok selected) : Roster selected := by
  obtain ⟨hnodup, hfrom⟩ := selectCandidates_spec hagents.nodup h
  exact ⟨hnodup, fun agent hmem => hagents.trimmed agent (hfrom agent hmem).1⟩

theorem workerCandidates_spec {reviewer : Option Text}
    (h : workerCandidates agents candidates reviewer = .ok selected) :
    selected.Sublist candidates ∧ ∀ key ∈ reviewer, ∃ agent ∈ agents, agent.agentKey = key := by
  cases reviewer with
  | none =>
    cases h
    exact ⟨List.Sublist.refl _, nofun⟩
  | some key =>
    rw [workerCandidates] at h
    by_cases hregistered : agents.any (fun a => a.agentKey = key) = true
    · rw [if_pos hregistered] at h
      cases h
      refine ⟨List.filter_sublist, ?_⟩
      intro key' hkey
      obtain rfl := Option.mem_some_iff.mp hkey
      simpa using hregistered
    · rw [if_neg hregistered] at h
      cases h

theorem workerCandidates_roster {reviewer : Option Text} (hcandidates : Roster candidates)
    (h : workerCandidates agents candidates reviewer = .ok selected) : Roster selected :=
  hcandidates.sublist (workerCandidates_spec h).1

theorem assignedKeys_workers (phase : Nat → Nat) (candidates : List Agent) (count : Nat) :
    assignedKeys (workers phase candidates count) = agentKeys (candidates.take count) := by
  apply List.ext_getElem
  · simp [assignedKeys, agentKeys, workers]
  · simp [assignedKeys, agentKeys, workers]

theorem consensusReviewer_ok {workerCount : Option Nat} {reviewer : Option Text} {key : Text}
    (h : consensusReviewer candidates workerCount reviewer = .ok key) :
    reviewer = some key ∨ reviewer = none ∧ ∃ agent ∈ candidates, agent.agentKey = key := by
  cases reviewer with
  | some explicit =>
    cases h
    exact .inl rfl
  | none =>
    rw [consensusReviewer] at h
    obtain ⟨-, h⟩ := Except.check_eq_ok.mp h
    cases hget : candidates[workerCount.getD (min (candidates.length - 1) 3)]? with
    | none =>
      rw [hget] at h
      cases h
    | some agent =>
      rw [hget] at h
      cases h
      exact .inr ⟨rfl, agent, List.mem_of_getElem? hget, rfl⟩

section Drawn
variable {mode : WorkflowMode} {workerCount : Option Nat} {reviewer : Option Text}
  {assignments : List WorkflowAssignment} {count : Nat} {reviewers : List WorkflowAssignment}

theorem agent_of_workers {phase : Nat → Nat} {a : WorkflowAssignment} (h : a ∈ workers phase candidates count) :
    ∃ agent ∈ candidates, agent.agentKey = a.agentKey := by
  have hkey : a.agentKey ∈ agentKeys (candidates.take count) := by
    rw [← assignedKeys_workers phase]
    exact List.mem_map_of_mem h
  obtain ⟨agent, hagent, heq⟩ := List.mem_map.mp hkey
  exact ⟨agent, List.mem_of_mem_take hagent, heq⟩

theorem Drawn.agent_of_mem (h : Drawn mode candidates workerCount reviewer assignments count reviewers)
    {a : WorkflowAssignment} (ha : a ∈ assignments) :
    (∃ agent ∈ candidates, agent.agentKey = a.agentKey) ∨
      mode = .consensus ∧ a.role = .reviewer ∧ reviewer = some a.agentKey := by
  rw [h.assignments] at ha
  rcases List.mem_append.mp ha with ha | ha
  · exact .inl (agent_of_workers ha)
  · by_cases hmode : mode = .consensus
    · obtain ⟨key, hkey, -, rfl⟩ := h.reviewed hmode
      obtain rfl := List.mem_singleton.mp ha
      rcases consensusReviewer_ok hkey with hnamed | ⟨-, hcandidate⟩
      · exact .inr ⟨hmode, rfl, hnamed⟩
      · exact .inl hcandidate
    · rw [h.alone hmode] at ha
      cases ha

theorem Drawn.nodup_keys (h : Drawn mode candidates workerCount reviewer assignments count reviewers)
    (hcandidates : (agentKeys candidates).Nodup) : (assignedKeys assignments).Nodup := by
  have hworkers : (assignedKeys (workers (workerPhase mode) candidates count)).Nodup := by
    rw [assignedKeys_workers]
    exact hcandidates.sublist ((List.take_sublist count candidates).map _)
  rw [h.assignments]
  by_cases hmode : mode = .consensus
  · obtain ⟨key, -, hdistinct, rfl⟩ := h.reviewed hmode
    rw [assignedKeys, List.map_append]
    refine List.nodup_append.mpr ⟨hworkers, List.nodup_singleton _, ?_⟩
    intro k hk k' hk' heq
    obtain ⟨a, ha, rfl⟩ := List.mem_map.mp hk
    obtain rfl := List.mem_singleton.mp hk'
    exact hdistinct a ha heq
  · rw [h.alone hmode, List.append_nil]
    exact hworkers

theorem cast_buildAssignments (hcandidates : Roster candidates) (hreviewer : ∀ key ∈ reviewer, Text.trim key = key)
    (h : buildAssignments mode candidates workerCount reviewer = .ok assignments) : Cast mode assignments := by
  obtain ⟨-, count, reviewers, hdrawn⟩ := buildAssignments_drawn h
  refine ⟨hdrawn.nodup_keys hcandidates.nodup, ?_, ?_⟩
  · intro a ha
    rcases hdrawn.agent_of_mem ha with ⟨agent, hagent, heq⟩ | ⟨-, -, hnamed⟩
    · rw [← heq]
      exact hcandidates.trimmed agent hagent
    · exact hreviewer _ hnamed
  · intro hmode
    rw [hdrawn.assignments, hdrawn.alone (by rw [hmode]; exact nofun), List.append_nil, length_workers hdrawn.available,
      hdrawn.single hmode]

end Drawn

end Selection

section Capabilities
variable {values capabilities : List Text}

theorem insertCapabilities_normalized {seen result : KeySet Text}
    (hseen : ∀ c ∈ seen, Text.toAsciiLowercase (Text.trim c) = c)
    (h : insertCapabilities seen values = .ok result) :
    ∀ c ∈ result, Text.toAsciiLowercase (Text.trim c) = c := by
  induction values generalizing seen with
  | nil =>
    cases h
    exact hseen
  | cons value values ih =>
    rw [insertCapabilities] at h
    obtain ⟨-, h⟩ := Except.check_eq_ok.mp h
    obtain ⟨-, h⟩ := Except.check_eq_ok.mp h
    refine ih ?_ h
    intro c hc
    rcases KeySet.mem_insert.mp hc with rfl | hc
    · rw [Text.trim_toAsciiLowercase, Text.trim_trim, Text.toAsciiLowercase_toAsciiLowercase]
    · exact hseen c hc

theorem normalizeCapabilities_normalized (h : normalizeCapabilities values = .ok capabilities) :
    capabilities.Nodup ∧ ∀ c ∈ capabilities, Text.toAsciiLowercase (Text.trim c) = c := by
  obtain ⟨result, hresult, rfl⟩ := Except.map_eq_ok.mp h
  exact ⟨result.nodup, insertCapabilities_normalized (fun _ hc => absurd hc KeySet.not_mem_empty) hresult⟩

end Capabilities

/-- A plan as `create_workflow` makes it. -/
structure WellCast (plan : WorkflowPlan) : Prop where
  cast : Cast plan.mode plan.assignments
  capabilities : plan.requiredCapabilities.Nodup
  normalized : ∀ c ∈ plan.requiredCapabilities, Text.toAsciiLowercase (Text.trim c) = c

/-- Agents are kept under their own trimmed keys, and plans are cast from them. -/
structure CastOk (s : AppState) : Prop where
  agents : ∀ key agent, s.agents.get key = some agent → agent.agentKey = key ∧ Text.trim key = key
  plans : ∀ c e plan, s.entry c planContextKey = some e → e.value = .workflowPlan plan → WellCast plan

section Steps
variable {s s' : AppState} {now : Now} {plan : WorkflowPlan}

theorem CastOk.of_same (h : CastOk s) (hagents : s'.agents = s.agents)
    (hplans : ∀ c, s'.entry c planContextKey = s.entry c planContextKey) : CastOk s' := by
  refine ⟨?_, ?_⟩
  · rw [hagents]
    exact h.agents
  · intro c e plan he hv
    rw [hplans] at he
    exact h.plans c e plan he hv

theorem nodup_agentKeys {agents : Table Text Agent}
    (h : ∀ key agent, agents.get key = some agent → agent.agentKey = key) : (agentKeys agents.values).Nodup := by
  apply List.pairwise_map.mpr
  apply Table.values_pairwise
  intro k k' a b hne ha hb hab
  apply hne
  rw [← h k a ha, ← h k' b hb, hab]

theorem CastOk.listAgents (h : CastOk s) : Roster s.listAgents where
  nodup := nodup_agentKeys fun key agent hget => (h.agents key agent hget).1
  trimmed := by
    intro agent hmem
    obtain ⟨key, hget⟩ := Table.mem_values.mp hmem
    obtain ⟨hkey, htrim⟩ := h.agents key agent hget
    rw [hkey, htrim]

theorem mapM_normalizeAgentKey {requested reviewer : Option Text}
    (h : requested.mapM normalizeAgentKey = .ok reviewer) : reviewer = requested.map Text.trim := by
  cases requested with
  | none =>
    cases h
    rfl
  | some value =>
    rw [Option.mapM_some] at h
    obtain ⟨key, hkey, rfl⟩ := Except.map_eq_ok.mp h
    obtain ⟨-, hkey⟩ := Except.check_eq_ok.mp hkey
    obtain ⟨-, hkey⟩ := Except.check_eq_ok.mp hkey
    cases hkey
    rfl

theorem trimmed_of_mapM {requested reviewer : Option Text} (h : requested.mapM normalizeAgentKey = .ok reviewer) :
    ∀ key ∈ reviewer, Text.trim key = key := by
  rw [mapM_normalizeAgentKey h]
  intro key hkey
  obtain ⟨value, -, rfl⟩ := Option.mem_map.mp hkey
  exact Text.trim_trim value

theorem CastOk.buildPlan {id : Text} {req : CreateWorkflowReq} (hs : CastOk s)
    (h : Orchestration.buildPlan s now id req = .ok plan) : WellCast plan := by
  obtain ⟨hmode, hcapabilities, reviewer, selected, candidates, hpicked⟩ := buildPlan_picked h
  have hroster := workerCandidates_roster (selectCandidates_roster hs.listAgents hpicked.select) hpicked.retain
  obtain ⟨hnodup, hnormalized⟩ := normalizeCapabilities_normalized hcapabilities
  refine ⟨?_, hnodup, hnormalized⟩
  rw [hmode]
  exact cast_buildAssignments hroster (trimmed_of_mapM hpicked.name) hpicked.build

theorem CastOk.enlist (hs : CastOk s) {key : Text} {agent : Agent} (h : agent.agentKey = key)
    (htrim : Text.trim key = key) :
    CastOk { s with agents := s.agents.insert key agent } := by
  refine ⟨?_, hs.plans⟩
  intro key' agent' hget
  dsimp only at hget
  rw [Table.get_insert] at hget
  by_cases hkey : key' = key
  · rw [if_pos hkey] at hget
    cases hget
    exact ⟨h.trans hkey.symm, hkey ▸ htrim⟩
  · rw [if_neg hkey] at hget
    exact hs.agents key' agent' hget

theorem CastOk.register (hs : CastOk s) (now : Now) (agent : Agent) : CastOk (s.registerAgent now agent).2 := by
  unfold AppState.registerAgent
  dsimp only
  split_ifs
  · exact hs
  · exact hs
  · exact hs
  · exact hs
  · exact hs.enlist rfl (Text.trim_trim _)
  · exact hs.enlist rfl (Text.trim_trim _)

theorem joinAll_agents (s : AppState) (now : Now) (channel : Text) (keys : List Text) :
    (joinAll s now channel keys).2.agents = s.agents := by
  induction keys generalizing s with
  | nil => rfl
  | cons key keys ih =>
    have heff := (join_effect s now channel key .member).agents
    rw [joinAll]
    rcases hjoin : s.join now channel key .member with ⟨r, s₁⟩
    rw [hjoin] at heff
    cases r with
    | error e => exact heff
    | ok out => exact (ih s₁).trans heff

theorem setContextInternal_agents (s : AppState) (now : Now) (slug key : Text) (value : ContextValue)
    (updatedBy : Text) : (s.setContextInternal now slug key value updatedBy).2.agents = s.agents := by
  rcases setContextInternal_cases s now slug key value updatedBy with ⟨e, he⟩ | ⟨ch, -, he⟩
  · rw [he]
  · rw [he]
    rfl

theorem insertWorkflowContext_agents (s : AppState) (now : Now) (slug key : Text) (value : ContextValue)
    (updatedBy : Text) : (insertWorkflowContext s now slug key value updatedBy).2.agents = s.agents := by
  unfold insertWorkflowContext
  cases s.getContextKeyInternal slug key with
  | error e => rfl
  | ok found =>
    cases found with
    | some e => rfl
    | none => exact setContextInternal_agents ..

theorem installPlan_agents (s : AppState) (w : Surroundings) (now : Now) (messageId : Text) (plan : WorkflowPlan) :
    (installPlan s w now messageId plan).2.agents = s.agents := by
  unfold installPlan
  have hcreate := (createOrGetChannel_effect s now plan.channel w plan.title plan.createdBy).agents
  rcases h₁ : s.createOrGetChannel w now plan.channel plan.title plan.createdBy with ⟨r₁, s₁⟩
  rw [h₁] at hcreate
  cases r₁ with
  | error e => exact hcreate
  | ok channel =>
    dsimp only
    have hjoin := (joinAll_agents s₁ now plan.channel (plan.assignments.map WorkflowAssignment.agentKey)).trans hcreate
    rcases h₂ : joinAll s₁ now plan.channel (plan.assignments.map WorkflowAssignment.agentKey) with ⟨r₂, s₂⟩
    rw [h₂] at hjoin
    cases r₂ with
    | error e => exact hjoin
    | ok u =>
      dsimp only
      have hinsert := (insertWorkflowContext_agents s₂ now plan.channel planContextKey (.workflowPlan plan)
        plan.createdBy).trans hjoin
      rcases h₃ : insertWorkflowContext s₂ now plan.channel planContextKey (.workflowPlan plan) plan.createdBy
        with ⟨r₃, s₃⟩
      rw [h₃] at hinsert
      cases r₃ with
      | error e => exact hinsert
      | ok e =>
        dsimp only
        have hpost := (post_effect s₃ now messageId plan.channel plan.createdBy .system (createdMessage plan)
          (.obj [("kind".toList, .str "workflow_created".toList), ("workflow_id".toList, .str plan.id),
            ("mode".toList, .str plan.mode.name)])).agents.trans hinsert
        rcases h₄ : s₃.postMessage now messageId plan.channel plan.createdBy .system (createdMessage plan)
          (.obj [("kind".toList, .str "workflow_created".toList), ("workflow_id".toList, .str plan.id),
            ("mode".toList, .str plan.mode.name)]) with ⟨r₄, s₄⟩
        rw [h₄] at hpost
        cases r₄ with
        | error e => exact hpost
        | ok message => exact hpost

theorem CastOk.create (hs : CastOk s) (w : Surroundings) (now : Now) (id messageId : Text) (req : CreateWorkflowReq) :
    CastOk (createWorkflow s w now id messageId req).2 := by
  unfold createWorkflow
  cases hplan : Orchestration.buildPlan s now id req with
  | error e => exact hs
  | ok plan =>
    have hagents := installPlan_agents s w now messageId plan
    rcases installPlan_cases s w now messageId plan with h | ⟨e, -, -, hvalue, hput⟩
    · exact hs.of_same hagents fun c => h c _
    · refine ⟨?_, ?_⟩
      · dsimp only
        rw [hagents]
        exact hs.agents
      · intro c e' plan' he hv
        rw [hput.entry] at he
        by_cases hnew : c = plan.channel ∧ planContextKey = e.key
        · rw [if_pos hnew] at he
          cases he
          rw [hvalue] at hv
          cases hv
          exact hs.buildPlan hplan
        · rw [if_neg hnew] at he
          exact hs.plans c e' plan' he hv

theorem setContext_planEntry (s : AppState) (now : Now) (slug key : Text) (value : Json) (updatedBy c : Text) :
    (s.setContext now slug key value updatedBy).2.entry c planContextKey = s.entry c planContextKey := by
  unfold AppState.setContext
  by_cases hreserved : isReservedContextKey key = true
  · rw [if_pos hreserved]
  · rw [if_neg hreserved]
    rcases hset : s.setContextInternal now slug key (.json value) updatedBy with ⟨r, s'⟩
    cases r with
    | error e => rw [setContextInternal_error hset]
    | ok e =>
      obtain ⟨-, -, -, hentry⟩ := entry_setContextInternal hset
      rw [hentry, if_neg]
      rintro ⟨-, hkey⟩
      apply hreserved
      have hplan := isReservedContextKey_planContextKey
      rw [hkey, isReservedContextKey, Text.trim_trim] at hplan
      exact hplan

theorem setContext_agents (s : AppState) (now : Now) (slug key : Text) (value : Json) (updatedBy : Text) :
    (s.setContext now slug key value updatedBy).2.agents = s.agents := by
  unfold AppState.setContext
  by_cases hreserved : isReservedContextKey key = true
  · rw [if_pos hreserved]
  · rw [if_neg hreserved]
    exact setContextInternal_agents ..

theorem SubmitCall.step_keeps (s : AppState) (now : Now) (messageId : Text) (call : SubmitCall) :
    (call.step s now messageId).2.agents = s.agents ∧
      ∀ c, (call.step s now messageId).2.entry c planContextKey = s.entry c planContextKey := by
  cases call with
  | checked workflowId input =>
    rw [SubmitCall.step]
    split <;> exact ⟨rfl, fun _ => rfl⟩
  | planned plan a input =>
    rw [SubmitCall.step]
    split <;> exact ⟨rfl, fun _ => rfl⟩
  | validated plan a input =>
    have hagents := insertWorkflowContext_agents s now plan.channel (submissionKey a.ordinal)
      (.workflowSubmission (newSubmission plan a input now)) input.agentKey
    rw [SubmitCall.step]
    rcases insertWorkflowContext_cases s now plan.channel (submissionKey a.ordinal)
        (.workflowSubmission (newSubmission plan a input now)) input.agentKey (trim_submissionKey _)
      with ⟨e, hinsert⟩ | ⟨e, s', hinsert, -, hkey, -, -, hput⟩
    · rw [hinsert]
      exact ⟨rfl, fun _ => rfl⟩
    · rw [hinsert] at hagents ⊢
      refine ⟨hagents, fun c => hput.ne ?_⟩
      rintro ⟨-, hplan⟩
      exact submissionKey_ne_planContextKey a.ordinal (hkey.symm.trans hplan.symm)
  | stored plan a input =>
    have heffect := post_effect s now messageId plan.channel input.agentKey .assistant input.content
      (submissionMetadata plan a)
    rw [SubmitCall.step]
    rcases hpost : s.postMessage now messageId plan.channel input.agentKey .assistant input.content
      (submissionMetadata plan a) with ⟨r, s'⟩
    rw [hpost] at heffect
    have hnext : s'.agents = s.agents ∧ ∀ c, s'.entry c planContextKey = s.entry c planContextKey :=
      ⟨heffect.agents, fun c => heffect.entry c _⟩
    cases r with
    | error e => exact hnext
    | ok message => exact hnext
  | finished result => exact ⟨rfl, fun _ => rfl⟩

theorem CastOk.setContext (hs : CastOk s) (now : Now) (slug key : Text) (value : Json) (updatedBy : Text) :
    CastOk (s.setContext now slug key value updatedBy).2 :=
  hs.of_same (setContext_agents ..) (setContext_planEntry s now slug key value updatedBy)

theorem CastOk.advance (hs : CastOk s) (now : Now) (messageId : Text) (call : SubmitCall) :
    CastOk (call.step s now messageId).2 := by
  obtain ⟨hagents, hplans⟩ := call.step_keeps s now messageId
  exact hs.of_same hagents hplans

end Steps

theorem SubmitWorld.run_cast (config : Config) (as : List WorkflowAction) : CastOk (run config as).state := by
  refine Run.exec_invariant (P := fun w : SubmitWorld => CastOk w.state) ?_ ⟨?_, ?_⟩ as
  · intro w a hw
    cases a with
    | register now agent => exact hw.register now agent
    | create env now id messageId req => exact hw.create env now id messageId req
    | setContext now slug key value updatedBy => exact hw.setContext now slug key value updatedBy
    | submit workflowId req => exact hw
    | advance i now messageId =>
      rw [step]
      cases w.calls[i]? with
      | none => exact hw
      | some call => exact hw.advance now messageId call
  · intro key agent hget
    cases hget
  · intro c e plan he
    cases he

end AgentBridge.Orchestration
