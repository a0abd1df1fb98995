import AgentBridge.Admission.Ledger

/-! What a new admission says about the roles of its plan and of the decision it rests
on. The gate compares modes and key sets. -/

namespace AgentBridge.PolicyAdmission
open State Orchestration

def providerRole : AssignmentRole → ProviderRole
  | .worker => .worker
  | .reviewer => .reviewer

def Assigns (plan : WorkflowPlan) (key : Text) (role : ProviderRole) : Prop :=
  ∃ a ∈ plan.assignments, a.agentKey = key ∧ providerRole a.role = role

def Selects (decision : PolicyDecision) (key : Text) (role : ProviderRole) : Prop :=
  ∃ p ∈ decision.selectedProviders, p.agentKey = key ∧ p.role = role

/-- Plan and decision agree on their (key, role) pairs. -/
def SameRoles (plan : WorkflowPlan) (decision : PolicyDecision) : Prop :=
  ∀ key role, Assigns plan key role ↔ Selects decision key role

def SameAgents (plan : WorkflowPlan) (decision : PolicyDecision) : Prop :=
  ∀ key, key ∈ plan.assignments.map WorkflowAssignment.agentKey ↔
    key ∈ decision.selectedProviders.map SelectedProvider.agentKey

def planReviewer (plan : WorkflowPlan) : Option Text :=
  (plan.assignments.find? fun a => a.role = .reviewer).map WorkflowAssignment.agentKey

def decisionReviewer (decision : PolicyDecision) : Option Text :=
  decision.selectedProviders.getLast?.map SelectedProvider.agentKey

/-- Roles over a set of keys with one reviewer. -/
structure Reviewed (pairs : Text → ProviderRole → Prop) (keys : Text → Prop) (reviewer : Text) : Prop where
  reviewer_iff : ∀ key, pairs key .reviewer ↔ key = reviewer
  worker_iff : ∀ key, pairs key .worker ↔ keys key ∧ key ≠ reviewer

theorem Reviewed.same_iff {p q : Text → ProviderRole → Prop} {keys keys' : Text → Prop} {r r' : Text}
    (hp : Reviewed p keys r) (hq : Reviewed q keys' r') (hkeys : ∀ key, keys key ↔ keys' key) :
    (∀ key role, p key role ↔ q key role) ↔ r = r' := by
  constructor
  · intro h
    exact (hq.reviewer_iff r).mp ((h r .reviewer).mp ((hp.reviewer_iff r).mpr rfl))
  · rintro rfl key role
    cases role with
    | reviewer => rw [hp.reviewer_iff, hq.reviewer_iff]
    | worker => rw [hp.worker_iff, hq.worker_iff, hkeys]

section Plan
variable {plan : WorkflowPlan}

theorem assigns_of_workers (h : ∀ a ∈ plan.assignments, a.role = .worker) (key : Text)
    (role : ProviderRole) : Assigns plan key role ↔
      key ∈ plan.assignments.map WorkflowAssignment.agentKey ∧ role = .worker := by
  rw [List.mem_map]
  constructor
  · rintro ⟨a, ha, rfl, rfl⟩
    exact ⟨⟨a, ha, rfl⟩, by rw [h a ha, providerRole]⟩
  · rintro ⟨⟨a, ha, rfl⟩, rfl⟩
    exact ⟨a, ha, rfl, by rw [h a ha, providerRole]⟩

theorem reviewed_plan (h : Numbered .consensus plan.assignments) : ∃ reviewer,
    planReviewer plan = some reviewer ∧
    Reviewed (Assigns plan) (· ∈ plan.assignments.map WorkflowAssignment.agentKey) reviewer := by
  obtain ⟨r, hr, hrole, hothers⟩ := h.reviewer rfl
  have honly (a : WorkflowAssignment) (ha : a ∈ plan.assignments) (hra : a.role = .reviewer) : a = r := by
    by_contra hne
    rw [(hothers a ha hne).1] at hra
    cases hra
  refine ⟨r.agentKey, ?_, fun key => ⟨?_, ?_⟩, fun key => ⟨?_, ?_⟩⟩
  · unfold planReviewer
    cases hfind : plan.assignments.find? fun a => a.role = .reviewer with
    | none => exact absurd hrole (by simpa using List.find?_eq_none.mp hfind r hr)
    | some a =>
      rw [Option.map_some, honly a (List.mem_of_find?_eq_some hfind)
        (by simpa using List.find?_some hfind)]
  · rintro ⟨a, ha, rfl, hra⟩
    cases hrole' : a.role with
    | worker =>
      rw [hrole'] at hra
      cases hra
    | reviewer => rw [honly a ha hrole']
  · rintro rfl
    exact ⟨r, hr, rfl, by rw [hrole, providerRole]⟩
  · rintro ⟨a, ha, rfl, hra⟩
    have hne : a ≠ r := by
      rintro rfl
      rw [hrole] at hra
      cases hra
    exact ⟨List.mem_map.mpr ⟨a, ha, rfl⟩, (hothers a ha hne).2⟩
  · rintro ⟨hmem, hne⟩
    obtain ⟨a, ha, rfl⟩ := List.mem_map.mp hmem
    have har : a ≠ r := by
      rintro rfl
      exact hne rfl
    exact ⟨a, ha, rfl, by rw [(hothers a ha har).1, providerRole]⟩

end Plan

section Decision
variable {decision : PolicyDecision} {l : List ProviderCandidate}

theorem selects_of_workers (h : decision.selectedProviders = Policy.Intake.selectedProviders decision.mode l)
    (hmode : decision.mode ≠ .consensus) (key : Text) (role : ProviderRole) :
    Selects decision key role ↔
      key ∈ decision.selectedProviders.map SelectedProvider.agentKey ∧ role = .worker := by
  have hworker (p : SelectedProvider) (hp : p ∈ decision.selectedProviders) : p.role = .worker := by
    rw [h] at hp
    obtain ⟨n, hn, rfl⟩ := List.getElem_of_mem hp
    have hrole := Policy.role_selectedProviders decision.mode l hn
    cases hr : (Policy.Intake.selectedProviders decision.mode l)[n].role with
    | worker => rfl
    | reviewer => exact absurd (hrole.mp hr).1 hmode
  rw [List.mem_map]
  constructor
  · rintro ⟨p, hp, rfl, rfl⟩
    exact ⟨⟨p, hp, rfl⟩, hworker p hp⟩
  · rintro ⟨⟨p, hp, rfl⟩, rfl⟩
    exact ⟨p, hp, rfl, hworker p hp⟩

theorem role_eq_reviewer_iff (h : decision.selectedProviders = Policy.Intake.selectedProviders .consensus l)
    (hne : decision.selectedProviders ≠ []) {p : SelectedProvider} (hp : p ∈ decision.selectedProviders) :
    p.role = .reviewer ↔ p = decision.selectedProviders.getLast hne := by
  have hrole {n : Nat} (hn : n < decision.selectedProviders.length) :
      decision.selectedProviders[n].role = .reviewer ↔ n + 1 = decision.selectedProviders.length := by
    simp only [h] at hn ⊢
    exact (Policy.role_selectedProviders .consensus l hn).trans (and_iff_right rfl)
  rw [List.getLast_eq_getElem]
  constructor
  · intro hr
    obtain ⟨n, hn, rfl⟩ := List.getElem_of_mem hp
    have hlast := (hrole hn).mp hr
    congr 1
    omega
  · rintro rfl
    have hpos := List.length_pos_of_ne_nil hne
    exact (hrole _).mpr (by omega)

theorem reviewed_decision (h : decision.selectedProviders = Policy.Intake.selectedProviders .consensus l)
    (hnodup : (l.map Policy.trimmedKey).Nodup) (hne : decision.selectedProviders ≠ []) : ∃ reviewer,
    decisionReviewer decision = some reviewer ∧
    Reviewed (Selects decision) (· ∈ decision.selectedProviders.map SelectedProvider.agentKey) reviewer := by
  have hkeys : (decision.selectedProviders.map SelectedProvider.agentKey).Nodup := by
    rw [h, Policy.map_agentKey_selectedProviders]
    exact hnodup
  have hmem := List.getLast_mem hne
  refine ⟨(decision.selectedProviders.getLast hne).agentKey, ?_, fun key => ⟨?_, ?_⟩,
    fun key => ⟨?_, ?_⟩⟩
  · rw [decisionReviewer, List.getLast?_eq_some_getLast hne, Option.map_some]
  · rintro ⟨p, hp, rfl, hrole⟩
    rw [(role_eq_reviewer_iff h hne hp).mp hrole]
  · rintro rfl
    exact ⟨_, hmem, rfl, (role_eq_reviewer_iff h hne hmem).mpr rfl⟩
  · rintro ⟨p, hp, rfl, hrole⟩
    refine ⟨List.mem_map.mpr ⟨p, hp, rfl⟩, fun hkey => ?_⟩
    have heq := List.inj_on_of_nodup_map hkeys hp hmem hkey
    rw [(role_eq_reviewer_iff h hne hp).mpr heq] at hrole
    cases hrole
  · rintro ⟨hkey, hdiff⟩
    obtain ⟨p, hp, rfl⟩ := List.mem_map.mp hkey
    refine ⟨p, hp, rfl, ?_⟩
    cases hrole : p.role with
    | worker => rfl
    | reviewer => exact absurd (congrArg _ ((role_eq_reviewer_iff h hne hp).mp hrole)) hdiff

end Decision

section Gate
variable {s : AppState} {now : Now} {workflowId : Text} {request : AdmitReq} {record : AdmissionRecord}
  {plan : WorkflowPlan} {decision : PolicyDecision}

theorem loadPlan_eq_ok (h : loadPlan s workflowId = .ok plan) :
    loadPlanByChannel s (channelOf workflowId) = .ok plan := by
  rw [loadPlanByChannel_eq_ok]
  unfold loadPlan AppState.getContextKeyInternal at h
  unfold AppState.entry
  cases hch : s.channels.get (channelOf workflowId) with
  | none =>
    rw [hch] at h
    cases h
  | some ch =>
    rw [hch] at h
    obtain ⟨found, hfound, h⟩ := Except.bind_eq_ok.mp h
    cases hfound
    rw [Option.bind_some]
    change ∃ e, ch.context.get workflowPlanContextKey = some e ∧ _
    cases hget : ch.context.get workflowPlanContextKey with
    | none =>
      rw [hget] at h
      cases h
    | some e =>
      rw [hget] at h
      refine ⟨e, rfl, ?_⟩
      cases hv : e.value <;> simp_all

/-- What the gate checked when it made a new record. -/
structure Admits (s : AppState) (workflowId : Text) (request : AdmitReq) (plan : WorkflowPlan)
    (decision : PolicyDecision) : Prop where
  loaded : loadPlan s workflowId = .ok plan
  evaluated : Policy.evaluate request.policyRequest = .ok decision
  allowed : decision.allowed = true
  target : decision.executionTarget = .standardWorkflow
  mode : decision.mode = plan.mode
  agents : SameAgents plan decision

theorem decisionChecks_eq_ok {u : Unit} (h : decisionChecks plan decision = .ok u) :
    decision.allowed = true ∧ decision.executionTarget = .standardWorkflow ∧
      decision.mode = plan.mode ∧ SameAgents plan decision := by
  rw [decisionChecks, Except.check_eq_ok, Except.check_eq_ok, Except.check_eq_ok, Except.check_eq_ok] at h
  obtain ⟨hallowed, htarget, hmode, hagents, -⟩ := h
  refine ⟨by simpa using hallowed, not_not.mp htarget, not_not.mp hmode, fun key => ?_⟩
  have hkey := KeySet.sameKeys_iff.mp (not_not.mp hagents) key
  rwa [plannedAgents, selectedAgents, KeySet.mem_ofList, KeySet.mem_ofList] at hkey

theorem newAdmission_admits (h : newAdmission s now workflowId request = .ok record) :
    ∃ plan decision, Admits s workflowId request plan decision := by
  obtain ⟨plan, hplan, h⟩ := Except.bind_eq_ok.mp h
  obtain ⟨_, -, h⟩ := Except.bind_eq_ok.mp h
  obtain ⟨decision, hdecision, h⟩ := Except.bind_eq_ok.mp h
  obtain ⟨_, hchecks, h⟩ := Except.bind_eq_ok.mp h
  obtain ⟨hallowed, htarget, hmode, hagents⟩ := decisionChecks_eq_ok hchecks
  exact ⟨plan, decision, Except.mapError_eq_ok.mp hplan, Except.mapError_eq_ok.mp hdecision, hallowed, htarget, hmode,
    hagents⟩

theorem createAdmission_admits {s' : AppState}
    (h : createAdmission s now workflowId request = (.ok (record, true), s')) :
    ∃ plan decision, Admits s workflowId request plan decision := by
  rcases createAdmission_cases s now workflowId request with ⟨r, h', hnot⟩ | ⟨record', s₁, h', -, hnew, -⟩
  · rw [h] at h'
    exact absurd (Prod.mk.inj h').1.symm (hnot record)
  · exact newAdmission_admits hnew

theorem Admits.roles (h : Admits s workflowId request plan decision)
    (hn : Numbered plan.mode plan.assignments) :
    (plan.mode ≠ .consensus → SameRoles plan decision) ∧
    (plan.mode = .consensus → (SameRoles plan decision ↔ planReviewer plan = decisionReviewer decision)) := by
  obtain ⟨l, hl, hnodup⟩ := Policy.evaluate_selected h.evaluated h.allowed
  constructor
  · intro hmode key role
    rw [assigns_of_workers (hn.workers hmode), selects_of_workers hl (h.mode ▸ hmode), h.agents]
  · intro hmode
    rw [h.mode, hmode] at hl
    rw [hmode] at hn
    obtain ⟨r, hr, hplan⟩ := reviewed_plan hn
    have hne : decision.selectedProviders ≠ [] := by
      intro hnil
      obtain ⟨a, ha, hkey, -⟩ := (hplan.reviewer_iff r).mpr rfl
      have hmem := (h.agents r).mp (List.mem_map.mpr ⟨a, ha, hkey⟩)
      rw [hnil] at hmem
      cases hmem
    obtain ⟨r', hr', hdecision⟩ := reviewed_decision hl hnodup hne
    rw [hr, hr', Option.some.injEq]
    exact hplan.same_iff hdecision h.agents

end Gate

/-- In every reachable state, a new admission rests on an allowed standard decision with the
plan's mode and agents; roles agree as well, in consensus mode exactly when the plan's
reviewer is the provider the decision selected last. -/
theorem admission_matches_decision (config : Config) (as : List AdmissionAction) (now : Now)
    (workflowId : Text) (request : AdmitReq) (record : AdmissionRecord) (s' : AppState)
    (h : createAdmission (AdmissionWorld.run config as).state now workflowId request =
      (.ok (record, true), s')) :
    ∃ plan decision, Admits (AdmissionWorld.run config as).state workflowId request plan decision ∧
      (plan.mode ≠ .consensus → SameRoles plan decision) ∧
      (plan.mode = .consensus →
        (SameRoles plan decision ↔ planReviewer plan = decisionReviewer decision)) := by
  obtain ⟨plan, decision, hadmits⟩ := createAdmission_admits h
  have hrecords := (AdmissionWorld.run_sound config as).submits.records
  have hn := (hrecords.planAt_of_load (loadPlan_eq_ok hadmits.loaded)).2.2
  exact ⟨plan, decision, hadmits, hadmits.roles hn⟩

/-- Consensus work for three providers of equal standing, with the reviewer required. -/
def consensusRequest (reviewer : Text) : PolicyRequest where
  taskRisk := .medium
  dataSensitivity := .internal
  requestedMode := some .consensus
  requestedProtocol := none
  requestedDegradation := none
  requiredAgentKeys := []
  requiredReviewerAgentKey := some reviewer
  requiredCapabilities := []
  requiresRepositoryWrite := false
  expectedDurationMs := 0
  requestedBudget := {}
  providers := [Policy.plainProvider "a".toList, Policy.plainProvider "b".toList,
    Policy.plainProvider "c".toList]

def consensusAdmission (reviewer : Text) : AdmitReq where
  requestedBy := "carol".toList
  approvedBy := some "dave".toList
  overrideReason := none
  policyRequest := consensusRequest reviewer

/-- A consensus workflow in which `c` reviews the work of `a` and `b`. -/
def consensusRun : List AdmissionAction :=
  let agent (key : Text) : Agent := {
    agentKey := key
    displayName := key
    kind := .other
    host := none
    metadata := .null
    registeredAt := [] }
  [.workflow (.register ⟨0, 0⟩ (agent "a".toList)), .workflow (.register ⟨0, 0⟩ (agent "b".toList)),
    .workflow (.register ⟨0, 0⟩ (agent "c".toList)),
    .workflow (.create asciiSurroundings ⟨0, 0⟩ "w1".toList "m0".toList
      { title := "title".toList, prompt := "prompt".toList, createdBy := "carol".toList,
        mode := .consensus, reviewerAgentKey := some "c".toList })]

def consensusState : AppState := (AdmissionWorld.run .inMemory consensusRun).state

theorem consensusState_plan : ∃ plan, loadPlan consensusState "w1".toList = .ok plan ∧
    plan.mode = .consensus ∧ planReviewer plan = some "c".toList := by
  have h : (loadPlan consensusState "w1".toList).toOption.map
      (fun plan => (plan.mode, planReviewer plan)) = some (.consensus, some "c".toList) := by
    decide +kernel
  obtain ⟨plan, hplan, hp⟩ := Except.toOption_map_eq_some.mp h
  exact ⟨plan, hplan, Prod.mk.inj hp⟩

theorem created_of_isSome (s : AppState) (now : Now) (workflowId : Text) (request : AdmitReq)
    (h : (createAdmission s now workflowId request).1.toOption.map Prod.snd = some true) :
    ∃ record s', createAdmission s now workflowId request = (.ok (record, true), s') := by
  obtain ⟨⟨record, created⟩, hr, rfl⟩ := Except.toOption_map_eq_some.mp h
  exact ⟨record, _, Prod.ext hr rfl⟩

/-- With `c` required as the reviewer, plan and decision agree on every role. -/
theorem admission_matches_decision_reviewer : ∃ plan decision,
    Admits consensusState "w1".toList (consensusAdmission "c".toList) plan decision ∧
    plan.mode = .consensus ∧ SameRoles plan decision := by
  obtain ⟨record, s', hcreated⟩ := created_of_isSome consensusState ⟨0, 0⟩ "w1".toList
    (consensusAdmission "c".toList) (by decide +kernel)
  obtain ⟨plan, decision, hadmits, -, hroles⟩ :=
    admission_matches_decision .inMemory consensusRun _ _ _ record s' hcreated
  obtain ⟨plan', hload, hmode, hreviewer⟩ := consensusState_plan
  have hdecision : (Policy.evaluate (consensusRequest "c".toList)).toOption.map decisionReviewer =
      some (some "c".toList) := by decide +kernel
  obtain ⟨decision', heval, hreviewer'⟩ := Except.toOption_map_eq_some.mp hdecision
  obtain rfl := Except.ok.inj (hload.symm.trans hadmits.loaded)
  obtain rfl := Except.ok.inj (heval.symm.trans hadmits.evaluated)
  exact ⟨plan', decision', hadmits, hmode, (hroles hmode).mpr (hreviewer.trans hreviewer'.symm)⟩

/-- With `a` required as the reviewer the admission is created all the same, although the plan
has `c` review. -/
theorem not_admission_matches_roles : ¬ ∀ (config : Config) (as : List AdmissionAction) (now : Now)
    (workflowId : Text) (request : AdmitReq) (record : AdmissionRecord) (s' : AppState)
    (plan : WorkflowPlan) (decision : PolicyDecision),
    createAdmission (AdmissionWorld.run config as).state now workflowId request =
      (.ok (record, true), s') →
    loadPlan (AdmissionWorld.run config as).state workflowId = .ok plan →
    Policy.evaluate request.policyRequest = .ok decision → SameRoles plan decision := by
  intro hclaim
  obtain ⟨record, s', hcreated⟩ := created_of_isSome consensusState ⟨0, 0⟩ "w1".toList
    (consensusAdmission "a".toList) (by decide +kernel)
  obtain ⟨plan, hload, hmode, hreviewer⟩ := consensusState_plan
  have hdecision : (Policy.evaluate (consensusRequest "a".toList)).toOption.map decisionReviewer =
      some (some "a".toList) := by decide +kernel
  obtain ⟨decision, heval, hreviewer'⟩ := Except.toOption_map_eq_some.mp hdecision
  obtain ⟨plan', decision', hadmits⟩ := createAdmission_admits hcreated
  obtain rfl := Except.ok.inj (hload.symm.trans hadmits.loaded)
  obtain rfl := Except.ok.inj (heval.symm.trans hadmits.evaluated)
  have hrecords := (AdmissionWorld.run_sound .inMemory consensusRun).submits.records
  have hn := (hrecords.planAt_of_load (loadPlan_eq_ok hadmits.loaded)).2.2
  have hsame := hclaim .inMemory consensusRun _ _ _ record s' plan decision hcreated hload heval
  have heq := ((hadmits.roles hn).2 hmode).mp hsame
  rw [hreviewer, hreviewer'] at heq
  exact absurd heq (by decide)

end AgentBridge.PolicyAdmission
