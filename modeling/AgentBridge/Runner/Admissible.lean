import AgentBridge.Runner.DerivedRequest
import AgentBridge.Runner.Turns

/-! Which plans the managed runner gets admitted: those whose mode the policy leaves, with
acceptable providers. A raised mode never matches the plan again, so such a plan is never run. -/

namespace AgentBridge.Runner
open Orchestration Policy PolicyAdmission

/-- The reasons of the decision on a plan whose mode stands: the agents are required, so a
shortage would queue rather than run with fewer. -/
def managedReasons (plan : WorkflowPlan) : List Text :=
  let usual := defaultDegradationBehavior (riskForMode plan.mode) .internal (requiresLease plan)
  let kept := effectiveDegradationBehavior usual none true false
  (if kept ≠ usual then
    ["degradation policy tightened from ".toList ++ usual.debug ++ " to ".toList ++ kept.debug] else []) ++
  [Intake.protocolReason (defaultProtocol plan.mode),
    ("providers ranked deterministically by availability, historical quality, health, recent error " ++
      "rate, latency, estimated cost, and agent key").toList,
    "selected ".toList ++ Text.decimal plan.assignments.length ++ " provider(s) using policy ".toList ++
      policyVersion]

def managedSnapshot (plan : WorkflowPlan) : AdmissionPolicySnapshot where
  policyVersion := policyVersion
  mode := plan.mode
  selectedAgentKeys := (plannedAgents plan).keys
  budget := planBudget plan
  requireHumanApproval := TaskRisk.rank .high ≤ (riskForMode plan.mode).rank ||
    (requiresLease plan && TaskRisk.rank .medium ≤ (riskForMode plan.mode).rank)
  requireFiduciaLease := requiresLease plan
  reasons := managedReasons plan

def managedRecord (control : AdmissionControl) (now : Now) (workflowId : Text) (plan : WorkflowPlan) :
    AdmissionRecord where
  version := 1
  workflowId := workflowId
  requestedBy := Text.trim control.actor
  approvedBy := control.approvedBy.map Text.trim
  overrideReason := none
  policy := managedSnapshot plan
  status := .active
  usage := {}
  createdAt := now.ts
  updatedAt := now.ts
  terminalReason := none
  lastRejectedDelta := none

section Decision
variable {control : AdmissionControl} {plan : WorkflowPlan} {providers : List ProviderWorker}
  {request : PolicyRequest} {reviewer : Option Text} {required : KeySet Text}

theorem Derived.intakeReasons (hd : Derived control plan providers request) (hstands : ModeStands plan)
    (hreviewer : reviewer.isSome = decide (plan.mode = .consensus)) (hrequired : required.keys ≠ []) :
    Policy.intakeReasons request (planRisk plan) reviewer required =
      (let usual := defaultDegradationBehavior (riskForMode plan.mode) .internal (requiresLease plan)
      let kept := effectiveDegradationBehavior usual none true false
      if kept ≠ usual then
        ["degradation policy tightened from ".toList ++ usual.debug ++ " to ".toList ++ kept.debug] else []) := by
  have hdefault : defaultDegradation request (planRisk plan) =
      defaultDegradationBehavior (riskForMode plan.mode) .internal (requiresLease plan) := by
    rw [defaultDegradation, defaultDegradation_unrestricted hd.unrestricted, hd.write, planRisk_of_stands hstands]
  have hany : (!required.keys.isEmpty) = true := by simpa using hrequired
  have hkept : degradationBehavior request (planRisk plan) reviewer required =
      effectiveDegradationBehavior
        (defaultDegradationBehavior (riskForMode plan.mode) .internal (requiresLease plan)) none true false := by
    rw [degradationBehavior, hdefault, hd.degradation, hany, hd.raisedProtocol hstands hreviewer,
      executionTarget_default]
    rfl
  unfold Policy.intakeReasons
  dsimp only
  rw [hd.requiredMode hstands hreviewer, hd.raisedMode hstands hreviewer, hd.raisedProtocol hstands hreviewer,
    hd.defaultRequestedMode, hd.requestedProtocol, hdefault, hkept, planRisk_of_stands hstands,
    budgetRisk_riskForMode, hd.risk]
  simp only [lt_irrefl, ne_eq, not_true_eq_false, if_false, List.nil_append]

theorem Derived.cost (hd : Derived control plan providers request) :
    (request.providers.map ProviderCandidate.estimatedCostMicroUsd).sum =
      (plan.assignments.map fun a => fixedReserve control a.agentKey).sum := by
  have hreserve : request.providers.map ProviderCandidate.estimatedCostMicroUsd =
      (request.providers.map ProviderCandidate.agentKey).map (fixedReserve control) := by
    rw [List.map_map]
    refine List.map_congr_left fun c hc => ?_
    obtain ⟨p, -, -, pricing, hpricing, rfl⟩ := (hd.candidates c).mp hc
    change pricing.fixedCallReserveMicroUsd = fixedReserve control p.config.name
    rw [fixedReserve, hpricing]
    rfl
  rw [hreserve, (hd.candidateKeys.map _).sum_nat, assignedKeys, List.map_map]
  rfl

theorem Derived.length (hd : Derived control plan providers request) :
    request.providers.length = plan.assignments.length := by
  have hlen := hd.candidateKeys.length_eq
  rwa [List.length_map, assignedKeys, List.length_map] at hlen

theorem Derived.trimmedKeys (hd : Derived control plan providers request) (hcast : Cast plan.mode plan.assignments)
    {key : Text} : key ∈ request.providers.map trimmedKey ↔ key ∈ plannedAgents plan := by
  rw [mem_plannedAgents, ← hd.candidateKeys.mem_iff, List.mem_map, List.mem_map]
  refine exists_congr fun c => and_congr_right fun hc => ?_
  have htrim : trimmedKey c = c.agentKey := by
    have hkey := hd.candidateKeys.mem_iff.mp (List.mem_map_of_mem hc)
    obtain ⟨a, ha, heq⟩ := List.mem_map.mp hkey
    rw [trimmedKey, ← heq]
    exact hcast.trimmed a ha
  rw [htrim]

/-- Where the mode stands and the providers are acceptable, the policy allows the plan as it is. -/
theorem Derived.decides (hd : Derived control plan providers request) (h : Managed control plan providers)
    (hn : Numbered plan.mode plan.assignments) (hwell : WellCast plan) (hstands : ModeStands plan)
    (haccept : ∀ p ∈ providers, p.config.name ∈ assignedKeys plan.assignments → WorkerAcceptable p) :
    ∃ d, evaluate request = .ok d ∧ d.allowed = true ∧ d.mode = plan.mode ∧
      d.executionTarget = .standardWorkflow ∧ (∀ key, key ∈ selectedAgents d ↔ key ∈ plannedAgents plan) ∧
      policySnapshot d = managedSnapshot plan := by
  have hfull := hd.full h hwell haccept
  obtain ⟨caps, keys, hcaps, -, hintake⟩ := hfull.intake
  rw [hd.effectiveRisk hwell hcaps] at hintake
  have hreviewer := hd.reviewer_isSome hn
  have hi := hfull.full hintake
  revert hintake hi
  generalize request.requiredReviewerAgentKey.map Text.trim = reviewer at hreviewer ⊢
  generalize reviewer.elim keys keys.insert = required
  -- from here the decision is that of one intake, which the plan determines
  generalize hof : Intake.of request (planRisk plan) reviewer required request.providers [] = i
  intro hintake hi
  have hmode : i.mode = plan.mode := hof ▸ hd.raisedMode hstands hreviewer
  have hprotocol : i.protocol = defaultProtocol plan.mode := hof ▸ hd.raisedProtocol hstands hreviewer
  have hbudget : i.budget = planBudget plan := by
    rw [← hof]
    change clampBudget request.requestedBudget
      (budgetProfile (budgetRisk (planRisk plan) (Policy.requiredMode request (planRisk plan) reviewer))) = _
    rw [hd.budget, clampBudget_default, hd.requiredMode hstands hreviewer, planBudget_of_stands hstands]
  have hlen : i.eligible.length = plan.assignments.length := hi.eligible.length_eq.trans hd.length
  have hone := (one_le_minimumProviderCount plan.mode).trans h.enough
  have hne : i.eligible ≠ [] := by
    intro hnil
    rw [hnil, List.length_nil] at hlen
    omega
  have hmin : minimumProviderCount i.mode ≤ i.eligible.length := by
    rw [hmode, hlen]
    exact h.enough
  have hmax : i.eligible.length ≤ i.budget.maxProviders := by
    rw [hbudget, hlen]
    exact h.few
  have hcost : (i.eligible.map ProviderCandidate.estimatedCostMicroUsd).sum ≤ i.budget.maxCostMicroUsd := by
    rw [(hi.eligible.map _).sum_nat, hd.cost, hbudget]
    exact h.affordable
  have hdecision := hi.decision hne hmin hmax hcost hd.duration
  have hpick : (i.pick i.course).Perm request.providers := (hi.pick_perm hmin hmax).trans hi.eligible
  -- all workers fit the budget, so the pick is everyone
  have hselected : ∀ key, key ∈ selectedAgents (i.allow request i.course (i.pick i.course)) ↔
      key ∈ plannedAgents plan := by
    intro key
    refine KeySet.mem_ofList.trans ?_
    change key ∈ (Intake.selectedProviders i.course.mode (i.pick i.course)).map SelectedProvider.agentKey ↔ _
    rw [map_agentKey_selectedProviders, (hpick.map trimmedKey).mem_iff]
    exact hd.trimmedKeys hwell.cast
  have hreasons : i.reasons = Policy.intakeReasons request (planRisk plan) reviewer required := hof ▸ rfl
  have hrequired : required.keys ≠ [] := by
    obtain ⟨c, hc⟩ := List.exists_mem_of_ne_nil _ hne
    have hkey : trimmedKey c ∈ i.requiredSelection := (hi.required _).mpr (List.mem_map_of_mem hc)
    rw [← hof] at hkey
    exact List.ne_nil_of_mem hkey
  have happroval : i.requireHumanApproval = (TaskRisk.rank .high ≤ (riskForMode plan.mode).rank ||
      (requiresLease plan && TaskRisk.rank .medium ≤ (riskForMode plan.mode).rank)) := by
    rw [← hof]
    change requiresHumanApproval request (planRisk plan) = _
    rw [requiresHumanApproval, planRisk_of_stands hstands, hd.write, decide_eq_false hd.unrestricted, Bool.or_false]
  refine ⟨i.decision request, Except.bind_eq_ok.mpr ⟨i, hintake, rfl⟩, ?_⟩
  rw [hdecision]
  refine ⟨rfl, hmode, ?_, hselected, ?_⟩
  · change executionTarget i.protocol = _
    rw [hprotocol, executionTarget_default]
  · have hkeys : (selectedAgents (i.allow request i.course (i.pick i.course))).keys = (plannedAgents plan).keys :=
      KeySet.keys_ofList_eq fun key => KeySet.mem_ofList.symm.trans ((hselected key).trans KeySet.mem_ofList)
    have hall : (i.allow request i.course (i.pick i.course)).reasons = managedReasons plan := by
      change i.reasons ++ [Intake.protocolReason i.protocol, _, _ ++
        Text.decimal (i.pick i.course).length ++ _ ++ _] = _
      rw [hreasons, hd.intakeReasons hstands hreviewer hrequired, hprotocol, hpick.length_eq, hd.length]
      rfl
    simp only [policySnapshot, managedSnapshot, AdmissionPolicySnapshot.mk.injEq]
    exact ⟨rfl, hmode, hkeys, hbudget, happroval, hd.write, hall⟩

end Decision

/-- The plan's channel can store the record: it is small enough and there is a free key. -/
def StoreHasRoom (s : AppState) (record : AdmissionRecord) : Prop :=
  record.toJson.bytes ≤ s.config.maxContentBytes ∧
    ∃ ch, s.channels.get (channelOf record.workflowId) = some ch ∧ ch.context.size < State.maxContextKeys

section Create
variable {s : AppState} {now : Now} {workflowId : Text} {control : AdmissionControl} {plan : WorkflowPlan}
  {providers : List ProviderWorker} {request : PolicyRequest} {record : AdmissionRecord}

theorem normalizeActor_isOk {value : Text} (h : Text.printable maxActorBytes (Text.trim value) = true) :
    normalizeActor value = .ok (Text.trim value) :=
  Except.check_eq_ok.mpr ⟨by simpa using h, rfl⟩

theorem Derived.matchesPlan (hd : Derived control plan providers request) :
    validateRequestMatchesPlan plan request = .ok () := by
  unfold validateRequestMatchesPlan
  simp only [Except.check_eq_ok, not_not, and_true]
  refine ⟨hd.mode, hd.write, ?_, ?_⟩
  · rw [hd.capabilities, KeySet.sameKeys_iff]
    exact fun _ => Iff.rfl
  · rw [KeySet.sameKeys_iff]
    intro key
    rw [mem_plannedAgents, KeySet.mem_ofList, hd.candidateKeys.mem_iff]

/-- An admitted decision makes `create_admission` store the record of the plan. -/
theorem Derived.newAdmission (hd : Derived control plan providers request) (h : Managed control plan providers)
    (hload : PolicyAdmission.loadPlan s workflowId = .ok plan) {d : PolicyDecision}
    (hevaluate : evaluate request = .ok d)
    (hallowed : d.allowed = true) (hmode : d.mode = plan.mode) (htarget : d.executionTarget = .standardWorkflow)
    (hselected : ∀ key, key ∈ selectedAgents d ↔ key ∈ plannedAgents plan)
    (hsnapshot : policySnapshot d = managedSnapshot plan) :
    PolicyAdmission.newAdmission s now workflowId (control.admitReq request) =
      .ok (managedRecord control now workflowId plan) := by
  obtain ⟨approver, happroved, hprintable⟩ := h.approver
  have hchecks : decisionChecks plan d = .ok () := by
    unfold decisionChecks
    simp only [Except.check_eq_ok, not_not, and_true]
    refine ⟨by simp [hallowed], htarget, hmode, ?_⟩
    rw [KeySet.sameKeys_iff]
    exact fun key => (hselected key).symm
  have happroves : (control.approvedBy).mapM normalizeActor = .ok (control.approvedBy.map Text.trim) := by
    rw [happroved, Option.mapM_some, normalizeActor_isOk hprintable]
    rfl
  unfold PolicyAdmission.newAdmission
  simp only [Except.bind_eq_ok]
  refine ⟨plan, Except.mapError_eq_ok.mpr hload, (), hd.matchesPlan, d,
    Except.mapError_eq_ok.mpr hevaluate, (), hchecks,
    _, normalizeActor_isOk h.actor, _, happroves, (), ?_, none, rfl, ?_⟩
  · rw [happroved]
    exact Except.check_eq_ok.mpr ⟨by simp, rfl⟩
  · rw [hsnapshot]
    rfl

theorem persisted_isOk (hnone : s.entry (channelOf record.workflowId) admissionContextKey = none) :
    (∃ s', persisted s now record = (.ok record, s')) ↔ StoreHasRoom s record := by
  have htrim : Text.trim admissionContextKey = admissionContextKey := by decide
  unfold persisted persistAdmission AppState.setContextInternal
  rw [htrim]
  dsimp only
  rw [if_neg (by decide), if_neg (by decide)]
  unfold StoreHasRoom
  by_cases hbytes : (ContextValue.admission record).toJson.bytes > s.config.maxContentBytes
  · rw [if_pos hbytes]
    refine ⟨?_, fun h => absurd h.1 (Nat.not_le.mpr hbytes)⟩
    rintro ⟨_, ⟨⟩⟩
  · rw [if_neg hbytes]
    cases hch : s.channels.get (channelOf record.workflowId) with
    | none =>
      constructor
      · rintro ⟨_, ⟨⟩⟩
      · rintro ⟨-, _, ⟨⟩, -⟩
    | some ch =>
      dsimp only
      have hfree : ch.context.contains admissionContextKey = false := by
        rw [entry_of_channel hch] at hnone
        rw [Table.contains, hnone]
        rfl
      rw [hfree, Bool.not_false, Bool.true_and]
      by_cases hfull : decide (ch.context.size ≥ State.maxContextKeys) = true
      · rw [if_pos hfull]
        constructor
        · rintro ⟨_, ⟨⟩⟩
        · rintro ⟨-, _, ⟨⟩, hroom⟩
          exact absurd (of_decide_eq_true hfull) (Nat.not_le.mpr hroom)
      · rw [if_neg hfull]
        refine ⟨fun _ => ⟨Nat.not_lt.mp hbytes, ch, rfl, ?_⟩, fun _ => ⟨_, rfl⟩⟩
        simpa using hfull

theorem entry_of_loadAdmission (h : loadAdmission s workflowId = .ok none) :
    s.entry (channelOf workflowId) admissionContextKey = none := by
  obtain ⟨found, hfound, h⟩ := Except.bind_eq_ok.mp h
  unfold AppState.getContextKeyInternal at hfound
  cases hch : s.channels.get (channelOf workflowId) with
  | none =>
    rw [AppState.entry, hch]
    rfl
  | some ch =>
    rw [hch] at hfound
    cases hfound
    rw [entry_of_channel hch]
    cases hentry : ch.context.get admissionContextKey with
    | none => rfl
    | some e =>
      rw [hentry] at h
      dsimp only at h
      split at h
      · cases h
      · cases h

theorem createAdmission_isOk (hnone : loadAdmission s workflowId = .ok none) {req : AdmitReq}
    (hnew : PolicyAdmission.newAdmission s now workflowId req = .ok record) (hid : record.workflowId = workflowId) :
    (∃ record' s', createAdmission s now workflowId req = (.ok (record', true), s')) ↔ StoreHasRoom s record := by
  have hentry := entry_of_loadAdmission hnone
  rw [← hid] at hentry
  rw [← @persisted_isOk s now record hentry]
  unfold createAdmission
  rw [hnone, hnew]
  dsimp only
  rcases hpersisted : persisted s now record with ⟨r, s₁⟩
  cases r with
  | error e =>
    refine ⟨fun ⟨_, _, h⟩ => ?_, fun ⟨_, h⟩ => ?_⟩
    · cases h
    · cases h
  | ok stored =>
    have hstored : stored = record := by
      unfold persisted at hpersisted
      split at hpersisted
      · cases hpersisted
      · cases hpersisted
        rfl
    subst hstored
    exact ⟨fun _ => ⟨s₁, rfl⟩, fun _ => ⟨stored, s₁, rfl⟩⟩

end Create

/-- The runner's request for the plan is admitted: the policy allows the plan in its own mode,
on the standard workflow, with the assigned agents, and the admission is created. -/
def Admits (s : AppState) (now : Now) (workflowId : Text) (control : AdmissionControl) (workflow : WorkflowView)
    (providers : List ProviderWorker) : Prop :=
  ∃ request d, control.policyRequest workflow providers = .ok request ∧ evaluate request = .ok d ∧
    d.allowed = true ∧ d.mode = workflow.plan.mode ∧ d.executionTarget = .standardWorkflow ∧
    (∀ key, key ∈ selectedAgents d ↔ key ∈ plannedAgents workflow.plan) ∧
    ∃ record s', createAdmission s now workflowId (control.admitReq request) = (.ok (record, true), s')

section Admission
variable {s : AppState} {now : Now} {workflowId : Text} {control : AdmissionControl} {workflow : WorkflowView}
  {providers : List ProviderWorker} {request : PolicyRequest}

theorem modeStands_of_allowed (hd : Derived control workflow.plan providers request) (hwell : WellCast workflow.plan)
    {d : PolicyDecision} (hevaluate : evaluate request = .ok d) (hallowed : d.allowed = true)
    (hmode : d.mode = workflow.plan.mode) : ModeStands workflow.plan := by
  obtain ⟨caps, hcaps, hfloor⟩ := (evaluate_respects_floor request d hevaluate).2 hallowed
  have hrank := hfloor.mode
  rw [hd.effectiveRisk hwell hcaps, minimumMode_unrestricted hd.unrestricted, hd.write, hmode] at hrank
  exact modeStands_iff.mpr hrank

theorem validates_of_evaluate {d : PolicyDecision} (h : evaluate request = .ok d) :
    validateRequest request = .ok () := by
  obtain ⟨i, hi, -⟩ := Except.bind_eq_ok.mp h
  obtain ⟨_, hvalid, -⟩ := Except.bind_eq_ok.mp hi
  exact hvalid

end Admission

theorem policy_loadPlan {s : AppState} {workflowId : Text} {plan : WorkflowPlan}
    (h : Orchestration.loadPlan s workflowId = .ok plan) (htrim : Text.trim workflowId = workflowId) :
    PolicyAdmission.loadPlan s workflowId = .ok plan := by
  obtain ⟨channel, hchannel, h⟩ := Except.bind_eq_ok.mp h
  obtain ⟨e, he, hv⟩ := loadPlanByChannel_eq_ok.mp h
  have hid : channel = channelOf workflowId := by
    unfold workflowChannel at hchannel
    rw [htrim] at hchannel
    dsimp only at hchannel
    split at hchannel
    · exact (Except.ok.inj hchannel).symm
    · cases hchannel
  subst hid
  obtain ⟨ch, hch, hget⟩ := Option.bind_eq_some_iff.mp he
  have hkey : s.getContextKeyInternal (channelOf workflowId) workflowPlanContextKey = .ok (some e) := by
    unfold AppState.getContextKeyInternal
    rw [hch]
    exact congrArg Except.ok hget
  refine Except.bind_eq_ok.mpr ⟨_, hkey, ?_⟩
  dsimp only
  rw [hv]

section Panel

/-- Three providers for which the runner keeps the same reserve. -/
def panelProviders : List ProviderWorker :=
  ["a", "b", "c"].map fun name => {
    config := { name := name.toList, protocol := .openAiResponses, model := "m".toList }
    capabilities := ["model-provider".toList] }

def panelControl : AdmissionControl where
  actor := "runner".toList
  approvedBy := some "carol".toList
  pricing := fun _ => some {
    inputMicroUsdPerMillion := 1
    outputMicroUsdPerMillion := 1
    fixedCallReserveMicroUsd := 5
    maxContextTokens := 0 }

/-- The providers register and a workflow is created for all of them. -/
def panelRun (mode : WorkflowMode) : List WorkflowAction :=
  let agent (key : Text) : Agent := {
    agentKey := key
    displayName := key
    kind := .codex
    host := none
    metadata := .null
    registeredAt := [] }
  [.register ⟨0, 0⟩ (agent "a".toList), .register ⟨0, 0⟩ (agent "b".toList), .register ⟨0, 0⟩ (agent "c".toList),
    .create asciiSurroundings ⟨1, 1⟩ "w1".toList "m0".toList
      { title := "title".toList, prompt := "prompt".toList, createdBy := "carol".toList, mode := mode }]

def panelState (mode : WorkflowMode) : AppState := (SubmitWorld.run .inMemory (panelRun mode)).state

theorem panel_managed {mode : WorkflowMode} (h : mode = .competitive ∨ mode = .consensus) : ∃ plan,
    plan.mode = mode ∧ Storable plan ∧ PolicyAdmission.loadPlan (panelState mode) "w1".toList = .ok plan ∧
    loadAdmission (panelState mode) "w1".toList = .ok none ∧ Managed panelControl plan panelProviders ∧
    StoreHasRoom (panelState mode) (managedRecord panelControl ⟨2, 2⟩ "w1".toList plan) := by
  -- the plan is evaluated once for each mode, and what is asked of it is read off the result
  have hfacts : (Orchestration.loadPlan (panelState mode) "w1".toList).toOption.map (fun plan =>
      (plan.mode, assignedKeys plan.assignments,
        [plan.requiredCapabilities.isEmpty, plan.fileLease.isNone,
          (plan.metadata.get "data_sensitivity".toList).isNone, (plan.metadata.get "requested_budget".toList).isNone,
          (plan.metadata.get "expected_duration_ms".toList).isNone,
          decide ((managedRecord panelControl ⟨2, 2⟩ "w1".toList plan).toJson.bytes ≤
            (panelState mode).config.maxContentBytes)])) =
      some (mode, ["a".toList, "b".toList, "c".toList], [true, true, true, true, true, true]) := by
    rcases h with rfl | rfl
    · decide +kernel
    · decide +kernel
  have hnone : (loadAdmission (panelState mode) "w1".toList).toOption = some none := by
    rcases h with rfl | rfl
    · decide +kernel
    · decide +kernel
  have hroom : ((panelState mode).channels.get (channelOf "w1".toList)).map
      (fun ch => decide (ch.context.size < State.maxContextKeys)) = some true := by
    rcases h with rfl | rfl
    · decide +kernel
    · decide +kernel
  obtain ⟨plan, hload, hplan⟩ := Except.toOption_map_eq_some.mp hfacts
  simp only [Prod.mk.injEq, List.cons.injEq, and_true, Option.isNone_iff_eq_none, List.isEmpty_iff,
    decide_eq_true_eq] at hplan
  obtain ⟨hmode, hkeys, hcapabilities, hlease, hsensitivity, hbudget, hduration, hbytes⟩ := hplan
  obtain ⟨ch, hch, hsize⟩ := Option.map_eq_some_iff.mp hroom
  have hlen : plan.assignments.length = 3 := by
    rw [← List.length_map (f := WorkflowAssignment.agentKey)]
    exact congrArg List.length hkeys
  have hrisk : planBudget plan = budgetProfile .high := by
    unfold planBudget planFloor planRisk requiresLease
    rw [hmode, hcapabilities, hlease]
    rcases h with rfl | rfl
    · rfl
    · rfl
  have hadmission := Except.toOption_eq_some.mp hnone
  refine ⟨plan, hmode, ⟨_, _, _, hload⟩, policy_loadPlan hload (by decide), hadmission, ?_, hbytes, ch, hch,
    of_decide_eq_true hsize⟩
  exact {
    distinct := by decide
    priced := fun _ _ => rfl
    actor := by decide
    approver := ⟨_, rfl, by decide⟩
    configured := by
      intro a ha
      have hkey : a.agentKey ∈ ["a".toList, "b".toList, "c".toList] := hkeys ▸ List.mem_map_of_mem ha
      rw [hcapabilities]
      have hname : a.agentKey ∈ panelProviders.map fun p => p.config.name := hkey
      obtain ⟨p, hp, hname⟩ := List.mem_map.mp hname
      exact ⟨p, hp, hname, List.forall_mem_nil _⟩
    sensitivity := ⟨.internal, metadataField_none hsensitivity, by decide⟩
    budget := hbudget
    duration := hduration
    enough := by
      rw [hmode, hlen]
      rcases h with rfl | rfl
      · decide
      · decide
    few := by
      rw [hrisk, hlen]
      decide
    affordable := by
      rw [hrisk]
      have hreserve : (plan.assignments.map fun a => fixedReserve panelControl a.agentKey) =
          (assignedKeys plan.assignments).map (fixedReserve panelControl) := by
        rw [assignedKeys, List.map_map]
        rfl
      rw [hreserve, hkeys]
      decide }

/-- A competitive plan can be stored, and the runner cannot have it admitted: the risk the
runner gives the mode has consensus as its floor. -/
theorem not_admits_competitive : ∃ plan, plan.mode = .competitive ∧ Storable plan ∧
    PolicyAdmission.loadPlan (panelState .competitive) "w1".toList = .ok plan ∧
    loadAdmission (panelState .competitive) "w1".toList = .ok none ∧ Managed panelControl plan panelProviders ∧
    ¬ Admits (panelState .competitive) ⟨2, 2⟩ "w1".toList panelControl (viewOf plan []) panelProviders := by
  obtain ⟨plan, hmode, hstorable, hload, hnone, hmanaged, -⟩ := panel_managed (.inl rfl)
  refine ⟨plan, hmode, hstorable, hload, hnone, hmanaged, ?_⟩
  rintro ⟨request, d, hrequest, hevaluate, hallowed, hkept, -⟩
  obtain ⟨-, hwell⟩ := hstorable.facts
  obtain ⟨request', hrequest', hd⟩ := @Managed.derives _ _ _ (viewOf plan []) hmanaged hwell.cast rfl
  rw [hrequest] at hrequest'
  cases hrequest'
  have hstands : ModeStands plan := @modeStands_of_allowed _ (viewOf plan []) _ _ hd hwell _ hevaluate hallowed hkept
  rw [ModeStands, hmode] at hstands
  exact hstands

end Panel

/-- A plan the bridge stores, on a runner set up for it, is admitted exactly when the policy
leaves its mode, its providers are acceptable to the policy, and the record can be stored. -/
theorem runner_admits_iff (s : AppState) (now : Now) (workflowId : Text) (control : AdmissionControl)
    (workflow : WorkflowView) (providers : List ProviderWorker) (hstorable : Storable workflow.plan)
    (hload : PolicyAdmission.loadPlan s workflowId = .ok workflow.plan)
    (hnone : loadAdmission s workflowId = .ok none) (h : Managed control workflow.plan providers) :
    Admits s now workflowId control workflow providers ↔
      ModeStands workflow.plan ∧
      (∀ p ∈ providers, p.config.name ∈ assignedKeys workflow.plan.assignments → WorkerAcceptable p) ∧
      StoreHasRoom s (managedRecord control now workflowId workflow.plan) := by
  obtain ⟨hn, hwell⟩ := hstorable.facts
  obtain ⟨request, hrequest, hd⟩ := h.derives hwell.cast rfl
  constructor
  · rintro ⟨request', d, hrequest', hevaluate, hallowed, hmode, htarget, hselected, hcreated⟩
    rw [hrequest] at hrequest'
    cases hrequest'
    have hstands := modeStands_of_allowed hd hwell hevaluate hallowed hmode
    have haccept : ∀ p ∈ providers, p.config.name ∈ assignedKeys workflow.plan.assignments → WorkerAcceptable p :=
      fun p hp hplanned => hd.acceptable (validates_of_evaluate hevaluate) h.priced hp hplanned
    obtain ⟨d', hevaluate', -, -, -, -, hsnapshot⟩ := hd.decides h hn hwell hstands haccept
    rw [hevaluate] at hevaluate'
    cases hevaluate'
    have hnew := @Derived.newAdmission _ now _ _ _ _ _ hd h hload _ hevaluate hallowed hmode htarget hselected hsnapshot
    exact ⟨hstands, haccept, (createAdmission_isOk hnone hnew rfl).mp hcreated⟩
  · rintro ⟨hstands, haccept, hroom⟩
    obtain ⟨d, hevaluate, hallowed, hmode, htarget, hselected, hsnapshot⟩ := hd.decides h hn hwell hstands haccept
    have hnew := @Derived.newAdmission _ now _ _ _ _ _ hd h hload _ hevaluate hallowed hmode htarget hselected hsnapshot
    exact ⟨request, d, hrequest, hevaluate, hallowed, hmode, htarget, hselected,
      (createAdmission_isOk hnone hnew rfl).mpr hroom⟩

/-- The same panel in consensus mode is admitted. -/
theorem runner_admits_iff_consensus : ∃ plan, plan.mode = .consensus ∧
    Admits (panelState .consensus) ⟨2, 2⟩ "w1".toList panelControl (viewOf plan []) panelProviders := by
  obtain ⟨plan, hmode, hstorable, hload, hnone, hmanaged, hroom⟩ := panel_managed (.inr rfl)
  refine ⟨plan, hmode, (runner_admits_iff _ _ _ _ (viewOf plan []) _ hstorable hload hnone hmanaged).mpr
    ⟨?_, ?_, hroom⟩⟩
  · change ModeStands plan
    rw [ModeStands, hmode]
    trivial
  · intro p hp _
    have hall : ∀ p ∈ panelProviders, Text.printable maxAgentKeyBytes (Text.trim p.config.name) = true ∧
        Text.printable maxModelBytes (Text.trim p.config.model) = true ∧ p.capabilities.length ≤ maxCapabilities ∧
        ∀ value ∈ p.capabilities, Text.printable maxCapabilityBytes (capability value) = true := by
      decide
    obtain ⟨hname, hmodel, hcount, hcapabilities⟩ := hall p hp
    exact ⟨hname, hmodel, hcount, hcapabilities⟩

end AgentBridge.Runner
