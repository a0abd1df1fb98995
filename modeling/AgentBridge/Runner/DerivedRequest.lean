import AgentBridge.Policy.Acceptance
import AgentBridge.Runner.Admission
import AgentBridge.Workflow.Cast

/-! The policy request the runner derives from a plan. It asks for the plan's own mode at the
risk the runner gives that mode, and the policy raises the mode when that risk has a higher
floor. -/

namespace AgentBridge.Runner
open Orchestration Policy PolicyAdmission

def Storable (plan : WorkflowPlan) : Prop :=
  ∃ config as workflowId, Orchestration.loadPlan (SubmitWorld.run config as).state workflowId = .ok plan

theorem Storable.facts {plan : WorkflowPlan} (h : Storable plan) :
    Numbered plan.mode plan.assignments ∧ WellCast plan := by
  obtain ⟨config, as, workflowId, hload⟩ := h
  obtain ⟨channel, -, hload⟩ := Except.bind_eq_ok.mp hload
  obtain ⟨rfl, ⟨e, he, hv⟩, hn⟩ := (SubmitWorld.run_sound config as).records.planAt_of_load hload
  exact ⟨hn, (SubmitWorld.run_cast config as).plans _ e plan he hv⟩

def requiresLease (plan : WorkflowPlan) : Bool := plan.fileLease.any FileLeaseRequirement.required

/-- The risk the policy sees in the runner's request for a plan. -/
def planRisk (plan : WorkflowPlan) : TaskRisk :=
  let risk := riskForMode plan.mode
  let risk := if plan.requiredCapabilities.any isSecuritySensitive then risk.max .high else risk
  if requiresLease plan then risk.max .medium else risk

/-- The mode that risk calls for, for data that is not restricted. -/
def planFloor (plan : WorkflowPlan) : WorkflowMode :=
  minimumMode (planRisk plan) .internal (requiresLease plan)

def planBudget (plan : WorkflowPlan) : BudgetLimits :=
  budgetProfile (budgetRisk (planRisk plan) (saferMode plan.mode (planFloor plan)))

/-- The plans whose mode the policy leaves as it is. -/
def ModeStands (plan : WorkflowPlan) : Prop :=
  match plan.mode with
  | .single => plan.requiredCapabilities.any isSecuritySensitive = false ∧ requiresLease plan = false
  | .sequential => plan.requiredCapabilities.any isSecuritySensitive = false
  | .competitive => False
  | .consensus => True

/-- What the policy asks of a configured provider. -/
structure WorkerAcceptable (p : ProviderWorker) : Prop where
  name : Text.printable maxAgentKeyBytes (Text.trim p.config.name) = true
  model : Text.printable maxModelBytes (Text.trim p.config.model) = true
  count : p.capabilities.length ≤ maxCapabilities
  capabilities : ∀ value ∈ p.capabilities, Text.printable maxCapabilityBytes (capability value) = true

def fixedReserve (control : AdmissionControl) (agentKey : Text) : Nat :=
  ((control.pricing agentKey).map ProviderPricing.fixedCallReserveMicroUsd).getD 0

/-- A runner that is set up for a plan: distinct priced providers, valid actors, the plan's
agents among the providers with its capabilities, and a plan within counts and costs whose
metadata asks for nothing special. -/
structure Managed (control : AdmissionControl) (plan : WorkflowPlan) (providers : List ProviderWorker) : Prop where
  distinct : (providers.map fun p => Text.toAsciiLowercase (Text.trim p.config.name)).Nodup
  priced : ∀ p ∈ providers, (control.pricing p.config.name).isSome
  actor : Text.printable maxActorBytes (Text.trim control.actor) = true
  approver : ∃ approver, control.approvedBy = some approver ∧
    Text.printable maxActorBytes (Text.trim approver) = true
  configured : ∀ a ∈ plan.assignments, ∃ p ∈ providers, p.config.name = a.agentKey ∧
    ∀ c ∈ plan.requiredCapabilities, c ∈ p.capabilities.map capability
  sensitivity : ∃ sensitivity, AdmissionControl.metadataField plan.metadata "data_sensitivity"
    DataSensitivity.read .internal = .ok sensitivity ∧ sensitivity ≠ .restricted
  budget : plan.metadata.get "requested_budget".toList = none
  duration : plan.metadata.get "expected_duration_ms".toList = none
  enough : minimumProviderCount plan.mode ≤ plan.assignments.length
  few : plan.assignments.length ≤ (planBudget plan).maxProviders
  affordable : (plan.assignments.map fun a => fixedReserve control a.agentKey).sum ≤
    (planBudget plan).maxCostMicroUsd

section Mode
variable {plan : WorkflowPlan}

theorem planRisk_of_stands (h : ModeStands plan) : planRisk plan = riskForMode plan.mode := by
  unfold ModeStands at h
  unfold planRisk
  cases hmode : plan.mode with
  | single =>
    rw [hmode] at h
    simp [h.1, h.2]
  | sequential =>
    rw [hmode] at h
    cases hl : requiresLease plan with
    | true => simp [show plan.requiredCapabilities.any isSecuritySensitive = false from h, riskForMode, TaskRisk.max]
    | false => simp [show plan.requiredCapabilities.any isSecuritySensitive = false from h]
  | competitive =>
    rw [hmode] at h
    exact h.elim
  | consensus =>
    cases plan.requiredCapabilities.any isSecuritySensitive <;> cases requiresLease plan <;> rfl

theorem modeStands_iff : ModeStands plan ↔ modeRank (planFloor plan) ≤ modeRank plan.mode := by
  unfold ModeStands planFloor planRisk
  cases plan.mode <;> cases plan.requiredCapabilities.any isSecuritySensitive <;> cases requiresLease plan <;>
    simp [riskForMode, TaskRisk.max, TaskRisk.rank, minimumMode, modeRank]

end Mode

section Candidates
variable {control : AdmissionControl} {planned : KeySet Text} {providers : List ProviderWorker}
  {candidates : List ProviderCandidate}

theorem candidates_isOk (h : ∀ p ∈ providers, (control.pricing p.config.name).isSome) :
    ∃ candidates, control.candidates planned providers = .ok candidates := by
  induction providers with
  | nil => exact ⟨[], rfl⟩
  | cons p providers ih =>
    obtain ⟨hp, hrest⟩ := List.forall_mem_cons.mp h
    obtain ⟨rest, hcandidates⟩ := ih hrest
    obtain ⟨pricing, hpricing⟩ := Option.isSome_iff_exists.mp hp
    rw [AdmissionControl.candidates]
    by_cases hplanned : p.config.name ∉ planned
    · rw [if_pos hplanned]
      exact ⟨rest, hcandidates⟩
    · rw [if_neg hplanned, hpricing]
      exact ⟨_, Except.bind_eq_ok.mpr ⟨rest, hcandidates, rfl⟩⟩

theorem candidates_eq (h : control.candidates planned providers = .ok candidates) :
    candidates.map ProviderCandidate.agentKey =
      (providers.map fun p => p.config.name).filter (· ∈ planned) ∧
    ∀ c, c ∈ candidates ↔ ∃ p ∈ providers, p.config.name ∈ planned ∧
      ∃ pricing, control.pricing p.config.name = some pricing ∧ candidateOf p pricing = c := by
  -- a provider outside the plan adds nothing, one inside needs a price
  induction providers generalizing candidates with
  | nil =>
    cases h
    simp
  | cons p providers ih =>
    rw [AdmissionControl.candidates] at h
    by_cases hplanned : p.config.name ∈ planned
    · rw [if_neg (not_not.mpr hplanned)] at h
      cases hpricing : control.pricing p.config.name with
      | none =>
        rw [hpricing] at h
        cases h
      | some pricing =>
        rw [hpricing] at h
        obtain ⟨rest, hrest, h⟩ := Except.bind_eq_ok.mp h
        cases h
        obtain ⟨hkeys, hmem⟩ := ih hrest
        constructor
        · rw [List.map_cons, hkeys, List.map_cons]
          exact (List.filter_cons_of_pos (p := fun x => decide (x ∈ planned)) (decide_eq_true hplanned)).symm
        · intro c
          rw [List.mem_cons, hmem]
          simp only [List.mem_cons, exists_eq_or_imp, hplanned, hpricing, Option.some.injEq, exists_eq_left',
            true_and]
          rw [@eq_comm _ c]
    · rw [if_pos hplanned] at h
      obtain ⟨hkeys, hmem⟩ := ih h
      constructor
      · rw [hkeys, List.map_cons]
        exact (List.filter_cons_of_neg (p := fun x => decide (x ∈ planned)) (by simpa using hplanned)).symm
      · intro c
        rw [hmem]
        simp only [List.mem_cons, exists_eq_or_imp, hplanned, false_and, false_or]

end Candidates

structure Derived (control : AdmissionControl) (plan : WorkflowPlan) (providers : List ProviderWorker)
    (request : PolicyRequest) : Prop where
  risk : request.taskRisk = riskForMode plan.mode
  unrestricted : request.dataSensitivity ≠ .restricted
  mode : request.requestedMode = some plan.mode
  protocol : request.requestedProtocol = none
  degradation : request.requestedDegradation = none
  keys : request.requiredAgentKeys = assignedKeys plan.assignments
  reviewer : request.requiredReviewerAgentKey =
    (plan.assignments.find? fun a => a.role = .reviewer).map WorkflowAssignment.agentKey
  capabilities : request.requiredCapabilities = plan.requiredCapabilities
  write : request.requiresRepositoryWrite = requiresLease plan
  duration : request.expectedDurationMs = 0
  budget : request.requestedBudget = {}
  candidateKeys : (request.providers.map ProviderCandidate.agentKey).Perm (assignedKeys plan.assignments)
  candidates : ∀ c, c ∈ request.providers ↔ ∃ p ∈ providers, p.config.name ∈ assignedKeys plan.assignments ∧
    ∃ pricing, control.pricing p.config.name = some pricing ∧ candidateOf p pricing = c

section Request
variable {control : AdmissionControl} {plan : WorkflowPlan} {providers : List ProviderWorker}
  {workflow : WorkflowView} {request : PolicyRequest}

theorem mem_plannedAgents {key : Text} : key ∈ plannedAgents plan ↔ key ∈ assignedKeys plan.assignments :=
  KeySet.mem_ofList

theorem Managed.names_nodup (h : Managed control plan providers) :
    (providers.map fun p => p.config.name).Nodup := by
  refine List.Nodup.of_map (fun name => Text.toAsciiLowercase (Text.trim name)) ?_
  rw [List.map_map]
  exact h.distinct

theorem Managed.planned_perm (h : Managed control plan providers) (hcast : Cast plan.mode plan.assignments) :
    ((providers.map fun p => p.config.name).filter (· ∈ plannedAgents plan)).Perm
      (assignedKeys plan.assignments) := by
  rw [List.perm_ext_iff_of_nodup (h.names_nodup.filter _) hcast.keys]
  intro key
  rw [List.mem_filter, decide_eq_true_eq, mem_plannedAgents]
  refine and_iff_right_of_imp ?_
  intro hkey
  obtain ⟨a, ha, rfl⟩ := List.mem_map.mp hkey
  obtain ⟨p, hp, hname, -⟩ := h.configured a ha
  exact List.mem_map.mpr ⟨p, hp, hname⟩

theorem metadataField_none {α : Type} {metadata : Json} {field : String} {read : Json → Option α} {default : α}
    (h : metadata.get field.toList = none) :
    AdmissionControl.metadataField metadata field read default = .ok default := by
  rw [AdmissionControl.metadataField, h]

theorem Managed.derives (h : Managed control plan providers) (hcast : Cast plan.mode plan.assignments)
    (hplan : workflow.plan = plan) :
    ∃ request, control.policyRequest workflow providers = .ok request ∧ Derived control plan providers request := by
  subst hplan
  obtain ⟨candidates, hcandidates⟩ := @candidates_isOk _ (plannedAgents workflow.plan) _ h.priced
  obtain ⟨hkeys, hmem⟩ := candidates_eq hcandidates
  have hperm : (candidates.map ProviderCandidate.agentKey).Perm (assignedKeys workflow.plan.assignments) :=
    hkeys ▸ h.planned_perm hcast
  have hsize : ¬ candidates.length ≠ (plannedAgents workflow.plan).size := by
    have hplanned : (plannedAgents workflow.plan).keys.Perm (assignedKeys workflow.plan.assignments) :=
      (List.perm_ext_iff_of_nodup (KeySet.nodup _) hcast.keys).mpr fun key => mem_plannedAgents
    rw [not_not, KeySet.size, hplanned.length_eq, ← hperm.length_eq, List.length_map]
  obtain ⟨sensitivity, hsensitivity, hunrestricted⟩ := h.sensitivity
  have hduration : ((workflow.plan.metadata.get "expected_duration_ms".toList).bind Json.asU64).getD 0 = 0 := by
    rw [h.duration]
    rfl
  unfold AdmissionControl.policyRequest
  dsimp only [bind, Except.bind]
  rw [hcandidates]
  dsimp only
  rw [if_neg hsize, metadataField_none h.budget, hsensitivity]
  refine ⟨_, rfl, ?_⟩
  exact {
    risk := rfl
    unrestricted := hunrestricted
    mode := rfl
    protocol := rfl
    degradation := rfl
    keys := rfl
    reviewer := rfl
    capabilities := rfl
    write := rfl
    duration := hduration
    budget := rfl
    candidateKeys := hperm
    candidates := by simpa only [mem_plannedAgents] using hmem }

theorem acceptable_candidateOf {p : ProviderWorker} {pricing : ProviderPricing} :
    ProviderAcceptable (candidateOf p pricing) ↔ WorkerAcceptable p := by
  constructor
  · rintro ⟨hkey, hmodel, -, -, -, hcount, hcapabilities⟩
    exact ⟨hkey, hmodel, hcount, hcapabilities⟩
  · rintro ⟨hname, hmodel, hcount, hcapabilities⟩
    exact ⟨hname, hmodel, le_rfl, le_rfl, Nat.zero_le _, hcount, hcapabilities⟩

theorem Managed.advertises (h : Managed control plan providers) {p : ProviderWorker} (hp : p ∈ providers)
    (hplanned : p.config.name ∈ assignedKeys plan.assignments) :
    ∀ c ∈ plan.requiredCapabilities, c ∈ p.capabilities.map capability := by
  obtain ⟨a, ha, hkey⟩ := List.mem_map.mp hplanned
  obtain ⟨q, hq, hname, hadvertised⟩ := h.configured a ha
  have hsame : q = p := List.inj_on_of_nodup_map h.names_nodup hq hp (hname.trans hkey)
  exact hsame ▸ hadvertised

theorem budgetProfile_maxProviders_le (risk : TaskRisk) : (budgetProfile risk).maxProviders ≤ 4 := by
  cases risk <;> decide

theorem one_le_minimumProviderCount (mode : WorkflowMode) : 1 ≤ minimumProviderCount mode := by
  cases mode <;> decide

theorem Derived.full (hd : Derived control plan providers request) (h : Managed control plan providers)
    (hwell : WellCast plan)
    (haccept : ∀ p ∈ providers, p.config.name ∈ assignedKeys plan.assignments → WorkerAcceptable p) :
    FullRequest request := by
  have htrim : (assignedKeys plan.assignments).map Text.trim = assignedKeys plan.assignments := by
    refine (List.map_congr_left fun key hkey => ?_).trans (List.map_id _)
    obtain ⟨a, ha, rfl⟩ := List.mem_map.mp hkey
    exact hwell.cast.trimmed a ha
  -- the candidates are the workers of the plan, each once
  have hperm : (request.providers.map trimmedKey).Perm (assignedKeys plan.assignments) := by
    rw [← htrim]
    have hmap := hd.candidateKeys.map Text.trim
    rwa [List.map_map] at hmap
  have hlen : (assignedKeys plan.assignments).length = plan.assignments.length := List.length_map _
  have hne : request.providers ≠ [] := by
    intro hnil
    have hzero := hperm.length_eq
    rw [hnil, hlen] at hzero
    have hone := (one_le_minimumProviderCount plan.mode).trans h.enough
    simp at hzero
    omega
  have hworker : ∀ c ∈ request.providers, ∃ p ∈ providers, p.config.name ∈ assignedKeys plan.assignments ∧
      ∃ pricing, candidateOf p pricing = c := by
    intro c hc
    obtain ⟨p, hp, hplanned, pricing, -, hcand⟩ := (hd.candidates c).mp hc
    exact ⟨p, hp, hplanned, pricing, hcand⟩
  exact {
    nonempty := hne
    few := by
      rw [hd.keys, hlen]
      exact (h.few.trans (budgetProfile_maxProviders_le _)).trans (by decide)
    keys := by
      rw [hd.keys, htrim]
      exact hwell.cast.keys
    same := by
      intro key
      rw [hd.keys, ← List.mem_map, htrim, ← hperm.mem_iff, List.mem_map]
    distinct := hperm.nodup_iff.mpr hwell.cast.keys
    acceptable := by
      intro c hc
      obtain ⟨p, hp, hplanned, pricing, rfl⟩ := hworker c hc
      exact acceptable_candidateOf.mpr (haccept p hp hplanned)
    available := by
      intro c hc
      obtain ⟨p, hp, hplanned, pricing, rfl⟩ := hworker c hc
      exact ⟨rfl, rfl⟩
    reviewer := by
      intro key hkey
      rw [hd.reviewer] at hkey
      obtain ⟨a, ha, rfl⟩ := Option.mem_map.mp hkey
      rw [hd.keys]
      exact List.mem_map_of_mem (List.mem_of_find?_eq_some ha)
    unrestricted := hd.unrestricted
    capabilities := by
      obtain ⟨c, hc⟩ := List.exists_mem_of_ne_nil _ hne
      obtain ⟨p, hp, hplanned, pricing, -⟩ := hworker c hc
      have hsub := hwell.capabilities.subperm (h.advertises hp hplanned)
      rw [hd.capabilities]
      refine hsub.length_le.trans ?_
      rw [List.length_map]
      exact (haccept p hp hplanned).count
    capable := by
      intro c hc candidate hcandidate
      obtain ⟨p, hp, hplanned, pricing, rfl⟩ := hworker candidate hcandidate
      rw [hd.capabilities] at hc
      obtain ⟨value, hvalue, heq⟩ := List.mem_map.mp (h.advertises hp hplanned c hc)
      exact ⟨value, hvalue, heq.trans (hwell.normalized c hc).symm⟩ }

theorem Derived.acceptable (hd : Derived control plan providers request) (hvalid : validateRequest request = .ok ())
    (hpriced : ∀ p ∈ providers, (control.pricing p.config.name).isSome) {p : ProviderWorker} (hp : p ∈ providers)
    (hplanned : p.config.name ∈ assignedKeys plan.assignments) : WorkerAcceptable p := by
  obtain ⟨pricing, hpricing⟩ := Option.isSome_iff_exists.mp (hpriced p hp)
  have hmem := (hd.candidates _).mpr ⟨p, hp, hplanned, pricing, hpricing, rfl⟩
  exact acceptable_candidateOf.mp (acceptable_of_validateRequest hvalid _ hmem)

theorem Derived.effectiveRisk (hd : Derived control plan providers request) (hwell : WellCast plan) {caps : KeySet Text}
    (hcaps : Policy.normalizeCapabilities request.requiredCapabilities = .ok caps) :
    Policy.effectiveRisk request caps = planRisk plan := by
  have hany : caps.keys.any isSecuritySensitive = plan.requiredCapabilities.any isSecuritySensitive := by
    rw [Bool.eq_iff_iff, List.any_eq_true, List.any_eq_true]
    refine exists_congr fun c => and_congr_left fun _ => ?_
    refine (mem_normalizeCapabilities hcaps).trans ?_
    rw [hd.capabilities]
    constructor
    · rintro ⟨value, hvalue, rfl⟩
      rwa [show capability value = value from hwell.normalized value hvalue]
    · intro hc
      exact ⟨c, hc, hwell.normalized c hc⟩
  unfold Policy.effectiveRisk planRisk
  rw [hany, hd.risk, hd.write, if_neg hd.unrestricted]

end Request

section Standing
variable {control : AdmissionControl} {plan : WorkflowPlan} {providers : List ProviderWorker}
  {request : PolicyRequest} {reviewer : Option Text}

theorem saferMode_of_le {a b : WorkflowMode} (h : modeRank a ≤ modeRank b) : saferMode a b = b := by
  cases a <;> cases b <;> first | rfl | exact absurd h (by decide)

theorem saferMode_single (mode : WorkflowMode) : saferMode mode .single = mode := by
  cases mode <;> rfl

theorem clampBudget_default (risk : TaskRisk) : clampBudget {} (budgetProfile risk) = budgetProfile risk := by
  cases risk <;> rfl

theorem minimumMode_unrestricted {risk : TaskRisk} {sensitivity : DataSensitivity} {write : Bool}
    (h : sensitivity ≠ .restricted) : minimumMode risk sensitivity write = minimumMode risk .internal write := by
  simp [minimumMode, h]

theorem defaultDegradation_unrestricted {risk : TaskRisk} {sensitivity : DataSensitivity} {write : Bool}
    (h : sensitivity ≠ .restricted) :
    defaultDegradationBehavior risk sensitivity write = defaultDegradationBehavior risk .internal write := by
  simp [defaultDegradationBehavior, h]

theorem Derived.baseRequiredMode (hd : Derived control plan providers request) :
    Policy.baseRequiredMode request (planRisk plan) = planFloor plan := by
  rw [Policy.baseRequiredMode, minimumMode_unrestricted hd.unrestricted, hd.write]
  rfl

theorem Derived.defaultRequestedMode (hd : Derived control plan providers request) (risk : TaskRisk) :
    Policy.defaultRequestedMode request risk = plan.mode := by
  rw [Policy.defaultRequestedMode, hd.mode]
  rfl

theorem Derived.requestedProtocol (hd : Derived control plan providers request) (risk : TaskRisk) :
    Policy.requestedProtocol request risk = defaultProtocol plan.mode := by
  rw [Policy.requestedProtocol, hd.protocol, hd.defaultRequestedMode]
  rfl

theorem Derived.reviewer_isSome (hd : Derived control plan providers request)
    (hn : Numbered plan.mode plan.assignments) :
    (request.requiredReviewerAgentKey.map Text.trim).isSome = decide (plan.mode = .consensus) := by
  rw [hd.reviewer, Option.isSome_map, Option.isSome_map, Bool.eq_iff_iff, decide_eq_true_eq, List.find?_isSome]
  constructor
  · rintro ⟨a, ha, hrole⟩
    by_contra hmode
    rw [hn.workers hmode a ha] at hrole
    exact absurd hrole (by decide)
  · intro hmode
    obtain ⟨r, hr, hrole, -⟩ := hn.reviewer hmode
    exact ⟨r, hr, decide_eq_true hrole⟩

theorem Derived.requiredMode (hd : Derived control plan providers request) (hstands : ModeStands plan)
    (hreviewer : reviewer.isSome = decide (plan.mode = .consensus)) :
    Policy.requiredMode request (planRisk plan) reviewer = plan.mode := by
  have hprotocol : protocolRequiredMode (defaultProtocol plan.mode) = plan.mode := by cases plan.mode <;> rfl
  rw [Policy.requiredMode, hd.baseRequiredMode, hd.requestedProtocol, hprotocol,
    saferMode_of_le (modeStands_iff.mp hstands), hreviewer]
  by_cases hmode : plan.mode = .consensus
  · rw [hmode]
    rfl
  · rw [if_neg (by simpa using hmode), saferMode_single]

theorem Derived.raisedMode (hd : Derived control plan providers request) (hstands : ModeStands plan)
    (hreviewer : reviewer.isSome = decide (plan.mode = .consensus)) :
    Policy.raisedMode request (planRisk plan) reviewer = plan.mode := by
  rw [Policy.raisedMode, hd.defaultRequestedMode, hd.requiredMode hstands hreviewer]
  exact saferMode_of_le le_rfl

theorem Derived.raisedProtocol (hd : Derived control plan providers request) (hstands : ModeStands plan)
    (hreviewer : reviewer.isSome = decide (plan.mode = .consensus)) :
    Policy.raisedProtocol request (planRisk plan) reviewer = defaultProtocol plan.mode := by
  rw [Policy.raisedProtocol, hd.raisedMode hstands hreviewer, hd.requestedProtocol]
  unfold selectedProtocol
  exact ite_self _

theorem executionTarget_default (mode : WorkflowMode) :
    executionTarget (defaultProtocol mode) = .standardWorkflow := by
  cases mode <;> rfl

theorem planBudget_of_stands (hstands : ModeStands plan) :
    planBudget plan = budgetProfile (budgetRisk (planRisk plan) plan.mode) := by
  rw [planBudget, saferMode, if_pos (modeStands_iff.mp hstands)]

theorem budgetRisk_riskForMode (mode : WorkflowMode) : budgetRisk (riskForMode mode) mode = riskForMode mode := by
  cases mode <;> rfl

end Standing

end AgentBridge.Runner
