import AgentBridge.Admission.Preview

/-! Whether the human approval that a preview asks for is asked for again at admission.
Approval for the risk of the work is. Approval for falling back to a single provider
depends on the shortage, and the request that admission evaluates names the single mode
and need not be short of anything. -/

namespace AgentBridge.Policy

section Fallback
variable {request : PolicyRequest} {caps : KeySet Text} {i : Intake} {c : Course}

theorem resolveShortage_fallback (h : i.resolveShortage request i.course = .ok c)
    (hb : i.degradationBehavior = .fallbackToSingleWithHumanApproval) :
    c.mode = .single ∧ c.protocol = .direct ∧ c.target = .standardWorkflow ∧ c.requireHumanApproval = true ∧
      0 < i.maxSelectable := by
  unfold Intake.resolveShortage at h
  dsimp only at h
  rw [hb] at h
  dsimp only at h
  split_ifs at h with hsome
  cases h
  exact ⟨rfl, rfl, rfl, rfl, Nat.pos_of_ne_zero hsome⟩

theorem fallback_of_approval (h : i.settle request i.course = .ok c) (happroval : c.requireHumanApproval = true)
    (hrisk : i.requireHumanApproval = false) : i.Degraded c ∧
      i.degradationBehavior = .fallbackToSingleWithHumanApproval ∧ c.mode = .single ∧ 0 < i.maxSelectable := by
  obtain ⟨-, hc⟩ := settle_eq_ok h
  have hplain : c ≠ i.course := by
    rintro rfl
    rw [show i.course.requireHumanApproval = i.requireHumanApproval from rfl, hrisk] at happroval
    cases happroval
  have hdegraded : i.Degraded c := hc.resolve_left hplain
  have hb : i.degradationBehavior = .fallbackToSingleWithHumanApproval := by
    rcases hdegraded.behavior with ⟨hb, -⟩ | ⟨-, hsame⟩
    · exact hb
    · rw [hsame, hrisk] at happroval
      cases happroval
  obtain ⟨c', hc', hend⟩ := Except.bind_eq_ok.mp h
  obtain ⟨-, hend⟩ := Except.check_eq_ok.mp hend
  cases hend
  unfold Intake.afterShortage at hc'
  split_ifs at hc' with hshort
  · obtain ⟨hmode, -, -, -, hsome⟩ := resolveShortage_fallback hc' hb
    exact ⟨hdegraded, hb, hmode, hsome⟩
  · cases hc'
    exact absurd rfl hplain

theorem reduced_single (hb : i.degradationBehavior = .fallbackToSingleWithHumanApproval)
    (hrequired : i.requiredSelection.keys = []) (hreviewer : i.requiredReviewerAgentKey = none)
    (hmode : c.mode = .single) {p : ProviderCandidate} {rest : List ProviderCandidate}
    (heligible : i.eligible = p :: rest) (hsome : 0 < i.maxSelectable) : i.reduced c = [p] := by
  have hsize : i.requiredSelection.size = 0 := by rw [KeySet.size, hrequired]; rfl
  have hdesired : i.desired c.mode = 1 := by
    rw [Intake.desired, hsize, hmode, desiredProviderCount]
    omega
  have hfree : trimmedKey p ∉ i.requiredSelection := by
    intro hkey
    have hkey : trimmedKey p ∈ i.requiredSelection.keys := hkey
    rw [hrequired] at hkey
    cases hkey
  unfold Intake.reduced
  dsimp only
  rw [if_neg (by rw [hb]; decide), Intake.pick, hreviewer, hdesired, heligible, pickProviders, hrequired]
  change fillOptional i.requiredSelection 1 [] (p :: rest) = [p]
  rw [fillOptional, if_neg (by simp), if_neg hfree]
  cases rest with
  | nil => rfl
  | cons q rest => exact if_pos le_rfl

/-- How the request for a single provider is read when its preview fell back to one. -/
structure Intake.Alone (request : PolicyRequest) (risk : TaskRisk) (p : ProviderCandidate) (i : Intake) : Prop where
  eligible : i.eligible = [p]
  required : i.requiredSelection.keys = []
  reviewer : i.requiredReviewerAgentKey = none
  present : i.missingRequiredAgentKeys = []
  mode : i.mode = protocolRequiredMode (request.requestedProtocol.getD .direct)
  protocol : i.protocol = request.requestedProtocol.getD .direct
  behavior : i.degradationBehavior = .fallbackToSingleWithHumanApproval
  requireHumanApproval : i.requireHumanApproval = false
  budget : i.budget = clampBudget request.requestedBudget (budgetProfile (budgetRisk risk i.mode))

theorem selectedProtocol_required (q : CoordinationProtocol) :
    selectedProtocol (protocolRequiredMode q) q = q := if_neg (lt_irrefl _)

theorem exists_alone (hi : intake request = .ok i) (hreads : i.Reads request caps) (hdegraded : i.Degraded c)
    (hb : i.degradationBehavior = .fallbackToSingleWithHumanApproval)
    (hrisk : requiresHumanApproval request (effectiveRisk request caps) = false) {p : ProviderCandidate}
    (hp : p ∈ i.eligible) : ∃ i', intake (restricted request .single [p]) = .ok i' ∧
      i'.Alone request (effectiveRisk request caps) p := by
  have hlenient := lenient_of_degraded hdegraded hreads
  have hnone : ∀ key, key ∉ i.requiredSelection := by
    intro key hkey
    have hkey : key ∈ i.requiredSelection.keys := hkey
    rw [hlenient.unrequired] at hkey
    cases hkey
  have hreviewer : i.requiredReviewerAgentKey = none := by
    cases hr : i.requiredReviewerAgentKey with
    | none => rfl
    | some key => exact absurd ((hreads.required key).mpr (.inr hr)) (hnone key)
  obtain ⟨caps', eligible, excluded, he, hi'⟩ := @intake_restricted _ _ .single [p] hi (by simp)
    (List.singleton_subperm_iff.mpr hp) fun key hkey => absurd hkey (hnone key)
  obtain ⟨_, _, he'⟩ := hreads.fields
  have hsame : effectiveRisk request caps' = effectiveRisk request caps :=
    (congrArg Intake.effectiveRisk he).symm.trans (congrArg Intake.effectiveRisk he')
  rw [hsame] at hi'
  rw [hreviewer] at hi' he'
  -- the fallback asks again for one provider alone, and only the protocol can raise its mode
  set risk := effectiveRisk request caps with hriskdef
  set r' := restricted request .single [p] with hr'
  set q := request.requestedProtocol.getD .direct with hq
  have hbase : baseRequiredMode r' risk = .single := by
    change minimumMode risk request.dataSensitivity request.requiresRepositoryWrite = .single
    rcases hlenient.risk with hr | hr <;> simp [minimumMode, hr, hlenient.sensitivity, hlenient.write, TaskRisk.rank]
  have hprotocol : requestedProtocol r' risk = q := rfl
  have hrequired : requiredMode r' risk none = protocolRequiredMode q := by
    rw [requiredMode, hbase, hprotocol]
    cases protocolRequiredMode q <;> rfl
  have hmode : raisedMode r' risk none = protocolRequiredMode q := by
    rw [raisedMode, hrequired]
    change saferMode .single _ = _
    cases protocolRequiredMode q <;> rfl
  have hraised : raisedProtocol r' risk none = q := by
    rw [raisedProtocol, hmode, hprotocol]
    exact selectedProtocol_required q
  have hstandard : executionTarget q = .standardWorkflow := by
    cases hp' : request.requestedProtocol with
    | none => rw [hq, hp']; rfl
    | some q' =>
      have hstd := hlenient.standard
      rw [he'] at hstd
      have := executionTarget_requested hp' hstd
      rw [hq, hp']
      exact this
  refine ⟨_, hi', rfl, hlenient.unrequired, rfl, ?_, hmode, hraised, ?_, hrisk, ?_⟩
  · exact KeySet.difference_eq_nil.mpr fun key hkey => absurd hkey (hnone key)
  · -- neither the default nor the required selection changed, and both targets are the standard one
    have hbehavior := congrArg Intake.degradationBehavior he'
    have htarget : executionTarget (raisedProtocol request risk none) = .standardWorkflow :=
      (congrArg (executionTarget ·.protocol) he').symm.trans hlenient.standard
    rw [hb] at hbehavior
    rw [hbehavior]
    change degradationBehavior r' risk none i.requiredSelection = degradationBehavior request risk none _
    unfold degradationBehavior
    rw [hraised, hstandard, htarget]
    rfl
  · change clampBudget _ (budgetProfile (budgetRisk risk (requiredMode r' risk none))) =
      clampBudget _ (budgetProfile (budgetRisk risk (raisedMode r' risk none)))
    rw [hrequired, hmode]
    rfl

theorem Intake.Alone.approval {risk : TaskRisk} {p : ProviderCandidate} {r' : PolicyRequest}
    (h : i.Alone request risk p) (hq : request.requestedProtocol.getD .direct ≠ .direct)
    (hallowed : (i.decision r').allowed = true) : (i.decision r').requireHumanApproval = true := by
  obtain ⟨c, hal⟩ := decision_allows hallowed
  have hmany : 2 ≤ minimumProviderCount i.mode := by
    rw [h.mode]
    revert hq
    cases request.requestedProtocol.getD .direct <;> decide
  have hone : i.desired i.mode ≤ 1 := by
    rw [Intake.desired, Intake.maxSelectable, h.eligible]
    exact (min_le_right _ _).trans (min_le_right _ _)
  have hshort : i.desired i.course.mode < i.minimum i.course.mode :=
    Nat.lt_of_lt_of_le (Nat.lt_of_le_of_lt hone hmany) (le_max_left _ _)
  have happroval : c.requireHumanApproval = true := by
    obtain ⟨c', hc', hend⟩ := Except.bind_eq_ok.mp hal.settled
    obtain ⟨-, hend⟩ := Except.check_eq_ok.mp hend
    cases hend
    unfold Intake.afterShortage at hc'
    rw [if_pos hshort] at hc'
    exact (resolveShortage_fallback hc' h.behavior).2.2.2.1
  rw [hal.decision]
  exact happroval

/-- A single provider is admissible on its own: within the ceilings of the single mode. -/
structure SingleFits (request : PolicyRequest) (risk : TaskRisk) (p : ProviderCandidate) : Prop where
  cost : p.estimatedCostMicroUsd ≤ (clampBudget request.requestedBudget (budgetProfile risk)).maxCostMicroUsd
  duration : 0 < request.expectedDurationMs →
    request.expectedDurationMs ≤ (clampBudget request.requestedBudget (budgetProfile risk)).maxWallClockMs

theorem totalEstimatedCost_singleton_le {p : ProviderCandidate} {ceiling : Nat} (h : ceiling < u64Max) :
    totalEstimatedCost [p] ≤ ceiling ↔ p.estimatedCostMicroUsd ≤ ceiling := by
  rw [totalEstimatedCost_eq_min, List.map_singleton, List.sum_singleton]
  omega

theorem Intake.Alone.decision {risk : TaskRisk} {p : ProviderCandidate} {r' : PolicyRequest}
    (h : i.Alone request risk p) (hduration : r'.expectedDurationMs = request.expectedDurationMs)
    (hq : request.requestedProtocol.getD .direct = .direct) :
    ((i.decision r').allowed = true ↔ SingleFits request risk p) ∧
    (SingleFits request risk p → i.decision r' = i.allow r' i.course [p]) := by
  have hmode : i.mode = .single := by rw [h.mode, hq]; rfl
  have hsize : i.requiredSelection.size = 0 := by rw [KeySet.size, h.required]; rfl
  have hpositive : 1 ≤ i.budget.maxProviders := by
    rw [h.budget]
    exact (clampBudget_clamped _ _).maxProviders.positive
  have hsome : i.maxSelectable = 1 := by
    rw [Intake.maxSelectable, h.eligible, List.length_singleton]
    omega
  have hminimum : i.minimum i.mode = 1 := by
    rw [Intake.minimum, hmode, hsize]
    rfl
  have hdesired : i.desired i.mode = 1 := by
    rw [Intake.desired, hsize, hmode, desiredProviderCount, hsome]
    rfl
  have hreduced : i.reduced i.course = [p] :=
    reduced_single h.behavior h.required h.reviewer hmode h.eligible (by omega)
  have hbudget : i.budget = clampBudget request.requestedBudget (budgetProfile risk) := by
    rw [h.budget, hmode, budgetRisk]
  have hdecision : i.decision r' = i.conclude r' i.course :=
    decision_eq_conclude h.present (by rw [hminimum, hdesired])
  have hceiling : i.budget.maxCostMicroUsd < u64Max := by
    rw [h.budget]
    exact ((clampBudget_clamped _ _).maxCostMicroUsd.absolute).trans_lt (by decide)
  have hallowed : (i.decision r').allowed = true ↔ SingleFits request risk p := by
    rw [hdecision, conclude_allowed, hreduced, hduration]
    change i.minimum i.mode ≤ 1 ∧ _ ↔ _
    rw [hminimum, totalEstimatedCost_singleton_le hceiling, hbudget]
    exact ⟨fun hfits => ⟨hfits.2.1, hfits.2.2⟩, fun hfits => ⟨le_rfl, hfits.cost, hfits.duration⟩⟩
  refine ⟨hallowed, fun hfits => ?_⟩
  have hpick : i.pick i.course = [p] := by
    have hkeep : i.reduced i.course = i.pick i.course := if_neg (by rw [h.behavior]; decide)
    rw [← hkeep, hreduced]
  have hnote : i.noteReduction i.course = i.course := by
    unfold Intake.noteReduction
    rw [hreduced, hpick, if_neg (lt_irrefl _)]
  rcases conclude_cases i r' i.course with hr | ⟨-, -, hd⟩
  · rw [← hdecision, Refusal, hallowed.mpr hfits] at hr
    exact absurd hr.1 (by decide)
  · rw [hdecision, hd, hnote, hreduced]

end Fallback

/-- The candidate that a ranking of the eligible ones puts first. -/
structure TopRanked (request : PolicyRequest) (p : ProviderCandidate) : Prop where
  offered : p ∈ request.providers
  eligible : Eligible request p
  first : ∀ q ∈ request.providers, Eligible request q → Ranked p q

/-- When approval is asked for again once the mode of a preview that asked for it is requested:
the work itself needs it, the requested protocol is one for several providers, or the first
in the ranking is not admitted alone, with approval or without. -/
def AsksAgain (request : PolicyRequest) : Prop :=
  ∃ caps, normalizeCapabilities request.requiredCapabilities = .ok caps ∧
    (requiresHumanApproval request (effectiveRisk request caps) = true ∨
      request.requestedProtocol.getD .direct ≠ .direct ∨
      ∀ p, TopRanked request p →
        p.agentKey ≠ Text.trim p.agentKey ∨ ¬ SingleFits request (effectiveRisk request caps) p)

section Top
variable {request : PolicyRequest} {caps : KeySet Text} {i : Intake}

theorem mem_eligible_of_offered (hi : intake request = .ok i) {p : ProviderCandidate}
    (hp : p ∈ request.providers) (he : Eligible request p) : p ∈ i.eligible := by
  unfold intake at hi
  simp only [Except.bind_eq_ok] at hi
  obtain ⟨⟨⟩, -, caps, hcaps, keys, -, reviewer, -, ⟨eligible, excluded⟩, hpart, hi⟩ := hi
  cases hi
  refine (List.perm_insertionSort _ _).mem_iff.mpr ?_
  have hkeep : ∀ {providers eligible : List ProviderCandidate} {excluded : List ProviderExclusion},
      partitionProviders caps request.dataSensitivity providers = .ok (eligible, excluded) →
      p ∈ providers → p ∈ eligible := by
    intro providers
    -- the partition keeps a provider on the side on which it puts it
    induction providers with
    | nil => exact fun _ hp => absurd hp List.not_mem_nil
    | cons q providers ih =>
      intro eligible excluded h hp
      obtain ⟨reason, hreason, h⟩ := Except.bind_eq_ok.mp h
      obtain ⟨⟨el, ex⟩, hrest, h⟩ := Except.bind_eq_ok.mp h
      rcases List.mem_cons.mp hp with rfl | hp
      · rw [exclusionReason_of_eligible hcaps he] at hreason
        cases hreason
        cases h
        exact List.mem_cons_self
      · cases reason with
        | some r =>
          cases h
          exact ih hrest hp
        | none =>
          cases h
          exact List.mem_cons_of_mem _ (ih hrest hp)
  exact hkeep hpart hp

theorem topRanked_iff (hi : intake request = .ok i) (hreads : i.Reads request caps) {p : ProviderCandidate}
    {rest : List ProviderCandidate} (heligible : i.eligible = p :: rest) (q : ProviderCandidate) :
    TopRanked request q ↔ q = p := by
  have hranked : (p :: rest).Pairwise Ranked := by
    rw [← heligible]
    obtain ⟨eligible, _, he⟩ := hreads.fields
    rw [he]
    exact pairwise_rankProviders eligible
  have hfirst : ∀ q ∈ request.providers, Eligible request q → Ranked p q := by
    intro q hq he
    have hmem := mem_eligible_of_offered hi hq he
    rw [heligible] at hmem
    rcases List.mem_cons.mp hmem with rfl | hmem
    · exact (Std.Total.total (r := Ranked) q q).elim id id
    · exact (List.pairwise_cons.mp hranked).1 q hmem
  obtain ⟨hp, hpe⟩ := hreads.eligible p (heligible ▸ List.mem_cons_self)
  constructor
  · intro hq
    have hkey : trimmedKey q = trimmedKey p :=
      congrArg Text.trim (agentKey_eq_of_ranked (hq.first p hp hpe) (hfirst q hq.offered hq.eligible))
    exact List.inj_on_of_nodup_map hreads.distinct (mem_eligible_of_offered hi hq.offered hq.eligible)
      (mem_eligible_of_offered hi hp hpe) hkey
  · rintro rfl
    exact ⟨hp, hpe, hfirst⟩

end Top
end AgentBridge.Policy

namespace AgentBridge.PolicyAdmission
open State Policy

/-- `plan` is one for the decision: its mode, and its providers in their roles. -/
structure Realises (plan : WorkflowPlan) (d : PolicyDecision) : Prop where
  mode : plan.mode = d.mode
  assignments : plan.assignments.map (fun a => (a.agentKey, providerRole a.role)) =
    d.selectedProviders.map fun p => (p.agentKey, p.role)

/-- A plan for the decision of a preview is not admitted without an approver. -/
def ApprovalSurvives (request : PolicyRequest) (d : PolicyDecision) : Prop :=
  ∀ (s : AppState) (now : Now) (workflowId : Text) (req : AdmitReq) (plan : WorkflowPlan),
    loadPlan s workflowId = .ok plan → Realises plan d →
    req.policyRequest = restricted request d.mode (selectedCandidates request d) → req.approvedBy = none →
    ∀ record s', createAdmission s now workflowId req ≠ (.ok (record, true), s')

section Admit
variable {s s' : AppState} {now : Now} {workflowId : Text} {req : AdmitReq} {record : AdmissionRecord}
  {request : PolicyRequest} {d : PolicyDecision} {plan : WorkflowPlan}

theorem unapproved_of_created (h : createAdmission s now workflowId req = (.ok (record, true), s'))
    (hnone : req.approvedBy = none) (hplan : loadPlan s workflowId = .ok plan) : ∃ d',
      evaluate req.policyRequest = .ok d' ∧ d'.allowed = true ∧ d'.requireHumanApproval = false ∧
      validateRequestMatchesPlan plan req.policyRequest = .ok () := by
  rcases createAdmission_cases s now workflowId req with ⟨r, h', hnot⟩ | ⟨record', s₁, h', -, hnew, -⟩
  · rw [h] at h'
    exact absurd (Prod.mk.inj h').1.symm (hnot record)
  · obtain ⟨plan', hplan', hnew⟩ := Except.bind_eq_ok.mp hnew
    obtain rfl := Except.ok.inj (hplan.symm.trans (Except.mapError_eq_ok.mp hplan'))
    obtain ⟨⟨⟩, hmatches, hnew⟩ := Except.bind_eq_ok.mp hnew
    obtain ⟨d', hd', hnew⟩ := Except.bind_eq_ok.mp hnew
    obtain ⟨⟨⟩, hchecks, hnew⟩ := Except.bind_eq_ok.mp hnew
    obtain ⟨requestedBy, -, hnew⟩ := Except.bind_eq_ok.mp hnew
    obtain ⟨approvedBy, happroved, hnew⟩ := Except.bind_eq_ok.mp hnew
    obtain ⟨_, happroval, -⟩ := Except.bind_eq_ok.mp hnew
    rw [hnone] at happroved
    cases happroved
    refine ⟨d', Except.mapError_eq_ok.mp hd', (decisionChecks_eq_ok hchecks).1, ?_, hmatches⟩
    have hnot := (Except.check_eq_ok.mp happroval).1
    simpa using hnot

theorem requireHumanApproval_of_risk {caps : KeySet Text}
    (hcaps : normalizeCapabilities request.requiredCapabilities = .ok caps)
    (hrisk : requiresHumanApproval request (effectiveRisk request caps) = true) {d' : PolicyDecision}
    (hd' : evaluate request = .ok d') (hallowed : d'.allowed = true) : d'.requireHumanApproval = true := by
  obtain ⟨i, hi, he⟩ := Except.bind_eq_ok.mp hd'
  cases he
  obtain ⟨caps', hreads⟩ := intake_reads hi
  obtain rfl := Except.ok.inj (hcaps.symm.trans hreads.capabilities)
  obtain ⟨c, hal⟩ := decision_allows hallowed
  obtain ⟨-, hc⟩ := settle_eq_ok hal.settled
  have happroval : c.requireHumanApproval = true := human_approval hreads hc hrisk
  rw [hal.decision]
  exact happroval

end Admit

section Store
variable {now : Now} {req : AdmitReq} {record : AdmissionRecord} {d : PolicyDecision} {plan : WorkflowPlan}

/-- A state in which just `plan` is stored, with room for values of this size. -/
def planState (plan : WorkflowPlan) (maxContentBytes : Nat) : AppState :=
  let s := AppState.new { Config.inMemory with maxContentBytes := maxContentBytes }
  let ch := s.newChannel ⟨0, 0⟩ (channelOf plan.id) plan.title plan.createdBy [] []
  s.setChannel (channelOf plan.id) (ch.putContext {
    key := workflowPlanContextKey
    value := .workflowPlan plan
    version := 1
    updatedBy := plan.createdBy
    updatedAt := [] })

theorem loadPlan_planState (plan : WorkflowPlan) (size : Nat) : loadPlan (planState plan size) plan.id = .ok plan := by
  unfold loadPlan AppState.getContextKeyInternal planState AppState.setChannel
  dsimp only
  rw [Table.get_insert_self]
  unfold ChannelState.putContext
  dsimp only
  rw [Table.get_insert_self]
  rfl

theorem loadAdmission_planState (plan : WorkflowPlan) (size : Nat) :
    loadAdmission (planState plan size) plan.id = .ok none := by
  have hne : admissionContextKey ≠ workflowPlanContextKey := by decide
  unfold loadAdmission AppState.getContextKeyInternal planState AppState.setChannel
  dsimp only
  rw [Table.get_insert_self]
  unfold ChannelState.putContext
  dsimp only
  rw [Table.get_insert_ne hne]
  rfl

theorem newAdmission_eq_ok {s : AppState} {workflowId : Text} (hplan : loadPlan s workflowId = .ok plan)
    (hmatches : validateRequestMatchesPlan plan req.policyRequest = .ok ())
    (hd : evaluate req.policyRequest = .ok d) (hchecks : decisionChecks plan d = .ok ())
    (happroval : d.requireHumanApproval = false) (hactor : req.requestedBy = "operator".toList)
    (hnone : req.approvedBy = none) (hreason : req.overrideReason = none) :
    ∃ record, newAdmission s now workflowId req = .ok record ∧ record.workflowId = workflowId := by
  have hrequested : normalizeActor req.requestedBy = .ok "operator".toList := by
    rw [hactor]
    rfl
  have hcheck : approvalCheck d none = .ok () := if_neg (by simp [happroval])
  unfold newAdmission
  simp only [Except.bind_eq_ok]
  exact ⟨_, ⟨plan, Except.mapError_eq_ok.mpr hplan, (), hmatches, d, Except.mapError_eq_ok.mpr hd, (), hchecks,
    _, hrequested, none, by rw [hnone]; rfl, (), hcheck, none, by rw [hreason]; rfl, rfl⟩, rfl⟩

theorem newAdmission_congr {s s' : AppState} {workflowId : Text} (h : loadPlan s workflowId = loadPlan s' workflowId) :
    newAdmission s now workflowId req = newAdmission s' now workflowId req := by
  unfold newAdmission
  rw [h]

theorem createAdmission_planState
    (h : newAdmission (planState plan record.toJson.bytes) now plan.id req = .ok record)
    (hid : record.workflowId = plan.id) :
    ∃ s', createAdmission (planState plan record.toJson.bytes) now plan.id req = (.ok (record, true), s') := by
  set s := planState plan record.toJson.bytes with hs
  have hsize : ¬ (ContextValue.admission record).toJson.bytes > s.config.maxContentBytes :=
    lt_irrefl record.toJson.bytes
  obtain ⟨ch, hch, hroom⟩ : ∃ ch, s.channels.get (channelOf plan.id) = some ch ∧
      ch.context.size < maxContextKeys := ⟨_, Table.get_insert_self _ _ _, by change 1 < maxContextKeys; decide⟩
  have hfull : ¬ (!ch.context.contains admissionContextKey && decide (ch.context.size ≥ maxContextKeys)) = true := by
    simp [Nat.not_le.mpr hroom]
  have hpersist : ∃ e s', persistAdmission s now record = (.ok e, s') := by
    unfold persistAdmission AppState.setContextInternal
    rw [hid, trim_admissionContextKey]
    dsimp only
    rw [if_neg (by decide), if_neg (by decide), if_neg hsize, hch]
    dsimp only
    rw [if_neg hfull]
    exact ⟨_, _, rfl⟩
  obtain ⟨e, s', hs'⟩ := hpersist
  unfold createAdmission
  rw [hs, loadAdmission_planState, ← hs]
  dsimp only
  rw [h]
  dsimp only
  unfold persisted
  rw [hs']
  exact ⟨s', rfl⟩

end Store

section Survives
variable {request : PolicyRequest} {caps : KeySet Text} {d : PolicyDecision} {i : Intake} {c : Course}

/-- What a preview that fell back to a single provider decided. -/
structure FellBack (request : PolicyRequest) (risk : TaskRisk) (d : PolicyDecision) (p : ProviderCandidate) :
    Prop where
  mode : d.mode = .single
  selected : d.selectedProviders = Intake.selectedProviders .single [p]
  candidates : selectedCandidates request d = [p]
  top : ∀ q, TopRanked request q ↔ q = p
  again : ∃ i', intake (restricted request .single [p]) = .ok i' ∧ i'.Alone request risk p

theorem fellBack_of_approval (h : evaluate request = .ok d) (hallowed : d.allowed = true)
    (happroval : d.requireHumanApproval = true)
    (hcaps : normalizeCapabilities request.requiredCapabilities = .ok caps)
    (hrisk : requiresHumanApproval request (effectiveRisk request caps) = false) :
    ∃ p, FellBack request (effectiveRisk request caps) d p := by
  obtain ⟨i, hi, he⟩ := Except.bind_eq_ok.mp h
  cases he
  obtain ⟨caps', hreads⟩ := intake_reads hi
  obtain rfl := Except.ok.inj (hcaps.symm.trans hreads.capabilities)
  obtain ⟨c, hal⟩ := decision_allows hallowed
  have hirisk : i.requireHumanApproval = false := by
    obtain ⟨_, _, he⟩ := hreads.fields
    exact (congrArg Intake.requireHumanApproval he).trans hrisk
  have hcapproval : c.requireHumanApproval = true := by
    rw [hal.decision] at happroval
    exact happroval
  obtain ⟨hdegraded, hb, hmode, hsome⟩ := fallback_of_approval hal.settled hcapproval hirisk
  have hlenient := lenient_of_degraded hdegraded hreads
  have hreviewer : i.requiredReviewerAgentKey = none := by
    cases hr : i.requiredReviewerAgentKey with
    | none => rfl
    | some key =>
      have hkey : key ∈ i.requiredSelection.keys := (hreads.required key).mpr (.inr hr)
      rw [hlenient.unrequired] at hkey
      cases hkey
  obtain ⟨p, rest, heligible⟩ : ∃ p rest, i.eligible = p :: rest := by
    refine List.exists_cons_of_ne_nil fun hnil => ?_
    rw [Intake.maxSelectable, hnil, List.length_nil, Nat.min_zero] at hsome
    exact absurd hsome (lt_irrefl _)
  have hreduced : i.reduced c = [p] := reduced_single hb hlenient.unrequired hreviewer hmode heligible hsome
  have hselected : (i.decision request).selectedProviders = Intake.selectedProviders .single [p] := by
    rw [hal.decision, hreduced]
    exact congrArg (Intake.selectedProviders · [p]) hmode
  have hcandidates : selectedCandidates request (i.decision request) = [p] := by
    have hselection := reduced_selection (c := c) hreads hal.present
    rw [hreduced] at hselection
    have hperm := filter_providers_perm hi hselection
    rw [← map_agentKey_selectedProviders .single, ← hselected] at hperm
    exact List.perm_singleton.mp hperm
  refine ⟨p, ?_, hselected, hcandidates, topRanked_iff hi hreads heligible,
    exists_alone hi hreads hdegraded hb hrisk (heligible ▸ List.mem_cons_self)⟩
  rw [hal.decision]
  exact hmode

def singlePlan (request : PolicyRequest) (p : ProviderCandidate) : WorkflowPlan where
  version := 1
  id := "w".toList
  channel := channelOf "w".toList
  title := "title".toList
  prompt := "prompt".toList
  mode := .single
  createdBy := "operator".toList
  createdAt := []
  assignments := [{ ordinal := 0, agentKey := trimmedKey p, role := .worker, phase := 0 }]
  fileLease := none
  requiredCapabilities := request.requiredCapabilities
  metadata := .null

def singleAdmit (request : PolicyRequest) (p : ProviderCandidate) : AdmitReq where
  requestedBy := "operator".toList
  approvedBy := none
  overrideReason := none
  policyRequest := restricted request .single [p]

/-- The plan for the single provider is admitted without approval when the provider fits and its key
is written as the plan has it. -/
theorem FellBack.admitted {risk : TaskRisk} {p : ProviderCandidate} (h : FellBack request risk d p)
    (hwrite : request.requiresRepositoryWrite = false) (hdirect : request.requestedProtocol.getD .direct = .direct)
    (hkey : p.agentKey = Text.trim p.agentKey) (hfits : SingleFits request risk p) : ¬ ApprovalSurvives request d := by
  intro hsurvives
  obtain ⟨i', hi', halone⟩ := h.again
  obtain ⟨-, hallow⟩ := @Intake.Alone.decision _ _ _ _ (restricted request .single [p]) halone rfl hdirect
  have hdecision := hallow hfits
  have heval : evaluate (restricted request .single [p]) = .ok (i'.decision (restricted request .single [p])) :=
    Except.bind_eq_ok.mpr ⟨i', hi', rfl⟩
  set d' := i'.decision (restricted request .single [p]) with hd'
  set plan := singlePlan request p with hplan
  have hmode : i'.mode = .single := by rw [halone.mode, hdirect]; rfl
  have hselected : d'.selectedProviders = Intake.selectedProviders .single [p] := by
    rw [hdecision, ← hmode]
    rfl
  have hmatches : validateRequestMatchesPlan plan (restricted request .single [p]) = .ok () := by
    have hcandidates : KeySet.SameKeys (plannedAgents plan) (.ofList [p.agentKey]) :=
      KeySet.sameKeys_iff.mpr fun key => by rw [hkey]; rfl
    have hcapabilities : KeySet.SameKeys (.ofList (request.requiredCapabilities.map normalizedCapability))
        (.ofList (request.requiredCapabilities.map normalizedCapability)) := KeySet.sameKeys_iff.mpr fun _ => Iff.rfl
    unfold validateRequestMatchesPlan
    dsimp only
    rw [Except.check_eq_ok, Except.check_eq_ok, Except.check_eq_ok, Except.check_eq_ok]
    exact ⟨not_not.mpr rfl, not_not.mpr hwrite, not_not.mpr hcapabilities, not_not.mpr hcandidates, rfl⟩
  have hchecks : decisionChecks plan d' = .ok () := by
    have hagents : KeySet.SameKeys (plannedAgents plan) (selectedAgents d') :=
      KeySet.sameKeys_iff.mpr fun key => by rw [selectedAgents, hselected]; rfl
    have htarget : d'.executionTarget = .standardWorkflow := by
      rw [hdecision]
      exact (congrArg executionTarget halone.protocol).trans (by rw [hdirect]; rfl)
    have hallowed : d'.allowed = true := by rw [hdecision]; rfl
    have hsame : d'.mode = plan.mode := by rw [hdecision]; exact hmode
    rw [decisionChecks, Except.check_eq_ok, Except.check_eq_ok, Except.check_eq_ok, Except.check_eq_ok]
    exact ⟨by simp [hallowed], not_not.mpr htarget, not_not.mpr hsame, not_not.mpr hagents, rfl⟩
  have happroval : d'.requireHumanApproval = false := by
    rw [hdecision]
    exact halone.requireHumanApproval
  obtain ⟨record, hrecord, hid⟩ := @newAdmission_eq_ok ⟨0, 0⟩ (singleAdmit request p) _ _ _ _
    (loadPlan_planState plan 0) hmatches heval hchecks happroval rfl rfl rfl
  rw [newAdmission_congr ((loadPlan_planState plan 0).trans (loadPlan_planState plan record.toJson.bytes).symm)]
    at hrecord
  obtain ⟨s', hs'⟩ := createAdmission_planState hrecord hid
  have hrealises : Realises plan d := by
    refine ⟨h.mode.symm, ?_⟩
    rw [h.selected]
    rfl
  refine hsurvives _ _ _ _ plan (loadPlan_planState plan _) hrealises ?_ rfl record s' hs'
  rw [h.mode, h.candidates]
  rfl

theorem FellBack.survives {risk : TaskRisk} {p : ProviderCandidate} (h : FellBack request risk d p)
    (hagain : request.requestedProtocol.getD .direct ≠ .direct ∨ p.agentKey ≠ Text.trim p.agentKey ∨
      ¬ SingleFits request risk p) : ApprovalSurvives request d := by
  intro s now workflowId req plan hplan hrealises hrequest hnone record s' hcreated
  obtain ⟨i', hi', halone⟩ := h.again
  rw [h.mode, h.candidates] at hrequest
  obtain ⟨d', hd', hallowed, happroval, hmatches⟩ := unapproved_of_created hcreated hnone hplan
  rw [hrequest] at hd' hmatches
  have hd : d' = i'.decision (restricted request .single [p]) := by
    obtain ⟨i₁, hi₁, he⟩ := Except.bind_eq_ok.mp hd'
    obtain rfl := Except.ok.inj (hi'.symm.trans hi₁)
    exact (Except.ok.inj he).symm
  rw [hd] at hallowed happroval
  by_cases hdirect : request.requestedProtocol.getD .direct = .direct
  · obtain ⟨hiff, -⟩ := @Intake.Alone.decision _ _ _ _ (restricted request .single [p]) halone rfl hdirect
    rcases hagain.resolve_left (not_not.mpr hdirect) with hkey | hfits
    · -- the plan has the trimmed key, the request the key as it was written
      have hassigned : plan.assignments.map WorkflowAssignment.agentKey = [trimmedKey p] := by
        have hmap := congrArg (List.map Prod.fst) hrealises.assignments
        rw [h.selected, List.map_map, List.map_map] at hmap
        exact hmap
      unfold validateRequestMatchesPlan at hmatches
      dsimp only at hmatches
      rw [Except.check_eq_ok, Except.check_eq_ok, Except.check_eq_ok, Except.check_eq_ok] at hmatches
      have hsame := KeySet.sameKeys_iff.mp (not_not.mp hmatches.2.2.2.1) (trimmedKey p)
      rw [plannedAgents, KeySet.mem_ofList, KeySet.mem_ofList, hassigned] at hsame
      have hmem := hsame.mp (List.mem_singleton.mpr rfl)
      exact hkey (List.mem_singleton.mp hmem).symm
    · exact hfits (hiff.mp hallowed)
  · rw [halone.approval hdirect hallowed] at happroval
    cases happroval

end Survives

/-- The approval of a preview survives to admission exactly when admission asks for it again. -/
theorem approval_survives_iff (request : PolicyRequest) (d : PolicyDecision) (h : evaluate request = .ok d)
    (hallowed : d.allowed = true) (happroval : d.requireHumanApproval = true) :
    ApprovalSurvives request d ↔ AsksAgain request := by
  obtain ⟨i, hi, -⟩ := Except.bind_eq_ok.mp h
  obtain ⟨caps, hreads⟩ := intake_reads hi
  have hcaps := hreads.capabilities
  cases hrisk : requiresHumanApproval request (effectiveRisk request caps) with
  | true =>
    refine iff_of_true ?_ ⟨caps, hcaps, .inl hrisk⟩
    intro s now workflowId req plan hplan hrealises hrequest hnone record s' hcreated
    obtain ⟨d', hd', hallowed', hnot, -⟩ := unapproved_of_created hcreated hnone hplan
    rw [hrequest] at hd'
    rw [@requireHumanApproval_of_risk (restricted request d.mode _) _ hcaps hrisk _ hd' hallowed'] at hnot
    cases hnot
  | false =>
    obtain ⟨p, hf⟩ := fellBack_of_approval h hallowed happroval hcaps hrisk
    have hwrite : request.requiresRepositoryWrite = false := by
      cases hw : request.requiresRepositoryWrite with
      | false => rfl
      | true =>
        have hmedium := @medium_le_effectiveRisk _ caps hw
        rw [requiresHumanApproval, hw, decide_eq_true hmedium] at hrisk
        simp at hrisk
    constructor
    · intro hsurvives
      refine ⟨caps, hcaps, .inr ?_⟩
      by_contra hnot
      obtain ⟨hdirect, hnot⟩ := not_or.mp hnot
      refine hnot fun q hq => ?_
      obtain rfl := (hf.top q).mp hq
      by_contra hadmits
      obtain ⟨hkey, hfits⟩ := not_or.mp hadmits
      exact hf.admitted hwrite (not_not.mp hdirect) (not_not.mp hkey) (not_not.mp hfits) hsurvives
    · rintro ⟨caps', hcaps', hagain⟩
      obtain rfl := Except.ok.inj (hcaps.symm.trans hcaps')
      refine hf.survives ?_
      rcases hagain with hr | hprotocol | hfirst
      · rw [hrisk] at hr
        cases hr
      · exact .inl hprotocol
      · exact .inr (hfirst p ((hf.top p).mpr rfl))

/-- High-risk work keeps its approval. -/
theorem approval_survives_reviewed : ∃ d, evaluate reviewedRequest = .ok d ∧
    (ApprovalSurvives reviewedRequest d ↔ AsksAgain reviewedRequest) ∧ AsksAgain reviewedRequest := by
  have h : (evaluate reviewedRequest).toOption.map (fun d => (d.allowed, d.requireHumanApproval)) =
      some (true, true) := by decide
  obtain ⟨d, hd, hfacts⟩ := Except.toOption_map_eq_some.mp h
  obtain ⟨hallowed, happroval⟩ := Prod.mk.inj hfacts
  exact ⟨d, hd, approval_survives_iff reviewedRequest d hd hallowed happroval, KeySet.empty, rfl, .inl (by decide)⟩

def singleRun : List AdmissionAction :=
  let agent (key : Text) : Agent := {
    agentKey := key
    displayName := key
    kind := .other
    host := none
    metadata := .null
    registeredAt := [] }
  [.workflow (.register ⟨0, 0⟩ (agent "a".toList)),
    .workflow (.create asciiSurroundings ⟨0, 0⟩ "w1".toList "m0".toList
      { title := "title".toList, prompt := "prompt".toList, createdBy := "carol".toList, mode := .single })]

/-- Consensus was asked for and one provider is there: the preview falls back to it and asks for
approval, and the plan for it is admitted with nobody to approve. -/
theorem short_admitted : ∃ d, evaluate shortRequest = .ok d ∧ d.allowed = true ∧
    d.requireHumanApproval = true ∧ ∃ plan record s',
      loadPlan (AdmissionWorld.run .inMemory singleRun).state "w1".toList = .ok plan ∧ Realises plan d ∧
      createAdmission (AdmissionWorld.run .inMemory singleRun).state ⟨0, 0⟩ "w1".toList
        { requestedBy := "carol".toList
          approvedBy := none
          overrideReason := none
          policyRequest := restricted shortRequest d.mode (selectedCandidates shortRequest d) } =
        (.ok (record, true), s') := by
  have h : (evaluate shortRequest).toOption.map (fun d => (d.allowed, d.requireHumanApproval, d.mode,
      decide (d.selectedProviders.map (fun p => (p.agentKey, p.role)) = [("a".toList, .worker)]),
      decide (selectedCandidates shortRequest d = [plainProvider "a".toList]))) =
      some (true, true, .single, true, true) := by decide
  obtain ⟨d, hd, hfacts⟩ := Except.toOption_map_eq_some.mp h
  simp only [Prod.mk.injEq, decide_eq_true_eq] at hfacts
  obtain ⟨hallowed, happroval, hmode, hselected, hcandidates⟩ := hfacts
  have hplan : (loadPlan (AdmissionWorld.run .inMemory singleRun).state "w1".toList).toOption.map
      (fun plan => (plan.mode, plan.assignments.map fun a => (a.agentKey, providerRole a.role))) =
      some (.single, [("a".toList, .worker)]) := by decide +kernel
  obtain ⟨plan, hload, hassigned⟩ := Except.toOption_map_eq_some.mp hplan
  obtain ⟨hplanMode, hassigned⟩ := Prod.mk.inj hassigned
  obtain ⟨record, s', hcreated⟩ := created_of_isSome (AdmissionWorld.run .inMemory singleRun).state ⟨0, 0⟩
    "w1".toList {
      requestedBy := "carol".toList
      approvedBy := none
      overrideReason := none
      policyRequest := restricted shortRequest .single [plainProvider "a".toList] } (by decide +kernel)
  refine ⟨d, hd, hallowed, happroval, plan, record, s', hload,
    ⟨hplanMode.trans hmode.symm, hassigned.trans hselected.symm⟩, ?_⟩
  rw [hmode, hcandidates]
  exact hcreated

/-- The approval of that preview does not survive. -/
theorem not_approval_survives : ¬ ∀ (request : PolicyRequest) (d : PolicyDecision), evaluate request = .ok d →
    d.allowed = true → d.requireHumanApproval = true → ApprovalSurvives request d := by
  intro hclaim
  obtain ⟨d, hd, hallowed, happroval, plan, record, s', hplan, hrealises, hcreated⟩ := short_admitted
  exact hclaim shortRequest d hd hallowed happroval _ _ _ _ plan hplan hrealises rfl rfl record s' hcreated

end AgentBridge.PolicyAdmission
