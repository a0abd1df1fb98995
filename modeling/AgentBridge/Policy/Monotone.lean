import AgentBridge.Policy.Demand

/-! Risk monotonicity. Of two requests that differ in risk, sensitivity and repository writes only, the
riskier one gets no smaller budget, no milder degradation, and a mode that is no weaker or a human
approval. -/

namespace AgentBridge

def DataSensitivity.rank : DataSensitivity → Nat
  | .public => 0
  | .internal => 1
  | .confidential => 2
  | .restricted => 3

end AgentBridge

namespace AgentBridge.Policy

/-- The second request asks the same for work that is at least as risky. -/
structure Riskier (request riskier : PolicyRequest) : Prop where
  taskRisk : request.taskRisk.rank ≤ riskier.taskRisk.rank
  dataSensitivity : request.dataSensitivity.rank ≤ riskier.dataSensitivity.rank
  requiresRepositoryWrite : request.requiresRepositoryWrite = true → riskier.requiresRepositoryWrite = true
  rest : riskier = { request with
    taskRisk := riskier.taskRisk
    dataSensitivity := riskier.dataSensitivity
    requiresRepositoryWrite := riskier.requiresRepositoryWrite }

/-- Every limit of the second budget is at least that of the first. -/
structure BudgetLe (a b : BudgetLimits) : Prop where
  maxProviders : a.maxProviders ≤ b.maxProviders
  maxRounds : a.maxRounds ≤ b.maxRounds
  maxWallClockMs : a.maxWallClockMs ≤ b.maxWallClockMs
  maxInputTokens : a.maxInputTokens ≤ b.maxInputTokens
  maxOutputTokens : a.maxOutputTokens ≤ b.maxOutputTokens
  maxRetries : a.maxRetries ≤ b.maxRetries
  maxConcurrency : a.maxConcurrency ≤ b.maxConcurrency
  maxCostMicroUsd : a.maxCostMicroUsd ≤ b.maxCostMicroUsd

/-- The second decision guards its work at least as much as the first. -/
structure Guards (d d' : PolicyDecision) : Prop where
  mode : d'.requireHumanApproval = true ∨ modeRank d.mode ≤ modeRank d'.mode
  degradationBehavior : degradationRank d.degradationBehavior ≤ degradationRank d'.degradationBehavior
  budget : BudgetLe d.budget d'.budget
  requireFiduciaLease : d.requireFiduciaLease = true → d'.requireFiduciaLease = true

section Tables
variable {risk risk' : TaskRisk} {sensitivity sensitivity' : DataSensitivity} {write write' : Bool}
  {mode mode' : WorkflowMode}

theorem minimumMode_mono (hrisk : risk.rank ≤ risk'.rank)
    (hrestricted : sensitivity = .restricted → sensitivity' = .restricted) (hwrite : write = true → write' = true) :
    modeRank (minimumMode risk sensitivity write) ≤ modeRank (minimumMode risk' sensitivity' write') := by
  by_cases hstrict : sensitivity' = .restricted ∨ TaskRisk.rank .high ≤ risk'.rank
  · have htop : modeRank (minimumMode risk sensitivity write) ≤ modeRank .consensus := by
      cases minimumMode risk sensitivity write <;> decide
    have hmost : minimumMode risk' sensitivity' write' = .consensus := if_pos hstrict
    rwa [hmost]
  · obtain ⟨hs, hlow⟩ := not_or.mp hstrict
    have hmild : ¬ (sensitivity = .restricted ∨ TaskRisk.rank .high ≤ risk.rank) :=
      not_or.mpr ⟨fun h => hs (hrestricted h), fun h => hlow (h.trans hrisk)⟩
    unfold minimumMode
    rw [if_neg hstrict, if_neg hmild]
    by_cases hseq : risk = .medium ∧ write = true
    · -- medium work that writes is at least that in the riskier request
      have hmedium : risk' = .medium := by
        rw [hseq.1] at hrisk
        cases risk' <;> first | rfl | exact absurd hrisk (by decide) | exact absurd (by decide) hlow
      rw [if_pos hseq, if_pos ⟨hmedium, hwrite hseq.2⟩]
    · rw [if_neg hseq]
      exact Nat.zero_le _

theorem budgetRisk_mono (hrisk : risk.rank ≤ risk'.rank) (hmode : modeRank mode ≤ modeRank mode') :
    (budgetRisk risk mode).rank ≤ (budgetRisk risk' mode').rank := by
  have hmedium : TaskRisk.rank .medium = 1 := rfl
  have hhigh : TaskRisk.rank .high = 2 := rfl
  cases mode <;> cases mode' <;> simp only [budgetRisk, rank_max, modeRank, hmedium, hhigh] at hmode ⊢ <;> omega

theorem budgetProfile_mono (hrisk : risk.rank ≤ risk'.rank) : BudgetLe (budgetProfile risk) (budgetProfile risk') := by
  cases risk <;> cases risk' <;> first | exact absurd hrisk (by decide) | (constructor <;> decide)

theorem clamp_mono (requested : Option Nat) {profile profile' : Nat} (absolute : Nat) (h : profile ≤ profile') :
    clamp requested profile absolute ≤ clamp requested profile' absolute := by
  unfold clamp
  cases requested <;> simp only [Option.getD_none, Option.getD_some] <;> omega

theorem clampBudget_mono (requested : RequestedBudget) {profile profile' : BudgetLimits}
    (h : BudgetLe profile profile') : BudgetLe (clampBudget requested profile) (clampBudget requested profile') where
  maxProviders := clamp_mono _ _ h.maxProviders
  maxRounds := clamp_mono _ _ h.maxRounds
  maxWallClockMs := clamp_mono _ _ h.maxWallClockMs
  maxInputTokens := clamp_mono _ _ h.maxInputTokens
  maxOutputTokens := clamp_mono _ _ h.maxOutputTokens
  maxRetries := clamp_mono _ _ h.maxRetries
  maxConcurrency := clamp_mono _ _ h.maxConcurrency
  maxCostMicroUsd := clamp_mono _ _ h.maxCostMicroUsd

theorem degradationRank_default (risk : TaskRisk) (sensitivity : DataSensitivity) (write : Bool) :
    degradationRank (defaultDegradationBehavior risk sensitivity write) =
      max (max (if sensitivity = .restricted then 3 else 0) risk.rank) (if write = true then 2 else 0) := by
  cases risk <;> cases sensitivity <;> cases write <;> rfl

theorem defaultDegradationBehavior_mono (hrisk : risk.rank ≤ risk'.rank)
    (hrestricted : sensitivity = .restricted → sensitivity' = .restricted) (hwrite : write = true → write' = true) :
    degradationRank (defaultDegradationBehavior risk sensitivity write) ≤
      degradationRank (defaultDegradationBehavior risk' sensitivity' write') := by
  have hasked {p q : Prop} [Decidable p] [Decidable q] (n : Nat) (h : p → q) :
      (if p then n else 0) ≤ if q then n else 0 := by
    by_cases hp : p
    · rw [if_pos hp, if_pos (h hp)]
    · rw [if_neg hp]
      exact Nat.zero_le _
  rw [degradationRank_default, degradationRank_default]
  exact max_le_max (max_le_max (hasked 3 hrestricted) hrisk) (hasked 2 hwrite)

theorem degradationRank_effective_eq (default : DegradationBehavior) (requested : Option DegradationBehavior)
    (hasRequired specialized : Bool) :
    degradationRank (effectiveDegradationBehavior default requested hasRequired specialized) =
      max (max (degradationRank default) (requested.elim 0 degradationRank))
        (if hasRequired || specialized then 2 else 0) := by
  cases requested with
  | none => cases default <;> cases hasRequired <;> cases specialized <;> rfl
  | some requested => cases default <;> cases requested <;> cases hasRequired <;> cases specialized <;> rfl

theorem low_of_reduceProviderCount
    (h : defaultDegradationBehavior risk sensitivity write = .reduceProviderCount) :
    risk = .low ∧ sensitivity ≠ .restricted ∧ write = false := by
  unfold defaultDegradationBehavior at h
  cases risk <;> split_ifs at h <;> grind [TaskRisk.rank]

theorem executionTarget_raisedProtocol (request : PolicyRequest) (risk : TaskRisk) (reviewer : Option Text) :
    executionTarget (raisedProtocol request risk reviewer) =
      request.requestedProtocol.elim .standardWorkflow executionTarget := by
  have hdefault (mode : WorkflowMode) : executionTarget (defaultProtocol mode) = .standardWorkflow := by
    cases mode <;> rfl
  unfold raisedProtocol selectedProtocol
  cases hp : request.requestedProtocol with
  | none =>
    rw [requestedProtocol, hp]
    split_ifs <;> exact hdefault _
  | some p =>
    rw [requestedProtocol, hp]
    dsimp only [Option.getD_some, Option.elim_some]
    split_ifs with hraised
    · -- a protocol that can be raised does not need a specialised executor
      rw [hdefault]
      have htop : modeRank (raisedMode request risk reviewer) ≤ 3 := by
        cases raisedMode request risk reviewer <;> decide
      have hlow := hraised.trans_le htop
      cases p <;> first | rfl | exact absurd hlow (by decide)
    · rfl

end Tables

section Riskier
variable {request riskier : PolicyRequest}

theorem Riskier.restricted (h : Riskier request riskier) (hr : request.dataSensitivity = .restricted) :
    riskier.dataSensitivity = .restricted := by
  have hle := h.dataSensitivity
  rw [hr] at hle
  cases hs : riskier.dataSensitivity <;> rw [hs] at hle <;> first | rfl | exact absurd hle (by decide)

theorem Riskier.same {α : Type} (h : Riskier request riskier) (f : PolicyRequest → α)
    (hf : ∀ taskRisk dataSensitivity requiresRepositoryWrite, f { request with
      taskRisk := taskRisk
      dataSensitivity := dataSensitivity
      requiresRepositoryWrite := requiresRepositoryWrite } = f request) : f riskier = f request := by
  rw [h.rest]
  exact hf _ _ _

theorem Riskier.reviewerOf (h : Riskier request riskier) : reviewerOf riskier = reviewerOf request :=
  h.same Policy.reviewerOf fun _ _ _ => rfl

theorem Riskier.requiredOf (h : Riskier request riskier) : requiredOf riskier = requiredOf request :=
  h.same Policy.requiredOf fun _ _ _ => rfl

theorem Riskier.riskOf_le (h : Riskier request riskier) : (riskOf request).rank ≤ (riskOf riskier).rank := by
  have hcaps : riskier.requiredCapabilities = request.requiredCapabilities :=
    h.same PolicyRequest.requiredCapabilities fun _ _ _ => rfl
  have hrisk := h.taskRisk
  have hwrite := h.requiresRepositoryWrite
  have hrestricted := h.restricted
  unfold riskOf effectiveRisk
  rw [hcaps]
  split_ifs <;> simp only [rank_max] <;> grind [TaskRisk.rank]

theorem Riskier.baseRequiredMode_le (h : Riskier request riskier) :
    modeRank (baseRequiredMode request (riskOf request)) ≤ modeRank (baseRequiredMode riskier (riskOf riskier)) :=
  minimumMode_mono h.riskOf_le h.restricted h.requiresRepositoryWrite

theorem Riskier.defaultRequestedMode_le (h : Riskier request riskier) :
    modeRank (defaultRequestedMode request (riskOf request)) ≤
      modeRank (defaultRequestedMode riskier (riskOf riskier)) := by
  have hmode : riskier.requestedMode = request.requestedMode := h.same PolicyRequest.requestedMode fun _ _ _ => rfl
  unfold defaultRequestedMode
  rw [hmode]
  cases request.requestedMode with
  | none => exact h.baseRequiredMode_le
  | some mode => exact le_rfl

theorem Riskier.requestedProtocol_le (h : Riskier request riskier) :
    modeRank (protocolRequiredMode (requestedProtocol request (riskOf request))) ≤
      modeRank (protocolRequiredMode (requestedProtocol riskier (riskOf riskier))) := by
  have hprotocol : riskier.requestedProtocol = request.requestedProtocol :=
    h.same PolicyRequest.requestedProtocol fun _ _ _ => rfl
  have hdefault (mode : WorkflowMode) : protocolRequiredMode (defaultProtocol mode) = mode := by
    cases mode <;> rfl
  unfold requestedProtocol
  rw [hprotocol]
  cases request.requestedProtocol with
  | none =>
    rw [Option.getD_none, Option.getD_none, hdefault, hdefault]
    exact h.defaultRequestedMode_le
  | some protocol => exact le_rfl

theorem Riskier.requiredMode_le (h : Riskier request riskier) :
    modeRank (requiredMode request (riskOf request) (Policy.reviewerOf request)) ≤
      modeRank (requiredMode riskier (riskOf riskier) (Policy.reviewerOf riskier)) := by
  unfold requiredMode
  rw [h.reviewerOf]
  simp only [modeRank_saferMode]
  exact max_le_max (max_le_max h.baseRequiredMode_le h.requestedProtocol_le) le_rfl

theorem Riskier.modeOf_le (h : Riskier request riskier) : modeRank (modeOf request) ≤ modeRank (modeOf riskier) := by
  unfold modeOf raisedMode
  simp only [modeRank_saferMode]
  exact max_le_max h.defaultRequestedMode_le h.requiredMode_le

theorem Riskier.budgetOf_le (h : Riskier request riskier) : BudgetLe (budgetOf request) (budgetOf riskier) := by
  have hbudget : riskier.requestedBudget = request.requestedBudget :=
    h.same PolicyRequest.requestedBudget fun _ _ _ => rfl
  unfold budgetOf
  rw [hbudget]
  exact clampBudget_mono _ (budgetProfile_mono (budgetRisk_mono h.riskOf_le h.requiredMode_le))

theorem Riskier.behaviorOf_le (h : Riskier request riskier) :
    degradationRank (behaviorOf request) ≤ degradationRank (behaviorOf riskier) := by
  have hdegradation : riskier.requestedDegradation = request.requestedDegradation :=
    h.same PolicyRequest.requestedDegradation fun _ _ _ => rfl
  have hprotocol : riskier.requestedProtocol = request.requestedProtocol :=
    h.same PolicyRequest.requestedProtocol fun _ _ _ => rfl
  unfold behaviorOf degradationBehavior
  rw [degradationRank_effective_eq, degradationRank_effective_eq, executionTarget_raisedProtocol,
    executionTarget_raisedProtocol, h.requiredOf, hdegradation, hprotocol]
  refine max_le_max (max_le_max ?_ le_rfl) le_rfl
  exact defaultDegradationBehavior_mono h.riskOf_le h.restricted h.requiresRepositoryWrite

/-- Where the riskier request may still be reduced, nothing tells it from the other one. -/
structure Riskier.Indistinct (request riskier : PolicyRequest) : Prop where
  mode : modeOf request = modeOf riskier
  budget : budgetOf request = budgetOf riskier
  behavior : behaviorOf request = behaviorOf riskier
  unrestricted : riskier.dataSensitivity ≠ .restricted

theorem Riskier.indistinct (h : Riskier request riskier) (hb : behaviorOf riskier = .reduceProviderCount) :
    Riskier.Indistinct request riskier := by
  have hdefault : defaultDegradation riskier (riskOf riskier) = .reduceProviderCount := by
    have hle : degradationRank (defaultDegradation riskier (riskOf riskier)) ≤ 0 :=
      degradationRank_default_le.trans_eq (congrArg degradationRank hb)
    cases hd : defaultDegradation riskier (riskOf riskier) <;> rw [hd] at hle <;>
      first | rfl | exact absurd hle (by decide)
  obtain ⟨hlow, hopen, hwrite⟩ := low_of_reduceProviderCount hdefault
  have hopen' : request.dataSensitivity ≠ .restricted := fun hr => hopen (h.restricted hr)
  have hrisk : riskOf request = .low := by
    have hle := h.riskOf_le
    rw [hlow] at hle
    cases hr : riskOf request <;> rw [hr] at hle <;> first | rfl | exact absurd hle (by decide)
  have hbase (request : PolicyRequest) (hs : request.dataSensitivity ≠ .restricted) :
      baseRequiredMode request .low = .single := by
    unfold baseRequiredMode minimumMode
    rw [if_neg (not_or.mpr ⟨hs, by decide⟩)]
    exact if_neg fun h => absurd h.1 (by decide)
  have hrequested : defaultRequestedMode request .low = defaultRequestedMode riskier .low := by
    unfold defaultRequestedMode
    rw [hbase request hopen', hbase riskier hopen, h.same PolicyRequest.requestedMode fun _ _ _ => rfl]
  have hprotocol : requestedProtocol request .low = requestedProtocol riskier .low := by
    unfold requestedProtocol
    rw [hrequested, h.same PolicyRequest.requestedProtocol fun _ _ _ => rfl]
  have hrequired : requiredMode request .low (Policy.reviewerOf request) =
      requiredMode riskier .low (Policy.reviewerOf riskier) := by
    unfold requiredMode
    rw [hbase request hopen', hbase riskier hopen, hprotocol, h.reviewerOf]
  refine ⟨?_, ?_, ?_, hopen⟩
  · unfold modeOf raisedMode
    rw [hrisk, hlow, hrequested, hrequired]
  · unfold budgetOf
    rw [hrisk, hlow, hrequired, h.same PolicyRequest.requestedBudget fun _ _ _ => rfl]
  · have hle := h.behaviorOf_le
    rw [hb] at hle ⊢
    cases hr : behaviorOf request <;> rw [hr] at hle <;> first | rfl | exact absurd hle (by decide)

theorem Riskier.length_eligible (h : Riskier request riskier) (hopen : riskier.dataSensitivity ≠ .restricted)
    {i i' : Intake} (hi : intake request = .ok i) (hi' : intake riskier = .ok i') :
    i.eligible.length = i'.eligible.length := by
  obtain ⟨caps, hreads⟩ := intake_reads hi
  obtain ⟨caps', hreads'⟩ := intake_reads hi'
  obtain ⟨-, -, -, heligible⟩ := intake_complete hi
  obtain ⟨-, -, -, heligible'⟩ := intake_complete hi'
  have hproviders : riskier.providers = request.providers := h.same PolicyRequest.providers fun _ _ _ => rfl
  have hcaps : riskier.requiredCapabilities = request.requiredCapabilities :=
    h.same PolicyRequest.requiredCapabilities fun _ _ _ => rfl
  have hopen' : request.dataSensitivity ≠ .restricted := fun hr => hopen (h.restricted hr)
  refine List.Perm.length_eq ((List.perm_ext_iff_of_nodup hreads.distinct.of_map hreads'.distinct.of_map).mpr ?_)
  intro p
  rw [heligible, heligible', hproviders]
  refine and_congr_right fun _ => ⟨fun hp => ?_, fun hp => ?_⟩
  · exact ⟨hp.available, hp.availability, fun hr => absurd hr hopen, hcaps ▸ hp.capable⟩
  · exact ⟨hp.available, hp.availability, fun hr => absurd hr hopen', hcaps ▸ hp.capable⟩

theorem Riskier.settled_le (h : Riskier request riskier) {i i' : Intake} {c c' : Course}
    (hi : intake request = .ok i) (hi' : intake riskier = .ok i') (hc : i.settle request i.course = .ok c)
    (hc' : i'.settle riskier i'.course = .ok c') :
    c'.requireHumanApproval = true ∨ modeRank c.mode ≤ modeRank c'.mode := by
  obtain ⟨hmode, hbudget, hbehavior, hrequired⟩ := intake_fields hi
  obtain ⟨hmode', hbudget', hbehavior', hrequired'⟩ := intake_fields hi'
  have hsettled := settle_mode hc
  have hsettled' := settle_mode hc'
  obtain ⟨-, rfl | hd⟩ := settle_eq_ok hc'
  · refine .inr ?_
    have hlowered : modeRank c.mode ≤ modeRank i.mode := hsettled ▸ settledMode_le _ _ _ _
    refine hlowered.trans ?_
    rw [hmode]
    exact h.modeOf_le.trans_eq (congrArg modeRank hmode'.symm)
  · rcases hd.behavior with ⟨-, happroval⟩ | ⟨hreduce, -⟩
    · exact .inl happroval
    · have hsame := h.indistinct (hbehavior'.symm.trans hreduce)
      have hcount := h.length_eligible hsame.unrestricted hi hi'
      refine .inr (le_of_eq (congrArg modeRank ?_))
      rw [hsettled, hsettled', Intake.maxSelectable, Intake.maxSelectable, hmode, hmode', hbehavior, hbehavior',
        hbudget, hbudget', hrequired, hrequired', hsame.mode, hsame.budget, hsame.behavior, hcount, h.requiredOf]

/-- More risk never relaxes an allowed decision. -/
theorem evaluate_monotone (request riskier : PolicyRequest) (h : Riskier request riskier) (d d' : PolicyDecision)
    (hd : evaluate request = .ok d) (hd' : evaluate riskier = .ok d') (hallowed : d.allowed = true)
    (hallowed' : d'.allowed = true) : Guards d d' := by
  obtain ⟨i, hi, he⟩ := Except.bind_eq_ok.mp hd
  obtain ⟨i', hi', he'⟩ := Except.bind_eq_ok.mp hd'
  cases he
  cases he'
  obtain ⟨c, hal⟩ := decision_allows hallowed
  obtain ⟨c', hal'⟩ := decision_allows hallowed'
  obtain ⟨-, hbudget, hbehavior, -⟩ := intake_fields hi
  obtain ⟨-, hbudget', hbehavior', -⟩ := intake_fields hi'
  have hsettled := h.settled_le hi hi' hal.settled hal'.settled
  rw [hal.decision, hal'.decision]
  refine ⟨hsettled, ?_, ?_, h.requiresRepositoryWrite⟩
  · show degradationRank i.degradationBehavior ≤ degradationRank i'.degradationBehavior
    rw [hbehavior, hbehavior']
    exact h.behaviorOf_le
  · show BudgetLe i.budget i'.budget
    rw [hbudget, hbudget']
    exact h.budgetOf_le

end Riskier

/-- The reviewed work with critical risk, restricted data and writes, by providers that are trusted. -/
def trustedRequest : PolicyRequest := { reviewedRequest with
  providers := reviewedRequest.providers.map fun p => { p with trustedForRestricted := true } }

def criticalRequest : PolicyRequest := { trustedRequest with
  taskRisk := .critical
  dataSensitivity := .restricted
  requiresRepositoryWrite := true }

theorem evaluate_monotone_critical : ∃ d d', evaluate trustedRequest = .ok d ∧ evaluate criticalRequest = .ok d' ∧
    Guards d d' := by
  have h : (evaluate trustedRequest).toOption.map PolicyDecision.allowed = some true := by decide +kernel
  have h' : (evaluate criticalRequest).toOption.map PolicyDecision.allowed = some true := by decide +kernel
  obtain ⟨d, hd, hallowed⟩ := Except.toOption_map_eq_some.mp h
  obtain ⟨d', hd', hallowed'⟩ := Except.toOption_map_eq_some.mp h'
  have hriskier : Riskier trustedRequest criticalRequest := ⟨by decide, by decide, by decide, rfl⟩
  exact ⟨d, d', hd, hd', evaluate_monotone trustedRequest criticalRequest hriskier d d' hd hd' hallowed hallowed'⟩

end AgentBridge.Policy
