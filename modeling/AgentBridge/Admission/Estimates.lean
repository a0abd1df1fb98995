import AgentBridge.Admission.Storage
import AgentBridge.Policy.Demand

/-! The estimates of an allowed decision, taken as usage, against the budget of the decision. -/

namespace AgentBridge.Policy

/-- The latencies fit the limit: one after another in sequence, each of them otherwise. -/
def FitsClock (mode : WorkflowMode) (providers : List ProviderCandidate) (limit : Nat) : Prop :=
  if mode = .sequential then (providers.map ProviderCandidate.p95LatencyMs).sum ≤ limit
  else ∀ p ∈ providers, p.p95LatencyMs ≤ limit

def LatenciesFit (request : PolicyRequest) : Prop :=
  ∀ mode needed others k,
    mode = settledMode (modeOf request) (behaviorOf request)
      (min (budgetOf request).maxProviders (needed.length + others.length)) needed.length →
    Reference request mode (budgetOf request) (behaviorOf request) needed others k →
      FitsClock mode (needed ++ others.take k) (budgetOf request).maxWallClockMs

section Intake
variable {request : PolicyRequest} {i : Intake} {c : Course}

theorem Intake.Allows.duration {d : PolicyDecision} (hal : i.Allows request c d) (hd : d = i.decision request) :
    0 < request.expectedDurationMs → request.expectedDurationMs ≤ i.budget.maxWallClockMs := by
  have hcheck : i.checkRequired request i.course = .ok () := if_pos hal.present
  have hconclude : i.decision request = i.conclude request c := by
    unfold Intake.decision
    rw [hcheck]
    dsimp only
    rw [hal.settled]
  have hallowed : (i.conclude request c).allowed = true := by
    rw [← hconclude, ← hd, hal.decision]
    rfl
  exact (conclude_allowed.mp hallowed).2.2

end Intake

section Clock
variable {mode : WorkflowMode} {l l' : List ProviderCandidate} {limit : Nat} {request : PolicyRequest}

theorem fitsClock_perm (h : l.Perm l') : FitsClock mode l limit ↔ FitsClock mode l' limit := by
  unfold FitsClock
  split_ifs
  · rw [(h.map _).sum_nat]
  · simp only [h.mem_iff]

theorem estimatedWallClockMs_le_iff (hlimit : limit < u64Max)
    (hduration : 0 < request.expectedDurationMs → request.expectedDurationMs ≤ limit) :
    Intake.estimatedWallClockMs request mode l ≤ limit ↔ 0 < request.expectedDurationMs ∨ FitsClock mode l limit := by
  unfold Intake.estimatedWallClockMs FitsClock
  by_cases hgiven : 0 < request.expectedDurationMs
  · rw [if_pos hgiven]
    exact iff_of_true (hduration hgiven) (.inl hgiven)
  · rw [if_neg hgiven, or_iff_right hgiven]
    by_cases hmode : mode = .sequential
    · rw [if_pos hmode, if_pos hmode, foldl_saturatingAdd ProviderCandidate.p95LatencyMs l (Nat.zero_le _)]
      omega
    · rw [if_neg hmode, if_neg hmode]
      cases hmax : (l.map ProviderCandidate.p95LatencyMs).max? with
      | none =>
        have hnil : l = [] := List.map_eq_nil_iff.mp (List.max?_eq_none_iff.mp hmax)
        simp [hnil]
      | some m =>
        rw [Option.getD_some, List.max?_le_iff hmax]
        simp

end Clock

end AgentBridge.Policy

namespace AgentBridge.PolicyAdmission
open Policy

/-- The usage that a decision predicts. -/
def estimatedUsage (e : PolicyEstimates) : UsageTotals where
  costMicroUsd := e.totalEstimatedCostMicroUsd
  providerCalls := e.estimatedProviderCalls
  elapsedMs := e.estimatedWallClockMs

theorem providerCalls_le {n : Nat} {budget : BudgetLimits} (h : n ≤ budget.maxProviders) :
    saturatingMul n budget.maxRounds ≤ maxProviderCalls budget := by
  unfold maxProviderCalls
  have hround : saturatingMul n budget.maxRounds ≤ saturatingMul budget.maxProviders budget.maxRounds :=
    min_le_min_right _ (Nat.mul_le_mul_right _ h)
  have htry : 1 ≤ saturatingAdd budget.maxRetries 1 := le_min (Nat.le_add_left 1 _) (by decide)
  refine hround.trans (le_min ?_ (min_le_right _ _))
  exact Nat.le_mul_of_pos_right _ htry

theorem budgetViolation_estimates {budget : BudgetLimits} {e : PolicyEstimates}
    (hcost : e.totalEstimatedCostMicroUsd ≤ budget.maxCostMicroUsd)
    (hcalls : e.estimatedProviderCalls ≤ maxProviderCalls budget) :
    budgetViolation budget (estimatedUsage e) = none ↔ e.estimatedWallClockMs ≤ budget.maxWallClockMs := by
  unfold budgetViolation estimatedUsage
  dsimp only
  rw [if_neg (Nat.not_lt_zero _), if_neg (Nat.not_lt_zero _), if_neg (Nat.not_lt.mpr hcost),
    if_neg (Nat.not_lt_zero _), if_neg (Nat.not_lt_zero _), if_neg (Nat.not_lt.mpr hcalls)]
  split_ifs with hclock
  · exact iff_of_false nofun (Nat.not_le.mpr hclock)
  · exact iff_of_true rfl (Nat.le_of_not_lt hclock)

/-- An allowed decision is affordable by its own estimates exactly if the request gives the duration or
the latencies of its selection fit the wall-clock ceiling. -/
theorem estimates_affordable_iff (request : PolicyRequest) (d : PolicyDecision) (hd : evaluate request = .ok d)
    (hallowed : d.allowed = true) :
    budgetViolation d.budget (estimatedUsage d.estimates) = none ↔
      0 < request.expectedDurationMs ∨ LatenciesFit request := by
  obtain ⟨i, hi, he⟩ := Except.bind_eq_ok.mp hd
  cases he
  obtain ⟨c, hal⟩ := decision_allows hallowed
  obtain ⟨caps, h⟩ := intake_reads hi
  obtain ⟨hmode, hbudget, hbehavior, -⟩ := intake_fields hi
  obtain ⟨hmin, -⟩ := settle_eq_ok hal.settled
  obtain ⟨needed, others, k, href, hreduced, hparts, hkeys⟩ :=
    reference_of_settled hi hal.present hal.enough hal.affordable
  have hlimit : i.budget.maxWallClockMs < u64Max :=
    ((budget_clamped h).maxWallClockMs.absolute).trans_lt (by decide)
  have hduration := hal.duration rfl
  have hcalls := providerCalls_le (length_reduced_le h hal.present hmin)
  have hclock := @estimatedWallClockMs_le_iff c.mode (i.reduced c) _ _ hlimit hduration
  -- the mode is settled by the numbers of the providers that are required and that are there
  have hsettled := settle_mode hal.settled
  have hcount : i.maxSelectable = min (budgetOf request).maxProviders (needed.length + others.length) := by
    rw [← List.length_append, hparts.length_eq, ← hbudget]
    rfl
  have hsize : i.requiredSelection.size = needed.length := by
    rw [← List.length_map (f := trimmedKey), hkeys]
    rfl
  rw [hmode, hbehavior, hcount, hsize] at hsettled
  rw [hbudget, hbehavior] at href
  rw [hal.decision, budgetViolation_estimates hal.affordable hcalls]
  refine hclock.trans (or_congr_right ?_)
  rw [hreduced, fitsClock_perm (moveReviewerLast_perm _ _), hbudget]
  constructor
  · rintro hfits mode needed' others' k' hmode' href'
    obtain ⟨rfl, rfl⟩ := href.lists_eq href'
    have hsame : mode = c.mode := hmode'.trans hsettled.symm
    subst hsame
    obtain ⟨-, -, rfl⟩ := href.unique href'
    exact hfits
  · intro hfits
    exact hfits c.mode needed others k hsettled href

def timedRequest : PolicyRequest := { reviewedRequest with expectedDurationMs := 1000 }

theorem estimates_affordable_timed : ∃ d, evaluate timedRequest = .ok d ∧
    (budgetViolation d.budget (estimatedUsage d.estimates) = none ↔
      0 < timedRequest.expectedDurationMs ∨ LatenciesFit timedRequest) := by
  have h : (evaluate timedRequest).toOption.map PolicyDecision.allowed = some true := by decide +kernel
  obtain ⟨d, hd, hallowed⟩ := Except.toOption_map_eq_some.mp h
  exact ⟨d, hd, estimates_affordable_iff timedRequest d hd hallowed⟩

/-- One provider for low-risk work, with a latency of an hour and no duration given. -/
def slowRequest : PolicyRequest := { reviewedRequest with
  taskRisk := .low
  requiredReviewerAgentKey := none
  providers := [{ plainProvider "a".toList with p95LatencyMs := 3600000 }] }

/-- It is admitted, and the ledger would exhaust it at its own estimate. -/
theorem not_estimates_affordable : ¬ ∀ (request : PolicyRequest) (d : PolicyDecision), evaluate request = .ok d →
    d.allowed = true → budgetViolation d.budget (estimatedUsage d.estimates) = none := by
  intro hclaim
  have h : (evaluate slowRequest).toOption.map (fun d =>
      (d.allowed, (budgetViolation d.budget (estimatedUsage d.estimates)).isSome)) = some (true, true) := by
    decide +kernel
  obtain ⟨d, hd, hfacts⟩ := Except.toOption_map_eq_some.mp h
  obtain ⟨hallowed, hexhausted⟩ := Prod.mk.inj hfacts
  rw [hclaim slowRequest d hd hallowed] at hexhausted
  cases hexhausted

end AgentBridge.PolicyAdmission
