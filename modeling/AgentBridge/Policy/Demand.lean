import AgentBridge.Policy.Reference

/-! What the policy reads off a request, as functions of the request alone, and the mode that shortage
handling settles on. -/

namespace AgentBridge.Policy

section Request
variable (request : PolicyRequest)

def riskOf : TaskRisk := effectiveRisk request (.ofList (request.requiredCapabilities.map capability))

def reviewerOf : Option Text := request.requiredReviewerAgentKey.map Text.trim

def requiredOf : KeySet Text := .ofList (request.requiredAgentKeys.map Text.trim ++ (reviewerOf request).toList)

def modeOf : WorkflowMode := raisedMode request (riskOf request) (reviewerOf request)

def behaviorOf : DegradationBehavior :=
  degradationBehavior request (riskOf request) (reviewerOf request) (requiredOf request)

def budgetOf : BudgetLimits :=
  clampBudget request.requestedBudget
    (budgetProfile (budgetRisk (riskOf request) (requiredMode request (riskOf request) (reviewerOf request))))

end Request

/-- The mode that goes on where `available` providers can be selected and `required` of them have to be. -/
def settledMode (mode : WorkflowMode) (behavior : DegradationBehavior) (available required : Nat) : WorkflowMode :=
  if min (max (desiredProviderCount mode available) required) available < max (minimumProviderCount mode) required then
    match behavior with
    | .fallbackToSingleWithHumanApproval => .single
    | .reduceProviderCount =>
      match highestFeasibleMode available with
      | none => mode
      | some feasible => if modeRank mode < modeRank feasible then mode else feasible
    | .failClosed => mode
    | .queueUntilRequiredProvidersAreAvailable => mode
  else mode

theorem settledMode_le (mode : WorkflowMode) (behavior : DegradationBehavior) (available required : Nat) :
    modeRank (settledMode mode behavior available required) ≤ modeRank mode := by
  unfold settledMode
  split_ifs with hshort
  · cases behavior with
    | failClosed => exact le_rfl
    | queueUntilRequiredProvidersAreAvailable => exact le_rfl
    | fallbackToSingleWithHumanApproval => exact Nat.zero_le _
    | reduceProviderCount =>
      dsimp only
      cases highestFeasibleMode available with
      | none => exact le_rfl
      | some feasible =>
        dsimp only
        split_ifs with hkeep
        · exact le_rfl
        · exact Nat.le_of_not_lt hkeep
  · exact le_rfl

section Intake
variable {request : PolicyRequest} {i : Intake} {c : Course}

theorem eq_ofList_of_normalizeCapabilities {values : List Text} {s : KeySet Text}
    (h : normalizeCapabilities values = .ok s) : s = .ofList (values.map capability) := by
  refine KeySet.eq_of_sorted (insertCapabilities_sorted List.Pairwise.nil (Except.check_eq_ok.mp h).2)
    (KeySet.sorted_foldl_insert List.Pairwise.nil _) fun c => ?_
  rw [mem_normalizeCapabilities h]
  exact List.mem_map.symm.trans KeySet.mem_ofList.symm

theorem intake_fields (hi : intake request = .ok i) : i.mode = modeOf request ∧ i.budget = budgetOf request ∧
    i.degradationBehavior = behaviorOf request ∧ i.requiredSelection = requiredOf request := by
  obtain ⟨caps, h⟩ := intake_reads hi
  obtain ⟨-, hsorted, -, -⟩ := intake_complete hi
  obtain ⟨eligible, excluded, he⟩ := h.fields
  have hcaps := eq_ofList_of_normalizeCapabilities h.capabilities
  have hrequired : i.requiredSelection = requiredOf request := by
    refine KeySet.eq_of_sorted hsorted (KeySet.sorted_foldl_insert List.Pairwise.nil _) fun key => ?_
    rw [h.required, h.reviewer]
    refine Iff.trans ?_ KeySet.mem_ofList.symm
    rw [List.mem_append, List.mem_map, Option.mem_toList]
    rfl
  have hrisk : effectiveRisk request caps = riskOf request := by rw [riskOf, ← hcaps]
  have hreviewer : i.requiredReviewerAgentKey = reviewerOf request := h.reviewer
  rw [hrisk, hreviewer, hrequired] at he
  rw [he]
  exact ⟨rfl, rfl, rfl, rfl⟩

theorem settle_mode (h : i.settle request i.course = .ok c) :
    c.mode = settledMode i.mode i.degradationBehavior i.maxSelectable i.requiredSelection.size := by
  obtain ⟨c', hc', h⟩ := Except.bind_eq_ok.mp h
  obtain ⟨-, h⟩ := Except.check_eq_ok.mp h
  cases h
  unfold Intake.afterShortage at hc'
  unfold settledMode
  by_cases hshort : i.desired i.course.mode < i.minimum i.course.mode
  · rw [if_pos hshort] at hc'
    have hshort' : min (max (desiredProviderCount i.mode i.maxSelectable) i.requiredSelection.size) i.maxSelectable <
        max (minimumProviderCount i.mode) i.requiredSelection.size := hshort
    rw [if_pos hshort']
    unfold Intake.resolveShortage at hc'
    dsimp only at hc'
    cases hb : i.degradationBehavior with
    | failClosed =>
      rw [hb] at hc'
      cases hc'
    | queueUntilRequiredProvidersAreAvailable =>
      rw [hb] at hc'
      cases hc'
    | fallbackToSingleWithHumanApproval =>
      rw [hb] at hc'
      dsimp only at hc'
      split_ifs at hc'
      cases hc'
      rfl
    | reduceProviderCount =>
      rw [hb] at hc'
      dsimp only at hc' ⊢
      cases hf : highestFeasibleMode i.maxSelectable with
      | none =>
        rw [hf] at hc'
        cases hc'
      | some feasible =>
        rw [hf] at hc'
        cases hc'
        rfl
  · rw [if_neg hshort] at hc'
    cases hc'
    exact (if_neg hshort).symm

end Intake

end AgentBridge.Policy
