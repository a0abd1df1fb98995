import AgentBridge.Admission.Roles
import AgentBridge.Policy.Readmission

/-! From a preview of the policy to the admission of the plan built from it: the request
that admission evaluates names the mode of the preview and offers just its providers. -/

namespace AgentBridge.PolicyAdmission
open State Policy

theorem sameKeys_of_sameAgents {plan : WorkflowPlan} {d d' : PolicyDecision} (h : SameAgents plan d)
    (hsame : d'.selectedProviders = d.selectedProviders) :
    KeySet.SameKeys (plannedAgents plan) (selectedAgents d') := by
  refine KeySet.sameKeys_iff.mpr fun key => ?_
  rw [plannedAgents, selectedAgents, KeySet.mem_ofList, KeySet.mem_ofList, hsame]
  exact h key

/-- A preview that nothing degraded comes out the same at admission, in whatever order its
providers are offered, and a plan for its providers passes the comparison. -/
theorem preview_agrees (request : PolicyRequest) (d : PolicyDecision) (h : evaluate request = .ok d)
    (hallowed : d.allowed = true) (hplain : d.degradation = none) (chosen : List ProviderCandidate)
    (hchosen : chosen.Perm (selectedCandidates request d)) :
    ∃ d', evaluate (restricted request d.mode chosen) = .ok d' ∧ SameOutcome d d' ∧
      ∀ plan : WorkflowPlan, SameAgents plan d → KeySet.SameKeys (plannedAgents plan) (selectedAgents d') := by
  obtain ⟨d', hd', hsame⟩ := evaluate_again h hallowed hplain hchosen
  exact ⟨d', hd', hsame, fun plan hplan => sameKeys_of_sameAgents hplan hsame.selectedProviders⟩

/-- High-risk work, previewed as consensus with `a` as the reviewer, offered again in another order. -/
theorem preview_agrees_reviewed : ∃ d d', evaluate reviewedRequest = .ok d ∧
    evaluate (restricted reviewedRequest d.mode
      [plainProvider "c".toList, plainProvider "a".toList, plainProvider "b".toList]) = .ok d' ∧
    SameOutcome d d' := by
  have h : (evaluate reviewedRequest).toOption.map (fun d => (d.allowed, d.degradation,
      decide ([plainProvider "c".toList, plainProvider "a".toList, plainProvider "b".toList].Perm
        (selectedCandidates reviewedRequest d)))) = some (true, none, true) := by decide +kernel
  obtain ⟨d, hd, hfacts⟩ := Except.toOption_map_eq_some.mp h
  simp only [Prod.mk.injEq, decide_eq_true_eq] at hfacts
  obtain ⟨hallowed, hplain, hperm⟩ := hfacts
  obtain ⟨d', hd', hsame, -⟩ := preview_agrees reviewedRequest d hd hallowed hplain _ hperm
  exact ⟨d, d', hd, hd', hsame⟩

end AgentBridge.PolicyAdmission
