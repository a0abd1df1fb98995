import AgentBridge.Http.AssignmentClaims
import AgentBridge.Runner.Origin

/-! The claims of a runner on its assignments, and the policy of the bridge that checks
them, as each reads its own environment. -/

namespace AgentBridge

section Environment
variable (var : Text → Option Text)

/-- A switch of the environment. -/
def Runner.envBool (key : String) (default : Bool) : Except Text Bool :=
  match (var key.toList).map fun value => Text.toAsciiLowercase (Text.trim value) with
  | none => .ok default
  | some value =>
    if value = [] then .ok default
    else if value ∈ ["1".toList, "true".toList, "yes".toList, "on".toList] then .ok true
    else if value ∈ ["0".toList, "false".toList, "no".toList, "off".toList] then .ok false
    else .error (key.toList ++ " must be a boolean".toList)

/-- A number of the environment, or the default if the variable does not spell one. -/
def Runner.envU64 (key : String) (default : Nat) : Nat := ((var key.toList).bind Http.parseU64).getD default

/-- A variable that does not consist of white space alone. -/
def Runner.envFilled (key : String) : Option Text := (var key.toList).filter fun value => Text.trim value ≠ []

end Environment

def repositoryPart (part : Text) : Bool :=
  !part.isEmpty && part ≠ ".".toList && part ≠ "..".toList &&
    part.all fun c => Text.isAsciiAlphanumeric c || c ∈ "-_.".toList

/-- `owner/repo`, as `validate_repository` of both sides has it. -/
def isOwnerRepo (value : Text) : Bool :=
  match value.splitOn '/' with
  | [owner, repo] => repositoryPart owner && repositoryPart repo
  | _ => false

def defaultClaimRepository : Text := "fiducia-cloud/ai-agent-assignment-claims".toList
def defaultMaxClaimTtlMs : Nat := 60000
def absoluteMaxTtlMs : Nat := 86400000

/-- `AssignmentClaimPolicy::new`, for a bridge with or without the control plane. -/
def AssignmentClaimPolicy.new (controlPlane required : Bool) (repository : Text) (maxTtlMs : Nat) :
    Except Text AssignmentClaimPolicy :=
  if !isOwnerRepo (Text.trim repository) then
    .error "assignment claim repository must be canonical owner/repo".toList
  else if required && !controlPlane then
    .error "AI_AGENT_BRIDGE_REQUIRE_ASSIGNMENT_CLAIMS requires the Fiducia control plane".toList
  else .ok {
    required := required
    repository := Text.toAsciiLowercase (Text.trim repository)
    maxTtlMs := min (max maxTtlMs 1) absoluteMaxTtlMs }

def AssignmentClaimPolicy.fromEnv (var : Text → Option Text) (controlPlane : Bool) :
    Except Text AssignmentClaimPolicy := do
  let required ← Runner.envBool var "AI_AGENT_BRIDGE_REQUIRE_ASSIGNMENT_CLAIMS" false
  let repository := (Runner.envFilled var "AI_AGENT_BRIDGE_ASSIGNMENT_CLAIM_REPOSITORY").getD defaultClaimRepository
  AssignmentClaimPolicy.new controlPlane required repository
    (min (max (Runner.envU64 var "AI_AGENT_BRIDGE_ASSIGNMENT_CLAIM_MAX_TTL_MS" defaultMaxClaimTtlMs) 1)
    absoluteMaxTtlMs)

namespace Runner

def defaultClaimTtlMs : Nat := 60000
def maxClaimTtlMs : Nat := 86400000
def maxInstanceIdBytes : Nat := 80

structure ClaimConfig where
  enabled : Bool
  replicaCount : Nat
  instanceId : Text
  owner : Text
  repository : Text
  ttlMs : Nat

def validateInstanceId (value : Text) : Except Text Unit :=
  let value := Text.trim value
  if value.isEmpty || maxInstanceIdBytes < Text.byteLen value ||
      !value.all (fun c => Text.isAsciiAlphanumeric c || c ∈ "-_.".toList) then
    .error ("AI_AGENT_RUNNER_INSTANCE_ID must be 1-80 characters using letters, digits, '.', '_' or '-'".toList)
  else .ok ()

namespace ClaimConfig

def fromEnv (var : Text → Option Text) : Except Text ClaimConfig := do
  let enabled ← envBool var "AI_AGENT_RUNNER_DISTRIBUTED_CLAIMS" false
  let replicaCount := max (envU64 var "AI_AGENT_RUNNER_REPLICA_COUNT" 1) 1
  if replicaCount > 1 && !enabled then
    throw "AI_AGENT_RUNNER_REPLICA_COUNT>1 requires AI_AGENT_RUNNER_DISTRIBUTED_CLAIMS=true".toList
  let instanceId := ((envFilled var "AI_AGENT_RUNNER_INSTANCE_ID").orElse fun _ => envFilled var "HOSTNAME").getD
    "single-replica".toList
  validateInstanceId instanceId
  if enabled && instanceId = "single-replica".toList then
    throw "distributed claims require AI_AGENT_RUNNER_INSTANCE_ID or a non-empty HOSTNAME".toList
  let repository := Text.toAsciiLowercase (Text.trim
    ((envFilled var "AI_AGENT_RUNNER_ASSIGNMENT_CLAIM_REPOSITORY").getD defaultClaimRepository))
  if !isOwnerRepo repository then
    throw "assignment claim repository must be canonical owner/repo".toList
  let owner := "runner/".toList ++ instanceId
  if Text.byteLen owner > 120 then
    throw "runner assignment-claim owner exceeds 120 bytes".toList
  return {
    enabled := enabled
    replicaCount := replicaCount
    instanceId := instanceId
    owner := owner
    repository := repository
    ttlMs := min (max (envU64 var "AI_AGENT_RUNNER_ASSIGNMENT_CLAIM_TTL_MS" defaultClaimTtlMs) 1) maxClaimTtlMs }

def path (_ : ClaimConfig) (workflowId : Text) (assignmentOrdinal : Nat) : Text :=
  AssignmentClaims.claimPath workflowId assignmentOrdinal

/-- The claim as a submission presents it. -/
def metadata (claims : ClaimConfig) (workflowId : Text) (assignmentOrdinal fencingToken : Nat) : Json := .obj [
  ("assignment_ordinal".toList, .num (.posInt assignmentOrdinal)),
  ("fencing_token".toList, .num (.posInt fencingToken)),
  ("instance_id".toList, .str claims.instanceId),
  ("owner".toList, .str claims.owner),
  ("paths".toList, .arr [.str (claims.path workflowId assignmentOrdinal)]),
  ("repository".toList, .str claims.repository),
  ("ttl_ms".toList, .num (.posInt claims.ttlMs))]

/-- What the environment yields. -/
structure Valid (claims : ClaimConfig) : Prop where
  owner : claims.owner = "runner/".toList ++ claims.instanceId
  instanceId : validateInstanceId claims.instanceId = .ok ()
  repository : isOwnerRepo claims.repository = true
  canonical : Text.toAsciiLowercase (Text.trim claims.repository) = claims.repository
  ttlMs : 1 ≤ claims.ttlMs ∧ claims.ttlMs ≤ maxClaimTtlMs
  distributed : claims.enabled = true → claims.instanceId ≠ "single-replica".toList

theorem fromEnv_valid {var : Text → Option Text} {claims : ClaimConfig} (henv : fromEnv var = .ok claims) :
    claims.Valid := by
  obtain ⟨enabled, -, h⟩ := Except.bind_eq_ok.mp henv
  dsimp only at h
  -- every branch but the last throws, some of them after the check of the instance id
  split_ifs at h
  all_goals first
    | cases h
    | obtain ⟨u, hinstance, h⟩ := Except.bind_eq_ok.mp h
  all_goals cases h
  rename_i hreplicas hsingle hrepository howner
  refine ⟨rfl, hinstance, by simpa using hrepository, ?_, ⟨by dsimp only [maxClaimTtlMs]; omega, min_le_right _ _⟩, ?_⟩
  · rw [Text.trim_toAsciiLowercase, Text.trim_trim, Text.toAsciiLowercase_toAsciiLowercase]
  · intro henabled heq
    apply hsingle
    rw [Bool.and_eq_true, decide_eq_true_eq]
    exact ⟨henabled, heq⟩

end ClaimConfig
end Runner
end AgentBridge
