import AgentBridge.Base.KeySet
import AgentBridge.Base.Result
import AgentBridge.Base.Table
import AgentBridge.Http.Requests

/-! The project registry: which Slack channel stands for which project, who may run agents
there, and on which repositories. -/

namespace AgentBridge.Slack

def schemaVersion : Nat := 1
def maxBindings : Nat := 1000
def maxIdentifierBytes : Nat := 255
def maxRepositoriesPerBinding : Nat := 100
def maxPrincipalsPerBinding : Nat := 1000
def maxConcurrentRuns : Nat := 128
def maxRuntimeSecs : Nat := 3600
def maxTokens : Nat := 10000000
def maxSpendCents : Nat := 100000
def maxRetries : Nat := 10

inductive AgentMode
  | claude | chatgpt | bothParallel | bothSequential | review
deriving DecidableEq

inductive WritePolicy
  | readOnly | linearOnly | draftPullRequest
deriving DecidableEq

inductive RequestedCapability
  | readOnly | linearWrite | repositoryWrite
deriving DecidableEq

def WritePolicy.permits : WritePolicy → RequestedCapability → Bool
  | _, .readOnly => true
  | .linearOnly, .linearWrite => true
  | .draftPullRequest, .linearWrite => true
  | .draftPullRequest, .repositoryWrite => true
  | .readOnly, .linearWrite => false
  | .readOnly, .repositoryWrite => false
  | .linearOnly, .repositoryWrite => false

structure BudgetPolicy where
  maxConcurrentRuns : Nat
  maxRuntimeSecs : Nat
  maxTokens : Nat
  maxSpendCents : Nat
  maxRetries : Nat
deriving DecidableEq

structure ChannelProjectBinding where
  workspaceId : Text
  channelId : Text
  linearTeamId : Text
  linearTeamKey : Text
  linearProjectId : Text
  defaultRepository : Text
  repositoryAllowlist : KeySet Text
  defaultAgentMode : AgentMode
  allowedAgentModes : KeySet AgentMode
  allowedUserIds : KeySet Text
  allowedUserGroupIds : KeySet Text
  writePolicy : WritePolicy
  budgetPolicy : BudgetPolicy
  updatedBy : Text
  updatedAt : Text

structure SlackProjectRegistryDocument where
  schemaVersion : Nat
  bindings : List ChannelProjectBinding

structure ResolveRequest where
  workspaceId : Text
  channelId : Text
  userId : Text
  userGroupIds : KeySet Text
  requestedRepository : Option Text
  requestedAgentMode : Option AgentMode
  requestedCapability : RequestedCapability
  linearIssueIdentifier : Option Text

structure LinearIssueRef where
  identifier : Text
  teamKey : Text
  number : Nat

structure ResolvedProjectContext where
  workspaceId : Text
  channelId : Text
  linearTeamId : Text
  linearTeamKey : Text
  linearProjectId : Text
  repository : Text
  agentMode : AgentMode
  writePolicy : WritePolicy
  budgetPolicy : BudgetPolicy
  issue : Option LinearIssueRef

inductive RegistryError
  | json | unsupportedSchema | tooManyBindings | invalidIdentifier | invalidTeamKey | invalidRepository
  | tooManyRepositories | tooManyPrincipals | missingPrincipal | missingAgentMode | defaultRepositoryNotAllowed
  | defaultAgentModeNotAllowed | invalidBudget | invalidAuditTimestamp | duplicateBinding | unmappedChannel
  | unauthorizedPrincipal | repositoryNotAllowed | agentModeNotAllowed | writeNotAllowed | invalidIssueIdentifier
  | issueTeamMismatch
deriving DecidableEq

/-- The readers of other packages: the JSON reader derived for the document, and the check that a
text is an RFC 3339 date. -/
structure RegistryReaders where
  document : List UInt8 → Option SlackProjectRegistryDocument
  rfc3339 : Text → Bool

abbrev ChannelKey := Text × Text

structure SlackProjectRegistry where
  bindings : Table ChannelKey ChannelProjectBinding

def repositoryChar (c : Char) : Bool := Text.isAsciiAlphanumeric c || c == '-' || c == '_' || c == '.'

def identifierChar (c : Char) : Bool := repositoryChar c || c == ':'

def validateStableIdentifier (value : Text) : Except RegistryError Unit :=
  .refuseIf (value = [] ∨ Text.byteLen value > maxIdentifierBytes ∨ ¬ value.all identifierChar) .invalidIdentifier

def upperOrDigit (c : Char) : Bool := c.isUpper || c.isDigit

def validateTeamKey (value : Text) : Except RegistryError Unit :=
  .refuseIf (¬ (2 ≤ Text.byteLen value ∧ Text.byteLen value ≤ 10) ∨ ¬ value.all upperOrDigit ∨
    ¬ value.head?.any Char.isUpper) .invalidTeamKey

def normalizeRepository (value : Text) : Except RegistryError Text := do
  let value := Text.trim value
  .refuseIf (value = [] ∨ Text.byteLen value > maxIdentifierBytes ∨ "://".toList <:+: value ∨
    ".git".toList <:+ value ∨ value.count '/' ≠ 1) .invalidRepository
  match Text.splitOnce '/' value with
  | none => throw .invalidRepository
  | some (owner, repository) =>
    .refuseIf (owner = [] ∨ repository = [] ∨ ¬ owner.all repositoryChar ∨ ¬ repository.all repositoryChar)
      .invalidRepository
    return Text.toAsciiLowercase owner ++ '/' :: Text.toAsciiLowercase repository

def validateBudget (budget : BudgetPolicy) : Except RegistryError Unit :=
  .refuseIf (budget.maxConcurrentRuns = 0 ∨ budget.maxConcurrentRuns > maxConcurrentRuns ∨
    budget.maxRuntimeSecs < 5 ∨ budget.maxRuntimeSecs > maxRuntimeSecs ∨ budget.maxTokens = 0 ∨
    budget.maxTokens > maxTokens ∨ budget.maxSpendCents = 0 ∨ budget.maxSpendCents > maxSpendCents ∨
    budget.maxRetries > maxRetries) .invalidBudget

/-- The checks of a binding; its repositories are normalised. -/
def validateBinding (readers : RegistryReaders) (binding : ChannelProjectBinding) :
    Except RegistryError ChannelProjectBinding := do
  Except.checkAll validateStableIdentifier [binding.workspaceId, binding.channelId, binding.linearTeamId,
    binding.linearProjectId, binding.updatedBy]
  validateTeamKey binding.linearTeamKey
  .refuseIf (¬ readers.rfc3339 binding.updatedAt) .invalidAuditTimestamp
  .refuseIf (binding.repositoryAllowlist.keys = []) .defaultRepositoryNotAllowed
  .refuseIf (binding.repositoryAllowlist.size > maxRepositoriesPerBinding) .tooManyRepositories
  let normalizedRepositories ← binding.repositoryAllowlist.keys.mapM normalizeRepository
  let repositoryAllowlist := KeySet.ofList normalizedRepositories
  let defaultRepository ← normalizeRepository binding.defaultRepository
  .refuseIf (defaultRepository ∉ repositoryAllowlist) .defaultRepositoryNotAllowed
  .refuseIf (binding.allowedAgentModes.keys = []) .missingAgentMode
  .refuseIf (binding.defaultAgentMode ∉ binding.allowedAgentModes) .defaultAgentModeNotAllowed
  let principalCount := binding.allowedUserIds.size + binding.allowedUserGroupIds.size
  .refuseIf (principalCount = 0) .missingPrincipal
  .refuseIf (principalCount > maxPrincipalsPerBinding) .tooManyPrincipals
  Except.checkAll validateStableIdentifier (binding.allowedUserIds.keys ++ binding.allowedUserGroupIds.keys)
  validateBudget binding.budgetPolicy
  return { binding with repositoryAllowlist := repositoryAllowlist, defaultRepository := defaultRepository }

def ChannelProjectBinding.key (binding : ChannelProjectBinding) : ChannelKey :=
  (binding.workspaceId, binding.channelId)

namespace SlackProjectRegistry

/-- The loop of `from_json` over the bindings of the document. -/
def insertBindings (readers : RegistryReaders) (bindings : Table ChannelKey ChannelProjectBinding) :
    List ChannelProjectBinding → Except RegistryError (Table ChannelKey ChannelProjectBinding)
  | [] => .ok bindings
  | binding :: rest => do
    let binding ← validateBinding readers binding
    .refuseIf (bindings.contains binding.key = true) .duplicateBinding
    insertBindings readers (bindings.insert binding.key binding) rest

def fromJson (readers : RegistryReaders) (input : List UInt8) : Except RegistryError SlackProjectRegistry :=
  match readers.document input with
  | none => .error .json
  | some document => do
    .refuseIf (document.schemaVersion ≠ schemaVersion) .unsupportedSchema
    .refuseIf (document.bindings.length > maxBindings) .tooManyBindings
    return ⟨← insertBindings readers .empty document.bindings⟩

end SlackProjectRegistry

def parseLinearIssueIdentifier (value : Text) : Except RegistryError LinearIssueRef :=
  let value := Text.trim value
  match Text.splitOnce '-' value with
  | none => .error .invalidIssueIdentifier
  | some (teamKey, number) => do
    (validateTeamKey teamKey).mapError fun _ => .invalidIssueIdentifier
    .refuseIf (number = [] ∨ number.head? = some '0' ∨ ¬ number.all Char.isDigit) .invalidIssueIdentifier
    match (Http.parseU64 number).filter (0 < ·) with
    | none => throw .invalidIssueIdentifier
    | some n => return { identifier := value, teamKey := teamKey, number := n }

/-- The repository of a request against a loaded binding, whose default is normalised. -/
def ResolveRequest.repository (request : ResolveRequest) (binding : ChannelProjectBinding) :
    Except RegistryError Text :=
  match request.requestedRepository with
  | some repository => normalizeRepository repository
  | none => .ok binding.defaultRepository

namespace SlackProjectRegistry

def resolve (registry : SlackProjectRegistry) (request : ResolveRequest) :
    Except RegistryError ResolvedProjectContext := do
  validateStableIdentifier request.workspaceId
  validateStableIdentifier request.channelId
  validateStableIdentifier request.userId
  Except.checkAll validateStableIdentifier request.userGroupIds.keys
  match registry.bindings.get (request.workspaceId, request.channelId) with
  | none => throw .unmappedChannel
  | some binding =>
    let authorizedByUser := decide (request.userId ∈ binding.allowedUserIds)
    let authorizedByGroup := request.userGroupIds.keys.any fun groupId => groupId ∈ binding.allowedUserGroupIds
    .refuseIf (!authorizedByUser && !authorizedByGroup) .unauthorizedPrincipal
    let repository ← request.repository binding
    .refuseIf (repository ∉ binding.repositoryAllowlist) .repositoryNotAllowed
    let agentMode := request.requestedAgentMode.getD binding.defaultAgentMode
    .refuseIf (agentMode ∉ binding.allowedAgentModes) .agentModeNotAllowed
    .refuseIf (¬ binding.writePolicy.permits request.requestedCapability) .writeNotAllowed
    let issue ← request.linearIssueIdentifier.mapM parseLinearIssueIdentifier
    .refuseIf (issue.any fun issue => issue.teamKey ≠ binding.linearTeamKey) .issueTeamMismatch
    return {
      workspaceId := binding.workspaceId
      channelId := binding.channelId
      linearTeamId := binding.linearTeamId
      linearTeamKey := binding.linearTeamKey
      linearProjectId := binding.linearProjectId
      repository := repository
      agentMode := agentMode
      writePolicy := binding.writePolicy
      budgetPolicy := binding.budgetPolicy
      issue := issue }

end SlackProjectRegistry
end AgentBridge.Slack
