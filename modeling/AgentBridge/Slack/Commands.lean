import AgentBridge.Slack.Form
import AgentBridge.Slack.Registry

/-! Slash commands and modal submissions: what a request must name, the run it asks for, and how the
installed project authorises it. -/

namespace AgentBridge.Slack

def maxPromptBytes : Nat := 100000
def callbackId : Text := "ores-agent-run-v1".toList

inductive Provider
  | claude | chatgpt
deriving DecidableEq

namespace Provider

def fromCommand (command : Text) : Option Provider :=
  let command := Text.trim command
  if command ∈ ["/ores-claude".toList, "/x-claude".toList, "/my-claude".toList, "/x-ores-claude".toList] then
    some .claude
  else if command ∈ ["/ores-chatgpt".toList, "/x-chatgpt".toList, "/my-chatgpt".toList, "/x-ores-chatgpt".toList] then
    some .chatgpt
  else none

def fromRequestPath (path : Text) : Option Provider :=
  if path ∈ ["/slack/commands/ores-claude".toList, "/slack/commands/x-ores-claude".toList] then some .claude
  else if path ∈ ["/slack/commands/ores-chatgpt".toList, "/slack/commands/x-ores-chatgpt".toList] then some .chatgpt
  else none

def mode : Provider → AgentMode
  | claude => .claude
  | chatgpt => .chatgpt

def label : Provider → Text
  | claude => "Claude".toList
  | chatgpt => "ChatGPT".toList

end Provider

/-- What the modelled functions read of the configuration; the first two are environment variables
that are read again at every request. -/
structure CommandConfig where
  expectedAppId : Option Text
  expectedTeamId : Option Text
  allowUnpinnedIdentity : Bool
  contextMessages : Nat
  contextChoice : contextMessages ∈ [0, 5, 10, 20]
  maxConcurrentRuns : Nat
  dryRun : Bool

def expectedAppIdEnv : Text := "SLACK_EXPECTED_APP_ID".toList
def expectedTeamIdEnv : Text := "SLACK_EXPECTED_TEAM_ID".toList
def allowUnpinnedIdentityEnv : Text := "SLACK_ALLOW_UNPINNED_IDENTITY".toList

def identifier (name value : Text) : Except Error Text :=
  let value := Text.trim value
  if value = [] ∨ Text.byteLen value > maxIdentifierBytes ∨ ¬ value.all identifierChar then
    .error (.config (name ++ " contains an invalid identifier".toList))
  else .ok value

def field (form : Form) (key : Text) : Except Error Text :=
  match (form.get key).filter fun value => Text.trim value ≠ [] with
  | none => .error .request
  | some value => .ok value

def idField (form : Form) (key : Text) : Except Error Text := do
  let value ← field form key
  (identifier key value).mapError fun _ => .request

structure SlashCommand where
  teamId : Text
  channelId : Text
  userId : Text
  command : Text
  text : Text
  triggerId : Text
  /-- `provider` relies on the check that `parse` made. -/
  provider : Provider
  named : Provider.fromCommand command = some provider

def SlashCommand.parse (body : List Nat) : Except Error SlashCommand := do
  let form ← parseForm body
  let command ← field form "command".toList
  match named : Provider.fromCommand command with
  | none => throw .request
  | some provider =>
    return {
      teamId := ← idField form "team_id".toList
      channelId := ← idField form "channel_id".toList
      userId := ← idField form "user_id".toList
      command := command
      text := (form.get "text".toList).getD []
      triggerId := ← field form "trigger_id".toList
      provider := provider
      named := named }

def configuredSlackIdentity (config : CommandConfig) : Except Error (Option (Text × Text)) :=
  match config.expectedAppId, config.expectedTeamId with
  | some appId, some teamId => do
    return some (← identifier expectedAppIdEnv appId, ← identifier expectedTeamIdEnv teamId)
  | none, none =>
    if config.allowUnpinnedIdentity then .ok none
    else .error (.config (expectedAppIdEnv ++ " and ".toList ++ expectedTeamIdEnv ++ " are required unless ".toList ++
      allowUnpinnedIdentityEnv ++ " is set".toList))
  | _, _ => .error (.config (expectedAppIdEnv ++ " and ".toList ++ expectedTeamIdEnv ++
      " must be configured together".toList))

def validateSlashEnvelope (config : CommandConfig) (body : List Nat) (expectedProvider : Provider) :
    Except Error Unit := do
  let form ← parseForm body
  match Provider.fromCommand (← field form "command".toList) with
  | none => throw .request
  | some actualProvider =>
    .refuseIf (actualProvider ≠ expectedProvider) .request
    match ← configuredSlackIdentity config with
    | none => return
    | some (expectedAppId, expectedTeamId) =>
      let appId ← idField form "api_app_id".toList
      .refuseIf (appId ≠ expectedAppId) .policy
      let teamId ← idField form "team_id".toList
      .refuseIf (teamId ≠ expectedTeamId) .policy

/-! ### Runs -/

structure ModalMetadata where
  provider : Provider
  teamId : Text
  channelId : Text
  userId : Text

structure InteractionValue where
  value : Option Text
  /-- The `value` of the selected option. -/
  selectedOption : Option Text

structure InteractionPayload where
  kind : Text
  teamId : Text
  userId : Text
  viewId : Text
  callbackId : Text
  privateMetadata : Text
  /-- The state of the view, by block and action. -/
  values : Table Text (Table Text InteractionValue)

structure RunRequest where
  runId : Text
  sourceKey : Text
  occurredAt : Text
  provider : Provider
  teamId : Text
  channelId : Text
  userId : Text
  prompt : Text
  action : Text
  repository : Option Text
  linearIssue : Option Text
  capability : RequestedCapability
  contextMessages : Nat

/-- The digest and the derived JSON readers of other packages, and the clock. -/
structure CommandReaders where
  sha256 : List Nat → List UInt8
  modalMetadata : Text → Option ModalMetadata
  interactionPayload : Json → Option InteractionPayload
  now : Text

def hexByte (byte : UInt8) : Text := [Nat.digitChar (byte.toNat / 16), Nat.digitChar (byte.toNat % 16)]

def runId (readers : CommandReaders) (sourceKey : Text) : Text :=
  "ores-".toList ++ ((readers.sha256 (Url.encodeUtf8 sourceKey)).take 12).flatMap hexByte

def prompt (value : Text) : Except Error Text :=
  let value := Text.trim value
  if value = [] ∨ Text.byteLen value > maxPromptBytes ∨ Char.ofNat 0 ∈ value then .error .request else .ok value

/-- The characters that end a token of `find_issue`. -/
def issueBreak (c : Char) : Bool := !Text.isAsciiAlphanumeric c && c != '-'

def issueToken (token : Text) : Bool :=
  match Text.splitOnce '-' token with
  | none => false
  | some (team, number) => decide (2 ≤ Text.byteLen team ∧ Text.byteLen team ≤ 10) && team.all Char.isUpper &&
      !number.isEmpty && number.all Char.isDigit

def findIssue (text : Text) : Option Text := (text.splitOnP issueBreak).find? issueToken

def sourceKey (kind : Text) (parts : List Text) : Text := Components.join ':' (kind :: parts)

namespace RunRequest

def direct (readers : CommandReaders) (command : SlashCommand) (contextMessages : Nat) : Except Error RunRequest := do
  let prompt ← Slack.prompt command.text
  let sourceKey := Slack.sourceKey "slash".toList [command.teamId, command.channelId, command.userId, command.triggerId]
  return {
    runId := Slack.runId readers sourceKey
    sourceKey := sourceKey
    occurredAt := readers.now
    provider := command.provider
    teamId := command.teamId
    channelId := command.channelId
    userId := command.userId
    linearIssue := findIssue prompt
    prompt := prompt
    action := "implement".toList
    repository := none
    capability := .repositoryWrite
    contextMessages := contextMessages }

def stateValue (payload : InteractionPayload) (block action : Text) : Except Error InteractionValue :=
  match (payload.values.get block).bind fun actions => actions.get action with
  | none => .error .request
  | some value => .ok value

def textValue (payload : InteractionPayload) (block action : Text) : Except Error Text := do
  match (← stateValue payload block action).value.filter fun value => Text.trim value ≠ [] with
  | none => throw .request
  | some value => return value

def optionalText (payload : InteractionPayload) (block action : Text) : Except Error (Option Text) := do
  return ((← stateValue payload block action).value.map Text.trim).filter fun value => value ≠ []

def selected (payload : InteractionPayload) (block action : Text) : Except Error Text := do
  match (← stateValue payload block action).selectedOption with
  | none => throw .request
  | some value => return value

def capabilityOf (scope : Text) : Except Error RequestedCapability :=
  if scope = "read_only".toList then .ok .readOnly
  else if scope = "linear_write".toList then .ok .linearWrite
  else if scope = "draft_pull_request".toList then .ok .repositoryWrite
  else .error .request

def contextCount (text : Text) : Except Error Nat :=
  match (Http.parseU64 text).filter (· ∈ [0, 5, 10, 20]) with
  | none => .error .request
  | some n => .ok n

def interaction (readers : CommandReaders) (payload : InteractionPayload) : Except Error RunRequest := do
  .refuseIf (payload.kind ≠ "view_submission".toList ∨ payload.callbackId ≠ callbackId) .request
  match readers.modalMetadata payload.privateMetadata with
  | none => throw .request
  | some metadata =>
    .refuseIf (metadata.teamId ≠ payload.teamId ∨ metadata.userId ≠ payload.userId) .request
    let prompt ← Slack.prompt (← textValue payload "task".toList "task".toList)
    let capability ← capabilityOf (← selected payload "write_scope".toList "write_scope".toList)
    let contextMessages ← contextCount (← selected payload "context_messages".toList "context_messages".toList)
    let sourceKey := Slack.sourceKey "view".toList
      [metadata.teamId, metadata.channelId, metadata.userId, payload.viewId]
    let action ← selected payload "action".toList "action".toList
    let repository ← selected payload "repository".toList "repository".toList
    let linearIssue ← optionalText payload "issue".toList "issue".toList
    return {
      runId := Slack.runId readers sourceKey
      sourceKey := sourceKey
      occurredAt := readers.now
      provider := metadata.provider
      teamId := metadata.teamId
      channelId := metadata.channelId
      userId := metadata.userId
      prompt := prompt
      action := action
      repository := some repository
      linearIssue := linearIssue
      capability := capability
      contextMessages := contextMessages }

end RunRequest

/-! ### Authorisation -/

structure Usergroup where
  id : Text
  users : List Text

structure UsergroupsResponse where
  ok : Bool
  usergroups : List Usergroup

/-- The application: the document it was started with, as the registry loaded it and as it stands. -/
structure CommandApp where
  config : CommandConfig
  registryReaders : RegistryReaders
  registryBytes : List UInt8
  document : SlackProjectRegistryDocument
  registry : SlackProjectRegistry
  decoded : registryReaders.document registryBytes = some document
  loaded : SlackProjectRegistry.fromJson registryReaders registryBytes = .ok registry

/-- What the registry is asked for a run. -/
def RunRequest.resolveRequest (request : RunRequest) (groups : KeySet Text) : ResolveRequest where
  workspaceId := request.teamId
  channelId := request.channelId
  userId := request.userId
  userGroupIds := groups
  requestedRepository := request.repository
  requestedAgentMode := some request.provider.mode
  requestedCapability := request.capability
  linearIssueIdentifier := request.linearIssue

/-- What the registry is asked before a menu is opened. -/
def SlashCommand.resolveRequest (command : SlashCommand) (groups : KeySet Text) : ResolveRequest where
  workspaceId := command.teamId
  channelId := command.channelId
  userId := command.userId
  userGroupIds := groups
  requestedRepository := none
  requestedAgentMode := some command.provider.mode
  requestedCapability := .readOnly
  linearIssueIdentifier := none

namespace CommandApp

def bindings (app : CommandApp) : Table ChannelKey ChannelProjectBinding :=
  app.document.bindings.foldl (fun bindings binding => bindings.insert binding.key binding) .empty

/-- `usergroups` is what Slack answered, if it did. -/
def groups (app : CommandApp) (usergroups : Option UsergroupsResponse) (teamId channelId userId : Text) :
    Except Error (KeySet Text) :=
  match app.bindings.get (teamId, channelId) with
  | none => .error .policy
  | some binding =>
    if userId ∈ binding.allowedUserIds ∨ binding.allowedUserGroupIds.keys = [] then .ok .empty
    else match usergroups with
    | none => .error .slack
    | some response =>
      if !response.ok then .error .slack
      else .ok (.ofList ((response.usergroups.filter fun group => userId ∈ group.users).map Usergroup.id))

def resolve (app : CommandApp) (usergroups : Option UsergroupsResponse) (request : RunRequest) :
    Except Error ResolvedProjectContext := do
  let groups ← app.groups usergroups request.teamId request.channelId request.userId
  (app.registry.resolve (request.resolveRequest groups)).mapError fun _ => .policy

def commandBinding (app : CommandApp) (usergroups : Option UsergroupsResponse) (command : SlashCommand) :
    Except Error ChannelProjectBinding := do
  let groups ← app.groups usergroups command.teamId command.channelId command.userId
  let _ ← (app.registry.resolve (command.resolveRequest groups)).mapError fun _ => .policy
  match app.bindings.get (command.teamId, command.channelId) with
  | none => throw .policy
  | some binding => return binding

end CommandApp
end AgentBridge.Slack
