import AgentBridge.Slack.Context
import AgentBridge.Slack.Grammar
import AgentBridge.Slack.Modal

/-! The dialog of the slash commands: the menus it offers from the configuration, and the checks that its submission
has to pass against the same configuration. -/

namespace AgentBridge.Slack

namespace Bridge

/-! ### The configuration -/

def maxIdentifierBytes : Nat := 255
def defaultClaudeAgentKey : Text := "claude-fable-5".toList
def defaultOpenaiAgentKey : Text := "gpt-5.6-sol".toList
def defaultContextMessages : Nat := 5
def maxContextMessages : Nat := 25

def envOpt (env : Text → Option Text) (key : Text) : Option Text := ((env key).map Text.trim).filter (· ≠ [])

def envOr (env : Text → Option Text) (key default : Text) : Text := (envOpt env key).getD default

/-- What `normalize_identifier` admits. -/
structure Identifier where
  text : Text
  printable : Text.printable maxIdentifierBytes text = true
deriving DecidableEq

def normalizeIdentifier (name value : Text) : Except Text Identifier :=
  if h : Text.printable maxIdentifierBytes (Text.trim value) = true then .ok ⟨Text.trim value, h⟩
  else .error (name ++ " contains an invalid identifier".toList)

/-- The entries of a menu, in the order of the configuration. -/
structure Choices where
  items : List Identifier
  nodup : items.Nodup

namespace Choices

def empty : Choices := ⟨[], List.nodup_nil⟩

def push (values : Choices) (item : Identifier) (h : item ∉ values.items) : Choices where
  items := values.items ++ [item]
  nodup := List.nodup_append'.mpr ⟨values.nodup, List.nodup_singleton item, List.disjoint_singleton.mpr h⟩

def texts (values : Choices) : List Text := values.items.map Identifier.text

end Choices

structure NonemptyChoices extends Choices where
  nonempty : items ≠ []

def NonemptyChoices.single (item : Identifier) : NonemptyChoices where
  items := [item]
  nodup := List.nodup_singleton item
  nonempty := List.cons_ne_nil item []

def csvList (key : Text) : (values : Choices) → List Text → Except Text Choices
  | values, [] => .ok values
  | values, item :: items => do
    let item ← normalizeIdentifier key item
    if h : item ∈ values.items then throw (key ++ " contains a duplicate entry".toList)
    else csvList key (values.push item h) items

def optionalCsvList (env : Text → Option Text) (key : Text) : Except Text (Option NonemptyChoices) :=
  match envOpt env key with
  | none => .ok none
  | some raw => do
    let values ← csvList key .empty (raw.splitOn ',')
    if h : values.items = [] then throw (key ++ " must contain at least one entry".toList)
    else return some ⟨values, h⟩

def optionalCsvSet (env : Text → Option Text) (key : Text) : Except Text (KeySet Text) :=
  match envOpt env key with
  | none => .ok .empty
  | some raw => return .ofList ((← (raw.splitOn ',').mapM (normalizeIdentifier key)).map Identifier.text)

def requiredCsvSet (env : Text → Option Text) (key : Text) : Except Text (KeySet Text) := do
  let values ← optionalCsvSet env key
  .refuseIf (values.size = 0) (key ++ " must contain at least one identifier".toList)
  return values

def envUsize (env : Text → Option Text) (key : Text) (default minimum maximum : Nat) :
    Except Text { n : Nat // minimum ≤ n ∧ n ≤ maximum } := do
  let value ← match envOpt env key with
    | none => pure default
    | some value => match Http.parseU64 value with
      | none => throw (key ++ " must be an unsigned integer".toList)
      | some value => pure value
  if h : minimum ≤ value ∧ value ≤ maximum then return ⟨value, h⟩
  else throw (key ++ " must be between ".toList ++ Text.decimal minimum ++ " and ".toList ++ Text.decimal maximum)

/-- What the slash commands read of the configuration. -/
structure SlackConfig where
  allowedTeamIds : KeySet Text
  allowedChannelIds : KeySet Text
  claudeModelChoices : NonemptyChoices
  openaiModelChoices : NonemptyChoices
  disjoint : ∀ key ∈ claudeModelChoices.items, key ∉ openaiModelChoices.items
  targetChoices : Choices
  contextMessageMax : Nat
  contextMessageDefault : Nat
  maxWithin : contextMessageMax ≤ maxContextMessages
  defaultWithin : contextMessageDefault ≤ contextMessageMax

def SlackConfig.fromEnv (env : Text → Option Text) : Except Text SlackConfig := do
  let allowedTeamIds ← requiredCsvSet env "SLACK_ALLOWED_TEAM_IDS".toList
  let allowedChannelIds ← requiredCsvSet env "SLACK_ALLOWED_CHANNEL_IDS".toList
  let claudeAgentKey ← normalizeIdentifier "SLACK_CLAUDE_AGENT_KEY".toList
    (envOr env "SLACK_CLAUDE_AGENT_KEY".toList defaultClaudeAgentKey)
  let openaiAgentKey ← normalizeIdentifier "SLACK_OPENAI_AGENT_KEY".toList
    (envOr env "SLACK_OPENAI_AGENT_KEY".toList defaultOpenaiAgentKey)
  .refuseIf (claudeAgentKey = openaiAgentKey) "Slack model agent keys must be distinct".toList
  let claudeModelChoices := (← optionalCsvList env "SLACK_CLAUDE_MODEL_CHOICES".toList).getD (.single claudeAgentKey)
  let openaiModelChoices := (← optionalCsvList env "SLACK_OPENAI_MODEL_CHOICES".toList).getD (.single openaiAgentKey)
  if hoverlap : ∃ key ∈ claudeModelChoices.items, key ∈ openaiModelChoices.items then
    throw "SLACK_CLAUDE_MODEL_CHOICES and SLACK_OPENAI_MODEL_CHOICES must not overlap".toList
  else
    let targetChoices :=
      ((← optionalCsvList env "SLACK_TARGET_CHOICES".toList).map NonemptyChoices.toChoices).getD .empty
    let contextMessageMax ← envUsize env "SLACK_CONTEXT_MESSAGE_MAX".toList maxContextMessages 0 maxContextMessages
    let contextMessageDefault ← envUsize env "SLACK_CONTEXT_MESSAGE_DEFAULT".toList
      (min defaultContextMessages contextMessageMax) 0 contextMessageMax
    return {
      allowedTeamIds := allowedTeamIds
      allowedChannelIds := allowedChannelIds
      claudeModelChoices := claudeModelChoices
      openaiModelChoices := openaiModelChoices
      disjoint := fun key hkey hother => hoverlap ⟨key, hkey, hother⟩
      targetChoices := targetChoices
      contextMessageMax := contextMessageMax
      contextMessageDefault := contextMessageDefault
      maxWithin := contextMessageMax.2.2
      defaultWithin := contextMessageDefault.2.2 }

/-! ### The dialog -/

def callbackId : Text := "agent_dispatch".toList

inductive Provider
  | claude | openAi
deriving DecidableEq

namespace Provider

def slug : Provider → Text
  | claude => "claude".toList
  | openAi => "chatgpt".toList

def title : Provider → Text
  | claude => "Send work to Claude".toList
  | openAi => "Send work to ChatGPT".toList

def choices (config : SlackConfig) : Provider → NonemptyChoices
  | claude => config.claudeModelChoices
  | openAi => config.openaiModelChoices

def fromSlug (value : Text) : Option Provider :=
  if value = "claude".toList then some claude
  else if value = "chatgpt".toList then some openAi
  else none

end Provider

inductive TaskType
  | ask | newWork | reviewRepo | triageLinear
deriving DecidableEq

namespace TaskType

def fromValue (value : Text) : TaskType :=
  if value = "new_work".toList then newWork
  else if value = "review_repo".toList then reviewRepo
  else if value = "triage_linear".toList then triageLinear
  else ask

def value : TaskType → Text
  | ask => "ask".toList
  | newWork => "new_work".toList
  | reviewRepo => "review_repo".toList
  | triageLinear => "triage_linear".toList

def label : TaskType → Text
  | ask => "Ask a question".toList
  | newWork => "Draft new work".toList
  | reviewRepo => "Review a repository".toList
  | triageLinear => "Triage a Linear issue".toList

def all : List TaskType := [ask, newWork, reviewRepo, triageLinear]

end TaskType

/-- What the dialog carries to Slack and back. -/
structure ModalContext where
  provider : Text
  channelId : Text
  channelName : Text
  teamId : Text
  userId : Text
deriving DecidableEq

/-- The serializer of another package, both ways. -/
structure ContextCodec where
  write : ModalContext → Text
  read : Text → Option ModalContext

structure SlashCommandForm where
  text : Text
  teamId : Text
  channelId : Text
  channelName : Text
  userId : Text

def channelIsAllowed (config : SlackConfig) (teamId channelId : Text) : Bool :=
  decide (teamId ≠ [] ∧ channelId ≠ [] ∧ teamId ∈ config.allowedTeamIds ∧ channelId ∈ config.allowedChannelIds)

inductive Element
  | plainTextInput (multiline : Bool) (maxLength : Nat) (initialValue : Text)
  | staticSelect (options : List MenuOption) (initialOption : Option MenuOption)

/-- An input block; its element has the action `value`. -/
structure Block where
  blockId : Text
  label : Text
  element : Element

structure View where
  callbackId : Text
  privateMetadata : Text
  title : Text
  submit : Text
  close : Text
  blocks : List Block

def menuOption (value label : Text) : MenuOption := ⟨truncateUtf8 label 72, truncateUtf8 value 150⟩

def selectOptions (values : List (Text × Text)) : List MenuOption :=
  values.map fun (value, label) => menuOption value label

def staticSelectBlock (blockId label : Text) (options : List MenuOption) (initial : Option MenuOption) : Block :=
  ⟨blockId, label, .staticSelect options initial⟩

def modalContext (provider : Provider) (form : SlashCommandForm) : ModalContext where
  provider := provider.slug
  channelId := form.channelId
  channelName := form.channelName
  teamId := form.teamId
  userId := form.userId

/-- The depths that the configuration allows of those the dialog knows. -/
def contextDepths (config : SlackConfig) : List Nat := [0, 5, 10, 25].filter (· ≤ config.contextMessageMax)

def depthLabel (depth : Nat) : Text :=
  if depth = 0 then "No channel context".toList else "Last ".toList ++ Text.decimal depth ++ " messages".toList

def buildModal (codec : ContextCodec) (config : SlackConfig) (provider : Provider) (form : SlashCommandForm) : View :=
  let modelOptions := selectOptions ((provider.choices config).texts.map fun key => (key, key))
  let taskOptions := selectOptions (TaskType.all.map fun task => (task.value, task.label))
  let targetOptions := selectOptions (config.targetChoices.texts.map fun target => (target, target))
  let depthOptions := selectOptions ((contextDepths config).map fun depth => (Text.decimal depth, depthLabel depth))
  let initialDepth := (depthOptions.find? fun option => option.value = Text.decimal config.contextMessageDefault).or
    depthOptions.head?
  { callbackId := callbackId
    privateMetadata := codec.write (modalContext provider form)
    title := provider.title
    submit := "Send".toList
    close := "Cancel".toList
    blocks := [
      ⟨"prompt".toList, "What should the agent do?".toList,
        .plainTextInput true 3000 (truncateUtf8 (Text.trim form.text) 3000)⟩,
      staticSelectBlock "model".toList "Model".toList modelOptions modelOptions.head?,
      staticSelectBlock "task_type".toList "Task type".toList taskOptions taskOptions.head?] ++
      (if targetOptions.isEmpty then []
        else [staticSelectBlock "target".toList "Target repository or project".toList targetOptions
          targetOptions.head?]) ++
      [staticSelectBlock "context_depth".toList "Channel context to include".toList depthOptions initialDepth] }

/-! ### Its submission -/

structure InteractionView where
  id : Text
  callbackId : Text
  privateMetadata : Text
  values : Table Text (Table Text InteractionValue)

structure InteractionPayload where
  kind : Text
  view : Option InteractionView
  /-- The ids of the team and of the user. -/
  team : Option Text
  user : Option Text

namespace InteractionView

def text (view : InteractionView) (block : Text) : Text :=
  (((view.values.get block).bind fun actions => actions.get "value".toList).bind InteractionValue.value).getD []

def selected (view : InteractionView) (block : Text) : Text :=
  (((view.values.get block).bind fun actions => actions.get "value".toList).bind
    InteractionValue.selectedOption).getD []

end InteractionView

structure DispatchRequest extends Slack.DispatchRequest where
  taskType : TaskType
  target : Text
  contextDepth : Nat
  prompt : Text
  channelId : Text
  channelName : Text
  teamId : Text
  userId : Text

/-- An answer without a dispatch: empty, or an error that the dialog shows at its prompt. -/
inductive Rejection
  | ignored
  | errors (prompt : Text)
deriving DecidableEq

def modalError (message : Text) : Rejection := .errors (truncateUtf8 message 2000)

def dispatchId (provider : Provider) (viewId : Text) : Text :=
  "cmd.".toList ++ provider.slug ++ ".".toList ++ viewId

/-- The id that Slack sent, if there is one. -/
def sentOr (id : Option Text) (default : Text) : Text := (id.filter (· ≠ [])).getD default

/-- `slack_interactions` from the prompt on. -/
def checkSubmission (config : SlackConfig) (provider : Provider) (metadata : ModalContext) (teamId : Text)
    (user : Option Text) (view : InteractionView) : Except Rejection DispatchRequest := do
  let prompt := Text.trim (view.text "prompt".toList)
  .refuseIf (prompt = [] ∨ Text.byteLen prompt > maxPromptBytes)
    (.errors "Enter a task between 1 and 3000 characters.".toList)
  let agentKey := view.selected "model".toList
  .refuseIf (agentKey ∉ (provider.choices config).texts)
    (modalError "That model is not enabled for this command.".toList)
  let target := view.selected "target".toList
  .refuseIf (target ≠ [] ∧ target ∉ config.targetChoices.texts)
    (modalError "That target is not configured on this bridge.".toList)
  let contextDepth := min ((Http.parseU64 (view.selected "context_depth".toList)).getD config.contextMessageDefault)
    config.contextMessageMax
  .refuseIf (!validEventId (dispatchId provider view.id))
    (modalError "This dialog produced an unusable dispatch id.".toList)
  return {
    dispatchId := dispatchId provider view.id
    providerSlug := provider.slug
    agentKey := agentKey
    taskType := TaskType.fromValue (view.selected "task_type".toList)
    target := target
    contextDepth := contextDepth
    prompt := prompt
    channelId := metadata.channelId
    channelName := metadata.channelName
    teamId := teamId
    userId := sentOr user metadata.userId }

/-- The checks of `slack_interactions` on a payload that could be read. -/
def slackInteractions (codec : ContextCodec) (config : SlackConfig) (payload : InteractionPayload) :
    Except Rejection DispatchRequest := do
  .refuseIf (payload.kind ≠ "view_submission".toList) .ignored
  match payload.view with
  | none => throw .ignored
  | some view =>
    .refuseIf (view.callbackId ≠ callbackId) .ignored
    match codec.read view.privateMetadata with
    | none => throw (modalError "This dialog is missing its routing context.".toList)
    | some metadata =>
      let teamId := sentOr payload.team metadata.teamId
      .refuseIf (!channelIsAllowed config teamId metadata.channelId)
        (modalError "This channel is not allowlisted for agent dispatch.".toList)
      match Provider.fromSlug metadata.provider with
      | none => throw (modalError "Unknown agent provider for this dialog.".toList)
      | some provider => checkSubmission config provider metadata teamId payload.user view

/-! ### What is offered -/

def Block.options (block : Block) : List MenuOption :=
  match block.element with
  | .plainTextInput .. => []
  | .staticSelect options _ => options

def View.offered (view : View) (blockId : Text) : List MenuOption :=
  (view.blocks.filter (·.blockId = blockId)).flatMap Block.options

/-- What a user picks in the menus, in the terms of the configuration. -/
structure Choice where
  agentKey : Identifier
  taskType : TaskType
  target : Option Identifier
  contextDepth : Nat

/-- Among options built from these sources in turn, one that was built from `source` has this value. -/
def Offers {α : Type} (sources : List α) (options : List MenuOption) (source : α) (value : Text) : Prop :=
  ∃ option, (source, option) ∈ sources.zip options ∧ option.value = value

/-- A submission of the dialog for the same provider, with the options built from `choice`. -/
structure Echoes (codec : ContextCodec) (config : SlackConfig) (provider : Provider) (form : SlashCommandForm)
    (choice : Choice) (payload : InteractionPayload) (view : InteractionView) : Prop where
  kind : payload.kind = "view_submission".toList
  sent : payload.view = some view
  callbackId : view.callbackId = (buildModal codec config provider form).callbackId
  privateMetadata : view.privateMetadata = (buildModal codec config provider form).privateMetadata
  team : channelIsAllowed config (sentOr payload.team form.teamId) form.channelId = true
  prompt : Text.trim (view.text "prompt".toList) ≠ []
  promptFits : Text.byteLen (Text.trim (view.text "prompt".toList)) ≤ maxPromptBytes
  dispatchId : validEventId (dispatchId provider view.id) = true
  model : Offers (provider.choices config).items ((buildModal codec config provider form).offered "model".toList)
    choice.agentKey (view.selected "model".toList)
  taskType : Offers TaskType.all ((buildModal codec config provider form).offered "task_type".toList)
    choice.taskType (view.selected "task_type".toList)
  /-- Without targets the dialog has no menu for them. -/
  target : match choice.target with
    | none => (buildModal codec config provider form).offered "target".toList = [] ∧
        view.selected "target".toList = []
    | some target => Offers config.targetChoices.items
        ((buildModal codec config provider form).offered "target".toList) target (view.selected "target".toList)
  contextDepth : Offers (contextDepths config)
    ((buildModal codec config provider form).offered "context_depth".toList) choice.contextDepth
    (view.selected "context_depth".toList)

structure DispatchRequest.Names (request : DispatchRequest) (provider : Provider) (choice : Choice) : Prop where
  provider : request.providerSlug = provider.slug
  agentKey : request.agentKey = choice.agentKey.text
  taskType : request.taskType = choice.taskType
  target : request.target = (choice.target.map Identifier.text).getD []
  contextDepth : request.contextDepth = choice.contextDepth

/-- Every option of the dialog is accepted for what it was built from, and no menu has a value twice. -/
structure OptionsAccepted (codec : ContextCodec) (config : SlackConfig) (provider : Provider)
    (form : SlashCommandForm) : Prop where
  distinct : ∀ block ∈ (buildModal codec config provider form).blocks, (block.options.map MenuOption.value).Nodup
  accepted : ∀ choice payload view, Echoes codec config provider form choice payload view →
    ∃ request, slackInteractions codec config payload = .ok request ∧ request.Names provider choice

/-- The identifiers that the dialog offers are as long as the value of an option may be. -/
def OptionsFit (config : SlackConfig) (provider : Provider) : Prop :=
  (∀ key ∈ (provider.choices config).items, Text.byteLen key.text ≤ 150) ∧
    ∀ target ∈ config.targetChoices.items, Text.byteLen target.text ≤ 150

section Menus
variable {codec : ContextCodec} {config : SlackConfig} {provider : Provider} {form : SlashCommandForm}

theorem offers_map {α : Type} {sources : List α} {option : α → MenuOption} {source : α} {value : Text} :
    Offers sources (sources.map option) source value ↔ source ∈ sources ∧ (option source).value = value := by
  rw [Offers, ← List.map_prod_left_eq_zip]
  simp only [List.mem_map, Prod.mk.injEq]
  constructor
  · rintro ⟨_, ⟨_, hsource, rfl, rfl⟩, hvalue⟩
    exact ⟨hsource, hvalue⟩
  · rintro ⟨hsource, hvalue⟩
    exact ⟨_, ⟨source, hsource, rfl, rfl⟩, hvalue⟩

def identifierOption (key : Identifier) : MenuOption := menuOption key.text key.text

def taskOption (task : TaskType) : MenuOption := menuOption task.value task.label

def depthOption (depth : Nat) : MenuOption := menuOption (Text.decimal depth) (depthLabel depth)

theorem selectOptions_texts (choices : Choices) :
    selectOptions (choices.texts.map fun key => (key, key)) = choices.items.map identifierOption := by
  rw [selectOptions, Choices.texts, List.map_map, List.map_map]
  rfl

theorem selectOptions_map {α : Type} (l : List α) (value label : α → Text) :
    selectOptions (l.map fun a => (value a, label a)) = l.map fun a => menuOption (value a) (label a) := by
  rw [selectOptions, List.map_map]
  rfl

theorem offered_model : (buildModal codec config provider form).offered "model".toList =
    (provider.choices config).items.map identifierOption := by
  rw [← selectOptions_texts, View.offered, buildModal]
  dsimp only
  split <;> exact List.append_nil _

theorem offered_taskType :
    (buildModal codec config provider form).offered "task_type".toList = TaskType.all.map taskOption := by
  rw [View.offered, buildModal]
  dsimp only
  split <;> rfl

theorem offered_target : (buildModal codec config provider form).offered "target".toList =
    config.targetChoices.items.map identifierOption := by
  rw [View.offered, buildModal, ← selectOptions_texts]
  dsimp only
  split
  · rename_i hnone
    exact (List.isEmpty_iff.mp hnone).symm
  · exact List.append_nil _

theorem offered_contextDepth : (buildModal codec config provider form).offered "context_depth".toList =
    (contextDepths config).map depthOption := by
  unfold depthOption
  rw [View.offered, buildModal, ← selectOptions_map]
  dsimp only
  split <;> exact List.append_nil _

end Menus

section Submissions
variable {codec : ContextCodec} {config : SlackConfig} {provider : Provider} {form : SlashCommandForm}
  {choice : Choice} {payload : InteractionPayload} {view : InteractionView} {metadata : ModalContext} {teamId : Text}
  {user : Option Text} {request : DispatchRequest} {key : Identifier} {choices : Choices}

@[simp] theorem fromSlug_slug (provider : Provider) : Provider.fromSlug provider.slug = some provider := by
  cases provider <;> decide

@[simp] theorem fromValue_value (task : TaskType) : TaskType.fromValue task.value = task := by
  cases task <;> decide

/-- What a submission that passed the checks is dispatched with. -/
structure Dispatched (config : SlackConfig) (provider : Provider) (view : InteractionView) (request : DispatchRequest) :
    Prop where
  providerSlug : request.providerSlug = provider.slug
  agentKey : request.agentKey = view.selected "model".toList
  taskType : request.taskType = TaskType.fromValue (view.selected "task_type".toList)
  target : request.target = view.selected "target".toList
  contextDepth : request.contextDepth = min
    ((Http.parseU64 (view.selected "context_depth".toList)).getD config.contextMessageDefault) config.contextMessageMax

theorem checkSubmission_dispatched (h : checkSubmission config provider metadata teamId user view = .ok request) :
    Dispatched config provider view request := by
  simp only [checkSubmission, Except.bind_eq_ok] at h
  obtain ⟨-, -, -, -, -, -, -, -, ⟨⟩⟩ := h
  exact ⟨rfl, rfl, rfl, rfl, rfl⟩

theorem checkSubmission_ok (hprompt : Text.trim (view.text "prompt".toList) ≠ [])
    (hfits : Text.byteLen (Text.trim (view.text "prompt".toList)) ≤ maxPromptBytes)
    (hmodel : view.selected "model".toList ∈ (provider.choices config).texts)
    (htarget : view.selected "target".toList ≠ [] → view.selected "target".toList ∈ config.targetChoices.texts)
    (hid : validEventId (dispatchId provider view.id) = true) :
    ∃ request, checkSubmission config provider metadata teamId user view = .ok request := by
  unfold checkSubmission
  simp only [Except.bind_eq_ok, Except.refuseIf_eq_ok]
  exact ⟨_, (), fun h => h.elim hprompt fun hlong => Nat.not_lt.mpr hfits hlong, (), not_not.mpr hmodel, (),
    fun h => h.2 (htarget h.1), (), by rw [hid]; decide, rfl⟩

theorem slackInteractions_of_echoes (h : Echoes codec config provider form choice payload view)
    (hcodec : codec.read (codec.write (modalContext provider form)) = some (modalContext provider form)) :
    slackInteractions codec config payload = checkSubmission config provider (modalContext provider form)
      (sentOr payload.team form.teamId) payload.user view := by
  have hread : codec.read view.privateMetadata = some (modalContext provider form) := by
    rw [h.privateMetadata]
    exact hcodec
  have hslug : Provider.fromSlug (modalContext provider form).provider = some provider := fromSlug_slug provider
  have hcallback : view.callbackId = Bridge.callbackId := h.callbackId
  have hteam : (!channelIsAllowed config (sentOr payload.team (modalContext provider form).teamId)
      (modalContext provider form).channelId) = false := congrArg not h.team
  unfold slackInteractions
  rw [Except.refuseIf, if_neg (not_not.mpr h.kind), h.sent]
  dsimp only [bind, Except.bind]
  rw [Except.refuseIf, if_neg (not_not.mpr hcallback), hread]
  dsimp only
  rw [hteam, Except.refuseIf, if_neg (by decide), hslug]
  rfl

theorem identifierOption_value (h : Text.byteLen key.text ≤ 150) : (identifierOption key).value = key.text :=
  truncateUtf8_of_le h

theorem byteLen_of_identifierOption (h : (identifierOption key).value = key.text) : Text.byteLen key.text ≤ 150 :=
  h ▸ byteLen_truncateUtf8 (by decide)

theorem taskOption_value (task : TaskType) : (taskOption task).value = task.value := by
  cases task <;> decide

theorem mem_contextDepths {depth : Nat} :
    depth ∈ contextDepths config ↔ depth ∈ [0, 5, 10, 25] ∧ depth ≤ config.contextMessageMax := by
  rw [contextDepths, List.mem_filter, decide_eq_true_eq]

theorem depthOption_value {depth : Nat} (h : depth ∈ contextDepths config) :
    (depthOption depth).value = Text.decimal depth ∧ Http.parseU64 (Text.decimal depth) = some depth := by
  have hall : ∀ depth ∈ [0, 5, 10, 25],
      (depthOption depth).value = Text.decimal depth ∧ Http.parseU64 (Text.decimal depth) = some depth := by
    decide +kernel
  exact hall depth (mem_contextDepths.mp h).1

theorem nodup_identifierOptions (hfit : ∀ key ∈ choices.items, Text.byteLen key.text ≤ 150) :
    ((choices.items.map identifierOption).map MenuOption.value).Nodup := by
  rw [List.map_map]
  refine choices.nodup.map_on fun key hkey key' hkey' hsame => ?_
  have htext : key.text = key'.text := by
    rw [← identifierOption_value (hfit key hkey), ← identifierOption_value (hfit key' hkey')]
    exact hsame
  cases key
  cases key'
  congr

theorem nodup_taskOptions : ((TaskType.all.map taskOption).map MenuOption.value).Nodup := by
  decide +kernel

theorem nodup_depthOptions (config : SlackConfig) :
    (((contextDepths config).map depthOption).map MenuOption.value).Nodup := by
  have hdepths : (contextDepths config).Nodup := List.Nodup.filter _ (by decide)
  rw [List.map_map]
  -- no depth is long enough to be cut off, so its value is its decimal
  refine hdepths.map_on fun depth hdepth depth' hdepth' hsame => Text.decimal_injective ?_
  rw [← (depthOption_value hdepth).1, ← (depthOption_value hdepth').1]
  exact hsame

theorem forall_blocks {P : List MenuOption → Prop} (hnil : P []) :
    (∀ block ∈ (buildModal codec config provider form).blocks, P block.options) ↔
      P ((provider.choices config).items.map identifierOption) ∧ P (TaskType.all.map taskOption) ∧
      P (config.targetChoices.items.map identifierOption) ∧ P ((contextDepths config).map depthOption) := by
  unfold taskOption depthOption
  rw [← selectOptions_texts, ← selectOptions_texts, ← selectOptions_map, ← selectOptions_map, buildModal]
  dsimp only
  split
  · rename_i hnone
    rw [List.isEmpty_iff.mp hnone]
    simp [staticSelectBlock, Block.options, hnil]
  · simp [staticSelectBlock, Block.options, hnil]

def actionValue (value : InteractionValue) : Table Text InteractionValue := Table.empty.insert "value".toList value

/-- What is sent for these options and a task. -/
def chosenView (codec : ContextCodec) (provider : Provider) (form : SlashCommandForm) (choice : Choice) :
    InteractionView where
  id := "V012345".toList
  callbackId := callbackId
  privateMetadata := codec.write (modalContext provider form)
  values :=
    let menus := ((((Table.empty.insert "prompt".toList (actionValue ⟨some "Fix the build".toList, none⟩)).insert
      "model".toList (actionValue ⟨none, some (identifierOption choice.agentKey).value⟩)).insert
      "task_type".toList (actionValue ⟨none, some (taskOption choice.taskType).value⟩)).insert
      "context_depth".toList (actionValue ⟨none, some (depthOption choice.contextDepth).value⟩))
    match choice.target with
    | none => menus
    | some target => menus.insert "target".toList (actionValue ⟨none, some (identifierOption target).value⟩)

def chosenPayload (view : InteractionView) : InteractionPayload where
  kind := "view_submission".toList
  view := some view
  team := none
  user := none

theorem echoes_chosen (hallowed : channelIsAllowed config form.teamId form.channelId = true)
    (hagent : choice.agentKey ∈ (provider.choices config).items) (htask : choice.taskType ∈ TaskType.all)
    (htarget : ∀ target ∈ choice.target, target ∈ config.targetChoices.items)
    (hnone : choice.target = none → config.targetChoices.items = [])
    (hdepth : choice.contextDepth ∈ contextDepths config) :
    Echoes codec config provider form choice (chosenPayload (chosenView codec provider form choice))
      (chosenView codec provider form choice) := by
  obtain ⟨agentKey, taskType, target, contextDepth⟩ := choice
  have hprompt : (chosenView codec provider form ⟨agentKey, taskType, target, contextDepth⟩).text "prompt".toList =
      "Fix the build".toList := by
    cases target <;> rfl
  have hid : ∀ provider, validEventId (dispatchId provider "V012345".toList) = true := by
    intro provider
    cases provider <;> decide
  refine ⟨rfl, rfl, rfl, rfl, hallowed, ?_, ?_, hid provider, ?_, ?_, ?_, ?_⟩
  · rw [hprompt]
    decide
  · rw [hprompt]
    decide
  · rw [offered_model, offers_map]
    refine ⟨hagent, ?_⟩
    cases target <;> rfl
  · rw [offered_taskType, offers_map]
    refine ⟨htask, ?_⟩
    cases target <;> rfl
  · cases target with
    | none =>
      refine ⟨?_, rfl⟩
      rw [offered_target, hnone rfl, List.map_nil]
    | some target =>
      dsimp only
      rw [offered_target, offers_map]
      exact ⟨htarget target rfl, rfl⟩
  · rw [offered_contextDepth, offers_map]
    refine ⟨hdepth, ?_⟩
    cases target <;> rfl

theorem fits_of_accepted (hcodec : codec.read (codec.write (modalContext provider form)) =
      some (modalContext provider form)) (h : Echoes codec config provider form choice payload view)
    (haccepted : ∃ request, slackInteractions codec config payload = .ok request ∧ request.Names provider choice) :
    Text.byteLen choice.agentKey.text ≤ 150 ∧ ∀ target ∈ choice.target, Text.byteLen target.text ≤ 150 := by
  obtain ⟨request, hrequest, hnames⟩ := haccepted
  rw [slackInteractions_of_echoes h hcodec] at hrequest
  have hdispatched := checkSubmission_dispatched hrequest
  have hmodel := h.model
  have htarget := h.target
  rw [offered_model, offers_map] at hmodel
  constructor
  · apply byteLen_of_identifierOption
    rw [hmodel.2, ← hdispatched.agentKey, hnames.agentKey]
  · rintro target hchosen
    rw [Option.mem_def] at hchosen
    rw [hchosen] at htarget
    dsimp only at htarget
    rw [offered_target, offers_map] at htarget
    apply byteLen_of_identifierOption
    rw [htarget.2, ← hdispatched.target, hnames.target, hchosen]
    rfl

theorem agentKey_of_echoes (hfit : OptionsFit config provider)
    (h : Echoes codec config provider form choice payload view) :
    choice.agentKey ∈ (provider.choices config).items ∧ view.selected "model".toList = choice.agentKey.text := by
  have hmodel := h.model
  rw [offered_model, offers_map] at hmodel
  refine ⟨hmodel.1, ?_⟩
  rw [← hmodel.2, identifierOption_value (hfit.1 _ hmodel.1)]

theorem taskType_of_echoes (h : Echoes codec config provider form choice payload view) :
    TaskType.fromValue (view.selected "task_type".toList) = choice.taskType := by
  have htask := h.taskType
  rw [offered_taskType, offers_map, taskOption_value] at htask
  rw [← htask.2, fromValue_value]

theorem target_of_echoes (hfit : OptionsFit config provider)
    (h : Echoes codec config provider form choice payload view) :
    view.selected "target".toList = (choice.target.map Identifier.text).getD [] ∧
      (view.selected "target".toList ≠ [] → view.selected "target".toList ∈ config.targetChoices.texts) := by
  have htarget := h.target
  cases hcase : choice.target with
  | none =>
    rw [hcase] at htarget
    exact ⟨htarget.2, fun hne => absurd htarget.2 hne⟩
  | some target =>
    rw [hcase] at htarget
    dsimp only at htarget
    rw [offered_target, offers_map] at htarget
    have hvalue : view.selected "target".toList = target.text := by
      rw [← htarget.2, identifierOption_value (hfit.2 _ htarget.1)]
    refine ⟨hvalue, fun _ => ?_⟩
    rw [hvalue]
    exact List.mem_map_of_mem htarget.1

theorem contextDepth_of_echoes (h : Echoes codec config provider form choice payload view) :
    min ((Http.parseU64 (view.selected "context_depth".toList)).getD config.contextMessageDefault)
      config.contextMessageMax = choice.contextDepth := by
  have hdepth := h.contextDepth
  rw [offered_contextDepth, offers_map] at hdepth
  obtain ⟨hvalue, hparse⟩ := depthOption_value hdepth.1
  rw [← hdepth.2, hvalue, hparse]
  exact Nat.min_eq_left (mem_contextDepths.mp hdepth.1).2

theorem accepted_of_fits (hcodec : codec.read (codec.write (modalContext provider form)) =
      some (modalContext provider form)) (hfit : OptionsFit config provider)
    (h : Echoes codec config provider form choice payload view) :
    ∃ request, slackInteractions codec config payload = .ok request ∧ request.Names provider choice := by
  obtain ⟨hkey, hmodel⟩ := agentKey_of_echoes hfit h
  obtain ⟨htarget, hconfigured⟩ := target_of_echoes hfit h
  have hlisted : view.selected "model".toList ∈ (provider.choices config).texts := by
    rw [hmodel]
    exact List.mem_map_of_mem hkey
  obtain ⟨request, hrequest⟩ := @checkSubmission_ok config provider view (modalContext provider form)
    (sentOr payload.team form.teamId) payload.user h.prompt h.promptFits hlisted hconfigured h.dispatchId
  have hdispatched := checkSubmission_dispatched hrequest
  rw [slackInteractions_of_echoes h hcodec]
  exact ⟨request, hrequest, hdispatched.providerSlug, hdispatched.agentKey.trans hmodel,
    hdispatched.taskType.trans (taskType_of_echoes h), hdispatched.target.trans htarget,
    hdispatched.contextDepth.trans (contextDepth_of_echoes h)⟩

theorem optionsFit_of_accepted (hcodec : codec.read (codec.write (modalContext provider form)) =
      some (modalContext provider form)) (hallowed : channelIsAllowed config form.teamId form.channelId = true)
    (h : OptionsAccepted codec config provider form) : OptionsFit config provider := by
  have hzero : 0 ∈ contextDepths config := mem_contextDepths.mpr ⟨List.mem_cons_self, Nat.zero_le _⟩
  have hchoice : ∀ key ∈ (provider.choices config).items, ∀ target : Option Identifier,
      (∀ chosen ∈ target, chosen ∈ config.targetChoices.items) →
      (target = none → config.targetChoices.items = []) →
      Text.byteLen key.text ≤ 150 ∧ ∀ chosen ∈ target, Text.byteLen chosen.text ≤ 150 := by
    intro key hkey target htarget hnone
    have hechoes := @echoes_chosen codec config provider form ⟨key, .ask, target, 0⟩ hallowed hkey List.mem_cons_self
      htarget hnone hzero
    exact fits_of_accepted hcodec hechoes (h.accepted _ _ _ hechoes)
  obtain ⟨first, hfirst⟩ := List.exists_mem_of_ne_nil _ (provider.choices config).nonempty
  constructor
  -- each identifier takes part in one submission: a key with the first target, a target with the first key
  · intro key hkey
    refine (hchoice key hkey config.targetChoices.items.head? (fun _ => List.mem_of_mem_head?) ?_).1
    exact List.head?_eq_none_iff.mp
  · intro target htarget
    refine (hchoice first hfirst (some target) ?_ nofun).2 target rfl
    rintro _ ⟨⟩
    exact htarget

theorem optionsAccepted_of_fit (hcodec : codec.read (codec.write (modalContext provider form)) =
      some (modalContext provider form)) (h : OptionsFit config provider) :
    OptionsAccepted codec config provider form := by
  refine ⟨?_, fun choice payload view => accepted_of_fits hcodec h⟩
  exact (@forall_blocks codec config provider form (fun options => (options.map MenuOption.value).Nodup)
    List.nodup_nil).mpr ⟨nodup_identifierOptions h.1, nodup_taskOptions, nodup_identifierOptions h.2,
      nodup_depthOptions config⟩

end Submissions

/-- Every option of the dialog is accepted exactly when no identifier is longer than the value of an option may be. -/
theorem dispatchOptions_iff (codec : ContextCodec) (config : SlackConfig) (provider : Provider)
    (form : SlashCommandForm)
    (hcodec : codec.read (codec.write (modalContext provider form)) = some (modalContext provider form))
    (hallowed : channelIsAllowed config form.teamId form.channelId = true) :
    OptionsAccepted codec config provider form ↔ OptionsFit config provider :=
  ⟨optionsFit_of_accepted hcodec hallowed, optionsAccepted_of_fit hcodec⟩

/-- A command in the channel that the configurations below allow. -/
def channelForm : SlashCommandForm where
  text := []
  teamId := "T1".toList
  channelId := "C1".toList
  channelName := "general".toList
  userId := "U1".toList

/-- Metadata as it is written where no text needs an escape. -/
def writePlain (metadata : ModalContext) : Text :=
  "\x7b\"provider\":\"".toList ++ metadata.provider ++ "\",\"channel_id\":\"".toList ++ metadata.channelId ++
    "\",\"channel_name\":\"".toList ++ metadata.channelName ++ "\",\"team_id\":\"".toList ++ metadata.teamId ++
    "\",\"user_id\":\"".toList ++ metadata.userId ++ "\"\x7d".toList

/-- A codec for the metadata of this command. -/
def plainCodec : ContextCodec where
  write := writePlain
  read text :=
    if text = writePlain (modalContext .claude channelForm) then some (modalContext .claude channelForm) else none

theorem plainCodec_read : plainCodec.read (plainCodec.write (modalContext .claude channelForm)) =
    some (modalContext .claude channelForm) := by
  decide +kernel

def twoModels : SlackConfig where
  allowedTeamIds := .ofList ["T1".toList]
  allowedChannelIds := .ofList ["C1".toList]
  claudeModelChoices := ⟨⟨[⟨defaultClaudeAgentKey, by decide⟩,
    ⟨"claude-opus".toList, by decide⟩], by decide⟩, by decide⟩
  openaiModelChoices := ⟨⟨[⟨defaultOpenaiAgentKey, by decide⟩, ⟨"gpt-codex".toList, by decide⟩], by decide⟩, by decide⟩
  disjoint := by decide
  targetChoices := ⟨[⟨"staging".toList, by decide⟩, ⟨"production".toList, by decide⟩], by decide⟩
  contextMessageMax := maxContextMessages
  contextMessageDefault := defaultContextMessages
  maxWithin := le_rfl
  defaultWithin := by decide

theorem dispatchOptions_twoModels : OptionsAccepted plainCodec twoModels .claude channelForm :=
  (dispatchOptions_iff plainCodec twoModels .claude channelForm plainCodec_read (by decide +kernel)).mpr
    ⟨by decide +kernel, by decide⟩

/-- An environment with one model, whose name is too long for an option. -/
def longModelEnv (key : Text) : Option Text :=
  if key = "SLACK_ALLOWED_TEAM_IDS".toList then some "T1".toList
  else if key = "SLACK_ALLOWED_CHANNEL_IDS".toList then some "C1".toList
  else if key = "SLACK_CLAUDE_MODEL_CHOICES".toList then some (List.replicate 151 'm')
  else none

/-- The configuration admits the model, and its option is not accepted. -/
theorem not_dispatchOptions : ¬ ∀ env config, SlackConfig.fromEnv env = .ok config →
    ∀ (codec : ContextCodec) provider form,
    codec.read (codec.write (modalContext provider form)) = some (modalContext provider form) →
    channelIsAllowed config form.teamId form.channelId = true → OptionsAccepted codec config provider form := by
  intro h
  have hrun : (SlackConfig.fromEnv longModelEnv).toOption.map (fun config =>
      (channelIsAllowed config "T1".toList "C1".toList,
        config.claudeModelChoices.items.all fun key => decide (Text.byteLen key.text ≤ 150))) = some (true, false) := by
    decide +kernel
  obtain ⟨config, hconfig, hfacts⟩ := Except.toOption_map_eq_some.mp hrun
  obtain ⟨hallowed, hlong⟩ := Prod.mk.inj hfacts
  have hfit := optionsFit_of_accepted plainCodec_read hallowed
    (h longModelEnv config hconfig plainCodec .claude channelForm plainCodec_read hallowed)
  have hall : (config.claudeModelChoices.items.all fun key => decide (Text.byteLen key.text ≤ 150)) = true :=
    List.all_eq_true.mpr fun key hkey => decide_eq_true (hfit.1 key hkey)
  rw [hall] at hlong
  cases hlong

end Bridge

end AgentBridge.Slack
