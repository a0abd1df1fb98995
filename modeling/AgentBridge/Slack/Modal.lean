import AgentBridge.Slack.Authorization
import AgentBridge.Slack.Transports

/-! The menu of a slash command: the options it offers, and whether a submission of them is what the
registry resolves. -/

namespace AgentBridge.Slack

structure MenuOption where
  text : Text
  value : Text
deriving DecidableEq

structure StaticSelect where
  options : List MenuOption
  initialOption : MenuOption

inductive Element
  | plainTextInput (multiline : Bool) (minLength : Option Nat) (maxLength : Nat) (placeholder : Text)
  | staticSelect (select : StaticSelect)

/-- An input block; its element has the name of the block as action. -/
structure Block where
  blockId : Text
  label : Text
  element : Element
  optional : Bool

structure View where
  callbackId : Text
  privateMetadata : Text
  title : Text
  submit : Text
  close : Text
  blocks : List Block

def option (label value : Text) : MenuOption := ⟨Text.truncateBytes 75 label, Text.truncateBytes 150 value⟩

def repositoryOptions (binding : ChannelProjectBinding) : List MenuOption :=
  (binding.repositoryAllowlist.keys.take 100).map fun repository => option repository repository

def writeOptions : WritePolicy → List MenuOption
  | .readOnly => [option "Read only".toList "read_only".toList]
  | .linearOnly => [option "Read only".toList "read_only".toList,
      option "Linear issue/comment".toList "linear_write".toList]
  | .draftPullRequest => [option "Read only".toList "read_only".toList,
      option "Linear issue/comment".toList "linear_write".toList,
      option "Feature branch + draft PR".toList "draft_pull_request".toList]

def contextLabel (contextMessages : Nat) : Text :=
  match contextMessages with
  | 0 => "No channel messages".toList
  | 10 => "Last 10 messages".toList
  | 20 => "Last 20 messages".toList
  | _ => "Last 5 messages (default)".toList

def actionOptions : List MenuOption := [option "Implement and test".toList "implement".toList,
  option "Investigate and report".toList "investigate".toList, option "Review existing work".toList "review".toList,
  option "Plan only".toList "plan".toList, option "Triage queue".toList "triage".toList]

def contextOptions : List MenuOption := [option "No channel messages".toList "0".toList,
  option "Last 5 messages (default)".toList "5".toList, option "Last 10 messages".toList "10".toList,
  option "Last 20 messages".toList "20".toList]

def input (blockId label : Text) (element : Element) (optional : Bool) : Block := ⟨blockId, label, element, optional⟩

def modal (provider : Provider) (binding : ChannelProjectBinding) (metadata : Text) (contextMessages : Nat) : View where
  callbackId := callbackId
  privateMetadata := metadata
  title := "Run ".toList ++ provider.label
  submit := "Start work".toList
  close := "Cancel".toList
  blocks := [
    input "task".toList "Task".toList
      (.plainTextInput true (some 3) 3000 "Implement, investigate, review, or plan...".toList) false,
    input "action".toList "Action".toList
      (.staticSelect ⟨actionOptions, option "Implement and test".toList "implement".toList⟩) false,
    input "repository".toList "Repository".toList
      (.staticSelect ⟨repositoryOptions binding, option binding.defaultRepository binding.defaultRepository⟩) false,
    input "issue".toList "Linear issue (optional)".toList (.plainTextInput false none 32 "DEN-1041".toList) true,
    input "write_scope".toList "Write scope".toList
      (.staticSelect ⟨writeOptions binding.writePolicy, (writeOptions binding.writePolicy).getLast?.getD
        (option "Read only".toList "read_only".toList)⟩) false,
    input "context_messages".toList "Recent channel context".toList
      (.staticSelect ⟨contextOptions, option (contextLabel contextMessages) (Text.decimal contextMessages)⟩) false]

def Block.select (block : Block) : Option StaticSelect :=
  match block.element with
  | .staticSelect select => some select
  | .plainTextInput .. => none

def View.offered (view : View) (blockId : Text) : List MenuOption :=
  (view.blocks.filter (·.blockId = blockId)).flatMap fun block => (block.select.map StaticSelect.options).getD []

/-- What Slack demands of a select. -/
structure StaticSelect.WellFormed (select : StaticSelect) : Prop where
  initial : select.initialOption ∈ select.options
  values : (select.options.map MenuOption.value).Nodup
  count : select.options.length ≤ 100

/-- A user, with the groups Slack found for them, whom the binding authorises. -/
structure ChannelProjectBinding.Authorizes (binding : ChannelProjectBinding) (userId : Text) (groups : KeySet Text) :
    Prop where
  stableUser : StableIdentifier userId
  stableGroups : ∀ id ∈ groups.keys, StableIdentifier id
  named : userId ∈ binding.allowedUserIds ∨ ∃ id ∈ groups, id ∈ binding.allowedUserGroupIds

/-- A submission of a view with these two options, a task and no issue. -/
structure Submits (readers : CommandReaders) (view : View) (metadata : ModalMetadata) (repository scope : MenuOption)
    (payload : InteractionPayload) : Prop where
  kind : payload.kind = "view_submission".toList
  callbackId : payload.callbackId = view.callbackId
  decoded : readers.modalMetadata payload.privateMetadata = some metadata
  teamId : payload.teamId = metadata.teamId
  userId : payload.userId = metadata.userId
  task : ∃ text task, RunRequest.textValue payload "task".toList "task".toList = .ok text ∧ prompt text = .ok task
  action : ∃ action ∈ view.offered "action".toList,
    RunRequest.selected payload "action".toList "action".toList = .ok action.value
  repository : RunRequest.selected payload "repository".toList "repository".toList = .ok repository.value
  issue : RunRequest.optionalText payload "issue".toList "issue".toList = .ok none
  scope : RunRequest.selected payload "write_scope".toList "write_scope".toList = .ok scope.value
  contextMessages : ∃ count ∈ view.offered "context_messages".toList,
    RunRequest.selected payload "context_messages".toList "context_messages".toList = .ok count.value

/-- The menu of a binding is one that Slack accepts, and what it offers is resolved when it is submitted. -/
structure ModalAgrees (app : CommandApp) (binding : ChannelProjectBinding) : Prop where
  wellFormed : ∀ provider metadata, ∀ block ∈ (modal provider binding metadata app.config.contextMessages).blocks,
    ∀ select ∈ block.select, select.WellFormed
  resolved : ∀ (provider : Provider) (metadata : Text), provider.mode ∈ binding.allowedAgentModes →
    ∀ repository ∈ (modal provider binding metadata app.config.contextMessages).offered "repository".toList,
    ∀ scope ∈ (modal provider binding metadata app.config.contextMessages).offered "write_scope".toList,
    ∀ entry ∈ binding.repositoryAllowlist, repository = option entry entry →
    ∀ userId groups, binding.Authorizes userId groups → ∀ readers payload,
    Submits readers (modal provider binding metadata app.config.contextMessages)
      ⟨provider, binding.workspaceId, binding.channelId, userId⟩ repository scope payload →
    ∃ request context, RunRequest.interaction readers payload = .ok request ∧
      app.registry.resolve (request.resolveRequest groups) = .ok context ∧
      normalizeRepository entry = .ok context.repository

section Repositories
variable {entry entry' result : Text}

theorem option_value (label value : Text) : (option label value).value = Text.truncateBytes 150 value := rfl

theorem option_eq_option : option entry entry = option entry' entry' ↔
    Text.truncateBytes 150 entry = Text.truncateBytes 150 entry' := by
  constructor
  · exact fun h => congrArg MenuOption.value h
  · intro h
    have htext : Text.truncateBytes 75 entry = Text.truncateBytes 75 entry' := by
      rw [← Text.truncateBytes_truncateBytes (by decide : 75 ≤ 150) entry, h,
        Text.truncateBytes_truncateBytes (by decide)]
    rw [option, option, h, htext]

theorem normalizeRepository_congr (h : Text.trim entry = Text.trim entry') :
    normalizeRepository entry = normalizeRepository entry' := by
  unfold normalizeRepository
  rw [h]

theorem length_normalizeRepository (h : normalizeRepository entry = .ok result) :
    result.length = (Text.trim entry).length := by
  obtain ⟨owner, repository, -, htrim, -, rfl⟩ := normalizeRepository_eq_ok.mp h
  rw [htrim, List.length_append, List.length_append, List.length_cons, List.length_cons, Text.toAsciiLowercase,
    Text.toAsciiLowercase, List.length_map, List.length_map]

theorem normalizeRepository_value (h : normalizeRepository entry = .ok result) :
    normalizeRepository (option entry entry).value = .ok result ↔
      Text.byteLen (entry.rdropWhile Text.isWhitespace) ≤ 150 := by
  rw [option_value]
  constructor
  · intro hvalue
    by_contra hlong
    have hshorter := Text.length_trim_truncateBytes (Nat.lt_of_not_le hlong)
    rw [← length_normalizeRepository h, ← length_normalizeRepository hvalue] at hshorter
    exact lt_irrefl _ hshorter
  · intro hfits
    rw [normalizeRepository_congr (Text.trim_truncateBytes hfits)]
    exact h

end Repositories

section Views
variable {provider : Provider} {binding : ChannelProjectBinding} {metadata : Text} {contextMessages : Nat}

theorem offered_repository : (modal provider binding metadata contextMessages).offered "repository".toList =
    repositoryOptions binding := by
  have hblocks : (modal provider binding metadata contextMessages).blocks.filter (·.blockId = "repository".toList) =
      [input "repository".toList "Repository".toList (.staticSelect ⟨repositoryOptions binding,
        option binding.defaultRepository binding.defaultRepository⟩) false] := rfl
  rw [View.offered, hblocks]
  exact List.append_nil _

theorem offered_scope : (modal provider binding metadata contextMessages).offered "write_scope".toList =
    writeOptions binding.writePolicy := by
  have hblocks : (modal provider binding metadata contextMessages).blocks.filter (·.blockId = "write_scope".toList) =
      [input "write_scope".toList "Write scope".toList (.staticSelect ⟨writeOptions binding.writePolicy,
        (writeOptions binding.writePolicy).getLast?.getD (option "Read only".toList "read_only".toList)⟩) false] := rfl
  rw [View.offered, hblocks]
  exact List.append_nil _

theorem offered_context : (modal provider binding metadata contextMessages).offered "context_messages".toList =
    contextOptions := rfl

theorem forall_selects {P : StaticSelect → Prop} :
    (∀ block ∈ (modal provider binding metadata contextMessages).blocks, ∀ select ∈ block.select, P select) ↔
      P ⟨actionOptions, option "Implement and test".toList "implement".toList⟩ ∧
      P ⟨repositoryOptions binding, option binding.defaultRepository binding.defaultRepository⟩ ∧
      P ⟨writeOptions binding.writePolicy, (writeOptions binding.writePolicy).getLast?.getD
        (option "Read only".toList "read_only".toList)⟩ ∧
      P ⟨contextOptions, option (contextLabel contextMessages) (Text.decimal contextMessages)⟩ := by
  simp [modal, input, Block.select]

theorem permits_writeOption (policy : WritePolicy) {scope : MenuOption} (h : scope ∈ writeOptions policy) :
    ∃ capability, RunRequest.capabilityOf scope.value = .ok capability ∧ policy.permits capability = true := by
  have hread : RunRequest.capabilityOf (option "Read only".toList "read_only".toList).value = .ok .readOnly := by
    decide +kernel
  have hlinear : RunRequest.capabilityOf (option "Linear issue/comment".toList "linear_write".toList).value =
      .ok .linearWrite := by decide +kernel
  have hdraft : RunRequest.capabilityOf (option "Feature branch + draft PR".toList "draft_pull_request".toList).value =
      .ok .repositoryWrite := by decide +kernel
  cases policy with
  | readOnly =>
    rw [writeOptions, List.mem_singleton] at h
    rw [h]
    exact ⟨_, hread, rfl⟩
  | linearOnly =>
    rw [writeOptions, List.mem_cons, List.mem_singleton] at h
    rcases h with rfl | rfl
    · exact ⟨_, hread, rfl⟩
    · exact ⟨_, hlinear, rfl⟩
  | draftPullRequest =>
    rw [writeOptions, List.mem_cons, List.mem_cons, List.mem_singleton] at h
    rcases h with rfl | rfl | rfl
    · exact ⟨_, hread, rfl⟩
    · exact ⟨_, hlinear, rfl⟩
    · exact ⟨_, hdraft, rfl⟩

theorem contextCount_option {count : MenuOption} (h : count ∈ contextOptions) :
    ∃ n, RunRequest.contextCount count.value = .ok n := by
  have hall : ∀ count ∈ contextOptions, (RunRequest.contextCount count.value).toOption.isSome = true := by
    decide +kernel
  exact Except.isSome_toOption.mp (hall count h)

end Views

section Submissions
variable {app : CommandApp} {readers : CommandReaders} {binding : ChannelProjectBinding} {provider : Provider}
  {metadata userId : Text} {contextMessages : Nat} {repository scope : MenuOption} {payload : InteractionPayload}

/-- A submission is read as a run for the channel of the menu, its repository as the value of the option. -/
theorem interaction_of_submits {capability : RequestedCapability}
    (h : Submits readers (modal provider binding metadata contextMessages)
      ⟨provider, binding.workspaceId, binding.channelId, userId⟩ repository scope payload)
    (hcapability : RunRequest.capabilityOf scope.value = .ok capability) :
    ∃ request, RunRequest.interaction readers payload = .ok request ∧ ∀ groups, request.resolveRequest groups =
      { workspaceId := binding.workspaceId, channelId := binding.channelId, userId := userId, userGroupIds := groups,
        requestedRepository := some repository.value, requestedAgentMode := some provider.mode,
        requestedCapability := capability, linearIssueIdentifier := none } := by
  obtain ⟨text, task, htext, htask⟩ := h.task
  obtain ⟨action, -, haction⟩ := h.action
  obtain ⟨count, hcount, hcontext⟩ := h.contextMessages
  rw [offered_context] at hcount
  obtain ⟨n, hn⟩ := contextCount_option hcount
  have hkind : ¬ (payload.kind ≠ "view_submission".toList ∨ payload.callbackId ≠ callbackId) := by
    rw [not_or, not_not, not_not]
    exact ⟨h.kind, h.callbackId⟩
  have hsame : ¬ (binding.workspaceId ≠ payload.teamId ∨ userId ≠ payload.userId) := by
    rw [not_or, not_not, not_not]
    exact ⟨h.teamId.symm, h.userId.symm⟩
  let key := sourceKey "view".toList [binding.workspaceId, binding.channelId, userId, payload.viewId]
  have hrequest : RunRequest.interaction readers payload = .ok
      { runId := runId readers key, sourceKey := key, occurredAt := readers.now, provider := provider,
        teamId := binding.workspaceId, channelId := binding.channelId, userId := userId, prompt := task,
        action := action.value, repository := some repository.value, linearIssue := none, capability := capability,
        contextMessages := n } := by
    unfold RunRequest.interaction
    refine Except.bind_eq_ok.mpr ⟨(), Except.refuseIf_eq_ok.mpr hkind, ?_⟩
    rw [h.decoded]
    refine Except.bind_eq_ok.mpr ⟨(), Except.refuseIf_eq_ok.mpr hsame, ?_⟩
    refine Except.bind_eq_ok.mpr ⟨text, htext, Except.bind_eq_ok.mpr ⟨task, htask, ?_⟩⟩
    refine Except.bind_eq_ok.mpr ⟨scope.value, h.scope, Except.bind_eq_ok.mpr ⟨capability, hcapability, ?_⟩⟩
    refine Except.bind_eq_ok.mpr ⟨count.value, hcontext, Except.bind_eq_ok.mpr ⟨n, hn, ?_⟩⟩
    refine Except.bind_eq_ok.mpr ⟨action.value, haction, Except.bind_eq_ok.mpr ⟨repository.value, h.repository, ?_⟩⟩
    exact Except.bind_eq_ok.mpr ⟨none, h.issue, rfl⟩
  exact ⟨_, hrequest, fun groups => rfl⟩

def metadataReaders (metadata : ModalMetadata) : CommandReaders where
  sha256 := fun _ => []
  modalMetadata := fun _ => some metadata
  interactionPayload := fun _ => none
  now := []

/-- A block of a submission whose action has its name. -/
def inputValue (block : Text) (value : InteractionValue) (values : Table Text (Table Text InteractionValue)) :
    Table Text (Table Text InteractionValue) := values.insert block (Table.empty.insert block value)

/-- What is sent for a task, these two options and the first of the others. -/
def submission (metadata : ModalMetadata) (repository scope : MenuOption) : InteractionPayload where
  kind := "view_submission".toList
  teamId := metadata.teamId
  userId := metadata.userId
  viewId := "V012345".toList
  callbackId := callbackId
  privateMetadata := []
  values := inputValue "task".toList ⟨some "Fix the build".toList, none⟩ <|
    inputValue "action".toList ⟨none, some "implement".toList⟩ <|
    inputValue "repository".toList ⟨none, some repository.value⟩ <|
    inputValue "issue".toList ⟨none, none⟩ <|
    inputValue "write_scope".toList ⟨none, some scope.value⟩ <|
    inputValue "context_messages".toList ⟨none, some "5".toList⟩ .empty

theorem submits_submission (modalMetadata : ModalMetadata) : Submits (metadataReaders modalMetadata)
    (modal provider binding metadata contextMessages) modalMetadata repository scope
    (submission modalMetadata repository scope) where
  kind := rfl
  callbackId := rfl
  decoded := rfl
  teamId := rfl
  userId := rfl
  task := ⟨"Fix the build".toList, "Fix the build".toList, rfl, rfl⟩
  action := ⟨option "Implement and test".toList "implement".toList, List.mem_cons_self, rfl⟩
  repository := rfl
  issue := rfl
  scope := rfl
  contextMessages := ⟨option "Last 5 messages (default)".toList "5".toList,
    List.mem_cons_of_mem _ List.mem_cons_self, rfl⟩

end Submissions

/-- The repositories of a binding are written so that a menu can carry them: the default as some entry is, no two
entries alike, and, where the binding allows the mode of a provider, none cut off before its end. -/
structure ChannelProjectBinding.FitsMenu (binding : ChannelProjectBinding) : Prop where
  defaultListed : ∃ entry ∈ binding.repositoryAllowlist,
    Text.truncateBytes 150 entry = Text.truncateBytes 150 binding.defaultRepository
  distinct : ∀ entry ∈ binding.repositoryAllowlist, ∀ entry' ∈ binding.repositoryAllowlist,
    Text.truncateBytes 150 entry = Text.truncateBytes 150 entry' → entry = entry'
  whole : (∃ provider : Provider, provider.mode ∈ binding.allowedAgentModes) →
    ∀ entry ∈ binding.repositoryAllowlist, Text.byteLen (entry.rdropWhile Text.isWhitespace) ≤ 150

section Bindings
variable {readers : RegistryReaders} {raw binding : ChannelProjectBinding}

theorem Validated.exists_authorized (h : Validated readers raw binding) :
    ∃ userId groups, raw.Authorizes userId groups := by
  have hone : raw.allowedUserIds.keys ≠ [] ∨ raw.allowedUserGroupIds.keys ≠ [] := by
    by_contra hnone
    simp only [not_or, not_not] at hnone
    apply h.principals
    rw [KeySet.size, KeySet.size, hnone.1, hnone.2]
    rfl
  rcases hone with husers | hgroups
  · obtain ⟨userId, huser⟩ := List.exists_mem_of_ne_nil _ husers
    exact ⟨userId, .empty, h.principalIds _ (List.mem_append_left _ huser), List.forall_mem_nil _, .inl huser⟩
  · obtain ⟨group, hgroup⟩ := List.exists_mem_of_ne_nil _ hgroups
    have huser : StableIdentifier "U".toList := rfl
    refine ⟨"U".toList, .ofList [group], huser, ?_, .inr ⟨group, ?_, hgroup⟩⟩
    · intro id hid
      have hid : id ∈ KeySet.ofList [group] := hid
      rw [KeySet.mem_ofList, List.mem_singleton] at hid
      rw [hid]
      exact h.principalIds _ (List.mem_append_right _ hgroup)
    · rw [KeySet.mem_ofList]
      exact List.mem_singleton_self group

theorem Validated.repositoryOptions (h : Validated readers raw binding) : repositoryOptions raw =
    raw.repositoryAllowlist.keys.map fun repository => option repository repository := by
  have hall : raw.repositoryAllowlist.keys.take 100 = raw.repositoryAllowlist.keys :=
    List.take_of_length_le h.repositories
  rw [Slack.repositoryOptions, hall]

theorem Validated.repository_wellFormed (h : Validated readers raw binding) :
    StaticSelect.WellFormed ⟨Slack.repositoryOptions raw, option raw.defaultRepository raw.defaultRepository⟩ ↔
      (∃ entry ∈ raw.repositoryAllowlist,
        Text.truncateBytes 150 entry = Text.truncateBytes 150 raw.defaultRepository) ∧
      ∀ entry ∈ raw.repositoryAllowlist, ∀ entry' ∈ raw.repositoryAllowlist,
        Text.truncateBytes 150 entry = Text.truncateBytes 150 entry' → entry = entry' := by
  have hinitial : option raw.defaultRepository raw.defaultRepository ∈ Slack.repositoryOptions raw ↔
      ∃ entry ∈ raw.repositoryAllowlist,
        Text.truncateBytes 150 entry = Text.truncateBytes 150 raw.defaultRepository := by
    simp only [h.repositoryOptions, List.mem_map, option_eq_option]
    rfl
  have hvalues : ((Slack.repositoryOptions raw).map MenuOption.value).Nodup ↔
      ∀ entry ∈ raw.repositoryAllowlist, ∀ entry' ∈ raw.repositoryAllowlist,
        Text.truncateBytes 150 entry = Text.truncateBytes 150 entry' → entry = entry' := by
    rw [h.repositoryOptions, List.map_map, List.nodup_map_iff_inj_on raw.repositoryAllowlist.nodup]
    rfl
  constructor
  · intro hselect
    exact ⟨hinitial.mp hselect.initial, hvalues.mp hselect.values⟩
  · rintro ⟨hdefault, hdistinct⟩
    refine ⟨hinitial.mpr hdefault, hvalues.mpr hdistinct, ?_⟩
    rw [h.repositoryOptions, List.length_map]
    exact h.repositories

theorem writeOptions_wellFormed (policy : WritePolicy) : StaticSelect.WellFormed ⟨writeOptions policy,
    (writeOptions policy).getLast?.getD (option "Read only".toList "read_only".toList)⟩ := by
  cases policy <;> exact ⟨by decide +kernel, by decide +kernel, by decide⟩

theorem contextOptions_wellFormed {contextMessages : Nat} (h : contextMessages ∈ [0, 5, 10, 20]) :
    StaticSelect.WellFormed ⟨contextOptions, option (contextLabel contextMessages) (Text.decimal contextMessages)⟩ := by
  have hinitial : ∀ n ∈ [0, 5, 10, 20], option (contextLabel n) (Text.decimal n) ∈ contextOptions := by
    decide +kernel
  have hvalues : (contextOptions.map MenuOption.value).Nodup := by decide +kernel
  exact ⟨hinitial _ h, hvalues, (by decide : contextOptions.length ≤ 100)⟩

theorem Validated.modal_wellFormed (h : Validated readers raw binding) (config : CommandConfig) :
    (∀ provider metadata, ∀ block ∈ (modal provider raw metadata config.contextMessages).blocks,
        ∀ select ∈ block.select, select.WellFormed) ↔
      (∃ entry ∈ raw.repositoryAllowlist,
        Text.truncateBytes 150 entry = Text.truncateBytes 150 raw.defaultRepository) ∧
      ∀ entry ∈ raw.repositoryAllowlist, ∀ entry' ∈ raw.repositoryAllowlist,
        Text.truncateBytes 150 entry = Text.truncateBytes 150 entry' → entry = entry' := by
  rw [← h.repository_wellFormed]
  constructor
  · intro hall
    exact (forall_selects.mp (hall .claude [])).2.1
  · intro hrepository provider metadata
    exact forall_selects.mpr ⟨⟨by decide +kernel, by decide +kernel, by decide⟩, hrepository,
      writeOptions_wellFormed _, contextOptions_wellFormed config.contextChoice⟩

end Bindings

section Resolution
variable {app : CommandApp} {raw binding : ChannelProjectBinding}

theorem resolve_option (hfor : app.document.bindingsFor raw.key = [raw])
    (hvalid : Validated app.registryReaders raw binding) {entry userId : Text} {groups : KeySet Text}
    (hentry : entry ∈ raw.repositoryAllowlist) (hauthorized : raw.Authorizes userId groups) {mode : AgentMode}
    (hmode : mode ∈ raw.allowedAgentModes) {capability : RequestedCapability}
    (hwrite : raw.writePolicy.permits capability = true) :
    (∃ context, app.registry.resolve
      { workspaceId := raw.workspaceId, channelId := raw.channelId, userId := userId, userGroupIds := groups,
        requestedRepository := some (option entry entry).value, requestedAgentMode := some mode,
        requestedCapability := capability, linearIssueIdentifier := none } = .ok context ∧
      normalizeRepository entry = .ok context.repository) ↔
      Text.byteLen (entry.rdropWhile Text.isWhitespace) ≤ 150 := by
  constructor
  · rintro ⟨context, hcontext, hentryName⟩
    obtain ⟨raw', hfor', -, -, hfrom⟩ := resolve_sound app.loaded app.decoded hcontext
    exact (normalizeRepository_value hentryName).mp hfrom.repository
  · intro hwhole
    obtain ⟨normalized, hnormalized, -⟩ := hvalid.allowlist
    obtain ⟨name, hname⟩ := Except.ok_of_mapM hnormalized hentry
    have hvalue := (normalizeRepository_value hname).mpr hwhole
    have hworkspace : StableIdentifier raw.workspaceId := hvalid.identifiers _ List.mem_cons_self
    have hchannel : StableIdentifier raw.channelId :=
      hvalid.identifiers _ (List.mem_cons_of_mem _ List.mem_cons_self)
    let request : ResolveRequest :=
      { workspaceId := raw.workspaceId, channelId := raw.channelId, userId := userId, userGroupIds := groups,
        requestedRepository := some (option entry entry).value, requestedAgentMode := some mode,
        requestedCapability := capability, linearIssueIdentifier := none }
    have hpermitted : Permitted app.document request :=
      ⟨⟨hworkspace, hchannel, hauthorized.stableUser, hauthorized.stableGroups⟩, raw, hfor,
        ⟨hauthorized.named, ⟨name, hvalue, entry, hentry, hname⟩, hmode, hwrite, fun text htext => by cases htext⟩⟩
    obtain ⟨context, hcontext⟩ := resolve_complete app.loaded app.decoded hpermitted
    obtain ⟨raw', -, -, -, hfrom⟩ := resolve_sound app.loaded app.decoded hcontext
    refine ⟨context, hcontext, ?_⟩
    rw [← hfrom.repository, hname, ← hvalue]
    rfl

end Resolution

/-- The menu of a binding is accepted by Slack and agrees with the registry exactly when the repositories of the
binding fit it. -/
theorem modalAgrees_iff (app : CommandApp) {binding : ChannelProjectBinding} (h : binding ∈ app.document.bindings) :
    ModalAgrees app binding ↔ binding.FitsMenu := by
  obtain ⟨document, hdocument, hstored, -⟩ := fromJson_spec app.loaded
  cases app.decoded.symm.trans hdocument
  obtain ⟨hfor, loaded, -, hvalid⟩ := hstored binding h
  have hwellFormed := hvalid.modal_wellFormed app.config
  constructor
  · intro hagrees
    obtain ⟨hdefault, hdistinct⟩ := hwellFormed.mp hagrees.wellFormed
    refine ⟨hdefault, hdistinct, ?_⟩
    rintro ⟨provider, hmode⟩ entry hentry
    obtain ⟨userId, groups, hauthorized⟩ := hvalid.exists_authorized
    let scope := option "Read only".toList "read_only".toList
    have hscope : scope ∈ writeOptions binding.writePolicy := by
      cases binding.writePolicy <;> exact List.mem_cons_self
    have hcapability : RunRequest.capabilityOf scope.value = .ok .readOnly := by decide +kernel
    have hrepository : option entry entry ∈ repositoryOptions binding := by
      rw [hvalid.repositoryOptions]
      exact List.mem_map_of_mem hentry
    let menu : ModalMetadata := ⟨provider, binding.workspaceId, binding.channelId, userId⟩
    have hsubmits : Submits (metadataReaders menu) (modal provider binding [] app.config.contextMessages) menu
        (option entry entry) scope (submission menu (option entry entry) scope) := submits_submission menu
    obtain ⟨request, context, hrequest, hcontext, hname⟩ := hagrees.resolved provider [] hmode (option entry entry)
      (offered_repository ▸ hrepository) scope (offered_scope ▸ hscope) entry hentry rfl userId groups hauthorized _ _
      hsubmits
    obtain ⟨request', hrequest', hresolve⟩ := interaction_of_submits hsubmits hcapability
    cases hrequest.symm.trans hrequest'
    rw [hresolve] at hcontext
    exact (resolve_option hfor hvalid hentry hauthorized hmode rfl).mp ⟨context, hcontext, hname⟩
  · intro hfits
    refine ⟨hwellFormed.mpr ⟨hfits.defaultListed, hfits.distinct⟩, ?_⟩
    intro provider metadata hmode repository hrepository scope hscope entry hentry heq userId groups hauthorized readers
      payload hsubmits
    rw [offered_scope] at hscope
    obtain ⟨capability, hcapability, hwrite⟩ := permits_writeOption _ hscope
    obtain ⟨request, hrequest, hresolve⟩ := interaction_of_submits hsubmits hcapability
    have hwhole := hfits.whole ⟨provider, hmode⟩ entry hentry
    obtain ⟨context, hcontext, hname⟩ := (resolve_option hfor hvalid hentry hauthorized hmode hwrite).mpr hwhole
    refine ⟨request, context, hrequest, ?_, hname⟩
    rw [hresolve, heq]
    exact hcontext

def onlyApp (binding : ChannelProjectBinding)
    (h : (SlackProjectRegistry.fromJson (onlyReaders binding) (documentBytes binding)).toOption.isSome = true) :
    CommandApp where
  config := unpinnedConfig
  registryReaders := onlyReaders binding
  registryBytes := documentBytes binding
  document := ⟨1, [binding]⟩
  registry := (SlackProjectRegistry.fromJson (onlyReaders binding) (documentBytes binding)).toOption.get h
  decoded := decodes_documentBytes binding
  loaded := by
    generalize SlackProjectRegistry.fromJson (onlyReaders binding) (documentBytes binding) = loaded at h ⊢
    cases loaded with
    | error e => cases h
    | ok registry => rfl

theorem modalAgrees_bound : ModalAgrees (onlyApp (boundTo "ORESoftware/bridge.rs".toList) (by decide +kernel))
    (boundTo "ORESoftware/bridge.rs".toList) := by
  have hfits : (boundTo "ORESoftware/bridge.rs".toList).FitsMenu := by
    constructor
    · exact ⟨_, List.mem_singleton_self _, rfl⟩
    · intro entry hentry entry' hentry' _
      rw [List.mem_singleton.mp hentry, List.mem_singleton.mp hentry']
    · intro _ entry hentry
      rw [List.mem_singleton.mp hentry]
      decide
  exact (modalAgrees_iff _ (List.mem_singleton_self _)).mpr hfits

/-- A binding whose default repository is written with other capitals than in its allowlist. -/
def recasedBinding : ChannelProjectBinding :=
  { boundTo "oresoftware/bridge.rs".toList with defaultRepository := "ORESoftware/bridge.rs".toList }

/-- The registry loads it, and its menu selects an option that is not offered. -/
theorem not_modalAgrees : ¬ ModalAgrees (onlyApp recasedBinding (by decide +kernel)) recasedBinding := by
  intro hagrees
  have hselect := (forall_selects.mp (hagrees.wellFormed .claude [])).2.1.initial
  exact absurd hselect (by decide +kernel)

end AgentBridge.Slack
