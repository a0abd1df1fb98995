import AgentBridge.Slack.Modal
import AgentBridge.Slack.RunIdentity
import Mathlib.Tactic.Linarith

/-! The event that a dispatched run is announced with. It tells of a request what can be chosen in the menu and
nothing that was typed. The action of a submission is passed on as it came. -/

namespace AgentBridge.Slack

def observableEventSchemaVersion : Text := "1.0".toList
def observableEventMaxBytes : Nat := 65536
def observablePayloadMaxBytes : Nat := 32768

def defaultClaudeAgent : Text := "claude-fable-5".toList
def defaultChatgptAgent : Text := "gpt-5.6-sol".toList
def defaultLinearRunProject : Text := "72e891e2-603d-4903-8d08-bd06d204520f".toList

def envOpt (env : Text → Option Text) (key : Text) : Option Text := ((env key).map Text.trim).filter (· ≠ [])

def envOr (env : Text → Option Text) (key default : Text) : Text := (envOpt env key).getD default

structure EventConfig where
  claudeAgent : Text
  chatgptAgent : Text
  linearRunProjectId : Text

namespace EventConfig

def fromEnv (env : Text → Option Text) : Except Error EventConfig := do
  let claudeAgent ← identifier "SLACK_CLAUDE_AGENT_KEY".toList
    (envOr env "SLACK_CLAUDE_AGENT_KEY".toList defaultClaudeAgent)
  let chatgptAgent ← identifier "SLACK_CHATGPT_AGENT_KEY".toList
    (envOr env "SLACK_CHATGPT_AGENT_KEY".toList defaultChatgptAgent)
  let linearRunProjectId ← identifier "SLACK_LINEAR_RUN_PROJECT_ID".toList
    (envOr env "SLACK_LINEAR_RUN_PROJECT_ID".toList defaultLinearRunProject)
  return { claudeAgent, chatgptAgent, linearRunProjectId }

def agentKey (config : EventConfig) : Provider → Text
  | .claude => config.claudeAgent
  | .chatgpt => config.chatgptAgent

end EventConfig

/-- A digest in the form of a UUID of version 5. -/
def deterministicUuid (readers : CommandReaders) (domain value : Text) : Text :=
  let bytes := (readers.sha256 (Url.encodeUtf8 (domain ++ ':' :: value))).take 16
  let bytes := bytes.modify 6 fun byte => (byte &&& 0x0f) ||| 0x50
  let bytes := bytes.modify 8 fun byte => (byte &&& 0x3f) ||| 0x80
  let hex := bytes.flatMap hexByte
  Components.join '-' [hex.take 8, (hex.take 12).drop 8, (hex.take 16).drop 12, (hex.take 20).drop 16,
    (hex.take 32).drop 20]

def observableProvider : Provider → Text
  | .claude => "anthropic".toList
  | .chatgpt => "openai".toList

def observableCapability : RequestedCapability → Text
  | .readOnly => "read_only".toList
  | .linearWrite => "linear_write".toList
  | .repositoryWrite => "repository_write".toList

def writePolicy : WritePolicy → Text
  | .readOnly => "read_only".toList
  | .linearOnly => "linear_only".toList
  | .draftPullRequest => "draft_pull_request".toList

def observablePayload (repository linearProjectId linearRunProjectId : Text) (linearIssue : Json)
    (bridgeWorkflowId requestedCapability : Text) : Json :=
  .obj [
    ("repository".toList, .str repository),
    ("linear_project_id".toList, .str linearProjectId),
    ("linear_run_project_id".toList, .str linearRunProjectId),
    ("linear_issue".toList, linearIssue),
    ("bridge_workflow_id".toList, .str bridgeWorkflowId),
    ("requested_capability".toList, .str requestedCapability)]

/-- The members of an event, around the texts that differ between events. -/
def observableEvent
    (eventId idempotencyKey occurredAt agent provider action policy correlationId runId deliveryId : Text)
    (payload : Json) : Json :=
  .obj [
    ("schema_version".toList, .str observableEventSchemaVersion),
    ("event_id".toList, .str eventId),
    ("idempotency_key".toList, .str idempotencyKey),
    ("occurred_at".toList, .str occurredAt),
    ("source".toList, .obj [
      ("agent_id".toList, .str agent),
      ("provider".toList, .str provider),
      ("model".toList, .str agent),
      ("instance_id".toList, .str "alex-main-agent".toList),
      ("metadata".toList, .obj [
        ("surface".toList, .str "slack_slash_command".toList),
        ("action".toList, .str action),
        ("write_policy".toList, .str policy)])]),
    ("correlation".toList, .obj [
      ("correlation_id".toList, .str correlationId),
      ("server_id".toList, .str "ai-agent-coordinator".toList),
      ("session_id".toList, .str runId),
      ("run_id".toList, .str runId),
      ("task_id".toList, .str runId)]),
    ("kind".toList, .str "task_created".toList),
    ("payload_classification".toList, .str "internal".toList),
    ("redaction_state".toList, .str "sanitized".toList),
    ("evidence_references".toList, .arr []),
    ("delivery".toList, .obj [
      ("transport".toList, .str "http".toList),
      ("delivery_id".toList, .str deliveryId),
      ("attempt".toList, .nat 1),
      ("ack_requested".toList, .bool true)]),
    ("payload".toList, payload)]

def observableTaskCreatedEvent (readers : CommandReaders) (config : EventConfig) (request : RunRequest)
    (resolved : ResolvedProjectContext) (workflowId : Text) : Json :=
  let agent := config.agentKey request.provider
  observableEvent (deterministicUuid readers "slack-task-created-event".toList request.runId)
    ("slack-task-created:".toList ++ request.runId) request.occurredAt agent (observableProvider request.provider)
    request.action (writePolicy resolved.writePolicy)
    (deterministicUuid readers "slack-run-correlation".toList request.runId) request.runId
    ("coordinator-job:".toList ++ request.runId)
    (observablePayload resolved.repository resolved.linearProjectId config.linearRunProjectId
      ((resolved.issue.map fun issue => Json.str issue.identifier).getD .null) workflowId
      (observableCapability request.capability))

def eventAction (event : Json) : Option Json :=
  ((event.get "source".toList).bind (Json.get "metadata".toList)).bind (Json.get "action".toList)

/-- What is serialised for the second assertion on an event. -/
def eventPayload (event : Json) : Json := (event.get "payload".toList).getD .null

/-! ### Where requests come from -/

inductive RunSource
  | slash (command : SlashCommand) (contextMessages : Nat)
  | modal (payload : InteractionPayload)

namespace RunSource

def request (readers : CommandReaders) : RunSource → Except Error RunRequest
  | slash command contextMessages => RunRequest.direct readers command contextMessages
  | modal payload => RunRequest.interaction readers payload

/-- A submission selects one of the actions of the menu. -/
def ChoosesAction : RunSource → Prop
  | slash .. => True
  | modal payload => ∃ choice ∈ actionOptions,
      RunRequest.selected payload "action".toList "action".toList = .ok choice.value

end RunSource

/-- Requests that agree in what the event may tell. -/
structure SameTask (request other : RunRequest) : Prop where
  runId : other.runId = request.runId
  occurredAt : other.occurredAt = request.occurredAt
  provider : other.provider = request.provider
  action : other.action = request.action
  capability : other.capability = request.capability

/-- The event carries an action of the menu, both assertions on its size hold, and it tells nothing else of the
request. -/
structure SanitisedEvent (readers : CommandReaders) (config : EventConfig) (request : RunRequest)
    (resolved : ResolvedProjectContext) (workflowId : Text) : Prop where
  action : ∃ choice ∈ actionOptions,
    eventAction (observableTaskCreatedEvent readers config request resolved workflowId) = some (.str choice.value)
  event : (observableTaskCreatedEvent readers config request resolved workflowId).bytes ≤ observableEventMaxBytes
  payload : (eventPayload (observableTaskCreatedEvent readers config request resolved workflowId)).bytes ≤
    observablePayloadMaxBytes
  confined : ∀ other, SameTask request other → observableTaskCreatedEvent readers config other resolved workflowId =
    observableTaskCreatedEvent readers config request resolved workflowId

section Bytes
variable {eventId idempotencyKey occurredAt agent provider action policy correlationId runId deliveryId : Text}
  {payload linearIssue : Json} {repository linearProjectId linearRunProjectId bridgeWorkflowId capability : Text}

theorem bytes_observableEvent : (observableEvent eventId idempotencyKey occurredAt agent provider action policy
      correlationId runId deliveryId payload).bytes = 525 + Json.textBytes eventId + Json.textBytes idempotencyKey +
    Json.textBytes occurredAt + 2 * Json.textBytes agent + Json.textBytes provider + Json.textBytes action +
    Json.textBytes policy + Json.textBytes correlationId + 3 * Json.textBytes runId + Json.textBytes deliveryId +
    payload.bytes := by
  have hempty : (observableEvent [] [] [] [] [] [] [] [] [] [] .null).bytes = 555 := by decide +kernel
  simp only [observableEvent, Json.bytes, Json.bytesFields, Json.bytesItems, Json.textBytes_nil] at hempty ⊢
  linarith

theorem bytes_observablePayload : (observablePayload repository linearProjectId linearRunProjectId linearIssue
      bridgeWorkflowId capability).bytes = 123 + Json.textBytes repository + Json.textBytes linearProjectId +
    Json.textBytes linearRunProjectId + linearIssue.bytes + Json.textBytes bridgeWorkflowId +
    Json.textBytes capability := by
  have hempty : (observablePayload [] [] [] .null [] []).bytes = 137 := by decide +kernel
  simp only [observablePayload, Json.bytes, Json.bytesFields, Json.textBytes_nil] at hempty ⊢
  linarith

end Bytes

section Texts
variable {readers : CommandReaders} {env : Text → Option Text} {config : EventConfig} {name value text : Text}

theorem byteLen_identifier (h : identifier name value = .ok text) : Text.byteLen text ≤ maxIdentifierBytes := by
  unfold identifier at h
  dsimp only at h
  split_ifs at h with hbad
  cases h
  rw [not_or, not_or, not_lt] at hbad
  exact hbad.2.1

theorem EventConfig.byteLen_of_fromEnv (h : EventConfig.fromEnv env = .ok config) :
    (∀ provider, Text.byteLen (config.agentKey provider) ≤ maxIdentifierBytes) ∧
      Text.byteLen config.linearRunProjectId ≤ maxIdentifierBytes := by
  obtain ⟨claudeAgent, hclaude, h⟩ := Except.bind_eq_ok.mp h
  obtain ⟨chatgptAgent, hchatgpt, h⟩ := Except.bind_eq_ok.mp h
  obtain ⟨linearRunProjectId, hproject, h⟩ := Except.bind_eq_ok.mp h
  cases h
  refine ⟨?_, byteLen_identifier hproject⟩
  intro provider
  cases provider with
  | claude => exact byteLen_identifier hclaude
  | chatgpt => exact byteLen_identifier hchatgpt

theorem length_deterministicUuid (readers : CommandReaders) (domain value : Text) :
    (deterministicUuid readers domain value).length ≤ 36 := by
  unfold deterministicUuid
  simp only [Components.join_cons_cons, List.length_append, List.length_cons, List.length_take, List.length_drop]
  rw [Components.join, List.intercalate_singleton, List.length_drop, List.length_take]
  omega

theorem textBytes_of_byteLen {n : Nat} (h : Text.byteLen text ≤ n) : Json.textBytes text ≤ 2 + 6 * n := by
  have hbytes := Json.textBytes_le text
  have hlength := Text.length_le_byteLen text
  omega

end Texts

section Resolution
variable {readers : RegistryReaders} {input : List UInt8} {registry : SlackProjectRegistry} {request : ResolveRequest}
  {resolved : ResolvedProjectContext} {value result : Text} {issue : LinearIssueRef}

theorem byteLen_normalizeRepository (h : normalizeRepository value = .ok result) :
    Text.byteLen result ≤ maxIdentifierBytes := by
  obtain ⟨owner, repository, hname, -, -, rfl⟩ := normalizeRepository_eq_ok.mp h
  exact hname.toLower.length

theorem StableIdentifier.byteLen_le (h : StableIdentifier value) : Text.byteLen value ≤ maxIdentifierBytes := by
  unfold StableIdentifier validateStableIdentifier at h
  rw [Except.refuseIf_eq_ok, not_or, not_or, not_lt] at h
  exact h.2.1

/-- A team key, a hyphen and the digits of a `u64`. -/
theorem length_issue (h : parseLinearIssueIdentifier value = .ok issue) : issue.identifier.length ≤ 31 := by
  obtain ⟨hteam, hidentifier, -, hlt, htext⟩ := parseLinearIssueIdentifier_eq_ok.mp h
  unfold validateTeamKey at hteam
  rw [Except.refuseIf_eq_ok, not_or, not_not] at hteam
  have hkey := Text.length_le_byteLen issue.teamKey
  have hdigits : (Text.decimal issue.number).length ≤ 20 :=
    (Nat.length_toDigits_le_iff (by decide) (by decide)).mpr (hlt.trans (by decide))
  rw [hidentifier, htext, List.length_append, List.length_cons]
  omega

theorem byteLen_of_resolve (hload : SlackProjectRegistry.fromJson readers input = .ok registry)
    (h : registry.resolve request = .ok resolved) :
    Text.byteLen resolved.repository ≤ maxIdentifierBytes ∧
      Text.byteLen resolved.linearProjectId ≤ maxIdentifierBytes ∧
      ∀ issue ∈ resolved.issue, issue.identifier.length ≤ 31 := by
  obtain ⟨document, -, hstored, hget⟩ := fromJson_spec hload
  obtain ⟨-, binding, repository, issue, hbinding, -, -, hallowed, -, -, hissue, -, rfl⟩ := resolve_eq_ok.mp h
  obtain ⟨raw, hraw, hkey⟩ := hget _ _ hbinding
  obtain ⟨-, binding', hbinding', hvalid⟩ := hstored raw hraw
  rw [hkey] at hbinding'
  cases hbinding.symm.trans hbinding'
  refine ⟨?_, ?_, ?_⟩
  · obtain ⟨entry, -, hentry⟩ := hvalid.mem_allowlist.mp hallowed
    exact byteLen_normalizeRepository hentry
  · change Text.byteLen binding.linearProjectId ≤ maxIdentifierBytes
    rw [hvalid.linearProjectId]
    exact (hvalid.identifiers _ (by simp)).byteLen_le
  · intro i hi
    rcases mapM_parse_eq_ok.mp hissue with ⟨-, hnone⟩ | ⟨t, i', -, hsome, hparse⟩
    · rw [contextFor, hnone] at hi
      cases hi
    · rw [contextFor, hsome] at hi
      cases hi
      exact length_issue hparse

end Resolution

section Sources
variable {readers : CommandReaders} {source : RunSource} {request : RunRequest} {command : SlashCommand}
  {payload : InteractionPayload} {contextMessages : Nat}

theorem RunSource.choosesAction_iff (h : source.request readers = .ok request) :
    source.ChoosesAction ↔ ∃ choice ∈ actionOptions, request.action = choice.value := by
  cases source with
  | slash command contextMessages =>
    obtain ⟨-, -, -, haction⟩ := direct_spec h
    exact iff_of_true trivial ⟨_, List.mem_cons_self, haction⟩
  | modal payload =>
    obtain ⟨metadata, -, -, -, -, haction⟩ := interaction_spec h
    change (∃ choice ∈ actionOptions,
      RunRequest.selected payload "action".toList "action".toList = .ok choice.value) ↔ _
    rw [haction]
    simp only [Except.ok.injEq]

theorem RunSource.runId_occurredAt (h : source.request readers = .ok request) :
    request.runId = runId readers request.sourceKey ∧ request.occurredAt = readers.now := by
  cases source with
  | slash command contextMessages =>
    obtain ⟨-, hid, hnow, -⟩ := direct_spec h
    exact ⟨hid, hnow⟩
  | modal payload =>
    obtain ⟨metadata, -, -, hid, hnow, -⟩ := interaction_spec h
    exact ⟨hid, hnow⟩

end Sources

section Event
variable {readers : CommandReaders} {config : EventConfig} {request : RunRequest} {resolved : ResolvedProjectContext}
  {workflowId : Text}

theorem eventAction_event : eventAction (observableTaskCreatedEvent readers config request resolved workflowId) =
    some (.str request.action) := rfl

theorem eventPayload_event : eventPayload (observableTaskCreatedEvent readers config request resolved workflowId) =
    observablePayload resolved.repository resolved.linearProjectId config.linearRunProjectId
      ((resolved.issue.map fun issue => Json.str issue.identifier).getD .null) workflowId
      (observableCapability request.capability) := rfl

theorem confined (other : RunRequest) (h : SameTask request other) :
    observableTaskCreatedEvent readers config other resolved workflowId =
      observableTaskCreatedEvent readers config request resolved workflowId := by
  unfold observableTaskCreatedEvent
  rw [h.runId, h.occurredAt, h.provider, h.action, h.capability]

theorem bytes_payload (hproject : Text.byteLen config.linearRunProjectId ≤ maxIdentifierBytes)
    (hrepository : Text.byteLen resolved.repository ≤ maxIdentifierBytes)
    (hlinear : Text.byteLen resolved.linearProjectId ≤ maxIdentifierBytes)
    (hissue : ∀ issue ∈ resolved.issue, issue.identifier.length ≤ 31) (hworkflow : Text.byteLen workflowId ≤ 64) :
    (eventPayload (observableTaskCreatedEvent readers config request resolved workflowId)).bytes ≤ 5400 := by
  have hcapability : Json.textBytes (observableCapability request.capability) ≤ 18 := by
    cases request.capability <;> decide
  have hissueBytes : ((resolved.issue.map fun issue => Json.str issue.identifier).getD .null).bytes ≤ 188 := by
    cases hcase : resolved.issue with
    | none => decide
    | some issue =>
      have hbytes := Json.textBytes_le issue.identifier
      have hlength := hissue issue hcase
      change Json.textBytes issue.identifier ≤ 188
      omega
  have hrepositoryBytes := textBytes_of_byteLen hrepository
  have hlinearBytes := textBytes_of_byteLen hlinear
  have hprojectBytes := textBytes_of_byteLen hproject
  have hworkflowBytes := textBytes_of_byteLen hworkflow
  have hmax : maxIdentifierBytes = 255 := rfl
  rw [eventPayload_event, bytes_observablePayload]
  omega

theorem bytes_event_le (hkey : request.runId = runId readers request.sourceKey)
    (hnow : Text.byteLen request.occurredAt ≤ 27)
    (hagent : Text.byteLen (config.agentKey request.provider) ≤ maxIdentifierBytes)
    (hpayload : (eventPayload (observableTaskCreatedEvent readers config request resolved workflowId)).bytes ≤ 5400) :
    (observableTaskCreatedEvent readers config request resolved workflowId).bytes ≤
      12000 + Json.textBytes request.action := by
  have hrun : request.runId.length ≤ 29 := by
    rw [hkey]
    exact length_runId readers request.sourceKey
  have hprovider : Json.textBytes (observableProvider request.provider) ≤ 11 := by
    cases request.provider <;> decide
  have hpolicy : Json.textBytes (writePolicy resolved.writePolicy) ≤ 20 := by
    cases resolved.writePolicy <;> decide
  have htask : "slack-task-created:".toList.length = 19 := by decide
  have hjob : "coordinator-job:".toList.length = 16 := by decide
  have hidempotency := Json.textBytes_le ("slack-task-created:".toList ++ request.runId)
  have hdelivery := Json.textBytes_le ("coordinator-job:".toList ++ request.runId)
  rw [List.length_append] at hidempotency hdelivery
  have huuid : ∀ domain, Json.textBytes (deterministicUuid readers domain request.runId) ≤ 218 := by
    intro domain
    have hbytes := Json.textBytes_le (deterministicUuid readers domain request.runId)
    have hlength := length_deterministicUuid readers domain request.runId
    omega
  have hevent := huuid "slack-task-created-event".toList
  have hcorrelation := huuid "slack-run-correlation".toList
  have hoccurred := textBytes_of_byteLen hnow
  have hagentBytes := textBytes_of_byteLen hagent
  have hrunBytes := Json.textBytes_le request.runId
  have hmax : maxIdentifierBytes = 255 := rfl
  rw [eventPayload_event] at hpayload
  unfold observableTaskCreatedEvent
  dsimp only
  rw [bytes_observableEvent]
  omega

theorem textBytes_le_bytes_event : Json.textBytes request.action ≤
    (observableTaskCreatedEvent readers config request resolved workflowId).bytes := by
  unfold observableTaskCreatedEvent
  dsimp only
  rw [bytes_observableEvent]
  omega

end Event

/-- The event of a request is sanitised and bounded exactly if the request comes from a slash command, or from a
submission that selects an action of the menu. The clock writes an RFC 3339 instant with milliseconds, in at most 27
bytes. -/
theorem sanitised_event_iff (readers : CommandReaders) (hclock : Text.byteLen readers.now ≤ 27)
    (env : Text → Option Text) (config : EventConfig) (hconfig : EventConfig.fromEnv env = .ok config)
    (registryReaders : RegistryReaders) (input : List UInt8) (registry : SlackProjectRegistry)
    (hload : SlackProjectRegistry.fromJson registryReaders input = .ok registry) (source : RunSource)
    (request : RunRequest) (hrequest : source.request readers = .ok request) (groups : KeySet Text)
    (resolved : ResolvedProjectContext) (hresolved : registry.resolve (request.resolveRequest groups) = .ok resolved)
    (workflowId : Text) (hworkflow : Text.byteLen workflowId ≤ 64) :
    SanitisedEvent readers config request resolved workflowId ↔ source.ChoosesAction := by
  rw [RunSource.choosesAction_iff hrequest]
  obtain ⟨hkey, hnow⟩ := RunSource.runId_occurredAt hrequest
  obtain ⟨hagents, hproject⟩ := EventConfig.byteLen_of_fromEnv hconfig
  obtain ⟨hrepository, hlinear, hissue⟩ := byteLen_of_resolve hload hresolved
  have hpayload := @bytes_payload readers config request resolved workflowId hproject hrepository hlinear
    hissue hworkflow
  have hevent := bytes_event_le hkey (hnow ▸ hclock) (hagents request.provider) hpayload
  constructor
  · intro h
    obtain ⟨choice, hchoice, haction⟩ := h.action
    rw [eventAction_event] at haction
    exact ⟨choice, hchoice, Json.str.inj (Option.some.inj haction)⟩
  · rintro ⟨choice, hchoice, haction⟩
    have hactions : ∀ choice ∈ actionOptions, Json.textBytes choice.value ≤ 13 := by decide +kernel
    have hshort := hactions choice hchoice
    refine ⟨⟨choice, hchoice, ?_⟩, ?_, ?_, confined⟩
    · rw [eventAction_event, haction]
    · rw [haction] at hevent
      exact hevent.trans ((Nat.add_le_add_left hshort 12000).trans (by decide))
    · exact hpayload.trans (by decide)

/-- A submission of the menu of the bound channel, with any text for its action. -/
def actionSubmission (action : Text) : InteractionPayload :=
  let metadata : ModalMetadata := ⟨.claude, "T012345".toList, "C012345".toList, "U012345".toList⟩
  let sent := submission metadata (option "oresoftware/bridge.rs".toList "oresoftware/bridge.rs".toList)
    (option "Read only".toList "read_only".toList)
  { sent with values := inputValue "action".toList ⟨none, some action⟩ sent.values }

def submissionReaders : CommandReaders :=
  { plainReaders with modalMetadata := fun _ => some ⟨.claude, "T012345".toList, "C012345".toList, "U012345".toList⟩ }

/-- A registry and what it makes of the request of a submission with this action. -/
structure ActionCase (action : Text) (registry : SlackProjectRegistry) (request : RunRequest)
    (resolved : ResolvedProjectContext) : Prop where
  loaded : boundRegistry "ORESoftware/bridge.rs".toList = .ok registry
  read : RunRequest.interaction submissionReaders (actionSubmission action) = .ok request
  action : request.action = action
  resolves : registry.resolve (request.resolveRequest .empty) = .ok resolved

theorem exists_actionCase (action : Text) :
    ∃ registry request resolved, ActionCase action registry request resolved := by
  have hresolved : ((boundRegistry "ORESoftware/bridge.rs".toList).toOption.bind
      fun registry => ((RunRequest.interaction submissionReaders (actionSubmission [])).toOption.map
        fun request => request.resolveRequest .empty).bind fun request =>
        (registry.resolve request).toOption).isSome = true := by decide +kernel
  have hread : (RunRequest.interaction submissionReaders (actionSubmission action)).toOption.map
      (fun request => (request.action, request.resolveRequest .empty)) =
      ((RunRequest.interaction submissionReaders (actionSubmission [])).toOption.map
        fun request => request.resolveRequest .empty).map fun resolve => (action, resolve) := rfl
  obtain ⟨resolved, hresolved⟩ := Option.isSome_iff_exists.mp hresolved
  obtain ⟨registry, hregistry, hresolved⟩ := Option.bind_eq_some_iff.mp hresolved
  obtain ⟨resolve, hresolve, hresolved⟩ := Option.bind_eq_some_iff.mp hresolved
  rw [hresolve, Option.map_some] at hread
  obtain ⟨request, hrequest, hfacts⟩ := Except.toOption_map_eq_some.mp hread
  obtain ⟨haction, rfl⟩ := Prod.mk.inj hfacts
  exact ⟨registry, request, resolved,
    { loaded := Except.toOption_eq_some.mp hregistry
      read := hrequest
      action := haction
      resolves := Except.toOption_eq_some.mp hresolved }⟩

theorem sanitised_event_plan : ∃ config registry request resolved, EventConfig.fromEnv (fun _ => none) = .ok config ∧
    ActionCase "plan".toList registry request resolved ∧
    SanitisedEvent submissionReaders config request resolved "workflow-1".toList := by
  obtain ⟨registry, request, resolved, hcase⟩ := exists_actionCase "plan".toList
  have hchosen : (RunSource.modal (actionSubmission "plan".toList)).ChoosesAction :=
    ⟨option "Plan only".toList "plan".toList, by decide, rfl⟩
  refine ⟨_, registry, request, resolved, rfl, hcase, ?_⟩
  exact (sanitised_event_iff submissionReaders (by decide) (fun _ => none) _ rfl _ _ registry hcase.loaded
    (.modal (actionSubmission "plan".toList)) request hcase.read .empty resolved hcase.resolves _
      (by decide)).mpr hchosen

/-- An action of the submitter's own choosing is passed on, and makes the event larger than both sides of it allow. -/
theorem not_sanitised_event : ∃ config registry request resolved, EventConfig.fromEnv (fun _ => none) = .ok config ∧
    ActionCase (List.replicate 65536 'a') registry request resolved ∧
    ¬ SanitisedEvent submissionReaders config request resolved "workflow-1".toList ∧
    (∀ choice ∈ actionOptions, request.action ≠ choice.value) ∧
    observableEventMaxBytes <
      (observableTaskCreatedEvent submissionReaders config request resolved "workflow-1".toList).bytes := by
  obtain ⟨registry, request, resolved, hcase⟩ := exists_actionCase (List.replicate 65536 'a')
  have hlong : request.action.length = 65536 := by
    rw [hcase.action, List.length_replicate]
  have hvalues : ∀ choice ∈ actionOptions, choice.value.length ≤ 11 := by decide +kernel
  have hforeign : ∀ choice ∈ actionOptions, request.action ≠ choice.value := by
    intro choice hchoice heq
    have hshort := hvalues choice hchoice
    rw [← heq, hlong] at hshort
    exact absurd hshort (by decide)
  refine ⟨_, registry, request, resolved, rfl, hcase, ?_, hforeign, ?_⟩
  · intro hsanitised
    obtain ⟨choice, hchoice, haction⟩ := hsanitised.action
    exact hforeign choice hchoice (Json.str.inj (Option.some.inj haction))
  · calc observableEventMaxBytes = request.action.length := hlong.symm
      _ < Json.textBytes request.action := Json.length_lt_textBytes request.action
      _ ≤ _ := textBytes_le_bytes_event

end AgentBridge.Slack
