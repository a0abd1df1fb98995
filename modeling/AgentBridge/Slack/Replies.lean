import AgentBridge.Slack.Modal
import AgentBridge.Slack.RunIdentity

/-! What the person who typed a command is told over Socket Mode: which outcomes carry a text, and which
one is acknowledged with nothing. -/

namespace AgentBridge.Slack

/-- The payload of an acknowledgement with a text for the user. -/
def TellsUser (ack : Json) : Prop := ∃ fields text, ack = .obj fields ∧ ("text".toList, .str text) ∈ fields ∧ text ≠ []

/-- The project policy denies what `request` asks for in the channel. -/
def PolicyDenied (app : CommandApp) (usergroups : Option UsergroupsResponse) (teamId channelId userId : Text)
    (request : KeySet Text → ResolveRequest) : Prop :=
  app.document.bindingsFor (teamId, channelId) = [] ∨
    ∃ groups, app.groups usergroups teamId channelId userId = .ok groups ∧ ¬ Permitted app.document (request groups)

/-- A command denied by policy: the menu where it has no text, the run it names otherwise. -/
def SlashCommand.Denied (app : CommandApp) (readers : CommandReaders) (usergroups : Option UsergroupsResponse)
    (command : SlashCommand) : Prop :=
  if Text.trim command.text = [] then
    PolicyDenied app usergroups command.teamId command.channelId command.userId command.resolveRequest
  else ∃ request, RunRequest.direct readers command app.config.contextMessages = .ok request ∧
    PolicyDenied app usergroups request.teamId request.channelId request.userId request.resolveRequest

section Bindings
variable {app : CommandApp} {usergroups : Option UsergroupsResponse} {teamId channelId userId : Text}

theorem contains_foldl (l : List ChannelProjectBinding) (t : Table ChannelKey ChannelProjectBinding)
    (key : ChannelKey) :
    (l.foldl (fun bindings binding => bindings.insert binding.key binding) t).contains key = true ↔
      t.contains key = true ∨ ∃ binding ∈ l, binding.key = key := by
  induction l generalizing t with
  | nil => simp
  | cons b l ih =>
    rw [List.foldl_cons, ih, Table.contains, Table.get_insert, List.exists_mem_cons_iff]
    by_cases hkey : key = b.key
    · rw [if_pos hkey]
      simp [hkey]
    · rw [if_neg hkey]
      have hne : b.key ≠ key := Ne.symm hkey
      simp [hne, Table.contains]

theorem bindings_eq_none {key : ChannelKey} : app.bindings.get key = none ↔ app.document.bindingsFor key = [] := by
  have hcontains := contains_foldl app.document.bindings .empty key
  rw [← Option.not_isSome_iff_eq_none]
  change ¬ app.bindings.contains key = true ↔ _
  rw [CommandApp.bindings, hcontains, SlackProjectRegistryDocument.bindingsFor, List.filter_eq_nil_iff]
  simp [Table.contains]

theorem groups_eq_policy : app.groups usergroups teamId channelId userId = .error .policy ↔
    app.document.bindingsFor (teamId, channelId) = [] := by
  rw [← bindings_eq_none]
  unfold CommandApp.groups
  cases hget : app.bindings.get (teamId, channelId) with
  | none => simp
  | some binding =>
    dsimp only
    split_ifs
    · simp
    · cases usergroups with
      | none => simp
      | some response =>
        dsimp only
        split_ifs <;> simp

theorem mapError_resolve (request : ResolveRequest) :
    ((app.registry.resolve request).mapError (fun _ => Error.policy) = .error .policy ∧
        ¬ Permitted app.document request) ∨
      ∃ context, app.registry.resolve request = .ok context ∧ Permitted app.document request := by
  have hpermitted : Permitted app.document request ↔ ∃ context, app.registry.resolve request = .ok context :=
    permitted_iff app.loaded app.decoded
  cases hresolve : app.registry.resolve request with
  | error e =>
    refine .inl ⟨rfl, ?_⟩
    intro hp
    obtain ⟨context, hcontext⟩ := hpermitted.mp hp
    rw [hresolve] at hcontext
    cases hcontext
  | ok context => exact .inr ⟨context, rfl, hpermitted.mpr ⟨context, hresolve⟩⟩

theorem resolve_eq_policy (request : RunRequest) : app.resolve usergroups request = .error .policy ↔
    PolicyDenied app usergroups request.teamId request.channelId request.userId request.resolveRequest := by
  unfold CommandApp.resolve PolicyDenied
  have hgroups : app.groups usergroups request.teamId request.channelId request.userId = .error .policy ↔
      app.document.bindingsFor (request.teamId, request.channelId) = [] := groups_eq_policy
  rw [← hgroups]
  cases app.groups usergroups request.teamId request.channelId request.userId with
  | error e =>
    change Except.error e = .error .policy ↔ _
    simp
  | ok groups =>
    change (app.registry.resolve (request.resolveRequest groups)).mapError (fun _ => Error.policy) = _ ↔ _
    rcases @mapError_resolve app (request.resolveRequest groups) with ⟨hrefused, hnot⟩ | ⟨context, hcontext, hp⟩
    · rw [hrefused]
      simpa using hnot
    · rw [hcontext]
      change Except.ok context = _ ↔ _
      simpa using hp

theorem commandBinding_eq_policy (command : SlashCommand) : app.commandBinding usergroups command = .error .policy ↔
    PolicyDenied app usergroups command.teamId command.channelId command.userId command.resolveRequest := by
  unfold CommandApp.commandBinding PolicyDenied
  have hgroups : app.groups usergroups command.teamId command.channelId command.userId = .error .policy ↔
      app.document.bindingsFor (command.teamId, command.channelId) = [] := groups_eq_policy
  rw [← hgroups]
  cases app.groups usergroups command.teamId command.channelId command.userId with
  | error e =>
    change Except.error e = .error .policy ↔ _
    simp
  | ok groups =>
    change ((app.registry.resolve (command.resolveRequest groups)).mapError (fun _ => Error.policy) >>= fun _ => _) =
      _ ↔ _
    rcases @mapError_resolve app (command.resolveRequest groups) with ⟨hrefused, hnot⟩ | ⟨context, hcontext, hp⟩
    · rw [hrefused]
      simpa [bind, Except.bind] using hnot
    · obtain ⟨-, raw, hfor, -⟩ := hp
      have hsome : app.bindings.get (command.teamId, command.channelId) ≠ none := by
        rw [Ne, bindings_eq_none]
        intro hnil
        rw [ResolveRequest.key] at hfor
        exact absurd (hfor.symm.trans hnil) (List.cons_ne_nil _ _)
      obtain ⟨binding, hbinding⟩ := Option.ne_none_iff_exists'.mp hsome
      rw [hcontext, hbinding]
      change Except.ok binding = _ ↔ _
      have hp : Permitted app.document (command.resolveRequest groups) :=
        (permitted_iff app.loaded app.decoded).mpr ⟨context, hcontext⟩
      simpa using hp

end Bindings

section Acknowledgements

theorem ephemeral_tells {text : Text} (hne : text ≠ []) (hshort : text.length ≤ 1000) :
    ∃ ack, responseAckPayload (ephemeral text) = some ack ∧ TellsUser ack := by
  have hbytes : (ephemeral text).body.bytes ≤ maxSlackResponseBytes := by
    have htext := Json.textBytes_le text
    have hkinds : Json.textBytes "response_type".toList = 15 ∧ Json.textBytes "ephemeral".toList = 11 ∧
        Json.textBytes "text".toList = 6 := by decide
    simp only [ephemeral, Json.bytes, Json.bytesFields, hkinds.1, hkinds.2.1, hkinds.2.2, maxSlackResponseBytes]
    omega
  refine ⟨(ephemeral text).body, ?_, _, text, rfl, List.mem_cons_of_mem _ (List.mem_singleton_self _), hne⟩
  unfold responseAckPayload
  rw [if_neg (Nat.not_lt.mpr hbytes)]
  rfl

theorem reject_silent (status : Nat) : responseAckPayload (reject status) = none := by
  unfold responseAckPayload
  split_ifs <;> rfl

/-- Texts of four parts: the first is not empty, and the sum of the lengths is bounded. -/
theorem parts_short {a b c d : Text} (ha : a ≠ []) (hshort : a.length + b.length + c.length + d.length ≤ 1000)
    (text : Text) (htext : text = a ++ b ++ c ++ d) : text ≠ [] ∧ text.length ≤ 1000 := by
  subst htext
  constructor
  · simp [ha]
  · rw [List.length_append, List.length_append, List.length_append]
    exact hshort

theorem duplicate_message {runId : Text} (hid : runId.length ≤ 29) :
    (Accepted.duplicate runId).message ≠ [] ∧ (Accepted.duplicate runId).message.length ≤ 1000 := by
  have hrun : "Run `".toList.length = 5 := by decide
  have hend : "` was already accepted.".toList.length = 23 := by decide
  refine parts_short (a := "Run `".toList) (b := runId) (c := "` was already accepted.".toList) (d := [])
    (by decide) ?_ _ ?_
  · rw [hrun, hend, List.length_nil]
    omega
  · exact (List.append_nil _).symm

theorem started_message {runId label : Text} (hid : runId.length ≤ 29) (hlabel : label.length ≤ 7) (dryRun : Bool) :
    (Accepted.started runId label dryRun).message ≠ [] ∧
      (Accepted.started runId label dryRun).message.length ≤ 1000 := by
  have hstart : "Accepted ".toList.length = 9 := by decide
  have hrun : " run `".toList.length = 6 := by decide
  have hbounded : ∀ rest : Text, rest.length ≤ 100 → ∀ text : Text,
      text = "Accepted ".toList ++ label ++ " run `".toList ++ runId ++ rest → text ≠ [] ∧ text.length ≤ 1000 := by
    intro rest hrest text htext
    refine parts_short (a := "Accepted ".toList ++ label) (b := " run `".toList) (c := runId)
      (d := rest) ?_ ?_ text htext
    · simp
    · rw [List.length_append, hstart, hrun]
      omega
  cases dryRun with
  | false => exact hbounded "`. IDs and progress will be posted in-channel.".toList (by decide) _ rfl
  | true => exact hbounded "` — dry run, no external writes will be performed.".toList (by decide) _ rfl

/-- Every answer of `accept` is a short text. -/
theorem accept_message (app : CommandApp) (world : CommandWorld) {request : RunRequest}
    (hid : request.runId.length ≤ 29) :
    (accept app world request).message ≠ [] ∧ (accept app world request).message.length ≤ 1000 := by
  have hlabel : request.provider.label.length ≤ 7 := by
    cases request.provider <;> decide
  have hduplicate := duplicate_message hid
  have hjournal : Accepted.journalUnavailable.message ≠ [] ∧ Accepted.journalUnavailable.message.length ≤ 1000 := by
    decide
  have hcapacity : Accepted.atCapacity.message ≠ [] ∧ Accepted.atCapacity.message.length ≤ 1000 := by
    decide
  unfold accept
  cases world.claimed with
  | none => exact hjournal
  | some claimed =>
    cases claimed with
    | true => exact hduplicate
    | false =>
      dsimp only
      split_ifs
      · exact hcapacity
      · cases world.claim with
        | none => exact hjournal
        | some claim =>
          cases claim with
          | false => exact hduplicate
          | true => exact started_message hid hlabel _

theorem direct_runId {readers : CommandReaders} {command : SlashCommand} {contextMessages : Nat} {request : RunRequest}
    (h : RunRequest.direct readers command contextMessages = .ok request) : request.runId.length ≤ 29 := by
  obtain ⟨_, -, hrequest⟩ := Except.bind_eq_ok.mp h
  cases hrequest
  exact length_runId _ _

end Acknowledgements

section Handled
variable {app : CommandApp} {readers : CommandReaders} {world : CommandWorld} {command : SlashCommand}

/-- Of the outcomes of a handler, one opens a menu, one is a denial by policy with nothing to read, and the others
carry a short text. -/
inductive Handled (app : CommandApp) (readers : CommandReaders) (world : CommandWorld) (command : SlashCommand) :
    Text × Response → Prop
  | opened (hopen : Text.trim command.text = []) (hnot : ¬ command.Denied app readers world.usergroups) :
      Handled app readers world command ("modal_opened".toList, ⟨200, .obj []⟩)
  | denied (hdenied : command.Denied app readers world.usergroups) :
      Handled app readers world command ("denied_policy".toList, reject 403)
  | told (metric : Text) {text : Text} (hne : text ≠ []) (hshort : text.length ≤ 1000)
      (hnot : ¬ command.Denied app readers world.usergroups) :
      Handled app readers world command (metric, ephemeral text)

theorem handleCommand_handled : Handled app readers world command (handleCommand app readers world command) := by
  unfold handleCommand
  -- a blank text opens the menu, any other is a direct request
  by_cases hblank : Text.trim command.text = []
  · rw [if_pos hblank]
    have hdenied : command.Denied app readers world.usergroups ↔
        app.commandBinding world.usergroups command = .error .policy := by
      rw [SlashCommand.Denied, if_pos hblank, commandBinding_eq_policy]
    have htold : ¬ command.Denied app readers world.usergroups →
        Handled app readers world command ("modal_error".toList,
          ephemeral "The agent menu could not be opened safely.".toList) :=
      fun hnot => .told _ (by decide) (by decide) hnot
    cases hbinding : app.commandBinding world.usergroups command with
    | ok binding =>
      have hnot : ¬ command.Denied app readers world.usergroups := by
        rw [hdenied, hbinding]
        rintro ⟨⟩
      dsimp only
      unfold openModal
      cases world.viewsOpen with
      | true => exact .opened hblank hnot
      | false => exact htold hnot
    | error e =>
      rw [hbinding] at hdenied
      cases e with
      | policy => exact .denied (hdenied.mpr rfl)
      | config m => exact htold fun h => by cases hdenied.mp h
      | request => exact htold fun h => by cases hdenied.mp h
      | slack => exact htold fun h => by cases hdenied.mp h
      | coordinator => exact htold fun h => by cases hdenied.mp h
      | bridge => exact htold fun h => by cases hdenied.mp h
      | journal => exact htold fun h => by cases hdenied.mp h
  · rw [if_neg hblank]
    cases hdirect : RunRequest.direct readers command app.config.contextMessages with
    | error e =>
      refine .told _ (by decide) (by decide) ?_
      rw [SlashCommand.Denied, if_neg hblank]
      rintro ⟨request, hrequest, -⟩
      rw [hdirect] at hrequest
      cases hrequest
    | ok request =>
      have hdenied : command.Denied app readers world.usergroups ↔
          app.resolve world.usergroups request = .error .policy := by
        rw [SlashCommand.Denied, if_neg hblank, resolve_eq_policy, hdirect]
        constructor
        · rintro ⟨request', hrequest, hpolicy⟩
          cases hrequest
          exact hpolicy
        · exact fun hpolicy => ⟨request, rfl, hpolicy⟩
      have htold : ¬ command.Denied app readers world.usergroups →
          Handled app readers world command ("denied_config".toList,
            ephemeral "The task could not be authorized safely.".toList) :=
        fun hnot => .told _ (by decide) (by decide) hnot
      dsimp only
      cases hresolve : app.resolve world.usergroups request with
      | ok context =>
        obtain ⟨hne, hshort⟩ := accept_message app world (direct_runId hdirect)
        refine .told _ hne hshort ?_
        rw [hdenied, hresolve]
        rintro ⟨⟩
      | error e =>
        rw [hresolve] at hdenied
        cases e with
        | policy => exact .denied (hdenied.mpr rfl)
        | config m => exact htold fun h => by cases hdenied.mp h
        | request => exact htold fun h => by cases hdenied.mp h
        | slack => exact htold fun h => by cases hdenied.mp h
        | coordinator => exact htold fun h => by cases hdenied.mp h
        | bridge => exact htold fun h => by cases hdenied.mp h
        | journal => exact htold fun h => by cases hdenied.mp h

end Handled

/-- Handling opened a menu, or is acknowledged with a text for the user. -/
def OpenedOrTold (handled : Option Text × Option Json) : Prop :=
  handled.1 = some "modal_opened".toList ∨ ∃ ack, handled.2 = some ack ∧ TellsUser ack

theorem socketCommand_tells {config : CommandConfig} {payload ack : Json}
    (h : socketCommand config payload = .error ack) :
    TellsUser ack := by
  have htext : ∀ text : Text, text ≠ [] → TellsUser (socketText text) := fun text hne =>
    ⟨_, text, rfl, List.mem_cons_of_mem _ (List.mem_singleton_self _), hne⟩
  unfold socketCommand at h
  split at h
  · cases h
    exact htext _ (by decide)
  · split at h
    · cases h
      exact htext _ (by decide)
    · split at h
      · cases h
        exact htext _ (by decide)
      · split at h
        · cases h
          exact htext _ (by decide)
        · cases h

/-- A slash command over Socket Mode opens a menu or is answered with a text exactly when it is not a command that
is denied by policy before the deadline. -/
theorem openedOrTold_iff (app : CommandApp) (readers : CommandReaders) (world : CommandWorld) (payload : Json) :
    OpenedOrTold (handleSocketEnvelope app readers world "slash_commands".toList payload) ↔
      ∀ command, socketCommand app.config payload = .ok command → world.timely = true →
        ¬ command.Denied app readers world.usergroups := by
  unfold handleSocketEnvelope
  rw [if_pos rfl]
  cases hcommand : socketCommand app.config payload with
  | error ack =>
    constructor
    · rintro - command ⟨⟩
    · exact fun _ => .inr ⟨ack, rfl, socketCommand_tells hcommand⟩
  | ok command =>
    dsimp only
    cases htimely : world.timely with
    | false =>
      constructor
      · rintro - _ - ⟨⟩
      · exact fun _ => .inr ⟨_, rfl, _, ackTimeout, rfl, List.mem_cons_of_mem _ (List.mem_singleton_self _), by decide⟩
    | true =>
      have hhandled : Handled app readers world command (handleCommand app readers world command) :=
        handleCommand_handled
      generalize handleCommand app readers world command = handled at hhandled ⊢
      rw [if_pos rfl]
      cases hhandled with
      | opened hopen hnot =>
        constructor
        · rintro - _ ⟨⟩ -
          exact hnot
        · exact fun _ => .inl rfl
      | denied hdenied =>
        constructor
        · rintro (hopened | ⟨ack, hack, -⟩)
          · exact absurd (Option.some.inj hopened) (by decide)
          · rw [reject_silent] at hack
            cases hack
        · exact fun h => absurd hdenied (h command rfl rfl)
      | told metric hne hshort hnot =>
        constructor
        · rintro - _ ⟨⟩ -
          exact hnot
        · exact fun _ => .inr (ephemeral_tells hne hshort)

/-! A menu asked for in a channel without a binding. -/

theorem bound_loads :
    (boundRegistry "ORESoftware/bridge.rs".toList).toOption.isSome = true := by
  decide +kernel

def boundApp : CommandApp := onlyApp (boundTo "ORESoftware/bridge.rs".toList) bound_loads

def menuReaders : CommandReaders where
  sha256 := fun _ => []
  modalMetadata := fun _ => none
  interactionPayload := fun _ => none
  now := "2026-07-31T06:00:00Z".toList

/-- Everything that a handler asks for succeeds. -/
def willingWorld : CommandWorld := ⟨some ⟨true, []⟩, true, some false, true, some true, true⟩

def unmappedFrame : Json := .obj [("command".toList, .str "/x-ores-claude".toList), ("text".toList, .str []),
  ("team_id".toList, .str "T012345".toList), ("channel_id".toList, .str "C999999".toList),
  ("user_id".toList, .str "U012345".toList), ("trigger_id".toList, .str "13345224609.738474920".toList)]

/-- The menu is denied, and the acknowledgement carries nothing. -/
theorem not_openedOrTold : ¬ OpenedOrTold
    (handleSocketEnvelope boundApp menuReaders willingWorld "slash_commands".toList unmappedFrame) := by
  have hmetric : (handleSocketEnvelope boundApp menuReaders willingWorld "slash_commands".toList unmappedFrame).1 =
      some "denied_policy".toList := by decide +kernel
  have hbare : (handleSocketEnvelope boundApp menuReaders willingWorld "slash_commands".toList
      unmappedFrame).2.isNone = true := by decide +kernel
  rintro (hopened | ⟨ack, hack, -⟩)
  · rw [hmetric] at hopened
    exact absurd (Option.some.inj hopened) (by decide)
  · rw [hack] at hbare
    cases hbare

end AgentBridge.Slack
