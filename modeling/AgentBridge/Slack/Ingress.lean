import AgentBridge.Slack.Commands

/-! The two ways a slash command arrives, over a signed request URL and over Socket Mode, and what
the person who typed it is told. -/

namespace AgentBridge.Slack

def maxSlackResponseBytes : Nat := 65536

structure Response where
  status : Nat
  body : Json

/-- A reply meant for a person, always with status 200. -/
def ephemeral (text : Text) : Response :=
  ⟨200, .obj [("response_type".toList, .str "ephemeral".toList), ("text".toList, .str text)]⟩

/-- A refusal aimed at Slack: a status, and no text. -/
def reject (status : Nat) : Response := ⟨status, .obj []⟩

def viewError (block text : Text) : Response :=
  ⟨200, .obj [("response_action".toList, .str "errors".toList), ("errors".toList, .obj [(block, .str text)])]⟩

/-- What `accept` decided. -/
inductive Accepted
  | started (runId provider : Text) (dryRun : Bool)
  | duplicate (runId : Text)
  | atCapacity
  | journalUnavailable

namespace Accepted

def message : Accepted → Text
  | started runId provider false => "Accepted ".toList ++ provider ++ " run `".toList ++ runId ++
      "`. IDs and progress will be posted in-channel.".toList
  | started runId provider true => "Accepted ".toList ++ provider ++ " run `".toList ++ runId ++
      "` — dry run, no external writes will be performed.".toList
  | duplicate runId => "Run `".toList ++ runId ++ "` was already accepted.".toList
  | atCapacity => "The agent queue is at capacity. Try again shortly.".toList
  | journalUnavailable => "The durable run journal is unavailable, so the run was not started.".toList

def metric : Accepted → Text
  | started .. => "accepted".toList
  | duplicate _ => "duplicate".toList
  | atCapacity => "at_capacity".toList
  | journalUnavailable => "journal_failure".toList

end Accepted

/-- What one handler meets: Slack's answers, the journal (`none` where an operation fails), a free
permit or not, and whether it ends before the acknowledgement deadline. -/
structure CommandWorld where
  usergroups : Option UsergroupsResponse
  viewsOpen : Bool
  claimed : Option Bool
  permit : Bool
  claim : Option Bool
  timely : Bool

/-- `accept` with no other delivery in between. -/
def accept (app : CommandApp) (world : CommandWorld) (request : RunRequest) : Accepted :=
  match world.claimed with
  | none => .journalUnavailable
  | some true => .duplicate request.runId
  | some false =>
    if !world.permit then .atCapacity
    else match world.claim with
    | none => .journalUnavailable
    | some false => .duplicate request.runId
    | some true => .started request.runId request.provider.label app.config.dryRun

def openModal (world : CommandWorld) : Except Error Unit := if world.viewsOpen then .ok () else .error .slack

/-- The outcome that is counted, and the response. -/
def handleCommand (app : CommandApp) (readers : CommandReaders) (world : CommandWorld) (command : SlashCommand) :
    Text × Response :=
  if Text.trim command.text = [] then
    match app.commandBinding world.usergroups command with
    | .ok _ =>
      match openModal world with
      | .ok () => ("modal_opened".toList, ⟨200, .obj []⟩)
      | .error .policy => ("denied_policy".toList, reject 403)
      | .error _ => ("modal_error".toList, ephemeral "The agent menu could not be opened safely.".toList)
    | .error .policy => ("denied_policy".toList, reject 403)
    | .error _ => ("modal_error".toList, ephemeral "The agent menu could not be opened safely.".toList)
  else
    match RunRequest.direct readers command app.config.contextMessages with
    | .error _ => ("denied_malformed".toList, ephemeral "Provide a bounded task after the command.".toList)
    | .ok request =>
      match app.resolve world.usergroups request with
      | .ok _ => ((accept app world request).metric, ephemeral (accept app world request).message)
      | .error .policy => ("denied_policy".toList, reject 403)
      | .error _ => ("denied_config".toList, ephemeral "The task could not be authorized safely.".toList)

def slashEnvelopeError : Error → Text × Response
  | .config _ => ("denied_config".toList, reject 503)
  | .policy => ("denied_policy".toList, reject 403)
  | _ => ("denied_malformed".toList, reject 400)

/-! ### The request URL -/

/-- The part of `command` before `handle_command`. `verified` is the verdict on the signature. -/
def httpCommand (config : CommandConfig) (verified : Bool) (path : Text) (body : List Nat) :
    Except (Option Text × Response) SlashCommand :=
  if !verified then .error (some "denied_signature".toList, reject 401)
  else match Provider.fromRequestPath path with
  | none => .error (none, reject 404)
  | some expectedProvider =>
    match validateSlashEnvelope config body expectedProvider with
    | .error error => .error (some (slashEnvelopeError error).1, (slashEnvelopeError error).2)
    | .ok () =>
      match SlashCommand.parse body with
      | .error _ => .error (some "denied_malformed".toList, ephemeral "Invalid slash command payload.".toList)
      | .ok command => .ok command

def ackTimeout : Text := "The command could not be acknowledged safely before Slack's deadline.".toList

def command (app : CommandApp) (readers : CommandReaders) (world : CommandWorld) (verified : Bool) (path : Text)
    (body : List Nat) : Option Text × Response :=
  match httpCommand app.config verified path body with
  | .error refused => refused
  | .ok command =>
    if world.timely then (some (handleCommand app readers world command).1, (handleCommand app readers world command).2)
    else (some "ack_timeout".toList, ephemeral ackTimeout)

/-! ### Modal submissions -/

def interactionPayload (config : CommandConfig) (readers : CommandReaders) (value : Json) :
    Except Error InteractionPayload := do
  match ← configuredSlackIdentity config with
  | none => pure ()
  | some (expectedAppId, expectedTeamId) =>
    let appMatches := ((value.get "api_app_id".toList).bind Json.asStr) = some expectedAppId
    let teamMatches := ((value.get "team".toList).bind fun team => (team.get "id".toList).bind Json.asStr) =
      some expectedTeamId
    .refuseIf (¬ appMatches ∨ ¬ teamMatches) .policy
  match readers.interactionPayload value with
  | none => throw .request
  | some payload => return payload

def interactionEnvelopeError : Error → Response
  | .config _ => viewError "task".toList "The installed Slack app identity is not configured safely.".toList
  | .policy => viewError "task".toList
      "This request did not originate from the installed Slack app and workspace.".toList
  | _ => viewError "task".toList "The submitted form could not be read.".toList

def handleInteraction (app : CommandApp) (readers : CommandReaders) (world : CommandWorld)
    (payload : InteractionPayload) : Text × Response :=
  match RunRequest.interaction readers payload with
  | .error _ => ("denied_malformed".toList, viewError "task".toList "The submitted form could not be read.".toList)
  | .ok request =>
    if !world.timely then ("ack_timeout".toList, viewError "task".toList
      "Authorization did not finish before Slack's acknowledgement deadline.".toList)
    else match app.resolve world.usergroups request with
    | .error .policy => ("denied_policy".toList, viewError "write_scope".toList
        "This channel, user, repository, or write scope is not authorized.".toList)
    | .error _ => ("denied_config".toList, viewError "task".toList "The task could not be authorized safely.".toList)
    | .ok _ =>
      match accept app world request with
      | .started .. => ("accepted".toList, ⟨200, .obj []⟩)
      | accepted => (accepted.metric, viewError "task".toList accepted.message)

/-! ### Socket Mode -/

def socketExpectedProvider (payload : Json) : Except Error Provider :=
  match (payload.get "command".toList).bind Json.asStr with
  | none => .error .request
  | some command =>
    match Provider.fromCommand command with
    | none => .error .request
    | some provider => .ok provider

def socketText (text : Text) : Json :=
  .obj [("response_type".toList, .str "ephemeral".toList), ("text".toList, .str text)]

/-- The part of the `slash_commands` arm before `handle_command`. -/
def socketCommand (config : CommandConfig) (payload : Json) : Except Json SlashCommand :=
  match socketExpectedProvider payload with
  | .error _ => .error (socketText "That command is not one this app serves.".toList)
  | .ok expected =>
    match socketPayloadToForm payload with
    | .error _ => .error (socketText "Invalid slash command payload.".toList)
    | .ok body =>
      match validateSlashEnvelope config body expected with
      | .error _ => .error (socketText
          "This request did not originate from the installed Slack app and workspace.".toList)
      | .ok () =>
        match SlashCommand.parse body with
        | .error _ => .error (socketText "Invalid slash command payload.".toList)
        | .ok command => .ok command

def responseAckPayload (response : Response) : Option Json :=
  if response.body.bytes > maxSlackResponseBytes then none
  else match response.body with
  | .obj [] => none
  | body => some body

/-- The outcome that is counted, if the handler counted one, and the payload of the acknowledgement. -/
def handleSocketEnvelope (app : CommandApp) (readers : CommandReaders) (world : CommandWorld) (kind : Text)
    (payload : Json) : Option Text × Option Json :=
  if kind = "slash_commands".toList then
    match socketCommand app.config payload with
    | .error ack => (none, some ack)
    | .ok command =>
      if world.timely then
        (some (handleCommand app readers world command).1,
          responseAckPayload (handleCommand app readers world command).2)
      else (none, some (socketText ackTimeout))
  else if kind = "interactive".toList then
    match interactionPayload app.config readers payload with
    | .error error => (none, responseAckPayload (interactionEnvelopeError error))
    | .ok payload => (some (handleInteraction app readers world payload).1,
        responseAckPayload (handleInteraction app readers world payload).2)
  else (none, none)

/-- What `drive_socket` sends back. -/
def socketAck (envelopeId : Text) : Option Json → Json
  | some payload => .obj [("envelope_id".toList, .str envelopeId), ("payload".toList, payload)]
  | none => .obj [("envelope_id".toList, .str envelopeId)]

end AgentBridge.Slack
