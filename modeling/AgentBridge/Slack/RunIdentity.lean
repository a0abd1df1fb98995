import AgentBridge.Base.Components
import AgentBridge.Slack.Commands

/-! The identity of a run. Its source key joins the fields that tell requests apart with colons, which the
identifiers among them may contain, and its id is a digest of the key. -/

namespace AgentBridge.Slack

inductive RunKind
  | slash | view
deriving DecidableEq

def RunKind.name : RunKind → Text
  | slash => "slash".toList
  | view => "view".toList

/-- What tells one request from another. The trigger is the id of the view for a modal submission. -/
structure RunIdentity where
  kind : RunKind
  teamId : Text
  channelId : Text
  userId : Text
  trigger : Text
deriving DecidableEq

/-- A request that is read without an error, with the run it asks for. -/
inductive AcceptedRun (readers : CommandReaders) : RunIdentity → RunRequest → Prop
  | slash {body : List Nat} {command : SlashCommand} {contextMessages : Nat} {run : RunRequest}
      (hparse : SlashCommand.parse body = .ok command)
      (hrun : RunRequest.direct readers command contextMessages = .ok run) :
      AcceptedRun readers ⟨.slash, command.teamId, command.channelId, command.userId, command.triggerId⟩ run
  | modal {payload : InteractionPayload} {metadata : ModalMetadata} {run : RunRequest}
      (hmeta : readers.modalMetadata payload.privateMetadata = some metadata)
      (hrun : RunRequest.interaction readers payload = .ok run) :
      AcceptedRun readers ⟨.view, metadata.teamId, metadata.channelId, metadata.userId, payload.viewId⟩ run

/-- The parts of the fields between their colons, in order. -/
def RunIdentity.segments (id : RunIdentity) : List Text :=
  [id.teamId, id.channelId, id.userId, id.trigger].flatMap (List.splitOn ':')

/-- The fields before the last one have no colon. -/
structure ColonFree (id : RunIdentity) : Prop where
  teamId : ':' ∉ id.teamId
  channelId : ':' ∉ id.channelId
  userId : ':' ∉ id.userId

section Key
variable {readers : CommandReaders} {id id' : RunIdentity} {run run' : RunRequest}

theorem length_flatMap_hexByte (bytes : List UInt8) : (bytes.flatMap hexByte).length = 2 * bytes.length := by
  induction bytes with
  | nil => rfl
  | cons byte bytes ih =>
    rw [List.flatMap_cons, List.length_append, ih, List.length_cons, hexByte, List.length_cons, List.length_singleton]
    omega

theorem length_runId (readers : CommandReaders) (sourceKey : Text) : (runId readers sourceKey).length ≤ 29 := by
  have hstart : "ores-".toList.length = 5 := by decide
  unfold runId
  rw [List.length_append, length_flatMap_hexByte, List.length_take, hstart]
  omega

theorem direct_spec {command : SlashCommand} {contextMessages : Nat}
    (h : RunRequest.direct readers command contextMessages = .ok run) :
    run.sourceKey = sourceKey "slash".toList [command.teamId, command.channelId, command.userId, command.triggerId] ∧
      run.runId = runId readers run.sourceKey ∧ run.occurredAt = readers.now ∧ run.action = "implement".toList := by
  obtain ⟨prompt, -, h⟩ := Except.bind_eq_ok.mp h
  cases h
  exact ⟨rfl, rfl, rfl, rfl⟩

theorem interaction_spec {payload : InteractionPayload} (h : RunRequest.interaction readers payload = .ok run) :
    ∃ metadata, readers.modalMetadata payload.privateMetadata = some metadata ∧
      run.sourceKey = sourceKey "view".toList [metadata.teamId, metadata.channelId, metadata.userId, payload.viewId] ∧
      run.runId = runId readers run.sourceKey ∧ run.occurredAt = readers.now ∧
      RunRequest.selected payload "action".toList "action".toList = .ok run.action := by
  unfold RunRequest.interaction at h
  obtain ⟨-, -, h⟩ := Except.bind_eq_ok.mp h
  dsimp only at h
  cases hmeta : readers.modalMetadata payload.privateMetadata with
  | none =>
    rw [hmeta] at h
    cases h
  | some metadata =>
    rw [hmeta] at h
    obtain ⟨-, -, h⟩ := Except.bind_eq_ok.mp h
    obtain ⟨text, -, h⟩ := Except.bind_eq_ok.mp h
    obtain ⟨prompt, -, h⟩ := Except.bind_eq_ok.mp h
    obtain ⟨scope, -, h⟩ := Except.bind_eq_ok.mp h
    obtain ⟨capability, -, h⟩ := Except.bind_eq_ok.mp h
    obtain ⟨count, -, h⟩ := Except.bind_eq_ok.mp h
    obtain ⟨contextMessages, -, h⟩ := Except.bind_eq_ok.mp h
    obtain ⟨action, haction, h⟩ := Except.bind_eq_ok.mp h
    obtain ⟨repository, -, h⟩ := Except.bind_eq_ok.mp h
    obtain ⟨linearIssue, -, h⟩ := Except.bind_eq_ok.mp h
    cases h
    exact ⟨metadata, rfl, rfl, rfl, rfl, haction⟩

theorem AcceptedRun.keys (h : AcceptedRun readers id run) :
    run.sourceKey = sourceKey id.kind.name [id.teamId, id.channelId, id.userId, id.trigger] ∧
      run.runId = runId readers run.sourceKey := by
  cases h with
  | slash hparse hrun =>
    obtain ⟨hkey, hid, -, -⟩ := direct_spec hrun
    exact ⟨hkey, hid⟩
  | modal hmeta hrun =>
    obtain ⟨metadata, hread, hkey, hid, -, -⟩ := interaction_spec hrun
    cases hmeta.symm.trans hread
    exact ⟨hkey, hid⟩

theorem splitOn_sourceKey (id : RunIdentity) :
    (sourceKey id.kind.name [id.teamId, id.channelId, id.userId, id.trigger]).splitOn ':' =
      id.kind.name :: id.segments := by
  have hkind : id.kind.name.splitOn ':' = [id.kind.name] := by
    cases id.kind <;> decide
  rw [sourceKey, Components.split_join_eq_flatMap (List.cons_ne_nil _ _), List.flatMap_cons, hkind]
  rfl

theorem sourceKey_eq_iff :
    sourceKey id.kind.name [id.teamId, id.channelId, id.userId, id.trigger] =
        sourceKey id'.kind.name [id'.teamId, id'.channelId, id'.userId, id'.trigger] ↔
      id.kind = id'.kind ∧ id.segments = id'.segments := by
  rw [← (@Components.split_injective _ _ ':').eq_iff, splitOn_sourceKey, splitOn_sourceKey, List.cons.injEq]
  refine and_congr_left fun _ => ⟨fun h => ?_, congrArg RunKind.name⟩
  cases hk : id.kind <;> cases hk' : id'.kind <;> first | rfl | (rw [hk, hk'] at h; exact absurd h (by decide))

theorem eq_of_segments_eq (h : ColonFree id) (h' : ColonFree id') (hkind : id.kind = id'.kind)
    (hsegments : id.segments = id'.segments) : id = id' := by
  have hfields {id : RunIdentity} (h : ColonFree id) :
      id.segments = id.teamId :: id.channelId :: id.userId :: id.trigger.splitOn ':' := by
    rw [RunIdentity.segments, List.flatMap_cons, List.flatMap_cons, List.flatMap_cons, List.flatMap_singleton,
      List.splitOn_eq_singleton h.teamId, List.splitOn_eq_singleton h.channelId, List.splitOn_eq_singleton h.userId]
    rfl
  -- the last field may have colons: it is the rest of the key
  rw [hfields h, hfields h', List.cons.injEq, List.cons.injEq, List.cons.injEq] at hsegments
  obtain ⟨hteam, hchannel, huser, htrigger⟩ := hsegments
  have hlast := Components.split_injective htrigger
  cases id
  cases id'
  simp_all

/-- Two accepted requests have different keys, and different run ids where the digest tells the keys apart,
exactly if their kinds or the segments of their fields differ. Different requests without colons do. -/
theorem run_identity_iff (readers : CommandReaders) (id id' : RunIdentity) (run run' : RunRequest)
    (h : AcceptedRun readers id run) (h' : AcceptedRun readers id' run')
    (hdigest : runId readers run.sourceKey = runId readers run'.sourceKey → run.sourceKey = run'.sourceKey) :
    (run.sourceKey ≠ run'.sourceKey ↔ id.kind ≠ id'.kind ∨ id.segments ≠ id'.segments) ∧
    (run.runId ≠ run'.runId ↔ id.kind ≠ id'.kind ∨ id.segments ≠ id'.segments) ∧
    (ColonFree id → ColonFree id' → id ≠ id' → run.sourceKey ≠ run'.sourceKey ∧ run.runId ≠ run'.runId) := by
  obtain ⟨hkey, hid⟩ := h.keys
  obtain ⟨hkey', hid'⟩ := h'.keys
  have hkeys : run.sourceKey ≠ run'.sourceKey ↔ id.kind ≠ id'.kind ∨ id.segments ≠ id'.segments := by
    rw [hkey, hkey', Ne, sourceKey_eq_iff, not_and_or]
  have hids : run.runId ≠ run'.runId ↔ run.sourceKey ≠ run'.sourceKey := by
    rw [hid, hid']
    exact not_congr ⟨hdigest, congrArg (runId readers)⟩
  refine ⟨hkeys, hids.trans hkeys, ?_⟩
  intro hfree hfree' hne
  have hdiffer : run.sourceKey ≠ run'.sourceKey := by
    rw [hkey, hkey', Ne, sourceKey_eq_iff]
    rintro ⟨hkind, hsegments⟩
    exact hne (eq_of_segments_eq hfree hfree' hkind hsegments)
  exact ⟨hdiffer, hids.mpr hdiffer⟩

end Key

/-- Readers whose digest is the beginning of the key. -/
def plainReaders : CommandReaders where
  sha256 := fun bytes => bytes.map UInt8.ofNat
  modalMetadata := fun _ => none
  interactionPayload := fun _ => none
  now := "2026-01-01T00:00:00.000Z".toList

def slashBody (team channel user : String) : List Nat :=
  Url.encodeUtf8 (("command=/x-claude&team_id=" ++ team ++ "&channel_id=" ++ channel ++ "&user_id=" ++ user ++
    "&trigger_id=1&text=hi").toList)

def keyReaders : CommandReaders where
  sha256 := fun bytes =>
    if bytes = Url.encodeUtf8 "slash:T:C:U:1".toList then
      [0x2a, 0x0a, 0xd9, 0x85, 0xff, 0xc4, 0xf7, 0x1e, 0x51, 0x2a, 0x4e, 0x44, 0xda, 0x5c, 0x36, 0x08,
        0x9b, 0x72, 0xdb, 0x3d, 0x69, 0xcd, 0xd8, 0x36, 0x4f, 0xad, 0x69, 0x41, 0x9b, 0xaa, 0xe8, 0xe7]
    else if bytes = Url.encodeUtf8 "slash:U:C:U:1".toList then
      [0x27, 0x16, 0x9e, 0x57, 0x4f, 0x50, 0x3d, 0x75, 0xc0, 0xab, 0x5a, 0x6a, 0xe2, 0x44, 0x07, 0x4f,
        0x54, 0x19, 0xcd, 0xfc, 0x5c, 0xe0, 0x33, 0x92, 0x84, 0x48, 0xc5, 0x86, 0xdf, 0x6b, 0x44, 0x74]
    else if bytes = Url.encodeUtf8 "slash:T:C:D:U:1".toList then
      [0x6e, 0x71, 0xe0, 0x66, 0x28, 0x6c, 0x28, 0x37, 0xd1, 0x6f, 0x23, 0x0f, 0x2f, 0x7e, 0x80, 0x25,
        0x40, 0x12, 0x63, 0x12, 0x97, 0xe2, 0x1f, 0x8c, 0xc4, 0x25, 0x9f, 0xe9, 0x01, 0xea, 0x52, 0x21]
    else []
  modalMetadata := fun _ => none
  interactionPayload := fun _ => none
  now := "2026-01-01T00:00:00.000Z".toList

def slashRun (body : List Nat) : Except Error (RunIdentity × RunRequest) := do
  let command ← SlashCommand.parse body
  let run ← RunRequest.direct keyReaders command 0
  return (⟨.slash, command.teamId, command.channelId, command.userId, command.triggerId⟩, run)

theorem accepted_of_slashRun {body : List Nat} {id : RunIdentity} {run : RunRequest}
    (h : slashRun body = .ok (id, run)) : AcceptedRun keyReaders id run := by
  obtain ⟨command, hparse, h⟩ := Except.bind_eq_ok.mp h
  obtain ⟨run', hrun, h⟩ := Except.bind_eq_ok.mp h
  cases h
  exact .slash hparse hrun

theorem run_identity_plain : ∃ id id' run run', AcceptedRun keyReaders id run ∧ AcceptedRun keyReaders id' run' ∧
    id.teamId = "T".toList ∧ id'.teamId = "U".toList ∧ run.sourceKey ≠ run'.sourceKey ∧ run.runId ≠ run'.runId := by
  have hrun : (slashRun (slashBody "T" "C" "U")).toOption.map (fun p => (p.1.teamId, p.2.sourceKey)) =
      some ("T".toList, "slash:T:C:U:1".toList) := by decide +kernel
  have hrun' : (slashRun (slashBody "U" "C" "U")).toOption.map (fun p => (p.1.teamId, p.2.sourceKey)) =
      some ("U".toList, "slash:U:C:U:1".toList) := by decide +kernel
  obtain ⟨⟨id, run⟩, h, hfacts⟩ := Except.toOption_map_eq_some.mp hrun
  obtain ⟨⟨id', run'⟩, h', hfacts'⟩ := Except.toOption_map_eq_some.mp hrun'
  obtain ⟨hteam, hkey⟩ := Prod.mk.inj hfacts
  obtain ⟨hteam', hkey'⟩ := Prod.mk.inj hfacts'
  dsimp only at hkey hkey' hteam hteam'
  have hdigest : runId keyReaders run.sourceKey = runId keyReaders run'.sourceKey →
      run.sourceKey = run'.sourceKey := by
    rw [hkey, hkey']
    exact fun heq => absurd heq (by decide +kernel)
  obtain ⟨hkeys, hids, -⟩ := run_identity_iff keyReaders id id' run run' (accepted_of_slashRun h)
    (accepted_of_slashRun h') hdigest
  have hdiffer : run.sourceKey ≠ run'.sourceKey := by
    rw [hkey, hkey']
    decide
  exact ⟨id, id', run, run', accepted_of_slashRun h, accepted_of_slashRun h', hteam, hteam', hdiffer,
    hids.mpr (hkeys.mp hdiffer)⟩

/-- A colon that moves from the channel to the user leaves the key as it is. -/
theorem run_identities_collide : ¬ ∀ (readers : CommandReaders) (id id' : RunIdentity) (run run' : RunRequest),
    AcceptedRun readers id run → AcceptedRun readers id' run' → id ≠ id' → run.sourceKey ≠ run'.sourceKey := by
  intro hclaim
  have hrun : (slashRun (slashBody "T" "C:D" "U")).toOption.map (fun p => (p.1.userId, p.2.sourceKey)) =
      some ("U".toList, "slash:T:C:D:U:1".toList) := by decide +kernel
  have hrun' : (slashRun (slashBody "T" "C" "D:U")).toOption.map (fun p => (p.1.userId, p.2.sourceKey)) =
      some ("D:U".toList, "slash:T:C:D:U:1".toList) := by decide +kernel
  obtain ⟨⟨id, run⟩, h, hfacts⟩ := Except.toOption_map_eq_some.mp hrun
  obtain ⟨⟨id', run'⟩, h', hfacts'⟩ := Except.toOption_map_eq_some.mp hrun'
  obtain ⟨huser, hkey⟩ := Prod.mk.inj hfacts
  obtain ⟨huser', hkey'⟩ := Prod.mk.inj hfacts'
  have hne : id ≠ id' := by
    rintro rfl
    rw [huser] at huser'
    exact absurd huser' (by decide)
  exact hclaim keyReaders id id' run run' (accepted_of_slashRun h) (accepted_of_slashRun h') hne
    (hkey.trans hkey'.symm)

end AgentBridge.Slack
