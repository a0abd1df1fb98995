import AgentBridge.Base.Decode
import AgentBridge.Slack.Ingress

/-! Both transports pass on the same commands: a Socket Mode payload is written as a form that is read back
as its string members, and everything after that looks at those members alone. -/

namespace AgentBridge.Slack

def payloadFields : Json → List (Text × Text)
  | .obj fields => stringFields fields
  | _ => []

def Carries (form : Form) (fields : List (Text × Text)) : Prop :=
  ∀ key value, form.get key = some value ↔ (key, value) ∈ fields

section Forms
variable {form form' : Form} {fields : List (Text × Text)}

theorem Carries.get_eq (h : Carries form fields) (h' : Carries form' fields) : form.get = form'.get := by
  funext key
  ext value
  rw [h key value, h' key value]

theorem field_congr (h : form.get = form'.get) : field form = field form' := by
  funext key
  unfold field
  rw [h]

theorem idField_congr (h : form.get = form'.get) : idField form = idField form' := by
  funext key
  unfold idField
  rw [field_congr h]

theorem keys_stringFields (fields : List (Text × Json)) :
    ((stringFields fields).map Prod.fst).Sublist (fields.map Prod.fst) := by
  induction fields with
  | nil => exact List.Sublist.refl _
  | cons e rest ih =>
    unfold stringFields at ih ⊢
    rw [List.filterMap_cons]
    cases he : e.2.asStr with
    | none => exact ih.cons _
    | some value => exact ih.cons_cons _

theorem nodup_payloadFields (j : Json) : ((payloadFields j.value).map Prod.fst).Nodup := by
  cases j with
  | obj fields =>
    rw [Json.value]
    exact (Json.nodup_valueFields fields).2.sublist (keys_stringFields _)
  | null => exact List.nodup_nil
  | bool b => exact List.nodup_nil
  | num n => exact List.nodup_nil
  | str s => exact List.nodup_nil
  | arr items => exact List.nodup_nil

theorem get_of_mem_payloadFields {j : Json} {key value : Text} (h : (key, value) ∈ payloadFields j.value) :
    (j.value.get key).bind Json.asStr = some value := by
  cases j with
  | obj fields =>
    rw [Json.value] at h ⊢
    obtain ⟨e, he, hvalue⟩ := List.mem_filterMap.mp h
    obtain ⟨text, htext, hpair⟩ := Option.map_eq_some_iff.mp hvalue
    obtain ⟨rfl, rfl⟩ := Prod.mk.inj hpair
    rw [Json.get_of_mem (Json.nodup_valueFields fields).2 he]
    exact htext
  | null => cases h
  | bool b => cases h
  | num n => cases h
  | str s => cases h
  | arr items => cases h

end Forms

section Envelopes
variable {config : CommandConfig} {body body' : List Nat} {form form' : Form} {provider : Provider}

theorem validateSlashEnvelope_congr (hform : parseForm body = .ok form) (hform' : parseForm body' = .ok form')
    (h : form.get = form'.get) :
    validateSlashEnvelope config body provider = validateSlashEnvelope config body' provider := by
  unfold validateSlashEnvelope
  rw [hform, hform']
  simp only [bind, Except.bind, field_congr h, idField_congr h]

theorem parse_congr (hform : parseForm body = .ok form) (hform' : parseForm body' = .ok form')
    (h : form.get = form'.get) : SlashCommand.parse body = SlashCommand.parse body' := by
  unfold SlashCommand.parse
  rw [hform, hform']
  simp only [bind, Except.bind, field_congr h, idField_congr h, h]

theorem provider_of_validate (hform : parseForm body = .ok form)
    (h : validateSlashEnvelope config body provider = .ok ()) :
    ∃ command, form.get "command".toList = some command ∧ Provider.fromCommand command = some provider := by
  unfold validateSlashEnvelope at h
  rw [hform] at h
  obtain ⟨_, hok, h⟩ := Except.bind_eq_ok.mp h
  cases hok
  obtain ⟨command, hcommand, h⟩ := Except.bind_eq_ok.mp h
  refine ⟨command, ?_, ?_⟩
  · unfold field at hcommand
    cases hfilter : (form.get "command".toList).filter fun value => Text.trim value ≠ [] with
    | none =>
      rw [hfilter] at hcommand
      cases hcommand
    | some value =>
      rw [hfilter] at hcommand
      cases hcommand
      exact (Option.filter_eq_some_iff.mp hfilter).1
  · cases hnamed : Provider.fromCommand command with
    | none =>
      rw [hnamed] at h
      cases h
    | some actual =>
      rw [hnamed] at h
      obtain ⟨_, hactual, -⟩ := Except.bind_eq_ok.mp h
      rw [Except.refuseIf_eq_ok, not_not] at hactual
      rw [hactual]

end Envelopes

section Arms
variable {config : CommandConfig} {payload : Json} {provider : Provider} {path : Text} {body body' : List Nat}
  {form form' : Form} {command : SlashCommand}

theorem socketCommand_eq_ok (hnamed : socketExpectedProvider payload = .ok provider)
    (hbody : socketPayloadToForm payload = .ok body) : socketCommand config payload = .ok command ↔
      validateSlashEnvelope config body provider = .ok () ∧ SlashCommand.parse body = .ok command := by
  unfold socketCommand
  rw [hnamed, hbody]
  dsimp only
  cases validateSlashEnvelope config body provider with
  | error e => simp
  | ok u =>
    dsimp only
    cases SlashCommand.parse body with
    | error e => simp
    | ok c => simp

theorem httpCommand_eq_ok (hpath : Provider.fromRequestPath path = some provider) :
    httpCommand config true path body = .ok command ↔
      validateSlashEnvelope config body provider = .ok () ∧ SlashCommand.parse body = .ok command := by
  unfold httpCommand
  rw [hpath]
  dsimp only
  cases validateSlashEnvelope config body provider with
  | error e => simp
  | ok u =>
    dsimp only
    cases SlashCommand.parse body with
    | error e => simp
    | ok c => simp

theorem socketPayloadToForm_carries {j : Json} (hsome : payloadFields j.value ≠ [])
    (hmany : (payloadFields j.value).length ≤ maxFormFields)
    (hsize : Text.byteLen (serializeForm (payloadFields j.value)) ≤ socketModeMaxFrameBytes) :
    ∃ body form, socketPayloadToForm j.value = .ok body ∧ parseForm body = .ok form ∧
      Carries form (payloadFields j.value) := by
  obtain ⟨form, hform, hget⟩ := parseForm_serializeForm hsome (nodup_payloadFields j) hmany
  refine ⟨_, form, ?_, hform, hget⟩
  cases hj : j.value with
  | obj fields =>
    rw [hj] at hsome hsize
    refine Except.bind_eq_ok.mpr ⟨(), Except.refuseIf_eq_ok.mpr ?_, ?_⟩
    · rw [List.length_eq_zero_iff]
      exact hsome
    · exact Except.bind_eq_ok.mpr ⟨(), Except.refuseIf_eq_ok.mpr (Nat.not_lt.mpr hsize), rfl⟩
  | null => exact absurd (by rw [hj]; rfl) hsome
  | bool b => exact absurd (by rw [hj]; rfl) hsome
  | num n => exact absurd (by rw [hj]; rfl) hsome
  | str s => exact absurd (by rw [hj]; rfl) hsome
  | arr items => exact absurd (by rw [hj]; rfl) hsome

end Arms

/-- A payload of at least one and at most `maxFormFields` string fields within the frame size is re-encoded into
a form that is read back as these fields. Against any signed body with the same fields, on the route of the
provider the command names, both transports pass on the same commands; where it names none, neither passes on any. -/
theorem transports_agree (config : CommandConfig) {j : Json} (hsome : payloadFields j.value ≠ [])
    (hmany : (payloadFields j.value).length ≤ maxFormFields)
    (hsize : Text.byteLen (serializeForm (payloadFields j.value)) ≤ socketModeMaxFrameBytes) :
    (∃ body form, socketPayloadToForm j.value = .ok body ∧ parseForm body = .ok form ∧
      Carries form (payloadFields j.value)) ∧
    ∀ body' form', parseForm body' = .ok form' → Carries form' (payloadFields j.value) →
      (∀ provider path, socketExpectedProvider j.value = .ok provider →
        Provider.fromRequestPath path = some provider → ∀ command,
        (socketCommand config j.value = .ok command ↔ httpCommand config true path body' = .ok command)) ∧
      ∀ e, socketExpectedProvider j.value = .error e → ∀ path command,
        socketCommand config j.value ≠ .ok command ∧ httpCommand config true path body' ≠ .ok command := by
  obtain ⟨body, form, hbody, hform, hcarries⟩ := socketPayloadToForm_carries hsome hmany hsize
  refine ⟨⟨body, form, hbody, hform, hcarries⟩, ?_⟩
  intro body' form' hform' hcarries'
  have hget : form.get = form'.get := hcarries.get_eq hcarries'
  constructor
  · intro provider path hnamed hpath command
    rw [socketCommand_eq_ok hnamed hbody, httpCommand_eq_ok hpath, validateSlashEnvelope_congr hform hform' hget,
      parse_congr hform hform' hget]
  · intro e hunnamed path command
    constructor
    · unfold socketCommand
      rw [hunnamed]
      rintro ⟨⟩
    · intro hhttp
      cases hpath : Provider.fromRequestPath path with
      | none =>
        unfold httpCommand at hhttp
        rw [hpath] at hhttp
        cases hhttp
      | some provider =>
        obtain ⟨hvalid, -⟩ := (httpCommand_eq_ok hpath).mp hhttp
        obtain ⟨text, htext, hprovider⟩ := provider_of_validate hform' hvalid
        have hmember := get_of_mem_payloadFields ((hcarries' _ _).mp htext)
        unfold socketExpectedProvider at hunnamed
        rw [hmember] at hunnamed
        dsimp only at hunnamed
        rw [hprovider] at hunnamed
        cases hunnamed

def unpinnedConfig : CommandConfig where
  expectedAppId := none
  expectedTeamId := none
  allowUnpinnedIdentity := true
  contextMessages := 5
  contextChoice := by decide
  maxConcurrentRuns := 1
  dryRun := true

/-- A slash command with a member that is not a string. -/
def commandFrame : Json := .obj [("command".toList, .str "/x-ores-claude".toList),
    ("text".toList, .str "a+b & c".toList),
  ("is_enterprise".toList, .bool false)]

theorem transports_agree_frame :
    (∃ body form, socketPayloadToForm commandFrame.value = .ok body ∧ parseForm body = .ok form ∧
      Carries form (payloadFields commandFrame.value)) ∧
    ∀ body' form', parseForm body' = .ok form' → Carries form' (payloadFields commandFrame.value) →
      (∀ provider path, socketExpectedProvider commandFrame.value = .ok provider →
        Provider.fromRequestPath path = some provider → ∀ command,
        (socketCommand unpinnedConfig commandFrame.value = .ok command ↔
          httpCommand unpinnedConfig true path body' = .ok command)) ∧
      ∀ e, socketExpectedProvider commandFrame.value = .error e → ∀ path command,
        socketCommand unpinnedConfig commandFrame.value ≠ .ok command ∧
          httpCommand unpinnedConfig true path body' ≠ .ok command :=
  transports_agree unpinnedConfig (by decide +kernel) (by decide +kernel) (by decide +kernel)

end AgentBridge.Slack
