import AgentBridge.Base.KeySet
import AgentBridge.Base.Result
import AgentBridge.Base.Text

/-! Scoped adapter credentials: what a configuration document may hold, and how a
presented token is resolved. -/

namespace AgentBridge

structure AuthenticatedAdapter where
  tokenId : Text
  agentKey : Text
  scopes : KeySet Text
deriving DecidableEq

inductive AuthenticatedPrincipal
  | operator
  | adapter (identity : AuthenticatedAdapter)

structure Credential where
  tokenId : Text
  token : Text
  agentKey : Text
  scopes : KeySet Text

def Credential.identity (c : Credential) : AuthenticatedAdapter where
  tokenId := c.tokenId
  agentKey := c.agentKey
  scopes := c.scopes

structure CredentialInput where
  tokenId : Text
  token : Text
  agentKey : Text
  scopes : List Text
  enabled : Bool := true

namespace WorkflowSecurity

def maxCredentials : Nat := 1000
def maxTokenBytes : Nat := 4096
def maxKeyBytes : Nat := 120
def maxScopes : Nat := 32

def knownScopes : List Text :=
  ["workflow:create".toList, "workflow:read".toList, "workflow:submit".toList,
    "workflow:admit".toList, "workflow:usage".toList, "agent:register".toList,
    "agent:read".toList, "channel:create".toList, "channel:join".toList, "channel:post".toList,
    "channel:read".toList, "context:read".toList, "context:write".toList, "lease:operate".toList]

def validateText (name : String) (value : Text) (max : Nat) : Except Text Text :=
  let value := Text.trim value
  if Text.printable max value then .ok value
  else .error ("workflow credential ".toList ++ name.toList ++ " must be 1..=".toList ++
    Text.decimal max ++ " printable bytes".toList)

def validateScope (tokenId scope : Text) : Except Text Text :=
  let scope := Text.toAsciiLowercase (Text.trim scope)
  if knownScopes.contains scope then .ok scope
  else .error ("workflow credential '".toList ++ tokenId ++ "' has unknown scope '".toList ++ scope ++
    "'".toList)

/-- No two credentials share a token and none reuses the global bearer. -/
def Distinct (globalBearer : Option Text) (credentials : List Credential) : Prop :=
  (credentials.map Credential.token).Nodup ∧ ∀ c ∈ credentials, globalBearer ≠ some c.token

/-- The loop body over the enabled inputs. -/
def addCredential (globalBearer : Option Text) (credentials : List Credential) (input : CredentialInput) :
    Except Text (List Credential) := do
  let tokenId ← validateText "token_id" input.tokenId maxKeyBytes
  let agentKey ← validateText "agent_key" input.agentKey maxKeyBytes
  let token ← validateText "token" input.token maxTokenBytes
  let named (rest : String) : Text := "workflow credential '".toList ++ tokenId ++ rest.toList
  if globalBearer = some token then .error (named "' must not reuse API_AUTH_BEARER material")
  else if (credentials.map Credential.tokenId).contains tokenId then
    .error ("duplicate workflow credential token_id '".toList ++ tokenId ++ "'".toList)
  else if (credentials.map Credential.token).contains token then
    .error "duplicate workflow credential token material".toList
  else if input.scopes.isEmpty || input.scopes.length > maxScopes then
    .error (named "' must contain 1..=32 scopes")
  else do
    let scopes ← input.scopes.mapM (validateScope tokenId)
    return credentials ++
      [{ tokenId := tokenId, token := token, agentKey := agentKey, scopes := .ofList scopes }]

def addCredentials (globalBearer : Option Text) (credentials : List Credential) :
    List CredentialInput → Except Text (List Credential)
  | [] => .ok credentials
  | input :: rest => do
    let credentials ← addCredential globalBearer credentials input
    addCredentials globalBearer credentials rest

theorem distinct_nil {globalBearer : Option Text} : Distinct globalBearer [] :=
  ⟨List.nodup_nil, by simp⟩

theorem addCredential_distinct {globalBearer : Option Text} {before after : List Credential}
    {input : CredentialInput} (hbefore : Distinct globalBearer before)
    (h : addCredential globalBearer before input = .ok after) : Distinct globalBearer after := by
  obtain ⟨tokenId, -, h⟩ := Except.bind_eq_ok.mp h
  obtain ⟨agentKey, -, h⟩ := Except.bind_eq_ok.mp h
  obtain ⟨token, -, h⟩ := Except.bind_eq_ok.mp h
  obtain ⟨hbearer, h⟩ := Except.check_eq_ok.mp h
  obtain ⟨-, h⟩ := Except.check_eq_ok.mp h
  obtain ⟨htoken, h⟩ := Except.check_eq_ok.mp h
  obtain ⟨-, h⟩ := Except.check_eq_ok.mp h
  obtain ⟨scopes, -, h⟩ := Except.bind_eq_ok.mp h
  cases h
  constructor
  · rw [List.map_append, List.nodup_append]
    refine ⟨hbefore.1, List.nodup_singleton _, ?_⟩
    intro t ht u hu he
    rw [List.map_singleton, List.mem_singleton] at hu
    rw [he, hu] at ht
    exact htoken (List.contains_iff_mem.mpr ht)
  · intro c hc
    rcases List.mem_append.mp hc with hc | hc
    · exact hbefore.2 c hc
    · rw [List.mem_singleton.mp hc]
      exact hbearer

theorem addCredentials_distinct {globalBearer : Option Text} {before after : List Credential}
    {inputs : List CredentialInput} (hbefore : Distinct globalBearer before)
    (h : addCredentials globalBearer before inputs = .ok after) : Distinct globalBearer after := by
  induction inputs generalizing before with
  | nil =>
    cases h
    exact hbefore
  | cons input rest ih =>
    obtain ⟨next, hnext, h⟩ := Except.bind_eq_ok.mp h
    exact ih (addCredential_distinct hbefore hnext) h

end WorkflowSecurity

/-- The validated security configuration. -/
structure WorkflowSecurity where
  globalBearer : Option Text
  credentials : List Credential
  maxBodyBytes : Nat
  distinct : WorkflowSecurity.Distinct globalBearer credentials

namespace WorkflowSecurity

/-- Bytes a header value may hold. -/
def isHeaderChar (c : Char) : Bool := (0x20 ≤ c.toNat && c.toNat ≠ 0x7F) || c = '\t'

/-- What `to_str` gives back: header text of visible ASCII only. -/
def headerText (value : Text) : Option Text :=
  if value.all fun c => (0x20 ≤ c.toNat && c.toNat < 0x7F) || c = '\t' then some value else none

/-- `from_json` on a parsed document; no document means no credentials. -/
def fromInputs (globalBearer : Option Text) (inputs : List CredentialInput) (maxBodyBytes : Nat) :
    Except Text WorkflowSecurity :=
  if !globalBearer.all (fun bearer => bearer.all isHeaderChar) then
    .error "API_AUTH_BEARER is not a valid HTTP bearer".toList
  else if inputs.length > maxCredentials then
    .error ("WORKFLOW_ADAPTER_AUTH_JSON contains more than ".toList ++ Text.decimal maxCredentials ++
      " credentials".toList)
  else match h : addCredentials globalBearer [] (inputs.filter CredentialInput.enabled) with
  | .error e => .error e
  | .ok credentials => .ok {
      globalBearer := globalBearer
      credentials := credentials
      maxBodyBytes := max maxBodyBytes 1
      distinct := addCredentials_distinct distinct_nil h }

variable (security : WorkflowSecurity)

def authenticate (token : Text) : Option AuthenticatedAdapter :=
  (security.credentials.find? fun c => c.token = token).map Credential.identity

def isAdminToken (token : Text) : Bool := security.globalBearer.any fun expected => token = expected

def authenticatePrincipal (token : Text) : Option AuthenticatedPrincipal :=
  if security.isAdminToken token then some .operator
  else (security.authenticate token).map .adapter

def scopedMode : Bool := !security.credentials.isEmpty

def authenticationRequired : Bool := security.globalBearer.isSome || security.scopedMode

/-- An agent key as a credential has it. -/
def KeyOk (key : Text) : Prop := Text.trim key = key ∧ Text.printable maxKeyBytes key = true

/-- The security configuration was read from a document. -/
def Loaded (security : WorkflowSecurity) : Prop :=
  ∃ globalBearer inputs maxBodyBytes, fromInputs globalBearer inputs maxBodyBytes = .ok security

section Keys
variable {globalBearer : Option Text} {before after : List Credential} {security : WorkflowSecurity}

theorem validateText_eq_ok {name : String} {value text : Text} (h : validateText name value maxKeyBytes = .ok text) :
    KeyOk text := by
  unfold validateText at h
  dsimp only at h
  split_ifs at h with hprintable
  cases h
  exact ⟨Text.trim_trim value, hprintable⟩

theorem addCredential_keys {input : CredentialInput} (hbefore : ∀ c ∈ before, KeyOk c.agentKey)
    (h : addCredential globalBearer before input = .ok after) : ∀ c ∈ after, KeyOk c.agentKey := by
  obtain ⟨tokenId, -, h⟩ := Except.bind_eq_ok.mp h
  obtain ⟨agentKey, hkey, h⟩ := Except.bind_eq_ok.mp h
  obtain ⟨token, -, h⟩ := Except.bind_eq_ok.mp h
  obtain ⟨-, h⟩ := Except.check_eq_ok.mp h
  obtain ⟨-, h⟩ := Except.check_eq_ok.mp h
  obtain ⟨-, h⟩ := Except.check_eq_ok.mp h
  obtain ⟨-, h⟩ := Except.check_eq_ok.mp h
  obtain ⟨scopes, -, h⟩ := Except.bind_eq_ok.mp h
  cases h
  intro c hc
  rcases List.mem_append.mp hc with hc | hc
  · exact hbefore c hc
  · rw [List.mem_singleton.mp hc]
    exact validateText_eq_ok hkey

theorem addCredentials_keys {inputs : List CredentialInput} (hbefore : ∀ c ∈ before, KeyOk c.agentKey)
    (h : addCredentials globalBearer before inputs = .ok after) : ∀ c ∈ after, KeyOk c.agentKey := by
  induction inputs generalizing before with
  | nil =>
    cases h
    exact hbefore
  | cons input rest ih =>
    obtain ⟨next, hnext, h⟩ := Except.bind_eq_ok.mp h
    exact ih (addCredential_keys hbefore hnext) h

theorem Loaded.keys (h : security.Loaded) : ∀ c ∈ security.credentials, KeyOk c.agentKey := by
  obtain ⟨globalBearer, inputs, maxBodyBytes, h⟩ := h
  unfold fromInputs at h
  split_ifs at h
  split at h
  · cases h
  next credentials hcredentials =>
    cases h
    exact addCredentials_keys (fun c hc => absurd hc List.not_mem_nil) hcredentials

theorem Loaded.key {token : Text} {identity : AuthenticatedAdapter} (h : security.Loaded)
    (hidentity : security.authenticate token = some identity) : KeyOk identity.agentKey := by
  obtain ⟨c, hc, rfl⟩ := Option.map_eq_some_iff.mp hidentity
  exact h.keys c (List.mem_of_find?_eq_some hc)

end Keys

end WorkflowSecurity
end AgentBridge
