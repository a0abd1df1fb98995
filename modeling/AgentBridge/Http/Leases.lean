import AgentBridge.Http.Requests

/-! The two lease middlewares in front of the routers: durable descriptors for leases
the control plane granted, and the canonical renewal route. -/

namespace AgentBridge
open Http

namespace LeaseDescriptors

def registryChannel : Text := "internal-file-lease-descriptors".toList
def contextPrefix : Text := "internal.file-lease.v1.".toList
def registryTopic : Text := "internal authoritative file lease descriptors".toList
def maxTimestampMillis : Nat := 8210266876799999

inductive CompatibilityRoute
  | acquire
  | renew (leaseId : Text)
  | release (leaseId : Text)
deriving DecidableEq

def compatibilityRoute (path : Text) : Option CompatibilityRoute :=
  if path = "/file-leases".toList then some .acquire
  else match (Text.trimMatches '/' path).splitOn '/' with
  | [root, id, verb] =>
    if root = "file-leases".toList && !id.isEmpty then
      if verb = "renew".toList then some (.renew id)
      else if verb = "release".toList then some (.release id)
      else none
    else none
  | _ => none

def normalizeRepository (value : Text) : BridgeResult Text := State.normalizeRepository value
def normalizePath (value : Text) : BridgeResult Text := State.normalizeFilePath value
def normalizeTtl (ttlMs : Nat) : BridgeResult Nat := State.normalizeFileLeaseTtl ttlMs

def descriptorKey (leaseId : Text) : Text := contextPrefix ++ leaseId

def persistDescriptor (s : AppState) (now : Now) (d : AuthoritativeLeaseDescriptor) :
    BridgeResult ContextEntry × AppState :=
  s.setContextInternal now registryChannel (descriptorKey d.leaseId) (.leaseDescriptor d) d.agentKey

def storeDescriptor (s : AppState) (w : Surroundings) (now : Now) (d : AuthoritativeLeaseDescriptor) :
    BridgeResult ContextEntry × AppState :=
  match s.createOrGetChannel w now registryChannel registryTopic d.agentKey with
  | (.error e, s) => (.error e, s)
  | (.ok _, s) =>
    match s.getContextKeyInternal registryChannel (descriptorKey d.leaseId) with
    | .error e => (.error e, s)
    | .ok (some _) => (.error (.badRequest "compatibility lease ID collision".toList), s)
    | .ok none => persistDescriptor s now d

variable (env : Env)

def descriptorExpired (d : AuthoritativeLeaseDescriptor) : Bool :=
  (env.parseRfc3339 d.expiresAt).all fun expires => decide (expires ≤ (env.now.utc : Int))

def loadActiveDescriptor (s : AppState) (leaseId : Text) : BridgeResult AuthoritativeLeaseDescriptor :=
  match s.getContextKeyInternal registryChannel (descriptorKey leaseId) with
  | .error _ | .ok none => .error (.fileLeaseNotFound leaseId)
  | .ok (some entry) =>
    match entry.value with
    | .leaseDescriptor d =>
      if d.status ≠ .active || descriptorExpired env d then .error (.fileLeaseNotFound leaseId)
      else .ok d
    | _ => .error (.fileLeaseNotFound leaseId)

def validateOwnerAndFence (d : AuthoritativeLeaseDescriptor) (agentKey : Text) (fencingToken : Nat) :
    BridgeResult Unit :=
  if d.agentKey ≠ Text.trim agentKey then
    .error (.fileLeaseOwnerMismatch d.leaseId (Text.trim agentKey))
  else if d.fencingToken ≠ fencingToken then .error (.staleFencingToken d.leaseId)
  else .ok ()

def expiryFromResponse (body : Json) (ttlMs : Nat) : Text :=
  let fromMillis : Text :=
    match (findU64 body "expires_at_ms").filter (· ≤ maxTimestampMillis) with
    | some millis => Timestamp.ofMillis millis
    | none => Timestamp.ofMillis (env.now.utc + ttlMs)
  match findString body "expires_at" with
  | some value => if (env.parseRfc3339 value).isSome then value else fromMillis
  | none => fromMillis

/-- What an acquisition asks the control plane for, after all checks. -/
structure Acquisition where
  repository : Text
  path : Text
  agentKey : Text
  ttlMs : Nat

def Acquisition.call (a : Acquisition) : ControlPlaneCall :=
  .acquire a.repository [a.path] a.agentKey a.ttlMs false

def acquireChecks (s : AppState) (body : Option Json) : BridgeResult Acquisition :=
  match body.bind AcquireCompatibleFileLeaseReq.read with
  | none => .error (.badRequest "invalid compatible file lease acquisition JSON".toList)
  | some req =>
    if req.recursive then
      .error (.badRequest "recursive leases are unavailable with the external control plane; send exact paths".toList)
    else if (s.getAgent (Text.trim req.agentKey)).isNone then
      .error (.agentNotFound (Text.trim req.agentKey))
    else do
      let repository ← normalizeRepository req.repository
      let path ← normalizePath req.path
      let ttlMs ← normalizeTtl req.ttlMs
      return { repository := repository, path := path, agentKey := Text.trim req.agentKey, ttlMs := ttlMs }

def acquiredToken (body : Json) : BridgeResult Nat :=
  match (findU64 body "fencing_token").filter (0 < ·) with
  | none => .error (.controlPlane "acquire response omitted fencing_token".toList)
  | some token =>
    if findBool body "acquired" ≠ some true then
      .error (.controlPlane "control plane did not explicitly acquire the lease".toList)
    else .ok token

def newDescriptor (a : Acquisition) (token : Nat) (response : ControlPlaneResponse) :
    AuthoritativeLeaseDescriptor where
  version := 1
  leaseId := env.newId 0
  repository := a.repository
  paths := [a.path]
  agentKey := a.agentKey
  fencingToken := token
  ttlMs := a.ttlMs
  acquiredAt := env.now.ts
  expiresAt := expiryFromResponse env response.body a.ttlMs
  status := .active
  releasedAt := none

def acquire (body : Option Json) (s : AppState) : Outcome :=
  match acquireChecks s body with
  | .error e => .quiet (.failed e) s
  | .ok a =>
    match env.controlPlane a.call with
    | .error e => ⟨.failed e, s, [a.call]⟩
    | .ok response =>
      if !controlPlaneSuccess response.status then ⟨.controlPlane response, s, [a.call]⟩
      else match acquiredToken response.body with
      | .error e => ⟨.failed e, s, [a.call]⟩
      | .ok token =>
        let d := newDescriptor env a token response
        match storeDescriptor s env.surroundings env.now d with
        -- a lease that cannot be described is given back
        | (.error e, s) => ⟨.failed e, s, [a.call, .release d.agentKey d.fencingToken]⟩
        | (.ok _, s) => ⟨extended response (.descriptor response d), s, [a.call]⟩

/-- The descriptor a mutation is about, and the time to live it asks for. -/
def renewChecks (s : AppState) (leaseId : Text) (body : Option Json) :
    BridgeResult (AuthoritativeLeaseDescriptor × Nat) :=
  match body.bind MutateFileLeaseReq.read with
  | none => .error (.badRequest "invalid compatible file lease renewal JSON".toList)
  | some req => do
    let ttlMs ← normalizeTtl req.ttlMs
    let d ← loadActiveDescriptor env s leaseId
    validateOwnerAndFence d req.agentKey req.fencingToken
    return (d, ttlMs)

/-- The reply confirms the renewal under the descriptor's own token. -/
def confirmsRenewal (body : Json) (token : Nat) : Bool :=
  (findBool body "renewed").getD false && (findU64 body "fencing_token").getD 0 = token

def renew (leaseId : Text) (body : Option Json) (s : AppState) : Outcome :=
  match renewChecks env s leaseId body with
  | .error e => .quiet (.failed e) s
  | .ok (d, ttlMs) =>
    let call : ControlPlaneCall := .renew d.repository d.paths d.agentKey d.fencingToken ttlMs
    match env.controlPlane call with
    | .error e => ⟨.failed e, s, [call]⟩
    | .ok response =>
      if !controlPlaneSuccess response.status then ⟨.controlPlane response, s, [call]⟩
      else if !confirmsRenewal response.body d.fencingToken then
        ⟨.failed (.staleFencingToken leaseId), s, [call]⟩
      else
        let d := { d with ttlMs := ttlMs, expiresAt := expiryFromResponse env response.body ttlMs }
        match persistDescriptor s env.now d with
        | (.error e, s) => ⟨.failed e, s, [call]⟩
        | (.ok _, s) => ⟨extended response (.descriptor response d), s, [call]⟩

def releaseChecks (s : AppState) (leaseId : Text) (body : Option Json) :
    BridgeResult AuthoritativeLeaseDescriptor :=
  match body.bind ReleaseFileLeaseReq.read with
  | none => .error (.badRequest "invalid compatible file lease release JSON".toList)
  | some req => do
    let d ← loadActiveDescriptor env s leaseId
    validateOwnerAndFence d req.agentKey req.fencingToken
    return d

def release (leaseId : Text) (body : Option Json) (s : AppState) : Outcome :=
  match releaseChecks env s leaseId body with
  | .error e => .quiet (.failed e) s
  | .ok d =>
    let call : ControlPlaneCall := .release d.agentKey d.fencingToken
    match env.controlPlane call with
    | .error e => ⟨.failed e, s, [call]⟩
    | .ok response =>
      if !controlPlaneSuccess response.status then ⟨extended response (.descriptor response d), s, [call]⟩
      else
        let d := { d with
          status := .released
          releasedAt := some env.now.ts
          expiresAt := env.now.ts }
        match persistDescriptor s env.now d with
        | (.error e, s) => ⟨.failed e, s, [call]⟩
        | (.ok _, s) => ⟨extended response (.descriptor response d), s, [call]⟩

def serveRoute (body : Body) (s : AppState) : CompatibilityRoute → Outcome
  | .acquire => acquire env body.document s
  | .renew leaseId => renew env leaseId body.document s
  | .release leaseId => release env leaseId body.document s

def intercept (next : Service) : Service := fun req s =>
  if req.method ≠ .post || !s.config.controlPlane then next req s
  else match compatibilityRoute req.path with
  | none => next req s
  | some route =>
    if req.body.length > s.config.maxHttpBodyBytes then
      .quiet (.failed (.payloadTooLarge "file lease compatibility request".toList
        s.config.maxHttpBodyBytes)) s
    else serveRoute env req.body s route

end LeaseDescriptors

namespace LeaseRenewal

def maxTtlMs : Nat := 86400000
def canonicalPath : Text := "/file-leases/renew".toList

def isRenewalPath (path : Text) : Bool :=
  path = canonicalPath ||
    match (Text.trimMatches '/' path).splitOn '/' with
    | [root, leaseId, verb] =>
      root = "file-leases".toList && !leaseId.isEmpty && verb = "renew".toList
    | _ => false

def renewalChecks (s : AppState) (body : Option Json) : BridgeResult ControlPlaneCall :=
  match body.bind RenewFileLeaseReq.read with
  | none => .error (.badRequest "invalid file lease renewal JSON".toList)
  | some input =>
    let repository := Text.trim input.repository
    let agentKey := Text.trim input.agentKey
    if repository = [] then .error (.badRequest "repository is required".toList)
    else if input.paths.isEmpty || input.paths.any (fun path => Text.trim path = []) then
      .error (.badRequest
        "paths must contain at least one non-empty repository-relative path".toList)
    else if (s.getAgent agentKey).isNone then .error (.agentNotFound agentKey)
    else if input.fencingToken = 0 then .error (.badRequest "fencing_token must be non-zero".toList)
    else if input.ttlMs = 0 || input.ttlMs > maxTtlMs then
      .error (.badRequest ("ttl_ms must be between 1 and ".toList ++ Text.decimal maxTtlMs))
    else .ok (.renew repository input.paths agentKey input.fencingToken input.ttlMs)

def renew (env : Env) (body : Body) (s : AppState) : Outcome :=
  if body.length > s.config.maxHttpBodyBytes then
    .quiet (.failed (.payloadTooLarge "file lease renewal request".toList s.config.maxHttpBodyBytes)) s
  else match renewalChecks s body.document with
  | .error e => .quiet (.failed e) s
  | .ok call =>
    match env.controlPlane call with
    | .error e => ⟨.failed e, s, [call]⟩
    | .ok response => ⟨.controlPlane response, s, [call]⟩

def intercept (env : Env) (next : Service) : Service := fun req s =>
  if req.method ≠ .post || !isRenewalPath req.path then next req s
  else if !s.config.controlPlane then
    if req.path = canonicalPath then .quiet (.failed .controlPlaneNotConfigured) s else next req s
  else renew env req.body s

end LeaseRenewal
end AgentBridge
