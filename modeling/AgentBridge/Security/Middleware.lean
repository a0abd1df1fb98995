import AgentBridge.Http.Message

/-! The outermost boundary of the HTTP server: body limit, reserved context keys and,
once scoped credentials exist, an access rule for every non-public request. -/

namespace AgentBridge

structure AccessRule where
  scope : Text
  identityField : Option Text

structure AssignmentClaimPolicy where
  required : Bool
  repository : Text
  maxTtlMs : Nat

/-- What the server is started with. Security is built from the same configuration
as the state. -/
structure Deployment where
  config : Config
  security : WorkflowSecurity
  claims : AssignmentClaimPolicy
  bearer : security.globalBearer = config.apiAuthBearer
  bodyLimit : security.maxBodyBytes = max config.maxHttpBodyBytes 1
  claimsBacked : claims.required = true → config.controlPlane = true

namespace WorkflowSecurity
open Http

def isContextWrite (method : Method) (path : Text) : Bool :=
  (method = .post || method = .put) && "/channels/".toList.isPrefixOf path &&
    "/context".toList.isSuffixOf path

def containsReservedContextKey (body : Option Json) : Bool :=
  ((body.bind fun value => value.get "key".toList).bind Json.asStr).any fun key =>
    State.reservedContextPrefixes.any fun p => p.isPrefixOf (Text.trim key)

def publicPaths : List Text :=
  ["/".toList, "/health".toList, "/healthz".toList, "/readyz".toList, "/metrics".toList,
    "/.well-known/agent-pontifex".toList]

def isPublicPath (path : Text) : Bool := publicPaths.contains path

def rule (scope : String) (identityField : Option String) : Option AccessRule :=
  some { scope := scope.toList, identityField := identityField.map String.toList }

def below (root tail : String) (path : Text) : Bool :=
  root.toList.isPrefixOf path && tail.toList.isSuffixOf path

/-- The arms for `POST`, in the order of the source. -/
def postRule (path : Text) : Option AccessRule :=
  if path = "/blind-workflows".toList then rule "workflow:create" (some "created_by")
  else if below "/blind-workflows/" "/submissions" path then rule "workflow:submit" (some "agent_key")
  else if below "/blind-workflows/" "/reveal" path then rule "workflow:read" none
  else if path = "/workflows".toList then rule "workflow:create" (some "created_by")
  else if below "/workflows/" "/admission/usage" path then rule "workflow:usage" (some "updated_by")
  else if below "/workflows/" "/admission/complete" path ||
      below "/workflows/" "/admission/cancel" path then rule "workflow:usage" (some "updated_by")
  else if below "/workflows/" "/admission" path then rule "workflow:admit" (some "requested_by")
  else if below "/workflows/" "/submissions" path then rule "workflow:submit" (some "agent_key")
  else if path = "/agents/register".toList then rule "agent:register" (some "agent_key")
  else if path = "/channels".toList then rule "channel:create" (some "created_by")
  else if path = "/channels/resolve".toList then rule "channel:create" (some "created_by")
  else if path = "/channels/search".toList then rule "channel:read" none
  else if below "/channels/" "/context" path then rule "context:write" (some "updated_by")
  else if below "/channels/" "/messages" path then rule "channel:post" (some "from")
  else if below "/channels/" "/join" path || below "/channels/" "/leave" path then
    rule "channel:join" (some "agent_key")
  else if "/file-leases".toList.isPrefixOf path then rule "lease:operate" (some "agent_key")
  else none

/-- The arms for `GET`, in the order of the source. -/
def getRule (path : Text) : Option AccessRule :=
  if "/blind-workflows/".toList.isPrefixOf path then rule "workflow:read" none
  else if path = "/workflows".toList then rule "workflow:read" none
  else if "/workflows/".toList.isPrefixOf path then rule "workflow:read" none
  else if path = "/agents".toList || path = "/agents/by-file".toList then rule "agent:read" none
  else if path = "/channels".toList then rule "channel:read" none
  else if "/channels/".toList.isPrefixOf path && !"/context".toList.isSuffixOf path &&
      !"/messages".toList.isSuffixOf path then rule "channel:read" none
  else if below "/channels/" "/context" path then rule "context:read" none
  else if below "/channels/" "/messages" path then rule "channel:read" none
  else none

def accessRule (method : Method) (path : Text) : Option AccessRule :=
  match method with
  | .post => postRule path
  | .get => getRule path
  | .put => if below "/channels/" "/context" path then rule "context:write" (some "updated_by") else none
  | .head | .other => none

def namesIdentity (body : Option Json) (field : Text) (identity : AuthenticatedAdapter) : Bool :=
  (((body.bind fun value => value.get field).bind Json.asStr).map Text.trim).any
    fun value => value = identity.agentKey

/-- The checks an adapter's request passes: the identity it goes on with, or the refusal. -/
def authorizeAdapter (security : WorkflowSecurity) (req : Request) (presented : Option Text) :
    Except (Nat × String) AuthenticatedAdapter :=
  match accessRule req.method req.path with
  | none => .error (403, "scope_denied")
  | some rule =>
    match presented.bind security.authenticate with
    | none => .error (401, "unauthorized")
    | some identity =>
      if !(rule.scope ∈ identity.scopes) then .error (403, "scope_denied")
      else if !rule.identityField.all (fun field => namesIdentity req.body.document field identity) then
        .error (403, "adapter_identity_mismatch")
      else .ok identity

/-- The request an adapter's credential was exchanged for: the raw token never goes inwards. -/
def exchange (security : WorkflowSecurity) (req : Request) (identity : AuthenticatedAdapter) :
    Except (Nat × String) Request :=
  match security.globalBearer with
  | none => .ok { req with adapter := some identity, authorization := none }
  | some bearer =>
    if bearer.all isHeaderChar then
      .ok { req with adapter := some identity, authorization := some ("Bearer ".toList ++ bearer) }
    else .error (500, "auth_configuration_error")

def enforce (security : WorkflowSecurity) (next : Service) : Service := fun req s =>
  let refuse (status : Nat) (error : String) : Outcome := .quiet (.refused status error.toList) s
  if req.body.length > security.maxBodyBytes then refuse 413 "payload_too_large"
  else if isContextWrite req.method req.path && containsReservedContextKey req.body.document then
    refuse 403 "reserved_context_namespace"
  else if !security.scopedMode || isPublicPath req.path then next req s
  else
    let presented := bearerToken req.toHttpRequest
    if presented.any security.isAdminToken then next req s
    else match (do
      let identity ← security.authorizeAdapter req presented
      security.exchange req identity) with
    | .error (status, error) => refuse status error
    | .ok req => next req s

end WorkflowSecurity
end AgentBridge
