import AgentBridge.Tcp.Request

/-! A connection of the TCP transport: whom it speaks for, what it may ask for, and the live streams it holds. -/

namespace AgentBridge.Tcp

/-- Whom a connection speaks for. It is open where no authentication is required. -/
inductive TcpPrincipal
  | unauthenticated
  | openAccess
  | operator
  | adapter (identity : AuthenticatedAdapter)
deriving DecidableEq

/-- The scope an operation asks for, and the agent it names. -/
def Req.access : Req → Option (String × Option Text)
  | .auth _ | .ping => none
  | .register agentKey .. => some ("agent:register", some agentKey)
  | .listChannels | .search .. => some ("channel:read", none)
  | .createChannel _ _ createdBy | .resolve _ createdBy _ => some ("channel:create", some createdBy)
  | .join _ agentKey _ | .leave _ agentKey => some ("channel:join", some agentKey)
  | .members _ | .history .. => some ("channel:read", none)
  | .post _ sender .. => some ("channel:post", some sender)
  | .subscribe _ agentKey _ => some ("channel:read", agentKey)
  | .getContext .. => some ("context:read", none)
  | .setContext _ _ _ updatedBy => some ("context:write", some updatedBy)

namespace TcpPrincipal
variable (security : WorkflowSecurity)

def initial : TcpPrincipal := if security.authenticationRequired then .unauthenticated else .openAccess

def authenticated (p : TcpPrincipal) : Bool := p ≠ .unauthenticated

/-- Whom a token is for. -/
def candidate (token : Text) : Except String TcpPrincipal :=
  if !security.authenticationRequired then .ok .openAccess
  else match security.authenticatePrincipal token with
  | some .operator => .ok .operator
  | some (.adapter identity) => .ok (.adapter identity)
  | none => .error "unauthorized"

def authenticate (p : TcpPrincipal) (token : Text) : Except String TcpPrincipal := do
  let candidate ← candidate security token
  if p.authenticated && p ≠ candidate then .error "principal_switch_denied" else .ok candidate

def authorizeAdapter (identity : AuthenticatedAdapter) (req : Req) : Except String Unit :=
  match req.access with
  | none => .ok ()
  | some (scope, named) =>
    if !(scope.toList ∈ identity.scopes) then .error "scope_denied"
    else if named.any fun key => Text.trim key ≠ identity.agentKey then .error "adapter_identity_mismatch"
    else .ok ()

def authorize : TcpPrincipal → Req → Except String Unit
  | .unauthenticated, _ => .error "unauthorized"
  | .openAccess, _ | .operator, _ => .ok ()
  | .adapter identity, req => authorizeAdapter identity req

end TcpPrincipal

/-- One line the server answers with. -/
inductive Response
  | hello (principal : TcpPrincipal)
  | authenticated (principal : TcpPrincipal)
  | pong
  | refused (error : String)
  | failed (error : BridgeError)
  | alreadySubscribed (channel : Text)
  | tooManySubscriptions
  | subscribed (channel : Text)
  | agent (agent : Agent)
  | channels (channels : List Channel)
  | channel (channel : Channel)
  | resolved (outcome : ResolveOutcome)
  | results (results : List ScoredChannel)
  | joined (outcome : JoinOutcome)
  | removed (removed : Bool)
  | members (members : List Member)
  | message (message : Message)
  | messages (messages : List Message)
  | entry (entry : Option ContextEntry)
  | context (entries : List ContextEntry)

inductive Output
  | response (r : Response)
  /-- An event of a room, replayed or live. -/
  | event (channel : Text) (e : Event)
  | lagged (channel : Text) (dropped : Nat)

def Response.ofResult {α : Type} (reply : α → Response) : BridgeResult α → Response
  | .error e => .failed e
  | .ok a => reply a

/-- The task that forwards the events of a room from a position on. -/
structure Forwarder where
  channel : Text
  position : Nat
  finished : Bool := false

/-- A subscription that the state has granted, and whose history is still to be replayed. -/
structure Pending where
  channel : Text
  since : Option Nat
  position : Nat
  highWater : Nat

/-- The history that is replayed, up to the mark of the receiver. -/
def Pending.replayed (p : Pending) (s : AppState) : List Message :=
  match s.history p.channel p.since with
  | .error _ => []
  | .ok history => history.filter fun m : Message => m.seq ≤ p.highWater

structure Connection where
  /-- `handle_conn` has not returned. Forwarders may outlive it. -/
  attended : Bool
  principal : TcpPrincipal
  subscribed : List Text
  forwarders : List Forwarder
  pending : Option Pending
  written : List Output

def maxSubsPerConn : Nat := 64

/-- `dispatch` but for `subscribe`. -/
def call (env : Http.Env) (s : AppState) : Req → Option Response × AppState
  | .auth _ | .ping | .subscribe .. => (none, s)
  | .register agentKey displayName kind host metadata =>
    (s.registerAgent env.now {
      agentKey := agentKey
      displayName := displayName
      kind := kind
      host := host
      metadata := metadata
      registeredAt := env.now.ts }).map (fun r => some (.ofResult .agent r)) id
  | .listChannels => (some (.channels s.listChannels), s)
  | .createChannel slug topic createdBy =>
    (s.createOrGetChannel env.surroundings env.now slug topic createdBy).map (fun r => some (.ofResult .channel r)) id
  | .resolve query createdBy threshold =>
    (s.resolveChannel env.surroundings env.now (env.newId 0) (env.newId 1) query createdBy threshold).map
      (fun r => some (.ofResult .resolved r)) id
  | .search query limit => (some (.results (s.searchChannels env.surroundings query limit)), s)
  | .join channel agentKey role => (s.join env.now channel agentKey role).map (fun r => some (.ofResult .joined r)) id
  | .leave channel agentKey => (s.leave env.now channel agentKey).map (fun r => some (.ofResult .removed r)) id
  | .members channel => (some (.ofResult .members (s.members channel)), s)
  | .post channel sender content role metadata =>
    (s.postMessage env.now (env.newId 0) channel sender role content metadata).map
      (fun r => some (.ofResult .message r)) id
  | .history channel since => (some (.ofResult .messages (s.history channel since)), s)
  | .getContext channel (some key) => (some (.ofResult .entry (s.getContextKey channel key)), s)
  | .getContext channel none => (some (.ofResult .context (s.getContext channel)), s)
  | .setContext channel key value updatedBy =>
    (s.setContext env.now channel key value updatedBy).map (fun r => some (.ofResult (fun e => .entry (some e)) r)) id

namespace Connection

def accept (security : WorkflowSecurity) : Connection where
  attended := true
  principal := .initial security
  subscribed := []
  forwarders := []
  pending := none
  written := [.response (.hello (.initial security))]

def write (c : Connection) (r : Response) : Connection := { c with written := c.written ++ [.response r] }

/-- `subscribe` up to the grant: the position of the receiver and the last sequence number before it. -/
def subscribe (env : Http.Env) (c : Connection) (s : AppState) (channel : Text) (agentKey : Option Text)
    (since : Option Nat) : Connection × AppState :=
  let c := { c with forwarders := c.forwarders.filter fun f => !f.finished }
  if channel ∈ c.subscribed then (c.write (.alreadySubscribed channel), s)
  else if c.forwarders.length ≥ maxSubsPerConn then (c.write .tooManySubscriptions, s)
  else match s.subscribe env.now channel agentKey with
  | (.error e, s) => (c.write (.failed e), s)
  | (.ok (position, highWater), s) =>
    ({ c with pending := some { channel, since, position, highWater } }, s)

/-- The rest of `subscribe`: the history is replayed before the receiver is forwarded. Other requests may come between
the two. -/
def replay (c : Connection) (s : AppState) : Connection :=
  match c.pending with
  | none => c
  | some p => { c with
      subscribed := c.subscribed ++ [p.channel]
      forwarders := c.forwarders ++ [{ channel := p.channel, position := p.position }]
      pending := none
      written := c.written ++ (p.replayed s).map (fun m => .event p.channel (.message m)) ++
        [.response (.subscribed p.channel)] }

def dispatch (env : Http.Env) (c : Connection) (s : AppState) (req : Req) : Connection × AppState :=
  match req with
  | .subscribe channel agentKey since => c.subscribe env s channel agentKey since
  | req => (call env s req).map (fun r => r.elim c c.write) id

/-- A request on the connection. Only `auth` and `ping` are answered before it speaks for somebody. -/
def handle (security : WorkflowSecurity) (env : Http.Env) (c : Connection) (s : AppState) (req : Req) :
    Connection × AppState :=
  match req with
  | .auth token => match c.principal.authenticate security token with
    | .ok next => ({ c with principal := next }.write (.authenticated next), s)
    | .error e => (c.write (.refused e), s)
  | .ping => (c.write .pong, s)
  | req =>
    if !c.principal.authenticated then (c.write (.failed .unauthorized), s)
    else match c.principal.authorize req with
    | .error e => (c.write (.refused e), s)
    | .ok () => c.dispatch env s req

/-- A line of the connection that is not blank, as the document it spells if it spells one. It is read once the line
before it has been answered. -/
def receive (security : WorkflowSecurity) (env : Http.Env) (c : Connection) (s : AppState) (line : Option Json) :
    Connection × AppState :=
  if !c.attended || c.pending.isSome then (c, s)
  else match line.bind (Req.read env) with
  | none => (c.write (.refused "bad_request"), s)
  | some req => c.handle security env s req

/-- The next event of a room is written by its forwarder. -/
def forward (c : Connection) (s : AppState) (i : Nat) : Connection :=
  match c.forwarders[i]? with
  | none => c
  | some f =>
    if f.finished then c
    else match (s.channels.get f.channel).bind fun ch => ch.events[f.position]? with
    | none => c
    | some e => { c with
        forwarders := c.forwarders.set i { f with position := f.position + 1 }
        written := c.written ++ [.event f.channel e] }

/-- A forwarder that fell behind skips `n` events, and says so. -/
def lag (c : Connection) (s : AppState) (i n : Nat) : Connection :=
  match c.forwarders[i]? with
  | none => c
  | some f =>
    if f.finished || ((s.channels.get f.channel).elim 0 fun ch => ch.events.length) < f.position + n then c
    else { c with
      forwarders := c.forwarders.set i { f with position := f.position + n }
      written := c.written ++ [.lagged f.channel n] }

/-- A forwarder whose line could not be written ends. -/
def finish (c : Connection) (i : Nat) : Connection :=
  match c.forwarders[i]? with
  | none => c
  | some f => { c with forwarders := c.forwarders.set i { f with finished := true } }

/-- The handler waits for a line, or has an answer to write; it returns nowhere else. -/
def mayReturn (c : Connection) : Bool := c.attended && c.pending.isNone

/-- `handle_conn` returns with an error, a line being too long or not readable or an answer not written: the forwarders
are not aborted. -/
def breakOff (c : Connection) : Connection := if c.mayReturn then { c with attended := false } else c

end Connection
end AgentBridge.Tcp
