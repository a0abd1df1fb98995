import AgentBridge.Base.Run
import AgentBridge.Http.Router
import AgentBridge.Security.Credentials
import AgentBridge.Tcp.Connection

/-! The server: one state behind the HTTP routers and the TCP connections, request after request. -/

namespace AgentBridge

/-- What `main` starts the server with. -/
structure Host extends Deployment where
  maxTcpConnections : Nat
  loaded : security.Loaded

structure Server where
  state : AppState
  connections : Table Nat Tcp.Connection

inductive ServerAction
  | http (env : Http.Env) (req : Http.HttpRequest)
  | accept (id : Nat)
  | line (id : Nat) (env : Http.Env) (document : Option Json)
  | replay (id : Nat)
  | forward (id i : Nat)
  | lag (id i n : Nat)
  | finish (id i : Nat)
  /-- The client is gone, or a deadline has passed: the handler stops the forwarders and returns. -/
  | hangUp (id : Nat)
  /-- The handler returns with an error. -/
  | breakOff (id : Nat)
  /-- A live stream of the HTTP API ends and gives its permit back. -/
  | endStream

/-- The clock an action reads, if it reads it. -/
def ServerAction.now : ServerAction → Option Now
  | http env _ | line _ env _ => some env.now
  | accept _ | replay _ | forward .. | lag .. | finish .. | hangUp _ | breakOff _ | endStream => none

namespace Server
variable (host : Host)

/-- The server before the first request, over a state of its own or a restored one. -/
def start (s : AppState) : Server := ⟨s, .empty⟩

def update (w : Server) (id : Nat) (f : Tcp.Connection → Tcp.Connection × AppState) : Server :=
  match w.connections.get id with
  | none => w
  | some c => ⟨(f c).2, w.connections.insert id (f c).1⟩

/-- The connections whose handler runs. Each holds a permit until it returns, however it does. -/
def attended (w : Server) : Nat := (w.connections.retain Tcp.Connection.attended).size

/-- One request, one line of a connection, or one turn of a task. Connections beyond the cap are dropped. -/
def step (w : Server) : ServerAction → Server
  | .http env req => { w with state := (Http.serve host.toDeployment env req w.state).state }
  | .accept id =>
    if w.connections.contains id || w.attended ≥ host.maxTcpConnections then w
    else { w with connections := w.connections.insert id (.accept host.security) }
  | .line id env document => w.update id fun c => c.receive host.security env w.state document
  | .replay id => w.update id fun c => (c.replay w.state, w.state)
  | .forward id i => w.update id fun c => (c.forward w.state i, w.state)
  | .lag id i n => w.update id fun c => (c.lag w.state i n, w.state)
  | .finish id i => w.update id fun c => (c.finish i, w.state)
  | .hangUp id =>
    if (w.connections.get id).any Tcp.Connection.mayReturn then { w with connections := w.connections.remove id } else w
  | .breakOff id => w.update id fun c => (c.breakOff, w.state)
  | .endStream =>
    if w.state.sseConnections < w.state.config.maxSseConnections then
      { w with state := { w.state with sseConnections := w.state.sseConnections + 1 } }
    else w

abbrev run (s : AppState) (as : List ServerAction) : Server := Run.exec (step host) (start s) as

end Server
end AgentBridge
