import AgentBridge.Server.Attribution
import AgentBridge.State.Sound

/-! Whatever the server is asked, it does by calls of the state, so that what every call keeps is kept in every run. -/

namespace AgentBridge

namespace Http
variable {d : Deployment} {env : Env} {req : Request} {s : AppState}

theorem entrusts_all (n : Text) : Entrusts (fun _ => True) n := by
  constructor <;> intros <;> trivial

theorem Endpoint.allows_all (e : Endpoint) : e.Allows env req s fun _ => True where
  listener := fun _ _ _ _ _ => trivial
  actor := fun _ _ n _ => entrusts_all n
  cast := fun _ _ _ => trivial
  requester := fun _ _ _ => trivial
  replaced := fun _ _ _ => trivial

theorem inner_calls : Acts env.now (fun _ => True) s (inner d env req s).state :=
  inner_acts (fun _ _ _ _ _ => entrusts_all _) fun _ e _ _ => e.allows_all

theorem serve_calls (req : HttpRequest) : Acts env.now (fun _ => True) s (serve d env req s).state := by
  unfold serve WorkflowSecurity.enforce
  dsimp only
  by_cases hlength : req.body.length > d.security.maxBodyBytes
  · rw [if_pos hlength]
    exact .refl s
  rw [if_neg hlength]
  by_cases hreserved : (WorkflowSecurity.isContextWrite req.method req.path &&
      WorkflowSecurity.containsReservedContextKey req.body.document) = true
  · rw [if_pos hreserved]
    exact .refl s
  rw [if_neg hreserved]
  by_cases hopen : (!d.security.scopedMode || WorkflowSecurity.isPublicPath req.path) = true
  · rw [if_pos hopen]
    exact inner_calls
  rw [if_neg hopen]
  by_cases hadmin : ((bearerToken req).any d.security.isAdminToken) = true
  · rw [if_pos hadmin]
    exact inner_calls
  rw [if_neg hadmin]
  cases (do
      let identity ← d.security.authorizeAdapter { req with adapter := none } (bearerToken req)
      d.security.exchange { req with adapter := none } identity) with
  | error e => exact .refl s
  | ok req' => exact inner_calls

end Http

namespace Tcp

theorem receive_calls {security : WorkflowSecurity} {env : Http.Env} {c : Connection} {s : AppState}
    {line : Option Json} :
    Acts env.now (fun _ => True) s (c.receive security env s line).2 := by
  unfold Connection.receive
  by_cases hbusy : (!c.attended || c.pending.isSome) = true
  · rw [if_pos hbusy]
    exact .refl s
  rw [if_neg hbusy]
  cases line.bind (Req.read env) with
  | none => exact .refl s
  | some req =>
    dsimp only
    have hhandled : Handled security env c s req _ := handled c s req
    generalize c.handle security env s req = r at hhandled
    cases hhandled with
    | authenticated => exact .refl s
    | answered => exact .refl s
    | dispatched => exact dispatch_acts fun _ key _ => Http.entrusts_all key

end Tcp

namespace Server
open Http Tcp
variable {host : Host} {s : AppState}

variable (host) in
theorem step_calls (w : Server) (a : ServerAction) :
    ∃ now, Acts now (fun _ => True) w.state (w.step host a).state := by
  have hidle {s' : AppState} (hs' : s' = w.state) : ∃ now, Acts now (fun _ => True) w.state s' :=
    ⟨⟨0, 0⟩, hs' ▸ .refl _⟩
  cases a with
  | http env req => exact ⟨env.now, serve_calls req⟩
  | line id env document =>
    rw [step, update]
    cases w.connections.get id with
    | none => exact hidle rfl
    | some c => exact ⟨env.now, receive_calls⟩
  | accept id =>
    rw [step]
    split_ifs <;> exact hidle rfl
  | replay id => exact hidle (update_state fun c => rfl)
  | forward id i => exact hidle (update_state fun c => rfl)
  | lag id i n => exact hidle (update_state fun c => rfl)
  | finish id i => exact hidle (update_state fun c => rfl)
  | hangUp id =>
    rw [step]
    split_ifs <;> exact hidle rfl
  | breakOff id => exact hidle (update_state fun c => rfl)
  | endStream =>
    rw [step]
    split_ifs
    · exact ⟨⟨0, 0⟩, (Acts.refl w.state).aside w.state.inbox (w.state.sseConnections + 1)⟩
    · exact hidle rfl

theorem step_sound {config : Config} {w : Server} (hw : w.state.Sound config) (a : ServerAction) :
    (w.step host a).state.Sound config := by
  obtain ⟨now, hcalls⟩ := step_calls host w a
  exact hcalls.sound hw

theorem run_sound {config : Config} (hs : s.Sound config) (as : List ServerAction) :
    (run host s as).state.Sound config :=
  Run.exec_invariant (P := fun w : Server => w.state.Sound config) (fun _ a hw => step_sound hw a) hs as

/-- In every run the stores are within their limits, keys are trimmed, the history and the members of every room are
those of its events, and no two leases of different agents overlap. -/
theorem state_sound (host : Host) (as : List ServerAction) :
    (run host (.new host.config) as).state.Sound host.config := run_sound (AppState.sound_new host.config) as

end Server
end AgentBridge
