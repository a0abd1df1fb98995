import AgentBridge.Admission.Acts
import AgentBridge.Tcp.Connection

/-! What one line does to its connection and, in the name of whom, to the state. -/

namespace AgentBridge.Tcp
variable {security : WorkflowSecurity} {env : Http.Env} {c : Connection} {s : AppState} {P : Effect → Prop}

section Calls
variable {req : Req}

theorem call_acts (hnamed : ∀ scope key, req.access = some (scope, some key) → Entrusts P key) :
    Acts env.now P s (call env s req).2 := by
  cases req with
  | auth | ping | subscribe | listChannels | search | members | history => exact .refl s
  | getContext channel key => cases key <;> exact .refl s
  | register => exact .registerAgent (hnamed _ _ rfl).registration
  | createChannel => exact .createOrGetChannel ((hnamed _ _ rfl).channel _)
  | resolve => exact .resolveChannel (hnamed _ _ rfl).channel
  | join channel => exact .join ((hnamed _ _ rfl).seat channel) _
  | leave channel => exact .leave ((hnamed _ _ rfl).unseat channel)
  | post channel => exact .postMessage ((hnamed _ _ rfl).seat channel) ((hnamed _ _ rfl).message channel) _ _ _ _
  | setContext => exact .setContext ((hnamed _ _ rfl).entry _ _)

theorem subscribe_acts {channel : Text} {agentKey : Option Text} {since : Option Nat}
    (hnamed : ∀ key ∈ agentKey, Entrusts P key) : Acts env.now P s (c.subscribe env s channel agentKey since).2 := by
  have hjoined : Acts env.now P s (s.subscribe env.now channel agentKey).2 :=
    .subscribe fun key hkey _ => (hnamed key hkey).seat channel
  unfold Connection.subscribe
  dsimp only
  split_ifs
  · exact .refl s
  · exact .refl s
  · rcases hsubscribe : s.subscribe env.now channel agentKey with ⟨e | ⟨position, highWater⟩, s₁⟩
    · rwa [hsubscribe] at hjoined
    · rwa [hsubscribe] at hjoined

theorem dispatch_acts (hnamed : ∀ scope key, req.access = some (scope, some key) → Entrusts P key) :
    Acts env.now P s (c.dispatch env s req).2 := by
  unfold Connection.dispatch
  split
  next channel agentKey since =>
    refine subscribe_acts ?_
    rintro key hkey
    rw [Option.mem_def] at hkey
    exact hnamed "channel:read" key (by rw [Req.access, hkey])
  next => exact call_acts hnamed

end Calls

section Principals
variable {p next : TcpPrincipal} {identity : AuthenticatedAdapter} {token : Text} {req : Req}

theorem authorizeAdapter_eq_ok (h : TcpPrincipal.authorizeAdapter identity req = .ok ()) {scope : String}
    {named : Option Text} (haccess : req.access = some (scope, named)) :
    scope.toList ∈ identity.scopes ∧ ∀ key ∈ named, Text.trim key = identity.agentKey := by
  unfold TcpPrincipal.authorizeAdapter at h
  rw [haccess] at h
  dsimp only at h
  split_ifs at h with hscope hnamed
  refine ⟨by simpa using hscope, fun key hkey => ?_⟩
  by_contra hne
  apply hnamed
  rw [Option.mem_def.mp hkey]
  simpa using hne

theorem authenticate_eq_ok (h : p.authenticate security token = .ok next) :
    TcpPrincipal.candidate security token = .ok next ∧ (p = .unauthenticated ∨ p = next) := by
  obtain ⟨candidate, hcandidate, h⟩ := Except.bind_eq_ok.mp h
  split_ifs at h with hswitch
  cases h
  refine ⟨hcandidate, ?_⟩
  by_cases hp : p = .unauthenticated
  · exact .inl hp
  · right
    by_contra hne
    exact hswitch (by simp [TcpPrincipal.authenticated, hp, hne])

end Principals

/-- What one request does: it changes whom the connection speaks for, or it is answered alone, or it is dispatched in
the name of whom the connection speaks for. -/
inductive Handled (security : WorkflowSecurity) (env : Http.Env) (c : Connection) (s : AppState) (req : Req) :
    Connection × AppState → Prop
  | authenticated {token : Text} {next : TcpPrincipal} (hreq : req = .auth token)
      (hnext : TcpPrincipal.candidate security token = .ok next)
      (hkept : c.principal = .unauthenticated ∨ c.principal = next) :
      Handled security env c s req ({ c with principal := next }.write (.authenticated next), s)
  | answered (r : Response) (hr : r = .pong ∨ (∃ e, r = .refused e) ∨ r = .failed .unauthorized) :
      Handled security env c s req (c.write r, s)
  | dispatched (hsomebody : c.principal ≠ .unauthenticated) (hauthorized : c.principal.authorize req = .ok ()) :
      Handled security env c s req (c.dispatch env s req)

theorem handled (c : Connection) (s : AppState) (req : Req) :
    Handled security env c s req (c.handle security env s req) := by
  unfold Connection.handle
  split
  next token =>
    cases hnext : c.principal.authenticate security token with
    | error e => exact .answered _ (.inr (.inl ⟨e, rfl⟩))
    | ok next =>
      obtain ⟨hcandidate, hkept⟩ := authenticate_eq_ok hnext
      exact .authenticated rfl hcandidate hkept
  next => exact .answered _ (.inl rfl)
  next =>
    by_cases hsomebody : c.principal = .unauthenticated
    · rw [if_pos (by rw [hsomebody]; rfl)]
      exact .answered _ (.inr (.inr rfl))
    · rw [if_neg (by simp [TcpPrincipal.authenticated, hsomebody])]
      cases hauthorized : c.principal.authorize req with
      | error e => exact .answered _ (.inr (.inl ⟨e, rfl⟩))
      | ok u => exact .dispatched hsomebody hauthorized

end AgentBridge.Tcp
