import AgentBridge.Http.Identity
import AgentBridge.Server.Connections

/-! In scoped mode everything the server does stands to the account of the credential it was asked with, over both
transports and in every run. -/

namespace AgentBridge
open Http Tcp

namespace Server
variable {host : Host} {s : AppState} {as : List ServerAction} {id : Nat} {token : Text}

def Attends (host : Host) (s : AppState) (as : List ServerAction) (id : Nat) : Prop :=
  ∃ c, (run host s as).connections.get id = some c ∧ c.attended = true

/-- A line with the token came on the connection, whose handler ran then and at every moment since. -/
def Presented (host : Host) (s : AppState) (as : List ServerAction) (id : Nat) (token : Text) : Prop :=
  ∃ before env document after, as = before ++ .line id env document :: after ∧
    document.bind (Req.read env) = some (.auth token) ∧
    ∀ since, since <+: .line id env document :: after → Attends host s (before ++ since) id

theorem Presented.concat (h : Presented host s as id token) {a : ServerAction} (ha : Attends host s (as ++ [a]) id) :
    Presented host s (as ++ [a]) id token := by
  obtain ⟨before, env, document, after, rfl, hread, hafter⟩ := h
  rw [List.append_assoc, List.cons_append] at ha
  refine ⟨before, env, document, after ++ [a], by simp, hread, fun since hsince => ?_⟩
  rw [← List.cons_append, List.prefix_concat_iff] at hsince
  rcases hsince with rfl | hsince
  · exact ha
  · exact hafter since hsince

/-- A connection speaks for somebody because it presented the token of him, or because nobody has to. -/
def SpeaksFor (host : Host) (s : AppState) (as : List ServerAction) (id : Nat) (p : TcpPrincipal) : Prop :=
  p = .initial host.security ∨
    ∃ token, Presented host s as id token ∧ TcpPrincipal.candidate host.security token = .ok p

theorem SpeaksFor.concat {p : TcpPrincipal} (h : SpeaksFor host s as id p) {a : ServerAction}
    (ha : Attends host s (as ++ [a]) id) : SpeaksFor host s (as ++ [a]) id p :=
  h.imp_right fun ⟨token, hpresented, hcandidate⟩ => ⟨token, hpresented.concat ha, hcandidate⟩

theorem run_concat (host : Host) (s : AppState) (as : List ServerAction) (a : ServerAction) :
    run host s (as ++ [a]) = (run host s as).step host a := Run.exec_append (start s) as [a]

theorem run_speaksFor (host : Host) (s : AppState) (as : List ServerAction) :
    ∀ id c, (run host s as).connections.get id = some c → c.attended = true → SpeaksFor host s as id c.principal := by
  -- the token was presented in the prefix at which the connection came to speak for someone
  induction as using List.reverseRecOn with
  | nil =>
    intro id c h
    cases h
  | append_singleton as a ih =>
    intro id c h hattended
    have hnow : Attends host s (as ++ [a]) id := ⟨c, h, hattended⟩
    rw [run_concat] at h
    rcases step_origin h with ⟨-, -, rfl⟩ | ⟨old, hold, hpasses⟩
    · exact .inl rfl
    · have hbefore : old.attended = true := hpasses.attended hattended
      rcases hpasses.principal with hsame | ⟨env, document, token, rfl, hread, hcandidate⟩
      · rw [hsame]
        exact (ih id old hold hbefore).concat hnow
      · refine .inr ⟨token, ⟨as, env, document, [], rfl, hread, fun since hsince => ?_⟩, hcandidate⟩
        rw [← List.nil_append [_], List.prefix_concat_iff, List.prefix_nil] at hsince
        rcases hsince with rfl | rfl
        · exact hnow
        · rw [List.append_nil]
          exact ⟨old, hold, hbefore⟩

/-- The line is a request that the credential has the scope for and that acts in the name of its agent. -/
def Asked (identity : AuthenticatedAdapter) (env : Env) (document : Option Json) (effect : Effect) : Prop :=
  ∃ req scope named, document.bind (Req.read env) = some req ∧ req.access = some (scope, named) ∧
    scope.toList ∈ identity.scopes ∧ Owned identity.agentKey effect

def Accounted (host : Host) (s : AppState) (as : List ServerAction) : ServerAction → Effect → Prop
  | .http env req, effect =>
    FromOperator host.security req ∨ Entitled host.security env req (run host s as).state effect
  | .line id env document, effect => ∃ token, Presented host s as id token ∧
      (host.security.isAdminToken token = true ∨
        ∃ identity, host.security.authenticate token = some identity ∧ Asked identity env document effect)
  | _, _ => False

theorem receive_acts {c : Connection} {env : Env} {state : AppState} {document : Option Json}
    {identity : AuthenticatedAdapter} (hkey : WorkflowSecurity.KeyOk identity.agentKey)
    (hprincipal : c.principal = .adapter identity) :
    Acts env.now (Asked identity env document) state (c.receive host.security env state document).2 := by
  unfold Connection.receive
  by_cases hbusy : (!c.attended || c.pending.isSome) = true
  · rw [if_pos hbusy]
    exact .refl state
  rw [if_neg hbusy]
  cases hreq : document.bind (Req.read env) with
  | none => exact .refl state
  | some req =>
    dsimp only
    have hhandled : Handled host.security env c state req _ := handled c state req
    generalize c.handle host.security env state req = r at hhandled
    cases hhandled with
    | authenticated => exact .refl state
    | answered => exact .refl state
    | dispatched hsomebody hauthorized =>
      rw [hprincipal] at hauthorized
      apply dispatch_acts
      intro scope key haccess
      obtain ⟨hscope, hnamed⟩ := authorizeAdapter_eq_ok hauthorized haccess
      exact (entrusts_owned hkey (hnamed key rfl)).mono fun effect heffect =>
        ⟨req, scope, some key, hreq, haccess, hscope, heffect⟩

theorem receive_unattended {c : Connection} {env : Env} {state : AppState} {document : Option Json}
    (hgone : c.attended = false) : c.receive host.security env state document = (c, state) := by
  rw [Connection.receive, if_pos (by simp [hgone])]

theorem receive_unauthenticated {c : Connection} {env : Env} {state : AppState} {document : Option Json}
    (hprincipal : c.principal = .unauthenticated) : (c.receive host.security env state document).2 = state := by
  unfold Connection.receive
  by_cases hbusy : (!c.attended || c.pending.isSome) = true
  · rw [if_pos hbusy]
  rw [if_neg hbusy]
  cases document.bind (Req.read env) with
  | none => rfl
  | some req =>
    dsimp only
    have hhandled : Handled host.security env c state req _ := handled c state req
    generalize c.handle host.security env state req = r at hhandled
    cases hhandled with
    | authenticated => rfl
    | answered => rfl
    | dispatched hsomebody => exact absurd hprincipal hsomebody

theorem update_state {w : Server} {f : Connection → Connection × AppState} (h : ∀ c, (f c).2 = w.state) :
    (w.update id f).state = w.state := by
  unfold update
  split
  · rfl
  · exact h _

theorem initial_of_scoped (hscoped : host.security.scopedMode = true) :
    TcpPrincipal.initial host.security = .unauthenticated := by
  rw [TcpPrincipal.initial, if_pos (by simp [WorkflowSecurity.authenticationRequired, hscoped])]

theorem candidate_of_scoped {p : TcpPrincipal} (hscoped : host.security.scopedMode = true)
    (h : TcpPrincipal.candidate host.security token = .ok p) : host.security.isAdminToken token = true ∨
      ∃ identity, host.security.authenticate token = some identity ∧ p = .adapter identity := by
  unfold TcpPrincipal.candidate WorkflowSecurity.authenticatePrincipal at h
  rw [if_neg (by simp [WorkflowSecurity.authenticationRequired, hscoped])] at h
  by_cases hadmin : host.security.isAdminToken token = true
  · exact .inl hadmin
  · rw [if_neg hadmin] at h
    cases hidentity : host.security.authenticate token with
    | none =>
      rw [hidentity] at h
      cases h
    | some identity =>
      rw [hidentity] at h
      cases h
      exact .inr ⟨identity, rfl, rfl⟩

/-- In scoped mode every effect, in every run, stands to the account of the operator or of a credential that was
presented with the request or before it on the same connection. -/
theorem effects_accounted (host : Host) (s : AppState) (as : List ServerAction)
    (hscoped : host.security.scopedMode = true) (a : ServerAction) {now : Now}
    (hnow : ∀ t ∈ a.now, t = now) {effect : Effect}
    (h : Occurs now (run host s as).state (run host s (as ++ [a])).state effect) : Accounted host s as a effect := by
  rw [run_concat] at h
  have hidle {s' : AppState} (hs' : s' = (run host s as).state)
    (h : Occurs now (run host s as).state s' effect) : False := by
    rw [hs'] at h
    exact (Confined.refl (P := fun _ => False) _).effects effect h
  -- only a request and a line of a connection that has authenticated can have an effect
  cases a with
  | http env req =>
    by_cases hoperator : FromOperator host.security req
    · exact .inl hoperator
    · obtain rfl := hnow env.now rfl
      exact .inr ((serve_acts host.loaded hscoped hoperator).confined.effects effect h)
  | line id env document =>
    obtain rfl := hnow env.now rfl
    cases hget : (run host s as).connections.get id with
    | none =>
      refine (hidle ?_ h).elim
      rw [step, update, hget]
    | some c =>
      rw [step, update, hget] at h
      by_cases hgone : c.attended = false
      · exact (hidle (congrArg Prod.snd (receive_unattended hgone)) h).elim
      rcases run_speaksFor host s as id c hget (by simpa using hgone) with hinitial | ⟨token, hpresented, hcandidate⟩
      · rw [initial_of_scoped hscoped] at hinitial
        exact (hidle (receive_unauthenticated hinitial) h).elim
      · refine ⟨token, hpresented, ?_⟩
        rcases candidate_of_scoped hscoped hcandidate with hadmin | ⟨identity, hidentity, hprincipal⟩
        · exact .inl hadmin
        · refine .inr ⟨identity, hidentity, ?_⟩
          exact (receive_acts (host.loaded.key hidentity) hprincipal).confined.effects effect h
  | accept id =>
    refine (hidle ?_ h).elim
    rw [step]
    split_ifs <;> rfl
  | replay id => exact (hidle (update_state fun c => rfl) h).elim
  | forward id i => exact (hidle (update_state fun c => rfl) h).elim
  | lag id i n => exact (hidle (update_state fun c => rfl) h).elim
  | finish id i => exact (hidle (update_state fun c => rfl) h).elim
  | hangUp id =>
    refine (hidle ?_ h).elim
    rw [step]
    split_ifs <;> rfl
  | breakOff id => exact (hidle (update_state fun c => rfl) h).elim
  | endStream =>
    rw [step] at h
    split_ifs at h
    · have hsame : Confined now (fun _ => False) (run host s as).state { (run host s as).state with
          sseConnections := (run host s as).state.sseConnections + 1 } := .of_same rfl rfl rfl rfl
      exact (hsame.effects effect h).elim
    · exact (hidle rfl h).elim

/-- A server that was started with the credential of `ada`. -/
def adaHost : Host := { adaDeployment with
  maxTcpConnections := 1
  loaded := ⟨none, [adaInput], 2097152, rfl⟩ }

/-- The token is presented on a connection. -/
def adaLines : List ServerAction :=
  [.accept 0, .line 0 adaEnv (some (.obj [("op".toList, .str "auth".toList), ("token".toList, .str "secret".toList)]))]

def adaRegisters : ServerAction :=
  .line 0 adaEnv (some (.obj [("op".toList, .str "register".toList), ("agent_key".toList, .str " ada".toList)]))

/-- The registration stands to the account of the credential that came on the connection before. -/
theorem effects_accounted_ada :
    Occurs ⟨0, 0⟩ (run adaHost (.new .inMemory) adaLines).state
      (run adaHost (.new .inMemory) (adaLines ++ [adaRegisters])).state (.registration "ada".toList) ∧
    Accounted adaHost (.new .inMemory) adaLines adaRegisters (.registration "ada".toList) := by
  have hregistered : Occurs ⟨0, 0⟩ (run adaHost (.new .inMemory) adaLines).state
      (run adaHost (.new .inMemory) (adaLines ++ [adaRegisters])).state (.registration "ada".toList) := by
    refine .registration fun heq => ?_
    have hafter : ((run adaHost (.new .inMemory) (adaLines ++ [adaRegisters])).state.agents.get
        "ada".toList).isSome = true := by decide +kernel
    have hbefore : ((run adaHost (.new .inMemory) adaLines).state.agents.get "ada".toList).isSome = false := by
      decide +kernel
    rw [heq, hbefore] at hafter
    cases hafter
  exact ⟨hregistered, effects_accounted adaHost (.new .inMemory) adaLines rfl adaRegisters
    (by rintro t ⟨⟩; rfl) hregistered⟩

end Server
end AgentBridge
