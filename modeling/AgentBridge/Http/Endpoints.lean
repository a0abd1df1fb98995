import AgentBridge.Http.Identity

/-! Which requests of an agent come to their endpoint in scoped mode, past the security layer, the lease layers, the
claim check and the auth layer of the endpoint's router. -/

namespace AgentBridge.Http

/-- The checks that do not depend on who asks. -/
structure Sendable (security : WorkflowSecurity) (req : HttpRequest) : Prop where
  length : req.body.length ≤ security.maxBodyBytes
  unreserved : (WorkflowSecurity.isContextWrite req.method req.path &&
    WorkflowSecurity.containsReservedContextKey req.body.document) = false

/-- The request presents the token of a credential that has the scope the endpoint asks for, and its body names the
agent of the credential where the endpoint asks for that. -/
def Meets (security : WorkflowSecurity) (req : HttpRequest) (e : Endpoint) (identity : AuthenticatedAdapter) : Prop :=
  ∃ token rule, bearerToken req = some token ∧ security.authenticate token = some identity ∧
    e.ruleAt req.method req.path = some rule ∧ rule.scope ∈ identity.scopes ∧
    rule.identityField.all (fun field => WorkflowSecurity.namesIdentity req.body.document field identity) = true

/-- With a control plane, the layer of the descriptors serves the lease routes in place of their endpoints. -/
def Relayed (req : HttpRequest) (s : AppState) (route : LeaseDescriptors.CompatibilityRoute) : Prop :=
  req.method = .post ∧ s.config.controlPlane = true ∧ LeaseDescriptors.compatibilityRoute req.path = some route

/-- The request goes on in the name of the credential, unchanged but for its token. -/
structure Forwarded (req : HttpRequest) (identity : AuthenticatedAdapter) (req' : Request) : Prop where
  adapter : req'.adapter = some identity
  method : req'.method = req.method
  path : req'.path = req.path
  query : req'.query = req.query
  jsonContentType : req'.jsonContentType = req.jsonContentType
  body : req'.body = req.body

/-- What comes of the request that went on: its endpoint handles it, a submission once its claim has been checked, or
the layer of the descriptors does. -/
structure Arrives (d : Deployment) (env : Env) (s : AppState) (e : Endpoint) (req' : Request) (o : Outcome) : Prop where
  handled : (∀ route, ¬ Relayed req'.toHttpRequest s route) →
    AssignmentClaims.submissionWorkflowId req'.method req'.path = none → o = e.handle env req' s
  submitted : (∀ route, ¬ Relayed req'.toHttpRequest s route) →
    o = AssignmentClaims.enforce d.claims env (fun req s => e.handle env req s) req' s
  relayed : ∀ route, Relayed req'.toHttpRequest s route → req'.body.length ≤ s.config.maxHttpBodyBytes →
    o = LeaseDescriptors.serveRoute env req'.body s route

section Layers
variable {d : Deployment} {env : Env} {s : AppState} {req' : Request} {r : MethodRouter} {e : Endpoint}

theorem canonicalPath_not_routed : routeOf LeaseRenewal.canonicalPath = none := by decide +kernel

/-- The claim check goes on to the same service as long as that is asked what it was sent itself. -/
theorem enforce_congr {policy : AssignmentClaimPolicy} {next next' : Service} (h : next req' s = next' req' s) :
    AssignmentClaims.enforce policy env next req' s = AssignmentClaims.enforce policy env next' req' s := by
  unfold AssignmentClaims.enforce AssignmentClaims.afterRenewal
  rw [h]

theorem routers_of_authorized (hroute : routeOf req'.path = some r) (he : r.endpoint req'.method = some e)
    (hauthorized : authorized s.config req'.toHttpRequest = true) : routers env req' s = e.handle env req' s := by
  unfold routers
  rw [hroute]
  dsimp only
  rw [if_neg (by simp [hauthorized]), he]

theorem inner_arrives (hroute : routeOf req'.path = some r) (he : r.endpoint req'.method = some e)
    (hauthorized : authorized s.config req'.toHttpRequest = true) : Arrives d env s e req' (inner d env req' s) := by
  have hrouters : routers env req' s = e.handle env req' s := routers_of_authorized hroute he hauthorized
  have hcanonical : req'.path ≠ LeaseRenewal.canonicalPath := by
    intro hpath
    rw [hpath, canonicalPath_not_routed] at hroute
    cases hroute
  have hdirect : (∀ route, ¬ Relayed req'.toHttpRequest s route) →
      inner d env req' s = AssignmentClaims.enforce d.claims env (fun req s => e.handle env req s) req' s := by
    intro hnone
    have hclaims : AssignmentClaims.enforce d.claims env (fun req s => e.handle env req s) req' s =
        AssignmentClaims.enforce d.claims env (routers env) req' s := enforce_congr hrouters.symm
    rw [hclaims]
    by_cases hpost : req'.method = .post
    · refine inner_of_notLease (fun hplane => ?_) hcanonical
      cases hfound : LeaseDescriptors.compatibilityRoute req'.path with
      | none => rfl
      | some route => exact absurd ⟨hpost, hplane, hfound⟩ (hnone route)
    · unfold inner LeaseDescriptors.intercept LeaseRenewal.intercept
      rw [if_pos (by simp [hpost]), if_pos (by simp [hpost])]
  refine ⟨fun hnone hsubmission => ?_, hdirect, ?_⟩
  · rw [hdirect hnone]
    unfold AssignmentClaims.enforce
    rw [hsubmission]
  · rintro route ⟨hpost, hplane, hfound⟩ hlength
    unfold inner LeaseDescriptors.intercept
    rw [if_neg (by simp [hpost, hplane]), hfound]
    dsimp only
    rw [if_neg (Nat.not_lt.mpr hlength)]

end Layers

section Admission
variable {security : WorkflowSecurity} {req : HttpRequest} {r : MethodRouter} {e : Endpoint}
  {identity : AuthenticatedAdapter}

theorem authorizeAdapter_of_meets (hroute : routeOf req.path = some r) (he : r.endpoint req.method = some e)
    (h : Meets security req e identity) :
    security.authorizeAdapter { req with adapter := none } (bearerToken req) = .ok identity := by
  obtain ⟨token, rule, htoken, hidentity, hrule, hscope, hnamed⟩ := h
  rw [← accessRule_of_endpoint hroute he] at hrule
  unfold WorkflowSecurity.authorizeAdapter
  rw [hrule, htoken]
  dsimp only
  rw [Option.bind_some, hidentity]
  dsimp only
  rw [if_neg (by simpa using hscope), if_neg (by simpa using hnamed)]

theorem meets_of_authorizeAdapter (hroute : routeOf req.path = some r) (he : r.endpoint req.method = some e)
    (h : security.authorizeAdapter { req with adapter := none } (bearerToken req) = .ok identity) :
    Meets security req e identity := by
  obtain ⟨token, rule, htoken, hidentity, hrule, hscope, hnamed⟩ := authorizeAdapter_eq_ok h
  rw [accessRule_of_endpoint hroute he] at hrule
  exact ⟨token, rule, htoken, hidentity, hrule, hscope, hnamed⟩

theorem headerText_bearer {bearer : Text} (h : WorkflowSecurity.headerText bearer = some bearer) :
    bearer.all WorkflowSecurity.isHeaderChar = true ∧
      WorkflowSecurity.headerText ("Bearer ".toList ++ bearer) = some ("Bearer ".toList ++ bearer) := by
  unfold WorkflowSecurity.headerText at h ⊢
  split_ifs at h with hvisible
  constructor
  · rw [List.all_eq_true] at hvisible ⊢
    intro c hc
    have hchar := hvisible c hc
    simp only [WorkflowSecurity.isHeaderChar, Bool.or_eq_true, Bool.and_eq_true, decide_eq_true_eq] at hchar ⊢
    exact hchar.imp_left fun h => ⟨h.1, h.2.ne⟩
  · rw [if_pos]
    rw [List.all_append, hvisible, Bool.and_true]
    decide

theorem exchange_forwards (identity : AuthenticatedAdapter)
    (hbearer : ∀ bearer ∈ security.globalBearer, WorkflowSecurity.headerText bearer = some bearer) :
    ∃ req', security.exchange { req with adapter := none } identity = .ok req' ∧ Forwarded req identity req' ∧
      ∀ config : Config, config.apiAuthBearer = security.globalBearer →
        authorized config req'.toHttpRequest = true := by
  unfold WorkflowSecurity.exchange
  cases hset : security.globalBearer with
  | none =>
    refine ⟨_, rfl, ⟨rfl, rfl, rfl, rfl, rfl, rfl⟩, fun config hconfig => ?_⟩
    rw [authorized, hconfig]
    rfl
  | some bearer =>
    obtain ⟨hheader, htext⟩ := headerText_bearer (hbearer bearer hset)
    dsimp only
    rw [if_pos hheader]
    refine ⟨_, rfl, ⟨rfl, rfl, rfl, rfl, rfl, rfl⟩, fun config hconfig => ?_⟩
    have htoken : bearerToken { req with authorization := some ("Bearer ".toList ++ bearer) } = some bearer := by
      rw [bearerToken, Option.bind_some, htext]
      rfl
    rw [authorized, hconfig, Option.all_some, htoken, Option.any_some, decide_eq_true_eq]

theorem serve_of_scoped (d : Deployment) (env : Env) (s : AppState) (hscoped : d.security.scopedMode = true)
    (hpublic : WorkflowSecurity.isPublicPath req.path = false) (hoperator : ¬ FromOperator d.security req)
    (hsendable : Sendable d.security req) :
    serve d env req s = match (do
      let identity ← d.security.authorizeAdapter { req with adapter := none } (bearerToken req)
      d.security.exchange { req with adapter := none } identity) with
    | .error (status, error) => .quiet (.refused status error.toList) s
    | .ok req' => inner d env req' s := by
  have hadmin : (bearerToken req).any d.security.isAdminToken = false := by
    rw [Option.any_eq_false]
    exact fun token htoken => Bool.eq_false_iff.mpr fun h => hoperator ⟨token, htoken, h⟩
  unfold serve WorkflowSecurity.enforce
  dsimp only
  rw [if_neg (Nat.not_lt.mpr hsendable.length), if_neg (by simp [hsendable.unreserved]),
    if_neg (by simp [hscoped, hpublic]), if_neg (by simp [hadmin])]
  rfl

theorem serve_unsendable (d : Deployment) (env : Env) (s : AppState) (h : ¬ Sendable d.security req) :
    ∃ status error, serve d env req s = .quiet (.refused status error) s := by
  unfold serve WorkflowSecurity.enforce
  dsimp only
  by_cases hlength : req.body.length > d.security.maxBodyBytes
  · rw [if_pos hlength]
    exact ⟨_, _, rfl⟩
  · have hreserved : (WorkflowSecurity.isContextWrite req.method req.path &&
        WorkflowSecurity.containsReservedContextKey req.body.document) = true := by
      by_contra hunreserved
      exact h ⟨Nat.not_lt.mp hlength, Bool.eq_false_iff.mpr hunreserved⟩
    rw [if_neg hlength, if_pos hreserved]
    exact ⟨_, _, rfl⟩

end Admission

/-- In scoped mode a request of an agent comes to its endpoint, in the name of its credential, exactly if it can be sent
on and meets the rule of that endpoint, and is refused otherwise. -/
theorem endpoint_admission (d : Deployment) (env : Env) (s : AppState) {req : HttpRequest} {r : MethodRouter}
    {e : Endpoint} (hconfig : s.config = d.config) (hscoped : d.security.scopedMode = true)
    (hpublic : WorkflowSecurity.isPublicPath req.path = false) (hoperator : ¬ FromOperator d.security req)
    (hbearer : ∀ bearer ∈ d.security.globalBearer, WorkflowSecurity.headerText bearer = some bearer)
    (hroute : routeOf req.path = some r) (he : r.endpoint req.method = some e) :
    (Sendable d.security req → ∀ identity, Meets d.security req e identity →
      ∃ req', Forwarded req identity req' ∧ Arrives d env s e req' (serve d env req s)) ∧
    ((¬ Sendable d.security req ∨ ∀ identity, ¬ Meets d.security req e identity) →
      ∃ status error, serve d env req s = .quiet (.refused status error) s) := by
  constructor
  · intro hsendable identity hmeets
    obtain ⟨req', hexchanged, hforwarded, hauthorized⟩ := @exchange_forwards d.security req identity hbearer
    refine ⟨req', hforwarded, ?_⟩
    have hserve : serve d env req s = inner d env req' s := by
      rw [serve_of_scoped d env s hscoped hpublic hoperator hsendable, authorizeAdapter_of_meets hroute he hmeets]
      have hresult : (do
          let identity ← Except.ok identity
          d.security.exchange { req with adapter := none } identity) = .ok req' := hexchanged
      rw [hresult]
    rw [← hforwarded.path] at hroute
    rw [← hforwarded.method] at he
    rw [hserve]
    exact inner_arrives hroute he (hauthorized s.config (by rw [hconfig, d.bearer]))
  · intro hrefused
    by_cases hsendable : Sendable d.security req
    · have hnone := hrefused.resolve_left fun h => h hsendable
      rw [serve_of_scoped d env s hscoped hpublic hoperator hsendable]
      cases hresult : d.security.authorizeAdapter { req with adapter := none } (bearerToken req) with
      | error refusal => exact ⟨_, _, rfl⟩
      | ok identity => exact absurd (meets_of_authorizeAdapter hroute he hresult) (hnone identity)
    · exact serve_unsendable d env s hsendable

/-- The deployment of `ada`, with a bearer for the operator. -/
def adaGuarded : Deployment where
  config := { Config.inMemory with apiAuthBearer := some "operator".toList }
  security := { adaDeployment.security with
    globalBearer := some "operator".toList
    distinct := ⟨List.nodup_singleton _, by decide⟩ }
  claims := adaDeployment.claims
  bearer := rfl
  bodyLimit := rfl
  claimsBacked := adaDeployment.claimsBacked

def adaRegistration : HttpRequest where
  method := .post
  path := "/agents/register".toList
  query := []
  authorization := some "Bearer secret".toList
  jsonContentType := true
  body := { length := 19, json := some (.obj [("agent_key".toList, .str "ada".toList)]) }

/-- The registration comes to its endpoint, which lies behind the bearer of the operator. -/
theorem endpoint_admission_ada : ∃ req',
    Forwarded adaRegistration ⟨"ada-1".toList, "ada".toList, .ofList ["agent:register".toList]⟩ req' ∧
      serve adaGuarded adaEnv adaRegistration (.new adaGuarded.config) =
        Endpoint.registerAgent.handle adaEnv req' (.new adaGuarded.config) := by
  have hoperator : ¬ FromOperator adaGuarded.security adaRegistration := by
    rintro ⟨token, htoken, hadmin⟩
    cases htoken
    revert hadmin
    decide
  have hmeets : Meets adaGuarded.security adaRegistration .registerAgent
      ⟨"ada-1".toList, "ada".toList, .ofList ["agent:register".toList]⟩ :=
    ⟨"secret".toList, ⟨"agent:register".toList, some "agent_key".toList⟩, by decide, by decide,
      rfl, by decide, by decide⟩
  have hbearer : ∀ bearer ∈ adaGuarded.security.globalBearer, WorkflowSecurity.headerText bearer = some bearer := by
    rintro _ ⟨⟩
    decide
  obtain ⟨r, hroute, he⟩ : ∃ r, routeOf adaRegistration.path = some r ∧ r.endpoint .post = some .registerAgent :=
    ⟨_, rfl, rfl⟩
  obtain ⟨req', hforwarded, harrives⟩ :=
    (endpoint_admission adaGuarded adaEnv (.new adaGuarded.config) rfl rfl rfl hoperator
    hbearer hroute he).1 ⟨by decide, rfl⟩ _ hmeets
  refine ⟨req', hforwarded, harrives.handled ?_ ?_⟩
  · rintro route ⟨-, hplane, -⟩
    cases hplane
  · rw [hforwarded.method, hforwarded.path]
    decide +kernel

end AgentBridge.Http
