import AgentBridge.Http.Exposure

/-! Authentication of the assembled server: in which configurations, and on which
methods and paths, an anonymous request is without effect. -/

namespace AgentBridge.Http

section Guarded
variable {d : Deployment} {env : Env} {req : HttpRequest} {s : AppState}

theorem routers_silent {r : Request} (hset : d.config.apiAuthBearer.isSome = true) (hstate : s.config = d.config)
    (hanon : Anonymous d r.toHttpRequest) (hadmission : r.method = .post → opensAdmission r.path = false) :
    (routers env r s).Silent s := by
  have hunauthorized : authorized s.config r.toHttpRequest = false := by
    obtain ⟨bearer, hbearer⟩ := Option.isSome_iff_exists.mp hset
    have hne : bearerToken r.toHttpRequest ≠ some bearer := hanon.notOperator bearer hbearer
    rw [hstate, authorized, hbearer, Option.all_some]
    cases htoken : bearerToken r.toHttpRequest with
    | none => rfl
    | some token =>
      rw [Option.any_some, decide_eq_false_iff_not]
      intro heq
      exact hne (heq ▸ htoken)
  unfold routers
  cases hroute : routeOf r.path with
  | none => exact silent_quiet _ _
  | some methods =>
    dsimp only
    by_cases hlayer : methods.authenticated = true
    · rw [hlayer, hunauthorized]
      exact silent_quiet _ _
    · rw [Bool.not_eq_true] at hlayer
      rw [hlayer, Bool.false_and]
      cases hendpoint : methods.endpoint r.method with
      | none => exact silent_quiet _ _
      | some e =>
        apply handle_silent_of_open
        · rw [authenticated_of_endpoint hroute hendpoint, hlayer]
        · intro hinbox
          obtain ⟨hpost, hmethods⟩ := post_of_endpoint hroute hendpoint (.inr hinbox)
          have hpath : r.path = "/claude".toList := path_of_claudeInbox hroute (hinbox ▸ hmethods)
          rw [hstate]
          exact inboxAuthorized_of_anonymous hset hanon.notOperator (hanon.notInbox hpost hpath)
        · intro id hid
          obtain ⟨hpost, hmethods⟩ := post_of_endpoint hroute hendpoint (.inl (by rw [hid]; simp))
          have hopens : opensAdmission r.path = false := hadmission hpost
          rw [opensAdmission, hroute, Option.bind_some, hmethods, Option.bind_some, hid, Option.any_some] at hopens
          exact Option.not_isSome_iff_eq_none.mp (by simp [hopens])

theorem serve_silent (hset : d.config.apiAuthBearer.isSome = true) (hstate : s.config = d.config)
    (hpublic : WorkflowSecurity.isPublicPath req.path = false) (hanon : Anonymous d req)
    (hguarded : d.security.scopedMode = true ∨
      unguarded d.config.controlPlane req.method req.path = false) :
    (serve d env req s).Silent s := by
  unfold serve
  -- scoped mode stops it at the outermost layer; else the layers let it pass, and the router's own stops it
  cases hscoped : d.security.scopedMode with
  | true =>
    apply enforce_silent_of_scoped hscoped hpublic
    · intro token htoken
      rw [WorkflowSecurity.isAdminToken, d.bearer]
      cases hbearer : d.config.apiAuthBearer with
      | none => rfl
      | some bearer =>
        rw [Option.any_some, decide_eq_false_iff_not]
        intro heq
        exact hanon.notOperator bearer hbearer (heq ▸ htoken)
    · exact hanon.notAdapter hscoped
  | false =>
    have hclosed : unguarded d.config.controlPlane req.method req.path = false :=
      hguarded.resolve_left (by simp [hscoped])
    rw [unguarded, Bool.and_eq_false_iff, decide_eq_false_iff_not, Bool.or_eq_false_iff,
      Bool.and_eq_false_iff, Bool.or_eq_false_iff, Bool.or_eq_false_iff, decide_eq_false_iff_not] at hclosed
    apply enforce_of_open hscoped
    apply descriptors_silent
    · intro hpost hplane
      rw [hstate] at hplane
      rcases hclosed with hne | ⟨-, hne | ⟨⟨hroute, -⟩, -⟩⟩
      · exact absurd hpost hne
      · exact absurd hplane (by simp [hne])
      · exact Option.not_isSome_iff_eq_none.mp (by simp [hroute])
    · apply renewal_silent
      · intro hpost hplane
        rw [hstate] at hplane
        by_contra hrenewal
        rcases hclosed with hne | ⟨-, hne | ⟨⟨hroute, hcanonical⟩, -⟩⟩
        · exact hne hpost
        · simp [hne] at hplane
        · rcases compatibilityRoute_of_isRenewalPath (by simpa using hrenewal) with h | h
          · exact hcanonical h
          · exact absurd h (by simp [hroute])
      · apply claims_silent
        · intro hplane
          rw [hstate] at hplane
          rcases hclosed with hne | ⟨-, hne | ⟨-, hsubmission⟩⟩
          · unfold AssignmentClaims.submissionWorkflowId
            rw [if_pos hne]
          · exact absurd hplane (by simp [hne])
          · exact Option.not_isSome_iff_eq_none.mp (by simp [hsubmission])
        · apply routers_silent hset hstate
          · exact ⟨hanon.notOperator, hanon.notAdapter, hanon.notInbox⟩
          · intro hpost
            rcases hclosed with hne | ⟨hadmission, -⟩
            · exact absurd hpost hne
            · exact hadmission

end Guarded

/-- No anonymous request of this method to this path has an effect, in any state of a server
with a bearer. -/
def Guarded (scopedMode controlPlane : Bool) (method : Method) (path : Text) : Prop :=
  ∀ (d : Deployment) (env : Env) (req : HttpRequest) (s : AppState),
    d.config.apiAuthBearer.isSome = true → d.security.scopedMode = scopedMode →
    d.config.controlPlane = controlPlane → s.config = d.config → req.method = method → req.path = path →
    WorkflowSecurity.isPublicPath path = false → Anonymous d req → (serve d env req s).Silent s

theorem unguarded_of_public {controlPlane : Bool} {method : Method} {path : Text}
    (h : WorkflowSecurity.isPublicPath path = true) : unguarded controlPlane method path = false := by
  have hclosed : ∀ p ∈ WorkflowSecurity.publicPaths,
      (opensAdmission p || (LeaseDescriptors.compatibilityRoute p).isSome || p = LeaseRenewal.canonicalPath ||
        (AssignmentClaims.submissionWorkflowId .post p).isSome) = false := by decide +kernel
  have hpath := hclosed path (List.contains_iff_mem.mp h)
  rw [Bool.or_eq_false_iff, Bool.or_eq_false_iff, Bool.or_eq_false_iff] at hpath
  obtain ⟨⟨⟨hopens, hroute⟩, hcanonical⟩, hsubmission⟩ := hpath
  rw [unguarded, hopens, hroute, hcanonical]
  by_cases hpost : method = .post
  · rw [hpost, hsubmission]
    simp
  · simp [hpost]

/-- Anonymous requests are without effect in scoped mode, and outside of it exactly where no
lease middleware, claim middleware or admission route acts before a token is asked for. -/
theorem guarded_iff (scopedMode controlPlane : Bool) (method : Method) (path : Text) :
    Guarded scopedMode controlPlane method path ↔
      scopedMode = true ∨ unguarded controlPlane method path = false := by
  constructor
  · intro hguarded
    by_contra hopen
    rw [not_or, Bool.not_eq_true, Bool.not_eq_false] at hopen
    obtain ⟨hscoped, hunguarded⟩ := hopen
    obtain ⟨rfl, d, env, req, s, hset, hmode, hplane, hconfig, hpost, hpath, hanon, heffect⟩ :=
      exposed_of_unguarded hunguarded
    apply heffect
    apply hguarded d env req s hset (hmode.trans hscoped.symm) hplane hconfig hpost hpath ?_ hanon
    by_contra hpublic
    rw [unguarded_of_public (by simpa using hpublic)] at hunguarded
    cases hunguarded
  · intro h d env req s hset hmode hplane hconfig hmethod hpath hpublic hanon
    subst hmode hplane hmethod hpath
    exact serve_silent hset hconfig hpublic hanon h

def served (d : Deployment) (requests : List (Env × HttpRequest)) : AppState :=
  requests.foldl (fun s p => (serve d p.1 p.2 s).state) (AppState.new d.config)

def operatorPost (path : String) (fields : List (Text × Json)) : HttpRequest :=
  { anonymousPost path.toList fields with authorization := some "Bearer operator".toList }

def operatorRun : List (Env × HttpRequest) :=
  [(offlineEnv, operatorPost "/agents/register" [("agent_key".toList, .str "ada".toList)]),
    (offlineEnv, operatorPost "/workflows" [("title".toList, .str "title".toList),
      ("prompt".toList, .str "prompt".toList), ("created_by".toList, .str "ada".toList),
      ("mode".toList, .str "single".toList)])]

/-- Without a token anybody admits the operator's workflow. -/
theorem not_anonymous_silent : ¬ ∀ (d : Deployment) (before : List (Env × HttpRequest)) (env : Env)
    (req : HttpRequest), d.config.apiAuthBearer.isSome = true →
    WorkflowSecurity.isPublicPath req.path = false → Anonymous d req →
    (serve d env req (served d before)).Silent (served d before) := by
  intro h
  have hsilent := h (bearerDeployment false 2097152) operatorRun offlineEnv
    (anonymousPost "/workflows/id0/admission".toList admitFields) rfl (by decide) (anonymous_anonymousPost _)
  have hbefore : (PolicyAdmission.loadAdmission (served (bearerDeployment false 2097152) operatorRun)
      "id0".toList).toOption.map Option.isSome = some false := by decide +kernel
  have hafter : (PolicyAdmission.loadAdmission (serve (bearerDeployment false 2097152) offlineEnv
      (anonymousPost "/workflows/id0/admission".toList admitFields)
      (served (bearerDeployment false 2097152) operatorRun)).state "id0".toList).toOption.map
      Option.isSome = some true := by decide +kernel
  rw [hsilent.1, hbefore] at hafter
  cases hafter

end AgentBridge.Http
