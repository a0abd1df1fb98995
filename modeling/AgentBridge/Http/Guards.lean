import AgentBridge.Http.Router

/-! What each layer of the server does with a request that presents no accepted
token, and which requests reach an effect without one. -/

namespace AgentBridge.Http

/-- The reply left the state alone and called nobody. -/
def Outcome.Silent (s : AppState) (o : Outcome) : Prop := o.state = s ∧ o.calls = []

/-- The request presents neither the global bearer nor, in scoped mode, a scoped
token; at the inbox it does not present the inbox token either. -/
structure Anonymous (d : Deployment) (req : HttpRequest) : Prop where
  notOperator : ∀ bearer, d.config.apiAuthBearer = some bearer → bearerToken req ≠ some bearer
  notAdapter : d.security.scopedMode = true → ∀ token, bearerToken req = some token →
    d.security.authenticate token = none
  notInbox : req.method = .post → req.path = "/claude".toList →
    ∀ token, d.config.inboxToken = some token → bearerToken req ≠ some token

/-- The workflow id of an endpoint that writes an admission, as it was sent. -/
def Endpoint.admissionWrite : Endpoint → Option Text
  | .admitWorkflow id | .reportUsage id | .completeAdmission id | .cancelAdmission id => some id
  | _ => none

/-- A path that writes an admission when posted to, its workflow id decodable. -/
def opensAdmission (path : Text) : Bool :=
  (((routeOf path).bind MethodRouter.post).bind Endpoint.admissionWrite).any
    fun id => (Url.percentDecode id).isSome

/-- Outside scoped mode these requests are acted on before a token is asked for: the
lease and claim middlewares run outside the routers' auth layers, and the admission
router has no such layer. -/
def unguarded (controlPlane : Bool) (method : Method) (path : Text) : Bool :=
  method = .post && (opensAdmission path || controlPlane &&
    ((LeaseDescriptors.compatibilityRoute path).isSome || path = LeaseRenewal.canonicalPath ||
      (AssignmentClaims.submissionWorkflowId method path).isSome))

section Layers
variable {d : Deployment} {env : Env} {req : Request} {s : AppState} {next : Service}

theorem silent_quiet (reply : Reply) (s : AppState) : (Outcome.quiet reply s).Silent s := ⟨rfl, rfl⟩

theorem enforce_silent_of_scoped {security : WorkflowSecurity} (hscoped : security.scopedMode = true)
    (hpublic : WorkflowSecurity.isPublicPath req.path = false)
    (hadmin : ∀ token, bearerToken req.toHttpRequest = some token → security.isAdminToken token = false)
    (hauth : ∀ token, bearerToken req.toHttpRequest = some token → security.authenticate token = none) :
    (security.enforce next req s).Silent s := by
  have hnone : (bearerToken req.toHttpRequest).bind security.authenticate = none := by
    rw [Option.bind_eq_none_iff]
    intro token htoken
    exact hauth token htoken
  have hnoadmin : (bearerToken req.toHttpRequest).any security.isAdminToken = false := by
    cases htoken : bearerToken req.toHttpRequest with
    | none => rfl
    | some token => exact hadmin token htoken
  have hrefused : ∃ e, security.authorizeAdapter req (bearerToken req.toHttpRequest) = .error e := by
    unfold WorkflowSecurity.authorizeAdapter
    cases WorkflowSecurity.accessRule req.method req.path with
    | none => exact ⟨_, rfl⟩
    | some rule =>
      rw [hnone]
      exact ⟨_, rfl⟩
  obtain ⟨e, he⟩ := hrefused
  unfold WorkflowSecurity.enforce
  dsimp only
  split_ifs with hlength hreserved hpass hoperator
  · exact silent_quiet _ _
  · exact silent_quiet _ _
  · rw [hscoped, hpublic] at hpass
    cases hpass
  · rw [hnoadmin] at hoperator
    cases hoperator
  · rw [he]
    exact silent_quiet _ _

theorem enforce_of_open {security : WorkflowSecurity} (hopen : security.scopedMode = false)
    (hnext : (next req s).Silent s) : (security.enforce next req s).Silent s := by
  unfold WorkflowSecurity.enforce
  dsimp only
  simp only [hopen, Bool.not_false, Bool.true_or, if_true]
  split_ifs
  · exact silent_quiet _ _
  · exact silent_quiet _ _
  · exact hnext

theorem descriptors_silent
    (hroute : req.method = .post → s.config.controlPlane = true →
      LeaseDescriptors.compatibilityRoute req.path = none)
    (hnext : (next req s).Silent s) : (LeaseDescriptors.intercept env next req s).Silent s := by
  unfold LeaseDescriptors.intercept
  by_cases h : (decide (req.method ≠ .post) || !s.config.controlPlane) = true
  · rw [if_pos h]
    exact hnext
  · have hpost : req.method = .post := by
      by_contra hne
      exact h (by simp [hne])
    have hplane : s.config.controlPlane = true := by
      by_contra hne
      exact h (by simp [hne])
    rw [if_neg h, hroute hpost hplane]
    exact hnext

theorem compatibilityRoute_of_isRenewalPath {path : Text} (h : LeaseRenewal.isRenewalPath path = true) :
    path = LeaseRenewal.canonicalPath ∨ (LeaseDescriptors.compatibilityRoute path).isSome = true := by
  unfold LeaseRenewal.isRenewalPath at h
  rcases Bool.or_eq_true_iff.mp h with h | h
  · exact .inl (by simpa using h)
  · right
    unfold LeaseDescriptors.compatibilityRoute
    split_ifs with hroot
    · rfl
    · split at h
      next root leaseId verb heq =>
        simp only [Bool.and_eq_true, decide_eq_true_eq] at h
        obtain ⟨⟨hfirst, hid⟩, hverb⟩ := h
        simp [hfirst, hid, hverb]
      next => cases h

theorem renewal_silent
    (hroute : req.method = .post → s.config.controlPlane = true →
      LeaseRenewal.isRenewalPath req.path = false)
    (hnext : (next req s).Silent s) : (LeaseRenewal.intercept env next req s).Silent s := by
  unfold LeaseRenewal.intercept
  split_ifs with h hplane hcanonical
  · exact hnext
  · exact silent_quiet _ _
  · exact hnext
  · have hpost : req.method = .post := by
      by_contra hne
      exact h (by simp [hne])
    have hfalse : LeaseRenewal.isRenewalPath req.path = false := hroute hpost (by simpa using hplane)
    exact absurd (by simp [hfalse]) h

theorem claims_silent {policy : AssignmentClaimPolicy}
    (hroute : s.config.controlPlane = true →
      AssignmentClaims.submissionWorkflowId req.method req.path = none)
    (hnext : (next req s).Silent s) : (AssignmentClaims.enforce policy env next req s).Silent s := by
  unfold AssignmentClaims.enforce
  cases hid : AssignmentClaims.submissionWorkflowId req.method req.path with
  | none => exact hnext
  | some workflowId =>
    have hplane : s.config.controlPlane = false := by
      by_contra hne
      rw [hroute (by simpa using hne)] at hid
      cases hid
    have hchecks (agentKey : Text) (claimValue : Json) :
        ∃ reply, AssignmentClaims.claimChecks policy s workflowId agentKey claimValue = .error reply := by
      unfold AssignmentClaims.claimChecks
      cases AssignmentClaim.read claimValue with
      | none => exact ⟨_, rfl⟩
      | some claim =>
        simp only [hplane]
        exact ⟨_, rfl⟩
    by_cases hlength : req.body.length > s.config.maxHttpBodyBytes
    · simp only [if_pos hlength]
      exact silent_quiet _ _
    · simp only [if_neg hlength]
      cases req.body.document.bind SubmissionEnvelope.read with
      | none => exact silent_quiet _ _
      | some submission =>
        dsimp only
        cases submission.metadata.get "assignment_claim".toList with
        | none =>
          dsimp only
          split_ifs
          · exact silent_quiet _ _
          · exact hnext
        | some claimValue =>
          obtain ⟨reply, hreply⟩ := hchecks submission.agentKey claimValue
          dsimp only
          rw [hreply]
          exact silent_quiet _ _

end Layers

section Capture
variable {pattern : List Segment} {parts : List Text} {id : Text} {text : String}

theorem capture_lit_eq_some : capture (.lit text :: pattern) parts = some id ↔
    ∃ rest, parts = text.toList :: rest ∧ capture pattern rest = some id := by
  constructor
  · intro h
    match parts, h with
    | part :: rest, h =>
      rw [capture] at h
      by_cases hpart : part = text.toList
      · rw [if_pos hpart] at h
        exact ⟨rest, by rw [hpart], h⟩
      · rw [if_neg hpart] at h
        cases h
  · rintro ⟨rest, rfl, h⟩
    rw [capture, if_pos rfl, h]

theorem capture_param_eq_some : capture (.param :: pattern) parts = some id ↔
    ∃ rest, parts = id :: rest ∧ id ≠ [] ∧ (capture pattern rest).isSome = true := by
  constructor
  · intro h
    match parts, h with
    | part :: rest, h =>
      rw [capture] at h
      by_cases hpart : part = []
      · rw [if_pos hpart] at h
        cases h
      · rw [if_neg hpart] at h
        obtain ⟨inner, hinner, rfl⟩ := Option.map_eq_some_iff.mp h
        exact ⟨rest, rfl, hpart, by rw [hinner]; rfl⟩
  · rintro ⟨rest, rfl, hne, h⟩
    obtain ⟨inner, hinner⟩ := Option.isSome_iff_exists.mp h
    rw [capture, if_neg hne, hinner]
    rfl

theorem capture_nil_eq_some : capture [] parts = some id ↔ parts = [] ∧ id = [] := by
  cases parts with
  | nil => simp [capture, eq_comm]
  | cons part rest => simp [capture]

theorem ne_nil_of_capture (h : capture pattern parts = some id) (hlit : .lit "" ∉ pattern) :
    ∀ part ∈ parts, part ≠ [] := by
  induction pattern generalizing parts id with
  | nil =>
    rw [(capture_nil_eq_some.mp h).1]
    exact nofun
  | cons segment pattern ih =>
    have htail : .lit "" ∉ pattern := fun hmem => hlit (List.mem_cons_of_mem _ hmem)
    cases segment with
    | lit text =>
      obtain ⟨rest, rfl, hrest⟩ := capture_lit_eq_some.mp h
      rw [List.forall_mem_cons]
      refine ⟨?_, ih hrest htail⟩
      intro hempty
      apply hlit
      rw [String.toList_eq_nil_iff.mp hempty]
      exact List.mem_cons_self
    | param =>
      obtain ⟨rest, rfl, hne, hrest⟩ := capture_param_eq_some.mp h
      obtain ⟨inner, hinner⟩ := Option.isSome_iff_exists.mp hrest
      exact List.forall_mem_cons.mpr ⟨hne, ih hinner htail⟩

end Capture

section Routes
variable {path : Text} {r : MethodRouter} {m : Method} {e : Endpoint}

/-- What one table entry says about its endpoints: they agree on the auth layer, only
`POST` writes an admission or reaches the inbox. -/
def MethodRouter.regular (r : MethodRouter) : Bool :=
  (r.get.toList ++ r.post.toList ++ r.put.toList).all (fun e => e.authenticated = r.authenticated) &&
    (r.get.toList ++ r.put.toList).all fun e => e.admissionWrite = none && e ≠ .claudeInbox

theorem routes_regular : ∀ entry ∈ routes, ∀ id, (entry.methods id).regular = true := by
  simp only [routes, List.forall_mem_cons]
  and_intros
  all_goals
    intro _
    first | rfl | exact fun h => absurd h List.not_mem_nil

theorem routeOf_eq_some (h : routeOf path = some r) : ∃ entry ∈ routes, ∃ parts id,
    Url.segments path = some parts ∧ capture entry.pattern parts = some id ∧ r = entry.methods id := by
  obtain ⟨parts, hparts, hroute⟩ := Option.bind_eq_some_iff.mp h
  obtain ⟨entry, hentry, hmatch⟩ := List.exists_of_findSome?_eq_some hroute
  obtain ⟨id, hid, hr⟩ := Option.map_eq_some_iff.mp hmatch
  exact ⟨entry, hentry, parts, id, hparts, hid, hr.symm⟩

theorem regular_of_routeOf (h : routeOf path = some r) : r.regular = true := by
  obtain ⟨entry, hentry, parts, id, -, -, rfl⟩ := routeOf_eq_some h
  exact routes_regular entry hentry id

theorem mem_of_endpoint (he : r.endpoint m = some e) : e ∈ r.get.toList ++ r.post.toList ++ r.put.toList := by
  cases m with
  | get | head => exact List.mem_append_left _ (List.mem_append_left _ (Option.mem_toList.mpr he))
  | post => exact List.mem_append_left _ (List.mem_append_right _ (Option.mem_toList.mpr he))
  | put => exact List.mem_append_right _ (Option.mem_toList.mpr he)
  | other => cases he

theorem authenticated_of_endpoint (h : routeOf path = some r) (he : r.endpoint m = some e) :
    e.authenticated = r.authenticated := by
  have hregular := (Bool.and_eq_true_iff.mp (regular_of_routeOf h)).1
  simpa using List.all_eq_true.mp hregular e (mem_of_endpoint he)

theorem post_of_endpoint (h : routeOf path = some r) (he : r.endpoint m = some e)
    (hwrite : e.admissionWrite ≠ none ∨ e = .claudeInbox) : m = .post ∧ r.post = some e := by
  have hregular := (Bool.and_eq_true_iff.mp (regular_of_routeOf h)).2
  have hother (hmem : e ∈ r.get.toList ++ r.put.toList) : False := by
    have he := List.all_eq_true.mp hregular e hmem
    simp only [Bool.and_eq_true, decide_eq_true_eq] at he
    rcases hwrite with hw | hw
    · exact hw he.1
    · exact he.2 hw
  cases m with
  | post => exact ⟨rfl, he⟩
  | get | head => exact (hother (List.mem_append_left _ (Option.mem_toList.mpr he))).elim
  | put => exact (hother (List.mem_append_right _ (Option.mem_toList.mpr he))).elim
  | other => cases he

theorem pattern_of_claudeInbox : ∀ entry ∈ routes, ∀ id,
    (entry.methods id).post = some .claudeInbox → entry.pattern = [.lit "claude"] := by
  simp only [routes, List.forall_mem_cons]
  and_intros
  all_goals
    intro _ h
    first | trivial | cases h

theorem path_of_claudeInbox (h : routeOf path = some r) (hpost : r.post = some .claudeInbox) :
    path = "/claude".toList := by
  obtain ⟨entry, hentry, parts, id, hparts, hcapture, rfl⟩ := routeOf_eq_some h
  rw [pattern_of_claudeInbox entry hentry id hpost] at hcapture
  obtain ⟨rest, rfl, hrest⟩ := capture_lit_eq_some.mp hcapture
  obtain ⟨rfl, -⟩ := capture_nil_eq_some.mp hrest
  rw [Url.eq_of_segments hparts]
  rfl

theorem splitOn_of_capture {parts : List Text} {pattern : List Segment} {id : Text}
    (hparts : Url.segments path = some parts) (h : capture pattern parts = some id)
    (hlit : .lit "" ∉ pattern) : (Text.trimMatches '/' path).splitOn '/' = parts := by
  have hne := ne_nil_of_capture h hlit
  apply Url.splitOn_trimMatches_of_segments hparts
  · intro hhead
    exact hne [] (List.mem_of_head? hhead) rfl
  · intro hlast
    exact hne [] (List.mem_of_getLast? hlast) rfl

theorem pattern_of_admissionWrite : ∀ entry ∈ routes, ∀ id e, (entry.methods id).post = some e →
    e.admissionWrite ≠ none →
    ∃ rest, entry.pattern = .lit "workflows" :: .param :: .lit "admission" :: rest ∧ .lit "" ∉ rest := by
  simp only [routes, List.forall_mem_cons]
  and_intros
  all_goals first
    | exact fun _ h => absurd h List.not_mem_nil
    | exact fun _ _ _ _ => ⟨_, rfl, by decide⟩
    | (intro _ e h hwrite
       cases h <;> exact absurd rfl hwrite)

theorem splitOn_of_opensAdmission (h : opensAdmission path = true) : ∃ id rest,
    (Text.trimMatches '/' path).splitOn '/' = "workflows".toList :: id :: "admission".toList :: rest := by
  obtain ⟨id, hid, -⟩ := (Option.any_eq_true _ _).mp h
  obtain ⟨e, he, hwrite⟩ := Option.bind_eq_some_iff.mp hid
  obtain ⟨r, hroute, hpost⟩ := Option.bind_eq_some_iff.mp he
  obtain ⟨entry, hentry, parts, captured, hparts, hcapture, rfl⟩ := routeOf_eq_some hroute
  obtain ⟨rest, hpattern, hlit⟩ :=
    pattern_of_admissionWrite entry hentry captured e hpost (by simp [hwrite])
  rw [hpattern] at hcapture
  rw [splitOn_of_capture hparts hcapture (by simp [hlit])]
  obtain ⟨parts', rfl, hcapture⟩ := capture_lit_eq_some.mp hcapture
  obtain ⟨parts'', rfl, -, hcapture⟩ := capture_param_eq_some.mp hcapture
  obtain ⟨x, hx⟩ := Option.isSome_iff_exists.mp hcapture
  obtain ⟨more, rfl, -⟩ := capture_lit_eq_some.mp hx
  exact ⟨captured, more, rfl⟩

theorem compatibilityRoute_of_opensAdmission (h : opensAdmission path = true) :
    LeaseDescriptors.compatibilityRoute path = none := by
  obtain ⟨id, rest, hsplit⟩ := splitOn_of_opensAdmission h
  unfold LeaseDescriptors.compatibilityRoute
  rw [hsplit]
  have hroot : path ≠ "/file-leases".toList := by
    rintro rfl
    cases hsplit
  rw [if_neg hroot]
  cases rest <;> rfl

theorem submissionWorkflowId_of_opensAdmission (h : opensAdmission path = true) (m : Method) :
    AssignmentClaims.submissionWorkflowId m path = none := by
  obtain ⟨id, rest, hsplit⟩ := splitOn_of_opensAdmission h
  unfold AssignmentClaims.submissionWorkflowId
  rw [hsplit]
  split_ifs
  · rfl
  · cases rest <;> rfl

end Routes

section Inner
variable {d : Deployment} {env : Env} {req : Request} {s : AppState}

/-- The layers below the security layer. -/
def inner (d : Deployment) (env : Env) : Service :=
  LeaseDescriptors.intercept env
    (LeaseRenewal.intercept env (AssignmentClaims.enforce d.claims env (routers env)))

theorem inner_of_notLease (hroute : s.config.controlPlane = true → LeaseDescriptors.compatibilityRoute req.path = none)
    (hcanonical : req.path ≠ LeaseRenewal.canonicalPath) :
    inner d env req s = AssignmentClaims.enforce d.claims env (routers env) req s := by
  have hrenewal : LeaseRenewal.intercept env (AssignmentClaims.enforce d.claims env (routers env)) req s =
      AssignmentClaims.enforce d.claims env (routers env) req s := by
    unfold LeaseRenewal.intercept
    by_cases hpass : (decide (req.method ≠ .post) || !LeaseRenewal.isRenewalPath req.path) = true
    · rw [if_pos hpass]
    · rw [if_neg hpass, if_neg hcanonical]
      have hpath : LeaseRenewal.isRenewalPath req.path = true := by
        by_contra hne
        exact hpass (by simp [hne])
      have hplane : s.config.controlPlane = false := by
        by_contra hne
        have hnone := hroute (by simpa using hne)
        rcases compatibilityRoute_of_isRenewalPath hpath with h | h
        · exact hcanonical h
        · rw [hnone] at h
          cases h
      rw [if_pos (by simp [hplane])]
  unfold inner LeaseDescriptors.intercept
  by_cases hpass : (decide (req.method ≠ .post) || !s.config.controlPlane) = true
  · rw [if_pos hpass, hrenewal]
  · have hplane : s.config.controlPlane = true := by
      by_contra hne
      exact hpass (by simp [hne])
    rw [if_neg hpass, hroute hplane]
    exact hrenewal

theorem enforce_cases (security : WorkflowSecurity) (next : Service) (req : Request) (s : AppState) :
    (∃ reply, security.enforce next req s = .quiet reply s) ∨
    ∃ req', req'.method = req.method ∧ req'.path = req.path ∧ req'.body = req.body ∧
      security.enforce next req s = next req' s := by
  have hexchange {identity : AuthenticatedAdapter} {req' : Request}
      (h : security.exchange req identity = .ok req') :
      req'.method = req.method ∧ req'.path = req.path ∧ req'.body = req.body := by
    unfold WorkflowSecurity.exchange at h
    cases hbearer : security.globalBearer with
    | none =>
      rw [hbearer] at h
      cases h
      exact ⟨rfl, rfl, rfl⟩
    | some bearer =>
      rw [hbearer] at h
      dsimp only at h
      by_cases hvalid : (bearer.all WorkflowSecurity.isHeaderChar) = true
      · rw [if_pos hvalid] at h
        cases h
        exact ⟨rfl, rfl, rfl⟩
      · rw [if_neg hvalid] at h
        cases h
  unfold WorkflowSecurity.enforce
  dsimp only
  split_ifs with hlength hreserved hpass hadmin
  · exact .inl ⟨_, rfl⟩
  · exact .inl ⟨_, rfl⟩
  · exact .inr ⟨req, rfl, rfl, rfl, rfl⟩
  · exact .inr ⟨req, rfl, rfl, rfl, rfl⟩
  · cases hresult : (do
      let identity ← security.authorizeAdapter req (bearerToken req.toHttpRequest)
      security.exchange req identity) with
    | error e => exact .inl ⟨_, rfl⟩
    | ok req' =>
      obtain ⟨identity, -, hreq⟩ := Except.bind_eq_ok.mp hresult
      obtain ⟨hmethod, hpath, hbody⟩ := hexchange hreq
      exact .inr ⟨req', hmethod, hpath, hbody, rfl⟩

end Inner

section Open
variable {d : Deployment} {env : Env} {req : Request} {s : AppState} {e : Endpoint}

theorem inboxAuthorized_of_anonymous {config : Config} {req : HttpRequest}
    (hset : config.apiAuthBearer.isSome = true)
    (hbearer : ∀ bearer, config.apiAuthBearer = some bearer → bearerToken req ≠ some bearer)
    (hinbox : ∀ token, config.inboxToken = some token → bearerToken req ≠ some token) :
    inboxAuthorized config req = false := by
  have hpresented (token : Text) (htoken : token ∈ acceptedTokens config) : bearerToken req ≠ some token := by
    rcases List.mem_append.mp htoken with htoken | htoken
    · exact hinbox token (by simpa using htoken)
    · exact hbearer token (by simpa using htoken)
  have hsome : (acceptedTokens config).isEmpty = false := by
    obtain ⟨bearer, hb⟩ := Option.isSome_iff_exists.mp hset
    simp [acceptedTokens, hb]
  rw [inboxAuthorized, hsome, Bool.false_or]
  cases hvalue : req.authorization.bind WorkflowSecurity.headerText with
  | none => rfl
  | some presented =>
    rw [Option.any_some, List.any_eq_false]
    intro token htoken heq
    apply hpresented token htoken
    have hp : presented = "Bearer ".toList ++ token := of_decide_eq_true heq
    rw [bearerToken, hvalue, hp]
    rfl

theorem handle_silent_of_open (hopen : e.authenticated = false)
    (hinbox : e = .claudeInbox → inboxAuthorized s.config req.toHttpRequest = false)
    (hadmission : ∀ id, e.admissionWrite = some id → Url.percentDecode id = none) :
    (e.handle env req s).Silent s := by
  cases e with
  | index | healthz | agentPontifexDescriptor | prometheusMetrics | healthCompat | describePolicy =>
    exact silent_quiet _ _
  | claudeInbox =>
    simp only [Endpoint.handle, claudeInbox, hinbox rfl, Bool.not_false, if_true]
    split_ifs
    · exact silent_quiet _ _
    · exact silent_quiet _ _
  | explainPolicy =>
    simp only [Endpoint.handle, withBody]
    split_ifs
    · exact silent_quiet _ _
    · cases req.body.document.bind PolicyRequest.read with
      | none => exact silent_quiet _ _
      | some policyRequest =>
        simp only [explainPolicy]
        cases Policy.evaluate policyRequest <;> exact silent_quiet _ _
  | getAdmission id =>
    simp only [Endpoint.handle, withPath]
    cases Url.percentDecode id with
    | none => exact silent_quiet _ _
    | some workflowId =>
      dsimp only
      unfold getAdmission
      split <;> exact silent_quiet _ _
  | admitWorkflow id | reportUsage id | completeAdmission id | cancelAdmission id =>
    simp only [Endpoint.handle, withPath, hadmission id rfl]
    exact silent_quiet _ _
  | _ => cases hopen

end Open
end AgentBridge.Http
