import AgentBridge.Http.AccessRules
import AgentBridge.Http.Acts

/-! In scoped mode a credential acts in the name of its own agent. -/

namespace AgentBridge
open Decode Http

/-! Which member of its body names the agent of a request. -/

theorem RegisterReq.names : Names "agent_key" RegisterReq.read RegisterReq.agentKey := by
  refine .required 0 fun source req h => ?_
  obtain ⟨_, hkey, h⟩ := Option.bind_eq_some_iff.mp h
  iterate 4 obtain ⟨_, -, h⟩ := Option.bind_eq_some_iff.mp h
  cases h
  exact hkey

theorem AcquireCompatibleFileLeaseReq.names :
    Names "agent_key" AcquireCompatibleFileLeaseReq.read AcquireCompatibleFileLeaseReq.agentKey := by
  refine .required 2 fun source req h => ?_
  iterate 2 obtain ⟨_, -, h⟩ := Option.bind_eq_some_iff.mp h
  obtain ⟨_, hkey, h⟩ := Option.bind_eq_some_iff.mp h
  iterate 4 obtain ⟨_, -, h⟩ := Option.bind_eq_some_iff.mp h
  cases h
  exact hkey

theorem MutateFileLeaseReq.names : Names "agent_key" MutateFileLeaseReq.read MutateFileLeaseReq.agentKey := by
  refine .required 0 fun source req h => ?_
  obtain ⟨_, hkey, h⟩ := Option.bind_eq_some_iff.mp h
  iterate 2 obtain ⟨_, -, h⟩ := Option.bind_eq_some_iff.mp h
  cases h
  exact hkey

theorem ReleaseFileLeaseReq.names : Names "agent_key" ReleaseFileLeaseReq.read ReleaseFileLeaseReq.agentKey := by
  refine .required 0 fun source req h => ?_
  obtain ⟨_, hkey, h⟩ := Option.bind_eq_some_iff.mp h
  obtain ⟨_, -, h⟩ := Option.bind_eq_some_iff.mp h
  cases h
  exact hkey

theorem CreateChannelReq.names : Names "created_by" CreateChannelReq.read CreateChannelReq.createdBy := by
  refine .defaulted 2 [] fun source req h => ?_
  iterate 2 obtain ⟨_, -, h⟩ := Option.bind_eq_some_iff.mp h
  obtain ⟨_, hkey, h⟩ := Option.bind_eq_some_iff.mp h
  cases h
  exact hkey

theorem ResolveReq.names (env : Env) : Names "created_by" (ResolveReq.read env) ResolveReq.createdBy := by
  refine .defaulted 1 [] fun source req h => ?_
  obtain ⟨_, -, h⟩ := Option.bind_eq_some_iff.mp h
  obtain ⟨_, hkey, h⟩ := Option.bind_eq_some_iff.mp h
  obtain ⟨_, -, h⟩ := Option.bind_eq_some_iff.mp h
  cases h
  exact hkey

theorem JoinReq.names : Names "agent_key" JoinReq.read JoinReq.agentKey := by
  refine .required 0 fun source req h => ?_
  obtain ⟨_, hkey, h⟩ := Option.bind_eq_some_iff.mp h
  obtain ⟨_, -, h⟩ := Option.bind_eq_some_iff.mp h
  cases h
  exact hkey

theorem LeaveReq.names : Names "agent_key" LeaveReq.read LeaveReq.agentKey := by
  refine .required 0 fun source req h => ?_
  obtain ⟨_, hkey, h⟩ := Option.bind_eq_some_iff.mp h
  cases h
  exact hkey

theorem PostReq.names : Names "from" PostReq.read PostReq.sender := by
  refine .required 0 fun source req h => ?_
  obtain ⟨_, hkey, h⟩ := Option.bind_eq_some_iff.mp h
  iterate 3 obtain ⟨_, -, h⟩ := Option.bind_eq_some_iff.mp h
  cases h
  exact hkey

theorem SetContextReq.names : Names "updated_by" SetContextReq.read SetContextReq.updatedBy := by
  refine .defaulted 2 [] fun source req h => ?_
  iterate 2 obtain ⟨_, -, h⟩ := Option.bind_eq_some_iff.mp h
  obtain ⟨_, hkey, h⟩ := Option.bind_eq_some_iff.mp h
  cases h
  exact hkey

theorem UsageReq.names : Names "updated_by" UsageReq.read UsageReq.updatedBy := by
  refine .required 0 fun source req h => ?_
  obtain ⟨_, hkey, h⟩ := Option.bind_eq_some_iff.mp h
  iterate 2 obtain ⟨_, -, h⟩ := Option.bind_eq_some_iff.mp h
  cases h
  exact hkey

theorem AdmitReq.names : Names "requested_by" AdmitReq.read AdmitReq.requestedBy := by
  refine .required 0 fun source req h => ?_
  obtain ⟨_, hkey, h⟩ := Option.bind_eq_some_iff.mp h
  iterate 3 obtain ⟨_, -, h⟩ := Option.bind_eq_some_iff.mp h
  cases h
  exact hkey

theorem CreateWorkflowReq.names : Names "created_by" CreateWorkflowReq.read CreateWorkflowReq.createdBy := by
  refine .required 2 fun source req h => ?_
  iterate 2 obtain ⟨_, -, h⟩ := Option.bind_eq_some_iff.mp h
  obtain ⟨_, hkey, h⟩ := Option.bind_eq_some_iff.mp h
  iterate 11 obtain ⟨_, -, h⟩ := Option.bind_eq_some_iff.mp h
  cases h
  exact hkey

theorem SubmitWorkflowReq.names : Names "agent_key" SubmitWorkflowReq.read SubmitWorkflowReq.agentKey := by
  refine .required 0 fun source req h => ?_
  obtain ⟨_, hkey, h⟩ := Option.bind_eq_some_iff.mp h
  iterate 2 obtain ⟨_, -, h⟩ := Option.bind_eq_some_iff.mp h
  cases h
  exact hkey

theorem CreateBlindCompetitionReq.names :
    Names "created_by" CreateBlindCompetitionReq.read CreateBlindCompetitionReq.createdBy := by
  refine .required 2 fun source req h => ?_
  iterate 2 obtain ⟨_, -, h⟩ := Option.bind_eq_some_iff.mp h
  obtain ⟨_, hkey, h⟩ := Option.bind_eq_some_iff.mp h
  iterate 3 obtain ⟨_, -, h⟩ := Option.bind_eq_some_iff.mp h
  cases h
  exact hkey

namespace Http
open State

/-- What agent `k` may do by a request. Besides what is its own, a workflow seats its cast, the end of an admission
stands in the name of who requested it, a live stream seats whom it names, and a lease may get the id of another one. -/
inductive Request.Permits (env : Env) (req : Request) (s : AppState) (k : Text) : Effect → Prop
  | owned {e : Effect} (h : Owned k e) : Permits env req s k e
  | cast {e : Endpoint} {r : MethodRouter} {slug n : Text} (hroute : routeOf req.path = some r)
      (he : r.endpoint req.method = some e) (h : e.Casts env req s slug n) :
        Permits env req s k (.seat slug (Text.trim n))
  | finish {e : Endpoint} {r : MethodRouter} {record : AdmissionRecord} {slug : Text}
      (hroute : routeOf req.path = some r)
      (he : r.endpoint req.method = some e) (h : e.Finishes s record) :
      Permits env req s k (.entry slug PolicyAdmission.admissionContextKey (writerName record.requestedBy))
  | listener {r : MethodRouter} {room slug n : Text} (hroute : routeOf req.path = some r)
      (he : r.endpoint req.method = some (.streamChannel room)) (h : queryField "agent_key" req.query = some (some n)) :
      Permits env req s k (.seat slug (Text.trim n))
  | replaced {r : MethodRouter} {old : FileLeaseState} (hroute : routeOf req.path = some r)
      (he : r.endpoint req.method = some .acquireCompatibleFileLease) (h : s.fileLeases.get (env.newId 0) = some old) :
      Permits env req s k (.lease (env.newId 0) old.lease.agentKey)

section Confinement
variable {d : Deployment} {env : Env} {req : Request} {s : AppState} {k n : Text} {e : Endpoint} {r : MethodRouter}

theorem named_of_body {α : Type} {name : String} {read : Json → Option α} {field : α → Text} {t : Text}
    (hnames : Names name read field)
    (ht : (req.body.document.bind fun value => value.get name.toList).bind Json.asStr = some t)
    (hn : n ∈ (req.body.document.bind read).map field) : n = t := by
  obtain ⟨a, ha, rfl⟩ := Option.map_eq_some_iff.mp hn
  obtain ⟨j, hj, hread⟩ := Option.bind_eq_some_iff.mp ha
  rw [hj] at ht
  exact hnames j a t hread ht

theorem named_trim {α : Type} {name : String} {read : Json → Option α} {field : α → Text}
    {identity : AuthenticatedAdapter} (hnames : Names name read field)
    (hnamed : WorkflowSecurity.namesIdentity req.body.document name.toList identity = true)
    (hn : n ∈ (req.body.document.bind read).map field) : Text.trim n = identity.agentKey := by
  unfold WorkflowSecurity.namesIdentity at hnamed
  obtain ⟨trimmed, htrimmed, heq⟩ := (Option.any_eq_true _ _).mp hnamed
  obtain ⟨t, ht, rfl⟩ := Option.map_eq_some_iff.mp htrimmed
  rw [named_of_body hnames ht hn]
  exact of_decide_eq_true heq

theorem Endpoint.actor_of_rule {rule : AccessRule} {identity : AuthenticatedAdapter} (hrule : e.rule = some rule)
    (hnamed : rule.identityField.all (fun field =>
      WorkflowSecurity.namesIdentity req.body.document field identity) = true)
    (hadapter : req.adapter = some identity) (hk : Text.trim identity.agentKey = identity.agentKey)
    (hn : n ∈ e.actor env req) : Text.trim n = identity.agentKey := by
  cases e with
  | registerAgent => cases hrule; exact named_trim RegisterReq.names hnamed hn
  | acquireCompatibleFileLease => cases hrule; exact named_trim AcquireCompatibleFileLeaseReq.names hnamed hn
  | renewFileLease id | releaseCompatibleFileLease id =>
      cases hrule; exact named_trim MutateFileLeaseReq.names hnamed hn
  | createChannel => cases hrule; exact named_trim CreateChannelReq.names hnamed hn
  | resolveChannel => cases hrule; exact named_trim (ResolveReq.names env) hnamed hn
  | joinChannel slug => cases hrule; exact named_trim JoinReq.names hnamed hn
  | leaveChannel slug => cases hrule; exact named_trim LeaveReq.names hnamed hn
  | postMessage slug => cases hrule; exact named_trim PostReq.names hnamed hn
  | putContext slug => cases hrule; exact named_trim SetContextReq.names hnamed hn
  | createWorkflow => cases hrule; exact named_trim CreateWorkflowReq.names hnamed hn
  | submitWorkflow id => cases hrule; exact named_trim SubmitWorkflowReq.names hnamed hn
  | admitWorkflow id => cases hrule; exact named_trim AdmitReq.names hnamed hn
  | reportUsage id => cases hrule; exact named_trim UsageReq.names hnamed hn
  | createBlindCompetition => cases hrule; exact named_trim CreateBlindCompetitionReq.names hnamed hn
  | submitBlindCompetition id | revealBlindCompetition id =>
    rw [Endpoint.actor, hadapter] at hn
    cases hn
    exact hk
  | claudeInbox => cases hrule
  | _ => cases hn

theorem allows_permits {rule : AccessRule} {identity : AuthenticatedAdapter}
    (hkey : WorkflowSecurity.KeyOk identity.agentKey)
    (hrule : WorkflowSecurity.accessRule req.method req.path = some rule)
    (hnamed : rule.identityField.all (fun field =>
      WorkflowSecurity.namesIdentity req.body.document field identity) = true)
    (hadapter : req.adapter = some identity) (hroute : routeOf req.path = some r)
    (he : r.endpoint req.method = some e) :
    e.Allows env req s (req.Permits env s identity.agentKey) where
  listener := by
    rintro room rfl n hn slug
    exact .listener hroute he hn
  actor := by
    intro n hn n' hn'
    refine (entrusts_owned hkey ?_).mono fun effect => .owned
    rw [hn']
    rw [accessRule_of_endpoint hroute he, Endpoint.ruleAt] at hrule
    split_ifs at hrule with hhead hcontext
    · rw [hcontext] at hn
      cases hn
    · exact Endpoint.actor_of_rule hrule hnamed hadapter hkey.1 hn
  cast := fun slug k h => .cast hroute he h
  requester := fun record h slug => .finish hroute he h
  replaced := by
    rintro rfl old hold
    exact .replaced hroute he hold

theorem path_of_compatibilityRoute {route : LeaseDescriptors.CompatibilityRoute} {path : Text}
    (h : LeaseDescriptors.compatibilityRoute path = some route) :
    ∃ n rest, path = List.replicate n '/' ++ 'f' :: rest := by
  have hslashes : path.takeWhile (· == '/') = List.replicate (path.takeWhile (· == '/')).length '/' := by
    rw [List.eq_replicate_iff]
    exact ⟨rfl, fun c hc => by simpa using List.mem_takeWhile_imp hc⟩
  unfold LeaseDescriptors.compatibilityRoute at h
  by_cases hroot : path = "/file-leases".toList
  · exact ⟨1, "ile-leases".toList, hroot⟩
  rw [if_neg hroot] at h
  split at h
  next root id verb hsplit =>
    by_cases hname : (root = "file-leases".toList && !id.isEmpty) = true
    · rw [Bool.and_eq_true, decide_eq_true_eq] at hname
      have hjoin : Components.join '/' ((Text.trimMatches '/' path).splitOn '/') = Text.trimMatches '/' path :=
        Components.join_split _
      rw [hsplit, hname.1, Components.join_cons_cons] at hjoin
      obtain ⟨back, hback⟩ : Text.trimMatches '/' path <+: path.dropWhile (· == '/') := List.rdropWhile_prefix _ _
      rw [← hjoin] at hback
      have hsplit : path.takeWhile (· == '/') ++ path.dropWhile (· == '/') = path := List.takeWhile_append_dropWhile
      rw [hslashes, ← hback] at hsplit
      exact ⟨_, _, hsplit.symm⟩
    · rw [if_neg hname] at h
      cases h
  next => cases h

theorem accessRule_of_compatibilityRoute {route : LeaseDescriptors.CompatibilityRoute} {path : Text}
    (h : LeaseDescriptors.compatibilityRoute path = some route) {rule : AccessRule}
    (hrule : WorkflowSecurity.accessRule .post path = some rule) : rule.identityField = some "agent_key".toList := by
  obtain ⟨n, rest, rfl⟩ := path_of_compatibilityRoute h
  match n with
  | 0 => cases hrule
  | 1 =>
    have hlease : WorkflowSecurity.accessRule .post ('/' :: 'f' :: rest) =
        if "/file-leases".toList.isPrefixOf ('/' :: 'f' :: rest) then
          WorkflowSecurity.rule "lease:operate" (some "agent_key")
        else none := rfl
    rw [List.replicate_one, List.singleton_append, hlease] at hrule
    split_ifs at hrule
    cases hrule
    rfl
  | n + 2 => cases hrule

theorem route_permits {rule : AccessRule} {identity : AuthenticatedAdapter}
    {route : LeaseDescriptors.CompatibilityRoute}
    (hkey : WorkflowSecurity.KeyOk identity.agentKey)
    (hroute : LeaseDescriptors.compatibilityRoute req.path = some route)
    (hrule : WorkflowSecurity.accessRule .post req.path = some rule)
    (hnamed : rule.identityField.all (fun field =>
      WorkflowSecurity.namesIdentity req.body.document field identity) = true)
    (hn : n ∈ route.actor req.body.document) : Entrusts (req.Permits env s identity.agentKey) (Text.trim n) := by
  refine (entrusts_owned hkey ?_).mono fun effect => .owned
  rw [Text.trim_trim]
  rw [accessRule_of_compatibilityRoute hroute hrule] at hnamed
  cases route with
  | acquire => exact named_trim AcquireCompatibleFileLeaseReq.names hnamed hn
  | renew id => exact named_trim MutateFileLeaseReq.names hnamed hn
  | release id => exact named_trim ReleaseFileLeaseReq.names hnamed hn

theorem inner_permits {rule : AccessRule} {identity : AuthenticatedAdapter}
    (hkey : WorkflowSecurity.KeyOk identity.agentKey)
    (hrule : WorkflowSecurity.accessRule req.method req.path = some rule)
    (hnamed : rule.identityField.all (fun field =>
      WorkflowSecurity.namesIdentity req.body.document field identity) = true)
    (hadapter : req.adapter = some identity) :
    Acts env.now (req.Permits env s identity.agentKey) s (inner d env req s).state := by
  apply inner_acts
  · intro hpost route hroute n hn
    rw [hpost] at hrule
    exact route_permits hkey hroute hrule hnamed hn
  · intro r e hroute he
    exact allows_permits hkey hrule hnamed hadapter hroute he

/-- The pages that anybody may read. -/
def Endpoint.isPage : Endpoint → Bool
  | .index | .healthz | .agentPontifexDescriptor | .prometheusMetrics | .healthCompat => true
  | _ => false

theorem inner_of_public {P : Effect → Prop} (hpublic : WorkflowSecurity.isPublicPath req.path = true) :
    Acts env.now P s (inner d env req s).state := by
  have hclosed : ∀ p ∈ WorkflowSecurity.publicPaths, LeaseDescriptors.compatibilityRoute p = none ∧
      ∀ r ∈ routeOf p, ∀ e ∈ r.get.toList ++ r.post.toList ++ r.put.toList, e.isPage = true := by decide +kernel
  obtain ⟨hnone, hpages⟩ := hclosed _ (List.contains_iff_mem.mp hpublic)
  apply inner_acts
  · intro _ route hroute
    rw [hnone] at hroute
    cases hroute
  · intro r e hroute he
    have hpage := hpages r hroute e (mem_of_endpoint he)
    cases e <;> cases hpage
    all_goals
      refine ⟨fun room h => ?_, fun n hn => ?_, fun slug k h => h.elim, fun record h => h.elim, fun h => ?_⟩
      · cases h
      · cases hn
      · cases h

theorem Request.Permits.congr {req' : Request} {effect : Effect} (h : req'.Permits env s k effect)
    (hmethod : req'.method = req.method) (hpath : req'.path = req.path) (hquery : req'.query = req.query)
    (hbody : req'.body = req.body) : req.Permits env s k effect := by
  cases h with
  | owned h => exact .owned h
  | cast hroute he h =>
    rw [hpath] at hroute
    rw [hmethod] at he
    refine .cast hroute he ?_
    unfold Endpoint.Casts at h ⊢
    rwa [hbody] at h
  | finish hroute he h =>
    rw [hpath] at hroute
    rw [hmethod] at he
    exact .finish hroute he h
  | listener hroute he h =>
    rw [hpath] at hroute
    rw [hmethod] at he
    rw [hquery] at h
    exact .listener hroute he h
  | replaced hroute he h =>
    rw [hpath] at hroute
    rw [hmethod] at he
    exact .replaced hroute he h

/-- The request presents the token of a credential that has the scope of the access rule. -/
def Holds (security : WorkflowSecurity) (req : HttpRequest) (identity : AuthenticatedAdapter) : Prop :=
  ∃ token rule, bearerToken req = some token ∧ security.authenticate token = some identity ∧
    WorkflowSecurity.accessRule req.method req.path = some rule ∧ rule.scope ∈ identity.scopes

def FromOperator (security : WorkflowSecurity) (req : HttpRequest) : Prop :=
  ∃ token, bearerToken req = some token ∧ security.isAdminToken token = true

theorem authorizeAdapter_eq_ok {security : WorkflowSecurity} {identity : AuthenticatedAdapter}
    (h : security.authorizeAdapter req (bearerToken req.toHttpRequest) = .ok identity) :
    ∃ token rule, bearerToken req.toHttpRequest = some token ∧ security.authenticate token = some identity ∧
      WorkflowSecurity.accessRule req.method req.path = some rule ∧ rule.scope ∈ identity.scopes ∧
      rule.identityField.all (fun field => WorkflowSecurity.namesIdentity req.body.document field identity) = true := by
  unfold WorkflowSecurity.authorizeAdapter at h
  cases hrule : WorkflowSecurity.accessRule req.method req.path with
  | none =>
    rw [hrule] at h
    cases h
  | some rule =>
    rw [hrule] at h
    dsimp only at h
    cases hfound : (bearerToken req.toHttpRequest).bind security.authenticate with
    | none =>
      rw [hfound] at h
      cases h
    | some found =>
      rw [hfound] at h
      dsimp only at h
      split_ifs at h with hscope hnamed
      cases h
      obtain ⟨token, htoken, hidentity⟩ := Option.bind_eq_some_iff.mp hfound
      refine ⟨token, rule, htoken, hidentity, rfl, ?_, ?_⟩
      · simpa using hscope
      · simpa using hnamed

theorem exchange_eq_ok {security : WorkflowSecurity} {identity : AuthenticatedAdapter} {req' : Request}
    (h : security.exchange req identity = .ok req') : req'.adapter = some identity ∧ req'.method = req.method ∧
      req'.path = req.path ∧ req'.query = req.query ∧ req'.body = req.body := by
  unfold WorkflowSecurity.exchange at h
  split at h
  · cases h
    exact ⟨rfl, rfl, rfl, rfl, rfl⟩
  · split_ifs at h
    cases h
    exact ⟨rfl, rfl, rfl, rfl, rfl⟩

/-- The request presents a credential that has the scope for it and permits the effect to its own agent. -/
def Entitled (security : WorkflowSecurity) (env : Env) (req : HttpRequest) (s : AppState) (effect : Effect) : Prop :=
  ∃ identity, Holds security req identity ∧
    Request.Permits env { req with adapter := none } s identity.agentKey effect

theorem serve_acts {req : HttpRequest} (hloaded : d.security.Loaded) (hscoped : d.security.scopedMode = true)
    (hoperator : ¬ FromOperator d.security req) :
    Acts env.now (Entitled d.security env req s) s (serve d env req s).state := by
  unfold serve WorkflowSecurity.enforce
  by_cases hlength : req.body.length > d.security.maxBodyBytes
  · rw [if_pos hlength]
    exact .refl s
  rw [if_neg hlength]
  by_cases hreserved : (WorkflowSecurity.isContextWrite req.method req.path &&
      WorkflowSecurity.containsReservedContextKey req.body.document) = true
  · rw [if_pos hreserved]
    exact .refl s
  rw [if_neg hreserved]
  by_cases hpublic : WorkflowSecurity.isPublicPath req.path = true
  · rw [if_pos (by simp [hpublic])]
    exact inner_of_public hpublic
  rw [if_neg (by simp [hscoped, hpublic])]
  have hadmin : (bearerToken req).any d.security.isAdminToken = false := by
    rw [Option.any_eq_false]
    exact fun token htoken => Bool.eq_false_iff.mpr fun h => hoperator ⟨token, htoken, h⟩
  dsimp only
  rw [if_neg (by simp [hadmin])]
  cases hresult : (do
      let identity ← d.security.authorizeAdapter { req with adapter := none } (bearerToken req)
      d.security.exchange { req with adapter := none } identity) with
  | error e => exact .refl s
  | ok req' =>
    obtain ⟨identity, hauthorized, hexchanged⟩ := Except.bind_eq_ok.mp hresult
    obtain ⟨token, rule, htoken, hidentity, hrule, hscope, hnamed⟩ := authorizeAdapter_eq_ok hauthorized
    obtain ⟨hadapter, hmethod, hpath, hquery, hbody⟩ := exchange_eq_ok hexchanged
    rw [← hmethod, ← hpath] at hrule
    rw [← hbody] at hnamed
    refine (inner_permits (hloaded.key hidentity) hrule hnamed hadapter).mono fun effect heffect => ?_
    rw [hmethod, hpath] at hrule
    exact ⟨identity, ⟨token, rule, htoken, hidentity, hrule, hscope⟩, heffect.congr hmethod hpath hquery hbody⟩

def adaInput : CredentialInput where
  tokenId := "ada-1".toList
  token := "secret".toList
  agentKey := "ada".toList
  scopes := ["agent:register".toList]

/-- A deployment with one credential, which may register its agent. -/
def adaDeployment : Deployment where
  config := .inMemory
  security := {
    globalBearer := none
    credentials := [{ tokenId := "ada-1".toList, token := "secret".toList, agentKey := "ada".toList,
                      scopes := .ofList ["agent:register".toList] }]
    maxBodyBytes := 2097152
    distinct := ⟨List.nodup_singleton _, fun _ _ h => by cases h⟩ }
  claims := { required := false, repository := "acme/app".toList, maxTtlMs := 60000 }
  bearer := rfl
  bodyLimit := rfl
  claimsBacked := nofun

def adaEnv : Env where
  now := ⟨0, 0⟩
  newId := fun n => "id".toList ++ Text.decimal n
  surroundings := asciiSurroundings
  controlPlane := fun _ => .error .controlPlaneNotConfigured
  parseRfc3339 := fun _ => none
  parseF32 := fun _ => 0
  iso8601Secs := "1970-01-01T00:00:00Z".toList
  inboxWritable := true

end Confinement
end Http
end AgentBridge
