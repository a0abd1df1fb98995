import AgentBridge.Admission.Acts
import AgentBridge.Http.Guards

/-! The calls that the endpoints and the middlewares of the server make, and in whose names. -/

namespace AgentBridge
open State

namespace Http
open Orchestration

def Endpoint.actor (env : Env) (req : Request) : Endpoint → Option Text
  | .claudeInbox => (if req.body.length = 0 then some (.obj []) else req.body.json.map Json.value).map
      fun data => inboxField data "from" "codex" 64
  | .registerAgent => (req.body.document.bind RegisterReq.read).map RegisterReq.agentKey
  | .acquireCompatibleFileLease =>
    (req.body.document.bind AcquireCompatibleFileLeaseReq.read).map AcquireCompatibleFileLeaseReq.agentKey
  | .renewFileLease _ | .releaseCompatibleFileLease _ =>
    (req.body.document.bind MutateFileLeaseReq.read).map MutateFileLeaseReq.agentKey
  | .createChannel => (req.body.document.bind CreateChannelReq.read).map CreateChannelReq.createdBy
  | .resolveChannel => (req.body.document.bind (ResolveReq.read env)).map ResolveReq.createdBy
  | .joinChannel _ => (req.body.document.bind JoinReq.read).map JoinReq.agentKey
  | .leaveChannel _ => (req.body.document.bind LeaveReq.read).map LeaveReq.agentKey
  | .postMessage _ => (req.body.document.bind PostReq.read).map PostReq.sender
  | .putContext _ => (req.body.document.bind SetContextReq.read).map SetContextReq.updatedBy
  | .createWorkflow => (req.body.document.bind CreateWorkflowReq.read).map CreateWorkflowReq.createdBy
  | .submitWorkflow _ => (req.body.document.bind SubmitWorkflowReq.read).map SubmitWorkflowReq.agentKey
  | .admitWorkflow _ => (req.body.document.bind AdmitReq.read).map AdmitReq.requestedBy
  | .reportUsage _ => (req.body.document.bind UsageReq.read).map UsageReq.updatedBy
  | .createBlindCompetition =>
    (req.body.document.bind CreateBlindCompetitionReq.read).map CreateBlindCompetitionReq.createdBy
  | .submitBlindCompetition _ | .revealBlindCompetition _ => req.adapter.map AuthenticatedAdapter.agentKey
  | _ => none

/-- The request seats `k` as one of those it gives a part to. -/
def Endpoint.Casts (env : Env) (req : Request) (s : AppState) (slug k : Text) : Endpoint → Prop
  | .createWorkflow => ∃ r plan, req.body.document.bind CreateWorkflowReq.read = some r ∧
      Orchestration.buildPlan s env.now (env.newId 0) r = .ok plan ∧ slug = plan.channel ∧
        ∃ a ∈ plan.assignments, a.agentKey = k
  | .createBlindCompetition => ∃ r plan, req.body.document.bind CreateBlindCompetitionReq.read = some r ∧
      BlindCompetition.buildPlan s env.now (env.newId 0) r = .ok plan ∧ slug = plan.channel ∧
        k ∈ BlindCompetition.seated plan
  | _ => False

def Endpoint.Finishes (s : AppState) (record : AdmissionRecord) : Endpoint → Prop
  | .completeAdmission id | .cancelAdmission id =>
    ∃ workflowId, Url.percentDecode id = some workflowId ∧ PolicyAdmission.stored s workflowId = some record
  | _ => False

/-- What the endpoint does with the request, in whose name it does it, is among the effects. -/
structure Endpoint.Allows (env : Env) (req : Request) (s : AppState) (P : Effect → Prop) (e : Endpoint) : Prop where
  listener : ∀ room, e = .streamChannel room →
    ∀ n, queryField "agent_key" req.query = some (some n) → ∀ slug, P (.seat slug (Text.trim n))
  actor : ∀ n ∈ e.actor env req, ∀ n', Text.trim n' = Text.trim n → Entrusts P n'
  cast : ∀ slug k, e.Casts env req s slug k → P (.seat slug (Text.trim k))
  requester : ∀ record, e.Finishes s record →
    ∀ slug, P (.entry slug PolicyAdmission.admissionContextKey (writerName record.requestedBy))
  replaced : e = .acquireCompatibleFileLease →
    ∀ old, s.fileLeases.get (env.newId 0) = some old → P (.lease (env.newId 0) old.lease.agentKey)

section Extractors
variable {α : Type} {req : Request} {s : AppState} {now : Now} {P : Effect → Prop}

theorem acts_withBody {limit : Nat} {read : Json → Option α} {run : α → Outcome}
    (h : ∀ a, req.body.document.bind read = some a → Acts now P s (run a).state) :
    Acts now P s (withBody req s limit read run).state := by
  unfold withBody
  by_cases hrefused : (!req.jsonContentType || decide (req.body.length > limit)) = true
  · rw [if_pos hrefused]
    exact .refl s
  · rw [if_neg hrefused]
    cases hread : req.body.document.bind read with
    | none => exact .refl s
    | some a => exact h a hread

theorem acts_withPath {segment : Text} {run : Text → Outcome}
    (h : ∀ value, Url.percentDecode segment = some value → Acts now P s (run value).state) :
    Acts now P s (withPath s segment run).state := by
  unfold withPath
  cases hvalue : Url.percentDecode segment with
  | none => exact .refl s
  | some value => exact h value hvalue

theorem acts_withQuery {found : Option α} {run : α → Outcome} (h : ∀ a ∈ found, Acts now P s (run a).state) :
    Acts now P s (withQuery s found run).state := by
  unfold withQuery
  cases found with
  | none => exact .refl s
  | some a => exact h a rfl

theorem acts_ofResult {reply : α → Reply} {r : BridgeResult α × AppState} (h : Acts now P s r.2) :
    Acts now P s (Outcome.ofResult reply r).state := by
  rcases r with ⟨e | a, s'⟩ <;> exact h

theorem acts_ofAdmission {reply : α → Reply} {r : AdmissionResult α × AppState} (h : Acts now P s r.2) :
    Acts now P s (Outcome.ofAdmission reply r).state := by
  rcases r with ⟨e | a, s'⟩ <;> exact h

end Extractors

section Endpoints
variable {env : Env} {req : Request} {s : AppState} {P : Effect → Prop}

theorem state_throughControlPlane (call : ControlPlaneCall) : (throughControlPlane env s call).state = s := by
  unfold throughControlPlane
  cases env.controlPlane call <;> rfl

theorem acts_mirrorInbox {line : InboxLine} (hn : Entrusts P line.sender) :
    Acts env.now P s (mirrorInbox env s line) := by
  unfold mirrorInbox
  by_cases hprompt : line.prompt = []
  · rw [if_pos hprompt]
    exact .refl s
  · rw [if_neg hprompt]
    dsimp only
    generalize (if State.slugify env.surroundings line.topic = [] then "claude-inbox".toList
      else State.slugify env.surroundings line.topic) = slug
    generalize (if Text.trim line.topic = [] then "claude inbox".toList else line.topic) = topic
    have hcreated : Acts env.now P s (s.createOrGetChannel env.surroundings env.now slug topic line.sender).2 :=
      .createOrGetChannel (hn.channel _)
    rcases hcreate : s.createOrGetChannel env.surroundings env.now slug topic line.sender with ⟨e | channel, s₁⟩
    · rwa [hcreate] at hcreated
    · rw [hcreate] at hcreated
      exact hcreated.trans (.postMessage (hn.seat _) (hn.message _) _ _ _ _)

theorem acts_claudeInbox (hactor : ∀ n ∈ Endpoint.claudeInbox.actor env req, Entrusts P n) :
    Acts env.now P s (claudeInbox env s req).state := by
  unfold Endpoint.actor at hactor
  unfold claudeInbox
  generalize (if req.body.length = 0 then some (Json.obj []) else req.body.json.map Json.value) = data at hactor ⊢
  by_cases hlength : req.body.length > s.config.maxHttpBodyBytes
  · rw [if_pos hlength]
    exact .refl s
  rw [if_neg hlength]
  by_cases hauthorized : (!inboxAuthorized s.config req.toHttpRequest) = true
  · rw [if_pos hauthorized]
    exact .refl s
  rw [if_neg hauthorized]
  cases data with
  | none => exact .refl s
  | some data =>
    dsimp only
    by_cases hwritable : (!env.inboxWritable) = true
    · rw [if_pos hwritable]
      exact .refl s
    · rw [if_neg hwritable]
      exact ((Acts.refl s).aside (s.inbox ++ [_]) s.sseConnections).trans (acts_mirrorInbox (hactor _ rfl))

theorem acts_acquireCompatibleFileLease {r : AcquireCompatibleFileLeaseReq} (hn : Entrusts P r.agentKey)
    (hover : ∀ old, s.fileLeases.get (env.newId 0) = some old → P (.lease (env.newId 0) old.lease.agentKey)) :
    Acts env.now P s (acquireCompatibleFileLease env s r).state := by
  unfold acquireCompatibleFileLease
  cases requireRegisteredAgent s r.agentKey with
  | error e => exact .refl s
  | ok u =>
    dsimp only
    split_ifs
    · exact .refl s
    · rw [state_throughControlPlane]
      exact .refl s
    · exact acts_ofResult (.acquireFileLease hn.lease hover)

theorem state_acquireFileLeases (r : AcquireFileLeasesReq) : (acquireFileLeases env s r).state = s := by
  unfold acquireFileLeases
  cases requireRegisteredAgent s r.agentKey with
  | error e => rfl
  | ok u =>
    dsimp only
    split_ifs
    · rfl
    · exact state_throughControlPlane _

theorem state_releaseFileLease (r : ReleaseFileLeaseReq) : (releaseFileLease env s r).state = s := by
  unfold releaseFileLease
  split_ifs
  · rfl
  · exact state_throughControlPlane _

theorem acts_renewFileLease {id : Text} {r : MutateFileLeaseReq} (hn : Entrusts P r.agentKey) :
    Acts env.now P s (renewFileLease env s id r).state := by
  unfold renewFileLease
  split_ifs
  · exact .refl s
  · exact acts_ofResult (.renewFileLease hn.lease)

theorem acts_releaseCompatibleFileLease {id : Text} {r : MutateFileLeaseReq} (hn : Entrusts P r.agentKey) :
    Acts env.now P s (releaseCompatibleFileLease env s id r).state := by
  unfold releaseCompatibleFileLease
  split_ifs
  · rw [state_throughControlPlane]
    exact .refl s
  · exact acts_ofResult (.releaseFileLease hn.lease)

theorem acts_fileLeaseHolders {query : FileLeaseQuery} : Acts env.now P s (fileLeaseHolders env s query).state := by
  unfold fileLeaseHolders
  split_ifs
  · split
    · dsimp only
      split <;> exact .refl s
    · exact .refl s
  · exact acts_ofResult (.fileLeaseHolders)

theorem acts_streamChannel {slug : Text} {agentKey : Option Text} (hP : ∀ n ∈ agentKey, P (.seat slug (Text.trim n))) :
    Acts env.now P s (streamChannel env s slug agentKey).state := by
  unfold streamChannel
  by_cases hfull : s.sseConnections = 0
  · rw [if_pos hfull]
    exact .refl s
  · rw [if_neg hfull]
    have hjoined : Acts env.now P s (s.subscribe env.now slug agentKey).2 :=
      .subscribe fun key hkey _ => hP key hkey
    rcases hsubscribe : s.subscribe env.now slug agentKey with ⟨e | ⟨position, seq⟩, s₁⟩
    · rwa [hsubscribe] at hjoined
    · rw [hsubscribe] at hjoined
      exact hjoined.aside s₁.inbox _

theorem acts_reportUsage {id : Text} {r : UsageReq} (hn : Entrusts P (Text.trim r.updatedBy)) :
    Acts env.now P s (reportUsage env s id r).state := by
  unfold reportUsage
  cases hload : PolicyAdmission.loadAdmission s id with
  | error e => exact .refl s
  | ok found =>
    cases found with
    | none => exact .refl s
    | some admission =>
      dsimp only
      by_cases hreporter : admission.requestedBy ≠ Text.trim r.updatedBy
      · rw [if_pos hreporter]
        exact .refl s
      · rw [if_neg hreporter]
        refine acts_ofAdmission (PolicyAdmission.acts_recordUsage fun record hstored slug => ?_)
        rw [PolicyAdmission.loadAdmission_eq_some.mp hload] at hstored
        cases hstored
        rw [not_not.mp hreporter]
        exact hn.entry _ _

theorem acts_explainPolicy {request : PolicyRequest} : Acts env.now P s (explainPolicy s request).state := by
  unfold explainPolicy
  cases Policy.evaluate request <;> exact .refl s

theorem acts_getAdmission {id : Text} : Acts env.now P s (getAdmission s id).state := by
  unfold getAdmission
  split <;> exact .refl s

theorem Endpoint.handle_acts {e : Endpoint} (h : e.Allows env req s P) :
    Acts env.now P s (e.handle env req s).state := by
  have hactor {n : Text} (hn : n ∈ e.actor env req) : Entrusts P n := h.actor n hn n rfl
  have htrimmed {n : Text} (hn : n ∈ e.actor env req) : Entrusts P (Text.trim n) := h.actor n hn _ (Text.trim_trim n)
  have hread {α : Type} {read : Json → Option α} {field : α → Text} {r : α}
    (hr : req.body.document.bind read = some r) :
      field r ∈ (req.body.document.bind read).map field := by
    rw [hr]
    rfl
  -- one case for each endpoint: what it reads of the request, then the rule of the call it makes
  cases e with
  | index | healthz | agentPontifexDescriptor | prometheusMetrics | healthCompat | listAgents | listChannels
  | listWorkflows | describePolicy => exact .refl s
  | claudeInbox => exact acts_claudeInbox fun n hn => hactor hn
  | registerAgent =>
    exact acts_withBody fun r hr => acts_ofResult (.registerAgent (hactor (hread hr)).registration)
  | fileLeaseHolders => exact acts_withQuery fun query _ => acts_fileLeaseHolders
  | acquireCompatibleFileLease =>
    exact acts_withBody fun r hr => acts_acquireCompatibleFileLease (hactor (hread hr)) (h.replaced rfl)
  | acquireFileLeases =>
    refine acts_withBody fun r _ => ?_
    rw [state_acquireFileLeases]
    exact .refl s
  | releaseFileLease =>
    refine acts_withBody fun r _ => ?_
    rw [state_releaseFileLease]
    exact .refl s
  | renewFileLease id =>
    exact acts_withPath fun id _ => acts_withBody fun r hr => acts_renewFileLease (hactor (hread hr))
  | releaseCompatibleFileLease id =>
    exact acts_withPath fun id _ => acts_withBody fun r hr => acts_releaseCompatibleFileLease (hactor (hread hr))
  | createChannel =>
    exact acts_withBody fun r hr => acts_ofResult (.createOrGetChannel ((hactor (hread hr)).channel _))
  | searchChannels => exact acts_withBody fun r _ => .refl s
  | resolveChannel => exact acts_withBody fun r hr => acts_ofResult (.resolveChannel (hactor (hread hr)).channel)
  | getChannel slug => exact acts_withPath fun slug _ => acts_ofResult (.refl s)
  | joinChannel slug =>
    exact acts_withPath fun slug _ => acts_withBody fun r hr =>
      acts_ofResult (.join ((hactor (hread hr)).seat slug) _)
  | leaveChannel slug =>
    exact acts_withPath fun slug _ => acts_withBody fun r hr =>
      acts_ofResult (.leave ((hactor (hread hr)).unseat slug))
  | listMembers slug => exact acts_withPath fun slug _ => acts_ofResult (.refl s)
  | listMessages slug => exact acts_withPath fun slug _ => acts_withQuery fun since _ => acts_ofResult (.refl s)
  | postMessage slug =>
    refine acts_withPath fun slug _ => acts_withBody fun r hr => ?_
    have hn := hactor (hread hr)
    exact acts_ofResult (.postMessage (hn.seat slug) (hn.message slug) _ _ _ _)
  | streamChannel room =>
    refine acts_withPath fun slug _ => acts_withQuery fun agentKey hkey => acts_streamChannel fun n hn => ?_
    refine h.listener room rfl n ?_ slug
    rw [Option.mem_def.mp hkey, Option.mem_def.mp hn]
  | getContext slug => exact acts_withPath fun slug _ => acts_ofResult (.refl s)
  | putContext slug =>
    exact acts_withPath fun slug _ => acts_withBody fun r hr =>
      acts_ofResult (.setContext ((hactor (hread hr)).entry _ _))
  | createWorkflow =>
    refine acts_withBody fun r hr => acts_ofResult (acts_createWorkflow (htrimmed (hread hr)) ?_)
    exact fun plan hplan a ha => h.cast _ _ ⟨r, plan, hr, hplan, rfl, a, ha, rfl⟩
  | getWorkflow id => exact acts_withPath fun id _ => acts_ofResult (.refl s)
  | submitWorkflow id =>
    exact acts_withPath fun id _ => acts_withBody fun r hr => acts_submitWorkflow (htrimmed (hread hr))
  | explainPolicy => exact acts_withBody fun r _ => acts_explainPolicy
  | getAdmission id => exact acts_withPath fun id _ => acts_getAdmission
  | admitWorkflow id =>
    exact acts_withPath fun id _ => acts_withBody fun r hr =>
      acts_ofAdmission (PolicyAdmission.acts_createAdmission (htrimmed (hread hr)))
  | reportUsage id => exact acts_withPath fun id _ => acts_withBody fun r hr => acts_reportUsage (htrimmed (hread hr))
  | completeAdmission id | cancelAdmission id =>
    refine acts_withPath fun workflowId hid => acts_withBody fun r _ => acts_ofAdmission ?_
    exact PolicyAdmission.acts_transition fun record hstored => h.requester record ⟨workflowId, hid, hstored⟩
  | createBlindCompetition =>
    refine acts_withBody fun r hr => acts_ofResult (BlindCompetition.acts_createBlindCompetition
      (htrimmed (hread hr)) ?_)
    exact fun plan hplan k hk => h.cast _ _ ⟨r, plan, hr, hplan, rfl, hk⟩
  | getBlindCompetition id => exact acts_withPath fun id _ => acts_ofResult (.refl s)
  | submitBlindCompetition id =>
    refine acts_withPath fun id _ => acts_withBody fun r _ => acts_ofResult ?_
    exact BlindCompetition.acts_submitBlindCompetition fun identity hidentity =>
      hactor (Option.mem_map_of_mem _ hidentity)
  | revealBlindCompetition id =>
    refine acts_withPath fun id _ => acts_ofResult ?_
    exact BlindCompetition.acts_revealBlindCompetition fun identity hidentity =>
      hactor (Option.mem_map_of_mem _ hidentity)

end Endpoints
end Http

namespace LeaseDescriptors
open Http
variable {env : Env} {s : AppState} {P : Effect → Prop} {d : AuthoritativeLeaseDescriptor}

def CompatibilityRoute.actor (body : Option Json) : CompatibilityRoute → Option Text
  | .acquire => (body.bind AcquireCompatibleFileLeaseReq.read).map AcquireCompatibleFileLeaseReq.agentKey
  | .renew _ => (body.bind MutateFileLeaseReq.read).map MutateFileLeaseReq.agentKey
  | .release _ => (body.bind ReleaseFileLeaseReq.read).map ReleaseFileLeaseReq.agentKey

theorem acts_persistDescriptor (hn : Entrusts P d.agentKey) : Acts env.now P s (persistDescriptor s env.now d).2 := by
  refine .setContextInternal (hn.entry _ _) ?_
  rintro author ⟨⟩
  exact hn.record _ _

theorem acts_storeDescriptor (hn : Entrusts P d.agentKey) :
    Acts env.now P s (storeDescriptor s env.surroundings env.now d).2 := by
  have hcreated : Acts env.now P s
      (s.createOrGetChannel env.surroundings env.now registryChannel registryTopic d.agentKey).2 :=
    .createOrGetChannel (hn.channel _)
  unfold storeDescriptor
  rcases hcreate : s.createOrGetChannel env.surroundings env.now registryChannel registryTopic d.agentKey
    with ⟨e | channel, s₁⟩
  · rwa [hcreate] at hcreated
  · rw [hcreate] at hcreated
    dsimp only
    split
    · exact hcreated
    · exact hcreated
    · exact hcreated.trans (acts_persistDescriptor hn)

theorem acquireChecks_agentKey {body : Option Json} {a : Acquisition} (h : acquireChecks s body = .ok a) :
    ∃ n ∈ CompatibilityRoute.acquire.actor body, a.agentKey = Text.trim n := by
  unfold acquireChecks at h
  cases hread : body.bind AcquireCompatibleFileLeaseReq.read with
  | none =>
    rw [hread] at h
    cases h
  | some req =>
    rw [hread] at h
    dsimp only at h
    split_ifs at h
    obtain ⟨repository, -, h⟩ := Except.bind_eq_ok.mp h
    obtain ⟨path, -, h⟩ := Except.bind_eq_ok.mp h
    obtain ⟨ttlMs, -, h⟩ := Except.bind_eq_ok.mp h
    cases h
    refine ⟨req.agentKey, ?_, rfl⟩
    rw [CompatibilityRoute.actor, hread]
    rfl

theorem validateOwnerAndFence_agentKey {agentKey : Text} {fencingToken : Nat} {u : Unit}
    (h : validateOwnerAndFence d agentKey fencingToken = .ok u) : d.agentKey = Text.trim agentKey := by
  unfold validateOwnerAndFence at h
  split_ifs at h with howner
  exact not_not.mp howner

theorem renewChecks_agentKey {leaseId : Text} {body : Option Json} {ttlMs : Nat}
    (h : renewChecks env s leaseId body = .ok (d, ttlMs)) :
    ∃ n ∈ (CompatibilityRoute.renew leaseId).actor body, d.agentKey = Text.trim n := by
  unfold renewChecks at h
  cases hread : body.bind MutateFileLeaseReq.read with
  | none =>
    rw [hread] at h
    cases h
  | some req =>
    rw [hread] at h
    obtain ⟨ttl, -, h⟩ := Except.bind_eq_ok.mp h
    obtain ⟨found, -, h⟩ := Except.bind_eq_ok.mp h
    obtain ⟨_, hvalid, h⟩ := Except.bind_eq_ok.mp h
    cases h
    refine ⟨req.agentKey, ?_, validateOwnerAndFence_agentKey hvalid⟩
    rw [CompatibilityRoute.actor, hread]
    rfl

theorem releaseChecks_agentKey {leaseId : Text} {body : Option Json} (h : releaseChecks env s leaseId body = .ok d) :
    ∃ n ∈ (CompatibilityRoute.release leaseId).actor body, d.agentKey = Text.trim n := by
  unfold releaseChecks at h
  cases hread : body.bind ReleaseFileLeaseReq.read with
  | none =>
    rw [hread] at h
    cases h
  | some req =>
    rw [hread] at h
    obtain ⟨found, -, h⟩ := Except.bind_eq_ok.mp h
    obtain ⟨_, hvalid, h⟩ := Except.bind_eq_ok.mp h
    cases h
    refine ⟨req.agentKey, ?_, validateOwnerAndFence_agentKey hvalid⟩
    rw [CompatibilityRoute.actor, hread]
    rfl

theorem serveRoute_acts {route : CompatibilityRoute} {body : Body}
    (h : ∀ n ∈ route.actor body.document, Entrusts P (Text.trim n)) :
    Acts env.now P s (serveRoute env body s route).state := by
  -- a route changes the state only where it stores a descriptor, and that names the agent of the body
  cases route with
  | acquire =>
    simp only [serveRoute]
    unfold acquire
    cases hchecks : acquireChecks s body.document with
    | error e => exact .refl s
    | ok a =>
      obtain ⟨n, hn, hkey⟩ := acquireChecks_agentKey hchecks
      dsimp only
      cases env.controlPlane a.call with
      | error e => exact .refl s
      | ok response =>
        dsimp only
        by_cases hsuccess : (!controlPlaneSuccess response.status) = true
        · rw [if_pos hsuccess]
          exact .refl s
        · rw [if_neg hsuccess]
          cases acquiredToken response.body with
          | error e => exact .refl s
          | ok token =>
            have hnamed : Entrusts P (newDescriptor env a token response).agentKey := by
              rw [newDescriptor, hkey]
              exact h n hn
            have hstored := @acts_storeDescriptor env s P _ hnamed
            dsimp only
            rcases hstore : storeDescriptor s env.surroundings env.now (newDescriptor env a token response)
              with ⟨e | entry, s₁⟩
            · rwa [hstore] at hstored
            · rwa [hstore] at hstored
  | renew leaseId =>
    simp only [serveRoute]
    unfold renew
    cases hchecks : renewChecks env s leaseId body.document with
    | error e => exact .refl s
    | ok checked =>
      obtain ⟨d, ttlMs⟩ := checked
      obtain ⟨n, hn, hkey⟩ := renewChecks_agentKey hchecks
      have hnamed : Entrusts P d.agentKey := by
        rw [hkey]
        exact h n hn
      dsimp only
      cases env.controlPlane (.renew d.repository d.paths d.agentKey d.fencingToken ttlMs) with
      | error e => exact .refl s
      | ok response =>
        dsimp only
        by_cases hsuccess : (!controlPlaneSuccess response.status) = true
        · rw [if_pos hsuccess]
          exact .refl s
        rw [if_neg hsuccess]
        by_cases hconfirmed : (!confirmsRenewal response.body d.fencingToken) = true
        · rw [if_pos hconfirmed]
          exact .refl s
        rw [if_neg hconfirmed]
        have hstored := @acts_persistDescriptor env s P { d with
          ttlMs := ttlMs, expiresAt := expiryFromResponse env response.body ttlMs } hnamed
        rcases hstore : persistDescriptor s env.now { d with
          ttlMs := ttlMs, expiresAt := expiryFromResponse env response.body ttlMs } with ⟨e | entry, s₁⟩
        · rwa [hstore] at hstored
        · rwa [hstore] at hstored
  | release leaseId =>
    simp only [serveRoute]
    unfold release
    cases hchecks : releaseChecks env s leaseId body.document with
    | error e => exact .refl s
    | ok d =>
      obtain ⟨n, hn, hkey⟩ := releaseChecks_agentKey hchecks
      have hnamed : Entrusts P d.agentKey := by
        rw [hkey]
        exact h n hn
      dsimp only
      cases env.controlPlane (.release d.agentKey d.fencingToken) with
      | error e => exact .refl s
      | ok response =>
        dsimp only
        by_cases hsuccess : (!controlPlaneSuccess response.status) = true
        · rw [if_pos hsuccess]
          exact .refl s
        rw [if_neg hsuccess]
        have hstored := @acts_persistDescriptor env s P { d with
          status := .released, releasedAt := some env.now.ts, expiresAt := env.now.ts } hnamed
        rcases hstore : persistDescriptor s env.now { d with
          status := .released, releasedAt := some env.now.ts, expiresAt := env.now.ts } with ⟨e | entry, s₁⟩
        · rwa [hstore] at hstored
        · rwa [hstore] at hstored

end LeaseDescriptors

namespace Http
variable {d : Deployment} {env : Env} {req : Request} {s : AppState} {P : Effect → Prop} {next : Service}

theorem renewal_acts (hnext : Acts env.now P s (next req s).state) :
    Acts env.now P s (LeaseRenewal.intercept env next req s).state := by
  unfold LeaseRenewal.intercept
  split_ifs
  · exact hnext
  · exact .refl s
  · exact hnext
  · unfold LeaseRenewal.renew
    by_cases hlength : req.body.length > s.config.maxHttpBodyBytes
    · rw [if_pos hlength]
      exact .refl s
    rw [if_neg hlength]
    cases LeaseRenewal.renewalChecks s req.body.document with
    | error e => exact .refl s
    | ok call =>
      dsimp only
      cases env.controlPlane call <;> exact .refl s

theorem afterRenewal_acts {call : ControlPlaneCall} {token : Nat} {response : BridgeResult ControlPlaneResponse}
    (hnext : Acts env.now P s (next req s).state) :
    Acts env.now P s (AssignmentClaims.afterRenewal next req s call token response).state := by
  unfold AssignmentClaims.afterRenewal
  cases response with
  | error e => exact .refl s
  | ok response =>
    dsimp only
    split_ifs
    · exact .refl s
    · exact .refl s
    · exact hnext

theorem claims_acts {policy : AssignmentClaimPolicy} (hnext : Acts env.now P s (next req s).state) :
    Acts env.now P s (AssignmentClaims.enforce policy env next req s).state := by
  unfold AssignmentClaims.enforce
  cases AssignmentClaims.submissionWorkflowId req.method req.path with
  | none => exact hnext
  | some workflowId =>
    dsimp only
    by_cases hlength : req.body.length > s.config.maxHttpBodyBytes
    · rw [if_pos hlength]
      exact .refl s
    rw [if_neg hlength]
    cases req.body.document.bind SubmissionEnvelope.read with
    | none => exact .refl s
    | some submission =>
      dsimp only
      cases submission.metadata.get "assignment_claim".toList with
      | none =>
        dsimp only
        split_ifs
        · exact .refl s
        · exact hnext
      | some claimValue =>
        dsimp only
        cases AssignmentClaims.claimChecks policy s workflowId submission.agentKey claimValue with
        | error reply => exact .refl s
        | ok checked => exact afterRenewal_acts hnext

theorem routers_acts
    (h : ∀ r e, routeOf req.path = some r → r.endpoint req.method = some e → e.Allows env req s P) :
    Acts env.now P s (routers env req s).state := by
  unfold routers
  cases hroute : routeOf req.path with
  | none => exact .refl s
  | some r =>
    dsimp only
    split_ifs
    · exact .refl s
    · cases hendpoint : r.endpoint req.method with
      | none => exact .refl s
      | some e => exact e.handle_acts (h r e hroute hendpoint)

theorem inner_acts
    (hroute : req.method = .post → ∀ route, LeaseDescriptors.compatibilityRoute req.path = some route →
      ∀ n ∈ route.actor req.body.document, Entrusts P (Text.trim n))
    (h : ∀ r e, routeOf req.path = some r → r.endpoint req.method = some e → e.Allows env req s P) :
    Acts env.now P s (inner d env req s).state := by
  have hpassed : Acts env.now P s (LeaseRenewal.intercept env
    (AssignmentClaims.enforce d.claims env (routers env)) req s).state :=
    renewal_acts (claims_acts (routers_acts h))
  unfold inner LeaseDescriptors.intercept
  by_cases hpass : (decide (req.method ≠ .post) || !s.config.controlPlane) = true
  · rw [if_pos hpass]
    exact hpassed
  · rw [if_neg hpass]
    have hpost : req.method = .post := by
      by_contra hne
      exact hpass (by simp [hne])
    cases hfound : LeaseDescriptors.compatibilityRoute req.path with
    | none => exact hpassed
    | some route =>
      dsimp only
      by_cases hlength : req.body.length > s.config.maxHttpBodyBytes
      · rw [if_pos hlength]
        exact .refl s
      · rw [if_neg hlength]
        exact LeaseDescriptors.serveRoute_acts (hroute hpost route hfound)

end Http
end AgentBridge
