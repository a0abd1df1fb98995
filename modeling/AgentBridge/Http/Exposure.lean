import AgentBridge.Http.Guards
import AgentBridge.Admission.Ledger

/-! The unguarded requests: for each a server on which an anonymous one takes effect. -/

namespace AgentBridge.Http
open Orchestration

/-- A server with a bearer and without scoped credentials. -/
def bearerDeployment (controlPlane : Bool) (limit : Nat) : Deployment where
  config := { Config.inMemory with
    apiAuthBearer := some "operator".toList
    controlPlane := controlPlane
    maxContentBytes := limit
    maxHttpBodyBytes := limit }
  security := {
    globalBearer := some "operator".toList
    credentials := []
    maxBodyBytes := max limit 1
    distinct := WorkflowSecurity.distinct_nil }
  claims := { required := false, repository := "acme/app".toList, maxTtlMs := 60000 }
  bearer := rfl
  bodyLimit := rfl
  claimsBacked := nofun

/-- The first second of the epoch, with a control plane out of reach. -/
def offlineEnv : Env where
  now := ⟨0, 0⟩
  newId := fun n => "id".toList ++ Text.decimal n
  surroundings := asciiSurroundings
  controlPlane := fun _ => .error (.controlPlane "connection refused".toList)
  parseRfc3339 := fun _ => some 1000
  parseF32 := fun _ => 0
  iso8601Secs := "1970-01-01T00:00:00Z".toList
  inboxWritable := true

/-- A post without an `Authorization` header. -/
def anonymousPost (path : Text) (fields : List (Text × Json)) : HttpRequest where
  method := .post
  path := path
  query := []
  authorization := none
  jsonContentType := true
  body := { length := (Json.obj fields).bytes, json := some (.obj fields) }

/-- On this path some anonymous post to a server with a bearer has an effect. -/
def Exposed (controlPlane : Bool) (path : Text) : Prop :=
  ∃ d env req s, d.config.apiAuthBearer.isSome = true ∧ d.security.scopedMode = false ∧
    d.config.controlPlane = controlPlane ∧ s.config = d.config ∧ req.method = .post ∧ req.path = path ∧
    Anonymous d req ∧ ¬ (serve d env req s).Silent s

section Peel
variable {controlPlane : Bool} {limit : Nat} {path : Text} {fields : List (Text × Json)} {s : AppState}

theorem anonymous_anonymousPost (d : Deployment) : Anonymous d (anonymousPost path fields) := by
  constructor
  · intro bearer _ h
    cases h
  · intro _ token h
    cases h
  · intro _ _ token _ h
    cases h

@[simp] theorem document_anonymousPost : (anonymousPost path fields).body.document = some (.obj fields) := by
  have hpos : (Json.obj fields).bytes ≠ 0 := by
    rw [Json.bytes]
    omega
  exact if_neg hpos

theorem exposed_of_inner (limit : Nat) (fields : List (Text × Json)) (hlimit : (Json.obj fields).bytes ≤ limit)
    (hkey : (Json.obj fields).get "key".toList = none)
    (hconfig : s.config = (bearerDeployment controlPlane limit).config)
    (h : ¬ (inner (bearerDeployment controlPlane limit) offlineEnv
      { anonymousPost path fields with adapter := none } s).Silent s) : Exposed controlPlane path := by
  refine ⟨bearerDeployment controlPlane limit, offlineEnv, anonymousPost path fields, s, rfl, rfl, rfl,
    hconfig, rfl, rfl, anonymous_anonymousPost _, ?_⟩
  have hlength : ¬ (anonymousPost path fields).body.length >
      (bearerDeployment controlPlane limit).security.maxBodyBytes := by
    change ¬ (Json.obj fields).bytes > max limit 1
    omega
  have hreserved : WorkflowSecurity.containsReservedContextKey
      (anonymousPost path fields).body.document = false := by
    rw [document_anonymousPost, WorkflowSecurity.containsReservedContextKey, Option.bind_some, hkey]
    rfl
  unfold serve WorkflowSecurity.enforce
  dsimp only
  rw [if_neg hlength, hreserved, Bool.and_false]
  exact h

end Peel

section Server
variable {config : Config} {slug key : Text} {value : ContextValue}

def ada : Agent where
  agentKey := "ada".toList
  displayName := "Ada".toList
  kind := .human
  host := none
  metadata := .null
  registeredAt := []

/-- A server that knows `ada`. -/
def adaState (config : Config) : AppState :=
  { AppState.new config with agents := Table.empty.insert "ada".toList ada }

def firstEntry (key : Text) (value : ContextValue) : ContextEntry where
  key := key
  value := value
  version := 1
  updatedBy := "ada".toList
  updatedAt := []

def recordRoom (config : Config) (slug key : Text) (value : ContextValue) : ChannelState :=
  ((adaState config).newChannel ⟨0, 0⟩ slug "topic".toList "ada".toList [] []).putContext
    (firstEntry key value)

def recordState (config : Config) (slug key : Text) (value : ContextValue) : AppState :=
  (adaState config).setChannel slug (recordRoom config slug key value)

theorem get_recordRoom (k : Text) : (recordRoom config slug key value).context.get k =
    if k = key then some (firstEntry key value) else none := by
  unfold recordRoom ChannelState.putContext firstEntry
  rw [Table.get_insert]
  rfl

theorem channel_recordState : (recordState config slug key value).channels.get slug =
    some (recordRoom config slug key value) := Table.get_insert_self _ _ _

theorem getContextKey_recordState (config : Config) (slug key : Text) (value : ContextValue) (k : Text) :
    (recordState config slug key value).getContextKeyInternal slug k =
      .ok (if k = key then some (firstEntry key value) else none) := by
  rw [AppState.getContextKeyInternal, channel_recordState]
  dsimp only
  rw [get_recordRoom]

end Server

section Leases
variable {path leaseId : Text}

theorem exposed_of_route (fields : List (Text × Json)) {route : LeaseDescriptors.CompatibilityRoute}
    {s : AppState} (hroute : LeaseDescriptors.compatibilityRoute path = some route)
    (hlimit : (Json.obj fields).bytes ≤ 2097152) (hkey : (Json.obj fields).get "key".toList = none)
    (hconfig : s.config = (bearerDeployment true 2097152).config)
    (hcalls : (LeaseDescriptors.serveRoute offlineEnv (anonymousPost path fields).body s route).calls ≠ []) :
    Exposed true path := by
  apply exposed_of_inner _ _ hlimit hkey hconfig
  intro h
  apply hcalls
  have hpass : ¬ (decide ((anonymousPost path fields).method ≠ .post) || !s.config.controlPlane) = true := by
    rw [hconfig]
    exact Bool.false_ne_true
  have hlength : ¬ (anonymousPost path fields).body.length > s.config.maxHttpBodyBytes := by
    rw [hconfig]
    exact Nat.not_lt.mpr hlimit
  have hserved := h.2
  unfold inner LeaseDescriptors.intercept at hserved
  have hroute' : LeaseDescriptors.compatibilityRoute (anonymousPost path fields).path = some route := hroute
  rw [if_neg hpass, hroute'] at hserved
  dsimp only at hserved
  rw [if_neg hlength] at hserved
  exact hserved

def acquireFields : List (Text × Json) :=
  [("repository".toList, .str "acme/app".toList), ("path".toList, .str "src/lib.rs".toList),
    ("agent_key".toList, .str "ada".toList)]

theorem exposed_acquire (hroute : LeaseDescriptors.compatibilityRoute path = some .acquire) :
    Exposed true path := by
  apply exposed_of_route acquireFields (s := adaState (bearerDeployment true 2097152).config)
    hroute (by decide +kernel) rfl rfl
  have hcalls : (LeaseDescriptors.serveRoute offlineEnv (anonymousPost [] acquireFields).body
      (adaState (bearerDeployment true 2097152).config) .acquire).calls ≠ [] := by decide +kernel
  exact hcalls

/-- A lease `ada` holds. -/
def heldLease (leaseId : Text) : AuthoritativeLeaseDescriptor where
  version := 1
  leaseId := leaseId
  repository := "acme/app".toList
  paths := ["src/lib.rs".toList]
  agentKey := "ada".toList
  fencingToken := 7
  ttlMs := 1000
  acquiredAt := "1970-01-01T00:00:00.000Z".toList
  expiresAt := "1970-01-01T00:00:01.000Z".toList
  status := .active
  releasedAt := none

def leaseState (leaseId : Text) : AppState :=
  recordState (bearerDeployment true 2097152).config LeaseDescriptors.registryChannel
    (LeaseDescriptors.descriptorKey leaseId) (.leaseDescriptor (heldLease leaseId))

theorem loadActiveDescriptor_leaseState :
    LeaseDescriptors.loadActiveDescriptor offlineEnv (leaseState leaseId) leaseId = .ok (heldLease leaseId) := by
  rw [LeaseDescriptors.loadActiveDescriptor, leaseState, getContextKey_recordState, if_pos rfl]
  rfl

def mutateFields : List (Text × Json) :=
  [("agent_key".toList, .str "ada".toList), ("fencing_token".toList, .nat 7)]

theorem exposed_renew (hroute : LeaseDescriptors.compatibilityRoute path = some (.renew leaseId)) :
    Exposed true path := by
  apply exposed_of_route mutateFields (s := leaseState leaseId) hroute (by decide +kernel) rfl rfl
  have hread : MutateFileLeaseReq.read (.obj mutateFields) =
      some { agentKey := "ada".toList, fencingToken := 7, ttlMs := 30000 } := rfl
  have hchecks : LeaseDescriptors.renewChecks offlineEnv (leaseState leaseId) leaseId
      (anonymousPost path mutateFields).body.document = .ok (heldLease leaseId, 30000) := by
    rw [document_anonymousPost, LeaseDescriptors.renewChecks, Option.bind_some, hread]
    dsimp only
    rw [loadActiveDescriptor_leaseState]
    rfl
  rw [LeaseDescriptors.serveRoute, LeaseDescriptors.renew, hchecks]
  exact List.cons_ne_nil _ _

theorem exposed_release (hroute : LeaseDescriptors.compatibilityRoute path = some (.release leaseId)) :
    Exposed true path := by
  apply exposed_of_route mutateFields (s := leaseState leaseId) hroute (by decide +kernel) rfl rfl
  have hread : ReleaseFileLeaseReq.read (.obj mutateFields) =
      some { agentKey := "ada".toList, fencingToken := 7 } := rfl
  have hchecks : LeaseDescriptors.releaseChecks offlineEnv (leaseState leaseId) leaseId
      (anonymousPost path mutateFields).body.document = .ok (heldLease leaseId) := by
    rw [document_anonymousPost, LeaseDescriptors.releaseChecks, Option.bind_some, hread]
    dsimp only
    rw [loadActiveDescriptor_leaseState]
    rfl
  rw [LeaseDescriptors.serveRoute, LeaseDescriptors.release, hchecks]
  exact List.cons_ne_nil _ _

theorem exposed_of_compatibilityRoute (h : (LeaseDescriptors.compatibilityRoute path).isSome = true) :
    Exposed true path := by
  obtain ⟨route, hroute⟩ := Option.isSome_iff_exists.mp h
  cases route with
  | acquire => exact exposed_acquire hroute
  | renew leaseId => exact exposed_renew hroute
  | release leaseId => exact exposed_release hroute

/-- The body of a canonical renewal. -/
def renewalFields : List (Text × Json) :=
  [("repository".toList, .str "acme/app".toList), ("paths".toList, .texts ["src/lib.rs".toList]),
    ("agent_key".toList, .str "ada".toList), ("fencing_token".toList, .nat 7)]

theorem exposed_canonical : Exposed true LeaseRenewal.canonicalPath := by
  apply exposed_of_inner 2097152 renewalFields
    (s := adaState (bearerDeployment true 2097152).config) (by decide +kernel) rfl rfl
  intro h
  have hcalls : (inner (bearerDeployment true 2097152) offlineEnv
      { anonymousPost LeaseRenewal.canonicalPath renewalFields with adapter := none }
      (adaState (bearerDeployment true 2097152).config)).calls ≠ [] := by decide +kernel
  exact hcalls h.2

end Leases

section Submissions
variable {path workflowId : Text}

def adaPlan (workflowId : Text) : WorkflowPlan where
  version := 1
  id := workflowId
  channel := "workflow-".toList ++ workflowId
  title := "title".toList
  prompt := "prompt".toList
  mode := .single
  createdBy := "ada".toList
  createdAt := "1970-01-01T00:00:00.000Z".toList
  assignments := [{ ordinal := 0, agentKey := "ada".toList, role := .worker, phase := 0 }]
  fileLease := none
  requiredCapabilities := []
  metadata := .null

def claimFields (workflowId : Text) : List (Text × Json) :=
  [("assignment_ordinal".toList, .nat 0), ("fencing_token".toList, .nat 7),
    ("instance_id".toList, .str "one".toList), ("owner".toList, .str "runner/one".toList),
    ("paths".toList, .texts [AssignmentClaims.claimPath workflowId 0]),
    ("repository".toList, .str "acme/app".toList), ("ttl_ms".toList, .nat 1000)]

def submissionFields (workflowId : Text) : List (Text × Json) :=
  [("agent_key".toList, .str "ada".toList), ("content".toList, .str "done".toList),
    ("meta".toList, .obj [("assignment_claim".toList, .obj (claimFields workflowId))])]

def adaClaim (workflowId : Text) : AssignmentClaim where
  repository := "acme/app".toList
  paths := [AssignmentClaims.claimPath workflowId 0]
  owner := "runner/one".toList
  fencingToken := 7
  ttlMs := 1000
  assignmentOrdinal := 0
  instanceId := "one".toList

theorem read_submissionFields : SubmissionEnvelope.read (.obj (submissionFields workflowId)) =
    some { agentKey := "ada".toList,
           metadata := .obj [("assignment_claim".toList, .obj (claimFields workflowId))] } := rfl

theorem read_claimFields : AssignmentClaim.read (.obj (claimFields workflowId)) = some (adaClaim workflowId) := rfl

def planState (config : Config) (workflowId : Text) : AppState :=
  recordState config ("workflow-".toList ++ workflowId) AssignmentClaims.planContextKey
    (.workflowPlan (adaPlan workflowId))

theorem loadPlan_planState {config : Config} :
    AssignmentClaims.loadPlan (planState config workflowId) workflowId = .ok (adaPlan workflowId) := by
  rw [AssignmentClaims.loadPlan, planState, getContextKey_recordState, if_pos rfl]
  rfl

theorem exposed_submission (hroute : LeaseDescriptors.compatibilityRoute path = none)
    (hcanonical : path ≠ LeaseRenewal.canonicalPath)
    (hsubmission : AssignmentClaims.submissionWorkflowId .post path = some workflowId) : Exposed true path := by
  let limit := (Json.obj (submissionFields workflowId)).bytes
  let d := bearerDeployment true limit
  let s := planState d.config workflowId
  let req : Request := { anonymousPost path (submissionFields workflowId) with adapter := none }
  apply exposed_of_inner limit _ (Nat.le_refl limit) (s := s) rfl rfl
  -- a claim that passes every check short of the control plane
  have hmatches : AssignmentClaims.claimMatches d.claims (adaClaim workflowId) workflowId 0 = true := by
    have hpaths : decide ((adaClaim workflowId).paths = [AssignmentClaims.claimPath workflowId 0]) = true :=
      decide_eq_true rfl
    rw [AssignmentClaims.claimMatches, hpaths]
    rfl
  have hchecks : AssignmentClaims.claimChecks d.claims s workflowId "ada".toList (.obj (claimFields workflowId)) =
      .ok (AssignmentClaims.renewal d.claims (adaClaim workflowId) workflowId 0, 7) := by
    have hplane : s.config.controlPlane = true := rfl
    have hfind : (adaPlan workflowId).assignments.find? (fun a => a.agentKey = Text.trim "ada".toList) =
        some { ordinal := 0, agentKey := "ada".toList, role := .worker, phase := 0 } := rfl
    rw [AssignmentClaims.claimChecks, read_claimFields, loadPlan_planState]
    dsimp only
    rw [hplane, hfind]
    dsimp only
    rw [hmatches]
    rfl
  have henforce : AssignmentClaims.enforce d.claims offlineEnv (routers offlineEnv) req s =
      AssignmentClaims.afterRenewal (routers offlineEnv) req s
        (AssignmentClaims.renewal d.claims (adaClaim workflowId) workflowId 0) 7
        (.error (.controlPlane "connection refused".toList)) := by
    have hlength : ¬ req.body.length > s.config.maxHttpBodyBytes := Nat.lt_irrefl limit
    have hdocument : req.body.document = some (.obj (submissionFields workflowId)) := document_anonymousPost
    have hid : AssignmentClaims.submissionWorkflowId req.method req.path = some workflowId := hsubmission
    have hclaim : (Json.obj [("assignment_claim".toList, .obj (claimFields workflowId))]).get
        "assignment_claim".toList = some (.obj (claimFields workflowId)) := rfl
    unfold AssignmentClaims.enforce
    rw [hid]
    dsimp only
    rw [if_neg hlength, hdocument, Option.bind_some, read_submissionFields]
    dsimp only
    rw [hclaim]
    dsimp only
    rw [hchecks]
    rfl
  intro h
  have hcalls := h.2
  rw [inner_of_notLease (fun _ => hroute) hcanonical, henforce] at hcalls
  cases hcalls

end Submissions

section Admissions
variable {path workflowId : Text} {controlPlane : Bool} {limit : Nat} {e : Endpoint}
open PolicyAdmission

theorem exposed_of_handle (limit : Nat) (fields : List (Text × Json)) {r : MethodRouter} {s : AppState}
    (hopens : opensAdmission path = true) (hroute : routeOf path = some r) (hpost : r.post = some e)
    (hwrite : e.admissionWrite ≠ none) (hlimit : (Json.obj fields).bytes ≤ limit)
    (hkey : (Json.obj fields).get "key".toList = none)
    (hconfig : s.config = (bearerDeployment controlPlane limit).config)
    (h : (e.handle offlineEnv { anonymousPost path fields with adapter := none } s).state ≠ s) :
    Exposed controlPlane path := by
  apply exposed_of_inner _ _ hlimit hkey hconfig
  intro hsilent
  apply h
  have hcanonical : path ≠ LeaseRenewal.canonicalPath := by
    rintro rfl
    exact absurd hopens (by decide +kernel)
  have hopen : r.authenticated = false := by
    rw [← authenticated_of_endpoint (m := .post) hroute hpost]
    cases e <;> first | rfl | exact absurd rfl hwrite
  have hstate := hsilent.1
  rw [inner_of_notLease (fun _ => compatibilityRoute_of_opensAdmission hopens) hcanonical] at hstate
  unfold AssignmentClaims.enforce at hstate
  have hsubmission := submissionWorkflowId_of_opensAdmission hopens .post
  have hroute' : routeOf (anonymousPost path fields).path = some r := hroute
  have hpost' : r.endpoint (anonymousPost path fields).method = some e := hpost
  rw [show AssignmentClaims.submissionWorkflowId (anonymousPost path fields).method
    (anonymousPost path fields).path = none from hsubmission] at hstate
  dsimp only at hstate
  unfold routers at hstate
  rw [hroute'] at hstate
  dsimp only at hstate
  rw [hopen, hpost'] at hstate
  exact hstate

theorem persisted_ne (record : AdmissionRecord) {config : Config} {now : Now} {key : Text}
    {value : ContextValue} (hlimit : record.toJson.bytes ≤ config.maxContentBytes) :
    (persisted (recordState config (channelOf record.workflowId) key value) now record).2 ≠
      recordState config (channelOf record.workflowId) key value := by
  have hroom : (recordRoom config (channelOf record.workflowId) key value).context.size < State.maxContextKeys := by
    change 1 < 10000
    omega
  have hversion (stored : ContextEntry) (h : (recordRoom config (channelOf record.workflowId) key value).context.get
      (Text.trim admissionContextKey) = some stored) : stored.version < u32Max := by
    rw [get_recordRoom] at h
    split_ifs at h
    cases h
    change 1 < 2 ^ 32 - 1
    omega
  have hvalue : (ContextValue.admission record).toJson.bytes ≤
      (recordState config (channelOf record.workflowId) key value).config.maxContentBytes := hlimit
  unfold persisted persistAdmission
  rw [setContextInternal_ok channel_recordState (by decide) (by decide) hvalue (.inr hroom)]
  exact putContext_ne channel_recordState hversion

def admitFields : List (Text × Json) :=
  [("requested_by".toList, .str "ada".toList),
    ("policy_request".toList, .obj [("requested_mode".toList, .str "single".toList),
      ("providers".toList, .arr [.obj [("agent_key".toList, .str "ada".toList),
        ("kind".toList, .str "other".toList), ("model".toList, .str "m".toList)]])])]

def adaRequest : PolicyRequest where
  taskRisk := .low
  dataSensitivity := .internal
  requestedMode := some .single
  requestedProtocol := none
  requestedDegradation := none
  requiredAgentKeys := []
  requiredReviewerAgentKey := none
  requiredCapabilities := []
  requiresRepositoryWrite := false
  expectedDurationMs := 0
  requestedBudget := {}
  providers := [Policy.plainProvider "ada".toList]

def adaAdmit : AdmitReq where
  requestedBy := "ada".toList
  approvedBy := none
  overrideReason := none
  policyRequest := adaRequest

theorem read_admitFields : AdmitReq.read (.obj admitFields) = some adaAdmit := rfl

def adaAdmission (decision : PolicyDecision) (workflowId : Text) : AdmissionRecord where
  version := 1
  workflowId := workflowId
  requestedBy := "ada".toList
  approvedBy := none
  overrideReason := none
  policy := policySnapshot decision
  status := .active
  usage := {}
  createdAt := offlineEnv.now.ts
  updatedAt := offlineEnv.now.ts
  terminalReason := none
  lastRejectedDelta := none

/-- What the admission handlers ask of the decision. -/
structure AdaDecision (decision : PolicyDecision) : Prop where
  evaluated : Policy.evaluate adaRequest = .ok decision
  checks : decisionChecks (adaPlan []) decision = .ok ()
  approval : approvalCheck decision none = .ok ()
  selected : (selectedAgents decision).keys.contains "ada".toList = true

theorem exists_adaDecision : ∃ decision, AdaDecision decision := by
  have h : (Policy.evaluate adaRequest).toOption.map (fun decision =>
      ((decisionChecks (adaPlan []) decision).toOption.isSome, (approvalCheck decision none).toOption.isSome,
        (selectedAgents decision).keys.contains "ada".toList)) = some (true, true, true) := by decide +kernel
  obtain ⟨decision, hevaluated, hfacts⟩ := Except.toOption_map_eq_some.mp h
  obtain ⟨hchecks, happroval, hselected⟩ : (decisionChecks (adaPlan []) decision).toOption.isSome = true ∧
      (approvalCheck decision none).toOption.isSome = true ∧
      (selectedAgents decision).keys.contains "ada".toList = true := by
    simpa only [Prod.mk.injEq] using hfacts
  have hok {r : AdmissionResult Unit} (hr : r.toOption.isSome = true) : r = .ok () := by
    obtain ⟨_, hr⟩ := Except.isSome_toOption.mp hr
    exact hr
  exact ⟨decision, hevaluated, hok hchecks, hok happroval, hselected⟩

variable {config : Config} {decision : PolicyDecision}

theorem newAdmission_planState (hd : AdaDecision decision) :
    newAdmission (planState config workflowId) offlineEnv.now workflowId adaAdmit =
      .ok (adaAdmission decision workflowId) := by
  have hload : PolicyAdmission.loadPlan (planState config workflowId) workflowId = .ok (adaPlan workflowId) :=
    loadPlan_planState
  have hrequest : validateRequestMatchesPlan (adaPlan workflowId) adaAdmit.policyRequest = .ok () := rfl
  have hevaluate : evaluatePolicy adaAdmit.policyRequest = .ok decision := by
    have heval : Policy.evaluate adaAdmit.policyRequest = .ok decision := hd.evaluated
    rw [evaluatePolicy, heval]
    rfl
  have hchecks : decisionChecks (adaPlan workflowId) decision = .ok () := hd.checks
  have happroval : approvalCheck decision none = .ok () := hd.approval
  unfold newAdmission
  rw [hload]
  exact Except.bind_eq_ok.mpr ⟨_, rfl, Except.bind_eq_ok.mpr ⟨_, hrequest, Except.bind_eq_ok.mpr ⟨_, hevaluate,
    Except.bind_eq_ok.mpr ⟨_, hchecks, Except.bind_eq_ok.mpr ⟨_, rfl, Except.bind_eq_ok.mpr ⟨_, rfl,
      Except.bind_eq_ok.mpr ⟨_, happroval, rfl⟩⟩⟩⟩⟩⟩⟩

theorem createAdmission_planState (hd : AdaDecision decision) :
    (createAdmission (planState config workflowId) offlineEnv.now workflowId adaAdmit).2 =
      (persisted (planState config workflowId) offlineEnv.now (adaAdmission decision workflowId)).2 := by
  have hget : (planState config workflowId).getContextKeyInternal (channelOf workflowId) admissionContextKey =
      .ok none := by
    have hne : admissionContextKey ≠ AssignmentClaims.planContextKey := by decide
    have hroom := getContextKey_recordState config (channelOf workflowId) AssignmentClaims.planContextKey
      (.workflowPlan (adaPlan workflowId)) admissionContextKey
    rw [if_neg hne] at hroom
    exact hroom
  have hnone : loadAdmission (planState config workflowId) workflowId = .ok none := by
    rw [loadAdmission, hget]
    rfl
  rw [createAdmission, hnone]
  dsimp only
  rw [newAdmission_planState hd]

theorem persisted_planState_ne (record : AdmissionRecord) {now : Now}
    (hlimit : record.toJson.bytes ≤ config.maxContentBytes) :
    (persisted (planState config record.workflowId) now record).2 ≠ planState config record.workflowId :=
  persisted_ne record hlimit

theorem handled {α : Type} {id : Text} {fields : List (Text × Json)} {s : AppState} {read : Json → Option α}
    {run : Text → α → Outcome} {a : α} (hid : Url.percentDecode id = some workflowId)
    (hlength : (Json.obj fields).bytes ≤ limit) (hread : read (.obj fields) = some a) :
    (withPath s id fun id =>
      withBody { anonymousPost path fields with adapter := none } s limit read (run id)) = run workflowId a := by
  have hpass : ¬ (!(anonymousPost path fields).jsonContentType ||
      decide ((anonymousPost path fields).body.length > limit)) = true := by
    have hfalse : decide ((anonymousPost path fields).body.length > limit) = false :=
      decide_eq_false (Nat.not_lt.mpr hlength)
    rw [hfalse]
    exact Bool.false_ne_true
  rw [withPath, hid]
  dsimp only
  rw [withBody, if_neg hpass, document_anonymousPost, Option.bind_some, hread]

theorem exposed_admit (hopens : opensAdmission path = true) {r : MethodRouter} (hroute : routeOf path = some r)
    {id : Text} (hpost : r.post = some (.admitWorkflow id)) (hid : Url.percentDecode id = some workflowId) :
    Exposed controlPlane path := by
  obtain ⟨decision, hd⟩ := exists_adaDecision
  obtain ⟨limit, hsize, hrecord⟩ : ∃ limit, maxAdmissionBodyBytes ≤ limit ∧
      (adaAdmission decision workflowId).toJson.bytes ≤ limit := ⟨_, Nat.le_max_left _ _, Nat.le_max_right _ _⟩
  have hbody : (Json.obj admitFields).bytes ≤ maxAdmissionBodyBytes := by decide +kernel
  apply exposed_of_handle limit admitFields
    (s := planState (bearerDeployment controlPlane limit).config workflowId) hopens hroute hpost nofun
    (hbody.trans hsize) rfl rfl
  rw [Endpoint.handle, handled hid hbody read_admitFields]
  have hstate (r : AdmissionResult (AdmissionRecord × Bool) × AppState) :
      (Outcome.ofAdmission (fun p => .admission (some p.2) p.1) r).state = r.2 := by
    rcases r with ⟨_ | _, s⟩ <;> rfl
  rw [admitWorkflow, hstate, createAdmission_planState hd]
  exact persisted_planState_ne (adaAdmission decision workflowId) hrecord

/-- A server with an active admission. -/
def admittedState (config : Config) (record : AdmissionRecord) : AppState :=
  recordState config (channelOf record.workflowId) admissionContextKey (.admission record)

theorem loadAdmission_admittedState {record : AdmissionRecord} :
    loadAdmission (admittedState config record) record.workflowId = .ok (some record) := by
  have hget : (admittedState config record).getContextKeyInternal (channelOf record.workflowId)
      admissionContextKey = .ok (some (firstEntry admissionContextKey (.admission record))) := by
    have hroom := getContextKey_recordState config (channelOf record.workflowId) admissionContextKey
      (.admission record) admissionContextKey
    rw [if_pos rfl] at hroom
    exact hroom
  rw [loadAdmission, hget]
  rfl

theorem requireAdmission_admittedState {record : AdmissionRecord} {message : String} :
    requireAdmission (admittedState config record) record.workflowId message = .ok record := by
  rw [requireAdmission, loadAdmission_admittedState]

theorem recordUsage_admittedState (hd : AdaDecision decision) :
    (recordUsage (admittedState config (adaAdmission decision workflowId)) offlineEnv.now workflowId
      "ada".toList {}).2 = (persisted (admittedState config (adaAdmission decision workflowId)) offlineEnv.now
        (adaAdmission decision workflowId)).2 := by
  have hselected : selectedActorCheck (adaAdmission decision workflowId) "ada".toList = .ok () :=
    if_pos hd.selected
  have hchecks : (do
      let admission ← requireAdmission (admittedState config (adaAdmission decision workflowId)) workflowId
        "managed provider work requires an active admission"
      requireActive admission
      let updatedBy ← normalizeActor "ada".toList
      selectedActorCheck admission updatedBy
      return admission : AdmissionResult AdmissionRecord) = .ok (adaAdmission decision workflowId) :=
    Except.bind_eq_ok.mpr ⟨_, requireAdmission_admittedState, Except.bind_eq_ok.mpr ⟨_, rfl,
      Except.bind_eq_ok.mpr ⟨_, rfl, Except.bind_eq_ok.mpr ⟨_, hselected, rfl⟩⟩⟩⟩
  have htotals : attemptedTotals (adaAdmission decision workflowId).usage {} = some {} := rfl
  rw [recordUsage, hchecks]
  dsimp only
  rw [htotals]
  dsimp only
  rw [budgetViolation_zero]
  rfl

theorem transition_admittedState (status : AdmissionStatus) :
    (transition (admittedState config (adaAdmission decision workflowId)) offlineEnv.now workflowId
      "ada".toList status none).2 = (persisted (admittedState config (adaAdmission decision workflowId))
        offlineEnv.now { adaAdmission decision workflowId with status := status }).2 := by
  have hchecks : (do
      let admission ← requireAdmission (admittedState config (adaAdmission decision workflowId)) workflowId
        "workflow admission is missing"
      requireActive admission
      let actor ← normalizeActor "ada".toList
      authorizedActorCheck admission actor
      let terminalReason ← (none : Option Text).mapM normalizeReason
      return (admission, terminalReason) : AdmissionResult (AdmissionRecord × Option Text)) =
      .ok (adaAdmission decision workflowId, none) :=
    Except.bind_eq_ok.mpr ⟨_, requireAdmission_admittedState, Except.bind_eq_ok.mpr ⟨_, rfl,
      Except.bind_eq_ok.mpr ⟨_, rfl, Except.bind_eq_ok.mpr ⟨_, rfl, rfl⟩⟩⟩⟩
  rw [transition, hchecks]
  rfl

def usageFields : List (Text × Json) :=
  [("updated_by".toList, .str "ada".toList), ("provider_agent_key".toList, .str "ada".toList),
    ("delta".toList, .obj [])]

theorem exposed_usage (hopens : opensAdmission path = true) {r : MethodRouter} (hroute : routeOf path = some r)
    {id : Text} (hpost : r.post = some (.reportUsage id)) (hid : Url.percentDecode id = some workflowId) :
    Exposed controlPlane path := by
  obtain ⟨decision, hd⟩ := exists_adaDecision
  obtain ⟨limit, hsize, hrecord⟩ : ∃ limit, maxAdmissionBodyBytes ≤ limit ∧
      (adaAdmission decision workflowId).toJson.bytes ≤ limit := ⟨_, Nat.le_max_left _ _, Nat.le_max_right _ _⟩
  have hbody : (Json.obj usageFields).bytes ≤ maxAdmissionBodyBytes := by decide +kernel
  have hread : UsageReq.read (.obj usageFields) =
      some { updatedBy := "ada".toList, providerAgentKey := "ada".toList, delta := {} } := rfl
  apply exposed_of_handle limit usageFields
    (s := admittedState (bearerDeployment controlPlane limit).config (adaAdmission decision workflowId))
    hopens hroute hpost nofun (hbody.trans hsize) rfl rfl
  have hload : loadAdmission (admittedState (bearerDeployment controlPlane limit).config
      (adaAdmission decision workflowId)) workflowId = .ok (some (adaAdmission decision workflowId)) :=
    loadAdmission_admittedState
  have hstate (r : AdmissionResult AdmissionRecord × AppState) :
      (Outcome.ofAdmission (.admission none) r).state = r.2 := by
    rcases r with ⟨_ | _, s⟩ <;> rfl
  have howner : ¬ (adaAdmission decision workflowId).requestedBy ≠ Text.trim "ada".toList := not_not.mpr rfl
  rw [Endpoint.handle, handled hid hbody hread, reportUsage, hload]
  dsimp only
  rw [if_neg howner, hstate, recordUsage_admittedState hd]
  exact persisted_ne (adaAdmission decision workflowId) hrecord

def terminalFields : List (Text × Json) := [("updated_by".toList, .str "ada".toList)]

theorem exposed_terminal (status : AdmissionStatus) (hopens : opensAdmission path = true) {r : MethodRouter}
    (hroute : routeOf path = some r) {id : Text} (hpost : r.post = some e) (hwrite : e.admissionWrite ≠ none)
    (hid : Url.percentDecode id = some workflowId)
    (hhandle : ∀ req s, e.handle offlineEnv req s = withPath s id fun id =>
      withBody req s maxAdmissionBodyBytes TerminalReq.read (transitionAdmission offlineEnv s status id)) :
    Exposed controlPlane path := by
  obtain ⟨decision, hd⟩ := exists_adaDecision
  obtain ⟨limit, hsize, hrecord⟩ : ∃ limit, maxAdmissionBodyBytes ≤ limit ∧
      ({ adaAdmission decision workflowId with status := status } : AdmissionRecord).toJson.bytes ≤ limit :=
    ⟨_, Nat.le_max_left _ _, Nat.le_max_right _ _⟩
  have hbody : (Json.obj terminalFields).bytes ≤ maxAdmissionBodyBytes := by decide +kernel
  have hread : TerminalReq.read (.obj terminalFields) = some { updatedBy := "ada".toList, reason := none } := rfl
  have hstate (r : AdmissionResult AdmissionRecord × AppState) :
      (Outcome.ofAdmission (.admission none) r).state = r.2 := by
    rcases r with ⟨_ | _, s⟩ <;> rfl
  apply exposed_of_handle limit terminalFields
    (s := admittedState (bearerDeployment controlPlane limit).config (adaAdmission decision workflowId))
    hopens hroute hpost hwrite (hbody.trans hsize) rfl rfl
  rw [hhandle, handled hid hbody hread, transitionAdmission, hstate, transition_admittedState]
  exact persisted_ne { adaAdmission decision workflowId with status := status } hrecord

theorem exposed_of_opensAdmission (h : opensAdmission path = true) : Exposed controlPlane path := by
  obtain ⟨id, hid, hdecodes⟩ := (Option.any_eq_true _ _).mp h
  obtain ⟨e, he, hwrite⟩ := Option.bind_eq_some_iff.mp hid
  obtain ⟨r, hroute, hpost⟩ := Option.bind_eq_some_iff.mp he
  obtain ⟨workflowId, hdecode⟩ := Option.isSome_iff_exists.mp hdecodes
  cases e with
  | admitWorkflow id' =>
    cases hwrite
    exact exposed_admit h hroute hpost hdecode
  | reportUsage id' =>
    cases hwrite
    exact exposed_usage h hroute hpost hdecode
  | completeAdmission id' =>
    cases hwrite
    exact exposed_terminal .completed h hroute hpost nofun hdecode fun _ _ => rfl
  | cancelAdmission id' =>
    cases hwrite
    exact exposed_terminal .cancelled h hroute hpost nofun hdecode fun _ _ => rfl
  | _ => cases hwrite

end Admissions

theorem exposed_of_unguarded {controlPlane : Bool} {method : Method} {path : Text}
    (h : unguarded controlPlane method path = true) : method = .post ∧ Exposed controlPlane path := by
  obtain ⟨hpost, h⟩ := (Bool.and_eq_true_iff.mp h)
  have hpost : method = .post := of_decide_eq_true hpost
  refine ⟨hpost, ?_⟩
  rcases Bool.or_eq_true_iff.mp h with h | h
  · exact exposed_of_opensAdmission h
  · obtain ⟨hplane, h⟩ := Bool.and_eq_true_iff.mp h
    rw [hplane]
    cases hroute : LeaseDescriptors.compatibilityRoute path with
    | some route => exact exposed_of_compatibilityRoute (by rw [hroute]; rfl)
    | none =>
      rw [hroute, Option.isSome_none, Bool.false_or] at h
      by_cases hcanonical : path = LeaseRenewal.canonicalPath
      · rw [hcanonical]
        exact exposed_canonical
      · rw [decide_eq_false hcanonical, Bool.false_or] at h
        obtain ⟨workflowId, hsubmission⟩ := Option.isSome_iff_exists.mp h
        rw [hpost] at hsubmission
        exact exposed_submission hroute hcanonical hsubmission

end AgentBridge.Http
