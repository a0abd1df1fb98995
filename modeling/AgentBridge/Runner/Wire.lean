import AgentBridge.Http.Identity
import AgentBridge.Http.SubmissionClaims
import AgentBridge.Runner.Bracketed
import AgentBridge.Runner.Usage

/-! The lease calls and submissions of a runner as the bridge serves them: each becomes at
most one call of the control plane, about the lease that the runner means, and what the
runner makes of the reply is what the control plane said. -/

namespace AgentBridge
open Http

section Layers
variable {d : Deployment} {env : Env} {s : AppState} {req : Request} {next : Service}

/-- The security layer refuses, or hands the request on as it is but for its credential. -/
theorem WorkflowSecurity.enforce_refuses (security : WorkflowSecurity) (next : Service) (req : Request) (s : AppState) :
    (∃ status error, security.enforce next req s = .quiet (.refused status error) s) ∨
    ∃ req', req'.method = req.method ∧ req'.path = req.path ∧ req'.body = req.body ∧
      security.enforce next req s = next req' s := by
  unfold WorkflowSecurity.enforce
  dsimp only
  split_ifs
  · exact .inl ⟨_, _, rfl⟩
  · exact .inl ⟨_, _, rfl⟩
  · exact .inr ⟨req, rfl, rfl, rfl, rfl⟩
  · exact .inr ⟨req, rfl, rfl, rfl, rfl⟩
  · cases hresult : (do
        let identity ← security.authorizeAdapter req (bearerToken req.toHttpRequest)
        security.exchange req identity) with
    | error refusal => exact .inl ⟨_, _, rfl⟩
    | ok req' =>
      obtain ⟨identity, -, hexchanged⟩ := Except.bind_eq_ok.mp hresult
      obtain ⟨-, hmethod, hpath, -, hbody⟩ := exchange_eq_ok hexchanged
      exact .inr ⟨req', hmethod, hpath, hbody, rfl⟩

end Layers
end AgentBridge

namespace Json

theorem mem_valueFields (fields : List (Text × Json)) (key : Text) (v : Json) :
    (key, v.value) ∈ valueFields (fields ++ [(key, v)]) := by
  induction fields with
  | nil =>
    show (key, v.value) ∈ List.orderedInsert (fun a b : Text × Json => a.1 ≤ b.1) (key, v.value) []
    simp
  | cons e fields ih =>
    obtain ⟨k, w⟩ := e
    rw [List.cons_append, valueFields]
    split_ifs
    · exact ih
    · exact (List.mem_orderedInsert _).mpr (.inr ih)

theorem get_value_of_getLast {fields : List (Text × Json)} {key : Text} {v : Json}
    (h : fields.getLast? = some (key, v)) : (obj fields).value.get key = some v.value := by
  obtain ⟨fields, rfl⟩ := List.getLast?_eq_some_iff.mp h
  exact get_of_mem (nodup_valueFields _).2 (mem_valueFields fields key v)

theorem get_value_of_notMem {fields : List (Text × Json)} {key : Text} (h : key ∉ fields.map Prod.fst) :
    (obj fields).value.get key = none := by
  have hnone : (valueFields fields).reverse.find? (fun e => e.1 = key) = none := by
    rw [List.find?_eq_none]
    intro e he
    have hmem := (nodup_valueFields fields).1 (List.mem_map_of_mem (List.mem_reverse.mp he))
    simpa using fun heq : e.1 = key => h (heq ▸ hmem)
  show (obj (valueFields fields)).get key = none
  rw [get, hnone]
  rfl

@[simp] theorem mapM_asStr (texts : List Text) : texts.mapM (asStr ∘ str) = some texts := by
  induction texts with
  | nil => rfl
  | cons text texts ih => simp [List.mapM_cons, ih, asStr]

end Json

namespace AgentBridge
open Http

namespace Runner

section Reading
variable {repository agentKey path : Text} {paths : List Text} {ttlMs : Nat} {handle : LeaseHandle}

open Decode in
theorem read_acquireRequest : AcquireFileLeasesReq.read
      (BridgeClient.acquireRequest path repository paths agentKey ttlMs).body =
    if ttlMs < 2 ^ 64 then some ⟨repository, paths, agentKey, some ttlMs, false⟩ else none := by
  unfold AcquireFileLeasesReq.read record BridgeClient.acquireRequest
  simp [Source.required, Source.defaulted, Source.field, unique, Json.asStr, list, nullable, uint, Json.asBool]
  split_ifs <;> simp

open Decode in
theorem read_renewRequest : RenewFileLeaseReq.read (BridgeClient.renewRequest handle agentKey).body =
    if handle.fencingToken < 2 ^ 64 ∧ handle.ttlMs < 2 ^ 64 then
      some ⟨handle.repository, handle.paths, agentKey, handle.fencingToken, handle.ttlMs⟩ else none := by
  unfold RenewFileLeaseReq.read record BridgeClient.renewRequest
  simp [Source.required, Source.defaulted, Source.field, unique, Json.asStr, list, uint]
  split_ifs <;> simp_all

open Decode in
theorem read_releaseRequest : ReleaseFileLeaseReq.read (BridgeClient.releaseRequest handle agentKey).body =
    if handle.fencingToken < 2 ^ 64 then some ⟨agentKey, handle.fencingToken⟩ else none := by
  unfold ReleaseFileLeaseReq.read record BridgeClient.releaseRequest
  simp [Source.required, Source.field, unique, Json.asStr, uint]
  split_ifs <;> simp

open Decode in
theorem read_metadata (claims : ClaimConfig) (workflowId : Text) (ordinal token : Nat) :
    AssignmentClaim.read (claims.metadata workflowId ordinal token).value =
    if token < 2 ^ 64 ∧ claims.ttlMs < 2 ^ 64 ∧ ordinal < 2 ^ 64 then
      some ⟨claims.repository, [claims.path workflowId ordinal], claims.owner, token, claims.ttlMs, ordinal,
        claims.instanceId⟩ else none := by
  have hvalue : (claims.metadata workflowId ordinal token).value = claims.metadata workflowId ordinal token := rfl
  rw [hvalue]
  unfold AssignmentClaim.read record ClaimConfig.metadata
  simp [Source.required, Source.field, unique, Json.asStr, list, uint]
  split_ifs <;> simp_all

open Decode in
theorem read_submitRequest (workflowId content : Text) (metadata : Json) :
    SubmissionEnvelope.read (BridgeClient.submitRequest workflowId agentKey content metadata).body =
      some ⟨agentKey, metadata.value⟩ := by
  unfold SubmissionEnvelope.read record BridgeClient.submitRequest
  simp [Source.required, Source.defaulted, Source.field, unique, Json.asStr, generic]

end Reading

/-- The control-plane calls of the three lease requests. -/
def acquireCall (repository : Text) (paths : List Text) (agentKey : Text) (ttlMs : Nat) : ControlPlaneCall :=
  .acquire repository paths (Text.trim agentKey) ttlMs false

def renewCall (handle : LeaseHandle) (agentKey : Text) : ControlPlaneCall :=
  .renew (Text.trim handle.repository) handle.paths (Text.trim agentKey) handle.fencingToken handle.ttlMs

def releaseCall (handle : LeaseHandle) (agentKey : Text) : ControlPlaneCall :=
  .release (Text.trim agentKey) handle.fencingToken

/-- What the client makes of an answer of the control plane. -/
def readAnswer : BridgeResult ControlPlaneResponse → BridgeReply
  | .ok response => if controlPlaneSuccess response.status then .ok response.body else .error .unanswered
  | .error _ => .error .unanswered

/-- The request was refused before the control plane was called, or came to this one call. -/
def Exchanged (env : Env) (call : ControlPlaneCall) (o : Outcome) : Prop :=
  o.calls = [] ∧ readLeaseReply o.reply = .error .unanswered ∨
  o.calls = [call] ∧ readLeaseReply o.reply = readAnswer (env.controlPlane call)

section Exchange
variable {d : Deployment} {env : Env} {s : AppState} {req : Request} {call : ControlPlaneCall}
  {repository agentKey path : Text} {paths : List Text} {ttlMs : Nat} {handle : LeaseHandle} {bearer : Option Text}
  {length : Nat}

theorem exchanged_refused {reply : Http.Reply} (h : readLeaseReply reply = .error .unanswered) :
    Exchanged env call (.quiet reply s) := .inl ⟨rfl, h⟩

theorem exchanged_throughControlPlane : Exchanged env call (throughControlPlane env s call) := by
  unfold throughControlPlane
  right
  cases hanswer : env.controlPlane call with
  | error e => exact ⟨rfl, rfl⟩
  | ok response => exact ⟨rfl, rfl⟩

theorem exchanged_serve {req : HttpRequest}
    (h : ∀ req' : Request, req'.method = req.method → req'.path = req.path → req'.body = req.body →
      Exchanged env call (Http.inner d env req' s)) : Exchanged env call (serve d env req s) := by
  rcases WorkflowSecurity.enforce_refuses d.security (Http.inner d env) { req with adapter := none } s with
    ⟨status, error, hrefused⟩ | ⟨req', hmethod, hpath, hbody, hpassed⟩
  · show Exchanged env call (d.security.enforce (Http.inner d env) { req with adapter := none } s)
    rw [hrefused]
    exact exchanged_refused rfl
  · show Exchanged env call (d.security.enforce (Http.inner d env) { req with adapter := none } s)
    rw [hpassed]
    exact h req' hmethod hpath hbody

theorem exchanged_routers {e : Endpoint} (hmethod : req.method = .post)
    (hnone : LeaseDescriptors.compatibilityRoute req.path = none) (hcanonical : req.path ≠ LeaseRenewal.canonicalPath)
    (hsubmission : AssignmentClaims.submissionWorkflowId .post req.path = none)
    (hroute : ∃ r, routeOf req.path = some r ∧ r.endpoint .post = some e)
    (h : Exchanged env call (e.handle env req s)) : Exchanged env call (Http.inner d env req s) := by
  rw [inner_of_notLease (fun _ => hnone) hcanonical, AssignmentClaims.enforce, hmethod, hsubmission]
  -- past the middlewares the router is left, which either wants a credential or dispatches
  obtain ⟨r, hr, he⟩ := hroute
  unfold routers
  rw [hr]
  dsimp only
  split_ifs
  · exact exchanged_refused rfl
  · rw [hmethod, he]
    exact h

theorem exchanged_withBody {α : Type} {limit : Nat} {read : Json → Option α} {run : α → Outcome} {j : Json}
    (hjson : req.body.json = some j) (h : ∀ a, read j = some a → Exchanged env call (run a)) :
    Exchanged env call (withBody req s limit read run) := by
  unfold withBody Body.document
  split_ifs with hlimit hlength
  · exact exchanged_refused rfl
  · exact exchanged_refused rfl
  · rw [hjson, Option.bind_some]
    cases hread : read j with
    | none => exact exchanged_refused rfl
    | some a => exact h a hread

theorem exchanged_acquire (hpath : trimPath path = "file-leases/acquire".toList) :
    Exchanged env (acquireCall repository paths agentKey ttlMs)
      (serve d env ((BridgeClient.acquireRequest path repository paths agentKey ttlMs).sent bearer length) s) := by
  apply exchanged_serve
  intro req hmethod hreq hbody
  have hsent : req.path = "/file-leases/acquire".toList := by
    rw [hreq]
    show '/' :: trimPath path = _
    rw [hpath]
    rfl
  apply exchanged_routers (e := .acquireFileLeases) hmethod
  · rw [hsent]
    decide
  · rw [hsent]
    decide
  · rw [hsent]
    decide
  · rw [hsent]
    exact ⟨_, rfl, rfl⟩
  · refine exchanged_withBody (congrArg Body.json hbody) fun input hread => ?_
    rw [read_acquireRequest] at hread
    split_ifs at hread
    cases hread
    unfold acquireFileLeases
    cases requireRegisteredAgent s agentKey with
    | error e => exact exchanged_refused rfl
    | ok _ =>
      dsimp only
      split_ifs
      · exact exchanged_refused rfl
      · exact exchanged_throughControlPlane

theorem exchanged_release (hpath : handle.releasePath = "file-leases/release".toList) :
    Exchanged env (releaseCall handle agentKey)
      (serve d env ((BridgeClient.releaseRequest handle agentKey).sent bearer length) s) := by
  apply exchanged_serve
  intro req hmethod hreq hbody
  have hsent : req.path = "/file-leases/release".toList := by
    rw [hreq]
    show '/' :: trimPath handle.releasePath = _
    rw [hpath]
    rfl
  apply exchanged_routers (e := .releaseFileLease) hmethod
  · rw [hsent]
    decide
  · rw [hsent]
    decide
  · rw [hsent]
    decide
  · rw [hsent]
    exact ⟨_, rfl, rfl⟩
  · refine exchanged_withBody (congrArg Body.json hbody) fun input hread => ?_
    rw [read_releaseRequest] at hread
    split_ifs at hread
    cases hread
    unfold releaseFileLease
    split_ifs
    · exact exchanged_refused rfl
    · exact exchanged_throughControlPlane

theorem renewalChecks_renewRequest {checked : ControlPlaneCall}
    (h : LeaseRenewal.renewalChecks s (Body.document ⟨length, some (BridgeClient.renewRequest handle agentKey).body⟩) =
      .ok checked) : checked = renewCall handle agentKey := by
  unfold LeaseRenewal.renewalChecks at h
  cases hread : (Body.document ⟨length, some (BridgeClient.renewRequest handle agentKey).body⟩).bind
      RenewFileLeaseReq.read with
  | none =>
    rw [hread] at h
    cases h
  | some input =>
    rw [hread] at h
    obtain ⟨j, hj, hinput⟩ := Option.bind_eq_some_iff.mp hread
    unfold Body.document at hj
    split_ifs at hj
    cases hj
    rw [read_renewRequest] at hinput
    split_ifs at hinput
    cases hinput
    dsimp only at h
    split_ifs at h
    cases h
    rfl

theorem exchanged_renew : Exchanged env (renewCall handle agentKey)
    (serve d env ((BridgeClient.renewRequest handle agentKey).sent bearer length) s) := by
  apply exchanged_serve
  intro req hmethod hreq hbody
  have hpost : req.method = .post := hmethod
  have hsent : req.path = LeaseRenewal.canonicalPath := hreq
  have hnone : LeaseDescriptors.compatibilityRoute req.path = none := by
    rw [hsent]
    decide
  have hrenewal : LeaseRenewal.isRenewalPath req.path = true := by
    rw [hsent]
    decide
  have hinner : Http.inner d env req s =
      LeaseRenewal.intercept env (AssignmentClaims.enforce d.claims env (routers env)) req s := by
    unfold Http.inner LeaseDescriptors.intercept
    by_cases hpass : (decide (req.method ≠ .post) || !s.config.controlPlane) = true
    · rw [if_pos hpass]
    · rw [if_neg hpass, hnone]
  rw [hinner]
  unfold LeaseRenewal.intercept
  rw [if_neg (by simp [hpost, hrenewal])]
  by_cases hplane : (!s.config.controlPlane) = true
  · rw [if_pos hplane, if_pos hsent]
    exact exchanged_refused rfl
  · rw [if_neg hplane, hbody]
    unfold LeaseRenewal.renew
    split_ifs with hlength
    · exact exchanged_refused rfl
    · cases hchecks : LeaseRenewal.renewalChecks s
          ((BridgeClient.renewRequest handle agentKey).sent bearer length).body.document with
      | error e => exact exchanged_refused rfl
      | ok checked =>
        rw [renewalChecks_renewRequest hchecks]
        exact exchanged_throughControlPlane

end Exchange
end Runner
end AgentBridge
