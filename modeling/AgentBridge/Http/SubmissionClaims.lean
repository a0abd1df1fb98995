import AgentBridge.Http.Authentication

/-! The claim check against the route it guards: the middleware and the router read the
path of a submission independently, and a submission both read alike is stored only after
the renewal of its claim was confirmed. -/

namespace AgentBridge

namespace Orchestration

section Submit
variable {s : AppState} {now : Now} {messageId workflowId : Text} {req : SubmitWorkflowReq}

theorem agentKey_of_submitChecks {input : SubmissionInput} (h : submitChecks s req = .ok input) :
    input.agentKey = Text.trim req.agentKey := by
  obtain ⟨agentKey, hkey, h⟩ := Except.bind_eq_ok.mp h
  obtain ⟨content, -, h⟩ := Except.bind_eq_ok.mp h
  obtain ⟨_, -, h⟩ := Except.bind_eq_ok.mp h
  cases h
  obtain ⟨-, hkey⟩ := Except.check_eq_ok.mp hkey
  obtain ⟨-, hkey⟩ := Except.check_eq_ok.mp hkey
  exact (Except.ok.inj hkey).symm

theorem submitWorkflow_entry {c k : Text}
    (h : (submitWorkflow s now messageId workflowId req).2.entry c k ≠ s.entry c k) :
    ∃ plan a, loadPlan s workflowId = .ok plan ∧ findAssignment plan (Text.trim req.agentKey) = .ok a ∧
      c = plan.channel ∧ k = submissionKey a.ordinal := by
  unfold submitWorkflow SubmitCall.start at h
  -- every refusal leaves the state, and the notice after the record writes no context
  cases hchecks : submitChecks s req with
  | error e =>
    rw [hchecks] at h
    exact absurd rfl h
  | ok input =>
    rw [hchecks] at h
    dsimp only at h
    rw [SubmitCall.step] at h
    cases hplan : (do
        let plan ← loadPlan s workflowId
        let assignment ← findAssignment plan input.agentKey
        return (plan, assignment) : BridgeResult (WorkflowPlan × WorkflowAssignment)) with
    | error e =>
      rw [hplan] at h
      exact absurd rfl h
    | ok found =>
      obtain ⟨plan, hload, hfind⟩ := Except.bind_eq_ok.mp hplan
      obtain ⟨a, hassigned, hfound⟩ := Except.bind_eq_ok.mp hfind
      cases hfound
      rw [hplan] at h
      dsimp only at h
      rw [SubmitCall.step] at h
      cases hturn : (do
          let submissions ← loadSubmissions s plan.channel
          validateSubmissionTurn plan a submissions : BridgeResult Unit) with
      | error e =>
        rw [hturn] at h
        exact absurd rfl h
      | ok u =>
        rw [hturn] at h
        dsimp only at h
        rw [SubmitCall.step] at h
        rcases insertWorkflowContext_cases s now plan.channel (submissionKey a.ordinal)
            (.workflowSubmission (newSubmission plan a input now)) input.agentKey (trim_submissionKey _)
          with ⟨e, hinsert⟩ | ⟨e, s', hinsert, -, hkey, -, -, hput⟩
        · rw [hinsert] at h
          exact absurd rfl h
        · rw [hinsert] at h
          have hpost := (post_effect s' now messageId plan.channel input.agentKey .assistant input.content
            (submissionMetadata plan a)).entry c k
          have hstored : s'.entry c k ≠ s.entry c k := by
            intro heq
            apply h
            dsimp only
            rw [SubmitCall.step, ← heq, ← hpost]
            rcases s'.postMessage now messageId plan.channel input.agentKey .assistant input.content
              (submissionMetadata plan a) with ⟨r, s''⟩
            cases r <;> rfl
          rw [agentKey_of_submitChecks hchecks] at hassigned
          refine ⟨plan, a, hload, hassigned, ?_⟩
          rw [← hkey]
          by_contra hne
          exact hstored (hput.ne hne)

end Submit
end Orchestration

namespace Http
open Orchestration

section Reading
variable {j : Json} {submission : SubmissionEnvelope} {req : SubmitWorkflowReq}

theorem agentKey_agrees (hsubmission : SubmissionEnvelope.read j = some submission)
    (hreq : SubmitWorkflowReq.read j = some req) : submission.agentKey = req.agentKey := by
  have hread {source : Decode.Source}
      (hleft : (do
        return { agentKey := ← source.required 0 "agent_key" Json.asStr
                 metadata := ← source.defaulted 1 "meta" .null Decode.generic : SubmissionEnvelope }) =
        some submission)
      (hright : (do
        return { agentKey := ← source.required 0 "agent_key" Json.asStr
                 content := ← source.required 1 "content" Json.asStr
                 metadata := ← source.defaulted 2 "meta" .null Decode.generic : SubmitWorkflowReq }) =
        some req) : submission.agentKey = req.agentKey := by
    obtain ⟨key, hkey, hleft⟩ := Option.bind_eq_some_iff.mp hleft
    obtain ⟨_, -, hleft⟩ := Option.bind_eq_some_iff.mp hleft
    obtain ⟨key', hkey', hright⟩ := Option.bind_eq_some_iff.mp hright
    obtain ⟨_, -, hright⟩ := Option.bind_eq_some_iff.mp hright
    obtain ⟨_, -, hright⟩ := Option.bind_eq_some_iff.mp hright
    cases hleft
    cases hright
    exact Option.some.inj (hkey.symm.trans hkey')
  cases j with
  | obj fields => exact hread hsubmission hreq
  | arr items =>
    rw [SubmissionEnvelope.read, Decode.record] at hsubmission
    rw [SubmitWorkflowReq.read, Decode.record] at hreq
    split_ifs at hsubmission hreq
    exact hread hsubmission hreq
  | null | bool b | num n | str s => cases hsubmission

end Reading

/-- The router takes the request to `submit_workflow` with this captured segment, which is
decoded, trimmed and accepted as the id of a workflow. -/
structure Dispatches (method : Method) (path segment workflowId : Text) : Prop where
  route : (routeOf path).bind (fun r => r.endpoint method) = some (.submitWorkflow segment)
  channel : ∃ raw, Url.percentDecode segment = some raw ∧
    workflowChannel raw = .ok ("workflow-".toList ++ workflowId)

section Paths
variable {method : Method} {path segment workflowId : Text}

theorem pattern_of_submitWorkflow : ∀ entry ∈ routes, ∀ id method segment,
    (entry.methods id).endpoint method = some (.submitWorkflow segment) →
    method = .post ∧ segment = id ∧ entry.pattern = [.lit "workflows", .param, .lit "submissions"] := by
  simp only [routes, List.forall_mem_cons]
  and_intros
  all_goals first
    | exact fun _ h => absurd h List.not_mem_nil
    | (intro id method segment h
       cases method <;> first | (cases h; exact ⟨rfl, rfl, trivial⟩) | cases h)

theorem workflowChannel_eq_ok {raw channel : Text} (h : workflowChannel raw = .ok channel) :
    channel = "workflow-".toList ++ Text.trim raw ∧ Orchestration.validWorkflowId (Text.trim raw) = true := by
  unfold workflowChannel at h
  dsimp only at h
  by_cases hvalid : Orchestration.validWorkflowId (Text.trim raw) = true
  · rw [if_pos hvalid] at h
    exact ⟨(Except.ok.inj h).symm, hvalid⟩
  · rw [if_neg hvalid] at h
    cases h

theorem Dispatches.valid (h : Dispatches method path segment workflowId) :
    AssignmentClaims.validWorkflowId workflowId = true := by
  obtain ⟨raw, -, hchannel⟩ := h.channel
  obtain ⟨heq, hvalid⟩ := workflowChannel_eq_ok hchannel
  rw [← List.append_cancel_left heq] at hvalid
  exact hvalid

theorem Dispatches.splitOn (h : Dispatches method path segment workflowId) : method = .post ∧
    (Text.trimMatches '/' path).splitOn '/' = ["workflows".toList, segment, "submissions".toList] := by
  obtain ⟨r, hroute, hendpoint⟩ := Option.bind_eq_some_iff.mp h.route
  obtain ⟨entry, hentry, parts, captured, hparts, hcapture, rfl⟩ := routeOf_eq_some hroute
  obtain ⟨rfl, rfl, hpattern⟩ := pattern_of_submitWorkflow entry hentry captured method segment hendpoint
  rw [hpattern] at hcapture
  have hsplit := splitOn_of_capture hparts hcapture (by decide)
  obtain ⟨rest, rfl, hparam⟩ := capture_lit_eq_some.mp hcapture
  obtain ⟨rest, rfl, -, hsome⟩ := capture_param_eq_some.mp hparam
  obtain ⟨x, hx⟩ := Option.isSome_iff_exists.mp hsome
  obtain ⟨rest, rfl, hend⟩ := capture_lit_eq_some.mp hx
  obtain ⟨rfl, -⟩ := capture_nil_eq_some.mp hend
  exact ⟨rfl, hsplit⟩

/-- The middleware reads the segment as it was sent. -/
theorem Dispatches.submissionWorkflowId (h : Dispatches method path segment workflowId) :
    AssignmentClaims.submissionWorkflowId method path =
      if AssignmentClaims.validWorkflowId segment then some segment else none := by
  obtain ⟨rfl, hsplit⟩ := h.splitOn
  rw [AssignmentClaims.submissionWorkflowId, if_neg (by simp), hsplit]
  simp

theorem Dispatches.notLease (h : Dispatches method path segment workflowId) :
    LeaseDescriptors.compatibilityRoute path = none ∧ path ≠ LeaseRenewal.canonicalPath := by
  obtain ⟨-, hsplit⟩ := h.splitOn
  have hacquire : path ≠ "/file-leases".toList := by
    rintro rfl
    cases hsplit
  constructor
  · rw [LeaseDescriptors.compatibilityRoute, if_neg hacquire, hsplit]
    rfl
  · rintro rfl
    cases hsplit

theorem Dispatches.classified_iff (h : Dispatches method path segment workflowId) :
    AssignmentClaims.submissionWorkflowId method path = some workflowId ↔ segment = workflowId := by
  rw [h.submissionWorkflowId]
  constructor
  · intro hclassified
    split_ifs at hclassified
    exact Option.some.inj hclassified
  · rintro rfl
    rw [if_pos h.valid]

end Paths

/-- What the control plane confirmed before the entry under `key` was written: the renewal of
the claim path of the submitting agent's assignment, with the presented token. -/
structure ClaimConfirmed (policy : AssignmentClaimPolicy) (env : Env) (body : Body) (s : AppState)
    (workflowId key : Text) (calls : List ControlPlaneCall) (submission : SubmissionEnvelope)
    (claim : AssignmentClaim) (plan : WorkflowPlan) (a : WorkflowAssignment)
    (response : ControlPlaneResponse) : Prop where
  submitted : body.document.bind SubmissionEnvelope.read = some submission
  presented : (submission.metadata.get "assignment_claim".toList).bind AssignmentClaim.read = some claim
  planned : loadPlan s workflowId = .ok plan
  assigned : findAssignment plan (Text.trim submission.agentKey) = .ok a
  stored : key = submissionKey a.ordinal
  called : ControlPlaneCall.renew policy.repository [AssignmentClaims.claimPath workflowId a.ordinal]
    (Text.trim claim.owner) claim.fencingToken claim.ttlMs ∈ calls
  answered : env.controlPlane (.renew policy.repository [AssignmentClaims.claimPath workflowId a.ordinal]
    (Text.trim claim.owner) claim.fencingToken claim.ttlMs) = .ok response
  success : controlPlaneSuccess response.status = true
  confirmed : AssignmentClaims.confirms response claim.fencingToken = true

/-- With claims required, nothing is written into the workflow's channel without a confirmed claim. -/
def Protected (method : Method) (path workflowId : Text) : Prop :=
  ∀ (d : Deployment) (env : Env) (req : HttpRequest) (s : AppState) (key : Text),
    d.claims.required = true → req.method = method → req.path = path →
    (serve d env req s).state.entry ("workflow-".toList ++ workflowId) key ≠
      s.entry ("workflow-".toList ++ workflowId) key →
    ∃ submission claim plan a response, ClaimConfirmed d.claims env req.body s workflowId key
      (serve d env req s).calls submission claim plan a response

section Protection
variable {segment workflowId : Text} {env : Env} {req : Request} {s : AppState}

theorem routers_submission {c k : Text} (h : Dispatches req.method req.path segment workflowId)
    (hwrite : (routers env req s).state.entry c k ≠ s.entry c k) :
    ∃ j input raw, req.body.document = some j ∧ SubmitWorkflowReq.read j = some input ∧
      Url.percentDecode segment = some raw ∧
      (Orchestration.submitWorkflow s env.now (env.newId 0) raw input).2.entry c k ≠ s.entry c k := by
  obtain ⟨r, hroute, hendpoint⟩ := Option.bind_eq_some_iff.mp h.route
  unfold routers at hwrite
  rw [hroute] at hwrite
  dsimp only at hwrite
  by_cases hauth : (r.authenticated && !authorized s.config req.toHttpRequest) = true
  · rw [if_pos hauth] at hwrite
    exact absurd rfl hwrite
  · rw [if_neg hauth, hendpoint] at hwrite
    dsimp only at hwrite
    rw [Endpoint.handle, withPath] at hwrite
    cases hraw : Url.percentDecode segment with
    | none =>
      rw [hraw] at hwrite
      exact absurd rfl hwrite
    | some raw =>
      rw [hraw] at hwrite
      dsimp only at hwrite
      rw [withBody] at hwrite
      by_cases htype : (!req.jsonContentType || decide (req.body.length > s.config.maxHttpBodyBytes)) = true
      · rw [if_pos htype] at hwrite
        exact absurd rfl hwrite
      · rw [if_neg htype] at hwrite
        cases hbody : req.body.document.bind SubmitWorkflowReq.read with
        | none =>
          rw [hbody] at hwrite
          exact absurd rfl hwrite
        | some input =>
          rw [hbody] at hwrite
          obtain ⟨j, hj, hread⟩ := Option.bind_eq_some_iff.mp hbody
          exact ⟨j, input, raw, hj, hread, rfl, hwrite⟩

theorem loadPlan_agrees {raw : Text} {plan : WorkflowPlan}
    (hchannel : workflowChannel raw = .ok ("workflow-".toList ++ workflowId))
    (h : loadPlan s raw = .ok plan) :
    loadPlan s workflowId = .ok plan ∧ AssignmentClaims.loadPlan s workflowId = .ok plan := by
  obtain ⟨heq, hvalid⟩ := workflowChannel_eq_ok hchannel
  have hid : workflowId = Text.trim raw := List.append_cancel_left heq
  have hchannel' : workflowChannel workflowId = .ok ("workflow-".toList ++ workflowId) := by
    unfold workflowChannel
    dsimp only
    rw [hid, Text.trim_trim, if_pos hvalid]
  obtain ⟨channel, hc, hload⟩ := Except.bind_eq_ok.mp h
  rw [hchannel] at hc
  cases hc
  obtain ⟨e, he, hvalue⟩ := loadPlanByChannel_eq_ok.mp hload
  refine ⟨Except.bind_eq_ok.mpr ⟨_, hchannel', hload⟩, ?_⟩
  have hget : s.getContextKeyInternal ("workflow-".toList ++ workflowId) AssignmentClaims.planContextKey =
      .ok (some e) := by
    unfold AppState.getContextKeyInternal
    cases hch : s.channels.get ("workflow-".toList ++ workflowId) with
    | none =>
      rw [AppState.entry, hch] at he
      cases he
    | some ch =>
      rw [entry_of_channel hch] at he
      exact congrArg Except.ok he
  rw [AssignmentClaims.loadPlan, hget]
  simp only [bind, Except.bind, hvalue]

theorem findAssignment_eq_ok {plan : WorkflowPlan} {agentKey : Text} {a : WorkflowAssignment} :
    findAssignment plan agentKey = .ok a ↔
      plan.assignments.find? (fun a => a.agentKey = agentKey) = some a := by
  unfold findAssignment
  cases plan.assignments.find? (fun a => a.agentKey = agentKey) with
  | none => exact ⟨nofun, nofun⟩
  | some b => simp

theorem claimChecks_eq_ok {policy : AssignmentClaimPolicy} {agentKey : Text} {claimValue : Json}
    {call : ControlPlaneCall} {token : Nat}
    (h : AssignmentClaims.claimChecks policy s workflowId agentKey claimValue = .ok (call, token)) :
    ∃ claim plan a, AssignmentClaim.read claimValue = some claim ∧
      AssignmentClaims.loadPlan s workflowId = .ok plan ∧
      findAssignment plan (Text.trim agentKey) = .ok a ∧
      call = AssignmentClaims.renewal policy claim workflowId a.ordinal ∧ token = claim.fencingToken := by
  unfold AssignmentClaims.claimChecks at h
  cases hclaim : AssignmentClaim.read claimValue with
  | none =>
    rw [hclaim] at h
    cases h
  | some claim =>
    rw [hclaim] at h
    dsimp only at h
    obtain ⟨-, h⟩ := Except.check_eq_ok.mp h
    cases hplan : AssignmentClaims.loadPlan s workflowId with
    | error e =>
      rw [hplan] at h
      cases h
    | ok plan =>
      rw [hplan] at h
      dsimp only at h
      cases hfind : plan.assignments.find? (fun a => a.agentKey = Text.trim agentKey) with
      | none =>
        rw [hfind] at h
        cases h
      | some a =>
        rw [hfind] at h
        dsimp only at h
        obtain ⟨-, h⟩ := Except.check_eq_ok.mp h
        cases h
        exact ⟨claim, plan, a, rfl, rfl, findAssignment_eq_ok.mpr hfind, rfl, rfl⟩

theorem afterRenewal_entry {call : ControlPlaneCall} {token : Nat} {next : Service} {c k : Text}
    {answer : BridgeResult ControlPlaneResponse}
    (h : (AssignmentClaims.afterRenewal next req s call token answer).state.entry c k ≠ s.entry c k) :
    (∃ response, answer = .ok response ∧ controlPlaneSuccess response.status = true ∧
      AssignmentClaims.confirms response token = true) ∧
    call ∈ (AssignmentClaims.afterRenewal next req s call token answer).calls ∧
    (next req s).state.entry c k ≠ s.entry c k := by
  cases answer with
  | error e => exact absurd rfl h
  | ok response =>
    rw [AssignmentClaims.afterRenewal] at h ⊢
    by_cases hsuccess : controlPlaneSuccess response.status = true
    · by_cases hconfirmed : AssignmentClaims.confirms response token = true
      · simp only [hsuccess, hconfirmed, Bool.not_true, Bool.false_eq_true, if_false] at h ⊢
        exact ⟨⟨response, rfl, hsuccess, hconfirmed⟩, List.mem_cons_self, h⟩
      · simp only [hsuccess, hconfirmed, Bool.not_true, Bool.not_false, Bool.false_eq_true, if_false,
          if_true] at h
        exact absurd rfl h
    · simp only [hsuccess, Bool.not_false, if_true] at h
      exact absurd rfl h

theorem enforce_submission {policy : AssignmentClaimPolicy} {k : Text} (hrequired : policy.required = true)
    (h : Dispatches req.method req.path segment workflowId)
    (hid : AssignmentClaims.submissionWorkflowId req.method req.path = some workflowId)
    (hwrite : (AssignmentClaims.enforce policy env (routers env) req s).state.entry
      ("workflow-".toList ++ workflowId) k ≠ s.entry ("workflow-".toList ++ workflowId) k) :
    ∃ submission claim plan a response, ClaimConfirmed policy env req.body s workflowId k
      (AssignmentClaims.enforce policy env (routers env) req s).calls submission claim plan a response := by
  unfold AssignmentClaims.enforce at hwrite ⊢
  rw [hid] at hwrite ⊢
  dsimp only at hwrite ⊢
  -- a request that is refused on the way writes nothing
  by_cases hlength : req.body.length > s.config.maxHttpBodyBytes
  · rw [if_pos hlength] at hwrite
    exact absurd rfl hwrite
  · rw [if_neg hlength] at hwrite ⊢
    cases hsubmission : req.body.document.bind SubmissionEnvelope.read with
    | none =>
      rw [hsubmission] at hwrite
      exact absurd rfl hwrite
    | some submission =>
      rw [hsubmission] at hwrite
      dsimp only at hwrite ⊢
      cases hclaim : submission.metadata.get "assignment_claim".toList with
      | none =>
        rw [hclaim] at hwrite
        dsimp only at hwrite
        rw [if_pos hrequired] at hwrite
        exact absurd rfl hwrite
      | some claimValue =>
        rw [hclaim] at hwrite
        dsimp only at hwrite ⊢
        cases hchecks : AssignmentClaims.claimChecks policy s workflowId submission.agentKey claimValue with
        | error reply =>
          rw [hchecks] at hwrite
          exact absurd rfl hwrite
        | ok checked =>
          obtain ⟨call, token⟩ := checked
          rw [hchecks] at hwrite
          dsimp only at hwrite ⊢
          obtain ⟨claim, plan, a, hread, hload, hassigned, rfl, rfl⟩ := claimChecks_eq_ok hchecks
          obtain ⟨⟨response, hanswer, hsuccess, hconfirmed⟩, hcalled, hnext⟩ := afterRenewal_entry hwrite
          obtain ⟨j, input, raw, hj, hinput, hraw, hstored⟩ := routers_submission h hnext
          obtain ⟨plan', a', hload', hassigned', -, hkey⟩ := submitWorkflow_entry hstored
          obtain ⟨raw', hraw', hchannel⟩ := h.channel
          rw [hraw] at hraw'
          cases hraw'
          obtain ⟨hplanned, hloaded⟩ := loadPlan_agrees hchannel hload'
          rw [hload] at hloaded
          cases hloaded
          have hsame : submission.agentKey = input.agentKey := by
            rw [hj, Option.bind_some] at hsubmission
            exact agentKey_agrees hsubmission hinput
          rw [← hsame, hassigned] at hassigned'
          cases hassigned'
          exact ⟨submission, claim, plan, a, response, hsubmission, by rw [hclaim]; exact hread, hplanned,
            hassigned, hkey, hcalled, hanswer, hsuccess, hconfirmed⟩

def ClaimEnforced (method : Method) (path workflowId : Text) : Prop :=
  AssignmentClaims.submissionWorkflowId method path = some workflowId ∧ Protected method path workflowId

/-- A submission path is enforced for the workflow it reaches exactly when its segment is the
workflow's id as it stands, without escapes or white space around it. -/
theorem claimEnforced_iff {method : Method} {path segment workflowId : Text}
    (h : Dispatches method path segment workflowId) :
    ClaimEnforced method path workflowId ↔ segment = workflowId := by
  constructor
  · exact fun henforced => h.classified_iff.mp henforced.1
  · intro hsegment
    have hid := h.classified_iff.mpr hsegment
    refine ⟨hid, ?_⟩
    intro d env req s key hrequired hmethod hpath hwrite
    subst hmethod hpath
    have hserve : serve d env req s = d.security.enforce (inner d env) { req with adapter := none } s := rfl
    rw [hserve] at hwrite ⊢
    rcases enforce_cases d.security (inner d env) { req with adapter := none } s with
      ⟨reply, hquiet⟩ | ⟨req', hmethod, hpath, hbody, hnext⟩
    · rw [hquiet] at hwrite
      exact absurd rfl hwrite
    · obtain ⟨hroute, hcanonical⟩ := h.notLease
      rw [hnext, inner_of_notLease (fun _ => hpath ▸ hroute) (hpath ▸ hcanonical)] at hwrite ⊢
      rw [← hbody]
      exact enforce_submission hrequired (hmethod ▸ hpath ▸ h) (hmethod ▸ hpath ▸ hid) hwrite

theorem claimEnforced_iff_plain : ClaimEnforced .post "/workflows/id0/submissions".toList "id0".toList :=
  (claimEnforced_iff ⟨by decide +kernel, "id0".toList, by decide +kernel, by decide +kernel⟩).mpr rfl

end Protection

def claimsDeployment : Deployment := { bearerDeployment true 2097152 with
  claims := { required := true, repository := "acme/app".toList, maxTtlMs := 60000 }
  claimsBacked := fun _ => rfl }

/-- With an escaped letter in its id the workflow takes a submission that carries no claim. -/
theorem not_claimEnforced : ¬ ∀ (d : Deployment) (before : List (Env × HttpRequest)) (env : Env)
    (req : HttpRequest) (segment workflowId key : Text), d.claims.required = true →
    Dispatches req.method req.path segment workflowId →
    (serve d env req (served d before)).state.entry ("workflow-".toList ++ workflowId) key ≠
      (served d before).entry ("workflow-".toList ++ workflowId) key →
    ∃ submission claim plan a response, ClaimConfirmed d.claims env req.body (served d before) workflowId key
      (serve d env req (served d before)).calls submission claim plan a response := by
  intro h
  let req := operatorPost "/workflows/%69d0/submissions"
    [("agent_key".toList, .str "ada".toList), ("content".toList, .str "done".toList)]
  have hbefore : ((served claimsDeployment operatorRun).entry "workflow-id0".toList
      (submissionKey 0)).isSome = false := by decide +kernel
  have hafter : ((serve claimsDeployment offlineEnv req (served claimsDeployment operatorRun)).state.entry
      "workflow-id0".toList (submissionKey 0)).isSome = true := by decide +kernel
  have hcalls : (serve claimsDeployment offlineEnv req (served claimsDeployment operatorRun)).calls = [] := by
    decide +kernel
  have hdispatches : Dispatches req.method req.path "%69d0".toList "id0".toList :=
    ⟨by decide +kernel, "id0".toList, by decide +kernel, by decide +kernel⟩
  obtain ⟨_, _, _, _, _, hconfirmed⟩ := h claimsDeployment operatorRun offlineEnv req _ _ (submissionKey 0) rfl
    hdispatches (by
      intro heq
      have heq' : (serve claimsDeployment offlineEnv req (served claimsDeployment operatorRun)).state.entry
        "workflow-id0".toList (submissionKey 0) =
          (served claimsDeployment operatorRun).entry "workflow-id0".toList (submissionKey 0) := heq
      rw [heq', hbefore] at hafter
      cases hafter)
  have hcalled := hconfirmed.called
  rw [hcalls] at hcalled
  cases hcalled

end Http
end AgentBridge
