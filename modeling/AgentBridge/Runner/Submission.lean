import AgentBridge.Runner.Wire

/-! A submission of a runner as the bridge serves it. Where it presents a claim, the bridge
first has the control plane renew that claim, and accepts nothing unless it was confirmed. -/

namespace Url

theorem unescape_of_plain {s : Text} (h : '%' ∉ s) : unescape s = encodeUtf8 s := by
  induction s with
  | nil => rfl
  | cons c s ih =>
    have hc : c ≠ '%' := fun heq => h (heq ▸ List.mem_cons_self)
    have htail := ih fun hs => h (List.mem_cons_of_mem _ hs)
    rw [unescape]
    · rw [htail]
      rfl
    · rintro hi lo rest rfl
      exact absurd rfl hc

theorem percentDecode_of_plain {s : Text} (h : '%' ∉ s) : percentDecode s = some s := by
  rw [percentDecode, unescape_of_plain h, decodeUtf8_encodeUtf8]

end Url

namespace AgentBridge
open Http

namespace AssignmentClaims
variable {workflowId : Text}

theorem isIdChar_of_valid (h : validWorkflowId workflowId = true) :
    ∀ c ∈ workflowId, (Text.isAsciiAlphanumeric c || c = '-') = true := by
  unfold validWorkflowId at h
  rw [Bool.and_eq_true, List.all_eq_true] at h
  exact h.2

theorem isWhitespace_of_isIdChar {c : Char} (h : (Text.isAsciiAlphanumeric c || c = '-') = true) :
    Text.isWhitespace c = false := by
  have hrange : c.toNat = 45 ∨ 48 ≤ c.toNat ∧ c.toNat ≤ 122 := by
    simp only [Text.isAsciiAlphanumeric, Bool.or_eq_true, Bool.and_eq_true, decide_eq_true_eq, Char.le_def,
      UInt32.le_iff_toNat_le] at h
    have hval : c.val.toNat = c.toNat := rfl
    rcases h with ((h | h) | h) | rfl
    · have h0 : '0'.val.toNat = 48 := rfl
      have h9 : '9'.val.toNat = 57 := rfl
      omega
    · have hA : 'A'.val.toNat = 65 := rfl
      have hZ : 'Z'.val.toNat = 90 := rfl
      omega
    · have ha : 'a'.val.toNat = 97 := rfl
      have hz : 'z'.val.toNat = 122 := rfl
      omega
    · exact .inl rfl
  simp only [Text.isWhitespace, Bool.or_eq_false_iff, Bool.and_eq_false_iff, decide_eq_false_iff_not,
    beq_eq_false_iff_ne]
  omega

theorem notMem_of_valid {c : Char} (h : validWorkflowId workflowId = true)
    (hc : (Text.isAsciiAlphanumeric c || c = '-') = false) : c ∉ workflowId := by
  intro hmem
  rw [isIdChar_of_valid h c hmem] at hc
  cases hc

theorem dispatches_of_valid (h : validWorkflowId workflowId = true) :
    Dispatches .post ('/' :: ("workflows/".toList ++ workflowId ++ "/submissions".toList)) workflowId workflowId := by
  have hparts : Url.segments ('/' :: ("workflows/".toList ++ workflowId ++ "/submissions".toList)) =
      some ["workflows".toList, workflowId, "submissions".toList] := by
    have hjoin : "workflows/".toList ++ workflowId ++ "/submissions".toList =
        Components.join '/' ["workflows".toList, workflowId, "submissions".toList] := by
      simp [Components.join, List.intercalate]
    show some (("workflows/".toList ++ workflowId ++ "/submissions".toList).splitOn '/') = _
    rw [hjoin, Components.split_join _ (by simp)]
    intro part hpart
    simp only [List.mem_cons, List.not_mem_nil, or_false] at hpart
    rcases hpart with rfl | rfl | rfl
    · decide
    · exact notMem_of_valid h (by decide)
    · decide
  have hne : workflowId ≠ [] := by
    rintro rfl
    cases h
  refine ⟨?_, workflowId, Url.percentDecode_of_plain (notMem_of_valid h (by decide)), ?_⟩
  · rw [routeOf, hparts]
    obtain ⟨c, cs, rfl⟩ := List.exists_cons_of_ne_nil hne
    rfl
  · have htrim : Text.trim workflowId = workflowId := by
      refine Text.trim_eq_self fun c hc => ?_
      exact isWhitespace_of_isIdChar (isIdChar_of_valid h c hc)
    unfold Orchestration.workflowChannel
    dsimp only
    rw [htrim, if_pos]
    exact h

theorem claimChecks_matches {policy : AssignmentClaimPolicy} {s : AppState} {agentKey : Text} {claimValue : Json}
    {call : ControlPlaneCall} {token : Nat}
    (h : claimChecks policy s workflowId agentKey claimValue = .ok (call, token)) :
    ∃ claim ordinal, AssignmentClaim.read claimValue = some claim ∧
    claimMatches policy claim workflowId ordinal = true ∧
      call = renewal policy claim workflowId ordinal ∧ token = claim.fencingToken := by
  unfold claimChecks at h
  cases hclaim : AssignmentClaim.read claimValue with
  | none =>
    rw [hclaim] at h
    cases h
  | some claim =>
    rw [hclaim] at h
    dsimp only at h
    obtain ⟨-, h⟩ := Except.check_eq_ok.mp h
    cases hplan : loadPlan s workflowId with
    | error e =>
      rw [hplan] at h
      cases h
    | ok plan =>
      rw [hplan] at h
      dsimp only at h
      cases hfind : plan.assignments.find? (fun a => a.agentKey = Text.trim agentKey) with
      | none =>
        rw [hfind] at h
        cases h
      | some a =>
        rw [hfind] at h
        dsimp only at h
        obtain ⟨hmatches, h⟩ := Except.check_eq_ok.mp h
        cases h
        exact ⟨claim, a.ordinal, rfl, by simpa using hmatches, rfl, rfl⟩

theorem renewal_of_matches {policy : AssignmentClaimPolicy} {claim : AssignmentClaim} {ordinal : Nat}
    (h : claimMatches policy claim workflowId ordinal = true) : renewal policy claim workflowId ordinal =
      .renew (Text.toAsciiLowercase (Text.trim claim.repository)) claim.paths (Text.trim claim.owner)
        claim.fencingToken claim.ttlMs := by
  simp only [claimMatches, Bool.and_eq_true, decide_eq_true_eq] at h
  rw [renewal, ← h.1.1.1.1.1.1.1.1.2, ← h.1.1.1.1.1.1.1.2]

theorem afterRenewal_confirmed {next : Service} {req : Request} {s : AppState} (call : ControlPlaneCall) (token : Nat)
    (answer : BridgeResult ControlPlaneResponse) (h : (next req s).calls = []) :
    (afterRenewal next req s call token answer).calls = [call] ∧
    ∀ view, (afterRenewal next req s call token answer).reply = .workflow view →
      ∃ response, answer = .ok response ∧ controlPlaneSuccess response.status = true ∧
        confirms response token = true := by
  cases answer with
  | error e => exact ⟨rfl, by rintro _ ⟨⟩⟩
  | ok response =>
    rw [afterRenewal]
    by_cases hsuccess : controlPlaneSuccess response.status = true
    · by_cases hconfirms : confirms response token = true
      · simp only [hsuccess, hconfirms, Bool.not_true, Bool.false_eq_true, if_false, h]
        exact ⟨trivial, fun _ _ => ⟨response, rfl, hsuccess, hconfirms⟩⟩
      · simp only [hsuccess, hconfirms, Bool.not_true, Bool.not_false, Bool.false_eq_true, if_false, if_true]
        exact ⟨trivial, by rintro _ ⟨⟩⟩
    · simp only [hsuccess, Bool.not_false, if_true]
      exact ⟨trivial, by rintro _ ⟨⟩⟩

theorem claimChecks_refuses {policy : AssignmentClaimPolicy} {s : AppState} {agentKey : Text} {claimValue : Json}
    {reply : Reply} (h : claimChecks policy s workflowId agentKey claimValue = .error reply) (view : WorkflowView) :
    reply ≠ .workflow view := by
  unfold claimChecks at h
  cases hclaim : AssignmentClaim.read claimValue with
  | none =>
    rw [hclaim] at h
    cases h
    rintro ⟨⟩
  | some claim =>
    rw [hclaim] at h
    dsimp only at h
    by_cases hplane : (!s.config.controlPlane) = true
    · rw [if_pos hplane] at h
      cases h
      rintro ⟨⟩
    · rw [if_neg hplane] at h
      cases hplan : loadPlan s workflowId with
      | error e =>
        rw [hplan] at h
        cases h
        rintro ⟨⟩
      | ok plan =>
        rw [hplan] at h
        dsimp only at h
        cases hfind : plan.assignments.find? (fun a => a.agentKey = Text.trim agentKey) with
        | none =>
          rw [hfind] at h
          cases h
          rintro ⟨⟩
        | some a =>
          rw [hfind] at h
          dsimp only at h
          split_ifs at h
          cases h
          rintro ⟨⟩

end AssignmentClaims

namespace Runner

theorem trimPath_submissions {workflowId : Text} (h : AssignmentClaims.validWorkflowId workflowId = true) :
    trimPath ("workflows/".toList ++ workflowId ++ "/submissions".toList) =
      "workflows/".toList ++ workflowId ++ "/submissions".toList := by
  have htrim : Text.trim ("workflows/".toList ++ workflowId ++ "/submissions".toList) =
      "workflows/".toList ++ workflowId ++ "/submissions".toList := by
    apply Text.trim_eq_self
    intro c hc
    rcases List.mem_append.mp hc with hc | hc
    · rcases List.mem_append.mp hc with hc | hc
      · exact Text.spaceless_of_all (s := "workflows/".toList) (by decide) c hc
      · exact AssignmentClaims.isWhitespace_of_isIdChar (AssignmentClaims.isIdChar_of_valid h c hc)
    · exact Text.spaceless_of_all (s := "/submissions".toList) (by decide) c hc
  rw [trimPath, htrim]
  rfl

structure Confirmed (response : ControlPlaneResponse) (lease : LeaseHandle) : Prop where
  success : controlPlaneSuccess response.status = true
  renewed : AssignmentClaims.confirms response lease.fencingToken = true

section Submission
variable {d : Deployment} {env : Env} {s : AppState} {workflowId agentKey content : Text} {metadata : Json}
  {fields : List (Text × Json)} {bearer : Option Text} {length : Nat}

variable (env s) in
theorem calls_routers {req : Request} (h : Dispatches req.method req.path workflowId workflowId) :
    (routers env req s).calls = [] := by
  obtain ⟨r, hroute, hendpoint⟩ := Option.bind_eq_some_iff.mp h.route
  unfold routers
  rw [hroute]
  dsimp only
  split_ifs
  · rfl
  · rw [hendpoint]
    dsimp only
    rw [Endpoint.handle, withPath]
    cases Url.percentDecode workflowId with
    | none => rfl
    | some id =>
      dsimp only
      rw [withBody]
      split_ifs
      · rfl
      · cases req.body.document.bind SubmitWorkflowReq.read with
        | none => rfl
        | some input => rfl

variable (d env s agentKey content metadata bearer length) in
theorem served_submission (hvalid : AssignmentClaims.validWorkflowId workflowId = true) :
    (∃ reply, serve d env ((BridgeClient.submitRequest workflowId agentKey content metadata).sent bearer length) s =
        .quiet reply s ∧ ∀ view, reply ≠ .workflow view) ∨
    ∃ req : Request, Dispatches req.method req.path workflowId workflowId ∧
      ((metadata.value.get "assignment_claim".toList = none ∧
        serve d env ((BridgeClient.submitRequest workflowId agentKey content metadata).sent bearer length) s =
          routers env req s) ∨
      ∃ claimValue call token, metadata.value.get "assignment_claim".toList = some claimValue ∧
        AssignmentClaims.claimChecks d.claims s workflowId agentKey claimValue = .ok (call, token) ∧
        serve d env ((BridgeClient.submitRequest workflowId agentKey content metadata).sent bearer length) s =
          AssignmentClaims.afterRenewal (routers env) req s call token (env.controlPlane call)) := by
  let sent := (BridgeClient.submitRequest workflowId agentKey content metadata).sent bearer length
  have hserve : serve d env sent s = d.security.enforce (Http.inner d env) { sent with adapter := none } s := rfl
  -- through the layers in the order the request meets them: security, leases, claims, router
  rw [hserve]
  rcases WorkflowSecurity.enforce_refuses d.security (Http.inner d env) { sent with adapter := none } s with
    ⟨status, error, hrefused⟩ | ⟨req, hmethod, hpath, hbody, hpassed⟩
  · exact .inl ⟨_, hrefused, by rintro _ ⟨⟩⟩
  · have hdispatches : Dispatches req.method req.path workflowId workflowId := by
      rw [hmethod, hpath]
      show Dispatches .post ('/' :: trimPath ("workflows/".toList ++ workflowId ++ "/submissions".toList)) workflowId
        workflowId
      rw [trimPath_submissions hvalid]
      exact AssignmentClaims.dispatches_of_valid hvalid
    obtain ⟨hroute, hcanonical⟩ := hdispatches.notLease
    rw [hpassed, inner_of_notLease (fun _ => hroute) hcanonical, AssignmentClaims.enforce,
      hdispatches.classified_iff.mpr rfl]
    dsimp only
    by_cases hlength : req.body.length > s.config.maxHttpBodyBytes
    · rw [if_pos hlength]
      exact .inl ⟨_, rfl, by rintro _ ⟨⟩⟩
    · rw [if_neg hlength]
      cases hread : req.body.document.bind SubmissionEnvelope.read with
      | none => exact .inl ⟨_, rfl, by rintro _ ⟨⟩⟩
      | some submission =>
        -- the bridge reads back the metadata that the runner has written
        have hsubmission : submission = ⟨agentKey, metadata.value⟩ := by
          obtain ⟨j, hj, hread⟩ := Option.bind_eq_some_iff.mp hread
          rw [hbody, Body.document] at hj
          split_ifs at hj
          cases hj
          rw [read_submitRequest] at hread
          exact (Option.some.inj hread).symm
        subst hsubmission
        dsimp only
        cases hclaim : metadata.value.get "assignment_claim".toList with
        | none =>
          dsimp only
          split_ifs
          · exact .inl ⟨_, rfl, by rintro _ ⟨⟩⟩
          · exact .inr ⟨req, hdispatches, .inl ⟨rfl, rfl⟩⟩
        | some claimValue =>
          dsimp only
          cases hchecks : AssignmentClaims.claimChecks d.claims s workflowId agentKey claimValue with
          | error reply => exact .inl ⟨reply, rfl, AssignmentClaims.claimChecks_refuses hchecks⟩
          | ok checked => exact .inr ⟨req, hdispatches, .inr ⟨_, _, _, rfl, hchecks, rfl⟩⟩

theorem unclaimed_submission (hvalid : AssignmentClaims.validWorkflowId workflowId = true)
    (hplain : "assignment_claim".toList ∉ fields.map Prod.fst) :
    (serve d env ((BridgeClient.submitRequest workflowId agentKey content (.obj fields)).sent bearer length) s).calls =
      [] := by
  have hnone := Json.get_value_of_notMem hplain
  rcases served_submission d env s agentKey content (.obj fields) bearer length hvalid with
    ⟨reply, hserved, -⟩ | ⟨req, hdispatches, ⟨-, hserved⟩ | ⟨claimValue, call, token, hclaim, -⟩⟩
  · rw [hserved]
    rfl
  · rw [hserved]
    exact calls_routers env s hdispatches
  · rw [hnone] at hclaim
    cases hclaim

theorem claimed_submission {claims : ClaimConfig} {ordinal : Nat} {claim : LeaseHandle}
    (hvalid : AssignmentClaims.validWorkflowId workflowId = true)
    (hcanonical : Text.toAsciiLowercase (Text.trim claims.repository) = Text.trim claims.repository)
    (hterms : terms (claims.owner, claim) =
      (claims.owner, claims.repository, [claims.path workflowId ordinal], claims.ttlMs))
    (hpresents : fields.getLast? =
      some ("assignment_claim".toList, claims.metadata workflowId ordinal claim.fencingToken)) {o : Outcome}
    (ho : serve d env
      ((BridgeClient.submitRequest workflowId agentKey content (.obj fields)).sent bearer length) s = o) :
    o.calls = [] ∧ (∀ view, o.reply ≠ .workflow view) ∨
    o.calls = [renewCall claim claims.owner] ∧ ∀ view, o.reply = .workflow view →
      ∃ response, env.controlPlane (renewCall claim claims.owner) = .ok response ∧ Confirmed response claim := by
  have hsome := Json.get_value_of_getLast hpresents
  rcases served_submission d env s agentKey content (.obj fields) bearer length hvalid with
    ⟨reply, hserved, hrefused⟩ | ⟨req, hdispatches, ⟨hnone, -⟩ | ⟨claimValue, call, token, hclaim, hchecks, hserved⟩⟩
  · rw [← ho, hserved]
    exact .inl ⟨rfl, hrefused⟩
  · rw [hsome] at hnone
    cases hnone
  · rw [hsome] at hclaim
    obtain rfl := Option.some.inj hclaim
    obtain ⟨presented, ordinal', hread, hmatches, rfl, rfl⟩ := AssignmentClaims.claimChecks_matches hchecks
    rw [AssignmentClaims.renewal_of_matches hmatches] at hserved
    rw [read_metadata] at hread
    split_ifs at hread
    obtain rfl := Option.some.inj hread
    have hcall : renewCall claim claims.owner = .renew (Text.toAsciiLowercase (Text.trim claims.repository))
        [claims.path workflowId ordinal] (Text.trim claims.owner) claim.fencingToken claims.ttlMs := by
      obtain ⟨-, hrest⟩ := Prod.mk.inj hterms
      obtain ⟨hrepository, hrest⟩ := Prod.mk.inj hrest
      obtain ⟨hpaths, httl⟩ := Prod.mk.inj hrest
      rw [renewCall, hrepository, hpaths, httl, hcanonical]
    rw [← hcall] at hserved
    rw [← ho, hserved]
    obtain ⟨hcalls, hconfirmed⟩ := AssignmentClaims.afterRenewal_confirmed (renewCall claim claims.owner)
      claim.fencingToken (env.controlPlane (renewCall claim claims.owner)) (calls_routers env s hdispatches)
    refine .inr ⟨hcalls, fun view hview => ?_⟩
    obtain ⟨response, hanswer, hsuccess, hrenewed⟩ := hconfirmed view hview
    exact ⟨response, hanswer, hsuccess, hrenewed⟩

end Submission
end Runner
end AgentBridge
