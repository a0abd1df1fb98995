import AgentBridge.Runner.Carried

/-! The claims of a runner and the policy of its bridge, each read from its own environment.
The bridge takes a claim exactly when both agree, and where they do not, no assignment of the
runner is ever submitted. -/

namespace Text

/-- A clean beginning stays as it is, and what follows it loses its trailing white space. -/
theorem trim_append {s t : Text} (hs : s ≠ []) (hclean : StartsClean s) (ht : trim t ≠ []) :
    trim (s ++ t) = s ++ t.rdropWhile isWhitespace := by
  have hstart : (s ++ t).dropWhile isWhitespace = s ++ t := by
    refine startsClean_iff.mp fun c hc => hclean c ?_
    rwa [List.head?_append_of_ne_nil _ hs] at hc
  have hend : t.reverse.dropWhile isWhitespace ≠ [] := by
    intro hnil
    apply ht
    rw [trim_eq_dropWhile, List.rdropWhile, hnil]
    rfl
  rw [trim, hstart, List.rdropWhile, List.reverse_append, List.dropWhile_append, if_neg (by simpa using hend),
    List.reverse_append, List.reverse_reverse]
  rfl

theorem trim_append_eq_iff {s t : Text} (hs : s ≠ []) (hclean : StartsClean s) (ht : trim t ≠ []) :
    trim (s ++ t) = s ++ trim t ↔ StartsClean t := by
  rw [trim_append hs hclean ht, List.append_cancel_left_eq, trim_eq_dropWhile, eq_comm, ← startsClean_iff]
  have hne : t.rdropWhile isWhitespace ≠ [] := by
    intro hnil
    apply ht
    rw [trim_eq_dropWhile, hnil]
    rfl
  have hhead : (t.rdropWhile isWhitespace).head? = t.head? := by
    obtain ⟨rest, hrest⟩ := List.rdropWhile_prefix isWhitespace t
    conv_rhs => rw [← hrest, List.head?_append_of_ne_nil _ hne]
  rw [StartsClean, StartsClean, hhead]

end Text

namespace AgentBridge.Runner
open Http

/-- The configuration of a runner fits the policy of a bridge. The instance id is checked without the white space
around it and kept with it. -/
structure ClaimConfig.Agrees (claims : ClaimConfig) (policy : AssignmentClaimPolicy) : Prop where
  repository : policy.repository = claims.repository
  ttlMs : claims.ttlMs ≤ policy.maxTtlMs
  instanceId : Text.StartsClean claims.instanceId
  printable : ∀ c ∈ claims.instanceId, Text.isControl c = false

section Agreement
variable {claims : ClaimConfig} {policy : AssignmentClaimPolicy} {workflowId agentKey : Text} {token : Nat}

theorem trim_instanceId (h : claims.Valid) : Text.trim claims.instanceId ≠ [] := by
  intro hnil
  have hinstance := h.instanceId
  unfold validateInstanceId at hinstance
  dsimp only at hinstance
  rw [hnil] at hinstance
  cases hinstance

theorem claimMatches_iff (h : claims.Valid) (policy : AssignmentClaimPolicy) (workflowId : Text)
    (token ordinal ordinal' : Nat) :
    AssignmentClaims.claimMatches policy ⟨claims.repository, [claims.path workflowId ordinal], claims.owner, token,
      claims.ttlMs, ordinal, claims.instanceId⟩ workflowId ordinal' = true ↔
      ordinal = ordinal' ∧ token ≠ 0 ∧ claims.Agrees policy := by
  have hid := trim_instanceId h
  have hrunner : Text.StartsClean "runner/".toList := by
    rintro c ⟨⟩
    rfl
  have howner := Text.trim_append_eq_iff (by decide) hrunner hid
  have hnonempty : Text.trim claims.owner ≠ [] := by
    rw [h.owner, Text.trim_append (by decide) hrunner hid]
    exact List.append_ne_nil_of_left_ne_nil (by decide) _
  rw [← h.owner] at howner
  simp only [AssignmentClaims.claimMatches, Bool.and_eq_true, decide_eq_true_eq, Bool.not_eq_true',
    List.isEmpty_eq_false_iff, h.canonical, howner]
  constructor
  -- white space at the start of the id stands behind the prefix, where trimming the owner leaves it
  · rintro ⟨⟨⟨⟨⟨⟨⟨⟨⟨hordinal, hrepository⟩, -⟩, -⟩, hclean⟩, -⟩, hprintable⟩, htoken⟩, -⟩, httl⟩
    refine ⟨hordinal, htoken, hrepository.symm, httl, hclean, fun c hc => ?_⟩
    simpa using List.any_eq_false.mp hprintable c hc
  · rintro ⟨rfl, htoken, hagrees⟩
    refine ⟨⟨⟨⟨⟨⟨⟨⟨⟨rfl, hagrees.repository.symm⟩, rfl⟩, hnonempty⟩, hagrees.instanceId⟩, hid⟩, ?_⟩, htoken⟩, ?_⟩,
      hagrees.ttlMs⟩
    · exact List.any_eq_false.mpr fun c hc => by simp [hagrees.printable c hc]
    · exact (Nat.lt_of_lt_of_le Nat.zero_lt_one h.ttlMs.1).ne'

theorem claimChecks_iff (h : claims.Valid) {s : AppState} {plan : WorkflowPlan} {a : WorkflowAssignment}
    (hplane : s.config.controlPlane = true) (hplan : AssignmentClaims.loadPlan s workflowId = .ok plan)
    (hfind : plan.assignments.find? (fun a => a.agentKey = Text.trim agentKey) = some a) (hordinal : a.ordinal < 2 ^ 64)
    (htoken : 0 < token ∧ token < 2 ^ 64) :
    (∃ call, AssignmentClaims.claimChecks policy s workflowId agentKey
      (claims.metadata workflowId a.ordinal token).value = .ok (call, token)) ↔ claims.Agrees policy := by
  have httl : claims.ttlMs < 2 ^ 64 := Nat.lt_of_le_of_lt h.ttlMs.2 (by decide)
  have hread := read_metadata claims workflowId a.ordinal token
  rw [if_pos ⟨htoken.2, httl, hordinal⟩] at hread
  have hmatches := claimMatches_iff h policy workflowId token a.ordinal a.ordinal
  rw [AssignmentClaims.claimChecks, hread]
  dsimp only
  rw [if_neg (by simp [hplane]), hplan]
  dsimp only
  rw [hfind]
  dsimp only
  constructor
  · rintro ⟨call, hok⟩
    obtain ⟨hpassed, -⟩ := Except.check_eq_ok.mp hok
    exact (hmatches.mp (by simpa using hpassed)).2.2
  · intro hagrees
    rw [if_neg (by simp [hmatches.mpr ⟨rfl, htoken.1.ne', hagrees⟩])]
    exact ⟨_, rfl⟩

end Agreement

namespace AssignmentTask
variable {cfg : RunnerSettings} {t : AssignmentTask} {phase : AssignmentPhase} {tr : List WireEvent}
  {policy : AssignmentClaimPolicy}

theorem refused_of_disagrees {fields : List (Text × Json)} {ordinal token : Nat} {workflowId agentKey content : Text}
    {d : Deployment} {env : Env} {s : AppState} {bearer : Option Text} {length : Nat} (h : cfg.claims.Valid)
    (hid : AssignmentClaims.validWorkflowId workflowId = true)
    (hpresents : fields.getLast? = some ("assignment_claim".toList, cfg.claims.metadata workflowId ordinal token))
    (hdisagrees : ¬ cfg.claims.Agrees d.claims) (view : WorkflowView) :
    (serve d env ((BridgeClient.submitRequest workflowId agentKey content (.obj fields)).sent bearer length) s).reply ≠
      .workflow view := by
  have hsome := Json.get_value_of_getLast hpresents
  rcases served_submission d env s agentKey content (.obj fields) bearer length hid with
    ⟨reply, hserved, hrefused⟩ | ⟨req, -, ⟨hnone, -⟩ | ⟨claimValue, call, token', hclaim, hchecks, -⟩⟩
  · rw [hserved]
    exact hrefused view
  · rw [hsome] at hnone
    cases hnone
  · rw [hsome] at hclaim
    obtain rfl := Option.some.inj hclaim
    obtain ⟨presented, ordinal', hread, hmatches, -, -⟩ := AssignmentClaims.claimChecks_matches hchecks
    rw [read_metadata] at hread
    split_ifs at hread
    obtain rfl := Option.some.inj hread
    exact absurd ((claimMatches_iff h _ _ _ ordinal ordinal').mp hmatches).2.2 hdisagrees

theorem eq_of_did_mem {calls : List ControlPlaneCall} {env : Env} {e e' : AssignmentEvent}
    (h : .did e' ∈ calls.map (fun call => WireEvent.asked call (env.controlPlane call)) ++ [.did e]) : e' = e := by
  rcases List.mem_append.mp h with hasked | hdid
  · obtain ⟨call, -, heq⟩ := List.mem_map.mp hasked
    cases heq
  · exact WireEvent.did.inj (List.mem_singleton.mp hdid)

theorem not_submitted_of_unfounded {events : List AssignmentEvent} {product : Product}
    (h : ∀ e ∈ events, Unfounded e) : WireEvent.did (.submitted product true) ∉ events.map WireEvent.did := by
  intro hmem
  obtain ⟨e, he, heq⟩ := List.mem_map.mp hmem
  obtain rfl := WireEvent.did.inj heq
  exact h _ he (.release [] 0)

theorem not_submitted_carry (hvalid : cfg.claims.Valid) (henabled : cfg.claims.enabled = true)
    (hid : AssignmentClaims.validWorkflowId t.workflow.plan.id = true) (hdisagrees : ¬ cfg.claims.Agrees policy)
    (hrouted : Routed cfg t phase) (hkept : Kept cfg t phase (deeds tr)) {m : WireMove}
    (hm : ∀ serving, m = .served serving → serving.deployment.claims = policy) (product : Product) :
    WireEvent.did (.submitted product true) ∉ (t.carry cfg phase m).2 := by
  rcases carry_cases hrouted m with ⟨events, hevents, hunfounded⟩ | ⟨leases, submitted, serving, rfl, rfl⟩ |
    ⟨c, env, o, delivered, e, -, -, he, hevents⟩
  · rw [hevents]
    exact not_submitted_of_unfounded hunfounded
  · obtain ⟨hcovers, -, -, hclaim⟩ := hkept.stands
    obtain ⟨claim, hsome⟩ := Option.ne_none_iff_exists'.mp (claim_of_covers hcovers henabled)
    rw [hsome] at hclaim
    rw [← hm serving rfl] at hdisagrees
    obtain ⟨accepted, hcarry, haccepted⟩ := carry_submitting cfg t leases submitted serving
    rw [hcarry]
    intro hmem
    cases eq_of_did_mem hmem
    obtain ⟨view, hview⟩ := haccepted rfl
    exact refused_of_disagrees hvalid hid hclaim.2 hdisagrees view hview
  -- no reply to a lease request counts as a submission
  · rw [hevents]
    intro hmem
    obtain rfl := eq_of_did_mem hmem
    exact he

theorem not_submitted_run (hvalid : cfg.claims.Valid) (henabled : cfg.claims.enabled = true)
    (hid : AssignmentClaims.validWorkflowId t.workflow.plan.id = true) (hdisagrees : ¬ cfg.claims.Agrees policy)
    (hbuilt : ∀ r, t.requirement = some r →
      r.acquirePath = "/file-leases/acquire".toList ∧ r.releasePath = "/file-leases/release".toList)
    {moves : List WireMove} (hmoves : ∀ serving, .served serving ∈ moves → serving.deployment.claims = policy)
    (product : Product) : WireEvent.did (.submitted product true) ∉ (runCarried cfg t moves).2 := by
  -- the trace grows at its end, and what its phase knows forbids the step an accepted submission
  induction moves using List.reverseRecOn with
  | nil => exact List.not_mem_nil
  | append_singleton moves m ih =>
    have hbefore := ih fun serving hmem => hmoves serving (List.mem_append_left _ hmem)
    have halways := carried_always (canonical_of_valid hvalid) hid hbuilt moves
    obtain ⟨told, hphase, hdeeds⟩ := carried_run cfg t moves
    have hkeeps := keeps_run cfg t told
    rw [← hphase, ← hdeeds] at hkeeps
    rw [runCarried_concat]
    generalize runCarried cfg t moves = r at hbefore halways hkeeps
    obtain ⟨phase, tr⟩ := r
    cases phase with
    | none => simpa [Run.recorded] using hbefore
    | some phase =>
      intro hmem
      rcases List.mem_append.mp hmem with hold | hnew
      · exact hbefore hold
      · refine not_submitted_carry hvalid henabled hid hdisagrees (routed_of_kept hbuilt hkeeps halways) hkeeps ?_
          product hnew
        rintro serving rfl
        exact hmoves serving (List.mem_append_right _ List.mem_cons_self)

/-- The bridge takes the claims of a runner exactly when the configurations of both agree, and where they do not, no run
of an assignment of the runner has a submission that is accepted. -/
theorem claims_agree {var : Text → Option Text} {claims : ClaimConfig} (henv : ClaimConfig.fromEnv var = .ok claims)
    (policy : AssignmentClaimPolicy) :
    (∀ (s : AppState) (workflowId agentKey : Text) (plan : WorkflowPlan) (a : WorkflowAssignment) (token : Nat),
      s.config.controlPlane = true → AssignmentClaims.loadPlan s workflowId = .ok plan →
      plan.assignments.find? (fun a => a.agentKey = Text.trim agentKey) = some a → a.ordinal < 2 ^ 64 →
      0 < token ∧ token < 2 ^ 64 →
      ((∃ call, AssignmentClaims.claimChecks policy s workflowId agentKey
        (claims.metadata workflowId a.ordinal token).value = .ok (call, token)) ↔ claims.Agrees policy)) ∧
    (claims.enabled = true → ¬ claims.Agrees policy → ∀ (cfg : RunnerSettings) (t : AssignmentTask)
      (repository : Option Text) (paths : List Text) (required : Bool) (ttlMs : Option Nat), cfg.claims = claims →
      AssignmentClaims.validWorkflowId t.workflow.plan.id = true →
      Orchestration.buildFileLeaseRequirement repository paths required ttlMs = .ok t.workflow.plan.fileLease →
      ∀ moves : List WireMove, (∀ serving, .served serving ∈ moves → serving.deployment.claims = policy) →
      ∀ product, WireEvent.did (.submitted product true) ∉ (runCarried cfg t moves).2) := by
  have hvalid := ClaimConfig.fromEnv_valid henv
  constructor
  · intro s workflowId agentKey plan a token hplane hplan hfind hordinal htoken
    exact claimChecks_iff hvalid hplane hplan hfind hordinal htoken
  · rintro henabled hdisagrees cfg t repository paths required ttlMs rfl hid hplan moves hmoves product
    exact not_submitted_run hvalid henabled hid hdisagrees (built_of_plan hplan) hmoves product

end AssignmentTask

def AssignmentEvent.isRefusal : AssignmentEvent → Bool
  | .submitted _ accepted => !accepted
  | _ => false

/-- The replica against a bridge with the claims of another repository, which refuses what is submitted under them. -/
theorem claims_agree_acme :
    ((∃ call, AssignmentClaims.claimChecks (bearerDeployment true 2097152).claims
        (planState (bearerDeployment true 2097152).config "id0".toList) "id0".toList "ada".toList
        (claimingClaims.metadata "id0".toList 0 7).value = .ok (call, 7)) ↔
      claimingClaims.Agrees (bearerDeployment true 2097152).claims) ∧
    (deeds claimedRun.2).any AssignmentEvent.isRefusal = true ∧
    ∀ product, WireEvent.did (.submitted product true) ∉ claimedRun.2 := by
  have hdisagrees : ¬ claimingClaims.Agrees (bearerDeployment true 2097152).claims := fun h =>
    absurd h.repository (by decide)
  have hserved : ∀ serving, WireMove.served serving ∈ claimedSubmission →
      serving.deployment.claims = (bearerDeployment true 2097152).claims := by
    intro serving hmem
    simp only [claimedSubmission, List.mem_cons, List.not_mem_nil, or_false, WireMove.served.injEq, reduceCtorEq,
      false_or] at hmem
    rcases hmem with rfl | rfl | rfl | rfl <;> rfl
  refine ⟨?_, by decide +kernel, ?_⟩
  · exact (AssignmentTask.claims_agree fromEnv_claimingVar _).1
      (planState (bearerDeployment true 2097152).config "id0".toList) "id0".toList "ada".toList (adaPlan "id0".toList)
      { ordinal := 0, agentKey := "ada".toList, role := .worker, phase := 0 } 7 rfl loadPlan_planState rfl (by decide)
      (by decide)
  · exact (AssignmentTask.claims_agree fromEnv_claimingVar _).2 rfl hdisagrees claimingSettings leasedTask _ _ _ _ rfl
      (by decide) leasedPlan_fileLease claimedSubmission hserved

end AgentBridge.Runner
