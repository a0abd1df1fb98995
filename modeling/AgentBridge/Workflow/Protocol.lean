import AgentBridge.Base.Run
import AgentBridge.State.Embed
import AgentBridge.Workflow.Turns

/-! Runs of the workflow handlers in which the locked steps of any number of
submissions interleave. -/

namespace AgentBridge.Orchestration
open State

structure SubmitWorld where
  state : AppState
  calls : List SubmitCall

/-- Requests, and the next locked step of a submission under way. -/
inductive WorkflowAction
  | register (now : Now) (agent : Agent)
  | create (w : Surroundings) (now : Now) (id messageId : Text) (req : CreateWorkflowReq)
  | setContext (now : Now) (slug key : Text) (value : Json) (updatedBy : Text)
  | submit (workflowId : Text) (req : SubmitWorkflowReq)
  | advance (i : Nat) (now : Now) (messageId : Text)

namespace SubmitWorld

def init (config : Config) : SubmitWorld := ⟨AppState.new config, []⟩

def step (w : SubmitWorld) : WorkflowAction → SubmitWorld
  | .register now agent => { w with state := (w.state.registerAgent now agent).2 }
  | .create env now id messageId req =>
    { w with state := (createWorkflow w.state env now id messageId req).2 }
  | .setContext now slug key value updatedBy =>
    { w with state := (w.state.setContext now slug key value updatedBy).2 }
  | .submit workflowId req => { w with calls := w.calls ++ [.start w.state workflowId req] }
  | .advance i now messageId =>
    match w.calls[i]? with
    | none => w
    | some call =>
      let r := call.step w.state now messageId
      { state := r.2, calls := w.calls.set i r.1 }

abbrev run (config : Config) (as : List WorkflowAction) : SubmitWorld :=
  Run.exec step (init config) as

end SubmitWorld

/-- What a step can do to the records: nothing, a new plan, a submission whose earlier
phases are stored, or an entry outside the reserved namespaces. -/
inductive RecordStep (s s' : AppState) : Prop
  | same (h : ∀ c k, s'.entry c k = s.entry c k)
  | plan (plan : WorkflowPlan) (e : ContextEntry) (hfree : s.entry plan.channel planContextKey = none)
      (hkey : e.key = planContextKey) (hvalue : e.value = .workflowPlan plan)
      (hn : Numbered plan.mode plan.assignments) (hput : Puts s s' plan.channel e)
  | submission (plan : WorkflowPlan) (a : WorkflowAssignment) (submission : WorkflowSubmission)
      (e : ContextEntry) (hplan : PlanAt s plan) (hans : Answers plan submission a)
      (hready : needs plan a.ordinal ⊆ storedOrdinals s plan.channel)
      (hfree : s.entry plan.channel (submissionKey a.ordinal) = none)
      (hkey : e.key = submissionKey a.ordinal) (hvalue : e.value = .workflowSubmission submission)
      (hput : Puts s s' plan.channel e)
  | generic (slug : Text) (e : ContextEntry) (hkey : isReservedContextKey e.key = false)
      (hput : Puts s s' slug e)

def IsRecordKey (key : Text) : Prop := key = planContextKey ∨ submissionContextPrefix <+: key

/-- Plans and submissions are kept as they are. -/
def Grows (s s' : AppState) : Prop :=
  ∀ c k e, IsRecordKey k → s.entry c k = some e → s'.entry c k = some e

section Growth
variable {s s' : AppState} {plan : WorkflowPlan}

theorem Grows.refl (s : AppState) : Grows s s := fun _ _ _ _ he => he

theorem Grows.trans {s'' : AppState} (h : Grows s s') (h' : Grows s' s'') : Grows s s'' :=
  fun c k e hk he => h' c k e hk (h c k e hk he)

theorem Grows.stored_subset (h : Grows s s') (c : Text) : storedOrdinals s c ⊆ storedOrdinals s' c := by
  rintro n ⟨e, he⟩
  exact ⟨e, h _ _ _ (.inr (submissionContextPrefix_isPrefix n)) he⟩

theorem Grows.planAt (h : Grows s s') (hplan : PlanAt s plan) : PlanAt s' plan := by
  obtain ⟨e, he, hv⟩ := hplan
  exact ⟨e, h _ _ _ (.inl rfl) he, hv⟩

theorem Puts.kept {slug c k : Text} {e e' : ContextEntry} (h : Puts s s' slug e)
    (hfree : s.entry slug e.key = none) (he : s.entry c k = some e') : s'.entry c k = some e' := by
  rw [h.ne, he]
  rintro ⟨rfl, rfl⟩
  rw [hfree] at he
  cases he

theorem isReservedContextKey_of_record {key : Text} (h : IsRecordKey key) : isReservedContextKey key = true := by
  rcases h with rfl | hp
  · exact isReservedContextKey_planContextKey
  · exact isReservedContextKey_of_prefix (List.IsPrefix.trans (by decide) hp)

theorem RecordStep.grows (h : RecordStep s s') : Grows s s' := by
  intro c k e hk he
  cases h with
  | same h => rw [h, he]
  | plan plan e' hfree hkey hvalue hn hput => exact hput.kept (hkey ▸ hfree) he
  | submission plan a submission e' hplan hans hready hfree hkey hvalue hput =>
    exact hput.kept (hkey ▸ hfree) he
  | generic slug e' hkey hput =>
    rw [hput.ne, he]
    rintro ⟨rfl, rfl⟩
    rw [isReservedContextKey_of_record hk] at hkey
    cases hkey

end Growth

section Preservation
variable {s s' : AppState} {slug c : Text} {e : ContextEntry} {plan : WorkflowPlan}

theorem Puts.planAt (h : Puts s s' slug e) (hkey : e.key ≠ planContextKey) (hplan : PlanAt s' plan) :
    PlanAt s plan := by
  obtain ⟨e', he', hv⟩ := hplan
  rw [h.ne fun hc => hkey hc.2.symm] at he'
  exact ⟨e', he', hv⟩

theorem Puts.stored_eq (h : Puts s s' slug e) (hkey : ∀ n, e.key ≠ submissionKey n) (c : Text) :
    storedOrdinals s' c = storedOrdinals s c := by
  ext n
  simp only [storedOrdinals, Set.mem_ofPred_eq, h.ne fun hc => hkey n hc.2.symm]

theorem Puts.stored_insert {n : Nat} (h : Puts s s' slug e) (hkey : e.key = submissionKey n) :
    storedOrdinals s' slug = insert n (storedOrdinals s slug) := by
  ext m
  by_cases hm : m = n
  · rw [hm]
    exact iff_of_true ⟨e, hkey ▸ h.self⟩ (.inl rfl)
  · have hne : submissionKey m ≠ e.key := fun he => hm (submissionKey_injective (he.trans hkey))
    simp [storedOrdinals, h.ne fun hc => hne hc.2, hm]

theorem RecordsOk.of_quiet (hs : RecordsOk s) (hkeyed : Keyed s')
    (hplan : ∀ c, s'.entry c planContextKey = s.entry c planContextKey)
    (hsub : ∀ c k, submissionContextPrefix <+: k → s'.entry c k = s.entry c k) : RecordsOk s' := by
  have hat (p : WorkflowPlan) : PlanAt s' p ↔ PlanAt s p := by
    unfold PlanAt
    rw [hplan]
  have hstored (c : Text) : storedOrdinals s' c = storedOrdinals s c := by
    ext n
    simp only [storedOrdinals, Set.mem_ofPred_eq, hsub _ _ (submissionContextPrefix_isPrefix n)]
  refine ⟨hkeyed, fun c e he => hs.plans c e (hplan c ▸ he), fun c k e he hp => ?_, fun p hp => ?_⟩
  · obtain ⟨p, sub, a, hc, hp', hans⟩ := hs.submissions c k e (hsub c k hp ▸ he) hp
    exact ⟨p, sub, a, hc, (hat p).mpr hp', hans⟩
  · rw [hstored]
    exact hs.turns p ((hat p).mp hp)

theorem RecordsOk.put_plan (hs : RecordsOk s) (hfree : s.entry plan.channel planContextKey = none)
    (hkey : e.key = planContextKey) (hvalue : e.value = .workflowPlan plan)
    (hn : Numbered plan.mode plan.assignments) (hput : Puts s s' plan.channel e) : RecordsOk s' := by
  have hgrows := (RecordStep.plan plan e hfree hkey hvalue hn hput).grows
  have hkeyNe (n : Nat) : e.key ≠ submissionKey n :=
    fun h => submissionKey_ne_planContextKey n (h.symm.trans hkey)
  refine ⟨hput.keyed hs.keyed, fun c e' he => ?_, fun c k e' he hp => ?_, fun p hp => ?_⟩
  · rw [hput.entry] at he
    split_ifs at he with hc
    · cases he
      exact ⟨plan, hvalue, hc.1.symm, hn⟩
    · exact hs.plans c e' he
  · have hne : k ≠ e.key := by
      rintro rfl
      rw [hkey] at hp
      exact absurd hp (by decide)
    rw [hput.ne fun hc => hne hc.2] at he
    obtain ⟨p, sub, a, hc, hp', hans⟩ := hs.submissions c k e' he hp
    exact ⟨p, sub, a, hc, hgrows.planAt hp', hans⟩
  · rw [hput.stored_eq hkeyNe]
    obtain ⟨e', he', hv'⟩ := hp
    by_cases hc : p.channel = plan.channel
    · rintro n ⟨e'', he''⟩
      obtain ⟨p', _, _, hc', ⟨e₀, he₀, -⟩, -⟩ :=
        hs.submissions _ _ _ he'' (submissionContextPrefix_isPrefix n)
      rw [hc', hc, hfree] at he₀
      cases he₀
    · rw [hput.ne fun h => hc h.1] at he'
      exact hs.turns p ⟨e', he', hv'⟩

theorem RecordsOk.put_submission {a : WorkflowAssignment} {submission : WorkflowSubmission}
    (hs : RecordsOk s) (hplan : PlanAt s plan) (hans : Answers plan submission a)
    (hready : needs plan a.ordinal ⊆ storedOrdinals s plan.channel)
    (hfree : s.entry plan.channel (submissionKey a.ordinal) = none)
    (hkey : e.key = submissionKey a.ordinal) (hvalue : e.value = .workflowSubmission submission)
    (hput : Puts s s' plan.channel e) : RecordsOk s' := by
  have hgrows :=
    (RecordStep.submission plan a submission e hplan hans hready hfree hkey hvalue hput).grows
  have hkeyNe : e.key ≠ planContextKey := hkey ▸ submissionKey_ne_planContextKey a.ordinal
  refine ⟨hput.keyed hs.keyed, fun c e' he => ?_, fun c k e' he hp => ?_, fun p hp => ?_⟩
  · rw [hput.ne fun hc => hkeyNe hc.2.symm] at he
    exact hs.plans c e' he
  · rw [hput.entry] at he
    split_ifs at he with hc
    · cases he
      exact ⟨plan, submission, a, hc.1.symm, hgrows.planAt hplan, hans, hc.2.trans hkey, hvalue⟩
    · obtain ⟨p, sub, a', hc', hp', hans'⟩ := hs.submissions c k e' he hp
      exact ⟨p, sub, a', hc', hgrows.planAt hp', hans'⟩
  · have hp' := hput.planAt hkeyNe hp
    by_cases hc : p.channel = plan.channel
    · obtain rfl := hp'.unique hplan hc
      rw [hput.stored_insert hkey]
      exact (hs.turns p hp').mono_insert hready Set.Subset.rfl
    · have hsame : storedOrdinals s' p.channel = storedOrdinals s p.channel := by
        ext n
        simp [storedOrdinals, hput.ne fun h => hc h.1]
      rw [hsame]
      exact hs.turns p hp'

theorem RecordStep.recordsOk (h : RecordStep s s') (hs : RecordsOk s) : RecordsOk s' := by
  cases h with
  | same h =>
    exact hs.of_quiet (fun c k e he => hs.keyed c k e (h c k ▸ he)) (fun c => h c _) fun c k _ => h c k
  | plan plan e hfree hkey hvalue hn hput => exact hs.put_plan hfree hkey hvalue hn hput
  | submission plan a submission e hplan hans hready hfree hkey hvalue hput =>
    exact hs.put_submission hplan hans hready hfree hkey hvalue hput
  | generic slug e hkey hput =>
    refine hs.of_quiet (hput.keyed hs.keyed) (fun c => hput.ne ?_) fun c k hp => hput.ne ?_
    · rintro ⟨-, hk⟩
      rw [← hk, isReservedContextKey_planContextKey] at hkey
      cases hkey
    · rintro ⟨-, rfl⟩
      rw [isReservedContextKey_of_record (.inr hp)] at hkey
      cases hkey

end Preservation

section Create
variable {s s₁ s₂ s₃ : AppState} {now : Now} {plan : WorkflowPlan}

theorem Puts.congr {slug : Text} {e : ContextEntry} (h₁ : ∀ c k, s₁.entry c k = s.entry c k)
    (h : Puts s₁ s₂ slug e) (h₂ : ∀ c k, s₃.entry c k = s₂.entry c k) : Puts s s₃ slug e := by
  refine ⟨h.trimmed, fun c k => ?_⟩
  rw [h₂, h.entry, h₁]

theorem joinAll_entry (s : AppState) (now : Now) (channel : Text) (keys : List Text) (c k : Text) :
    (joinAll s now channel keys).2.entry c k = s.entry c k := by
  induction keys generalizing s with
  | nil => rfl
  | cons key keys ih =>
    have heff := (join_effect s now channel key .member).entry c k
    rw [joinAll]
    rcases hjoin : s.join now channel key .member with ⟨r, s₁⟩
    rw [hjoin] at heff
    cases r with
    | error e => exact heff
    | ok out => exact (ih s₁).trans heff

structure Picked (agents : List Agent) (req : CreateWorkflowReq) (capabilities : List Text)
    (reviewer : Option Text) (selected candidates : List Agent) (assignments : List WorkflowAssignment) : Prop where
  select : selectCandidates agents req.agentKeys req.agentKinds capabilities = .ok selected
  name : req.reviewerAgentKey.mapM normalizeAgentKey = .ok reviewer
  retain : workerCandidates agents selected reviewer = .ok candidates
  build : buildAssignments req.mode candidates req.workerCount reviewer = .ok assignments

theorem buildPlan_picked {id : Text} {req : CreateWorkflowReq} (h : buildPlan s now id req = .ok plan) :
    plan.mode = req.mode ∧ normalizeCapabilities req.requiredCapabilities = .ok plan.requiredCapabilities ∧
      ∃ reviewer selected candidates,
        Picked s.listAgents req plan.requiredCapabilities reviewer selected candidates plan.assignments := by
  obtain ⟨title, -, h⟩ := Except.bind_eq_ok.mp h
  obtain ⟨prompt, -, h⟩ := Except.bind_eq_ok.mp h
  obtain ⟨createdBy, -, h⟩ := Except.bind_eq_ok.mp h
  obtain ⟨_, -, h⟩ := Except.bind_eq_ok.mp h
  obtain ⟨capabilities, hcapabilities, h⟩ := Except.bind_eq_ok.mp h
  obtain ⟨selected, hselected, h⟩ := Except.bind_eq_ok.mp h
  obtain ⟨reviewer, hreviewer, h⟩ := Except.bind_eq_ok.mp h
  obtain ⟨candidates, hcandidates, h⟩ := Except.bind_eq_ok.mp h
  obtain ⟨assignments, hbuild, h⟩ := Except.bind_eq_ok.mp h
  obtain ⟨fileLease, -, h⟩ := Except.bind_eq_ok.mp h
  cases h
  exact ⟨rfl, hcapabilities, reviewer, selected, candidates, hselected, hreviewer, hcandidates, hbuild⟩

theorem buildPlan_numbered {id : Text} {req : CreateWorkflowReq} (h : buildPlan s now id req = .ok plan) :
    Numbered plan.mode plan.assignments := by
  obtain ⟨hmode, -, reviewer, selected, candidates, hpicked⟩ := buildPlan_picked h
  rw [hmode]
  exact numbered_buildAssignments hpicked.build

theorem installPlan_cases (s : AppState) (w : Surroundings) (now : Now) (messageId : Text) (plan : WorkflowPlan) :
    (∀ c k, (installPlan s w now messageId plan).2.entry c k = s.entry c k) ∨
    ∃ e, s.entry plan.channel planContextKey = none ∧ e.key = planContextKey ∧ e.value = .workflowPlan plan ∧
      Puts s (installPlan s w now messageId plan).2 plan.channel e := by
  unfold installPlan
  have hcreate := (createOrGetChannel_effect s now plan.channel w plan.title plan.createdBy).entry
  rcases h₁ : s.createOrGetChannel w now plan.channel plan.title plan.createdBy with ⟨r₁, s₁⟩
  rw [h₁] at hcreate
  cases r₁ with
  | error e => exact .inl hcreate
  | ok channel =>
    dsimp only
    have hjoin (c k : Text) := (joinAll_entry s₁ now plan.channel
      (plan.assignments.map WorkflowAssignment.agentKey) c k).trans (hcreate c k)
    rcases h₂ : joinAll s₁ now plan.channel (plan.assignments.map WorkflowAssignment.agentKey)
      with ⟨r₂, s₂⟩
    simp only [h₂] at hjoin
    cases r₂ with
    | error e => exact .inl hjoin
    | ok u =>
      dsimp only
      rcases insertWorkflowContext_cases s₂ now plan.channel planContextKey (.workflowPlan plan)
        plan.createdBy trim_planContextKey with ⟨e, hinsert⟩ | ⟨e, s₃, hinsert, hfree, hkey, hvalue, -, hput⟩
      · rw [hinsert]
        exact .inl hjoin
      · rw [hinsert]
        dsimp only
        have hpost := (post_effect s₃ now messageId plan.channel plan.createdBy .system
          (createdMessage plan) (.obj [("kind".toList, .str "workflow_created".toList),
            ("workflow_id".toList, .str plan.id), ("mode".toList, .str plan.mode.name)])).entry
        rw [hjoin] at hfree
        rcases h₄ : s₃.postMessage now messageId plan.channel plan.createdBy .system (createdMessage plan)
          (.obj [("kind".toList, .str "workflow_created".toList),
            ("workflow_id".toList, .str plan.id), ("mode".toList, .str plan.mode.name)]) with ⟨r₄, s₄⟩
        rw [h₄] at hpost
        cases r₄ with
        | error e' => exact .inr ⟨e, hfree, hkey, hvalue, hput.congr hjoin hpost⟩
        | ok message => exact .inr ⟨e, hfree, hkey, hvalue, hput.congr hjoin hpost⟩

theorem installPlan_records (s : AppState) (w : Surroundings) (now : Now) (messageId : Text)
    (plan : WorkflowPlan) (hn : Numbered plan.mode plan.assignments) :
    RecordStep s (installPlan s w now messageId plan).2 := by
  rcases installPlan_cases s w now messageId plan with h | ⟨e, hfree, hkey, hvalue, hput⟩
  · exact .same h
  · exact .plan plan e hfree hkey hvalue hn hput

theorem createWorkflow_records (s : AppState) (w : Surroundings) (now : Now) (id messageId : Text)
    (req : CreateWorkflowReq) : RecordStep s (createWorkflow s w now id messageId req).2 := by
  unfold createWorkflow
  cases hplan : buildPlan s now id req with
  | error e => exact .same fun _ _ => rfl
  | ok plan => exact installPlan_records s w now messageId plan (buildPlan_numbered hplan)

theorem setContext_records (s : AppState) (now : Now) (slug key : Text) (value : Json)
    (updatedBy : Text) : RecordStep s (s.setContext now slug key value updatedBy).2 := by
  unfold AppState.setContext
  split_ifs with hreserved
  · exact .same fun _ _ => rfl
  · rcases hset : s.setContextInternal now slug key (.json value) updatedBy with ⟨r, s'⟩
    cases r with
    | error e =>
      rw [setContextInternal_error hset]
      exact .same fun _ _ => rfl
    | ok e =>
      obtain ⟨-, hkey, -, hentry⟩ := entry_setContextInternal hset
      refine .generic slug e ?_ ⟨?_, hkey.symm ▸ hentry⟩
      · rw [hkey, isReservedContextKey, Text.trim_trim]
        simpa [isReservedContextKey] using hreserved
      · rw [hkey, Text.trim_trim]

end Create

section Calls
variable {s s' : AppState} {now : Now} {messageId : Text} {call : SubmitCall}

/-- What a call under way has established: its plan is stored, the assignment is its own,
and once validated the earlier phases are stored. -/
def SubmitCall.Sound (s : AppState) : SubmitCall → Prop
  | .planned plan a input => PlanAt s plan ∧ a ∈ plan.assignments ∧ a.agentKey = input.agentKey
  | .validated plan a input => PlanAt s plan ∧ a ∈ plan.assignments ∧ a.agentKey = input.agentKey ∧
      needs plan a.ordinal ⊆ storedOrdinals s plan.channel
  | _ => True

theorem SubmitCall.Sound.mono (h : call.Sound s) (hgrows : Grows s s') : call.Sound s' := by
  cases call with
  | planned plan a input => exact ⟨hgrows.planAt h.1, h.2⟩
  | validated plan a input =>
    exact ⟨hgrows.planAt h.1, h.2.1, h.2.2.1, h.2.2.2.trans (hgrows.stored_subset _)⟩
  | checked workflowId input => trivial
  | stored plan a input => trivial
  | finished result => trivial

theorem SubmitCall.start_sound (s s' : AppState) (workflowId : Text) (req : SubmitWorkflowReq) :
    (SubmitCall.start s workflowId req).Sound s' := by
  unfold SubmitCall.start
  cases submitChecks s req <;> trivial

theorem step_checked (hs : RecordsOk s) (now : Now) (messageId workflowId : Text)
    (input : SubmissionInput) :
    ((SubmitCall.checked workflowId input).step s now messageId).2 = s ∧
      ((SubmitCall.checked workflowId input).step s now messageId).1.Sound s := by
  rw [SubmitCall.step]
  split
  · exact ⟨rfl, trivial⟩
  next plan a h =>
    obtain ⟨plan', hload, h⟩ := Except.bind_eq_ok.mp h
    obtain ⟨a', hfind, h⟩ := Except.bind_eq_ok.mp h
    cases h
    obtain ⟨channel, -, hload⟩ := Except.bind_eq_ok.mp hload
    unfold findAssignment at hfind
    cases hfound : plan.assignments.find? (fun a => a.agentKey = input.agentKey) with
    | none =>
      rw [hfound] at hfind
      cases hfind
    | some a'' =>
      rw [hfound] at hfind
      cases hfind
      exact ⟨rfl, (hs.planAt_of_load hload).2.1, List.mem_of_find?_eq_some hfound,
        by simpa using List.find?_some hfound⟩

theorem step_planned {plan : WorkflowPlan} {a : WorkflowAssignment} {input : SubmissionInput}
    (hs : RecordsOk s) (now : Now) (messageId : Text) (h : (SubmitCall.planned plan a input).Sound s) :
    ((SubmitCall.planned plan a input).step s now messageId).2 = s ∧
      ((SubmitCall.planned plan a input).step s now messageId).1.Sound s := by
  obtain ⟨hplan, ha, hkey⟩ := h
  rw [SubmitCall.step]
  split
  · exact ⟨rfl, trivial⟩
  next hvalid =>
    obtain ⟨submissions, hload, hvalid⟩ := Except.bind_eq_ok.mp hvalid
    refine ⟨rfl, hplan, ha, hkey, fun n hn => ?_⟩
    exact (hs.mem_submittedOrdinals hload).mp (needs_subset_of_validate (hs.numbered hplan) ha hvalid hn)

theorem step_validated {plan : WorkflowPlan} {a : WorkflowAssignment} {input : SubmissionInput}
    (h : (SubmitCall.validated plan a input).Sound s) :
    RecordStep s ((SubmitCall.validated plan a input).step s now messageId).2 ∧
      ∀ s', ((SubmitCall.validated plan a input).step s now messageId).1.Sound s' := by
  obtain ⟨hplan, ha, hagent, hready⟩ := h
  rw [SubmitCall.step]
  rcases insertWorkflowContext_cases s now plan.channel (submissionKey a.ordinal)
      (.workflowSubmission (newSubmission plan a input now)) input.agentKey (trim_submissionKey _)
    with ⟨e, hinsert⟩ | ⟨e, s', hinsert, hfree, hkey, hvalue, -, hput⟩
  · rw [hinsert]
    exact ⟨.same fun _ _ => rfl, fun _ => trivial⟩
  · rw [hinsert]
    exact ⟨.submission plan a _ e hplan ⟨ha, rfl, rfl, hagent.symm, rfl⟩ hready hfree hkey hvalue hput,
      fun _ => trivial⟩

theorem step_stored (plan : WorkflowPlan) (a : WorkflowAssignment) (input : SubmissionInput) :
    RecordStep s ((SubmitCall.stored plan a input).step s now messageId).2 ∧
      ∀ s', ((SubmitCall.stored plan a input).step s now messageId).1.Sound s' := by
  have hpost := (post_effect s now messageId plan.channel input.agentKey .assistant input.content
    (submissionMetadata plan a)).entry
  rw [SubmitCall.step]
  rcases h : s.postMessage now messageId plan.channel input.agentKey .assistant input.content
    (submissionMetadata plan a) with ⟨r, s'⟩
  rw [h] at hpost
  cases r with
  | error e => exact ⟨.same hpost, fun _ => trivial⟩
  | ok message => exact ⟨.same hpost, fun _ => trivial⟩

/-- One locked step of a call: what it does to the records, and what the call has then established. -/
theorem SubmitCall.step_sound (hs : RecordsOk s) (now : Now) (messageId : Text) (h : call.Sound s) :
    RecordStep s (call.step s now messageId).2 ∧
      (call.step s now messageId).1.Sound (call.step s now messageId).2 := by
  cases call with
  | checked workflowId input =>
    obtain ⟨hstate, hsound⟩ := step_checked hs now messageId workflowId input
    rw [hstate]
    exact ⟨.same fun _ _ => rfl, hsound⟩
  | planned plan a input =>
    obtain ⟨hstate, hsound⟩ := step_planned hs now messageId h
    rw [hstate]
    exact ⟨.same fun _ _ => rfl, hsound⟩
  | validated plan a input => exact (step_validated h).imp_right fun hsound => hsound _
  | stored plan a input => exact (step_stored plan a input).imp_right fun hsound => hsound _
  | finished result => exact ⟨.same fun _ _ => rfl, trivial⟩

end Calls

namespace SubmitWorld

/-- The records are in order, and every call under way has established what it relies on. -/
structure Sound (w : SubmitWorld) : Prop where
  records : RecordsOk w.state
  calls : ∀ call ∈ w.calls, call.Sound w.state

theorem init_sound (config : Config) : (init config).Sound where
  records := {
    keyed := fun _ _ _ he => nomatch he
    plans := fun _ _ he => nomatch he
    submissions := fun _ _ _ he => nomatch he
    turns := fun _ ⟨_, he, _⟩ => nomatch he }
  calls := fun _ h => nomatch h

theorem Sound.of_record {w : SubmitWorld} {s' : AppState} (hw : w.Sound) (h : RecordStep w.state s') :
    Sound { w with state := s' } where
  records := h.recordsOk hw.records
  calls := fun call hc => (hw.calls call hc).mono h.grows

theorem step_sound (w : SubmitWorld) (a : WorkflowAction) (hw : w.Sound) :
    (w.step a).Sound ∧ RecordStep w.state (w.step a).state := by
  cases a with
  | register now agent =>
    have h : RecordStep w.state (w.state.registerAgent now agent).2 :=
      .same (entry_of_channels (registerAgent_channels w.state now agent))
    exact ⟨hw.of_record h, h⟩
  | create env now id messageId req =>
    have h := createWorkflow_records w.state env now id messageId req
    exact ⟨hw.of_record h, h⟩
  | setContext now slug key value updatedBy =>
    have h := setContext_records w.state now slug key value updatedBy
    exact ⟨hw.of_record h, h⟩
  | submit workflowId req =>
    refine ⟨⟨hw.records, fun call hc => ?_⟩, .same fun _ _ => rfl⟩
    rcases List.mem_append.mp hc with hc | hc
    · exact hw.calls call hc
    · rw [List.mem_singleton.mp hc]
      exact SubmitCall.start_sound ..
  | advance i now messageId =>
    rw [step]
    cases hi : w.calls[i]? with
    | none => exact ⟨hw, .same fun _ _ => rfl⟩
    | some call =>
      obtain ⟨h, hcall⟩ := SubmitCall.step_sound hw.records now messageId
        (hw.calls call (List.mem_of_getElem? hi))
      refine ⟨⟨h.recordsOk hw.records, fun call' hc => ?_⟩, h⟩
      rcases List.mem_or_eq_of_mem_set hc with hc | rfl
      · exact (hw.calls call' hc).mono h.grows
      · exact hcall

theorem run_sound (config : Config) (as : List WorkflowAction) : (run config as).Sound :=
  Run.exec_invariant (fun w a hw => (step_sound w a hw).1) (init_sound config) as

theorem run_grows {w : SubmitWorld} (hw : w.Sound) (as : List WorkflowAction) :
    Grows w.state (Run.exec step w as).state := by
  induction as generalizing w with
  | nil => exact Grows.refl _
  | cons a as ih =>
    obtain ⟨hw', h⟩ := step_sound w a hw
    exact h.grows.trans (ih hw')

end SubmitWorld

/-- The turn protocol of a plan, read off the submissions that are stored. -/
structure TurnSafe (plan : WorkflowPlan) (submissions : List WorkflowSubmission) : Prop where
  numbered : plan.assignments.map WorkflowAssignment.ordinal = List.range plan.assignments.length
  answers : ∀ submission ∈ submissions, ∃ a, Answers plan submission a
  once : (submittedOrdinals submissions).Nodup
  sequential : plan.mode = .sequential → ∃ k ≤ plan.assignments.length,
    ∀ n, n ∈ submittedOrdinals submissions ↔ n < k
  consensus : plan.mode = .consensus →
    ∀ reviewer ∈ plan.assignments, reviewer.role = .reviewer →
      reviewer.ordinal ∈ submittedOrdinals submissions →
      ∀ worker ∈ plan.assignments, worker.role = .worker →
        worker.ordinal ∈ submittedOrdinals submissions
  phases : ∀ a ∈ plan.assignments, ∀ b ∈ plan.assignments, b.phase < a.phase →
    a.ordinal ∈ submittedOrdinals submissions → b.ordinal ∈ submittedOrdinals submissions

section Reached
variable {s : AppState} {plan : WorkflowPlan} {submissions : List WorkflowSubmission}

theorem RecordsOk.phases (hs : RecordsOk s) (hplan : PlanAt s plan) {a b : WorkflowAssignment}
    (ha : a ∈ plan.assignments) (hb : b ∈ plan.assignments) (hlt : b.phase < a.phase)
    (h : a.ordinal ∈ storedOrdinals s plan.channel) : b.ordinal ∈ storedOrdinals s plan.channel :=
  hs.turns plan hplan a.ordinal h ⟨a, ha, b, hb, rfl, rfl, hlt⟩

theorem RecordsOk.sequential (hs : RecordsOk s) (hplan : PlanAt s plan) (hmode : plan.mode = .sequential) :
    ∃ k ≤ plan.assignments.length, ∀ n, n ∈ storedOrdinals s plan.channel ↔ n < k := by
  have hn := hs.numbered hplan
  refine Precedence.Closed.initial (fun n hmem m hlt => ?_) fun n hmem => hs.lt_of_stored hplan hmem
  have hnlt := hs.lt_of_stored hplan hmem
  obtain ⟨a, ha, rfl⟩ := hn.exists_ordinal.mpr hnlt
  obtain ⟨b, hb, rfl⟩ := hn.exists_ordinal.mpr (lt_trans hlt hnlt)
  refine hs.phases hplan ha hb ?_ hmem
  rw [hn.phases a ha, hn.phases b hb, hmode]
  exact hlt

theorem RecordsOk.turnSafe (hs : RecordsOk s) (hplan : PlanAt s plan)
    (hload : loadSubmissions s plan.channel = .ok submissions) : TurnSafe plan submissions where
  numbered := (hs.numbered hplan).ordinals
  answers := fun submission hmem => by
    obtain ⟨plan', a, _, hc, hplan', hans, -⟩ := hs.answers_of_mem hload hmem
    exact ⟨a, hplan'.unique hplan hc ▸ hans⟩
  once := hs.nodup hload
  sequential := fun hmode => by
    simp only [hs.mem_submittedOrdinals hload]
    exact hs.sequential hplan hmode
  consensus := fun hmode r hr hrole hmem a ha harole => by
    rw [hs.mem_submittedOrdinals hload] at hmem ⊢
    refine hs.phases hplan hr ha ?_ hmem
    have hn := hs.numbered hplan
    rw [hn.phases r hr, hn.phases a ha, hmode]
    simp [phaseIn, hrole, harole]
  phases := fun a ha b hb hlt hmem => by
    rw [hs.mem_submittedOrdinals hload] at hmem ⊢
    exact hs.phases hplan ha hb hlt hmem

theorem PlanAt.load (hplan : PlanAt s plan) : loadPlanByChannel s plan.channel = .ok plan :=
  loadPlanByChannel_eq_ok.mpr hplan

theorem PlanAt.loadSubmissions (hplan : PlanAt s plan) :
    ∃ submissions, loadSubmissions s plan.channel = .ok submissions := by
  obtain ⟨e, he, -⟩ := hplan
  exact loadSubmissions_of_entry he

end Reached

/-- In every run in which locked steps interleave, a workflow's plan stays what it is, its
stored submissions keep to the turn protocol, and none is ever replaced. -/
theorem turn_protocol_safe (config : Config) (as bs : List WorkflowAction) (workflowId : Text)
    (plan : WorkflowPlan) (h : loadPlan (SubmitWorld.run config as).state workflowId = .ok plan) :
    loadPlan (SubmitWorld.run config (as ++ bs)).state workflowId = .ok plan ∧
    ∃ submissions later,
      loadSubmissions (SubmitWorld.run config as).state plan.channel = .ok submissions ∧
      loadSubmissions (SubmitWorld.run config (as ++ bs)).state plan.channel = .ok later ∧
      TurnSafe plan submissions ∧ TurnSafe plan later ∧
      ∀ submission ∈ submissions, submission ∈ later := by
  have hnow := SubmitWorld.run_sound config as
  have hlater := SubmitWorld.run_sound config (as ++ bs)
  have hgrows : Grows (SubmitWorld.run config as).state (SubmitWorld.run config (as ++ bs)).state := by
    rw [SubmitWorld.run, SubmitWorld.run, Run.exec_append]
    exact SubmitWorld.run_grows hnow bs
  obtain ⟨channel, hchannel, hload⟩ := Except.bind_eq_ok.mp h
  obtain ⟨rfl, hplan, -⟩ := hnow.records.planAt_of_load hload
  have hplan' := hgrows.planAt hplan
  obtain ⟨submissions, hsub⟩ := hplan.loadSubmissions
  obtain ⟨later, hsub'⟩ := hplan'.loadSubmissions
  refine ⟨Except.bind_eq_ok.mpr ⟨_, hchannel, hplan'.load⟩, submissions, later, hsub, hsub',
    hnow.records.turnSafe hplan hsub, hlater.records.turnSafe hplan' hsub', fun submission hmem => ?_⟩
  obtain ⟨_, a, e, -, -, -, he, hv⟩ := hnow.records.answers_of_mem hsub hmem
  have he' := hgrows _ _ _ (.inr (submissionContextPrefix_isPrefix _)) he
  exact (mem_loadSubmissions hlater.records.keyed hsub').mpr
    ⟨_, e, he', submissionContextPrefix_isPrefix _, hv⟩

/-- A sequential workflow for two agents, the second of which tries to submit first. -/
def sequentialRun : List WorkflowAction :=
  let agent (key : Text) : Agent := {
    agentKey := key
    displayName := key
    kind := .other
    host := none
    metadata := .null
    registeredAt := [] }
  let now (t : Nat) : Now := ⟨t, t⟩
  [.register (now 0) (agent "alice".toList), .register (now 1) (agent "bob".toList),
    .create asciiSurroundings (now 2) "w1".toList "m0".toList
      { title := "title".toList, prompt := "prompt".toList, createdBy := "carol".toList, mode := .sequential },
    .submit "w1".toList { agentKey := "bob".toList, content := "early".toList },
    .submit "w1".toList { agentKey := "alice".toList, content := "first".toList },
    .submit "w1".toList { agentKey := "alice".toList, content := "again".toList },
    .advance 0 (now 3) "m1".toList, .advance 1 (now 4) "m2".toList, .advance 2 (now 5) "m3".toList,
    .advance 0 (now 6) "m4".toList, .advance 1 (now 7) "m5".toList, .advance 2 (now 8) "m6".toList,
    .advance 2 (now 9) "m7".toList, .advance 1 (now 10) "m8".toList]

/-- Both of alice's submissions pass the turn check; one of them is stored, and bob's is not. -/
theorem turn_protocol_safe_sequential :
    ∃ plan submissions, plan.mode = .sequential ∧
      loadSubmissions (SubmitWorld.run .inMemory sequentialRun).state plan.channel = .ok submissions ∧
      submittedOrdinals submissions = [0] ∧ TurnSafe plan submissions := by
  have hplan : (loadPlan (SubmitWorld.run .inMemory sequentialRun).state "w1".toList).toOption.map
      (fun plan => (plan.mode, plan.channel)) = some (.sequential, "workflow-w1".toList) := by
    decide +kernel
  have hsub : (loadSubmissions (SubmitWorld.run .inMemory sequentialRun).state
      "workflow-w1".toList).toOption.map submittedOrdinals = some [0] := by decide +kernel
  obtain ⟨plan, hload, hp⟩ := Except.toOption_map_eq_some.mp hplan
  obtain ⟨hmode, hchannel⟩ := Prod.mk.inj hp
  obtain ⟨submissions, hsubmissions, hordinals⟩ := Except.toOption_map_eq_some.mp hsub
  obtain ⟨-, found, -, hfound, -, hsafe, -⟩ := turn_protocol_safe .inMemory sequentialRun [] _ plan hload
  rw [hchannel, hsubmissions] at hfound
  cases hfound
  exact ⟨plan, submissions, hmode, hchannel ▸ hsubmissions, hordinals, hsafe⟩

end AgentBridge.Orchestration
