import AgentBridge.Admission.Effects
import AgentBridge.Blind.Handlers
import AgentBridge.Security.Credentials
import AgentBridge.State.Acts

/-! The calls that a workflow, a blind competition and an admission make, and in whose names. -/

namespace AgentBridge
open State

/-- Whatever a call in the name of `n` does is among the effects. -/
structure Entrusts (P : Effect → Prop) (n : Text) : Prop where
  channel : ∀ slug, P (.channel slug (creatorName n))
  seat : ∀ slug, P (.seat slug (Text.trim n))
  unseat : ∀ slug, P (.seat slug n)
  message : ∀ slug, P (.message slug (Text.trim n))
  registration : P (.registration (Text.trim n))
  entry : ∀ slug key, P (.entry slug key (writerName n))
  record : ∀ slug key, P (.record slug key n)
  lease : ∀ id, P (.lease id (Text.trim n))

/-- What is done in the name of agent `k`, white space around it apart. The writer of an entry is kept as it was sent,
cut to the bound of a key. -/
inductive Owned (k : Text) : Effect → Prop
  | own {e : Effect} (h : Text.trim e.agentKey = k) : Owned k e
  | written {slug key n : Text} (h : Text.trim n = k) : Owned k (.entry slug key (writerName n))

theorem Entrusts.mono {P Q : Effect → Prop} {n : Text} (h : Entrusts P n) (hPQ : ∀ e, P e → Q e) : Entrusts Q n where
  channel := fun slug => hPQ _ (h.channel slug)
  seat := fun slug => hPQ _ (h.seat slug)
  unseat := fun slug => hPQ _ (h.unseat slug)
  message := fun slug => hPQ _ (h.message slug)
  registration := hPQ _ h.registration
  entry := fun slug key => hPQ _ (h.entry slug key)
  record := fun slug key => hPQ _ (h.record slug key)
  lease := fun id => hPQ _ (h.lease id)

theorem entrusts_owned {k n : Text} (hk : WorkflowSecurity.KeyOk k) (hn : Text.trim n = k) : Entrusts (Owned k) n := by
  obtain ⟨htrim, hprintable⟩ := hk
  rw [Text.printable, Bool.and_eq_true, Bool.and_eq_true, decide_eq_true_eq] at hprintable
  obtain ⟨⟨hne, hlength⟩, -⟩ := hprintable
  have hself : Text.trim (Text.trim n) = k := by rw [hn, htrim]
  refine ⟨fun slug => .own ?_, fun slug => .own hself, fun slug => .own hn, fun slug => .own hself, .own hself,
    fun slug key => .written hn, fun slug key => .own hn, fun id => .own hself⟩
  have hempty : k ≠ [] := fun h => by simp [h] at hne
  have hkept : Text.truncateBytes maxKeyBytes k = k := Text.truncateBytes_of_le hlength
  rw [Effect.agentKey, creatorName, hn, if_neg hempty, hkept, htrim]

namespace Orchestration
variable {P : Effect → Prop} {s : AppState} {now : Now} {messageId n : Text}

theorem acts_joinAll {slug : Text} {keys : List Text} (hP : ∀ k ∈ keys, P (.seat slug (Text.trim k))) :
    Acts now P s (joinAll s now slug keys).2 := by
  induction keys generalizing s with
  | nil => exact .refl s
  | cons k keys ih =>
    have hjoined : Acts now P s (s.join now slug k .member).2 := .join (hP k List.mem_cons_self) .member
    unfold joinAll
    rcases hjoin : s.join now slug k .member with ⟨e | out, s₁⟩
    · rwa [hjoin] at hjoined
    · rw [hjoin] at hjoined
      exact hjoined.trans (ih fun k' hk' => hP k' (List.mem_cons_of_mem _ hk'))

theorem acts_insertWorkflowContext {slug k : Text} {value : ContextValue} (hn : Entrusts P n)
    (hauthor : ∀ author ∈ value.author, author = n) :
    Acts now P s (insertWorkflowContext s now slug k value n).2 := by
  unfold insertWorkflowContext
  cases s.getContextKeyInternal slug k with
  | error e => exact .refl s
  | ok found =>
    cases found with
    | some e => exact .refl s
    | none =>
      refine .setContextInternal (hn.entry _ _) fun author h => ?_
      rw [hauthor author h]
      exact hn.record _ _

theorem acts_installPlan {w : Surroundings} {plan : WorkflowPlan} (hn : Entrusts P plan.createdBy)
    (hcast : ∀ a ∈ plan.assignments, P (.seat plan.channel (Text.trim a.agentKey))) :
    Acts now P s (installPlan s w now messageId plan).2 := by
  have hseats : ∀ k ∈ plan.assignments.map WorkflowAssignment.agentKey, P (.seat plan.channel (Text.trim k)) := by
    intro k hk
    obtain ⟨a, ha, rfl⟩ := List.mem_map.mp hk
    exact hcast a ha
  have hcreated : Acts now P s (s.createOrGetChannel w now plan.channel plan.title plan.createdBy).2 :=
    .createOrGetChannel (hn.channel _)
  unfold installPlan
  rcases hcreate : s.createOrGetChannel w now plan.channel plan.title plan.createdBy with ⟨e | channel, s₁⟩
  · rwa [hcreate] at hcreated
  rw [hcreate] at hcreated
  dsimp only
  have hjoined := hcreated.trans (acts_joinAll hseats)
  rcases hjoin : joinAll s₁ now plan.channel (plan.assignments.map WorkflowAssignment.agentKey) with ⟨e | u, s₂⟩
  · rwa [hjoin] at hjoined
  rw [hjoin] at hjoined
  dsimp only
  have hauthor : ∀ author ∈ (ContextValue.workflowPlan plan).author, author = plan.createdBy := by
    rintro author ⟨⟩
    rfl
  have hstored := hjoined.trans (@acts_insertWorkflowContext P _ now _ plan.channel planContextKey _ hn hauthor)
  rcases hstore : insertWorkflowContext s₂ now plan.channel planContextKey (.workflowPlan plan) plan.createdBy
    with ⟨e | entry, s₃⟩
  · rwa [hstore] at hstored
  rw [hstore] at hstored
  dsimp only
  have hposted := hstored.trans (.postMessage (hn.seat plan.channel) (hn.message plan.channel) messageId .system
    (createdMessage plan) (.obj [("kind".toList, .str "workflow_created".toList), ("workflow_id".toList, .str plan.id),
      ("mode".toList, .str plan.mode.name)]))
  rcases hpost : s₃.postMessage now messageId plan.channel plan.createdBy .system (createdMessage plan)
    (.obj [("kind".toList, .str "workflow_created".toList), ("workflow_id".toList, .str plan.id),
      ("mode".toList, .str plan.mode.name)]) with ⟨e | message, s₄⟩
  · rwa [hpost] at hposted
  · rwa [hpost] at hposted

theorem normalizeAgentKey_eq_ok {value key : Text} (h : normalizeAgentKey value = .ok key) : Text.trim value = key := by
  unfold normalizeAgentKey at h
  dsimp only at h
  split_ifs at h
  cases h
  rfl

theorem buildPlan_createdBy {id : Text} {req : CreateWorkflowReq} {plan : WorkflowPlan}
    (h : buildPlan s now id req = .ok plan) : plan.createdBy = Text.trim req.createdBy := by
  obtain ⟨title, -, h⟩ := Except.bind_eq_ok.mp h
  obtain ⟨prompt, -, h⟩ := Except.bind_eq_ok.mp h
  obtain ⟨createdBy, hcreatedBy, h⟩ := Except.bind_eq_ok.mp h
  obtain ⟨_, -, h⟩ := Except.bind_eq_ok.mp h
  obtain ⟨capabilities, -, h⟩ := Except.bind_eq_ok.mp h
  obtain ⟨selected, -, h⟩ := Except.bind_eq_ok.mp h
  obtain ⟨reviewer, -, h⟩ := Except.bind_eq_ok.mp h
  obtain ⟨candidates, -, h⟩ := Except.bind_eq_ok.mp h
  obtain ⟨assignments, -, h⟩ := Except.bind_eq_ok.mp h
  obtain ⟨fileLease, -, h⟩ := Except.bind_eq_ok.mp h
  cases h
  exact (normalizeAgentKey_eq_ok hcreatedBy).symm

theorem acts_createWorkflow {w : Surroundings} {id : Text} {req : CreateWorkflowReq}
    (hn : Entrusts P (Text.trim req.createdBy))
    (hcast : ∀ plan, buildPlan s now id req = .ok plan →
      ∀ a ∈ plan.assignments, P (.seat plan.channel (Text.trim a.agentKey))) :
    Acts now P s (createWorkflow s w now id messageId req).2 := by
  unfold createWorkflow
  cases hplan : buildPlan s now id req with
  | error e => exact .refl s
  | ok plan =>
    rw [← buildPlan_createdBy hplan] at hn
    exact acts_installPlan hn (hcast plan hplan)

def SubmitCall.Of (n : Text) : SubmitCall → Prop
  | .checked _ input | .planned _ _ input | .validated _ _ input | .stored _ _ input => input.agentKey = n
  | .finished _ => True

theorem SubmitCall.start_of (s : AppState) (workflowId : Text) (req : SubmitWorkflowReq) :
    (SubmitCall.start s workflowId req).Of (Text.trim req.agentKey) := by
  unfold SubmitCall.start
  cases hchecks : submitChecks s req with
  | error e => trivial
  | ok input =>
    obtain ⟨agentKey, hname, h⟩ := Except.bind_eq_ok.mp hchecks
    obtain ⟨content, -, h⟩ := Except.bind_eq_ok.mp h
    obtain ⟨_, -, h⟩ := Except.bind_eq_ok.mp h
    cases h
    exact (normalizeAgentKey_eq_ok hname).symm

theorem SubmitCall.step_acts {call : SubmitCall} (hn : Entrusts P n) (hcall : call.Of n) :
    (call.step s now messageId).1.Of n ∧ Acts now P s (call.step s now messageId).2 := by
  cases call with
  | checked workflowId input =>
    rw [SubmitCall.step]
    cases (do
        let plan ← loadPlan s workflowId
        let assignment ← findAssignment plan input.agentKey
        return (plan, assignment) : BridgeResult (WorkflowPlan × WorkflowAssignment)) with
    | error e => exact ⟨trivial, .refl s⟩
    | ok found => exact ⟨hcall, .refl s⟩
  | planned plan assignment input =>
    rw [SubmitCall.step]
    cases (do
        let submissions ← loadSubmissions s plan.channel
        validateSubmissionTurn plan assignment submissions : BridgeResult Unit) with
    | error e => exact ⟨trivial, .refl s⟩
    | ok u => exact ⟨hcall, .refl s⟩
  | validated plan assignment input =>
    obtain rfl : input.agentKey = n := hcall
    have hauthor : ∀ author ∈ (ContextValue.workflowSubmission (newSubmission plan assignment input now)).author,
        author = input.agentKey := by
      rintro author ⟨⟩
      rfl
    have hstored := @acts_insertWorkflowContext P s now input.agentKey plan.channel (submissionKey assignment.ordinal) _
      hn hauthor
    rw [SubmitCall.step]
    rcases hstore : insertWorkflowContext s now plan.channel (submissionKey assignment.ordinal)
      (.workflowSubmission (newSubmission plan assignment input now)) input.agentKey with ⟨e | entry, s₁⟩
    · rw [hstore] at hstored
      exact ⟨trivial, hstored⟩
    · rw [hstore] at hstored
      exact ⟨rfl, hstored⟩
  | stored plan assignment input =>
    obtain rfl : input.agentKey = n := hcall
    have hposted : Acts now P s _ := .postMessage (hn.seat plan.channel) (hn.message plan.channel) messageId .assistant
      input.content (submissionMetadata plan assignment)
    rw [SubmitCall.step]
    rcases hpost : s.postMessage now messageId plan.channel input.agentKey .assistant input.content
      (submissionMetadata plan assignment) with ⟨e | message, s₁⟩
    · rw [hpost] at hposted
      exact ⟨trivial, hposted⟩
    · rw [hpost] at hposted
      exact ⟨trivial, hposted⟩
  | finished result => exact ⟨trivial, .refl s⟩

theorem acts_submitWorkflow {workflowId : Text} {req : SubmitWorkflowReq} (hn : Entrusts P (Text.trim req.agentKey)) :
    Acts now P s (submitWorkflow s now messageId workflowId req).2 := by
  have hstep (s : AppState) {call : SubmitCall} (hcall : call.Of (Text.trim req.agentKey)) :=
    @SubmitCall.step_acts P s now messageId _ call hn hcall
  have h₁ := hstep s (SubmitCall.start_of s workflowId req)
  unfold submitWorkflow
  generalize (SubmitCall.start s workflowId req).step s now messageId = r₁ at h₁ ⊢
  have h₂ := hstep r₁.2 h₁.1
  dsimp only
  generalize r₁.1.step r₁.2 now messageId = r₂ at h₂ ⊢
  have h₃ := hstep r₂.2 h₂.1
  generalize r₂.1.step r₂.2 now messageId = r₃ at h₃ ⊢
  exact ((h₁.2.trans h₂.2).trans h₃.2).trans (hstep r₃.2 h₃.1).2

end Orchestration

namespace BlindCompetition
variable {P : Effect → Prop} {s : AppState} {now : Now} {messageId n : Text} {viewer : Option AuthenticatedAdapter}

theorem acts_publish {plan : BlindCompetitionPlan} {key notice : Text} {value : ContextValue} {metadata : Json}
    {viewer : Option Text} (hn : Entrusts P n) (hauthor : ∀ author ∈ value.author, author = n) :
    Acts now P s (publish s now messageId plan key value n notice metadata viewer).2 := by
  have hinserted : Acts now P s (insertBlindContext s now plan.channel key value n).2 := by
    unfold insertBlindContext
    cases s.getContextKeyInternal plan.channel key with
    | error e => exact .refl s
    | ok found =>
      cases found with
      | some e => exact .refl s
      | none =>
        refine .setContextInternal (hn.entry _ _) fun author h => ?_
        rw [hauthor author h]
        exact hn.record _ _
  unfold publish
  rcases hinsert : insertBlindContext s now plan.channel key value n with ⟨e | entry, s₁⟩
  · rwa [hinsert] at hinserted
  rw [hinsert] at hinserted
  dsimp only
  have hposted := hinserted.trans (.postMessage (hn.seat plan.channel) (hn.message plan.channel) messageId .system
    notice metadata)
  rcases hpost : s₁.postMessage now messageId plan.channel n .system notice metadata with ⟨e | message, s₂⟩
  · rwa [hpost] at hposted
  · rwa [hpost] at hposted

theorem normalizeAgentKey_eq_ok {value key : Text} (h : normalizeAgentKey value = .ok key) : Text.trim value = key := by
  unfold normalizeAgentKey at h
  dsimp only at h
  split_ifs at h
  cases h
  rfl

theorem buildPlan_createdBy {id : Text} {req : CreateBlindCompetitionReq} {plan : BlindCompetitionPlan}
    (h : buildPlan s now id req = .ok plan) : plan.createdBy = Text.trim req.createdBy := by
  obtain ⟨title, -, h⟩ := Except.bind_eq_ok.mp h
  obtain ⟨prompt, -, h⟩ := Except.bind_eq_ok.mp h
  obtain ⟨createdBy, hcreatedBy, h⟩ := Except.bind_eq_ok.mp h
  obtain ⟨_, -, h⟩ := Except.bind_eq_ok.mp h
  obtain ⟨_, -, h⟩ := Except.bind_eq_ok.mp h
  obtain ⟨workers, -, h⟩ := Except.bind_eq_ok.mp h
  obtain ⟨reviewer, -, h⟩ := Except.bind_eq_ok.mp h
  obtain ⟨_, -, h⟩ := Except.bind_eq_ok.mp h
  obtain ⟨channel, -, h⟩ := Except.bind_eq_ok.mp h
  cases h
  exact (normalizeAgentKey_eq_ok hcreatedBy).symm

theorem acts_createBlindCompetition {w : Surroundings} {id : Text} {req : CreateBlindCompetitionReq}
    (hn : Entrusts P (Text.trim req.createdBy))
    (hcast : ∀ plan, buildPlan s now id req = .ok plan → ∀ k ∈ seated plan, P (.seat plan.channel (Text.trim k))) :
    Acts now P s (createBlindCompetition s now viewer w id messageId req).2 := by
  unfold createBlindCompetition
  cases hplan : buildPlan s now id req with
  | error e => exact .refl s
  | ok plan =>
    rw [← buildPlan_createdBy hplan] at hn
    have hcreated : Acts now P s (s.createOrGetChannel w now plan.channel plan.title plan.createdBy).2 :=
      .createOrGetChannel (hn.channel _)
    dsimp only
    unfold installPlan
    rcases hcreate : s.createOrGetChannel w now plan.channel plan.title plan.createdBy with ⟨e | channel, s₁⟩
    · rwa [hcreate] at hcreated
    rw [hcreate] at hcreated
    dsimp only
    have hjoined := hcreated.trans (Orchestration.acts_joinAll (hcast plan hplan))
    rcases hjoin : Orchestration.joinAll s₁ now plan.channel (seated plan) with ⟨e | u, s₂⟩
    · rwa [hjoin] at hjoined
    rw [hjoin] at hjoined
    refine hjoined.trans (acts_publish hn ?_)
    rintro author ⟨⟩
    rfl

theorem acts_submitBlindCompetition {workflowId : Text} {req : SubmitBlindCompetitionReq}
    (hn : ∀ identity ∈ viewer, Entrusts P identity.agentKey) :
    Acts now P s (submitBlindCompetition s now viewer messageId workflowId req).2 := by
  unfold submitBlindCompetition
  cases viewer with
  | none => exact .refl s
  | some identity =>
    dsimp only
    cases hchecks : submitChecks s now identity workflowId req with
    | error e => exact .refl s
    | ok checked =>
      obtain ⟨plan, submission⟩ := checked
      refine acts_publish (hn identity rfl) ?_
      rintro author ⟨⟩
      obtain ⟨requested, -, h⟩ := Except.bind_eq_ok.mp hchecks
      split_ifs at h
      obtain ⟨content, -, h⟩ := Except.bind_eq_ok.mp h
      obtain ⟨_, -, h⟩ := Except.bind_eq_ok.mp h
      obtain ⟨plan', -, h⟩ := Except.bind_eq_ok.mp h
      obtain ⟨reveal, -, h⟩ := Except.bind_eq_ok.mp h
      split_ifs at h
      split at h
      · cases h
      · cases h
        rfl

theorem acts_revealBlindCompetition {workflowId : Text} (hn : ∀ identity ∈ viewer, Entrusts P identity.agentKey) :
    Acts now P s (revealBlindCompetition s now viewer messageId workflowId).2 := by
  unfold revealBlindCompetition
  cases viewer with
  | none => exact .refl s
  | some identity =>
    dsimp only
    cases revealChecks s identity workflowId with
    | error e => exact .refl s
    | ok checked =>
      refine acts_publish (hn identity rfl) ?_
      rintro author ⟨⟩
      rfl

end BlindCompetition

namespace PolicyAdmission
variable {P : Effect → Prop} {s : AppState} {now : Now}

theorem acts_persistAdmission {admission : AdmissionRecord}
    (hP : ∀ slug, P (.entry slug admissionContextKey (writerName admission.requestedBy))) :
    Acts now P s (persistAdmission s now admission).2 := by
  refine .setContextInternal ?_ ?_
  · rw [trim_admissionContextKey]
    exact hP _
  · rintro author ⟨⟩

theorem acts_persisted {admission : AdmissionRecord}
    (hP : ∀ slug, P (.entry slug admissionContextKey (writerName admission.requestedBy))) :
    Acts now P s (persisted s now admission).2 := by
  have hstored := @acts_persistAdmission P s now admission hP
  unfold persisted
  rcases hstore : persistAdmission s now admission with ⟨e | entry, s₁⟩
  · rwa [hstore] at hstored
  · rwa [hstore] at hstored

theorem acts_rejected {admission : AdmissionRecord} {delta : UsageDelta} {reason : Text}
    (hP : ∀ slug, P (.entry slug admissionContextKey (writerName admission.requestedBy))) :
    Acts now P s (rejected s now admission delta reason).2 := by
  have hstored := @acts_persistAdmission P s now { admission with
    status := .exhausted
    updatedAt := now.ts
    terminalReason := some reason
    lastRejectedDelta := some delta } hP
  unfold rejected exhaust
  dsimp only
  rcases hstore : persistAdmission s now { admission with
    status := .exhausted
    updatedAt := now.ts
    terminalReason := some reason
    lastRejectedDelta := some delta } with ⟨e | entry, s₁⟩
  · rwa [hstore] at hstored
  · rwa [hstore] at hstored

theorem normalizeActor_eq_ok {value actor : Text} (h : normalizeActor value = .ok actor) : actor = Text.trim value := by
  unfold normalizeActor at h
  dsimp only at h
  split_ifs at h
  cases h
  rfl

theorem newAdmission_requestedBy {workflowId : Text} {request : AdmitReq} {admission : AdmissionRecord}
    (h : newAdmission s now workflowId request = .ok admission) :
    admission.requestedBy = Text.trim request.requestedBy := by
  obtain ⟨plan, -, h⟩ := Except.bind_eq_ok.mp h
  obtain ⟨_, -, h⟩ := Except.bind_eq_ok.mp h
  obtain ⟨decision, -, h⟩ := Except.bind_eq_ok.mp h
  obtain ⟨_, -, h⟩ := Except.bind_eq_ok.mp h
  obtain ⟨requestedBy, hrequestedBy, h⟩ := Except.bind_eq_ok.mp h
  obtain ⟨approvedBy, -, h⟩ := Except.bind_eq_ok.mp h
  obtain ⟨_, -, h⟩ := Except.bind_eq_ok.mp h
  obtain ⟨reason, -, h⟩ := Except.bind_eq_ok.mp h
  cases h
  exact normalizeActor_eq_ok hrequestedBy

theorem acts_createAdmission {workflowId : Text} {request : AdmitReq}
    (hn : Entrusts P (Text.trim request.requestedBy)) :
    Acts now P s (createAdmission s now workflowId request).2 := by
  unfold createAdmission
  cases loadAdmission s workflowId with
  | error e => exact .refl s
  | ok found =>
    cases found with
    | some existing => exact .refl s
    | none =>
      dsimp only
      cases hnew : newAdmission s now workflowId request with
      | error e => exact .refl s
      | ok admission =>
        rw [← newAdmission_requestedBy hnew] at hn
        exact acts_persisted fun slug => hn.entry slug _

theorem acts_recordUsage {workflowId updatedBy : Text} {delta : UsageDelta}
    (hP : ∀ admission, stored s workflowId = some admission →
      ∀ slug, P (.entry slug admissionContextKey (writerName admission.requestedBy))) :
    Acts now P s (recordUsage s now workflowId updatedBy delta).2 := by
  unfold recordUsage
  cases hchecks : (do
      let admission ← requireAdmission s workflowId "managed provider work requires an active admission"
      requireActive admission
      let updatedBy ← normalizeActor updatedBy
      selectedActorCheck admission updatedBy
      return admission : AdmissionResult AdmissionRecord) with
  | error e => exact .refl s
  | ok admission =>
    obtain ⟨loaded, hloaded, h⟩ := Except.bind_eq_ok.mp hchecks
    obtain ⟨_, -, h⟩ := Except.bind_eq_ok.mp h
    obtain ⟨_, -, h⟩ := Except.bind_eq_ok.mp h
    obtain ⟨_, -, h⟩ := Except.bind_eq_ok.mp h
    cases h
    have hentry := hP admission (requireAdmission_eq_ok hloaded)
    dsimp only
    cases attemptedTotals admission.usage delta with
    | none => exact acts_rejected hentry
    | some attempted =>
      dsimp only
      cases budgetViolation admission.policy.budget attempted with
      | some reason => exact acts_rejected hentry
      | none => exact acts_persisted hentry

theorem acts_transition {workflowId updatedBy : Text} {status : AdmissionStatus} {reason : Option Text}
    (hP : ∀ admission, stored s workflowId = some admission →
      ∀ slug, P (.entry slug admissionContextKey (writerName admission.requestedBy))) :
    Acts now P s (transition s now workflowId updatedBy status reason).2 := by
  unfold transition
  cases hchecks : (do
      let admission ← requireAdmission s workflowId "workflow admission is missing"
      requireActive admission
      let actor ← normalizeActor updatedBy
      authorizedActorCheck admission actor
      let terminalReason ← reason.mapM normalizeReason
      return (admission, terminalReason) : AdmissionResult (AdmissionRecord × Option Text)) with
  | error e => exact .refl s
  | ok checked =>
    obtain ⟨loaded, hloaded, h⟩ := Except.bind_eq_ok.mp hchecks
    obtain ⟨_, -, h⟩ := Except.bind_eq_ok.mp h
    obtain ⟨_, -, h⟩ := Except.bind_eq_ok.mp h
    obtain ⟨_, -, h⟩ := Except.bind_eq_ok.mp h
    obtain ⟨terminal, -, h⟩ := Except.bind_eq_ok.mp h
    cases h
    exact acts_persisted (hP loaded (requireAdmission_eq_ok hloaded))

end PolicyAdmission

end AgentBridge
