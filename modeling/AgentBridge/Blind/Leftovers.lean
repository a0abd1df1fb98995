import AgentBridge.Base.Leftover
import AgentBridge.Blind.RequestCalls

/-! What the workflow and blind-competition requests leave behind when they fail. They roll
nothing back, and everything may change between two of their calls. -/

namespace AgentBridge
open State

section Runs

def requestCall : Leftover.Call RequestCall Juncture where
  step q m := (q.step m).1
  Adds q m := ¬ AddsNothing m.state (q.step m).2
  Due q m := q.Due m
  Failed := RequestCall.Failed
  Ready q m := q.Ready m
  Late := RequestCall.Late
  failed_iff := by
    intro q m hq
    rcases q.settles hq with ⟨hready, hrunning⟩ | ⟨hready, hfailed, -⟩
    · exact iff_of_false hrunning (not_not.mpr hready)
    · exact iff_of_true hfailed hready
  failed_stays := by
    intro q m hq
    obtain ⟨hfailed, hstate⟩ := q.step_failed hq
    exact ⟨hfailed, not_not.mpr (hstate ▸ AddsNothing.refl _)⟩
  due_iff := fun q m => q.due_iff
  adds_ready := by
    intro q m hlate hadds
    by_contra hready
    by_cases hq : q.Failed
    · exact hadds ((q.step_failed hq).2 ▸ AddsNothing.refl _)
    · rcases q.settles hq with ⟨h, -⟩ | ⟨-, -, hstate⟩
      · exact hready h
      · exact hadds (hstate hlate ▸ AddsNothing.refl _)
  late_added := fun q m => q.late_step

/-- The requests the handlers serve. -/
inductive OrchestrationRequest
  | createWorkflow (id : Text) (req : CreateWorkflowReq)
  | submitWorkflow (workflowId : Text) (req : SubmitWorkflowReq)
  | createBlindCompetition (id : Text) (req : CreateBlindCompetitionReq) (viewer : Option AuthenticatedAdapter)
  | submitBlindCompetition (workflowId : Text) (req : SubmitBlindCompetitionReq) (viewer : Option AuthenticatedAdapter)
  | revealBlindCompetition (workflowId : Text) (viewer : Option AuthenticatedAdapter)

def OrchestrationRequest.start (s : AppState) : OrchestrationRequest → RequestCall
  | createWorkflow id req => .create (.workflow id req)
  | submitWorkflow workflowId req => .submit (.start s workflowId req)
  | createBlindCompetition id req viewer => .create (.blind id req (BlindCompetition.viewerKey viewer))
  | submitBlindCompetition workflowId req viewer => .blind (.startSubmit s.config viewer workflowId req)
  | revealBlindCompetition workflowId viewer => .blind (.startReveal viewer workflowId)

theorem not_late_start (s : AppState) (request : OrchestrationRequest) : ¬ (request.start s).Late := by
  cases request with
  | createWorkflow => exact id
  | createBlindCompetition => exact id
  | submitWorkflow workflowId req =>
    dsimp only [OrchestrationRequest.start, Orchestration.SubmitCall.start]
    cases Orchestration.submitChecks s req <;> exact id
  | submitBlindCompetition workflowId req viewer =>
    dsimp only [OrchestrationRequest.start, BlindCompetition.BlindCall.startSubmit]
    cases viewer with
    | none => exact id
    | some identity =>
      dsimp only
      cases BlindCompetition.inputChecks s.config identity req <;> exact id
  | revealBlindCompetition workflowId viewer => cases viewer <;> exact id

/-- What the handler of a request answers and leaves: the error, if it is one. -/
def OrchestrationRequest.serve (s : AppState) (w : Surroundings) (now : Now) (messageId : Text) :
    OrchestrationRequest → Option BridgeError × AppState
  | createWorkflow id req => failure (Orchestration.createWorkflow s w now id messageId req)
  | submitWorkflow workflowId req =>
    match Orchestration.submitWorkflow s now messageId workflowId req with
    | (.finished (.error e), s) => (some e, s)
    | (_, s) => (none, s)
  | createBlindCompetition id req viewer =>
    failure (BlindCompetition.createBlindCompetition s now viewer w id messageId req)
  | submitBlindCompetition workflowId req viewer =>
    failure (BlindCompetition.submitBlindCompetition s now viewer messageId workflowId req)
  | revealBlindCompetition workflowId viewer =>
    failure (BlindCompetition.revealBlindCompetition s now viewer messageId workflowId)

end Runs

section Alone
variable (w : Surroundings) (now : Now) (messageId : Text)

/-- A step that finds the state as the one before left it. -/
def RequestCall.alone (p : RequestCall × AppState) : RequestCall × AppState := p.1.step ⟨p.2, w, now, messageId⟩

/-- The first steps of a call with nothing in between. -/
def junctures : Nat → RequestCall × AppState → List Juncture
  | 0, _ => []
  | n + 1, p => ⟨p.2, w, now, messageId⟩ :: junctures n (RequestCall.alone w now messageId p)

variable {w now messageId}

theorem exec_junctures (n : Nat) (p : RequestCall × AppState) :
    Run.exec requestCall.step p.1 (junctures w now messageId n p) = ((RequestCall.alone w now messageId)^[n] p).1 := by
  induction n generalizing p with
  | zero => rfl
  | succ n ih => exact ih (RequestCall.alone w now messageId p)

end Alone

section Keeps
variable {s : AppState} {now : Now} {slug key : Text} {m : Juncture}

theorem insertWorkflowContext_keeps (value : ContextValue) (updatedBy : Text) :
    KeepsItems s (Orchestration.insertWorkflowContext s now slug key value updatedBy).2 := by
  unfold Orchestration.insertWorkflowContext
  rcases s.getContextKeyInternal slug key with e | _ | _
  · exact .refl s
  · exact setContextInternal_keeps value updatedBy
  · exact .refl s

theorem insertBlindContext_keeps (value : ContextValue) (updatedBy : Text) :
    KeepsItems s (BlindCompetition.insertBlindContext s now slug key value updatedBy).2 := by
  unfold BlindCompetition.insertBlindContext
  rcases s.getContextKeyInternal slug key with e | _ | _
  · exact .refl s
  · exact setContextInternal_keeps value updatedBy
  · exact .refl s

theorem createCall_keeps (c : CreateCall) :
    KeepsItems m.state (c.step m.state m.surroundings m.now m.messageId).2 := by
  cases c with
  | workflow planId req =>
    dsimp only [CreateCall.step]
    cases Orchestration.buildPlan m.state m.now planId req <;> exact .refl _
  | blind planId req viewer =>
    dsimp only [CreateCall.step]
    cases BlindCompetition.buildPlan m.state m.now planId req <;> exact .refl _
  | opening c =>
    have hkeeps := (createOrGetChannel_effect m.state m.now c.channel m.surroundings c.topic c.createdBy).keeps
    dsimp only [CreateCall.step]
    rcases hr : m.state.createOrGetChannel m.surroundings m.now c.channel c.topic c.createdBy with ⟨e | a, s'⟩
    all_goals
      rw [hr] at hkeeps
      exact hkeeps
  | seating c rest =>
    cases rest with
    | nil =>
      have hkeeps : KeepsItems m.state (c.insert m.state m.now).2 := by
        cases c with
        | workflow plan => exact insertWorkflowContext_keeps _ _
        | blind plan viewer => exact insertBlindContext_keeps _ _
      dsimp only [CreateCall.step]
      rcases hr : c.insert m.state m.now with ⟨e | a, s'⟩
      all_goals
        rw [hr] at hkeeps
        exact hkeeps
    | cons agentKey rest =>
      have hkeeps := (join_effect m.state m.now c.channel agentKey .member).keeps
      dsimp only [CreateCall.step]
      rcases hr : m.state.join m.now c.channel agentKey .member with ⟨e | a, s'⟩
      all_goals
        rw [hr] at hkeeps
        exact hkeeps
  | announcing c =>
    have hkeeps := (post_effect m.state m.now m.messageId c.channel c.createdBy .system c.notice c.metadata).keeps
    dsimp only [CreateCall.step]
    rcases hr : m.state.postMessage m.now m.messageId c.channel c.createdBy .system c.notice c.metadata with
      ⟨e | a, s'⟩
    all_goals
      rw [hr] at hkeeps
      exact hkeeps
  | finished result => exact .refl _

open Orchestration in
theorem submitCall_keeps (c : SubmitCall) : KeepsItems m.state (c.step m.state m.now m.messageId).2 := by
  cases c with
  | checked workflowId input =>
    dsimp only [SubmitCall.step]
    rcases hr : (do
      let plan ← loadPlan m.state workflowId
      let assignment ← findAssignment plan input.agentKey
      return (plan, assignment)) with e | p
    all_goals
      rw [hr]
      exact .refl _
  | planned plan assignment input =>
    dsimp only [SubmitCall.step]
    rcases hr : (do
      let submissions ← loadSubmissions m.state plan.channel
      validateSubmissionTurn plan assignment submissions) with e | u
    all_goals
      rw [hr]
      exact .refl _
  | validated plan assignment input =>
    have hkeeps : KeepsItems m.state (insertWorkflowContext m.state m.now plan.channel
      (submissionKey assignment.ordinal) (.workflowSubmission (newSubmission plan assignment input m.now))
      input.agentKey).2 :=
      insertWorkflowContext_keeps _ _
    dsimp only [SubmitCall.step]
    rcases hr : insertWorkflowContext m.state m.now plan.channel (submissionKey assignment.ordinal)
      (.workflowSubmission (newSubmission plan assignment input m.now)) input.agentKey with ⟨e | a, s'⟩
    all_goals
      rw [hr] at hkeeps
      exact hkeeps
  | stored plan assignment input =>
    have hkeeps := (post_effect m.state m.now m.messageId plan.channel input.agentKey .assistant input.content
      (submissionMetadata plan assignment)).keeps
    dsimp only [SubmitCall.step]
    rcases hr : m.state.postMessage m.now m.messageId plan.channel input.agentKey .assistant input.content
      (submissionMetadata plan assignment) with ⟨e | a, s'⟩
    all_goals
      rw [hr] at hkeeps
      exact hkeeps
  | finished result => exact .refl _

open BlindCompetition in
theorem blindCall_keeps (c : BlindCall) : KeepsItems m.state (c.step m.state m.now m.messageId).2 := by
  cases c with
  | submitting identity workflowId content metadata =>
    dsimp only [BlindCall.step]
    cases loadPlan m.state workflowId <;> exact .refl _
  | planned identity plan content metadata =>
    dsimp only [BlindCall.step]
    cases assignedWorker m.state identity plan <;> exact .refl _
  | admitted identity plan worker content metadata =>
    have hkeeps : KeepsItems m.state (insertBlindContext m.state m.now plan.channel (submissionKey worker.ordinal)
      (.blindSubmission (newSubmission m.now identity plan worker content metadata)) identity.agentKey).2 :=
      insertBlindContext_keeps _ _
    dsimp only [BlindCall.step]
    rcases hr : insertBlindContext m.state m.now plan.channel (submissionKey worker.ordinal)
      (.blindSubmission (newSubmission m.now identity plan worker content metadata)) identity.agentKey with
      ⟨e | a, s'⟩
    all_goals
      rw [hr] at hkeeps
      exact hkeeps
  | stored identity plan submission =>
    have hkeeps := (post_effect m.state m.now m.messageId plan.channel identity.agentKey .system
      ("Blind candidate ".toList ++ Text.decimal submission.assignmentOrdinal ++ " submitted.".toList)
      (submissionMetadata submission)).keeps
    dsimp only [BlindCall.step]
    rcases hr : m.state.postMessage m.now m.messageId plan.channel identity.agentKey .system
      ("Blind candidate ".toList ++ Text.decimal submission.assignmentOrdinal ++ " submitted.".toList)
      (submissionMetadata submission) with ⟨e | a, s'⟩
    all_goals
      rw [hr] at hkeeps
      exact hkeeps
  | revealing identity workflowId =>
    dsimp only [BlindCall.step]
    cases loadPlan m.state workflowId with
    | error e => exact .refl _
    | ok plan =>
      dsimp only
      split_ifs <;> exact .refl _
  | reviewing identity plan =>
    dsimp only [BlindCall.step]
    cases countCandidates m.state plan <;> exact .refl _
  | counted identity plan candidates =>
    have hkeeps : KeepsItems m.state (insertBlindContext m.state m.now plan.channel blindRevealContextKey
      (.blindReveal (newReveal m.now identity plan)) identity.agentKey).2 := insertBlindContext_keeps _ _
    dsimp only [BlindCall.step]
    rcases hr : insertBlindContext m.state m.now plan.channel blindRevealContextKey
      (.blindReveal (newReveal m.now identity plan)) identity.agentKey with ⟨e | a, s'⟩
    all_goals
      rw [hr] at hkeeps
      exact hkeeps
  | opened identity plan candidates =>
    have hkeeps := (post_effect m.state m.now m.messageId plan.channel identity.agentKey .system
      "Blind candidate set revealed to authorized workflow readers.".toList (revealMetadata plan candidates)).keeps
    dsimp only [BlindCall.step]
    rcases hr : m.state.postMessage m.now m.messageId plan.channel identity.agentKey .system
      "Blind candidate set revealed to authorized workflow readers.".toList (revealMetadata plan candidates) with
      ⟨e | a, s'⟩
    all_goals
      rw [hr] at hkeeps
      exact hkeeps
  | finished result => exact .refl _

theorem step_keeps (q : RequestCall) : KeepsItems m.state (q.step m).2 := by
  cases q with
  | create c => exact createCall_keeps c
  | submit c => exact submitCall_keeps c
  | blind c => exact blindCall_keeps c

theorem not_addsNothing_trans {s s' t : AppState} (h : KeepsItems s s') (h' : KeepsItems s' t) :
    (¬ AddsNothing s s' ∨ ¬ AddsNothing s' t) ↔ ¬ AddsNothing s t := by
  rw [← not_and_or, not_iff_not]
  constructor
  · rintro ⟨hfirst, hsecond⟩ item hitem
    exact hfirst item (hsecond item hitem)
  · intro hall
    exact ⟨fun item hitem => hall item (h' item hitem), fun item hitem => h item (hall item hitem)⟩

variable {w : Surroundings} {messageId : Text}

theorem keeps_iterate (n : Nat) (p : RequestCall × AppState) :
    KeepsItems p.2 ((RequestCall.alone w now messageId)^[n] p).2 := by
  induction n generalizing p with
  | zero => exact .refl _
  | succ n ih => exact KeepsItems.trans (@step_keeps ⟨p.2, w, now, messageId⟩ p.1) (ih _)

theorem added_junctures (n : Nat) (p : RequestCall × AppState) :
    Leftover.Added requestCall p.1 (junctures w now messageId n p) ↔
      ¬ AddsNothing p.2 ((RequestCall.alone w now messageId)^[n] p).2 := by
  induction n generalizing p with
  | zero => exact iff_of_false id (not_not.mpr (.refl _))
  | succ n ih =>
    have hrest := ih (RequestCall.alone w now messageId p)
    have hkeeps : KeepsItems p.2 (RequestCall.alone w now messageId p).2 := @step_keeps ⟨p.2, w, now, messageId⟩ p.1
    exact (or_congr_right hrest).trans (not_addsNothing_trans hkeeps (keeps_iterate n _))

end Keeps

section Handlers
variable {s : AppState} {w : Surroundings} {now : Now} {messageId : Text}

theorem alone_finished (result : BridgeResult Unit) (n : Nat) :
    (RequestCall.alone w now messageId)^[n] (.create (.finished result), s) = (.create (.finished result), s) :=
  Function.iterate_fixed rfl n

theorem alone_seating (c : Creation) (keys : List Text) (s : AppState) :
    (RequestCall.alone w now messageId)^[keys.length] (.create (.seating c keys), s) =
      match Orchestration.joinAll s now c.channel keys with
      | (.error e, s) => (.create (.finished (.error e)), s)
      | (.ok _, s) => (.create (.seating c []), s) := by
  -- once a join is refused, the remaining steps do nothing
  induction keys generalizing s with
  | nil => rfl
  | cons agentKey keys ih =>
    rw [List.length_cons, Function.iterate_succ_apply, Orchestration.joinAll]
    rcases hr : s.join now c.channel agentKey .member with ⟨e | a, s'⟩
    · have hstep : RequestCall.alone w now messageId (.create (.seating c (agentKey :: keys)), s) =
          (.create (.finished (.error e)), s') := by
        simp only [RequestCall.alone, RequestCall.step, CreateCall.step, hr]
      rw [hstep]
      exact alone_finished _ _
    · have hstep : RequestCall.alone w now messageId (.create (.seating c (agentKey :: keys)), s) =
          (.create (.seating c keys), s') := by
        simp only [RequestCall.alone, RequestCall.step, CreateCall.step, hr]
      rw [hstep]
      exact ih s'

def Creation.install (s : AppState) (w : Surroundings) (now : Now) (messageId : Text) (c : Creation) :
    BridgeResult Unit × AppState :=
  match s.createOrGetChannel w now c.channel c.topic c.createdBy with
  | (.error e, s) => (.error e, s)
  | (.ok _, s) =>
    match Orchestration.joinAll s now c.channel c.seats with
    | (.error e, s) => (.error e, s)
    | (.ok _, s) =>
      match c.insert s now with
      | (.error e, s) => (.error e, s)
      | (.ok _, s) =>
        match s.postMessage now messageId c.channel c.createdBy .system c.notice c.metadata with
        | (.error e, s) => (.error e, s)
        | (.ok _, s) => (c.view s, s)

theorem alone_opening (c : Creation) (s : AppState) :
    (RequestCall.alone w now messageId)^[c.seats.length + 3] (.create (.opening c), s) =
      (.create (.finished (c.install s w now messageId).1), (c.install s w now messageId).2) := by
  have hsplit : c.seats.length + 3 = 2 + (c.seats.length + 1) := by omega
  rw [hsplit, Function.iterate_add_apply, Function.iterate_succ_apply _ c.seats.length]
  unfold Creation.install
  rcases hopen : s.createOrGetChannel w now c.channel c.topic c.createdBy with ⟨e | a, s₁⟩
  · have hstep : RequestCall.alone w now messageId (.create (.opening c), s) =
        (.create (.finished (.error e)), s₁) := by
      simp only [RequestCall.alone, RequestCall.step, CreateCall.step, hopen]
    rw [hstep, alone_finished, alone_finished]
  · have hstep : RequestCall.alone w now messageId (.create (.opening c), s) =
        (.create (.seating c c.seats), s₁) := by
      simp only [RequestCall.alone, RequestCall.step, CreateCall.step, hopen]
    rw [hstep, alone_seating]
    dsimp only
    rcases Orchestration.joinAll s₁ now c.channel c.seats with ⟨e | a, s₂⟩
    · exact alone_finished _ _
    · dsimp only
      rw [Function.iterate_succ_apply]
      rcases hinsert : c.insert s₂ now with ⟨e | a, s₃⟩
      · have hstep : RequestCall.alone w now messageId (.create (.seating c []), s₂) =
            (.create (.finished (.error e)), s₃) := by
          simp only [RequestCall.alone, RequestCall.step, CreateCall.step, hinsert]
        rw [hstep]
        exact alone_finished _ _
      · have hstep : RequestCall.alone w now messageId (.create (.seating c []), s₂) =
            (.create (.announcing c), s₃) := by
          simp only [RequestCall.alone, RequestCall.step, CreateCall.step, hinsert]
        rw [hstep]
        simp only [Function.iterate_one, RequestCall.alone, RequestCall.step, CreateCall.step]
        rcases s₃.postMessage now messageId c.channel c.createdBy .system c.notice c.metadata with
          ⟨e | a, s₄⟩ <;> rfl

theorem installPlan_eq (plan : WorkflowPlan) :
    ((Orchestration.installPlan s w now messageId plan).1.map fun _ => (),
      (Orchestration.installPlan s w now messageId plan).2) =
      (Creation.workflow plan).install s w now messageId := by
  unfold Orchestration.installPlan Creation.install
  dsimp only [Creation.channel, Creation.topic, Creation.createdBy, Creation.seats, Creation.insert, Creation.notice,
    Creation.metadata, Creation.view]
  rcases s.createOrGetChannel w now plan.channel plan.title plan.createdBy with ⟨e | a, s₁⟩
  · rfl
  dsimp only
  rcases Orchestration.joinAll s₁ now plan.channel (plan.assignments.map WorkflowAssignment.agentKey) with
    ⟨e | a, s₂⟩
  · rfl
  dsimp only
  rcases Orchestration.insertWorkflowContext s₂ now plan.channel Orchestration.planContextKey (.workflowPlan plan)
    plan.createdBy with ⟨e | a, s₃⟩
  · rfl
  dsimp only
  rcases s₃.postMessage now messageId plan.channel plan.createdBy .system (Orchestration.createdMessage plan)
    (.obj [("kind".toList, .str "workflow_created".toList), ("workflow_id".toList, .str plan.id),
      ("mode".toList, .str plan.mode.name)]) with ⟨e | a, s₄⟩ <;> rfl

theorem blind_installPlan_eq (plan : BlindCompetitionPlan) (viewer : Option Text) :
    ((BlindCompetition.installPlan s w now messageId plan viewer).1.map fun _ => (),
      (BlindCompetition.installPlan s w now messageId plan viewer).2) =
      (Creation.blind plan viewer).install s w now messageId := by
  unfold BlindCompetition.installPlan Creation.install BlindCompetition.publish
  dsimp only [Creation.channel, Creation.topic, Creation.createdBy, Creation.seats, Creation.insert, Creation.notice,
    Creation.metadata, Creation.view]
  rcases s.createOrGetChannel w now plan.channel plan.title plan.createdBy with ⟨e | a, s₁⟩
  · rfl
  dsimp only
  rcases Orchestration.joinAll s₁ now plan.channel (BlindCompetition.seated plan) with ⟨e | a, s₂⟩
  · rfl
  dsimp only
  rcases BlindCompetition.insertBlindContext s₂ now plan.channel BlindCompetition.blindPlanContextKey
    (.blindPlan plan) plan.createdBy with ⟨e | a, s₃⟩
  · rfl
  dsimp only
  rcases s₃.postMessage now messageId plan.channel plan.createdBy .system (BlindCompetition.openedMessage plan)
    (BlindCompetition.openedMetadata plan) with ⟨e | a, s₄⟩ <;> rfl

def OrchestrationRequest.steps (s : AppState) (now : Now) : OrchestrationRequest → Nat
  | createWorkflow id req =>
    (Orchestration.buildPlan s now id req).toOption.elim 1 fun plan => plan.assignments.length + 4
  | createBlindCompetition id req _ =>
    (BlindCompetition.buildPlan s now id req).toOption.elim 1 fun plan => (BlindCompetition.seated plan).length + 4
  | _ => 4

theorem alone_serve (request : OrchestrationRequest) :
    let p := (RequestCall.alone w now messageId)^[request.steps s now] (request.start s, s)
    p.2 = (request.serve s w now messageId).2 ∧
      (p.1.Failed ↔ (request.serve s w now messageId).1.isSome = true) := by
  -- a creation takes a step more for each seat; the other requests take four, and run out by evaluation
  cases request with
  | createWorkflow planId req =>
    dsimp only [OrchestrationRequest.start, OrchestrationRequest.serve, OrchestrationRequest.steps,
      Orchestration.createWorkflow]
    cases hplan : Orchestration.buildPlan s now planId req with
    | error e =>
      have hstep : RequestCall.alone w now messageId (.create (.workflow planId req), s) =
          (.create (.finished (.error e)), s) := by
        simp only [RequestCall.alone, RequestCall.step, CreateCall.step, hplan]
      dsimp only [Except.toOption, Option.elim]
      rw [Function.iterate_one, hstep]
      exact ⟨rfl, iff_of_true trivial rfl⟩
    | ok plan =>
      have hstep : RequestCall.alone w now messageId (.create (.workflow planId req), s) =
          (.create (.opening (.workflow plan)), s) := by
        simp only [RequestCall.alone, RequestCall.step, CreateCall.step, hplan]
      have hseats : plan.assignments.length + 4 = (Creation.workflow plan).seats.length + 3 + 1 := by
        simp [Creation.seats]
      dsimp only [Except.toOption, Option.elim]
      rw [hseats, Function.iterate_succ_apply, hstep, alone_opening, ← installPlan_eq]
      refine ⟨(failure_state _).symm, ?_⟩
      unfold failure
      cases (Orchestration.installPlan s w now messageId plan).1 with
      | error e => exact iff_of_true trivial rfl
      | ok view => exact iff_of_false id Bool.false_ne_true
  | createBlindCompetition planId req viewer =>
    dsimp only [OrchestrationRequest.start, OrchestrationRequest.serve, OrchestrationRequest.steps,
      BlindCompetition.createBlindCompetition]
    cases hplan : BlindCompetition.buildPlan s now planId req with
    | error e =>
      have hstep : RequestCall.alone w now messageId
          (.create (.blind planId req (BlindCompetition.viewerKey viewer)), s) =
            (.create (.finished (.error e)), s) := by
        simp only [RequestCall.alone, RequestCall.step, CreateCall.step, hplan]
      dsimp only [Except.toOption, Option.elim]
      rw [Function.iterate_one, hstep]
      exact ⟨rfl, iff_of_true trivial rfl⟩
    | ok plan =>
      have hstep : RequestCall.alone w now messageId
          (.create (.blind planId req (BlindCompetition.viewerKey viewer)), s) =
          (.create (.opening (.blind plan (BlindCompetition.viewerKey viewer))), s) := by
        simp only [RequestCall.alone, RequestCall.step, CreateCall.step, hplan]
      have hseats : (BlindCompetition.seated plan).length + 4 =
          (Creation.blind plan (BlindCompetition.viewerKey viewer)).seats.length + 3 + 1 := rfl
      dsimp only [Except.toOption, Option.elim]
      rw [hseats, Function.iterate_succ_apply, hstep, alone_opening, ← blind_installPlan_eq]
      refine ⟨(failure_state _).symm, ?_⟩
      unfold failure
      cases (BlindCompetition.installPlan s w now messageId plan (BlindCompetition.viewerKey viewer)).1 with
      | error e => exact iff_of_true trivial rfl
      | ok view => exact iff_of_false id Bool.false_ne_true
  | submitWorkflow workflowId req =>
    have hrun : (RequestCall.alone w now messageId)^[4] (.submit (.start s workflowId req), s) =
        (.submit (Orchestration.submitWorkflow s now messageId workflowId req).1,
          (Orchestration.submitWorkflow s now messageId workflowId req).2) := rfl
    dsimp only [OrchestrationRequest.start, OrchestrationRequest.serve, OrchestrationRequest.steps]
    rw [hrun]
    rcases Orchestration.submitWorkflow s now messageId workflowId req with ⟨call, s'⟩
    cases call with
    | finished result =>
      cases result with
      | error e => exact ⟨rfl, iff_of_true trivial rfl⟩
      | ok view => exact ⟨rfl, iff_of_false id Bool.false_ne_true⟩
    | checked | planned | validated | stored => exact ⟨rfl, iff_of_false id Bool.false_ne_true⟩
  | submitBlindCompetition workflowId req viewer =>
    have hrun : (RequestCall.alone w now messageId)^[4] (.blind (.startSubmit s.config viewer workflowId req), s) =
        (.blind ((BlindCompetition.BlindCall.startSubmit s.config viewer workflowId req).whole s now messageId).1,
          ((BlindCompetition.BlindCall.startSubmit s.config viewer workflowId req).whole s now messageId).2) := rfl
    dsimp only [OrchestrationRequest.start, OrchestrationRequest.serve, OrchestrationRequest.steps]
    rw [hrun, BlindCompetition.whole_submit]
    rcases BlindCompetition.submitBlindCompetition s now viewer messageId workflowId req with ⟨e | view, s'⟩
    · exact ⟨rfl, iff_of_true trivial rfl⟩
    · exact ⟨rfl, iff_of_false id Bool.false_ne_true⟩
  | revealBlindCompetition workflowId viewer =>
    have hrun : (RequestCall.alone w now messageId)^[4] (.blind (.startReveal viewer workflowId), s) =
        (.blind ((BlindCompetition.BlindCall.startReveal viewer workflowId).whole s now messageId).1,
          ((BlindCompetition.BlindCall.startReveal viewer workflowId).whole s now messageId).2) := rfl
    dsimp only [OrchestrationRequest.start, OrchestrationRequest.serve, OrchestrationRequest.steps]
    rw [hrun, BlindCompetition.whole_reveal]
    rcases BlindCompetition.revealBlindCompetition s now viewer messageId workflowId with ⟨e | view, s'⟩
    · exact ⟨rfl, iff_of_true trivial rfl⟩
    · exact ⟨rfl, iff_of_false id Bool.false_ne_true⟩

/-- A request leaves nothing behind when it fails if and only if every step after the first that added something
finds what it needs: whatever state each step finds, and in particular for the handlers as they run alone. -/
theorem atomic_iff_prepared (s : AppState) (request : OrchestrationRequest) :
    (∀ ms, ((Run.exec requestCall.step (request.start s) ms).Failed →
        ¬ Leftover.Added requestCall (request.start s) ms) ↔
      Leftover.Prepared requestCall False (request.start s) ms) ∧
    ∀ w now messageId, ((request.serve s w now messageId).1.isSome = true →
        AddsNothing s (request.serve s w now messageId).2) ↔
      Leftover.Prepared requestCall False (request.start s)
        (junctures w now messageId (request.steps s now) (request.start s, s)) := by
  have hany (ms : List Juncture) : ((Run.exec requestCall.step (request.start s) ms).Failed →
      ¬ Leftover.Added requestCall (request.start s) ms) ↔
      Leftover.Prepared requestCall False (request.start s) ms :=
    @Leftover.clean_iff _ _ requestCall _ (not_late_start s request) ms
  refine ⟨hany, fun w now messageId => ?_⟩
  have hadded := @added_junctures now w messageId (request.steps s now) (request.start s, s)
  have hexec := @exec_junctures w now messageId (request.steps s now) (request.start s, s)
  obtain ⟨hstate, hfailed⟩ := @alone_serve s w now messageId request
  rw [hstate] at hadded
  rw [← hany, hadded, not_not, ← hfailed]
  exact imp_congr_left (iff_of_eq (congrArg RequestCall.Failed hexec.symm))

def adaState (config : Config) : AppState :=
  ((AppState.new config).registerAgent ⟨0, 0⟩ {
    agentKey := "ada".toList
    displayName := "Ada".toList
    kind := .claude
    host := none
    metadata := .null
    registeredAt := [] }).2

def adaWorkflow : OrchestrationRequest := .createWorkflow "w1".toList {
  title := "title".toList
  prompt := "prompt".toList
  createdBy := "ada".toList
  mode := .single }

/-- Her workflow is under way, she has left its channel, and others have taken all its seats. -/
def crowdedState : AppState :=
  let s := (adaWorkflow.serve (adaState .inMemory) asciiSurroundings ⟨1, 1⟩ "m0".toList).2
  let s := (s.leave ⟨2, 2⟩ "workflow-w1".toList "ada".toList).2
  (List.range maxMembers).foldl (fun s n => (s.join ⟨3, 3⟩ "workflow-w1".toList (Text.decimal n) .member).2) s

def adaSubmission : OrchestrationRequest := .submitWorkflow "w1".toList {
  agentKey := "ada".toList
  content := "done".toList }

def tightState : AppState :=
  adaState { Config.inMemory with maxContentBytes := 200 }

def tightReply : Option BridgeError × AppState :=
  adaWorkflow.serve tightState asciiSurroundings ⟨1, 1⟩ "m0".toList

def crowdedReply : Option BridgeError × AppState :=
  adaSubmission.serve crowdedState asciiSurroundings ⟨4, 4⟩ "m1".toList

/-- A plan that is too large leaves its channel, and a submission refused for want of a seat is stored. -/
theorem not_atomic :
    (tightReply.1 = some (.payloadTooLarge "context value".toList 200) ∧
      tightState.has (.channel "workflow-w1".toList) = false ∧
      tightReply.2.has (.channel "workflow-w1".toList) = true) ∧
    (crowdedReply.1 = some (.channelFull "workflow-w1".toList 32 32 33) ∧
      crowdedState.has (.record "workflow-w1".toList (Orchestration.submissionKey 0)) = false ∧
      crowdedReply.2.has (.record "workflow-w1".toList (Orchestration.submissionKey 0)) = true) := by
  decide +kernel

end Handlers
end AgentBridge
