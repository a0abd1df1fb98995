import AgentBridge.Blind.Handlers

/-! The submit and reveal handlers one locked step at a time, as concurrent requests
interleave them. With nothing in between, the steps make up the handlers. -/

namespace AgentBridge.BlindCompetition

/-- How far a submission or a reveal has come. -/
inductive BlindCall
  | submitting (identity : AuthenticatedAdapter) (workflowId content : Text) (metadata : Json)
  | planned (identity : AuthenticatedAdapter) (plan : BlindCompetitionPlan) (content : Text) (metadata : Json)
  | admitted (identity : AuthenticatedAdapter) (plan : BlindCompetitionPlan) (worker : BlindWorker)
    (content : Text) (metadata : Json)
  | stored (identity : AuthenticatedAdapter) (plan : BlindCompetitionPlan) (submission : BlindSubmission)
  | revealing (identity : AuthenticatedAdapter) (workflowId : Text)
  | reviewing (identity : AuthenticatedAdapter) (plan : BlindCompetitionPlan)
  | counted (identity : AuthenticatedAdapter) (plan : BlindCompetitionPlan) (candidates : Nat)
  | opened (identity : AuthenticatedAdapter) (plan : BlindCompetitionPlan) (candidates : Nat)
  | finished (result : BridgeResult BlindCompetitionView)

def newSubmission (now : Now) (identity : AuthenticatedAdapter) (plan : BlindCompetitionPlan)
    (worker : BlindWorker) (content : Text) (metadata : Json) : BlindSubmission where
  workflowId := plan.id
  assignmentOrdinal := worker.ordinal
  agentKey := identity.agentKey
  content := content
  metadata := metadata
  submittedAt := now.ts

def newReveal (now : Now) (identity : AuthenticatedAdapter) (plan : BlindCompetitionPlan) : BlindReveal where
  workflowId := plan.id
  reviewerAgentKey := identity.agentKey
  revealedAt := now.ts

/-- The submitter's assignment, while submissions are open. -/
def assignedWorker (s : AppState) (identity : AuthenticatedAdapter) (plan : BlindCompetitionPlan) :
    BridgeResult BlindWorker := do
  let reveal ← loadReveal s plan.channel
  if reveal.isSome then
    .error (.badRequest "blind competition submissions are closed after reveal".toList)
  else match plan.workers.find? (fun worker => worker.agentKey = identity.agentKey) with
  | none => .error (.badRequest ("agent '".toList ++ identity.agentKey ++
      "' is not a worker in blind competition '".toList ++ plan.id ++ "'".toList))
  | some worker => .ok worker

def countCandidates (s : AppState) (plan : BlindCompetitionPlan) : BridgeResult Nat := do
  let submissions ← loadSubmissions s plan.channel
  if submissions.length ≠ plan.workers.length then
    .error (.badRequest ("reviewer must wait for all ".toList ++ Text.decimal plan.workers.length ++
      " worker submissions; received ".toList ++ Text.decimal submissions.length))
  else .ok submissions.length

def inputChecks (config : Config) (identity : AuthenticatedAdapter) (req : SubmitBlindCompetitionReq) :
    BridgeResult Text := do
  let requestedAgentKey ← normalizeAgentKey req.agentKey
  if requestedAgentKey ≠ identity.agentKey then .error .unauthorized
  else do
    let content ← normalizeRequiredText req.content "blind submission content".toList config.maxContentBytes
    validateJsonSize req.metadata config.maxContentBytes "blind submission meta".toList
    return content

namespace BlindCall

def startSubmit (config : Config) (viewer : Option AuthenticatedAdapter) (workflowId : Text)
    (req : SubmitBlindCompetitionReq) : BlindCall :=
  match viewer with
  | none => finished (.error .unauthorized)
  | some identity =>
    match inputChecks config identity req with
    | .error e => finished (.error e)
    | .ok content => submitting identity workflowId content req.metadata

def startReveal (viewer : Option AuthenticatedAdapter) (workflowId : Text) : BlindCall :=
  match viewer with
  | none => finished (.error .unauthorized)
  | some identity => revealing identity workflowId

/-- The next locked step of a call. -/
def step (s : AppState) (now : Now) (messageId : Text) : BlindCall → BlindCall × AppState
  | submitting identity workflowId content metadata =>
    match loadPlan s workflowId with
    | .error e => (finished (.error e), s)
    | .ok plan => (planned identity plan content metadata, s)
  | planned identity plan content metadata =>
    match assignedWorker s identity plan with
    | .error e => (finished (.error e), s)
    | .ok worker => (admitted identity plan worker content metadata, s)
  | admitted identity plan worker content metadata =>
    let submission := newSubmission now identity plan worker content metadata
    match insertBlindContext s now plan.channel (submissionKey worker.ordinal) (.blindSubmission submission)
        identity.agentKey with
    | (.error e, s) => (finished (.error e), s)
    | (.ok _, s) => (stored identity plan submission, s)
  | stored identity plan submission =>
    match s.postMessage now messageId plan.channel identity.agentKey .system
        ("Blind candidate ".toList ++ Text.decimal submission.assignmentOrdinal ++ " submitted.".toList)
        (submissionMetadata submission) with
    | (.error e, s) => (finished (.error e), s)
    | (.ok _, s) => (finished (buildView s plan (some identity.agentKey)), s)
  | revealing identity workflowId =>
    match loadPlan s workflowId with
    | .error e => (finished (.error e), s)
    | .ok plan =>
      if identity.agentKey ≠ plan.reviewerAgentKey then (finished (.error .unauthorized), s)
      else (reviewing identity plan, s)
  | reviewing identity plan =>
    match countCandidates s plan with
    | .error e => (finished (.error e), s)
    | .ok candidates => (counted identity plan candidates, s)
  | counted identity plan candidates =>
    match insertBlindContext s now plan.channel blindRevealContextKey
        (.blindReveal (newReveal now identity plan)) identity.agentKey with
    | (.error e, s) => (finished (.error e), s)
    | (.ok _, s) => (opened identity plan candidates, s)
  | opened identity plan candidates =>
    match s.postMessage now messageId plan.channel identity.agentKey .system
        "Blind candidate set revealed to authorized workflow readers.".toList
        (revealMetadata plan candidates) with
    | (.error e, s) => (finished (.error e), s)
    | (.ok _, s) => (finished (buildView s plan (some identity.agentKey)), s)
  | finished result => (finished result, s)

def whole (s : AppState) (now : Now) (messageId : Text) (call : BlindCall) : BlindCall × AppState :=
  let (call, s) := call.step s now messageId
  let (call, s) := call.step s now messageId
  let (call, s) := call.step s now messageId
  call.step s now messageId

end BlindCall

section Whole
variable (s : AppState) (now : Now) (messageId workflowId : Text) (viewer : Option AuthenticatedAdapter)

theorem submitChecks_eq (identity : AuthenticatedAdapter) (req : SubmitBlindCompetitionReq) :
    submitChecks s now identity workflowId req = (do
      let content ← inputChecks s.config identity req
      let plan ← loadPlan s workflowId
      let worker ← assignedWorker s identity plan
      return (plan, newSubmission now identity plan worker content req.metadata)) := by
  unfold submitChecks inputChecks assignedWorker
  cases normalizeAgentKey req.agentKey with
  | error e => rfl
  | ok key =>
    dsimp only [bind, Except.bind]
    split_ifs
    · rfl
    · cases normalizeRequiredText req.content "blind submission content".toList s.config.maxContentBytes with
      | error e => rfl
      | ok content =>
        dsimp only
        cases validateJsonSize req.metadata s.config.maxContentBytes "blind submission meta".toList with
        | error e => rfl
        | ok u =>
          dsimp only [pure, Except.pure]
          cases loadPlan s workflowId with
          | error e => rfl
          | ok plan =>
            dsimp only
            cases loadReveal s plan.channel with
            | error e => rfl
            | ok reveal =>
              dsimp only
              split_ifs
              · rfl
              · cases plan.workers.find? (fun worker => worker.agentKey = identity.agentKey) <;> rfl

theorem whole_submit (req : SubmitBlindCompetitionReq) :
    (BlindCall.startSubmit s.config viewer workflowId req).whole s now messageId =
      (.finished (submitBlindCompetition s now viewer messageId workflowId req).1,
        (submitBlindCompetition s now viewer messageId workflowId req).2) := by
  cases viewer with
  | none => rfl
  | some identity =>
    unfold submitBlindCompetition
    simp only [submitChecks_eq]
    dsimp only [BlindCall.startSubmit]
    cases inputChecks s.config identity req with
    | error e => rfl
    | ok content =>
      dsimp only [bind, Except.bind, BlindCall.whole, BlindCall.step]
      cases loadPlan s workflowId with
      | error e => rfl
      | ok plan =>
        dsimp only [BlindCall.step]
        cases assignedWorker s identity plan with
        | error e => rfl
        | ok worker =>
          have hordinal : (newSubmission now identity plan worker content req.metadata).assignmentOrdinal =
              worker.ordinal := rfl
          dsimp only [BlindCall.step, pure, Except.pure, publish]
          rw [hordinal]
          rcases insertBlindContext s now plan.channel (submissionKey worker.ordinal)
            (.blindSubmission (newSubmission now identity plan worker content req.metadata))
            identity.agentKey with ⟨r, s₁⟩
          cases r with
          | error e => rfl
          | ok entry =>
            dsimp only [BlindCall.step]
            rw [hordinal]
            rcases s₁.postMessage now messageId plan.channel identity.agentKey .system
              ("Blind candidate ".toList ++ Text.decimal worker.ordinal ++ " submitted.".toList)
              (submissionMetadata (newSubmission now identity plan worker content req.metadata)) with ⟨r, s₂⟩
            cases r <;> rfl

theorem whole_reveal :
    (BlindCall.startReveal viewer workflowId).whole s now messageId =
      (.finished (revealBlindCompetition s now viewer messageId workflowId).1,
        (revealBlindCompetition s now viewer messageId workflowId).2) := by
  cases viewer with
  | none => rfl
  | some identity =>
    unfold revealBlindCompetition revealChecks
    dsimp only [BlindCall.startReveal, BlindCall.whole]
    -- step by step, the stages meet the handler's branches
    cases hplan : loadPlan s workflowId with
    | error e =>
      have hfirst : (BlindCall.revealing identity workflowId).step s now messageId = (.finished (.error e), s) := by
        rw [BlindCall.step, hplan]
      rw [hfirst]
      rfl
    | ok plan =>
      dsimp only [bind, Except.bind]
      by_cases hreviewer : identity.agentKey ≠ plan.reviewerAgentKey
      · have hfirst : (BlindCall.revealing identity workflowId).step s now messageId =
            (.finished (.error .unauthorized), s) := by
          simp only [BlindCall.step, hplan, if_pos hreviewer]
        rw [hfirst, if_pos hreviewer]
        rfl
      · have hfirst : (BlindCall.revealing identity workflowId).step s now messageId =
            (.reviewing identity plan, s) := by
          simp only [BlindCall.step, hplan, if_neg hreviewer]
        rw [hfirst, if_neg hreviewer]
        dsimp only [BlindCall.step, countCandidates, bind, Except.bind]
        cases loadSubmissions s plan.channel with
        | error e => rfl
        | ok submissions =>
          dsimp only
          by_cases hcount : submissions.length ≠ plan.workers.length
          · rw [if_pos hcount, if_pos hcount]
          · rw [if_neg hcount, if_neg hcount]
            dsimp only [BlindCall.step, publish, newReveal]
            rcases insertBlindContext s now plan.channel blindRevealContextKey
              (.blindReveal ⟨plan.id, identity.agentKey, now.ts⟩) identity.agentKey with ⟨r, s₁⟩
            cases r with
            | error e => rfl
            | ok entry =>
              dsimp only [BlindCall.step]
              rcases s₁.postMessage now messageId plan.channel identity.agentKey .system
                "Blind candidate set revealed to authorized workflow readers.".toList
                (revealMetadata plan submissions.length) with ⟨r, s₂⟩
              cases r <;> rfl

end Whole
end AgentBridge.BlindCompetition
