import AgentBridge.Runner.RetryExecution
import AgentBridge.Runner.Work

/-! One runner against the bridge: its poll loop, which acts on the workflows it has
listed, and the tasks it spawns, one for an assignment. The answers of the bridge are
moves; a request may take effect although its answer is lost. -/

namespace AgentBridge.Runner

structure RunnerConfig where
  sha256 : Sha256
  retryPolicy : Text → RetryPolicy
  providers : List ProviderWorker
  claimsEnabled : Bool
  instanceId : Text
  maxConcurrency : Nat
  leaseSafetyMarginMs : Nat

/-- An assignment: its workflow and its ordinal. -/
abbrev AssignmentKey := Text × Nat

/-- How a request to the bridge ends for the task that made it. -/
inductive Reply (α : Type)
  | ok (value : α)
  | refused
  /-- The bridge has accepted the request, and the task sees an error. -/
  | lost

/-- The leases a task holds. -/
structure Held where
  claim : Bool
  fileLease : Bool

/-- The next thing `execute_assignment` does. -/
inductive Phase
  | claiming
  | leasing (claim : Bool)
  | budgeting (held : Held)
  | reserving (held : Held)
  | executing (held : Held) (engine : Engine)
  | reporting (held : Held)
  | renewing (held : Held)
  | submitting (held : Held)
  | completing (held : Held)
  | cancelling (held : Held) (reason : Text)
  | releasing (held : Held)

structure Task where
  provider : ProviderWorker
  workflow : WorkflowView
  assignment : WorkflowAssignment
  admission : AdmissionRecord
  phase : Phase

inductive TaskMove
  | claimed (ok : Bool)
  | leased (ok : Bool)
  | reserved (reply : Reply UsageReservation) (shutdown : Bool)
  | engine (move : Move)
  /-- The bridge accepts the retry reservation in flight. -/
  | granted
  | leaseLost
  | reported (ok : Bool)
  | renewed (ok : Bool)
  | submitted (reply : Reply WorkflowView)
  | proceed

inductive RunnerEvent
  | reserved (key : AssignmentKey)
  | cancelled (key : AssignmentKey) (reason : Text)
  | submitted (key : AssignmentKey)
deriving DecidableEq

def renewalDelay (ttlMs safetyMarginMs : Nat) : Option Nat :=
  if safetyMarginMs ≤ ttlMs ∧ 250 ≤ ttlMs - safetyMarginMs then some (ttlMs - safetyMarginMs) else none

def abortReason : RetryAbortReason → Text
  | .runnerShutdown => "runner_shutdown".toList
  | .admissionNotActive => "admission_not_active".toList
  | .workflowNotPending => "workflow_not_pending".toList
  | .guardUnavailable => "execution_guard_unavailable".toList
  | .retryReservationRejected => "retry_reservation_rejected".toList

/-- The reservation of a retry has been sent and not been answered. -/
def Engine.awaitsReservation (e : Engine) : Bool :=
  match e.point with
  | .on (.reserve _) (.selecting true) | .on (.reserve _) (.rechecking true) => true
  | _ => false

namespace Task

def key (t : Task) : AssignmentKey := (t.workflow.plan.id, t.assignment.ordinal)

def goto (t : Task) (phase : Phase) : Option Task := some { t with phase := phase }

def execution (cfg : RunnerConfig) (t : Task) : Execution where
  sha256 := cfg.sha256
  policy := cfg.retryPolicy t.provider.config.name
  seed := t.workflow.plan.id ++ "/".toList ++ Text.decimal t.assignment.ordinal ++ "/".toList ++
    t.provider.config.name ++ "/".toList ++ cfg.instanceId
  provider := t.provider
  workflow := t.workflow
  assignment := t.assignment

/-- `execute_assignment`, one awaited call or one decision at a time; `none` once it has returned. -/
def step (cfg : RunnerConfig) (t : Task) (m : TaskMove) : Option Task × List RunnerEvent :=
  match t.phase, m with
  | .claiming, .claimed ok =>
    if !cfg.claimsEnabled then (t.goto (.leasing false), [])
    else if ok then (t.goto (.leasing true), [])
    else (none, [])
  | .leasing claim, .leased ok =>
    match t.workflow.plan.fileLease.filter FileLeaseRequirement.required with
    | none => (t.goto (.budgeting ⟨claim, false⟩), [])
    | some requirement =>
      if (renewalDelay requirement.ttlMs cfg.leaseSafetyMarginMs).isNone then
        (t.goto (.releasing ⟨claim, false⟩), [])
      else if ok then (t.goto (.budgeting ⟨claim, true⟩), [])
      else (t.goto (.releasing ⟨claim, false⟩), [])
  | .budgeting held, .proceed =>
    if t.admission.policy.budget.maxOutputTokens - t.admission.usage.outputTokens = 0 then
      (t.goto (.cancelling held "output token budget exhausted before provider call".toList), [])
    else (t.goto (.reserving held), [])
  | .reserving held, .reserved reply shutdown =>
    match reply with
    | .ok reservation =>
      (t.goto (.executing held (Engine.start reservation ⟨shutdown, false, false⟩)), [.reserved t.key])
    | .refused => (t.goto (.cancelling held "provider call reservation failed".toList), [])
    | .lost => (t.goto (.cancelling held "provider call reservation failed".toList), [.reserved t.key])
  | .executing held engine, .engine move =>
    let (engine, events) := (t.execution cfg).step engine move
    (t.goto (.executing held engine), if .reserved ∈ events then [.reserved t.key] else [])
  | .executing _ engine, .granted => (some t, if engine.awaitsReservation then [.reserved t.key] else [])
  | .executing held _, .leaseLost =>
    -- the heartbeat runs only over a lease
    if held.claim || held.fileLease then
      (t.goto (.cancelling held "Fiducia heartbeat failed".toList), [])
    else (some t, [])
  | .executing held engine, .proceed =>
    match engine.point with
    | .on .. => (some t, [])
    | .ended (.success ..) => (t.goto (.reporting held), [])
    | .ended (.finalFailure ..) => (t.goto (.reporting held), [])
    | .ended (.aborted reason _ _) => (t.goto (.cancelling held (abortReason reason)), [])
  | .reporting held, .reported ok =>
    if !ok then (t.goto (.releasing held), [])
    else if held.claim then (t.goto (.renewing held), [])
    else (t.goto (.submitting held), [])
  | .renewing held, .renewed ok =>
    if ok then (t.goto (.submitting held), [])
    else (t.goto (.cancelling held "assignment claim became stale before submission".toList), [])
  | .submitting held, .submitted reply =>
    match reply with
    | .ok updated =>
      if updated.status.stage = .completed then (t.goto (.completing held), [.submitted t.key])
      else (t.goto (.releasing held), [.submitted t.key])
    | .refused =>
      (t.goto (.cancelling held "workflow submission failed after provider execution".toList), [])
    | .lost =>
      (t.goto (.cancelling held "workflow submission failed after provider execution".toList),
        [.submitted t.key])
  | .completing held, .proceed => (t.goto (.releasing held), [])
  | .cancelling held reason, .proceed => (t.goto (.releasing held), [.cancelled t.key reason])
  | .releasing _, .proceed => (none, [])
  | _, _ => (some t, [])

end Task

inductive Poll
  | idle
  | scanning (workflows : List WorkflowView)
  | ensuring (workflow : WorkflowView) (workflows : List WorkflowView)
  | choosing (workflow : WorkflowView) (admission : AdmissionRecord) (providers : List ProviderWorker)
    (workflows : List WorkflowView)

structure RunnerWorld where
  poll : Poll
  inFlight : List AssignmentKey
  tasks : List Task
  /-- The assignments whose submission the bridge has accepted. -/
  submitted : List AssignmentKey

inductive RunnerMove
  | listed (answer : Option (List WorkflowView))
  | scan
  | ensured (answer : Option AdmissionRecord)
  | task (i : Nat) (move : TaskMove)
  /-- The bridge accepts a submission of somebody else. -/
  | others (key : AssignmentKey)

/-- What `poll_once` does with a provider for a workflow. -/
inductive Choice
  | skip
  | full
  | start (task : Task)

namespace RunnerWorld

def init : RunnerWorld := ⟨.idle, [], [], []⟩

def choose (cfg : RunnerConfig) (s : RunnerWorld) (workflow : WorkflowView) (admission : AdmissionRecord)
    (provider : ProviderWorker) : Choice :=
  if !admission.policy.selectedAgentKeys.any (fun agent => agent = provider.config.name) then .skip
  else match eligibleAssignment workflow provider.config.name with
  | none => .skip
  | some assignment =>
    if cfg.maxConcurrency ≤ s.tasks.length then .full
    else if (workflow.plan.id, assignment.ordinal) ∈ s.inFlight then .skip
    else .start ⟨provider, workflow, assignment, admission, .claiming⟩

/-- The task that the next step of `poll_once` spawns, if it spawns one. -/
def spawns (cfg : RunnerConfig) (s : RunnerWorld) : Option Task :=
  match s.poll with
  | .choosing workflow admission (provider :: _) _ =>
    match s.choose cfg workflow admission provider with
    | .start task => some task
    | _ => none
  | _ => none

def scan (cfg : RunnerConfig) (s : RunnerWorld) : RunnerWorld :=
  match s.poll with
  | .idle => s
  | .scanning [] => { s with poll := .idle }
  | .scanning (workflow :: workflows) =>
    if workflow.status.pendingAgents.isEmpty then { s with poll := .scanning workflows }
    else { s with poll := .ensuring workflow workflows }
  | .ensuring .. => s
  | .choosing _ _ [] workflows => { s with poll := .scanning workflows }
  | .choosing workflow admission (provider :: providers) workflows =>
    match s.choose cfg workflow admission provider with
    | .skip => { s with poll := .choosing workflow admission providers workflows }
    | .full => { s with poll := .idle }
    | .start task =>
      { s with
        poll := .choosing workflow admission providers workflows
        inFlight := task.key :: s.inFlight
        tasks := task :: s.tasks }

def submissions (events : List RunnerEvent) : List AssignmentKey :=
  events.filterMap fun
    | .submitted key => some key
    | _ => none

def step (cfg : RunnerConfig) (s : RunnerWorld) : RunnerMove → RunnerWorld × List RunnerEvent
  | .listed answer =>
    match s.poll, answer with
    | .idle, some workflows => ({ s with poll := .scanning workflows }, [])
    | _, _ => (s, [])
  | .scan => (s.scan cfg, [])
  | .ensured answer =>
    match s.poll, answer with
    | .ensuring _ workflows, none => ({ s with poll := .scanning workflows }, [])
    | .ensuring workflow workflows, some admission =>
      ({ s with poll := .choosing workflow admission cfg.providers workflows }, [])
    | _, _ => (s, [])
  | .task i move =>
    match s.tasks[i]? with
    | none => (s, [])
    | some task =>
      match task.step cfg move with
      | (some task', events) =>
        ({ s with tasks := s.tasks.set i task', submitted := submissions events ++ s.submitted }, events)
      | (none, events) =>
        ({ s with
            tasks := s.tasks.eraseIdx i
            inFlight := s.inFlight.filter (fun key => key ≠ task.key)
            submitted := submissions events ++ s.submitted }, events)
  | .others key => ({ s with submitted := key :: s.submitted }, [.submitted key])

end RunnerWorld
end AgentBridge.Runner
