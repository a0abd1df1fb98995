import AgentBridge.Base.Trace
import AgentBridge.Runner.Admission
import AgentBridge.Runner.Retry

/-! The retry engine: one provider call of an assignment and its retries, each awaited
call guarded by the shutdown signal, the admission and the workflow. The moves are what
the surroundings of the engine do next, and the events are what it does. -/

namespace AgentBridge

structure ProviderResponse where
  provider : Text
  model : Text
  text : Text
  requestId : Option Text
  usage : Json

namespace Runner

structure UsageReservation where
  inputTokens : Nat
  outputTokens : Nat
  costMicroUsd : Nat
deriving DecidableEq

inductive RetryAbortReason
  | runnerShutdown | admissionNotActive | workflowNotPending | guardUnavailable
  | retryReservationRejected
deriving DecidableEq

structure RetryAudit where
  retryOrdinal : Nat
  delayMs : Nat
  delaySource : RetryDelaySource
  reason : RetryReason
deriving DecidableEq

inductive RetryRun
  | success (response : ProviderResponse) (reservation : UsageReservation)
    (audits : List RetryAudit) (totalDelay : Duration)
  | finalFailure (error : ProviderError) (audits : List RetryAudit) (totalDelay : Duration)
  | aborted (reason : RetryAbortReason) (audits : List RetryAudit) (totalDelay : Duration)

/-- The shutdown channel as its receiver sees it. -/
structure Watch where
  value : Bool
  /-- A value was sent that `changed` has not reported. -/
  unseen : Bool
  /-- The sender is gone. -/
  closed : Bool
deriving DecidableEq

namespace Watch

def send (w : Watch) (value : Bool) : Watch :=
  if w.closed then w else { w with value := value, unseen := true }

def close (w : Watch) : Watch := { w with closed := true }

/-- What `changed` answers, if it is ready. -/
def changed (w : Watch) : Option (Except Unit Watch) :=
  if w.unseen then some (.ok { w with unseen := false })
  else if w.closed then some (.error ())
  else none

end Watch

/-- The calls that `execute` guards. -/
inductive Call
  | attempt
  | sleep (plan : RetryPlan)
  | reserve (plan : RetryPlan)
deriving DecidableEq

inductive Stage
  | entering
  | guarding
  /-- In the select loop; `polled` once the call has been started. -/
  | selecting (polled : Bool)
  | rechecking (polled : Bool)
deriving DecidableEq

inductive Point
  | on (call : Call) (stage : Stage)
  | ended (run : RetryRun)

structure Engine where
  shutdown : Watch
  reservation : UsageReservation
  audits : List RetryAudit
  totalDelay : Duration
  point : Point

/-- The arguments of `execute` that do not change. -/
structure Execution where
  sha256 : Sha256
  policy : RetryPolicy
  seed : Text
  provider : ProviderWorker
  workflow : WorkflowView
  assignment : WorkflowAssignment

inductive Answer
  | attempted (result : Except ProviderError ProviderResponse)
  | slept
  | reserved (reservation : Option UsageReservation)

inductive Move
  | signal (value : Bool)
  | close
  | proceed
  /-- The admission and the workflow, as a guard check finds them. -/
  | guard (active : Bool) (current : Option WorkflowView)
  | poll
  | answer (answer : Answer)
  | changed
  | tick

inductive Event
  | signalled (value : Bool)
  | closed
  | passed
  | failed (reason : RetryAbortReason)
  | stopped
  | attempted
  | planned (plan : RetryPlan)
  | delayed (delay : Duration)
  | reserving (workflowId : Text) (provider : Text) (concurrency : Nat)
  | reserved
  | refused
deriving DecidableEq

def checkShutdown (shutdown : Watch) : Except RetryAbortReason Unit :=
  if shutdown.value then .error .runnerShutdown else .ok ()

def checkGuard (assignment : WorkflowAssignment) (active : Bool) (current : Option WorkflowView) :
    Except RetryAbortReason Unit :=
  if !active then .error .admissionNotActive
  else match current with
  | none => .error .guardUnavailable
  | some current =>
    if current.status.stage = .completed ∨
        current.submissions.any (fun s => s.assignmentOrdinal = assignment.ordinal) ∨
        !current.status.pendingAgents.any (fun agent => agent = assignment.agentKey) then
      .error .workflowNotPending
    else .ok ()

def phaseConcurrency (workflow : WorkflowView) (assignment : WorkflowAssignment) : Nat :=
  let count := (workflow.plan.assignments.filter fun a => a.phase = assignment.phase).length
  max (min count 255) 1

def audit (plan : RetryPlan) : RetryAudit where
  retryOrdinal := plan.retryOrdinal
  delayMs := min plan.delay.asMillis u64Max
  delaySource := plan.delaySource
  reason := plan.reason

/-- The ordinal of the retry after those audited, as an 8-bit number. -/
def nextOrdinal (audits : List RetryAudit) : Nat := min (min audits.length 255 + 1) 255

namespace Engine

def start (reservation : UsageReservation) (shutdown : Watch) : Engine where
  shutdown := shutdown
  reservation := reservation
  audits := []
  totalDelay := 0
  point := .on .attempt .entering

def goto (e : Engine) (call : Call) (stage : Stage) : Engine := { e with point := .on call stage }

def abort (e : Engine) (reason : RetryAbortReason) : Engine :=
  { e with point := .ended (.aborted reason e.audits e.totalDelay) }

end Engine

namespace Execution

/-- What starts when the future of a call is polled for the first time. -/
def begins (x : Execution) : Call → List Event
  | .attempt => [.attempted]
  | .sleep _ => []
  | .reserve _ =>
    [.reserving x.workflow.plan.id x.provider.config.name (phaseConcurrency x.workflow x.assignment)]

def resume (x : Execution) (e : Engine) : Call → Answer → Engine × List Event
  | .attempt, .attempted (.ok response) =>
    ({ e with point := .ended (.success response e.reservation e.audits e.totalDelay) }, [])
  | .attempt, .attempted (.error error) =>
    match x.policy.plan x.sha256 error (nextOrdinal e.audits) e.totalDelay x.seed with
    | none => ({ e with point := .ended (.finalFailure error e.audits e.totalDelay) }, [])
    | some plan => (e.goto (.sleep plan) .entering, [.planned plan])
  | .sleep plan, .slept =>
    ({ e with totalDelay := e.totalDelay.saturatingAdd plan.delay, point := .on (.reserve plan) .entering },
      [.delayed plan.delay])
  | .reserve plan, .reserved (some reservation) =>
    ({ e with
        reservation := reservation
        audits := e.audits ++ [audit plan]
        point := .on .attempt .entering }, [.reserved])
  | .reserve _, .reserved none => (e.abort .retryReservationRejected, [.refused])
  | _, _ => (e, [])

/-- `guarded` around the calls of `execute`. A move that is not awaited changes nothing. -/
def step (x : Execution) (e : Engine) : Move → Engine × List Event
  | .signal value =>
    ({ e with shutdown := e.shutdown.send value }, if e.shutdown.closed then [] else [.signalled value])
  | .close => ({ e with shutdown := e.shutdown.close }, [.closed])
  | .proceed =>
    match e.point with
    | .on call .entering =>
      match checkShutdown e.shutdown with
      | .error reason => (e.abort reason, [.stopped])
      | .ok () => (e.goto call .guarding, [])
    | _ => (e, [])
  | .guard active current =>
    let resumeAt (call : Call) (polled : Bool) :=
      match checkGuard x.assignment active current with
      | .error reason => (e.abort reason, [.failed reason])
      | .ok () => (e.goto call (.selecting polled), [.passed])
    match e.point with
    | .on call .guarding => resumeAt call false
    | .on call (.rechecking polled) => resumeAt call polled
    | _ => (e, [])
  | .poll =>
    match e.point with
    | .on call (.selecting false) => (e.goto call (.selecting true), x.begins call)
    | _ => (e, [])
  | .answer answer =>
    match e.point with
    | .on call (.selecting true) => x.resume e call answer
    | _ => (e, [])
  | .changed =>
    match e.point with
    | .on _ (.selecting _) =>
      match e.shutdown.changed with
      | none => (e, [])
      | some (.error ()) => (e.abort .runnerShutdown, [.stopped])
      | some (.ok shutdown) =>
        if shutdown.value then ({ e with shutdown := shutdown }.abort .runnerShutdown, [.stopped])
        else ({ e with shutdown := shutdown }, [])
    | _ => (e, [])
  | .tick =>
    match e.point with
    | .on call (.selecting polled) => (e.goto call (.rechecking polled), [])
    | _ => (e, [])

/-- A run of `execute`: the engine and what it has done, after the moves. -/
def run (x : Execution) (reservation : UsageReservation) (shutdown : Watch) (moves : List Move) :
    Engine × List Event :=
  Run.exec (Run.recorded x.step) (Engine.start reservation shutdown, []) moves

end Execution
end Runner
end AgentBridge
