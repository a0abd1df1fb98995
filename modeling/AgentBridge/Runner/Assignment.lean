import AgentBridge.Runner.Client
import AgentBridge.Runner.Tasks

/-! `execute_assignment` with everything it says to the bridge: the claim and the file lease
it takes, the heartbeat that renews them while the provider works, the submission, and the
release of what it took. A phase is a call that is awaited, and a move is its answer. -/

namespace AgentBridge.Runner

structure RunnerSettings where
  sha256 : Sha256
  retryPolicy : Text → RetryPolicy
  providers : List ProviderWorker
  claims : ClaimConfig
  maxConcurrency : Nat
  leaseSafetyMarginMs : Nat
  /-- How an HTTP status prints, by the table of another package. -/
  statusText : Nat → Text

/-- The settings that the poll loop reads. -/
def RunnerSettings.config (cfg : RunnerSettings) : RunnerConfig where
  sha256 := cfg.sha256
  retryPolicy := cfg.retryPolicy
  providers := cfg.providers
  claimsEnabled := cfg.claims.enabled
  instanceId := cfg.claims.instanceId
  maxConcurrency := cfg.maxConcurrency
  leaseSafetyMarginMs := cfg.leaseSafetyMarginMs

section Metadata

def protocolLabel : ProviderProtocol → Text
  | .openAiResponses => "open_ai_responses".toList
  | .anthropicMessages => "anthropic_messages".toList
  | .geminiGenerateContent => "gemini_generate_content".toList
  | .openAiCompatibleChat => "open_ai_compatible_chat".toList

def optional {α : Type} (json : α → Json) (value : Option α) : Json := value.elim .null json

def number (n : Nat) : Json := .num (.posInt n)

/-- `Map::insert`: a member of the same name is replaced. -/
def insertMember (fields : List (Text × Json)) (key : String) (value : Json) : List (Text × Json) :=
  fields.filter (fun e => e.1 ≠ key.toList) ++ [(key.toList, value)]

def successMeta (response : ProviderResponse) (protocol : ProviderProtocol) (fencingToken : Option Nat) :
    List (Text × Json) := [
  ("status".toList, .str "succeeded".toList),
  ("provider".toList, .str response.provider),
  ("model".toList, .str response.model),
  ("protocol".toList, .str (protocolLabel protocol)),
  ("request_id".toList, optional .str response.requestId),
  ("usage".toList, response.usage),
  ("fencing_token".toList, optional number fencingToken),
  ("managed_by".toList, .str "fiducia-ai-agent-runner".toList)]

def failureMeta (provider : ProviderConfig) (error : Text) (fencingToken : Option Nat) : List (Text × Json) := [
  ("status".toList, .str "failed".toList),
  ("provider".toList, .str provider.name),
  ("model".toList, .str provider.model),
  ("protocol".toList, .str (protocolLabel provider.protocol)),
  ("error".toList, .str error),
  ("fencing_token".toList, optional number fencingToken),
  ("managed_by".toList, .str "fiducia-ai-agent-runner".toList)]

def retryReasonJson (reason : RetryReason) : Json :=
  let kind (name : String) := ("kind".toList, Json.str name.toList)
  match reason with
  | .connect => .obj [kind "connect"]
  | .timeout => .obj [kind "timeout"]
  | .httpStatus status => .obj [kind "http_status", ("status".toList, number status)]
  | .rateLimited status => .obj [kind "rate_limited", ("status".toList, number status)]
  | .overloaded status => .obj [kind "overloaded", ("status".toList, number status)]
  | .temporarilyUnavailable status => .obj [kind "temporarily_unavailable", ("status".toList, number status)]
  | .serverError status => .obj [kind "server_error", ("status".toList, number status)]

def auditsJson (audits : List RetryAudit) (totalDelay : Duration) : Json := .obj [
  ("count".toList, number audits.length),
  ("total_delay_ms".toList, number (min totalDelay.asMillis u64Max)),
  ("attempts".toList, .arr (audits.map fun audit => .obj [
    ("retry_ordinal".toList, number audit.retryOrdinal),
    ("delay_ms".toList, number audit.delayMs),
    ("delay_source".toList, .str (match audit.delaySource with
      | .retryAfter => "retry_after".toList
      | .exponentialJitter => "exponential_jitter".toList)),
    ("reason".toList, retryReasonJson audit.reason)]))]

def errorText (statusText : Nat → Text) : ProviderError → Text
  | .invalidConfig message => "invalid provider configuration: ".toList ++ message
  | .missingCredential name =>
    "provider credential environment variable '".toList ++ name ++ "' is missing or empty".toList
  | .promptTooLarge => "provider prompt exceeds the configured byte limit".toList
  | .transport _ => "provider request failed".toList
  | .httpStatus status _ _ => "provider returned HTTP ".toList ++ statusText status
  | .responseTooLarge => "provider response exceeded the configured byte limit".toList
  | .invalidResponse => "provider response did not contain usable text".toList

def annotateHeartbeat (fields : List (Text × Json)) (claimed fileLeased : Bool) (renewals : Nat) :
    List (Text × Json) :=
  let fields := insertMember fields "assignment_claimed" (.bool claimed)
  let fields := insertMember fields "file_leased" (.bool fileLeased)
  let fields := insertMember fields "lease_renewals" (number renewals)
  insertMember fields "lease_heartbeat_failed" (.bool false)

end Metadata

/-- The leases a task holds. -/
structure Leases where
  claim : Option LeaseHandle
  fileLease : Option LeaseHandle

/-- What is submitted in the end. -/
structure Product where
  content : Text
  metadata : List (Text × Json)

/-- Where the heartbeat is. -/
inductive Beat
  | waiting
  | renewingClaim (claim : LeaseHandle)
  | renewingFileLease (fileLease : LeaseHandle)

inductive AssignmentPhase
  | claiming
  | leasing (requirement : FileLeaseRequirement) (claim : Option LeaseHandle)
  | reserving (leases : Leases)
  | executing (leases : Leases) (reserved : AdmissionRecord) (engine : Engine) (beat : Beat) (renewals : Nat)
  | reporting (leases : Leases) (product : Product)
  | renewing (claim : LeaseHandle) (fileLease : Option LeaseHandle) (product : Product)
  | submitting (leases : Leases) (product : Product)
  | completing (leases : Leases)
  | cancelling (leases : Leases) (reason : Text)
  | releasingFileLease (fileLease : LeaseHandle) (claim : Option LeaseHandle)
  | releasingClaim (claim : LeaseHandle)

structure AssignmentTask where
  provider : ProviderWorker
  workflow : WorkflowView
  assignment : WorkflowAssignment
  admission : AdmissionRecord

inductive AssignmentMove
  /-- The reply to the lease call that is awaited. -/
  | replied (reply : BridgeReply)
  | reserved (reply : Reply (AdmissionRecord × UsageReservation)) (shutdown : Bool)
  | engine (move : Move)
  /-- The bridge accepts the retry reservation in flight. -/
  | granted
  /-- The timer of the heartbeat fires. -/
  | beat
  | finished (elapsedMs : Nat)
  | reported (ok : Bool)
  | submitted (reply : Reply WorkflowView)
  /-- A cancellation or completion is answered, one way or the other. -/
  | proceed

inductive AssignmentEvent
  | acquired (owner : Text) (lease : LeaseHandle)
  | denied (owner : Text)
  | renewed (owner : Text) (lease : LeaseHandle) (ok : Bool)
  | released (owner : Text) (lease : LeaseHandle) (ok : Bool)
  | reserved
  | engine (event : Event)
  | reported (ok : Bool)
  /-- A submission was sent, and was accepted or not. -/
  | submitted (product : Product) (accepted : Bool)
  | completed
  | cancelled (reason : Text)

def Beat.isWaiting : Beat → Bool
  | .waiting => true
  | _ => false

/-- While a lease is renewed the retry engine is not polled, and only its shutdown channel changes. -/
def Move.isSignal : Move → Bool
  | .signal _ | .close => true
  | _ => false

namespace AssignmentTask
variable (cfg : RunnerSettings) (t : AssignmentTask)

def execution : Execution where
  sha256 := cfg.sha256
  policy := cfg.retryPolicy t.provider.config.name
  seed := t.workflow.plan.id ++ "/".toList ++ Text.decimal t.assignment.ordinal ++ "/".toList ++
    t.provider.config.name ++ "/".toList ++ cfg.claims.instanceId
  provider := t.provider
  workflow := t.workflow
  assignment := t.assignment

def claimPaths : List Text := [cfg.claims.path t.workflow.plan.id t.assignment.ordinal]

def requirement : Option FileLeaseRequirement := t.workflow.plan.fileLease.filter FileLeaseRequirement.required

/-- What comes after both leases are held. -/
def afterLeases (leases : Leases) : AssignmentPhase :=
  if t.admission.policy.budget.maxOutputTokens - t.admission.usage.outputTokens = 0 then
    .cancelling leases "output token budget exhausted before provider call".toList
  else .reserving leases

/-- What is given back first, if anything is left to give back. -/
def release (leases : Leases) : Option AssignmentPhase :=
  match leases.fileLease, leases.claim with
  | some fileLease, claim => some (.releasingFileLease fileLease claim)
  | none, some claim => some (.releasingClaim claim)
  | none, none => none

/-- What comes after the claim: the file lease, unless its time to live leaves no room for the heartbeat. -/
def afterClaim (claim : Option LeaseHandle) : Option AssignmentPhase :=
  match t.requirement with
  | none => some (t.afterLeases ⟨claim, none⟩)
  | some requirement =>
    -- the heartbeat could not keep its margin, so the claim goes back before anything is asked for
    if (renewalDelay requirement.ttlMs cfg.leaseSafetyMarginMs).isNone then release ⟨claim, none⟩
    else some (.leasing requirement claim)

/-- The shortest time to live of the leases. -/
def heartbeatTtlMs (leases : Leases) : Option Nat :=
  ((leases.claim.toList ++ leases.fileLease.toList).map LeaseHandle.ttlMs).min?

/-- The first lease that a round of the heartbeat renews. -/
def renewal (leases : Leases) : Beat :=
  match leases.claim, leases.fileLease with
  | some claim, _ => .renewingClaim claim
  | none, some fileLease => .renewingFileLease fileLease
  | none, none => .waiting

/-- The heartbeat has a timer. Without room before the margin it renews once, before the call. -/
def timed (leases : Leases) : Bool :=
  (heartbeatTtlMs leases).any fun ttlMs => (renewalDelay ttlMs cfg.leaseSafetyMarginMs).isSome

def firstBeat (leases : Leases) : Beat := if timed cfg leases then .waiting else renewal leases

/-- What a run of the retry engine leaves to submit, if it is not aborted. -/
def product (leases : Leases) (reserved : AdmissionRecord) (renewals elapsedMs : Nat) (run : RetryRun) :
    Except Text Product :=
  let fencingToken := leases.fileLease.map LeaseHandle.fencingToken
  let annotate (fields : List (Text × Json)) (audits : List RetryAudit) (totalDelay : Duration) :=
    let fields := insertMember fields "provider_retries" (auditsJson audits totalDelay)
    let fields := annotateHeartbeat fields leases.claim.isSome leases.fileLease.isSome renewals
    let fields := insertMember fields "policy_admitted" (.bool true)
    let fields := insertMember fields "policy_version" (.str reserved.policy.policyVersion)
    insertMember fields "provider_elapsed_ms" (number (min elapsedMs u64Max))
  match run with
  | .success response _ audits totalDelay =>
    .ok ⟨response.text, annotate (successMeta response t.provider.config.protocol fencingToken) audits totalDelay⟩
  | .finalFailure error audits totalDelay =>
    let error := errorText cfg.statusText error
    .ok ⟨"Provider execution failed: ".toList ++ error,
      annotate (failureMeta t.provider.config error fencingToken) audits totalDelay⟩
  | .aborted reason _ _ => .error (abortReason reason)

def claimed (product : Product) (claim : LeaseHandle) : Product :=
  { product with
    metadata := insertMember product.metadata "assignment_claim"
      (cfg.claims.metadata t.workflow.plan.id t.assignment.ordinal claim.fencingToken) }

def start : Option AssignmentPhase := if cfg.claims.enabled then some .claiming else t.afterClaim cfg none

/-- One awaited call is answered; there is no phase any more once the task has returned. -/
def step (phase : AssignmentPhase) (m : AssignmentMove) : Option AssignmentPhase × List AssignmentEvent :=
  match phase, m with
  | .claiming, .replied reply =>
    match BridgeClient.acquired "/file-leases/release".toList cfg.claims.repository (t.claimPaths cfg)
        cfg.claims.ttlMs reply with
    | .ok claim => (t.afterClaim cfg (some claim), [.acquired cfg.claims.owner claim])
    | .error _ => (none, [.denied cfg.claims.owner])
  | .leasing requirement claim, .replied reply =>
    match BridgeClient.acquired requirement.releasePath requirement.repository requirement.paths
        requirement.ttlMs reply with
    | .ok fileLease =>
      (some (t.afterLeases ⟨claim, some fileLease⟩), [.acquired t.provider.config.name fileLease])
    | .error _ => (release ⟨claim, none⟩, [.denied t.provider.config.name])
  | .reserving leases, .reserved reply shutdown =>
    let failed := AssignmentPhase.cancelling leases "provider call reservation failed".toList
    match reply with
    | .ok (reserved, reservation) =>
      (some (.executing leases reserved (Engine.start reservation ⟨shutdown, false, false⟩) (firstBeat cfg leases) 0),
        [.reserved])
    | .refused => (some failed, [])
    -- the bridge has booked the call, and the task does not know
    | .lost => (some failed, [.reserved])
  | .executing leases reserved engine beat renewals, .engine move =>
    if beat.isWaiting || move.isSignal then
      let (engine, events) := (t.execution cfg).step engine move
      (some (.executing leases reserved engine beat renewals), events.map .engine)
    else (some phase, [])
  | .executing _ _ engine _ _, .granted => (some phase, if engine.awaitsReservation then [.reserved] else [])
  | .executing leases reserved engine .waiting renewals, .beat =>
    match engine.point with
    | .on .. =>
      if timed cfg leases then (some (.executing leases reserved engine (renewal leases) renewals), [])
      else (some phase, [])
    | .ended _ => (some phase, [])
  | .executing leases reserved engine (.renewingClaim claim) renewals, .replied reply =>
    match BridgeClient.renewed claim reply with
    | .ok () =>
      let (beat, renewals) := match leases.fileLease with
        | some fileLease => (Beat.renewingFileLease fileLease, renewals)
        | none => (.waiting, min (renewals + 1) u64Max)
      (some (.executing leases reserved engine beat renewals), [.renewed cfg.claims.owner claim true])
    | .error _ =>
      (some (.cancelling leases "Fiducia heartbeat failed".toList), [.renewed cfg.claims.owner claim false])
  | .executing leases reserved engine (.renewingFileLease fileLease) renewals, .replied reply =>
    match BridgeClient.renewed fileLease reply with
    | .ok () =>
      (some (.executing leases reserved engine .waiting (min (renewals + 1) u64Max)),
        [.renewed t.provider.config.name fileLease true])
    | .error _ =>
      (some (.cancelling leases "Fiducia heartbeat failed".toList),
        [.renewed t.provider.config.name fileLease false])
  | .executing leases reserved engine .waiting renewals, .finished elapsedMs =>
    match engine.point with
    | .on .. => (some phase, [])
    | .ended run =>
      match t.product cfg leases reserved renewals elapsedMs run with
      | .ok product => (some (.reporting leases product), [])
      | .error reason => (some (.cancelling leases reason), [])
  | .reporting leases product, .reported ok =>
    -- a call that cannot be accounted for is not cancelled either
    if !ok then (release leases, [.reported false])
    else match leases.claim with
    | some claim => (some (.renewing claim leases.fileLease product), [.reported true])
    | none => (some (.submitting leases product), [.reported true])
  | .renewing claim fileLease product, .replied reply =>
    match BridgeClient.renewed claim reply with
    | .ok () =>
      (some (.submitting ⟨some claim, fileLease⟩ (t.claimed cfg product claim)),
        [.renewed cfg.claims.owner claim true])
    | .error _ =>
      (some (.cancelling ⟨some claim, fileLease⟩ "assignment claim became stale before submission".toList),
        [.renewed cfg.claims.owner claim false])
  | .submitting leases product, .submitted reply =>
    let failed := AssignmentPhase.cancelling leases "workflow submission failed after provider execution".toList
    match reply with
    | .ok updated =>
      if updated.status.stage = .completed then (some (.completing leases), [.submitted product true])
      else (release leases, [.submitted product true])
    | .refused => (some failed, [.submitted product false])
    -- accepted at the bridge, and cancelled all the same
    | .lost => (some failed, [.submitted product true])
  | .completing leases, .proceed => (release leases, [.completed])
  | .cancelling leases reason, .proceed => (release leases, [.cancelled reason])
  | .releasingFileLease fileLease claim, .replied reply =>
    (release ⟨claim, none⟩, [.released t.provider.config.name fileLease reply.toOption.isSome])
  | .releasingClaim claim, .replied reply => (none, [.released cfg.claims.owner claim reply.toOption.isSome])
  | _, _ => (some phase, [])

end AssignmentTask

/-- A run of `execute_assignment`: where it is, if it has not returned, and what it did. -/
def runAssignment (cfg : RunnerSettings) (t : AssignmentTask) (moves : List AssignmentMove) :
    Option AssignmentPhase × List AssignmentEvent :=
  Run.exec (Run.recorded fun phase m => phase.elim (none, []) fun phase => t.step cfg phase m) (t.start cfg, []) moves

end AgentBridge.Runner
