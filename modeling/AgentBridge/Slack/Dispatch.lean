import AgentBridge.Base.Run
import AgentBridge.Slack.Ingress

/-! Deliveries that race for a run: the probe of the journal, the permit, the exclusive claim on a blocking
thread, and the dispatch that is spawned. A handler ends at any await when its deadline passes, a claim that was
handed to a thread goes on without it, and a crash leaves the journal. -/

namespace AgentBridge.Slack

/-- How a blocking operation ends. -/
inductive Blocking
  | returns | fails | panics
deriving DecidableEq

/-- `claimed`; `exists` answers no where it cannot tell. -/
def probeStep (runId : Text) (journal : KeySet Text) : Blocking → Option Bool
  | .returns => some (decide (runId ∈ journal))
  | .fails => some false
  | .panics => none

/-- Where `claim` is: not begun, its file created, its record written, or ended, with `none` for an error. -/
inductive ClaimStage
  | queued | created | written
  | ended (result : Option Bool)
deriving DecidableEq

/-- One file operation of `claim`. -/
def claimStep (runId : Text) (journal : KeySet Text) (outcome : Blocking) : ClaimStage → KeySet Text × ClaimStage
  | .queued =>
    if outcome ≠ .returns then (journal, .ended none)
    else if runId ∈ journal then (journal, .ended (some false))
    else (journal.insert runId, .created)
  | .created => (journal, if outcome = .returns then .written else .ended none)
  | .written => (journal, .ended (if outcome = .returns then some true else none))
  | .ended result => (journal, .ended result)

/-- The awaits of `accept`: the probe, its answer until it is read, and the claim. A claim whose handler was dropped
is detached. -/
inductive DeliveryStage
  | probing
  | probed (claimed : Option Bool)
  | claiming (stage : ClaimStage)
  | detached (stage : ClaimStage)
  | gone

structure Delivery where
  request : RunRequest
  stage : DeliveryStage

/-- `accept` after the probe; `none` where it goes on to the permit. -/
def probeAnswer (request : RunRequest) : Option Bool → Option Accepted
  | none => some .journalUnavailable
  | some true => some (.duplicate request.runId)
  | some false => none

/-- `accept` after the claim. -/
def claimAnswer (config : CommandConfig) (request : RunRequest) : Option Bool → Accepted
  | none => .journalUnavailable
  | some false => .duplicate request.runId
  | some true => .started request.runId request.provider.label config.dryRun

/-- Without interference the stages are those of `accept`. -/
theorem accept_eq (app : CommandApp) (world : CommandWorld) (request : RunRequest) :
    accept app world request = (probeAnswer request world.claimed).getD
      (if world.permit then claimAnswer app.config request world.claim else .atCapacity) := by
  unfold accept
  rcases world.claimed with _ | _ | _
  · rfl
  · rcases world.claim with _ | _ | _ <;> cases world.permit <;> rfl
  · rfl

inductive DispatchStage
  | resolving | reading | posting | creatingWorkflow | creatingJob | reporting
deriving DecidableEq

/-- What follows an operation that succeeded. -/
def DispatchStage.next (dryRun : Bool) : DispatchStage → Option DispatchStage
  | resolving => some reading
  | reading => some (if dryRun then posting else creatingWorkflow)
  | posting => none
  | creatingWorkflow => some creatingJob
  | creatingJob => some reporting
  | reporting => none

/-- A spawned dispatch, with the operation it is at until it ends. -/
structure Dispatch where
  request : RunRequest
  stage : Option DispatchStage

/-- A process with the state directory that it shares with those before it. `started` and `sent` are their history:
the run of every dispatch, and every operation that a dispatch went on to. -/
structure DispatchState where
  journal : KeySet Text
  available : Nat
  deliveries : List Delivery
  dispatches : List Dispatch
  started : List Text
  sent : List (DispatchStage × Text)
  /-- What `accept` answered, with the run it was asked for. -/
  answers : List (Text × Accepted)

/-- What happens next: a delivery, the end of a blocking operation or of an operation of a dispatch, a handler that
goes on or is dropped, or a crash with its restart. -/
inductive DispatchEvent
  | deliver (request : RunRequest)
  | probe (delivery : Nat) (outcome : Blocking)
  | resume (delivery : Nat)
  | claim (delivery : Nat) (outcome : Blocking)
  | drop (delivery : Nat)
  | advance (dispatch : Nat) (ok : Bool)
  | crash

namespace DispatchState

def initial (config : CommandConfig) (journal : KeySet Text) : DispatchState where
  journal := journal
  available := config.maxConcurrentRuns
  deliveries := []
  dispatches := []
  started := []
  sent := []
  answers := []

def move (s : DispatchState) (i : Nat) (request : RunRequest) (stage : DeliveryStage) : DispatchState :=
  { s with deliveries := s.deliveries.set i ⟨request, stage⟩ }

def answer (s : DispatchState) (i : Nat) (request : RunRequest) (accepted : Accepted) : DispatchState :=
  { s.move i request .gone with answers := s.answers ++ [(request.runId, accepted)] }

/-- The permit is taken and the claim handed to a thread with no await in between. -/
def afterProbe (s : DispatchState) (i : Nat) (request : RunRequest) (claimed : Option Bool) : DispatchState :=
  match probeAnswer request claimed with
  | some accepted => s.answer i request accepted
  | none =>
    if s.available = 0 then s.answer i request .atCapacity
    else { s.move i request (.claiming .queued) with available := s.available - 1 }

/-- The permit moves into the dispatch, or is given back. -/
def afterClaim (config : CommandConfig) (s : DispatchState) (i : Nat) (request : RunRequest) (result : Option Bool) :
    DispatchState :=
  let answered := s.answer i request (claimAnswer config request result)
  if result = some true then
    { answered with
      dispatches := s.dispatches ++ [⟨request, some .resolving⟩]
      started := s.started ++ [request.runId] }
  else { answered with available := s.available + 1 }

def advance (config : CommandConfig) (s : DispatchState) (k : Nat) (request : RunRequest) (stage : DispatchStage)
    (ok : Bool) : DispatchState :=
  match if ok then stage.next config.dryRun else none with
  | some next => { s with
      dispatches := s.dispatches.set k ⟨request, some next⟩
      sent := s.sent ++ [(next, request.runId)] }
  | none => { s with dispatches := s.dispatches.set k ⟨request, none⟩, available := s.available + 1 }

/-- Events that name nothing change nothing. -/
def step (config : CommandConfig) (s : DispatchState) : DispatchEvent → DispatchState
  | .deliver request => { s with deliveries := s.deliveries ++ [⟨request, .probing⟩] }
  | .probe i outcome =>
    match s.deliveries[i]? with
    | some ⟨request, .probing⟩ => s.move i request (.probed (probeStep request.runId s.journal outcome))
    | _ => s
  | .resume i =>
    match s.deliveries[i]? with
    | some ⟨request, .probed claimed⟩ => s.afterProbe i request claimed
    | some ⟨request, .claiming (.ended result)⟩ => s.afterClaim config i request result
    | _ => s
  | .claim i outcome =>
    match s.deliveries[i]? with
    | some ⟨request, .claiming stage⟩ =>
      { s.move i request (.claiming (claimStep request.runId s.journal outcome stage).2) with
        journal := (claimStep request.runId s.journal outcome stage).1 }
    | some ⟨request, .detached stage⟩ =>
      { s.move i request (.detached (claimStep request.runId s.journal outcome stage).2) with
        journal := (claimStep request.runId s.journal outcome stage).1 }
    | _ => s
  | .drop i =>
    match s.deliveries[i]? with
    | some ⟨request, .claiming stage⟩ => { s.move i request (.detached stage) with available := s.available + 1 }
    | some ⟨_, .detached _⟩ => s
    | some ⟨request, _⟩ => s.move i request .gone
    | none => s
  | .advance k ok =>
    match s.dispatches[k]? with
    | some ⟨request, some stage⟩ => s.advance config k request stage ok
    | _ => s
  | .crash => { s with available := config.maxConcurrentRuns, deliveries := [], dispatches := [] }

abbrev run (config : CommandConfig) (journal : KeySet Text) (events : List DispatchEvent) : DispatchState :=
  Run.exec (step config) (initial config journal) events

end DispatchState

/-! ### What a step does -/

/-- The steps that change something, with the claim of a delivery told apart by who still waits for it. -/
inductive DispatchStep (config : CommandConfig) (s : DispatchState) : DispatchEvent → DispatchState → Prop
  | idle {event : DispatchEvent} : DispatchStep config s event s
  | deliver (request : RunRequest) : DispatchStep config s (.deliver request)
      { s with deliveries := s.deliveries ++ [⟨request, .probing⟩] }
  | probe {i : Nat} {request : RunRequest} (outcome : Blocking) (hi : s.deliveries[i]? = some ⟨request, .probing⟩) :
      DispatchStep config s (.probe i outcome)
        (s.move i request (.probed (probeStep request.runId s.journal outcome)))
  | answerProbe {i : Nat} {request : RunRequest} {claimed : Option Bool} {accepted : Accepted}
      (hi : s.deliveries[i]? = some ⟨request, .probed claimed⟩)
      (haccepted : probeAnswer request claimed = some accepted ∨ accepted = .atCapacity) :
      DispatchStep config s (.resume i) (s.answer i request accepted)
  | acquire {i : Nat} {request : RunRequest} {claimed : Option Bool}
      (hi : s.deliveries[i]? = some ⟨request, .probed claimed⟩) (havailable : s.available ≠ 0) :
      DispatchStep config s (.resume i)
        { s.move i request (.claiming .queued) with available := s.available - 1 }
  | claim {i : Nat} {request : RunRequest} {stage stage' : ClaimStage} {journal : KeySet Text} {outcome : Blocking}
      (hi : s.deliveries[i]? = some ⟨request, .claiming stage⟩)
      (hclaim : claimStep request.runId s.journal outcome stage = (journal, stage')) :
      DispatchStep config s (.claim i outcome) { s.move i request (.claiming stage') with journal := journal }
  | claimDetached {i : Nat} {request : RunRequest} {stage stage' : ClaimStage} {journal : KeySet Text}
      {outcome : Blocking} (hi : s.deliveries[i]? = some ⟨request, .detached stage⟩)
      (hclaim : claimStep request.runId s.journal outcome stage = (journal, stage')) :
      DispatchStep config s (.claim i outcome) { s.move i request (.detached stage') with journal := journal }
  | answerClaim {i : Nat} {request : RunRequest} {result : Option Bool}
      (hi : s.deliveries[i]? = some ⟨request, .claiming (.ended result)⟩) (hresult : result ≠ some true) :
      DispatchStep config s (.resume i)
        { s.answer i request (claimAnswer config request result) with available := s.available + 1 }
  | spawn {i : Nat} {request : RunRequest} (hi : s.deliveries[i]? = some ⟨request, .claiming (.ended (some true))⟩) :
      DispatchStep config s (.resume i)
        { s.answer i request (claimAnswer config request (some true)) with
          dispatches := s.dispatches ++ [⟨request, some .resolving⟩]
          started := s.started ++ [request.runId] }
  | dropClaiming {i : Nat} {request : RunRequest} {stage : ClaimStage}
      (hi : s.deliveries[i]? = some ⟨request, .claiming stage⟩) :
      DispatchStep config s (.drop i) { s.move i request (.detached stage) with available := s.available + 1 }
  | dropProbing {i : Nat} {request : RunRequest} {stage : DeliveryStage} (hi : s.deliveries[i]? = some ⟨request, stage⟩)
      (hclaiming : ∀ c, stage ≠ .claiming c) (hdetached : ∀ c, stage ≠ .detached c) :
      DispatchStep config s (.drop i) (s.move i request .gone)
  | next {k : Nat} {request : RunRequest} {stage stage' : DispatchStage} {ok : Bool}
      (hk : s.dispatches[k]? = some ⟨request, some stage⟩) (hnext : stage.next config.dryRun = some stage') :
      DispatchStep config s (.advance k ok)
        { s with dispatches := s.dispatches.set k ⟨request, some stage'⟩, sent := s.sent ++ [(stage', request.runId)] }
  | finish {k : Nat} {request : RunRequest} {stage : DispatchStage} {ok : Bool}
      (hk : s.dispatches[k]? = some ⟨request, some stage⟩) :
      DispatchStep config s (.advance k ok)
        { s with dispatches := s.dispatches.set k ⟨request, none⟩, available := s.available + 1 }
  | crash : DispatchStep config s .crash
      { s with available := config.maxConcurrentRuns, deliveries := [], dispatches := [] }

section Steps
variable {config : CommandConfig} {s s' : DispatchState}

theorem afterProbe_step {i : Nat} {request : RunRequest} {claimed : Option Bool}
    (hi : s.deliveries[i]? = some ⟨request, .probed claimed⟩) :
    DispatchStep config s (.resume i) (s.afterProbe i request claimed) := by
  unfold DispatchState.afterProbe
  cases hanswer : probeAnswer request claimed with
  | some accepted => exact .answerProbe hi (.inl hanswer)
  | none =>
    dsimp only
    by_cases hfull : s.available = 0
    · rw [if_pos hfull]
      exact .answerProbe hi (.inr rfl)
    · rw [if_neg hfull]
      exact .acquire hi hfull

theorem afterClaim_step {i : Nat} {request : RunRequest} {result : Option Bool}
    (hi : s.deliveries[i]? = some ⟨request, .claiming (.ended result)⟩) :
    DispatchStep config s (.resume i) (s.afterClaim config i request result) := by
  unfold DispatchState.afterClaim
  dsimp only
  by_cases hresult : result = some true
  · subst hresult
    rw [if_pos rfl]
    exact .spawn hi
  · rw [if_neg hresult]
    exact .answerClaim hi hresult

theorem advance_step {k : Nat} {request : RunRequest} {stage : DispatchStage} (ok : Bool)
    (hk : s.dispatches[k]? = some ⟨request, some stage⟩) :
    DispatchStep config s (.advance k ok) (s.advance config k request stage ok) := by
  unfold DispatchState.advance
  cases ok with
  | false => exact .finish hk
  | true =>
    rw [if_pos rfl]
    cases hnext : stage.next config.dryRun with
    | none => exact .finish hk
    | some next => exact .next hk hnext

theorem step_cases (config : CommandConfig) (s : DispatchState) (event : DispatchEvent) :
    DispatchStep config s event (s.step config event) := by
  cases event with
  | deliver request => exact .deliver request
  | probe i outcome =>
    rw [DispatchState.step]
    split
    · rename_i request hi
      exact .probe outcome hi
    · exact .idle
  | resume i =>
    rw [DispatchState.step]
    split
    · rename_i request claimed hi
      exact afterProbe_step hi
    · rename_i request result hi
      exact afterClaim_step hi
    · exact .idle
  | claim i outcome =>
    rw [DispatchState.step]
    split
    · rename_i request stage hi
      exact .claim hi rfl
    · rename_i request stage hi
      exact .claimDetached hi rfl
    · exact .idle
  | drop i =>
    rw [DispatchState.step]
    split
    · rename_i request stage hi
      exact .dropClaiming hi
    · exact .idle
    · rename_i request stage hclaiming hdetached hi
      exact .dropProbing hi hclaiming hdetached
    · exact .idle
  | advance k ok =>
    rw [DispatchState.step]
    split
    · rename_i request stage hk
      exact advance_step ok hk
    · exact .idle
  | crash => exact .crash

end Steps

/-! ### One dispatch for a run -/

/-- The file of a run was created here, and no error has been met since. -/
def ClaimStage.owns : ClaimStage → Bool
  | .created => true
  | .written => true
  | .ended (some true) => true
  | _ => false

/-- A handler that waits for a claim which owns the file of a run. -/
def Delivery.owns (runId : Text) (delivery : Delivery) : Bool :=
  match delivery.stage with
  | .claiming stage => stage.owns && delivery.request.runId == runId
  | _ => false

def Delivery.holdsPermit (delivery : Delivery) : Bool :=
  match delivery.stage with
  | .claiming _ => true
  | _ => false

def DispatchStage.rank : DispatchStage → Nat
  | resolving => 0
  | reading => 1
  | posting => 2
  | creatingWorkflow => 2
  | creatingJob => 3
  | reporting => 4

def Dispatch.running (dispatch : Dispatch) : Bool := dispatch.stage.isSome

/-- A dispatch of a run that has yet to come to an operation. -/
def Dispatch.before (stage : DispatchStage) (runId : Text) (dispatch : Dispatch) : Bool :=
  dispatch.stage.any (fun current => current.rank < stage.rank) && dispatch.request.runId == runId

namespace DispatchState

/-- The file of a run has one owner: the dispatch that was started, or a handler that may start it. -/
def Exclusive (s : DispatchState) : Prop :=
  ∀ runId, s.started.count runId + s.deliveries.countP (Delivery.owns runId) ≤ if runId ∈ s.journal then 1 else 0

/-- Every permit is free, or held by one handler or one dispatch. -/
def Permits (config : CommandConfig) (s : DispatchState) : Prop :=
  s.available + s.deliveries.countP Delivery.holdsPermit + s.dispatches.countP Dispatch.running =
    config.maxConcurrentRuns

/-- A dispatch comes to each operation at most once. -/
def Ordered (s : DispatchState) : Prop :=
  ∀ stage runId, s.sent.count (stage, runId) + s.dispatches.countP (Dispatch.before stage runId) ≤
    s.started.count runId

end DispatchState

theorem countP_set_add {α : Type} {l : List α} {i : Nat} {a : α} (h : l[i]? = some a) (p : α → Bool) (b : α) :
    (l.set i b).countP p + (if p a then 1 else 0) = l.countP p + if p b then 1 else 0 := by
  induction l generalizing i with
  | nil => cases h
  | cons x l ih =>
    cases i with
    | zero =>
      cases h
      rw [List.set_cons_zero, List.countP_cons, List.countP_cons]
      omega
    | succ i =>
      have hrest := ih (i := i) h
      rw [List.set_cons_succ, List.countP_cons, List.countP_cons]
      omega

section Invariants
variable {config : CommandConfig} {s s' : DispatchState} {event : DispatchEvent}

theorem claimStep_owns {runId : Text} {journal journal' : KeySet Text} {outcome : Blocking} {stage stage' : ClaimStage}
    (h : claimStep runId journal outcome stage = (journal', stage')) :
    (∀ r ∈ journal, r ∈ journal') ∧
      (stage'.owns = true → stage.owns = true ∨ runId ∉ journal ∧ runId ∈ journal') := by
  cases stage with
  | queued =>
    rw [claimStep] at h
    split_ifs at h with hfails hmem
    · cases h
      exact ⟨fun r hr => hr, fun howns => by cases howns⟩
    · cases h
      exact ⟨fun r hr => hr, fun howns => by cases howns⟩
    · cases h
      exact ⟨fun r hr => KeySet.mem_insert.mpr (.inr hr), fun _ => .inr ⟨hmem, KeySet.mem_insert.mpr (.inl rfl)⟩⟩
  | created =>
    cases h
    exact ⟨fun r hr => hr, fun _ => .inl rfl⟩
  | written =>
    cases h
    exact ⟨fun r hr => hr, fun _ => .inl rfl⟩
  | ended result =>
    cases h
    exact ⟨fun r hr => hr, fun howns => .inl howns⟩

theorem exclusive_set (hs : s.Exclusive) {i : Nat} {delivery delivery' : Delivery}
    (hi : s.deliveries[i]? = some delivery)
    (howns : ∀ runId, delivery'.owns runId = true → delivery.owns runId = true) (runId : Text) :
    s.started.count runId + (s.deliveries.set i delivery').countP (Delivery.owns runId) ≤
      if runId ∈ s.journal then 1 else 0 := by
  have hrun := hs runId
  have hcount := countP_set_add hi (Delivery.owns runId) delivery'
  have hone : (if delivery'.owns runId then 1 else 0) ≤ if delivery.owns runId then 1 else 0 := by
    split_ifs with h' h
    · exact le_refl _
    · exact absurd (howns runId h') h
    · exact Nat.zero_le _
    · exact le_refl _
  omega

theorem exclusive_claim (hs : s.Exclusive) {i : Nat} {request : RunRequest} {stage stage' : ClaimStage}
    {journal : KeySet Text} {outcome : Blocking} (hi : s.deliveries[i]? = some ⟨request, .claiming stage⟩)
    (hclaim : claimStep request.runId s.journal outcome stage = (journal, stage')) :
    ({ s.move i request (.claiming stage') with journal := journal } : DispatchState).Exclusive := by
  intro runId
  change s.started.count runId + (s.deliveries.set i ⟨request, .claiming stage'⟩).countP (Delivery.owns runId) ≤
    if runId ∈ journal then 1 else 0
  obtain ⟨hkept, howns⟩ := claimStep_owns hclaim
  have hrun := hs runId
  have hcount := countP_set_add hi (Delivery.owns runId) ⟨request, .claiming stage'⟩
  have hfile : (if runId ∈ s.journal then 1 else 0) ≤ if runId ∈ journal then 1 else 0 := by
    split_ifs with hold hnew
    · exact le_refl _
    · exact absurd (hkept runId hold) hnew
    · exact Nat.zero_le _
    · exact le_refl _
  by_cases hnew : Delivery.owns runId ⟨request, .claiming stage'⟩ = true
  · rw [if_pos hnew] at hcount
    obtain ⟨hstage, hid⟩ := Bool.and_eq_true_iff.mp hnew
    rcases howns hstage with hold | ⟨hfree, hcreated⟩
    · have howned : Delivery.owns runId ⟨request, .claiming stage⟩ = true := Bool.and_eq_true_iff.mpr ⟨hold, hid⟩
      rw [if_pos howned] at hcount
      omega
    · -- the file was created now: nobody owned it
      rw [beq_iff_eq] at hid
      rw [hid] at hfree hcreated
      rw [if_neg hfree] at hrun
      rw [if_pos hcreated]
      omega
  · rw [if_neg hnew] at hcount
    omega

theorem exclusive_detached (hs : s.Exclusive) {i : Nat} {request : RunRequest} {stage stage' : ClaimStage}
    {journal : KeySet Text} {outcome : Blocking} (hi : s.deliveries[i]? = some ⟨request, .detached stage⟩)
    (hclaim : claimStep request.runId s.journal outcome stage = (journal, stage')) :
    ({ s.move i request (.detached stage') with journal := journal } : DispatchState).Exclusive := by
  intro runId
  have hrun : s.started.count runId + (s.deliveries.set i ⟨request, .detached stage'⟩).countP (Delivery.owns runId) ≤
      if runId ∈ s.journal then 1 else 0 := exclusive_set hs hi (fun _ h => by cases h) runId
  refine hrun.trans ?_
  split_ifs with hold hnew
  · exact le_refl _
  · exact absurd ((claimStep_owns hclaim).1 runId hold) hnew
  · exact Nat.zero_le _
  · exact le_refl _

theorem exclusive_step (h : DispatchStep config s event s') (hs : s.Exclusive) : s'.Exclusive := by
  cases h with
  | idle => exact hs
  | deliver request =>
    intro runId
    have hrun := hs runId
    simpa [Delivery.owns] using hrun
  | probe outcome hi => exact exclusive_set hs hi fun _ h => by cases h
  | answerProbe hi _ => exact exclusive_set hs hi fun _ h => by cases h
  | acquire hi _ => exact exclusive_set hs hi fun _ h => by cases h
  | claim hi hclaim => exact exclusive_claim hs hi hclaim
  | claimDetached hi hclaim => exact exclusive_detached hs hi hclaim
  | answerClaim hi _ => exact exclusive_set hs hi fun _ h => by cases h
  | dropClaiming hi => exact exclusive_set hs hi fun _ h => by cases h
  | dropProbing hi _ _ => exact exclusive_set hs hi fun _ h => by cases h
  | next hk _ => exact hs
  | finish hk => exact hs
  | crash =>
    intro runId
    have hrun := hs runId
    change s.started.count runId + 0 ≤ if runId ∈ s.journal then 1 else 0
    omega
  | @spawn i request hi =>
    intro runId
    have hrun := hs runId
    have hcount := countP_set_add hi (Delivery.owns runId) ⟨request, .gone⟩
    change (s.started ++ [request.runId]).count runId + (s.deliveries.set i ⟨request, .gone⟩).countP
      (Delivery.owns runId) ≤ if runId ∈ s.journal then 1 else 0
    have howned : Delivery.owns runId ⟨request, .claiming (.ended (some true))⟩ = (request.runId == runId) :=
      Bool.true_and _
    have hgone : Delivery.owns runId ⟨request, .gone⟩ = false := rfl
    rw [howned, hgone] at hcount
    rw [List.count_append, List.count_singleton]
    simp only [Bool.false_eq_true, if_false] at hcount
    omega

/-- A delivery that takes or gives back a permit leaves their number as it is. -/
theorem permits_set (hs : s.Permits config) {i available : Nat} {delivery delivery' : Delivery}
    (hi : s.deliveries[i]? = some delivery)
    (hpermit : available + (if delivery'.holdsPermit then 1 else 0) =
      s.available + if delivery.holdsPermit then 1 else 0) :
    available + (s.deliveries.set i delivery').countP Delivery.holdsPermit + s.dispatches.countP Dispatch.running =
      config.maxConcurrentRuns := by
  have htotal : s.available + s.deliveries.countP Delivery.holdsPermit + s.dispatches.countP Dispatch.running =
    config.maxConcurrentRuns := hs
  have hcount := countP_set_add hi Delivery.holdsPermit delivery'
  omega

theorem permits_step (h : DispatchStep config s event s') (hs : s.Permits config) : s'.Permits config := by
  have htotal : s.available + s.deliveries.countP Delivery.holdsPermit + s.dispatches.countP Dispatch.running =
    config.maxConcurrentRuns := hs
  cases h with
  | idle => exact hs
  | deliver request => simpa [DispatchState.Permits, Delivery.holdsPermit] using htotal
  | probe outcome hi => exact permits_set hs hi rfl
  | answerProbe hi _ => exact permits_set hs hi rfl
  | acquire hi havailable =>
    have hback : s.available - 1 + 1 = s.available := Nat.succ_pred_eq_of_ne_zero havailable
    exact permits_set hs hi hback
  | claim hi _ => exact permits_set hs hi rfl
  | claimDetached hi _ => exact permits_set hs hi rfl
  | answerClaim hi _ => exact permits_set hs hi rfl
  | @spawn i request hi =>
    have hcount := countP_set_add hi Delivery.holdsPermit ⟨request, .gone⟩
    have hone : [(⟨request, some .resolving⟩ : Dispatch)].countP Dispatch.running = 1 := rfl
    simp only [Delivery.holdsPermit, Bool.false_eq_true, if_false, if_true] at hcount
    simp only [DispatchState.Permits, DispatchState.answer, DispatchState.move, List.countP_append, hone]
    omega
  | dropClaiming hi => exact permits_set hs hi rfl
  | @dropProbing i request stage hi hclaiming hdetached =>
    refine permits_set hs hi ?_
    cases stage with
    | claiming c => exact absurd rfl (hclaiming c)
    | probing => rfl
    | probed claimed => rfl
    | detached c => rfl
    | gone => rfl
  | @next k request stage stage' ok hk hnext =>
    have hcount := countP_set_add hk Dispatch.running ⟨request, some stage'⟩
    simp only [Dispatch.running, Option.isSome_some, if_true] at hcount
    simp only [DispatchState.Permits]
    omega
  | @finish k request stage ok hk =>
    have hcount := countP_set_add hk Dispatch.running ⟨request, none⟩
    simp only [Dispatch.running, Option.isSome_some, Option.isSome_none, Bool.false_eq_true, if_false,
      if_true] at hcount
    simp only [DispatchState.Permits]
    omega
  | crash => exact Nat.add_zero _

theorem rank_next {stage stage' : DispatchStage} {dryRun : Bool} (h : stage.next dryRun = some stage') :
    stage.rank < stage'.rank := by
  cases stage <;> cases dryRun <;> cases h <;> decide

theorem before_next {request : RunRequest} {stage stage' current : DispatchStage} {runId : Text}
    (h : stage.rank < stage'.rank) :
    (if (stage', request.runId) = (current, runId) then 1 else 0) +
      (if Dispatch.before current runId ⟨request, some stage'⟩ then 1 else 0) ≤
      if Dispatch.before current runId ⟨request, some stage⟩ then 1 else 0 := by
  have hbefore : ∀ at' : DispatchStage, Dispatch.before current runId ⟨request, some at'⟩ = true ↔
      at'.rank < current.rank ∧ request.runId = runId := by
    intro at'
    simp [Dispatch.before]
  simp only [hbefore, Prod.mk.injEq]
  by_cases hcame : stage' = current ∧ request.runId = runId
  · obtain ⟨rfl, hid⟩ := hcame
    have hcome : ¬ (stage'.rank < stage'.rank ∧ request.runId = runId) := fun hlt => lt_irrefl _ hlt.1
    have hahead : stage.rank < stage'.rank ∧ request.runId = runId := ⟨h, hid⟩
    rw [if_neg hcome, if_pos hahead]
    split_ifs <;> omega
  · rw [if_neg hcame]
    by_cases hlater : stage'.rank < current.rank ∧ request.runId = runId
    · rw [if_pos hlater, if_pos ⟨h.trans hlater.1, hlater.2⟩]
    · rw [if_neg hlater]
      exact Nat.zero_le _

theorem ordered_step (h : DispatchStep config s event s') (hs : s.Ordered) : s'.Ordered := by
  -- a dispatch that passes a stage no longer counts as before it, but as sent
  cases h with
  | idle => exact hs
  | deliver request => exact hs
  | probe outcome hi => exact hs
  | answerProbe hi _ => exact hs
  | acquire hi _ => exact hs
  | claim hi _ => exact hs
  | claimDetached hi _ => exact hs
  | answerClaim hi _ => exact hs
  | dropClaiming hi => exact hs
  | dropProbing hi _ _ => exact hs
  | @spawn i request hi =>
    intro stage runId
    have hrun := hs stage runId
    have hfirst : [(⟨request, some .resolving⟩ : Dispatch)].countP (Dispatch.before stage runId) ≤
        [request.runId].count runId := by
      rw [List.countP_singleton, List.count_singleton]
      split_ifs with hbefore hid
      · exact le_refl _
      · exact absurd (Bool.and_eq_true_iff.mp hbefore).2 hid
      · exact Nat.zero_le _
      · exact le_refl _
    change s.sent.count (stage, runId) + (s.dispatches ++ [(⟨request, some .resolving⟩ : Dispatch)]).countP
      (Dispatch.before stage runId) ≤ (s.started ++ [request.runId]).count runId
    rw [List.countP_append, List.count_append]
    omega
  | @next k request stage stage' ok hk hnext =>
    intro current runId
    have hrun := hs current runId
    have hcount := countP_set_add hk (Dispatch.before current runId) ⟨request, some stage'⟩
    have hstep := @before_next request _ _ current runId (rank_next hnext)
    change (s.sent ++ [(stage', request.runId)]).count (current, runId) + (s.dispatches.set k
      ⟨request, some stage'⟩).countP (Dispatch.before current runId) ≤ s.started.count runId
    rw [List.count_append, List.count_singleton]
    simp only [beq_iff_eq]
    omega
  | @finish k request stage ok hk =>
    intro current runId
    have hrun := hs current runId
    have hcount := countP_set_add hk (Dispatch.before current runId) ⟨request, none⟩
    have hended : Dispatch.before current runId ⟨request, none⟩ = false := rfl
    rw [hended] at hcount
    change s.sent.count (current, runId) + (s.dispatches.set k ⟨request, none⟩).countP
      (Dispatch.before current runId) ≤ s.started.count runId
    simp only [Bool.false_eq_true, if_false] at hcount
    omega
  | crash =>
    intro stage runId
    have hrun := hs stage runId
    change s.sent.count (stage, runId) + 0 ≤ s.started.count runId
    omega

/-- What holds in every state: the file of a run has one owner, permits are conserved, and operations follow one
another. -/
theorem run_invariants (config : CommandConfig) (journal : KeySet Text) (events : List DispatchEvent) :
    (DispatchState.run config journal events).Exclusive ∧ (DispatchState.run config journal events).Permits config ∧
      (DispatchState.run config journal events).Ordered := by
  refine Run.exec_invariant (P := fun s : DispatchState => s.Exclusive ∧ s.Permits config ∧ s.Ordered) ?_ ?_ events
  · intro s event hs
    have hstep := step_cases config s event
    exact ⟨exclusive_step hstep hs.1, permits_step hstep hs.2.1, ordered_step hstep hs.2.2⟩
  · exact ⟨fun _ => Nat.zero_le _, rfl, fun _ _ => Nat.zero_le _⟩

end Invariants

/-- Over all processes on one state directory, whatever interleaves, a run is dispatched at most once, with at most
one call that creates its workflow and one that creates its job; and the dispatches that run are at most as many as
the configuration allows. -/
theorem dispatched_once (config : CommandConfig) (journal : KeySet Text) (events : List DispatchEvent) :
    (∀ runId, (DispatchState.run config journal events).started.count runId ≤ 1 ∧
      (DispatchState.run config journal events).sent.count (.creatingWorkflow, runId) ≤ 1 ∧
      (DispatchState.run config journal events).sent.count (.creatingJob, runId) ≤ 1) ∧
    (DispatchState.run config journal events).dispatches.countP Dispatch.running ≤ config.maxConcurrentRuns := by
  obtain ⟨hexclusive, hpermits, hordered⟩ := run_invariants config journal events
  generalize DispatchState.run config journal events = s at hexclusive hpermits hordered
  refine ⟨?_, ?_⟩
  · intro runId
    have hstarted : s.started.count runId ≤ 1 := by
      have hrun := hexclusive runId
      split_ifs at hrun
      · omega
      · omega
    have hworkflow := hordered .creatingWorkflow runId
    have hjob := hordered .creatingJob runId
    omega
  · have htotal : s.available + s.deliveries.countP Delivery.holdsPermit + s.dispatches.countP Dispatch.running =
      config.maxConcurrentRuns := hpermits
    omega

end AgentBridge.Slack
