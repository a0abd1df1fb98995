import AgentBridge.Admission.Effects
import AgentBridge.Policy.Soundness

/-! The admission of a workflow as a ledger: opened at most once, charged with the
accepted deltas, and closed for good. Runs interleave the admission operations of
any workflows with the workflow handlers. -/

namespace AgentBridge.PolicyAdmission
open State Orchestration

/-- What has been charged: the sum of the deltas, and the largest concurrency. -/
def usageOf (deltas : List UsageDelta) : UsageTotals where
  inputTokens := (deltas.map UsageDelta.inputTokens).sum
  outputTokens := (deltas.map UsageDelta.outputTokens).sum
  costMicroUsd := (deltas.map UsageDelta.costMicroUsd).sum
  retries := (deltas.map UsageDelta.retries).sum
  providerCalls := (deltas.map UsageDelta.providerCalls).sum
  elapsedMs := (deltas.map UsageDelta.elapsedMs).sum
  peakConcurrency := (deltas.map UsageDelta.concurrency).foldl max 0

/-- Every summed counter fits into 64 bits. -/
structure Fits (usage : UsageTotals) : Prop where
  inputTokens : usage.inputTokens ≤ u64Max
  outputTokens : usage.outputTokens ≤ u64Max
  costMicroUsd : usage.costMicroUsd ≤ u64Max
  retries : usage.retries ≤ u64Max
  providerCalls : usage.providerCalls ≤ u64Max
  elapsedMs : usage.elapsedMs ≤ u64Max

section Totals
variable {usage : UsageTotals} {delta : UsageDelta} {deltas : List UsageDelta} {a b c : Nat}

theorem checkedAdd_eq_some : checkedAdd a b = some c ↔ c = a + b ∧ c ≤ u64Max := by
  unfold checkedAdd
  split_ifs with h
  · rw [Option.some.injEq]
    exact ⟨fun he => ⟨he.symm, he ▸ h⟩, fun he => he.1.symm⟩
  · refine ⟨nofun, fun he => absurd (he.1 ▸ he.2) h⟩

theorem usageOf_append (h : attemptedTotals (usageOf deltas) delta = some usage) :
    usage = usageOf (deltas ++ [delta]) ∧ Fits usage := by
  simp only [attemptedTotals, Option.bind_eq_bind, Option.bind_eq_some_iff, checkedAdd_eq_some] at h
  obtain ⟨input, ⟨rfl, hinput⟩, output, ⟨rfl, houtput⟩, cost, ⟨rfl, hcost⟩, retries, ⟨rfl, hretries⟩,
    calls, ⟨rfl, hcalls⟩, elapsed, ⟨rfl, helapsed⟩, h⟩ := h
  cases h
  exact ⟨by simp [usageOf], ⟨hinput, houtput, hcost, hretries, hcalls, helapsed⟩⟩

theorem fits_zero : Fits {} := by constructor <;> exact Nat.zero_le _

theorem budgetViolation_zero (budget : BudgetLimits) : budgetViolation budget {} = none := by
  simp [budgetViolation]

end Totals

/-- What one step does to the record of a workflow, with the record it opened and the
deltas it accepted. -/
inductive RecordMove (workflowId : Text) : Option AdmissionRecord → Option AdmissionRecord →
    List AdmissionRecord → List UsageDelta → Prop
  | kept (r : Option AdmissionRecord) : RecordMove workflowId r r [] []
  | opened {record : AdmissionRecord} (hid : record.workflowId = workflowId) (husage : record.usage = {}) :
      RecordMove workflowId none (some record) [record] []
  | charged {record record' : AdmissionRecord} {delta : UsageDelta} (h : Charges record record' delta) :
      RecordMove workflowId (some record) (some record') [] [delta]
  | closed {record record' : AdmissionRecord} (h : Closes record record') :
      RecordMove workflowId (some record) (some record') [] []

/-- The record of a workflow against everything that was opened and accepted for it. -/
inductive Ledger (workflowId : Text) : Option AdmissionRecord → List AdmissionRecord →
    List UsageDelta → Prop
  | unopened : Ledger workflowId none [] []
  | opened {record first : AdmissionRecord} {accepted : List UsageDelta}
      (hid : record.workflowId = workflowId) (hfirst : identity record = identity first)
      (husage : record.usage = usageOf accepted) (hfits : Fits record.usage)
      (hbudget : budgetViolation record.policy.budget record.usage = none) :
      Ledger workflowId (some record) [first] accepted

section Moves
variable {workflowId : Text} {old new : Option AdmissionRecord} {record record' : AdmissionRecord}
  {created created' : List AdmissionRecord} {accepted accepted' : List UsageDelta}

theorem workflowId_of_identity (h : identity record' = identity record) :
    record'.workflowId = record.workflowId := congrArg (fun i => i.2.1) h

theorem policy_of_identity (h : identity record' = identity record) : record'.policy = record.policy :=
  congrArg (fun i => i.2.2.2.2.2.1) h

theorem Ledger.workflowId_eq (h : Ledger workflowId (some record) created accepted) :
    record.workflowId = workflowId := by
  cases h
  assumption

theorem Ledger.length_created (h : Ledger workflowId old created accepted) : created.length ≤ 1 := by
  cases h <;> simp

theorem RecordMove.ledger (h : RecordMove workflowId old new created' accepted')
    (hl : Ledger workflowId old created accepted) :
    Ledger workflowId new (created ++ created') (accepted ++ accepted') := by
  cases h with
  | kept r => simpa only [List.append_nil] using hl
  | opened hid husage =>
    cases hl
    refine .opened hid rfl husage ?_ ?_
    · rw [husage]
      exact fits_zero
    · rw [husage]
      exact budgetViolation_zero _
  | charged h =>
    cases hl with
    | opened hid hfirst husage hfits hbudget =>
      obtain ⟨husage', hfits'⟩ := usageOf_append (husage ▸ h.usage)
      exact .opened ((workflowId_of_identity h.identity).trans hid) (h.identity.trans hfirst) husage'
        hfits' h.budget
  | closed h =>
    rw [List.append_nil, List.append_nil]
    cases hl with
    | opened hid hfirst husage hfits hbudget =>
      refine .opened ((workflowId_of_identity h.identity).trans hid) (h.identity.trans hfirst)
        (h.usage.trans husage) (h.usage ▸ hfits) ?_
      rw [policy_of_identity h.identity, h.usage]
      exact hbudget

/-- A record stays the same admission, and a closed one stays as it is. -/
theorem RecordMove.keeps (h : RecordMove workflowId (some record) new created accepted) :
    ∃ later, new = some later ∧ identity later = identity record ∧
      (record.status ≠ .active → later = record) := by
  cases h with
  | kept r => exact ⟨record, rfl, rfl, fun _ => rfl⟩
  | charged h => exact ⟨_, rfl, h.identity, fun hne => absurd h.active hne⟩
  | closed h => exact ⟨_, rfl, h.identity, fun hne => absurd h.active hne⟩

end Moves

structure AdmissionWorld where
  submits : SubmitWorld
  created : List (Text × AdmissionRecord)
  accepted : List (Text × UsageDelta)

inductive AdmissionAction
  | workflow (a : WorkflowAction)
  | create (now : Now) (workflowId : Text) (request : AdmitReq)
  | recordUsage (now : Now) (workflowId updatedBy : Text) (delta : UsageDelta)
  | transition (now : Now) (workflowId updatedBy : Text) (status : AdmissionStatus)
      (reason : Option Text)

def logFor {α : Type*} (workflowId : Text) (log : List (Text × α)) : List α :=
  (log.filter fun p => p.1 = workflowId).map Prod.snd

namespace AdmissionWorld

def init (config : Config) : AdmissionWorld := ⟨.init config, [], []⟩

def state (w : AdmissionWorld) : AppState := w.submits.state

def withState (w : AdmissionWorld) (s : AppState) : AdmissionWorld :=
  { w with submits := { w.submits with state := s } }

/-- What `create_admission` adds to the log: the record, when it is a new one. -/
def createdBy (workflowId : Text) :
    AdmissionResult (AdmissionRecord × Bool) → List (Text × AdmissionRecord)
  | .ok (record, true) => [(workflowId, record)]
  | _ => []

def acceptedBy (workflowId : Text) (delta : UsageDelta) :
    AdmissionResult AdmissionRecord → List (Text × UsageDelta)
  | .ok _ => [(workflowId, delta)]
  | .error _ => []

def step (w : AdmissionWorld) : AdmissionAction → AdmissionWorld
  | .workflow a => { w with submits := w.submits.step a }
  | .create now workflowId request =>
    let r := createAdmission w.state now workflowId request
    { w.withState r.2 with created := w.created ++ createdBy workflowId r.1 }
  | .recordUsage now workflowId updatedBy delta =>
    let r := recordUsage w.state now workflowId updatedBy delta
    { w.withState r.2 with accepted := w.accepted ++ acceptedBy workflowId delta r.1 }
  | .transition now workflowId updatedBy status reason =>
    w.withState (transition w.state now workflowId updatedBy status reason).2

abbrev run (config : Config) (as : List AdmissionAction) : AdmissionWorld := Run.exec step (init config) as

/-- Submissions are sound, and every workflow's record agrees with the logs. -/
structure Sound (w : AdmissionWorld) : Prop where
  submits : w.submits.Sound
  ledger : ∀ workflowId, Ledger workflowId (stored w.state workflowId) (logFor workflowId w.created)
    (logFor workflowId w.accepted)

section Log
variable {α : Type*} {workflowId id : Text}

@[simp] theorem logFor_append (l m : List (Text × α)) :
    logFor id (l ++ m) = logFor id l ++ logFor id m := by simp [logFor]

@[simp] theorem logFor_nil : logFor id ([] : List (Text × α)) = [] := rfl

theorem logFor_self (x : α) : logFor id [(id, x)] = [x] := by simp [logFor]

theorem logFor_ne (h : workflowId ≠ id) (x : α) : logFor id [(workflowId, x)] = [] := by
  simp [logFor, h]

theorem createdBy_of_ne {r : AdmissionResult (AdmissionRecord × Bool)}
    (h : ∀ record, r ≠ .ok (record, true)) : createdBy workflowId r = [] := by
  unfold createdBy
  split
  · exact absurd rfl (h _)
  · rfl

end Log

/-- One step seen from every workflow: the submissions stay sound, and each record moves
by what the step added to the logs. -/
structure Moves (w w' : AdmissionWorld) : Prop where
  submits : w'.submits.Sound
  record : ∀ id, ∃ created accepted,
    logFor id w'.created = logFor id w.created ++ created ∧
    logFor id w'.accepted = logFor id w.accepted ++ accepted ∧
    RecordMove id (stored w.state id) (stored w'.state id) created accepted

section Step
variable {w w' : AdmissionWorld} {s' : AppState} {record record' : AdmissionRecord} {workflowId : Text}

theorem Sound.workflowId_eq (hw : w.Sound) (h : stored w.state workflowId = some record) :
    record.workflowId = workflowId := by
  have hl := hw.ledger workflowId
  rw [h] at hl
  exact hl.workflowId_eq

theorem Moves.of_same (hsub : w'.submits.Sound) (hstored : ∀ id, stored w'.state id = stored w.state id)
    (hcreated : w'.created = w.created) (haccepted : w'.accepted = w.accepted) : Moves w w' := by
  refine ⟨hsub, fun id => ⟨[], [], by simp [hcreated], by simp [haccepted], ?_⟩⟩
  rw [hstored]
  exact .kept _

theorem Moves.of_writes (hw : w.Sound) (hwrite : Writes w.state s' record')
    (hid : record'.workflowId = workflowId) (created : List (Text × AdmissionRecord))
    (accepted : List (Text × UsageDelta)) (hsubmits : w'.submits = { w.submits with state := s' })
    (hcreated : w'.created = w.created ++ created) (haccepted : w'.accepted = w.accepted ++ accepted)
    (hother : ∀ id, id ≠ workflowId → logFor id created = [] ∧ logFor id accepted = [])
    (hmove : RecordMove workflowId (stored w.state workflowId) (some record')
      (logFor workflowId created) (logFor workflowId accepted)) : Moves w w' := by
  refine ⟨hsubmits ▸ hwrite.sound hw.submits, fun id => ⟨_, _, hcreated ▸ logFor_append _ _,
    haccepted ▸ logFor_append _ _, ?_⟩⟩
  rw [state, state, hsubmits, hwrite.stored id, hid]
  split_ifs with h
  · rw [h]
    exact hmove
  · rw [(hother id h).1, (hother id h).2]
    exact .kept _

theorem Moves.of_closes (hw : w.Sound) (hwrite : Writes w.state s' record')
    (hstored : stored w.state workflowId = some record) (h : Closes record record') :
    Moves w (w.withState s') := by
  refine .of_writes hw hwrite ((workflowId_of_identity h.identity).trans (hw.workflowId_eq hstored))
    [] [] rfl (List.append_nil _).symm (List.append_nil _).symm (fun _ _ => ⟨rfl, rfl⟩) ?_
  rw [hstored]
  exact .closed h

theorem create_moves (hw : w.Sound) (now : Now) (workflowId : Text) (request : AdmitReq) :
    Moves w (w.step (.create now workflowId request)) := by
  rw [step]
  rcases createAdmission_cases w.state now workflowId request with
    ⟨r, h, hnot⟩ | ⟨record, s', h, hnone, hnew, hwrite⟩
  · rw [h]
    exact .of_same hw.submits (fun _ => rfl) (by simp [createdBy_of_ne hnot]) rfl
  · rw [h]
    obtain ⟨hid, husage⟩ := newAdmission_record hnew
    refine .of_writes hw hwrite hid [(workflowId, record)] [] rfl rfl (List.append_nil _).symm
      (fun id hne => ⟨logFor_ne hne.symm _, rfl⟩) ?_
    rw [hnone, logFor_self]
    exact .opened hid husage

theorem recordUsage_moves (hw : w.Sound) (now : Now) (workflowId updatedBy : Text) (delta : UsageDelta) :
    Moves w (w.step (.recordUsage now workflowId updatedBy delta)) := by
  rw [step]
  rcases recordUsage_cases w.state now workflowId updatedBy delta with
    ⟨e, h⟩ | ⟨e, s', record, record', h, hstored, hclose, hwrite⟩ |
      ⟨s', record, record', h, hstored, hcharge, hwrite⟩
  · rw [h]
    exact .of_same hw.submits (fun _ => rfl) rfl (List.append_nil _)
  · rw [h]
    simp only [acceptedBy, List.append_nil]
    exact .of_closes hw hwrite hstored hclose
  · rw [h]
    refine .of_writes hw hwrite
      ((workflowId_of_identity hcharge.identity).trans (hw.workflowId_eq hstored))
      [] [(workflowId, delta)] rfl (List.append_nil _).symm rfl
      (fun id hne => ⟨rfl, logFor_ne hne.symm _⟩) ?_
    rw [hstored, logFor_self]
    exact .charged hcharge

theorem transition_moves (hw : w.Sound) (now : Now) (workflowId updatedBy : Text)
    (status : AdmissionStatus) (reason : Option Text) :
    Moves w (w.step (.transition now workflowId updatedBy status reason)) := by
  rw [step]
  rcases transition_cases w.state now workflowId updatedBy status reason with
    ⟨e, h⟩ | ⟨s', record, record', h, hstored, hclose, hwrite⟩
  · rw [h]
    exact .of_same hw.submits (fun _ => rfl) rfl rfl
  · rw [h]
    exact .of_closes hw hwrite hstored hclose

theorem workflow_moves (hw : w.Sound) (a : WorkflowAction) : Moves w (w.step (.workflow a)) := by
  obtain ⟨hsound, h⟩ := SubmitWorld.step_sound w.submits a hw.submits
  exact .of_same hsound (stored_of_recordStep h) rfl rfl

theorem step_moves (hw : w.Sound) (a : AdmissionAction) : Moves w (w.step a) := by
  cases a with
  | workflow a => exact workflow_moves hw a
  | create now workflowId request => exact create_moves hw now workflowId request
  | recordUsage now workflowId updatedBy delta => exact recordUsage_moves hw now workflowId updatedBy delta
  | transition now workflowId updatedBy status reason =>
    exact transition_moves hw now workflowId updatedBy status reason

theorem Moves.sound (h : Moves w w') (hw : w.Sound) : w'.Sound := by
  refine ⟨h.submits, fun id => ?_⟩
  obtain ⟨created, accepted, hcreated, haccepted, hmove⟩ := h.record id
  rw [hcreated, haccepted]
  exact hmove.ledger (hw.ledger id)

theorem init_sound (config : Config) : (init config).Sound :=
  ⟨SubmitWorld.init_sound config, fun _ => .unopened⟩

theorem run_sound (config : Config) (as : List AdmissionAction) : (run config as).Sound :=
  Run.exec_invariant (P := Sound) (fun _ a hw => (step_moves hw a).sound hw) (init_sound config) as

/-- Along a run a record stays the same admission, and a closed one stays as it is. -/
theorem run_keeps (hw : w.Sound) (as : List AdmissionAction) (h : stored w.state workflowId = some record) :
    ∃ later, stored (Run.exec step w as).state workflowId = some later ∧
      identity later = identity record ∧ (record.status ≠ .active → later = record) := by
  -- a record that is no longer active passes unchanged through every later step
  induction as generalizing w record with
  | nil => exact ⟨record, h, rfl, fun _ => rfl⟩
  | cons a as ih =>
    have hmoves := step_moves hw a
    obtain ⟨_, _, -, -, hmove⟩ := hmoves.record workflowId
    rw [h] at hmove
    obtain ⟨next, hnext, hid, hclosed⟩ := hmove.keeps
    obtain ⟨later, hlater, hid', hclosed'⟩ := ih (hmoves.sound hw) hnext
    refine ⟨later, hlater, hid'.trans hid, fun hne => ?_⟩
    have heq := hclosed hne
    exact (hclosed' (heq ▸ hne)).trans heq

end Step
end AdmissionWorld

/-- The stored record against the whole run: opened once, under its own workflow, with
exactly the accepted deltas and within its budget. -/
structure LedgerOk (w : AdmissionWorld) (workflowId : Text) (record : AdmissionRecord) : Prop where
  opened : ∃ first, logFor workflowId w.created = [first] ∧ identity record = identity first
  filed : record.workflowId = workflowId
  usage : record.usage = usageOf (logFor workflowId w.accepted)
  fits : Fits record.usage
  budget : budgetViolation record.policy.budget record.usage = none

theorem Ledger.ledgerOk {w : AdmissionWorld} {workflowId : Text} {record : AdmissionRecord}
    (h : Ledger workflowId (some record) (logFor workflowId w.created) (logFor workflowId w.accepted)) :
    LedgerOk w workflowId record := by
  generalize hcreated : logFor workflowId w.created = created at h
  generalize haccepted : logFor workflowId w.accepted = accepted at h
  cases h with
  | opened hid hfirst husage hfits hbudget =>
    exact ⟨⟨_, hcreated, hfirst⟩, hid, haccepted ▸ husage, hfits, hbudget⟩

/-- A delta that is refused leaves the usage as it was. -/
theorem recordUsage_error {s s' : AppState} {now : Now} {workflowId updatedBy : Text} {delta : UsageDelta}
    {record : AdmissionRecord} {e : AdmissionFailure} (hid : record.workflowId = workflowId)
    (hstored : stored s workflowId = some record)
    (h : recordUsage s now workflowId updatedBy delta = (.error e, s')) :
    ∃ record', stored s' workflowId = some record' ∧ record'.usage = record.usage := by
  rcases recordUsage_cases s now workflowId updatedBy delta with
    ⟨e, h'⟩ | ⟨e, s₁, found, record', h', hfound, hclose, hwrite⟩ | ⟨s₁, found, record', h', -⟩
  · rw [h] at h'
    cases h'
    exact ⟨record, hstored, rfl⟩
  · rw [h] at h'
    cases h'
    rw [hstored] at hfound
    cases hfound
    refine ⟨record', ?_, hclose.usage⟩
    rw [hwrite.stored, if_pos ((workflowId_of_identity hclose.identity).trans hid).symm]
  · rw [h] at h'
    cases h'

/-- In every run, a workflow is admitted at most once; its admission keeps its identity,
actors and policy; closing is final; its usage is exactly what was accepted, within the
budget; and a refused delta changes no usage. -/
theorem admission_ledger_invariant (config : Config) (as bs : List AdmissionAction) (workflowId : Text) :
    (logFor workflowId (AdmissionWorld.run config as).created).length ≤ 1 ∧
    ∀ record, loadAdmission (AdmissionWorld.run config as).state workflowId = .ok (some record) →
      LedgerOk (AdmissionWorld.run config as) workflowId record ∧
      (∃ later, loadAdmission (AdmissionWorld.run config (as ++ bs)).state workflowId = .ok (some later) ∧
        identity later = identity record ∧ (record.status ≠ .active → later = record)) ∧
      ∀ now updatedBy delta e s',
        recordUsage (AdmissionWorld.run config as).state now workflowId updatedBy delta = (.error e, s') →
        ∃ record', loadAdmission s' workflowId = .ok (some record') ∧ record'.usage = record.usage := by
  have hw := AdmissionWorld.run_sound config as
  have hledger := hw.ledger workflowId
  refine ⟨hledger.length_created, fun record hload => ?_⟩
  have hstored := loadAdmission_eq_some.mp hload
  rw [hstored] at hledger
  refine ⟨hledger.ledgerOk, ?_, fun now updatedBy delta e s' h => ?_⟩
  · obtain ⟨later, hlater, hkeeps⟩ := AdmissionWorld.run_keeps hw bs hstored
    rw [← Run.exec_append] at hlater
    exact ⟨later, loadAdmission_eq_some.mpr hlater, hkeeps⟩
  · obtain ⟨record', hrecord', husage⟩ := recordUsage_error (hw.workflowId_eq hstored) hstored h
    exact ⟨record', loadAdmission_eq_some.mpr hrecord', husage⟩

/-- A low-risk request for one worker, with a cost budget of 100. -/
def cheapRequest : PolicyRequest where
  taskRisk := .low
  dataSensitivity := .internal
  requestedMode := some .single
  requestedProtocol := none
  requestedDegradation := none
  requiredAgentKeys := []
  requiredReviewerAgentKey := none
  requiredCapabilities := []
  requiresRepositoryWrite := false
  expectedDurationMs := 0
  requestedBudget := { maxCostMicroUsd := some 100 }
  providers := [{ Policy.plainProvider "codex".toList with estimatedCostMicroUsd := 0 }]

/-- One unit over budget exhausts an admission without accepting the delta. -/
def overageRun : List AdmissionAction :=
  let now (t : Nat) : Now := ⟨t, t⟩
  let agent : Agent := {
    agentKey := "codex".toList
    displayName := "codex".toList
    kind := .codex
    host := none
    metadata := .null
    registeredAt := [] }
  [.workflow (.register (now 0) agent),
    .workflow (.create asciiSurroundings (now 1) "w1".toList "m0".toList
      { title := "title".toList, prompt := "prompt".toList, createdBy := "carol".toList, mode := .single }),
    .create (now 2) "w1".toList
      { requestedBy := "carol".toList, approvedBy := none, overrideReason := none, policyRequest := cheapRequest },
    .recordUsage (now 3) "w1".toList "codex".toList { costMicroUsd := 100, providerCalls := 1, concurrency := 1 },
    .recordUsage (now 4) "w1".toList "codex".toList { costMicroUsd := 1 }]

theorem admission_ledger_invariant_overage :
    ∃ record, loadAdmission (AdmissionWorld.run .inMemory overageRun).state "w1".toList = .ok (some record) ∧
      record.status = .exhausted ∧ record.usage.costMicroUsd = 100 ∧
      LedgerOk (AdmissionWorld.run .inMemory overageRun) "w1".toList record := by
  have h : (loadAdmission (AdmissionWorld.run .inMemory overageRun).state "w1".toList).toOption.map
      (fun found => found.map fun record => (record.status, record.usage.costMicroUsd)) =
      some (some (.exhausted, 100)) := by decide +kernel
  obtain ⟨found, hload, hfound⟩ := Except.toOption_map_eq_some.mp h
  obtain ⟨record, rfl, hrecord⟩ := Option.map_eq_some_iff.mp hfound
  obtain ⟨hstatus, hcost⟩ := Prod.mk.inj hrecord
  exact ⟨record, hload, hstatus, hcost,
    ((admission_ledger_invariant .inMemory overageRun [] _).2 record hload).1⟩

end AgentBridge.PolicyAdmission
