import AgentBridge.Slack.Workers

/-! The life of a record while its worker runs and others ask for cancellation, in any interleaving of their sections
under the lock. -/

namespace AgentBridge.Slack

def EventState.rank : EventState → Nat
  | claimed => 0
  | workflowCreated => 1
  | completed => 2
  | canceled => 2

/-- What may become of a record: it does not go back, terminal states are kept and take no request, agents are only
added and the workflow stays. -/
structure Advances (r r' : EventRecord) : Prop where
  forward : r.state.rank ≤ r'.state.rank
  absorbing : r.state.isTerminal = true → r'.state = r.state
  posted : ∀ agentKey ∈ r.postedAgents, agentKey ∈ r'.postedAgents
  workflow : ∀ workflowId, r.workflowId = some workflowId → r'.workflowId = some workflowId
  request : r.state.isTerminal = true → r'.cancelRequested = r.cancelRequested

theorem Advances.refl (r : EventRecord) : Advances r r :=
  ⟨Nat.le_refl _, fun _ => rfl, fun _ h => h, fun _ h => h, fun _ => rfl⟩

theorem Advances.trans {r r' r'' : EventRecord} (h : Advances r r') (h' : Advances r' r'') : Advances r r'' where
  forward := h.forward.trans h'.forward
  absorbing := by
    intro hterminal
    have hstate := h.absorbing hterminal
    rw [h'.absorbing (hstate ▸ hterminal), hstate]
  posted := fun agentKey hmem => h'.posted _ (h.posted _ hmem)
  workflow := fun workflowId hid => h'.workflow _ (h.workflow _ hid)
  request := by
    intro hterminal
    have hstate := h.absorbing hterminal
    rw [h'.request (hstate ▸ hterminal), h.request hterminal]

def EventStage.fits (record : EventRecord) : EventStage → Prop
  | .begun => record.state = .claimed ∧ record.workflowId = none
  | .created _ => record.state = .claimed ∧ record.workflowId = none
  | .failing .. => record.state = .claimed ∧ record.workflowId = none
  | .failingMark .. => record.state = .claimed ∧ record.workflowId = none
  | .ended => True
  | .canceling => record.state = .workflowCreated ∧ record.cancelRequested = true
  | _ => record.state = .workflowCreated

/-- What the next section of the worker does to the record, if it ends the run. -/
def EventStage.ending (config : SlackConfig) (event : AcceptedEvent) : EventStage → Option Mutation
  | .begun => if config.dryRun then some .complete else none
  | .failing [] posted =>
    if posted = (config.selectedModels event.selection).length then some .complete else none
  | .canceling => some .markCanceled
  | .replying _ [] poll =>
    if poll.posted.size = (config.selectedModels event.selection).length then some .complete else none
  | .finishing => some .complete
  | _ => none

namespace SlackWorld

def eventRecord (w : SlackWorld) : Option EventRecord := w.store.records.get w.eventId

/-- No call of `request_cancel` is between its sections while the worker ends the run and gets that into the journal. -/
def KeepsRequests (config : SlackConfig) (w : SlackWorld) : SlackAction → Prop
  | .work input => ∀ event stage record mutation, w.worker = .event event stage →
      w.store.records.get event.eventId = some record → stage.ending config event = some mutation →
      EventStore.appendOk { mutation.apply record with updatedAt := input.now } input.io = true →
      ∀ call ∈ w.cancels, call ≠ .checked
  | _ => True

end SlackWorld

section Steps
variable {config : SlackConfig} {w : SlackWorld} {event : AcceptedEvent} {input : WorkerInput}
  {record : EventRecord}

/-- The next section of the worker ends the run, and its append succeeds. -/
def EndsRun (config : SlackConfig) (event : AcceptedEvent) (input : WorkerInput) (stage : EventStage)
    (record : EventRecord) : Prop :=
  ∃ mutation, stage.ending config event = some mutation ∧
    EventStore.appendOk { mutation.apply record with updatedAt := input.now } input.io = true

/-- What a step of the worker makes of its record, seen from a stage. -/
structure Worked (config : SlackConfig) (w : SlackWorld) (event : AcceptedEvent) (input : WorkerInput)
    (stage : EventStage) (record : EventRecord) (w' : SlackWorld) (stage' : EventStage) (record' : EventRecord) :
    Prop where
  cancels : w'.cancels = w.cancels
  worker : w'.worker = .event event stage'
  stored : w'.store.records.get event.eventId = some record'
  fits : stage'.fits record'
  advances : Advances record record'
  flag : record'.cancelRequested = record.cancelRequested
  terminal : record'.state.isTerminal = true →
    record.state.isTerminal = true ∨ EndsRun config event input stage record
  canceled : record'.state = .canceled → record.state = .canceled ∨ stage = .canceling

theorem worked_quiet {stage : EventStage} {w' : SlackWorld} (next : EventStage)
    (hrecord : w.store.records.get event.eventId = some record)
    (hworker : w'.worker = .event event next) (hstore : w'.store = w.store) (hcancels : w'.cancels = w.cancels)
    (hfits : next.fits record) : ∃ stage' record', Worked config w event input stage record w' stage' record' :=
  ⟨next, record, hcancels, hworker, hstore ▸ hrecord, hfits, .refl record, rfl, .inl, .inl⟩

/-- A step that writes: what holds of the record it means to leave. -/
theorem worked_write {stage : EventStage} (mutation : Mutation) (next : Bool → EventStage)
    (hrecord : w.store.records.get event.eventId = some record)
    (hok : (next true).fits { mutation.apply record with updatedAt := input.now }) (hfail : (next false).fits record)
    (hadvances : Advances record { mutation.apply record with updatedAt := input.now })
    (hflag : (mutation.apply record).cancelRequested = record.cancelRequested)
    (hterminal : (mutation.apply record).state.isTerminal = true →
      record.state.isTerminal = true ∨ stage.ending config event = some mutation)
    (hcanceled : (mutation.apply record).state = .canceled → record.state = .canceled ∨ stage = .canceling) :
    ∃ stage' record', Worked config w event input stage record (w.writeEvent event mutation input next) stage'
      record' := by
  unfold SlackWorld.writeEvent
  rcases update_cases mutation input.now input.io hrecord with
    ⟨happended, heq⟩ | ⟨-, heq⟩
  · rw [heq]
    exact ⟨_, _, rfl, rfl, Table.get_insert_self _ _ _, hok, hadvances, hflag,
      fun h => (hterminal h).imp_right fun hending => ⟨mutation, hending, happended⟩, hcanceled⟩
  · rw [heq]
    exact ⟨_, _, rfl, rfl, hrecord, hfail, .refl record, rfl, .inl, .inl⟩

theorem advances_open {record' : EventRecord} (hopen : record.state.isTerminal = false)
    (hforward : record.state.rank ≤ record'.state.rank)
    (hposted : ∀ agentKey ∈ record.postedAgents, agentKey ∈ record'.postedAgents)
    (hworkflow : ∀ workflowId, record.workflowId = some workflowId → record'.workflowId = some workflowId) :
    Advances record record' := by
  refine ⟨hforward, ?_, hposted, hworkflow, ?_⟩
  · intro hterminal
    rw [hopen] at hterminal
    cases hterminal
  · intro hterminal
    rw [hopen] at hterminal
    cases hterminal

theorem open_of_claimed (h : record.state = .claimed) : record.state.isTerminal = false := by
  rw [h]
  rfl

theorem open_of_created (h : record.state = .workflowCreated) : record.state.isTerminal = false := by
  rw [h]
  rfl

theorem worked_complete {stage : EventStage} (hrecord : w.store.records.get event.eventId = some record)
    (hopen : record.state.isTerminal = false) (hends : stage.ending config event = some .complete) :
    ∃ stage' record', Worked config w event input stage record
      (w.writeEvent event .complete input fun _ => .ended) stage' record' := by
  have hforward : record.state.rank ≤ EventState.completed.rank := by
    cases record.state <;> decide
  refine worked_write .complete _ hrecord trivial trivial ?_ rfl (fun _ => .inr hends) fun h => by cases h
  exact advances_open hopen hforward (fun _ h => h) fun _ h => h

theorem worked_posted {stage : EventStage} (agentKey : Text) (next : Bool → EventStage)
    (hrecord : w.store.records.get event.eventId = some record) (hopen : record.state.isTerminal = false)
    (hok : (next true).fits { (Mutation.markPosted agentKey).apply record with updatedAt := input.now })
    (hfail : (next false).fits record) :
    ∃ stage' record', Worked config w event input stage record
      (w.writeEvent event (.markPosted agentKey) input next) stage' record' := by
  refine worked_write (.markPosted agentKey) next hrecord hok hfail ?_ rfl .inl .inl
  exact advances_open hopen (Nat.le_refl _) (fun _ h => KeySet.mem_insert.mpr (.inr h)) fun _ h => h

section Stages
variable {workflow : WorkflowView} {left : List ModelRoute} {posted : Nat} {poll : PollState}

theorem begun_worked (hrecord : w.store.records.get event.eventId = some record)
    (hfits : EventStage.begun.fits record) : ∃ stage' record',
      Worked config w event input .begun record (w.stepEvent config event input .begun) stage' record' := by
  rw [SlackWorld.stepEvent]
  by_cases hdry : config.dryRun = true
  · rw [if_pos hdry]
    exact worked_complete hrecord (open_of_claimed hfits.1) (if_pos hdry)
  · rw [if_neg hdry]
    cases readWorkflow (validateWorkflowResponse config) input.answer with
    | ok workflow => exact worked_quiet (.created workflow.planId) hrecord rfl rfl rfl hfits
    | error e => exact worked_quiet (.failing _ 0) hrecord rfl rfl rfl hfits

theorem created_worked {workflowId : Text} (hrecord : w.store.records.get event.eventId = some record)
    (hfits : (EventStage.created workflowId).fits record) : ∃ stage' record',
      Worked config w event input (.created workflowId) record
        (w.stepEvent config event input (.created workflowId)) stage' record' := by
  rw [SlackWorld.stepEvent]
  refine worked_write (.setWorkflow workflowId) _ hrecord rfl hfits ?_ rfl (fun h => by cases h) fun h => by cases h
  refine advances_open (open_of_claimed hfits.1) ?_ (fun _ h => h) ?_
  · rw [hfits.1]
    exact Nat.zero_le _
  · intro id hid
    rw [hfits.2] at hid
    cases hid

theorem failing_worked (hrecord : w.store.records.get event.eventId = some record)
    (hfits : (EventStage.failing left posted).fits record) : ∃ stage' record',
      Worked config w event input (.failing left posted) record
        (w.stepEvent config event input (.failing left posted)) stage' record' := by
  cases left with
  | nil =>
    rw [SlackWorld.stepEvent]
    by_cases hall : posted = (config.selectedModels event.selection).length
    · rw [if_pos hall]
      exact worked_complete hrecord (open_of_claimed hfits.1) (if_pos hall)
    · rw [if_neg hall]
      exact worked_quiet .ended hrecord rfl rfl rfl trivial
  | cons model left =>
    rw [SlackWorld.stepEvent, SlackWorld.post]
    cases input.posted with
    | true => exact worked_quiet (.failingMark model left posted) hrecord rfl rfl rfl hfits
    | false => exact worked_quiet (.failing left posted) hrecord rfl rfl rfl hfits

theorem testing_worked (hrecord : w.store.records.get event.eventId = some record)
    (hcreated : record.state = .workflowCreated) : ∃ stage' record',
      Worked config w event input (.testing poll) record
        (w.stepEvent config event input (.testing poll)) stage' record' := by
  rw [SlackWorld.stepEvent]
  by_cases hdeadline : w.remaining = 0
  · rw [if_pos hdeadline]
    exact worked_quiet (.closing _ poll.posted poll.terminal) hrecord rfl rfl rfl hcreated
  · rw [if_neg hdeadline]
    cases hflag : w.store.cancelRequested event.eventId with
    | true =>
      have hrequested : record.cancelRequested = true := by
        rw [EventStore.cancelRequested, EventStore.snapshot, hrecord] at hflag
        exact hflag
      exact worked_quiet .canceling hrecord rfl rfl rfl ⟨hcreated, hrequested⟩
    | false => exact worked_quiet (.fetching poll) hrecord rfl rfl rfl hcreated

theorem replying_worked (hrecord : w.store.records.get event.eventId = some record)
    (hcreated : record.state = .workflowCreated) : ∃ stage' record',
      Worked config w event input (.replying workflow left poll) record
        (w.stepEvent config event input (.replying workflow left poll)) stage' record' := by
  cases left with
  | nil =>
    rw [SlackWorld.stepEvent]
    by_cases hall : poll.posted.size = (config.selectedModels event.selection).length
    · rw [if_pos hall]
      exact worked_complete hrecord (open_of_created hcreated) (if_pos hall)
    · rw [if_neg hall]
      by_cases hterminal : poll.terminal = true
      · rw [if_pos hterminal]
        exact worked_quiet (.closing _ poll.posted poll.terminal) hrecord rfl rfl rfl hcreated
      · rw [if_neg hterminal]
        exact worked_quiet (.waiting poll) hrecord rfl rfl rfl hcreated
  | cons model left =>
    rw [SlackWorld.stepEvent]
    by_cases hposted : model.agentKey ∈ poll.posted
    · rw [if_pos hposted]
      exact worked_quiet (.replying workflow left poll) hrecord rfl rfl rfl hcreated
    · rw [if_neg hposted]
      cases workflow.submissions.find? fun submission => submission.agentKey = model.agentKey with
      | none => exact worked_quiet (.replying workflow left poll) hrecord rfl rfl rfl hcreated
      | some submission =>
        dsimp only
        rw [SlackWorld.post]
        cases input.posted with
        | true => exact worked_quiet (.marking workflow model left poll) hrecord rfl rfl rfl hcreated
        | false => exact worked_quiet (.replying workflow left poll) hrecord rfl rfl rfl hcreated

theorem closing_worked {posted : KeySet Text} {terminal : Bool}
    (hrecord : w.store.records.get event.eventId = some record) (hcreated : record.state = .workflowCreated) :
    ∃ stage' record', Worked config w event input (.closing left posted terminal) record
      (w.stepEvent config event input (.closing left posted terminal)) stage' record' := by
  cases left with
  | nil =>
    rw [SlackWorld.stepEvent]
    cases (w.store.snapshot event.eventId).any fun record => record.postedAgents.size = 2 with
    | true => exact worked_quiet .finishing hrecord rfl rfl rfl hcreated
    | false => exact worked_quiet .ended hrecord rfl rfl rfl trivial
  | cons model left =>
    rw [SlackWorld.stepEvent]
    by_cases hposted : model.agentKey ∈ posted
    · rw [if_pos hposted]
      exact worked_quiet (.closing left posted terminal) hrecord rfl rfl rfl hcreated
    · rw [if_neg hposted, SlackWorld.post]
      cases input.posted with
      | true => exact worked_quiet (.closingMark model left posted terminal) hrecord rfl rfl rfl hcreated
      | false => exact worked_quiet (.closing left posted terminal) hrecord rfl rfl rfl hcreated

end Stages

variable (config input) in
theorem stepEvent_worked {stage : EventStage} (hrecord : w.store.records.get event.eventId = some record)
    (hworker : w.worker = .event event stage) (hfits : stage.fits record) : ∃ stage' record',
      Worked config w event input stage record (w.stepEvent config event input stage) stage' record' := by
  cases stage with
  | begun => exact begun_worked hrecord hfits
  | created workflowId => exact created_worked hrecord hfits
  | failing left posted => exact failing_worked hrecord hfits
  | failingMark model left posted =>
    rw [SlackWorld.stepEvent]
    exact worked_posted model.agentKey _ hrecord (open_of_claimed hfits.1) hfits trivial
  | correlated workflowId => exact worked_quiet (.testing _) hrecord rfl rfl rfl hfits
  | testing poll => exact testing_worked hrecord hfits
  | canceling =>
    rw [SlackWorld.stepEvent]
    refine worked_write .markCanceled _ hrecord trivial trivial ?_ rfl (fun _ => .inr rfl) fun _ => .inr rfl
    refine advances_open (open_of_created hfits.1) ?_ (fun _ h => h) fun _ h => h
    rw [hfits.1]
    exact (by decide : EventState.workflowCreated.rank ≤ EventState.canceled.rank)
  | fetching poll =>
    rw [SlackWorld.stepEvent]
    cases getWorkflow (validateWorkflowResponse config) poll.workflowId input.answer with
    | error e => exact worked_quiet (.waiting poll) hrecord rfl rfl rfl hfits
    | ok workflow => exact worked_quiet (.replying workflow _ _) hrecord rfl rfl rfl hfits
  | replying workflow left poll => exact replying_worked hrecord hfits
  | marking workflow model left poll =>
    rw [SlackWorld.stepEvent]
    exact worked_posted model.agentKey _ hrecord (open_of_created hfits) hfits trivial
  | waiting poll => exact worked_quiet (.testing poll) hrecord rfl rfl rfl hfits
  | closing left posted terminal => exact closing_worked hrecord hfits
  | closingMark model left posted terminal =>
    rw [SlackWorld.stepEvent]
    exact worked_posted model.agentKey _ hrecord (open_of_created hfits) hfits trivial
  | finishing => exact worked_complete hrecord (open_of_created hfits) rfl
  | ended => exact worked_quiet .ended hrecord hworker rfl rfl trivial

end Steps

/-! ### Runs -/

/-- What holds of a worker of an event in every state of a run: its record fits its stage, calls between their
sections have seen a record that is still open, and a request in the record was answered. -/
structure EventWorld (event : AcceptedEvent) (w : SlackWorld) (stage : EventStage) (record : EventRecord) : Prop where
  worker : w.worker = .event event stage
  stored : w.store.records.get event.eventId = some record
  fits : stage.fits record
  checked : ∀ call ∈ w.cancels, call = .checked → record.state.isTerminal = false
  requested : record.cancelRequested = true ∨ record.state = .canceled → .answered (.ok .requested) ∈ w.cancels

section Runs
variable {config : SlackConfig} {w : SlackWorld} {event : AcceptedEvent} {stage : EventStage}
  {record : EventRecord}

theorem EventWorld.eventId (h : EventWorld event w stage record) : w.eventId = event.eventId := by
  rw [SlackWorld.eventId, h.worker]

theorem EventWorld.eventRecord (h : EventWorld event w stage record) : w.eventRecord = some record := by
  rw [SlackWorld.eventRecord, h.eventId, h.stored]

theorem EventWorld.work (h : EventWorld event w stage record) {input : WorkerInput}
    (hkeeps : w.KeepsRequests config (.work input)) : ∃ stage' record',
      EventWorld event (w.step config (.work input)) stage' record' ∧ Advances record record' := by
  have hstep : w.step config (.work input) = w.stepEvent config event input stage := by
    rw [SlackWorld.step, h.worker]
  obtain ⟨stage', record', hworked⟩ := stepEvent_worked config input
    h.stored h.worker h.fits
  rw [hstep]
  refine ⟨stage', record', ⟨hworked.worker, hworked.stored, hworked.fits, ?_, ?_⟩, hworked.advances⟩
  · intro call hcall hchecked
    rw [hworked.cancels] at hcall
    have hopen := h.checked call hcall hchecked
    rw [← Bool.not_eq_true]
    intro hterminal
    rcases hworked.terminal hterminal with hwas | hends
    · rw [hopen] at hwas
      cases hwas
    · obtain ⟨mutation, hending, happended⟩ := hends
      exact hkeeps event stage record mutation h.worker h.stored hending happended call hcall hchecked
  · rw [hworked.cancels, hworked.flag]
    rintro (hflag | hcanceled)
    · exact h.requested (.inl hflag)
    · rcases hworked.canceled hcanceled with hwas | hcanceling
      · exact h.requested (.inr hwas)
      · have hfits := h.fits
        rw [hcanceling] at hfits
        exact h.requested (.inl hfits.2)

theorem EventWorld.cancel (h : EventWorld event w stage record) :
    EventWorld event (w.step config .cancel) stage record := by
  refine ⟨h.worker, h.stored, h.fits, ?_, fun hr => List.mem_append_left _ (h.requested hr)⟩
  intro call hcall hchecked
  rcases List.mem_append.mp hcall with hold | hnew
  · exact h.checked call hold hchecked
  · rw [List.mem_singleton] at hnew
    rw [hnew, EventStore.cancelAnswer, EventStore.snapshot, h.eventId, h.stored] at hchecked
    cases hterminal : record.state.isTerminal with
    | false => rfl
    | true =>
      dsimp only at hchecked
      rw [if_pos hterminal] at hchecked
      cases hchecked

variable (config) in
theorem EventWorld.recordCancel (h : EventWorld event w stage record) (i : Nat) (now : Text) (io : AppendIo) :
    ∃ record', EventWorld event (w.step config (.record i now io)) stage record' ∧ Advances record record' := by
  rw [SlackWorld.step]
  split
  · rename_i hi
    have hopen := h.checked _ (List.mem_of_getElem? hi) rfl
    have hmem : ∀ call ∈ w.cancels.set i (.answered ((w.update .requestCancel now io).1.map fun _ =>
        CancelOutcome.requested)), call = .checked → record.state.isTerminal = false := fun _ _ _ => hopen
    have hkept : .answered (.ok .requested) ∈ w.cancels → .answered (.ok .requested) ∈ w.cancels.set i
        (.answered ((w.update .requestCancel now io).1.map fun _ => CancelOutcome.requested)) := by
      intro hanswered
      obtain ⟨j, hj⟩ := List.mem_iff_getElem?.mp hanswered
      have hne : i ≠ j := by
        rintro rfl
        cases hi.symm.trans hj
      exact List.mem_iff_getElem?.mpr ⟨j, (List.getElem?_set_ne hne).trans hj⟩
    have hset := List.mem_set (List.getElem?_eq_some_iff.mp hi).1
      (CancelCall.answered ((w.update .requestCancel now io).1.map fun _ => CancelOutcome.requested))
    rw [SlackWorld.update, h.eventId] at hmem hkept hset ⊢
    rcases update_cases .requestCancel now io h.stored with
      ⟨-, heq⟩ | ⟨-, heq⟩
    · rw [heq] at hmem hkept hset ⊢
      refine ⟨_, ⟨h.worker, Table.get_insert_self _ _ _, ?_, hmem, fun _ => hset⟩,
        advances_open hopen (Nat.le_refl _) (fun _ h => h) fun _ h => h⟩
      have hfits := h.fits
      cases stage with
      | canceling => exact ⟨hfits.1, rfl⟩
      | _ => exact hfits
    · rw [heq] at hmem hkept ⊢
      exact ⟨record, ⟨h.worker, h.stored, h.fits, hmem, fun hr => hkept (h.requested hr)⟩, .refl record⟩
  · exact ⟨record, h, .refl record⟩

theorem EventWorld.step (h : EventWorld event w stage record) {action : SlackAction}
    (hkeeps : w.KeepsRequests config action) : ∃ stage' record',
      EventWorld event (w.step config action) stage' record' ∧ Advances record record' := by
  cases action with
  | work input => exact h.work hkeeps
  | cancel => exact ⟨stage, record, h.cancel, .refl record⟩
  | record i now io =>
    obtain ⟨record', hworld, hadvances⟩ := h.recordCancel config i now io
    exact ⟨stage, record', hworld, hadvances⟩

/-- Run lemma: a worker stays one of its event, and its record advances. -/
theorem EventWorld.exec (h : EventWorld event w stage record) {actions : List SlackAction}
    (hkeeps : Run.Guarded (SlackWorld.step config) (SlackWorld.KeepsRequests config) w actions) :
    ∃ stage' record', EventWorld event (Run.exec (SlackWorld.step config) w actions) stage' record' ∧
      Advances record record' := by
  induction actions generalizing w stage record with
  | nil => exact ⟨stage, record, h, .refl record⟩
  | cons action actions ih =>
    obtain ⟨stage', record', hworld, hadvances⟩ := h.step hkeeps.1
    obtain ⟨stage'', record'', hworld', hadvances'⟩ := ih hworld hkeeps.2
    exact ⟨stage'', record'', hworld', hadvances.trans hadvances'⟩

end Runs

/-- The life of a record in a run: it advances from every state to every later one; a call answers `requested` only
where the record was open when it was marked; and it is canceled only if a call was answered so. -/
structure LifeCycle (config : SlackConfig) (w : SlackWorld) (actions : List SlackAction) : Prop where
  advances : ∀ first later, actions = first ++ later → ∀ record record',
    (Run.exec (SlackWorld.step config) w first).eventRecord = some record →
    (Run.exec (SlackWorld.step config) w actions).eventRecord = some record' → Advances record record'
  requested : ∀ first call now io later, actions = first ++ .record call now io :: later →
    (Run.exec (SlackWorld.step config) w first).cancels[call]? = some .checked →
    (Run.exec (SlackWorld.step config) w (first ++ [.record call now io])).cancels[call]? =
      some (.answered (.ok .requested)) →
    ∀ record, (Run.exec (SlackWorld.step config) w first).eventRecord = some record →
      record.state.isTerminal = false
  canceled : ∀ record, (Run.exec (SlackWorld.step config) w actions).eventRecord = some record →
    record.state = .canceled →
    .answered (.ok .requested) ∈ (Run.exec (SlackWorld.step config) w actions).cancels

section Claims
variable {config : SlackConfig} {store store' : EventStore} {event : AcceptedEvent} {now : Text}
  {io : AppendIo}

theorem claim_eq_claimed {eventId : Text}
    (h : EventStore.claim store eventId now io = (.ok .claimed, store')) :
    store'.records.get eventId = some (EventStore.freshRecord eventId now) := by
  unfold EventStore.claim at h
  by_cases hid : (!validEventId eventId) = true
  · rw [if_pos hid] at h
    cases h
  · rw [if_neg hid] at h
    by_cases hknown : store.records.contains eventId = true
    · rw [if_pos hknown] at h
      cases h
    · rw [if_neg hknown] at h
      dsimp only at h
      split_ifs at h
      · cases h
        exact Table.get_insert_self _ _ _
      · cases h

theorem eventWorld_claimed (h : EventStore.claim store event.eventId now io = (.ok .claimed, store'))
    (remaining : Nat) : EventWorld event (.claimed store' remaining (.event event .begun)) .begun
      (EventStore.freshRecord event.eventId now) := by
  refine ⟨rfl, claim_eq_claimed h, ⟨rfl, rfl⟩, List.forall_mem_nil _, ?_⟩
  rintro (hflag | hstate)
  · cases hflag
  · cases hstate

end Claims

/-- In every run in which the worker does not end the run while a call is between its sections, from the claim of the
event on, its record has the life it should have. -/
theorem lifeCycle_of_keeps (config : SlackConfig) (event : AcceptedEvent)
    {store store' : EventStore} {now : Text} {io : AppendIo}
    (hclaim : EventStore.claim store event.eventId now io = (.ok .claimed, store')) (remaining : Nat)
    {actions : List SlackAction} (hkeeps : Run.Guarded (SlackWorld.step config) (SlackWorld.KeepsRequests config)
      (.claimed store' remaining (.event event .begun)) actions) :
    LifeCycle config (.claimed store' remaining (.event event .begun)) actions := by
  have hstart := eventWorld_claimed hclaim remaining
  refine ⟨?_, ?_, ?_⟩
  · rintro first later rfl record record' hrecord hrecord'
    obtain ⟨hfirst, hlater⟩ := Run.guarded_append.mp hkeeps
    obtain ⟨stage, middle, hworld, -⟩ := hstart.exec hfirst
    obtain ⟨stage', final, hworld', hadvances⟩ := hworld.exec hlater
    rw [← Run.exec_append] at hworld'
    cases hrecord.symm.trans hworld.eventRecord
    cases hrecord'.symm.trans hworld'.eventRecord
    exact hadvances
  · rintro first call now io later rfl hcall - record hrecord
    obtain ⟨hfirst, -⟩ := Run.guarded_append.mp hkeeps
    obtain ⟨stage, middle, hworld, -⟩ := hstart.exec hfirst
    cases hrecord.symm.trans hworld.eventRecord
    exact hworld.checked _ (List.mem_of_getElem? hcall) rfl
  · intro record hrecord hcanceled
    obtain ⟨stage, final, hworld, -⟩ := hstart.exec hkeeps
    cases hrecord.symm.trans hworld.eventRecord
    exact hworld.requested (.inr hcanceled)

/-! A run that is asked to stop while it ends. -/

def dryRunSlack : SlackConfig := ⟨"claude-fable-5".toList, "gpt-5.6-sol".toList, by decide, true⟩

def mention : AcceptedEvent where
  eventId := "Ev123".toList
  teamId := "T1".toList
  channel := "C1".toList
  threadTs := "1.1".toList
  user := "U1".toList
  prompt := "explain raft".toList
  selection := .both

/-- What a step meets where the bridge is silent and Slack and the journal work. -/
def quietInput : WorkerInput := ⟨none, true, wholeAppend, "2026-07-31T06:00:00Z".toList⟩

def claimedMention : SlackWorld := .claimed
  (EventStore.claim emptyStore mention.eventId "2026-07-31T06:00:00Z".toList wholeAppend).2 3
  (.event mention .begun)

theorem claim_emptyStore (eventId now : Text) (hid : validEventId eventId = true)
    (hok : EventStore.appendOk (EventStore.freshRecord eventId now) wholeAppend = true) :
    emptyStore.claim eventId now wholeAppend = (.ok .claimed, (emptyStore.claim eventId now wholeAppend).2) := by
  have hclaimed : (emptyStore.claim eventId now wholeAppend).1 = .ok .claimed := by
    have hnew : emptyStore.records.contains eventId = false := rfl
    unfold EventStore.claim
    rw [hid, hnew, Bool.not_true, if_neg Bool.false_ne_true, if_neg Bool.false_ne_true]
    dsimp only
    rw [if_pos hok]
  exact Prod.ext hclaimed rfl

theorem keepsRequests_of_answered {config : SlackConfig} {w : SlackWorld} {input : WorkerInput}
    (h : .checked ∉ w.cancels) : w.KeepsRequests config (.work input) := by
  intro event stage record mutation _ _ _ _ call hcall hchecked
  exact h (hchecked ▸ hcall)

/-- A call that comes through before the run ends. -/
theorem lifeCycle_requested : LifeCycle dryRunSlack claimedMention
    [.cancel, .record 0 "2026-07-31T06:00:01Z".toList wholeAppend, .work quietInput] := by
  have hclaim := claim_emptyStore mention.eventId "2026-07-31T06:00:00Z".toList (by decide)
    (by decide +kernel)
  refine lifeCycle_of_keeps dryRunSlack mention hclaim 3 ⟨trivial, trivial, ?_, trivial⟩
  exact keepsRequests_of_answered (by decide +kernel)

/-- The call has seen the record open, the worker completes it, and then the request is recorded and answered. -/
theorem not_lifeCycle : ¬ LifeCycle dryRunSlack claimedMention
    [.cancel, .work quietInput, .record 0 "2026-07-31T06:00:01Z".toList wholeAppend] := by
  intro h
  have hcompleted : ((Run.exec (SlackWorld.step dryRunSlack) claimedMention
      [.cancel, .work quietInput]).eventRecord.map EventRecord.state) = some .completed := by decide +kernel
  obtain ⟨record, hrecord, hstate⟩ := Option.map_eq_some_iff.mp hcompleted
  have hopen := h.requested [.cancel, .work quietInput] 0 "2026-07-31T06:00:01Z".toList wholeAppend [] rfl
    (by decide +kernel) (by decide +kernel) record hrecord
  rw [hstate] at hopen
  cases hopen

end AgentBridge.Slack
