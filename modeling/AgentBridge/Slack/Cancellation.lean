import AgentBridge.Slack.LifeCycle

/-! Whether a worker that waits between two polls heeds a request to cancel its run. The worker of an event tests for
one before each poll; the worker of a dispatched task does not. -/

namespace AgentBridge.Slack

def Message.isReply : Message → Bool
  | reply .. => true
  | failure .. => false

namespace SlackWorld

def replies (w : SlackWorld) : List Message := w.messages.filter Message.isReply

def waiting (w : SlackWorld) : Bool :=
  match w.worker with
  | .event _ (.waiting _) => true
  | .dispatch _ (.waiting _) => true
  | _ => false

def forEvent (w : SlackWorld) : Bool :=
  match w.worker with
  | .event .. => true
  | .dispatch .. => false

def ended (w : SlackWorld) : Bool :=
  match w.worker with
  | .event _ .ended => true
  | .dispatch _ .ended => true
  | _ => false

/-- No model reply was posted since `w`, and the record is canceled. -/
def Honoured (w w' : SlackWorld) : Prop :=
  w'.replies = w.replies ∧ w'.eventRecord.map EventRecord.state = some .canceled

/-- If the step marks the record as canceled, its append succeeds. -/
def MarkSucceeds (w : SlackWorld) : SlackAction → Prop
  | .work input => ∀ event record, w.worker = .event event .canceling →
      w.store.records.get event.eventId = some record →
      EventStore.appendOk { Mutation.markCanceled.apply record with updatedAt := input.now } input.io = true
  | _ => True

/-- The worker is one of an event that comes to its test for a request before the deadline, and can record that it
stops. -/
def Stops (config : SlackConfig) (w : SlackWorld) (later : List SlackAction) : Prop :=
  w.forEvent = true ∧ 0 < w.remaining ∧ Run.Guarded (step config) MarkSucceeds w later
end SlackWorld

structure EventAt (event : AcceptedEvent) (w : SlackWorld) (stage : EventStage) (record : EventRecord) : Prop where
  worker : w.worker = .event event stage
  stored : w.store.records.get event.eventId = some record
  fits : stage.fits record

section Events
variable (config : SlackConfig) {w : SlackWorld} {event : AcceptedEvent} {stage : EventStage}
  {record : EventRecord}

theorem EventAt.eventRecord (h : EventAt event w stage record) : w.eventRecord = some record := by
  rw [SlackWorld.eventRecord, SlackWorld.eventId, h.worker]
  exact h.stored

theorem EventAt.step_work (h : EventAt event w stage record) (input : WorkerInput) :
    w.step config (.work input) = w.stepEvent config event input stage := by
  rw [SlackWorld.step, h.worker]

theorem EventAt.call (h : EventAt event w stage record) (action : SlackAction)
    (haction : ∀ input, action ≠ .work input) :
    ∃ record', EventAt event (w.step config action) stage record' ∧ record'.state = record.state ∧
      (record.cancelRequested = true → record'.cancelRequested = true) ∧
      (w.step config action).messages = w.messages ∧ (w.step config action).remaining = w.remaining := by
  cases action with
  | work input => exact absurd rfl (haction input)
  | cancel => exact ⟨record, ⟨h.worker, h.stored, h.fits⟩, rfl, id, rfl, rfl⟩
  | record i now io =>
    have hid : w.eventId = event.eventId := by
      rw [SlackWorld.eventId, h.worker]
    rw [SlackWorld.step]
    split
    · rw [SlackWorld.update, hid]
      rcases update_cases .requestCancel now io h.stored with
        ⟨-, heq⟩ | ⟨-, heq⟩
      · rw [heq]
        refine ⟨_, ⟨h.worker, Table.get_insert_self _ _ _, ?_⟩, rfl, fun _ => rfl, rfl, rfl⟩
        have hfits := h.fits
        cases stage with
        | canceling => exact ⟨hfits.1, rfl⟩
        | _ => exact hfits
      · rw [heq]
        exact ⟨record, ⟨h.worker, h.stored, h.fits⟩, rfl, id, rfl, rfl⟩
    · exact ⟨record, h, rfl, id, rfl, rfl⟩

theorem EventAt.recorded (h : EventAt event w stage record) {call : Nat} {now : Text} {io : AppendIo}
    (hcall : w.cancels[call]? = some .checked)
    (hrequested : (w.step config (.record call now io)).cancels[call]? = some (.answered (.ok .requested))) :
    ∃ record', EventAt event (w.step config (.record call now io)) stage record' ∧
      record'.cancelRequested = true := by
  obtain ⟨record', hat, -⟩ := h.call config (.record call now io) (by rintro _ ⟨⟩)
  refine ⟨record', hat, ?_⟩
  have hid : w.eventId = event.eventId := by
    rw [SlackWorld.eventId, h.worker]
  have hlt : call < w.cancels.length := (List.getElem?_eq_some_iff.mp hcall).1
  have hstored := hat.stored
  rw [SlackWorld.step, hcall] at hrequested hstored
  dsimp only at hrequested hstored
  rw [List.getElem?_set_self hlt, SlackWorld.update, hid] at hrequested
  rw [SlackWorld.update, hid] at hstored
  rcases update_cases .requestCancel now io h.stored with
    ⟨-, heq⟩ | ⟨-, heq⟩
  · rw [heq] at hstored
    cases (Table.get_insert_self _ _ _).symm.trans hstored
    rfl
  · rw [heq] at hrequested
    cases hrequested

theorem EventAt.step (h : EventAt event w stage record) (action : SlackAction) :
    ∃ stage' record', EventAt event (w.step config action) stage' record' := by
  by_cases hwork : ∃ input, action = .work input
  · obtain ⟨input, rfl⟩ := hwork
    obtain ⟨stage', record', hworked⟩ := stepEvent_worked config input
      h.stored h.worker h.fits
    rw [h.step_work]
    exact ⟨stage', record', hworked.worker, hworked.stored, hworked.fits⟩
  · obtain ⟨record', hat, -⟩ := h.call config action fun input heq => hwork ⟨input, heq⟩
    exact ⟨stage, record', hat⟩

theorem EventAt.exec (h : EventAt event w stage record) (actions : List SlackAction) :
    ∃ stage' record', EventAt event (Run.exec (SlackWorld.step config) w actions) stage' record' := by
  induction actions generalizing w stage record with
  | nil => exact ⟨stage, record, h⟩
  | cons action actions ih =>
    obtain ⟨stage', record', hat⟩ := h.step config action
    exact ih hat

/-- Once the deadline has passed, a worker comes to no further test for a request. -/
def EventStage.late (remaining : Nat) : EventStage → Prop
  | .waiting _ => remaining = 0
  | .testing _ => remaining = 0
  | .closing .. => True
  | .closingMark .. => True
  | .finishing => True
  | .ended => True
  | _ => False

theorem late_writeEvent {input : WorkerInput} {mutation : Mutation} {next : Bool → EventStage}
    (h : ∀ ok, (next ok).late w.remaining) : ∃ stage', (w.writeEvent event mutation input next).worker =
      .event event stage' ∧ stage'.late (w.writeEvent event mutation input next).remaining :=
  ⟨_, rfl, h _⟩

theorem late_step {input : WorkerInput} (hworker : w.worker = .event event stage) (h : stage.late w.remaining) :
    ∃ stage', (w.stepEvent config event input stage).worker = .event event stage' ∧
      stage'.late (w.stepEvent config event input stage).remaining := by
  cases stage with
  | waiting poll => exact ⟨.testing poll, rfl, h⟩
  | testing poll =>
    have hdeadline : w.remaining = 0 := h
    rw [SlackWorld.stepEvent, if_pos hdeadline]
    exact ⟨.closing _ poll.posted poll.terminal, rfl, trivial⟩
  | closing left posted terminal =>
    cases left with
    | nil =>
      rw [SlackWorld.stepEvent]
      split_ifs
      · exact ⟨.finishing, rfl, trivial⟩
      · exact ⟨.ended, rfl, trivial⟩
    | cons model left =>
      rw [SlackWorld.stepEvent]
      by_cases hposted : model.agentKey ∈ posted
      · rw [if_pos hposted]
        exact ⟨.closing left posted terminal, rfl, trivial⟩
      · rw [if_neg hposted, SlackWorld.post]
        cases input.posted with
        | true => exact ⟨.closingMark model left posted terminal, rfl, trivial⟩
        | false => exact ⟨.closing left posted terminal, rfl, trivial⟩
  | closingMark model left posted terminal =>
    rw [SlackWorld.stepEvent]
    apply late_writeEvent
    intro ok
    cases ok <;> trivial
  | finishing =>
    rw [SlackWorld.stepEvent]
    exact late_writeEvent fun _ => trivial
  | ended => exact ⟨.ended, hworker, trivial⟩
  | begun => exact h.elim
  | created workflowId => exact h.elim
  | failing left posted => exact h.elim
  | failingMark model left posted => exact h.elim
  | correlated workflowId => exact h.elim
  | canceling => exact h.elim
  | fetching poll => exact h.elim
  | replying workflow left poll => exact h.elim
  | marking workflow model left poll => exact h.elim

/-- A request is recorded, and the worker has yet to act on it. -/
def Heeding (event : AcceptedEvent) (replies : List Message) (w : SlackWorld) : Prop :=
  ∃ stage record, EventAt event w stage record ∧ w.replies = replies ∧ record.cancelRequested = true ∧
    ((∃ poll, stage = .waiting poll ∨ stage = .testing poll) ∧ 0 < w.remaining ∨ stage = .canceling)

def Stopped (event : AcceptedEvent) (replies : List Message) (w : SlackWorld) : Prop :=
  ∃ record, EventAt event w .ended record ∧ w.replies = replies ∧ record.state = .canceled

/-- The worker will not stop. -/
def Unheeding (event : AcceptedEvent) (w : SlackWorld) : Prop :=
  ∃ stage record, EventAt event w stage record ∧ record.state ≠ .canceled ∧ stage.late w.remaining

theorem markSucceeds_call {action : SlackAction} (h : ∀ input, action ≠ .work input) : w.MarkSucceeds action := by
  cases action with
  | work input => exact absurd rfl (h input)
  | cancel => trivial
  | record i now io => trivial

theorem stopped_step {replies : List Message} (h : Stopped event replies w) (action : SlackAction) :
    Stopped event replies (w.step config action) ∧ w.MarkSucceeds action := by
  obtain ⟨record, hat, hreplies, hstate⟩ := h
  by_cases hwork : ∃ input, action = .work input
  · obtain ⟨input, rfl⟩ := hwork
    rw [hat.step_work]
    refine ⟨⟨record, hat, hreplies, hstate⟩, ?_⟩
    intro event' record' hcanceling
    cases hat.worker.symm.trans hcanceling
  · have hcall : ∀ input, action ≠ .work input := fun input heq => hwork ⟨input, heq⟩
    obtain ⟨record', hat', hsame, -, hmessages, -⟩ := hat.call config action hcall
    refine ⟨⟨record', hat', ?_, hsame.trans hstate⟩, markSucceeds_call hcall⟩
    rw [SlackWorld.replies, hmessages]
    exact hreplies

theorem unheeding_step (h : Unheeding event w) (action : SlackAction) :
    Unheeding event (w.step config action) := by
  obtain ⟨stage, record, hat, hstate, hlate⟩ := h
  by_cases hwork : ∃ input, action = .work input
  · obtain ⟨input, rfl⟩ := hwork
    rw [hat.step_work]
    obtain ⟨stage', record', hworked⟩ := stepEvent_worked config input
      hat.stored hat.worker hat.fits
    obtain ⟨stage'', hworker, hlate'⟩ := late_step config hat.worker hlate
    cases hworked.worker.symm.trans hworker
    refine ⟨stage', record', ⟨hworked.worker, hworked.stored, hworked.fits⟩, ?_, hlate'⟩
    intro hcanceled
    rcases hworked.canceled hcanceled with hwas | rfl
    · exact hstate hwas
    · exact hlate
  · have hcall : ∀ input, action ≠ .work input := fun input heq => hwork ⟨input, heq⟩
    obtain ⟨record', hat', hsame, -, -, hremaining⟩ := hat.call config action hcall
    refine ⟨stage, record', hat', ?_, ?_⟩
    · rwa [hsame]
    · rwa [hremaining]

theorem heeding_step {replies : List Message} (h : Heeding event replies w) (action : SlackAction) :
    (Heeding event replies (w.step config action) ∨ Stopped event replies (w.step config action)) ∧
        w.MarkSucceeds action ∨
      Unheeding event (w.step config action) ∧ ¬ w.MarkSucceeds action := by
  obtain ⟨stage, record, hat, hreplies, hflag, hstage⟩ := h
  by_cases hwork : ∃ input, action = .work input
  · obtain ⟨input, rfl⟩ := hwork
    rw [hat.step_work]
    have hquiet : (∀ event', w.worker ≠ .event event' .canceling) → w.MarkSucceeds (.work input) :=
      fun hnot event' record' hcanceling => absurd hcanceling (hnot event')
    rcases hstage with ⟨⟨poll, rfl | rfl⟩, hremaining⟩ | rfl
    · refine .inl ⟨.inl ⟨.testing poll, record, ⟨rfl, hat.stored, hat.fits⟩, hreplies, hflag,
        .inl ⟨⟨poll, .inr rfl⟩, hremaining⟩⟩, hquiet ?_⟩
      intro event' hcanceling
      cases hat.worker.symm.trans hcanceling
    · have hasked : w.store.cancelRequested event.eventId = true := by
        rw [EventStore.cancelRequested, EventStore.snapshot, hat.stored]
        exact hflag
      rw [SlackWorld.stepEvent, if_neg (Nat.pos_iff_ne_zero.mp hremaining), if_pos hasked]
      refine .inl ⟨.inl ⟨.canceling, record, ⟨rfl, hat.stored, hat.fits, hflag⟩, hreplies, hflag, .inr rfl⟩, hquiet ?_⟩
      intro event' hcanceling
      cases hat.worker.symm.trans hcanceling
    · rw [SlackWorld.stepEvent]
      unfold SlackWorld.writeEvent
      rcases update_cases .markCanceled input.now input.io hat.stored
        with ⟨hok, heq⟩ | ⟨hfails, heq⟩
      · rw [heq]
        refine .inl ⟨.inr ⟨_, ⟨rfl, Table.get_insert_self _ _ _, trivial⟩, hreplies, rfl⟩, ?_⟩
        intro event' record' hcanceling hstored
        cases hat.worker.symm.trans hcanceling
        cases hat.stored.symm.trans hstored
        exact hok
      · rw [heq]
        refine .inr ⟨⟨.ended, record, ⟨rfl, hat.stored, trivial⟩, ?_, trivial⟩, ?_⟩
        · rw [hat.fits.1]
          rintro ⟨⟩
        · intro hmark
          rw [hmark event record hat.worker hat.stored] at hfails
          cases hfails
  · have hcall : ∀ input, action ≠ .work input := fun input heq => hwork ⟨input, heq⟩
    obtain ⟨record', hat', -, hkept, hmessages, hremaining⟩ := hat.call config action hcall
    refine .inl ⟨.inl ⟨stage, record', hat', ?_, hkept hflag, ?_⟩, markSucceeds_call hcall⟩
    · rw [SlackWorld.replies, hmessages]
      exact hreplies
    · rwa [hremaining]

theorem stopped_exec {replies : List Message} (h : Stopped event replies w) (actions : List SlackAction) :
    Stopped event replies (Run.exec (SlackWorld.step config) w actions) ∧
      Run.Guarded (SlackWorld.step config) (SlackWorld.MarkSucceeds) w actions := by
  induction actions generalizing w with
  | nil => exact ⟨h, trivial⟩
  | cons action actions ih =>
    obtain ⟨hnext, hmark⟩ := stopped_step config h action
    obtain ⟨hstopped, hguarded⟩ := ih hnext
    exact ⟨hstopped, hmark, hguarded⟩

theorem unheeding_exec (h : Unheeding event w) (actions : List SlackAction) :
    Unheeding event (Run.exec (SlackWorld.step config) w actions) :=
  Run.exec_invariant (P := Unheeding event) (fun _ action hs => unheeding_step config hs action) h actions

theorem heeding_exec {replies : List Message} (h : Heeding event replies w) (actions : List SlackAction) :
    Heeding event replies (Run.exec (SlackWorld.step config) w actions) ∨
      (Stopped event replies (Run.exec (SlackWorld.step config) w actions) ∧
        Run.Guarded (SlackWorld.step config) (SlackWorld.MarkSucceeds) w actions) ∨
      Unheeding event (Run.exec (SlackWorld.step config) w actions) ∧
        ¬ Run.Guarded (SlackWorld.step config) (SlackWorld.MarkSucceeds) w actions := by
  -- the worker heeds the intent until it stops for it, or its mark fails to be written
  induction actions generalizing w with
  | nil => exact .inl h
  | cons action actions ih =>
    rcases heeding_step config h action with ⟨hheeding | hstopped, hmark⟩ | ⟨hun, hfails⟩
    · rcases ih hheeding with hon | ⟨hstopped, hguarded⟩ | ⟨hun, hfails⟩
      · exact .inl hon
      · exact .inr (.inl ⟨hstopped, hmark, hguarded⟩)
      · exact .inr (.inr ⟨hun, fun hguarded => hfails hguarded.2⟩)
    · obtain ⟨hend, hguarded⟩ := stopped_exec config hstopped actions
      exact .inr (.inl ⟨hend, hmark, hguarded⟩)
    · exact .inr (.inr ⟨unheeding_exec config hun actions, fun hguarded => hfails hguarded.1⟩)

end Events

/-! ### Dispatched tasks -/

structure TaskAt (request : DispatchRequest) (w : SlackWorld) (record : EventRecord) : Prop where
  worker : ∃ stage, w.worker = .dispatch request stage
  stored : w.store.records.get request.dispatchId = some record
  uncanceled : record.state ≠ .canceled

section Tasks
variable (config : SlackConfig) {w : SlackWorld} {request : DispatchRequest} {record : EventRecord}

theorem writeTask_at (h : TaskAt request w record) {mutation : Mutation} {input : WorkerInput} {stage : TaskStage}
    (hmutation : (mutation.apply record).state ≠ .canceled) :
    ∃ record', TaskAt request (w.writeTask request mutation input stage) record' := by
  unfold SlackWorld.writeTask
  rcases update_cases mutation input.now input.io h.stored with
    ⟨-, heq⟩ | ⟨-, heq⟩
  · rw [heq]
    exact ⟨_, ⟨stage, rfl⟩, Table.get_insert_self _ _ _, hmutation⟩
  · rw [heq]
    exact ⟨record, ⟨stage, rfl⟩, h.stored, h.uncanceled⟩

theorem TaskAt.stepTask (h : TaskAt request w record) {stage : TaskStage} (hworker : w.worker = .dispatch request stage)
    (input : WorkerInput) : ∃ record', TaskAt request (w.stepTask request input stage) record' := by
  have hquiet : ∀ (w' : SlackWorld) (stage' : TaskStage), w'.worker = .dispatch request stage' → w'.store = w.store →
      ∃ record', TaskAt request w' record' := by
    intro w' stage' hworker' hstore
    exact ⟨record, ⟨stage', hworker'⟩, hstore ▸ h.stored, h.uncanceled⟩
  cases stage with
  | begun =>
    rw [SlackWorld.stepTask]
    split
    · exact hquiet _ _ rfl rfl
    · exact hquiet _ _ rfl rfl
  | refused => exact writeTask_at h (by rintro ⟨⟩)
  | created workflowId => exact writeTask_at h (by rintro ⟨⟩)
  | testing workflowId =>
    rw [SlackWorld.stepTask]
    split_ifs
    · exact hquiet _ _ rfl rfl
    · exact hquiet _ _ rfl rfl
  | fetching workflowId =>
    rw [SlackWorld.stepTask]
    split
    · exact hquiet _ _ rfl rfl
    · split
      · exact hquiet _ _ rfl rfl
      · split_ifs
        · exact hquiet _ _ rfl rfl
        · exact hquiet _ _ rfl rfl
  | waiting workflowId => exact hquiet _ _ rfl rfl
  | replying outcome => exact hquiet _ _ rfl rfl
  | completing => exact writeTask_at h (by rintro ⟨⟩)
  | ended => exact hquiet _ _ hworker rfl

theorem TaskAt.step (h : TaskAt request w record) (action : SlackAction) :
    ∃ record', TaskAt request (w.step config action) record' := by
  obtain ⟨stage, hworker⟩ := h.worker
  cases action with
  | work input =>
    have hstep : w.step config (.work input) = w.stepTask request input stage := by
      rw [SlackWorld.step, hworker]
    rw [hstep]
    exact h.stepTask hworker input
  | cancel => exact ⟨record, ⟨stage, hworker⟩, h.stored, h.uncanceled⟩
  | record i now io =>
    have hid : w.eventId = request.dispatchId := by
      rw [SlackWorld.eventId, hworker]
    rw [SlackWorld.step]
    split
    · rw [SlackWorld.update, hid]
      rcases update_cases .requestCancel now io h.stored with
        ⟨-, heq⟩ | ⟨-, heq⟩
      · rw [heq]
        exact ⟨_, ⟨stage, hworker⟩, Table.get_insert_self _ _ _, h.uncanceled⟩
      · rw [heq]
        exact ⟨record, ⟨stage, hworker⟩, h.stored, h.uncanceled⟩
    · exact ⟨record, h⟩

theorem TaskAt.exec (h : TaskAt request w record) (actions : List SlackAction) :
    ∃ record', TaskAt request (Run.exec (SlackWorld.step config) w actions) record' := by
  induction actions generalizing w record with
  | nil => exact ⟨record, h⟩
  | cons action actions ih =>
    obtain ⟨record', hat⟩ := h.step config action
    exact ih hat

theorem TaskAt.eventRecord (h : TaskAt request w record) : w.eventRecord = some record := by
  obtain ⟨stage, hworker⟩ := h.worker
  rw [SlackWorld.eventRecord, SlackWorld.eventId, hworker]
  exact h.stored

end Tasks

/-! ### Answered requests -/

def Worker.eventId : Worker → Text
  | .event accepted _ => accepted.eventId
  | .dispatch request _ => request.dispatchId

def Worker.Begun : Worker → Prop
  | .event _ stage => stage = .begun
  | .dispatch _ stage => stage = .begun

/-- Where a call is answered `requested` while the worker waits between two polls, the worker ends with no further
reply of a model and a canceled record. -/
def HonoursCancels (config : SlackConfig) (w : SlackWorld) (actions : List SlackAction) : Prop :=
  ∀ first call now io later, actions = first ++ .record call now io :: later →
    (Run.exec (SlackWorld.step config) w first).waiting = true →
    (Run.exec (SlackWorld.step config) w first).cancels[call]? = some .checked →
    (Run.exec (SlackWorld.step config) w (first ++ [.record call now io])).cancels[call]? =
      some (.answered (.ok .requested)) →
    (Run.exec (SlackWorld.step config) w actions).ended = true →
    (Run.exec (SlackWorld.step config) w first).Honoured (Run.exec (SlackWorld.step config) w actions)

section Answers
variable {config : SlackConfig} {w : SlackWorld} {event : AcceptedEvent} {record : EventRecord}

theorem not_ended_of_heeding {replies : List Message} (h : Heeding event replies w) : w.ended = false := by
  obtain ⟨stage, record, hat, -, -, hstage⟩ := h
  rw [SlackWorld.ended, hat.worker]
  rcases hstage with ⟨⟨poll, rfl | rfl⟩, -⟩ | rfl
  · rfl
  · rfl
  · rfl

theorem honoured_of_stopped {w' : SlackWorld} (h : Stopped event w.replies w') : w.Honoured w' := by
  obtain ⟨record, hat, hreplies, hstate⟩ := h
  refine ⟨hreplies, ?_⟩
  rw [hat.eventRecord, Option.map_some, hstate]

theorem not_honoured_of_uncanceled {w w' : SlackWorld} (hrecord : w'.eventRecord = some record)
    (hstate : record.state ≠ .canceled) : ¬ w.Honoured w' := by
  rintro ⟨-, hcanceled⟩
  rw [hrecord, Option.map_some] at hcanceled
  exact hstate (Option.some.inj hcanceled)

theorem EventAt.honoured_waiting {poll : PollState} (h : EventAt event w (.waiting poll) record)
    {call : Nat} {now : Text}
    {io : AppendIo} {later : List SlackAction} (hcall : w.cancels[call]? = some .checked)
    (hrequested : (w.step config (.record call now io)).cancels[call]? = some (.answered (.ok .requested)))
    (hended : (Run.exec (SlackWorld.step config) w (.record call now io :: later)).ended = true) :
    w.Honoured (Run.exec (SlackWorld.step config) w (.record call now io :: later)) ↔
      (w.step config (.record call now io)).Stops config later := by
  obtain ⟨record₁, hat, hflag⟩ := h.recorded config hcall hrequested
  have hreplies : (w.step config (.record call now io)).replies = w.replies := by
    obtain ⟨-, -, -, -, hmessages, -⟩ := h.call config (.record call now io)
      (by rintro _ ⟨⟩)
    rw [SlackWorld.replies, hmessages, SlackWorld.replies]
  have hstate : record₁.state ≠ .canceled := by
    have hcreated : record₁.state = .workflowCreated := hat.fits
    rw [hcreated]
    rintro ⟨⟩
  rw [Run.exec_cons] at hended ⊢
  generalize w.step config (.record call now io) = w₁ at *
  have hstops : w₁.Stops config later ↔
      0 < w₁.remaining ∧ Run.Guarded (SlackWorld.step config) (SlackWorld.MarkSucceeds) w₁ later := by
    have hevent : w₁.forEvent = true := by
      rw [SlackWorld.forEvent, hat.worker]
    rw [SlackWorld.Stops, hevent]
    exact and_iff_right rfl
  rw [hstops]
  rcases Nat.eq_zero_or_pos w₁.remaining with hdeadline | hremaining
  · obtain ⟨stage, final, hend, hkept, -⟩ := unheeding_exec config ⟨_, _, hat, hstate, hdeadline⟩ later
    constructor
    · intro hhonoured
      exact absurd hhonoured (not_honoured_of_uncanceled hend.eventRecord hkept)
    · rintro ⟨hpos, -⟩
      exact absurd hdeadline (Nat.pos_iff_ne_zero.mp hpos)
  · have hheeding : Heeding event w.replies w₁ := ⟨_, _, hat, hreplies, hflag, .inl ⟨⟨poll, .inl rfl⟩, hremaining⟩⟩
    rcases heeding_exec config hheeding later with hon | ⟨hstopped, hguarded⟩ | ⟨hun, hfails⟩
    · rw [not_ended_of_heeding hon] at hended
      cases hended
    · exact ⟨fun _ => ⟨hremaining, hguarded⟩, fun _ => honoured_of_stopped hstopped⟩
    · obtain ⟨stage, final, hend, hkept, -⟩ := hun
      constructor
      · intro hhonoured
        exact absurd hhonoured (not_honoured_of_uncanceled hend.eventRecord hkept)
      · rintro ⟨-, hguarded⟩
        exact absurd hguarded hfails

theorem TaskAt.honoured_stops {request : DispatchRequest} (h : TaskAt request w record) {action : SlackAction}
    {later : List SlackAction} :
    w.Honoured (Run.exec (SlackWorld.step config) w (action :: later)) ↔
      (w.step config action).Stops config later := by
  obtain ⟨record₁, hat⟩ := h.step config action
  obtain ⟨final, hend⟩ := hat.exec config later
  obtain ⟨stage, hworker⟩ := hat.worker
  have hevent : (w.step config action).forEvent = false := by
    rw [SlackWorld.forEvent, hworker]
  rw [Run.exec_cons, SlackWorld.Stops, hevent]
  constructor
  · intro hhonoured
    exact absurd hhonoured (not_honoured_of_uncanceled hend.eventRecord hend.uncanceled)
  · rintro ⟨⟨⟩, -⟩

end Answers

/-- In every run from a claim on, a request that is answered while the worker waits is honoured if and only if the
worker is one of an event, a test for a request comes before the deadline, and the mark can be appended. -/
theorem honoured_iff (config : SlackConfig) {worker : Worker} (hbegun : worker.Begun)
    {store store' : EventStore} {claimedAt : Text} {claimIo : AppendIo}
    (hclaim : EventStore.claim store worker.eventId claimedAt claimIo = (.ok .claimed, store')) (remaining : Nat)
    {first later : List SlackAction} {call : Nat} {now : Text} {io : AppendIo}
    (hwaiting : (Run.exec (SlackWorld.step config) (.claimed store' remaining worker) first).waiting = true)
    (hcall : (Run.exec (SlackWorld.step config) (.claimed store' remaining worker) first).cancels[call]? =
      some .checked)
    (hrequested : (Run.exec (SlackWorld.step config) (.claimed store' remaining worker)
      (first ++ [.record call now io])).cancels[call]? = some (.answered (.ok .requested)))
    (hended : (Run.exec (SlackWorld.step config) (.claimed store' remaining worker)
      (first ++ .record call now io :: later)).ended = true) :
    (Run.exec (SlackWorld.step config) (.claimed store' remaining worker) first).Honoured
        (Run.exec (SlackWorld.step config) (.claimed store' remaining worker) (first ++ .record call now io :: later)) ↔
      (Run.exec (SlackWorld.step config) (.claimed store' remaining worker) (first ++ [.record call now io])).Stops
        config later := by
  rw [Run.exec_append] at hrequested hended ⊢
  rw [Run.exec_append]
  have hstored : store'.records.get worker.eventId = some (EventStore.freshRecord worker.eventId claimedAt) :=
    claim_eq_claimed hclaim
  cases worker with
  | event event stage =>
    cases hbegun
    have hstart : EventAt event (.claimed store' remaining (.event event .begun)) .begun
        (EventStore.freshRecord event.eventId claimedAt) := ⟨rfl, hstored, rfl, rfl⟩
    obtain ⟨stage, record, hat⟩ := hstart.exec config first
    obtain ⟨poll, rfl⟩ : ∃ poll, stage = .waiting poll := by
      rw [SlackWorld.waiting, hat.worker] at hwaiting
      cases stage with
      | waiting poll => exact ⟨poll, rfl⟩
      | _ => cases hwaiting
    exact hat.honoured_waiting hcall hrequested hended
  | dispatch request stage =>
    cases hbegun
    have hstart : TaskAt request (.claimed store' remaining (.dispatch request .begun))
        (EventStore.freshRecord request.dispatchId claimedAt) := ⟨⟨_, rfl⟩, hstored, by rintro ⟨⟩⟩
    obtain ⟨record, hat⟩ := hstart.exec config first
    exact hat.honoured_stops

/-! The same request, made to each worker. -/

def liveSlack : SlackConfig := ⟨"claude-fable-5".toList, "gpt-5.6-sol".toList, dryRunSlack.distinct, false⟩

def openWorkflow : WorkflowView where
  planId := "plan-1".toList
  assignments := ["claude-fable-5".toList, "gpt-5.6-sol".toList]
  stage := "drafting".toList
  submissions := []

def soloWorkflow : WorkflowView where
  planId := "plan-2".toList
  assignments := ["claude-fable-5".toList]
  stage := "drafting".toList
  submissions := []

def answeredWorkflow : WorkflowView where
  planId := "plan-2".toList
  assignments := ["claude-fable-5".toList]
  stage := "completed".toList
  submissions := [⟨"claude-fable-5".toList, "a late answer".toList⟩]

/-- The bridge answers with a workflow; Slack and the journal work. -/
def answeredInput (workflow : WorkflowView) : WorkerInput :=
  ⟨some workflow, true, wholeAppend, "2026-07-31T06:00:02Z".toList⟩

def slashCommand : DispatchRequest where
  dispatchId := "cmd.claude.V1".toList
  providerSlug := "claude".toList
  agentKey := "claude-fable-5".toList

def claimedCommand : SlackWorld := .claimed
  (EventStore.claim emptyStore slashCommand.dispatchId "2026-07-31T06:00:00Z".toList wholeAppend).2 3
  (.dispatch slashCommand .begun)

/-- Up to the pause after the first poll, and the first section of a call. -/
def untilWaiting (workflow : WorkflowView) (sections : Nat) : List SlackAction :=
  List.replicate sections (.work (answeredInput workflow)) ++ [.cancel]

def recordCall : SlackAction := .record 0 "2026-07-31T06:00:03Z".toList wholeAppend

theorem markSucceeds_of_all {w : SlackWorld} {input : WorkerInput} (h : (w.eventRecord.all fun record =>
    EventStore.appendOk { Mutation.markCanceled.apply record with updatedAt := input.now } input.io) = true) :
    w.MarkSucceeds (.work input) := by
  intro event record hworker hstored
  have hrecord : w.eventRecord = some record := by
    rw [SlackWorld.eventRecord, SlackWorld.eventId, hworker]
    exact hstored
  rw [hrecord] at h
  exact h

/-- The worker of an event stops. -/
theorem honoured_mention : (Run.exec (SlackWorld.step liveSlack) claimedMention (untilWaiting openWorkflow 8)).Honoured
    (Run.exec (SlackWorld.step liveSlack) claimedMention (untilWaiting openWorkflow 8 ++ recordCall ::
      [.work (answeredInput openWorkflow), .work (answeredInput openWorkflow),
        .work (answeredInput openWorkflow)])) := by
  have hclaim := claim_emptyStore mention.eventId "2026-07-31T06:00:00Z".toList (by decide)
    (by decide +kernel)
  have hiff := @honoured_iff liveSlack (.event mention .begun) rfl _ _ _ _ hclaim 3 (untilWaiting openWorkflow 8)
    [.work (answeredInput openWorkflow), .work (answeredInput openWorkflow), .work (answeredInput openWorkflow)] 0
    "2026-07-31T06:00:03Z".toList wholeAppend (by decide +kernel) (by decide +kernel) (by decide +kernel)
    (by decide +kernel)
  exact hiff.mpr ⟨by decide +kernel, by decide +kernel, markSucceeds_of_all (by decide +kernel),
    markSucceeds_of_all (by decide +kernel), markSucceeds_of_all (by decide +kernel), trivial⟩

/-- The worker of a task was told of the request, posts the reply of a later poll and completes. -/
theorem not_honoursCancels : ¬ HonoursCancels liveSlack claimedCommand (untilWaiting soloWorkflow 4 ++ recordCall ::
    List.replicate 5 (.work (answeredInput answeredWorkflow))) := by
  intro h
  have hhonoured := h (untilWaiting soloWorkflow 4) 0 "2026-07-31T06:00:03Z".toList wholeAppend _ rfl
    (by decide +kernel)
    (by decide +kernel) (by decide +kernel) (by decide +kernel)
  have hstate : (Run.exec (SlackWorld.step liveSlack) claimedCommand (untilWaiting soloWorkflow 4 ++ recordCall ::
      List.replicate 5 (.work (answeredInput answeredWorkflow)))).eventRecord.map
          EventRecord.state = some .completed := by
    decide +kernel
  cases hstate.symm.trans hhonoured.2

end AgentBridge.Slack
