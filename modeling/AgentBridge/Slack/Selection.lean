import AgentBridge.Slack.Cancellation

/-! Whether a run of the worker of an event follows the selection: each model that the event addresses, and no other,
is heard from once, and then the run is complete. -/

namespace AgentBridge.Slack

def SlackConfig.selectedKeys (config : SlackConfig) (selection : ModelSelection) : List Text :=
  (config.selectedModels selection).map ModelRoute.agentKey

def requestedAgents (payload : Json) : List Text :=
  (((payload.get "agent_keys".toList).bind Json.asArray).getD []).filterMap Json.asStr

theorem requestedAgents_payload (config : SlackConfig) (event : AcceptedEvent) :
    requestedAgents (workflowCreatePayload config event) = config.selectedKeys event.selection := by
  have hfield : (workflowCreatePayload config event).get "agent_keys".toList =
      some (.arr ((config.selectedKeys event.selection).map .str)) := rfl
  rw [requestedAgents, hfield]
  change ((config.selectedKeys event.selection).map Json.str).filterMap Json.asStr = _
  rw [List.filterMap_map]
  exact List.filterMap_some

theorem nodup_selectedKeys (config : SlackConfig) (selection : ModelSelection) :
    (config.selectedKeys selection).Nodup := by
  cases selection with
  | claude => exact List.nodup_singleton _
  | chatgpt => exact List.nodup_singleton _
  | both => exact List.nodup_cons.mpr ⟨fun hmem => config.distinct (List.mem_singleton.mp hmem), List.nodup_singleton _⟩

theorem length_selectedModels_le (config : SlackConfig) (selection : ModelSelection) :
    (config.selectedModels selection).length ≤ 2 := by
  cases selection <;> simp [SlackConfig.selectedModels]

/-- What the next section of the worker writes. -/
def EventStage.writes (config : SlackConfig) (event : AcceptedEvent) : EventStage → Option Mutation
  | .begun => if config.dryRun then some .complete else none
  | .created workflowId => some (.setWorkflow workflowId)
  | .failing [] posted => if posted = (config.selectedModels event.selection).length then some .complete else none
  | .failingMark model .. => some (.markPosted model.agentKey)
  | .canceling => some .markCanceled
  | .replying _ [] poll =>
    if poll.posted.size = (config.selectedModels event.selection).length then some .complete else none
  | .marking _ model .. => some (.markPosted model.agentKey)
  | .closingMark model .. => some (.markPosted model.agentKey)
  | .finishing => some .complete
  | _ => none

/-- A step of the worker in which Slack takes the message and the append succeeds, where there is one; no request to
cancel comes. -/
def SlackWorld.smooth (config : SlackConfig) (w : SlackWorld) : SlackAction → Bool
  | .work input => input.posted && match w.worker with
    | .event event stage => (stage.writes config event).all fun mutation =>
        (w.store.update event.eventId mutation input.now input.io).1.isOk
    | .dispatch .. => true
  | _ => false

/-- The bridge, if it answers, plans for the agents it was asked for. -/
def Obeys (config : SlackConfig) (event : AcceptedEvent) (input : WorkerInput) : Prop :=
  ∀ workflow ∈ input.answer, validEventId workflow.planId = true ∧
    workflow.assignments.Perm (requestedAgents (workflowCreatePayload config event))

def Heard (seen : List WorkflowSubmission) (model : ModelRoute) : Prop :=
  ∃ submission ∈ seen, submission.agentKey = model.agentKey

def Answered (messages : List Message) (seen : List WorkflowSubmission) (model : ModelRoute) : Prop :=
  ∃ submission ∈ seen, submission.agentKey = model.agentKey ∧
    .reply model.agentKey (slackText (labeledReply model submission.content)) ∈ messages

/-- What the end of a run is to be, by the selection of its event. -/
structure FollowsSelection (config : SlackConfig) (event : AcceptedEvent) (inputs : List WorkerInput) (w : SlackWorld) :
    Prop where
  accepted : config.dryRun = false → ∀ input ∈ inputs.head?, ∀ workflow ∈ input.answer,
    validateWorkflowResponse config workflow = .ok ()
  ended : w.worker = .event event .ended
  sent : (w.messages.map Message.agentKey).Perm (config.selectedKeys event.selection)
  answered : ∀ model ∈ config.selectedModels event.selection, Heard w.seen model → Answered w.messages w.seen model
  completed : ∃ record, w.eventRecord = some record ∧ record.state = .completed ∧
    ∀ agentKey, agentKey ∈ record.postedAgents ↔ agentKey ∈ config.selectedKeys event.selection

/-! ### The end of a run -/

/-- Bounds the steps to the end. -/
def EventStage.cost (remaining : Nat) : EventStage → Nat
  | .begun => 8 * remaining + 10
  | .created _ => 8 * remaining + 9
  | .failing left _ => 2 * left.length + 1
  | .failingMark _ left _ => 2 * left.length + 2
  | .correlated _ => 8 * remaining + 8
  | .testing _ => 8 * remaining + 7
  | .canceling => 1
  | .fetching _ => 8 * remaining + 14
  | .replying _ left _ => 8 * remaining + 2 * left.length + 9
  | .marking _ _ left _ => 8 * remaining + 2 * left.length + 10
  | .waiting _ => 8 * remaining + 8
  | .closing left .. => 2 * left.length + 2
  | .closingMark _ left .. => 2 * left.length + 3
  | .finishing => 1
  | .ended => 0

section Ends
variable {config : SlackConfig} {w : SlackWorld} {event : AcceptedEvent} {stage : EventStage} {input : WorkerInput}

/-- The worker is still at the event, and nearer to its end than `cost` steps. -/
def Nearer (event : AcceptedEvent) (cost : Nat) (w : SlackWorld) : Prop :=
  ∃ stage, w.worker = .event event stage ∧ stage.cost w.remaining < cost

theorem nearer_writeEvent {mutation : Mutation} {next : Bool → EventStage} {cost : Nat}
    (h : ∀ ok, (next ok).cost w.remaining < cost) : Nearer event cost (w.writeEvent event mutation input next) :=
  ⟨_, rfl, h _⟩

theorem nearer_post {message : Message} {next : Bool → EventStage} {cost : Nat}
    (h : ∀ ok, (next ok).cost w.remaining < cost) : Nearer event cost (w.post event message input next) :=
  ⟨_, rfl, h _⟩

theorem nearer_goEvent {cost : Nat} (h : stage.cost w.remaining < cost) : Nearer event cost (w.goEvent event stage) :=
  ⟨stage, rfl, h⟩

variable (config w event input) in
theorem nearer_stepEvent (hstage : stage ≠ .ended) :
    Nearer event (stage.cost w.remaining) (w.stepEvent config event input stage) := by
  have hmodels := length_selectedModels_le config event.selection
  -- every step leaves its stage for one that costs less, and a round of polling uses up one of `remaining`
  cases stage with
  | begun =>
    rw [SlackWorld.stepEvent]
    split_ifs
    · exact nearer_writeEvent fun _ => by simp only [EventStage.cost]; omega
    · split
      · exact nearer_goEvent (by simp only [EventStage.cost]; omega)
      · exact nearer_goEvent (by simp only [EventStage.cost]; omega)
  | created workflowId =>
    exact nearer_writeEvent fun ok => by cases ok <;> simp only [EventStage.cost, reduceIte] <;> grind
  | failing left posted =>
    cases left with
    | nil =>
      rw [SlackWorld.stepEvent]
      split_ifs
      · exact nearer_writeEvent fun _ => by simp only [EventStage.cost]; omega
      · exact nearer_goEvent (by simp only [EventStage.cost]; omega)
    | cons model left =>
      exact nearer_post fun ok => by cases ok <;> grind [EventStage.cost]
  | failingMark model left posted =>
    exact nearer_writeEvent fun ok => by cases ok <;> simp [EventStage.cost]
  | correlated workflowId => exact nearer_goEvent (by simp only [EventStage.cost]; omega)
  | testing poll =>
    rw [SlackWorld.stepEvent]
    split_ifs with hdeadline hasked
    · exact nearer_goEvent (by simp only [EventStage.cost]; omega)
    · exact ⟨.canceling, rfl, by simp only [EventStage.cost]; omega⟩
    · exact ⟨.fetching poll, rfl, by simp only [EventStage.cost]; omega⟩
  | canceling => exact nearer_writeEvent fun _ => by simp only [EventStage.cost]; omega
  | fetching poll =>
    rw [SlackWorld.stepEvent]
    split
    · exact nearer_goEvent (by simp only [EventStage.cost]; omega)
    · exact ⟨_, rfl, by simp only [EventStage.cost, SlackWorld.goEvent]; omega⟩
  | replying workflow left poll =>
    cases left with
    | nil =>
      rw [SlackWorld.stepEvent]
      split_ifs
      · exact nearer_writeEvent fun _ => by simp only [EventStage.cost]; omega
      · exact nearer_goEvent (by simp only [EventStage.cost]; omega)
      · exact nearer_goEvent (by simp only [EventStage.cost, List.length_nil]; omega)
    | cons model left =>
      rw [SlackWorld.stepEvent]
      split_ifs
      · exact nearer_goEvent (by simp only [EventStage.cost, List.length_cons]; omega)
      · split
        · exact nearer_goEvent (by simp only [EventStage.cost, List.length_cons]; omega)
        · exact nearer_post fun ok => by cases ok <;> grind [EventStage.cost]
  | marking workflow model left poll =>
    exact nearer_writeEvent fun ok => by cases ok <;> simp [EventStage.cost]
  | waiting poll => exact nearer_goEvent (by simp only [EventStage.cost]; omega)
  | closing left posted terminal =>
    cases left with
    | nil =>
      rw [SlackWorld.stepEvent]
      split_ifs
      · exact nearer_goEvent (by simp only [EventStage.cost, List.length_nil]; omega)
      · exact nearer_goEvent (by simp only [EventStage.cost, List.length_nil]; omega)
    | cons model left =>
      rw [SlackWorld.stepEvent]
      split_ifs
      · exact nearer_goEvent (by simp only [EventStage.cost, List.length_cons]; omega)
      · exact nearer_post fun ok => by cases ok <;> grind [EventStage.cost]
  | closingMark model left posted terminal =>
    exact nearer_writeEvent fun ok => by cases ok <;> simp [EventStage.cost]
  | finishing => exact nearer_writeEvent fun _ => by simp only [EventStage.cost]; omega
  | ended => exact absurd rfl hstage

theorem worker_ended {inputs : List WorkerInput} (hworker : w.worker = .event event stage)
    (hcost : stage.cost w.remaining ≤ inputs.length) :
    (Run.exec (SlackWorld.step config) w (inputs.map .work)).worker = .event event .ended := by
  -- the cost falls with every step, and only the ended stage costs nothing
  induction inputs generalizing w stage with
  | nil =>
    cases stage with
    | ended => exact hworker
    | _ => simp [EventStage.cost] at hcost
  | cons input inputs ih =>
    have hstep : w.step config (.work input) = w.stepEvent config event input stage := by
      rw [SlackWorld.step, hworker]
    rw [List.map_cons, Run.exec_cons, hstep]
    by_cases hstage : stage = .ended
    · subst hstage
      exact ih hworker (Nat.zero_le _)
    · obtain ⟨stage', hworker', hless⟩ := nearer_stepEvent config w event input hstage
      apply ih hworker'
      rw [List.length_cons] at hcost
      omega

end Ends

/-! ### What is sent -/

/-- Each message is to another agent, and the agents marked are those of the messages, but for one to be marked next. -/
structure Tally (messages : List Message) (record : EventRecord) (owed : List Text) : Prop where
  once : (messages.map Message.agentKey).Nodup
  marked : ∀ agentKey, agentKey ∈ messages.map Message.agentKey ↔ agentKey ∈ owed ∨ agentKey ∈ record.postedAgents

/-- The worker polls, and has the submissions of `posted` posted and marked. -/
structure Polls (config : SlackConfig) (event : AcceptedEvent) (messages : List Message)
    (seen : List WorkflowSubmission)
    (record : EventRecord) (posted : KeySet Text) (owed : List ModelRoute) : Prop where
  paired : event.selection = .both
  tally : Tally messages record (owed.map ModelRoute.agentKey)
  agrees : ∀ agentKey, agentKey ∈ record.postedAgents ↔ agentKey ∈ posted
  within : ∀ agentKey ∈ posted, agentKey ∈ config.selectedKeys event.selection
  answered : ∀ model ∈ config.selectedModels event.selection, model.agentKey ∈ posted → Answered messages seen model

/-- The worker tells the models in turn, but for those of `posted`, that there is no reply. -/
structure Tells (config : SlackConfig) (event : AcceptedEvent) (messages : List Message)
    (seen : List WorkflowSubmission)
    (record : EventRecord) (posted : KeySet Text) (owed left : List ModelRoute) : Prop where
  tally : Tally messages record (owed.map ModelRoute.agentKey)
  order : ∃ told, config.selectedModels event.selection = told ++ owed ++ left ∧
    ∀ agentKey, agentKey ∈ record.postedAgents ↔ agentKey ∈ posted ∨ agentKey ∈ told.map ModelRoute.agentKey
  within : ∀ agentKey ∈ posted, agentKey ∈ config.selectedKeys event.selection
  answered : ∀ model ∈ config.selectedModels event.selection, Heard seen model → Answered messages seen model

/-- The worker goes through what a poll got, with the models of `left` to come. -/
structure Replies (config : SlackConfig) (event : AcceptedEvent) (messages : List Message)
    (seen : List WorkflowSubmission)
    (record : EventRecord) (posted : KeySet Text) (workflow : WorkflowView) (owed left : List ModelRoute) : Prop where
  polls : Polls config event messages seen record posted owed
  heard : ∀ model ∈ config.selectedModels event.selection, Heard seen model →
    model.agentKey ∈ posted ∨ model ∈ owed ∨ model ∈ left ∧ Heard workflow.submissions model
  held : ∀ submission ∈ workflow.submissions, submission ∈ seen
  sent : ∀ model ∈ owed, Answered messages seen model
  rest : ∀ model ∈ owed ++ left, model ∈ config.selectedModels event.selection

/-- Every model was heard from. -/
structure Served (config : SlackConfig) (event : AcceptedEvent) (messages : List Message)
    (seen : List WorkflowSubmission)
    (record : EventRecord) : Prop where
  tally : Tally messages record []
  all : ∀ agentKey, agentKey ∈ record.postedAgents ↔ agentKey ∈ config.selectedKeys event.selection
  answered : ∀ model ∈ config.selectedModels event.selection, Heard seen model → Answered messages seen model

/-- Nothing was done for the event yet. -/
structure Fresh (messages : List Message) (seen : List WorkflowSubmission) (record : EventRecord) : Prop where
  unsent : messages = []
  unseen : seen = []
  unmarked : ∀ agentKey, agentKey ∉ record.postedAgents

section Sends
variable {config : SlackConfig} {event : AcceptedEvent} {messages : List Message} {seen : List WorkflowSubmission}
  {record : EventRecord} {posted : KeySet Text} {model : ModelRoute} {left : List ModelRoute} {message : Message}
  {now : Text}

theorem Answered.mono {messages' : List Message} {seen' : List WorkflowSubmission} (h : Answered messages seen model)
    (hmessages : ∀ m ∈ messages, m ∈ messages') (hseen : ∀ s ∈ seen, s ∈ seen') : Answered messages' seen' model := by
  obtain ⟨submission, hmem, hkey, hreply⟩ := h
  exact ⟨submission, hseen _ hmem, hkey, hmessages _ hreply⟩

theorem Tally.send (h : Tally messages record []) (hnew : message.agentKey ∉ record.postedAgents) :
    Tally (messages ++ [message]) record [message.agentKey] := by
  have hunsent : message.agentKey ∉ messages.map Message.agentKey := by
    rw [h.marked]
    rintro (hmem | hmem)
    · exact List.not_mem_nil hmem
    · exact hnew hmem
  refine ⟨?_, ?_⟩
  · rw [List.map_append, List.map_singleton, List.nodup_append_comm, List.singleton_append]
    exact List.nodup_cons.mpr ⟨hunsent, h.once⟩
  · intro agentKey
    rw [List.map_append, List.map_singleton, List.mem_append, h.marked agentKey]
    simp only [List.not_mem_nil, false_or]
    exact or_comm

theorem Tally.mark {agentKey : Text} (h : Tally messages record [agentKey]) :
    Tally messages { (Mutation.markPosted agentKey).apply record with updatedAt := now } [] := by
  refine ⟨h.once, ?_⟩
  intro other
  rw [h.marked other, List.mem_singleton]
  simp only [List.not_mem_nil, false_or]
  exact KeySet.mem_insert.symm

theorem Tells.send (h : Tells config event messages seen record posted [] (model :: left))
    (hmessage : message.agentKey = model.agentKey) (hposted : model.agentKey ∉ posted) :
    Tells config event (messages ++ [message]) seen record posted [model] left := by
  obtain ⟨told, horder, hmarked⟩ := h.order
  have hnew : message.agentKey ∉ record.postedAgents := by
    rw [hmessage, hmarked]
    rintro (hmem | hmem)
    · exact hposted hmem
    · have hnodup := nodup_selectedKeys config event.selection
      rw [SlackConfig.selectedKeys, horder, List.append_nil, List.map_append, List.map_cons] at hnodup
      exact (List.nodup_append.mp hnodup).2.2 _ hmem _ List.mem_cons_self rfl
  refine ⟨?_, ⟨told, ?_, hmarked⟩, h.within, ?_⟩
  · rw [List.map_singleton, ← hmessage]
    exact h.tally.send hnew
  · rw [horder, List.append_nil, List.append_assoc, List.singleton_append]
  · intro model' hmodel hheard
    exact (h.answered model' hmodel hheard).mono (fun _ hmem => List.mem_append_left _ hmem) fun _ hmem => hmem

theorem Tells.mark (h : Tells config event messages seen record posted [model] left) :
    Tells config event messages seen { (Mutation.markPosted model.agentKey).apply record with updatedAt := now } posted
      [] left := by
  obtain ⟨told, horder, hmarked⟩ := h.order
  refine ⟨h.tally.mark, ⟨told ++ [model], ?_, ?_⟩, h.within, h.answered⟩
  · rw [horder, List.append_nil]
  · intro agentKey
    rw [List.map_append, List.map_singleton, List.mem_append, List.mem_singleton, ← or_assoc,
      ← hmarked agentKey, or_comm]
    exact KeySet.mem_insert

theorem Tells.skip (h : Tells config event messages seen record posted [] (model :: left))
    (hposted : model.agentKey ∈ posted) : Tells config event messages seen record posted [] left := by
  obtain ⟨told, horder, hmarked⟩ := h.order
  refine ⟨h.tally, ⟨told ++ [model], ?_, ?_⟩, h.within, h.answered⟩
  · rw [horder, List.append_nil, List.append_nil, List.append_assoc, List.singleton_append]
  · intro agentKey
    rw [hmarked agentKey, List.map_append, List.map_singleton, List.mem_append, List.mem_singleton]
    constructor
    · rintro (hmem | hmem)
      · exact .inl hmem
      · exact .inr (.inl hmem)
    · rintro (hmem | hmem | rfl)
      · exact .inl hmem
      · exact .inr hmem
      · exact .inl hposted

theorem Tells.served (h : Tells config event messages seen record posted [] []) :
    Served config event messages seen record := by
  obtain ⟨told, horder, hmarked⟩ := h.order
  refine ⟨h.tally, ?_, h.answered⟩
  intro agentKey
  rw [List.append_nil, List.append_nil] at horder
  rw [hmarked agentKey, SlackConfig.selectedKeys, horder, or_iff_right_of_imp]
  intro hmem
  have hwithin := h.within agentKey hmem
  rwa [SlackConfig.selectedKeys, horder] at hwithin

theorem Fresh.tells (h : Fresh messages seen record) :
    Tells config event messages seen record .empty [] (config.selectedModels event.selection) := by
  refine ⟨⟨?_, ?_⟩, ⟨[], rfl, ?_⟩, ?_, ?_⟩
  · rw [h.unsent]
    exact List.nodup_nil
  · intro agentKey
    rw [h.unsent, List.map_nil, List.map_nil]
    simp only [List.not_mem_nil, false_or, false_iff]
    exact h.unmarked agentKey
  · intro agentKey
    constructor
    · exact fun hmem => absurd hmem (h.unmarked agentKey)
    · rintro (hmem | hmem)
      · exact absurd hmem KeySet.not_mem_empty
      · exact absurd hmem List.not_mem_nil
  · exact fun agentKey hmem => absurd hmem KeySet.not_mem_empty
  · rintro model - ⟨submission, hmem, -⟩
    rw [h.unseen] at hmem
    exact absurd hmem List.not_mem_nil

theorem Polls.tells (h : Polls config event messages seen record posted [])
    (hheard : ∀ model ∈ config.selectedModels event.selection, Heard seen model → model.agentKey ∈ posted) :
    Tells config event messages seen record posted [] (config.selectedModels event.selection) := by
  refine ⟨h.tally, ⟨[], rfl, ?_⟩, h.within, ?_⟩
  · intro agentKey
    rw [h.agrees agentKey, List.map_nil]
    simp only [List.not_mem_nil, or_false]
  · intro model hmodel hseen
    exact h.answered model hmodel (hheard model hmodel hseen)

theorem Polls.served (h : Polls config event messages seen record posted [])
    (hsize : posted.size = (config.selectedModels event.selection).length)
    (hheard : ∀ model ∈ config.selectedModels event.selection, Heard seen model → model.agentKey ∈ posted) :
    Served config event messages seen record := by
  have hperm : posted.keys.Perm (config.selectedKeys event.selection) := by
    apply (List.subperm_of_subset posted.nodup h.within).perm_of_length_le
    rw [SlackConfig.selectedKeys, List.length_map, ← hsize]
    exact Nat.le_refl _
  refine ⟨h.tally, ?_, fun model hmodel hseen => h.answered model hmodel (hheard model hmodel hseen)⟩
  intro agentKey
  rw [h.agrees agentKey]
  exact hperm.mem_iff

theorem Fresh.polls (h : Fresh messages seen record) (hboth : event.selection = .both) :
    Polls config event messages seen record record.postedAgents [] := by
  refine ⟨hboth, ?_, fun _ => Iff.rfl, fun agentKey hmem => absurd hmem (h.unmarked agentKey),
    fun model _ hmem => absurd hmem (h.unmarked _)⟩
  exact (@Fresh.tells config event _ _ _ h).tally

theorem Replies.start {workflow : WorkflowView} (h : Polls config event messages seen record posted [])
    (hheard : ∀ model ∈ config.selectedModels event.selection, Heard seen model → model.agentKey ∈ posted) :
    Replies config event messages (seen ++ workflow.submissions) record posted workflow []
      (config.selectedModels event.selection) := by
  refine ⟨⟨h.paired, h.tally, h.agrees, h.within, ?_⟩, ?_, fun _ hmem => List.mem_append_right _ hmem,
    List.forall_mem_nil _, fun _ hmem => hmem⟩
  · intro model hmodel hposted
    exact (h.answered model hmodel hposted).mono (fun _ hmem => hmem) fun _ hmem => List.mem_append_left _ hmem
  · rintro model hmodel ⟨submission, hmem, hkey⟩
    rcases List.mem_append.mp hmem with hold | hnew
    · exact .inl (hheard model hmodel ⟨submission, hold, hkey⟩)
    · exact .inr (.inr ⟨hmodel, submission, hnew, hkey⟩)

theorem Replies.skip {workflow : WorkflowView} (h : Replies config event messages seen record posted workflow []
    (model :: left)) (hskip : model.agentKey ∈ posted ∨ ¬ Heard workflow.submissions model) :
    Replies config event messages seen record posted workflow [] left := by
  refine ⟨h.polls, ?_, h.held, h.sent, fun other hmem => h.rest other (List.mem_cons_of_mem _ hmem)⟩
  intro other hother hseen
  rcases h.heard other hother hseen with hposted | howed | ⟨hleft, hworkflow⟩
  · exact .inl hposted
  · exact absurd howed List.not_mem_nil
  · rcases List.mem_cons.mp hleft with rfl | hrest
    · rcases hskip with hposted | hunheard
      · exact .inl hposted
      · exact absurd hworkflow hunheard
    · exact .inr (.inr ⟨hrest, hworkflow⟩)

theorem Replies.send {workflow : WorkflowView} {submission : WorkflowSubmission}
    (h : Replies config event messages seen record posted workflow [] (model :: left))
    (hposted : model.agentKey ∉ posted) (hmem : submission ∈ workflow.submissions)
    (hkey : submission.agentKey = model.agentKey) :
    Replies config event (messages ++ [.reply model.agentKey (slackText (labeledReply model submission.content))]) seen
      record posted workflow [model] left := by
  have hmono : ∀ m ∈ messages,
      m ∈ messages ++ [.reply model.agentKey (slackText (labeledReply model submission.content))] :=
    fun _ hm => List.mem_append_left _ hm
  refine ⟨⟨h.polls.paired, ?_, h.polls.agrees, h.polls.within, ?_⟩, ?_, h.held, ?_, h.rest⟩
  · apply h.polls.tally.send
    rw [h.polls.agrees]
    exact hposted
  · intro other hother hmarked
    exact (h.polls.answered other hother hmarked).mono hmono fun _ hs => hs
  · intro other hother hseen
    rcases h.heard other hother hseen with hmarked | howed | ⟨hleft, hworkflow⟩
    · exact .inl hmarked
    · exact absurd howed List.not_mem_nil
    · rcases List.mem_cons.mp hleft with rfl | hrest
      · exact .inr (.inl (List.mem_singleton_self _))
      · exact .inr (.inr ⟨hrest, hworkflow⟩)
  · intro other hother
    cases List.mem_singleton.mp hother
    exact ⟨submission, h.held submission hmem, hkey, List.mem_append_right _ (List.mem_singleton_self _)⟩

theorem Replies.mark {workflow : WorkflowView}
    (h : Replies config event messages seen record posted workflow [model] left) :
    Replies config event messages seen { (Mutation.markPosted model.agentKey).apply record with updatedAt := now }
      (posted.insert model.agentKey) workflow [] left := by
  have hmodel : model ∈ config.selectedModels event.selection := h.rest model List.mem_cons_self
  have hsent := h.sent model (List.mem_singleton_self _)
  refine ⟨⟨h.polls.paired, h.polls.tally.mark, ?_, ?_, ?_⟩, ?_, h.held, List.forall_mem_nil _,
    fun other hmem => h.rest other (List.mem_cons_of_mem _ hmem)⟩
  · intro agentKey
    rw [KeySet.mem_insert, ← h.polls.agrees agentKey]
    exact KeySet.mem_insert
  · intro agentKey hmem
    rcases KeySet.mem_insert.mp hmem with rfl | hold
    · exact List.mem_map_of_mem hmodel
    · exact h.polls.within agentKey hold
  · intro other hother hmem
    rcases KeySet.mem_insert.mp hmem with heq | hold
    · have hsame : other = model := by
        have hnodup := nodup_selectedKeys config event.selection
        exact List.inj_on_of_nodup_map hnodup hother hmodel heq
      rw [hsame]
      exact hsent
    · exact h.polls.answered other hother hold
  · intro other hother hseen
    rcases h.heard other hother hseen with hmarked | howed | hrest
    · exact .inl (KeySet.mem_insert.mpr (.inr hmarked))
    · cases List.mem_singleton.mp howed
      exact .inl (KeySet.mem_insert.mpr (.inl rfl))
    · exact .inr (.inr hrest)

theorem Replies.heard_all {workflow : WorkflowView}
    (h : Replies config event messages seen record posted workflow [] []) :
    ∀ model ∈ config.selectedModels event.selection, Heard seen model → model.agentKey ∈ posted := by
  intro model hmodel hseen
  rcases h.heard model hmodel hseen with hposted | howed | ⟨hleft, -⟩
  · exact hposted
  · exact absurd howed List.not_mem_nil
  · exact absurd hleft List.not_mem_nil

end Sends
/-! ### Runs -/

def EventStage.serves (config : SlackConfig) (event : AcceptedEvent) (messages : List Message)
    (seen : List WorkflowSubmission) (record : EventRecord) : EventStage → Prop
  | .begun => event.selection = .both ∧ Fresh messages seen record
  | .created _ => event.selection = .both ∧ Fresh messages seen record
  | .failing left posted => Tells config event messages seen record .empty [] left ∧
      posted + left.length = (config.selectedModels event.selection).length
  | .failingMark model left posted => Tells config event messages seen record .empty [model] left ∧
      posted + 1 + left.length = (config.selectedModels event.selection).length
  | .correlated _ => event.selection = .both ∧ Fresh messages seen record
  | .testing poll => Polls config event messages seen record poll.posted [] ∧
      ∀ model ∈ config.selectedModels event.selection, Heard seen model → model.agentKey ∈ poll.posted
  | .canceling => False
  | .fetching poll => Polls config event messages seen record poll.posted [] ∧
      ∀ model ∈ config.selectedModels event.selection, Heard seen model → model.agentKey ∈ poll.posted
  | .replying workflow left poll => Replies config event messages seen record poll.posted workflow [] left
  | .marking workflow model left poll => Replies config event messages seen record poll.posted workflow [model] left
  | .waiting poll => Polls config event messages seen record poll.posted [] ∧
      ∀ model ∈ config.selectedModels event.selection, Heard seen model → model.agentKey ∈ poll.posted
  | .closing left posted _ => event.selection = .both ∧ Tells config event messages seen record posted [] left
  | .closingMark model left posted _ =>
    event.selection = .both ∧ Tells config event messages seen record posted [model] left
  | .finishing => Served config event messages seen record
  | .ended => record.state = .completed ∧ Served config event messages seen record

/-- A worker of an event with its record, and what it has sent so far. -/
structure Serving (config : SlackConfig) (event : AcceptedEvent) (w : SlackWorld) (stage : EventStage)
    (record : EventRecord) : Prop where
  worker : w.worker = .event event stage
  stored : w.store.records.get event.eventId = some record
  unasked : record.cancelRequested = false
  serves : stage.serves config event w.messages w.seen record

section Runs
variable {config : SlackConfig} {event : AcceptedEvent} {w : SlackWorld} {stage : EventStage} {record : EventRecord}
  {input : WorkerInput}

theorem Served.complete {messages : List Message} {seen : List WorkflowSubmission} {now : Text}
    (h : Served config event messages seen record) :
    Served config event messages seen { Mutation.complete.apply record with updatedAt := now } :=
  ⟨⟨h.tally.once, h.tally.marked⟩, h.all, h.answered⟩

theorem validateWorkflowResponse_of_obeys {workflow : WorkflowView} (hboth : event.selection = .both)
    (hobeys : Obeys config event input) (hanswer : input.answer = some workflow) :
    validateWorkflowResponse config workflow = .ok () := by
  obtain ⟨hplan, hassigned⟩ := hobeys workflow hanswer
  have hkeys : requestedAgents (workflowCreatePayload config event) =
    [config.claudeAgentKey, config.openaiAgentKey] := by
    rw [requestedAgents_payload, hboth]
    rfl
  rw [hkeys] at hassigned
  have hsame : KeySet.SameKeys (.ofList workflow.assignments)
      (.ofList [config.claudeAgentKey, config.openaiAgentKey]) := by
    rw [KeySet.sameKeys_iff]
    intro agentKey
    rw [KeySet.mem_ofList, KeySet.mem_ofList]
    exact hassigned.mem_iff
  have hlength : workflow.assignments.length = 2 := hassigned.length_eq
  unfold validateWorkflowResponse
  apply Except.bind_eq_ok.mpr
  refine ⟨(), Except.refuseIf_eq_ok.mpr ?_, Except.refuseIf_eq_ok.mpr ?_⟩
  · rw [hplan]
    exact Bool.false_ne_true
  · rintro (hother | hcount)
    · exact hother hsame
    · exact hcount hlength

theorem smooth_work (h : Serving config event w stage record) (hsmooth : w.smooth config (.work input) = true) :
    input.posted = true ∧ ∀ mutation, stage.writes config event = some mutation →
      (w.store.update event.eventId mutation input.now input.io).1.isOk = true := by
  rw [SlackWorld.smooth, h.worker, Bool.and_eq_true] at hsmooth
  refine ⟨hsmooth.1, ?_⟩
  intro mutation hwrites
  have hall := hsmooth.2
  dsimp only at hall
  rw [hwrites] at hall
  exact hall

theorem Serving.go {next : EventStage} (h : Serving config event w stage record)
    (hserves : next.serves config event w.messages w.seen record) :
    ∃ stage' record', Serving config event (w.goEvent event next) stage' record' :=
  ⟨next, record, rfl, h.stored, h.unasked, hserves⟩

theorem Serving.write {mutation : Mutation} {next : Bool → EventStage} (h : Serving config event w stage record)
    (hok : (w.store.update event.eventId mutation input.now input.io).1.isOk = true)
    (hunasked : (mutation.apply record).cancelRequested = false)
    (hserves : (next true).serves config event w.messages w.seen
      { mutation.apply record with updatedAt := input.now }) :
    ∃ stage' record', Serving config event (w.writeEvent event mutation input next) stage' record' := by
  unfold SlackWorld.writeEvent
  rw [hok]
  rcases update_cases mutation input.now input.io h.stored with ⟨-, heq⟩ | ⟨-, heq⟩
  · rw [heq]
    exact ⟨_, _, rfl, Table.get_insert_self _ _ _, hunasked, hserves⟩
  · rw [heq] at hok
    cases hok

theorem Serving.post {message : Message} {next : Bool → EventStage} (h : Serving config event w stage record)
    (hposted : input.posted = true)
    (hserves : (next true).serves config event (w.messages ++ [message]) w.seen record) :
    ∃ stage' record', Serving config event (w.post event message input next) stage' record' := by
  unfold SlackWorld.post
  rw [hposted, if_pos rfl]
  exact ⟨_, record, rfl, h.stored, h.unasked, hserves⟩

theorem Serving.failing {left : List ModelRoute} {posted : Nat}
    (h : Serving config event w (.failing left posted) record)
    (hsmooth : w.smooth config (.work input) = true) :
    ∃ stage' record', Serving config event (w.stepEvent config event input (.failing left posted)) stage' record' := by
  obtain ⟨hposted, hwrites⟩ := smooth_work h hsmooth
  obtain ⟨htells, hcount⟩ := h.serves
  cases left with
  | nil =>
    have hall : posted = (config.selectedModels event.selection).length := hcount
    rw [SlackWorld.stepEvent, if_pos hall]
    exact h.write (hwrites _ (if_pos hall)) h.unasked ⟨rfl, htells.served.complete⟩
  | cons model left =>
    rw [SlackWorld.stepEvent]
    refine h.post hposted ⟨htells.send rfl KeySet.not_mem_empty, ?_⟩
    rw [List.length_cons] at hcount
    omega

theorem Serving.correlated {workflowId : Text} (h : Serving config event w (.correlated workflowId) record) :
    ∃ stage' record',
      Serving config event (w.stepEvent config event input (.correlated workflowId)) stage' record' := by
  have hfresh : event.selection = .both ∧ Fresh w.messages w.seen record := h.serves
  have hposted : ((w.store.snapshot event.eventId).map EventRecord.postedAgents).getD .empty =
      record.postedAgents := by
    rw [EventStore.snapshot, h.stored]
    rfl
  rw [SlackWorld.stepEvent, hposted]
  refine h.go ⟨hfresh.2.polls hfresh.1, ?_⟩
  rintro model - ⟨submission, hmem, -⟩
  rw [hfresh.2.unseen] at hmem
  exact absurd hmem List.not_mem_nil

theorem Serving.testing {poll : PollState} (h : Serving config event w (.testing poll) record) :
    ∃ stage' record', Serving config event (w.stepEvent config event input (.testing poll)) stage' record' := by
  obtain ⟨hpolls, hheard⟩ := h.serves
  have hasked : w.store.cancelRequested event.eventId = false := by
    rw [EventStore.cancelRequested, EventStore.snapshot, h.stored]
    exact h.unasked
  rw [SlackWorld.stepEvent, hasked, if_neg Bool.false_ne_true]
  split_ifs with hdeadline
  · exact h.go ⟨hpolls.paired, hpolls.tells hheard⟩
  · exact ⟨.fetching poll, record, rfl, h.stored, h.unasked, hpolls, hheard⟩

theorem Serving.replying {workflow : WorkflowView} {left : List ModelRoute} {poll : PollState}
    (h : Serving config event w (.replying workflow left poll) record)
    (hsmooth : w.smooth config (.work input) = true) :
    ∃ stage' record',
      Serving config event (w.stepEvent config event input (.replying workflow left poll)) stage' record' := by
  obtain ⟨hposted, hwrites⟩ := smooth_work h hsmooth
  have hreplies : Replies config event w.messages w.seen record poll.posted workflow [] left := h.serves
  cases left with
  | nil =>
    rw [SlackWorld.stepEvent]
    split_ifs with hall hterminal
    · exact h.write (hwrites _ (if_pos hall)) h.unasked
        ⟨rfl, (hreplies.polls.served hall hreplies.heard_all).complete⟩
    · exact h.go ⟨hreplies.polls.paired, hreplies.polls.tells hreplies.heard_all⟩
    · exact h.go ⟨hreplies.polls, hreplies.heard_all⟩
  | cons model left =>
    rw [SlackWorld.stepEvent]
    split_ifs with hmarked
    · exact h.go (hreplies.skip (.inl hmarked))
    · cases hfind : workflow.submissions.find? fun submission => submission.agentKey = model.agentKey with
      | none =>
        dsimp only
        refine h.go (hreplies.skip (.inr ?_))
        rintro ⟨submission, hmem, hkey⟩
        exact List.find?_eq_none.mp hfind submission hmem (decide_eq_true hkey)
      | some submission =>
        have hkey : submission.agentKey = model.agentKey := by
          have hfound := List.find?_some hfind
          exact of_decide_eq_true hfound
        dsimp only
        exact h.post hposted (hreplies.send hmarked (List.mem_of_find?_eq_some hfind) hkey)

theorem Served.two (h : Served config event messages seen record) (hboth : event.selection = .both) :
    record.postedAgents.size = 2 := by
  have hperm : record.postedAgents.keys.Perm (config.selectedKeys event.selection) :=
    (List.perm_ext_iff_of_nodup record.postedAgents.nodup (nodup_selectedKeys config event.selection)).mpr h.all
  rw [KeySet.size, hperm.length_eq, hboth]
  rfl

theorem Serving.closing {left : List ModelRoute} {posted : KeySet Text} {terminal : Bool}
    (h : Serving config event w (.closing left posted terminal) record)
    (hsmooth : w.smooth config (.work input) = true) :
    ∃ stage' record',
      Serving config event (w.stepEvent config event input (.closing left posted terminal)) stage' record' := by
  obtain ⟨hposted, hwrites⟩ := smooth_work h hsmooth
  obtain ⟨hboth, htells⟩ := h.serves
  cases left with
  | nil =>
    have htwo : record.postedAgents.size = 2 := htells.served.two hboth
    have hfinal : ((w.store.snapshot event.eventId).any fun record => record.postedAgents.size = 2) = true := by
      rw [EventStore.snapshot, h.stored]
      exact decide_eq_true htwo
    rw [SlackWorld.stepEvent, if_pos hfinal]
    exact h.go htells.served
  | cons model left =>
    rw [SlackWorld.stepEvent]
    split_ifs with hmarked
    · exact h.go ⟨hboth, htells.skip hmarked⟩
    · exact h.post hposted ⟨hboth, htells.send rfl hmarked⟩

theorem Serving.step (h : Serving config event w stage record) (hdry : config.dryRun = false)
    (hsmooth : w.smooth config (.work input) = true) :
    ∃ stage' record', Serving config event (w.step config (.work input)) stage' record' := by
  obtain ⟨hposted, hwrites⟩ := smooth_work h hsmooth
  have hserves := h.serves
  have hstep : w.step config (.work input) = w.stepEvent config event input stage := by
    rw [SlackWorld.step, h.worker]
  rw [hstep]
  cases stage with
  | begun =>
    obtain ⟨hboth, hfresh⟩ := hserves
    rw [SlackWorld.stepEvent, hdry, if_neg Bool.false_ne_true]
    split
    · exact h.go ⟨hboth, hfresh⟩
    · exact h.go ⟨hfresh.tells, Nat.zero_add _⟩
  | created workflowId =>
    have hfresh : event.selection = .both ∧ Fresh w.messages w.seen record := hserves
    rw [SlackWorld.stepEvent]
    exact h.write (hwrites _ rfl) h.unasked ⟨hfresh.1, hfresh.2.unsent, hfresh.2.unseen, hfresh.2.unmarked⟩
  | failing left posted => exact h.failing hsmooth
  | failingMark model left posted =>
    obtain ⟨htells, hcount⟩ := hserves
    rw [SlackWorld.stepEvent]
    exact h.write (hwrites _ rfl) h.unasked ⟨htells.mark, hcount⟩
  | correlated workflowId => exact h.correlated
  | testing poll => exact h.testing
  | canceling => exact hserves.elim
  | fetching poll =>
    obtain ⟨hpolls, hheard⟩ := hserves
    rw [SlackWorld.stepEvent]
    split
    · exact h.go ⟨hpolls, hheard⟩
    · exact ⟨_, record, rfl, h.stored, h.unasked, Replies.start hpolls hheard⟩
  | replying workflow left poll => exact h.replying hsmooth
  | marking workflow model left poll =>
    have hreplies : Replies config event w.messages w.seen record poll.posted workflow [model] left := hserves
    rw [SlackWorld.stepEvent]
    exact h.write (hwrites _ rfl) h.unasked hreplies.mark
  | waiting poll =>
    rw [SlackWorld.stepEvent]
    exact h.go hserves
  | closing left posted terminal => exact h.closing hsmooth
  | closingMark model left posted terminal =>
    obtain ⟨hboth, htells⟩ := hserves
    rw [SlackWorld.stepEvent]
    exact h.write (hwrites _ rfl) h.unasked ⟨hboth, htells.mark⟩
  | finishing =>
    have hserved : Served config event w.messages w.seen record := hserves
    rw [SlackWorld.stepEvent]
    exact h.write (hwrites _ rfl) h.unasked ⟨rfl, hserved.complete⟩
  | ended => exact ⟨.ended, record, h⟩

theorem Serving.exec {inputs : List WorkerInput} (h : Serving config event w stage record)
    (hdry : config.dryRun = false)
    (hsmooth : Run.Guarded (SlackWorld.step config) (fun w action => w.smooth config action = true) w
      (inputs.map .work)) :
    ∃ stage' record', Serving config event (Run.exec (SlackWorld.step config) w (inputs.map .work)) stage' record' := by
  induction inputs generalizing w stage record with
  | nil => exact ⟨stage, record, h⟩
  | cons input inputs ih =>
    obtain ⟨stage', record', hnext⟩ := h.step hdry hsmooth.1
    exact ih hnext hsmooth.2

theorem Serving.followsSelection {inputs : List WorkerInput} (h : Serving config event w stage record)
    (hended : w.worker = .event event .ended)
    (haccepted : ∀ input ∈ inputs.head?, ∀ workflow ∈ input.answer, validateWorkflowResponse config workflow = .ok ()) :
    FollowsSelection config event inputs w := by
  have hworker := h.worker
  rw [hended] at hworker
  cases hworker
  obtain ⟨hcompleted, hserved⟩ := h.serves
  refine ⟨fun _ => haccepted, hended, ?_, hserved.answered, ⟨record, ?_, hcompleted, hserved.all⟩⟩
  · rw [List.perm_ext_iff_of_nodup hserved.tally.once (nodup_selectedKeys config event.selection)]
    intro agentKey
    rw [hserved.tally.marked agentKey, ← hserved.all agentKey]
    simp only [List.not_mem_nil, false_or]
  · rw [SlackWorld.eventRecord, SlackWorld.eventId, hended]
    exact h.stored

theorem exec_ended (h : w.worker = .event event .ended) (inputs : List WorkerInput) :
    Run.exec (SlackWorld.step config) w (inputs.map .work) = w := by
  induction inputs with
  | nil => rfl
  | cons input inputs ih =>
    have hstep : w.step config (.work input) = w := by
      rw [SlackWorld.step, h]
      rfl
    rw [List.map_cons, Run.exec_cons, hstep, ih]

theorem fresh_claimed {eventId now : Text} : Fresh [] [] (EventStore.freshRecord eventId now) :=
  ⟨rfl, rfl, fun _ => KeySet.not_mem_empty⟩

theorem validateWorkflowResponse_ne_ok {workflow : WorkflowView} (hsingle : event.selection ≠ .both)
    (hobeys : Obeys config event input) (hanswer : input.answer = some workflow) :
    validateWorkflowResponse config workflow ≠ .ok () := by
  obtain ⟨-, hassigned⟩ := hobeys workflow hanswer
  have hlength : workflow.assignments.length = 1 := by
    rw [hassigned.length_eq, requestedAgents_payload]
    cases hselection : event.selection with
    | claude => rfl
    | chatgpt => rfl
    | both => exact absurd hselection hsingle
  intro hvalid
  unfold validateWorkflowResponse at hvalid
  obtain ⟨_, -, hassignments⟩ := Except.bind_eq_ok.mp hvalid
  rw [Except.refuseIf_eq_ok] at hassignments
  apply hassignments
  right
  rw [hlength]
  decide

end Runs

/-- A run in which the journal and Slack work follows the selection if and only if it is not a dry run, and the event
addresses both models or its workflow could not be created. -/
theorem followsSelection_iff (config : SlackConfig) (event : AcceptedEvent) {store store' : EventStore} {now : Text}
    {io : AppendIo} (hclaim : EventStore.claim store event.eventId now io = (.ok .claimed, store')) (remaining : Nat)
    {inputs : List WorkerInput} (hobeys : ∀ input ∈ inputs, Obeys config event input)
    (hsmooth : Run.Guarded (SlackWorld.step config) (fun w action => w.smooth config action = true)
      (.claimed store' remaining (.event event .begun)) (inputs.map .work))
    (hlong : 8 * remaining + 10 ≤ inputs.length) :
    FollowsSelection config event inputs
        (Run.exec (SlackWorld.step config) (.claimed store' remaining (.event event .begun)) (inputs.map .work)) ↔
      config.dryRun = false ∧ (event.selection = .both ∨ ∀ input ∈ inputs.head?, input.answer = none) := by
  have hended := @worker_ended config (.claimed store' remaining (.event event .begun)) event .begun inputs rfl hlong
  have hstored := claim_eq_claimed hclaim
  obtain ⟨input, inputs, rfl⟩ : ∃ input rest, inputs = input :: rest := by
    cases inputs with
    | nil => simp at hlong
    | cons input inputs => exact ⟨input, inputs, rfl⟩
  -- a workflow for one model is not accepted, so a single selection needs the creation to fail
  constructor
  · intro h
    have hdry : config.dryRun = false := by
      rw [← Bool.not_eq_true]
      intro hdry
      have hstep : (SlackWorld.claimed store' remaining (.event event .begun)).step config (.work input) =
          (SlackWorld.claimed store' remaining (.event event .begun)).writeEvent event .complete input
            fun _ => .ended :=
        if_pos hdry
      have hsent := h.sent.length_eq
      rw [List.map_cons, Run.exec_cons, hstep, exec_ended rfl, SlackConfig.selectedKeys, List.length_map,
        List.length_map] at hsent
      cases hselection : event.selection with
      | _ =>
        rw [hselection] at hsent
        cases hsent
    refine ⟨hdry, ?_⟩
    by_cases hboth : event.selection = .both
    · exact .inl hboth
    · refine .inr ?_
      rintro _ ⟨⟩
      rw [Option.eq_none_iff_forall_ne_some]
      intro workflow hanswer
      exact validateWorkflowResponse_ne_ok hboth (hobeys input List.mem_cons_self) hanswer
        (h.accepted hdry input rfl workflow hanswer)
  · rintro ⟨hdry, hboth | hunanswered⟩
    · have hstart : Serving config event (.claimed store' remaining (.event event .begun)) .begun
          (EventStore.freshRecord event.eventId now) := ⟨rfl, hstored, rfl, hboth, fresh_claimed⟩
      obtain ⟨stage, record, hserving⟩ := hstart.exec hdry hsmooth
      apply hserving.followsSelection hended
      rintro _ ⟨⟩ workflow hanswer
      exact validateWorkflowResponse_of_obeys hboth (hobeys input List.mem_cons_self) hanswer
    · have hnone : input.answer = none := hunanswered input rfl
      have hstep : (SlackWorld.claimed store' remaining (.event event .begun)).step config (.work input) =
          (SlackWorld.claimed store' remaining (.event event .begun)).goEvent event
            (.failing (config.selectedModels event.selection) 0) := by
        show SlackWorld.stepEvent _ _ _ _ .begun = _
        rw [SlackWorld.stepEvent, hdry, if_neg Bool.false_ne_true, hnone]
        rfl
      have hsmooth' := hsmooth.2
      rw [hstep] at hsmooth'
      rw [List.map_cons, Run.exec_cons, hstep] at hended ⊢
      have hstart : Serving config event ((SlackWorld.claimed store' remaining (.event event .begun)).goEvent event
          (.failing (config.selectedModels event.selection) 0)) (.failing (config.selectedModels event.selection) 0)
          (EventStore.freshRecord event.eventId now) :=
        ⟨rfl, hstored, rfl, fresh_claimed.tells, Nat.zero_add _⟩
      obtain ⟨stage, record, hserving⟩ := hstart.exec hdry hsmooth'
      apply hserving.followsSelection hended
      rintro _ ⟨⟩ workflow hanswer
      rw [hnone] at hanswer
      cases hanswer

/-! A mention that addresses both models, and one that addresses one. -/

def pairedWorkflow : WorkflowView where
  planId := "plan-1".toList
  assignments := ["claude-fable-5".toList, "gpt-5.6-sol".toList]
  stage := "completed".toList
  submissions := [⟨"gpt-5.6-sol".toList, "a log of terms".toList⟩,
    ⟨"claude-fable-5".toList, "a leader for a term".toList⟩]

def claudeMention : AcceptedEvent := { mention with selection := .claude }

def claudeWorkflow : WorkflowView where
  planId := "plan-3".toList
  assignments := ["claude-fable-5".toList]
  stage := "completed".toList
  submissions := [⟨"claude-fable-5".toList, "a leader for a term".toList⟩]

/-- A claimed event, with time for one poll. -/
def claimedOnce (event : AcceptedEvent) : SlackWorld := .claimed
  (EventStore.claim emptyStore event.eventId "2026-07-31T06:00:00Z".toList wholeAppend).2 1 (.event event .begun)

theorem followsSelection_both : FollowsSelection liveSlack mention (List.replicate 18 (answeredInput pairedWorkflow))
    (Run.exec (SlackWorld.step liveSlack) (claimedOnce mention)
      ((List.replicate 18 (answeredInput pairedWorkflow)).map .work)) := by
  have hclaim := claim_emptyStore mention.eventId "2026-07-31T06:00:00Z".toList (by decide)
    (by decide +kernel)
  have hobeys : ∀ input ∈ List.replicate 18 (answeredInput pairedWorkflow), Obeys liveSlack mention input := by
    intro input hmem
    rw [List.eq_of_mem_replicate hmem]
    rintro workflow ⟨⟩
    rw [requestedAgents_payload]
    exact ⟨by decide, .refl _⟩
  exact (followsSelection_iff liveSlack mention hclaim 1 hobeys (by decide +kernel) (by decide)).mpr ⟨rfl, .inl rfl⟩

/-- The workflow planned for the one model that was asked for is not accepted. -/
theorem not_followsSelection : ¬ FollowsSelection liveSlack claudeMention
    (List.replicate 18 (answeredInput claudeWorkflow)) (Run.exec (SlackWorld.step liveSlack) (claimedOnce claudeMention)
      ((List.replicate 18 (answeredInput claudeWorkflow)).map .work)) := by
  intro h
  have haccepted := h.accepted rfl (answeredInput claudeWorkflow) rfl claudeWorkflow rfl
  have hrefused : validateWorkflowResponse liveSlack claudeWorkflow = .error .bridge := by decide
  rw [hrefused] at haccepted
  cases haccepted

end AgentBridge.Slack
