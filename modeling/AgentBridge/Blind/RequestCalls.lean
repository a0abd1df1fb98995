import AgentBridge.Blind.Calls
import AgentBridge.Blind.Items
import AgentBridge.Blind.Records
import AgentBridge.State.Failures
import AgentBridge.Workflow.Protocol

/-! The workflow and blind-competition requests, one separately locked call after another: what
each call needs of the state it finds, and what it adds to it. -/

namespace AgentBridge
open State

section Ready
variable (s : AppState) (w : Surroundings) (slug key : Text)

def CanOpen : Prop :=
  slugify w slug ≠ [] ∧ (s.channels.contains (slugify w slug) = true ∨ s.channels.size < s.config.maxChannels)

def CanJoin : Prop :=
  AppState.joinChecks (Text.trim key) = .ok () ∧
    ∃ ch, s.channels.get slug = some ch ∧
      (ch.members.contains (Text.trim key) = true ∨ ch.members.size < maxMembers)

/-- An insert-only record fits under a key that is free. -/
def CanInsert (value : ContextValue) : Prop :=
  ∃ ch, s.channels.get slug = some ch ∧ ch.context.get key = none ∧ Text.trim key ≠ [] ∧
    Text.byteLen (Text.trim key) ≤ maxContextKeyBytes ∧ value.toJson.bytes ≤ s.config.maxContentBytes ∧
    (ch.context.contains (Text.trim key) = true ∨ ch.context.size < maxContextKeys)

def CanPost (content : Text) (metadata : Json) : Prop :=
  s.postChecks (Text.trim key) content metadata = .ok () ∧ CanJoin s slug (Text.trim key)

end Ready

section Calls
variable {s : AppState} {w : Surroundings} {now : Now} {slug key : Text}

theorem contains_iff {κ α : Type*} [DecidableEq κ] {t : Table κ α} {k : κ} :
    t.contains k = true ↔ ∃ a, t.get k = some a := Option.isSome_iff_exists

theorem createOrGetChannel_ok (topic createdBy : Text) :
    (∃ ch, (s.createOrGetChannel w now slug topic createdBy).1 = .ok ch) ↔ CanOpen s w slug := by
  unfold AppState.createOrGetChannel CanOpen
  dsimp only
  by_cases hempty : slugify w slug = []
  · rw [if_pos hempty]
    exact iff_of_false (fun ⟨_, h⟩ => nomatch h) fun h => h.1 hempty
  · rw [if_neg hempty, and_iff_right hempty, contains_iff]
    cases hch : s.channels.get (slugify w slug) with
    | some ch => exact iff_of_true ⟨_, rfl⟩ (.inl ⟨ch, rfl⟩)
    | none =>
      dsimp only
      unfold AppState.insertChannel
      dsimp only
      rw [hch]
      dsimp only
      by_cases hfull : s.channels.size ≥ s.config.maxChannels
      · rw [if_pos hfull]
        refine iff_of_false (fun ⟨_, h⟩ => nomatch h) ?_
        rintro (⟨_, h⟩ | h)
        · cases h
        · exact absurd hfull (Nat.not_le.mpr h)
      · rw [if_neg hfull]
        exact iff_of_true ⟨_, rfl⟩ (.inr (Nat.not_le.mp hfull))

theorem join_ok (role : MemberRole) : (∃ out, (s.join now slug key role).1 = .ok out) ↔ CanJoin s slug key := by
  unfold AppState.join CanJoin
  dsimp only
  cases hchecks : AppState.joinChecks (Text.trim key) with
  | error e => exact iff_of_false (fun ⟨_, h⟩ => nomatch h) fun ⟨h, _⟩ => nomatch h
  | ok u =>
    dsimp only
    cases hch : s.channels.get slug with
    | none => exact iff_of_false (fun ⟨_, h⟩ => nomatch h) fun ⟨_, _, h, _⟩ => nomatch h
    | some ch =>
      dsimp only
      cases hm : ch.members.get (Text.trim key) with
      | some m => exact iff_of_true ⟨_, rfl⟩ ⟨rfl, ch, rfl, .inl (contains_iff.mpr ⟨m, hm⟩)⟩
      | none =>
        dsimp only
        by_cases hfull : ch.members.size ≥ maxMembers
        · rw [if_pos hfull]
          refine iff_of_false (fun ⟨_, h⟩ => nomatch h) ?_
          rintro ⟨-, ch', hch', hseat⟩
          cases hch'
          rw [contains_iff, hm] at hseat
          rcases hseat with ⟨_, h⟩ | h
          · cases h
          · exact absurd hfull (Nat.not_le.mpr h)
        · rw [if_neg hfull]
          exact iff_of_true ⟨_, rfl⟩ ⟨rfl, ch, rfl, .inr (Nat.not_le.mp hfull)⟩

theorem postMessage_ok (newId : Text) (role : Role) (content : Text) (metadata : Json) :
    (∃ m, (s.postMessage now newId slug key role content metadata).1 = .ok m) ↔
      CanPost s slug key content metadata := by
  unfold AppState.postMessage CanPost
  dsimp only
  cases hchecks : s.postChecks (Text.trim key) content metadata with
  | error e => exact iff_of_false (fun ⟨_, h⟩ => nomatch h) fun ⟨h, _⟩ => nomatch h
  | ok u =>
    dsimp only
    rw [and_iff_right rfl, ← @join_ok _ now _ _ .member]
    have heff := join_effect s now slug (Text.trim key) .member
    rcases hjoin : s.join now slug (Text.trim key) .member with ⟨e | out, s₁⟩
    · exact iff_of_false (fun ⟨_, h⟩ => nomatch h) fun ⟨_, h⟩ => nomatch h
    · refine iff_of_true ?_ ⟨out, rfl⟩
      dsimp only
      cases hch : s₁.channels.get slug with
      | none =>
        rw [hjoin] at heff
        cases heff with
        | seen hold => exact absurd ((Table.get_insert_self _ _ _).symm.trans hch) (by simp)
        | seated hold => exact absurd ((Table.get_insert_self _ _ _).symm.trans hch) (by simp)
      | some ch => exact ⟨_, rfl⟩

theorem canInsert_iff (value : ContextValue) (updatedBy : Text) : CanInsert s slug key value ↔
    s.getContextKeyInternal slug key = .ok none ∧
      ∃ e, (s.setContextInternal now slug key value updatedBy).1 = .ok e := by
  rw [setContextInternal_ok_iff]
  unfold CanInsert AppState.getContextKeyInternal
  cases hch : s.channels.get slug with
  | none => exact iff_of_false (fun ⟨_, h, _⟩ => nomatch h) fun ⟨h, _⟩ => nomatch h
  | some ch =>
    constructor
    · rintro ⟨_, h, hfree, hempty, hlong, hvalue, hroom⟩
      cases h
      exact ⟨congrArg Except.ok hfree, hempty, hlong, hvalue, ch, rfl, hroom⟩
    · rintro ⟨hfree, hempty, hlong, hvalue, _, h, hroom⟩
      cases h
      exact ⟨ch, rfl, Except.ok.inj hfree, hempty, hlong, hvalue, hroom⟩

theorem insertWorkflowContext_ok (value : ContextValue) (updatedBy : Text) :
    (∃ e, (Orchestration.insertWorkflowContext s now slug key value updatedBy).1 = .ok e) ↔
      CanInsert s slug key value := by
  rw [@canInsert_iff s now slug key value updatedBy]
  unfold Orchestration.insertWorkflowContext
  rcases s.getContextKeyInternal slug key with e | _ | _
  · exact iff_of_false (fun ⟨_, h⟩ => nomatch h) fun ⟨h, _⟩ => nomatch h
  · exact (and_iff_right rfl).symm
  · exact iff_of_false (fun ⟨_, h⟩ => nomatch h) fun ⟨h, _⟩ => nomatch h

theorem insertBlindContext_ok (value : ContextValue) (updatedBy : Text) :
    (∃ e, (BlindCompetition.insertBlindContext s now slug key value updatedBy).1 = .ok e) ↔
      CanInsert s slug key value := by
  rw [@canInsert_iff s now slug key value updatedBy]
  unfold BlindCompetition.insertBlindContext
  rcases s.getContextKeyInternal slug key with e | _ | _
  · exact iff_of_false (fun ⟨_, h⟩ => nomatch h) fun ⟨h, _⟩ => nomatch h
  · exact (and_iff_right rfl).symm
  · exact iff_of_false (fun ⟨_, h⟩ => nomatch h) fun ⟨h, _⟩ => nomatch h

end Calls

/-- What a create request installs once its checks have passed. -/
inductive Creation
  | workflow (plan : WorkflowPlan)
  | blind (plan : BlindCompetitionPlan) (viewer : Option Text)

namespace Creation

def channel : Creation → Text
  | workflow plan => plan.channel
  | blind plan _ => plan.channel

def topic : Creation → Text
  | workflow plan => plan.title
  | blind plan _ => plan.title

def createdBy : Creation → Text
  | workflow plan => plan.createdBy
  | blind plan _ => plan.createdBy

/-- The agents that join, in order. -/
def seats : Creation → List Text
  | workflow plan => plan.assignments.map WorkflowAssignment.agentKey
  | blind plan _ => BlindCompetition.seated plan

def key : Creation → Text
  | workflow _ => Orchestration.planContextKey
  | blind _ _ => BlindCompetition.blindPlanContextKey

def value : Creation → ContextValue
  | workflow plan => .workflowPlan plan
  | blind plan _ => .blindPlan plan

def insert (s : AppState) (now : Now) : Creation → BridgeResult ContextEntry × AppState
  | workflow plan =>
    Orchestration.insertWorkflowContext s now plan.channel Orchestration.planContextKey (.workflowPlan plan)
      plan.createdBy
  | blind plan _ =>
    BlindCompetition.insertBlindContext s now plan.channel BlindCompetition.blindPlanContextKey (.blindPlan plan)
      plan.createdBy

def notice : Creation → Text
  | workflow plan => Orchestration.createdMessage plan
  | blind plan _ => BlindCompetition.openedMessage plan

def metadata : Creation → Json
  | workflow plan => .obj [("kind".toList, .str "workflow_created".toList), ("workflow_id".toList, .str plan.id),
      ("mode".toList, .str plan.mode.name)]
  | blind plan _ => BlindCompetition.openedMetadata plan

/-- Reading the view the handler answers with. -/
def view (s : AppState) : Creation → BridgeResult Unit
  | workflow plan => (Orchestration.workflowView s plan).map fun _ => ()
  | blind plan viewer => (BlindCompetition.buildView s plan viewer).map fun _ => ()

end Creation

/-- How far a create request has come. -/
inductive CreateCall
  | workflow (id : Text) (req : CreateWorkflowReq)
  | blind (id : Text) (req : CreateBlindCompetitionReq) (viewer : Option Text)
  | opening (c : Creation)
  | seating (c : Creation) (rest : List Text)
  | announcing (c : Creation)
  | finished (result : BridgeResult Unit)

def CreateCall.step (s : AppState) (w : Surroundings) (now : Now) (messageId : Text) :
    CreateCall → CreateCall × AppState
  | workflow id req =>
    match Orchestration.buildPlan s now id req with
    | .error e => (finished (.error e), s)
    | .ok plan => (opening (.workflow plan), s)
  | blind id req viewer =>
    match BlindCompetition.buildPlan s now id req with
    | .error e => (finished (.error e), s)
    | .ok plan => (opening (.blind plan viewer), s)
  | opening c =>
    match s.createOrGetChannel w now c.channel c.topic c.createdBy with
    | (.error e, s) => (finished (.error e), s)
    | (.ok _, s) => (seating c c.seats, s)
  | seating c (agentKey :: rest) =>
    match s.join now c.channel agentKey .member with
    | (.error e, s) => (finished (.error e), s)
    | (.ok _, s) => (seating c rest, s)
  | seating c [] =>
    match c.insert s now with
    | (.error e, s) => (finished (.error e), s)
    | (.ok _, s) => (announcing c, s)
  | announcing c =>
    match s.postMessage now messageId c.channel c.createdBy .system c.notice c.metadata with
    | (.error e, s) => (finished (.error e), s)
    | (.ok _, s) => (finished (c.view s), s)
  | finished result => (finished result, s)

/-- A request under way: a creation, a submission to a workflow, a submission to a blind competition or its
reveal. -/
inductive RequestCall
  | create (c : CreateCall)
  | submit (c : Orchestration.SubmitCall)
  | blind (c : BlindCompetition.BlindCall)

/-- The state a step finds, with the clocks, the Unicode tables and the message id it uses. -/
structure Juncture where
  state : AppState
  surroundings : Surroundings
  now : Now
  messageId : Text

namespace RequestCall

def step (m : Juncture) : RequestCall → RequestCall × AppState
  | create c =>
    let r := c.step m.state m.surroundings m.now m.messageId
    (create r.1, r.2)
  | submit c =>
    let r := c.step m.state m.now m.messageId
    (submit r.1, r.2)
  | blind c =>
    let r := c.step m.state m.now m.messageId
    (blind r.1, r.2)

def Failed : RequestCall → Prop
  | create (.finished (.error _)) | submit (.finished (.error _)) | blind (.finished (.error _)) => True
  | _ => False

/-- The stages after a record was stored. -/
def Late : RequestCall → Prop
  | create (.announcing _) | submit (.stored ..) | blind (.stored ..) | blind (.opened ..) => True
  | _ => False

end RequestCall

section Ready
variable (m : Juncture)

def CanReadReveal (s : AppState) (channel : Text) : Prop :=
  ∃ reveal, BlindCompetition.loadReveal s channel = .ok reveal

/-- What the next step of a creation needs in order to succeed. -/
def CreateCall.Ready : CreateCall → Prop
  | workflow id req => ∃ plan, Orchestration.buildPlan m.state m.now id req = .ok plan
  | blind id req _ => ∃ plan, BlindCompetition.buildPlan m.state m.now id req = .ok plan
  | opening c => CanOpen m.state m.surroundings c.channel
  | seating c (agentKey :: _) => CanJoin m.state c.channel agentKey
  | seating c [] => CanInsert m.state c.channel c.key c.value
  | announcing (.workflow plan) => CanPost m.state plan.channel plan.createdBy (Creation.workflow plan).notice
      (Creation.workflow plan).metadata
  | announcing (.blind plan viewer) => CanPost m.state plan.channel plan.createdBy (Creation.blind plan viewer).notice
      (Creation.blind plan viewer).metadata ∧ CanReadReveal m.state plan.channel
  | finished _ => True

open Orchestration in
def Orchestration.SubmitCall.Ready : SubmitCall → Prop
  | checked workflowId input =>
    ∃ plan assignment, loadPlan m.state workflowId = .ok plan ∧ findAssignment plan input.agentKey = .ok assignment
  | planned plan assignment _ =>
    ∃ submissions, loadSubmissions m.state plan.channel = .ok submissions ∧
      validateSubmissionTurn plan assignment submissions = .ok ()
  | validated plan assignment input => CanInsert m.state plan.channel (submissionKey assignment.ordinal)
      (.workflowSubmission (newSubmission plan assignment input m.now))
  | stored plan assignment input =>
    CanPost m.state plan.channel input.agentKey input.content (submissionMetadata plan assignment)
  | finished _ => True

open BlindCompetition in
def BlindCompetition.BlindCall.Ready : BlindCall → Prop
  | submitting _ workflowId _ _ => ∃ plan, loadPlan m.state workflowId = .ok plan
  | planned identity plan _ _ => ∃ worker, assignedWorker m.state identity plan = .ok worker
  | admitted identity plan worker content metadata => CanInsert m.state plan.channel (submissionKey worker.ordinal)
      (.blindSubmission (newSubmission m.now identity plan worker content metadata))
  | stored identity plan submission => CanPost m.state plan.channel identity.agentKey
      ("Blind candidate ".toList ++ Text.decimal submission.assignmentOrdinal ++ " submitted.".toList)
      (submissionMetadata submission) ∧ CanReadReveal m.state plan.channel
  | revealing identity workflowId =>
    ∃ plan, loadPlan m.state workflowId = .ok plan ∧ identity.agentKey = plan.reviewerAgentKey
  | reviewing _ plan => ∃ candidates, countCandidates m.state plan = .ok candidates
  | counted identity plan _ => CanInsert m.state plan.channel blindRevealContextKey
      (.blindReveal (newReveal m.now identity plan))
  | opened identity plan candidates => CanPost m.state plan.channel identity.agentKey
      "Blind candidate set revealed to authorized workflow readers.".toList (revealMetadata plan candidates) ∧
      CanReadReveal m.state plan.channel
  | finished _ => True

def RequestCall.Ready : RequestCall → Prop
  | create c => c.Ready m
  | submit c => c.Ready m
  | blind c => c.Ready m

/-- The agent is not seated yet. -/
def Unseated (s : AppState) (slug key : Text) : Prop := s.isMember slug (Text.trim key) = false

/-- The next step of a creation finds that it brings something into being: the channel, a seat or the record. -/
def CreateCall.Due : CreateCall → Prop
  | opening c => CanOpen m.state m.surroundings c.channel ∧
      m.state.channels.contains (slugify m.surroundings c.channel) = false
  | seating c (agentKey :: _) => CanJoin m.state c.channel agentKey ∧ Unseated m.state c.channel agentKey
  | seating c [] => CanInsert m.state c.channel c.key c.value
  | announcing c => CanPost m.state c.channel c.createdBy c.notice c.metadata ∧
      Unseated m.state c.channel c.createdBy
  | workflow _ _ | blind _ _ _ | finished _ => False

open Orchestration in
def Orchestration.SubmitCall.Due : SubmitCall → Prop
  | validated plan assignment input => CanInsert m.state plan.channel (submissionKey assignment.ordinal)
      (.workflowSubmission (newSubmission plan assignment input m.now))
  | stored plan assignment input =>
    CanPost m.state plan.channel input.agentKey input.content (submissionMetadata plan assignment) ∧
      Unseated m.state plan.channel input.agentKey
  | checked _ _ | planned _ _ _ | finished _ => False

open BlindCompetition in
def BlindCompetition.BlindCall.Due : BlindCall → Prop
  | admitted identity plan worker content metadata => CanInsert m.state plan.channel (submissionKey worker.ordinal)
      (.blindSubmission (newSubmission m.now identity plan worker content metadata))
  | stored identity plan submission => CanPost m.state plan.channel identity.agentKey
      ("Blind candidate ".toList ++ Text.decimal submission.assignmentOrdinal ++ " submitted.".toList)
      (submissionMetadata submission) ∧ Unseated m.state plan.channel identity.agentKey
  | counted identity plan _ => CanInsert m.state plan.channel blindRevealContextKey
      (.blindReveal (newReveal m.now identity plan))
  | opened identity plan candidates => CanPost m.state plan.channel identity.agentKey
      "Blind candidate set revealed to authorized workflow readers.".toList (revealMetadata plan candidates) ∧
      Unseated m.state plan.channel identity.agentKey
  | submitting _ _ _ _ | planned _ _ _ _ | revealing _ _ | reviewing _ _ | finished _ => False

def RequestCall.Due : RequestCall → Prop
  | create c => c.Due m
  | submit c => c.Due m
  | blind c => c.Due m

end Ready

section Steps
variable {s : AppState} {m : Juncture}

/-- A call that fails changes nothing: it succeeds with what it needs, or the state is as before. -/
theorem settle {α : Type} {r : BridgeResult α × AppState} {P : Prop} (hok : (∃ a, r.1 = .ok a) ↔ P)
    (herror : ∀ e, r.1 = .error e → r.2 = s) :
    (P ∧ ∃ a s', r = (.ok a, s')) ∨ (¬ P ∧ ∃ e, r = (.error e, s)) := by
  rcases r with ⟨e | a, s'⟩
  · refine .inr ⟨fun h => ?_, e, congrArg (Prod.mk _) (herror e rfl)⟩
    obtain ⟨a, ha⟩ := hok.mpr h
    cases ha
  · exact .inl ⟨hok.mp ⟨a, rfl⟩, a, s', rfl⟩

theorem insertWorkflowContext_error {now : Now} {slug key : Text} {value : ContextValue} {updatedBy : Text}
    (e : BridgeError) (h : (Orchestration.insertWorkflowContext s now slug key value updatedBy).1 = .error e) :
    (Orchestration.insertWorkflowContext s now slug key value updatedBy).2 = s := by
  unfold Orchestration.insertWorkflowContext at h ⊢
  rcases hget : s.getContextKeyInternal slug key with e' | _ | _
  · rfl
  · rw [hget] at h
    exact setContextInternal_failed h
  · rfl

theorem insertBlindContext_error {now : Now} {slug key : Text} {value : ContextValue} {updatedBy : Text}
    (e : BridgeError) (h : (BlindCompetition.insertBlindContext s now slug key value updatedBy).1 = .error e) :
    (BlindCompetition.insertBlindContext s now slug key value updatedBy).2 = s := by
  unfold BlindCompetition.insertBlindContext at h ⊢
  rcases hget : s.getContextKeyInternal slug key with e' | _ | _
  · rfl
  · rw [hget] at h
    exact setContextInternal_failed h
  · rfl

theorem Creation.insert_ok (c : Creation) (now : Now) :
    (∃ e, (c.insert s now).1 = .ok e) ↔ CanInsert s c.channel c.key c.value := by
  cases c with
  | workflow plan => exact insertWorkflowContext_ok _ _
  | blind plan viewer => exact insertBlindContext_ok _ _

theorem Creation.insert_error (c : Creation) (now : Now) (e : BridgeError) (h : (c.insert s now).1 = .error e) :
    (c.insert s now).2 = s := by
  cases c with
  | workflow plan => exact insertWorkflowContext_error e h
  | blind plan viewer => exact insertBlindContext_error e h

theorem post_keeps {now : Now} {newId slug sender : Text} {role : Role} {content : Text} {metadata : Json}
    {message : Message} {s' : AppState}
    (h : s.postMessage now newId slug sender role content metadata = (.ok message, s')) :
    (∃ ch, s.channels.get slug = some ch) ∧ (∃ ch, s'.channels.get slug = some ch) ∧
      ∀ key, s'.entry slug key = s.entry slug key := by
  have hready : CanPost s slug sender content metadata :=
    (postMessage_ok newId role content metadata).mp ⟨message, congrArg Prod.fst h⟩
  obtain ⟨-, -, ch, hch, -⟩ := hready
  have heff := post_effect s now newId slug sender role content metadata
  have hentry := heff.entry slug
  rw [h] at heff hentry
  refine ⟨⟨ch, hch⟩, ?_, hentry⟩
  cases heff with
  | posted hjoin hold => exact ⟨_, Table.get_insert_self _ _ _⟩

theorem getContextKeyInternal_congr {s s' : AppState} {slug key : Text} (h : ∃ ch, s.channels.get slug = some ch)
    (h' : ∃ ch, s'.channels.get slug = some ch) (hentry : s'.entry slug key = s.entry slug key) :
    s'.getContextKeyInternal slug key = s.getContextKeyInternal slug key := by
  obtain ⟨ch, hch⟩ := h
  obtain ⟨ch', hch'⟩ := h'
  rw [entry_of_channel hch, entry_of_channel hch'] at hentry
  unfold AppState.getContextKeyInternal
  rw [hch, hch']
  exact congrArg Except.ok hentry

theorem workflowView_ok (h : ∃ ch, s.channels.get slug = some ch) (plan : WorkflowPlan)
    (hslug : plan.channel = slug) : ∃ view, Orchestration.workflowView s plan = .ok view := by
  obtain ⟨ch, hch⟩ := h
  subst hslug
  unfold Orchestration.workflowView Orchestration.loadSubmissions AppState.getContextInternal
  rw [hch]
  exact ⟨_, rfl⟩

theorem buildView_ok {plan : BlindCompetitionPlan} (h : ∃ ch, s.channels.get plan.channel = some ch)
    (viewer : Option Text) :
    (∃ view, BlindCompetition.buildView s plan viewer = .ok view) ↔ CanReadReveal s plan.channel := by
  obtain ⟨ch, hch⟩ := h
  unfold BlindCompetition.buildView BlindCompetition.loadSubmissions AppState.getContextInternal CanReadReveal
  rw [hch]
  cases BlindCompetition.loadReveal s plan.channel with
  | error e => exact iff_of_false (fun ⟨_, h⟩ => nomatch h) fun ⟨_, h⟩ => nomatch h
  | ok reveal => exact iff_of_true ⟨_, rfl⟩ ⟨_, rfl⟩

/-- A step with what it needs does not fail; one without it fails, and changes nothing unless a record was stored
before it. -/
def RequestCall.Settles (m : Juncture) (q : RequestCall) : Prop :=
  (q.Ready m ∧ ¬ (q.step m).1.Failed) ∨
    (¬ q.Ready m ∧ (q.step m).1.Failed ∧ (¬ q.Late → (q.step m).2 = m.state))

theorem canReadReveal_post {s' : AppState} {channel : Text} (h : ∃ ch, s.channels.get channel = some ch)
    (h' : ∃ ch, s'.channels.get channel = some ch) (hentry : ∀ key, s'.entry channel key = s.entry channel key) :
    CanReadReveal s' channel ↔ CanReadReveal s channel := by
  unfold CanReadReveal BlindCompetition.loadReveal
  rw [getContextKeyInternal_congr h h' (hentry BlindCompetition.blindRevealContextKey)]

theorem blind_view {now : Now} {newId sender content : Text} {role : Role} {metadata : Json} {message : Message}
    {s' : AppState} {plan : BlindCompetitionPlan}
    (h : s.postMessage now newId plan.channel sender role content metadata = (.ok message, s')) (viewer : Option Text) :
    (∃ view, BlindCompetition.buildView s' plan viewer = .ok view) ↔ CanReadReveal s plan.channel := by
  obtain ⟨hch, hch', hentry⟩ := post_keeps h
  rw [buildView_ok hch', canReadReveal_post hch hch' hentry]

theorem settles_create (c : CreateCall) (hc : ¬ (RequestCall.create c).Failed) : (RequestCall.create c).Settles m := by
  unfold RequestCall.Settles RequestCall.step
  -- one call to a stage, and its lemma says when it succeeds
  cases c with
  | workflow planId req =>
    dsimp only [RequestCall.Ready, CreateCall.Ready, CreateCall.step]
    cases hplan : Orchestration.buildPlan m.state m.now planId req with
    | error e => exact .inr ⟨by rintro ⟨_, ⟨⟩⟩, trivial, fun _ => rfl⟩
    | ok plan => exact .inl ⟨⟨plan, rfl⟩, id⟩
  | blind planId req viewer =>
    dsimp only [RequestCall.Ready, CreateCall.Ready, CreateCall.step]
    cases hplan : BlindCompetition.buildPlan m.state m.now planId req with
    | error e => exact .inr ⟨by rintro ⟨_, ⟨⟩⟩, trivial, fun _ => rfl⟩
    | ok plan => exact .inl ⟨⟨plan, rfl⟩, id⟩
  | opening c =>
    dsimp only [RequestCall.Ready, CreateCall.Ready, CreateCall.step]
    rcases settle (@createOrGetChannel_ok _ _ m.now _ c.topic c.createdBy) (fun e => createOrGetChannel_error) with
      ⟨hready, a, s', hr⟩ | ⟨hready, e, hr⟩
    · rw [hr]
      exact .inl ⟨hready, id⟩
    · rw [hr]
      exact .inr ⟨hready, trivial, fun _ => rfl⟩
  | seating c rest =>
    cases rest with
    | nil =>
      dsimp only [RequestCall.Ready, CreateCall.Ready, CreateCall.step]
      rcases settle (c.insert_ok m.now) (c.insert_error m.now) with ⟨hready, a, s', hr⟩ | ⟨hready, e, hr⟩
      · rw [hr]
        exact .inl ⟨hready, id⟩
      · rw [hr]
        exact .inr ⟨hready, trivial, fun _ => rfl⟩
    | cons agentKey rest =>
      dsimp only [RequestCall.Ready, CreateCall.Ready, CreateCall.step]
      rcases settle (@join_ok _ m.now _ _ .member) (fun e => join_error) with
        ⟨hready, a, s', hr⟩ | ⟨hready, e, hr⟩
      · rw [hr]
        exact .inl ⟨hready, id⟩
      · rw [hr]
        exact .inr ⟨hready, trivial, fun _ => rfl⟩
  | announcing c =>
    cases c with
    | workflow plan =>
      dsimp only [RequestCall.Ready, CreateCall.Ready, CreateCall.step, Creation.channel, Creation.createdBy]
      rcases settle (postMessage_ok m.messageId .system _ _) (fun e => postMessage_error) with
        ⟨hready, a, s', hr⟩ | ⟨hready, e, hr⟩
      · rw [hr]
        obtain ⟨view, hview⟩ := workflowView_ok (post_keeps hr).2.1 plan rfl
        refine .inl ⟨hready, ?_⟩
        dsimp only [Creation.view]
        rw [hview]
        exact id
      · rw [hr]
        exact .inr ⟨hready, trivial, fun h => absurd trivial h⟩
    | blind plan viewer =>
      dsimp only [RequestCall.Ready, CreateCall.Ready, CreateCall.step, Creation.channel, Creation.createdBy]
      rcases settle (postMessage_ok m.messageId .system _ _) (fun e => postMessage_error) with
        ⟨hready, a, s', hr⟩ | ⟨hready, e, hr⟩
      · rw [hr]
        dsimp only [Creation.view]
        cases hview : BlindCompetition.buildView s' plan viewer with
        | error e =>
          refine .inr ⟨?_, trivial, fun h => absurd trivial h⟩
          rintro ⟨-, hreveal⟩
          obtain ⟨view, hview'⟩ := (blind_view hr viewer).mpr hreveal
          exact nomatch hview.symm.trans hview'
        | ok view => exact .inl ⟨⟨hready, (blind_view hr viewer).mp ⟨view, hview⟩⟩, id⟩
      · rw [hr]
        exact .inr ⟨fun h => hready h.1, trivial, fun h => absurd trivial h⟩
  | finished result =>
    cases result with
    | error e => exact absurd trivial hc
    | ok u => exact .inl ⟨trivial, id⟩

open Orchestration in
theorem settles_submit (c : SubmitCall) (hc : ¬ (RequestCall.submit c).Failed) : (RequestCall.submit c).Settles m := by
  unfold RequestCall.Settles RequestCall.step
  -- two readings, the record, the notice
  cases c with
  | checked workflowId input =>
    dsimp only [RequestCall.Ready, SubmitCall.Ready, SubmitCall.step, bind, Except.bind, pure, Except.pure]
    cases loadPlan m.state workflowId with
    | error e => exact .inr ⟨by rintro ⟨_, _, ⟨⟩, _⟩, trivial, fun _ => rfl⟩
    | ok plan =>
      dsimp only
      cases hfind : findAssignment plan input.agentKey with
      | error e =>
        refine .inr ⟨?_, trivial, fun _ => rfl⟩
        rintro ⟨_, assignment, ⟨⟩, h⟩
        exact nomatch hfind.symm.trans h
      | ok assignment => exact .inl ⟨⟨plan, assignment, rfl, hfind⟩, id⟩
  | planned plan assignment input =>
    dsimp only [RequestCall.Ready, SubmitCall.Ready, SubmitCall.step, bind, Except.bind]
    cases loadSubmissions m.state plan.channel with
    | error e => exact .inr ⟨by rintro ⟨_, ⟨⟩, _⟩, trivial, fun _ => rfl⟩
    | ok submissions =>
      dsimp only
      cases hturn : validateSubmissionTurn plan assignment submissions with
      | error e =>
        refine .inr ⟨?_, trivial, fun _ => rfl⟩
        rintro ⟨_, ⟨⟩, h⟩
        exact nomatch hturn.symm.trans h
      | ok u => exact .inl ⟨⟨submissions, rfl, hturn⟩, id⟩
  | validated plan assignment input =>
    dsimp only [RequestCall.Ready, SubmitCall.Ready, SubmitCall.step]
    rcases settle (@insertWorkflowContext_ok _ m.now _ _ _ input.agentKey) insertWorkflowContext_error with
      ⟨hready, a, s', hr⟩ | ⟨hready, e, hr⟩
    · rw [hr]
      exact .inl ⟨hready, id⟩
    · rw [hr]
      exact .inr ⟨hready, trivial, fun _ => rfl⟩
  | stored plan assignment input =>
    dsimp only [RequestCall.Ready, SubmitCall.Ready, SubmitCall.step]
    rcases settle (postMessage_ok m.messageId .assistant _ _) (fun e => postMessage_error) with
      ⟨hready, a, s', hr⟩ | ⟨hready, e, hr⟩
    · rw [hr]
      obtain ⟨view, hview⟩ := workflowView_ok (post_keeps hr).2.1 plan rfl
      refine .inl ⟨hready, ?_⟩
      dsimp only
      rw [hview]
      exact id
    · rw [hr]
      exact .inr ⟨hready, trivial, fun h => absurd trivial h⟩
  | finished result =>
    cases result with
    | error e => exact absurd trivial hc
    | ok view => exact .inl ⟨trivial, id⟩

/-- The end of a submission and that of a reveal: a notice, then the view. -/
theorem settles_notice {plan : BlindCompetitionPlan} {identity : AuthenticatedAdapter} (notice : Text) (metadata : Json)
    {r : BridgeResult Message × AppState}
    (hr : r = m.state.postMessage m.now m.messageId plan.channel identity.agentKey .system notice metadata) :
    (CanPost m.state plan.channel identity.agentKey notice metadata ∧ CanReadReveal m.state plan.channel ∧
      ∃ a s' view, r = (.ok a, s') ∧ BlindCompetition.buildView s' plan (some identity.agentKey) = .ok view) ∨
    (¬ (CanPost m.state plan.channel identity.agentKey notice metadata ∧ CanReadReveal m.state plan.channel) ∧
      ((∃ e, r = (.error e, m.state)) ∨
        ∃ a s' e, r = (.ok a, s') ∧ BlindCompetition.buildView s' plan (some identity.agentKey) = .error e)) := by
  subst hr
  rcases settle (postMessage_ok m.messageId .system notice metadata) (fun e => postMessage_error) with
    ⟨hready, a, s', hr⟩ | ⟨hready, e, hr⟩
  · cases hview : BlindCompetition.buildView s' plan (some identity.agentKey) with
    | error e =>
      refine .inr ⟨?_, .inr ⟨a, s', e, hr, hview⟩⟩
      rintro ⟨-, hreveal⟩
      obtain ⟨view, hview'⟩ := (blind_view hr _).mpr hreveal
      exact nomatch hview.symm.trans hview'
    | ok view => exact .inl ⟨hready, (blind_view hr _).mp ⟨view, hview⟩, a, s', view, hr, hview⟩
  · exact .inr ⟨fun h => hready h.1, .inl ⟨e, hr⟩⟩

open BlindCompetition in
theorem settles_blind (c : BlindCall) (hc : ¬ (RequestCall.blind c).Failed) : (RequestCall.blind c).Settles m := by
  unfold RequestCall.Settles RequestCall.step
  -- a stage that reads fails on the state it finds; the notice may also fail on the view after it
  cases c with
  | submitting identity workflowId content metadata =>
    dsimp only [RequestCall.Ready, BlindCall.Ready, BlindCall.step]
    cases loadPlan m.state workflowId with
    | error e => exact .inr ⟨by rintro ⟨_, ⟨⟩⟩, trivial, fun _ => rfl⟩
    | ok plan => exact .inl ⟨⟨plan, rfl⟩, id⟩
  | planned identity plan content metadata =>
    dsimp only [RequestCall.Ready, BlindCall.Ready, BlindCall.step]
    cases assignedWorker m.state identity plan with
    | error e => exact .inr ⟨by rintro ⟨_, ⟨⟩⟩, trivial, fun _ => rfl⟩
    | ok worker => exact .inl ⟨⟨worker, rfl⟩, id⟩
  | admitted identity plan worker content metadata =>
    dsimp only [RequestCall.Ready, BlindCall.Ready, BlindCall.step]
    rcases settle (@insertBlindContext_ok _ m.now _ _ _ identity.agentKey) insertBlindContext_error with
      ⟨hready, a, s', hr⟩ | ⟨hready, e, hr⟩
    · rw [hr]
      exact .inl ⟨hready, id⟩
    · rw [hr]
      exact .inr ⟨hready, trivial, fun _ => rfl⟩
  | stored identity plan submission =>
    dsimp only [RequestCall.Ready, BlindCall.Ready, BlindCall.step]
    rcases settles_notice (m := m) _ _ rfl with
      ⟨hpost, hreveal, a, s', view, hr, hview⟩ | ⟨hready, ⟨e, hr⟩ | ⟨a, s', e, hr, hview⟩⟩
    · rw [hr]
      refine .inl ⟨⟨hpost, hreveal⟩, ?_⟩
      dsimp only
      rw [hview]
      exact id
    · rw [hr]
      exact .inr ⟨hready, trivial, fun h => absurd trivial h⟩
    · rw [hr]
      refine .inr ⟨hready, ?_, fun h => absurd trivial h⟩
      dsimp only
      rw [hview]
      trivial
  | revealing identity workflowId =>
    dsimp only [RequestCall.Ready, BlindCall.Ready, BlindCall.step]
    cases loadPlan m.state workflowId with
    | error e => exact .inr ⟨by rintro ⟨_, ⟨⟩, _⟩, trivial, fun _ => rfl⟩
    | ok plan =>
      dsimp only
      by_cases hreviewer : identity.agentKey = plan.reviewerAgentKey
      · rw [if_neg (not_not.mpr hreviewer)]
        exact .inl ⟨⟨plan, rfl, hreviewer⟩, id⟩
      · rw [if_pos hreviewer]
        refine .inr ⟨?_, trivial, fun _ => rfl⟩
        rintro ⟨_, ⟨⟩, h⟩
        exact hreviewer h
  | reviewing identity plan =>
    dsimp only [RequestCall.Ready, BlindCall.Ready, BlindCall.step]
    cases countCandidates m.state plan with
    | error e => exact .inr ⟨by rintro ⟨_, ⟨⟩⟩, trivial, fun _ => rfl⟩
    | ok candidates => exact .inl ⟨⟨candidates, rfl⟩, id⟩
  | counted identity plan candidates =>
    dsimp only [RequestCall.Ready, BlindCall.Ready, BlindCall.step]
    rcases settle (@insertBlindContext_ok _ m.now _ _ _ identity.agentKey) insertBlindContext_error with
      ⟨hready, a, s', hr⟩ | ⟨hready, e, hr⟩
    · rw [hr]
      exact .inl ⟨hready, id⟩
    · rw [hr]
      exact .inr ⟨hready, trivial, fun _ => rfl⟩
  | opened identity plan candidates =>
    dsimp only [RequestCall.Ready, BlindCall.Ready, BlindCall.step]
    rcases settles_notice (m := m) _ _ rfl with
      ⟨hpost, hreveal, a, s', view, hr, hview⟩ | ⟨hready, ⟨e, hr⟩ | ⟨a, s', e, hr, hview⟩⟩
    · rw [hr]
      refine .inl ⟨⟨hpost, hreveal⟩, ?_⟩
      dsimp only
      rw [hview]
      exact id
    · rw [hr]
      exact .inr ⟨hready, trivial, fun h => absurd trivial h⟩
    · rw [hr]
      refine .inr ⟨hready, ?_, fun h => absurd trivial h⟩
      dsimp only
      rw [hview]
      trivial
  | finished result =>
    cases result with
    | error e => exact absurd trivial hc
    | ok view => exact .inl ⟨trivial, id⟩

theorem RequestCall.settles (q : RequestCall) (hq : ¬ q.Failed) : q.Settles m := by
  cases q with
  | create c => exact settles_create c hq
  | submit c => exact settles_submit c hq
  | blind c => exact settles_blind c hq

/-- A request that was answered stays as it is. -/
theorem RequestCall.step_failed (q : RequestCall) (hq : q.Failed) : (q.step m).1.Failed ∧ (q.step m).2 = m.state := by
  cases q with
  | create c =>
    cases c with
    | finished result => exact ⟨hq, rfl⟩
    | workflow | blind | opening | seating | announcing => exact hq.elim
  | submit c =>
    cases c with
    | finished result => exact ⟨hq, rfl⟩
    | checked | planned | validated | stored => exact hq.elim
  | blind c =>
    cases c with
    | finished result => exact ⟨hq, rfl⟩
    | submitting | planned | admitted | stored | revealing | reviewing | counted | opened => exact hq.elim

theorem insertWorkflowContext_adds {now : Now} {slug key updatedBy : Text} {value : ContextValue} {e : ContextEntry}
    {s' : AppState} (htrim : Text.trim key = key)
    (h : Orchestration.insertWorkflowContext s now slug key value updatedBy = (.ok e, s')) : ¬ AddsNothing s s' := by
  rcases Orchestration.insertWorkflowContext_cases s now slug key value updatedBy htrim with
    ⟨e', he⟩ | ⟨e', s'', he, hfree, hkey, -, -, hput⟩
  · rw [he] at h
    cases h
  · rw [he] at h
    cases h
    exact not_addsNothing hfree (hkey ▸ hput.self)

theorem insertBlindContext_adds {now : Now} {slug key updatedBy : Text} {value : ContextValue} {e : ContextEntry}
    {s' : AppState} (htrim : Text.trim key = key)
    (h : BlindCompetition.insertBlindContext s now slug key value updatedBy = (.ok e, s')) : ¬ AddsNothing s s' := by
  rcases BlindCompetition.insertBlindContext_cases s now slug key value updatedBy htrim with
    ⟨e', he⟩ | ⟨e', s'', he, hfree, hkey, -, -, hput⟩
  · rw [he] at h
    cases h
  · rw [he] at h
    cases h
    exact not_addsNothing hfree (hkey ▸ hput.self)

theorem Creation.insert_adds (c : Creation) {now : Now} {e : ContextEntry} {s' : AppState}
    (h : c.insert s now = (.ok e, s')) : ¬ AddsNothing s s' := by
  cases c with
  | workflow plan => exact insertWorkflowContext_adds Orchestration.trim_planContextKey h
  | blind plan viewer => exact insertBlindContext_adds BlindCompetition.trim_blindPlanContextKey h

theorem late_create (c : CreateCall) (h : ((RequestCall.create c).step m).1.Late) :
    ¬ AddsNothing m.state ((RequestCall.create c).step m).2 := by
  unfold RequestCall.step at h ⊢
  cases c with
  | workflow planId req =>
    dsimp only [CreateCall.step] at h
    cases hplan : Orchestration.buildPlan m.state m.now planId req with
    | error e => exact (hplan ▸ h).elim
    | ok plan => exact (hplan ▸ h).elim
  | blind planId req viewer =>
    dsimp only [CreateCall.step] at h
    cases hplan : BlindCompetition.buildPlan m.state m.now planId req with
    | error e => exact (hplan ▸ h).elim
    | ok plan => exact (hplan ▸ h).elim
  | opening c =>
    dsimp only [CreateCall.step] at h
    rcases hr : m.state.createOrGetChannel m.surroundings m.now c.channel c.topic c.createdBy with ⟨e | a, s'⟩
    · exact (hr ▸ h).elim
    · exact (hr ▸ h).elim
  | seating c rest =>
    cases rest with
    | nil =>
      dsimp only [CreateCall.step] at h ⊢
      rcases hr : c.insert m.state m.now with ⟨e | a, s'⟩
      · exact (hr ▸ h).elim
      · exact c.insert_adds hr
    | cons agentKey rest =>
      dsimp only [CreateCall.step] at h
      rcases hr : m.state.join m.now c.channel agentKey .member with ⟨e | a, s'⟩
      · exact (hr ▸ h).elim
      · exact (hr ▸ h).elim
  | announcing c =>
    dsimp only [CreateCall.step] at h
    rcases hr : m.state.postMessage m.now m.messageId c.channel c.createdBy .system c.notice c.metadata with
      ⟨e | a, s'⟩
    · exact (hr ▸ h).elim
    · exact (hr ▸ h).elim
  | finished result => exact h.elim

open Orchestration in
theorem late_submit (c : SubmitCall) (h : ((RequestCall.submit c).step m).1.Late) :
    (RequestCall.submit c).Late ∨ ¬ AddsNothing m.state ((RequestCall.submit c).step m).2 := by
  unfold RequestCall.step at h ⊢
  cases c with
  | checked workflowId input =>
    dsimp only [SubmitCall.step] at h
    rcases hr : (do
      let plan ← loadPlan m.state workflowId
      let assignment ← findAssignment plan input.agentKey
      return (plan, assignment)) with e | p
    · exact (hr ▸ h).elim
    · exact (hr ▸ h).elim
  | planned plan assignment input =>
    dsimp only [SubmitCall.step] at h
    rcases hr : (do
      let submissions ← loadSubmissions m.state plan.channel
      validateSubmissionTurn plan assignment submissions) with e | u
    · exact (hr ▸ h).elim
    · exact (hr ▸ h).elim
  | validated plan assignment input =>
    dsimp only [SubmitCall.step] at h ⊢
    rcases hr : insertWorkflowContext m.state m.now plan.channel (submissionKey assignment.ordinal)
      (.workflowSubmission (newSubmission plan assignment input m.now)) input.agentKey with ⟨e | a, s'⟩
    · exact (hr ▸ h).elim
    · exact .inr (insertWorkflowContext_adds (trim_submissionKey _) hr)
  | stored => exact .inl trivial
  | finished result => exact h.elim

open BlindCompetition in
theorem late_blind (c : BlindCall) (h : ((RequestCall.blind c).step m).1.Late) :
    (RequestCall.blind c).Late ∨ ¬ AddsNothing m.state ((RequestCall.blind c).step m).2 := by
  unfold RequestCall.step at h ⊢
  cases c with
  | submitting identity workflowId content metadata =>
    dsimp only [BlindCall.step] at h
    rcases hr : loadPlan m.state workflowId with e | plan
    · exact (hr ▸ h).elim
    · exact (hr ▸ h).elim
  | planned identity plan content metadata =>
    dsimp only [BlindCall.step] at h
    rcases hr : assignedWorker m.state identity plan with e | worker
    · exact (hr ▸ h).elim
    · exact (hr ▸ h).elim
  | admitted identity plan worker content metadata =>
    dsimp only [BlindCall.step] at h ⊢
    rcases hr : insertBlindContext m.state m.now plan.channel (submissionKey worker.ordinal)
      (.blindSubmission (newSubmission m.now identity plan worker content metadata)) identity.agentKey with
      ⟨e | a, s'⟩
    · exact (hr ▸ h).elim
    · exact .inr (insertBlindContext_adds (trim_submissionKey _) hr)
  | stored => exact .inl trivial
  | revealing identity workflowId =>
    dsimp only [BlindCall.step] at h
    rcases hr : loadPlan m.state workflowId with e | plan
    · exact (hr ▸ h).elim
    · rw [hr] at h
      dsimp only at h
      split_ifs at h
      · exact h.elim
      · exact h.elim
  | reviewing identity plan =>
    dsimp only [BlindCall.step] at h
    rcases hr : countCandidates m.state plan with e | candidates
    · exact (hr ▸ h).elim
    · exact (hr ▸ h).elim
  | counted identity plan candidates =>
    dsimp only [BlindCall.step] at h ⊢
    rcases hr : insertBlindContext m.state m.now plan.channel blindRevealContextKey
      (.blindReveal (newReveal m.now identity plan)) identity.agentKey with ⟨e | a, s'⟩
    · exact (hr ▸ h).elim
    · exact .inr (insertBlindContext_adds trim_blindRevealContextKey hr)
  | opened => exact .inl trivial
  | finished result => exact h.elim

theorem RequestCall.late_step (q : RequestCall) (h : (q.step m).1.Late) :
    q.Late ∨ ¬ AddsNothing m.state (q.step m).2 := by
  cases q with
  | create c => exact .inr (late_create c h)
  | submit c => exact late_submit c h
  | blind c => exact late_blind c h

end Steps

section Additions
variable {s : AppState} {m : Juncture}

theorem createOrGetChannel_adds {w : Surroundings} {now : Now} {slug : Text} (topic createdBy : Text) :
    ¬ AddsNothing s (s.createOrGetChannel w now slug topic createdBy).2 ↔
      CanOpen s w slug ∧ s.channels.contains (slugify w slug) = false := by
  unfold AppState.createOrGetChannel CanOpen
  dsimp only
  by_cases hempty : slugify w slug = []
  · rw [if_pos hempty]
    exact iff_of_false (not_not.mpr (.refl s)) fun h => h.1.1 hempty
  · rw [if_neg hempty]
    cases hch : s.channels.get (slugify w slug) with
    | some ch =>
      refine iff_of_false (not_not.mpr (.refl s)) ?_
      rintro ⟨-, hfree⟩
      rw [Table.contains, hch] at hfree
      cases hfree
    | none =>
      have hfree : s.channels.contains (slugify w slug) = false := by
        rw [Table.contains, hch]
        rfl
      dsimp only
      unfold AppState.insertChannel
      dsimp only
      rw [hch]
      dsimp only
      by_cases hfull : s.channels.size ≥ s.config.maxChannels
      · rw [if_pos hfull]
        refine iff_of_false (not_not.mpr (.refl s)) ?_
        rintro ⟨⟨-, h | h⟩, -⟩
        · exact Bool.false_ne_true (hfree.symm.trans h)
        · exact absurd hfull (Nat.not_le.mpr h)
      · rw [if_neg hfull]
        refine iff_of_true (fun h => ?_) ⟨⟨hempty, .inr (Nat.not_le.mp hfull)⟩, hfree⟩
        have hhad := h (.channel (slugify w slug)) ((Table.contains_insert _ _ _ _).mpr (.inl rfl))
        exact Bool.false_ne_true (hfree.symm.trans hhad)

theorem join_adds {now : Now} {slug key : Text} (role : MemberRole) :
    ¬ AddsNothing s (s.join now slug key role).2 ↔ CanJoin s slug key ∧ Unseated s slug key := by
  rw [← @join_ok s now slug key role]
  have heff := join_effect s now slug key role
  generalize s.join now slug key role = r at heff ⊢
  rcases r with ⟨e | out, s'⟩
  · cases heff
    exact iff_of_false (not_not.mpr (.refl s)) fun ⟨⟨_, h⟩, _⟩ => nomatch h
  · rw [heff.addsNothing_iff, Bool.not_eq_true]
    exact (and_iff_right ⟨out, rfl⟩).symm

theorem postMessage_adds {now : Now} {newId slug sender : Text} {role : Role} {content : Text} {metadata : Json} :
    ¬ AddsNothing s (s.postMessage now newId slug sender role content metadata).2 ↔
      CanPost s slug sender content metadata ∧ Unseated s slug sender := by
  rw [← @postMessage_ok s now slug sender newId role content metadata]
  have heff := post_effect s now newId slug sender role content metadata
  generalize s.postMessage now newId slug sender role content metadata = r at heff ⊢
  rcases r with ⟨e | message, s'⟩
  · cases heff
    exact iff_of_false (not_not.mpr (.refl s)) fun ⟨⟨_, h⟩, _⟩ => nomatch h
  · rw [heff.addsNothing_iff, Bool.not_eq_true]
    exact (and_iff_right ⟨message, rfl⟩).symm

/-- A call that stores a record, or fails and changes nothing. -/
theorem stores_iff {α : Type} {r : BridgeResult α × AppState} {P : Prop} (hok : (∃ a, r.1 = .ok a) ↔ P)
    (herror : ∀ e, r.1 = .error e → r.2 = s) (hadds : ∀ a s', r = (.ok a, s') → ¬ AddsNothing s s') :
    ¬ AddsNothing s r.2 ↔ P := by
  rcases settle hok herror with ⟨hready, a, s', hr⟩ | ⟨hready, e, hr⟩
  · rw [hr]
    exact iff_of_true (hadds a s' hr) hready
  · rw [hr]
    exact iff_of_false (not_not.mpr (.refl s)) hready

theorem due_create (c : CreateCall) :
    (RequestCall.create c).Due m ↔ ¬ AddsNothing m.state ((RequestCall.create c).step m).2 := by
  unfold RequestCall.step
  -- what the stage's call adds, as its lemma says it of the state found
  cases c with
  | workflow planId req =>
    dsimp only [CreateCall.step]
    cases Orchestration.buildPlan m.state m.now planId req <;> exact iff_of_false id (not_not.mpr (.refl _))
  | blind planId req viewer =>
    dsimp only [CreateCall.step]
    cases BlindCompetition.buildPlan m.state m.now planId req <;> exact iff_of_false id (not_not.mpr (.refl _))
  | opening c =>
    have hadds := @createOrGetChannel_adds m.state m.surroundings m.now c.channel c.topic c.createdBy
    dsimp only [CreateCall.step]
    rcases hr : m.state.createOrGetChannel m.surroundings m.now c.channel c.topic c.createdBy with ⟨e | a, s'⟩
    all_goals
      rw [hr] at hadds
      exact hadds.symm
  | seating c rest =>
    cases rest with
    | nil =>
      have hadds := stores_iff (s := m.state) (c.insert_ok m.now) (c.insert_error m.now) fun a s' hr => c.insert_adds hr
      dsimp only [CreateCall.step]
      rcases hr : c.insert m.state m.now with ⟨e | a, s'⟩
      all_goals
        rw [hr] at hadds
        exact hadds.symm
    | cons agentKey rest =>
      have hadds := @join_adds m.state m.now c.channel agentKey .member
      dsimp only [CreateCall.step]
      rcases hr : m.state.join m.now c.channel agentKey .member with ⟨e | a, s'⟩
      all_goals
        rw [hr] at hadds
        exact hadds.symm
  | announcing c =>
    have hadds := @postMessage_adds m.state m.now m.messageId c.channel c.createdBy .system c.notice c.metadata
    dsimp only [CreateCall.step]
    rcases hr : m.state.postMessage m.now m.messageId c.channel c.createdBy .system c.notice c.metadata with
      ⟨e | a, s'⟩
    all_goals
      rw [hr] at hadds
      exact hadds.symm
  | finished result => exact iff_of_false id (not_not.mpr (.refl _))

open Orchestration in
theorem due_submit (c : SubmitCall) :
    (RequestCall.submit c).Due m ↔ ¬ AddsNothing m.state ((RequestCall.submit c).step m).2 := by
  unfold RequestCall.step
  cases c with
  | checked workflowId input =>
    dsimp only [SubmitCall.step]
    rcases hr : (do
      let plan ← loadPlan m.state workflowId
      let assignment ← findAssignment plan input.agentKey
      return (plan, assignment)) with e | p
    all_goals
      rw [hr]
      exact iff_of_false id (not_not.mpr (.refl _))
  | planned plan assignment input =>
    dsimp only [SubmitCall.step]
    rcases hr : (do
      let submissions ← loadSubmissions m.state plan.channel
      validateSubmissionTurn plan assignment submissions) with e | u
    all_goals
      rw [hr]
      exact iff_of_false id (not_not.mpr (.refl _))
  | validated plan assignment input =>
    have hadds := stores_iff (@insertWorkflowContext_ok m.state m.now plan.channel (submissionKey assignment.ordinal)
      (.workflowSubmission (newSubmission plan assignment input m.now)) input.agentKey) insertWorkflowContext_error
      fun a s' hr => insertWorkflowContext_adds (trim_submissionKey _) hr
    dsimp only [SubmitCall.step]
    rcases hr : insertWorkflowContext m.state m.now plan.channel (submissionKey assignment.ordinal)
      (.workflowSubmission (newSubmission plan assignment input m.now)) input.agentKey with ⟨e | a, s'⟩
    all_goals
      rw [hr] at hadds
      exact hadds.symm
  | stored plan assignment input =>
    have hadds := @postMessage_adds m.state m.now m.messageId plan.channel input.agentKey .assistant input.content
      (submissionMetadata plan assignment)
    dsimp only [SubmitCall.step]
    rcases hr : m.state.postMessage m.now m.messageId plan.channel input.agentKey .assistant input.content
      (submissionMetadata plan assignment) with ⟨e | a, s'⟩
    all_goals
      rw [hr] at hadds
      exact hadds.symm
  | finished result => exact iff_of_false id (not_not.mpr (.refl _))

open BlindCompetition in
theorem due_blind (c : BlindCall) :
    (RequestCall.blind c).Due m ↔ ¬ AddsNothing m.state ((RequestCall.blind c).step m).2 := by
  unfold RequestCall.step
  cases c with
  | submitting identity workflowId content metadata =>
    dsimp only [BlindCall.step]
    cases loadPlan m.state workflowId <;> exact iff_of_false id (not_not.mpr (.refl _))
  | planned identity plan content metadata =>
    dsimp only [BlindCall.step]
    cases assignedWorker m.state identity plan <;> exact iff_of_false id (not_not.mpr (.refl _))
  | admitted identity plan worker content metadata =>
    have hadds := stores_iff (@insertBlindContext_ok m.state m.now plan.channel (submissionKey worker.ordinal)
      (.blindSubmission (newSubmission m.now identity plan worker content metadata)) identity.agentKey)
      insertBlindContext_error fun a s' hr => insertBlindContext_adds (trim_submissionKey _) hr
    dsimp only [BlindCall.step]
    rcases hr : insertBlindContext m.state m.now plan.channel (submissionKey worker.ordinal)
      (.blindSubmission (newSubmission m.now identity plan worker content metadata)) identity.agentKey with
      ⟨e | a, s'⟩
    all_goals
      rw [hr] at hadds
      exact hadds.symm
  | stored identity plan submission =>
    have hadds := @postMessage_adds m.state m.now m.messageId plan.channel identity.agentKey .system
      ("Blind candidate ".toList ++ Text.decimal submission.assignmentOrdinal ++ " submitted.".toList)
      (submissionMetadata submission)
    dsimp only [BlindCall.step]
    rcases hr : m.state.postMessage m.now m.messageId plan.channel identity.agentKey .system
      ("Blind candidate ".toList ++ Text.decimal submission.assignmentOrdinal ++ " submitted.".toList)
      (submissionMetadata submission) with ⟨e | a, s'⟩
    all_goals
      rw [hr] at hadds
      exact hadds.symm
  | revealing identity workflowId =>
    dsimp only [BlindCall.step]
    cases loadPlan m.state workflowId with
    | error e => exact iff_of_false id (not_not.mpr (.refl _))
    | ok plan =>
      dsimp only
      split_ifs <;> exact iff_of_false id (not_not.mpr (.refl _))
  | reviewing identity plan =>
    dsimp only [BlindCall.step]
    cases countCandidates m.state plan <;> exact iff_of_false id (not_not.mpr (.refl _))
  | counted identity plan candidates =>
    have hadds := stores_iff (@insertBlindContext_ok m.state m.now plan.channel blindRevealContextKey
      (.blindReveal (newReveal m.now identity plan)) identity.agentKey) insertBlindContext_error
      fun a s' hr => insertBlindContext_adds trim_blindRevealContextKey hr
    dsimp only [BlindCall.step]
    rcases hr : insertBlindContext m.state m.now plan.channel blindRevealContextKey
      (.blindReveal (newReveal m.now identity plan)) identity.agentKey with ⟨e | a, s'⟩
    all_goals
      rw [hr] at hadds
      exact hadds.symm
  | opened identity plan candidates =>
    have hadds := @postMessage_adds m.state m.now m.messageId plan.channel identity.agentKey .system
      "Blind candidate set revealed to authorized workflow readers.".toList (revealMetadata plan candidates)
    dsimp only [BlindCall.step]
    rcases hr : m.state.postMessage m.now m.messageId plan.channel identity.agentKey .system
      "Blind candidate set revealed to authorized workflow readers.".toList (revealMetadata plan candidates) with
      ⟨e | a, s'⟩
    all_goals
      rw [hr] at hadds
      exact hadds.symm
  | finished result => exact iff_of_false id (not_not.mpr (.refl _))

/-- The state a step finds decides whether it brings something into being. -/
theorem RequestCall.due_iff (q : RequestCall) : q.Due m ↔ ¬ AddsNothing m.state (q.step m).2 := by
  cases q with
  | create c => exact due_create c
  | submit c => exact due_submit c
  | blind c => exact due_blind c

end Additions

end AgentBridge
