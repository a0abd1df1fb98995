import AgentBridge.Blind.Observers

/-! Blind competitions keep a candidate from everyone but its author until the reveal:
two runs with different candidates give all others the same replies, messages and events. -/

namespace AgentBridge.BlindCompetition
open State

inductive BlindRequest
  | register (agent : Agent)
  | agents
  | createChannel (slug topic createdBy : Text)
  | resolve (topicId suffixId query createdBy : Text) (threshold : Option Float32)
  | channel (slug : Text)
  | channels
  | join (slug key : Text) (role : MemberRole)
  | leave (slug key : Text)
  | members (slug : Text)
  | post (slug sender : Text) (role : Role) (content : Text) (metadata : Json)
  | history (slug : Text) (since : Option Nat)
  | subscribe (slug : Text) (agentKey : Option Text)
  | setContext (slug key : Text) (value : Json) (updatedBy : Text)
  | context (slug : Text)
  | contextKey (slug key : Text)
  | createWorkflow (id : Text) (req : CreateWorkflowReq)
  | workflow (workflowId : Text)
  | workflows
  | submitWorkflow (workflowId : Text) (req : SubmitWorkflowReq)
  | create (id : Text) (req : CreateBlindCompetitionReq)
  | get (workflowId : Text)
  | submit (workflowId : Text) (req : SubmitBlindCompetitionReq)
  | reveal (workflowId : Text)

/-- A request, who presents it, and the clocks and message id the bridge uses for it. -/
structure Presented where
  viewer : Option AuthenticatedAdapter
  now : Now
  messageId : Text
  request : BlindRequest

inductive BlindReply
  | agent (r : BridgeResult Agent)
  | agents (r : List Agent)
  | channel (r : BridgeResult Channel)
  | resolved (r : BridgeResult ResolveOutcome)
  | channels (r : List Channel)
  | joined (r : BridgeResult JoinOutcome)
  | left (r : BridgeResult Bool)
  | members (r : BridgeResult (List Member))
  | message (r : BridgeResult Message)
  | history (r : BridgeResult (List Message))
  | subscribed (r : BridgeResult (Nat × Nat))
  | entry (r : BridgeResult ContextEntry)
  | context (r : BridgeResult (List ContextEntry))
  | contextKey (r : BridgeResult (Option ContextEntry))
  | workflow (r : BridgeResult WorkflowView)
  | workflows (r : List WorkflowView)
  | submitted (r : Orchestration.SubmitCall)
  | blind (r : BridgeResult BlindCompetitionView)

def tagged {α : Type} (tag : α → BlindReply) (p : α × AppState) : BlindReply × AppState := (tag p.1, p.2)

def serve (w : Surroundings) (s : AppState) (p : Presented) : BlindReply × AppState :=
  match p.request with
  | .register agent => tagged .agent (s.registerAgent p.now agent)
  | .agents => (.agents s.listAgents, s)
  | .createChannel slug topic createdBy => tagged .channel (s.createOrGetChannel w p.now slug topic createdBy)
  | .resolve topicId suffixId query createdBy threshold =>
    tagged .resolved (s.resolveChannel w p.now topicId suffixId query createdBy threshold)
  | .channel slug => (.channel (s.getChannel slug), s)
  | .channels => (.channels s.listChannels, s)
  | .join slug key role => tagged .joined (s.join p.now slug key role)
  | .leave slug key => tagged .left (s.leave p.now slug key)
  | .members slug => (.members (s.members slug), s)
  | .post slug sender role content metadata =>
    tagged .message (s.postMessage p.now p.messageId slug sender role content metadata)
  | .history slug since => (.history (s.history slug since), s)
  | .subscribe slug agentKey => tagged .subscribed (s.subscribe p.now slug agentKey)
  | .setContext slug key value updatedBy => tagged .entry (s.setContext p.now slug key value updatedBy)
  | .context slug => (.context (s.getContext slug), s)
  | .contextKey slug key => (.contextKey (s.getContextKey slug key), s)
  | .createWorkflow id req => tagged .workflow (Orchestration.createWorkflow s w p.now id p.messageId req)
  | .workflow workflowId => (.workflow (Orchestration.getWorkflow s workflowId), s)
  | .workflows => (.workflows (Orchestration.listWorkflows s), s)
  | .submitWorkflow workflowId req =>
    tagged .submitted (Orchestration.submitWorkflow s p.now p.messageId workflowId req)
  | .create id req => tagged .blind (createBlindCompetition s p.now p.viewer w id p.messageId req)
  | .get workflowId => (.blind (getBlindCompetition s p.viewer workflowId), s)
  | .submit workflowId req => tagged .blind (submitBlindCompetition s p.now p.viewer p.messageId workflowId req)
  | .reveal workflowId => tagged .blind (revealBlindCompetition s p.now p.viewer p.messageId workflowId)

section Reads
variable {worker channel : Text}

theorem values_mask {α : Type} (s : AppState) {f : ChannelState → α}
    (hf : ∀ slug ch, f (maskChannel worker channel slug ch) = f ch) :
    (mask worker channel s).channels.values.map f = s.channels.values.map f := Table.map_values_map hf s.channels

theorem getChannel_mask (s : AppState) (slug : Text) : (mask worker channel s).getChannel slug = s.getChannel slug := by
  unfold AppState.getChannel
  rw [get_mask]
  cases s.channels.get slug <;> rfl

theorem resolveChannel_mask (s : AppState) (w : Surroundings) (now : Now) (topicId suffixId query createdBy : Text)
    (threshold : Option Float32) :
    (mask worker channel s).resolveChannel w now topicId suffixId query createdBy threshold =
      ((s.resolveChannel w now topicId suffixId query createdBy threshold).1,
        mask worker channel (s.resolveChannel w now topicId suffixId query createdBy threshold).2) := by
  have hslug (base : Text) : (mask worker channel s).uniqueSlug topicId suffixId base =
      s.uniqueSlug topicId suffixId base := by
    unfold AppState.uniqueSlug
    simp only [contains_mask]
  have hscored (v : List Float32) :
      ((mask worker channel s).channels.values.map fun c => (c.slug, cosine v c.embedding)) =
      s.channels.values.map fun c => (c.slug, cosine v c.embedding) :=
    values_mask s fun _ _ => rfl
  have hthreshold : (mask worker channel s).resolveThreshold threshold = s.resolveThreshold threshold := rfl
  unfold AppState.resolveChannel
  dsimp only
  rw [hslug, hscored, hthreshold, insertChannel_mask]
  split_ifs
  · rfl
  cases bestScored (s.channels.values.map fun c => (c.slug, cosine (w.embed (Text.trim query)).1 c.embedding)) with
  | none => rfl
  | some best =>
    dsimp only
    rw [getChannel_mask]
    split_ifs <;> rfl

theorem listChannels_mask (s : AppState) : (mask worker channel s).listChannels = s.listChannels := by
  unfold AppState.listChannels
  rw [values_mask s fun _ _ => rfl]

theorem members_mask (s : AppState) (slug : Text) : (mask worker channel s).members slug = s.members slug := by
  unfold AppState.members
  rw [get_mask]
  cases s.channels.get slug <;> rfl

theorem history_mask (s : AppState) (slug : Text) (since : Option Nat) :
    (mask worker channel s).history slug since = s.history slug since := by
  unfold AppState.history
  rw [get_mask]
  cases s.channels.get slug <;> rfl

theorem listWorkflows_mask (s : AppState) :
    Orchestration.listWorkflows (mask worker channel s) = Orchestration.listWorkflows s := by
  unfold Orchestration.listWorkflows
  have hview : Orchestration.workflowView (mask worker channel s) = Orchestration.workflowView s :=
    funext fun plan => workflowView_mask s plan
  simp only [listChannels_mask, loadPlanByChannel_mask, hview]

end Reads

section Serve
variable {worker channel : Text} {s t : AppState}

theorem tagged_indistinct {α : Type} {viewer : Option Text} {p q : α × AppState}
    (h : Indistinct worker channel viewer p q) (tag : α → BlindReply) :
    Indistinct worker channel viewer (tagged tag p) (tagged tag q) :=
  ⟨h.1, fun hviewer hhidden => congrArg tag (h.2 hviewer hhidden)⟩

theorem Alike.reply (h : Alike worker channel s t) (viewer : Option Text) (reply : AppState → BlindReply)
    (hreply : ∀ s, reply (mask worker channel s) = reply s) :
    Indistinct worker channel viewer (reply s, s) (reply t, t) := ⟨h, fun _ _ => h.read reply hreply⟩

theorem serve_indistinct (w : Surroundings) (h : Alike worker channel s t) (p : Presented) :
    Indistinct worker channel (viewerKey p.viewer) (serve w s p) (serve w t p) := by
  obtain ⟨viewer, now, messageId, request⟩ := p
  -- requests outside the competition run alike on both states, its own four have lemmas of their own
  cases request with
  | register agent =>
    exact tagged_indistinct
      ((h.same (fun s => s.registerAgent now agent) fun s => registerAgent_mask s now agent).indistinct _) _
  | agents => exact h.reply _ (fun s => .agents s.listAgents) fun s => rfl
  | createChannel slug topic createdBy =>
    exact tagged_indistinct ((createOrGetChannel_same h w now slug topic createdBy).indistinct _) _
  | resolve topicId suffixId query createdBy threshold =>
    exact tagged_indistinct ((h.same (fun s => s.resolveChannel w now topicId suffixId query createdBy threshold)
      fun s => resolveChannel_mask s w now topicId suffixId query createdBy threshold).indistinct _) _
  | channel slug => exact h.reply _ (fun s => .channel (s.getChannel slug)) fun s => congrArg _ (getChannel_mask s slug)
  | channels => exact h.reply _ (fun s => .channels s.listChannels) fun s => congrArg _ (listChannels_mask s)
  | join slug key role =>
    exact tagged_indistinct
      ((h.same (fun s => s.join now slug key role) fun s => join_mask s now slug key role).indistinct _) _
  | leave slug key =>
    exact tagged_indistinct ((h.same (fun s => s.leave now slug key) fun s => leave_mask s now slug key).indistinct _) _
  | members slug => exact h.reply _ (fun s => .members (s.members slug)) fun s => congrArg _ (members_mask s slug)
  | post slug sender role content metadata =>
    exact tagged_indistinct ((postMessage_same h now messageId slug sender role content metadata).indistinct _) _
  | history slug since =>
    exact h.reply _ (fun s => .history (s.history slug since)) fun s => congrArg _ (history_mask s slug since)
  | subscribe slug agentKey =>
    exact tagged_indistinct ((h.same (fun s => s.subscribe now slug agentKey)
      fun s => subscribe_mask s now slug agentKey).indistinct _) _
  | setContext slug key value updatedBy =>
    exact tagged_indistinct ((setContext_same h now slug key value updatedBy).indistinct _) _
  | context slug => exact h.reply _ (fun s => .context (s.getContext slug)) fun s => congrArg _ getContext_mask
  | contextKey slug key =>
    exact h.reply _ (fun s => .contextKey (s.getContextKey slug key)) fun s => congrArg _ getContextKey_mask
  | createWorkflow id req =>
    exact tagged_indistinct ((createWorkflow_same h w now id messageId req).indistinct _) _
  | workflow workflowId =>
    exact h.reply _ (fun s => .workflow (Orchestration.getWorkflow s workflowId))
      fun s => congrArg _ (getWorkflow_mask s workflowId)
  | workflows =>
    exact h.reply _ (fun s => .workflows (Orchestration.listWorkflows s)) fun s => congrArg _ (listWorkflows_mask s)
  | submitWorkflow workflowId req =>
    exact tagged_indistinct ((submitWorkflow_same h now messageId workflowId req).indistinct _) _
  | create id req => exact tagged_indistinct (create_indistinct h now viewer w id messageId req) _
  | get workflowId => exact tagged_indistinct (get_indistinct h viewer workflowId) BlindReply.blind
  | submit workflowId req => exact tagged_indistinct (submit_indistinct h now viewer messageId workflowId req) _
  | reveal workflowId => exact tagged_indistinct (reveal_indistinct h now viewer messageId workflowId) _

end Serve

section Candidates
variable {s : AppState} {now : Now} {identity : AuthenticatedAdapter} {messageId workflowId : Text}
  {plan : BlindCompetitionPlan} {req req' : SubmitBlindCompetitionReq}

def accepted (s : AppState) (now : Now) (identity : AuthenticatedAdapter) (workflowId : Text)
    (req : SubmitBlindCompetitionReq) : Bool :=
  match submitChecks s now identity workflowId req with
  | .error _ => false
  | .ok (plan, submission) =>
    (insertBlindContext s now plan.channel (submissionKey submission.assignmentOrdinal)
      (.blindSubmission submission) identity.agentKey).1.toOption.isSome

theorem accepted_stored (hplan : loadPlan s workflowId = .ok plan)
    (h : accepted s now identity workflowId req = true) :
    ∃ worker content e s', assignedWorker s identity plan = .ok worker ∧
      submitChecks s now identity workflowId req =
        .ok (plan, newSubmission now identity plan worker content req.metadata) ∧
      insertBlindContext s now plan.channel (submissionKey worker.ordinal)
        (.blindSubmission (newSubmission now identity plan worker content req.metadata)) identity.agentKey =
        (.ok e, s') := by
  unfold accepted at h
  cases hchecks : submitChecks s now identity workflowId req with
  | error e =>
    rw [hchecks] at h
    cases h
  | ok checked =>
    rw [hchecks] at h
    have hsteps := hchecks
    rw [submitChecks_eq] at hsteps
    obtain ⟨content, -, hsteps⟩ := Except.bind_eq_ok.mp hsteps
    obtain ⟨plan', hplan', hsteps⟩ := Except.bind_eq_ok.mp hsteps
    obtain ⟨worker, hworker, hsteps⟩ := Except.bind_eq_ok.mp hsteps
    rw [hplan] at hplan'
    cases hplan'
    cases hsteps
    have hordinal : (newSubmission now identity plan worker content req.metadata).assignmentOrdinal =
        worker.ordinal := rfl
    dsimp only at h
    rw [hordinal] at h
    rcases hinsert : insertBlindContext s now plan.channel (submissionKey worker.ordinal)
      (.blindSubmission (newSubmission now identity plan worker content req.metadata)) identity.agentKey
      with ⟨r, s'⟩
    rw [hinsert] at h
    cases r with
    | error e => cases h
    | ok e => exact ⟨worker, content, e, s', hworker, rfl, hinsert⟩

theorem accepted_alike (hplan : loadPlan s workflowId = .ok plan)
    (h : accepted s now identity workflowId req = true) (h' : accepted s now identity workflowId req' = true) :
    Alike identity.agentKey plan.channel
      (submitBlindCompetition s now (some identity) messageId workflowId req).2
      (submitBlindCompetition s now (some identity) messageId workflowId req').2 := by
  obtain ⟨worker, content, e, s₁, hworker, hchecks, hinsert⟩ := accepted_stored hplan h
  obtain ⟨worker', content', e', s₁', hworker', hchecks', hinsert'⟩ := accepted_stored hplan h'
  obtain rfl := Except.ok.inj (hworker.symm.trans hworker')
  have hmask : maskSubmission identity.agentKey (newSubmission now identity plan worker content req.metadata) =
      maskSubmission identity.agentKey (newSubmission now identity plan worker content' req'.metadata) := by
    have hmine (content : Text) (metadata : Json) :
        (newSubmission now identity plan worker content metadata).agentKey = identity.agentKey := rfl
    rw [maskSubmission, maskSubmission, if_pos (hmine ..), if_pos (hmine ..)]
    rfl
  have hstored : Alike identity.agentKey plan.channel s₁ s₁' :=
    candidates_alike (Alike.refl s) hmask hinsert hinsert'
  have hordinal (content : Text) (metadata : Json) :
      (newSubmission now identity plan worker content metadata).assignmentOrdinal = worker.ordinal := rfl
  have hnotice (content : Text) (metadata : Json) :
      submissionMetadata (newSubmission now identity plan worker content metadata) =
        submissionMetadata (newSubmission now identity plan worker [] .null) := rfl
  unfold submitBlindCompetition
  dsimp only
  rw [hchecks, hchecks']
  dsimp only
  unfold publish
  rw [hordinal, hordinal, hinsert, hinsert', hnotice, hnotice content']
  dsimp only
  rcases (postMessage_same hstored now messageId plan.channel identity.agentKey .system
    ("Blind candidate ".toList ++ Text.decimal worker.ordinal ++ " submitted.".toList)
    (submissionMetadata (newSubmission now identity plan worker [] .null))).cases with
    ⟨e, s, t, hs, ht, h⟩ | ⟨message, s, t, hs, ht, h⟩
  · rw [hs, ht]
    exact h
  · rw [hs, ht]
    exact h

end Candidates

def runAll (w : Surroundings) (config : Config) (ps : List Presented) : AppState :=
  Run.exec (fun s p => (serve w s p).2) (AppState.new config) ps

/-- What the members of a channel hold and its subscribers were sent. -/
def traffic (s : AppState) (slug : Text) : Option (List Message × List Event) :=
  (s.channels.get slug).map fun ch => (ch.messages, ch.events)

theorem traffic_mask {worker channel : Text} (s : AppState) (slug : Text) :
    traffic (mask worker channel s) slug = traffic s slug := by
  unfold traffic
  rw [get_mask, Option.map_map]
  rfl

/-- Two runs of the same requests that differ in the content and metadata of one accepted candidate:
until the reveal is stored every reply to anyone but its author is the same in both, and so are
the messages and events of every channel. -/
theorem blind_noninterference (w : Surroundings) (config : Config) (before after : List Presented)
    (identity : AuthenticatedAdapter) (now : Now) (messageId workflowId : Text) (plan : BlindCompetitionPlan)
    (agentKey content content' : Text) (metadata metadata' : Json)
    (hplan : loadPlan (runAll w config before) workflowId = .ok plan)
    (hfirst : accepted (runAll w config before) now identity workflowId ⟨agentKey, content, metadata⟩ = true)
    (hsecond : accepted (runAll w config before) now identity workflowId ⟨agentKey, content', metadata'⟩ = true) :
    let submission : Presented := ⟨some identity, now, messageId, .submit workflowId ⟨agentKey, content, metadata⟩⟩
    let other : Presented := ⟨some identity, now, messageId, .submit workflowId ⟨agentKey, content', metadata'⟩⟩
    let s := runAll w config (before ++ submission :: after)
    let t := runAll w config (before ++ other :: after)
    (∀ slug, traffic s slug = traffic t slug) ∧
    ∀ p : Presented, viewerKey p.viewer ≠ some identity.agentKey →
      (serve w s p).2.entry plan.channel blindRevealContextKey = none →
      (serve w s p).1 = (serve w t p).1 := by
  intro submission other s t
  have hsplit (p : Presented) : runAll w config (before ++ p :: after) =
      Run.exec (fun s p => (serve w s p).2) (serve w (runAll w config before) p).2 after := Run.exec_append ..
  have hstored : Alike identity.agentKey plan.channel (serve w (runAll w config before) submission).2
      (serve w (runAll w config before) other).2 := accepted_alike hplan hfirst hsecond
  have hst : Alike identity.agentKey plan.channel s t := by
    change Alike _ _ (runAll w config (before ++ submission :: after)) (runAll w config (before ++ other :: after))
    rw [hsplit, hsplit]
    exact Run.exec_related (R := Alike identity.agentKey plan.channel)
      (fun s t p h => (serve_indistinct w h p).1) hstored after
  refine ⟨fun slug => hst.read (fun s => traffic s slug) fun s => traffic_mask s slug, fun p hviewer hhidden => ?_⟩
  exact (serve_indistinct w hst p).2 hviewer hhidden

/-- Alice, Bob and the reviewer Rita, a competition, and Bob's candidate. -/
def openCompetition : List Presented :=
  let agent (key : Text) : Agent := {
    agentKey := key
    displayName := key
    kind := .other
    host := none
    metadata := .null
    registeredAt := [] }
  let presented (viewer : Option AuthenticatedAdapter) (t : Nat) (request : BlindRequest) : Presented :=
    ⟨viewer, ⟨t, t⟩, Text.decimal t, request⟩
  [presented none 0 (.register (agent "alice".toList)), presented none 1 (.register (agent "bob".toList)),
    presented none 2 (.register (agent "rita".toList)),
    presented none 3 (.create "b1".toList
      ⟨"title".toList, "prompt".toList, "carol".toList, ["alice".toList, "bob".toList], "rita".toList, .null⟩),
    presented (some ⟨"bob".toList, "bob".toList, .empty⟩) 4
      (.submit "b1".toList ⟨"bob".toList, "two".toList, .null⟩)]

/-- The reviewer reads the same view whichever candidate Alice stored. -/
theorem blind_noninterference_open :
    let identity : AuthenticatedAdapter := ⟨"alice".toList, "alice".toList, .empty⟩
    let candidate (content : Text) (metadata : Json) : Presented :=
      ⟨some identity, ⟨5, 5⟩, "m".toList, .submit "b1".toList ⟨"alice".toList, content, metadata⟩⟩
    let view (p : Presented) : BlindReply :=
      (serve asciiSurroundings
        (runAll asciiSurroundings .inMemory (openCompetition ++ p :: []))
        ⟨some ⟨"rita".toList, "rita".toList, .empty⟩, ⟨6, 6⟩, "n".toList, .get "b1".toList⟩).1
    view (candidate "one".toList .null) = view (candidate "another".toList (.nat 7)) := by
  intro identity candidate view
  have hload : (loadPlan (runAll asciiSurroundings .inMemory openCompetition) "b1".toList).toOption.map
      BlindCompetitionPlan.channel = some "blind-workflow-b1".toList := by decide +kernel
  obtain ⟨plan, hplan, hchannel⟩ := Except.toOption_map_eq_some.mp hload
  refine (blind_noninterference asciiSurroundings .inMemory openCompetition [] identity ⟨5, 5⟩ "m".toList
    "b1".toList plan "alice".toList "one".toList "another".toList .null (.nat 7) hplan (by decide +kernel)
    (by decide +kernel)).2 _ (by decide) ?_
  rw [hchannel, ← Option.isNone_iff_eq_none]
  decide +kernel

end AgentBridge.BlindCompetition
