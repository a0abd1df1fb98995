import AgentBridge.Blind.Masking

/-! The requests of a bridge with blind competitions, each with the adapter that presents
it, and what a request makes of two states that differ only in one worker's candidate. -/

namespace AgentBridge.BlindCompetition
open State

section Writes
variable {worker channel : Text} {s t : AppState}

theorem Alike.read {α : Type} (h : Alike worker channel s t) (read : AppState → α)
    (hread : ∀ s, read (mask worker channel s) = read s) : read s = read t := by
  rw [← hread s, ← hread t, h]

theorem Alike.put {slug : Text} {ch ch' : ChannelState} {e e' : ContextEntry} (h : Alike worker channel s t)
    (hch : maskChannel worker channel slug ch = maskChannel worker channel slug ch') (hkey : e.key = e'.key)
    (he : maskEntry worker channel slug e.key e = maskEntry worker channel slug e.key e') :
    Alike worker channel (s.setChannel slug (ch.putContext e)) (t.setChannel slug (ch'.putContext e')) := by
  have hput : maskChannel worker channel slug (ch.putContext e) =
      { maskChannel worker channel slug ch with
        context := (maskChannel worker channel slug ch).context.insert e.key
          (maskEntry worker channel slug e.key e) } := by
    rw [← maskChannel_putContext]
    rfl
  have hput' : maskChannel worker channel slug (ch'.putContext e') =
      { maskChannel worker channel slug ch' with
        context := (maskChannel worker channel slug ch').context.insert e'.key
          (maskEntry worker channel slug e'.key e') } := by
    rw [← maskChannel_putContext]
    rfl
  unfold Alike
  rw [mask_setChannel, mask_setChannel, h, hput, hput', hch, ← hkey, he]

section Channels
variable {slug : Text} {ch ch' : ChannelState}

theorem contains_of_masked (h : maskChannel worker channel slug ch = maskChannel worker channel slug ch') (key : Text) :
    ch.context.contains key = ch'.context.contains key := by
  have hcontains := congrArg (fun c : ChannelState => c.context.contains key) h
  simpa using hcontains

theorem size_of_masked (h : maskChannel worker channel slug ch = maskChannel worker channel slug ch') :
    ch.context.size = ch'.context.size := by
  have hsize := congrArg (fun c : ChannelState => c.context.size) h
  simpa using hsize

/-- Masking keeps versions, so an entry is written with the same one. -/
theorem contextEntry_of_masked (h : maskChannel worker channel slug ch = maskChannel worker channel slug ch')
    (now : Now) (key : Text) (value : ContextValue) (updatedBy : Text) :
    AppState.contextEntry ch now key value updatedBy = AppState.contextEntry ch' now key value updatedBy := by
  have hversion := congrArg
    (fun c : ChannelState => (c.context.get key).map fun e => saturatingSucc e.version) h
  have hnext : (ch.context.get key).map (fun e => saturatingSucc e.version) =
      (ch'.context.get key).map fun e => saturatingSucc e.version := by
    simpa [Function.comp_def] using hversion
  unfold AppState.contextEntry
  rw [hnext]

end Channels

theorem setContextInternal_same (h : Alike worker channel s t) (now : Now) (slug key : Text) (value : ContextValue)
    (updatedBy : Text) : Same worker channel (s.setContextInternal now slug key value updatedBy)
      (t.setContextInternal now slug key value updatedBy) := by
  unfold AppState.setContextInternal
  dsimp only
  rw [h.config]
  by_cases hempty : Text.trim key = []
  · rw [if_pos hempty, if_pos hempty]
    exact ⟨rfl, h⟩
  rw [if_neg hempty, if_neg hempty]
  by_cases hlong : Text.byteLen (Text.trim key) > maxContextKeyBytes
  · rw [if_pos hlong, if_pos hlong]
    exact ⟨rfl, h⟩
  rw [if_neg hlong, if_neg hlong]
  by_cases hbytes : value.toJson.bytes > t.config.maxContentBytes
  · rw [if_pos hbytes, if_pos hbytes]
    exact ⟨rfl, h⟩
  rw [if_neg hbytes, if_neg hbytes]
  rcases h.channel_cases slug with ⟨hs, ht⟩ | ⟨ch, ch', hs, ht, hch⟩
  · rw [hs, ht]
    exact ⟨rfl, h⟩
  · rw [hs, ht]
    dsimp only
    rw [contains_of_masked hch, size_of_masked hch, contextEntry_of_masked hch]
    by_cases hfull : (!ch'.context.contains (Text.trim key) && ch'.context.size ≥ maxContextKeys) = true
    · rw [if_pos hfull, if_pos hfull]
      exact ⟨rfl, h⟩
    · rw [if_neg hfull, if_neg hfull]
      exact ⟨rfl, h.put hch rfl rfl⟩

theorem setContext_same (h : Alike worker channel s t) (now : Now) (slug key : Text) (value : Json)
    (updatedBy : Text) :
    Same worker channel (s.setContext now slug key value updatedBy) (t.setContext now slug key value updatedBy) := by
  unfold AppState.setContext
  split_ifs
  · exact ⟨rfl, h⟩
  · exact setContextInternal_same h now slug key _ updatedBy

theorem taken_of_alike (h : Alike worker channel s t) (slug key : Text) :
    (s.getContextKeyInternal slug key).map Option.isSome = (t.getContextKeyInternal slug key).map Option.isSome := by
  have hread (s : AppState) : ((mask worker channel s).getContextKeyInternal slug key).map Option.isSome =
      (s.getContextKeyInternal slug key).map Option.isSome := by
    rw [getContextKeyInternal_mask]
    cases s.getContextKeyInternal slug key with
    | error e => rfl
    | ok entry => exact congrArg Except.ok (Option.isSome_map ..)
  rw [← hread s, ← hread t, h]

theorem insertBlindContext_same (h : Alike worker channel s t) (now : Now) (slug key : Text) (value : ContextValue)
    (updatedBy : Text) : Same worker channel (insertBlindContext s now slug key value updatedBy)
      (insertBlindContext t now slug key value updatedBy) := by
  have hset := setContextInternal_same h now slug key value updatedBy
  unfold insertBlindContext
  rcases Except.map_eq_map (taken_of_alike h slug key) with ⟨e, hs, ht⟩ | ⟨a, b, hs, ht, hab⟩
  · rw [hs, ht]
    exact ⟨rfl, h⟩
  · rw [hs, ht]
    cases a with
    | none =>
      cases b with
      | none => exact hset
      | some b => cases hab
    | some a =>
      cases b with
      | none => cases hab
      | some b => exact ⟨rfl, h⟩

theorem insertWorkflowContext_same (h : Alike worker channel s t) (now : Now) (slug key : Text) (value : ContextValue)
    (updatedBy : Text) :
    Same worker channel (Orchestration.insertWorkflowContext s now slug key value updatedBy)
      (Orchestration.insertWorkflowContext t now slug key value updatedBy) := by
  have hset := setContextInternal_same h now slug key value updatedBy
  unfold Orchestration.insertWorkflowContext
  rcases Except.map_eq_map (taken_of_alike h slug key) with ⟨e, hs, ht⟩ | ⟨a, b, hs, ht, hab⟩
  · rw [hs, ht]
    exact ⟨rfl, h⟩
  · rw [hs, ht]
    cases a with
    | none =>
      cases b with
      | none => exact hset
      | some b => cases hab
    | some a =>
      cases b with
      | none => cases hab
      | some b => exact ⟨rfl, h⟩

theorem setContextInternal_of_insert {now : Now} {slug key updatedBy : Text} {value : ContextValue} {e : ContextEntry}
    {s' : AppState} (h : insertBlindContext s now slug key value updatedBy = (.ok e, s')) :
    s.setContextInternal now slug key value updatedBy = (.ok e, s') := by
  unfold insertBlindContext at h
  cases hget : s.getContextKeyInternal slug key with
  | error e' =>
    rw [hget] at h
    cases h
  | ok entry =>
    rw [hget] at h
    cases entry with
    | some old => cases h
    | none => exact h

theorem candidates_alike (h : Alike worker channel s t) {now : Now} {ordinal : Nat}
    {submission submission' : BlindSubmission} {e e' : ContextEntry} {s' t' : AppState} {updatedBy : Text}
    (hmask : maskSubmission worker submission = maskSubmission worker submission')
    (hs : insertBlindContext s now channel (submissionKey ordinal) (.blindSubmission submission) updatedBy =
      (.ok e, s'))
    (ht : insertBlindContext t now channel (submissionKey ordinal) (.blindSubmission submission') updatedBy =
      (.ok e', t')) : Alike worker channel s' t' := by
  have hs := setContextInternal_of_insert hs
  have ht := setContextInternal_of_insert ht
  rcases setContextInternal_cases s now channel (submissionKey ordinal) (.blindSubmission submission) updatedBy with
    ⟨e, he⟩ | ⟨ch, hch, he⟩
  · rw [he] at hs
    cases hs
  rcases setContextInternal_cases t now channel (submissionKey ordinal) (.blindSubmission submission') updatedBy with
    ⟨e, he'⟩ | ⟨ch', hch', he'⟩
  · rw [he'] at ht
    cases ht
  rw [he] at hs
  rw [he'] at ht
  cases hs
  cases ht
  have hmasked : maskChannel worker channel channel ch = maskChannel worker channel channel ch' := by
    have hget := h.get channel
    rw [hch, hch'] at hget
    exact Option.some.inj hget
  refine h.put hmasked rfl ?_
  rw [contextEntry_of_masked hmasked]
  have hpre : blindSubmissionContextPrefix <+: Text.trim (submissionKey ordinal) := by
    rw [trim_submissionKey]
    exact submissionPrefix_isPrefix ordinal
  unfold maskEntry
  rw [if_pos ⟨rfl, hpre, hpre⟩, if_pos ⟨rfl, hpre, hpre⟩]
  simp only [AppState.contextEntry, maskValue, hmask]

end Writes

section Workflows
variable {worker channel : Text} {s t : AppState}

theorem loadPlanByChannel_mask (s : AppState) (slug : Text) :
    Orchestration.loadPlanByChannel (mask worker channel s) slug = Orchestration.loadPlanByChannel s slug := by
  have hkey : ¬ blindSubmissionContextPrefix <+: Orchestration.planContextKey := by decide
  unfold Orchestration.loadPlanByChannel
  rw [getContextKeyInternal_other hkey]

theorem workflowSubmissions_mask (s : AppState) (slug : Text) :
    Orchestration.loadSubmissions (mask worker channel s) slug = Orchestration.loadSubmissions s slug := by
  have hparse (key : Text) (e : ContextEntry) :
      Orchestration.parseSubmission (maskEntry worker channel slug key e) = Orchestration.parseSubmission e := by
    unfold Orchestration.parseSubmission
    rw [maskEntry_key]
    unfold maskEntry
    split_ifs
    · cases e.value <;> rfl
    · rfl
    · rfl
  have hread : ((mask worker channel s).getContextInternal slug).map (List.filterMap Orchestration.parseSubmission) =
      (s.getContextInternal slug).map (List.filterMap Orchestration.parseSubmission) := getContextInternal_mask hparse
  unfold Orchestration.loadSubmissions
  rcases Except.map_eq_map hread with ⟨e, hmasked, hplain⟩ | ⟨masked, plain, hmasked, hplain, hlists⟩
  · rw [hmasked, hplain]
  · rw [hmasked, hplain]
    dsimp only [Except.map]
    rw [hlists]

theorem workflowView_mask (s : AppState) (plan : WorkflowPlan) :
    Orchestration.workflowView (mask worker channel s) plan = Orchestration.workflowView s plan := by
  unfold Orchestration.workflowView
  rw [workflowSubmissions_mask]

theorem getWorkflow_mask (s : AppState) (workflowId : Text) :
    Orchestration.getWorkflow (mask worker channel s) workflowId = Orchestration.getWorkflow s workflowId := by
  unfold Orchestration.getWorkflow Orchestration.loadPlan
  simp only [loadPlanByChannel_mask, workflowView_mask]

theorem createOrGetChannel_same (h : Alike worker channel s t) (w : Surroundings) (now : Now)
    (slug topic createdBy : Text) : Same worker channel (s.createOrGetChannel w now slug topic createdBy)
      (t.createOrGetChannel w now slug topic createdBy) :=
  h.same (fun s => s.createOrGetChannel w now slug topic createdBy) fun s => createOrGetChannel_mask s ..

theorem joinAll_same (h : Alike worker channel s t) (now : Now) (slug : Text) (keys : List Text) :
    Same worker channel (Orchestration.joinAll s now slug keys) (Orchestration.joinAll t now slug keys) :=
  h.same (fun s => Orchestration.joinAll s now slug keys) fun s => joinAll_mask s ..

theorem postMessage_same (h : Alike worker channel s t) (now : Now) (newId slug sender : Text) (role : Role)
    (content : Text) (metadata : Json) :
    Same worker channel (s.postMessage now newId slug sender role content metadata)
      (t.postMessage now newId slug sender role content metadata) :=
  h.same (fun s => s.postMessage now newId slug sender role content metadata) fun s => postMessage_mask s ..

theorem installWorkflow_same (h : Alike worker channel s t) (w : Surroundings) (now : Now) (messageId : Text)
    (plan : WorkflowPlan) : Same worker channel (Orchestration.installPlan s w now messageId plan)
      (Orchestration.installPlan t w now messageId plan) := by
  unfold Orchestration.installPlan
  rcases (createOrGetChannel_same h w now plan.channel plan.title plan.createdBy).cases with
    ⟨e, s, t, hs, ht, h⟩ | ⟨ch, s, t, hs, ht, h⟩
  · rw [hs, ht]
    exact ⟨rfl, h⟩
  rw [hs, ht]
  dsimp only
  rcases (joinAll_same h now plan.channel (plan.assignments.map WorkflowAssignment.agentKey)).cases with
    ⟨e, s, t, hs, ht, h⟩ | ⟨u, s, t, hs, ht, h⟩
  · rw [hs, ht]
    exact ⟨rfl, h⟩
  rw [hs, ht]
  dsimp only
  rcases (insertWorkflowContext_same h now plan.channel Orchestration.planContextKey (.workflowPlan plan)
    plan.createdBy).cases with ⟨e, s, t, hs, ht, h⟩ | ⟨entry, s, t, hs, ht, h⟩
  · rw [hs, ht]
    exact ⟨rfl, h⟩
  rw [hs, ht]
  dsimp only
  rcases (postMessage_same h now messageId plan.channel plan.createdBy .system (Orchestration.createdMessage plan)
    (.obj [("kind".toList, .str "workflow_created".toList), ("workflow_id".toList, .str plan.id),
      ("mode".toList, .str plan.mode.name)])).cases with ⟨e, s, t, hs, ht, h⟩ | ⟨message, s, t, hs, ht, h⟩
  · rw [hs, ht]
    exact ⟨rfl, h⟩
  rw [hs, ht]
  exact ⟨h.read (fun s => Orchestration.workflowView s plan) fun s => workflowView_mask s plan, h⟩

theorem createWorkflow_same (h : Alike worker channel s t) (w : Surroundings) (now : Now) (id messageId : Text)
    (req : CreateWorkflowReq) : Same worker channel (Orchestration.createWorkflow s w now id messageId req)
      (Orchestration.createWorkflow t w now id messageId req) := by
  have hplan : Orchestration.buildPlan s now id req = Orchestration.buildPlan t now id req := by
    unfold Orchestration.buildPlan AppState.listAgents
    rw [h.config, h.agents]
  unfold Orchestration.createWorkflow
  rw [hplan]
  cases Orchestration.buildPlan t now id req with
  | error e => exact ⟨rfl, h⟩
  | ok plan => exact installWorkflow_same h w now messageId plan

theorem submitCall_same (h : Alike worker channel s t) (now : Now) (messageId : Text)
    (call : Orchestration.SubmitCall) :
    Same worker channel (call.step s now messageId) (call.step t now messageId) := by
  cases call with
  | checked workflowId input =>
    rw [Orchestration.SubmitCall.step, Orchestration.SubmitCall.step]
    have hload : Orchestration.loadPlan s workflowId = Orchestration.loadPlan t workflowId := by
      refine h.read (fun s => Orchestration.loadPlan s workflowId) fun s => ?_
      unfold Orchestration.loadPlan
      simp only [loadPlanByChannel_mask]
    rw [hload]
    split
    · exact ⟨rfl, h⟩
    · exact ⟨rfl, h⟩
  | planned plan a input =>
    rw [Orchestration.SubmitCall.step, Orchestration.SubmitCall.step]
    have hload : Orchestration.loadSubmissions s plan.channel = Orchestration.loadSubmissions t plan.channel :=
      h.read (fun s => Orchestration.loadSubmissions s plan.channel) fun s => workflowSubmissions_mask s plan.channel
    rw [hload]
    split
    · exact ⟨rfl, h⟩
    · exact ⟨rfl, h⟩
  | validated plan a input =>
    rw [Orchestration.SubmitCall.step, Orchestration.SubmitCall.step]
    rcases (insertWorkflowContext_same h now plan.channel (Orchestration.submissionKey a.ordinal)
      (.workflowSubmission (Orchestration.newSubmission plan a input now)) input.agentKey).cases with
      ⟨e, s, t, hs, ht, h⟩ | ⟨entry, s, t, hs, ht, h⟩
    · rw [hs, ht]
      exact ⟨rfl, h⟩
    · rw [hs, ht]
      exact ⟨rfl, h⟩
  | stored plan a input =>
    rw [Orchestration.SubmitCall.step, Orchestration.SubmitCall.step]
    rcases (postMessage_same h now messageId plan.channel input.agentKey .assistant input.content
      (Orchestration.submissionMetadata plan a)).cases with ⟨e, s, t, hs, ht, h⟩ | ⟨message, s, t, hs, ht, h⟩
    · rw [hs, ht]
      exact ⟨rfl, h⟩
    · rw [hs, ht]
      have hview := h.read (fun s => Orchestration.workflowView s plan) fun s => workflowView_mask s plan
      exact ⟨congrArg Orchestration.SubmitCall.finished hview, h⟩
  | finished result => exact ⟨rfl, h⟩

theorem submitWorkflow_same (h : Alike worker channel s t) (now : Now) (messageId workflowId : Text)
    (req : SubmitWorkflowReq) : Same worker channel (Orchestration.submitWorkflow s now messageId workflowId req)
      (Orchestration.submitWorkflow t now messageId workflowId req) := by
  have hstart : Orchestration.SubmitCall.start s workflowId req = Orchestration.SubmitCall.start t workflowId req := by
    unfold Orchestration.SubmitCall.start Orchestration.submitChecks
    rw [h.config]
  have hstep {p q : Orchestration.SubmitCall × AppState} (hpq : Same worker channel p q) :
      Same worker channel (p.1.step p.2 now messageId) (q.1.step q.2 now messageId) := by
    rw [hpq.1]
    exact submitCall_same hpq.2 now messageId q.1
  unfold Orchestration.submitWorkflow
  rw [hstart]
  exact hstep (hstep (hstep (submitCall_same h now messageId _)))

end Workflows

section Handlers
variable {worker channel : Text} {s t : AppState}

/-- Alike states, and the same reply to everyone but the worker while the competition is not revealed. -/
def Indistinct (worker channel : Text) (viewer : Option Text) {α : Type} (p q : α × AppState) : Prop :=
  Alike worker channel p.2 q.2 ∧
    (viewer ≠ some worker → p.2.entry channel blindRevealContextKey = none → p.1 = q.1)

theorem Same.indistinct {α : Type} {p q : α × AppState} (h : Same worker channel p q) (viewer : Option Text) :
    Indistinct worker channel viewer p q := ⟨h.2, fun _ _ => h.1⟩

theorem entry_mask_reveal : (mask worker channel s).entry channel blindRevealContextKey =
    s.entry channel blindRevealContextKey := by
  unfold AppState.entry
  rw [get_mask]
  cases s.channels.get channel with
  | none => rfl
  | some ch =>
    change (maskChannel worker channel channel ch).context.get blindRevealContextKey = _
    rw [get_maskChannel]
    cases hget : ch.context.get blindRevealContextKey with
    | none => simp [hget]
    | some e => simp [hget, maskEntry_of_key not_prefix_reveal]

theorem Alike.hidden (h : Alike worker channel s t) (hs : s.entry channel blindRevealContextKey = none) :
    t.entry channel blindRevealContextKey = none := by
  rw [← hs]
  exact (h.read (fun s => s.entry channel blindRevealContextKey) fun s => entry_mask_reveal).symm

theorem buildView_alike (h : Alike worker channel s t) (plan : BlindCompetitionPlan) {viewer : Option Text}
    (hviewer : viewer ≠ some worker) (hs : s.entry channel blindRevealContextKey = none) :
    buildView s plan viewer = buildView t plan viewer := by
  rw [← buildView_mask s plan hviewer hs, ← buildView_mask t plan hviewer (h.hidden hs), h]

theorem publish_indistinct (h : Alike worker channel s t) (now : Now) (messageId : Text) (plan : BlindCompetitionPlan)
    (key : Text) (value : ContextValue) (actor notice : Text) (metadata : Json) (viewer : Option Text) :
    Indistinct worker channel viewer (publish s now messageId plan key value actor notice metadata viewer)
      (publish t now messageId plan key value actor notice metadata viewer) := by
  unfold publish
  rcases (insertBlindContext_same h now plan.channel key value actor).cases with
    ⟨e, s, t, hs, ht, h⟩ | ⟨entry, s, t, hs, ht, h⟩
  · rw [hs, ht]
    exact ⟨h, fun _ _ => rfl⟩
  rw [hs, ht]
  dsimp only
  rcases (postMessage_same h now messageId plan.channel actor .system notice metadata).cases with
    ⟨e, s, t, hs, ht, h⟩ | ⟨message, s, t, hs, ht, h⟩
  · rw [hs, ht]
    exact ⟨h, fun _ _ => rfl⟩
  · rw [hs, ht]
    exact ⟨h, fun hviewer hhidden => buildView_alike h plan hviewer hhidden⟩

theorem collectWorkers_mask (s : AppState) (workers : List BlindWorker) (requested : List Text) :
    collectWorkers (mask worker channel s) workers requested = collectWorkers s workers requested := by
  induction requested generalizing workers with
  | nil => rfl
  | cons key requested ih =>
    have hagents : (mask worker channel s).listAgents = s.listAgents := rfl
    rw [collectWorkers, collectWorkers, hagents]
    simp only [ih]

theorem buildPlan_mask (s : AppState) (now : Now) (id : Text) (req : CreateBlindCompetitionReq) :
    buildPlan (mask worker channel s) now id req = buildPlan s now id req := by
  have hagents : (mask worker channel s).listAgents = s.listAgents := rfl
  unfold buildPlan checkReviewer
  simp only [collectWorkers_mask, config_mask, hagents]

theorem create_indistinct (h : Alike worker channel s t) (now : Now) (viewer : Option AuthenticatedAdapter)
    (w : Surroundings) (id messageId : Text) (req : CreateBlindCompetitionReq) :
    Indistinct worker channel (viewerKey viewer) (createBlindCompetition s now viewer w id messageId req)
      (createBlindCompetition t now viewer w id messageId req) := by
  have hplan : buildPlan s now id req = buildPlan t now id req :=
    h.read (fun s => buildPlan s now id req) fun s => buildPlan_mask s now id req
  unfold createBlindCompetition
  rw [hplan]
  cases buildPlan t now id req with
  | error e => exact ⟨h, fun _ _ => rfl⟩
  | ok plan =>
    dsimp only
    unfold installPlan
    rcases (createOrGetChannel_same h w now plan.channel plan.title plan.createdBy).cases with
      ⟨e, s, t, hs, ht, h⟩ | ⟨ch, s, t, hs, ht, h⟩
    · rw [hs, ht]
      exact ⟨h, fun _ _ => rfl⟩
    rw [hs, ht]
    dsimp only
    rcases (joinAll_same h now plan.channel (seated plan)).cases with ⟨e, s, t, hs, ht, h⟩ | ⟨u, s, t, hs, ht, h⟩
    · rw [hs, ht]
      exact ⟨h, fun _ _ => rfl⟩
    · rw [hs, ht]
      exact publish_indistinct h now messageId plan _ _ _ _ _ _

theorem get_indistinct (h : Alike worker channel s t) (viewer : Option AuthenticatedAdapter) (workflowId : Text) :
    Indistinct worker channel (viewerKey viewer) (getBlindCompetition s viewer workflowId, s)
      (getBlindCompetition t viewer workflowId, t) := by
  refine ⟨h, fun hviewer hhidden => ?_⟩
  have hload : loadPlan s workflowId = loadPlan t workflowId :=
    h.read (fun s => loadPlan s workflowId) fun s => loadPlan_mask s workflowId
  dsimp only
  unfold getBlindCompetition
  rw [hload]
  cases loadPlan t workflowId with
  | error e => rfl
  | ok plan => exact buildView_alike h plan hviewer hhidden

theorem submitChecks_alike (h : Alike worker channel s t) (now : Now) (identity : AuthenticatedAdapter)
    (workflowId : Text) (req : SubmitBlindCompetitionReq) :
    submitChecks s now identity workflowId req = submitChecks t now identity workflowId req := by
  refine h.read (fun s => submitChecks s now identity workflowId req) fun s => ?_
  rw [submitChecks_eq, submitChecks_eq]
  simp only [config_mask, loadPlan_mask, assignedWorker_mask]

theorem submit_indistinct (h : Alike worker channel s t) (now : Now) (viewer : Option AuthenticatedAdapter)
    (messageId workflowId : Text) (req : SubmitBlindCompetitionReq) :
    Indistinct worker channel (viewerKey viewer) (submitBlindCompetition s now viewer messageId workflowId req)
      (submitBlindCompetition t now viewer messageId workflowId req) := by
  unfold submitBlindCompetition
  cases viewer with
  | none => exact ⟨h, fun _ _ => rfl⟩
  | some identity =>
    dsimp only
    rw [submitChecks_alike h]
    cases submitChecks t now identity workflowId req with
    | error e => exact ⟨h, fun _ _ => rfl⟩
    | ok checked => exact publish_indistinct h now messageId checked.1 _ _ _ _ _ _

theorem revealChecks_mask (s : AppState) (identity : AuthenticatedAdapter) (workflowId : Text) :
    revealChecks (mask worker channel s) identity workflowId = revealChecks s identity workflowId := by
  unfold revealChecks
  rw [loadPlan_mask]
  cases loadPlan s workflowId with
  | error e => rfl
  | ok plan =>
    dsimp only [bind, Except.bind]
    split_ifs
    · rfl
    have hload : (loadSubmissions (mask worker channel s) plan.channel).map (List.map (maskSubmission worker)) =
        (loadSubmissions s plan.channel).map (List.map (maskSubmission worker)) := loadSubmissions_mask s _
    rcases Except.map_eq_map hload with ⟨e, hmasked, hplain⟩ | ⟨masked, plain, hmasked, hplain, hlists⟩
    · rw [hmasked, hplain]
    · have hlength : masked.length = plain.length := by
        rw [← List.length_map (maskSubmission worker), hlists, List.length_map]
      rw [hmasked, hplain]
      dsimp only
      rw [hlength]

theorem reveal_indistinct (h : Alike worker channel s t) (now : Now) (viewer : Option AuthenticatedAdapter)
    (messageId workflowId : Text) :
    Indistinct worker channel (viewerKey viewer) (revealBlindCompetition s now viewer messageId workflowId)
      (revealBlindCompetition t now viewer messageId workflowId) := by
  unfold revealBlindCompetition
  cases viewer with
  | none => exact ⟨h, fun _ _ => rfl⟩
  | some identity =>
    have hchecks : revealChecks s identity workflowId = revealChecks t identity workflowId :=
      h.read (fun s => revealChecks s identity workflowId) fun s => revealChecks_mask s identity workflowId
    dsimp only
    rw [hchecks]
    cases revealChecks t identity workflowId with
    | error e => exact ⟨h, fun _ _ => rfl⟩
    | ok checked => exact publish_indistinct h now messageId checked.1 _ _ _ _ _ _

end Handlers
end AgentBridge.BlindCompetition
