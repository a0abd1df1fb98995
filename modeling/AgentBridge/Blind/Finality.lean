import AgentBridge.Blind.Protocol

/-! The reveal of a blind competition is final: in every run in which the locked steps of
submissions and reveals interleave it is written once, by the reviewer, over a complete
set of submissions that stays as it is from then on. -/

namespace AgentBridge.BlindCompetition
open State
open Orchestration (Puts Keyed SubmitWorld SubmitCall WorkflowAction)

/-- The workflow requests with the blind competitions' own calls under way. -/
structure BlindWorld extends SubmitWorld where
  blindCalls : List BlindCall

/-- Requests, and the next locked step of a submission or a reveal under way. -/
inductive BlindAction
  | workflow (a : WorkflowAction)
  | post (now : Now) (messageId slug sender : Text) (role : Role) (content : Text) (metadata : Json)
  | create (viewer : Option AuthenticatedAdapter) (env : Surroundings) (now : Now) (id messageId : Text)
    (req : CreateBlindCompetitionReq)
  | submit (viewer : Option AuthenticatedAdapter) (workflowId : Text) (req : SubmitBlindCompetitionReq)
  | reveal (viewer : Option AuthenticatedAdapter) (workflowId : Text)
  | advance (i : Nat) (now : Now) (messageId : Text)

namespace BlindWorld

def init (config : Config) : BlindWorld := ⟨SubmitWorld.init config, []⟩

def step (w : BlindWorld) : BlindAction → BlindWorld
  | .workflow a => { w with toSubmitWorld := w.toSubmitWorld.step a }
  | .post now messageId slug sender role content metadata =>
    { w with state := (w.state.postMessage now messageId slug sender role content metadata).2 }
  | .create viewer env now id messageId req =>
    { w with state := (createBlindCompetition w.state now viewer env id messageId req).2 }
  | .submit viewer workflowId req =>
    { w with blindCalls := w.blindCalls ++ [.startSubmit w.state.config viewer workflowId req] }
  | .reveal viewer workflowId => { w with blindCalls := w.blindCalls ++ [.startReveal viewer workflowId] }
  | .advance i now messageId =>
    match w.blindCalls[i]? with
    | none => w
    | some call =>
      let r := call.step w.state now messageId
      { w with state := r.2, blindCalls := w.blindCalls.set i r.1 }

def caller (w : BlindWorld) : BlindAction → Option BlindCall
  | .advance i _ _ => w.blindCalls[i]?
  | _ => none

abbrev run (config : Config) (as : List BlindAction) : BlindWorld :=
  Run.exec step (init config) as

end BlindWorld

section Workflows
variable {s s' : AppState} {caller : Option BlindCall}

theorem submissionKey_not_blind (n : Nat) : ¬ IsBlindKey (Orchestration.submissionKey n) := by
  have hpre : Orchestration.submissionContextPrefix <+: Orchestration.submissionKey n :=
    Orchestration.submissionContextPrefix_isPrefix n
  rintro (h | h | h)
  · rw [h] at hpre
    exact absurd hpre (by decide)
  · rw [h] at hpre
    exact absurd hpre (by decide)
  · -- of two prefixes of one key the shorter is a prefix of the longer
    rcases List.prefix_or_prefix_of_prefix hpre h with h | h
    · exact absurd h (by decide)
    · exact absurd h (by decide)

theorem RecordStep.of_put {slug : Text} {e : ContextEntry} (hput : Puts s s' slug e)
    (hkey : ¬ IsBlindKey e.key) : RecordStep s s' caller := by
  refine .same hput.keyed fun c k hk => hput.ne ?_
  rintro ⟨-, rfl⟩
  exact hkey hk

theorem RecordStep.of_workflow (h : Orchestration.RecordStep s s') : RecordStep s s' caller := by
  cases h with
  | same h => exact .of_entry h
  | plan plan e hfree hkey hvalue hn hput =>
    apply RecordStep.of_put hput
    rw [hkey]
    rintro (h | h | h) <;> exact absurd h (by decide)
  | submission plan a submission e hplan hans hready hfree hkey hvalue hput =>
    exact .of_put hput (hkey ▸ submissionKey_not_blind _)
  | generic slug e hkey hput =>
    refine .of_put hput fun hblind => ?_
    rw [isReserved_of_blind hblind] at hkey
    cases hkey

theorem submitCall_records (call : SubmitCall) (s : AppState) (now : Now) (messageId : Text) :
    RecordStep s (call.step s now messageId).2 caller := by
  have hread : RecordStep s s caller := .of_entry fun _ _ => rfl
  cases call with
  | checked workflowId input =>
    rw [SubmitCall.step]
    split <;> exact hread
  | planned plan a input =>
    rw [SubmitCall.step]
    split <;> exact hread
  | validated plan a input =>
    rw [SubmitCall.step]
    rcases Orchestration.insertWorkflowContext_cases s now plan.channel
        (Orchestration.submissionKey a.ordinal)
        (.workflowSubmission (Orchestration.newSubmission plan a input now)) input.agentKey
        (Orchestration.trim_submissionKey _) with ⟨e, hinsert⟩ | ⟨e, s', hinsert, -, hkey, -, -, hput⟩
    · rw [hinsert]
      exact hread
    · rw [hinsert]
      exact .of_put hput (hkey ▸ submissionKey_not_blind _)
  | stored plan a input =>
    have hpost := post_records s now messageId plan.channel input.agentKey input.content .assistant
      (Orchestration.submissionMetadata plan a) caller
    rw [SubmitCall.step]
    rcases hmessage : s.postMessage now messageId plan.channel input.agentKey .assistant input.content
      (Orchestration.submissionMetadata plan a) with ⟨r, s'⟩
    rw [hmessage] at hpost
    cases r with
    | error e => exact hpost
    | ok message => exact hpost
  | finished result => exact hread

theorem workflow_records (w : SubmitWorld) (a : WorkflowAction) :
    RecordStep w.state (w.step a).state caller := by
  cases a with
  | register now agent => exact .of_entry (entry_of_channels (registerAgent_channels w.state now agent))
  | create env now id messageId req =>
    exact .of_workflow (Orchestration.createWorkflow_records w.state env now id messageId req)
  | setContext now slug key value updatedBy =>
    exact .of_workflow (Orchestration.setContext_records w.state now slug key value updatedBy)
  | submit workflowId req => exact .of_entry fun _ _ => rfl
  | advance i now messageId =>
    rw [SubmitWorld.step]
    cases w.calls[i]? with
    | none => exact .of_entry fun _ _ => rfl
    | some call => exact submitCall_records call w.state now messageId

end Workflows

namespace BlindWorld

/-- The records are in order, and every call under way has established what it relies on. -/
structure Sound (w : BlindWorld) : Prop where
  records : RecordsOk w.state
  calls : ∀ call ∈ w.blindCalls, call.Sound w.state

theorem init_sound (config : Config) : (init config).Sound where
  records := {
    keyed := fun _ _ _ he => nomatch he
    plans := fun _ _ he => nomatch he
    submissions := fun _ _ _ he => nomatch he
    reveals := fun _ _ he => nomatch he }
  calls := fun _ h => nomatch h

theorem Sound.of_record {w w' : BlindWorld} {caller : Option BlindCall} (hw : w.Sound)
    (hcalls : w'.blindCalls = w.blindCalls) (h : RecordStep w.state w'.state caller) :
    w'.Sound ∧ RecordStep w.state w'.state caller := by
  refine ⟨⟨h.recordsOk hw.records, fun call hc => ?_⟩, h⟩
  exact (hw.calls call (hcalls ▸ hc)).mono h.grows

theorem Sound.begin {w : BlindWorld} {call : BlindCall} (hw : w.Sound) (hcall : call.Sound w.state) :
    Sound { w with blindCalls := w.blindCalls ++ [call] } where
  records := hw.records
  calls := fun call' hc => by
    rcases List.mem_append.mp hc with hc | hc
    · exact hw.calls call' hc
    · rw [List.mem_singleton.mp hc]
      exact hcall

theorem step_sound (w : BlindWorld) (a : BlindAction) (hw : w.Sound) :
    (w.step a).Sound ∧ RecordStep w.state (w.step a).state (w.caller a) := by
  cases a with
  | workflow a => exact hw.of_record rfl (workflow_records w.toSubmitWorld a)
  | post now messageId slug sender role content metadata =>
    exact hw.of_record rfl (post_records w.state now messageId slug sender content role metadata none)
  | create viewer env now id messageId req =>
    exact hw.of_record rfl (create_records w.state env now viewer id messageId req)
  | submit viewer workflowId req =>
    have hcall := BlindCall.startSubmit_sound w.state w.state.config viewer workflowId req
    exact ⟨hw.begin hcall, .of_entry fun _ _ => rfl⟩
  | reveal viewer workflowId =>
    have hcall := BlindCall.startReveal_sound w.state viewer workflowId
    exact ⟨hw.begin hcall, .of_entry fun _ _ => rfl⟩
  | advance i now messageId =>
    rw [step, caller]
    cases hi : w.blindCalls[i]? with
    | none => exact ⟨hw, .of_entry fun _ _ => rfl⟩
    | some call =>
      obtain ⟨h, hcall⟩ := BlindCall.step_sound hw.records now messageId
        (hw.calls call (List.mem_of_getElem? hi))
      refine ⟨⟨h.recordsOk hw.records, fun call' hc => ?_⟩, h⟩
      rcases List.mem_or_eq_of_mem_set hc with hc | rfl
      · exact (hw.calls call' hc).mono h.grows
      · exact hcall

theorem run_sound (config : Config) (as : List BlindAction) : (run config as).Sound :=
  Run.exec_invariant (fun w a hw => (step_sound w a hw).1) (init_sound config) as

theorem run_frozen {w : BlindWorld} (hw : w.Sound) {channel : Text} {e : ContextEntry}
    (hreveal : w.state.entry channel blindRevealContextKey = some e) (bs : List BlindAction) :
    (Run.exec step w bs).state.entry channel blindRevealContextKey = some e ∧
      ∀ k, blindSubmissionContextPrefix <+: k →
        (Run.exec step w bs).state.entry channel k = w.state.entry channel k := by
  induction bs generalizing w with
  | nil => exact ⟨hreveal, fun _ _ => rfl⟩
  | cons b bs ih =>
    obtain ⟨hw', h⟩ := step_sound w b hw
    obtain ⟨hstays, hsame⟩ := ih hw' (h.grows _ _ _ isBlindKey_reveal hreveal)
    exact ⟨hstays, fun k hk => (hsame k hk).trans (h.frozen hw.records hreveal hk)⟩

end BlindWorld

/-- When the reveal of a competition appears, in whatever order the locked steps of the
requests come, a call of the plan's reviewer puts it there, every worker has exactly one
submission stored, and from then on neither the reveal nor a submission changes. -/
theorem reveal_final (config : Config) (as : List BlindAction) (a : BlindAction) (channel : Text)
    (e : ContextEntry)
    (hnone : (BlindWorld.run config as).state.entry channel blindRevealContextKey = none)
    (hsome : (BlindWorld.run config (as ++ [a])).state.entry channel blindRevealContextKey = some e) :
    ∃ plan i now messageId identity candidates reveal,
      plan.channel = channel ∧ PlanAt (BlindWorld.run config as).state plan ∧
      a = .advance i now messageId ∧
      (BlindWorld.run config as).blindCalls[i]? = some (.counted identity plan candidates) ∧
      identity.agentKey = plan.reviewerAgentKey ∧ e.version = 1 ∧ e.value = .blindReveal reveal ∧
      reveal.reviewerAgentKey = plan.reviewerAgentKey ∧
      (∀ worker ∈ plan.workers, ∃! k, StoredFor (BlindWorld.run config as).state plan worker k) ∧
      ∀ bs, (BlindWorld.run config (as ++ [a] ++ bs)).state.entry channel blindRevealContextKey = some e ∧
        ∀ k, blindSubmissionContextPrefix <+: k →
          (BlindWorld.run config (as ++ [a] ++ bs)).state.entry channel k =
            (BlindWorld.run config (as ++ [a])).state.entry channel k := by
  have hbefore := BlindWorld.run_sound config as
  have hafter := BlindWorld.run_sound config (as ++ [a])
  have hstep : BlindWorld.run config (as ++ [a]) = (BlindWorld.run config as).step a := Run.exec_append ..
  obtain ⟨-, h⟩ := BlindWorld.step_sound (BlindWorld.run config as) a hbefore
  rw [← hstep] at h
  obtain ⟨identity, plan, candidates, reveal, hcaller, hc, hplan, hcomplete, hreviewer, hversion, hvalue, hnamed⟩ :=
    h.revealed hnone hsome
  have hadvance : ∃ i now messageId, a = .advance i now messageId ∧
      (BlindWorld.run config as).blindCalls[i]? = some (.counted identity plan candidates) := by
    cases a with
    | advance i now messageId => exact ⟨i, now, messageId, rfl, hcaller⟩
    | workflow a => cases hcaller
    | post now messageId slug sender role content metadata => cases hcaller
    | create viewer env now id messageId req => cases hcaller
    | submit viewer workflowId req => cases hcaller
    | reveal viewer workflowId => cases hcaller
  obtain ⟨i, now, messageId, ha, hcall⟩ := hadvance
  refine ⟨plan, i, now, messageId, identity, candidates, reveal, hc, hplan, ha, hcall, hreviewer, hversion, hvalue,
    hnamed, fun worker hworker => hbefore.records.storedFor_unique hplan hcomplete hworker, fun bs => ?_⟩
  rw [BlindWorld.run, Run.exec_append _ (as ++ [a]) bs]
  exact BlindWorld.run_frozen hafter hsome bs

/-- Two workers submit at once and the reviewer's reveal is counted. -/
def countedRun : List BlindAction :=
  let agent (key : Text) : Agent := {
    agentKey := key
    displayName := key
    kind := .other
    host := none
    metadata := .null
    registeredAt := [] }
  let adapter (key : Text) : AuthenticatedAdapter := { tokenId := key, agentKey := key, scopes := .empty }
  let now (t : Nat) : Now := ⟨t, t⟩
  [.workflow (.register (now 0) (agent "alice".toList)), .workflow (.register (now 1) (agent "bob".toList)),
    .workflow (.register (now 2) (agent "rita".toList)),
    .create none asciiSurroundings (now 3) "b1".toList "m0".toList
      ⟨"title".toList, "prompt".toList, "carol".toList, ["alice".toList, "bob".toList], "rita".toList, .null⟩,
    .submit (some (adapter "alice".toList)) "b1".toList ⟨"alice".toList, "one".toList, .null⟩,
    .submit (some (adapter "bob".toList)) "b1".toList ⟨"bob".toList, "two".toList, .null⟩,
    .advance 0 (now 4) "m1".toList, .advance 1 (now 5) "m2".toList, .advance 0 (now 6) "m3".toList,
    .advance 1 (now 7) "m4".toList, .advance 0 (now 8) "m5".toList, .advance 1 (now 9) "m6".toList,
    .reveal (some (adapter "rita".toList)) "b1".toList, .advance 2 (now 10) "m7".toList,
    .advance 2 (now 11) "m8".toList]

/-- The reviewer's call writes the reveal, which then stays. -/
theorem reveal_final_counted : ∃ e reveal, e.value = .blindReveal reveal ∧ ∀ bs,
    (BlindWorld.run .inMemory (countedRun ++ [.advance 2 ⟨12, 12⟩ "m9".toList] ++ bs)).state.entry
      "blind-workflow-b1".toList blindRevealContextKey = some e := by
  have hnone : (BlindWorld.run .inMemory countedRun).state.entry
      "blind-workflow-b1".toList blindRevealContextKey = none := by
    rw [← Option.isNone_iff_eq_none]
    decide +kernel
  have hsome : ((BlindWorld.run .inMemory (countedRun ++ [.advance 2 ⟨12, 12⟩ "m9".toList])).state.entry
      "blind-workflow-b1".toList blindRevealContextKey).isSome := by decide +kernel
  obtain ⟨e, he⟩ := Option.isSome_iff_exists.mp hsome
  obtain ⟨plan, i, now, messageId, identity, candidates, reveal, -, -, -, -, -, -, hvalue, -, -, hfinal⟩ :=
    reveal_final .inMemory countedRun _ _ e hnone he
  exact ⟨e, reveal, hvalue, fun bs => (hfinal bs).1⟩

end AgentBridge.BlindCompetition
