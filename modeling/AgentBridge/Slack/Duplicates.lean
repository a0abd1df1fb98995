import AgentBridge.Slack.Dispatch
import AgentBridge.Slack.Transports

/-! What a delivery that was turned away leaves behind: a run that is told to be accepted already is one that was
or will be dispatched, unless a claim came to nothing after it created its file. -/

namespace AgentBridge.Slack

def Delivery.found (delivery : Delivery) : Prop :=
  delivery.stage = .probed (some true) ∨ delivery.stage = .claiming (.ended (some false)) ∨
    delivery.stage = .detached (.ended (some false))

namespace DispatchState

/-- Answers that a run was accepted are true of runs that were not in the journal before, and the journal keeps no
run that nobody dispatches. -/
structure Truthful (before : KeySet Text) (s : DispatchState) : Prop where
  duplicates : ∀ runId, (runId, Accepted.duplicate runId) ∈ s.answers → runId ∉ before →
    runId ∈ s.started ∨ ∃ delivery ∈ s.deliveries, delivery.owns runId = true
  startable : ∀ runId, runId ∉ before → runId ∉ s.started → (∀ delivery ∈ s.deliveries, delivery.owns runId = false) →
    runId ∉ s.journal

/-- The event loses no run: no claim fails after it created its file, no handler is dropped while its claim owns one,
no claim creates one without its handler, and the process goes on. -/
def Keeps (s : DispatchState) : DispatchEvent → Prop
  | .claim i outcome => ∀ delivery, s.deliveries[i]? = some delivery →
      (delivery.owns delivery.request.runId = true → outcome = .returns) ∧
      (delivery.stage = .detached .queued → outcome = .returns → delivery.request.runId ∈ s.journal)
  | .drop i => ∀ delivery, s.deliveries[i]? = some delivery → delivery.owns delivery.request.runId = false
  | .crash => False
  | _ => True

/-- Every file is one from before, or that of a run that was dispatched or will be. -/
def Owned (before : KeySet Text) (s : DispatchState) : Prop :=
  ∀ runId ∈ s.journal, runId ∈ before ∨ runId ∈ s.started ∨ ∃ delivery ∈ s.deliveries, delivery.owns runId = true

/-- What deliveries found and answered is in the journal. -/
structure Witnessed (s : DispatchState) : Prop where
  found : ∀ delivery ∈ s.deliveries, delivery.found → delivery.request.runId ∈ s.journal
  answered : ∀ runId, (runId, Accepted.duplicate runId) ∈ s.answers → runId ∈ s.journal

end DispatchState

section Steps
variable {config : CommandConfig} {before : KeySet Text} {s s' : DispatchState} {event : DispatchEvent}

theorem witnessed_set (hs : s.Witnessed) (i : Nat) {delivery : Delivery} {journal : KeySet Text}
    (hkept : ∀ runId ∈ s.journal, runId ∈ journal) (hfound : delivery.found → delivery.request.runId ∈ journal) :
    ∀ d ∈ s.deliveries.set i delivery, d.found → d.request.runId ∈ journal := by
  intro d hd
  rcases List.mem_or_eq_of_mem_set hd with hold | rfl
  · exact fun hf => hkept _ (hs.found d hold hf)
  · exact hfound

theorem claimStep_found {runId : Text} {journal journal' : KeySet Text} {outcome : Blocking} {stage stage' : ClaimStage}
    (h : claimStep runId journal outcome stage = (journal', stage')) (hfound : stage' = .ended (some false)) :
    stage = .ended (some false) ∨ runId ∈ journal' := by
  subst hfound
  cases stage with
  | queued =>
    rw [claimStep] at h
    split_ifs at h with hfails hmem
    · cases h
    · cases h
      exact .inr hmem
    · cases h
  | created =>
    rw [claimStep] at h
    split_ifs at h
    · cases h
    · cases h
  | written =>
    rw [claimStep] at h
    split_ifs at h
    · cases h
    · cases h
  | ended result =>
    cases h
    exact .inl rfl

theorem witnessed_move (hs : s.Witnessed) {i : Nat} {request : RunRequest} {stage : DeliveryStage}
    {journal : KeySet Text} (hkept : ∀ runId ∈ s.journal, runId ∈ journal)
    (hfound : Delivery.found ⟨request, stage⟩ → request.runId ∈ journal) :
    ({ s.move i request stage with journal := journal } : DispatchState).Witnessed :=
  ⟨witnessed_set hs i hkept hfound, fun runId h => hkept _ (hs.answered runId h)⟩

theorem witnessed_answer (hs : s.Witnessed) {i : Nat} {request : RunRequest} {accepted : Accepted}
    (haccepted : accepted = .duplicate request.runId → request.runId ∈ s.journal) :
    (s.answer i request accepted).Witnessed := by
  refine ⟨witnessed_set hs i (fun _ h => h) ?_, ?_⟩
  · rintro (h | h | h) <;> cases h
  · intro runId h
    rcases List.mem_append.mp h with hold | hnew
    · exact hs.answered runId hold
    · obtain ⟨rfl, hduplicate⟩ := Prod.mk.inj (List.mem_singleton.mp hnew)
      exact haccepted hduplicate.symm

theorem witnessed_step (h : DispatchStep config s event s') (hs : s.Witnessed) : s'.Witnessed := by
  have hsame : ∀ runId ∈ s.journal, runId ∈ s.journal := fun _ h => h
  -- only the probe and the claim look for a duplicate, and what they find is in the journal
  cases h with
  | idle => exact hs
  | deliver request =>
    refine ⟨?_, hs.answered⟩
    intro d hd hfound
    rcases List.mem_append.mp hd with hold | hnew
    · exact hs.found d hold hfound
    · rw [List.mem_singleton.mp hnew] at hfound
      rcases hfound with h | h | h <;> cases h
  | @probe i request outcome hi =>
    refine witnessed_move hs hsame ?_
    rintro (h | h | h)
    · have hprobe : probeStep request.runId s.journal outcome = some true := DeliveryStage.probed.inj h
      cases outcome with
      | returns => exact of_decide_eq_true (Option.some.inj hprobe)
      | fails => cases hprobe
      | panics => cases hprobe
    · cases h
    · cases h
  | @answerProbe i request claimed accepted hi haccepted =>
    apply witnessed_answer hs
    rintro rfl
    rcases haccepted with hanswer | hfull
    · have hclaimed : claimed = some true := by
        rcases claimed with _ | _ | _
        · cases hanswer
        · cases hanswer
        · rfl
      exact hs.found _ (List.mem_of_getElem? hi) (.inl (by rw [hclaimed]))
    · cases hfull
  | @acquire i request claimed hi _ =>
    have hmoved : (s.move i request (.claiming .queued)).Witnessed := by
      refine witnessed_move hs hsame ?_
      rintro (h | h | h) <;> cases h
    exact ⟨hmoved.found, hmoved.answered⟩
  | @claim i request stage stage' journal outcome hi hclaim =>
    refine witnessed_move hs (claimStep_owns hclaim).1 ?_
    rintro (h | h | h)
    · cases h
    · rcases claimStep_found hclaim (DeliveryStage.claiming.inj h) with hstage | hfile
      · exact (claimStep_owns hclaim).1 _ (hs.found _ (List.mem_of_getElem? hi) (.inr (.inl (by rw [hstage]))))
      · exact hfile
    · cases h
  | @claimDetached i request stage stage' journal outcome hi hclaim =>
    refine witnessed_move hs (claimStep_owns hclaim).1 ?_
    rintro (h | h | h)
    · cases h
    · cases h
    · rcases claimStep_found hclaim (DeliveryStage.detached.inj h) with hstage | hfile
      · exact (claimStep_owns hclaim).1 _ (hs.found _ (List.mem_of_getElem? hi) (.inr (.inr (by rw [hstage]))))
      · exact hfile
  | @answerClaim i request result hi hresult =>
    have hanswered : (s.answer i request (claimAnswer config request result)).Witnessed := by
      apply witnessed_answer hs
      intro hduplicate
      have hfalse : result = some false := by
        rcases result with _ | _ | _
        · cases hduplicate
        · rfl
        · cases hduplicate
      exact hs.found _ (List.mem_of_getElem? hi) (.inr (.inl (by rw [hfalse])))
    exact ⟨hanswered.found, hanswered.answered⟩
  | @spawn i request hi =>
    have hanswered : (s.answer i request (claimAnswer config request (some true))).Witnessed :=
      witnessed_answer hs fun h => by cases h
    exact ⟨hanswered.found, hanswered.answered⟩
  | @dropClaiming i request stage hi =>
    have hmoved : (s.move i request (.detached stage)).Witnessed := by
      refine witnessed_move hs hsame ?_
      rintro (h | h | h)
      · cases h
      · cases h
      · have hstage : stage = .ended (some false) := DeliveryStage.detached.inj h
        exact hs.found _ (List.mem_of_getElem? hi) (.inr (.inl (by rw [hstage])))
    exact ⟨hmoved.found, hmoved.answered⟩
  | dropProbing hi _ _ =>
    refine witnessed_move hs hsame ?_
    rintro (h | h | h) <;> cases h
  | next hk _ => exact ⟨hs.found, hs.answered⟩
  | finish hk => exact ⟨hs.found, hs.answered⟩
  | crash => exact ⟨List.forall_mem_nil _, hs.answered⟩

/-! ### Files and their owners -/

theorem owner_set {i : Nat} {delivery delivery' : Delivery} {runId : Text} (hi : s.deliveries[i]? = some delivery)
    (howns : delivery.owns runId = true → delivery'.owns runId = true)
    (h : ∃ d ∈ s.deliveries, d.owns runId = true) : ∃ d ∈ s.deliveries.set i delivery', d.owns runId = true := by
  obtain ⟨d, hd, hrun⟩ := h
  obtain ⟨j, hj⟩ := List.mem_iff_getElem?.mp hd
  by_cases hij : i = j
  · subst hij
    cases hi.symm.trans hj
    exact ⟨delivery', List.mem_set (List.getElem?_eq_some_iff.mp hi).1 _, howns hrun⟩
  · refine ⟨d, List.mem_iff_getElem?.mpr ⟨j, ?_⟩, hrun⟩
    rwa [List.getElem?_set_ne hij]

theorem owned_set (hs : s.Owned before) {i : Nat} {delivery delivery' : Delivery}
    (hi : s.deliveries[i]? = some delivery)
    (howns : ∀ runId, delivery.owns runId = true → delivery'.owns runId = true) :
    ∀ runId ∈ s.journal, runId ∈ before ∨ runId ∈ s.started ∨
      ∃ d ∈ s.deliveries.set i delivery', d.owns runId = true := by
  intro runId hrun
  rcases hs runId hrun with hbefore | hstarted | howner
  · exact .inl hbefore
  · exact .inr (.inl hstarted)
  · exact .inr (.inr (owner_set hi (howns runId) howner))

theorem claimStep_creates {r runId : Text} {journal journal' : KeySet Text} {outcome : Blocking}
    {stage stage' : ClaimStage} (h : claimStep r journal outcome stage = (journal', stage')) (hrun : runId ∈ journal') :
    runId ∈ journal ∨ runId = r ∧ stage = .queued ∧ outcome = .returns ∧ r ∉ journal ∧ stage'.owns = true := by
  cases stage with
  | queued =>
    rw [claimStep] at h
    split_ifs at h with hfails hmem
    · cases h
      exact .inl hrun
    · cases h
      exact .inl hrun
    · cases h
      rcases KeySet.mem_insert.mp hrun with rfl | hold
      · exact .inr ⟨rfl, rfl, not_not.mp hfails, hmem, rfl⟩
      · exact .inl hold
  | created =>
    cases h
    exact .inl hrun
  | written =>
    cases h
    exact .inl hrun
  | ended result =>
    cases h
    exact .inl hrun

theorem claimStep_keeps {runId : Text} {journal journal' : KeySet Text} {stage stage' : ClaimStage}
    (h : claimStep runId journal .returns stage = (journal', stage')) (howns : stage.owns = true) :
    stage'.owns = true := by
  cases stage with
  | queued => cases howns
  | created =>
    cases h
    rfl
  | written =>
    cases h
    rfl
  | ended result =>
    cases h
    exact howns

theorem owns_runId {delivery : Delivery} {runId : Text} (h : delivery.owns runId = true) :
    delivery.request.runId = runId := by
  unfold Delivery.owns at h
  split at h
  · exact beq_iff_eq.mp (Bool.and_eq_true_iff.mp h).2
  · cases h

theorem owned_step (h : DispatchStep config s event s') (hkeeps : s.Keeps event) (hs : s.Owned before) :
    s'.Owned before := by
  -- a claim makes an owner, its answer passes the run on, and the guard keeps a claimed run from being dropped
  cases h with
  | idle => exact hs
  | deliver request =>
    intro runId hrun
    rcases hs runId hrun with hbefore | hstarted | ⟨d, hd, howner⟩
    · exact .inl hbefore
    · exact .inr (.inl hstarted)
    · exact .inr (.inr ⟨d, List.mem_append_left _ hd, howner⟩)
  | probe outcome hi => exact owned_set hs hi fun _ h => by cases h
  | answerProbe hi _ => exact owned_set hs hi fun _ h => by cases h
  | acquire hi _ => exact owned_set hs hi fun _ h => by cases h
  | @claim i request stage stage' journal outcome hi hclaim =>
    have howns : ∀ runId, Delivery.owns runId ⟨request, .claiming stage⟩ = true →
        Delivery.owns runId ⟨request, .claiming stage'⟩ = true := by
      intro runId hold
      have hid := owns_runId hold
      subst hid
      have hreturns := (hkeeps _ hi).1 hold
      subst hreturns
      obtain ⟨hstage, hid⟩ := Bool.and_eq_true_iff.mp hold
      exact Bool.and_eq_true_iff.mpr ⟨claimStep_keeps hclaim hstage, hid⟩
    intro runId hrun
    rcases claimStep_creates hclaim hrun with hold | ⟨rfl, -, -, -, hstage⟩
    · exact owned_set hs hi howns runId hold
    · refine .inr (.inr ⟨⟨request, .claiming stage'⟩, List.mem_set (List.getElem?_eq_some_iff.mp hi).1 _, ?_⟩)
      exact Bool.and_eq_true_iff.mpr ⟨hstage, beq_self_eq_true _⟩
  | @claimDetached i request stage stage' journal outcome hi hclaim =>
    intro runId hrun
    rcases claimStep_creates hclaim hrun with hold | ⟨-, rfl, hreturns, habsent, -⟩
    · exact owned_set hs hi (fun _ h => by cases h) runId hold
    · exact absurd ((hkeeps _ hi).2 rfl hreturns) habsent
  | @answerClaim i request result hi hresult =>
    refine owned_set hs hi ?_
    intro runId hold
    rcases result with _ | _ | _
    · cases hold
    · cases hold
    · exact absurd rfl hresult
  | @spawn i request hi =>
    intro runId hrun
    rcases hs runId hrun with hbefore | hstarted | howner
    · exact .inl hbefore
    · exact .inr (.inl (List.mem_append_left _ hstarted))
    · by_cases hid : request.runId = runId
      · exact .inr (.inl (List.mem_append_right _ (List.mem_singleton.mpr hid.symm)))
      · exact .inr (.inr (owner_set hi (fun hold => absurd (owns_runId hold) hid) howner))
  | @dropClaiming i request stage hi =>
    refine owned_set hs hi ?_
    intro runId hold
    have hid := owns_runId hold
    subst hid
    have hnone := hkeeps _ hi
    rw [hold] at hnone
    cases hnone
  | @dropProbing i request stage hi hclaiming _ =>
    refine owned_set hs hi ?_
    intro runId hold
    cases stage with
    | claiming c => exact absurd rfl (hclaiming c)
    | probing => cases hold
    | probed claimed => cases hold
    | detached c => cases hold
    | gone => cases hold
  | next hk _ => exact hs
  | finish hk => exact hs
  | crash => exact hkeeps.elim

theorem truthful_of_owned (howned : s.Owned before) (hwitnessed : s.Witnessed) : s.Truthful before := by
  refine ⟨?_, ?_⟩
  · intro runId hanswer hfresh
    rcases howned runId (hwitnessed.answered runId hanswer) with hbefore | hdispatch
    · exact absurd hbefore hfresh
    · exact hdispatch
  · intro runId hfresh hstarted howner hfile
    rcases howned runId hfile with hbefore | hdispatch | ⟨d, hd, hrun⟩
    · exact hfresh hbefore
    · exact hstarted hdispatch
    · rw [howner d hd] at hrun
      cases hrun

theorem claim_eq {i : Nat} {request : RunRequest} {stage : ClaimStage} (outcome : Blocking)
    (hi : s.deliveries[i]? = some ⟨request, .claiming stage⟩) : s.step config (.claim i outcome) =
      { s.move i request (.claiming (claimStep request.runId s.journal outcome stage).2) with
        journal := (claimStep request.runId s.journal outcome stage).1 } := by
  rw [DispatchState.step, hi]

theorem keeps_claim {i : Nat} {request : RunRequest} {stage : ClaimStage}
    (hi : s.deliveries[i]? = some ⟨request, .claiming stage⟩) : s.Keeps (.claim i .returns) := by
  intro delivery hdelivery
  cases hi.symm.trans hdelivery
  exact ⟨fun _ => rfl, fun hstage => by cases hstage⟩

theorem resume_starts {i : Nat} {request : RunRequest}
    (hi : s.deliveries[i]? = some ⟨request, .claiming (.ended (some true))⟩) :
    request.runId ∈ (s.step config (.resume i)).started := by
  rw [DispatchState.step, hi]
  exact List.mem_append_right _ (List.mem_singleton_self _)

theorem owner_starts {i : Nat} {delivery : Delivery} {runId : Text} (hi : s.deliveries[i]? = some delivery)
    (howns : delivery.owns runId = true) :
    ∃ events, Run.Guarded (DispatchState.step config) DispatchState.Keeps s events ∧
      runId ∈ (Run.exec (DispatchState.step config) s events).started := by
  have hlength : i < s.deliveries.length := (List.getElem?_eq_some_iff.mp hi).1
  have hid := owns_runId howns
  obtain ⟨request, stage⟩ := delivery
  have hwritten : ∀ s : DispatchState, s.deliveries[i]? = some ⟨request, .claiming .written⟩ →
      Run.Guarded (DispatchState.step config) DispatchState.Keeps s [.claim i .returns, .resume i] ∧
        request.runId ∈ (Run.exec (DispatchState.step config) s [.claim i .returns, .resume i]).started := by
    intro s hi
    refine ⟨⟨keeps_claim hi, trivial, trivial⟩, ?_⟩
    rw [Run.exec_cons, claim_eq _ hi]
    exact resume_starts (List.getElem?_set_self (List.getElem?_eq_some_iff.mp hi).1)
  subst hid
  cases stage with
  | claiming stage =>
    have hstage : stage.owns = true := (Bool.and_eq_true_iff.mp howns).1
    cases stage with
    | queued => cases hstage
    | created =>
      have hnext := hwritten (s.step config (.claim i .returns)) (by
        rw [claim_eq _ hi]
        exact List.getElem?_set_self hlength)
      exact ⟨.claim i .returns :: [.claim i .returns, .resume i], ⟨keeps_claim hi, hnext.1⟩, hnext.2⟩
    | written => exact ⟨_, hwritten s hi⟩
    | ended result =>
      rcases result with _ | _ | _
      · cases hstage
      · cases hstage
      · exact ⟨[.resume i], ⟨trivial, trivial⟩, resume_starts hi⟩
  | probing => cases howns
  | probed claimed => cases howns
  | detached stage => cases howns
  | gone => cases howns

end Steps

/-- In every run of a process that loses no run between the creation of its file and its dispatch, a delivery that is
told that its run was accepted is right, and a run that is not dispatched can still be claimed. -/
theorem truthful_of_keeps (config : CommandConfig) (before : KeySet Text) (events : List DispatchEvent)
    (h : Run.Guarded (DispatchState.step config) DispatchState.Keeps (.initial config before) events) :
    (DispatchState.run config before events).Truthful before := by
  have hrun : (DispatchState.run config before events).Owned before ∧
      (DispatchState.run config before events).Witnessed := by
    refine Run.exec_invariant_of (P := fun s : DispatchState => s.Owned before ∧ s.Witnessed) ?_ h ?_
    · intro s event hkeeps hs
      have hstep := step_cases config s event
      exact ⟨owned_step hstep hkeeps hs.1, witnessed_step hstep hs.2⟩
    · exact ⟨fun _ hfile => .inl hfile, List.forall_mem_nil _, fun _ h => by cases h⟩
  exact truthful_of_owned hrun.1 hrun.2

def repeatedRequest : RunRequest where
  runId := "ores-00".toList
  sourceKey := "slash:T1:C1:U1:1".toList
  occurredAt := "2026-07-31T06:00:00Z".toList
  provider := .claude
  teamId := "T1".toList
  channelId := "C1".toList
  userId := "U1".toList
  prompt := "Fix the build".toList
  action := "implement".toList
  repository := none
  linearIssue := none
  capability := .repositoryWrite
  contextMessages := 5

/-- A delivery that starts its run, and a second one. -/
def redelivered : List DispatchEvent := [.deliver repeatedRequest, .probe 0 .returns, .resume 0, .claim 0 .returns,
  .claim 0 .returns, .claim 0 .returns, .resume 0, .deliver repeatedRequest, .probe 1 .returns, .resume 1]

theorem truthful_redelivered : (DispatchState.run unpinnedConfig .empty redelivered).Truthful .empty := by
  refine truthful_of_keeps unpinnedConfig .empty redelivered ?_
  refine ⟨trivial, trivial, trivial, keeps_claim rfl, keeps_claim rfl, keeps_claim rfl, trivial, trivial, trivial,
    trivial, trivial⟩

/-- A delivery whose claim creates its file but cannot write it, and a second one. -/
def unwritten : List DispatchEvent := [.deliver repeatedRequest, .probe 0 .returns, .resume 0, .claim 0 .returns,
  .claim 0 .fails, .resume 0, .deliver repeatedRequest, .probe 1 .returns, .resume 1]

/-- The first delivery is told that the run was not started, the second that it was accepted, and nothing runs. -/
theorem not_truthful : (∀ event ∈ unwritten, event ≠ .crash) ∧
    ¬ (DispatchState.run unpinnedConfig .empty unwritten).Truthful .empty := by
  refine ⟨?_, ?_⟩
  · intro event h hcrash
    subst hcrash
    simp [unwritten] at h
  · intro htruthful
    have hanswers : (DispatchState.run unpinnedConfig .empty unwritten).answers =
        [("ores-00".toList, .journalUnavailable), ("ores-00".toList, .duplicate "ores-00".toList)] := rfl
    have hstarted : (DispatchState.run unpinnedConfig .empty unwritten).started = [] := rfl
    have hdeliveries : (DispatchState.run unpinnedConfig .empty unwritten).deliveries =
        [⟨repeatedRequest, .gone⟩, ⟨repeatedRequest, .gone⟩] := rfl
    have hanswer : ("ores-00".toList, Accepted.duplicate "ores-00".toList) ∈
        (DispatchState.run unpinnedConfig .empty unwritten).answers := by
      rw [hanswers]
      exact List.mem_cons_of_mem _ (List.mem_singleton_self _)
    rcases htruthful.duplicates _ hanswer List.not_mem_nil with hdispatched | ⟨d, hd, howns⟩
    · rw [hstarted] at hdispatched
      cases hdispatched
    · rw [hdeliveries, List.mem_cons, List.mem_singleton] at hd
      rcases hd with rfl | rfl <;> cases howns

end AgentBridge.Slack
