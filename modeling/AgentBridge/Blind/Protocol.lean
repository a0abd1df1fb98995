import AgentBridge.Blind.Records

/-! Runs of blind competitions in which the locked steps of any number of submissions
and reveals interleave with the other requests, and the invariant of the stored records. -/

namespace AgentBridge.BlindCompetition
open State
open Orchestration (Puts Keyed SubmitWorld WorkflowAction)

/-- A plan that `create_blind_competition` can build: the workers are numbered in order and
pairwise different, and the reviewer is none of them. -/
structure Seating (plan : BlindCompetitionPlan) : Prop where
  ordinals : plan.workers.map BlindWorker.ordinal = List.range plan.workers.length
  agents : (plan.workers.map BlindWorker.agentKey).Nodup
  reviewer : plan.reviewerAgentKey ∉ plan.workers.map BlindWorker.agentKey

section Seating
variable {s : AppState} {plan : BlindCompetitionPlan} {workers seats : List BlindWorker}

theorem collectWorkers_seating {requested : List Text} (h : collectWorkers s seats requested = .ok workers)
    (hordinals : seats.map BlindWorker.ordinal = List.range seats.length)
    (hagents : (seats.map BlindWorker.agentKey).Nodup) :
    workers.map BlindWorker.ordinal = List.range workers.length ∧
      (workers.map BlindWorker.agentKey).Nodup := by
  -- the next worker gets the next ordinal, under a key that is not seated yet
  induction requested generalizing seats with
  | nil =>
    cases h
    exact ⟨hordinals, hagents⟩
  | cons key requested ih =>
    obtain ⟨agentKey, -, h⟩ := Except.bind_eq_ok.mp h
    obtain ⟨hfresh, h⟩ := Except.check_eq_ok.mp h
    obtain ⟨-, h⟩ := Except.check_eq_ok.mp h
    have hfresh : agentKey ∉ seats.map BlindWorker.agentKey := fun hmem => hfresh (by simpa using hmem)
    refine ih h ?_ ?_
    · rw [List.map_append, hordinals, List.length_append]
      exact List.range_succ.symm
    · rw [List.map_append, List.nodup_append]
      refine ⟨hagents, List.nodup_singleton _, fun a ha b hb hab => hfresh ?_⟩
      have hb : b = agentKey := List.mem_singleton.mp hb
      rw [← hb, ← hab]
      exact ha

theorem buildPlan_seating {now : Now} {id : Text} {req : CreateBlindCompetitionReq}
    (h : buildPlan s now id req = .ok plan) : Seating plan := by
  obtain ⟨title, -, h⟩ := Except.bind_eq_ok.mp h
  obtain ⟨prompt, -, h⟩ := Except.bind_eq_ok.mp h
  obtain ⟨createdBy, -, h⟩ := Except.bind_eq_ok.mp h
  obtain ⟨_, -, h⟩ := Except.bind_eq_ok.mp h
  obtain ⟨_, -, h⟩ := Except.bind_eq_ok.mp h
  obtain ⟨workers, hworkers, h⟩ := Except.bind_eq_ok.mp h
  obtain ⟨reviewer, -, h⟩ := Except.bind_eq_ok.mp h
  obtain ⟨_, hreviewer, h⟩ := Except.bind_eq_ok.mp h
  obtain ⟨channel, -, h⟩ := Except.bind_eq_ok.mp h
  cases h
  obtain ⟨hordinals, hagents⟩ := collectWorkers_seating hworkers rfl List.nodup_nil
  refine ⟨hordinals, hagents, fun hmem => ?_⟩
  rw [checkReviewer, Except.check_eq_ok] at hreviewer
  exact hreviewer.1 (by simpa using hmem)

theorem Seating.eq_of_agentKey (h : Seating plan) {a b : BlindWorker} (ha : a ∈ plan.workers)
    (hb : b ∈ plan.workers) (hab : a.agentKey = b.agentKey) : a = b :=
  List.inj_on_of_nodup_map h.agents ha hb hab

theorem Seating.eq_of_ordinal (h : Seating plan) {a b : BlindWorker} (ha : a ∈ plan.workers)
    (hb : b ∈ plan.workers) (hab : a.ordinal = b.ordinal) : a = b := by
  have hnd : (plan.workers.map BlindWorker.ordinal).Nodup := by
    rw [h.ordinals]
    exact List.nodup_range
  exact List.inj_on_of_nodup_map hnd ha hb hab

end Seating

def PlanAt (s : AppState) (plan : BlindCompetitionPlan) : Prop :=
  ∃ e, s.entry plan.channel blindPlanContextKey = some e ∧ e.value = .blindPlan plan

structure Answers (plan : BlindCompetitionPlan) (submission : BlindSubmission) (worker : BlindWorker) :
    Prop where
  seated : worker ∈ plan.workers
  ordinal : submission.assignmentOrdinal = worker.ordinal
  agentKey : submission.agentKey = worker.agentKey

def Complete (s : AppState) (plan : BlindCompetitionPlan) : Prop :=
  ∀ worker ∈ plan.workers, ∃ e, s.entry plan.channel (submissionKey worker.ordinal) = some e

structure RecordsOk (s : AppState) : Prop where
  keyed : Keyed s
  plans : ∀ c e, s.entry c blindPlanContextKey = some e →
    ∃ plan, e.value = .blindPlan plan ∧ plan.channel = c ∧ Seating plan
  submissions : ∀ c k e, s.entry c k = some e → blindSubmissionContextPrefix <+: k →
    ∃ plan submission worker, plan.channel = c ∧ PlanAt s plan ∧ Answers plan submission worker ∧
      k = submissionKey worker.ordinal ∧ e.value = .blindSubmission submission
  reveals : ∀ c e, s.entry c blindRevealContextKey = some e →
    ∃ plan reveal, plan.channel = c ∧ PlanAt s plan ∧ Complete s plan ∧ e.version = 1 ∧
      e.value = .blindReveal reveal ∧ reveal.reviewerAgentKey = plan.reviewerAgentKey

/-- What a step can do to the records, and on behalf of which call: nothing, a new plan, the
submission of a worker, or the reveal of a complete set by a call that counted it. -/
inductive RecordStep (s s' : AppState) : Option BlindCall → Prop
  | same {caller : Option BlindCall} (hkeyed : Keyed s → Keyed s')
      (h : ∀ c k, IsBlindKey k → s'.entry c k = s.entry c k) : RecordStep s s' caller
  | plan {caller : Option BlindCall} (plan : BlindCompetitionPlan) (e : ContextEntry)
      (hfree : s.entry plan.channel blindPlanContextKey = none) (hkey : e.key = blindPlanContextKey)
      (hvalue : e.value = .blindPlan plan) (hseating : Seating plan) (hput : Puts s s' plan.channel e) :
      RecordStep s s' caller
  | submission {caller : Option BlindCall} (plan : BlindCompetitionPlan) (worker : BlindWorker)
      (submission : BlindSubmission) (e : ContextEntry) (hplan : PlanAt s plan)
      (hans : Answers plan submission worker)
      (hfree : s.entry plan.channel (submissionKey worker.ordinal) = none)
      (hkey : e.key = submissionKey worker.ordinal) (hvalue : e.value = .blindSubmission submission)
      (hput : Puts s s' plan.channel e) : RecordStep s s' caller
  | reveal (identity : AuthenticatedAdapter) (plan : BlindCompetitionPlan) (candidates : Nat)
      (reveal : BlindReveal) (e : ContextEntry) (hplan : PlanAt s plan) (hcomplete : Complete s plan)
      (hreviewer : identity.agentKey = plan.reviewerAgentKey)
      (hnamed : reveal.reviewerAgentKey = plan.reviewerAgentKey)
      (hfree : s.entry plan.channel blindRevealContextKey = none) (hkey : e.key = blindRevealContextKey)
      (hversion : e.version = 1) (hvalue : e.value = .blindReveal reveal)
      (hput : Puts s s' plan.channel e) : RecordStep s s' (some (.counted identity plan candidates))

/-- The records are kept as they are. -/
def Grows (s s' : AppState) : Prop :=
  ∀ c k e, IsBlindKey k → s.entry c k = some e → s'.entry c k = some e

section Growth
variable {s s' : AppState} {plan : BlindCompetitionPlan} {caller : Option BlindCall}

theorem isBlindKey_plan : IsBlindKey blindPlanContextKey := .inl rfl

theorem isBlindKey_reveal : IsBlindKey blindRevealContextKey := .inr (.inl rfl)

theorem isBlindKey_submission (n : Nat) : IsBlindKey (submissionKey n) := .inr (.inr (submissionPrefix_isPrefix n))

theorem Grows.refl (s : AppState) : Grows s s := fun _ _ _ _ he => he

theorem Grows.trans {s'' : AppState} (h : Grows s s') (h' : Grows s' s'') : Grows s s'' :=
  fun c k e hk he => h' c k e hk (h c k e hk he)

theorem Grows.planAt (h : Grows s s') (hplan : PlanAt s plan) : PlanAt s' plan := by
  obtain ⟨e, he, hv⟩ := hplan
  exact ⟨e, h _ _ _ isBlindKey_plan he, hv⟩

theorem Grows.complete (h : Grows s s') (hcomplete : Complete s plan) : Complete s' plan := by
  intro worker hworker
  obtain ⟨e, he⟩ := hcomplete worker hworker
  exact ⟨e, h _ _ _ (isBlindKey_submission _) he⟩

theorem RecordStep.of_entry (h : ∀ c k, s'.entry c k = s.entry c k) : RecordStep s s' caller :=
  .same (fun hs c k e he => hs c k e (h c k ▸ he)) fun c k _ => h c k

theorem RecordStep.grows (h : RecordStep s s' caller) : Grows s s' := by
  intro c k e hk he
  cases h with
  | same hkeyed h => rw [h c k hk, he]
  | plan plan e' hfree hkey hvalue hseating hput => exact hput.kept (hkey ▸ hfree) he
  | submission plan worker submission e' hplan hans hfree hkey hvalue hput =>
    exact hput.kept (hkey ▸ hfree) he
  | reveal identity plan candidates reveal e' hplan hcomplete hreviewer hnamed hfree hkey hversion hvalue hput =>
    exact hput.kept (hkey ▸ hfree) he

theorem PlanAt.unique {plan' : BlindCompetitionPlan} (h : PlanAt s plan) (h' : PlanAt s plan')
    (hc : plan.channel = plan'.channel) : plan = plan' := by
  obtain ⟨e, he, hv⟩ := h
  obtain ⟨e', he', hv'⟩ := h'
  rw [← hc, he] at he'
  cases he'
  exact ContextValue.blindPlan.inj (hv.symm.trans hv')

end Growth

section Preservation
variable {s s' : AppState} {slug c k : Text} {e : ContextEntry} {plan : BlindCompetitionPlan}
  {caller : Option BlindCall}

/-- Of an entry that is put nothing is required but what its own key asks for: the other
records rest on what is stored, and that is kept. -/
theorem RecordsOk.put (hs : RecordsOk s) (hgrows : Grows s s') (hput : Puts s s' slug e)
    (hplan : e.key = blindPlanContextKey → ∃ plan, e.value = .blindPlan plan ∧ plan.channel = slug ∧ Seating plan)
    (hsub : blindSubmissionContextPrefix <+: e.key → ∃ plan submission worker, plan.channel = slug ∧
      PlanAt s plan ∧ Answers plan submission worker ∧ e.key = submissionKey worker.ordinal ∧
      e.value = .blindSubmission submission)
    (hreveal : e.key = blindRevealContextKey → ∃ plan reveal, plan.channel = slug ∧ PlanAt s plan ∧
      Complete s plan ∧ e.version = 1 ∧ e.value = .blindReveal reveal ∧
      reveal.reviewerAgentKey = plan.reviewerAgentKey) : RecordsOk s' := by
  refine ⟨hput.keyed hs.keyed, fun c e' he => ?_, fun c k e' he hp => ?_, fun c e' he => ?_⟩
  · rw [hput.entry] at he
    split_ifs at he with hc
    · cases he
      exact hc.1 ▸ hplan hc.2.symm
    · exact hs.plans c e' he
  · have hold : ∃ plan submission worker, plan.channel = c ∧ PlanAt s plan ∧
        Answers plan submission worker ∧ k = submissionKey worker.ordinal ∧
        e'.value = .blindSubmission submission := by
      rw [hput.entry] at he
      split_ifs at he with hc
      · cases he
        rw [hc.1, hc.2]
        exact hsub (hc.2 ▸ hp)
      · exact hs.submissions c k e' he hp
    obtain ⟨plan, submission, worker, hc, hat, hrest⟩ := hold
    exact ⟨plan, submission, worker, hc, hgrows.planAt hat, hrest⟩
  · have hold : ∃ plan reveal, plan.channel = c ∧ PlanAt s plan ∧ Complete s plan ∧ e'.version = 1 ∧
        e'.value = .blindReveal reveal ∧ reveal.reviewerAgentKey = plan.reviewerAgentKey := by
      rw [hput.entry] at he
      split_ifs at he with hc
      · cases he
        rw [hc.1]
        exact hreveal hc.2.symm
      · exact hs.reveals c e' he
    obtain ⟨plan, reveal, hc, hat, hcomplete, hrest⟩ := hold
    exact ⟨plan, reveal, hc, hgrows.planAt hat, hgrows.complete hcomplete, hrest⟩

theorem RecordStep.recordsOk (h : RecordStep s s' caller) (hs : RecordsOk s) : RecordsOk s' := by
  have hgrows := h.grows
  cases h with
  | same hkeyed h =>
    refine ⟨hkeyed hs.keyed, fun c e he => ?_, fun c k e he hp => ?_, fun c e he => ?_⟩
    · exact hs.plans c e (h c _ isBlindKey_plan ▸ he)
    · obtain ⟨plan, submission, worker, hc, hat, hrest⟩ := hs.submissions c k e (h c k (.inr (.inr hp)) ▸ he) hp
      exact ⟨plan, submission, worker, hc, hgrows.planAt hat, hrest⟩
    · obtain ⟨plan, reveal, hc, hat, hcomplete, hrest⟩ := hs.reveals c e (h c _ isBlindKey_reveal ▸ he)
      exact ⟨plan, reveal, hc, hgrows.planAt hat, hgrows.complete hcomplete, hrest⟩
  | plan plan e hfree hkey hvalue hseating hput =>
    refine hs.put hgrows hput (fun _ => ⟨plan, hvalue, rfl, hseating⟩) (fun hp => ?_) fun hr => ?_
    · exact absurd (hkey ▸ hp) not_prefix_plan
    · exact absurd (hr.symm.trans hkey) reveal_ne_plan
  | submission plan worker submission e hplan hans hfree hkey hvalue hput =>
    refine hs.put hgrows hput (fun hp => ?_) (fun _ => ⟨plan, submission, worker, rfl, hplan, hans, hkey, hvalue⟩)
      fun hr => ?_
    · exact absurd (hkey.symm.trans hp) (submissionKey_ne not_prefix_plan _)
    · exact absurd (hkey.symm.trans hr) (submissionKey_ne not_prefix_reveal _)
  | reveal identity plan candidates reveal e hplan hcomplete hreviewer hnamed hfree hkey hversion hvalue hput =>
    refine hs.put hgrows hput (fun hp => ?_) (fun hp => ?_)
      fun _ => ⟨plan, reveal, rfl, hplan, hcomplete, hversion, hvalue, hnamed⟩
    · exact absurd (hkey.symm.trans hp) reveal_ne_plan
    · exact absurd (hkey ▸ hp) not_prefix_reveal

/-- Once the reveal is stored every worker's key is taken, so no submission is added. -/
theorem RecordStep.frozen (h : RecordStep s s' caller) (hs : RecordsOk s)
    (hreveal : s.entry c blindRevealContextKey = some e) (hk : blindSubmissionContextPrefix <+: k) :
    s'.entry c k = s.entry c k := by
  cases h with
  | same hkeyed h => exact h c k (.inr (.inr hk))
  | plan plan e' hfree hkey hvalue hseating hput =>
    apply hput.ne
    rintro ⟨-, rfl⟩
    exact not_prefix_plan (hkey ▸ hk)
  | submission plan worker submission e' hplan hans hfree hkey hvalue hput =>
    apply hput.ne
    rintro ⟨rfl, rfl⟩
    obtain ⟨plan', reveal, hc, hat, hcomplete, -⟩ := hs.reveals _ e hreveal
    obtain rfl := hat.unique hplan hc
    obtain ⟨stored, hstored⟩ := hcomplete worker hans.seated
    rw [hfree] at hstored
    cases hstored
  | reveal identity plan candidates reveal e' hplan hcomplete hreviewer hnamed hfree hkey hversion hvalue hput =>
    apply hput.ne
    rintro ⟨-, rfl⟩
    exact not_prefix_reveal (hkey ▸ hk)

theorem RecordStep.revealed (h : RecordStep s s' caller) (hnone : s.entry c blindRevealContextKey = none)
    (hsome : s'.entry c blindRevealContextKey = some e) :
    ∃ identity plan candidates reveal, caller = some (.counted identity plan candidates) ∧
      plan.channel = c ∧ PlanAt s plan ∧ Complete s plan ∧ identity.agentKey = plan.reviewerAgentKey ∧
      e.version = 1 ∧ e.value = .blindReveal reveal ∧
      reveal.reviewerAgentKey = plan.reviewerAgentKey := by
  cases h with
  | same hkeyed h =>
    rw [h c _ isBlindKey_reveal, hnone] at hsome
    cases hsome
  | plan plan e' hfree hkey hvalue hseating hput =>
    rw [hput.ne fun hc => reveal_ne_plan (hc.2.trans hkey), hnone] at hsome
    cases hsome
  | submission plan worker submission e' hplan hans hfree hkey hvalue hput =>
    rw [hput.ne fun hc => submissionKey_ne not_prefix_reveal _ (hc.2.trans hkey).symm, hnone] at hsome
    cases hsome
  | reveal identity plan candidates reveal e' hplan hcomplete hreviewer hnamed hfree hkey hversion hvalue hput =>
    rw [hput.entry] at hsome
    split_ifs at hsome with hc
    · cases hsome
      exact ⟨identity, plan, candidates, reveal, rfl, hc.1.symm, hplan, hcomplete, hreviewer, hversion, hvalue, hnamed⟩
    · rw [hnone] at hsome
      cases hsome

end Preservation

section Count
variable {s : AppState} {plan : BlindCompetitionPlan} {c k : Text} {e : ContextEntry}

theorem RecordsOk.seating (hs : RecordsOk s) (hplan : PlanAt s plan) : Seating plan := by
  obtain ⟨e, he, hv⟩ := hplan
  obtain ⟨plan', hv', -, hseating⟩ := hs.plans _ e he
  rw [hv] at hv'
  cases hv'
  exact hseating

theorem RecordsOk.stored (hs : RecordsOk s) (hplan : PlanAt s plan)
    (he : s.entry plan.channel k = some e) {submission : BlindSubmission}
    (hp : blindSubmissionContextPrefix <+: k) (hv : e.value = .blindSubmission submission) :
    ∃ worker, Answers plan submission worker ∧ k = submissionKey worker.ordinal := by
  obtain ⟨plan', submission', worker, hc, hat, hans, hk, hv'⟩ := hs.submissions _ _ _ he hp
  obtain rfl := hat.unique hplan hc
  obtain rfl := ContextValue.blindSubmission.inj (hv.symm.trans hv')
  exact ⟨worker, hans, hk⟩

/-- The stored submissions are of different workers, so as many of them as workers are all. -/
theorem complete_of_count (hs : RecordsOk s) (hplan : PlanAt s plan) {candidates : Nat}
    (h : countCandidates s plan = .ok candidates) : Complete s plan := by
  obtain ⟨submissions, hload, h⟩ := Except.bind_eq_ok.mp h
  obtain ⟨hcount, -⟩ := Except.check_eq_ok.mp h
  have hcount : submissions.length = plan.workers.length := not_not.mp hcount
  have hmem {submission : BlindSubmission} (hsub : submission ∈ submissions) :
      ∃ e worker, s.entry plan.channel (submissionKey submission.assignmentOrdinal) = some e ∧
        Answers plan submission worker := by
    obtain ⟨k, e, he, hp, hv⟩ := (mem_loadSubmissions hs.keyed hload).mp hsub
    obtain ⟨worker, hans, rfl⟩ := hs.stored hplan he hp hv
    exact ⟨e, worker, hans.ordinal ▸ he, hans⟩
  have hnodup : (submissions.map BlindSubmission.assignmentOrdinal).Nodup := by
    refine nodup_loadSubmissions hload fun k e submission he hparse => ?_
    obtain ⟨hp, hv⟩ := parseSubmission_eq_some.mp hparse
    obtain ⟨worker, hans, hk⟩ := hs.stored hplan he (hs.keyed _ _ _ he ▸ hp) hv
    rw [hk, hans.ordinal]
  have hsub : submissions.map BlindSubmission.assignmentOrdinal ⊆ plan.workers.map BlindWorker.ordinal := by
    intro n hn
    obtain ⟨submission, hsubmission, rfl⟩ := List.mem_map.mp hn
    obtain ⟨e, worker, -, hans⟩ := hmem hsubmission
    exact List.mem_map.mpr ⟨worker, hans.seated, hans.ordinal.symm⟩
  have hperm : (submissions.map BlindSubmission.assignmentOrdinal).Perm (plan.workers.map BlindWorker.ordinal) := by
    apply (hnodup.subperm hsub).perm_of_length_le
    rw [List.length_map, List.length_map, hcount]
  intro worker hworker
  obtain ⟨submission, hsubmission, hordinal⟩ :=
    List.mem_map.mp (hperm.mem_iff.mpr (List.mem_map_of_mem hworker))
  obtain ⟨e, -, he, -⟩ := hmem hsubmission
  exact ⟨e, hordinal ▸ he⟩

def StoredFor (s : AppState) (plan : BlindCompetitionPlan) (worker : BlindWorker) (k : Text) : Prop :=
  blindSubmissionContextPrefix <+: k ∧ ∃ e submission, s.entry plan.channel k = some e ∧
    e.value = .blindSubmission submission ∧ submission.agentKey = worker.agentKey

theorem RecordsOk.storedFor_unique (hs : RecordsOk s) (hplan : PlanAt s plan) (hcomplete : Complete s plan)
    {worker : BlindWorker} (hworker : worker ∈ plan.workers) : ∃! k, StoredFor s plan worker k := by
  have hseating := hs.seating hplan
  refine ⟨submissionKey worker.ordinal, ?_, ?_⟩
  · obtain ⟨e, he⟩ := hcomplete worker hworker
    have hp := submissionPrefix_isPrefix worker.ordinal
    obtain ⟨plan', submission, worker', hc, hat, hans, hk, hv⟩ := hs.submissions _ _ _ he hp
    obtain rfl := hat.unique hplan hc
    obtain rfl := hseating.eq_of_ordinal hworker hans.seated (submissionKey_injective hk)
    exact ⟨hp, e, submission, he, hv, hans.agentKey⟩
  · rintro k ⟨hp, e, submission, he, hv, hagent⟩
    obtain ⟨worker', hans, hk⟩ := hs.stored hplan he hp hv
    obtain rfl := hseating.eq_of_agentKey hworker hans.seated (hagent.symm.trans hans.agentKey)
    exact hk

end Count

section Create
variable {s : AppState} {now : Now} {caller : Option BlindCall}

theorem installPlan_records (s : AppState) (w : Surroundings) (now : Now) (messageId : Text)
    (plan : BlindCompetitionPlan) (viewer : Option Text) (hseating : Seating plan) :
    RecordStep s (installPlan s w now messageId plan viewer).2 caller := by
  unfold installPlan
  have hcreate := (createOrGetChannel_effect s now plan.channel w plan.title plan.createdBy).entry
  rcases h₁ : s.createOrGetChannel w now plan.channel plan.title plan.createdBy with ⟨r₁, s₁⟩
  rw [h₁] at hcreate
  cases r₁ with
  | error e => exact .of_entry hcreate
  | ok channel =>
    dsimp only
    have hjoin (c k : Text) :=
      (Orchestration.joinAll_entry s₁ now plan.channel (seated plan) c k).trans (hcreate c k)
    rcases h₂ : Orchestration.joinAll s₁ now plan.channel (seated plan) with ⟨r₂, s₂⟩
    simp only [h₂] at hjoin
    cases r₂ with
    | error e => exact .of_entry hjoin
    | ok u =>
      dsimp only [publish]
      rcases insertBlindContext_cases s₂ now plan.channel blindPlanContextKey (.blindPlan plan)
        plan.createdBy trim_blindPlanContextKey with ⟨e, hinsert⟩ | ⟨e, s₃, hinsert, hfree, hkey, hvalue, -, hput⟩
      · rw [hinsert]
        exact .of_entry hjoin
      · rw [hinsert]
        dsimp only
        have hpost := (post_effect s₃ now messageId plan.channel plan.createdBy .system
          (openedMessage plan) (openedMetadata plan)).entry
        rw [hjoin] at hfree
        rcases h₄ : s₃.postMessage now messageId plan.channel plan.createdBy .system (openedMessage plan)
          (openedMetadata plan) with ⟨r₄, s₄⟩
        rw [h₄] at hpost
        have hstep : RecordStep s s₄ caller :=
          .plan plan e hfree hkey hvalue hseating (hput.congr hjoin hpost)
        cases r₄ with
        | error e' => exact hstep
        | ok message => exact hstep

theorem create_records (s : AppState) (w : Surroundings) (now : Now) (viewer : Option AuthenticatedAdapter)
    (id messageId : Text) (req : CreateBlindCompetitionReq) :
    RecordStep s (createBlindCompetition s now viewer w id messageId req).2 caller := by
  unfold createBlindCompetition
  cases hplan : buildPlan s now id req with
  | error e => exact .same (fun hs => hs) fun _ _ _ => rfl
  | ok plan => exact installPlan_records s w now messageId plan _ (buildPlan_seating hplan)

end Create

section Calls
variable {s s' : AppState} {now : Now} {messageId : Text} {call : BlindCall} {identity : AuthenticatedAdapter}
  {plan : BlindCompetitionPlan}

/-- What a call under way has established: its plan is stored, an admitted submitter is one
of the workers, a revealing caller is the reviewer, and a count has found the set complete. -/
def BlindCall.Sound (s : AppState) : BlindCall → Prop
  | .planned _ plan _ _ => PlanAt s plan
  | .admitted identity plan worker _ _ =>
    PlanAt s plan ∧ worker ∈ plan.workers ∧ worker.agentKey = identity.agentKey
  | .reviewing identity plan => PlanAt s plan ∧ identity.agentKey = plan.reviewerAgentKey
  | .counted identity plan _ =>
    PlanAt s plan ∧ identity.agentKey = plan.reviewerAgentKey ∧ Complete s plan
  | _ => True

theorem BlindCall.Sound.mono (h : call.Sound s) (hgrows : Grows s s') : call.Sound s' := by
  cases call with
  | planned identity plan content metadata => exact hgrows.planAt h
  | admitted identity plan worker content metadata => exact ⟨hgrows.planAt h.1, h.2⟩
  | reviewing identity plan => exact ⟨hgrows.planAt h.1, h.2⟩
  | counted identity plan candidates => exact ⟨hgrows.planAt h.1, h.2.1, hgrows.complete h.2.2⟩
  | submitting identity workflowId content metadata => trivial
  | stored identity plan submission => trivial
  | revealing identity workflowId => trivial
  | opened identity plan candidates => trivial
  | finished result => trivial

theorem BlindCall.startSubmit_sound (s : AppState) (config : Config) (viewer : Option AuthenticatedAdapter)
    (workflowId : Text) (req : SubmitBlindCompetitionReq) :
    (BlindCall.startSubmit config viewer workflowId req).Sound s := by
  unfold BlindCall.startSubmit
  cases viewer with
  | none => trivial
  | some identity =>
    dsimp only
    cases inputChecks config identity req <;> trivial

theorem BlindCall.startReveal_sound (s : AppState) (viewer : Option AuthenticatedAdapter) (workflowId : Text) :
    (BlindCall.startReveal viewer workflowId).Sound s := by
  cases viewer <;> trivial

theorem RecordsOk.planAt_of_load (hs : RecordsOk s) {workflowId : Text} (h : loadPlan s workflowId = .ok plan) :
    PlanAt s plan := by
  obtain ⟨channel, e, -, he, hv⟩ := loadPlan_eq_ok.mp h
  obtain ⟨plan', hv', rfl, -⟩ := hs.plans _ e he
  obtain rfl := ContextValue.blindPlan.inj (hv.symm.trans hv')
  exact ⟨e, he, hv⟩

theorem assignedWorker_mem {worker : BlindWorker} (h : assignedWorker s identity plan = .ok worker) :
    worker ∈ plan.workers ∧ worker.agentKey = identity.agentKey := by
  obtain ⟨reveal, -, h⟩ := Except.bind_eq_ok.mp h
  obtain ⟨-, h⟩ := Except.check_eq_ok.mp h
  cases hfound : plan.workers.find? (fun worker => worker.agentKey = identity.agentKey) with
  | none =>
    rw [hfound] at h
    cases h
  | some worker' =>
    rw [hfound] at h
    cases h
    exact ⟨List.mem_of_find?_eq_some hfound, by simpa using List.find?_some hfound⟩

theorem step_admitted {worker : BlindWorker} {content : Text} {metadata : Json} {caller : Option BlindCall}
    (h : (BlindCall.admitted identity plan worker content metadata).Sound s) :
    RecordStep s ((BlindCall.admitted identity plan worker content metadata).step s now messageId).2 caller ∧
      ∀ s', ((BlindCall.admitted identity plan worker content metadata).step s now messageId).1.Sound s' := by
  obtain ⟨hplan, hworker, hagent⟩ := h
  rw [BlindCall.step]
  rcases insertBlindContext_cases s now plan.channel (submissionKey worker.ordinal)
      (.blindSubmission (newSubmission now identity plan worker content metadata)) identity.agentKey
      (trim_submissionKey _) with ⟨e, hinsert⟩ | ⟨e, s', hinsert, hfree, hkey, hvalue, -, hput⟩
  · rw [hinsert]
    exact ⟨.same (fun hs => hs) fun _ _ _ => rfl, fun _ => trivial⟩
  · rw [hinsert]
    exact ⟨.submission plan worker _ e hplan ⟨hworker, rfl, hagent.symm⟩ hfree hkey hvalue hput, fun _ => trivial⟩

theorem step_counted {candidates : Nat} (h : (BlindCall.counted identity plan candidates).Sound s) :
    RecordStep s ((BlindCall.counted identity plan candidates).step s now messageId).2
        (some (.counted identity plan candidates)) ∧
      ∀ s', ((BlindCall.counted identity plan candidates).step s now messageId).1.Sound s' := by
  obtain ⟨hplan, hreviewer, hcomplete⟩ := h
  rw [BlindCall.step]
  rcases insertBlindContext_cases s now plan.channel blindRevealContextKey
      (.blindReveal (newReveal now identity plan)) identity.agentKey trim_blindRevealContextKey
      with ⟨e, hinsert⟩ | ⟨e, s', hinsert, hfree, hkey, hvalue, hversion, hput⟩
  · rw [hinsert]
    exact ⟨.same (fun hs => hs) fun _ _ _ => rfl, fun _ => trivial⟩
  · rw [hinsert]
    exact ⟨.reveal identity plan candidates _ e hplan hcomplete hreviewer hreviewer hfree hkey hversion hvalue hput,
      fun _ => trivial⟩

theorem post_records (s : AppState) (now : Now) (messageId slug sender content : Text) (role : Role)
    (metadata : Json) (caller : Option BlindCall) :
    RecordStep s (s.postMessage now messageId slug sender role content metadata).2 caller :=
  .of_entry (post_effect s now messageId slug sender role content metadata).entry

/-- One locked step of a call: what it does to the records, and what the call has then established. -/
theorem BlindCall.step_sound (hs : RecordsOk s) (now : Now) (messageId : Text) (h : call.Sound s) :
    RecordStep s (call.step s now messageId).2 (some call) ∧
      (call.step s now messageId).1.Sound (call.step s now messageId).2 := by
  have hread : RecordStep s s (some call) := .of_entry fun _ _ => rfl
  -- what one stage has checked, the next relies on; records are written at two stages only
  cases call with
  | submitting identity workflowId content metadata =>
    rw [step]
    cases hload : loadPlan s workflowId with
    | error e => exact ⟨hread, trivial⟩
    | ok plan => exact ⟨hread, hs.planAt_of_load hload⟩
  | planned identity plan content metadata =>
    rw [step]
    cases hassigned : assignedWorker s identity plan with
    | error e => exact ⟨hread, trivial⟩
    | ok worker => exact ⟨hread, h, assignedWorker_mem hassigned⟩
  | admitted identity plan worker content metadata => exact (step_admitted h).imp_right fun hsound => hsound _
  | stored identity plan submission =>
    have hpost := post_records s now messageId plan.channel identity.agentKey
      ("Blind candidate ".toList ++ Text.decimal submission.assignmentOrdinal ++ " submitted.".toList) .system
      (submissionMetadata submission) (some (.stored identity plan submission))
    rw [step]
    rcases hmessage : s.postMessage now messageId plan.channel identity.agentKey .system
      ("Blind candidate ".toList ++ Text.decimal submission.assignmentOrdinal ++ " submitted.".toList)
      (submissionMetadata submission) with ⟨r, s'⟩
    rw [hmessage] at hpost
    cases r with
    | error e => exact ⟨hpost, trivial⟩
    | ok message => exact ⟨hpost, trivial⟩
  | revealing identity workflowId =>
    rw [step]
    cases hload : loadPlan s workflowId with
    | error e => exact ⟨hread, trivial⟩
    | ok plan =>
      dsimp only
      split_ifs with hreviewer
      · exact ⟨hread, trivial⟩
      · exact ⟨hread, hs.planAt_of_load hload, not_not.mp hreviewer⟩
  | reviewing identity plan =>
    rw [step]
    cases hcount : countCandidates s plan with
    | error e => exact ⟨hread, trivial⟩
    | ok candidates => exact ⟨hread, h.1, h.2, complete_of_count hs h.1 hcount⟩
  | counted identity plan candidates => exact (step_counted h).imp_right fun hsound => hsound _
  | opened identity plan candidates =>
    have hpost := post_records s now messageId plan.channel identity.agentKey
      "Blind candidate set revealed to authorized workflow readers.".toList .system
      (revealMetadata plan candidates) (some (.opened identity plan candidates))
    rw [step]
    rcases hmessage : s.postMessage now messageId plan.channel identity.agentKey .system
      "Blind candidate set revealed to authorized workflow readers.".toList
      (revealMetadata plan candidates) with ⟨r, s'⟩
    rw [hmessage] at hpost
    cases r with
    | error e => exact ⟨hpost, trivial⟩
    | ok message => exact ⟨hpost, trivial⟩
  | finished result => exact ⟨hread, trivial⟩

end Calls
end AgentBridge.BlindCompetition
