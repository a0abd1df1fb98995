import AgentBridge.Base.Precedence
import AgentBridge.Workflow.Records

/-! The records of a workflow as an invariant of the state: plans are numbered and
stay in their channel, submissions belong to assignments, and what is stored is closed
under the phases. -/

namespace AgentBridge.Orchestration
open State

def needs (plan : WorkflowPlan) (n : Nat) : Set Nat :=
  {m | ∃ a ∈ plan.assignments, ∃ b ∈ plan.assignments,
    a.ordinal = n ∧ b.ordinal = m ∧ b.phase < a.phase}

def storedOrdinals (s : AppState) (channel : Text) : Set Nat :=
  {n | ∃ e, s.entry channel (submissionKey n) = some e}

def PlanAt (s : AppState) (plan : WorkflowPlan) : Prop :=
  ∃ e, s.entry plan.channel planContextKey = some e ∧ e.value = .workflowPlan plan

structure Answers (plan : WorkflowPlan) (submission : WorkflowSubmission) (a : WorkflowAssignment) :
    Prop where
  assigned : a ∈ plan.assignments
  workflowId : submission.workflowId = plan.id
  ordinal : submission.assignmentOrdinal = a.ordinal
  agentKey : submission.agentKey = a.agentKey
  role : submission.role = a.role

structure RecordsOk (s : AppState) : Prop where
  keyed : Keyed s
  plans : ∀ c e, s.entry c planContextKey = some e →
    ∃ plan, e.value = .workflowPlan plan ∧ plan.channel = c ∧ Numbered plan.mode plan.assignments
  submissions : ∀ c k e, s.entry c k = some e → submissionContextPrefix <+: k →
    ∃ plan submission a, plan.channel = c ∧ PlanAt s plan ∧ Answers plan submission a ∧
      k = submissionKey a.ordinal ∧ e.value = .workflowSubmission submission
  turns : ∀ plan, PlanAt s plan → Precedence.Closed (needs plan) (storedOrdinals s plan.channel)

section Validate
variable {plan : WorkflowPlan} {a : WorkflowAssignment} {submissions : List WorkflowSubmission}

/-- The first missing worker is the one that submits, so everyone before it has submitted. -/
theorem submitted_of_firstMissing {l : List WorkflowAssignment} {c b : WorkflowAssignment}
    {p : WorkflowAssignment → Bool} (hl : l.Pairwise fun a b => a.ordinal < b.ordinal)
    (hc : l.find? p = some c) (hb : b ∈ l) (hlt : b.ordinal < c.ordinal) : p b = false := by
  obtain ⟨-, before, after, rfl, hbefore⟩ := List.find?_eq_some_iff_append.mp hc
  rcases List.mem_append.mp hb with hb | hb
  · simpa using hbefore b hb
  · exfalso
    rcases List.mem_cons.mp hb with rfl | hb
    · exact lt_irrefl _ hlt
    · have hafter := List.rel_of_pairwise_cons (List.pairwise_append.mp hl).2.1 hb
      omega

theorem needs_subset_of_validate (hn : Numbered plan.mode plan.assignments) (ha : a ∈ plan.assignments)
    (h : validateSubmissionTurn plan a submissions = .ok ()) :
    needs plan a.ordinal ⊆ {n | n ∈ submittedOrdinals submissions} := by
  rintro _ ⟨a', ha', b, hb, hord, rfl, hlt⟩
  rw [hn.eq_of_ordinal ha' ha hord, hn.phases b hb, hn.phases a ha] at hlt
  rw [validateSubmissionTurn, Except.check_eq_ok] at h
  obtain ⟨-, h⟩ := h
  cases hmode : plan.mode with
  | single => simp [phaseIn, hmode] at hlt
  | competitive => simp [phaseIn, hmode] at hlt
  | sequential =>
    rw [hmode] at h hlt
    obtain ⟨hfirst, -⟩ := Except.check_eq_ok.mp h
    obtain ⟨c, hc, hca⟩ := Option.map_eq_some_iff.mp (not_not.mp hfirst)
    have hmissing := submitted_of_firstMissing hn.pairwise hc hb (hca ▸ hlt)
    have hrole := hn.workers (by simp [hmode]) b hb
    simpa [hrole] using hmissing
  | consensus =>
    rw [hmode] at h hlt
    cases hra : a.role with
    | worker => simp [phaseIn, hra] at hlt
    | reviewer =>
      rw [hra] at h
      obtain ⟨hpending, -⟩ := Except.check_eq_ok.mp h
      cases hrb : b.role with
      | reviewer => simp [phaseIn, hra, hrb] at hlt
      | worker =>
        by_contra hnot
        exact hpending (List.any_eq_true.mpr ⟨b, hb, by simpa [hrb] using hnot⟩)

end Validate

section Reads
variable {s : AppState} {c : Text} {plan : WorkflowPlan} {submissions : List WorkflowSubmission}

theorem PlanAt.unique {plan' : WorkflowPlan} (h : PlanAt s plan) (h' : PlanAt s plan')
    (hc : plan.channel = plan'.channel) : plan = plan' := by
  obtain ⟨e, he, hv⟩ := h
  obtain ⟨e', he', hv'⟩ := h'
  rw [hc, he'] at he
  cases he
  exact ContextValue.workflowPlan.inj (hv.symm.trans hv')

theorem RecordsOk.planAt_of_load (hs : RecordsOk s) (h : loadPlanByChannel s c = .ok plan) :
    plan.channel = c ∧ PlanAt s plan ∧ Numbered plan.mode plan.assignments := by
  obtain ⟨e, he, hv⟩ := loadPlanByChannel_eq_ok.mp h
  obtain ⟨plan', hv', hc, hn⟩ := hs.plans c e he
  rw [hv] at hv'
  cases hv'
  exact ⟨hc, ⟨e, hc.symm ▸ he, hv⟩, hn⟩

theorem RecordsOk.numbered (hs : RecordsOk s) (h : PlanAt s plan) :
    Numbered plan.mode plan.assignments := by
  obtain ⟨e, he, hv⟩ := h
  exact (hs.planAt_of_load (loadPlanByChannel_eq_ok.mpr ⟨e, he, hv⟩)).2.2

theorem RecordsOk.answers_of_mem (hs : RecordsOk s) (h : loadSubmissions s c = .ok submissions)
    {submission : WorkflowSubmission} (hmem : submission ∈ submissions) :
    ∃ plan a e, plan.channel = c ∧ PlanAt s plan ∧ Answers plan submission a ∧
      s.entry c (submissionKey a.ordinal) = some e ∧ e.value = .workflowSubmission submission := by
  obtain ⟨k, e, he, hp, hv⟩ := (mem_loadSubmissions hs.keyed h).mp hmem
  obtain ⟨plan, submission', a, hc, hplan, hans, rfl, hv'⟩ := hs.submissions c k e he hp
  rw [hv] at hv'
  cases hv'
  exact ⟨plan, a, e, hc, hplan, hans, he, hv⟩

theorem RecordsOk.mem_submittedOrdinals (hs : RecordsOk s) (h : loadSubmissions s c = .ok submissions)
    {n : Nat} : n ∈ submittedOrdinals submissions ↔ n ∈ storedOrdinals s c := by
  constructor
  · intro hn
    obtain ⟨submission, hmem, rfl⟩ := List.mem_map.mp hn
    obtain ⟨plan, a, e, -, -, hans, he, -⟩ := hs.answers_of_mem h hmem
    exact ⟨e, hans.ordinal ▸ he⟩
  · rintro ⟨e, he⟩
    obtain ⟨plan, submission, a, -, -, hans, hk, hv⟩ :=
      hs.submissions c _ e he (submissionContextPrefix_isPrefix n)
    refine List.mem_map.mpr ⟨submission, ?_, ?_⟩
    · exact (mem_loadSubmissions hs.keyed h).mpr ⟨_, e, he, submissionContextPrefix_isPrefix n, hv⟩
    · rw [hans.ordinal, submissionKey_injective hk]

theorem RecordsOk.lt_of_stored (hs : RecordsOk s) (hplan : PlanAt s plan) {n : Nat}
    (h : n ∈ storedOrdinals s plan.channel) : n < plan.assignments.length := by
  obtain ⟨e, he⟩ := h
  obtain ⟨plan', _, a, hc, hplan', hans, hk, -⟩ :=
    hs.submissions _ _ e he (submissionContextPrefix_isPrefix n)
  rw [hplan'.unique hplan hc] at hans
  exact (hs.numbered hplan).exists_ordinal.mp ⟨a, hans.assigned, (submissionKey_injective hk).symm⟩

theorem RecordsOk.nodup (hs : RecordsOk s) (h : loadSubmissions s c = .ok submissions) :
    (submittedOrdinals submissions).Nodup := by
  refine nodup_loadSubmissions h fun k e submission he hparse => ?_
  obtain ⟨hp, hv⟩ := parseSubmission_eq_some.mp hparse
  rw [hs.keyed _ _ _ he] at hp
  obtain ⟨plan, submission', a, -, -, hans, hk, hv'⟩ := hs.submissions c k e he hp
  rw [hv] at hv'
  cases hv'
  rw [hk, hans.ordinal]

end Reads
end AgentBridge.Orchestration
