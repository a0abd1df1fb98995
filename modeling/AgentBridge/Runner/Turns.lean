import AgentBridge.Runner.Work
import AgentBridge.Workflow.Cast

/-! Whose turn it is. The bridge's turn check, the status it reports and the runner's
eligibility are three case analyses over one notion: an assignment is due when it is not
submitted and every earlier phase is. -/

namespace AgentBridge.Runner
open Orchestration

/-- Not submitted, with the submissions of every earlier phase. -/
structure Due (plan : WorkflowPlan) (submissions : List WorkflowSubmission) (a : WorkflowAssignment) : Prop where
  assigned : a ∈ plan.assignments
  fresh : a.ordinal ∉ submittedOrdinals submissions
  ready : ∀ b ∈ plan.assignments, b.phase < a.phase → b.ordinal ∈ submittedOrdinals submissions

def isPending (submissions : List WorkflowSubmission) (a : WorkflowAssignment) : Bool :=
  a.role = .worker && !(submittedOrdinals submissions).contains a.ordinal

section Turn
variable {plan : WorkflowPlan} {submissions : List WorkflowSubmission} {a b : WorkflowAssignment}

theorem isPending_iff : isPending submissions a = true ↔
    a.role = .worker ∧ a.ordinal ∉ submittedOrdinals submissions := by
  simp [isPending]

theorem exists_due (ha : a ∈ plan.assignments) (hnew : a.ordinal ∉ submittedOrdinals submissions) :
    ∃ b, Due plan submissions b := by
  let done : Set WorkflowAssignment := {b | b ∈ plan.assignments → b.ordinal ∈ submittedOrdinals submissions}
  let needs : WorkflowAssignment → Set WorkflowAssignment :=
    fun c => {b | b ∈ plan.assignments ∧ b.phase < c.phase}
  have hout : a ∉ done := fun h => hnew (h ha)
  obtain ⟨b, hb, hready⟩ :=
    @Precedence.exists_ready _ needs _ _ WorkflowAssignment.phase (fun _ _ h => h.2) hout
  obtain ⟨hassigned, hfresh⟩ := Classical.not_imp.mp hb
  exact ⟨b, hassigned, hfresh, fun c hc hlt => hready ⟨hc, hlt⟩ hc⟩

theorem due_iff_first (hn : Numbered plan.mode plan.assignments) (hmode : plan.mode = .sequential)
    (ha : a ∈ plan.assignments) :
    Due plan submissions a ↔ plan.assignments.find? (isPending submissions) = some a := by
  have hphase : ∀ b ∈ plan.assignments, b.phase = b.ordinal := by
    intro b hb
    rw [hn.phases b hb, hmode]
    rfl
  have hworker := hn.workers (by simp [hmode])
  constructor
  · intro hdue
    have hpending : isPending submissions a = true := isPending_iff.mpr ⟨hworker a ha, hdue.fresh⟩
    obtain ⟨c, hfirst⟩ := Option.isSome_iff_exists.mp (List.find?_isSome.mpr ⟨a, ha, hpending⟩)
    have hc := List.mem_of_find?_eq_some hfirst
    rw [hfirst]
    congr 1
    rcases Nat.lt_trichotomy c.ordinal a.ordinal with hlt | heq | hlt
    · have hsubmitted := hdue.ready c hc (by rwa [hphase c hc, hphase a ha])
      exact absurd hsubmitted (isPending_iff.mp (List.find?_some hfirst)).2
    · exact hn.eq_of_ordinal hc ha heq
    · rw [submitted_of_firstMissing hn.pairwise hfirst ha hlt] at hpending
      exact absurd hpending Bool.false_ne_true
  · intro hfirst
    refine ⟨ha, (isPending_iff.mp (List.find?_some hfirst)).2, ?_⟩
    intro b hb hlt
    rw [hphase b hb, hphase a ha] at hlt
    have hmissing := submitted_of_firstMissing hn.pairwise hfirst hb hlt
    by_contra hnew
    rw [isPending_iff.mpr ⟨hworker b hb, hnew⟩] at hmissing
    exact absurd hmissing.symm Bool.false_ne_true

theorem phase_reviewer (hn : Numbered plan.mode plan.assignments) (hmode : plan.mode = .consensus)
    (ha : a ∈ plan.assignments) (hrole : a.role = .reviewer) : a.phase = 1 := by
  rw [hn.phases a ha, hmode]
  simp [phaseIn, hrole]

theorem phase_worker (hn : Numbered plan.mode plan.assignments) (hmode : plan.mode ≠ .sequential)
    (ha : a ∈ plan.assignments) (hrole : a.role = .worker) : a.phase = 0 := by
  rw [hn.phases a ha]
  cases hm : plan.mode with
  | sequential => exact absurd hm hmode
  | single => rfl
  | competitive => rfl
  | consensus => simp [phaseIn, hrole]

theorem due_worker (hn : Numbered plan.mode plan.assignments) (hmode : plan.mode ≠ .sequential)
    (ha : a ∈ plan.assignments) (hrole : a.role = .worker) (hnew : a.ordinal ∉ submittedOrdinals submissions) :
    Due plan submissions a := by
  refine ⟨ha, hnew, ?_⟩
  intro b _ hlt
  rw [phase_worker hn hmode ha hrole] at hlt
  exact absurd hlt (Nat.not_lt_zero _)

theorem due_reviewer (hn : Numbered plan.mode plan.assignments) (hmode : plan.mode = .consensus)
    (ha : a ∈ plan.assignments) (hrole : a.role = .reviewer) :
    Due plan submissions a ↔ a.ordinal ∉ submittedOrdinals submissions ∧
      ∀ b ∈ plan.assignments, isPending submissions b = false := by
  have hone := phase_reviewer hn hmode ha hrole
  have hnot : plan.mode ≠ .sequential := by simp [hmode]
  constructor
  · intro hdue
    refine ⟨hdue.fresh, ?_⟩
    intro b hb
    by_contra hpending
    obtain ⟨hworker, hnew⟩ := isPending_iff.mp (Bool.eq_true_of_not_eq_false hpending)
    have hzero := phase_worker hn hnot hb hworker
    exact hnew (hdue.ready b hb (by omega))
  · rintro ⟨hnew, hnone⟩
    refine ⟨ha, hnew, ?_⟩
    intro b hb hlt
    cases hb' : b.role with
    | reviewer =>
      have hb'' := phase_reviewer hn hmode hb hb'
      omega
    | worker =>
      by_contra hfresh
      have hpending := isPending_iff.mpr ⟨hb', hfresh⟩
      rw [hnone b hb] at hpending
      exact absurd hpending Bool.false_ne_true

theorem validate_iff_due (hn : Numbered plan.mode plan.assignments) (ht : TurnSafe plan submissions)
    (ha : a ∈ plan.assignments) :
    validateSubmissionTurn plan a submissions = .ok () ↔ Due plan submissions a := by
  constructor
  · intro h
    have hneeds := needs_subset_of_validate hn ha h
    rw [validateSubmissionTurn, Except.check_eq_ok] at h
    refine ⟨ha, by simpa using h.1, ?_⟩
    intro b hb hlt
    exact hneeds ⟨a, ha, b, hb, rfl, rfl, hlt⟩
  · intro hdue
    rw [validateSubmissionTurn, Except.check_eq_ok]
    refine ⟨by simpa using hdue.fresh, ?_⟩
    cases hmode : plan.mode with
    | single =>
      have hworker := hn.workers (by simp [hmode]) a ha
      simp [hworker]
    | competitive =>
      have hworker := hn.workers (by simp [hmode]) a ha
      simp [hworker]
    | sequential =>
      have hfirst := (due_iff_first hn hmode ha).mp hdue
      refine Except.check_eq_ok.mpr ⟨?_, rfl⟩
      rw [not_not]
      exact congrArg (Option.map WorkflowAssignment.ordinal) hfirst
    | consensus =>
      cases hrole : a.role with
      | worker =>
        refine Except.check_eq_ok.mpr ⟨?_, rfl⟩
        intro hclosed
        obtain ⟨r, hr, hsubmitted⟩ := List.any_eq_true.mp hclosed
        simp only [Bool.and_eq_true, decide_eq_true_eq, List.contains_iff_mem] at hsubmitted
        exact hdue.fresh (ht.consensus hmode r hr hsubmitted.1 hsubmitted.2 a ha hrole)
      | reviewer =>
        refine Except.check_eq_ok.mpr ⟨?_, rfl⟩
        intro hopen
        obtain ⟨b, hb, hpending⟩ := List.any_eq_true.mp hopen
        have hnone := ((due_reviewer hn hmode ha hrole).mp hdue).2 b hb
        rw [isPending] at hnone
        rw [hnone] at hpending
        exact absurd hpending Bool.false_ne_true

end Turn

section Status
variable {plan : WorkflowPlan} {submissions : List WorkflowSubmission} {a p r : WorkflowAssignment}
  {ps : List WorkflowAssignment} {key : Text}

def reviewerOf (plan : WorkflowPlan) : Option WorkflowAssignment :=
  plan.assignments.find? fun a => a.role = .reviewer

theorem status_submitted (plan : WorkflowPlan) (submissions : List WorkflowSubmission) :
    (workflowStatus plan submissions).submittedAgents = (plan.assignments.filter fun a =>
      (submittedOrdinals submissions).contains a.ordinal).map WorkflowAssignment.agentKey := by
  unfold workflowStatus
  dsimp only
  split
  · split <;> rfl
  · split
    · split <;> rfl
    · rfl

/-- The three things a status says: workers are pending, the review is awaited, or nothing is left. -/
inductive StatusSays (plan : WorkflowPlan) (submissions : List WorkflowSubmission) (status : WorkflowStatus) : Prop
  | working {p : WorkflowAssignment} {ps : List WorkflowAssignment}
      (pending : plan.assignments.filter (isPending submissions) = p :: ps) (stage : status.stage ≠ .completed)
      (agents : status.pendingAgents = (p :: ps).map WorkflowAssignment.agentKey)
      (current : status.currentAgentKey =
        if plan.mode = .sequential ∨ plan.mode = .single then some p.agentKey else none)
  | reviewing {r : WorkflowAssignment} (pending : plan.assignments.filter (isPending submissions) = [])
      (mode : plan.mode = .consensus) (reviewer : reviewerOf plan = some r)
      (fresh : r.ordinal ∉ submittedOrdinals submissions) (stage : status.stage ≠ .completed)
      (agents : status.pendingAgents = [r.agentKey]) (current : status.currentAgentKey = some r.agentKey)
  | completed (pending : plan.assignments.filter (isPending submissions) = [])
      (reviewed : plan.mode = .consensus → ∀ r, reviewerOf plan = some r →
        r.ordinal ∈ submittedOrdinals submissions)
      (stage : status.stage = .completed) (agents : status.pendingAgents = [])

theorem workflowStatus_says (plan : WorkflowPlan) (submissions : List WorkflowSubmission) :
    StatusSays plan submissions (workflowStatus plan submissions) := by
  have hstage : (if (submittedOrdinals submissions).isEmpty then WorkflowStage.ready else .running) ≠ .completed := by
    split <;> simp
  unfold workflowStatus
  dsimp only
  cases h : plan.assignments.filter (isPending submissions) with
  | cons p ps =>
    unfold isPending at h
    rw [h]
    cases hmode : plan.mode with
    | single => exact .working h hstage rfl (by rw [hmode]; rfl)
    | sequential => exact .working h hstage rfl (by rw [hmode]; rfl)
    | competitive => exact .working h hstage rfl (by rw [hmode]; rfl)
    | consensus => exact .working h hstage rfl (by rw [hmode]; rfl)
  | nil =>
    unfold isPending at h
    rw [h]
    cases hmode : plan.mode with
    | single => exact .completed h (by simp [hmode]) rfl rfl
    | sequential => exact .completed h (by simp [hmode]) rfl rfl
    | competitive => exact .completed h (by simp [hmode]) rfl rfl
    | consensus =>
      cases hr : reviewerOf plan with
      | none =>
        refine .completed h (fun _ r hr' => ?_) ?_ ?_
        · rw [hr] at hr'
          cases hr'
        · unfold reviewerOf at hr
          rw [hr]
          rfl
        · unfold reviewerOf at hr
          rw [hr]
          rfl
      | some r =>
        have hfind := hr
        unfold reviewerOf at hfind
        rw [hfind]
        by_cases hsubmitted : r.ordinal ∈ submittedOrdinals submissions
        · simp only [List.isEmpty_nil, Bool.not_true, Bool.false_eq_true, if_false, List.contains_iff_mem,
            hsubmitted, if_true]
          refine .completed h (fun _ r' hr' => ?_) rfl rfl
          rw [hr] at hr'
          cases hr'
          exact hsubmitted
        · simp only [List.isEmpty_nil, Bool.not_true, Bool.false_eq_true, if_false, List.contains_iff_mem,
            hsubmitted]
          exact .reviewing h hmode hr hsubmitted (by simp) rfl rfl

theorem mem_of_pending (h : plan.assignments.filter (isPending submissions) = p :: ps) (ha : a ∈ p :: ps) :
    a ∈ plan.assignments ∧ a.role = .worker ∧ a.ordinal ∉ submittedOrdinals submissions := by
  rw [← h] at ha
  obtain ⟨hmem, hpending⟩ := List.mem_filter.mp ha
  exact ⟨hmem, isPending_iff.mp hpending⟩

theorem submitted_of_none_pending (h : plan.assignments.filter (isPending submissions) = [])
    (ha : a ∈ plan.assignments) (hrole : a.role = .worker) : a.ordinal ∈ submittedOrdinals submissions := by
  by_contra hnew
  exact List.filter_eq_nil_iff.mp h a ha (isPending_iff.mpr ⟨hrole, hnew⟩)

theorem mem_reviewerOf (h : reviewerOf plan = some r) : r ∈ plan.assignments ∧ r.role = .reviewer := by
  unfold reviewerOf at h
  exact ⟨List.mem_of_find?_eq_some h, by simpa using List.find?_some h⟩

theorem reviewerOf_eq (hn : Numbered plan.mode plan.assignments) (hmode : plan.mode = .consensus)
    (ha : a ∈ plan.assignments) (hrole : a.role = .reviewer) : reviewerOf plan = some a := by
  have hsome : (reviewerOf plan).isSome := List.find?_isSome.mpr ⟨a, ha, decide_eq_true hrole⟩
  obtain ⟨c, hc⟩ := Option.isSome_iff_exists.mp hsome
  obtain ⟨r, -, -, hothers⟩ := hn.reviewer hmode
  have honly : ∀ b ∈ plan.assignments, b.role = .reviewer → b = r := by
    intro b hb hb'
    by_contra hne
    rw [(hothers b hb hne).1] at hb'
    exact absurd hb' (by simp)
  obtain ⟨hmem, hrole'⟩ := mem_reviewerOf hc
  rw [hc, honly c hmem hrole', honly a ha hrole]

theorem consensus_of_reviewer (hn : Numbered plan.mode plan.assignments) (ha : a ∈ plan.assignments)
    (hrole : a.role = .reviewer) : plan.mode = .consensus := by
  by_contra hmode
  rw [hn.workers hmode a ha] at hrole
  exact absurd hrole (by simp)

theorem completed_iff (hn : Numbered plan.mode plan.assignments) :
    (workflowStatus plan submissions).stage = .completed ↔
      ∀ a ∈ plan.assignments, a.ordinal ∈ submittedOrdinals submissions := by
  cases workflowStatus_says plan submissions with
  | @working p _ pending stage =>
    obtain ⟨hp, -, hnew⟩ := mem_of_pending pending (List.mem_cons_self ..)
    exact ⟨fun h => absurd h stage, fun hall => absurd (hall p hp) hnew⟩
  | @reviewing r _ _ reviewer fresh stage =>
    exact ⟨fun h => absurd h stage, fun hall => absurd (hall r (mem_reviewerOf reviewer).1) fresh⟩
  | completed pending reviewed stage =>
    refine ⟨fun _ => ?_, fun _ => stage⟩
    intro a ha
    cases hrole : a.role with
    | worker => exact submitted_of_none_pending pending ha hrole
    | reviewer =>
      have hmode := consensus_of_reviewer hn ha hrole
      exact reviewed hmode a (reviewerOf_eq hn hmode ha hrole)

theorem fresh_of_pendingAgents (h : key ∈ (workflowStatus plan submissions).pendingAgents) :
    ∃ a ∈ plan.assignments, a.agentKey = key ∧ a.ordinal ∉ submittedOrdinals submissions := by
  cases workflowStatus_says plan submissions with
  | working pending _ agents =>
    rw [agents] at h
    obtain ⟨a, ha, rfl⟩ := List.mem_map.mp h
    obtain ⟨hmem, -, hnew⟩ := mem_of_pending pending ha
    exact ⟨a, hmem, rfl, hnew⟩
  | @reviewing r _ _ reviewer fresh _ agents =>
    rw [agents] at h
    exact ⟨r, (mem_reviewerOf reviewer).1, (List.mem_singleton.mp h).symm, fresh⟩
  | completed _ _ _ agents =>
    rw [agents] at h
    exact absurd h List.not_mem_nil

theorem offered_of_pending (hn : Numbered plan.mode plan.assignments) (hcast : Cast plan.mode plan.assignments)
    (hpending : plan.assignments.filter (isPending submissions) = p :: ps) (ha : a ∈ plan.assignments)
    (hnew : a.ordinal ∉ submittedOrdinals submissions) :
    (a.agentKey ∈ (p :: ps).map WorkflowAssignment.agentKey ∧
      ∀ current ∈ (if plan.mode = .sequential ∨ plan.mode = .single then some p.agentKey else none),
        current = a.agentKey) ↔
    Due plan submissions a := by
  obtain ⟨hp, hworker, hpnew⟩ := mem_of_pending hpending (List.mem_cons_self ..)
  -- a worker that has not submitted is among the pending ones
  have hlisted : a.role = .worker → a.agentKey ∈ (p :: ps).map WorkflowAssignment.agentKey := by
    intro hrole
    rw [← hpending]
    exact List.mem_map_of_mem (List.mem_filter.mpr ⟨ha, isPending_iff.mpr ⟨hrole, hnew⟩⟩)
  cases hmode : plan.mode with
  | single =>
    have hrole := hn.workers (by simp [hmode]) a ha
    have hap : a = p := by
      obtain ⟨c, hc⟩ := List.length_eq_one_iff.mp (hcast.single hmode)
      rw [hc] at ha hp
      rw [List.mem_singleton.mp ha, List.mem_singleton.mp hp]
    refine ⟨fun _ => due_worker hn (by simp [hmode]) ha hrole hnew, fun _ => ⟨hlisted hrole, ?_⟩⟩
    simp [hap]
  | competitive =>
    have hrole := hn.workers (by simp [hmode]) a ha
    refine ⟨fun _ => due_worker hn (by simp [hmode]) ha hrole hnew, fun _ => ⟨hlisted hrole, ?_⟩⟩
    simp
  | sequential =>
    have hrole := hn.workers (by simp [hmode]) a ha
    have hfirst : plan.assignments.find? (isPending submissions) = some p := by
      rw [← List.head?_filter, hpending]
      rfl
    rw [due_iff_first hn hmode ha, hfirst]
    constructor
    · rintro ⟨-, hcurrent⟩
      exact congrArg some (hcast.eq_of_agentKey hp ha (hcurrent p.agentKey (by simp)))
    · intro h
      cases h
      exact ⟨hlisted hrole, by simp⟩
  | consensus =>
    cases hrole : a.role with
    | worker =>
      refine ⟨fun _ => due_worker hn (by simp [hmode]) ha hrole hnew, fun _ => ⟨hlisted hrole, ?_⟩⟩
      simp
    | reviewer =>
      constructor
      · rintro ⟨hmem, -⟩
        obtain ⟨b, hb, hkey⟩ := List.mem_map.mp hmem
        obtain ⟨hb, hbrole, -⟩ := mem_of_pending hpending hb
        rw [hcast.eq_of_agentKey hb ha hkey, hrole] at hbrole
        exact absurd hbrole (by simp)
      · intro hdue
        have hnone := ((due_reviewer hn hmode ha hrole).mp hdue).2 p hp
        rw [isPending_iff.mpr ⟨hworker, hpnew⟩] at hnone
        exact absurd hnone.symm Bool.false_ne_true

theorem offered_iff_due (hn : Numbered plan.mode plan.assignments) (hcast : Cast plan.mode plan.assignments)
    (ha : a ∈ plan.assignments) (hnew : a.ordinal ∉ submittedOrdinals submissions) :
    (a.agentKey ∈ (workflowStatus plan submissions).pendingAgents ∧
      ∀ current ∈ (workflowStatus plan submissions).currentAgentKey, current = a.agentKey) ↔
    Due plan submissions a := by
  cases workflowStatus_says plan submissions with
  | working pending _ agents current =>
    rw [agents, current]
    exact offered_of_pending hn hcast pending ha hnew
  | @reviewing r pending mode reviewer _ _ agents current =>
    have hrole : a.role = .reviewer := by
      cases hrole : a.role with
      | worker => exact absurd (submitted_of_none_pending pending ha hrole) hnew
      | reviewer => rfl
    have hra : r = a := by
      rw [reviewerOf_eq hn mode ha hrole] at reviewer
      exact (Option.some.inj reviewer).symm
    rw [agents, current, hra, due_reviewer hn mode ha hrole]
    refine ⟨fun _ => ⟨hnew, ?_⟩, fun _ => ⟨List.mem_singleton_self _, by simp⟩⟩
    intro b hb
    exact Bool.eq_false_of_not_eq_true (List.filter_eq_nil_iff.mp pending b hb)
  | completed _ _ stage =>
    exact absurd ((completed_iff hn).mp stage a ha) hnew

end Status

/-- The view of a plan whose status is computed from the submissions. -/
def viewOf (plan : WorkflowPlan) (submissions : List WorkflowSubmission) : WorkflowView where
  plan := plan
  status := workflowStatus plan submissions
  submissions := submissions

/-- An agent is assigned and the bridge accepts a submission for its assignment. -/
def MaySubmit (plan : WorkflowPlan) (submissions : List WorkflowSubmission) (agentKey : Text)
    (a : WorkflowAssignment) : Prop :=
  findAssignment plan agentKey = .ok a ∧ validateSubmissionTurn plan a submissions = .ok ()

/-- The turn check, the status and the runner agree on whose turn it is, and it is
somebody's turn until the workflow is completed. -/
structure TurnsAgree (plan : WorkflowPlan) (submissions : List WorkflowSubmission) : Prop where
  eligible : ∀ agentKey a, MaySubmit plan submissions agentKey a ↔
    eligibleAssignment (viewOf plan submissions) agentKey = some a
  completed : (workflowStatus plan submissions).stage = .completed ↔
    ∀ agentKey a, ¬ MaySubmit plan submissions agentKey a
  disjoint : ∀ agentKey ∈ (workflowStatus plan submissions).pendingAgents,
    agentKey ∉ (workflowStatus plan submissions).submittedAgents
  live : (workflowStatus plan submissions).stage ≠ .completed →
    ∃ agentKey a, MaySubmit plan submissions agentKey a

section Agreement
variable {plan : WorkflowPlan} {submissions : List WorkflowSubmission} {a : WorkflowAssignment} {agentKey : Text}

theorem findAssignment_eq_ok : findAssignment plan agentKey = .ok a ↔
    plan.assignments.find? (fun a => a.agentKey = agentKey) = some a := by
  unfold findAssignment
  cases plan.assignments.find? (fun a => a.agentKey = agentKey) with
  | none => simp
  | some b => simp

theorem mem_of_find_agentKey (h : plan.assignments.find? (fun a => a.agentKey = agentKey) = some a) :
    a ∈ plan.assignments ∧ a.agentKey = agentKey :=
  ⟨List.mem_of_find?_eq_some h, by simpa using List.find?_some h⟩

theorem find_agentKey (hcast : Cast plan.mode plan.assignments) (ha : a ∈ plan.assignments) :
    plan.assignments.find? (fun b => b.agentKey = a.agentKey) = some a := by
  have hsome : (plan.assignments.find? fun b => b.agentKey = a.agentKey).isSome :=
    List.find?_isSome.mpr ⟨a, ha, decide_eq_true rfl⟩
  obtain ⟨b, hb⟩ := Option.isSome_iff_exists.mp hsome
  obtain ⟨hmem, hkey⟩ := mem_of_find_agentKey hb
  rw [hb, hcast.eq_of_agentKey hmem ha hkey]

theorem maySubmit_iff_due (hn : Numbered plan.mode plan.assignments) (ht : TurnSafe plan submissions)
    (hcast : Cast plan.mode plan.assignments) :
    MaySubmit plan submissions agentKey a ↔ a.agentKey = agentKey ∧ Due plan submissions a := by
  rw [MaySubmit, findAssignment_eq_ok]
  constructor
  · rintro ⟨hfind, hturn⟩
    obtain ⟨ha, hkey⟩ := mem_of_find_agentKey hfind
    exact ⟨hkey, (validate_iff_due hn ht ha).mp hturn⟩
  · rintro ⟨rfl, hdue⟩
    exact ⟨find_agentKey hcast hdue.assigned, (validate_iff_due hn ht hdue.assigned).mpr hdue⟩

theorem offer_eq_some {pending : List Text} {current : Option Text} {b : WorkflowAssignment} :
    (if !pending.any (fun p => p = agentKey) then none
      else if current.any (fun c => c ≠ agentKey) then none else some b) = some a ↔
    (agentKey ∈ pending ∧ ∀ c ∈ current, c = agentKey) ∧ b = a := by
  by_cases hpending : agentKey ∈ pending
  · cases current with
    | none => simp [hpending]
    | some c => by_cases hc : c = agentKey <;> simp [hpending, hc]
  · simp [hpending]

theorem eligible_iff_due (hn : Numbered plan.mode plan.assignments) (hcast : Cast plan.mode plan.assignments) :
    eligibleAssignment (viewOf plan submissions) agentKey = some a ↔
      a.agentKey = agentKey ∧ Due plan submissions a := by
  unfold eligibleAssignment viewOf
  dsimp only
  cases hfind : plan.assignments.find? (fun a => a.agentKey = agentKey) with
  | none =>
    refine ⟨by rintro ⟨⟩, ?_⟩
    rintro ⟨rfl, hdue⟩
    rw [find_agentKey hcast hdue.assigned] at hfind
    cases hfind
  | some b =>
    obtain ⟨hb, hkey⟩ := mem_of_find_agentKey hfind
    subst hkey
    dsimp only
    by_cases hsubmitted : b.ordinal ∈ submittedOrdinals submissions
    · have hany : submissions.any (fun s => s.assignmentOrdinal = b.ordinal) = true := by
        simpa [submittedOrdinals] using hsubmitted
      rw [if_pos hany]
      refine ⟨by rintro ⟨⟩, ?_⟩
      rintro ⟨hkey, hdue⟩
      rw [hcast.eq_of_agentKey hdue.assigned hb hkey] at hdue
      exact absurd hsubmitted hdue.fresh
    · have hany : ¬ submissions.any (fun s => s.assignmentOrdinal = b.ordinal) = true := by
        simpa [submittedOrdinals] using hsubmitted
      have hoffered := offered_iff_due hn hcast hb hsubmitted
      rw [if_neg hany]
      rw [offer_eq_some, hoffered]
      constructor
      · rintro ⟨hdue, rfl⟩
        exact ⟨rfl, hdue⟩
      · rintro ⟨hkey, hdue⟩
        obtain rfl := hcast.eq_of_agentKey hdue.assigned hb hkey
        exact ⟨hdue, rfl⟩

theorem turnsAgree (hn : Numbered plan.mode plan.assignments) (ht : TurnSafe plan submissions)
    (hcast : Cast plan.mode plan.assignments) : TurnsAgree plan submissions where
  eligible := fun agentKey a => (maySubmit_iff_due hn ht hcast).trans (eligible_iff_due hn hcast).symm
  completed := by
    rw [completed_iff hn]
    constructor
    · intro hall agentKey a hmay
      obtain ⟨-, hdue⟩ := (maySubmit_iff_due hn ht hcast).mp hmay
      exact hdue.fresh (hall a hdue.assigned)
    · intro hnobody a ha
      by_contra hnew
      obtain ⟨b, hdue⟩ := exists_due ha hnew
      exact hnobody b.agentKey b ((maySubmit_iff_due hn ht hcast).mpr ⟨rfl, hdue⟩)
  disjoint := by
    intro agentKey hpending hsubmitted
    obtain ⟨a, ha, rfl, hnew⟩ := fresh_of_pendingAgents hpending
    rw [status_submitted] at hsubmitted
    obtain ⟨b, hb, hkey⟩ := List.mem_map.mp hsubmitted
    obtain ⟨hb, hold⟩ := List.mem_filter.mp hb
    rw [hcast.eq_of_agentKey hb ha hkey] at hold
    exact hnew (List.contains_iff_mem.mp hold)
  live := by
    intro hstage
    rw [ne_eq, completed_iff hn] at hstage
    push Not at hstage
    obtain ⟨a, ha, hnew⟩ := hstage
    obtain ⟨b, hdue⟩ := exists_due ha hnew
    exact ⟨b.agentKey, b, (maySubmit_iff_due hn ht hcast).mpr ⟨rfl, hdue⟩⟩

end Agreement

/-- In every run, for every plan the bridge holds, its turn check, the status it reports and
the runner's eligibility agree on the stored submissions. -/
theorem turn_deciders_agree (config : Config) (as : List WorkflowAction) (workflowId : Text) (plan : WorkflowPlan)
    (h : loadPlan (SubmitWorld.run config as).state workflowId = .ok plan) :
    ∃ submissions, loadSubmissions (SubmitWorld.run config as).state plan.channel = .ok submissions ∧
      TurnsAgree plan submissions := by
  have hsound := SubmitWorld.run_sound config as
  obtain ⟨channel, -, hload⟩ := Except.bind_eq_ok.mp h
  obtain ⟨rfl, hplan, hn⟩ := hsound.records.planAt_of_load hload
  obtain ⟨submissions, hsub⟩ := hplan.loadSubmissions
  obtain ⟨e, he, hv⟩ := hplan
  have hcast := (SubmitWorld.run_cast config as).plans _ e plan he hv
  exact ⟨submissions, hsub, turnsAgree hn (hsound.records.turnSafe ⟨e, he, hv⟩ hsub) hcast.cast⟩

/-- Alice has submitted: the runner may start bob's assignment and no longer hers. -/
theorem turn_deciders_agree_sequential :
    ∃ plan submissions, TurnsAgree plan submissions ∧
      loadSubmissions (SubmitWorld.run .inMemory sequentialRun).state plan.channel = .ok submissions ∧
      (eligibleAssignment (viewOf plan submissions) "bob".toList).map WorkflowAssignment.ordinal = some 1 ∧
      eligibleAssignment (viewOf plan submissions) "alice".toList = none := by
  have hview : ((do
      let plan ← loadPlan (SubmitWorld.run .inMemory sequentialRun).state "w1".toList
      let submissions ← loadSubmissions (SubmitWorld.run .inMemory sequentialRun).state plan.channel
      return viewOf plan submissions) : BridgeResult WorkflowView).toOption.map (fun view =>
        ((eligibleAssignment view "bob".toList).map WorkflowAssignment.ordinal,
          eligibleAssignment view "alice".toList)) = some (some 1, none) := by
    decide +kernel
  obtain ⟨view, hload, hturns⟩ := Except.toOption_map_eq_some.mp hview
  obtain ⟨plan, hplan, hload⟩ := Except.bind_eq_ok.mp hload
  obtain ⟨submissions, hsubmissions, hload⟩ := Except.bind_eq_ok.mp hload
  cases hload
  obtain ⟨hbob, halice⟩ := Prod.mk.inj hturns
  obtain ⟨found, hfound, hagree⟩ := turn_deciders_agree .inMemory sequentialRun _ plan hplan
  rw [hsubmissions] at hfound
  cases hfound
  exact ⟨plan, submissions, hagree, hsubmissions, hbob, halice⟩

end AgentBridge.Runner
