import AgentBridge.Base.Boundary
import AgentBridge.Runner.Accounting
import AgentBridge.Runner.Work

/-! The prompt of a provider call. It shows an assignment the earlier submissions that its mode and role
let it see, in the order of their assignments and within a limit on their bytes, and nothing else of the
submissions. -/

namespace AgentBridge

/-- The name the derived `Debug` prints. -/
def AssignmentRole.debug : AssignmentRole → Text
  | worker => "Worker".toList
  | reviewer => "Reviewer".toList

namespace Runner

def maxPriorContextBytes : Nat := 512 * 1024

def priorSubmissions (workflow : WorkflowView) (assignment : WorkflowAssignment) : List WorkflowSubmission :=
  let submissions : List WorkflowSubmission := match workflow.plan.mode with
    | .single => []
    | .competitive => []
    | .sequential => workflow.submissions.filter fun s => s.assignmentOrdinal < assignment.ordinal
    | .consensus => match assignment.role with
      | .worker => []
      | .reviewer => workflow.submissions.filter fun s => s.role = .worker
  submissions.insertionSort fun a b => a.assignmentOrdinal ≤ b.assignmentOrdinal

def heading (submission : WorkflowSubmission) : Text :=
  "\n--- agent=".toList ++ submission.agentKey ++ " ordinal=".toList ++ Text.decimal submission.assignmentOrdinal ++
    " role=".toList ++ submission.role.debug ++ " ---\n".toList

/-- The target with as much of the value as the limit leaves room for, and the bytes retained so far. -/
def appendBounded (target value : Text) (retained limit : Nat) : Text × Nat :=
  if Text.byteLen value ≤ limit then (target ++ value, retained + Text.byteLen value)
  else
    let stop := Text.floorBoundary value limit
    (target ++ (Text.sliceTo value stop).getD [], retained + stop)

/-- The loop over the prior submissions, which ends when nothing remains of the limit. -/
def appendPrior (prompt : Text) (retained : Nat) : List WorkflowSubmission → Text
  | [] => prompt
  | submission :: rest =>
    if maxPriorContextBytes - retained = 0 then prompt
    else
      let (prompt, retained) :=
        appendBounded prompt (heading submission) retained (maxPriorContextBytes - retained)
      if maxPriorContextBytes - retained = 0 then prompt
      else
        let (prompt, retained) :=
          appendBounded prompt submission.content retained (maxPriorContextBytes - retained)
        appendPrior prompt retained rest

def opening (plan : WorkflowPlan) (assignment : WorkflowAssignment) : Text :=
  "Workflow: ".toList ++ plan.title ++ "\nMode: ".toList ++ plan.mode.debug ++ "\nAssignment: ".toList ++
    Text.decimal assignment.ordinal ++ " (".toList ++ assignment.role.debug ++ ")\n\n".toList ++ plan.prompt

def priorHeader : Text := "\n\nPrior accepted submissions:\n".toList

def systemPrompt : AssignmentRole → Text
  | .worker => ("Produce one concrete solution for the assigned workflow. Do not claim that files, branches, " ++
      "tests, or external systems were changed unless the surrounding runner actually performed those " ++
      "operations. Return a self-contained result suitable for a workflow submission.").toList
  | .reviewer => ("Review every prior worker submission, preserve the strongest compatible ideas, identify " ++
      "material failures, and return one synthesized recommendation. Do not invent execution results.").toList

def providerRequest (workflow : WorkflowView) (assignment : WorkflowAssignment) (maxOutputTokens : Nat) :
    ProviderRequest :=
  let prompt := opening workflow.plan assignment
  let prior := priorSubmissions workflow assignment
  { prompt := if prior.isEmpty then prompt else appendPrior (prompt ++ priorHeader) 0 prior
    maxOutputTokens := maxOutputTokens
    system := some (systemPrompt assignment.role) }

/-- The submissions an assignment may see: none in single and competitive mode and as a worker of a
consensus, the earlier ones in a sequence, and those of the workers as the reviewer of a consensus. -/
def MaySee (plan : WorkflowPlan) (assignment : WorkflowAssignment) (submission : WorkflowSubmission) : Prop :=
  plan.mode = .sequential ∧ submission.assignmentOrdinal < assignment.ordinal ∨
    plan.mode = .consensus ∧ assignment.role = .reviewer ∧ submission.role = .worker

instance (plan : WorkflowPlan) (assignment : WorkflowAssignment) (submission : WorkflowSubmission) :
    Decidable (MaySee plan assignment submission) := by
  unfold MaySee
  infer_instance

def visible (workflow : WorkflowView) (assignment : WorkflowAssignment) : List WorkflowSubmission :=
  workflow.submissions.filter fun s => MaySee workflow.plan assignment s

def OnePerOrdinal (workflow : WorkflowView) : Prop :=
  (workflow.submissions.map WorkflowSubmission.assignmentOrdinal).Nodup

instance (workflow : WorkflowView) : Decidable (OnePerOrdinal workflow) := by
  unfold OnePerOrdinal
  infer_instance

def entry (submission : WorkflowSubmission) : Text := heading submission ++ submission.content

/-- A text that lists submissions in their order, each by a beginning of its heading and of its content. -/
inductive Listing : List WorkflowSubmission → Text → Prop
  | stop (rest : List WorkflowSubmission) : Listing rest []
  | shown {submission : WorkflowSubmission} {rest : List WorkflowSubmission} {head content text : Text}
      (hhead : head <+: heading submission) (hcontent : content <+: submission.content) (h : Listing rest text) :
      Listing (submission :: rest) (head ++ content ++ text)

/-- The prior context of an assignment: the submissions it may see, by their ordinals. -/
structure PriorContext (workflow : WorkflowView) (assignment : WorkflowAssignment) (ordered : List WorkflowSubmission)
    (context : Text) : Prop where
  same : ordered.Perm (visible workflow assignment)
  sorted : ordered.Pairwise fun a b => a.assignmentOrdinal ≤ b.assignmentOrdinal
  bounded : Text.byteLen context ≤ maxPriorContextBytes
  listing : Listing ordered context
  kept : ∀ shown rest, ordered = shown ++ rest → Text.byteLen (shown.flatMap entry) ≤ maxPriorContextBytes →
    shown.flatMap entry <+: context
  complete : Text.byteLen (ordered.flatMap entry) ≤ maxPriorContextBytes → context = ordered.flatMap entry

section Clipping

/-- What is appended of the submissions where `room` bytes remain. -/
def clipped (room : Nat) : List WorkflowSubmission → Text
  | [] => []
  | submission :: rest =>
    let head := Text.truncateBytes room (heading submission)
    let content := Text.truncateBytes (room - Text.byteLen head) submission.content
    head ++ content ++ clipped (room - Text.byteLen head - Text.byteLen content) rest

theorem appendBounded_eq (target value : Text) (retained limit : Nat) :
    appendBounded target value retained limit =
      (target ++ Text.truncateBytes limit value, retained + Text.byteLen (Text.truncateBytes limit value)) := by
  unfold appendBounded
  by_cases hfits : Text.byteLen value ≤ limit
  · rw [if_pos hfits, Text.truncateBytes_of_le hfits]
  · rw [if_neg hfits]
    dsimp only
    rw [Text.sliceTo_floorBoundary, Text.floorBoundary_eq]
    rfl

theorem truncateBytes_zero (s : Text) : Text.truncateBytes 0 s = [] := by
  cases s with
  | nil => rfl
  | cons c s => exact if_neg (Nat.not_le.mpr c.utf8Size_pos)

theorem clipped_zero (submissions : List WorkflowSubmission) : clipped 0 submissions = [] := by
  induction submissions with
  | nil => rfl
  | cons s rest ih =>
    rw [clipped, truncateBytes_zero, Nat.zero_sub, truncateBytes_zero, Nat.zero_sub, ih]
    rfl

/-- Leaving the loop early changes nothing: without room nothing is appended. -/
theorem appendPrior_eq (prompt : Text) (retained : Nat) (submissions : List WorkflowSubmission) :
    appendPrior prompt retained submissions = prompt ++ clipped (maxPriorContextBytes - retained) submissions := by
  induction submissions generalizing prompt retained with
  | nil => exact (List.append_nil prompt).symm
  | cons s rest ih =>
    rw [appendPrior, appendBounded_eq]
    dsimp only
    -- the loop ends before the heading or before the content, where `clipped` appends nothing
    by_cases hfull : maxPriorContextBytes - retained = 0
    · rw [if_pos hfull, hfull, clipped_zero, List.append_nil]
    · rw [if_neg hfull, appendBounded_eq, clipped]
      dsimp only
      have hroom : maxPriorContextBytes -
          (retained + Text.byteLen (Text.truncateBytes (maxPriorContextBytes - retained) (heading s))) =
          maxPriorContextBytes - retained -
            Text.byteLen (Text.truncateBytes (maxPriorContextBytes - retained) (heading s)) := Nat.sub_add_eq _ _ _
      rw [hroom]
      by_cases hhead : maxPriorContextBytes - retained -
          Text.byteLen (Text.truncateBytes (maxPriorContextBytes - retained) (heading s)) = 0
      · rw [if_pos hhead, hhead, truncateBytes_zero, Text.byteLen_nil, Nat.sub_zero, clipped_zero, List.append_nil,
          List.append_nil]
      · rw [if_neg hhead, ih, List.append_assoc, List.append_assoc, List.append_assoc, Nat.sub_add_eq, Nat.sub_add_eq]

variable {room : Nat} {submissions : List WorkflowSubmission}

theorem byteLen_clipped (room : Nat) (submissions : List WorkflowSubmission) :
    Text.byteLen (clipped room submissions) ≤ room := by
  induction submissions generalizing room with
  | nil => exact Nat.zero_le _
  | cons s rest ih =>
    have hhead := Text.byteLen_truncateBytes room (heading s)
    have hcontent := Text.byteLen_truncateBytes (room - Text.byteLen (Text.truncateBytes room (heading s))) s.content
    have hrest := ih (room - Text.byteLen (Text.truncateBytes room (heading s)) - Text.byteLen
      (Text.truncateBytes (room - Text.byteLen (Text.truncateBytes room (heading s))) s.content))
    rw [clipped, Text.byteLen_append, Text.byteLen_append]
    omega

theorem listing_clipped (room : Nat) (submissions : List WorkflowSubmission) :
    Listing submissions (clipped room submissions) := by
  induction submissions generalizing room with
  | nil => exact .stop []
  | cons s rest ih => exact .shown (Text.truncateBytes_isPrefix _ _) (Text.truncateBytes_isPrefix _ _) (ih _)

theorem clipped_cons {s : WorkflowSubmission} (h : Text.byteLen (entry s) ≤ room) :
    clipped room (s :: submissions) = entry s ++ clipped (room - Text.byteLen (entry s)) submissions := by
  rw [entry, Text.byteLen_append] at h
  have hhead : Text.truncateBytes room (heading s) = heading s := Text.truncateBytes_of_le (by omega)
  have hcontent : Text.truncateBytes (room - Text.byteLen (heading s)) s.content = s.content :=
    Text.truncateBytes_of_le (by omega)
  rw [clipped, hhead, hcontent, entry, Text.byteLen_append, Nat.sub_add_eq]

theorem kept_clipped (shown rest : List WorkflowSubmission) (h : Text.byteLen (shown.flatMap entry) ≤ room) :
    clipped room (shown ++ rest) =
      shown.flatMap entry ++ clipped (room - Text.byteLen (shown.flatMap entry)) rest := by
  induction shown generalizing room with
  | nil => rfl
  | cons s shown ih =>
    rw [List.flatMap_cons, Text.byteLen_append] at h
    rw [List.cons_append, clipped_cons (by omega), ih (by omega), List.flatMap_cons, Text.byteLen_append,
      List.append_assoc, Nat.sub_add_eq]

end Clipping

section Visible
variable {workflow workflow' : WorkflowView} {assignment : WorkflowAssignment}

theorem priorSubmissions_eq (workflow : WorkflowView) (assignment : WorkflowAssignment) :
    priorSubmissions workflow assignment =
      (visible workflow assignment).insertionSort fun a b => a.assignmentOrdinal ≤ b.assignmentOrdinal := by
  unfold priorSubmissions
  dsimp only
  congr 1
  unfold visible
  cases hmode : workflow.plan.mode with
  | single => exact (List.filter_eq_nil_iff.mpr fun s _ => by simp [MaySee, hmode]).symm
  | competitive => exact (List.filter_eq_nil_iff.mpr fun s _ => by simp [MaySee, hmode]).symm
  | sequential => exact List.filter_congr fun s _ => by simp [MaySee, hmode]
  | consensus =>
    dsimp only
    cases hrole : assignment.role with
    | worker => exact (List.filter_eq_nil_iff.mpr fun s _ => by simp [MaySee, hmode, hrole]).symm
    | reviewer => exact List.filter_congr fun s _ => by simp [MaySee, hmode, hrole]

theorem priorSubmissions_congr (hone : OnePerOrdinal workflow) (hone' : OnePerOrdinal workflow')
    (hagree : (visible workflow assignment).Perm (visible workflow' assignment)) :
    priorSubmissions workflow assignment = priorSubmissions workflow' assignment := by
  have hstrict {workflow : WorkflowView} (hone : OnePerOrdinal workflow) :
      (priorSubmissions workflow assignment).Pairwise fun a b => a.assignmentOrdinal < b.assignmentOrdinal := by
    have hsub : (visible workflow assignment).Sublist workflow.submissions := List.filter_sublist
    have hsorted : (priorSubmissions workflow assignment).Pairwise
        fun a b => a.assignmentOrdinal ≤ b.assignmentOrdinal := by
      rw [priorSubmissions_eq]
      exact List.pairwise_insertionSort _ _
    have hdistinct : ((priorSubmissions workflow assignment).map WorkflowSubmission.assignmentOrdinal).Nodup := by
      rw [priorSubmissions_eq]
      exact ((List.perm_insertionSort _ _).map _).nodup_iff.mpr (hone.sublist (hsub.map _))
    exact (hsorted.and (List.pairwise_map.mp hdistinct)).imp fun h => lt_of_le_of_ne h.1 h.2
  have hperm : (priorSubmissions workflow assignment).Perm (priorSubmissions workflow' assignment) := by
    rw [priorSubmissions_eq, priorSubmissions_eq]
    exact (List.perm_insertionSort _ _).trans (hagree.trans (List.perm_insertionSort _ _).symm)
  -- both are sorted strictly, and a set has one strict order
  exact hperm.eq_of_pairwise (fun a b _ _ hab hba => absurd hab (lt_asymm hba)) (hstrict hone) (hstrict hone')

theorem priorContext_clipped (workflow : WorkflowView) (assignment : WorkflowAssignment) :
    PriorContext workflow assignment (priorSubmissions workflow assignment)
      (clipped maxPriorContextBytes (priorSubmissions workflow assignment)) where
  same := by
    rw [priorSubmissions_eq]
    exact List.perm_insertionSort _ _
  sorted := by
    rw [priorSubmissions_eq]
    exact List.pairwise_insertionSort _ _
  bounded := byteLen_clipped _ _
  listing := listing_clipped _ _
  kept := by
    intro shown rest hall hfits
    rw [hall, kept_clipped shown rest hfits]
    exact List.prefix_append _ _
  complete := by
    intro hfits
    have hkept := kept_clipped (priorSubmissions workflow assignment) [] hfits
    rwa [List.append_nil, clipped, List.append_nil] at hkept

/-- The prompt depends on the plan, the assignment and what may be seen only, and shows of the latter as
much as fits. -/
theorem prompt_confined (workflow : WorkflowView) (assignment : WorkflowAssignment) (maxOutputTokens : Nat) :
    (∀ workflow', workflow'.plan = workflow.plan → OnePerOrdinal workflow → OnePerOrdinal workflow' →
      (visible workflow assignment).Perm (visible workflow' assignment) →
      providerRequest workflow assignment maxOutputTokens = providerRequest workflow' assignment maxOutputTokens) ∧
    ∃ ordered context, PriorContext workflow assignment ordered context ∧
      (providerRequest workflow assignment maxOutputTokens).prompt =
        opening workflow.plan assignment ++ if ordered = [] then [] else priorHeader ++ context := by
  constructor
  · intro workflow' hplan hone hone' hagree
    unfold providerRequest
    rw [hplan, priorSubmissions_congr hone hone' hagree]
  · refine ⟨_, _, priorContext_clipped workflow assignment, ?_⟩
    unfold providerRequest
    dsimp only
    rw [appendPrior_eq]
    by_cases hnone : priorSubmissions workflow assignment = []
    · rw [if_pos hnone, hnone, List.append_nil]
      rfl
    · rw [if_neg hnone, if_neg (by simpa using hnone), Nat.sub_zero, List.append_assoc]

end Visible

/-- A sequence for `b`, with the submissions of two agents before it. -/
def handoff (submissions : List WorkflowSubmission) : WorkflowView where
  plan := {
    version := 1
    id := "w1".toList
    channel := "workflow-w1".toList
    title := "title".toList
    prompt := "prompt".toList
    mode := .sequential
    createdBy := "carol".toList
    createdAt := []
    assignments := []
    fileLease := none
    requiredCapabilities := []
    metadata := .null }
  status := { stage := .ready, currentAgentKey := none, submittedAgents := [], pendingAgents := [] }
  submissions := submissions

def handedOff (ordinal : Nat) (content : String) : WorkflowSubmission where
  workflowId := "w1".toList
  assignmentOrdinal := ordinal
  agentKey := "a".toList
  role := .worker
  content := content.toList
  metadata := .null
  submittedAt := []

theorem prompt_confined_handoff : ∃ a : WorkflowAssignment,
    (visible (handoff [handedOff 1 "two", handedOff 0 "one"]) a).length = 2 ∧
    providerRequest (handoff [handedOff 1 "two", handedOff 0 "one"]) a 1000 =
      providerRequest (handoff [handedOff 0 "one", handedOff 1 "two"]) a 1000 := by
  let a : WorkflowAssignment := ⟨2, "b".toList, .worker, 0⟩
  refine ⟨a, by decide, ?_⟩
  exact (prompt_confined (handoff [handedOff 1 "two", handedOff 0 "one"]) a 1000).1
    (handoff [handedOff 0 "one", handedOff 1 "two"]) rfl (by decide) (by decide)
    ((List.Perm.swap _ _ []).filter _)

end Runner

end AgentBridge
