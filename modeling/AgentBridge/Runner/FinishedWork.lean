import AgentBridge.Runner.Tasks

/-! What a runner does for an assignment whose submission the bridge has accepted. Tasks
of one assignment exclude each other, and a task whose submission was answered does
nothing more for it; a task that is spawned after that, from a listing made before it,
still reserves and then cancels the admission. -/

namespace AgentBridge.Runner
variable {cfg : RunnerConfig}

namespace Phase

/-- After the submission of the assignment was answered. -/
def settled : Phase → Bool
  | .completing _ | .releasing _ => true
  | _ => false

end Phase

namespace Task
variable {t t' : Task} {m : TaskMove} {events : List RunnerEvent}

/-- Everything a step of a task can do. -/
inductive Steps (t : Task) (m : TaskMove) : Option Task → List RunnerEvent → Prop
  | moved (phase : Phase) (h : t.phase.settled → phase.settled) : Steps t m (some { t with phase := phase }) []
  | ended : Steps t m none []
  | reserved (phase : Phase) (h : t.phase.settled = false) :
    Steps t m (some { t with phase := phase }) [.reserved t.key]
  | cancelled (phase : Phase) (reason : Text) (h : t.phase.settled = false) :
    Steps t m (some { t with phase := phase }) [.cancelled t.key reason]
  | submitted (phase : Phase) (h : phase.settled ∨ m = .submitted .lost) :
    Steps t m (some { t with phase := phase }) [.submitted t.key]

theorem Steps.stay : Steps t m (some t) [] := .moved t.phase id

theorem Steps.advance {phase phase' : Phase} (hphase : t.phase = phase) (h : phase.settled = false) :
    Steps t m (t.goto phase') [] := .moved phase' (by simp [hphase, h])

theorem step_steps (cfg : RunnerConfig) (t : Task) (m : TaskMove) :
    Steps t m (t.step cfg m).1 (t.step cfg m).2 := by
  unfold step
  -- a reservation is recorded in an open phase; a submission where the bridge took it or its answer was lost
  split
  · next ok hphase =>
    split
    · exact .advance hphase rfl
    · split
      · exact .advance hphase rfl
      · exact .ended
  · next claim ok hphase =>
    split
    · exact .advance hphase rfl
    · split
      · exact .advance hphase rfl
      · split
        · exact .advance hphase rfl
        · exact .advance hphase rfl
  · next held hphase =>
    split
    · exact .advance hphase rfl
    · exact .advance hphase rfl
  · next held reply shutdown hphase =>
    have hopen : t.phase.settled = false := by rw [hphase]; rfl
    cases reply with
    | ok reservation => exact .reserved _ hopen
    | refused => exact .advance hphase rfl
    | lost => exact .reserved _ hopen
  · next held engine move hphase =>
    dsimp only
    split
    · exact .reserved _ (by rw [hphase]; rfl)
    · exact .advance hphase rfl
  · next held engine hphase =>
    split
    · exact .reserved t.phase (by rw [hphase]; rfl)
    · exact .stay
  · next held engine hphase =>
    split
    · exact .advance hphase rfl
    · exact .stay
  · next held engine hphase =>
    split
    · exact .stay
    · exact .advance hphase rfl
    · exact .advance hphase rfl
    · exact .advance hphase rfl
  · next held ok hphase =>
    split
    · exact .advance hphase rfl
    · split
      · exact .advance hphase rfl
      · exact .advance hphase rfl
  · next held ok hphase =>
    split
    · exact .advance hphase rfl
    · exact .advance hphase rfl
  · next held reply hphase =>
    cases reply with
    | ok updated =>
      dsimp only
      split
      · exact .submitted _ (.inl rfl)
      · exact .submitted _ (.inl rfl)
    | refused => exact .advance hphase rfl
    | lost => exact .submitted _ (.inr rfl)
  · exact .moved _ fun _ => rfl
  · next held reason hphase => exact .cancelled _ reason (by rw [hphase]; rfl)
  · exact .ended
  · exact .stay

end Task

/-- Nothing is reserved or cancelled for an assignment whose submission was accepted before. -/
def QuietAfterSubmission (pre : List RunnerEvent) (event : RunnerEvent) : Prop :=
  ∀ key, .submitted key ∈ pre → event ≠ .reserved key ∧ ∀ reason, event ≠ .cancelled key reason

/-- The bridge accepts the submission, and its answer is lost. -/
def TaskMove.losesSubmission : TaskMove → Bool
  | .submitted .lost => true
  | _ => false

/-- The steps that do not go wrong: no task is spawned for an assignment that has been submitted since
the listing it is spawned from, no answer to an accepted submission is lost, and nobody else submits an
assignment that a task is at work on. -/
def InTime (cfg : RunnerConfig) (s : RunnerWorld × List RunnerEvent) : RunnerMove → Prop
  | .scan => ∀ task ∈ s.1.spawns cfg, task.key ∉ s.1.submitted
  | .task _ move => move.losesSubmission = false
  | .others key => ∀ task ∈ s.1.tasks, task.key ≠ key
  | .listed _ | .ensured _ => True

instance (cfg : RunnerConfig) (s : RunnerWorld × List RunnerEvent) : (m : RunnerMove) → Decidable (InTime cfg s m)
  | .scan => inferInstanceAs (Decidable (∀ task ∈ s.1.spawns cfg, task.key ∉ s.1.submitted))
  | .task _ move => inferInstanceAs (Decidable (move.losesSubmission = false))
  | .others key => inferInstanceAs (Decidable (∀ task ∈ s.1.tasks, task.key ≠ key))
  | .listed _ | .ensured _ => inferInstanceAs (Decidable True)

/-- Tasks of one assignment exclude each other, and those whose assignment is submitted are settled. -/
structure Settled (s : RunnerWorld × List RunnerEvent) : Prop where
  nodup : (s.1.tasks.map Task.key).Nodup
  held : ∀ t ∈ s.1.tasks, t.key ∈ s.1.inFlight
  settled : ∀ t ∈ s.1.tasks, t.key ∈ s.1.submitted → t.phase.settled
  recorded : ∀ key, .submitted key ∈ s.2 → key ∈ s.1.submitted
  quiet : Trace.Always QuietAfterSubmission s.2

namespace Settled
variable {s s' : RunnerWorld} {tr : List RunnerEvent} {m : RunnerMove}

theorem init : Settled (RunnerWorld.init, []) where
  nodup := List.nodup_nil
  held := by simp [RunnerWorld.init]
  settled := by simp [RunnerWorld.init]
  recorded := by simp
  quiet := Trace.always_nil

theorem polled (h : Settled (s, tr)) (poll : Poll) : Settled ({ s with poll := poll }, tr) :=
  ⟨h.nodup, h.held, h.settled, h.recorded, h.quiet⟩

theorem choose_start {workflow : WorkflowView} {admission : AdmissionRecord} {provider : ProviderWorker}
    {task : Task} (h : s.choose cfg workflow admission provider = .start task) : task.key ∉ s.inFlight := by
  unfold RunnerWorld.choose at h
  split at h
  · cases h
  · split at h
    · cases h
    · split_ifs at h with hfull hbusy
      obtain rfl := Choice.start.inj h
      exact hbusy

theorem spawned (h : Settled (s, tr)) {task : Task} {poll : Poll} (hfree : task.key ∉ s.inFlight)
    (hopen : task.key ∉ s.submitted) :
    Settled ({ s with poll := poll, inFlight := task.key :: s.inFlight, tasks := task :: s.tasks }, tr) where
  nodup := by
    refine List.nodup_cons.mpr ⟨?_, h.nodup⟩
    intro hmem
    obtain ⟨t, ht, hkey⟩ := List.mem_map.mp hmem
    exact hfree (hkey ▸ h.held t ht)
  held := by
    intro t ht
    rcases List.mem_cons.mp ht with rfl | ht
    · exact List.mem_cons_self
    · exact List.mem_cons_of_mem _ (h.held t ht)
  settled := by
    intro t ht hsubmitted
    rcases List.mem_cons.mp ht with rfl | ht
    · exact absurd hsubmitted hopen
    · exact h.settled t ht hsubmitted
  recorded := h.recorded
  quiet := h.quiet

theorem mem_submissions {events : List RunnerEvent} {key : AssignmentKey} :
    key ∈ RunnerWorld.submissions events ↔ .submitted key ∈ events := by
  unfold RunnerWorld.submissions
  rw [List.mem_filterMap]
  constructor
  · rintro ⟨event, hevent, heq⟩
    cases event with
    | submitted key' => exact Option.some.inj heq ▸ hevent
    | reserved key' => cases heq
    | cancelled key' reason => cases heq
  · exact fun h => ⟨_, h, rfl⟩

theorem replaced (h : Settled (s, tr)) {i : Nat} {t : Task} (ht : s.tasks[i]? = some t) (t' : Task)
    (hkey : t'.key = t.key) (events : List RunnerEvent) (hkeys : ∀ key, .submitted key ∈ events → key = t.key)
    (hphase : t'.key ∈ RunnerWorld.submissions events ++ s.submitted → t'.phase.settled)
    (hquiet : Trace.Always QuietAfterSubmission (tr ++ events)) :
    Settled ({ s with tasks := s.tasks.set i t', submitted := RunnerWorld.submissions events ++ s.submitted },
      tr ++ events) := by
  obtain ⟨hi, htask⟩ := List.getElem?_eq_some_iff.mp ht
  have hsame : (s.tasks.set i t').map Task.key = s.tasks.map Task.key := by
    rw [List.map_set, hkey, ← htask, ← List.getElem_map Task.key, List.set_getElem_self]
    simpa using hi
  have hnodup : ((s.tasks.set i t').map Task.key).Nodup := hsame ▸ h.nodup
  have hmem : t' ∈ s.tasks.set i t' := List.mem_set hi t'
  refine { nodup := hnodup, held := ?_, settled := ?_, recorded := ?_, quiet := hquiet }
  · intro u hu
    rcases List.mem_or_eq_of_mem_set hu with hu | rfl
    · exact h.held u hu
    · rw [hkey]
      exact h.held t (List.mem_of_getElem? ht)
  · intro u hu hsubmitted
    by_cases hu' : u.key = t'.key
    · obtain rfl := List.inj_on_of_nodup_map hnodup hu hmem hu'
      exact hphase hsubmitted
    · have hold : u ∈ s.tasks := (List.mem_or_eq_of_mem_set hu).resolve_right fun heq => hu' (heq ▸ rfl)
      rcases List.mem_append.mp hsubmitted with hnew | hbefore
      · exact absurd ((hkeys _ (mem_submissions.mp hnew)).trans hkey.symm) hu'
      · exact h.settled u hold hbefore
  · intro key hmem
    rcases List.mem_append.mp hmem with hmem | hmem
    · exact List.mem_append_right _ (h.recorded key hmem)
    · exact List.mem_append_left _ (mem_submissions.mpr hmem)

theorem returned (h : Settled (s, tr)) {i : Nat} {t : Task} (ht : s.tasks[i]? = some t) :
    Settled ({ s with
      tasks := s.tasks.eraseIdx i
      inFlight := s.inFlight.filter (fun key => key ≠ t.key) }, tr) := by
  obtain ⟨hi, htask⟩ := List.getElem?_eq_some_iff.mp ht
  have hperm : s.tasks.Perm (t :: s.tasks.eraseIdx i) := htask ▸ (List.getElem_cons_eraseIdx_perm hi).symm
  have hnodup := (hperm.map Task.key).nodup_iff.mp h.nodup
  rw [List.map_cons, List.nodup_cons] at hnodup
  have hold : ∀ u ∈ s.tasks.eraseIdx i, u ∈ s.tasks := fun u hu => List.mem_of_mem_eraseIdx hu
  refine { nodup := hnodup.2, held := ?_, settled := ?_, recorded := h.recorded, quiet := h.quiet }
  · intro u hu
    have hne : u.key ≠ t.key := fun heq => hnodup.1 (heq ▸ List.mem_map_of_mem hu)
    exact List.mem_filter.mpr ⟨h.held u (hold u hu), by simpa using hne⟩
  · exact fun u hu => h.settled u (hold u hu)

theorem open_of (h : Settled (s, tr)) {t : Task} (ht : t ∈ s.tasks) (hopen : t.phase.settled = false)
    {key : AssignmentKey} (hkey : .submitted key ∈ tr) : key ≠ t.key := by
  rintro rfl
  have := h.settled t ht (h.recorded _ hkey)
  exact absurd this (by simp [hopen])

theorem task_step (h : Settled (s, tr)) {i : Nat} {move : TaskMove} (hm : move ≠ .submitted .lost) :
    Settled (Run.recorded (RunnerWorld.step cfg) (s, tr) (.task i move)) := by
  unfold Run.recorded RunnerWorld.step
  cases ht : s.tasks[i]? with
  | none => simpa [ht] using h
  | some t =>
    have hmem := List.mem_of_getElem? ht
    have hsteps := Task.step_steps cfg t move
    rcases hstep : t.step cfg move with ⟨t', events⟩
    rw [hstep] at hsteps
    simp only [ht, hstep]
    cases hsteps with
    | moved phase hphase =>
      refine h.replaced ht { t with phase := phase } rfl [] (by simp) ?_ (by simpa using h.quiet)
      exact fun hsubmitted => hphase (h.settled t hmem hsubmitted)
    | ended => simpa [RunnerWorld.submissions] using h.returned ht
    | reserved phase hopen =>
      refine h.replaced ht { t with phase := phase } rfl [.reserved t.key] (by simp) ?_ ?_
      · intro hsubmitted
        exact absurd (h.settled t hmem hsubmitted) (by simp [hopen])
      · refine Trace.always_concat.mpr ⟨h.quiet, fun key hkey => ?_⟩
        have hne := h.open_of hmem hopen hkey
        exact ⟨fun heq => hne (RunnerEvent.reserved.inj heq).symm, nofun⟩
    | cancelled phase reason hopen =>
      refine h.replaced ht { t with phase := phase } rfl [.cancelled t.key reason] (by simp) ?_ ?_
      · intro hsubmitted
        exact absurd (h.settled t hmem hsubmitted) (by simp [hopen])
      · refine Trace.always_concat.mpr ⟨h.quiet, fun key hkey => ?_⟩
        have hne := h.open_of hmem hopen hkey
        exact ⟨nofun, fun _ heq => hne (RunnerEvent.cancelled.inj heq).1.symm⟩
    | submitted phase hphase =>
      refine h.replaced ht { t with phase := phase } rfl [.submitted t.key] (by simp) ?_ ?_
      · exact fun _ => hphase.resolve_right hm
      · exact Trace.always_concat.mpr ⟨h.quiet, fun key _ => ⟨nofun, nofun⟩⟩

theorem scan_step (h : Settled (s, tr)) (hg : InTime cfg (s, tr) .scan) : Settled (s.scan cfg, tr) := by
  unfold RunnerWorld.scan
  unfold InTime RunnerWorld.spawns at hg
  split
  · exact h
  · exact h.polled _
  · split
    · exact h.polled _
    · exact h.polled _
  · exact h
  · exact h.polled _
  · next workflow admission provider providers workflows hpoll =>
    split
    · exact h.polled _
    · exact h.polled _
    · next task hchoice =>
      have hopen : task.key ∉ s.submitted := hg task (by simp [hpoll, hchoice])
      exact h.spawned (choose_start hchoice) hopen

theorem others_step (h : Settled (s, tr)) {key : AssignmentKey} (hfree : ∀ task ∈ s.tasks, task.key ≠ key) :
    Settled ({ s with submitted := key :: s.submitted }, tr ++ [.submitted key]) where
  nodup := h.nodup
  held := h.held
  settled := by
    intro t ht hsubmitted
    rcases List.mem_cons.mp hsubmitted with heq | hsubmitted
    · exact absurd heq (hfree t ht)
    · exact h.settled t ht hsubmitted
  recorded := by
    intro key' hmem
    rcases List.mem_append.mp hmem with hmem | hmem
    · exact List.mem_cons_of_mem _ (h.recorded key' hmem)
    · obtain rfl : key' = key := by simpa using hmem
      exact List.mem_cons_self
  quiet := Trace.always_concat.mpr ⟨h.quiet, fun _ _ => ⟨nofun, nofun⟩⟩

theorem step (h : Settled (s, tr)) (hg : InTime cfg (s, tr) m) :
    Settled (Run.recorded (RunnerWorld.step cfg) (s, tr) m) := by
  cases m with
  | scan => simpa [Run.recorded, RunnerWorld.step] using h.scan_step hg
  | task i move =>
    refine h.task_step ?_
    rintro rfl
    cases hg
  | others key => exact h.others_step hg
  | listed answer =>
    unfold Run.recorded RunnerWorld.step
    dsimp only
    split
    · simpa using h.polled _
    · simpa using h
  | ensured answer =>
    unfold Run.recorded RunnerWorld.step
    dsimp only
    split
    · simpa using h.polled _
    · simpa using h.polled _
    · simpa using h

end Settled

/-- In every run whose steps are all in time, nothing is reserved or cancelled for a finished assignment. -/
theorem no_work_for_finished {moves : List RunnerMove}
    (hmoves : Run.Guarded (Run.recorded (RunnerWorld.step cfg)) (InTime cfg) (RunnerWorld.init, []) moves) :
    Trace.Always QuietAfterSubmission
      (Run.exec (Run.recorded (RunnerWorld.step cfg)) (RunnerWorld.init, []) moves).2 :=
  (Run.exec_invariant_of (fun _ _ hg h => h.step hg) hmoves Settled.init).quiet

/-! Two agents of one competition, and a runner that works for both. -/

def duoAssignment (ordinal : Nat) (agent : String) : WorkflowAssignment := ⟨ordinal, agent.toList, .worker, 0⟩

def duoPlan : WorkflowPlan where
  version := 1
  id := "duo".toList
  channel := "workflow-duo".toList
  title := "Duo".toList
  prompt := "Answer".toList
  mode := .competitive
  createdBy := "operator".toList
  createdAt := "2026-01-01T00:00:00Z".toList
  assignments := [duoAssignment 0 "alpha", duoAssignment 1 "beta"]
  fileLease := none
  requiredCapabilities := []
  metadata := .null

def duoView : WorkflowView where
  plan := duoPlan
  status := ⟨.ready, none, [], ["alpha".toList, "beta".toList]⟩
  submissions := []

def duoViewAfter : WorkflowView where
  plan := duoPlan
  status := ⟨.running, none, ["alpha".toList], ["beta".toList]⟩
  submissions := [⟨"duo".toList, 0, "alpha".toList, .worker, "answer".toList, .null, "2026-01-01T00:01:00Z".toList⟩]

def duoAdmission : AdmissionRecord where
  version := 1
  workflowId := "duo".toList
  requestedBy := "operator".toList
  approvedBy := none
  overrideReason := none
  policy := {
    policyVersion := "1".toList
    mode := .competitive
    selectedAgentKeys := ["alpha".toList, "beta".toList]
    budget := ⟨2, 1, 600000, 100000, 20000, 2, 2, 1000000⟩
    requireHumanApproval := false
    requireFiduciaLease := false
    reasons := [] }
  status := .active
  usage := {}
  createdAt := "2026-01-01T00:00:00Z".toList
  updatedAt := "2026-01-01T00:00:00Z".toList
  terminalReason := none
  lastRejectedDelta := none

def duoConfig : RunnerConfig where
  sha256 := fun _ _ => 0
  retryPolicy := fun _ => ⟨0, 250, 5000, 15000, KeySet.empty, true, false⟩
  providers := [⟨⟨"alpha".toList, .openAiResponses, "gpt".toList⟩, []⟩,
    ⟨⟨"beta".toList, .anthropicMessages, "claude".toList⟩, []⟩]
  claimsEnabled := false
  instanceId := "single-replica".toList
  maxConcurrency := 2
  leaseSafetyMarginMs := 15000

/-- A poll from the listing to the choice of the first provider. -/
def pollOf (view : WorkflowView) : List RunnerMove :=
  [.listed (some [view]), .scan, .ensured (some duoAdmission), .scan]

def reserveMoves : List TaskMove := [.claimed true, .leased true, .proceed, .reserved (.ok ⟨300, 4096, 5⟩) false]

/-- The provider answers, and the usage is reported. -/
def answerMoves : List TaskMove :=
  [.engine .proceed, .engine (.guard true (some duoView)), .engine .poll,
    .engine (.answer (.attempted (.ok ⟨"alpha".toList, "gpt".toList, "answer".toList, none, .null⟩))),
    .proceed, .reported true]

/-- One assignment from the listing to the end of its task, in time. -/
def plainRun : List RunnerMove :=
  pollOf duoView ++
    (reserveMoves ++ answerMoves ++ [.submitted (.ok duoViewAfter), .proceed] : List TaskMove).map (.task 0)

theorem no_work_for_finished_plain :
    Trace.Always QuietAfterSubmission
      (Run.exec (Run.recorded (RunnerWorld.step duoConfig)) (RunnerWorld.init, []) plainRun).2 :=
  no_work_for_finished (by decide)

/-- The same with a second poll that lists the workflow before the submission is accepted and chooses
its providers after the task has returned. The task it spawns is refused by its first guard check. -/
def staleRun : List RunnerMove :=
  pollOf duoView ++ (reserveMoves ++ answerMoves).map (.task 0) ++
    [.scan, .scan, .scan, .listed (some [duoView]), .task 1 (.submitted (.ok duoViewAfter)), .task 1 .proceed,
      .scan, .ensured (some duoAdmission), .scan] ++
    (reserveMoves ++ [.engine .proceed, .engine (.guard true (some duoViewAfter)), .proceed, .proceed] :
      List TaskMove).map (.task 0)

def alphaKey : AssignmentKey := ("duo".toList, 0)

theorem not_quiet_stale :
    (Run.exec (Run.recorded (RunnerWorld.step duoConfig)) (RunnerWorld.init, []) staleRun).2 =
        [.reserved alphaKey, .submitted alphaKey, .reserved alphaKey,
          .cancelled alphaKey "workflow_not_pending".toList] ∧
      ¬ Trace.Always QuietAfterSubmission
        (Run.exec (Run.recorded (RunnerWorld.step duoConfig)) (RunnerWorld.init, []) staleRun).2 := by
  have hrun : (Run.exec (Run.recorded (RunnerWorld.step duoConfig)) (RunnerWorld.init, []) staleRun).2 =
      [.reserved alphaKey, .submitted alphaKey, .reserved alphaKey,
        .cancelled alphaKey "workflow_not_pending".toList] := by decide
  refine ⟨hrun, fun hquiet => ?_⟩
  rw [hrun] at hquiet
  have hlate := hquiet [.reserved alphaKey, .submitted alphaKey] (.reserved alphaKey)
    [.cancelled alphaKey "workflow_not_pending".toList] rfl
  exact (hlate alphaKey (by simp)).1 rfl

end AgentBridge.Runner
