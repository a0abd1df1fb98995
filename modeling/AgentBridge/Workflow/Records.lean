import AgentBridge.Base.Result
import AgentBridge.State.Effects
import AgentBridge.Workflow.Handlers

/-! The shape `build_assignments` gives a plan, and the records a workflow keeps in
its channel: their keys, the insert-only write, and what a load reads back. -/

namespace AgentBridge.Orchestration
open State

section Assignments
variable {mode : WorkflowMode} {candidates : List Agent} {workerCount : Option Nat}
  {reviewer : Option Text} {assignments : List WorkflowAssignment} {a b : WorkflowAssignment}

def phaseIn (mode : WorkflowMode) (a : WorkflowAssignment) : Nat :=
  match mode, a.role with
  | .sequential, _ => a.ordinal
  | .consensus, .reviewer => 1
  | _, _ => 0

/-- Assignments numbered by position, each in the phase of its mode; one reviewer, who is
no worker, in consensus plans and none in others. -/
structure Numbered (mode : WorkflowMode) (assignments : List WorkflowAssignment) : Prop where
  ordinals : assignments.map WorkflowAssignment.ordinal = List.range assignments.length
  phases : ∀ a ∈ assignments, a.phase = phaseIn mode a
  workers : mode ≠ .consensus → ∀ a ∈ assignments, a.role = .worker
  reviewer : mode = .consensus → ∃ r ∈ assignments, r.role = .reviewer ∧
    ∀ a ∈ assignments, a ≠ r → a.role = .worker ∧ a.agentKey ≠ r.agentKey

theorem ordinals_workers (phase : Nat → Nat) (candidates : List Agent) (count : Nat) :
    (workers phase candidates count).map WorkflowAssignment.ordinal =
      List.range (workers phase candidates count).length := by
  apply List.ext_getElem
  · simp
  · simp [workers]

theorem mem_workers {phase : Nat → Nat} {count : Nat} (h : a ∈ workers phase candidates count) :
    a.role = .worker ∧ a.phase = phase a.ordinal := by
  obtain ⟨i, hi, rfl⟩ := List.mem_mapIdx.mp h
  exact ⟨rfl, rfl⟩

def workerPhase : WorkflowMode → Nat → Nat
  | .sequential => id
  | .single | .competitive | .consensus => fun _ => 0

def minimumWorkers : WorkflowMode → Nat
  | .single | .sequential => 1
  | .competitive | .consensus => 2

/-- What `build_assignments` gives: the first `count` candidates as workers, and in a consensus
plan a reviewer after them. -/
structure Drawn (mode : WorkflowMode) (candidates : List Agent) (workerCount : Option Nat) (reviewer : Option Text)
    (assignments : List WorkflowAssignment) (count : Nat) (reviewers : List WorkflowAssignment) : Prop where
  requested : ∀ n ∈ workerCount, n = count
  enough : minimumWorkers mode ≤ count
  single : mode = .single → count = 1
  available : count ≤ candidates.length
  assignments : assignments = workers (workerPhase mode) candidates count ++ reviewers
  alone : mode ≠ .consensus → reviewers = []
  reviewed : mode = .consensus → ∃ key, consensusReviewer candidates workerCount reviewer = .ok key ∧
    (∀ a ∈ workers (workerPhase mode) candidates count, a.agentKey ≠ key) ∧
    reviewers = [{ ordinal := count, agentKey := key, role := .reviewer, phase := 1 }]

theorem length_workers {phase : Nat → Nat} {count : Nat} (h : count ≤ candidates.length) :
    (workers phase candidates count).length = count := by
  simp [workers, h]

theorem normalizedWorkerCount_ok {default minimum count : Nat}
    (h : normalizedWorkerCount workerCount default minimum = .ok count) :
    (∀ n ∈ workerCount, n = count) ∧ minimum ≤ count := by
  unfold normalizedWorkerCount at h
  obtain ⟨hminimum, h⟩ := Except.check_eq_ok.mp h
  obtain ⟨-, h⟩ := Except.check_eq_ok.mp h
  cases h
  refine ⟨?_, Nat.le_of_not_lt hminimum⟩
  intro n hn
  rw [Option.mem_def.mp hn, Option.getD_some]

theorem ensureCandidateCount_ok {count : Nat} {name : Text} {u : Unit}
    (h : ensureCandidateCount candidates count name = .ok u) : count ≤ candidates.length :=
  Nat.le_of_not_lt (Except.check_eq_ok.mp h).1

/-- The counted modes: the workers are those asked for, enough and all of them there. -/
theorem drawn_workers {default count : Nat} {name : Text} {u : Unit} (hmode : mode ≠ .consensus)
    (hmany : mode ≠ .single)
    (hcount : normalizedWorkerCount workerCount default (minimumWorkers mode) = .ok count)
    (hensure : ensureCandidateCount candidates count name = .ok u) :
    Drawn mode candidates workerCount reviewer (workers (workerPhase mode) candidates count) count [] := by
  obtain ⟨hrequested, henough⟩ := normalizedWorkerCount_ok hcount
  exact ⟨hrequested, henough, fun h => absurd h hmany, ensureCandidateCount_ok hensure, (List.append_nil _).symm,
    fun _ => rfl, fun h => absurd h hmode⟩

theorem modeAssignments_drawn (h : modeAssignments mode candidates workerCount reviewer = .ok assignments) :
    ∃ count reviewers, Drawn mode candidates workerCount reviewer assignments count reviewers := by
  cases mode with
  | single =>
    rw [modeAssignments, Except.check_eq_ok] at h
    obtain ⟨hone, h⟩ := h
    cases candidates with
    | nil => cases h
    | cons worker rest =>
      cases h
      refine ⟨1, [], ?_, le_rfl, fun _ => rfl, by simp, rfl, fun _ => rfl, nofun⟩
      intro n hn
      by_contra hne
      exact hone (by simp [Option.mem_def.mp hn, hne])
  | sequential =>
    obtain ⟨count, hcount, h⟩ := Except.bind_eq_ok.mp h
    obtain ⟨_, hensure, h⟩ := Except.bind_eq_ok.mp h
    cases h
    exact ⟨count, [], drawn_workers nofun nofun hcount hensure⟩
  | competitive =>
    obtain ⟨count, hcount, h⟩ := Except.bind_eq_ok.mp h
    obtain ⟨_, hensure, h⟩ := Except.bind_eq_ok.mp h
    cases h
    exact ⟨count, [], drawn_workers nofun nofun hcount hensure⟩
  | consensus =>
    obtain ⟨key, hkey, h⟩ := Except.bind_eq_ok.mp h
    obtain ⟨count, hcount, h⟩ := Except.bind_eq_ok.mp h
    obtain ⟨_, hensure, h⟩ := Except.bind_eq_ok.mp h
    obtain ⟨hdistinct, h⟩ := Except.check_eq_ok.mp h
    cases h
    obtain ⟨hrequested, henough⟩ := normalizedWorkerCount_ok hcount
    have havailable := ensureCandidateCount_ok hensure
    refine ⟨count, _, hrequested, henough, nofun, havailable, rfl, fun hne => absurd rfl hne,
      fun _ => ⟨key, hkey, ?_, ?_⟩⟩
    · intro a ha heq
      exact hdistinct (List.any_eq_true.mpr ⟨a, ha, decide_eq_true heq⟩)
    · rw [length_workers havailable]

theorem buildAssignments_drawn (h : buildAssignments mode candidates workerCount reviewer = .ok assignments) :
    assignments.length ≤ maxAssignments ∧
      ∃ count reviewers, Drawn mode candidates workerCount reviewer assignments count reviewers := by
  obtain ⟨l, hl, h⟩ := Except.bind_eq_ok.mp h
  obtain ⟨hbound, h⟩ := Except.check_eq_ok.mp h
  cases h
  exact ⟨Nat.le_of_not_lt hbound, modeAssignments_drawn hl⟩

theorem Drawn.numbered {count : Nat} {reviewers : List WorkflowAssignment}
    (h : Drawn mode candidates workerCount reviewer assignments count reviewers) : Numbered mode assignments := by
  have hworkers {a : WorkflowAssignment} (ha : a ∈ workers (workerPhase mode) candidates count) :=
    mem_workers ha
  rw [h.assignments]
  by_cases hmode : mode = .consensus
  · obtain ⟨key, -, hdistinct, rfl⟩ := h.reviewed hmode
    subst hmode
    refine ⟨?_, ?_, fun hne => absurd rfl hne,
      fun _ => ⟨_, List.mem_append_right _ (List.mem_singleton.mpr rfl), rfl, ?_⟩⟩
    · rw [List.map_append, ordinals_workers, List.length_append, length_workers h.available]
      exact List.range_succ.symm
    · intro a ha
      rcases List.mem_append.mp ha with ha | ha
      · obtain ⟨hrole, hphase⟩ := hworkers ha
        simp only [phaseIn, hrole, hphase, workerPhase]
      · rw [List.mem_singleton.mp ha]
        rfl
    · intro a ha hne
      rcases List.mem_append.mp ha with ha | ha
      · exact ⟨(hworkers ha).1, hdistinct a ha⟩
      · exact absurd (List.mem_singleton.mp ha) hne
  · rw [h.alone hmode, List.append_nil]
    refine ⟨ordinals_workers .., ?_, fun _ a ha => (hworkers ha).1, fun heq => absurd heq hmode⟩
    intro a ha
    obtain ⟨hrole, hphase⟩ := hworkers ha
    cases mode with
    | consensus => exact absurd rfl hmode
    | single => simp only [phaseIn, hphase, workerPhase]
    | sequential => simp only [phaseIn, hphase, workerPhase, id]
    | competitive => simp only [phaseIn, hphase, workerPhase]

theorem numbered_buildAssignments
    (h : buildAssignments mode candidates workerCount reviewer = .ok assignments) :
    Numbered mode assignments := by
  obtain ⟨-, count, reviewers, hdrawn⟩ := buildAssignments_drawn h
  exact hdrawn.numbered

theorem Numbered.pairwise (h : Numbered mode assignments) :
    assignments.Pairwise fun a b => a.ordinal < b.ordinal := by
  rw [← List.pairwise_map (f := WorkflowAssignment.ordinal) (R := (· < ·)), h.ordinals]
  exact List.pairwise_lt_range

theorem Numbered.eq_of_ordinal (h : Numbered mode assignments) (ha : a ∈ assignments)
    (hb : b ∈ assignments) (hab : a.ordinal = b.ordinal) : a = b := by
  have hnd : (assignments.map WorkflowAssignment.ordinal).Nodup := by
    rw [h.ordinals]
    exact List.nodup_range
  exact List.inj_on_of_nodup_map hnd ha hb hab

theorem Numbered.exists_ordinal (h : Numbered mode assignments) {n : Nat} :
    (∃ a ∈ assignments, a.ordinal = n) ↔ n < assignments.length := by
  rw [← List.mem_map, h.ordinals, List.mem_range]

end Assignments

section Keys

theorem submissionKey_injective : Function.Injective submissionKey := by
  intro m n h
  exact Text.decimal_injective (List.append_cancel_left h)

theorem trim_submissionKey (n : Nat) : Text.trim (submissionKey n) = submissionKey n := by
  have hpre : ∀ c ∈ submissionContextPrefix, Text.isWhitespace c = false := Text.spaceless_of_all (by decide)
  exact Text.trim_eq_self (Text.spaceless_append_decimal hpre n)

theorem trim_planContextKey : Text.trim planContextKey = planContextKey := by decide

theorem submissionContextPrefix_isPrefix (n : Nat) : submissionContextPrefix <+: submissionKey n :=
  List.prefix_append _ _

theorem submissionKey_ne_planContextKey (n : Nat) : submissionKey n ≠ planContextKey := by
  intro h
  have hp := submissionContextPrefix_isPrefix n
  rw [h] at hp
  exact absurd hp (by decide)

theorem isReservedContextKey_planContextKey : isReservedContextKey planContextKey = true := by decide

theorem isReservedContextKey_of_prefix {key : Text} (h : "workflow.".toList <+: key) :
    isReservedContextKey key = true := by
  have htrim : "workflow.".toList <+: Text.trim key := Text.prefix_trim (Text.spaceless_of_all (by decide)) h
  rw [isReservedContextKey, List.any_eq_true]
  exact ⟨_, List.mem_cons_self, List.isPrefixOf_iff_prefix.mpr htrim⟩

end Keys

section Context
variable {s s' : AppState} {now : Now} {slug key updatedBy : Text} {value : ContextValue}
  {e : ContextEntry}

/-- `s'` is `s` with the entry `e` put under its key into the channel `slug`. -/
structure Puts (s s' : AppState) (slug : Text) (e : ContextEntry) : Prop where
  trimmed : Text.trim e.key = e.key
  entry : ∀ c k, s'.entry c k = if c = slug ∧ k = e.key then some e else s.entry c k

theorem Puts.self (h : Puts s s' slug e) : s'.entry slug e.key = some e := by
  rw [h.entry, if_pos ⟨rfl, rfl⟩]

theorem Puts.ne (h : Puts s s' slug e) {c k : Text} (hne : ¬ (c = slug ∧ k = e.key)) :
    s'.entry c k = s.entry c k := by
  rw [h.entry, if_neg hne]

theorem insertWorkflowContext_cases (s : AppState) (now : Now) (slug key : Text) (value : ContextValue)
    (updatedBy : Text) (htrim : Text.trim key = key) :
    (∃ e, insertWorkflowContext s now slug key value updatedBy = (.error e, s)) ∨
    ∃ e s', insertWorkflowContext s now slug key value updatedBy = (.ok e, s') ∧
      s.entry slug key = none ∧ e.key = key ∧ e.value = value ∧
      e.updatedBy = Text.truncateBytes maxKeyBytes updatedBy ∧ Puts s s' slug e := by
  unfold insertWorkflowContext AppState.getContextKeyInternal
  cases hch : s.channels.get slug with
  | none => exact .inl ⟨_, rfl⟩
  | some ch =>
    dsimp only
    cases hget : ch.context.get key with
    | some old => exact .inl ⟨_, rfl⟩
    | none =>
      dsimp only
      rcases hset : s.setContextInternal now slug key value updatedBy with ⟨r, s'⟩
      cases r with
      | error e =>
        rw [setContextInternal_error hset]
        exact .inl ⟨e, rfl⟩
      | ok e =>
        obtain ⟨hvalue, hkey, hby, hentry⟩ := entry_setContextInternal hset
        rw [htrim] at hkey hentry
        refine .inr ⟨e, s', rfl, (entry_of_channel hch key).trans hget, hkey, hvalue, hby, ?_⟩
        exact ⟨hkey ▸ htrim, hkey.symm ▸ hentry⟩

theorem loadPlanByChannel_eq_ok {channel : Text} {plan : WorkflowPlan} :
    loadPlanByChannel s channel = .ok plan ↔
      ∃ e, s.entry channel planContextKey = some e ∧ e.value = .workflowPlan plan := by
  unfold loadPlanByChannel AppState.getContextKeyInternal AppState.entry
  cases hch : s.channels.get channel with
  | none => simp [bind, Except.bind]
  | some ch =>
    cases hget : ch.context.get planContextKey with
    | none => simp [bind, Except.bind, hget]
    | some e =>
      cases hv : e.value <;> simp [bind, Except.bind, hget, hv]

def Keyed (s : AppState) : Prop := ∀ c k e, s.entry c k = some e → e.key = k

theorem Puts.keyed (h : Puts s s' slug e) (hs : Keyed s) : Keyed s' := by
  intro c k e' he
  rw [h.entry] at he
  split_ifs at he with hk
  · cases he
    exact hk.2.symm
  · exact hs c k e' he

theorem parseSubmission_eq_some {submission : WorkflowSubmission} :
    parseSubmission e = some submission ↔
      submissionContextPrefix <+: e.key ∧ e.value = .workflowSubmission submission := by
  unfold parseSubmission
  rw [← List.isPrefixOf_iff_prefix]
  split_ifs with hp
  · cases hv : e.value <;> simp [hp]
  · simp [hp]

theorem mem_loadSubmissions {channel : Text} {submissions : List WorkflowSubmission}
    {submission : WorkflowSubmission} (hs : Keyed s) (h : loadSubmissions s channel = .ok submissions) :
    submission ∈ submissions ↔ ∃ k e, s.entry channel k = some e ∧ submissionContextPrefix <+: k ∧
      e.value = .workflowSubmission submission := by
  obtain ⟨entries, hentries, rfl⟩ := Except.map_eq_ok.mp h
  simp only [List.mem_insertionSort, List.mem_filterMap, parseSubmission_eq_some, mem_getContextInternal hentries]
  constructor
  · rintro ⟨e, ⟨k, he⟩, hp, hv⟩
    exact ⟨k, e, he, hs _ _ _ he ▸ hp, hv⟩
  · rintro ⟨k, e, he, hp, hv⟩
    exact ⟨e, ⟨k, he⟩, (hs _ _ _ he).symm ▸ hp, hv⟩

theorem loadSubmissions_of_entry {channel : Text} (h : s.entry channel key = some e) :
    ∃ submissions, loadSubmissions s channel = .ok submissions := by
  unfold loadSubmissions AppState.getContextInternal
  cases hch : s.channels.get channel with
  | none =>
    rw [AppState.entry, hch] at h
    cases h
  | some ch => exact ⟨_, rfl⟩

/-- Submissions under different keys have different ordinals, so no ordinal is read twice. -/
theorem nodup_loadSubmissions {channel : Text} {submissions : List WorkflowSubmission}
    (h : loadSubmissions s channel = .ok submissions)
    (hkeys : ∀ k e sub, s.entry channel k = some e → parseSubmission e = some sub →
      k = submissionKey sub.assignmentOrdinal) :
    (submittedOrdinals submissions).Nodup := by
  obtain ⟨entries, hentries, rfl⟩ := Except.map_eq_ok.mp h
  have hread := nodup_filterMap_context hentries hkeys
  exact ((List.perm_insertionSort _ _).map WorkflowSubmission.assignmentOrdinal).nodup_iff.mpr hread

end Context
end AgentBridge.Orchestration
