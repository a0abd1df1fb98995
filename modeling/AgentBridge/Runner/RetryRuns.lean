import AgentBridge.Runner.RetrySafety

/-! Whole runs of the retry engine: they are safe, they end, and once the shutdown is
signalled at most one more call begins. -/

namespace AgentBridge.Runner
variable {x : Execution} {e e' : Engine} {m : Move} {evs tr : List Event}

namespace RetryRun

def audits : RetryRun → List RetryAudit
  | .success _ _ audits _ => audits
  | .finalFailure _ audits _ => audits
  | .aborted _ audits _ => audits

def totalDelay : RetryRun → Duration
  | .success _ _ _ totalDelay => totalDelay
  | .finalFailure _ _ totalDelay => totalDelay
  | .aborted _ _ totalDelay => totalDelay

def isAborted : RetryRun → Bool
  | .aborted .. => true
  | _ => false

end RetryRun

/-- What a run returns is what the engine has counted. -/
def Reported (e : Engine) : Prop :=
  ∀ run, e.point = .ended run → run.audits = e.audits ∧ run.totalDelay = e.totalDelay

theorem Reported.steps (hr : Reported e) (h : Engine.Steps x e m e' evs) : Reported e' := by
  intro run hrun
  cases h with
  | watch w hw => exact hr run hrun
  | closed w hw => exact hr run hrun
  | signalled w value hmove hw => exact hr run hrun
  | enter | pass | passAgain | begin | tick | plan | slept | granted => exact absurd hrun nofun
  | stop | fail | succeed | giveUp | refused =>
    obtain rfl := Point.ended.inj hrun
    exact ⟨rfl, rfl⟩

/-- Everything that holds of the engine and its events throughout a run. -/
structure Engine.Sound (x : Execution) (s : Engine × List Event) : Prop where
  bounded : Engine.Bounded x s.1
  accounts : Accounts x s.1 s.2
  ordered : Ordered s.1 s.2
  reported : Reported s.1

theorem Engine.sound_start (x : Execution) (reservation : UsageReservation) (w : Watch) :
    Engine.Sound x (Engine.start reservation w, []) where
  bounded := Engine.start_bounded x reservation w
  accounts := Accounts.start x reservation w
  ordered := Ordered.start reservation w
  reported := nofun

theorem Engine.Sound.step (hv : x.policy.Valid) {s : Engine × List Event} (hs : Engine.Sound x s) (m : Move) :
    Engine.Sound x (Run.recorded x.step s m) := by
  have h := Engine.step_steps x s.1 m
  exact { bounded := hs.bounded.steps hv h
          accounts := hs.accounts.steps hv hs.bounded h
          ordered := hs.ordered.steps h
          reported := hs.reported.steps h }

theorem Execution.run_sound (hv : x.policy.Valid) (reservation : UsageReservation) (w : Watch)
    (moves : List Move) : Engine.Sound x (x.run reservation w moves) :=
  Run.exec_invariant (fun _ m hs => hs.step hv m) (Engine.sound_start x reservation w) moves

/-- The contract of `execute`, of the engine and of what it has done so far. -/
structure RetrySafe (x : Execution) (e : Engine) (tr : List Event) : Prop where
  attempts_le : attempts tr ≤ x.policy.maxRetries + 1 ∧ attempts tr ≤ 6
  balance : attempts tr = accepted tr + owed (Trace.last Event.ofCall tr)
  answered : ∀ run, e.point = .ended run → run.isAborted = false → attempts tr = accepted tr + 1
  attempt : Trace.Always AttemptOk tr
  quiet : Trace.Always QuietOk tr
  ordinals : e.audits.map RetryAudit.retryOrdinal = List.range' 1 (accepted tr)
  plans : ∀ plan ∈ tr.filterMap Event.plan?, plan.delay ≤ Duration.fromMillis x.policy.maxDelayMs
  total : e.totalDelay = (delays tr).sum ∧ e.totalDelay ≤ Duration.fromMillis x.policy.maxTotalDelayMs
  reported : Reported e

theorem owed_le (event : Option Event) : owed event ≤ 1 := by
  unfold owed
  split <;> omega

theorem Engine.Sound.safe (hv : x.policy.Valid) (hs : Engine.Sound x (e, tr)) : RetrySafe x e tr := by
  have hretries : x.policy.maxRetries ≤ 5 := hv.retries
  have haudits : e.audits.length ≤ x.policy.maxRetries := hs.bounded.audits
  have haccepted : accepted tr = e.audits.length := hs.accounts.accepted
  have hbalance : attempts tr = accepted tr + owed (Trace.last Event.ofCall tr) := hs.ordered.balance
  have howed := owed_le (Trace.last Event.ofCall tr)
  refine { attempts_le := by omega
           balance := hbalance
           answered := ?_
           attempt := hs.ordered.attempt
           quiet := hs.ordered.quiet
           ordinals := haccepted ▸ hs.bounded.ordinals
           plans := hs.accounts.plans
           total := ⟨hs.accounts.delays, hs.bounded.total⟩
           reported := hs.reported }
  intro run hrun haborted
  have hlast : LastEvents _ _ e.point := hs.ordered.last
  rw [hrun] at hlast
  cases run with
  | success response reservation audits totalDelay =>
    have hone : owed (Trace.last Event.ofCall tr) = 1 := hlast
    rw [hbalance, hone]
  | finalFailure error audits totalDelay =>
    have hone : owed (Trace.last Event.ofCall tr) = 1 := hlast
    rw [hbalance, hone]
  | aborted reason audits totalDelay => exact absurd haborted (by simp [RetryRun.isAborted])

/-! Termination: every answer brings the engine nearer to its end; only the guard checks
of a call that is not answered, and the surroundings, leave it where it is. -/

/-- What the engine waits for within a call. -/
inductive Wait
  | entry | guard | start | answer
deriving DecidableEq

def Stage.wait : Stage → Wait
  | .entering => .entry
  | .guarding => .guard
  | .selecting false | .rechecking false => .start
  | .selecting true | .rechecking true => .answer

def Wait.rank : Wait → Nat
  | .entry => 3
  | .guard => 2
  | .start => 1
  | .answer => 0

def Call.rank : Call → Nat
  | .attempt => 2
  | .sleep _ => 1
  | .reserve _ => 0

namespace Engine

def pending (e : Engine) : Option (Call × Wait) :=
  match e.point with
  | .on call stage => some (call, stage.wait)
  | .ended _ => none

def rank (x : Execution) (e : Engine) : Nat :=
  match e.point with
  | .on call stage => 12 * (x.policy.maxRetries - e.audits.length) + 4 * call.rank + stage.wait.rank + 1
  | .ended _ => 0

theorem pending_eq_none : e.pending = none ↔ ∃ run, e.point = .ended run := by
  unfold pending
  cases e.point <;> simp

theorem rank_pos {call : Call} {stage : Stage} (hat : e.point = .on call stage) : 0 < e.rank x := by
  simp [rank, hat]

theorem rank_steps (hb : Bounded x e) (h : Steps x e m e' evs) :
    e'.rank x < e.rank x ∨ e'.rank x = e.rank x ∧ e'.pending = e.pending := by
  cases h with
  | watch | closed | signalled => exact .inr ⟨rfl, rfl⟩
  | enter call hat => exact .inl (by simp [rank, goto, hat, Stage.wait, Wait.rank])
  | pass call hat => exact .inl (by simp [rank, goto, hat, Stage.wait, Wait.rank])
  | begin call hat => exact .inl (by simp [rank, goto, hat, Stage.wait, Wait.rank])
  | passAgain call polled hat => cases polled <;> exact .inr (by simp [rank, pending, goto, hat, Stage.wait])
  | tick call polled hat => cases polled <;> exact .inr (by simp [rank, pending, goto, hat, Stage.wait])
  | stop call stage w hat => exact .inl (rank_pos hat)
  | fail call stage reason hat => exact .inl (rank_pos hat)
  | refused plan hat => exact .inl (rank_pos hat)
  | succeed response hat => exact .inl (rank_pos hat)
  | giveUp error hat => exact .inl (rank_pos hat)
  | plan error plan hat => exact .inl (by simp [rank, goto, hat, Stage.wait, Wait.rank, Call.rank])
  | slept plan hat => exact .inl (by simp [rank, hat, Stage.wait, Wait.rank, Call.rank])
  | granted plan reservation hat =>
    have hfits := hb.fits
    rw [hat] at hfits
    have hroom : e.audits.length < x.policy.maxRetries := hfits.2
    refine .inl ?_
    simp only [rank, hat, List.length_append, List.length_singleton, Stage.wait, Wait.rank, Call.rank]
    omega

theorem exists_answer {w : Call × Wait} (h : e.pending = some w) :
    ∃ m, (x.step e m).1.pending ≠ some w := by
  cases hat : e.point with
  | ended run => simp [pending, hat] at h
  | on call stage =>
    obtain rfl : (call, stage.wait) = w := by simpa [pending, hat] using h
    cases stage with
    | entering =>
      refine ⟨.proceed, ?_⟩
      cases hvalue : e.shutdown.value <;>
        simp [Execution.step, hat, checkShutdown, hvalue, pending, goto, abort, Stage.wait]
    | guarding =>
      refine ⟨.guard false none, ?_⟩
      simp [Execution.step, hat, checkGuard, pending, abort]
    | rechecking polled =>
      refine ⟨.guard false none, ?_⟩
      simp [Execution.step, hat, checkGuard, pending, abort]
    | selecting polled =>
      cases polled with
      | false =>
        refine ⟨.poll, ?_⟩
        simp [Execution.step, hat, pending, goto, Stage.wait]
      | true =>
        cases call with
        | attempt =>
          refine ⟨.answer (.attempted (.error .invalidResponse)), ?_⟩
          have hplan : x.policy.plan x.sha256 .invalidResponse (nextOrdinal e.audits) e.totalDelay x.seed =
              none := by
            unfold RetryPolicy.plan
            split_ifs
            · rfl
            · rfl
          simp [Execution.step, hat, Execution.resume, hplan, pending]
        | sleep plan =>
          refine ⟨.answer .slept, ?_⟩
          simp [Execution.step, hat, Execution.resume, pending]
        | reserve plan =>
          refine ⟨.answer (.reserved none), ?_⟩
          simp [Execution.step, hat, Execution.resume, pending, abort]

/-- Calls that may still begin once the shutdown is signalled: the one whose checks have begun. -/
def mayBegin (e : Engine) : Nat :=
  match e.point with
  | .on _ .guarding | .on _ (.selecting false) | .on _ (.rechecking false) => 1
  | _ => 0

theorem mayBegin_le (e : Engine) : e.mayBegin ≤ 1 := by
  unfold mayBegin
  split <;> omega

end Engine

/-- The attempts and reservations begun. -/
def begun (tr : List Event) : Nat := tr.countP Event.begun

namespace Engine

theorem mayBegin_steps (hvalue : e.shutdown.value = true) (hm : m ≠ .signal false)
    (h : Steps x e m e' evs) :
    e'.shutdown.value = true ∧ begun evs + e'.mayBegin ≤ e.mayBegin := by
  cases h with
  | watch w hw => exact ⟨hw.trans hvalue, (Nat.zero_add _).le⟩
  | closed w hw => exact ⟨hw.trans hvalue, (Nat.zero_add _).le⟩
  | signalled w value hmove hw =>
    cases value with
    | true => exact ⟨hw, (Nat.zero_add _).le⟩
    | false => exact absurd hmove hm
  | enter call hat hoff => exact absurd hvalue (by simp [hoff])
  | stop call stage w hat hw => exact ⟨hw.trans hvalue, Nat.zero_le _⟩
  | pass call hat => exact ⟨hvalue, by simp [mayBegin, goto, hat, begun, Event.begun]⟩
  | passAgain call polled hat =>
    cases polled <;> exact ⟨hvalue, by simp [mayBegin, goto, hat, begun, Event.begun]⟩
  | fail call stage reason hat => exact ⟨hvalue, Nat.zero_le _⟩
  | begin call hat =>
    cases call <;>
      exact ⟨hvalue, by simp [mayBegin, goto, hat, begun, Event.begun, Execution.begins]⟩
  | tick call polled hat => cases polled <;> exact ⟨hvalue, by simp [mayBegin, goto, hat, begun]⟩
  | succeed | giveUp | plan | slept | granted | refused => exact ⟨hvalue, Nat.zero_le _⟩

theorem begun_after_signal (late : List Move) (hvalue : e.shutdown.value = true)
    (hlate : ∀ m ∈ late, m ≠ .signal false) :
    begun (Run.exec (Run.recorded x.step) (e, []) late).2 ≤ e.mayBegin := by
  induction late generalizing e with
  | nil => exact Nat.zero_le _
  | cons m late ih =>
    obtain ⟨hvalue', hstep⟩ := mayBegin_steps hvalue (hlate m List.mem_cons_self) (step_steps x e m)
    have hrest := ih hvalue' fun m hm => hlate m (List.mem_cons_of_mem _ hm)
    rw [Run.exec_cons, Run.recorded, List.nil_append, Run.exec_recorded]
    simp only [begun, List.countP_append] at hrest hstep ⊢
    omega

end Engine
def Execution.after (x : Execution) (reservation : UsageReservation) (w : Watch) (moves : ℕ → Move)
    (n : ℕ) : Engine :=
  (Run.after (Run.recorded x.step) (Engine.start reservation w, []) moves n).1

theorem Execution.ends (hv : x.policy.Valid) {reservation : UsageReservation} {w : Watch} {moves : ℕ → Move}
    (hanswered : ∀ n wait, (x.after reservation w moves n).pending = some wait →
      ∃ k, n ≤ k ∧ (x.after reservation w moves k).pending ≠ some wait) :
    ∃ n run, (x.after reservation w moves n).point = .ended run := by
  obtain ⟨N, hN⟩ := Run.exists_settled (fun s => s.1.rank x) (fun s => s.1.pending)
    (I := Engine.Sound x) (fun _ m hs => hs.step hv m)
    (fun s m hs => Engine.rank_steps hs.bounded (Engine.step_steps x s.1 m))
    (Engine.sound_start x reservation w) moves
  refine ⟨N, Engine.pending_eq_none.mp ?_⟩
  cases hpending : (x.after reservation w moves N).pending with
  | none => rfl
  | some wait =>
    obtain ⟨k, hk, hne⟩ := hanswered N wait hpending
    exact absurd ((hN k hk).trans hpending) hne

theorem Execution.begun_late (reservation : UsageReservation) (w : Watch) (moves late : List Move)
    (hvalue : (x.run reservation w moves).1.shutdown.value = true) (hlate : ∀ m ∈ late, m ≠ .signal false) :
    begun (x.run reservation w (moves ++ late)).2 ≤ begun (x.run reservation w moves).2 + 1 := by
  have hrun : x.run reservation w (moves ++ late) = Run.exec (Run.recorded x.step) (x.run reservation w moves) late :=
    Run.exec_append ..
  have hafter := (Engine.begun_after_signal (x := x) late hvalue hlate).trans (Engine.mayBegin_le _)
  rw [hrun, Run.exec_recorded]
  simp only [begun, List.countP_append] at hafter ⊢
  omega

/-- Retry safety: for a validated policy, under whatever answers, signals and guard checks, the engine is
safe throughout, begins at most one more call once the shutdown is signalled, and ends if nothing it waits
for is left unanswered for ever; and whatever it waits for has an answer. -/
theorem execute_safe {input : RetryPolicyInput} {name : Text} (x : Execution)
    (hpolicy : input.validate name = .ok x.policy) (reservation : UsageReservation) (w : Watch) :
    (∀ moves, RetrySafe x (x.run reservation w moves).1 (x.run reservation w moves).2) ∧
      (∀ moves late, (x.run reservation w moves).1.shutdown.value = true →
        (∀ m ∈ late, m ≠ .signal false) →
        begun (x.run reservation w (moves ++ late)).2 ≤ begun (x.run reservation w moves).2 + 1) ∧
      (∀ moves : ℕ → Move,
        (∀ n wait, (x.after reservation w moves n).pending = some wait →
          ∃ k, n ≤ k ∧ (x.after reservation w moves k).pending ≠ some wait) →
        ∃ n run, (x.after reservation w moves n).point = .ended run) ∧
      ∀ moves wait, (x.run reservation w moves).1.pending = some wait →
        ∃ m, (x.run reservation w (moves ++ [m])).1.pending ≠ some wait := by
  have hv := RetryPolicyInput.validate_valid hpolicy
  refine ⟨?_, ?_, ?_, ?_⟩
  · exact fun moves => (Execution.run_sound hv reservation w moves).safe hv
  · exact fun moves late => Execution.begun_late reservation w moves late
  · exact fun moves => Execution.ends hv
  · intro moves wait hwait
    obtain ⟨m, hm⟩ := Engine.exists_answer (x := x) hwait
    refine ⟨m, ?_⟩
    rw [Execution.run, Run.exec_append]
    exact hm

/-! One agent, one retry. -/

def soloAssignment : WorkflowAssignment := ⟨0, "codex".toList, .worker, 0⟩

def soloView : WorkflowView where
  plan := {
    version := 1
    id := "retry-flow".toList
    channel := "workflow-retry-flow".toList
    title := "Retry".toList
    prompt := "Retry".toList
    mode := .single
    createdBy := "operator".toList
    createdAt := "2026-01-01T00:00:00Z".toList
    assignments := [soloAssignment]
    fileLease := none
    requiredCapabilities := []
    metadata := .null }
  status := {
    stage := .ready
    currentAgentKey := some "codex".toList
    submittedAgents := []
    pendingAgents := ["codex".toList] }
  submissions := []

def soloPolicy : RetryPolicy where
  maxRetries := 1
  baseDelayMs := 250
  maxDelayMs := 5000
  maxTotalDelayMs := 15000
  retryableStatuses := KeySet.ofList [408, 425, 429, 500, 502, 503, 504, 529]
  retryConnectErrors := true
  retryTimeoutErrors := false

def soloExecution : Execution where
  sha256 := fun _ _ => 0
  policy := soloPolicy
  seed := "retry-flow/0/codex".toList
  provider := ⟨⟨"codex".toList, .openAiResponses, "gpt".toList⟩, []⟩
  workflow := soloView
  assignment := soloAssignment

def soloReservation : UsageReservation := ⟨300, 4096, 5⟩

def quietWatch : Watch := ⟨false, false, false⟩

/-- A call that passes its checks and is answered. -/
def servedCall (answer : Answer) : List Move := [.proceed, .guard true (some soloView), .poll, .answer answer]

theorem validate_soloPolicy :
    RetryPolicyInput.validate { maxRetries := 1 } "codex".toList = .ok soloPolicy := rfl

/-- The call is refused for its rate, and the retry that is slept for and reserved is on its way. -/
def reservedRetry : List Move :=
  servedCall (.attempted (.error (.httpStatus 429 (some 1000000000) (some .rateLimited)))) ++
    servedCall .slept ++ servedCall (.reserved (some soloReservation))

theorem execute_safe_solo :
    attempts (soloExecution.run soloReservation quietWatch
      (reservedRetry ++ servedCall (.attempted (.error (.httpStatus 400 none none))))).2 = 2 ∧
    RetrySafe soloExecution
      (soloExecution.run soloReservation quietWatch
        (reservedRetry ++ servedCall (.attempted (.error (.httpStatus 400 none none))))).1
      (soloExecution.run soloReservation quietWatch
        (reservedRetry ++ servedCall (.attempted (.error (.httpStatus 400 none none))))).2 :=
  ⟨by decide, (execute_safe soloExecution validate_soloPolicy soloReservation quietWatch).1 _⟩

/-- The shutdown is signalled after the retry is reserved: the attempt it was reserved for is not made. -/
def reservedThenStopped : List Move := reservedRetry ++ [.signal true, .proceed]

/-- The shutdown is signalled while the guard check is under way: the attempt still begins. -/
def signalledWhileGuarding : List Move := [.proceed, .signal true, .guard true (some soloView), .poll]

theorem not_attempts_eq_accepted_add_one :
    RetryPolicyInput.validate { maxRetries := 1 } "codex".toList = .ok soloExecution.policy ∧
      ¬ attempts (soloExecution.run soloReservation quietWatch reservedThenStopped).2 =
        accepted (soloExecution.run soloReservation quietWatch reservedThenStopped).2 + 1 ∧
      (soloExecution.run soloReservation quietWatch signalledWhileGuarding).2 =
        [.signalled true, .passed, .attempted] :=
  ⟨rfl, by decide, by decide⟩

end AgentBridge.Runner
