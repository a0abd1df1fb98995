import AgentBridge.Http.Exposure
import AgentBridge.Runner.Accounting

/-! The usage of a managed assignment in the ledger of its workflow: every accepted call
charges its reservation, and the response what it cost beyond the last one. -/

namespace AgentBridge.Runner
open PolicyAdmission State

section Prices
variable {pricing : ProviderPricing} {inputTokens outputTokens : Nat}

/-- The price of a call in exact arithmetic, rounded up, with the fixed reserve. -/
def exactCost (pricing : ProviderPricing) (inputTokens outputTokens : Nat) : Nat :=
  (inputTokens * pricing.inputMicroUsdPerMillion + outputTokens * pricing.outputMicroUsdPerMillion + 999999) /
    1000000 + pricing.fixedCallReserveMicroUsd

/-- The computed cost is cut at `u64::MAX` and exact below it. -/
theorem callCost_eq (pricing : ProviderPricing) (inputTokens outputTokens : Nat) :
    callCost pricing inputTokens outputTokens = min (exactCost pricing inputTokens outputTokens) u64Max := by
  unfold callCost priceUsage exactCost saturatingAdd u128Max u64Max
  generalize inputTokens * pricing.inputMicroUsdPerMillion = input
  generalize outputTokens * pricing.outputMicroUsdPerMillion = output
  dsimp only
  omega

theorem callCost_exact (h : callCost pricing inputTokens outputTokens < u64Max) :
    callCost pricing inputTokens outputTokens = exactCost pricing inputTokens outputTokens := by
  rw [callCost_eq] at h ⊢
  rcases Nat.lt_or_ge (exactCost pricing inputTokens outputTokens) u64Max with hbelow | habove
  · exact Nat.min_eq_left hbelow.le
  · rw [Nat.min_eq_right habove] at h
    exact absurd h (Nat.lt_irrefl _)

end Prices

/-- A run of one managed assignment among any other work on the admissions. -/
structure ManagedWorld where
  admissions : AdmissionWorld
  /-- The accepted reservations of the assignment, oldest first. -/
  reservations : List UsageReservation
  /-- The usage value of the accepted response. -/
  response : Option Json
  /-- What was accepted on the workflow for the assignment, and for anyone else. -/
  own : List UsageDelta
  others : List UsageDelta
  /-- A call of the assignment failed. -/
  refused : Bool

/-- `other` is any step of others, reports of usage for the same workflow included. The assignment
reserves its call, then its retries, and reports its response. -/
inductive ManagedAction
  | other (a : AdmissionAction)
  | reserve (env : Http.Env) (request : ProviderRequest) (concurrency : Nat)
  | respond (env : Http.Env) (usage : Json) (elapsedMs : Nat)

structure ManagedAssignment where
  control : AdmissionControl
  workflowId : Text
  provider : Text

namespace ManagedWorld

def init (config : Config) : ManagedWorld := ⟨AdmissionWorld.init config, [], none, [], [], false⟩

def fails (w : ManagedWorld) (s : AppState) : ManagedWorld :=
  { w with admissions := w.admissions.withState s, refused := true }

def charged (w : ManagedWorld) (x : ManagedAssignment) (s : AppState) (delta : UsageDelta) : ManagedWorld :=
  { w with
    admissions := { w.admissions.withState s with
      accepted := w.admissions.accepted ++ [(x.workflowId, delta)] }
    own := w.own ++ [delta] }

def step (x : ManagedAssignment) (w : ManagedWorld) : ManagedAction → ManagedWorld
  | .other a =>
    let admissions := w.admissions.step a
    { w with
      admissions
      others := w.others ++ logFor x.workflowId (admissions.accepted.drop w.admissions.accepted.length) }
  | .reserve env request concurrency =>
    if w.response.isSome then w
    else
      let isRetry := !w.reservations.isEmpty
      match x.control.reserveAttempt env w.admissions.state x.workflowId x.provider request concurrency isRetry with
      | (.error _, s) => w.fails s
      | (.ok (_, reservation), s) =>
        { w.charged x s (AdmissionControl.attemptDelta reservation concurrency isRetry) with
          reservations := w.reservations ++ [reservation] }
  | .respond env usage elapsedMs =>
    match w.response, w.reservations.getLast?, x.control.actualUsage x.provider usage with
    | none, some reservation, .ok actual =>
      match x.control.reportResponse env w.admissions.state x.workflowId x.provider usage elapsedMs reservation with
      | (.error _, s) => w.fails s
      | (.ok _, s) =>
        { w.charged x s (AdmissionControl.excessDelta actual reservation elapsedMs) with response := some usage }
    | none, some _, .error _ => { w with refused := true }
    | _, _, _ => w

abbrev run (x : ManagedAssignment) (config : Config) (as : List ManagedAction) : ManagedWorld :=
  Run.exec (step x) (init config) as

end ManagedWorld

section Charges
variable {control : AdmissionControl} {env : Http.Env} {s s' : AppState} {workflowId provider : Text}

theorem reportUsage_ok {delta : UsageDelta} {record : AdmissionRecord}
    (h : control.reportUsage env s workflowId provider delta = (.ok record, s')) :
    recordUsage s env.now workflowId provider delta = (.ok record, s') := by
  unfold AdmissionControl.reportUsage Http.reportUsage at h
  dsimp only at h
  cases hload : loadAdmission s workflowId with
  | error e =>
    rw [hload] at h
    cases h
  | ok found =>
    rw [hload] at h
    cases found with
    | none => cases h
    | some admission =>
      dsimp only at h
      by_cases howner : admission.requestedBy ≠ Text.trim control.actor
      · rw [if_pos howner] at h
        cases h
      · rw [if_neg howner] at h
        rcases hr : recordUsage s env.now workflowId provider delta with ⟨e | charged, t⟩
        · rw [hr] at h
          cases h
        · rw [hr] at h
          obtain ⟨hrecord, hstate⟩ := Prod.mk.inj h
          unfold validateActive at hrecord
          split_ifs at hrecord
          cases hrecord
          cases hstate
          rfl

theorem reserveAttempt_ok {request : ProviderRequest} {concurrency : Nat} {isRetry : Bool}
    {record : AdmissionRecord} {reservation : UsageReservation}
    (h : control.reserveAttempt env s workflowId provider request concurrency isRetry =
      (.ok (record, reservation), s')) :
    recordUsage s env.now workflowId provider (AdmissionControl.attemptDelta reservation concurrency isRetry) =
      (.ok record, s') := by
  unfold AdmissionControl.reserveAttempt at h
  cases hr : control.reservationFor provider request with
  | error e =>
    rw [hr] at h
    cases h
  | ok found =>
    rw [hr] at h
    dsimp only at h
    obtain ⟨hmap, hstate⟩ := Prod.mk.inj h
    obtain ⟨a, ha, heq⟩ := Except.map_eq_ok.mp hmap
    cases heq
    exact reportUsage_ok (Prod.ext ha hstate)

theorem reportResponse_ok {usage : Json} {elapsedMs : Nat} {actual reservation : UsageReservation}
    {record : AdmissionRecord} (hactual : control.actualUsage provider usage = .ok actual)
    (h : control.reportResponse env s workflowId provider usage elapsedMs reservation = (.ok record, s')) :
    recordUsage s env.now workflowId provider (AdmissionControl.excessDelta actual reservation elapsedMs) =
      (.ok record, s') := by
  unfold AdmissionControl.reportResponse at h
  rw [hactual] at h
  exact reportUsage_ok h

/-- What a response is taken to have used. -/
structure DerivedUsage (x : ManagedAssignment) (usage : Json) (actual : UsageReservation)
    (pricing : ProviderPricing) : Prop where
  priced : x.control.pricing x.provider = some pricing
  inputTokens : findFirstU64 usage inputTokenKeys = some actual.inputTokens
  outputTokens : findFirstU64 usage outputTokenKeys = some actual.outputTokens
  costMicroUsd : actual.costMicroUsd =
    (findFirstU64 usage costKeys).getD (exactCost pricing actual.inputTokens actual.outputTokens)

theorem actualUsage_derived {x : ManagedAssignment} {usage : Json} {actual : UsageReservation}
    (h : x.control.actualUsage x.provider usage = .ok actual) (hcost : actual.costMicroUsd < u64Max) :
    ∃ pricing, DerivedUsage x usage actual pricing := by
  suffices hread : ∃ pricing, x.control.pricing x.provider = some pricing ∧
      findFirstU64 usage inputTokenKeys = some actual.inputTokens ∧
      findFirstU64 usage outputTokenKeys = some actual.outputTokens ∧
      actual.costMicroUsd =
        (findFirstU64 usage costKeys).getD (callCost pricing actual.inputTokens actual.outputTokens) by
    obtain ⟨pricing, hpricing, hinput, houtput, hvalue⟩ := hread
    refine ⟨pricing, hpricing, hinput, houtput, ?_⟩
    generalize findFirstU64 usage costKeys = reported at hvalue ⊢
    cases reported with
    | some cost =>
      rw [Option.getD_some] at hvalue ⊢
      exact hvalue
    | none =>
      rw [Option.getD_none] at hvalue ⊢
      rw [hvalue] at hcost
      exact hvalue.trans (callCost_exact hcost)
  unfold AdmissionControl.actualUsage at h
  generalize findFirstU64 usage inputTokenKeys = input at h ⊢
  generalize findFirstU64 usage outputTokenKeys = output at h ⊢
  generalize findFirstU64 usage costKeys = reported at h ⊢
  generalize x.control.pricing x.provider = priced at h ⊢
  cases priced with
  | none => cases h
  | some pricing =>
    cases input with
    | none => cases h
    | some inputTokens =>
      cases output with
      | none => cases h
      | some outputTokens =>
        cases h
        exact ⟨pricing, rfl, rfl, rfl, rfl⟩

end Charges

section Tallies
variable {rs : List UsageReservation} {own : List UsageDelta}

/-- The charges of the attempts against their reservations. -/
structure Tally (rs : List UsageReservation) (own : List UsageDelta) : Prop where
  inputTokens : (usageOf own).inputTokens = (rs.map UsageReservation.inputTokens).sum
  outputTokens : (usageOf own).outputTokens = (rs.map UsageReservation.outputTokens).sum
  costMicroUsd : (usageOf own).costMicroUsd = (rs.map UsageReservation.costMicroUsd).sum
  providerCalls : (usageOf own).providerCalls = rs.length
  retries : (usageOf own).retries = rs.length - 1

theorem tally_nil : Tally [] [] := ⟨rfl, rfl, rfl, rfl, rfl⟩

theorem Tally.attempt (h : Tally rs own) (r : UsageReservation) (concurrency : Nat) :
    Tally (rs ++ [r]) (own ++ [AdmissionControl.attemptDelta r concurrency (!rs.isEmpty)]) := by
  obtain ⟨hinput, houtput, hcost, hcalls, hretries⟩ := h
  simp only [usageOf] at hinput houtput hcost hcalls hretries
  constructor
  · simp [usageOf, hinput, AdmissionControl.attemptDelta]
  · simp [usageOf, houtput, AdmissionControl.attemptDelta]
  · simp [usageOf, hcost, AdmissionControl.attemptDelta]
  · simp [usageOf, hcalls, AdmissionControl.attemptDelta]
  · -- only the first attempt is not a retry
    cases rs with
    | nil => simp [usageOf, hretries, AdmissionControl.attemptDelta]
    | cons r' rs => simp [usageOf, hretries, AdmissionControl.attemptDelta]

end Tallies

/-- Where a managed assignment stands: its attempts are tallied, and a response is charged beyond the last. -/
inductive Standing (x : ManagedAssignment) : List UsageReservation → Option Json → List UsageDelta → Prop
  | attempting {rs : List UsageReservation} {own : List UsageDelta} (h : Tally rs own) : Standing x rs none own
  | responded {rs : List UsageReservation} {last actual : UsageReservation} {own : List UsageDelta} {usage : Json}
      (h : Tally (rs ++ [last]) own) (hactual : x.control.actualUsage x.provider usage = .ok actual)
      (elapsedMs : Nat) :
      Standing x (rs ++ [last]) (some usage) (own ++ [AdmissionControl.excessDelta actual last elapsedMs])

theorem Standing.tally {x : ManagedAssignment} {rs : List UsageReservation} {own : List UsageDelta}
    (h : Standing x rs none own) : Tally rs own := by
  cases h with
  | attempting h => exact h

theorem Standing.response {x : ManagedAssignment} {rs : List UsageReservation} {own : List UsageDelta} {usage : Json}
    (h : Standing x rs (some usage) own) :
    ∃ failed last actual attempts elapsedMs, rs = failed ++ [last] ∧ Tally rs attempts ∧
      x.control.actualUsage x.provider usage = .ok actual ∧
      own = attempts ++ [AdmissionControl.excessDelta actual last elapsedMs] := by
  cases h with
  | responded h hactual elapsedMs => exact ⟨_, _, _, _, elapsedMs, rfl, h, hactual, rfl⟩

section Budgets
variable {w : AdmissionWorld} {s : AppState} {now : Now} {workflowId : Text} {request : AdmitReq}

/-- The budget of every admission stays below the cap on costs. -/
def Budgeted (w : AdmissionWorld) : Prop :=
  ∀ p ∈ w.created, p.2.policy.budget.maxCostMicroUsd ≤ Policy.absMaxCostMicroUsd

theorem newAdmission_budget {record : AdmissionRecord} (h : newAdmission s now workflowId request = .ok record) :
    record.policy.budget.maxCostMicroUsd ≤ Policy.absMaxCostMicroUsd := by
  obtain ⟨plan, -, h⟩ := Except.bind_eq_ok.mp h
  obtain ⟨_, -, h⟩ := Except.bind_eq_ok.mp h
  obtain ⟨decision, hdecision, h⟩ := Except.bind_eq_ok.mp h
  obtain ⟨_, hchecks, h⟩ := Except.bind_eq_ok.mp h
  obtain ⟨requestedBy, -, h⟩ := Except.bind_eq_ok.mp h
  obtain ⟨approvedBy, -, h⟩ := Except.bind_eq_ok.mp h
  obtain ⟨_, -, h⟩ := Except.bind_eq_ok.mp h
  obtain ⟨overrideReason, -, h⟩ := Except.bind_eq_ok.mp h
  cases h
  have hevaluate := Except.mapError_eq_ok.mp hdecision
  have hallowed : decision.allowed = true := by
    unfold decisionChecks at hchecks
    by_contra hnot
    rw [Bool.not_eq_true] at hnot
    rw [hnot] at hchecks
    cases hchecks
  obtain ⟨i, hi, he⟩ := Except.bind_eq_ok.mp hevaluate
  cases he
  obtain ⟨caps, hreads⟩ := Policy.intake_reads hi
  obtain ⟨c, hal⟩ := Policy.decision_allows hallowed
  have hbudget := (Policy.budget_clamped hreads).maxCostMicroUsd.absolute
  change (i.decision request.policyRequest).budget.maxCostMicroUsd ≤ _
  rw [hal.decision]
  exact hbudget

theorem Budgeted.step (hw : Budgeted w) (a : AdmissionAction) : Budgeted (w.step a) := by
  cases a with
  | workflow a => exact hw
  | recordUsage now workflowId updatedBy delta => exact hw
  | transition now workflowId updatedBy status reason => exact hw
  | create now workflowId request =>
    rw [AdmissionWorld.step]
    rcases createAdmission_cases w.state now workflowId request with
      ⟨r, h, hnot⟩ | ⟨record, s', h, -, hnew, -⟩
    · rw [h]
      intro p hp
      rw [AdmissionWorld.createdBy_of_ne hnot, List.append_nil] at hp
      exact hw p hp
    · rw [h]
      intro p hp
      rcases List.mem_append.mp hp with hp | hp
      · exact hw p hp
      · rw [List.mem_singleton.mp hp]
        exact newAdmission_budget hnew

theorem accepted_step (w : AdmissionWorld) (a : AdmissionAction) :
    (w.step a).accepted = w.accepted ++ (w.step a).accepted.drop w.accepted.length := by
  have hgrows : w.accepted <+: (w.step a).accepted := by
    cases a with
    | workflow a => exact List.prefix_refl _
    | recordUsage now workflowId updatedBy delta => exact List.prefix_append _ _
    | transition now workflowId updatedBy status reason => exact List.prefix_refl _
    | create now workflowId request => exact List.prefix_refl _
  exact (List.prefix_iff_eq_append.mp hgrows).symm

end Budgets

section Runs
variable {x : ManagedAssignment} {config : Config} {w : ManagedWorld}

/-- A managed run in which no call of the assignment failed. -/
structure Books (x : ManagedAssignment) (w : ManagedWorld) : Prop where
  sound : w.admissions.Sound
  budgeted : Budgeted w.admissions
  split : (logFor x.workflowId w.admissions.accepted).Perm (w.others ++ w.own)
  standing : Standing x w.reservations w.response w.own

theorem books_init (x : ManagedAssignment) (config : Config) : Books x (ManagedWorld.init config) where
  sound := AdmissionWorld.init_sound config
  budgeted := fun _ hp => absurd hp List.not_mem_nil
  split := List.Perm.refl _
  standing := .attempting tally_nil

theorem charged_eq {env : Http.Env} {delta : UsageDelta} {record : AdmissionRecord} {s : AppState}
    (h : recordUsage w.admissions.state env.now x.workflowId x.provider delta = (.ok record, s)) :
    (w.charged x s delta).admissions =
      w.admissions.step (.recordUsage env.now x.workflowId x.provider delta) := by
  rw [AdmissionWorld.step, h]
  rfl

theorem Books.charged (hw : Books x w) {env : Http.Env} {delta : UsageDelta} {record : AdmissionRecord}
    {s : AppState}
    (h : recordUsage w.admissions.state env.now x.workflowId x.provider delta = (.ok record, s)) :
    (w.charged x s delta).admissions.Sound ∧ Budgeted (w.charged x s delta).admissions ∧
    (logFor x.workflowId (w.charged x s delta).admissions.accepted).Perm (w.others ++ (w.own ++ [delta])) := by
  have heq := charged_eq h
  refine ⟨?_, ?_, ?_⟩
  · rw [heq]
    exact (AdmissionWorld.step_moves hw.sound _).sound hw.sound
  · rw [heq]
    exact hw.budgeted.step _
  · change (logFor x.workflowId (w.admissions.accepted ++ [(x.workflowId, delta)])).Perm _
    rw [AdmissionWorld.logFor_append, AdmissionWorld.logFor_self, ← List.append_assoc]
    exact hw.split.append_right [delta]

theorem Books.step (hw : Books x w) (a : ManagedAction) (hok : (w.step x a).refused = false) :
    Books x (w.step x a) := by
  -- others' entries join the common log; an attempt and a response join the run's own books as well
  cases a with
  | other a =>
    refine ⟨(AdmissionWorld.step_moves hw.sound a).sound hw.sound, hw.budgeted.step a, ?_, hw.standing⟩
    change (logFor x.workflowId (w.admissions.step a).accepted).Perm
      (w.others ++ logFor x.workflowId ((w.admissions.step a).accepted.drop w.admissions.accepted.length) ++ w.own)
    rw [accepted_step, AdmissionWorld.logFor_append, List.append_assoc, ← accepted_step]
    refine (hw.split.append_right _).trans ?_
    rw [List.append_assoc]
    exact List.Perm.append_left _ List.perm_append_comm
  | reserve env request concurrency =>
    rw [ManagedWorld.step] at hok ⊢
    by_cases hdone : w.response.isSome = true
    · rw [if_pos hdone]
      exact hw
    · rw [if_neg hdone] at hok ⊢
      dsimp only at hok ⊢
      rcases hr : x.control.reserveAttempt env w.admissions.state x.workflowId x.provider request concurrency
        (!w.reservations.isEmpty) with ⟨e | ⟨record, reservation⟩, s⟩
      · rw [hr] at hok
        cases hok
      · obtain ⟨hsound, hbudgeted, hsplit⟩ := hw.charged (reserveAttempt_ok hr)
        refine ⟨hsound, hbudgeted, hsplit, ?_⟩
        have hnone : w.response = none := Option.not_isSome_iff_eq_none.mp hdone
        have hstanding := hw.standing
        rw [hnone] at hstanding
        change Standing x (w.reservations ++ [reservation]) w.response _
        rw [hnone]
        exact .attempting (hstanding.tally.attempt reservation concurrency)
  | respond env usage elapsedMs =>
    rw [ManagedWorld.step] at hok ⊢
    cases hresponse : w.response with
    | some u => exact hw
    | none =>
      cases hlast : w.reservations.getLast? with
      | none =>
        rw [hresponse, hlast] at hok
        exact hw
      | some reservation =>
        cases hactual : x.control.actualUsage x.provider usage with
        | error e =>
          rw [hresponse, hlast, hactual] at hok
          cases hok
        | ok actual =>
          rw [hresponse, hlast, hactual] at hok
          dsimp only at hok ⊢
          rcases hr : x.control.reportResponse env w.admissions.state x.workflowId x.provider usage elapsedMs
            reservation with ⟨e | record, s⟩
          · rw [hr] at hok
            cases hok
          · obtain ⟨hsound, hbudgeted, hsplit⟩ := hw.charged (reportResponse_ok hactual hr)
            refine ⟨hsound, hbudgeted, hsplit, ?_⟩
            have hstanding := hw.standing
            rw [hresponse] at hstanding
            obtain ⟨rs, hrs⟩ := List.getLast?_eq_some_iff.mp hlast
            change Standing x w.reservations (some usage) _
            rw [hrs] at hstanding ⊢
            exact .responded hstanding.tally hactual elapsedMs

theorem refused_step (h : w.refused = true) (a : ManagedAction) : (w.step x a).refused = true := by
  cases a with
  | other a => exact h
  | reserve env request concurrency =>
    rw [ManagedWorld.step]
    split_ifs
    · exact h
    · dsimp only
      split
      · rfl
      · exact h
  | respond env usage elapsedMs =>
    rw [ManagedWorld.step]
    split
    · split
      · rfl
      · exact h
    · rfl
    · exact h

theorem run_books (x : ManagedAssignment) (config : Config) (as : List ManagedAction)
    (hok : (ManagedWorld.run x config as).refused = false) : Books x (ManagedWorld.run x config as) := by
  refine Run.exec_invariant (P := fun w => w.refused = false → Books x w) (fun w a hw hok => ?_)
    (fun _ => books_init x config) as hok
  have hbefore : w.refused = false := by
    by_contra hrefused
    rw [Bool.not_eq_false] at hrefused
    rw [refused_step hrefused a] at hok
    cases hok
  exact (hw hbefore).step a hok

end Runs

/-- What a responded assignment has charged, beyond the usage of everyone else: the reservations of
the failed attempts, and the larger of the last reservation and what the response used. -/
structure Charged (x : ManagedAssignment) (w : ManagedWorld) (usage : Json) (total : UsageTotals)
    (failed : List UsageReservation) (last actual : UsageReservation) (pricing : ProviderPricing) : Prop where
  attempts : w.reservations = failed ++ [last]
  derived : DerivedUsage x usage actual pricing
  inputTokens : total.inputTokens = (usageOf w.others).inputTokens +
    ((failed.map UsageReservation.inputTokens).sum + max last.inputTokens actual.inputTokens)
  outputTokens : total.outputTokens = (usageOf w.others).outputTokens +
    ((failed.map UsageReservation.outputTokens).sum + max last.outputTokens actual.outputTokens)
  costMicroUsd : total.costMicroUsd = (usageOf w.others).costMicroUsd +
    ((failed.map UsageReservation.costMicroUsd).sum + max last.costMicroUsd actual.costMicroUsd)
  providerCalls : total.providerCalls = (usageOf w.others).providerCalls + (failed.length + 1)
  retries : total.retries = (usageOf w.others).retries + failed.length
  fits : Fits total

section Totals
variable {l m : List UsageDelta}

theorem usageOf_perm (h : l.Perm m) : usageOf l = usageOf m := by
  have hpeak : (l.map UsageDelta.concurrency).foldl max 0 = (m.map UsageDelta.concurrency).foldl max 0 :=
    (h.map _).foldl_eq 0
  simp only [usageOf, (h.map UsageDelta.inputTokens).sum_eq, (h.map UsageDelta.outputTokens).sum_eq,
    (h.map UsageDelta.costMicroUsd).sum_eq, (h.map UsageDelta.retries).sum_eq,
    (h.map UsageDelta.providerCalls).sum_eq, (h.map UsageDelta.elapsedMs).sum_eq, hpeak]

theorem Tally.responded {failed : List UsageReservation} {last : UsageReservation} {attempts : List UsageDelta}
    (h : Tally (failed ++ [last]) attempts) (others : List UsageDelta) (actual : UsageReservation) (elapsedMs : Nat) :
    let total := usageOf (others ++ (attempts ++ [AdmissionControl.excessDelta actual last elapsedMs]))
    total.inputTokens = (usageOf others).inputTokens +
      ((failed.map UsageReservation.inputTokens).sum + max last.inputTokens actual.inputTokens) ∧
    total.outputTokens = (usageOf others).outputTokens +
      ((failed.map UsageReservation.outputTokens).sum + max last.outputTokens actual.outputTokens) ∧
    total.costMicroUsd = (usageOf others).costMicroUsd +
      ((failed.map UsageReservation.costMicroUsd).sum + max last.costMicroUsd actual.costMicroUsd) ∧
    total.providerCalls = (usageOf others).providerCalls + (failed.length + 1) ∧
    total.retries = (usageOf others).retries + failed.length := by
  obtain ⟨hinput, houtput, hcost, hcalls, hretries⟩ := h
  simp only [usageOf, List.map_append, List.sum_append, List.map_singleton, List.sum_singleton,
    List.length_append, List.length_singleton] at hinput houtput hcost hcalls hretries
  -- the excess over a reservation and the reservation make the larger of the two
  have hmax (reserved actual : Nat) : reserved + (actual - reserved) = max reserved actual := by omega
  simp only [usageOf, List.map_append, List.sum_append, List.map_singleton, List.sum_singleton, hinput, houtput,
    hcost, hcalls, hretries, AdmissionControl.excessDelta, Nat.add_assoc, hmax]
  simp

theorem Books.capped {x : ManagedAssignment} {w : ManagedWorld} (hw : Books x w) {record : AdmissionRecord}
    (hrecord : LedgerOk w.admissions x.workflowId record) :
    record.usage.costMicroUsd ≤ Policy.absMaxCostMicroUsd := by
  obtain ⟨first, hfirst, hid⟩ := hrecord.opened
  have hmem : first ∈ logFor x.workflowId w.admissions.created := by
    rw [hfirst]
    exact List.mem_singleton_self first
  obtain ⟨p, hp, hpfirst⟩ := List.mem_map.mp hmem
  have hcap := hw.budgeted p (List.mem_filter.mp hp).1
  rw [hpfirst, ← policy_of_identity hid] at hcap
  have hbudget := hrecord.budget
  unfold budgetViolation at hbudget
  split_ifs at hbudget with _ _ hcost
  exact (Nat.not_lt.mp hcost).trans hcap

end Totals

/-- In every run in which every call of the assignment succeeded, the ledger holds the exact charge
of the assignment beyond the usage of everyone else, and nothing wrapped around. -/
theorem usage_accounted (x : ManagedAssignment) (config : Config) (as : List ManagedAction) (usage : Json)
    (hok : (ManagedWorld.run x config as).refused = false)
    (hresponse : (ManagedWorld.run x config as).response = some usage) :
    ∃ record failed last actual pricing,
      loadAdmission (ManagedWorld.run x config as).admissions.state x.workflowId = .ok (some record) ∧
      Charged x (ManagedWorld.run x config as) usage record.usage failed last actual pricing := by
  have hw := run_books x config as hok
  generalize ManagedWorld.run x config as = w at hresponse hw ⊢
  have hstanding := hw.standing
  rw [hresponse] at hstanding
  obtain ⟨failed, last, actual, attempts, elapsedMs, hattempts, htally, hactual, hown⟩ := hstanding.response
  rw [hattempts] at htally
  have hsplit := hw.split
  rw [hown] at hsplit
  have hledger := hw.sound.ledger x.workflowId
  cases hstored : stored w.admissions.state x.workflowId with
  | none =>
    -- nothing is charged to a workflow without an admission
    rw [hstored] at hledger
    generalize logFor x.workflowId w.admissions.accepted = accepted at hledger hsplit
    generalize logFor x.workflowId w.admissions.created = created at hledger
    cases hledger
    have hlength := hsplit.length_eq
    rw [List.length_append, List.length_append, List.length_singleton, List.length_nil] at hlength
    omega
  | some record =>
    rw [hstored] at hledger
    have hrecord := hledger.ledgerOk
    have husage := hrecord.usage
    rw [usageOf_perm hsplit] at husage
    obtain ⟨hinput, houtput, hcost, hcalls, hretries⟩ := htally.responded w.others actual elapsedMs
    rw [← husage] at hinput houtput hcost hcalls hretries
    have hcap : actual.costMicroUsd < u64Max := by
      have hcapped := hw.capped hrecord
      have habs : Policy.absMaxCostMicroUsd < u64Max := by decide
      omega
    obtain ⟨pricing, hderived⟩ := actualUsage_derived hactual hcap
    exact ⟨record, failed, last, actual, pricing, loadAdmission_eq_some.mpr hstored, hattempts, hderived,
      hinput, houtput, hcost, hcalls, hretries, hrecord.fits⟩

/-- The runner of the admission on one workflow, whose calls all have the same price. -/
def pricedAssignment : ManagedAssignment where
  control := {
    actor := "carol".toList
    approvedBy := none
    pricing := fun _ => some {
      inputMicroUsdPerMillion := 1000
      outputMicroUsdPerMillion := 1000
      fixedCallReserveMicroUsd := 1
      maxContextTokens := 0 } }
  workflowId := "w1".toList
  provider := "codex".toList

def reportedUsage : Json :=
  .obj [("input_tokens".toList, .num (.posInt 300)), ("output_tokens".toList, .num (.posInt 5))]

/-- A failed attempt, a retry and its response, after usage of someone else. -/
def retriedRun : List ManagedAction :=
  let request : ProviderRequest := ⟨"prompt".toList, 10, none⟩
  let env (t : Nat) : Http.Env := { Http.offlineEnv with now := ⟨t, t⟩ }
  (overageRun.take 3).map .other ++
    [.other (.recordUsage ⟨3, 3⟩ "w1".toList "codex".toList { inputTokens := 7 }),
    .reserve (env 4) request 1,
    .reserve (env 5) request 1,
    .respond (env 6) reportedUsage 20]

theorem usage_accounted_retried :
    ∃ usage record failed last actual pricing,
      loadAdmission (ManagedWorld.run pricedAssignment .inMemory retriedRun).admissions.state "w1".toList =
        .ok (some record) ∧
      Charged pricedAssignment (ManagedWorld.run pricedAssignment .inMemory retriedRun) usage record.usage
        failed last actual pricing := by
  have hrun : (ManagedWorld.run pricedAssignment .inMemory retriedRun).refused = false ∧
      (ManagedWorld.run pricedAssignment .inMemory retriedRun).response.isSome = true := by decide +kernel
  obtain ⟨usage, husage⟩ := Option.isSome_iff_exists.mp hrun.2
  exact ⟨usage, usage_accounted pricedAssignment .inMemory retriedRun usage hrun.1 husage⟩

end AgentBridge.Runner
