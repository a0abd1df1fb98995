import AgentBridge.Runner.RetryExecution
import Mathlib.Data.List.Count

/-! Runs of the retry engine: what one step can do, the bounds and the accounts that every
step keeps, the order of its events, and its end. -/

namespace AgentBridge.Runner
variable {x : Execution} {e e' : Engine} {m : Move} {evs tr : List Event}

namespace Engine

/-- Everything a step can do: the next state and what is done on the way. -/
inductive Steps (x : Execution) (e : Engine) (m : Move) : Engine → List Event → Prop
  | watch (w : Watch) (h : w.value = e.shutdown.value) : Steps x e m { e with shutdown := w } []
  | closed (w : Watch) (h : w.value = e.shutdown.value) : Steps x e m { e with shutdown := w } [.closed]
  | signalled (w : Watch) (value : Bool) (hmove : m = .signal value) (h : w.value = value) :
    Steps x e m { e with shutdown := w } [.signalled value]
  | enter (call : Call) (hat : e.point = .on call .entering) (hvalue : e.shutdown.value = false) :
    Steps x e m (e.goto call .guarding) []
  | stop (call : Call) (stage : Stage) (w : Watch) (hat : e.point = .on call stage)
    (h : w.value = e.shutdown.value) :
    Steps x e m ({ e with shutdown := w }.abort .runnerShutdown) [.stopped]
  | pass (call : Call) (hat : e.point = .on call .guarding) :
    Steps x e m (e.goto call (.selecting false)) [.passed]
  | passAgain (call : Call) (polled : Bool) (hat : e.point = .on call (.rechecking polled)) :
    Steps x e m (e.goto call (.selecting polled)) [.passed]
  | fail (call : Call) (stage : Stage) (reason : RetryAbortReason) (hat : e.point = .on call stage) :
    Steps x e m (e.abort reason) [.failed reason]
  | begin (call : Call) (hat : e.point = .on call (.selecting false)) :
    Steps x e m (e.goto call (.selecting true)) (x.begins call)
  | tick (call : Call) (polled : Bool) (hat : e.point = .on call (.selecting polled)) :
    Steps x e m (e.goto call (.rechecking polled)) []
  | succeed (response : ProviderResponse) (hat : e.point = .on .attempt (.selecting true)) :
    Steps x e m { e with point := .ended (.success response e.reservation e.audits e.totalDelay) } []
  | giveUp (error : ProviderError) (hat : e.point = .on .attempt (.selecting true)) :
    Steps x e m { e with point := .ended (.finalFailure error e.audits e.totalDelay) } []
  | plan (error : ProviderError) (plan : RetryPlan) (hat : e.point = .on .attempt (.selecting true))
    (h : x.policy.plan x.sha256 error (nextOrdinal e.audits) e.totalDelay x.seed = some plan) :
    Steps x e m (e.goto (.sleep plan) .entering) [.planned plan]
  | slept (plan : RetryPlan) (hat : e.point = .on (.sleep plan) (.selecting true)) :
    Steps x e m
      { e with totalDelay := e.totalDelay.saturatingAdd plan.delay, point := .on (.reserve plan) .entering }
      [.delayed plan.delay]
  | granted (plan : RetryPlan) (reservation : UsageReservation)
    (hat : e.point = .on (.reserve plan) (.selecting true)) :
    Steps x e m
      { e with
          reservation := reservation
          audits := e.audits ++ [audit plan]
          point := .on .attempt .entering } [.reserved]
  | refused (plan : RetryPlan) (hat : e.point = .on (.reserve plan) (.selecting true)) :
    Steps x e m (e.abort .retryReservationRejected) [.refused]

theorem Steps.idle : Steps x e m e [] := .watch e.shutdown rfl

theorem resume_steps {call : Call} (hat : e.point = .on call (.selecting true)) (answer : Answer) :
    Steps x e m (x.resume e call answer).1 (x.resume e call answer).2 := by
  cases call with
  | attempt =>
    cases answer with
    | attempted result =>
      cases result with
      | ok response => exact .succeed response hat
      | error error =>
        cases h : x.policy.plan x.sha256 error (nextOrdinal e.audits) e.totalDelay x.seed with
        | none =>
          simp only [Execution.resume, h]
          exact .giveUp error hat
        | some plan =>
          simp only [Execution.resume, h]
          exact .plan error plan hat h
    | slept => exact .idle
    | reserved reservation => exact .idle
  | sleep plan =>
    cases answer with
    | slept => exact .slept plan hat
    | attempted result => exact .idle
    | reserved reservation => exact .idle
  | reserve plan =>
    cases answer with
    | reserved reservation =>
      cases reservation with
      | none => exact .refused plan hat
      | some reservation => exact .granted plan reservation hat
    | attempted result => exact .idle
    | slept => exact .idle

theorem step_steps (x : Execution) (e : Engine) (m : Move) : Steps x e m (x.step e m).1 (x.step e m).2 := by
  -- a move that does not fit the stage changes nothing
  cases m with
  | signal value =>
    cases hclosed : e.shutdown.closed with
    | true =>
      have hsame : e.shutdown.send value = e.shutdown := by simp [Watch.send, hclosed]
      simp only [Execution.step, hclosed, hsame]
      exact .idle
    | false =>
      simp only [Execution.step, hclosed]
      exact .signalled _ value rfl (by simp [Watch.send, hclosed])
  | close => exact .closed _ rfl
  | proceed =>
    simp only [Execution.step]
    split
    · next call hat =>
      cases hvalue : e.shutdown.value with
      | true =>
        simp only [checkShutdown, hvalue]
        exact .stop call .entering e.shutdown hat rfl
      | false =>
        simp only [checkShutdown, hvalue]
        exact .enter call hat hvalue
    · exact .idle
  | guard active current =>
    simp only [Execution.step]
    split
    · next call hat =>
      split
      · next reason _ => exact .fail call _ reason hat
      · exact .pass call hat
    · next call polled hat =>
      split
      · next reason _ => exact .fail call _ reason hat
      · exact .passAgain call polled hat
    · exact .idle
  | poll =>
    simp only [Execution.step]
    split
    · next call hat => exact .begin call hat
    · exact .idle
  | answer answer =>
    simp only [Execution.step]
    split
    · next call hat => exact resume_steps hat answer
    · exact .idle
  | changed =>
    simp only [Execution.step]
    split
    · next call polled hat =>
      split
      · exact .idle
      · exact .stop call _ e.shutdown hat rfl
      · next w hw =>
        have hvalue : w.value = e.shutdown.value := by
          unfold Watch.changed at hw
          split_ifs at hw
          · obtain rfl := Except.ok.inj (Option.some.inj hw)
            rfl
          · cases hw
        split
        · exact .stop call _ w hat hvalue
        · exact .watch w hvalue
    · exact .idle
  | tick =>
    simp only [Execution.step]
    split
    · next call polled hat => exact .tick call polled hat
    · exact .idle

/-! The bounds: they need the policy to be a validated one. -/

/-- What a call that follows a failed attempt knows of its plan. -/
def PlanFits (x : Execution) (e : Engine) : Point → Prop
  | .on (.sleep plan) _ =>
    plan.retryOrdinal = e.audits.length + 1 ∧ e.audits.length < x.policy.maxRetries ∧
      e.totalDelay.saturatingAdd plan.delay ≤ Duration.fromMillis x.policy.maxTotalDelayMs
  | .on (.reserve plan) _ =>
    plan.retryOrdinal = e.audits.length + 1 ∧ e.audits.length < x.policy.maxRetries
  | _ => True

structure Bounded (x : Execution) (e : Engine) : Prop where
  audits : e.audits.length ≤ x.policy.maxRetries
  total : e.totalDelay ≤ Duration.fromMillis x.policy.maxTotalDelayMs
  ordinals : e.audits.map RetryAudit.retryOrdinal = List.range' 1 e.audits.length
  fits : PlanFits x e e.point

theorem start_bounded (x : Execution) (reservation : UsageReservation) (w : Watch) :
    Bounded x (start reservation w) where
  audits := Nat.zero_le _
  total := Nat.zero_le _
  ordinals := rfl
  fits := trivial

theorem Bounded.within {e' : Engine} (hb : Bounded x e) (haudits : e'.audits = e.audits)
    (htotal : e'.totalDelay = e.totalDelay) (hfits : PlanFits x e' e'.point) : Bounded x e' where
  audits := haudits ▸ hb.audits
  total := htotal ▸ hb.total
  ordinals := haudits ▸ hb.ordinals
  fits := hfits

theorem planFits_goto {call : Call} {stage stage' : Stage} (hb : Bounded x e)
    (hat : e.point = .on call stage) : PlanFits x (e.goto call stage') (e.goto call stage').point := by
  have h := hb.fits
  rw [hat] at h
  cases call with
  | attempt => trivial
  | sleep plan => exact h
  | reserve plan => exact h

theorem nextOrdinal_eq (hv : x.policy.Valid) (hb : Bounded x e) :
    nextOrdinal e.audits = e.audits.length + 1 := by
  have hretries : x.policy.maxRetries ≤ 5 := hv.retries
  have haudits := hb.audits
  unfold nextOrdinal
  omega

theorem Bounded.steps (hv : x.policy.Valid) (hb : Bounded x e) (h : Steps x e m e' evs) : Bounded x e' := by
  cases h with
  | watch w hw => exact hb.within rfl rfl hb.fits
  | closed w hw => exact hb.within rfl rfl hb.fits
  | signalled w value hmove hw => exact hb.within rfl rfl hb.fits
  | enter call hat hvalue => exact hb.within rfl rfl (planFits_goto hb hat)
  | stop call stage w hat hw => exact hb.within rfl rfl trivial
  | pass call hat => exact hb.within rfl rfl (planFits_goto hb hat)
  | passAgain call polled hat => exact hb.within rfl rfl (planFits_goto hb hat)
  | fail call stage reason hat => exact hb.within rfl rfl trivial
  | begin call hat => exact hb.within rfl rfl (planFits_goto hb hat)
  | tick call polled hat => exact hb.within rfl rfl (planFits_goto hb hat)
  | succeed response hat => exact hb.within rfl rfl trivial
  | giveUp error hat => exact hb.within rfl rfl trivial
  | plan error plan hat hplan =>
    obtain ⟨hordinal, -, hretries, -, hspent⟩ := RetryPolicy.plan_eq_some hplan
    rw [nextOrdinal_eq hv hb] at hordinal hretries
    exact hb.within rfl rfl ⟨hordinal, hretries, hspent⟩
  | slept plan hat =>
    have hfits := hb.fits
    rw [hat] at hfits
    exact { audits := hb.audits, total := hfits.2.2, ordinals := hb.ordinals, fits := ⟨hfits.1, hfits.2.1⟩ }
  | granted plan reservation hat =>
    have hfits := hb.fits
    rw [hat] at hfits
    obtain ⟨hordinal, hroom⟩ := hfits
    have hlast : (audit plan).retryOrdinal = 1 + e.audits.length := by
      rw [Nat.add_comm]
      exact hordinal
    refine { audits := ?_, total := hb.total, ordinals := ?_, fits := trivial }
    · simpa using Nat.succ_le_of_lt hroom
    · simp [List.range'_concat, hb.ordinals, hlast]
  | refused plan hat => exact hb.within rfl rfl trivial

end Engine

/-! The events of a run. -/

namespace Event

/-- Events of the calls that `execute` makes and of what they answer. -/
def ofCall : Event → Bool
  | attempted | planned _ | delayed _ | reserving .. | reserved | refused => true
  | signalled _ | closed | passed | failed _ | stopped => false

/-- Events of the engine, as against those of its surroundings. -/
def own : Event → Bool
  | signalled _ | closed => false
  | _ => true

def begun : Event → Bool
  | attempted | reserving .. => true
  | _ => false

/-- A guard fails, the shutdown is seen, or a reservation is rejected. -/
def halts : Event → Bool
  | failed _ | stopped | refused => true
  | _ => false

def plan? : Event → Option RetryPlan
  | planned plan => some plan
  | _ => none

def delay? : Event → Option Duration
  | delayed delay => some delay
  | _ => none

end Event

def attempts (tr : List Event) : Nat := tr.count .attempted

def accepted (tr : List Event) : Nat := tr.count .reserved

def delays (tr : List Event) : List Duration := tr.filterMap Event.delay?

theorem delays_append_of (h : evs.filterMap Event.delay? = []) : delays (tr ++ evs) = delays tr := by
  simp [delays, h]

/-- The attempt of the round under way, by the last event of a call: at the start and after an
accepted reservation it is still to come. -/
def owed : Option Event → Nat
  | none | some .reserved => 0
  | some _ => 1

/-- An attempt begins right after a guard check that passes, first of all calls or after an accepted
reservation. -/
def AttemptOk (pre : List Event) (event : Event) : Prop :=
  event = .attempted → Trace.last Event.own pre = some .passed ∧
    (Trace.last Event.ofCall pre = none ∨ Trace.last Event.ofCall pre = some .reserved)

/-- Nothing begins after an event that halts, and no reservation is accepted. -/
def QuietOk (pre : List Event) (event : Event) : Prop :=
  event.begun ∨ event = .reserved → ∀ earlier ∈ pre, earlier.halts = false

/-- The accounts: what the engine has counted is what it has done. -/
structure Accounts (x : Execution) (e : Engine) (tr : List Event) : Prop where
  accepted : accepted tr = e.audits.length
  delays : e.totalDelay = (delays tr).sum
  plans : ∀ plan ∈ tr.filterMap Event.plan?, plan.delay ≤ Duration.fromMillis x.policy.maxDelayMs

def LastEvents (call own : Option Event) : Point → Prop
  | .on .attempt (.selecting true) | .on .attempt (.rechecking true) => call = some .attempted
  | .on .attempt stage =>
    (call = none ∨ call = some .reserved) ∧ (stage = .selecting false → own = some .passed)
  | .on _ _ => owed call = 1
  | .ended (.success ..) | .ended (.finalFailure ..) => owed call = 1
  | .ended (.aborted ..) => True

structure Ordered (e : Engine) (tr : List Event) : Prop where
  balance : attempts tr = accepted tr + owed (Trace.last Event.ofCall tr)
  attempt : Trace.Always AttemptOk tr
  quiet : Trace.Always QuietOk tr
  last : LastEvents (Trace.last Event.ofCall tr) (Trace.last Event.own tr) e.point
  running : ∀ call stage, e.point = .on call stage → ∀ event ∈ tr, event.halts = false

namespace Accounts

theorem start (x : Execution) (reservation : UsageReservation) (w : Watch) :
    Accounts x (Engine.start reservation w) [] where
  accepted := rfl
  delays := rfl
  plans := by simp

theorem keep (ha : Accounts x e tr) (haudits : e'.audits = e.audits) (htotal : e'.totalDelay = e.totalDelay)
    (hreserved : evs.count .reserved = 0) (hdelays : evs.filterMap Event.delay? = [])
    (hplans : evs.filterMap Event.plan? = []) : Accounts x e' (tr ++ evs) where
  accepted := by
    rw [haudits, ← ha.accepted]
    simp [Runner.accepted, hreserved]
  delays := by
    rw [htotal, delays_append_of hdelays]
    exact ha.delays
  plans := by
    rw [List.filterMap_append, hplans, List.append_nil]
    exact ha.plans

theorem steps (hv : x.policy.Valid) (hb : Engine.Bounded x e) (ha : Accounts x e tr)
    (h : Engine.Steps x e m e' evs) : Accounts x e' (tr ++ evs) := by
  cases h with
  | watch w hw => exact ha.keep rfl rfl rfl rfl rfl
  | closed w hw => exact ha.keep rfl rfl rfl rfl rfl
  | signalled w value hmove hw => exact ha.keep rfl rfl rfl rfl rfl
  | enter call hat hvalue => exact ha.keep rfl rfl rfl rfl rfl
  | stop call stage w hat hw => exact ha.keep rfl rfl rfl rfl rfl
  | pass call hat => exact ha.keep rfl rfl rfl rfl rfl
  | passAgain call polled hat => exact ha.keep rfl rfl rfl rfl rfl
  | fail call stage reason hat => exact ha.keep rfl rfl rfl rfl rfl
  | begin call hat => cases call <;> exact ha.keep rfl rfl rfl rfl rfl
  | tick call polled hat => exact ha.keep rfl rfl rfl rfl rfl
  | succeed response hat => exact ha.keep rfl rfl rfl rfl rfl
  | giveUp error hat => exact ha.keep rfl rfl rfl rfl rfl
  | refused plan hat => exact ha.keep rfl rfl rfl rfl rfl
  | plan error plan hat hplan =>
    obtain ⟨-, -, -, hdelay, -⟩ := RetryPolicy.plan_eq_some hplan
    refine { accepted := ?_, delays := ?_, plans := ?_ }
    · simpa [Runner.accepted, Engine.goto] using ha.accepted
    · rw [delays_append_of rfl]
      exact ha.delays
    · intro p hp
      rw [List.filterMap_append, List.mem_append] at hp
      rcases hp with hp | hp
      · exact ha.plans p hp
      · obtain rfl : p = plan := by simpa [Event.plan?] using hp
        rw [hdelay]
        exact RetryPolicy.delayFor_le
  | slept plan hat =>
    have hfits := hb.fits
    rw [hat] at hfits
    refine { accepted := ?_, delays := ?_, plans := ?_ }
    · simpa [Runner.accepted] using ha.accepted
    · rw [hv.saturatingAdd_eq hfits.2.2, ha.delays]
      simp [Runner.delays, Event.delay?]
    · simpa [Event.plan?] using ha.plans
  | granted plan reservation hat =>
    refine { accepted := ?_, delays := ?_, plans := ?_ }
    · simpa [Runner.accepted] using ha.accepted
    · rw [delays_append_of rfl]
      exact ha.delays
    · simpa [Event.plan?] using ha.plans

end Accounts

namespace Ordered

theorem start (reservation : UsageReservation) (w : Watch) :
    Ordered (Engine.start reservation w) [] where
  balance := rfl
  attempt := Trace.always_nil
  quiet := Trace.always_nil
  last := ⟨.inl rfl, nofun⟩
  running := by simp

theorem silent (ho : Ordered e tr)
    (hlast : LastEvents (Trace.last Event.ofCall tr) (Trace.last Event.own tr) e'.point)
    (hrunning : ∀ call stage, e'.point = .on call stage → ∀ event ∈ tr, event.halts = false) :
    Ordered e' (tr ++ []) := by
  rw [List.append_nil]
  exact { balance := ho.balance, attempt := ho.attempt, quiet := ho.quiet, last := hlast, running := hrunning }

theorem aside {event : Event} (ho : Ordered e tr) (hcall : event.ofCall = false)
    (hlast : LastEvents (Trace.last Event.ofCall tr) (Trace.last Event.own (tr ++ [event])) e'.point)
    (hrunning : ∀ call stage, e'.point = .on call stage → ∀ ev ∈ tr ++ [event], ev.halts = false) :
    Ordered e' (tr ++ [event]) where
  balance := by
    rw [Trace.last_concat_of_not _ hcall]
    cases event <;> first | exact absurd hcall (by decide) | simpa [attempts, accepted] using ho.balance
  attempt := by
    refine Trace.always_concat.mpr ⟨ho.attempt, ?_⟩
    rintro rfl
    exact absurd hcall (by decide)
  quiet := by
    refine Trace.always_concat.mpr ⟨ho.quiet, ?_⟩
    intro hevent
    cases event <;> simp_all [Event.ofCall, Event.begun]
  last := by
    rw [Trace.last_concat_of_not _ hcall]
    exact hlast
  running := hrunning

theorem ofCall {event : Event} (ho : Ordered e tr) (hcall : event.ofCall = true)
    (hattempt : event ≠ .attempted) (howed : owed (Trace.last Event.ofCall tr) = 1)
    (hquiet : ∀ ev ∈ tr, ev.halts = false)
    (hlast : LastEvents (some event) (Trace.last Event.own (tr ++ [event])) e'.point)
    (hrunning : ∀ call stage, e'.point = .on call stage → event.halts = false) :
    Ordered e' (tr ++ [event]) where
  balance := by
    have hbalance := ho.balance
    rw [howed] at hbalance
    rw [Trace.last_concat_of _ hcall]
    by_cases hreserved : event = .reserved
    · subst hreserved
      simpa [attempts, accepted, owed] using hbalance
    · have hone : owed (some event) = 1 := by
        unfold owed
        split <;> simp_all
      simpa [attempts, accepted, hone, hattempt, hreserved] using hbalance
  attempt := Trace.always_concat.mpr ⟨ho.attempt, fun h => absurd h hattempt⟩
  quiet := Trace.always_concat.mpr ⟨ho.quiet, fun _ => hquiet⟩
  last := by
    rw [Trace.last_concat_of _ hcall]
    exact hlast
  running := by
    intro call stage hat ev hev
    rcases List.mem_append.mp hev with hev | hev
    · exact hquiet ev hev
    · rw [List.mem_singleton.mp hev]
      exact hrunning call stage hat

theorem attempted (ho : Ordered e tr) (hquiet : ∀ ev ∈ tr, ev.halts = false)
    (hpassed : Trace.last Event.own tr = some .passed)
    (hcalls : Trace.last Event.ofCall tr = none ∨ Trace.last Event.ofCall tr = some .reserved)
    (hat : e'.point = .on .attempt (.selecting true)) : Ordered e' (tr ++ [.attempted]) where
  balance := by
    have howed : owed (Trace.last Event.ofCall tr) = 0 := by
      rcases hcalls with h | h
      · rw [h]
        rfl
      · rw [h]
        rfl
    have hbalance := ho.balance
    rw [howed] at hbalance
    rw [Trace.last_concat_of _ rfl]
    simpa [attempts, accepted, owed] using hbalance
  attempt := Trace.always_concat.mpr ⟨ho.attempt, fun _ => ⟨hpassed, hcalls⟩⟩
  quiet := Trace.always_concat.mpr ⟨ho.quiet, fun _ => hquiet⟩
  last := by
    rw [hat, Trace.last_concat_of _ rfl]
    rfl
  running := by
    intro call stage _ ev hev
    rcases List.mem_append.mp hev with hev | hev
    · exact hquiet ev hev
    · rw [List.mem_singleton.mp hev]
      rfl

theorem extend {event : Event} (hquiet : ∀ ev ∈ tr, ev.halts = false) (h : event.halts = false) :
    ∀ ev ∈ tr ++ [event], ev.halts = false := by
  intro ev hev
  rcases List.mem_append.mp hev with hev | hev
  · exact hquiet ev hev
  · rw [List.mem_singleton.mp hev]
    exact h

theorem steps (ho : Ordered e tr) (h : Engine.Steps x e m e' evs) : Ordered e' (tr ++ evs) := by
  have hlast := ho.last
  have hrunning := ho.running
  cases h with
  | watch w hw => exact ho.silent hlast hrunning
  | closed w hw =>
    refine ho.aside rfl ?_ fun call stage hat => extend (hrunning call stage hat) rfl
    rw [Trace.last_concat_of_not _ rfl]
    exact hlast
  | signalled w value hmove hw =>
    refine ho.aside rfl ?_ fun call stage hat => extend (hrunning call stage hat) rfl
    rw [Trace.last_concat_of_not _ rfl]
    exact hlast
  | enter call hat hvalue =>
    rw [hat] at hlast
    refine ho.silent ?_ fun _ _ _ => hrunning call _ hat
    cases call with
    | attempt => exact ⟨hlast.1, nofun⟩
    | sleep plan => exact hlast
    | reserve plan => exact hlast
  | stop call stage w hat hw => exact ho.aside rfl trivial nofun
  | pass call hat =>
    rw [hat] at hlast
    refine ho.aside rfl ?_ fun _ _ _ => extend (hrunning call _ hat) rfl
    cases call with
    | attempt => exact ⟨hlast.1, fun _ => Trace.last_concat_of _ rfl⟩
    | sleep plan => exact hlast
    | reserve plan => exact hlast
  | passAgain call polled hat =>
    rw [hat] at hlast
    refine ho.aside rfl ?_ fun _ _ _ => extend (hrunning call _ hat) rfl
    cases call with
    | attempt =>
      cases polled with
      | true => exact hlast
      | false => exact ⟨hlast.1, fun _ => Trace.last_concat_of _ rfl⟩
    | sleep plan => exact hlast
    | reserve plan => exact hlast
  | fail call stage reason hat => exact ho.aside rfl trivial nofun
  | begin call hat =>
    rw [hat] at hlast
    have hquiet := hrunning call _ hat
    cases call with
    | attempt => exact ho.attempted hquiet (hlast.2 rfl) hlast.1 rfl
    | sleep plan => exact ho.silent hlast fun _ _ _ => hquiet
    | reserve plan => exact ho.ofCall rfl nofun hlast hquiet rfl fun _ _ _ => rfl
  | tick call polled hat =>
    rw [hat] at hlast
    refine ho.silent ?_ fun _ _ _ => hrunning call _ hat
    cases call with
    | attempt =>
      cases polled with
      | true => exact hlast
      | false => exact ⟨hlast.1, nofun⟩
    | sleep plan => exact hlast
    | reserve plan => exact hlast
  | succeed response hat =>
    rw [hat] at hlast
    have hcall : Trace.last Event.ofCall tr = some .attempted := hlast
    exact ho.silent (by rw [hcall]; rfl) nofun
  | giveUp error hat =>
    rw [hat] at hlast
    have hcall : Trace.last Event.ofCall tr = some .attempted := hlast
    exact ho.silent (by rw [hcall]; rfl) nofun
  | plan error plan hat hplan =>
    rw [hat] at hlast
    have hcall : Trace.last Event.ofCall tr = some .attempted := hlast
    exact ho.ofCall rfl nofun (by rw [hcall]; rfl) (hrunning _ _ hat) rfl fun _ _ _ => rfl
  | slept plan hat =>
    rw [hat] at hlast
    exact ho.ofCall rfl nofun hlast (hrunning _ _ hat) rfl fun _ _ _ => rfl
  | granted plan reservation hat =>
    rw [hat] at hlast
    exact ho.ofCall rfl nofun hlast (hrunning _ _ hat) ⟨.inr rfl, nofun⟩ fun _ _ _ => rfl
  | refused plan hat =>
    rw [hat] at hlast
    exact ho.ofCall rfl nofun hlast (hrunning _ _ hat) trivial nofun

end Ordered

end AgentBridge.Runner
