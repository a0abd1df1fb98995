import AgentBridge.Runner.FinishedWork
import AgentBridge.Runner.Submission

/-! An assignment with the bridge and the control plane behind it. Each request of the task
is served by a bridge in whatever state the other clients have left it, or is lost on the way
there or back. What the control plane hears is about the leases of the task, and what the
task goes by is what the control plane said. -/

namespace AgentBridge.Runner
open Http

inductive WireEvent
  /-- The bridge asks the control plane for the task. -/
  | asked (call : ControlPlaneCall) (answer : BridgeResult ControlPlaneResponse)
  | did (event : AssignmentEvent)

def WireEvent.deed : WireEvent → Option AssignmentEvent
  | .asked .. => none
  | .did event => some event

/-- What the task itself did. -/
def deeds (tr : List WireEvent) : List AssignmentEvent := tr.filterMap WireEvent.deed

/-- A bridge as a request finds it. -/
structure Serving where
  deployment : Deployment
  env : Env
  state : AppState
  bearer : Option Text
  length : Nat
  /-- The reply reaches the runner. -/
  delivered : Bool

inductive WireMove
  /-- The lease request or submission in flight is served. -/
  | served (serving : Serving)
  /-- It does not reach the bridge. -/
  | dropped
  /-- Anything that is not an answer to it. -/
  | other (m : AssignmentMove)

def AssignmentMove.answers : AssignmentMove → Bool
  | .replied _ | .submitted _ => true
  | _ => false

/-- What a submission has come to for the runner. -/
def readSubmitReply (delivered : Bool) : Http.Reply → Reply WorkflowView
  | .workflow view => if delivered then .ok view else .lost
  | _ => .refused

/-- The move that an outcome at the bridge makes of the request in flight. -/
def answered (phase : AssignmentPhase) (delivered : Bool) (reply : Http.Reply) : AssignmentMove :=
  match phase with
  | .submitting .. => .submitted (readSubmitReply delivered reply)
  | _ => .replied (if delivered then readLeaseReply reply else .error .unanswered)

def unanswered (phase : AssignmentPhase) : AssignmentMove :=
  match phase with
  | .submitting .. => .submitted .refused
  | _ => .replied (.error .unanswered)

namespace AssignmentTask
variable (cfg : RunnerSettings) (t : AssignmentTask)

def request : AssignmentPhase → Option ClientRequest
  | .claiming => some (BridgeClient.acquireRequest "/file-leases/acquire".toList cfg.claims.repository
      (t.claimPaths cfg) cfg.claims.owner cfg.claims.ttlMs)
  | .leasing r _ =>
    some (BridgeClient.acquireRequest r.acquirePath r.repository r.paths t.provider.config.name r.ttlMs)
  | .executing _ _ _ (.renewingClaim claim) _ => some (BridgeClient.renewRequest claim cfg.claims.owner)
  | .executing _ _ _ (.renewingFileLease fileLease) _ =>
    some (BridgeClient.renewRequest fileLease t.provider.config.name)
  | .renewing claim _ _ => some (BridgeClient.renewRequest claim cfg.claims.owner)
  | .submitting _ product => some (BridgeClient.submitRequest t.workflow.plan.id t.provider.config.name product.content
      (.obj product.metadata))
  | .releasingFileLease fileLease _ => some (BridgeClient.releaseRequest fileLease t.provider.config.name)
  | .releasingClaim claim => some (BridgeClient.releaseRequest claim cfg.claims.owner)
  | _ => none

/-- A step of the task, with what the bridge asks on the way to it. -/
def carry (phase : AssignmentPhase) : WireMove → Option AssignmentPhase × List WireEvent
  | .served serving =>
    match t.request cfg phase with
    | none => (some phase, [])
    | some req =>
      let o := serve serving.deployment serving.env (req.sent serving.bearer serving.length) serving.state
      let r := t.step cfg phase (answered phase serving.delivered o.reply)
      (r.1, o.calls.map (fun call => .asked call (serving.env.controlPlane call)) ++ r.2.map .did)
  | .dropped => ((t.step cfg phase (unanswered phase)).1, (t.step cfg phase (unanswered phase)).2.map .did)
  | .other m => if m.answers then (some phase, []) else ((t.step cfg phase m).1, (t.step cfg phase m).2.map .did)

/-- The call of the control plane that a lease request comes to. -/
def call : AssignmentPhase → Option ControlPlaneCall
  | .claiming => some (acquireCall cfg.claims.repository (t.claimPaths cfg) cfg.claims.owner cfg.claims.ttlMs)
  | .leasing r _ => some (acquireCall r.repository r.paths t.provider.config.name r.ttlMs)
  | .executing _ _ _ (.renewingClaim claim) _ => some (renewCall claim cfg.claims.owner)
  | .executing _ _ _ (.renewingFileLease fileLease) _ => some (renewCall fileLease t.provider.config.name)
  | .renewing claim _ _ => some (renewCall claim cfg.claims.owner)
  | .releasingFileLease fileLease _ => some (releaseCall fileLease t.provider.config.name)
  | .releasingClaim claim => some (releaseCall claim cfg.claims.owner)
  | _ => none

/-- What a task that holds these leases has reason to ask for. -/
def Reason (holdings : List Holding) (call : ControlPlaneCall) : Prop :=
  (∃ name repository paths ttlMs, (name, repository, paths, ttlMs) ∈ t.demanded cfg ∧
    call = acquireCall repository paths name ttlMs) ∨
  (∃ name lease, (name, lease) ∈ holdings ∧ call = renewCall lease name) ∨
  ∃ name lease rest, holdings = (name, lease) :: rest ∧ call = releaseCall lease name

/-- The control plane answers that the lease was acquired: it shows the token, and does not say otherwise. -/
structure Grants (response : ControlPlaneResponse) (lease : LeaseHandle) : Prop where
  success : controlPlaneSuccess response.status = true
  acquired : findBool response.body "acquired" ≠ some false
  token : BridgeClient.fencingToken response.body = some lease.fencingToken

/-- The control plane has granted the lease. -/
def Granted (tr : List WireEvent) (holding : Holding) : Prop := ∃ response,
  .asked (acquireCall holding.2.repository holding.2.paths holding.1 holding.2.ttlMs) (.ok response) ∈ tr ∧
  Grants response holding.2

/-- What an event on the way needs of those before it. -/
def Carried (pre : List WireEvent) : WireEvent → Prop
  | .asked call _ => ∃ holdings, held (deeds pre) = some holdings ∧ t.Reason cfg holdings call
  | .did (.acquired owner lease) => lease.releasePath = "file-leases/release".toList ∧ ∃ response,
    pre.getLast? = some (.asked (acquireCall lease.repository lease.paths owner lease.ttlMs) (.ok response)) ∧
    Grants response lease
  | .did (.renewed owner lease true) => ∃ response,
    pre.getLast? = some (.asked (renewCall lease owner) (.ok response)) ∧ Confirmed response lease
  | .did (.submitted product true) => cfg.claims.enabled = true → ∃ claim response,
    pre.getLast? = some (.asked (renewCall claim cfg.claims.owner) (.ok response)) ∧ Confirmed response claim ∧
    t.Presents cfg product claim
  | .did _ => True

end AssignmentTask

/-- A run of an assignment on its way through bridge and control plane. -/
def runCarried (cfg : RunnerSettings) (t : AssignmentTask) (moves : List WireMove) :
    Option AssignmentPhase × List WireEvent :=
  Run.exec (Run.recorded fun phase m => phase.elim (none, []) fun phase => t.carry cfg phase m) (t.start cfg, []) moves

/-- The task has the provider work, or submits. -/
def AssignmentEvent.works : AssignmentEvent → Bool
  | .engine .attempted | .submitted .. => true
  | _ => false

section Deeds
variable {tr tr' : List WireEvent}

@[simp] theorem deeds_append : deeds (tr ++ tr') = deeds tr ++ deeds tr' := List.filterMap_append

@[simp] theorem deeds_did (events : List AssignmentEvent) : deeds (events.map .did) = events := by
  induction events with
  | nil => rfl
  | cons e events ih => simpa [deeds, WireEvent.deed] using ih

@[simp] theorem deeds_asked (calls : List ControlPlaneCall) (env : Env) :
    deeds (calls.map fun call => .asked call (env.controlPlane call)) = [] := by
  simp [deeds, WireEvent.deed]

end Deeds

namespace AssignmentTask
variable {cfg : RunnerSettings} {t : AssignmentTask} {phase : AssignmentPhase} {tr : List WireEvent}

theorem carry_steps (cfg : RunnerSettings) (t : AssignmentTask) (phase : AssignmentPhase) (m : WireMove) :
    ((t.carry cfg phase m).1 = some phase ∧ (t.carry cfg phase m).2 = []) ∨
    ∃ told, (t.carry cfg phase m).1 = (t.step cfg phase told).1 ∧
      deeds (t.carry cfg phase m).2 = (t.step cfg phase told).2 := by
  cases m with
  | served serving =>
    unfold carry
    cases t.request cfg phase with
    | none => exact .inl ⟨rfl, rfl⟩
    | some req => exact .inr ⟨answered phase serving.delivered _, rfl, by simp⟩
  | dropped => exact .inr ⟨unanswered phase, rfl, by simp [carry]⟩
  | other m =>
    unfold carry
    dsimp only
    split_ifs
    · exact .inl ⟨rfl, rfl⟩
    · exact .inr ⟨m, rfl, by simp⟩

theorem carried_run (cfg : RunnerSettings) (t : AssignmentTask) (moves : List WireMove) :
    ∃ told, (runCarried cfg t moves).1 = (runAssignment cfg t told).1 ∧
      deeds (runCarried cfg t moves).2 = (runAssignment cfg t told).2 := by
  refine Run.exec_invariant (P := fun r : Option AssignmentPhase × List WireEvent =>
    ∃ told, r.1 = (runAssignment cfg t told).1 ∧ deeds r.2 = (runAssignment cfg t told).2) ?_ ⟨[], rfl, rfl⟩ moves
  rintro ⟨phase, tr⟩ m ⟨told, hphase, hdeeds⟩
  dsimp only at hphase hdeeds
  cases phase with
  | none => exact ⟨told, hphase, by simpa [Run.recorded] using hdeeds⟩
  | some phase =>
    show ∃ told, (t.carry cfg phase m).1 = (runAssignment cfg t told).1 ∧
      deeds (tr ++ (t.carry cfg phase m).2) = (runAssignment cfg t told).2
    -- a served request is the move that its reply makes, whether or not it reaches the runner
    rcases carry_steps cfg t phase m with ⟨hstays, hnothing⟩ | ⟨move, hnext, hdid⟩
    · refine ⟨told, hstays.trans hphase, ?_⟩
      rw [hnothing, List.append_nil, hdeeds]
    · have hrun : runAssignment cfg t (told ++ [move]) =
          ((t.step cfg phase move).1, (runAssignment cfg t told).2 ++ (t.step cfg phase move).2) := by
        unfold runAssignment at hphase ⊢
        rw [Run.exec_append, Run.exec_cons, Run.exec_nil, Run.recorded, ← hphase]
        rfl
      refine ⟨told ++ [move], ?_, ?_⟩
      · rw [hrun, hnext]
      · rw [hrun, deeds_append, hdid, hdeeds]

theorem paths_of_built {repository : Option Text} {paths : List Text} {required : Bool} {ttlMs : Option Nat}
    {r : FileLeaseRequirement}
    (h : Orchestration.buildFileLeaseRequirement repository paths required ttlMs = .ok (some r)) :
    r.acquirePath = "/file-leases/acquire".toList ∧ r.releasePath = "/file-leases/release".toList := by
  unfold Orchestration.buildFileLeaseRequirement at h
  dsimp only at h
  split_ifs at h
  · cases h
  · obtain ⟨_, -, h⟩ := Except.bind_eq_ok.mp h
    cases h
  · obtain ⟨_, -, h⟩ := Except.bind_eq_ok.mp h
    obtain ⟨_, -, h⟩ := Except.bind_eq_ok.mp h
    cases h
    exact ⟨rfl, rfl⟩

/-- The lease requests of the phase go to the lease routes. -/
structure Routed (cfg : RunnerSettings) (t : AssignmentTask) (phase : AssignmentPhase) : Prop where
  leasing : ∀ r claim, phase = .leasing r claim →
    r.acquirePath = "/file-leases/acquire".toList ∧ r.releasePath = "/file-leases/release".toList
  held : ∀ holding ∈ t.holdings cfg phase.leases, holding.2.releasePath = "file-leases/release".toList

theorem exchanged_call {c : ControlPlaneCall} (hrouted : Routed cfg t phase) (hcall : t.call cfg phase = some c) :
    ∃ req, t.request cfg phase = some req ∧ ∀ (d : Deployment) (env : Env) (s : AppState) (bearer : Option Text)
      (length : Nat), Exchanged env c (serve d env (req.sent bearer length) s) := by
  cases phase with
  | claiming =>
    cases hcall
    exact ⟨_, rfl, fun d env s bearer length => exchanged_acquire rfl⟩
  | leasing r claim =>
    cases hcall
    refine ⟨_, rfl, fun d env s bearer length => exchanged_acquire ?_⟩
    rw [(hrouted.leasing r claim rfl).1]
    rfl
  | executing leases reserved engine beat renewals =>
    cases beat with
    | waiting => cases hcall
    | renewingClaim claim =>
      cases hcall
      exact ⟨_, rfl, fun d env s bearer length => exchanged_renew⟩
    | renewingFileLease fileLease =>
      cases hcall
      exact ⟨_, rfl, fun d env s bearer length => exchanged_renew⟩
  | renewing claim fileLease product =>
    cases hcall
    exact ⟨_, rfl, fun d env s bearer length => exchanged_renew⟩
  | releasingFileLease fileLease claim =>
    cases hcall
    exact ⟨_, rfl, fun d env s bearer length =>
      exchanged_release (hrouted.held (t.provider.config.name, fileLease) (fileLease_mem rfl))⟩
  | releasingClaim claim =>
    cases hcall
    exact ⟨_, rfl, fun d env s bearer length =>
      exchanged_release (hrouted.held (cfg.claims.owner, claim) (claim_mem rfl))⟩
  | reserving | reporting | submitting | completing | cancelling => cases hcall

/-- An event that goes by the reply to a call of the control plane. -/
def Answers (call : ControlPlaneCall) (reply : BridgeReply) : AssignmentEvent → Prop
  | .acquired owner lease => lease.releasePath = "file-leases/release".toList ∧
    call = acquireCall lease.repository lease.paths owner lease.ttlMs ∧
    ∃ response, reply = .ok response ∧ findBool response "acquired" ≠ some false ∧
      BridgeClient.fencingToken response = some lease.fencingToken
  | .renewed owner lease true => call = renewCall lease owner ∧ ∃ response, reply = .ok response ∧
    (findBool response "renewed").getD false = true ∧ BridgeClient.fencingToken response = some lease.fencingToken
  | .submitted _ true => False
  | _ => True

theorem renewed_eq_ok {lease : LeaseHandle} {reply : BridgeReply} (h : BridgeClient.renewed lease reply = .ok ()) :
    ∃ response, reply = .ok response ∧ (findBool response "renewed").getD false = true ∧
      BridgeClient.fencingToken response = some lease.fencingToken := by
  unfold BridgeClient.renewed at h
  obtain ⟨response, hreply, h⟩ := Except.bind_eq_ok.mp h
  cases htoken : BridgeClient.fencingToken response with
  | none =>
    rw [htoken] at h
    cases h
  | some token =>
    rw [htoken] at h
    dsimp only at h
    split_ifs at h with hrejected
    simp only [Bool.or_eq_true, Bool.not_eq_true', decide_eq_true_eq, not_or, Bool.not_eq_false, not_not] at hrejected
    exact ⟨response, hreply, hrejected.1, by rw [htoken, hrejected.2]⟩

theorem step_answers {c : ControlPlaneCall} (hrouted : Routed cfg t phase) (hcall : t.call cfg phase = some c)
    (reply : BridgeReply) : ∃ e, (t.step cfg phase (.replied reply)).2 = [e] ∧ Answers c reply e := by
  cases phase with
  | claiming =>
    cases hcall
    cases hacquired : BridgeClient.acquired "/file-leases/release".toList cfg.claims.repository (t.claimPaths cfg)
        cfg.claims.ttlMs reply with
    | error e => exact ⟨.denied cfg.claims.owner, by rw [step, hacquired], trivial⟩
    | ok claim =>
      obtain ⟨response, token, hreply, hflag, htoken, rfl⟩ := acquired_eq_ok hacquired
      exact ⟨.acquired cfg.claims.owner _, by rw [step, hacquired], rfl, rfl, response, hreply, hflag, htoken⟩
  | leasing r claim =>
    cases hcall
    cases hacquired : BridgeClient.acquired r.releasePath r.repository r.paths r.ttlMs reply with
    | error e => exact ⟨.denied t.provider.config.name, by rw [step, hacquired], trivial⟩
    | ok fileLease =>
      obtain ⟨response, token, hreply, hflag, htoken, rfl⟩ := acquired_eq_ok hacquired
      refine ⟨.acquired t.provider.config.name _, by rw [step, hacquired], ?_, rfl, response, hreply, hflag, htoken⟩
      rw [(hrouted.leasing r claim rfl).2]
      rfl
  | executing leases reserved engine beat renewals =>
    cases beat with
    | waiting => cases hcall
    | renewingClaim claim =>
      cases hcall
      cases hrenewed : BridgeClient.renewed claim reply with
      | error e => exact ⟨.renewed cfg.claims.owner claim false, by rw [step, hrenewed], trivial⟩
      | ok _ => exact ⟨.renewed cfg.claims.owner claim true, by rw [step, hrenewed], rfl, renewed_eq_ok hrenewed⟩
    | renewingFileLease fileLease =>
      cases hcall
      cases hrenewed : BridgeClient.renewed fileLease reply with
      | error e => exact ⟨.renewed t.provider.config.name fileLease false, by rw [step, hrenewed], trivial⟩
      | ok _ =>
        exact ⟨.renewed t.provider.config.name fileLease true, by rw [step, hrenewed], rfl, renewed_eq_ok hrenewed⟩
  | renewing claim fileLease product =>
    cases hcall
    cases hrenewed : BridgeClient.renewed claim reply with
    | error e => exact ⟨.renewed cfg.claims.owner claim false, by rw [step, hrenewed], trivial⟩
    | ok _ => exact ⟨.renewed cfg.claims.owner claim true, by rw [step, hrenewed], rfl, renewed_eq_ok hrenewed⟩
  | releasingFileLease fileLease claim => exact ⟨_, rfl, trivial⟩
  | releasingClaim claim => exact ⟨_, rfl, trivial⟩
  | reserving | reporting | submitting | completing | cancelling => cases hcall

/-- Events that go by nothing the control plane said. -/
def Unfounded (e : AssignmentEvent) : Prop := ∀ call, Answers call (.error .unanswered) e

theorem carried_did {e : AssignmentEvent} {c : ControlPlaneCall} {reply : BridgeReply} (h : Answers c reply e)
    (hreply : ∀ body, reply = .ok body → ∃ response, tr.getLast? = some (.asked c (.ok response)) ∧
      controlPlaneSuccess response.status = true ∧ response.body = body) : t.Carried cfg tr (.did e) := by
  cases e with
  | acquired owner lease =>
    obtain ⟨hpath, rfl, body, hok, hflag, htoken⟩ := h
    obtain ⟨response, hlast, hsuccess, rfl⟩ := hreply body hok
    exact ⟨hpath, response, hlast, hsuccess, hflag, htoken⟩
  | renewed owner lease ok =>
    cases ok with
    | false => trivial
    | true =>
      obtain ⟨rfl, body, hok, hrenewed, htoken⟩ := h
      obtain ⟨response, hlast, hsuccess, rfl⟩ := hreply body hok
      refine ⟨response, hlast, hsuccess, ?_⟩
      have hfound : findU64 response.body "fencing_token" = some lease.fencingToken :=
        (Option.filter_eq_some_iff.mp htoken).1
      simp [AssignmentClaims.confirms, hrenewed, hfound]
  | submitted product accepted =>
    cases accepted with
    | false => trivial
    | true => exact h.elim
  | denied | released | reserved | engine | reported | completed | cancelled => trivial

theorem carried_unfounded {e : AssignmentEvent} (h : Unfounded e) : t.Carried cfg tr (.did e) :=
  carried_did (h (.release [] 0)) fun _ h => by cases h

theorem always_unfounded {events : List AssignmentEvent} (htr : Trace.Always (t.Carried cfg) tr)
    (h : ∀ e ∈ events, Unfounded e) : Trace.Always (t.Carried cfg) (tr ++ events.map .did) := by
  induction events using List.reverseRecOn with
  | nil => simpa using htr
  | append_singleton events e ih =>
    have hbefore := ih fun e' he' => h e' (List.mem_append_left _ he')
    rw [List.map_append, ← List.append_assoc]
    exact Trace.always_concat.mpr ⟨hbefore, carried_unfounded (h e (by simp))⟩

theorem step_unanswered (cfg : RunnerSettings) (t : AssignmentTask) (phase : AssignmentPhase) :
    ∀ e ∈ (t.step cfg phase (unanswered phase)).2, Unfounded e := by
  cases phase with
  | executing leases reserved engine beat renewals =>
    cases beat with
    | waiting => exact List.forall_mem_nil _
    | renewingClaim | renewingFileLease => exact List.forall_mem_singleton.mpr fun _ => trivial
  | reserving | reporting | completing | cancelling => exact List.forall_mem_nil _
  | claiming | leasing | renewing | submitting | releasingFileLease | releasingClaim =>
    exact List.forall_mem_singleton.mpr fun _ => trivial

theorem step_other {m : AssignmentMove} (h : m.answers = false) :
    ∀ e ∈ (t.step cfg phase m).2, Unfounded e := by
  unfold step
  split
  -- the phases that await a reply of the bridge, which the move is not
  case h_1 | h_2 | h_7 | h_8 | h_11 | h_12 | h_15 | h_16 => cases h
  case h_3 reply shutdown =>
    cases reply with
    | ok answer => exact List.forall_mem_singleton.mpr fun _ => trivial
    | refused => exact List.forall_mem_nil _
    | lost => exact List.forall_mem_singleton.mpr fun _ => trivial
  case h_4 =>
    split_ifs
    · intro e he
      obtain ⟨event, -, rfl⟩ := List.mem_map.mp he
      exact fun _ => trivial
    · exact List.forall_mem_nil _
  case h_5 =>
    intro e he
    dsimp only at he
    split_ifs at he
    · rw [List.mem_singleton.mp he]
      exact fun _ => trivial
    · exact absurd he List.not_mem_nil
  case h_6 =>
    split
    · split_ifs <;> exact List.forall_mem_nil _
    · exact List.forall_mem_nil _
  case h_9 =>
    split
    · exact List.forall_mem_nil _
    · split <;> exact List.forall_mem_nil _
  case h_10 leases product ok =>
    obtain ⟨claim, fileLease⟩ := leases
    cases ok with
    | false => exact List.forall_mem_singleton.mpr fun _ => trivial
    | true =>
      cases claim with
      | none | some => exact List.forall_mem_singleton.mpr fun _ => trivial
  case h_13 | h_14 => exact List.forall_mem_singleton.mpr fun _ => trivial
  case h_17 => exact List.forall_mem_nil _

theorem op_eq_opened {e : AssignmentEvent} {holding : Holding} (h : e.op = some (.opened holding)) :
    e = .acquired holding.1 holding.2 := by
  cases e with
  | acquired owner lease =>
    cases h
    rfl
  | denied | renewed | released | reserved | engine | reported | submitted | completed | cancelled => cases h

theorem granted_of_held {holdings : List Holding} {holding : Holding} (htr : Trace.Always (t.Carried cfg) tr)
    (hheld : held (deeds tr) = some holdings) (hmem : holding ∈ holdings) :
    holding.2.releasePath = "file-leases/release".toList ∧ Granted tr holding := by
  have hopened := Brackets.opened_of_mem hheld hmem
  obtain ⟨e, he, hop⟩ := List.mem_filterMap.mp hopened
  obtain ⟨x, hx, hdeed⟩ := List.mem_filterMap.mp he
  -- the lease was opened by an event of the task, and the control plane spoke directly before it
  cases x with
  | asked => cases hdeed
  | did event =>
    obtain rfl := Option.some.inj hdeed
    rw [op_eq_opened hop] at hx
    obtain ⟨pre, post, rfl⟩ := List.append_of_mem hx
    obtain ⟨hpath, response, hlast, hgrants⟩ := htr pre _ post rfl
    exact ⟨hpath, response, List.mem_append_left _ (List.mem_of_getLast? hlast), hgrants⟩

theorem routed_of_kept (hbuilt : ∀ r, t.requirement = some r →
      r.acquirePath = "/file-leases/acquire".toList ∧ r.releasePath = "/file-leases/release".toList)
    (hkept : Kept cfg t phase (deeds tr)) (htr : Trace.Always (t.Carried cfg) tr) : Routed cfg t phase := by
  refine ⟨?_, fun holding hmem => (granted_of_held htr hkept.held hmem).1⟩
  rintro r claim rfl
  exact hbuilt r hkept.stands.1

theorem reason_of_call {c : ControlPlaneCall} (hkept : Kept cfg t phase (deeds tr))
    (hcall : t.call cfg phase = some c) : t.Reason cfg (t.holdings cfg phase.leases) c := by
  have hstands := hkept.stands
  cases phase with
  | claiming =>
    cases hcall
    refine .inl ⟨_, _, _, _, ?_, rfl⟩
    rw [demanded, claimTerms, if_pos hstands.1]
    exact List.mem_append_right _ List.mem_cons_self
  | leasing r claim =>
    cases hcall
    refine .inl ⟨_, _, _, _, ?_, rfl⟩
    rw [demanded, hstands.1]
    exact List.mem_append_left _ List.mem_cons_self
  | executing leases reserved engine beat renewals =>
    obtain ⟨-, -, -, hbeat⟩ := hstands
    cases beat with
    | waiting => cases hcall
    | renewingClaim claim =>
      cases hcall
      exact .inr (.inl ⟨_, _, claim_mem hbeat, rfl⟩)
    | renewingFileLease fileLease =>
      cases hcall
      exact .inr (.inl ⟨_, _, fileLease_mem hbeat, rfl⟩)
  | renewing claim fileLease product =>
    cases hcall
    exact .inr (.inl ⟨_, _, claim_mem rfl, rfl⟩)
  | releasingFileLease fileLease claim =>
    cases hcall
    exact .inr (.inr ⟨_, _, _, rfl, rfl⟩)
  | releasingClaim claim =>
    cases hcall
    exact .inr (.inr ⟨_, _, _, rfl, rfl⟩)
  | reserving | reporting | submitting | completing | cancelling => cases hcall

theorem answered_of_call {c : ControlPlaneCall} (hcall : t.call cfg phase = some c) (delivered : Bool)
    (reply : Http.Reply) :
    answered phase delivered reply = .replied (if delivered then readLeaseReply reply else .error .unanswered) := by
  cases phase with
  | submitting => cases hcall
  | claiming | leasing | reserving | executing | reporting | renewing | completing | cancelling | releasingFileLease
  | releasingClaim => rfl

theorem call_of_request {req : ClientRequest} (h : t.request cfg phase = some req) :
    (∃ leases product, phase = .submitting leases product) ∨ ∃ c, t.call cfg phase = some c := by
  cases phase with
  | submitting leases product => exact .inl ⟨leases, product, rfl⟩
  | executing leases reserved engine beat renewals =>
    cases beat with
    | waiting => cases h
    | renewingClaim | renewingFileLease => exact .inr ⟨_, rfl⟩
  | claiming | leasing | renewing | releasingFileLease | releasingClaim => exact .inr ⟨_, rfl⟩
  | reserving | reporting | completing | cancelling => cases h

theorem readAnswer_eq_ok {answer : BridgeResult ControlPlaneResponse} {body : Json} (h : readAnswer answer = .ok body) :
    ∃ response, answer = .ok response ∧ controlPlaneSuccess response.status = true ∧ response.body = body := by
  cases answer with
  | error e => cases h
  | ok response =>
    rw [readAnswer] at h
    split_ifs at h with hsuccess
    exact ⟨response, rfl, hsuccess, Except.ok.inj h⟩

theorem carried_exchange {env : Env} {c : ControlPlaneCall} {o : Outcome} {e : AssignmentEvent} {delivered : Bool}
    (htr : Trace.Always (t.Carried cfg) tr) (hasked : ∀ answer, t.Carried cfg tr (.asked c answer))
    (hexchanged : Exchanged env c o)
    (he : Answers c (if delivered then readLeaseReply o.reply else .error .unanswered) e) :
    Trace.Always (t.Carried cfg)
      (tr ++ (o.calls.map (fun call => .asked call (env.controlPlane call)) ++ [.did e])) := by
  rcases hexchanged with ⟨hcalls, hreply⟩ | ⟨hcalls, hreply⟩
  -- the bridge refused by itself, and its reply counts as no answer, delivered or not
  · rw [hcalls]
    refine Trace.always_concat.mpr ⟨htr, carried_did he ?_⟩
    intro body hbody
    rw [hreply, ite_self] at hbody
    cases hbody
  · rw [hcalls, ← List.append_assoc]
    refine Trace.always_concat.mpr ⟨Trace.always_concat.mpr ⟨htr, hasked _⟩, carried_did he ?_⟩
    intro body hbody
    split_ifs at hbody
    rw [hreply] at hbody
    obtain ⟨response, hanswer, hsuccess, hsame⟩ := readAnswer_eq_ok hbody
    refine ⟨response, ?_, hsuccess, hsame⟩
    rw [List.getLast?_append_of_ne_nil _ (by simp), List.map_singleton, hanswer]
    rfl

variable (cfg t) in
theorem step_submitting (leases : Leases) (product : Product) (reply : Reply WorkflowView) :
    ∃ accepted, (t.step cfg (.submitting leases product) (.submitted reply)).2 = [.submitted product accepted] ∧
      (accepted = true → reply ≠ .refused) := by
  cases reply with
  | ok updated =>
    refine ⟨true, ?_, by rintro _ ⟨⟩⟩
    rw [step]
    split_ifs <;> rfl
  | refused => exact ⟨false, rfl, by rintro ⟨⟩⟩
  | lost => exact ⟨true, rfl, by rintro _ ⟨⟩⟩

theorem readSubmitReply_ne {delivered : Bool} {reply : Http.Reply} (h : readSubmitReply delivered reply ≠ .refused) :
    ∃ view, reply = .workflow view := by
  cases reply with
  | workflow view => exact ⟨view, rfl⟩
  | _ => exact absurd rfl h

/-- A submission at the bridge: what it asks, and whether it accepts. -/
theorem carry_submitting (cfg : RunnerSettings) (t : AssignmentTask) (leases : Leases) (product : Product)
    (serving : Serving) : ∃ accepted,
    (t.carry cfg (.submitting leases product) (.served serving)).2 =
      (serve serving.deployment serving.env ((BridgeClient.submitRequest t.workflow.plan.id t.provider.config.name
        product.content (.obj product.metadata)).sent serving.bearer serving.length) serving.state).calls.map
          (fun call => .asked call (serving.env.controlPlane call)) ++ [.did (.submitted product accepted)] ∧
    (accepted = true → ∃ view, (serve serving.deployment serving.env ((BridgeClient.submitRequest t.workflow.plan.id
      t.provider.config.name product.content (.obj product.metadata)).sent serving.bearer serving.length)
        serving.state).reply = .workflow view) := by
  let o := serve serving.deployment serving.env ((BridgeClient.submitRequest t.workflow.plan.id t.provider.config.name
    product.content (.obj product.metadata)).sent serving.bearer serving.length) serving.state
  obtain ⟨accepted, hevents, haccepted⟩ := step_submitting cfg t leases product
    (readSubmitReply serving.delivered o.reply)
  refine ⟨accepted, ?_, fun h => readSubmitReply_ne (haccepted h)⟩
  show _ ++ (t.step cfg (.submitting leases product) (.submitted (readSubmitReply serving.delivered o.reply))).2.map
    WireEvent.did = _
  rw [hevents]
  rfl

theorem terms_of_covers {leases : Leases} {claim : LeaseHandle} (hcovers : Covers cfg t leases)
    (h : leases.claim = some claim) : terms (cfg.claims.owner, claim) =
      (cfg.claims.owner, cfg.claims.repository, t.claimPaths cfg, cfg.claims.ttlMs) := by
  have hclaim := hcovers.claim
  rw [h, claimTerms] at hclaim
  split_ifs at hclaim
  · exact List.head_eq_of_cons_eq hclaim
  · cases hclaim

theorem carried_submission {leases : Leases} {product : Product}
    (hcanonical : Text.toAsciiLowercase (Text.trim cfg.claims.repository) = Text.trim cfg.claims.repository)
    (hid : AssignmentClaims.validWorkflowId t.workflow.plan.id = true)
    (hkept : Kept cfg t (.submitting leases product) (deeds tr)) (htr : Trace.Always (t.Carried cfg) tr)
    (serving : Serving) :
    Trace.Always (t.Carried cfg) (tr ++ (t.carry cfg (.submitting leases product) (.served serving)).2) := by
  obtain ⟨hcovers, -, -, hclaim⟩ := hkept.stands
  obtain ⟨accepted, hcarry, hview⟩ := carry_submitting cfg t leases product serving
  rw [hcarry]
  generalize ho : serve serving.deployment serving.env ((BridgeClient.submitRequest t.workflow.plan.id
    t.provider.config.name product.content (.obj product.metadata)).sent serving.bearer serving.length)
      serving.state = o at hview ⊢
  cases hsome : leases.claim with
  | none =>
    rw [hsome] at hclaim
    have hcalls : o.calls = [] := by
      rw [← ho]
      exact unclaimed_submission hid hclaim
    rw [hcalls]
    refine Trace.always_concat.mpr ⟨htr, ?_⟩
    cases accepted with
    | false => trivial
    | true => exact fun henabled => absurd hsome (claim_of_covers hcovers henabled)
  | some claim =>
    rw [hsome] at hclaim
    -- the bridge renews the claim before it submits, so the call stands directly before the event
    rcases claimed_submission hid hcanonical (terms_of_covers hcovers hsome) hclaim.2 ho with
      ⟨hcalls, hrefused⟩ | ⟨hcalls, hconfirmed⟩
    · rw [hcalls]
      refine Trace.always_concat.mpr ⟨htr, ?_⟩
      cases accepted with
      | false => trivial
      | true =>
        obtain ⟨view, hreply⟩ := hview rfl
        exact absurd hreply (hrefused view)
    · rw [hcalls, ← List.append_assoc]
      refine Trace.always_concat.mpr ⟨Trace.always_concat.mpr
        ⟨htr, _, hkept.held, .inr (.inl ⟨_, _, claim_mem hsome, rfl⟩)⟩, ?_⟩
      cases accepted with
      | false => trivial
      | true =>
        obtain ⟨view, hreply⟩ := hview rfl
        obtain ⟨response, hanswer, hresponse⟩ := hconfirmed view hreply
        refine fun _ => ⟨claim, response, ?_, hresponse, hclaim.2⟩
        rw [List.getLast?_append_of_ne_nil _ (by simp), List.map_singleton, hanswer]
        rfl

/-- A step of the task on its way: it goes by no reply, it submits, or it goes by the reply to a lease request. -/
theorem carry_cases (hrouted : Routed cfg t phase) (m : WireMove) :
    (∃ events : List AssignmentEvent, (t.carry cfg phase m).2 = events.map .did ∧ ∀ e ∈ events, Unfounded e) ∨
    (∃ leases product serving, phase = .submitting leases product ∧ m = .served serving) ∨
    ∃ (c : ControlPlaneCall) (env : Env) (o : Outcome) (delivered : Bool) (e : AssignmentEvent),
      t.call cfg phase = some c ∧ Exchanged env c o ∧
      Answers c (if delivered then readLeaseReply o.reply else .error .unanswered) e ∧
      (t.carry cfg phase m).2 = o.calls.map (fun call => .asked call (env.controlPlane call)) ++ [.did e] := by
  cases m with
  | dropped => exact .inl ⟨_, rfl, step_unanswered cfg t phase⟩
  | other m =>
    unfold carry
    dsimp only
    split_ifs with hanswers
    · exact .inl ⟨[], rfl, List.forall_mem_nil _⟩
    · exact .inl ⟨_, rfl, step_other (by simpa using hanswers)⟩
  | served serving =>
    cases hrequest : t.request cfg phase with
    | none =>
      rw [carry, hrequest]
      exact .inl ⟨[], rfl, List.forall_mem_nil _⟩
    | some req =>
      rcases call_of_request hrequest with ⟨leases, product, rfl⟩ | ⟨c, hcall⟩
      · exact .inr (.inl ⟨leases, product, serving, rfl, rfl⟩)
      · obtain ⟨req', hrequest', hexchanged⟩ := exchanged_call hrouted hcall
        rw [hrequest] at hrequest'
        obtain rfl := Option.some.inj hrequest'
        obtain ⟨e, hevents, he⟩ := step_answers hrouted hcall (if serving.delivered then readLeaseReply (serve
          serving.deployment serving.env (req.sent serving.bearer serving.length) serving.state).reply else
            .error .unanswered)
        refine .inr (.inr ⟨c, _, _, _, e, hcall, hexchanged _ serving.env _ _ _, he, ?_⟩)
        rw [carry, hrequest]
        dsimp only
        rw [answered_of_call hcall, hevents]
        rfl

theorem carried_carry
    (hcanonical : Text.toAsciiLowercase (Text.trim cfg.claims.repository) = Text.trim cfg.claims.repository)
    (hid : AssignmentClaims.validWorkflowId t.workflow.plan.id = true)
    (hbuilt : ∀ r, t.requirement = some r →
      r.acquirePath = "/file-leases/acquire".toList ∧ r.releasePath = "/file-leases/release".toList)
    (hkept : Kept cfg t phase (deeds tr)) (htr : Trace.Always (t.Carried cfg) tr) (m : WireMove) :
    Trace.Always (t.Carried cfg) (tr ++ (t.carry cfg phase m).2) := by
  rcases carry_cases (routed_of_kept hbuilt hkept htr) m with ⟨events, hevents, hunfounded⟩ |
    ⟨leases, product, serving, rfl, rfl⟩ | ⟨c, env, o, delivered, e, hcall, hexchanged, he, hevents⟩
  · rw [hevents]
    exact always_unfounded htr hunfounded
  · exact carried_submission hcanonical hid hkept htr serving
  · rw [hevents]
    exact carried_exchange htr (fun answer => ⟨_, hkept.held, reason_of_call hkept hcall⟩) hexchanged he

theorem runCarried_concat (cfg : RunnerSettings) (t : AssignmentTask) (moves : List WireMove) (m : WireMove) :
    runCarried cfg t (moves ++ [m]) = Run.recorded
      (fun phase m => phase.elim (none, []) fun phase => t.carry cfg phase m) (runCarried cfg t moves) m := by
  unfold runCarried
  rw [Run.exec_append, Run.exec_cons, Run.exec_nil]

theorem carried_always
    (hcanonical : Text.toAsciiLowercase (Text.trim cfg.claims.repository) = Text.trim cfg.claims.repository)
    (hid : AssignmentClaims.validWorkflowId t.workflow.plan.id = true)
    (hbuilt : ∀ r, t.requirement = some r →
      r.acquirePath = "/file-leases/acquire".toList ∧ r.releasePath = "/file-leases/release".toList)
    (moves : List WireMove) : Trace.Always (t.Carried cfg) (runCarried cfg t moves).2 := by
  -- the events of a run grow at their end
  induction moves using List.reverseRecOn with
  | nil => exact Trace.always_nil
  | append_singleton moves m ih =>
    obtain ⟨told, hphase, hdeeds⟩ := carried_run cfg t moves
    have hkeeps := keeps_run cfg t told
    rw [← hphase, ← hdeeds] at hkeeps
    rw [runCarried_concat]
    generalize runCarried cfg t moves = r at ih hkeeps
    obtain ⟨phase, tr⟩ := r
    cases phase with
    | none => simpa [Run.recorded] using ih
    | some phase => exact carried_carry hcanonical hid hbuilt hkeeps ih m

theorem keeps_licensed {tr : List AssignmentEvent} {phase : Option AssignmentPhase} (h : Keeps cfg t phase tr) :
    Trace.Always (t.Licensed cfg) tr := by
  cases phase with
  | none => exact h.2.2
  | some phase => exact h.licensed

theorem equipped_of_works {tr : List AssignmentEvent} {e : AssignmentEvent} (h : t.Licensed cfg tr e)
    (he : e.works = true) : t.Equipped cfg tr := by
  cases e with
  | engine event =>
    cases event with
    | attempted => exact h.1
    | _ => cases he
  | submitted product accepted => exact h.1
  | _ => cases he

theorem deeds_split {pre post : List WireEvent} {e : AssignmentEvent} :
    deeds (pre ++ .did e :: post) = deeds pre ++ e :: deeds post := by
  simp [deeds, WireEvent.deed]

theorem canonical_of_valid (h : cfg.claims.Valid) :
    Text.toAsciiLowercase (Text.trim cfg.claims.repository) = Text.trim cfg.claims.repository := by
  calc Text.toAsciiLowercase (Text.trim cfg.claims.repository)
    _ = Text.trim (Text.toAsciiLowercase (Text.trim cfg.claims.repository)) := by
      rw [Text.trim_toAsciiLowercase, Text.trim_trim]
    _ = Text.trim cfg.claims.repository := by rw [h.canonical]

theorem built_of_plan {repository : Option Text} {paths : List Text} {required : Bool} {ttlMs : Option Nat}
    (hplan : Orchestration.buildFileLeaseRequirement repository paths required ttlMs = .ok t.workflow.plan.fileLease) :
    ∀ r, t.requirement = some r →
      r.acquirePath = "/file-leases/acquire".toList ∧ r.releasePath = "/file-leases/release".toList := by
  intro r hr
  rw [(Option.filter_eq_some_iff.mp hr).1] at hplan
  exact paths_of_built hplan

/-- An assignment that goes its way through bridges in any state is an assignment, the control plane hears of it what
the task has reason to ask for, the task goes by what the control plane said, and whenever it works or submits, the
control plane has granted every lease that is demanded. -/
theorem assignment_carried {var : Text → Option Text} {repository : Option Text} {paths : List Text} {required : Bool}
    {ttlMs : Option Nat} (hclaims : ClaimConfig.fromEnv var = .ok cfg.claims)
    (hid : AssignmentClaims.validWorkflowId t.workflow.plan.id = true)
    (hplan : Orchestration.buildFileLeaseRequirement repository paths required ttlMs = .ok t.workflow.plan.fileLease)
    (moves : List WireMove) :
    (∃ told, (runCarried cfg t moves).1 = (runAssignment cfg t told).1 ∧
      deeds (runCarried cfg t moves).2 = (runAssignment cfg t told).2) ∧
    Trace.Always (t.Carried cfg) (runCarried cfg t moves).2 ∧
    ∀ pre e post, (runCarried cfg t moves).2 = pre ++ .did e :: post → e.works = true →
      ∃ holdings, held (deeds pre) = some holdings ∧ holdings.map terms = t.demanded cfg ∧
        ∀ holding ∈ holdings, Granted pre holding := by
  have hcanonical := canonical_of_valid (ClaimConfig.fromEnv_valid hclaims)
  have halways := carried_always hcanonical hid (built_of_plan hplan) moves
  obtain ⟨told, hphase, hdeeds⟩ := carried_run cfg t moves
  refine ⟨⟨told, hphase, hdeeds⟩, halways, fun pre e post hsplit he => ?_⟩
  have hlicensed : t.Licensed cfg (deeds pre) e := by
    have hkeeps := keeps_licensed (keeps_run cfg t told)
    rw [← hdeeds, hsplit, deeds_split] at hkeeps
    exact hkeeps _ _ _ rfl
  have hpre : Trace.Always (t.Carried cfg) pre := by
    intro pre' e' post' hsplit'
    exact halways pre' e' (post' ++ .did e :: post) (by rw [hsplit, hsplit']; simp)
  obtain ⟨holdings, hheld, hterms⟩ := equipped_of_works hlicensed he
  exact ⟨holdings, hheld, hterms, fun holding hmem => (granted_of_held hpre hheld hmem).2⟩

end AssignmentTask

/-! A replica with claims that works for `alpha` under a file lease. -/

def claimingVar (key : Text) : Option Text :=
  if key = "AI_AGENT_RUNNER_DISTRIBUTED_CLAIMS".toList then some "true".toList
  else if key = "HOSTNAME".toList then some "replica-0".toList
  else none

def claimingClaims : ClaimConfig where
  enabled := true
  replicaCount := 1
  instanceId := "replica-0".toList
  owner := "runner/replica-0".toList
  repository := defaultClaimRepository
  ttlMs := 60000

def claimingSettings : RunnerSettings where
  sha256 := duoConfig.sha256
  retryPolicy := duoConfig.retryPolicy
  providers := duoConfig.providers
  claims := claimingClaims
  maxConcurrency := 2
  leaseSafetyMarginMs := 15000
  statusText := Text.decimal

def leasedPlan : WorkflowPlan := { duoPlan with
  fileLease := some ⟨"acme/app".toList, ["src/lib.rs".toList], true, 1800000, "/file-leases/acquire".toList,
    "/file-leases/release".toList⟩ }

def leasedTask : AssignmentTask where
  provider := ⟨⟨"alpha".toList, .openAiResponses, "gpt".toList⟩, []⟩
  workflow := { duoView with plan := leasedPlan }
  assignment := duoAssignment 0 "alpha"
  admission := duoAdmission

/-- A control plane that grants and renews everything under one token. -/
def grantingEnv : Env := { offlineEnv with
  controlPlane := fun _ => .ok ⟨200, .obj [("acquired".toList, .bool true), ("fencing_token".toList, number 7),
    ("renewed".toList, .bool true)]⟩ }

/-- A bridge that knows the replica and `alpha`. -/
def grantingBridge (delivered : Bool) : Serving where
  deployment := bearerDeployment true 2097152
  env := grantingEnv
  state := served (bearerDeployment true 2097152) [
    (offlineEnv, operatorPost "/agents/register" [("agent_key".toList, .str "runner/replica-0".toList)]),
    (offlineEnv, operatorPost "/agents/register" [("agent_key".toList, .str "alpha".toList)])]
  bearer := some "operator".toList
  length := 200
  delivered := delivered

def planningBridge : Serving := { grantingBridge true with
  state := recordState (bearerDeployment true 2097152).config "workflow-duo".toList AssignmentClaims.planContextKey
    (.workflowPlan leasedPlan) }

/-- Both leases are granted, the provider answers, the claim is renewed, and the answer is submitted under it. -/
def claimedSubmission : List WireMove := [
  .served (grantingBridge true), .served (grantingBridge true),
  .other (.reserved (.ok (duoAdmission, ⟨300, 4096, 5⟩)) false),
  .other (.engine .proceed), .other (.engine (.guard true (some leasedTask.workflow))), .other (.engine .poll),
  .other (.engine (.answer (.attempted (.ok ⟨"alpha".toList, "gpt".toList, "answer".toList, none, .null⟩)))),
  .other (.finished 1000), .other (.reported true), .served (grantingBridge true), .served planningBridge]

/-- The claim is granted, the grant of the file lease gets lost, and the claim goes back. -/
def lostGrant : List WireMove :=
  [.served (grantingBridge true), .served (grantingBridge false), .served (grantingBridge true)]

example : (runCarried claimingSettings leasedTask lostGrant).1.isNone = true ∧
    (runCarried claimingSettings leasedTask lostGrant).2.length = 6 := by decide +kernel

theorem fromEnv_claimingVar : ClaimConfig.fromEnv claimingVar = .ok claimingClaims := rfl

theorem leasedPlan_fileLease : Orchestration.buildFileLeaseRequirement (some "acme/app".toList) ["src/lib.rs".toList]
    true (some 1800000) = .ok leasedPlan.fileLease := rfl

abbrev claimedRun := runCarried claimingSettings leasedTask claimedSubmission

/-- A run that attempts and submits. -/
theorem assignment_carried_alpha :
    (deeds claimedRun.2).countP AssignmentEvent.works = 2 ∧
    (∃ told, claimedRun.1 = (runAssignment claimingSettings leasedTask told).1 ∧
      deeds claimedRun.2 = (runAssignment claimingSettings leasedTask told).2) ∧
    Trace.Always (leasedTask.Carried claimingSettings) claimedRun.2 ∧
    ∀ pre e post, claimedRun.2 = pre ++ .did e :: post → e.works = true →
      ∃ holdings, held (deeds pre) = some holdings ∧ holdings.map terms = leasedTask.demanded claimingSettings ∧
        ∀ holding ∈ holdings, AssignmentTask.Granted pre holding :=
  ⟨by decide +kernel,
    AssignmentTask.assignment_carried fromEnv_claimingVar (by decide) leasedPlan_fileLease claimedSubmission⟩

end AgentBridge.Runner
