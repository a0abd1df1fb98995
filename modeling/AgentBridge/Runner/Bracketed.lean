import AgentBridge.Base.Brackets
import AgentBridge.Runner.Assignment

/-! What every run of an assignment keeps to, whatever the bridge answers: its leases are
brackets around the work, the work is done under all of them, and a submission goes out
once, under a claim that has just been renewed. -/

namespace AgentBridge.Runner

/-- A lease, and in whose name it was taken. -/
abbrev Holding := Text × LeaseHandle

/-- In whose name a lease is taken, on what, and for how long. -/
abbrev Terms := Text × Text × List Text × Nat

def terms (holding : Holding) : Terms :=
  (holding.1, holding.2.repository, holding.2.paths, holding.2.ttlMs)

namespace AssignmentEvent

def op : AssignmentEvent → Option (Brackets.Op Holding)
  | .acquired owner lease => some (.opened (owner, lease))
  | .renewed owner lease _ => some (.used (owner, lease))
  | .released owner lease _ => some (.closed (owner, lease))
  | _ => none

/-- After this nothing is submitted. -/
def spoils : AssignmentEvent → Bool
  | .denied _ | .renewed _ _ false | .reported false | .submitted .. | .completed | .cancelled _ => true
  | _ => false

/-- An end of a reserved call: the submission was accepted, the call could not be accounted for, or the workflow
was cancelled. -/
def settles : AssignmentEvent → Bool
  | .submitted _ true | .reported false | .cancelled _ => true
  | _ => false

end AssignmentEvent

/-- What is held after the events, the lease taken last first. -/
def held (tr : List AssignmentEvent) : Option (List Holding) := Brackets.after [] (tr.filterMap AssignmentEvent.op)

namespace AssignmentTask
variable (cfg : RunnerSettings) (t : AssignmentTask)

def claimTerms : List Terms :=
  if cfg.claims.enabled then [(cfg.claims.owner, cfg.claims.repository, t.claimPaths cfg, cfg.claims.ttlMs)] else []

/-- The leases without which no work is done, the last one first. -/
def demanded : List Terms :=
  t.requirement.toList.map (fun r => (t.provider.config.name, r.repository, r.paths, r.ttlMs)) ++ t.claimTerms cfg

def holdings (leases : Leases) : List Holding :=
  leases.fileLease.toList.map (t.provider.config.name, ·) ++ leases.claim.toList.map (cfg.claims.owner, ·)

/-- All that is demanded is held, and nothing else. -/
def Equipped (tr : List AssignmentEvent) : Prop :=
  ∃ holdings, held tr = some holdings ∧ holdings.map terms = t.demanded cfg

def Presents (product : Product) (claim : LeaseHandle) : Prop :=
  product.metadata.getLast? = some ("assignment_claim".toList,
    cfg.claims.metadata t.workflow.plan.id t.assignment.ordinal claim.fencingToken)

/-- What an event needs of those before it. -/
def Licensed (pre : List AssignmentEvent) : AssignmentEvent → Prop
  | .engine .attempted => t.Equipped cfg pre ∧ .reserved ∈ pre ∧ ∀ e ∈ pre, e.spoils = false
  | .submitted product _ => t.Equipped cfg pre ∧ .reported true ∈ pre ∧ (∀ e ∈ pre, e.spoils = false) ∧
    (cfg.claims.enabled = true → ∃ claim, pre.getLast? = some (.renewed cfg.claims.owner claim true) ∧
      t.Presents cfg product claim)
  | .renewed owner lease _ => ∃ holdings, held pre = some holdings ∧ (owner, lease) ∈ holdings
  | .released owner lease _ => ∃ holdings, held pre = some ((owner, lease) :: holdings)
  | _ => True

/-- A reserved call has come to one of its ends. -/
def Settled (tr : List AssignmentEvent) : Prop := .reserved ∈ tr → ∃ e ∈ tr, e.settles = true

end AssignmentTask

def AssignmentPhase.leases : AssignmentPhase → Leases
  | .claiming => ⟨none, none⟩
  | .leasing _ claim => ⟨claim, none⟩
  | .reserving leases | .executing leases _ _ _ _ | .reporting leases _ | .submitting leases _ => leases
  | .renewing claim fileLease _ => ⟨some claim, fileLease⟩
  | .completing leases | .cancelling leases _ => leases
  | .releasingFileLease fileLease claim => ⟨claim, some fileLease⟩
  | .releasingClaim claim => ⟨some claim, none⟩

def Product.Plain (product : Product) : Prop := "assignment_claim".toList ∉ product.metadata.map Prod.fst

theorem mem_insertMember {fields : List (Text × Json)} {key : String} {value : Json} {k : Text}
    (h : k ∈ (insertMember fields key value).map Prod.fst) : k = key.toList ∨ k ∈ fields.map Prod.fst := by
  unfold insertMember at h
  rw [List.map_append, List.mem_append] at h
  rcases h with hold | hnew
  · obtain ⟨e, he, rfl⟩ := List.mem_map.mp hold
    exact .inr (List.mem_map_of_mem (List.mem_of_mem_filter he))
  · exact .inl (List.mem_singleton.mp hnew)

namespace AssignmentTask
variable {cfg : RunnerSettings} {t : AssignmentTask} {phase : AssignmentPhase} {m : AssignmentMove}
  {leases : Leases} {claim fileLease : LeaseHandle} {product : Product}

theorem product_plain {reserved : AdmissionRecord} {renewals elapsedMs : Nat} {run : RetryRun}
    (h : t.product cfg leases reserved renewals elapsedMs run = .ok product) : product.Plain := by
  have hmeta : ∀ fields : List (Text × Json), "assignment_claim".toList ∉ fields.map Prod.fst →
      ∀ audits totalDelay, "assignment_claim".toList ∉ (insertMember (insertMember (insertMember
        (annotateHeartbeat (insertMember fields "provider_retries" (auditsJson audits totalDelay))
          leases.claim.isSome leases.fileLease.isSome renewals) "policy_admitted" (.bool true))
        "policy_version" (.str reserved.policy.policyVersion))
        "provider_elapsed_ms" (number (min elapsedMs u64Max))).map Prod.fst := by
    intro fields hfields audits totalDelay hmem
    unfold annotateHeartbeat at hmem
    iterate 8
      replace hmem := (mem_insertMember hmem).resolve_left (by decide)
    exact hfields hmem
  cases run with
  | success response reservation audits totalDelay =>
    cases h
    exact hmeta _ (by simp [successMeta]) audits totalDelay
  | finalFailure error audits totalDelay =>
    cases h
    exact hmeta _ (by simp [failureMeta]) audits totalDelay
  | aborted reason audits totalDelay => cases h

/-- Everything a step of a task can do. -/
inductive Steps (cfg : RunnerSettings) (t : AssignmentTask) :
    AssignmentPhase → Option AssignmentPhase → List AssignmentEvent → Prop
  | idle (phase : AssignmentPhase) : Steps cfg t phase (some phase) []
  | claimed (claim : LeaseHandle)
    (h : terms (cfg.claims.owner, claim) =
      (cfg.claims.owner, cfg.claims.repository, t.claimPaths cfg, cfg.claims.ttlMs)) :
    Steps cfg t .claiming (t.afterClaim cfg (some claim)) [.acquired cfg.claims.owner claim]
  | unclaimed : Steps cfg t .claiming none [.denied cfg.claims.owner]
  | leased (r : FileLeaseRequirement) (claim : Option LeaseHandle) (fileLease : LeaseHandle)
    (h : terms (t.provider.config.name, fileLease) = (t.provider.config.name, r.repository, r.paths, r.ttlMs)) :
    Steps cfg t (.leasing r claim) (some (t.afterLeases ⟨claim, some fileLease⟩))
      [.acquired t.provider.config.name fileLease]
  | unleased (r : FileLeaseRequirement) (claim : Option LeaseHandle) :
    Steps cfg t (.leasing r claim) (release ⟨claim, none⟩) [.denied t.provider.config.name]
  | reserved (leases : Leases) (reserved : AdmissionRecord) (engine : Engine) :
    Steps cfg t (.reserving leases) (some (.executing leases reserved engine (firstBeat cfg leases) 0)) [.reserved]
  | unreserved (leases : Leases) (reason : Text) :
    Steps cfg t (.reserving leases) (some (.cancelling leases reason)) []
  | unanswered (leases : Leases) (reason : Text) :
    Steps cfg t (.reserving leases) (some (.cancelling leases reason)) [.reserved]
  | worked (leases : Leases) (reserved : AdmissionRecord) (engine engine' : Engine) (beat : Beat) (renewals : Nat)
    (events : List Event) :
    Steps cfg t (.executing leases reserved engine beat renewals)
      (some (.executing leases reserved engine' beat renewals))
      (events.map .engine)
  | granted (leases : Leases) (reserved : AdmissionRecord) (engine : Engine) (beat : Beat) (renewals : Nat) :
    Steps cfg t (.executing leases reserved engine beat renewals)
      (some (.executing leases reserved engine beat renewals))
      [.reserved]
  | beaten (leases : Leases) (reserved : AdmissionRecord) (engine : Engine) (renewals : Nat) :
    Steps cfg t (.executing leases reserved engine .waiting renewals)
      (some (.executing leases reserved engine (renewal leases) renewals)) []
  | keptClaim (leases : Leases) (reserved : AdmissionRecord) (engine : Engine) (claim : LeaseHandle) (renewals : Nat)
    (beat : Beat) (renewals' : Nat)
    (h : ∀ fileLease, beat = .renewingFileLease fileLease → leases.fileLease = some fileLease)
    (hbeat : ∀ claim, beat ≠ .renewingClaim claim) :
    Steps cfg t (.executing leases reserved engine (.renewingClaim claim) renewals)
      (some (.executing leases reserved engine beat renewals')) [.renewed cfg.claims.owner claim true]
  | lostClaim (leases : Leases) (reserved : AdmissionRecord) (engine : Engine) (claim : LeaseHandle) (renewals : Nat)
    (reason : Text) :
    Steps cfg t (.executing leases reserved engine (.renewingClaim claim) renewals)
      (some (.cancelling leases reason)) [.renewed cfg.claims.owner claim false]
  | keptFileLease (leases : Leases) (reserved : AdmissionRecord) (engine : Engine) (fileLease : LeaseHandle)
    (renewals renewals' : Nat) :
    Steps cfg t (.executing leases reserved engine (.renewingFileLease fileLease) renewals)
      (some (.executing leases reserved engine .waiting renewals')) [.renewed t.provider.config.name fileLease true]
  | lostFileLease (leases : Leases) (reserved : AdmissionRecord) (engine : Engine) (fileLease : LeaseHandle)
    (renewals : Nat) (reason : Text) :
    Steps cfg t (.executing leases reserved engine (.renewingFileLease fileLease) renewals)
      (some (.cancelling leases reason)) [.renewed t.provider.config.name fileLease false]
  | finished (leases : Leases) (reserved : AdmissionRecord) (engine : Engine) (beat : Beat) (renewals : Nat)
    (product : Product) (h : product.Plain) :
    Steps cfg t (.executing leases reserved engine beat renewals) (some (.reporting leases product)) []
  | aborted (leases : Leases) (reserved : AdmissionRecord) (engine : Engine) (beat : Beat) (renewals : Nat)
    (reason : Text) :
    Steps cfg t (.executing leases reserved engine beat renewals) (some (.cancelling leases reason)) []
  | refused (leases : Leases) (product : Product) :
    Steps cfg t (.reporting leases product) (release leases) [.reported false]
  | reported (claim : LeaseHandle) (fileLease : Option LeaseHandle) (product : Product) :
    Steps cfg t (.reporting ⟨some claim, fileLease⟩ product) (some (.renewing claim fileLease product)) [.reported true]
  | reportedUnclaimed (fileLease : Option LeaseHandle) (product : Product) :
    Steps cfg t (.reporting ⟨none, fileLease⟩ product) (some (.submitting ⟨none, fileLease⟩ product)) [.reported true]
  | renewed (claim : LeaseHandle) (fileLease : Option LeaseHandle) (product : Product) :
    Steps cfg t (.renewing claim fileLease product)
      (some (.submitting ⟨some claim, fileLease⟩ (t.claimed cfg product claim))) [.renewed cfg.claims.owner claim true]
  | stale (claim : LeaseHandle) (fileLease : Option LeaseHandle) (product : Product) (reason : Text) :
    Steps cfg t (.renewing claim fileLease product) (some (.cancelling ⟨some claim, fileLease⟩ reason))
      [.renewed cfg.claims.owner claim false]
  | submittedLast (leases : Leases) (product : Product) :
    Steps cfg t (.submitting leases product) (some (.completing leases)) [.submitted product true]
  | submitted (leases : Leases) (product : Product) :
    Steps cfg t (.submitting leases product) (release leases) [.submitted product true]
  | unsubmitted (leases : Leases) (product : Product) (accepted : Bool) (reason : Text) :
    Steps cfg t (.submitting leases product) (some (.cancelling leases reason)) [.submitted product accepted]
  | completed (leases : Leases) : Steps cfg t (.completing leases) (release leases) [.completed]
  | cancelled (leases : Leases) (reason : Text) : Steps cfg t (.cancelling leases reason) (release leases)
      [.cancelled reason]
  | returnedFileLease (fileLease : LeaseHandle) (claim : Option LeaseHandle) (ok : Bool) :
    Steps cfg t (.releasingFileLease fileLease claim) (release ⟨claim, none⟩)
      [.released t.provider.config.name fileLease ok]
  | returnedClaim (claim : LeaseHandle) (ok : Bool) :
    Steps cfg t (.releasingClaim claim) none [.released cfg.claims.owner claim ok]

theorem acquired_eq_ok {releasePath repository : Text} {paths : List Text} {ttlMs : Nat} {reply : BridgeReply}
    {handle : LeaseHandle} (h : BridgeClient.acquired releasePath repository paths ttlMs reply = .ok handle) :
    ∃ response token, reply = .ok response ∧ Http.findBool response "acquired" ≠ some false ∧
      BridgeClient.fencingToken response = some token ∧
        handle = ⟨token, trimPath releasePath, repository, paths, ttlMs⟩ := by
  unfold BridgeClient.acquired at h
  obtain ⟨response, hreply, h⟩ := Except.bind_eq_ok.mp h
  cases htoken : BridgeClient.fencingToken response with
  | none =>
    rw [htoken] at h
    cases h
  | some token =>
    rw [htoken] at h
    by_cases hacquired : (!(Http.findBool response "acquired").getD true) = true
    · simp only [hacquired] at h
      cases h
    · refine ⟨response, token, hreply, fun hdenied => ?_, htoken, ?_⟩
      · exact hacquired (by rw [hdenied]; rfl)
      · simp only [hacquired] at h
        exact (Except.ok.inj h).symm

theorem step_steps (cfg : RunnerSettings) (t : AssignmentTask) (phase : AssignmentPhase) (m : AssignmentMove) :
    Steps cfg t phase (t.step cfg phase m).1 (t.step cfg phase m).2 := by
  unfold step
  -- one case for each branch of `step`; within it, what the bridge answers
  split
  · next reply =>
    cases hreply : BridgeClient.acquired "/file-leases/release".toList cfg.claims.repository (t.claimPaths cfg)
        cfg.claims.ttlMs reply with
    | error e => exact .unclaimed
    | ok claim =>
      obtain ⟨response, token, -, -, -, rfl⟩ := acquired_eq_ok hreply
      exact .claimed _ rfl
  · next r claim reply =>
    cases hreply : BridgeClient.acquired r.releasePath r.repository r.paths r.ttlMs reply with
    | error e => exact .unleased r claim
    | ok fileLease =>
      obtain ⟨response, token, -, -, -, rfl⟩ := acquired_eq_ok hreply
      exact .leased r claim _ rfl
  · next leases reply shutdown =>
    cases reply with
    | ok answer => exact .reserved leases answer.1 _
    | refused => exact .unreserved leases _
    | lost => exact .unanswered leases _
  · next leases reserved engine beat renewals move =>
    split_ifs
    · exact .worked leases reserved engine _ beat renewals _
    · exact .idle _
  · next leases reserved engine beat renewals =>
    split_ifs
    · exact .granted leases reserved engine beat renewals
    · exact .idle _
  · next leases reserved engine renewals =>
    split
    · split_ifs
      · exact .beaten leases reserved engine renewals
      · exact .idle _
    · exact .idle _
  · next leases reserved engine claim renewals reply =>
    cases BridgeClient.renewed claim reply with
    | error e => exact .lostClaim leases reserved engine claim renewals _
    | ok _ =>
      cases hfile : leases.fileLease with
      | none => exact .keptClaim leases reserved engine claim renewals .waiting _ nofun nofun
      | some fileLease =>
        refine .keptClaim leases reserved engine claim renewals (.renewingFileLease fileLease) renewals ?_ nofun
        rintro _ ⟨⟩
        exact hfile
  · next leases reserved engine fileLease renewals reply =>
    cases BridgeClient.renewed fileLease reply with
    | error e => exact .lostFileLease leases reserved engine fileLease renewals _
    | ok _ => exact .keptFileLease leases reserved engine fileLease renewals _
  · next leases reserved engine renewals elapsedMs =>
    split
    · exact .idle _
    · split
      · next hproduct => exact .finished leases reserved engine .waiting renewals _ (product_plain hproduct)
      · exact .aborted leases reserved engine .waiting renewals _
  · next leases product ok =>
    obtain ⟨claim, fileLease⟩ := leases
    cases ok with
    | false => exact .refused ⟨claim, fileLease⟩ product
    | true =>
      cases claim with
      | none => exact .reportedUnclaimed fileLease product
      | some claim => exact .reported claim fileLease product
  · next claim fileLease product reply =>
    cases BridgeClient.renewed claim reply with
    | error e => exact .stale claim fileLease product _
    | ok _ => exact .renewed claim fileLease product
  · next leases product reply =>
    cases reply with
    | ok updated =>
      dsimp only
      split_ifs
      · exact .submittedLast leases product
      · exact .submitted leases product
    | refused => exact .unsubmitted leases product false _
    | lost => exact .unsubmitted leases product true _
  · next leases => exact .completed leases
  · next leases reason => exact .cancelled leases reason
  · next fileLease claim reply => exact .returnedFileLease fileLease claim _
  · next claim reply => exact .returnedClaim claim _
  · exact .idle _

end AssignmentTask

def Beat.Of (leases : Leases) : Beat → Prop
  | .waiting => True
  | .renewingClaim claim => leases.claim = some claim
  | .renewingFileLease fileLease => leases.fileLease = some fileLease

namespace AssignmentTask
variable {cfg : RunnerSettings} {t : AssignmentTask} {phase : AssignmentPhase} {m : AssignmentMove}
  {leases : Leases} {claim fileLease : LeaseHandle} {product : Product} {tr events : List AssignmentEvent}
  {e : AssignmentEvent}

def Unspoiled (tr : List AssignmentEvent) : Prop := ∀ e ∈ tr, e.spoils = false

/-- No call has been reserved. -/
def Early (tr : List AssignmentEvent) : Prop := Unspoiled tr ∧ .reserved ∉ tr

/-- The leases are those that are demanded. -/
structure Covers (cfg : RunnerSettings) (t : AssignmentTask) (leases : Leases) : Prop where
  claim : leases.claim.toList.map (fun claim => terms (cfg.claims.owner, claim)) = t.claimTerms cfg
  fileLease : leases.fileLease.toList.map (fun fileLease => terms (t.provider.config.name, fileLease)) =
    t.requirement.toList.map fun r => (t.provider.config.name, r.repository, r.paths, r.ttlMs)

/-- What a phase knows of the events before it. -/
def Stands (cfg : RunnerSettings) (t : AssignmentTask) (tr : List AssignmentEvent) : AssignmentPhase → Prop
  | .claiming => cfg.claims.enabled = true ∧ Early tr
  | .leasing r claim => t.requirement = some r ∧
    claim.toList.map (fun claim => terms (cfg.claims.owner, claim)) = t.claimTerms cfg ∧ Early tr
  | .reserving leases => Covers cfg t leases ∧ Early tr
  | .executing leases _ _ beat _ => Covers cfg t leases ∧ Unspoiled tr ∧ .reserved ∈ tr ∧ beat.Of leases
  | .reporting leases product => Covers cfg t leases ∧ Unspoiled tr ∧ product.Plain
  | .renewing claim fileLease _ => Covers cfg t ⟨some claim, fileLease⟩ ∧ Unspoiled tr ∧ .reported true ∈ tr
  | .submitting leases product => Covers cfg t leases ∧ Unspoiled tr ∧ .reported true ∈ tr ∧
    match leases.claim with
    | none => product.Plain
    | some claim => tr.getLast? = some (.renewed cfg.claims.owner claim true) ∧ t.Presents cfg product claim
  | .cancelling .. => True
  | .completing _ | .releasingFileLease .. | .releasingClaim _ => Settled tr

structure Kept (cfg : RunnerSettings) (t : AssignmentTask) (phase : AssignmentPhase) (tr : List AssignmentEvent) :
    Prop where
  held : held tr = some (t.holdings cfg phase.leases)
  stands : Stands cfg t tr phase
  licensed : Trace.Always (t.Licensed cfg) tr

/-- The same for a task that may have returned. -/
def Keeps (cfg : RunnerSettings) (t : AssignmentTask) : Option AssignmentPhase → List AssignmentEvent → Prop
  | none, tr => Runner.held tr = some [] ∧ Settled tr ∧ Trace.Always (t.Licensed cfg) tr
  | some phase, tr => Kept cfg t phase tr

theorem Unspoiled.concat (h : Unspoiled tr) (he : e.spoils = false) : Unspoiled (tr ++ [e]) := by
  intro e' he'
  rcases List.mem_append.mp he' with hold | hnew
  · exact h e' hold
  · rw [List.mem_singleton.mp hnew]
    exact he

theorem Early.concat (h : Early tr) (he : e.spoils = false) (hreserved : e ≠ .reserved) : Early (tr ++ [e]) := by
  refine ⟨h.1.concat he, fun hmem => ?_⟩
  rcases List.mem_append.mp hmem with hold | hnew
  · exact h.2 hold
  · exact hreserved (List.mem_singleton.mp hnew).symm

theorem Early.settled (h : Early tr) : Settled tr := fun hmem => absurd hmem h.2

theorem Settled.concat_of (he : e.settles = true) : Settled (tr ++ [e]) :=
  fun _ => ⟨e, List.mem_append_right _ List.mem_cons_self, he⟩

theorem Settled.concat (h : Settled tr) (he : e ≠ .reserved) : Settled (tr ++ [e]) := by
  intro hmem
  rcases List.mem_append.mp hmem with hold | hnew
  · obtain ⟨e', he', hsettles⟩ := h hold
    exact ⟨e', List.mem_append_left _ he', hsettles⟩
  · exact absurd (List.mem_singleton.mp hnew).symm he

theorem held_append {held' : List Holding} (hheld : held tr = some held') : held (tr ++ events) =
    Brackets.after held' (events.filterMap AssignmentEvent.op) := by
  unfold held at hheld ⊢
  rw [List.filterMap_append, Brackets.after_append, hheld]
  rfl

theorem held_aside {held' : List Holding} (hheld : held tr = some held') (h : ∀ e ∈ events, e.op = none) :
    held (tr ++ events) = some held' := by
  rw [held_append hheld, List.filterMap_eq_nil_iff.mpr h]
  rfl

theorem held_used {held' : List Holding} {owner : Text} {lease : LeaseHandle} {ok : Bool}
    (hheld : held tr = some held') (h : (owner, lease) ∈ held') :
    held (tr ++ [.renewed owner lease ok]) = some held' := by
  rw [held_append hheld]
  simp [AssignmentEvent.op, Brackets.after, h]

theorem held_opened {held' : List Holding} (hheld : held tr = some held') (owner : Text) (lease : LeaseHandle) :
    held (tr ++ [.acquired owner lease]) = some ((owner, lease) :: held') := by
  rw [held_append hheld]
  rfl

theorem held_closed {held' : List Holding} {owner : Text} {lease : LeaseHandle} {ok : Bool}
    (hheld : held tr = some ((owner, lease) :: held')) :
    held (tr ++ [.released owner lease ok]) = some held' := by
  rw [held_append hheld]
  simp [AssignmentEvent.op, Brackets.after]

theorem keeps_release (hheld : held tr = some (t.holdings cfg leases)) (hsettled : Settled tr)
    (hlicensed : Trace.Always (t.Licensed cfg) tr) : Keeps cfg t (release leases) tr := by
  obtain ⟨claim, fileLease⟩ := leases
  cases fileLease with
  | some fileLease => exact ⟨hheld, hsettled, hlicensed⟩
  | none =>
    cases claim with
    | some claim => exact ⟨hheld, hsettled, hlicensed⟩
    | none => exact ⟨hheld, hsettled, hlicensed⟩

theorem kept_afterLeases (hheld : held tr = some (t.holdings cfg leases)) (hcovers : Covers cfg t leases)
    (hearly : Early tr) (hlicensed : Trace.Always (t.Licensed cfg) tr) : Kept cfg t (t.afterLeases leases) tr := by
  unfold afterLeases
  split_ifs
  · exact ⟨hheld, trivial, hlicensed⟩
  · exact ⟨hheld, ⟨hcovers, hearly⟩, hlicensed⟩

theorem keeps_afterClaim {claim : Option LeaseHandle} (hheld : held tr = some (t.holdings cfg ⟨claim, none⟩))
    (hterms : claim.toList.map (fun claim => terms (cfg.claims.owner, claim)) = t.claimTerms cfg) (hearly : Early tr)
    (hlicensed : Trace.Always (t.Licensed cfg) tr) : Keeps cfg t (t.afterClaim cfg claim) tr := by
  unfold afterClaim
  cases hrequirement : t.requirement with
  | none =>
    refine kept_afterLeases hheld ⟨hterms, ?_⟩ hearly hlicensed
    rw [hrequirement]
    rfl
  | some r =>
    dsimp only
    split_ifs
    · exact keeps_release hheld hearly.settled hlicensed
    · exact ⟨hheld, ⟨hrequirement, hterms, hearly⟩, hlicensed⟩

theorem keeps_start (cfg : RunnerSettings) (t : AssignmentTask) : Keeps cfg t (t.start cfg) [] := by
  have hearly : Early [] := ⟨List.forall_mem_nil _, List.not_mem_nil⟩
  unfold start
  by_cases henabled : cfg.claims.enabled = true
  · rw [if_pos henabled]
    exact ⟨rfl, ⟨henabled, hearly⟩, Trace.always_nil⟩
  · rw [if_neg henabled]
    refine keeps_afterClaim rfl ?_ hearly Trace.always_nil
    rw [claimTerms, if_neg henabled]
    rfl

theorem equipped (hheld : held tr = some (t.holdings cfg leases)) (hcovers : Covers cfg t leases) :
    t.Equipped cfg tr := by
  refine ⟨_, hheld, ?_⟩
  rw [holdings, demanded, ← hcovers.claim, ← hcovers.fileLease]
  simp [Function.comp_def]

theorem licensed_concat (hlicensed : Trace.Always (t.Licensed cfg) tr) (he : t.Licensed cfg tr e) :
    Trace.Always (t.Licensed cfg) (tr ++ [e]) := Trace.always_concat.mpr ⟨hlicensed, he⟩

theorem licensed_worked (evs : List Event) (hheld : held tr = some (t.holdings cfg leases))
    (hcovers : Covers cfg t leases) (hunspoiled : Unspoiled tr) (hreserved : .reserved ∈ tr)
    (hlicensed : Trace.Always (t.Licensed cfg) tr) :
    Trace.Always (t.Licensed cfg) (tr ++ evs.map .engine) ∧ Unspoiled (tr ++ evs.map .engine) ∧
      .reserved ∈ tr ++ evs.map .engine := by
  -- the trace grows with the events, and the leases stay
  induction evs generalizing tr with
  | nil => simpa using ⟨hlicensed, hunspoiled, hreserved⟩
  | cons event evs ih =>
    have hlicense : t.Licensed cfg tr (.engine event) := by
      cases event with
      | attempted => exact ⟨equipped hheld hcovers, hreserved, hunspoiled⟩
      | _ => trivial
    have hnext := @ih (tr ++ [.engine event]) (held_aside hheld (by simp [AssignmentEvent.op]))
      (hunspoiled.concat rfl) (List.mem_append_left _ hreserved) (licensed_concat hlicensed hlicense)
    simpa using hnext

theorem claim_mem {claim : LeaseHandle} (h : leases.claim = some claim) :
    (cfg.claims.owner, claim) ∈ t.holdings cfg leases := by
  simp [holdings, h]

theorem fileLease_mem {fileLease : LeaseHandle} (h : leases.fileLease = some fileLease) :
    (t.provider.config.name, fileLease) ∈ t.holdings cfg leases := by
  simp [holdings, h]

theorem renewal_of (leases : Leases) : (renewal leases).Of leases := by
  obtain ⟨claim, fileLease⟩ := leases
  cases claim with
  | some claim => exact rfl
  | none =>
    cases fileLease with
    | some fileLease => exact rfl
    | none => trivial

theorem firstBeat_of (leases : Leases) : (firstBeat cfg leases).Of leases := by
  unfold firstBeat
  split_ifs
  · trivial
  · exact renewal_of leases

theorem claim_of_covers (hcovers : Covers cfg t leases) (henabled : cfg.claims.enabled = true) :
    leases.claim ≠ none := by
  intro hnone
  have hclaim := hcovers.claim
  rw [claimTerms, if_pos henabled, hnone] at hclaim
  cases hclaim

theorem licensed_submitted {accepted : Bool} (hheld : held tr = some (t.holdings cfg leases))
    (hstands : Stands cfg t tr (.submitting leases product)) : t.Licensed cfg tr (.submitted product accepted) := by
  obtain ⟨hcovers, hunspoiled, hreported, hclaim⟩ := hstands
  refine ⟨equipped hheld hcovers, hreported, hunspoiled, fun henabled => ?_⟩
  obtain ⟨claim, hsome⟩ := Option.ne_none_iff_exists'.mp (claim_of_covers hcovers henabled)
  rw [hsome] at hclaim
  exact ⟨claim, hclaim⟩

section Steps
variable {next : AssignmentPhase}

theorem Kept.silent (hkept : Kept cfg t phase tr) (hleases : next.leases = phase.leases)
    (hstands : Stands cfg t tr next) : Keeps cfg t (some next) (tr ++ []) := by
  rw [List.append_nil]
  exact ⟨hleases ▸ hkept.held, hstands, hkept.licensed⟩

/-- An event about no lease. -/
theorem Kept.aside (hkept : Kept cfg t phase tr) (hop : e.op = none) (hleases : next.leases = phase.leases)
    (hlicence : t.Licensed cfg tr e) (hstands : Stands cfg t (tr ++ [e]) next) : Kept cfg t next (tr ++ [e]) where
  held := by
    rw [hleases]
    exact held_aside hkept.held (List.forall_mem_singleton.mpr hop)
  stands := hstands
  licensed := licensed_concat hkept.licensed hlicence

/-- An event about no lease, after which what is held goes back. -/
theorem Kept.ends (hkept : Kept cfg t phase tr) (hop : e.op = none) (hlicence : t.Licensed cfg tr e)
    (hsettled : Settled (tr ++ [e])) : Keeps cfg t (release phase.leases) (tr ++ [e]) :=
  keeps_release (held_aside hkept.held (List.forall_mem_singleton.mpr hop)) hsettled
    (licensed_concat hkept.licensed hlicence)

theorem Kept.renews {owner : Text} {lease : LeaseHandle} {ok : Bool} (hkept : Kept cfg t phase tr)
    (hmem : (owner, lease) ∈ t.holdings cfg phase.leases) (hleases : next.leases = phase.leases)
    (hstands : Stands cfg t (tr ++ [.renewed owner lease ok]) next) :
    Kept cfg t next (tr ++ [.renewed owner lease ok]) where
  held := by
    rw [hleases]
    exact held_used hkept.held hmem
  stands := hstands
  licensed := licensed_concat hkept.licensed ⟨_, hkept.held, hmem⟩

theorem Kept.claim_renewed {reserved : AdmissionRecord} {engine : Engine} {claim : LeaseHandle} {beat : Beat}
    {renewals renewals' : Nat}
    (hkept : Kept cfg t (.executing leases reserved engine (.renewingClaim claim) renewals) tr)
    (hfile : ∀ fileLease, beat = .renewingFileLease fileLease → leases.fileLease = some fileLease)
    (hclaim : ∀ claim, beat ≠ .renewingClaim claim) :
    Kept cfg t (.executing leases reserved engine beat renewals') (tr ++ [.renewed cfg.claims.owner claim true]) := by
  obtain ⟨hcovers, hunspoiled, hreserved, hbeat⟩ := hkept.stands
  have hof : beat.Of leases := by
    cases beat with
    | waiting => trivial
    | renewingClaim claim => exact absurd rfl (hclaim claim)
    | renewingFileLease fileLease => exact hfile fileLease rfl
  exact hkept.renews (claim_mem hbeat) rfl
    ⟨hcovers, hunspoiled.concat rfl, List.mem_append_left _ hreserved, hof⟩

theorem Kept.step (hkept : Kept cfg t phase tr) (m : AssignmentMove) :
    Keeps cfg t (t.step cfg phase m).1 (tr ++ (t.step cfg phase m).2) := by
  obtain ⟨hheld, hstands, hlicensed⟩ := id hkept
  have hsteps := step_steps cfg t phase m
  generalize t.step cfg phase m = r at hsteps
  obtain ⟨next, events⟩ := r
  dsimp only at hsteps ⊢
  -- one case for each thing a step can do: what it does to the leases, to what the phase knows, and its licence
  cases hsteps with
  | idle => exact hkept.silent rfl hstands
  | claimed claim hterms =>
    obtain ⟨henabled, hearly⟩ := hstands
    refine keeps_afterClaim (held_opened hheld _ _) ?_ (hearly.concat rfl nofun) (licensed_concat hlicensed trivial)
    rw [claimTerms, if_pos henabled, ← hterms]
    rfl
  | unclaimed => exact hkept.ends rfl trivial (hstands.2.settled.concat nofun)
  | leased r claim fileLease hterms =>
    obtain ⟨hrequirement, hclaim, hearly⟩ := hstands
    refine kept_afterLeases (held_opened hheld _ _) ⟨hclaim, ?_⟩ (hearly.concat rfl nofun)
      (licensed_concat hlicensed trivial)
    rw [hrequirement]
    exact congrArg (fun terms => [terms]) hterms
  | unleased r claim => exact hkept.ends rfl trivial (hstands.2.2.settled.concat nofun)
  | reserved leases reserved engine =>
    obtain ⟨hcovers, hearly⟩ := hstands
    exact hkept.aside rfl rfl trivial
      ⟨hcovers, hearly.1.concat rfl, List.mem_append_right _ List.mem_cons_self, firstBeat_of leases⟩
  | unreserved leases reason => exact hkept.silent rfl trivial
  -- a reservation that the task does not know of spoils the run, and the phase after it knows nothing
  | unanswered leases reason => exact hkept.aside rfl rfl trivial trivial
  | worked leases reserved engine engine' beat renewals evs =>
    obtain ⟨hcovers, hunspoiled, hreserved, hbeat⟩ := hstands
    obtain ⟨hlicensed', hunspoiled', hreserved'⟩ := licensed_worked evs hheld hcovers hunspoiled hreserved hlicensed
    exact ⟨held_aside hheld (by simp [AssignmentEvent.op]), ⟨hcovers, hunspoiled', hreserved', hbeat⟩, hlicensed'⟩
  | granted leases reserved engine beat renewals =>
    obtain ⟨hcovers, hunspoiled, hreserved, hbeat⟩ := hstands
    exact hkept.aside rfl rfl trivial
      ⟨hcovers, hunspoiled.concat rfl, List.mem_append_left _ hreserved, hbeat⟩
  | beaten leases reserved engine renewals =>
    obtain ⟨hcovers, hunspoiled, hreserved, -⟩ := hstands
    exact hkept.silent rfl ⟨hcovers, hunspoiled, hreserved, renewal_of leases⟩
  | keptClaim leases reserved engine claim renewals beat renewals' hfile hbeat =>
    exact hkept.claim_renewed hfile hbeat
  | lostClaim leases reserved engine claim renewals reason =>
    exact hkept.renews (claim_mem hstands.2.2.2) rfl trivial
  | keptFileLease leases reserved engine fileLease renewals renewals' =>
    obtain ⟨hcovers, hunspoiled, hreserved, hbeat⟩ := hstands
    exact hkept.renews (fileLease_mem hbeat) rfl
      ⟨hcovers, hunspoiled.concat rfl, List.mem_append_left _ hreserved, trivial⟩
  | lostFileLease leases reserved engine fileLease renewals reason =>
    exact hkept.renews (fileLease_mem hstands.2.2.2) rfl trivial
  | finished leases reserved engine beat renewals product hplain =>
    obtain ⟨hcovers, hunspoiled, -, -⟩ := hstands
    exact hkept.silent rfl ⟨hcovers, hunspoiled, hplain⟩
  | aborted leases reserved engine beat renewals reason => exact hkept.silent rfl trivial
  | refused leases product => exact hkept.ends rfl trivial (.concat_of rfl)
  | reported claim fileLease product =>
    obtain ⟨hcovers, hunspoiled, -⟩ := hstands
    exact hkept.aside rfl rfl trivial
      ⟨hcovers, hunspoiled.concat rfl, List.mem_append_right _ List.mem_cons_self⟩
  | reportedUnclaimed fileLease product =>
    obtain ⟨hcovers, hunspoiled, hplain⟩ := hstands
    exact hkept.aside rfl rfl trivial
      ⟨hcovers, hunspoiled.concat rfl, List.mem_append_right _ List.mem_cons_self, hplain⟩
  | renewed claim fileLease product =>
    obtain ⟨hcovers, hunspoiled, hreported⟩ := hstands
    exact hkept.renews (claim_mem rfl) rfl ⟨hcovers, hunspoiled.concat rfl, List.mem_append_left _ hreported,
      List.getLast?_concat, List.getLast?_concat⟩
  | stale claim fileLease product reason => exact hkept.renews (claim_mem rfl) rfl trivial
  -- the submission is licensed by what the phase before it knew
  | submittedLast leases product =>
    exact hkept.aside rfl rfl (licensed_submitted hheld hstands) (.concat_of rfl)
  | submitted leases product => exact hkept.ends rfl (licensed_submitted hheld hstands) (.concat_of rfl)
  | unsubmitted leases product accepted reason =>
    exact hkept.aside rfl rfl (licensed_submitted hheld hstands) trivial
  | completed leases => exact hkept.ends rfl trivial (Settled.concat hstands nofun)
  | cancelled leases reason => exact hkept.ends rfl trivial (.concat_of rfl)
  | returnedFileLease fileLease claim ok =>
    exact keeps_release (held_closed hheld) (Settled.concat hstands nofun) (licensed_concat hlicensed ⟨_, hheld⟩)
  | returnedClaim claim ok =>
    exact ⟨held_closed hheld, Settled.concat hstands nofun, licensed_concat hlicensed ⟨_, hheld⟩⟩

end Steps

theorem keeps_run (cfg : RunnerSettings) (t : AssignmentTask) (moves : List AssignmentMove) :
    Keeps cfg t (runAssignment cfg t moves).1 (runAssignment cfg t moves).2 := by
  refine Run.exec_invariant (P := fun r : Option AssignmentPhase × List AssignmentEvent => Keeps cfg t r.1 r.2) ?_
    (keeps_start cfg t) moves
  rintro ⟨phase, tr⟩ m hkeeps
  cases phase with
  | none => simpa [Run.recorded] using hkeeps
  | some phase => exact hkeeps.step m

/-- Whatever the bridge answers, in every run of an assignment the leases are taken and given back like brackets, the
work is done and submitted under all that are demanded, and a task that has returned has given back what it took, each
lease as often as it was granted, and has told the admission how a call that it reserved has ended. -/
theorem assignment_bracketed (cfg : RunnerSettings) (t : AssignmentTask) (moves : List AssignmentMove) :
    Trace.Always (t.Licensed cfg) (runAssignment cfg t moves).2 ∧
    held (runAssignment cfg t moves).2 =
      some ((runAssignment cfg t moves).1.elim [] fun phase => t.holdings cfg phase.leases) ∧
    ((runAssignment cfg t moves).1 = none → Settled (runAssignment cfg t moves).2 ∧ ∀ holding,
      ((runAssignment cfg t moves).2.filterMap AssignmentEvent.op).count (.closed holding) =
        ((runAssignment cfg t moves).2.filterMap AssignmentEvent.op).count (.opened holding)) := by
  have hkeeps := keeps_run cfg t moves
  generalize runAssignment cfg t moves = r at hkeeps ⊢
  obtain ⟨phase, tr⟩ := r
  cases phase with
  | none =>
    obtain ⟨hheld, hsettled, hlicensed⟩ := hkeeps
    exact ⟨hlicensed, hheld, fun _ => ⟨hsettled, Brackets.count_closed hheld⟩⟩
  | some phase => exact ⟨hkeeps.licensed, hkeeps.held, nofun⟩

end AssignmentTask
end AgentBridge.Runner
