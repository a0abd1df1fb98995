import AgentBridge.Base.Run
import AgentBridge.Http.Leases

/-! Overlapping requests for the compatibility leases. An acquisition takes the mutation
lock only to file its descriptor; a renewal or release holds it across its call to the
control plane. -/

namespace AgentBridge
open Http

/-- The surroundings of a request, whose ids are printed as UUIDs. -/
structure LeaseEnv where
  env : Env
  spaceless : ∀ n, ∀ c ∈ env.newId n, Text.isWhitespace c = false

namespace LeaseDescriptors
variable (env : Env)

/-- The part of `store_descriptor` under the mutation lock. -/
def fileDescriptor (s : AppState) (now : Now) (d : AuthoritativeLeaseDescriptor) :
    BridgeResult ContextEntry × AppState :=
  match s.getContextKeyInternal registryChannel (descriptorKey d.leaseId) with
  | .error e => (.error e, s)
  | .ok (some _) => (.error (.badRequest "compatibility lease ID collision".toList), s)
  | .ok none => persistDescriptor s now d

/-- The answer of the control plane to an acquisition: a descriptor to store, or the reply. -/
def grantedDescriptor (a : Acquisition) :
    BridgeResult ControlPlaneResponse → Except Reply (ControlPlaneResponse × AuthoritativeLeaseDescriptor)
  | .error e => .error (.failed e)
  | .ok response =>
    if !controlPlaneSuccess response.status then .error (.controlPlane response)
    else match acquiredToken response.body with
    | .error e => .error (.failed e)
    | .ok token => .ok (response, newDescriptor env a token response)

def afterRenewal (leaseId : Text) (d : AuthoritativeLeaseDescriptor) (ttlMs : Nat) (s : AppState) :
    BridgeResult ControlPlaneResponse → Reply × AppState
  | .error e => (.failed e, s)
  | .ok response =>
    if !controlPlaneSuccess response.status then (.controlPlane response, s)
    else if !confirmsRenewal response.body d.fencingToken then (.failed (.staleFencingToken leaseId), s)
    else
      let d := { d with ttlMs := ttlMs, expiresAt := expiryFromResponse env response.body ttlMs }
      match persistDescriptor s env.now d with
      | (.error e, s) => (.failed e, s)
      | (.ok _, s) => (extended response (.descriptor response d), s)

def tombstone (d : AuthoritativeLeaseDescriptor) : AuthoritativeLeaseDescriptor :=
  { d with status := .released, releasedAt := some env.now.ts, expiresAt := env.now.ts }

def afterRelease (d : AuthoritativeLeaseDescriptor) (s : AppState) :
    BridgeResult ControlPlaneResponse → Reply × AppState
  | .error e => (.failed e, s)
  | .ok response =>
    if !controlPlaneSuccess response.status then (extended response (.descriptor response d), s)
    else match persistDescriptor s env.now (tombstone env d) with
    | (.error e, s) => (.failed e, s)
    | (.ok _, s) => (extended response (.descriptor response (tombstone env d)), s)

def renewalCall (d : AuthoritativeLeaseDescriptor) (ttlMs : Nat) : ControlPlaneCall :=
  .renew d.repository d.paths d.agentKey d.fencingToken ttlMs

def releaseCall (d : AuthoritativeLeaseDescriptor) : ControlPlaneCall := .release d.agentKey d.fencingToken

section Handlers
variable (s : AppState)

theorem storeDescriptor_eq (w : Surroundings) (now : Now) (d : AuthoritativeLeaseDescriptor) :
    storeDescriptor s w now d =
      match s.createOrGetChannel w now registryChannel registryTopic d.agentKey with
      | (.error e, s) => (.error e, s)
      | (.ok _, s) => fileDescriptor s now d := rfl

theorem acquire_eq (body : Option Json) :
    acquire env body s =
      match acquireChecks s body with
      | .error e => .quiet (.failed e) s
      | .ok a => match grantedDescriptor env a (env.controlPlane a.call) with
        | .error reply => ⟨reply, s, [a.call]⟩
        | .ok (response, d) => match storeDescriptor s env.surroundings env.now d with
          | (.error e, s) => ⟨.failed e, s, [a.call, releaseCall d]⟩
          | (.ok _, s) => ⟨extended response (.descriptor response d), s, [a.call]⟩ := by
  unfold acquire grantedDescriptor
  cases acquireChecks s body with
  | error e => rfl
  | ok a =>
    dsimp only
    cases env.controlPlane a.call with
    | error e => rfl
    | ok response =>
      dsimp only
      by_cases hsuccess : (!controlPlaneSuccess response.status) = true
      · rw [if_pos hsuccess, if_pos hsuccess]
      · rw [if_neg hsuccess, if_neg hsuccess]
        cases acquiredToken response.body <;> rfl

theorem renew_eq (leaseId : Text) (body : Option Json) :
    renew env leaseId body s =
      match renewChecks env s leaseId body with
      | .error e => .quiet (.failed e) s
      | .ok (d, ttlMs) =>
        let r := afterRenewal env leaseId d ttlMs s (env.controlPlane (renewalCall d ttlMs))
        ⟨r.1, r.2, [renewalCall d ttlMs]⟩ := by
  unfold renew afterRenewal
  cases renewChecks env s leaseId body with
  | error e => rfl
  | ok checked =>
    dsimp only [renewalCall]
    cases env.controlPlane _ with
    | error e => rfl
    | ok response =>
      dsimp only
      split_ifs
      · rfl
      · rfl
      · cases persistDescriptor s env.now _ with
        | mk r s => cases r <;> rfl

theorem release_eq (leaseId : Text) (body : Option Json) :
    release env leaseId body s =
      match releaseChecks env s leaseId body with
      | .error e => .quiet (.failed e) s
      | .ok d =>
        let r := afterRelease env d s (env.controlPlane (releaseCall d))
        ⟨r.1, r.2, [releaseCall d]⟩ := by
  unfold release afterRelease
  cases releaseChecks env s leaseId body with
  | error e => rfl
  | ok d =>
    dsimp only [releaseCall]
    cases env.controlPlane _ with
    | error e => rfl
    | ok response =>
      dsimp only [tombstone]
      split_ifs
      · rfl
      · cases persistDescriptor s env.now _ with
        | mk r s => cases r <;> rfl

end Handlers
end LeaseDescriptors

open LeaseDescriptors

inductive AcquirePhase
  /-- It waits for the control plane. -/
  | asked
  | granted (response : ControlPlaneResponse) (d : AuthoritativeLeaseDescriptor)
  /-- The registry channel is there, the descriptor waits for the lock. -/
  | registering (response : ControlPlaneResponse) (d : AuthoritativeLeaseDescriptor)
  | answered (reply : Reply)

/-- An acquisition past its checks, with what the control plane answered and the calls it made. -/
structure Acquiring where
  asked : Acquisition
  answer : Option (BridgeResult ControlPlaneResponse)
  calls : List ControlPlaneCall
  phase : AcquirePhase

inductive AcquireEvent
  | answer (answer : BridgeResult ControlPlaneResponse)
  | channel
  | file

namespace Acquiring

def givesBack (x : Acquiring) (d : AuthoritativeLeaseDescriptor) (e : BridgeError) : Acquiring :=
  { x with calls := x.calls ++ [releaseCall d], phase := .answered (.failed e) }

def next (x : Acquiring) (env : Env) (s : AppState) (event : AcquireEvent) : Acquiring × AppState :=
  match x.phase, event with
  | .asked, .answer answer => ({ x with
      answer := some answer
      phase := match grantedDescriptor env x.asked answer with
        | .error reply => .answered reply
        | .ok (response, d) => .granted response d }, s)
  | .granted response d, .channel =>
    match s.createOrGetChannel env.surroundings env.now registryChannel registryTopic d.agentKey with
    | (.error e, s) => (x.givesBack d e, s)
    | (.ok _, s) => ({ x with phase := .registering response d }, s)
  | .registering response d, .file =>
    match fileDescriptor s env.now d with
    | (.error e, s) => (x.givesBack d e, s)
    | (.ok _, s) => ({ x with phase := .answered (extended response (.descriptor response d)) }, s)
  | _, _ => (x, s)

end Acquiring

/-- A renewal or release that holds the mutation lock. -/
inductive Mutation
  | renewing (leaseId : Text) (d : AuthoritativeLeaseDescriptor) (ttlMs : Nat)
  | releasing (d : AuthoritativeLeaseDescriptor)

namespace Mutation

def descriptor : Mutation → AuthoritativeLeaseDescriptor
  | .renewing _ d _ => d
  | .releasing d => d

def call : Mutation → ControlPlaneCall
  | .renewing _ d ttlMs => renewalCall d ttlMs
  | .releasing d => releaseCall d

def after (env : Env) (s : AppState) (answer : BridgeResult ControlPlaneResponse) : Mutation → AppState
  | .renewing leaseId d ttlMs => (afterRenewal env leaseId d ttlMs s answer).2
  | .releasing d => (afterRelease env d s answer).2

end Mutation

/-- The bridge with its acquisitions, the holder of the mutation lock, and the calls of all
renewals and releases, oldest first. -/
structure LeaseRequests where
  state : AppState
  acquisitions : List Acquiring
  held : Option Mutation
  mutations : List ControlPlaneCall

inductive LeaseRequestAction
  | acquire (body : Option Json)
  | acquiring (env : LeaseEnv) (i : Nat) (event : AcquireEvent)
  | renew (env : LeaseEnv) (leaseId : Text) (body : Option Json)
  | release (env : LeaseEnv) (leaseId : Text) (body : Option Json)
  /-- The control plane answers the holder of the lock. -/
  | answer (env : LeaseEnv) (answer : BridgeResult ControlPlaneResponse)
  /-- Anything that leaves the registry alone. -/
  | elsewhere (f : AppState → AppState)
      (h : ∀ s key, (f s).entry registryChannel key = s.entry registryChannel key)

namespace LeaseRequests

def init (config : Config) : LeaseRequests := ⟨.new config, [], none, []⟩

def begins (w : LeaseRequests) (m : Mutation) : LeaseRequests :=
  { w with held := some m, mutations := w.mutations ++ [m.call] }

/-- The mutation lock is needed and taken. -/
def blocks (w : LeaseRequests) (event : AcquireEvent) : Bool :=
  match event with
  | .file => w.held.isSome
  | _ => false

def step (w : LeaseRequests) : LeaseRequestAction → LeaseRequests
  | .acquire body =>
    match acquireChecks w.state body with
    | .error _ => w
    | .ok a => { w with acquisitions := w.acquisitions ++ [⟨a, none, [a.call], .asked⟩] }
  | .acquiring env i event =>
    match w.acquisitions[i]? with
    | none => w
    | some x =>
      if w.blocks event then w
      else
        let r := x.next env.env w.state event
        { w with acquisitions := w.acquisitions.set i r.1, state := r.2 }
  | .renew env leaseId body =>
    if w.held.isSome then w
    else match renewChecks env.env w.state leaseId body with
    | .error _ => w
    | .ok (d, ttlMs) => w.begins (.renewing leaseId d ttlMs)
  | .release env leaseId body =>
    if w.held.isSome then w
    else match releaseChecks env.env w.state leaseId body with
    | .error _ => w
    | .ok d => w.begins (.releasing d)
  | .answer env answer =>
    match w.held with
    | none => w
    | some m => { w with held := none, state := m.after env.env w.state answer }
  | .elsewhere f _ => { w with state := f w.state }

abbrev run (config : Config) (as : List LeaseRequestAction) : LeaseRequests := Run.exec step (init config) as

end LeaseRequests
end AgentBridge
