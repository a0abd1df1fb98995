import AgentBridge.Lease.Registry
import AgentBridge.State.Effects
import AgentBridge.State.Slugs

/-! The lease descriptors over any interleaving of requests: what identifies a lease never
changes, a released one stays released, and the control plane hears only from owners. -/

namespace AgentBridge
open Http LeaseDescriptors

def AppState.descriptor (s : AppState) (leaseId : Text) : Option AuthoritativeLeaseDescriptor :=
  (s.entry registryChannel (descriptorKey leaseId)).bind fun e =>
    match e.value with
    | .leaseDescriptor d => some d
    | _ => none

/-- The same lease: what a renewal and a release leave alone. -/
structure AuthoritativeLeaseDescriptor.SameLease (d d' : AuthoritativeLeaseDescriptor) : Prop where
  leaseId : d.leaseId = d'.leaseId
  repository : d.repository = d'.repository
  paths : d.paths = d'.paths
  agentKey : d.agentKey = d'.agentKey
  fencingToken : d.fencingToken = d'.fencingToken
  acquiredAt : d.acquiredAt = d'.acquiredAt

theorem AuthoritativeLeaseDescriptor.SameLease.trans {a b c : AuthoritativeLeaseDescriptor} (h : a.SameLease b)
    (h' : b.SameLease c) : a.SameLease c :=
  ⟨h.leaseId.trans h'.leaseId, h.repository.trans h'.repository, h.paths.trans h'.paths,
    h.agentKey.trans h'.agentKey, h.fencingToken.trans h'.fencingToken, h.acquiredAt.trans h'.acquiredAt⟩

section Keys
variable {id id' : Text} {s s' : AppState} {d : AuthoritativeLeaseDescriptor}

theorem descriptorKey_injective : Function.Injective descriptorKey := fun _ _ h => List.append_cancel_left h

def Plain (leaseId : Text) : Prop := Text.trim (descriptorKey leaseId) = descriptorKey leaseId

theorem plain_newId (env : LeaseEnv) (n : Nat) : Plain (env.env.newId n) := by
  refine Text.trim_eq_self fun c hc => ?_
  rcases List.mem_append.mp hc with hc | hc
  · have hpre : ∀ c ∈ contextPrefix, Text.isWhitespace c = false := Text.spaceless_of_all (by decide)
    exact hpre c hc
  · exact env.spaceless n c hc

theorem descriptor_of_entries (h : ∀ key, s'.entry registryChannel key = s.entry registryChannel key) (id : Text) :
    s'.descriptor id = s.descriptor id := by
  rw [AppState.descriptor, h]
  rfl

theorem descriptor_of_entry {e : ContextEntry} (h : s.entry registryChannel (descriptorKey id) = some e)
    (hvalue : e.value = .leaseDescriptor d) : s.descriptor id = some d := by
  rw [AppState.descriptor, h, Option.bind_some, hvalue]

end Keys

/-- `d` is filed under its lease, over what was there. -/
def Files (s s' : AppState) (d : AuthoritativeLeaseDescriptor) : Prop :=
  ∀ id, s'.descriptor id = if id = d.leaseId then some d else s.descriptor id

section Writes
variable {s s' : AppState} {now : Now} {d : AuthoritativeLeaseDescriptor} {e : ContextEntry} {err : BridgeError}

theorem persistDescriptor_files (hplain : Plain d.leaseId) (h : persistDescriptor s now d = (.ok e, s')) :
    Files s s' d := by
  obtain ⟨hvalue, -, -, hentry⟩ := entry_setContextInternal h
  intro id
  rw [AppState.descriptor, hentry, hplain]
  by_cases hid : id = d.leaseId
  · rw [if_pos ⟨rfl, congrArg descriptorKey hid⟩, if_pos hid, Option.bind_some, hvalue]
  · rw [if_neg fun hk => hid (descriptorKey_injective hk.2), if_neg hid]
    rfl

theorem persistDescriptor_error (h : persistDescriptor s now d = (.error err, s')) : s' = s :=
  setContextInternal_error h

theorem getContextKeyInternal_none {slug key : Text} (h : s.getContextKeyInternal slug key = .ok none) :
    s.entry slug key = none := by
  unfold AppState.getContextKeyInternal at h
  unfold AppState.entry
  cases hch : s.channels.get slug with
  | none => rfl
  | some ch =>
    rw [hch] at h
    exact Except.ok.inj h

theorem getContextKeyInternal_some {slug key : Text} (h : s.getContextKeyInternal slug key = .ok (some e)) :
    s.entry slug key = some e := by
  unfold AppState.getContextKeyInternal at h
  cases hch : s.channels.get slug with
  | none =>
    rw [hch] at h
    cases h
  | some ch =>
    rw [hch] at h
    rw [entry_of_channel hch]
    exact Except.ok.inj h

theorem fileDescriptor_files (hplain : Plain d.leaseId) (h : fileDescriptor s now d = (.ok e, s')) :
    s.descriptor d.leaseId = none ∧ Files s s' d := by
  unfold fileDescriptor at h
  cases hread : s.getContextKeyInternal registryChannel (descriptorKey d.leaseId) with
  | error err =>
    rw [hread] at h
    cases h
  | ok found =>
    rw [hread] at h
    cases found with
    | some old => cases h
    | none =>
      refine ⟨?_, persistDescriptor_files hplain h⟩
      rw [AppState.descriptor, getContextKeyInternal_none hread]
      rfl

theorem fileDescriptor_error (h : fileDescriptor s now d = (.error err, s')) : s' = s := by
  unfold fileDescriptor at h
  cases hread : s.getContextKeyInternal registryChannel (descriptorKey d.leaseId) with
  | error e =>
    rw [hread] at h
    cases h
    rfl
  | ok found =>
    rw [hread] at h
    cases found with
    | some old =>
      cases h
      rfl
    | none => exact persistDescriptor_error h

theorem createOrGetChannel_entry (s : AppState) (w : Surroundings) (now : Now) (slug topic createdBy c k : Text) :
    (s.createOrGetChannel w now slug topic createdBy).2.entry c k = s.entry c k :=
  (createOrGetChannel_effect s now slug w topic createdBy).entry c k

end Writes

def Registered (s : AppState) : Prop :=
  ∀ id d, s.descriptor id = some d → d.leaseId = id ∧ Plain id ∧ 0 < d.fencingToken

/-- What a request does to the stored descriptors. -/
inductive RegistryMove (s s' : AppState) : Prop
  | kept (h : ∀ id, s'.descriptor id = s.descriptor id)
  | filed {d : AuthoritativeLeaseDescriptor} (hnew : s.descriptor d.leaseId = none) (hplain : Plain d.leaseId)
      (htoken : 0 < d.fencingToken) (h : Files s s' d)
  | mutated {d d' : AuthoritativeLeaseDescriptor} (hold : s.descriptor d.leaseId = some d)
      (hactive : d.status = .active) (hsame : d'.SameLease d) (h : Files s s' d')

section Moves
variable {s s' : AppState} {d : AuthoritativeLeaseDescriptor} {id : Text}

theorem RegistryMove.registered (h : RegistryMove s s') (hs : Registered s) : Registered s' := by
  intro id d hd
  cases h with
  | kept h =>
    rw [h] at hd
    exact hs id d hd
  | filed hnew hplain htoken h =>
    rw [h] at hd
    split_ifs at hd with hid
    · cases hd
      exact ⟨hid.symm, hid ▸ hplain, htoken⟩
    · exact hs id d hd
  | @mutated old d' hold hactive hsame h =>
    rw [h] at hd
    split_ifs at hd with hid
    · cases hd
      obtain ⟨-, hplain, htoken⟩ := hs _ _ hold
      refine ⟨hid.symm, ?_, hsame.fencingToken ▸ htoken⟩
      rw [hid, hsame.leaseId]
      exact hplain
    · exact hs id d hd

/-- A stored descriptor stays that of its lease, and a released one stays as it is. -/
theorem RegistryMove.keeps (h : RegistryMove s s') (hd : s.descriptor id = some d) :
    ∃ later, s'.descriptor id = some later ∧ later.SameLease d ∧ (d.status = .released → later = d) := by
  cases h with
  | kept h => exact ⟨d, (h id).trans hd, ⟨rfl, rfl, rfl, rfl, rfl, rfl⟩, fun _ => rfl⟩
  | @filed new hnew hplain htoken h =>
    have hne : id ≠ new.leaseId := by
      rintro rfl
      rw [hnew] at hd
      cases hd
    exact ⟨d, (h id).trans ((if_neg hne).trans hd), ⟨rfl, rfl, rfl, rfl, rfl, rfl⟩, fun _ => rfl⟩
  | @mutated old d' hold hactive hsame h =>
    by_cases hid : id = d'.leaseId
    · -- the mutated lease is the one that was active
      rw [hid, hsame.leaseId, hold] at hd
      cases hd
      refine ⟨d', (h id).trans (if_pos hid), hsame, fun hreleased => ?_⟩
      rw [hactive] at hreleased
      cases hreleased
    · exact ⟨d, (h id).trans ((if_neg hid).trans hd), ⟨rfl, rfl, rfl, rfl, rfl, rfl⟩, fun _ => rfl⟩

end Moves

section Checks
variable {env : Env} {s : AppState} {leaseId : Text} {body : Option Json} {d : AuthoritativeLeaseDescriptor}

structure Current (env : Env) (s : AppState) (leaseId : Text) (d : AuthoritativeLeaseDescriptor) : Prop where
  stored : s.descriptor leaseId = some d
  active : d.status = .active
  unexpired : descriptorExpired env d = false

theorem loadActiveDescriptor_ok (h : loadActiveDescriptor env s leaseId = .ok d) : Current env s leaseId d := by
  unfold loadActiveDescriptor at h
  cases hread : s.getContextKeyInternal registryChannel (descriptorKey leaseId) with
  | error e =>
    rw [hread] at h
    cases h
  | ok found =>
    rw [hread] at h
    cases found with
    | none => cases h
    | some entry =>
      dsimp only at h
      cases hvalue : entry.value with
      | leaseDescriptor d' =>
        rw [hvalue] at h
        dsimp only at h
        by_cases hdead : (d'.status ≠ .active || descriptorExpired env d') = true
        · rw [if_pos hdead] at h
          cases h
        · rw [if_neg hdead] at h
          cases h
          rw [Bool.or_eq_true, not_or, decide_eq_true_eq, not_not, Bool.not_eq_true] at hdead
          exact ⟨descriptor_of_entry (getContextKeyInternal_some hread) hvalue, hdead.1, hdead.2⟩
      | _ =>
        rw [hvalue] at h
        cases h

theorem validateOwnerAndFence_ok {agentKey : Text} {token : Nat}
    (h : validateOwnerAndFence d agentKey token = .ok ()) :
    d.agentKey = Text.trim agentKey ∧ d.fencingToken = token := by
  unfold validateOwnerAndFence at h
  split_ifs at h with howner hfence
  exact ⟨not_not.mp howner, not_not.mp hfence⟩

theorem renewChecks_ok {ttlMs : Nat} (h : renewChecks env s leaseId body = .ok (d, ttlMs)) :
    ∃ req, body.bind MutateFileLeaseReq.read = some req ∧ Current env s leaseId d ∧
      d.agentKey = Text.trim req.agentKey ∧ d.fencingToken = req.fencingToken := by
  unfold renewChecks at h
  cases hread : body.bind MutateFileLeaseReq.read with
  | none =>
    rw [hread] at h
    cases h
  | some req =>
    rw [hread] at h
    obtain ⟨ttl, -, h⟩ := Except.bind_eq_ok.mp h
    obtain ⟨found, hload, h⟩ := Except.bind_eq_ok.mp h
    obtain ⟨_, hvalid, h⟩ := Except.bind_eq_ok.mp h
    cases h
    exact ⟨req, rfl, loadActiveDescriptor_ok hload, validateOwnerAndFence_ok hvalid⟩

theorem releaseChecks_ok (h : releaseChecks env s leaseId body = .ok d) :
    ∃ req, body.bind ReleaseFileLeaseReq.read = some req ∧ Current env s leaseId d ∧
      d.agentKey = Text.trim req.agentKey ∧ d.fencingToken = req.fencingToken := by
  unfold releaseChecks at h
  cases hread : body.bind ReleaseFileLeaseReq.read with
  | none =>
    rw [hread] at h
    cases h
  | some req =>
    rw [hread] at h
    obtain ⟨found, hload, h⟩ := Except.bind_eq_ok.mp h
    obtain ⟨_, hvalid, h⟩ := Except.bind_eq_ok.mp h
    cases h
    exact ⟨req, rfl, loadActiveDescriptor_ok hload, validateOwnerAndFence_ok hvalid⟩

end Checks

structure Grants (response : ControlPlaneResponse) (token : Nat) : Prop where
  success : controlPlaneSuccess response.status = true
  acquired : findBool response.body "acquired" = some true
  positive : 0 < token
  token : findU64 response.body "fencing_token" = some token

/-- An answer of the control plane that renews a lease under its token. -/
def Confirms (answer : BridgeResult ControlPlaneResponse) (token : Nat) : Prop :=
  ∃ response, answer = .ok response ∧ controlPlaneSuccess response.status = true ∧
    findBool response.body "renewed" = some true ∧ findU64 response.body "fencing_token" = some token

section Answers
variable {env : Env} {s : AppState} {d : AuthoritativeLeaseDescriptor} {a : Acquisition}

theorem acquiredToken_eq_ok {body : Json} {token : Nat} :
    acquiredToken body = .ok token ↔
      findBool body "acquired" = some true ∧ findU64 body "fencing_token" = some token ∧ 0 < token := by
  unfold acquiredToken
  cases hfound : findU64 body "fencing_token" with
  | none => simp
  | some found =>
    by_cases hpos : 0 < found
    · rw [Option.filter_some_pos (by simpa using hpos)]
      by_cases hacquired : findBool body "acquired" = some true
      · simp only [hacquired, ne_eq, not_true_eq_false, if_false, Except.ok.injEq, Option.some.injEq, true_and]
        exact ⟨fun h => ⟨h, h ▸ hpos⟩, fun h => h.1⟩
      · simp [hacquired]
    · rw [Option.filter_some_neg (by simpa using hpos)]
      simp only [reduceCtorEq, Option.some.injEq, false_iff, not_and]
      rintro - rfl
      exact hpos

theorem grantedDescriptor_eq_ok {answer : BridgeResult ControlPlaneResponse} {response : ControlPlaneResponse} :
    grantedDescriptor env a answer = .ok (response, d) ↔
      ∃ token, answer = .ok response ∧ Grants response token ∧ d = newDescriptor env a token response := by
  unfold grantedDescriptor
  cases answer with
  | error e => simp
  | ok r =>
    dsimp only
    by_cases hsuccess : controlPlaneSuccess r.status = true
    · rw [hsuccess, Bool.not_true, if_neg Bool.false_ne_true]
      cases htoken : acquiredToken r.body with
      | error e =>
        dsimp only
        refine ⟨nofun, ?_⟩
        rintro ⟨token, heq, hgrants, -⟩
        cases heq
        rw [acquiredToken_eq_ok.mpr ⟨hgrants.acquired, hgrants.token, hgrants.positive⟩] at htoken
        cases htoken
      | ok token =>
        dsimp only
        obtain ⟨hacquired, hfound, hpos⟩ := acquiredToken_eq_ok.mp htoken
        constructor
        · intro h
          cases h
          exact ⟨token, rfl, ⟨hsuccess, hacquired, hpos, hfound⟩, rfl⟩
        · rintro ⟨token', heq, hgrants, rfl⟩
          cases heq
          have hsame := hgrants.token
          rw [hfound] at hsame
          cases hsame
          rfl
    · rw [Bool.not_eq_true] at hsuccess
      rw [hsuccess, Bool.not_false, if_pos rfl]
      refine ⟨nofun, ?_⟩
      rintro ⟨token, heq, hgrants, -⟩
      cases heq
      exact absurd (hsuccess.symm.trans hgrants.success) Bool.false_ne_true

theorem afterRenewal_unconfirmed {leaseId : Text} {ttlMs : Nat} {answer : BridgeResult ControlPlaneResponse}
    (htoken : 0 < d.fencingToken) (h : ¬ Confirms answer d.fencingToken) :
    (afterRenewal env leaseId d ttlMs s answer).2 = s := by
  unfold afterRenewal
  cases answer with
  | error e => rfl
  | ok response =>
    dsimp only
    split_ifs with hstatus hconfirms
    · rfl
    · rfl
    · exfalso
      refine h ⟨response, rfl, by simpa using hstatus, ?_⟩
      rw [Bool.not_eq_true', Bool.not_eq_false, confirmsRenewal, Bool.and_eq_true, decide_eq_true_eq] at hconfirms
      obtain ⟨hrenewed, hsame⟩ := hconfirms
      constructor
      · cases hfound : findBool response.body "renewed" with
        | none =>
          rw [hfound] at hrenewed
          cases hrenewed
        | some renewed =>
          rw [hfound] at hrenewed
          exact congrArg some hrenewed
      · cases hfound : findU64 response.body "fencing_token" with
        | none =>
          rw [hfound, Option.getD_none] at hsame
          omega
        | some token =>
          rw [hfound] at hsame
          exact congrArg some hsame

/-- The state `s'` is `s`, or the lease was written over. -/
def Rewrites (s : AppState) (d : AuthoritativeLeaseDescriptor) (s' : AppState) : Prop :=
  s' = s ∨ ∃ now d' e, d'.SameLease d ∧ persistDescriptor s now d' = (.ok e, s')

theorem rewrites_persisted {d' : AuthoritativeLeaseDescriptor} (now : Now) (hsame : d'.SameLease d) :
    Rewrites s d (persistDescriptor s now d').2 := by
  rcases hpersist : persistDescriptor s now d' with ⟨e | entry, s'⟩
  · exact .inl (persistDescriptor_error hpersist)
  · exact .inr ⟨now, d', entry, hsame, hpersist⟩

theorem Rewrites.moves {s' : AppState} (h : Rewrites s d s') (hplain : Plain d.leaseId)
    (hold : s.descriptor d.leaseId = some d) (hactive : d.status = .active) : RegistryMove s s' := by
  rcases h with rfl | ⟨now, d', e, hsame, hpersist⟩
  · exact .kept fun _ => rfl
  · exact .mutated hold hactive hsame (persistDescriptor_files (hsame.leaseId ▸ hplain) hpersist)

theorem afterRenewal_rewrites {leaseId : Text} {ttlMs : Nat} (answer : BridgeResult ControlPlaneResponse) :
    Rewrites s d (afterRenewal env leaseId d ttlMs s answer).2 := by
  unfold afterRenewal
  cases answer with
  | error e => exact .inl rfl
  | ok response =>
    dsimp only
    split_ifs
    · exact .inl rfl
    · exact .inl rfl
    · generalize hrenewed : { d with ttlMs := ttlMs, expiresAt := expiryFromResponse env response.body ttlMs } = d'
      have hsame : d'.SameLease d := hrenewed ▸ ⟨rfl, rfl, rfl, rfl, rfl, rfl⟩
      have hrewrites := @rewrites_persisted s d d' env.now hsame
      generalize persistDescriptor s env.now d' = persisted at hrewrites ⊢
      rcases persisted with ⟨e | entry, s'⟩ <;> exact hrewrites

theorem tombstone_sameLease (env : Env) (d : AuthoritativeLeaseDescriptor) : (tombstone env d).SameLease d := by
  unfold tombstone
  exact ⟨rfl, rfl, rfl, rfl, rfl, rfl⟩

theorem afterRelease_rewrites (answer : BridgeResult ControlPlaneResponse) :
    Rewrites s d (afterRelease env d s answer).2 := by
  unfold afterRelease
  cases answer with
  | error e => exact .inl rfl
  | ok response =>
    dsimp only
    split_ifs
    · exact .inl rfl
    · have hrewrites := rewrites_persisted (s := s) env.now (tombstone_sameLease env d)
      generalize persistDescriptor s env.now (tombstone env d) = persisted at hrewrites ⊢
      rcases persisted with ⟨e | entry, s'⟩ <;> exact hrewrites

end Answers

namespace Acquiring
variable {x : Acquiring} {env : LeaseEnv} {s : AppState} {event : AcquireEvent}

def Granted (x : Acquiring) (token : Nat) : Prop :=
  ∃ response, x.answer = some (.ok response) ∧ Grants response token

theorem Granted.unique {token token' : Nat} (h : x.Granted token) (h' : x.Granted token') : token = token' := by
  obtain ⟨response, hanswer, hgrants⟩ := h
  obtain ⟨response', hanswer', hgrants'⟩ := h'
  rw [hanswer] at hanswer'
  cases hanswer'
  exact Option.some.inj (hgrants.token.symm.trans hgrants'.token)

structure Describes (x : Acquiring) (response : ControlPlaneResponse) (d : AuthoritativeLeaseDescriptor) : Prop where
  answer : x.answer = some (.ok response)
  grants : Grants response d.fencingToken
  repository : d.repository = x.asked.repository
  paths : d.paths = [x.asked.path]
  owner : d.agentKey = x.asked.agentKey
  plain : Plain d.leaseId
  calls : x.calls = [x.asked.call]

/-- A descriptor of the acquisition is in the registry. -/
def Stored (x : Acquiring) (s : AppState) (token : Nat) : Prop :=
  ∃ d, s.descriptor d.leaseId = some d ∧ d.repository = x.asked.repository ∧ d.paths = [x.asked.path] ∧
    d.agentKey = x.asked.agentKey ∧ d.fencingToken = token

/-- The reply to an acquisition that is stored: its descriptor, or none at all where the body of the answer cannot
take it. -/
def Describing (x : Acquiring) (reply : Reply) (token : Nat) : Prop :=
  ∃ response, x.answer = some (.ok response) ∧
    ((∃ d, reply = .descriptor response d ∧ d.fencingToken = token) ∧ isIndexable response.body = true ∨
      reply = .panicked ∧ isIndexable response.body = false)

/-- An acquisition that is over: what was granted is stored, or given back with an error. -/
structure Settled (x : Acquiring) (s : AppState) (reply : Reply) : Prop where
  ungranted : (∀ token, ¬ x.Granted token) → x.calls = [x.asked.call] ∧ reply ≠ .panicked
  granted : ∀ token, x.Granted token →
    x.Stored s token ∧ x.Describing reply token ∧ x.calls = [x.asked.call] ∨
    (∃ e, reply = .failed e) ∧ x.calls = [x.asked.call, .release x.asked.agentKey token]

def Consistent (x : Acquiring) (s : AppState) : Prop :=
  match x.phase with
  | .asked => x.answer = none ∧ x.calls = [x.asked.call]
  | .granted response d => x.Describes response d
  | .registering response d => x.Describes response d
  | .answered reply => x.Settled s reply

theorem Describes.granted {response : ControlPlaneResponse} {d : AuthoritativeLeaseDescriptor}
    (h : x.Describes response d) : x.Granted d.fencingToken := ⟨response, h.answer, h.grants⟩

theorem Describes.givesBack {response : ControlPlaneResponse} {d : AuthoritativeLeaseDescriptor}
    (h : x.Describes response d) (e : BridgeError) (s : AppState) : (x.givesBack d e).Consistent s := by
  refine ⟨fun hnone => absurd h.granted (hnone _), fun token htoken => .inr ⟨⟨e, rfl⟩, ?_⟩⟩
  have hsame : token = d.fencingToken := Granted.unique htoken h.granted
  change x.calls ++ [releaseCall d] = _
  rw [h.calls, hsame, releaseCall, h.owner]
  rfl

theorem Describes.stored {response : ControlPlaneResponse} {d : AuthoritativeLeaseDescriptor}
    (h : x.Describes response d) (hstored : s.descriptor d.leaseId = some d) :
    Consistent { x with phase := .answered (extended response (.descriptor response d)) } s := by
  refine ⟨fun hnone => absurd h.granted (hnone _), fun token htoken => .inl ⟨?_, ⟨response, h.answer, ?_⟩, h.calls⟩⟩
  · exact ⟨d, hstored, h.repository, h.paths, h.owner, Granted.unique h.granted htoken⟩
  · unfold extended
    split_ifs with hindexable
    · exact .inl ⟨⟨d, rfl, Granted.unique h.granted htoken⟩, hindexable⟩
    · exact .inr ⟨rfl, by simpa using hindexable⟩

theorem grantedDescriptor_answers {env : Env} {a : Acquisition} {answer : BridgeResult ControlPlaneResponse}
    {reply : Reply} (h : grantedDescriptor env a answer = .error reply) : reply ≠ .panicked := by
  unfold grantedDescriptor at h
  cases answer with
  | error e =>
    cases h
    rintro ⟨⟩
  | ok response =>
    dsimp only at h
    split_ifs at h
    · cases h
      rintro ⟨⟩
    · cases htoken : acquiredToken response.body with
      | error e =>
        rw [htoken] at h
        cases h
        rintro ⟨⟩
      | ok token =>
        rw [htoken] at h
        cases h

theorem answer_consistent (hcalls : x.calls = [x.asked.call]) (answer : BridgeResult ControlPlaneResponse) :
    Consistent { x with
      answer := some answer
      phase := match grantedDescriptor env.env x.asked answer with
        | .error reply => .answered reply
        | .ok (response, d) => .granted response d } s := by
  cases hgranted : grantedDescriptor env.env x.asked answer with
  | error reply =>
    refine ⟨fun _ => ⟨hcalls, grantedDescriptor_answers hgranted⟩, fun token htoken => ?_⟩
    obtain ⟨response, hanswer, hgrants⟩ := htoken
    cases hanswer
    rw [grantedDescriptor_eq_ok.mpr ⟨token, rfl, hgrants, rfl⟩] at hgranted
    cases hgranted
  | ok made =>
    obtain ⟨response, d⟩ := made
    obtain ⟨token, rfl, hgrants, rfl⟩ := grantedDescriptor_eq_ok.mp hgranted
    exact ⟨rfl, hgrants, rfl, rfl, rfl, plain_newId env 0, hcalls⟩

theorem Consistent.moves {s' : AppState} (hx : x.Consistent s) (hmove : RegistryMove s s') : x.Consistent s' := by
  unfold Consistent at hx ⊢
  cases hphase : x.phase with
  | answered reply =>
    rw [hphase] at hx
    refine ⟨hx.ungranted, fun token htoken => ?_⟩
    rcases hx.granted token htoken with ⟨⟨d, hd, hrepository, hpaths, howner, hfence⟩, hreply⟩ | hback
    · obtain ⟨later, hlater, hsame, -⟩ := hmove.keeps hd
      refine .inl ⟨⟨later, hsame.leaseId ▸ hlater, ?_⟩, hreply⟩
      exact ⟨hsame.repository.trans hrepository, hsame.paths.trans hpaths, hsame.agentKey.trans howner,
        hsame.fencingToken.trans hfence⟩
    · exact .inr hback
  | asked | granted | registering =>
    rw [hphase] at hx
    exact hx

theorem next_consistent (hx : x.Consistent s) :
    (x.next env.env s event).1.Consistent (x.next env.env s event).2 ∧ RegistryMove s (x.next env.env s event).2 ∧
    (event ≠ .file → ∀ id, (x.next env.env s event).2.descriptor id = s.descriptor id) := by
  obtain ⟨asked, answer, calls, phase⟩ := x
  have hsame : RegistryMove s s := .kept fun _ => rfl
  cases phase with
  | answered reply => exact ⟨hx, hsame, fun _ _ => rfl⟩
  | asked =>
    cases event with
    | answer answer => exact ⟨answer_consistent hx.2 answer, hsame, fun _ _ => rfl⟩
    | channel => exact ⟨hx, hsame, fun _ _ => rfl⟩
    | file => exact ⟨hx, hsame, fun _ _ => rfl⟩
  | granted response d =>
    cases event with
    | answer answer => exact ⟨hx, hsame, fun _ _ => rfl⟩
    | file => exact ⟨hx, hsame, fun _ _ => rfl⟩
    | channel =>
      have hentries := createOrGetChannel_entry s env.env.surroundings env.env.now registryChannel registryTopic
        d.agentKey registryChannel
      unfold next
      dsimp only
      rcases hcreate : s.createOrGetChannel env.env.surroundings env.env.now registryChannel registryTopic
        d.agentKey with ⟨e | channel, s'⟩
      · rw [hcreate] at hentries
        have hkept := descriptor_of_entries hentries
        exact ⟨Describes.givesBack hx e s', .kept hkept, fun _ => hkept⟩
      · rw [hcreate] at hentries
        have hkept := descriptor_of_entries hentries
        exact ⟨⟨hx.answer, hx.grants, hx.repository, hx.paths, hx.owner, hx.plain, hx.calls⟩, .kept hkept,
          fun _ => hkept⟩
  | registering response d =>
    cases event with
    | answer answer => exact ⟨hx, hsame, fun _ _ => rfl⟩
    | channel => exact ⟨hx, hsame, fun _ _ => rfl⟩
    | file =>
      refine ⟨?_, ?_, fun hfile => absurd rfl hfile⟩ <;> unfold next <;> dsimp only
      · rcases hfile : fileDescriptor s env.env.now d with ⟨e | entry, s'⟩
        · exact Describes.givesBack hx e s'
        · exact Describes.stored hx (((fileDescriptor_files (Describes.plain hx) hfile).2 _).trans (if_pos rfl))
      · rcases hfile : fileDescriptor s env.env.now d with ⟨e | entry, s'⟩
        · rw [fileDescriptor_error hfile]
          exact hsame
        · obtain ⟨hnew, hfiles⟩ := fileDescriptor_files (Describes.plain hx) hfile
          exact .filed hnew (Describes.plain hx) (Describes.grants hx).positive hfiles

end Acquiring

/-- Descriptors are registered, the lock's holder works on a stored active one, and no grant is lost. -/
structure LeaseRequests.Sound (w : LeaseRequests) : Prop where
  registered : Registered w.state
  held : ∀ m, w.held = some m →
    w.state.descriptor m.descriptor.leaseId = some m.descriptor ∧ m.descriptor.status = .active
  consistent : ∀ x ∈ w.acquisitions, x.Consistent w.state

/-- The mutation call a request makes: it names the lease as stored, active and unexpired, and the
request comes from its owner with its token. -/
inductive Authorized (s : AppState) : LeaseRequestAction → ControlPlaneCall → Prop
  | renew {env : LeaseEnv} {leaseId : Text} {body : Option Json} {req : MutateFileLeaseReq}
      {d : AuthoritativeLeaseDescriptor} (ttlMs : Nat) (hread : body.bind MutateFileLeaseReq.read = some req)
      (hcurrent : Current env.env s leaseId d) (howner : d.agentKey = Text.trim req.agentKey)
      (htoken : d.fencingToken = req.fencingToken) :
      Authorized s (.renew env leaseId body) (.renew d.repository d.paths d.agentKey d.fencingToken ttlMs)
  | release {env : LeaseEnv} {leaseId : Text} {body : Option Json} {req : ReleaseFileLeaseReq}
      {d : AuthoritativeLeaseDescriptor} (hread : body.bind ReleaseFileLeaseReq.read = some req)
      (hcurrent : Current env.env s leaseId d) (howner : d.agentKey = Text.trim req.agentKey)
      (htoken : d.fencingToken = req.fencingToken) :
      Authorized s (.release env leaseId body) (.release d.agentKey d.fencingToken)

namespace LeaseRequests
variable {w : LeaseRequests}

theorem init_sound (config : Config) : (init config).Sound := by
  refine ⟨fun id d hd => ?_, nofun, fun x hx => absurd hx List.not_mem_nil⟩
  cases hd

theorem Sound.begins (hw : w.Sound) {m : Mutation} {env : Env} {leaseId : Text}
    (hcurrent : Current env w.state leaseId m.descriptor) : (w.begins m).Sound := by
  refine ⟨hw.registered, fun m' hm' => ?_, hw.consistent⟩
  cases hm'
  have hid := (hw.registered _ _ hcurrent.stored).1
  exact ⟨hid.symm ▸ hcurrent.stored, hcurrent.active⟩

/-- One step: the requests stay sound, and the registry makes one move. -/
theorem Sound.step (hw : w.Sound) (a : LeaseRequestAction) :
    (w.step a).Sound ∧ RegistryMove w.state (w.step a).state := by
  have hsame : RegistryMove w.state w.state := .kept fun _ => rfl
  -- the registry is written by a filing and, under the lock, by the answer to a renewal or a release
  cases a with
  | acquire body =>
    rw [LeaseRequests.step]
    cases hchecks : acquireChecks w.state body with
    | error e => exact ⟨hw, hsame⟩
    | ok a =>
      refine ⟨⟨hw.registered, hw.held, fun x hx => ?_⟩, hsame⟩
      rcases List.mem_append.mp hx with hx | hx
      · exact hw.consistent x hx
      · rw [List.mem_singleton.mp hx]
        exact ⟨rfl, rfl⟩
  | acquiring env i event =>
    rw [LeaseRequests.step]
    cases hx : w.acquisitions[i]? with
    | none => exact ⟨hw, hsame⟩
    | some x =>
      dsimp only
      by_cases hblocks : w.blocks event = true
      · rw [if_pos hblocks]
        exact ⟨hw, hsame⟩
      · rw [if_neg hblocks]
        obtain ⟨hconsistent, hmove, hkept⟩ :=
          @Acquiring.next_consistent _ env w.state event
            (hw.consistent x (List.mem_of_getElem? hx))
        refine ⟨⟨hmove.registered hw.registered, fun m hm => ?_, fun y hy => ?_⟩, hmove⟩
        · -- while the lock is held, no descriptor is filed
          have hfile : event ≠ .file := by
            rintro rfl
            refine hblocks ?_
            change w.held.isSome = true
            rw [show w.held = some m from hm]
            rfl
          obtain ⟨hstored, hactive⟩ := hw.held m hm
          exact ⟨(hkept hfile _).trans hstored, hactive⟩
        · rcases List.mem_or_eq_of_mem_set hy with hy | rfl
          · exact (hw.consistent y hy).moves hmove
          · exact hconsistent
  | renew env leaseId body =>
    rw [LeaseRequests.step]
    by_cases hheld : w.held.isSome = true
    · rw [if_pos hheld]
      exact ⟨hw, hsame⟩
    · rw [if_neg hheld]
      cases hchecks : renewChecks env.env w.state leaseId body with
      | error e => exact ⟨hw, hsame⟩
      | ok checked =>
        obtain ⟨d, ttlMs⟩ := checked
        obtain ⟨req, -, hcurrent, -⟩ := renewChecks_ok hchecks
        exact ⟨hw.begins (m := .renewing leaseId d ttlMs) hcurrent, hsame⟩
  | release env leaseId body =>
    rw [LeaseRequests.step]
    by_cases hheld : w.held.isSome = true
    · rw [if_pos hheld]
      exact ⟨hw, hsame⟩
    · rw [if_neg hheld]
      cases hchecks : releaseChecks env.env w.state leaseId body with
      | error e => exact ⟨hw, hsame⟩
      | ok d =>
        obtain ⟨req, -, hcurrent, -⟩ := releaseChecks_ok hchecks
        exact ⟨hw.begins (m := .releasing d) hcurrent, hsame⟩
  | answer env answer =>
    rw [LeaseRequests.step]
    cases hheld : w.held with
    | none => exact ⟨hw, hsame⟩
    | some m =>
      obtain ⟨hstored, hactive⟩ := hw.held m hheld
      have hplain := (hw.registered _ _ hstored).2.1
      have hmove : RegistryMove w.state (m.after env.env w.state answer) := by
        cases m with
        | renewing leaseId d ttlMs => exact (afterRenewal_rewrites answer).moves hplain hstored hactive
        | releasing d => exact (afterRelease_rewrites answer).moves hplain hstored hactive
      exact ⟨⟨hmove.registered hw.registered, nofun, fun x hx => (hw.consistent x hx).moves hmove⟩, hmove⟩
  | elsewhere f h =>
    have hkept : ∀ id, (f w.state).descriptor id = w.state.descriptor id := descriptor_of_entries (h w.state)
    have hmove : RegistryMove w.state (f w.state) := .kept hkept
    refine ⟨⟨hmove.registered hw.registered, fun m hm => ?_, fun x hx => (hw.consistent x hx).moves hmove⟩, hmove⟩
    obtain ⟨hstored, hactive⟩ := hw.held m hm
    exact ⟨(hkept _).trans hstored, hactive⟩

theorem run_sound (config : Config) (as : List LeaseRequestAction) : (run config as).Sound :=
  Run.exec_invariant (fun _ a hw => (hw.step a).1) (init_sound config) as

theorem run_keeps (hw : w.Sound) (as : List LeaseRequestAction) {id : Text} {d : AuthoritativeLeaseDescriptor}
    (hd : w.state.descriptor id = some d) :
    ∃ later, (Run.exec LeaseRequests.step w as).state.descriptor id = some later ∧ later.SameLease d ∧
      (d.status = .released → later = d) := by
  -- what is filed under an id keeps its lease through every step, and a release is final
  induction as generalizing w d with
  | nil => exact ⟨d, hd, ⟨rfl, rfl, rfl, rfl, rfl, rfl⟩, fun _ => rfl⟩
  | cons a as ih =>
    obtain ⟨next, hnext, hsame, hreleased⟩ := (hw.step a).2.keeps hd
    obtain ⟨later, hlater, hsame', hreleased'⟩ := ih (hw.step a).1 hnext
    refine ⟨later, hlater, hsame'.trans hsame, fun hstatus => ?_⟩
    have heq := hreleased hstatus
    exact (hreleased' (heq ▸ hstatus)).trans heq

theorem step_authorized (w : LeaseRequests) (a : LeaseRequestAction) :
    ∃ sent, (w.step a).mutations = w.mutations ++ sent ∧ ∀ call ∈ sent, Authorized w.state a call := by
  have hnone : ∃ sent, w.mutations = w.mutations ++ sent ∧ ∀ call ∈ sent, Authorized w.state a call :=
    ⟨[], (List.append_nil _).symm, fun _ h => absurd h List.not_mem_nil⟩
  -- only a renewal and a release that pass their checks are sent
  cases a with
  | acquire body =>
    rw [LeaseRequests.step]
    split
    · exact hnone
    · exact hnone
  | acquiring env i event =>
    rw [LeaseRequests.step]
    split
    · exact hnone
    · split_ifs
      · exact hnone
      · exact hnone
  | renew env leaseId body =>
    rw [LeaseRequests.step]
    split_ifs
    · exact hnone
    · cases hchecks : renewChecks env.env w.state leaseId body with
      | error e => exact hnone
      | ok checked =>
        obtain ⟨d, ttlMs⟩ := checked
        obtain ⟨req, hread, hcurrent, howner, htoken⟩ := renewChecks_ok hchecks
        refine ⟨[renewalCall d ttlMs], rfl, fun call hcall => ?_⟩
        rw [List.mem_singleton.mp hcall]
        exact .renew ttlMs hread hcurrent howner htoken
  | release env leaseId body =>
    rw [LeaseRequests.step]
    split_ifs
    · exact hnone
    · cases hchecks : releaseChecks env.env w.state leaseId body with
      | error e => exact hnone
      | ok d =>
        obtain ⟨req, hread, hcurrent, howner, htoken⟩ := releaseChecks_ok hchecks
        refine ⟨[releaseCall d], rfl, fun call hcall => ?_⟩
        rw [List.mem_singleton.mp hcall]
        exact .release hread hcurrent howner htoken
  | answer env answer =>
    rw [LeaseRequests.step]
    split
    · exact hnone
    · exact hnone
  | elsewhere f h => exact hnone

end LeaseRequests

/-- In every interleaving of the lease requests: what identifies a stored lease never changes and a
released descriptor never again; every renewal and release names a lease as stored, active and
unexpired, for its owner with its token; an unconfirmed renewal changes nothing; and an
acquisition that was granted is in the registry, with the descriptor as the reply or, where
the control plane answered with a body that cannot take it, without any reply, or has given
back exactly its token and says so. -/
theorem lease_descriptors_authoritative (config : Config) (as : List LeaseRequestAction) :
    (∀ bs leaseId d, (LeaseRequests.run config as).state.descriptor leaseId = some d →
      ∃ later, (LeaseRequests.run config (as ++ bs)).state.descriptor leaseId = some later ∧
        later.SameLease d ∧ (d.status = .released → later = d)) ∧
    (∀ a, ∃ sent, ((LeaseRequests.run config as).step a).mutations =
        (LeaseRequests.run config as).mutations ++ sent ∧
      ∀ call ∈ sent, Authorized (LeaseRequests.run config as).state a call) ∧
    (∀ env leaseId d ttlMs answer, (LeaseRequests.run config as).held = some (.renewing leaseId d ttlMs) →
      ¬ Confirms answer d.fencingToken →
      ((LeaseRequests.run config as).step (.answer env answer)).state = (LeaseRequests.run config as).state) ∧
    ∀ x ∈ (LeaseRequests.run config as).acquisitions, ∀ reply, x.phase = .answered reply →
      x.Settled (LeaseRequests.run config as).state reply := by
  have hw := LeaseRequests.run_sound config as
  refine ⟨fun bs leaseId d hd => ?_, LeaseRequests.step_authorized _, fun env leaseId d ttlMs answer hheld hnot => ?_,
    fun x hx reply hreply => ?_⟩
  · have hkeeps := LeaseRequests.run_keeps hw bs hd
    rwa [← Run.exec_append] at hkeeps
  · rw [LeaseRequests.step, hheld]
    exact afterRenewal_unconfirmed (hw.registered _ _ (hw.held _ hheld).1).2.2 hnot
  · have hconsistent := hw.consistent x hx
    rw [Acquiring.Consistent, hreply] at hconsistent
    exact hconsistent

/-- Version 4 UUIDs that differ in their last twelve digits. -/
def leaseUuid (n : Nat) : Text := "00000000-0000-4000-8000-".toList ++ Timestamp.padded 12 n

theorem spaceless_leaseUuid (n : Nat) : ∀ c ∈ leaseUuid n, Text.isWhitespace c = false := by
  have hhead : ∀ c ∈ "00000000-0000-4000-8000-".toList, Text.isWhitespace c = false := Text.spaceless_of_all (by decide)
  intro c hc
  rcases List.mem_append.mp hc with hc | hc
  · exact hhead c hc
  · refine Text.spaceless_append_decimal (fun c hc => ?_) n c hc
    rw [List.eq_of_mem_replicate hc]
    decide

/-- The `n`-th request at the given millisecond, in whose replies leases expire after the first second. -/
def leaseEnv (n utc : Nat) : LeaseEnv where
  env := {
    now := ⟨utc, utc⟩
    newId := fun _ => leaseUuid n
    surroundings := asciiSurroundings
    controlPlane := fun _ => .error (.controlPlane "connection refused".toList)
    parseRfc3339 := fun value => if value = "1970-01-01T00:00:01Z".toList then some 1000 else none
    parseF32 := fun _ => 0
    iso8601Secs := "1970-01-01T00:00:00Z".toList
    inboxWritable := true }
  spaceless := fun _ => spaceless_leaseUuid n

def leaseAgent : LeaseRequestAction :=
  let agent : Agent := {
    agentKey := "codex".toList
    displayName := "codex".toList
    kind := .codex
    host := none
    metadata := .null
    registeredAt := [] }
  .elsewhere (fun s => (s.registerAgent ⟨0, 0⟩ agent).2)
    fun s key => entry_of_channels (registerAgent_channels s ⟨0, 0⟩ agent) registryChannel key

def leaseBody : Json := .obj [("repository".toList, .str "acme/app".toList), ("path".toList, .str "src/lib.rs".toList),
  ("agent_key".toList, .str "codex".toList), ("ttl_ms".toList, .nat 1000)]

def leaseGrant : ControlPlaneResponse where
  status := 200
  body := .obj [("acquired".toList, .bool true), ("expires_at".toList, .str "1970-01-01T00:00:01Z".toList),
    ("fencing_token".toList, .nat 7)]

def leaseCycle (n : Nat) : List LeaseRequestAction := [
  .acquire leaseBody,
  .acquiring (leaseEnv n 0) n (.answer (.ok leaseGrant)),
  .acquiring (leaseEnv n 0) n .channel,
  .acquiring (leaseEnv n 0) n .file]

def leaseGivenBack : List LeaseRequestAction :=
  let body : Json := .obj [("agent_key".toList, .str "codex".toList), ("fencing_token".toList, .nat 7)]
  [.release (leaseEnv 0 500) (leaseUuid 0) body, .answer (leaseEnv 0 500) (.ok ⟨200, .obj []⟩)]

theorem lease_descriptors_authoritative_released :
    ∃ d later, (LeaseRequests.run .inMemory (leaseAgent :: leaseCycle 0)).state.descriptor (leaseUuid 0) = some d ∧
      (LeaseRequests.run .inMemory (leaseAgent :: leaseCycle 0 ++ leaseGivenBack)).state.descriptor (leaseUuid 0) =
        some later ∧
      later.SameLease d ∧ d.status = .active ∧ later.status = .released := by
  have hstored : ((LeaseRequests.run .inMemory (leaseAgent :: leaseCycle 0)).state.descriptor (leaseUuid 0)).map
      AuthoritativeLeaseDescriptor.status = some .active := by decide +kernel
  have hreleased : ((LeaseRequests.run .inMemory (leaseAgent :: leaseCycle 0 ++ leaseGivenBack)).state.descriptor
      (leaseUuid 0)).map AuthoritativeLeaseDescriptor.status = some .released := by decide +kernel
  obtain ⟨d, hd, hactive⟩ := Option.map_eq_some_iff.mp hstored
  obtain ⟨later, hlater, hsame, -⟩ :=
    (lease_descriptors_authoritative .inMemory (leaseAgent :: leaseCycle 0)).1 leaseGivenBack _ d hd
  rw [hlater] at hreleased
  exact ⟨d, later, hd, hlater, hsame, hactive, Option.some.inj hreleased⟩

end AgentBridge
