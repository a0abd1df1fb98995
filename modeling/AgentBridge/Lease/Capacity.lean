import AgentBridge.Lease.Descriptors

/-! How many lease descriptors there can be. Tombstones stay in the registry, so what
counts against its capacity is every descriptor ever stored. -/

namespace AgentBridge
open Http LeaseDescriptors State

def AppState.registryKeys (s : AppState) : Finset Text :=
  ((s.channels.get registryChannel).map fun ch => ch.context.keySet).getD ∅

section Keys
variable {s s' : AppState} {now : Now} {d : AuthoritativeLeaseDescriptor} {e : ContextEntry}

theorem mem_registryKeys {key : Text} : key ∈ s.registryKeys ↔ (s.entry registryChannel key).isSome = true := by
  unfold AppState.registryKeys
  cases hch : s.channels.get registryChannel with
  | none => simp [AppState.entry, hch]
  | some ch =>
    rw [entry_of_channel hch]
    exact Table.mem_keySet

theorem card_registryKeys {ch : ChannelState} (hch : s.channels.get registryChannel = some ch) :
    s.registryKeys.card = ch.context.size := by
  rw [AppState.registryKeys, hch]
  exact Table.card_keySet

theorem registryKeys_of_entries (h : ∀ key, s'.entry registryChannel key = s.entry registryChannel key) :
    s'.registryKeys = s.registryKeys := by
  ext key
  rw [mem_registryKeys, mem_registryKeys, h]

theorem persistDescriptor_keys (hplain : Plain d.leaseId) (h : persistDescriptor s now d = (.ok e, s')) :
    s'.registryKeys = insert (descriptorKey d.leaseId) s.registryKeys := by
  obtain ⟨-, -, -, hentry⟩ := entry_setContextInternal h
  ext key
  rw [Finset.mem_insert, mem_registryKeys, mem_registryKeys, hentry, hplain]
  by_cases hkey : key = descriptorKey d.leaseId
  · simp [hkey]
  · simp [hkey]

theorem descriptor_mem_keys (h : s.descriptor d.leaseId = some d) :
    descriptorKey d.leaseId ∈ s.registryKeys := by
  rw [mem_registryKeys]
  unfold AppState.descriptor at h
  cases hentry : s.entry registryChannel (descriptorKey d.leaseId) with
  | none =>
    rw [hentry] at h
    cases h
  | some entry => rfl

theorem fileDescriptor_card (hplain : Plain d.leaseId) (h : fileDescriptor s now d = (.ok e, s')) :
    s'.registryKeys.card = s.registryKeys.card + 1 := by
  unfold fileDescriptor at h
  cases hread : s.getContextKeyInternal registryChannel (descriptorKey d.leaseId) with
  | error err =>
    rw [hread] at h
    cases h
  | ok found =>
    rw [hread] at h
    cases found with
    | some old => cases h
    | none =>
      have hnew : descriptorKey d.leaseId ∉ s.registryKeys := by
        rw [mem_registryKeys, getContextKeyInternal_none hread]
        exact Bool.false_ne_true
      rw [persistDescriptor_keys hplain h, Finset.card_insert_of_notMem hnew]

theorem persistDescriptor_card {d' : AuthoritativeLeaseDescriptor} (hplain : Plain d.leaseId)
    (hold : s.descriptor d.leaseId = some d) (hsame : d'.SameLease d)
    (h : persistDescriptor s now d' = (.ok e, s')) : s'.registryKeys = s.registryKeys := by
  rw [persistDescriptor_keys (hsame.leaseId ▸ hplain) h, hsame.leaseId]
  exact Finset.insert_eq_of_mem (descriptor_mem_keys hold)

theorem Rewrites.keys (h : Rewrites s d s') (hplain : Plain d.leaseId) (hold : s.descriptor d.leaseId = some d) :
    s'.registryKeys = s.registryKeys := by
  rcases h with rfl | ⟨now, d', e, hsame, hpersist⟩
  · rfl
  · exact persistDescriptor_card hplain hold hsame hpersist

end Keys

def Acquiring.stored (x : Acquiring) : Bool :=
  match x.phase with
  | .answered (.descriptor _ _) | .answered .panicked => true
  | _ => false

theorem Acquiring.stored_extended (x : Acquiring) (response : ControlPlaneResponse) (d : AuthoritativeLeaseDescriptor) :
    Acquiring.stored { x with phase := .answered (extended response (.descriptor response d)) } = true := by
  unfold extended
  split_ifs <;> rfl

def LeaseRequests.everStored (w : LeaseRequests) : Nat := w.acquisitions.countP Acquiring.stored

theorem grantedDescriptor_error {env : Env} {a : Acquisition} {answer : BridgeResult ControlPlaneResponse}
    {reply : Reply} (h : grantedDescriptor env a answer = .error reply) (x : Acquiring) :
    Acquiring.stored { x with phase := .answered reply } = false := by
  unfold grantedDescriptor at h
  cases answer with
  | error e =>
    cases h
    rfl
  | ok response =>
    dsimp only at h
    split_ifs at h
    · cases h
      rfl
    · cases htoken : acquiredToken response.body with
      | error e =>
        rw [htoken] at h
        cases h
        rfl
      | ok token =>
        rw [htoken] at h
        cases h

theorem Acquiring.next_counts {x : Acquiring} {env : LeaseEnv} {s : AppState} {event : AcquireEvent}
    (hx : x.Consistent s) :
    (x.next env.env s event).2.registryKeys.card + x.stored.toNat =
      s.registryKeys.card + (x.next env.env s event).1.stored.toNat := by
  obtain ⟨asked, answer, calls, phase⟩ := x
  -- only the filing adds a key, and it marks the acquisition as stored
  cases phase with
  | answered reply => rfl
  | asked =>
    cases event with
    | answer answer =>
      unfold next
      dsimp only
      cases hgranted : grantedDescriptor env.env asked answer with
      | error reply =>
        change _ = _ + (Acquiring.stored { asked, answer := some answer, calls, phase := .answered reply }).toNat
        rw [grantedDescriptor_error hgranted ⟨asked, some answer, calls, .asked⟩]
        rfl
      | ok made => rfl
    | channel => rfl
    | file => rfl
  | granted response d =>
    cases event with
    | answer answer => rfl
    | file => rfl
    | channel =>
      have hentries := createOrGetChannel_entry s env.env.surroundings env.env.now registryChannel registryTopic
        d.agentKey registryChannel
      unfold next
      dsimp only
      rcases hcreate : s.createOrGetChannel env.env.surroundings env.env.now registryChannel registryTopic
        d.agentKey with ⟨e | channel, s'⟩
      · rw [hcreate] at hentries
        rw [registryKeys_of_entries hentries]
        rfl
      · rw [hcreate] at hentries
        rw [registryKeys_of_entries hentries]
        rfl
  | registering response d =>
    cases event with
    | answer answer => rfl
    | channel => rfl
    | file =>
      unfold next
      dsimp only
      rcases hfile : fileDescriptor s env.env.now d with ⟨e | entry, s'⟩
      · rw [fileDescriptor_error hfile]
        rfl
      · rw [fileDescriptor_card (Describes.plain hx) hfile]
        dsimp only
        rw [stored_extended ⟨asked, answer, calls, .registering response d⟩]
        rfl

namespace LeaseRequests
variable {w : LeaseRequests}

/-- Every step keeps the registry as large as the number of descriptors ever stored. -/
theorem step_counts (hw : w.Sound) (hcount : w.state.registryKeys.card = w.everStored) (a : LeaseRequestAction) :
    (w.step a).state.registryKeys.card = (w.step a).everStored := by
  -- an acquisition that files adds a key of its own; renewals and releases write under keys that are there
  cases a with
  | acquire body =>
    rw [LeaseRequests.step]
    cases hchecks : acquireChecks w.state body with
    | error e => exact hcount
    | ok a =>
      change w.state.registryKeys.card = (w.acquisitions ++ [_]).countP Acquiring.stored
      rw [List.countP_append]
      exact hcount
  | acquiring env i event =>
    rw [LeaseRequests.step]
    cases hx : w.acquisitions[i]? with
    | none => exact hcount
    | some x =>
      dsimp only
      by_cases hblocks : w.blocks event = true
      · rw [if_pos hblocks]
        exact hcount
      · rw [if_neg hblocks]
        obtain ⟨hi, hget⟩ := List.getElem?_eq_some_iff.mp hx
        have hnext := @Acquiring.next_counts _ env w.state event
          (hw.consistent x (List.mem_of_getElem? hx))
        have hpos : x.stored.toNat ≤ w.everStored := by
          cases hstored : x.stored with
          | false => exact Nat.zero_le _
          | true => exact List.countP_pos_iff.mpr ⟨x, List.mem_of_getElem? hx, hstored⟩
        change (x.next env.env w.state event).2.registryKeys.card =
          (w.acquisitions.set i (x.next env.env w.state event).1).countP Acquiring.stored
        have hite (b : Bool) : (if b = true then 1 else 0) = b.toNat := by cases b <;> rfl
        rw [List.countP_set hi, hget, hite, hite]
        change _ = w.everStored - x.stored.toNat + (x.next env.env w.state event).1.stored.toNat
        omega
  | renew env leaseId body =>
    rw [LeaseRequests.step]
    split_ifs
    · exact hcount
    · split
      · exact hcount
      · exact hcount
  | release env leaseId body =>
    rw [LeaseRequests.step]
    split_ifs
    · exact hcount
    · split
      · exact hcount
      · exact hcount
  | answer env answer =>
    rw [LeaseRequests.step]
    cases hheld : w.held with
    | none => exact hcount
    | some m =>
      obtain ⟨hstored, -⟩ := hw.held m hheld
      have hplain := (hw.registered _ _ hstored).2.1
      have hkeys : (m.after env.env w.state answer).registryKeys = w.state.registryKeys := by
        cases m with
        | renewing leaseId d ttlMs => exact (afterRenewal_rewrites answer).keys hplain hstored
        | releasing d => exact (afterRelease_rewrites answer).keys hplain hstored
      change (m.after env.env w.state answer).registryKeys.card = w.everStored
      rw [hkeys]
      exact hcount
  | elsewhere f h =>
    change (f w.state).registryKeys.card = w.everStored
    rw [registryKeys_of_entries (h w.state)]
    exact hcount

theorem run_counts (config : Config) (as : List LeaseRequestAction) :
    (run config as).state.registryKeys.card = (run config as).everStored := by
  have hinv : (run config as).Sound ∧ (run config as).state.registryKeys.card = (run config as).everStored :=
    Run.exec_invariant (P := fun w : LeaseRequests => w.Sound ∧ w.state.registryKeys.card = w.everStored)
      (fun w a hw => ⟨(hw.1.step a).1, step_counts hw.1 hw.2 a⟩) ⟨init_sound config, rfl⟩ as
  exact hinv.2

end LeaseRequests

/-- The registry channel is there, or there is room for it under the slug of its name. -/
structure RegistryOpens (s : AppState) (w : Surroundings) : Prop where
  named : slugify w registryChannel ≠ []
  room : s.channels.contains (slugify w registryChannel) = true ∨ s.channels.size < s.config.maxChannels
  registry : s.channels.contains registryChannel = true ∨ slugify w registryChannel = registryChannel

/-- The descriptor can be stored at all: the registry channel is there or can be made, the id is a new
one, and key and value are within their limits. -/
structure Storable (s : AppState) (w : Surroundings) (d : AuthoritativeLeaseDescriptor) : Prop where
  channel : RegistryOpens s w
  fresh : s.entry registryChannel (descriptorKey d.leaseId) = none
  key : Text.byteLen (descriptorKey d.leaseId) ≤ maxContextKeyBytes
  value : (ContextValue.leaseDescriptor d).toJson.bytes ≤ s.config.maxContentBytes

section Storing
variable {s s' : AppState} {w : Surroundings} {now : Now} {d : AuthoritativeLeaseDescriptor}

theorem createOrGetChannel_config (s : AppState) (w : Surroundings) (now : Now) (slug topic createdBy : Text) :
    (s.createOrGetChannel w now slug topic createdBy).2.config = s.config := by
  have heffect := createOrGetChannel_effect s now slug w topic createdBy
  generalize (s.createOrGetChannel w now slug topic createdBy).2 = s' at heffect ⊢
  cases heffect with
  | same => rfl
  | created => rfl

theorem setContextInternal_ok_of_channel {slug key updatedBy : Text} {value : ContextValue} {ch : ChannelState}
    (hch : s.channels.get slug = some ch) (hkey : Text.trim key ≠ []) :
    (∃ e s', s.setContextInternal now slug key value updatedBy = (.ok e, s')) ↔
      Text.byteLen (Text.trim key) ≤ maxContextKeyBytes ∧ value.toJson.bytes ≤ s.config.maxContentBytes ∧
      (ch.context.contains (Text.trim key) = true ∨ ch.context.size < maxContextKeys) := by
  have hcalls : (∃ e s', s.setContextInternal now slug key value updatedBy = (.ok e, s')) ↔
      ∃ e, (s.setContextInternal now slug key value updatedBy).1 = .ok e :=
    exists_congr fun e => ⟨fun ⟨s', h⟩ => congrArg Prod.fst h, fun h => ⟨_, Prod.ext h rfl⟩⟩
  rw [hcalls, setContextInternal_ok_iff, and_iff_right hkey]
  constructor
  · rintro ⟨hlong, hvalue, ch', hch', hroom⟩
    rw [hch] at hch'
    cases hch'
    exact ⟨hlong, hvalue, hroom⟩
  · rintro ⟨hlong, hvalue, hroom⟩
    exact ⟨hlong, hvalue, ch, hch, hroom⟩

theorem registryOpens_iff (now : Now) (createdBy : Text) :
    (∃ channel s', s.createOrGetChannel w now registryChannel registryTopic createdBy = (.ok channel, s') ∧
      s'.channels.contains registryChannel = true) ↔ RegistryOpens s w := by
  unfold AppState.createOrGetChannel
  dsimp only
  generalize hslug : slugify w registryChannel = slug
  by_cases hnamed : slug = []
  · rw [if_pos hnamed]
    refine ⟨by rintro ⟨_, _, ⟨⟩, _⟩, fun h => absurd (hslug.trans hnamed) h.named⟩
  · rw [if_neg hnamed]
    cases hch : s.channels.get slug with
    | some ch =>
      have hcontains : s.channels.contains slug = true := by rw [Table.contains, hch]; rfl
      constructor
      · rintro ⟨_, _, ⟨⟩, hregistry⟩
        exact ⟨hslug ▸ hnamed, .inl (hslug ▸ hcontains), .inl hregistry⟩
      · intro h
        refine ⟨_, _, rfl, h.registry.elim id fun hsame => ?_⟩
        rwa [← hsame, hslug]
    | none =>
      have hnew : s.channels.contains slug = false := by rw [Table.contains, hch]; rfl
      unfold AppState.insertChannel
      dsimp only
      rw [hch]
      dsimp only
      by_cases hroom : s.channels.size ≥ s.config.maxChannels
      · rw [if_pos hroom]
        refine ⟨by rintro ⟨_, _, ⟨⟩, _⟩, fun h => ?_⟩
        rcases h.room with hthere | hsmall
        · rw [hslug, hnew] at hthere
          cases hthere
        · exact absurd hroom (Nat.not_le.mpr hsmall)
      · rw [if_neg hroom]
        constructor
        · rintro ⟨_, _, ⟨⟩, hregistry⟩
          refine ⟨hslug ▸ hnamed, .inr (Nat.not_le.mp hroom), ?_⟩
          rw [AppState.setChannel, Table.contains_insert] at hregistry
          exact hregistry.symm.imp_right fun hsame => hslug.trans hsame.symm
        · intro h
          refine ⟨_, _, rfl, ?_⟩
          rw [AppState.setChannel, Table.contains_insert]
          exact h.registry.symm.imp_left fun hsame => hsame.symm.trans hslug

theorem fileDescriptor_ok_iff (hplain : Plain d.leaseId) :
    (∃ e s', fileDescriptor s now d = (.ok e, s')) ↔
      s.channels.contains registryChannel = true ∧ s.entry registryChannel (descriptorKey d.leaseId) = none ∧
      Text.byteLen (descriptorKey d.leaseId) ≤ maxContextKeyBytes ∧
      (ContextValue.leaseDescriptor d).toJson.bytes ≤ s.config.maxContentBytes ∧
      s.registryKeys.card < maxContextKeys := by
  unfold fileDescriptor AppState.getContextKeyInternal Table.contains
  cases hch : s.channels.get registryChannel with
  | none => simp
  | some ch =>
    rw [entry_of_channel hch, card_registryKeys hch]
    dsimp only
    cases hget : ch.context.get (descriptorKey d.leaseId) with
    | some entry => simp
    | none =>
      dsimp only [persistDescriptor]
      have hne : Text.trim (descriptorKey d.leaseId) ≠ [] := by
        rw [hplain]
        exact List.append_ne_nil_of_left_ne_nil (by decide) _
      have hnew : ch.context.contains (Text.trim (descriptorKey d.leaseId)) = false := by
        rw [hplain, Table.contains, hget]
        rfl
      rw [setContextInternal_ok_of_channel hch hne, hnew, hplain]
      simp

theorem storeDescriptor_ok_iff (hplain : Plain d.leaseId) :
    (∃ e s', storeDescriptor s w now d = (.ok e, s')) ↔
      Storable s w d ∧ s.registryKeys.card < maxContextKeys := by
  have hentries := createOrGetChannel_entry s w now registryChannel registryTopic d.agentKey registryChannel
  have hconfig := createOrGetChannel_config s w now registryChannel registryTopic d.agentKey
  rw [storeDescriptor_eq]
  constructor
  · rintro ⟨e, s', h⟩
    rcases hcreate : s.createOrGetChannel w now registryChannel registryTopic d.agentKey with ⟨err | channel, s₁⟩
    · rw [hcreate] at h
      cases h
    · rw [hcreate] at h hentries hconfig
      obtain ⟨hchannel, hfresh, hkey, hvalue, hroom⟩ := (fileDescriptor_ok_iff hplain).mp ⟨e, s', h⟩
      rw [hentries] at hfresh
      rw [show s₁.config = s.config from hconfig] at hvalue
      rw [registryKeys_of_entries hentries] at hroom
      exact ⟨⟨(registryOpens_iff _ _).mp ⟨channel, s₁, hcreate, hchannel⟩, hfresh, hkey, hvalue⟩, hroom⟩
  · rintro ⟨⟨hopens, hfresh, hkey, hvalue⟩, hroom⟩
    obtain ⟨channel, s₁, hcreate, hchannel⟩ := (registryOpens_iff now d.agentKey).mpr hopens
    rw [hcreate] at hentries hconfig ⊢
    refine (fileDescriptor_ok_iff hplain).mpr ⟨hchannel, (hentries _).trans hfresh, hkey, ?_, ?_⟩
    · rw [show s₁.config = s.config from hconfig]
      exact hvalue
    · rw [registryKeys_of_entries hentries]
      exact hroom

end Storing

/-- In every reachable state a descriptor that can be stored at all is stored exactly while fewer than
the maximum of context keys were ever stored, whatever became of their leases. -/
theorem descriptor_stored_iff (config : Config) (as : List LeaseRequestAction) (env : LeaseEnv) (a : Acquisition)
    (token : Nat) (response : ControlPlaneResponse) :
    let w := LeaseRequests.run config as
    let d := newDescriptor env.env a token response
    (∃ e s', storeDescriptor w.state env.env.surroundings env.env.now d = (.ok e, s')) ↔
      Storable w.state env.env.surroundings d ∧ w.everStored < maxContextKeys := by
  intro w d
  have hcount : w.state.registryKeys.card = w.everStored := LeaseRequests.run_counts config as
  rw [← hcount]
  exact storeDescriptor_ok_iff (plain_newId env 0)

section Filling
variable {s s' : AppState} {now : Now} {d : AuthoritativeLeaseDescriptor} {e : ContextEntry}

theorem padded_injective (width : Nat) : Function.Injective (Timestamp.padded width) := by
  have hzeros (k : Nat) (l : Text) : Nat.ofDigitChars 10 (List.replicate k '0' ++ l) 0 = Nat.ofDigitChars 10 l 0 := by
    induction k with
    | zero => rfl
    | succ k ih =>
      rw [List.replicate_succ, List.cons_append]
      exact ih
  have hvalue (n : Nat) : Nat.ofDigitChars 10 (Timestamp.padded width n) 0 = n := by
    unfold Timestamp.padded
    rw [hzeros]
    exact Nat.ofDigitChars_toDigits (by decide) (by decide)
  intro m n h
  rw [← hvalue m, h, hvalue n]

theorem leaseUuid_injective : Function.Injective leaseUuid := fun _ _ h =>
  padded_injective 12 (List.append_cancel_left h)

theorem fileDescriptor_wrote (hplain : Plain d.leaseId) (h : fileDescriptor s now d = (.ok e, s')) :
    e.value = .leaseDescriptor d ∧
    (∀ key, s'.entry registryChannel key =
      if key = descriptorKey d.leaseId then some e else s.entry registryChannel key) ∧
    ∃ ch, s' = s.setChannel registryChannel ch := by
  unfold fileDescriptor at h
  cases hread : s.getContextKeyInternal registryChannel (descriptorKey d.leaseId) with
  | error err =>
    rw [hread] at h
    cases h
  | ok found =>
    rw [hread] at h
    cases found with
    | some old => cases h
    | none =>
      obtain ⟨hvalue, -, -, hentry⟩ := entry_setContextInternal h
      obtain ⟨-, -, -, ch, -, -, hstate⟩ := setContextInternal_wrote h
      refine ⟨hvalue, fun key => ?_, _, hstate⟩
      rw [hentry, hplain]
      simp

theorem acquireChecks_agents (h : s'.agents = s.agents) (body : Option Json) :
    acquireChecks s' body = acquireChecks s body := by
  unfold acquireChecks AppState.getAgent
  rw [h]

end Filling

def liveDescriptors (env : Env) (s : AppState) : Nat :=
  (((s.channels.get registryChannel).map fun ch => ch.context.values).getD []).countP fun e =>
    match e.value with
    | .leaseDescriptor d => d.status = .active && !descriptorExpired env d
    | _ => false

def cycleAcquisition : Acquisition where
  repository := "acme/app".toList
  path := "src/lib.rs".toList
  agentKey := "codex".toList
  ttlMs := 1000

def cycleDescriptor (n utc : Nat) : AuthoritativeLeaseDescriptor :=
  newDescriptor (leaseEnv n utc).env cycleAcquisition 7 leaseGrant

/-- After `n` cycles the registry holds the descriptors of exactly these. -/
structure Filled (w : LeaseRequests) (n : Nat) : Prop where
  agents : w.state.agents = ((LeaseRequests.init .inMemory).step leaseAgent).state.agents
  config : w.state.config = .inMemory
  held : w.held = none
  length : w.acquisitions.length = n
  stored : w.everStored = n
  entries : ∀ key e, w.state.entry registryChannel key = some e →
    ∃ i < n, key = descriptorKey (leaseUuid i) ∧ e.value = .leaseDescriptor (cycleDescriptor i 0)
  channel : w.state.channels.contains registryChannel = true ∨ w.state.channels.size < w.state.config.maxChannels

section Cycles
variable {w : LeaseRequests} {n : Nat}

theorem leaseGrant_grants : Grants leaseGrant 7 := by constructor <;> decide

theorem cycle_acquires {s : AppState} (h : s.agents = ((LeaseRequests.init .inMemory).step leaseAgent).state.agents) :
    acquireChecks s leaseBody = .ok cycleAcquisition := by
  rw [acquireChecks_agents h]
  have hfields : (acquireChecks ((LeaseRequests.init .inMemory).step leaseAgent).state leaseBody).toOption.map
      (fun a => (a.repository, a.path, a.agentKey, a.ttlMs)) =
      some ("acme/app".toList, "src/lib.rs".toList, "codex".toList, 1000) := by decide +kernel
  obtain ⟨⟨repository, path, agentKey, ttlMs⟩, hok, heq⟩ := Except.toOption_map_eq_some.mp hfields
  cases heq
  exact hok

theorem slugify_registryChannel : slugify asciiSurroundings registryChannel = registryChannel := by decide +kernel

theorem registry_opens {s : AppState}
    (h : s.channels.contains registryChannel = true ∨ s.channels.size < s.config.maxChannels) :
    RegistryOpens s asciiSurroundings := by
  refine ⟨?_, ?_, .inr slugify_registryChannel⟩
  · rw [slugify_registryChannel]
    decide
  · rwa [slugify_registryChannel]

theorem createOrGetChannel_agents (s : AppState) (w : Surroundings) (now : Now) (slug topic createdBy : Text) :
    (s.createOrGetChannel w now slug topic createdBy).2.agents = s.agents := by
  have heffect := createOrGetChannel_effect s now slug w topic createdBy
  generalize (s.createOrGetChannel w now slug topic createdBy).2 = s' at heffect ⊢
  cases heffect with
  | same => rfl
  | created => rfl

theorem length_leaseUuid (hn : n < 10 ^ 12) : (leaseUuid n).length = 36 := by
  have hdigits : (Text.decimal n).length ≤ 12 := (Nat.length_toDigits_le_iff (by decide) (by decide)).mpr hn
  unfold leaseUuid Timestamp.padded
  rw [List.length_append, List.length_append, List.length_replicate]
  change 24 + _ = 36
  omega

theorem descriptor_bytes (d : AuthoritativeLeaseDescriptor) :
    d.toJson.bytes + 2 = { d with leaseId := [] }.toJson.bytes + Json.textBytes d.leaseId := by
  unfold AuthoritativeLeaseDescriptor.toJson
  cases d.releasedAt with
  | none =>
    simp only [Option.map_none, Json.optional, List.append_nil, Json.bytes, Json.bytesFields, Json.textBytes_nil]
    omega
  | some releasedAt =>
    simp only [Option.map_some, Json.optional, List.cons_append, List.nil_append, Json.bytes, Json.bytesFields,
      Json.textBytes_nil]
    omega

theorem cycle_blank (n utc : Nat) :
    { cycleDescriptor n utc with leaseId := [] } = { cycleDescriptor 0 utc with leaseId := [] } := by
  unfold cycleDescriptor newDescriptor expiryFromResponse leaseEnv
  rfl

theorem cycle_leaseId (n utc : Nat) : (cycleDescriptor n utc).leaseId = leaseUuid n := by
  unfold cycleDescriptor newDescriptor leaseEnv
  rfl

theorem cycle_fits (utc : Nat) (hn : n < 10 ^ 12)
    (hbase : { cycleDescriptor 0 utc with leaseId := [] }.toJson.bytes ≤ 1000) :
    Text.byteLen (descriptorKey (leaseUuid n)) ≤ maxContextKeyBytes ∧
    (ContextValue.leaseDescriptor (cycleDescriptor n utc)).toJson.bytes ≤ Config.inMemory.maxContentBytes := by
  have hlength := length_leaseUuid hn
  constructor
  · have hid := Text.byteLen_le (leaseUuid n)
    have hpre : Text.byteLen contextPrefix = 23 := by decide
    unfold descriptorKey maxContextKeyBytes
    rw [Text.byteLen_append, hpre]
    omega
  · have hid := Json.textBytes_le (leaseUuid n)
    have hsize := descriptor_bytes (cycleDescriptor n utc)
    rw [cycle_blank, cycle_leaseId] at hsize
    have hlimit : Config.inMemory.maxContentBytes = 1048576 := rfl
    rw [ContextValue.toJson, hlimit]
    omega

theorem filled_init : Filled ((LeaseRequests.init .inMemory).step leaseAgent) 0 := by
  refine ⟨rfl, rfl, rfl, rfl, rfl, fun key e he => ?_, .inr (by decide)⟩
  have hempty : ((LeaseRequests.init .inMemory).step leaseAgent).state.channels.get registryChannel = none := by
    decide
  rw [AppState.entry, hempty] at he
  cases he

def cycleAcquiring (answer : Option (BridgeResult ControlPlaneResponse)) (phase : AcquirePhase) : Acquiring :=
  ⟨cycleAcquisition, answer, [cycleAcquisition.call], phase⟩

/-- The world with a further acquisition. -/
def withNewest (w : LeaseRequests) (x : Acquiring) (s : AppState) : LeaseRequests :=
  { w with acquisitions := w.acquisitions ++ [x], state := s }

theorem step_newest (hheld : w.held = none) (hlength : w.acquisitions.length = n) (x : Acquiring) (s : AppState)
    (env : LeaseEnv) (event : AcquireEvent) :
    (withNewest w x s).step (.acquiring env n event) =
      withNewest w (x.next env.env s event).1 (x.next env.env s event).2 := by
  have hget : (withNewest w x s).acquisitions[n]? = some x := by
    rw [← hlength, withNewest]
    simp
  have hblocks : (withNewest w x s).blocks event = false := by
    cases event with
    | file =>
      change w.held.isSome = false
      rw [hheld]
      rfl
    | answer answer => rfl
    | channel => rfl
  have hset : (w.acquisitions ++ [x]).set n (x.next env.env s event).1 =
      w.acquisitions ++ [(x.next env.env s event).1] := by
    rw [← hlength]
    simp
  rw [LeaseRequests.step, hget]
  dsimp only
  rw [hblocks, if_neg Bool.false_ne_true]
  unfold withNewest
  dsimp only
  rw [hset]

theorem cycle_granted (n : Nat) (s : AppState) :
    (cycleAcquiring none .asked).next (leaseEnv n 0).env s (.answer (.ok leaseGrant)) =
      (cycleAcquiring (some (.ok leaseGrant)) (.granted leaseGrant (cycleDescriptor n 0)), s) := by
  have hgranted : grantedDescriptor (leaseEnv n 0).env cycleAcquisition (.ok leaseGrant) =
      .ok (leaseGrant, cycleDescriptor n 0) := grantedDescriptor_eq_ok.mpr ⟨7, rfl, leaseGrant_grants, rfl⟩
  unfold Acquiring.next cycleAcquiring
  dsimp only
  rw [hgranted]

theorem Filled.fresh (h : Filled w n) : w.state.entry registryChannel (descriptorKey (leaseUuid n)) = none := by
  by_contra hsome
  obtain ⟨e, he⟩ := Option.ne_none_iff_exists'.mp hsome
  obtain ⟨i, hi, hkey, -⟩ := h.entries _ e he
  have heq := leaseUuid_injective (descriptorKey_injective hkey)
  omega

theorem Filled.storable (h : Filled w n) (utc : Nat) (hn : n < 10 ^ 12)
    (hbase : { cycleDescriptor 0 utc with leaseId := [] }.toJson.bytes ≤ 1000) :
    Storable w.state asciiSurroundings (cycleDescriptor n utc) := by
  obtain ⟨hkey, hvalue⟩ := cycle_fits utc hn hbase
  refine ⟨registry_opens h.channel, ?_, hkey, ?_⟩
  · rw [cycle_leaseId]
    exact h.fresh
  · rw [h.config]
    exact hvalue

theorem Filled.cycle (h : Filled w n) (hn : n < maxContextKeys) (hcount : w.state.registryKeys.card = w.everStored) :
    Filled (Run.exec LeaseRequests.step w (leaseCycle n)) (n + 1) := by
  have hnew := h.fresh
  obtain ⟨channel, s₁, hcreate, hchannel⟩ := (registryOpens_iff ⟨0, 0⟩ "codex".toList).mpr
    (registry_opens h.channel)
  have hagents := createOrGetChannel_agents w.state asciiSurroundings ⟨0, 0⟩ registryChannel registryTopic
    "codex".toList
  have hentries := createOrGetChannel_entry w.state asciiSurroundings ⟨0, 0⟩ registryChannel registryTopic
    "codex".toList registryChannel
  have hconfig := createOrGetChannel_config w.state asciiSurroundings ⟨0, 0⟩ registryChannel registryTopic
    "codex".toList
  rw [hcreate] at hentries hconfig hagents
  replace hconfig : s₁.config = .inMemory := hconfig.trans h.config
  have hplain : Plain (leaseUuid n) := plain_newId (leaseEnv n 0) 0
  have hsmall : n < 10 ^ 12 := hn.trans (by decide)
  obtain ⟨hkey, hvalue⟩ := cycle_fits 0 hsmall (by decide +kernel)
  have hroom : s₁.registryKeys.card < maxContextKeys := by
    rw [registryKeys_of_entries hentries, hcount, h.stored]
    exact hn
  obtain ⟨e, s₂, hfile⟩ := (@fileDescriptor_ok_iff s₁ ⟨0, 0⟩ (cycleDescriptor n 0) hplain).mpr
    ⟨hchannel, (hentries _).trans hnew, hkey, hconfig ▸ hvalue, hroom⟩
  obtain ⟨hwritten, hafter, ch, hstate⟩ := fileDescriptor_wrote (d := cycleDescriptor n 0) hplain hfile
  -- the four steps of the cycle
  have hacquire : w.step (.acquire leaseBody) = withNewest w (cycleAcquiring none .asked) w.state := by
    rw [LeaseRequests.step, cycle_acquires h.agents]
    rfl
  have hregistering : (cycleAcquiring (some (.ok leaseGrant)) (.granted leaseGrant (cycleDescriptor n 0))).next
      (leaseEnv n 0).env w.state .channel =
      (cycleAcquiring (some (.ok leaseGrant)) (.registering leaseGrant (cycleDescriptor n 0)), s₁) := by
    unfold Acquiring.next cycleAcquiring
    dsimp only
    rw [show w.state.createOrGetChannel (leaseEnv n 0).env.surroundings (leaseEnv n 0).env.now registryChannel
      registryTopic (cycleDescriptor n 0).agentKey = (.ok channel, s₁) from hcreate]
  have hstored : (cycleAcquiring (some (.ok leaseGrant)) (.registering leaseGrant (cycleDescriptor n 0))).next
      (leaseEnv n 0).env s₁ .file =
      (cycleAcquiring (some (.ok leaseGrant)) (.answered (.descriptor leaseGrant (cycleDescriptor n 0))), s₂) := by
    have hreply : extended leaseGrant (.descriptor leaseGrant (cycleDescriptor n 0)) =
        .descriptor leaseGrant (cycleDescriptor n 0) := rfl
    unfold Acquiring.next cycleAcquiring
    dsimp only
    rw [hreply, show fileDescriptor s₁ (leaseEnv n 0).env.now (cycleDescriptor n 0) = (.ok e, s₂) from hfile]
  have hrun : Run.exec LeaseRequests.step w (leaseCycle n) = withNewest w
      (cycleAcquiring (some (.ok leaseGrant)) (.answered (.descriptor leaseGrant (cycleDescriptor n 0)))) s₂ := by
    unfold leaseCycle
    rw [Run.exec_cons, hacquire, Run.exec_cons, step_newest h.held h.length, cycle_granted, Run.exec_cons,
      step_newest h.held h.length, hregistering, Run.exec_cons, step_newest h.held h.length, hstored, Run.exec_nil]
  rw [hrun, withNewest]
  refine ⟨?_, ?_, h.held, ?_, ?_, fun key e' he' => ?_, .inl ?_⟩
  · rw [hstate]
    exact hagents.trans h.agents
  · rw [hstate]
    exact hconfig
  · rw [List.length_append, h.length]
    rfl
  · rw [LeaseRequests.everStored, List.countP_append]
    exact congrArg (· + 1) h.stored
  · rw [hafter] at he'
    split_ifs at he' with hk
    · cases he'
      exact ⟨n, Nat.lt_succ_self n, hk, hwritten⟩
    · rw [hentries] at he'
      obtain ⟨i, hi, hkey, hvalue⟩ := h.entries key e' he'
      exact ⟨i, Nat.lt_succ_of_lt hi, hkey, hvalue⟩
  · rw [hstate, Table.contains]
    unfold AppState.setChannel
    rw [Table.get_insert_self]
    rfl

def expiredLeases : List LeaseRequestAction := leaseAgent :: (List.range maxContextKeys).flatMap leaseCycle

theorem filled_cycles (hn : n ≤ maxContextKeys) :
    Filled (LeaseRequests.run .inMemory (leaseAgent :: (List.range n).flatMap leaseCycle)) n := by
  -- a cycle fills one key more, while the registry has room
  induction n with
  | zero => exact filled_init
  | succ n ih =>
    have hfilled := ih (Nat.le_of_succ_le hn)
    have hcount := LeaseRequests.run_counts .inMemory (leaseAgent :: (List.range n).flatMap leaseCycle)
    have hnext := hfilled.cycle hn hcount
    rw [List.range_succ, List.flatMap_append, List.flatMap_singleton, ← List.cons_append]
    unfold LeaseRequests.run at hnext ⊢
    rw [Run.exec_append]
    exact hnext

theorem Filled.dead (h : Filled w n) (m : Nat) : liveDescriptors (leaseEnv m 1000).env w.state = 0 := by
  have hexpired (i : Nat) : descriptorExpired (leaseEnv m 1000).env (cycleDescriptor i 0) = true := by
    have hexpiry : (cycleDescriptor i 0).expiresAt = "1970-01-01T00:00:01Z".toList :=
      (congrArg AuthoritativeLeaseDescriptor.expiresAt (cycle_blank i 0)).trans (by decide +kernel)
    unfold descriptorExpired leaseEnv
    rw [hexpiry]
    rfl
  unfold liveDescriptors
  rw [List.countP_eq_zero]
  intro e he
  cases hch : w.state.channels.get registryChannel with
  | none =>
    rw [hch] at he
    exact absurd he List.not_mem_nil
  | some ch =>
    rw [hch] at he
    obtain ⟨key, hkey⟩ := Table.mem_values.mp he
    obtain ⟨i, -, -, hvalue⟩ := h.entries key e ((entry_of_channel hch key).trans hkey)
    rw [hvalue]
    dsimp only
    rw [hexpired, Bool.not_true, Bool.and_false]
    exact Bool.false_ne_true

end Cycles

/-- Descriptors that are dead to their owners still fill the registry. -/
theorem not_dead_descriptors_never_block :
    ¬ ∀ (config : Config) (as : List LeaseRequestAction) (env : LeaseEnv) (a : Acquisition) (token : Nat)
      (response : ControlPlaneResponse), Grants response token →
      Storable (LeaseRequests.run config as).state env.env.surroundings (newDescriptor env.env a token response) →
      liveDescriptors env.env (LeaseRequests.run config as).state < maxContextKeys →
      ∃ e s', storeDescriptor (LeaseRequests.run config as).state env.env.surroundings env.env.now
        (newDescriptor env.env a token response) = (.ok e, s') := by
  intro hclaim
  have hfilled : Filled (LeaseRequests.run .inMemory expiredLeases) maxContextKeys := filled_cycles le_rfl
  have hcount := LeaseRequests.run_counts .inMemory expiredLeases
  rw [hfilled.stored] at hcount
  have hplain : Plain (cycleDescriptor maxContextKeys 1000).leaseId := plain_newId (leaseEnv maxContextKeys 1000) 0
  have hsmall : maxContextKeys < 10 ^ 12 := by decide
  have hstorable := hfilled.storable 1000 hsmall (by decide +kernel)
  have hdead : liveDescriptors (leaseEnv maxContextKeys 1000).env
      (LeaseRequests.run .inMemory expiredLeases).state < maxContextKeys := by
    rw [hfilled.dead]
    exact Nat.succ_pos _
  obtain ⟨e, s', hstored⟩ := hclaim .inMemory expiredLeases (leaseEnv maxContextKeys 1000) cycleAcquisition 7
    leaseGrant leaseGrant_grants hstorable hdead
  have hroom := ((storeDescriptor_ok_iff hplain).mp ⟨e, s', hstored⟩).2
  rw [hcount] at hroom
  exact Nat.lt_irrefl _ hroom

end AgentBridge
