import AgentBridge.Lease.Exclusion
import AgentBridge.State.Acts
import AgentBridge.State.History
import AgentBridge.State.Presence
import AgentBridge.State.Stores

/-! What every call keeps: stores within their limits, trimmed keys, rooms whose history and members are those of their
events, and leases that exclude each other. -/

namespace AgentBridge
open State

/-- The room an event tells of. -/
def Event.channel : Event → Text
  | message m => m.channel
  | presence channel .. => channel

/-- What holds of the room under a slug. -/
structure RoomOk (config : Config) (slug : Text) (ch : ChannelState) : Prop where
  keyed : ch.slug = slug
  history : HistoryOk config ch
  roster : RosterOk ch
  addressed : ∀ e ∈ ch.events, e.channel = slug
  filed : ∀ key e, ch.context.get key = some e → e.key = key

def AppState.Rooms (s : AppState) : Prop := ∀ slug ch, s.channels.get slug = some ch → RoomOk s.config slug ch

/-- The write sections of a call on rooms, one after another. -/
abbrev Sections : AppState → AppState → Prop :=
  Relation.ReflTransGen fun s s' => ∃ slug, SectionEffect s slug s'

section Rooms
variable {config : Config} {s s' : AppState} {slug : Text} {old : Option ChannelState} {ch : ChannelState}

theorem addressed_sent {e : Event} {events : List Event} (hevents : ∀ e ∈ events, e.channel = slug)
    (he : e.channel = slug) : ∀ e' ∈ events ++ [e], e'.channel = slug := by
  intro e' he'
  rcases List.mem_append.mp he' with hold | hnew
  · exact hevents e' hold
  · rw [List.mem_singleton.mp hnew]
    exact he

theorem filed_stored {ch : ChannelState} {entry : ContextEntry}
    (h : ∀ key e, ch.context.get key = some e → e.key = key) :
    ∀ key e, (ch.putContext entry).context.get key = some e → e.key = key := by
  intro key e he
  rw [ChannelState.putContext, Table.get_insert] at he
  split_ifs at he with hkey
  · cases he
    exact hkey.symm
  · exact h key e he

theorem ChannelMove.roomOk (h : ChannelMove s slug old ch) (hold : ∀ ch', old = some ch' → RoomOk s.config slug ch') :
    RoomOk s.config slug ch where
  keyed := by
    cases h with
    | created => rfl
    | touched | seated | unseated | appended | stored => exact (hold _ rfl).keyed
  history := h.historyOk fun ch' hch' => (hold ch' hch').history
  roster := h.rosterOk fun ch' hch' => (hold ch' hch').roster
  addressed := by
    cases h with
    | created => exact List.forall_mem_nil _
    | touched | stored => exact (hold _ rfl).addressed
    | seated | unseated | appended => exact addressed_sent (hold _ rfl).addressed (hold _ rfl).keyed
  filed := by
    cases h with
    | created => exact fun key e he => by cases he
    | touched | seated | unseated | appended => exact (hold _ rfl).filed
    | stored entry => exact filed_stored (hold _ rfl).filed

theorem AppState.Rooms.congr (hs : s.Rooms) (hconfig : s'.config = s.config) (hchannels : s'.channels = s.channels) :
    s'.Rooms := by
  intro c ch' hch'
  rw [hchannels] at hch'
  rw [hconfig]
  exact hs c ch' hch'

theorem SectionEffect.rooms (h : SectionEffect s slug s') (hs : s.Rooms) : s'.Rooms := by
  cases h with
  | same => exact hs
  | moved hmove =>
    intro c ch' hch'
    rw [AppState.setChannel, Table.get_insert] at hch'
    split_ifs at hch' with hc
    · cases hch'
      rw [hc]
      exact hmove.roomOk fun old hold => hs slug old hold
    · exact hs c ch' hch'

theorem Sections.rooms (h : Sections s s') (hs : s.Rooms) : s'.Rooms := by
  induction h with
  | refl => exact hs
  | tail _ hsection ih =>
    obtain ⟨slug, heffect⟩ := hsection
    exact heffect.rooms ih

theorem Sections.leases (h : Sections s s') : s'.fileLeases = s.fileLeases := by
  induction h with
  | refl => rfl
  | tail _ hsection ih =>
    obtain ⟨slug, heffect⟩ := hsection
    cases heffect with
    | same => exact ih
    | moved => exact ih

theorem EmitEffect.sections {E : Event → Prop} (h : EmitEffect E s slug s') : Sections s s' := .single ⟨slug, h.effect⟩

theorem createOrGetChannel_sections {w : Surroundings} {now : Now} {topic createdBy : Text} :
    Sections s (s.createOrGetChannel w now slug topic createdBy).2 := by
  unfold AppState.createOrGetChannel
  dsimp only
  by_cases hempty : slugify w slug = []
  · rw [if_pos hempty]
  · rw [if_neg hempty]
    cases s.channels.get (slugify w slug) with
    | some ch => exact .refl
    | none => exact (insertChannel_emits ..).sections

theorem resolveChannel_sections {w : Surroundings} {now : Now} {topicId suffixId query createdBy : Text}
    {threshold : Option Float32} :
    Sections s (s.resolveChannel w now topicId suffixId query createdBy threshold).2 := by
  unfold AppState.resolveChannel
  dsimp only
  by_cases hempty : Text.trim query = []
  · rw [if_pos hempty]
  · rw [if_neg hempty]
    cases bestScored (s.channels.values.map fun c => (c.slug, cosine (w.embed (Text.trim query)).1 c.embedding)) with
    | none => exact (insertChannel_emits ..).sections
    | some best =>
      dsimp only
      by_cases hclose : s.resolveThreshold threshold ≤ best.2
      · rw [if_pos hclose]
      · rw [if_neg hclose]
        exact (insertChannel_emits ..).sections

theorem postMessage_sections {now : Now} {newId sender content : Text} {role : Role} {metadata : Json} :
    Sections s (s.postMessage now newId slug sender role content metadata).2 := by
  rw [postMessage_eq]
  cases s.postChecks (Text.trim sender) content metadata with
  | error e => exact .refl
  | ok u =>
    have hjoin := join_emits s now slug (Text.trim sender) .member
    dsimp only
    generalize s.join now slug (Text.trim sender) .member = r at hjoin
    rcases r with ⟨e | out, s₁⟩
    · exact hjoin.sections
    · exact hjoin.sections.trans (appendMessage_emits ..).sections

end Rooms

/-- A call on the leases leaves the rest alone, and keeps the table within its limit. -/
def LeasesOnly (s s' : AppState) : Prop :=
  ∃ table token, s' = { s with fileLeases := table, nextFileFencingToken := token } ∧
    (s.fileLeases.size ≤ s.config.maxFileLeases → table.size ≤ s.config.maxFileLeases)

section Leases
variable {config : Config} {s s' s'' : AppState} {now : Now}

theorem LeasesOnly.refl (s : AppState) : LeasesOnly s s := ⟨_, _, rfl, id⟩

theorem LeasesOnly.trans (h : LeasesOnly s s') (h' : LeasesOnly s' s'') : LeasesOnly s s'' := by
  obtain ⟨table, token, rfl, hsize⟩ := h
  obtain ⟨table', token', rfl, hsize'⟩ := h'
  exact ⟨table', token', rfl, fun hs => hsize' (hsize hs)⟩

theorem LeasesOnly.prune (s : AppState) (now : Now) : LeasesOnly s (s.pruneLeases now) :=
  ⟨_, _, rfl, (List.length_filter_le _ _).trans⟩

theorem LeasesOnly.replace {id : Text} {old l : FileLeaseState} (hold : s.fileLeases.get id = some old) :
    LeasesOnly s { s with fileLeases := s.fileLeases.insert id l } := by
  refine ⟨_, _, rfl, fun hs => size_insert_of_room hs (.inl ?_)⟩
  rw [Table.contains, hold]
  rfl

theorem grantFileLease_leases {newId repository path agentKey purpose : Text} {ttlMs : Nat} {recursive : Bool}
    {metadata : Json} :
    LeasesOnly s (s.grantFileLease now newId repository path agentKey ttlMs recursive purpose metadata).2 := by
  unfold AppState.grantFileLease
  split
  · exact .refl s
  · split
    next key existing hfind => exact .replace (Table.findEntry_eq_some hfind).1
    next =>
      by_cases hfull : s.fileLeases.size ≥ s.config.maxFileLeases
      · rw [if_pos hfull]
        exact .refl s
      · rw [if_neg hfull]
        exact ⟨_, _, rfl, fun hs => size_insert_of_room hs (.inr (Nat.not_le.mp hfull))⟩

theorem acquireFileLease_leases {newId repository path agentKey purpose : Text} {ttlMs : Nat} {recursive : Bool}
    {metadata : Json} :
    LeasesOnly s (s.acquireFileLease now newId repository path agentKey ttlMs recursive purpose metadata).2 := by
  unfold AppState.acquireFileLease
  cases s.acquireChecks repository path agentKey ttlMs metadata with
  | error e => exact .refl s
  | ok args => exact (LeasesOnly.prune s now).trans grantFileLease_leases

theorem renewFileLease_leases {leaseId agentKey : Text} {fencingToken ttlMs : Nat} :
    LeasesOnly s (s.renewFileLease now leaseId agentKey fencingToken ttlMs).2 := by
  unfold AppState.renewFileLease
  cases normalizeFileLeaseTtl ttlMs with
  | error e => exact .refl s
  | ok ttl =>
    dsimp only
    cases hfenced : (s.pruneLeases now).fencedLease leaseId agentKey fencingToken with
    | error e => exact .prune s now
    | ok v => exact (LeasesOnly.prune s now).trans (.replace (fencedLease_owner hfenced).1)

theorem releaseFileLease_leases {leaseId agentKey : Text} {fencingToken : Nat} :
    LeasesOnly s (s.releaseFileLease now leaseId agentKey fencingToken).2 := by
  unfold AppState.releaseFileLease
  dsimp only
  cases (s.pruneLeases now).fencedLease leaseId agentKey fencingToken with
  | error e => exact .prune s now
  | ok v =>
    refine (LeasesOnly.prune s now).trans ⟨_, _, rfl, fun hs => ?_⟩
    rw [← Table.card_keySet, Table.keySet_remove]
    exact (Finset.card_erase_le.trans_eq Table.card_keySet).trans hs

theorem fileLeaseHolders_leases {repository path agentKey : Option Text} {includeDescendants : Bool} :
    LeasesOnly s (s.fileLeaseHolders now repository path agentKey includeDescendants).2 := by
  unfold AppState.fileLeaseHolders
  split
  · exact .refl s
  · exact .refl s
  · exact .prune s now

theorem LeasesOnly.bounded (h : LeasesOnly s s') (hs : s.Bounded config) : s'.Bounded config := by
  obtain ⟨table, token, rfl, hsize⟩ := h
  have hlimit : s.config.maxFileLeases = config.maxFileLeases := by rw [hs.same]
  refine ⟨hs.same, hs.channels, hs.agents, ?_, hs.context⟩
  exact hlimit ▸ hsize (hlimit ▸ hs.leases)

end Leases

section Calls
variable {config : Config} {s : AppState}

theorem AppState.Bounded.replace {slug : Text} {old ch : ChannelState} (hs : s.Bounded config)
    (hold : s.channels.get slug = some old) (hcontext : ch.context = old.context) :
    (s.setChannel slug ch).Bounded config := by
  refine ⟨hs.same, size_insert_of_room hs.channels (.inl ?_), hs.agents, hs.leases, fun c ch' hch' => ?_⟩
  · rw [Table.contains, hold]
    rfl
  · rw [AppState.setChannel, Table.get_insert] at hch'
    split_ifs at hch' with hc
    · cases hch'
      rw [hcontext]
      exact hs.context slug old hold
    · exact hs.context c ch' hch'

theorem AppState.Bounded.insert (hs : s.Bounded config) {now : Now} {slug topic createdBy model : Text}
    {embedding : List Float32} : (s.insertChannel now slug topic createdBy embedding model).2.Bounded config :=
  (insertChannel_result s now slug topic createdBy embedding model).bounded hs

theorem AppState.Bounded.create (hs : s.Bounded config) {w : Surroundings} {now : Now} {slug topic createdBy : Text} :
    (s.createOrGetChannel w now slug topic createdBy).2.Bounded config := by
  unfold AppState.createOrGetChannel
  dsimp only
  by_cases hempty : slugify w slug = []
  · rw [if_pos hempty]
    exact hs
  · rw [if_neg hempty]
    cases s.channels.get (slugify w slug) with
    | some ch => exact hs
    | none => exact hs.insert

theorem AppState.Bounded.resolve (hs : s.Bounded config) {w : Surroundings} {now : Now}
    {topicId suffixId query createdBy : Text} {threshold : Option Float32} :
    (s.resolveChannel w now topicId suffixId query createdBy threshold).2.Bounded config := by
  unfold AppState.resolveChannel
  dsimp only
  by_cases hempty : Text.trim query = []
  · rw [if_pos hempty]
    exact hs
  · rw [if_neg hempty]
    cases bestScored (s.channels.values.map fun c => (c.slug, cosine (w.embed (Text.trim query)).1 c.embedding)) with
    | none => exact hs.insert
    | some best =>
      dsimp only
      by_cases hclose : s.resolveThreshold threshold ≤ best.2
      · rw [if_pos hclose]
        exact hs
      · rw [if_neg hclose]
        exact hs.insert

theorem AppState.Bounded.join (hs : s.Bounded config) {now : Now} {slug key : Text} {role : MemberRole} :
    (s.join now slug key role).2.Bounded config := by
  have heffect := join_effect s now slug key role
  generalize s.join now slug key role = r at heffect
  cases heffect with
  | refused e => exact hs
  | seen hch hm => exact hs.replace hch rfl
  | seated hch hm => exact hs.replace hch rfl

theorem AppState.Bounded.leave (hs : s.Bounded config) {now : Now} {slug key : Text} :
    (s.leave now slug key).2.Bounded config := by
  unfold AppState.leave
  cases hch : s.channels.get slug with
  | none => exact hs
  | some ch =>
    dsimp only
    split_ifs
    · exact hs.replace hch rfl
    · exact hs

theorem AppState.Bounded.post (hs : s.Bounded config) {now : Now} {newId slug sender content : Text} {role : Role}
    {metadata : Json} : (s.postMessage now newId slug sender role content metadata).2.Bounded config := by
  have heffect := post_effect s now newId slug sender role content metadata
  generalize s.postMessage now newId slug sender role content metadata = r at heffect
  cases heffect with
  | refused e => exact hs
  | posted hjoin hch =>
    have hjoined : (s.join now slug (Text.trim sender) .member).2.Bounded config := hs.join
    rw [hjoin] at hjoined
    exact hjoined.replace hch rfl

theorem AppState.Bounded.subscribe (hs : s.Bounded config) {now : Now} {slug : Text} {agentKey : Option Text} :
    (s.subscribe now slug agentKey).2.Bounded config := by
  unfold AppState.subscribe
  dsimp only
  cases agentKey.filter (fun k => Text.trim k ≠ []) with
  | none => cases s.channels.get slug <;> exact hs
  | some key =>
    have hjoined : (s.join now slug key .member).2.Bounded config := hs.join
    dsimp only
    generalize s.join now slug key .member = r at hjoined
    rcases r with ⟨e | out, s₁⟩
    · exact hjoined
    · dsimp only
      cases s₁.channels.get slug <;> exact hjoined

theorem StateCall.bounded (call : StateCall) (hs : s.Bounded config) : (call.perform s).2.Bounded config := by
  cases call with
  | registerAgent now agent =>
    rw [StateCall.perform, failure_state]
    exact registerAgent_bounded hs now agent
  | createOrGetChannel =>
    rw [StateCall.perform, failure_state]
    exact hs.create
  | resolveChannel =>
    rw [StateCall.perform, failure_state]
    exact hs.resolve
  | join =>
    rw [StateCall.perform, failure_state]
    exact hs.join
  | leave =>
    rw [StateCall.perform, failure_state]
    exact hs.leave
  | postMessage =>
    rw [StateCall.perform, failure_state]
    exact hs.post
  | setContext now slug key value updatedBy =>
    rw [StateCall.perform, failure_state]
    unfold AppState.setContext
    split_ifs
    · exact hs
    · exact setContextInternal_bounded hs now slug key (.json value) updatedBy
  | setContextInternal now slug key value updatedBy =>
    rw [StateCall.perform, failure_state]
    exact setContextInternal_bounded hs now slug key value updatedBy
  | acquireFileLease =>
    rw [StateCall.perform, failure_state]
    exact acquireFileLease_leases.bounded hs
  | renewFileLease =>
    rw [StateCall.perform, failure_state]
    exact renewFileLease_leases.bounded hs
  | releaseFileLease =>
    rw [StateCall.perform, failure_state]
    exact releaseFileLease_leases.bounded hs

theorem AgentAction.bounded (a : AgentAction) (hs : s.Bounded config) : (a.perform s).Bounded config := by
  cases a with
  | atomic call => exact call.bounded hs
  | subscribe => exact hs.subscribe
  | holders => exact fileLeaseHolders_leases.bounded hs

/-- What a call does: it moves rooms, or writes the agents, or the leases. -/
inductive CallEffect (s : AppState) : AppState → Prop
  | rooms {s' : AppState} (h : Sections s s') : CallEffect s s'
  | agents (agents : Table Text Agent) : CallEffect s { s with agents := agents }
  | leases {s' : AppState} (h : LeasesOnly s s')
      (hexclusive : LeaseTable.Exclusive s.fileLeases → LeaseTable.Exclusive s'.fileLeases) : CallEffect s s'

theorem StateCall.effect (call : StateCall) : CallEffect s (call.perform s).2 := by
  cases call with
  | registerAgent now agent =>
    rw [StateCall.perform, failure_state]
    rcases registerAgent_room s now agent with hsame | ⟨key, agent', -, hset⟩
    · rw [hsame]
      exact .rooms .refl
    · rw [hset]
      exact .agents _
  | createOrGetChannel =>
    rw [StateCall.perform, failure_state]
    exact .rooms createOrGetChannel_sections
  | resolveChannel =>
    rw [StateCall.perform, failure_state]
    exact .rooms resolveChannel_sections
  | join =>
    rw [StateCall.perform, failure_state]
    exact .rooms (join_emits ..).sections
  | leave =>
    rw [StateCall.perform, failure_state]
    exact .rooms (leave_emits ..).sections
  | postMessage =>
    rw [StateCall.perform, failure_state]
    exact .rooms postMessage_sections
  | setContext =>
    rw [StateCall.perform, failure_state]
    exact .rooms (setContext_emits ..).sections
  | setContextInternal =>
    rw [StateCall.perform, failure_state]
    exact .rooms (setContextInternal_emits ..).sections
  | acquireFileLease now newId repository path agentKey ttlMs recursive purpose metadata =>
    rw [StateCall.perform, failure_state]
    exact .leases acquireFileLease_leases
      (step_exclusive ⟨s, now.instant, []⟩
        (.acquire 0 now.utc newId repository path agentKey ttlMs recursive purpose metadata))
  | renewFileLease now leaseId agentKey fencingToken ttlMs =>
    rw [StateCall.perform, failure_state]
    exact .leases renewFileLease_leases
      (step_exclusive ⟨s, now.instant, []⟩ (.renew 0 now.utc leaseId agentKey fencingToken ttlMs))
  | releaseFileLease now leaseId agentKey fencingToken =>
    rw [StateCall.perform, failure_state]
    exact .leases releaseFileLease_leases
      (step_exclusive ⟨s, now.instant, []⟩ (.release 0 now.utc leaseId agentKey fencingToken))

theorem AgentAction.effect (a : AgentAction) : CallEffect s (a.perform s) := by
  cases a with
  | atomic call => exact call.effect
  | subscribe => exact .rooms (subscribe_emits ..).sections
  | holders now repository path agentKey includeDescendants =>
    exact .leases fileLeaseHolders_leases
      (step_exclusive ⟨s, now.instant, []⟩ (.holders 0 now.utc repository path agentKey includeDescendants))

end Calls

/-- What holds of the state in every run of calls. -/
structure AppState.Sound (config : Config) (s : AppState) : Prop where
  bounded : s.Bounded config
  trimmed : s.TrimmedKeys
  rooms : s.Rooms
  leases : LeaseTable.Exclusive s.fileLeases

section Sound
variable {config : Config} {now : Now} {P : Effect → Prop} {s s' : AppState}

theorem AppState.sound_new (config : Config) : (AppState.new config).Sound config where
  bounded := ⟨rfl, Nat.zero_le _, Nat.zero_le _, Nat.zero_le _, fun slug ch hch => by cases hch⟩
  trimmed := ⟨fun _ _ _ h => (nomatch h), fun _ h => (nomatch h)⟩
  rooms := fun slug ch hch => by cases hch
  leases := ⟨List.forall_mem_nil _, List.forall_mem_nil _⟩

theorem AppState.Sound.perform (hs : s.Sound config) (a : AgentAction) : (a.perform s).Sound config where
  bounded := a.bounded hs.bounded
  trimmed := hs.trimmed.perform a
  rooms := by
    have heffect : CallEffect s (a.perform s) := a.effect
    generalize a.perform s = s' at heffect
    cases heffect with
    | rooms h => exact h.rooms hs.rooms
    | agents => exact hs.rooms.congr rfl rfl
    | leases h =>
      obtain ⟨table, token, rfl, -⟩ := h
      exact hs.rooms.congr rfl rfl
  leases := by
    have heffect : CallEffect s (a.perform s) := a.effect
    generalize a.perform s = s' at heffect
    cases heffect with
    | rooms h => exact h.leases ▸ hs.leases
    | agents => exact hs.leases
    | leases _ hexclusive => exact hexclusive hs.leases

theorem AppState.Sound.aside (hs : s.Sound config) (inbox : List InboxLine) (permits : Nat) :
    AppState.Sound config { s with inbox := inbox, sseConnections := permits } where
  bounded := ⟨hs.bounded.same, hs.bounded.channels, hs.bounded.agents, hs.bounded.leases, hs.bounded.context⟩
  trimmed := hs.trimmed.congr rfl rfl
  rooms := hs.rooms.congr rfl rfl
  leases := hs.leases

theorem Acts.sound (h : Acts now P s s') (hs : s.Sound config) : s'.Sound config :=
  h.keeps (fun _ a hs => hs.perform a) (fun _ inbox permits hs => hs.aside inbox permits) hs

end Sound
end AgentBridge
