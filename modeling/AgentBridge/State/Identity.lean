import AgentBridge.Lease.Canonical
import AgentBridge.State.Failures
import AgentBridge.State.Slugs

/-! Agent keys with white space around them: the calls that write a key trim it, and some calls that
read one do not. -/

namespace AgentBridge
open State

inductive AgentAction
  | atomic (call : StateCall)
  | subscribe (now : Now) (slug : Text) (agentKey : Option Text)
  | holders (now : Now) (repository path agentKey : Option Text) (includeDescendants : Bool)

def AgentAction.perform (s : AppState) : AgentAction → AppState
  | atomic call => (call.perform s).2
  | subscribe now slug agentKey => (s.subscribe now slug agentKey).2
  | holders now repository path agentKey includeDescendants =>
    (s.fileLeaseHolders now repository path agentKey includeDescendants).2

structure AppState.TrimmedKeys (s : AppState) : Prop where
  members : ∀ slug ch key, s.channels.get slug = some ch → ch.members.contains key = true → Text.trim key = key
  agents : ∀ key, s.agents.contains key = true → Text.trim key = key

theorem AppState.registerAgent_cases (s : AppState) (now : Now) (agent : Agent) :
    (∃ e, s.registerAgent now agent = (.error e, s)) ∨
    ∃ agent', agent'.agentKey = Text.trim agent.agentKey ∧ s.registerAgent now agent =
      (.ok agent', { s with agents := s.agents.insert (Text.trim agent.agentKey) agent' }) := by
  unfold AppState.registerAgent
  dsimp only
  split_ifs
  all_goals first | exact .inl ⟨_, rfl⟩ | exact .inr ⟨_, rfl, rfl⟩

section Keys
variable {s s' : AppState} {slug : Text} {ch : ChannelState}

theorem trimmed_insert {α : Type} {t : Table Text α} {key : Text} {a : α} (hkey : Text.trim key = key)
    (h : ∀ key, t.contains key = true → Text.trim key = key) (key' : Text)
    (hkey' : (t.insert key a).contains key' = true) : Text.trim key' = key' := by
  by_cases heq : key' = key
  · rw [heq, hkey]
  · refine h key' ?_
    rwa [Table.contains, Table.get_insert_ne heq] at hkey'

theorem AppState.TrimmedKeys.setChannel (h : s.TrimmedKeys)
    (hch : ∀ key, ch.members.contains key = true → Text.trim key = key) : (s.setChannel slug ch).TrimmedKeys where
  members slug' ch' key hget hkey := by
    by_cases heq : slug' = slug
    · rw [heq, AppState.setChannel, Table.get_insert_self] at hget
      cases hget
      exact hch key hkey
    · rw [AppState.setChannel, Table.get_insert_ne heq] at hget
      exact h.members slug' ch' key hget hkey
  agents := h.agents

theorem AppState.TrimmedKeys.touch {key : Text} {m : Member} (h : s.TrimmedKeys) (hch : s.channels.get slug = some ch)
    (now : Now) (hkey : Text.trim key = key) : (s.setChannel slug (AppState.touch ch now key m)).TrimmedKeys :=
  h.setChannel fun key' => trimmed_insert hkey (fun key hkey => h.members slug ch key hch hkey) key'

theorem AppState.TrimmedKeys.join (h : s.TrimmedKeys) (now : Now) (slug key : Text) (role : MemberRole) :
    (s.join now slug key role).2.TrimmedKeys := by
  have heffect := join_effect s now slug key role
  generalize s.join now slug key role = r at heffect
  cases heffect with
  | refused e => exact h
  | seen hch hm => exact h.touch hch now (Text.trim_trim key)
  | seated hch hm =>
    refine h.setChannel fun key' => trimmed_insert (Text.trim_trim key) (fun key'' hkey => ?_) key'
    exact h.members slug _ key'' hch hkey

theorem AppState.TrimmedKeys.create (h : s.TrimmedKeys) {now : Now} (heffect : CreateEffect s now slug s') :
    s'.TrimmedKeys := by
  cases heffect with
  | same => exact h
  | created => exact h.setChannel fun key hkey => absurd hkey Bool.false_ne_true

theorem AppState.TrimmedKeys.leave (h : s.TrimmedKeys) (now : Now) (slug key : Text) :
    (s.leave now slug key).2.TrimmedKeys := by
  unfold AppState.leave
  cases hch : s.channels.get slug with
  | none => exact h
  | some ch =>
    dsimp only
    split_ifs
    · refine h.setChannel fun key' hkey' => h.members slug ch key' hch ?_
      change (ch.members.remove key).contains key' = true at hkey'
      by_cases heq : key' = key
      · rw [heq, Table.contains, Table.get_remove_self] at hkey'
        cases hkey'
      · rwa [Table.contains, Table.get_remove_ne heq] at hkey'
    · exact h

theorem AppState.TrimmedKeys.resolve (h : s.TrimmedKeys) (w : Surroundings) (now : Now)
    (topicId suffixId query createdBy : Text) (threshold : Option Float32) :
    (s.resolveChannel w now topicId suffixId query createdBy threshold).2.TrimmedKeys := by
  have hinsert (slug : Text) : (s.insertChannel now slug (Text.trim query) createdBy (w.embed (Text.trim query)).1
      (w.embed (Text.trim query)).2).2.TrimmedKeys := h.create (insertChannel_effect s now slug ..)
  unfold AppState.resolveChannel
  dsimp only
  by_cases hempty : Text.trim query = []
  · rw [if_pos hempty]
    exact h
  · rw [if_neg hempty]
    cases bestScored (s.channels.values.map fun c => (c.slug, cosine (w.embed (Text.trim query)).1 c.embedding)) with
    | none => exact hinsert _
    | some best =>
      dsimp only
      by_cases hclose : s.resolveThreshold threshold ≤ best.2
      · rw [if_pos hclose]
        exact h
      · rw [if_neg hclose]
        exact hinsert _

theorem AppState.TrimmedKeys.post (h : s.TrimmedKeys) (now : Now) (newId slug sender : Text) (role : Role)
    (content : Text) (metadata : Json) :
    (s.postMessage now newId slug sender role content metadata).2.TrimmedKeys := by
  have heffect := post_effect s now newId slug sender role content metadata
  generalize s.postMessage now newId slug sender role content metadata = r at heffect
  cases heffect with
  | refused e => exact h
  | @posted s₁ ch out hjoin hch =>
    have hjoined : s₁.TrimmedKeys := by
      have hstate := h.join now slug (Text.trim sender) .member
      rwa [hjoin] at hstate
    have hold : ∀ key, ch.members.contains key = true → Text.trim key = key :=
      fun key hkey => hjoined.members slug ch key hch hkey
    refine hjoined.setChannel fun key hkey => ?_
    unfold AppState.append at hkey
    dsimp only [AppState.newMessage] at hkey
    cases hmember : ch.members.get (Text.trim sender) with
    | none =>
      rw [hmember] at hkey
      exact hold key hkey
    | some m =>
      rw [hmember] at hkey
      exact trimmed_insert (Text.trim_trim sender) hold key hkey

theorem AppState.TrimmedKeys.setContext (h : s.TrimmedKeys) (now : Now) (slug key : Text) (value : ContextValue)
    (updatedBy : Text) : (s.setContextInternal now slug key value updatedBy).2.TrimmedKeys := by
  rcases setContextInternal_cases s now slug key value updatedBy with ⟨e, he⟩ | ⟨ch, hch, he⟩
  · rw [he]
    exact h
  · rw [he]
    exact h.setChannel fun key' hkey' => h.members slug ch key' hch hkey'

theorem AppState.TrimmedKeys.congr (h : s.TrimmedKeys) (hchannels : s'.channels = s.channels)
    (hagents : s'.agents = s.agents) : s'.TrimmedKeys where
  members slug ch key hget hkey := h.members slug ch key (hchannels ▸ hget) hkey
  agents key hkey := h.agents key (hagents ▸ hkey)

theorem AppState.TrimmedKeys.register (h : s.TrimmedKeys) (now : Now) (agent : Agent) :
    (s.registerAgent now agent).2.TrimmedKeys := by
  rcases AppState.registerAgent_cases s now agent with ⟨e, he⟩ | ⟨agent', hkey, he⟩
  · rw [he]
    exact h
  · rw [he]
    exact ⟨h.members, fun key => trimmed_insert (Text.trim_trim agent.agentKey) h.agents key⟩

theorem AppState.TrimmedKeys.acquire (h : s.TrimmedKeys) (now : Now) (newId repository path agentKey : Text)
    (ttlMs : Nat) (recursive : Bool) (purpose : Text) (metadata : Json) :
    (s.acquireFileLease now newId repository path agentKey ttlMs recursive purpose metadata).2.TrimmedKeys := by
  unfold AppState.acquireFileLease
  cases s.acquireChecks repository path agentKey ttlMs metadata with
  | error e => exact h
  | ok r =>
    have hpruned : (s.pruneLeases now).TrimmedKeys := h.congr rfl rfl
    dsimp only
    unfold AppState.grantFileLease
    split
    · exact hpruned
    · split
      · exact hpruned.congr rfl rfl
      · split_ifs
        · exact hpruned
        · exact hpruned.congr rfl rfl

theorem AppState.TrimmedKeys.renew (h : s.TrimmedKeys) (now : Now) (leaseId agentKey : Text)
    (fencingToken ttlMs : Nat) : (s.renewFileLease now leaseId agentKey fencingToken ttlMs).2.TrimmedKeys := by
  unfold AppState.renewFileLease
  cases normalizeFileLeaseTtl ttlMs with
  | error e => exact h
  | ok ttlMs =>
    dsimp only
    cases (s.pruneLeases now).fencedLease leaseId agentKey fencingToken with
    | error e => exact h.congr rfl rfl
    | ok value => exact h.congr rfl rfl

theorem AppState.TrimmedKeys.release (h : s.TrimmedKeys) (now : Now) (leaseId agentKey : Text)
    (fencingToken : Nat) : (s.releaseFileLease now leaseId agentKey fencingToken).2.TrimmedKeys := by
  unfold AppState.releaseFileLease
  dsimp only
  cases (s.pruneLeases now).fencedLease leaseId agentKey fencingToken with
  | error e => exact h.congr rfl rfl
  | ok value => exact h.congr rfl rfl

theorem AppState.TrimmedKeys.subscribe (h : s.TrimmedKeys) (now : Now) (slug : Text) (agentKey : Option Text) :
    (s.subscribe now slug agentKey).2.TrimmedKeys := by
  unfold AppState.subscribe
  dsimp only
  cases agentKey.filter (fun k => Text.trim k ≠ []) with
  | none => cases s.channels.get slug <;> exact h
  | some key =>
    have hjoined := h.join now slug key .member
    dsimp only
    generalize s.join now slug key .member = r at hjoined
    rcases r with ⟨e | out, s₁⟩
    · exact hjoined
    · dsimp only
      cases s₁.channels.get slug <;> exact hjoined

theorem AppState.TrimmedKeys.holders (h : s.TrimmedKeys) (now : Now) (repository path agentKey : Option Text)
    (includeDescendants : Bool) :
    (s.fileLeaseHolders now repository path agentKey includeDescendants).2.TrimmedKeys := by
  unfold AppState.fileLeaseHolders
  split
  · exact h
  · exact h
  · exact h.congr rfl rfl

theorem trimmed_failure {α : Type} {r : BridgeResult α × AppState} (h : r.2.TrimmedKeys) :
    (failure r).2.TrimmedKeys := by
  rw [failure_state]
  exact h

theorem AppState.TrimmedKeys.perform (h : s.TrimmedKeys) (action : AgentAction) :
    (action.perform s).TrimmedKeys := by
  cases action with
  | subscribe => exact h.subscribe ..
  | holders => exact h.holders ..
  | atomic call =>
    cases call with
    | registerAgent => exact trimmed_failure (h.register ..)
    | createOrGetChannel => exact trimmed_failure (h.create (createOrGetChannel_effect ..))
    | resolveChannel => exact trimmed_failure (h.resolve ..)
    | join => exact trimmed_failure (h.join ..)
    | leave => exact trimmed_failure (h.leave ..)
    | postMessage => exact trimmed_failure (h.post ..)
    | setContext now slug key value updatedBy =>
      refine trimmed_failure ?_
      unfold AppState.setContext
      split_ifs
      · exact h
      · exact h.setContext ..
    | setContextInternal => exact trimmed_failure (h.setContext ..)
    | acquireFileLease => exact trimmed_failure (h.acquire ..)
    | renewFileLease => exact trimmed_failure (h.renew ..)
    | releaseFileLease => exact trimmed_failure (h.release ..)

end Keys

theorem trimmedKeys_run (config : Config) (actions : List AgentAction) :
    (Run.exec AgentAction.perform (AppState.new config) actions).TrimmedKeys := by
  refine Run.exec_invariant (fun s action h => h.perform action) ?_ actions
  exact ⟨fun _ _ _ h => (nomatch h), fun _ h => (nomatch h)⟩

section Raw
variable {s s' : AppState} {slug key : Text}

theorem isMember_setChannel {ch : ChannelState} (s : AppState) (slug slug' key : Text) :
    (s.setChannel slug ch).isMember slug' key =
      if slug' = slug then ch.members.contains key else s.isMember slug' key := by
  unfold AppState.isMember AppState.setChannel
  rw [Table.get_insert]
  split_ifs <;> rfl

theorem isMember_of_channel {ch : ChannelState} (hch : s.channels.get slug = some ch) (key : Text) :
    s.isMember slug key = ch.members.contains key := by
  rw [AppState.isMember, hch]
  rfl

theorem AppState.TrimmedKeys.not_isMember (h : s.TrimmedKeys) (hkey : Text.trim key ≠ key) :
    s.isMember slug key = false := by
  by_contra hmember
  rw [Bool.not_eq_false, AppState.isMember, Option.any_eq_true] at hmember
  obtain ⟨ch, hch, hmember⟩ := hmember
  exact hkey (h.members slug ch key hch hmember)

theorem AppState.TrimmedKeys.getAgent_none (h : s.TrimmedKeys) (hkey : Text.trim key ≠ key) :
    s.getAgent key = none := by
  by_contra hagent
  exact hkey (h.agents key (Option.isSome_iff_ne_none.mpr hagent))

theorem leave_eq (now : Now) (hchannel : (s.channels.get slug).isSome = true) :
    ∃ s', s.leave now slug key = (.ok (s.isMember slug key), s') ∧ ∀ slug' key',
      s'.isMember slug' key' = (s.isMember slug' key' && !(slug' = slug && key' = key : Bool)) := by
  obtain ⟨ch, hch⟩ := Option.isSome_iff_exists.mp hchannel
  unfold AppState.leave
  rw [hch, isMember_of_channel hch]
  dsimp only
  cases hmember : ch.members.contains key with
  | false =>
    refine ⟨s, rfl, fun slug' key' => ?_⟩
    by_cases hsame : slug' = slug ∧ key' = key
    · obtain ⟨rfl, rfl⟩ := hsame
      rw [isMember_of_channel hch, hmember]
      rfl
    · rw [← Bool.decide_and, decide_eq_false hsame]
      exact (Bool.and_true _).symm
  | true =>
    refine ⟨_, rfl, fun slug' key' => ?_⟩
    rw [isMember_setChannel]
    by_cases hslug : slug' = slug
    · subst hslug
      rw [if_pos rfl, isMember_of_channel hch]
      change (ch.members.remove key).contains key' = _
      by_cases hkey : key' = key
      · simp [hkey, Table.contains]
      · simp [hkey, Table.contains, Table.get_remove_ne hkey]
    · simp [hslug]

theorem join_members {now : Now} {role : MemberRole} {out : JoinOutcome}
    (h : s.join now slug key role = (.ok out, s')) : (s'.channels.get slug).isSome = true ∧ ∀ slug' key',
      s'.isMember slug' key' = (s.isMember slug' key' || (slug' = slug && key' = Text.trim key : Bool)) := by
  have heffect := join_effect s now slug key role
  rw [h] at heffect
  have hinsert (ch ch' : ChannelState) (m : Member) (hch : s.channels.get slug = some ch)
      (hmembers : ch'.members = ch.members.insert (Text.trim key) m) (slug' key' : Text) :
      (s.setChannel slug ch').isMember slug' key' =
        (s.isMember slug' key' || (slug' = slug && key' = Text.trim key : Bool)) := by
    rw [isMember_setChannel, hmembers]
    by_cases hslug : slug' = slug
    · subst hslug
      rw [if_pos rfl, isMember_of_channel hch, Table.contains, Table.get_insert]
      by_cases hkey : key' = Text.trim key
      · simp [hkey]
      · simp [hkey, Table.contains]
    · simp [hslug]
  cases heffect with
  | seen hch hm => exact ⟨congrArg Option.isSome (Table.get_insert_self ..), hinsert _ _ _ hch rfl⟩
  | seated hch hm => exact ⟨congrArg Option.isSome (Table.get_insert_self ..), hinsert _ _ _ hch rfl⟩

theorem join_leave_iff (hs : s.TrimmedKeys) {now : Now} {role : MemberRole} {out : JoinOutcome}
    (h : s.join now slug key role = (.ok out, s')) (now' : Now) :
    (s'.isMember slug key = true ∧ ∃ s₂, s'.leave now' slug key = (.ok true, s₂) ∧
      ∀ slug' key', s₂.isMember slug' key' = s.isMember slug' key') ↔
      Text.trim key = key ∧ s.isMember slug key = false := by
  obtain ⟨hchannel, hjoined⟩ := join_members h
  obtain ⟨s₂, hleave, hleft⟩ := @leave_eq s' slug key now' hchannel
  constructor
  · rintro ⟨hmember, s₂', hleave', hsame⟩
    have hs' : s'.TrimmedKeys := by
      have hstate := hs.join now slug key role
      rwa [h] at hstate
    rw [hleave] at hleave'
    obtain rfl : s₂ = s₂' := congrArg Prod.snd hleave'
    constructor
    · by_contra hkey
      exact Bool.false_ne_true ((hs'.not_isMember hkey).symm.trans hmember)
    · rw [← hsame, hleft]
      simp
  · rintro ⟨hkey, hnew⟩
    have hmember : s'.isMember slug key = true := by
      rw [hjoined, hkey]
      simp
    refine ⟨hmember, s₂, hmember ▸ hleave, fun slug' key' => ?_⟩
    rw [hleft, hjoined, hkey]
    by_cases hsame : slug' = slug ∧ key' = key
    · obtain ⟨rfl, rfl⟩ := hsame
      simp [hnew]
    · rw [← Bool.decide_and, decide_eq_false hsame, Bool.or_false, Bool.not_false, Bool.and_true]

theorem register_get_iff (hs : s.TrimmedKeys) {now : Now} {agent agent' : Agent}
    (h : s.registerAgent now agent = (.ok agent', s')) :
    s'.getAgent agent.agentKey = some agent' ↔ Text.trim agent.agentKey = agent.agentKey := by
  constructor
  · intro hget
    have hs' : s'.TrimmedKeys := by
      have hstate := hs.register now agent
      rwa [h] at hstate
    by_contra hkey
    rw [hs'.getAgent_none hkey] at hget
    cases hget
  · intro hkey
    rcases AppState.registerAgent_cases s now agent with ⟨e, he⟩ | ⟨agent'', -, he⟩
    · rw [h] at he
      cases he
    · rw [h] at he
      cases he
      rw [AppState.getAgent, hkey]
      exact Table.get_insert_self _ _ _

theorem acquire_lists_iff {now : Now} {newId repository path purpose : Text} {ttlMs : Nat} {recursive : Bool}
    {metadata : Json} {lease : FileLease}
    (h : s.acquireFileLease now newId repository path key ttlMs recursive purpose metadata = (.ok lease, s'))
    {now' : Now} (hnow : now'.instant < now.instant + ttlMs) (includeDescendants : Bool) :
    s'.Lists now' none none (some key) includeDescendants lease ↔ Text.trim key = key := by
  have hacquired := acquireFileLease_acquired h
  have hregistered : s'.agents.contains lease.agentKey = true := by
    rw [hacquired.agents, hacquired.owner]
    exact hacquired.registered
  constructor
  · intro hlists
    obtain ⟨r, p, -, -, -, -, -, -, howner⟩ := AppState.lists_iff.mp hlists
    exact hacquired.owner.symm.trans (beq_iff_eq.mp howner)
  · intro hkey
    have howner : (lease.agentKey == key) = true := beq_iff_eq.mpr (hacquired.owner.trans hkey)
    exact AppState.lists_iff.mpr ⟨none, none, rfl, rfl, hacquired.live hnow, hregistered, rfl, rfl, howner⟩

theorem reading_calls (hs : s.TrimmedKeys) (key : Text) :
    (∀ slug, s.isMember slug key = s.isMember slug (Text.trim key) ↔
      Text.trim key = key ∨ s.isMember slug (Text.trim key) = false) ∧
    (s.getAgent key = s.getAgent (Text.trim key) ↔ Text.trim key = key ∨ s.getAgent (Text.trim key) = none) ∧
    ∀ now slug, s.leave now slug key = s.leave now slug (Text.trim key) ↔
      Text.trim key = key ∨ s.isMember slug (Text.trim key) = false := by
  by_cases hkey : Text.trim key = key
  · simp [hkey]
  · rw [hs.getAgent_none hkey]
    refine ⟨fun slug => ?_, ?_, fun now slug => ?_⟩
    · rw [hs.not_isMember hkey, or_iff_right hkey, eq_comm]
    · rw [or_iff_right hkey, eq_comm]
    · rw [or_iff_right hkey]
      cases hch : s.channels.get slug with
      | none => simp [AppState.leave, AppState.isMember, hch]
      | some ch =>
        have hnot : ch.members.contains key = false := (isMember_of_channel hch key).symm.trans (hs.not_isMember hkey)
        rw [isMember_of_channel hch]
        unfold AppState.leave
        rw [hch]
        dsimp only
        rw [hnot]
        cases ch.members.contains (Text.trim key) <;> simp

end Raw

/-- In every state that calls reach: joining and leaving undo each other, registration is read back, and a lease is
listed, all under the key as given, exactly if the key is trimmed and, for the first, not yet a member; the calls
that read a key without trimming it tell the two forms apart exactly if the trimmed one is there. -/
theorem agent_key_iff (config : Config) (actions : List AgentAction) (key : Text) :
    let s := Run.exec AgentAction.perform (AppState.new config) actions
    (∀ now now' slug role out s', s.join now slug key role = (.ok out, s') →
      ((s'.isMember slug key = true ∧ ∃ s₂, s'.leave now' slug key = (.ok true, s₂) ∧
          ∀ slug' key', s₂.isMember slug' key' = s.isMember slug' key') ↔
        Text.trim key = key ∧ s.isMember slug key = false)) ∧
    (∀ now (agent : Agent) agent' s', s.registerAgent now { agent with agentKey := key } = (.ok agent', s') →
      (s'.getAgent key = some agent' ↔ Text.trim key = key)) ∧
    (∀ (now now' : Now) newId repository path ttlMs recursive purpose metadata lease s',
      s.acquireFileLease now newId repository path key ttlMs recursive purpose metadata = (.ok lease, s') →
      now'.instant < now.instant + ttlMs → ∀ includeDescendants,
        (s'.Lists now' none none (some key) includeDescendants lease ↔ Text.trim key = key)) ∧
    (∀ slug, s.isMember slug key = s.isMember slug (Text.trim key) ↔
      Text.trim key = key ∨ s.isMember slug (Text.trim key) = false) ∧
    (s.getAgent key = s.getAgent (Text.trim key) ↔ Text.trim key = key ∨ s.getAgent (Text.trim key) = none) ∧
    ∀ now slug, s.leave now slug key = s.leave now slug (Text.trim key) ↔
      Text.trim key = key ∨ s.isMember slug (Text.trim key) = false := by
  have hs := trimmedKeys_run config actions
  refine ⟨?_, ?_, ?_, reading_calls hs key⟩
  · intro now now' slug role out s' h
    exact join_leave_iff hs h now'
  · intro now agent agent' s' h
    exact register_get_iff hs h
  · intro now now' newId repository path ttlMs recursive purpose metadata lease s' h hnow includeDescendants
    exact acquire_lists_iff h hnow includeDescendants

def adaAgent (key : Text) : Agent := {
  agentKey := key
  displayName := "Ada".toList
  kind := .claude
  host := none
  metadata := .null
  registeredAt := [] }

/-- Ada is registered and there is a room. -/
def roomActions : List AgentAction := [
  .atomic (.registerAgent ⟨0, 0⟩ (adaAgent "ada".toList)),
  .atomic (.createOrGetChannel asciiSurroundings ⟨0, 0⟩ "room".toList "Room".toList "ada".toList)]

def roomState : AppState := Run.exec AgentAction.perform (AppState.new Config.inMemory) roomActions

/-- Ada joins and leaves again, is registered and found, and takes a lease and is listed with it. -/
theorem agent_key_trimmed :
    (∃ s', (roomState.join ⟨1, 1⟩ "room".toList "ada".toList .member).2 = s' ∧
      s'.isMember "room".toList "ada".toList = true ∧
      ∃ s₂, s'.leave ⟨2, 2⟩ "room".toList "ada".toList = (.ok true, s₂) ∧
        ∀ slug key, s₂.isMember slug key = roomState.isMember slug key) ∧
    (∃ agent s', roomState.registerAgent ⟨1, 1⟩ (adaAgent "ada".toList) = (.ok agent, s') ∧
      s'.getAgent "ada".toList = some agent) ∧
    ∃ lease s',
      roomState.acquireFileLease ⟨1, 1⟩ "l1".toList "repo".toList "a".toList "ada".toList 60000 false [] .null =
      (.ok lease, s') ∧ s'.Lists ⟨2, 2⟩ none none (some "ada".toList) false lease := by
  have hkey : Text.trim "ada".toList = "ada".toList := by decide
  obtain ⟨hjoin, hregister, hacquire, -⟩ := agent_key_iff Config.inMemory roomActions "ada".toList
  refine ⟨?_, ?_, ?_⟩
  · have hok : (roomState.join ⟨1, 1⟩ "room".toList "ada".toList .member).1.toOption.isSome = true := by decide +kernel
    obtain ⟨out, hout⟩ := Except.isSome_toOption.mp hok
    exact ⟨_, rfl, (hjoin _ ⟨2, 2⟩ _ _ out _ (Prod.ext hout rfl)).mpr ⟨hkey, by decide +kernel⟩⟩
  · have hok : (roomState.registerAgent ⟨1, 1⟩ (adaAgent "ada".toList)).1.toOption.isSome = true := by decide +kernel
    obtain ⟨agent, hagent⟩ := Except.isSome_toOption.mp hok
    exact ⟨agent, _, Prod.ext hagent rfl, (hregister ⟨1, 1⟩ (adaAgent "ada".toList) agent _
      (Prod.ext hagent rfl)).mpr hkey⟩
  · have hok : (roomState.acquireFileLease ⟨1, 1⟩ "l1".toList "repo".toList "a".toList "ada".toList 60000 false []
        .null).1.toOption.isSome = true := by decide +kernel
    obtain ⟨lease, hlease⟩ := Except.isSome_toOption.mp hok
    exact ⟨lease, _, Prod.ext hlease rfl, (hacquire ⟨1, 1⟩ ⟨2, 2⟩ _ _ _ _ _ _ _ lease _ (Prod.ext hlease rfl)
      (by decide) false).mpr hkey⟩

def spacedJoin : BridgeResult JoinOutcome × AppState :=
  roomState.join ⟨1, 1⟩ "room".toList " ada ".toList .member

def spacedRegistration : BridgeResult Agent × AppState :=
  roomState.registerAgent ⟨1, 1⟩ (adaAgent " ada ".toList)

def spacedAcquire : BridgeResult FileLease × AppState :=
  roomState.acquireFileLease ⟨1, 1⟩ "l1".toList "repo".toList "a".toList " ada ".toList 60000 false [] .null

/-- Joined with spaces around the key, and neither a member nor able to leave under that key; registered, and not
found; holding a lease, and not listed. -/
theorem agent_key_spaced :
    (spacedJoin.1.toOption.isSome = true ∧ spacedJoin.2.isMember "room".toList " ada ".toList = false ∧
      (spacedJoin.2.leave ⟨2, 2⟩ "room".toList " ada ".toList).1.toOption = some false) ∧
    (spacedRegistration.1.toOption.isSome = true ∧
      (spacedRegistration.2.getAgent " ada ".toList).isNone = true) ∧
    spacedAcquire.1.toOption.isSome = true ∧
      (spacedAcquire.2.fileLeaseHolders ⟨2, 2⟩ none none (some " ada ".toList) false).1.toOption.map List.length =
        some 0 := by
  decide +kernel

end AgentBridge
