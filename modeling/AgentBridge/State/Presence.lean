import AgentBridge.State.Sections

/-! Membership against the presence events: replaying the events of a channel gives its
members, and a message comes from a member unless its sender left between the two
sections of the post. -/

namespace AgentBridge
open State

/-- The members after an event, for a client that follows the stream. -/
def Event.replay (roster : Finset Text) : Event → Finset Text
  | .presence _ agentKey .joined _ _ => insert agentKey roster
  | .presence _ agentKey .left _ _ => roster.erase agentKey
  | .message _ => roster

def replay (events : List Event) : Finset Text := events.foldl Event.replay ∅

def Event.Counts (before : Finset Text) : Event → Prop
  | .presence channel agentKey event memberCount at' =>
    memberCount = (Event.replay before (.presence channel agentKey event memberCount at')).card
  | .message _ => True

def Event.FromMember (before : Finset Text) : Event → Prop
  | .presence .. => True
  | .message m => m.sender ∈ before

/-- What holds of every event of a log and the members it found. -/
def Throughout (P : Finset Text → Event → Prop) (events : List Event) : Prop :=
  ∀ before e after, events = before ++ e :: after → P (replay before) e

section Replay
variable {P : Finset Text → Event → Prop} {events : List Event} {e : Event}

theorem replay_concat : replay (events ++ [e]) = e.replay (replay events) := by
  simp [replay]

theorem throughout_append {es : List Event} (h : Throughout P events) (hes : ∀ e ∈ es, ∀ before, P before e) :
    Throughout P (events ++ es) := by
  intro before e after he
  rcases List.append_eq_append_iff.mp he with ⟨mid, rfl, hmid⟩ | ⟨mid, rfl, hmid⟩
  · exact hes e (hmid ▸ List.mem_append_right _ List.mem_cons_self) _
  · cases mid with
    | nil =>
      rw [List.nil_append] at hmid
      exact hes e (hmid ▸ List.mem_cons_self) _
    | cons e' mid =>
      obtain ⟨rfl, hafter⟩ := List.cons_eq_cons.mp hmid
      exact h before e mid rfl

theorem throughout_nil : Throughout P [] := by
  intro before e after h
  simp at h

theorem throughout_concat : Throughout P (events ++ [e]) ↔ Throughout P events ∧ P (replay events) e := by
  constructor
  · intro h
    constructor
    · intro before e' after he
      exact h before e' (after ++ [e]) (by simp [he])
    · exact h events e [] rfl
  · rintro ⟨hold, hnew⟩ before e' after he
    rcases List.eq_nil_or_concat after with rfl | ⟨init, last, rfl⟩
    · obtain ⟨rfl, hlast⟩ := List.append_inj' he rfl
      cases hlast
      exact hnew
    · rw [List.concat_eq_append, ← List.cons_append, ← List.append_assoc] at he
      exact hold before e' init (List.append_inj' he rfl).1

end Replay

/-- The members of a channel against its events. -/
structure RosterOk (ch : ChannelState) : Prop where
  cap : ch.members.size ≤ maxMembers
  members : replay ch.events = ch.members.keySet
  counts : Throughout Event.Counts ch.events

section Moves
variable {s : AppState} {slug : Text} {old : Option ChannelState} {ch : ChannelState}

theorem keySet_seen {members : Table Text Member} {key : Text} {m m' : Member} (h : members.get key = some m) :
    (members.insert key m').keySet = members.keySet := by
  have hmem : key ∈ members.keySet := Table.mem_keySet.mpr (by simp [Table.contains, h])
  rw [Table.keySet_insert, Finset.insert_eq_of_mem hmem]

theorem RosterOk.seen {ch' : ChannelState} (hch : RosterOk ch) (hmembers : ch'.members.keySet = ch.members.keySet)
    (hevents : ch'.events = ch.events) : RosterOk ch' where
  cap := by
    rw [← Table.card_keySet, hmembers, Table.card_keySet]
    exact hch.cap
  members := by rw [hevents, hmembers, hch.members]
  counts := by
    rw [hevents]
    exact hch.counts

theorem RosterOk.event {ch' : ChannelState} {e : Event} (hch : RosterOk ch) (hevents : ch'.events = ch.events ++ [e])
    (hmembers : ch'.members.keySet = e.replay ch.members.keySet) (hcap : ch'.members.size ≤ maxMembers)
    (hcounts : e.Counts ch.members.keySet) : RosterOk ch' where
  cap := hcap
  members := by rw [hevents, replay_concat, hch.members, hmembers]
  counts := by
    rw [hevents, throughout_concat, hch.members]
    exact ⟨hch.counts, hcounts⟩

theorem RosterOk.seat (hch : RosterOk ch) (now : Now) {key : Text} (role : MemberRole)
    (hm : ch.members.get key = none) (hroom : ch.members.size < maxMembers) :
    RosterOk (AppState.seat ch now key role) := by
  have hnew : key ∉ ch.members.keySet := by simp [Table.mem_keySet, Table.contains, hm]
  have hkeys : (AppState.seat ch now key role).members.keySet = insert key ch.members.keySet :=
    Table.keySet_insert _
  have hsize : (AppState.seat ch now key role).members.size = (insert key ch.members.keySet).card := by
    rw [← hkeys, Table.card_keySet]
  refine hch.event rfl hkeys ?_ hsize
  rw [hsize, Finset.card_insert_of_notMem hnew, Table.card_keySet]
  exact hroom

theorem RosterOk.unseat (hch : RosterOk ch) (now : Now) (key : Text) :
    RosterOk (AppState.unseat ch now key) := by
  have hkeys : (AppState.unseat ch now key).members.keySet = ch.members.keySet.erase key :=
    Table.keySet_remove
  have hsize : (AppState.unseat ch now key).members.size = (ch.members.keySet.erase key).card := by
    rw [← hkeys, Table.card_keySet]
  refine hch.event rfl hkeys ?_ hsize
  calc (AppState.unseat ch now key).members.size
      = (ch.members.keySet.erase key).card := hsize
    _ ≤ ch.members.keySet.card := Finset.card_erase_le
    _ = ch.members.size := Table.card_keySet
    _ ≤ maxMembers := hch.cap

theorem keySet_append (ch : ChannelState) (now : Now) (budget : Nat) (m : Message) :
    (AppState.append ch now budget m).members.keySet = ch.members.keySet := by
  unfold AppState.append
  cases h : ch.members.get m.sender with
  | none => rfl
  | some member => exact keySet_seen h

theorem RosterOk.append (hch : RosterOk ch) (now : Now) (budget : Nat) (m : Message) :
    RosterOk (AppState.append ch now budget m) := by
  have hkeys := keySet_append ch now budget m
  refine hch.event rfl hkeys ?_ trivial
  rw [← Table.card_keySet, hkeys, Table.card_keySet]
  exact hch.cap

theorem ChannelMove.rosterOk (h : ChannelMove s slug old ch) (hold : ∀ ch', old = some ch' → RosterOk ch') :
    RosterOk ch := by
  cases h with
  | created now topic createdBy embedding model => exact ⟨Nat.zero_le _, rfl, throughout_nil⟩
  | touched now hm => exact (hold _ rfl).seen (keySet_seen hm) rfl
  | seated now role hm hroom => exact (hold _ rfl).seat now role hm hroom
  | unseated now hm => exact (hold _ rfl).unseat now _
  | appended now newId sender role content metadata => exact (hold _ rfl).append now _ _
  | stored entry => exact (hold _ rfl).seen rfl rfl

end Moves

structure Disciplined (ch : ChannelState) : Prop where
  roster : RosterOk ch
  senders : Throughout Event.FromMember ch.events

namespace ChannelWorld

def AllChannels (P : ChannelState → Prop) (w : ChannelWorld) : Prop :=
  ∀ slug ch, w.state.channels.get slug = some ch → P ch

/-- The append of a post finds its sender still in the room. -/
def SenderSeated (w : ChannelWorld) : ChannelAction → Prop
  | .commit _ _ i => ∀ call ch, w.posts[i]? = some call → w.state.channels.get call.slug = some ch →
      ch.members.contains call.sender = true
  | _ => True

/-- Nobody leaves a channel with a post of its own to it under way. -/
def SenderStays (w : ChannelWorld) : ChannelAction → Prop
  | .leave _ slug agentKey => ∀ call ∈ w.posts, call.slug = slug → call.sender ≠ agentKey
  | _ => True

theorem step_rosterOk (w : ChannelWorld) (a : ChannelAction) (hw : w.AllChannels RosterOk) :
    (w.step a).AllChannels RosterOk := by
  intro slug ch hch
  exact (w.step_emits a).effect.channels (fun _ _ hm => hm.rosterOk) hw slug ch hch

theorem senders_of_emits {E : Event → Prop} {s s' : AppState} {target : Text} (h : EmitEffect E s target s')
    (hE : ∀ e, E e → e.posted = none)
    (hall : ∀ slug ch, s.channels.get slug = some ch → Throughout Event.FromMember ch.events)
    (slug : Text) (ch : ChannelState) (hch : s'.channels.get slug = some ch) :
    Throughout Event.FromMember ch.events := by
  cases h with
  | same => exact hall slug ch hch
  | moved _ es hevents hes =>
    rw [AppState.setChannel, Table.get_insert] at hch
    by_cases heq : slug = target
    · rw [if_pos heq] at hch
      cases hch
      have hold : Throughout Event.FromMember ((s.channels.get target).elim [] ChannelState.events) := by
        cases hget : s.channels.get target with
        | none => exact throughout_nil
        | some old => exact hall target old hget
      rw [hevents]
      apply throughout_append hold
      intro e he before
      cases e with
      | presence channel agentKey event memberCount occurredAt => trivial
      | message m => exact absurd (hE _ (hes _ he)) (Option.some_ne_none m)
    · rw [if_neg heq] at hch
      exact hall slug ch hch

theorem step_senders (w : ChannelWorld) (a : ChannelAction) (hroster : w.AllChannels RosterOk)
    (hw : w.AllChannels (fun ch => Throughout Event.FromMember ch.events)) :
    (w.step a).AllChannels (fun ch => Throughout Event.FromMember ch.events) ↔ w.SenderSeated a := by
  cases a with
  | commit now newId i =>
    rw [SenderSeated, step]
    cases hcall : w.posts[i]? with
    | none =>
      constructor
      · intro _ call ch h
        cases h
      · exact fun _ => hw
    | some call =>
      dsimp only
      rw [AppState.appendMessage]
      cases hch : w.state.channels.get call.slug with
      | none =>
        constructor
        · rintro - _ ch ⟨⟩ h
          rw [hch] at h
          cases h
        · exact fun _ => hw
      | some ch =>
        have hseated : call.sender ∈ replay ch.events ↔ ch.members.contains call.sender = true := by
          rw [(hroster _ ch hch).members]
          exact Table.mem_keySet
        constructor
        · rintro hall _ ch' ⟨⟩ h
          rw [hch] at h
          cases h
          have hnew := hall call.slug _ (Table.get_insert_self _ _ _)
          exact hseated.mp (throughout_concat.mp hnew).2
        · intro h slug ch' hch'
          dsimp only [AppState.setChannel] at hch'
          rw [Table.get_insert] at hch'
          by_cases heq : slug = call.slug
          · rw [if_pos heq] at hch'
            cases hch'
            exact throughout_concat.mpr ⟨hw _ ch hch, hseated.mpr (h call ch rfl hch)⟩
          · rw [if_neg heq] at hch'
            exact hw slug ch' hch'
  | leave | insert | join | post | subscribe | setContext =>
    exact iff_of_true (senders_of_emits (w.step_emits _) (ChannelAction.quiet (by simp)) hw) trivial

def PostsSeated (w : ChannelWorld) : Prop :=
  ∀ call ∈ w.posts, ∃ ch, w.state.channels.get call.slug = some ch ∧ call.sender ∈ ch.members.keySet

end ChannelWorld

section Seats
variable {s s' : AppState} {slug target key : Text}

theorem EmitEffect.keeps {E : Event → Prop} (h : EmitEffect E s target s')
    (hE : slug = target → ∀ channel memberCount occurredAt,
      ¬ E (.presence channel key .left memberCount occurredAt))
    (hkey : ∃ ch, s.channels.get slug = some ch ∧ key ∈ ch.members.keySet) :
    ∃ ch, s'.channels.get slug = some ch ∧ key ∈ ch.members.keySet := by
  obtain ⟨old, hold, hmem⟩ := hkey
  cases h with
  | same => exact ⟨old, hold, hmem⟩
  | @moved ch hmove es hevents hes =>
    by_cases heq : slug = target
    · subst heq
      refine ⟨ch, Table.get_insert_self _ _ _, ?_⟩
      rw [hold] at hmove hevents
      cases hmove with
      | touched now hm =>
        rw [AppState.touch, keySet_seen hm]
        exact hmem
      | seated now role hm hroom =>
        rw [AppState.seat, Table.keySet_insert]
        exact Finset.mem_insert_of_mem hmem
      | @unseated _ now key' hm =>
        -- the section sent the leaving of `key'`, so `key'` is another agent
        have hsent : es = [_] := (List.append_cancel_left hevents).symm
        have hleft := hes _ (hsent ▸ List.mem_cons_self)
        have hne : key ≠ key' := by
          rintro rfl
          exact hE rfl _ _ _ hleft
        rw [AppState.unseat, Table.keySet_remove]
        exact Finset.mem_erase.mpr ⟨hne, hmem⟩
      | appended now newId sender role content metadata =>
        rw [keySet_append]
        exact hmem
      | stored entry => exact hmem
    · exact ⟨old, (Table.get_insert_ne heq).trans hold, hmem⟩

theorem join_keySet {now : Now} {role : MemberRole} {out : JoinOutcome}
    (h : s.join now slug key role = (.ok out, s')) :
    ∃ ch, s'.channels.get slug = some ch ∧ Text.trim key ∈ ch.members.keySet := by
  have heffect := join_effect s now slug key role
  rw [h] at heffect
  cases heffect with
  | seen hch hm =>
    refine ⟨_, Table.get_insert_self _ _ _, ?_⟩
    rw [AppState.touch, Table.keySet_insert]
    exact Finset.mem_insert_self _ _
  | seated hch hm =>
    refine ⟨_, Table.get_insert_self _ _ _, ?_⟩
    rw [AppState.seat, Table.keySet_insert]
    exact Finset.mem_insert_self _ _

end Seats

namespace ChannelWorld

theorem begin_posts (w : ChannelWorld) (now : Now) {call : PostCall} (htrim : Text.trim call.sender = call.sender) :
    ∀ c ∈ (w.begin now call).posts, c ∈ w.posts ∨
      ∃ ch, (w.begin now call).state.channels.get c.slug = some ch ∧ c.sender ∈ ch.members.keySet := by
  intro c hc
  unfold begin at hc ⊢
  cases hchecks : w.state.postChecks call.sender call.content call.metadata with
  | error e =>
    rw [hchecks] at hc
    exact .inl hc
  | ok u =>
    rw [hchecks] at hc
    rcases hjoin : w.state.join now call.slug call.sender .member with ⟨r, s'⟩
    dsimp only at hc ⊢
    rw [hjoin] at hc
    cases r with
    | error e => exact .inl hc
    | ok out =>
      rcases List.mem_append.mp hc with hold | hnew
      · exact .inl hold
      · rw [List.mem_singleton.mp hnew]
        have hseat := join_keySet hjoin
        rw [htrim] at hseat
        exact .inr hseat

theorem step_posts (w : ChannelWorld) (a : ChannelAction) :
    ∀ c ∈ (w.step a).posts, c ∈ w.posts ∨
      ∃ ch, (w.step a).state.channels.get c.slug = some ch ∧ c.sender ∈ ch.members.keySet := by
  cases a with
  | post now slug sender role content metadata => exact begin_posts w now (Text.trim_trim sender)
  | commit now newId i =>
    intro c hc
    rw [step] at hc
    cases hcall : w.posts[i]? with
    | none =>
      rw [hcall] at hc
      exact .inl hc
    | some call =>
      rw [hcall] at hc
      exact .inl (List.mem_of_mem_eraseIdx hc)
  | insert now slug topic createdBy embedding model => exact fun c hc => .inl hc
  | join now slug agentKey role => exact fun c hc => .inl hc
  | leave now slug agentKey => exact fun c hc => .inl hc
  | subscribe now slug agentKey => exact fun c hc => .inl hc
  | setContext now slug key value updatedBy => exact fun c hc => .inl hc

theorem step_postsSeated (w : ChannelWorld) (a : ChannelAction) (hstays : w.SenderStays a)
    (hw : w.PostsSeated) : (w.step a).PostsSeated := by
  intro call hcall
  rcases step_posts w a call hcall with hold | hnew
  · refine (w.step_emits a).keeps ?_ (hw call hold)
    intro hslug channel memberCount occurredAt hsent
    -- only a leave of the sender itself sends its leaving
    cases a with
    | leave now slug agentKey => exact hstays call hold hslug hsent
    | commit now newId i => exact hsent rfl
    | insert now slug topic createdBy embedding model => exact hsent
    | join now slug agentKey role => exact hsent
    | post now slug sender role content metadata => exact hsent
    | subscribe now slug agentKey => exact hsent
    | setContext now slug key value updatedBy => exact hsent
  · exact hnew

theorem seated_of_stays {w : ChannelWorld} {as : List ChannelAction} (hw : w.PostsSeated)
    (hstays : Run.Guarded step SenderStays w as) : Run.Guarded step SenderSeated w as := by
  -- at an append, the sender of an open post still has its seat
  induction as generalizing w with
  | nil => trivial
  | cons a as ih =>
    refine ⟨?_, ih (step_postsSeated w a hstays.1 hw) hstays.2⟩
    cases a with
    | commit now newId i =>
      intro call ch hcall hch
      obtain ⟨ch', hch', hmem⟩ := hw call (List.mem_of_getElem? hcall)
      rw [hch] at hch'
      cases hch'
      exact Table.mem_keySet.mp hmem
    | leave now slug agentKey => trivial
    | insert now slug topic createdBy embedding model => trivial
    | join now slug agentKey role => trivial
    | post now slug sender role content metadata => trivial
    | subscribe now slug agentKey => trivial
    | setContext now slug key value updatedBy => trivial

theorem run_rosterOk (config : Config) (as : List ChannelAction) : (run config as).AllChannels RosterOk :=
  fun slug ch hch => run_channels (fun _ _ _ _ _ hm => hm.rosterOk) as slug ch hch

theorem run_senders_iff (config : Config) (as : List ChannelAction) :
    (∀ bs, bs <+: as → (run config bs).AllChannels (fun ch => Throughout Event.FromMember ch.events)) ↔
      Run.Guarded step SenderSeated (init config) as := by
  have hnone : ∀ P, (init config).AllChannels P := by
    intro P slug ch hch
    cases hch
  exact Run.guarded_iff_exec step_rosterOk step_senders (hnone _) (hnone _) as

end ChannelWorld

open ChannelWorld in
/-- The members of every channel are at most the cap and follow its presence events in every run, and
every message comes from a member in exactly the runs whose appends find their sender seated, which are
all those in which nobody leaves during a post of its own. -/
theorem membership_discipline (config : Config) (as : List ChannelAction) :
    (run config as).AllChannels RosterOk ∧
    ((∀ bs, bs <+: as → (run config bs).AllChannels Disciplined) ↔
      Run.Guarded step SenderSeated (init config) as) ∧
    (Run.Guarded step SenderStays (init config) as → Run.Guarded step SenderSeated (init config) as) := by
  refine ⟨run_rosterOk config as, ?_, seated_of_stays (fun _ hcall => absurd hcall List.not_mem_nil)⟩
  rw [← run_senders_iff]
  constructor
  · intro h bs hbs slug ch hch
    exact (h bs hbs slug ch hch).senders
  · intro h bs hbs slug ch hch
    exact ⟨run_rosterOk config bs slug ch hch, h bs hbs slug ch hch⟩

theorem Disciplined.sender {ch : ChannelState} (h : Disciplined ch) {before : List Event} {m : Message}
    (hevents : ch.events = before ++ [.message m]) : ch.members.contains m.sender = true := by
  have hmem : m.sender ∈ replay before := h.senders before (.message m) [] hevents
  have hreplay : replay before = ch.members.keySet := by
    rw [← h.roster.members, hevents, replay_concat]
    rfl
  exact Table.mem_keySet.mp (hreplay ▸ hmem)

/-- `ada` leaves between the two sections of its post. -/
def partingPost : List ChannelAction :=
  [.insert ⟨0, 0⟩ "room".toList "room".toList "ada".toList [] [],
    .post ⟨0, 0⟩ "room".toList "ada".toList .user "bye".toList .null,
    .leave ⟨0, 0⟩ "room".toList "ada".toList, .commit ⟨0, 0⟩ [] 0]

theorem not_disciplined_partingPost : ∃ ch,
    (ChannelWorld.run Config.inMemory partingPost).state.channels.get "room".toList = some ch ∧
    ¬ Disciplined ch := by
  have hrun : ((ChannelWorld.run Config.inMemory partingPost).state.channels.get "room".toList).map
      (fun ch => (ch.members.size, (ch.events.getLast?.bind Event.posted).map Message.sender)) =
        some (0, some "ada".toList) := by decide +kernel
  obtain ⟨ch, hch, hlast⟩ := Option.map_eq_some_iff.mp hrun
  refine ⟨ch, hch, fun h => ?_⟩
  obtain ⟨hempty, hsender⟩ := Prod.mk.inj hlast
  obtain ⟨m, hm, -⟩ := Option.map_eq_some_iff.mp hsender
  obtain ⟨e, he, hposted⟩ := Option.bind_eq_some_iff.mp hm
  cases e with
  | presence channel agentKey event memberCount occurredAt => cases hposted
  | message m' =>
    have hmember := h.sender (List.getLast?_eq_some_iff.mp he).choose_spec
    have hnone : ch.members.keySet = ∅ := by
      rw [← Finset.card_eq_zero, Table.card_keySet, hempty]
    exact absurd (Table.mem_keySet.mpr hmember) (hnone ▸ Finset.notMem_empty _)

end AgentBridge
