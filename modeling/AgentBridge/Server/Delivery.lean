import AgentBridge.Server.Sessions
import AgentBridge.Server.Soundness
import AgentBridge.Tcp.Told

/-! What the TCP connections of a server are told of its rooms, in every run. -/

namespace AgentBridge
open Http Tcp

namespace Server
variable {host : Host} {s s' : AppState} {w : Server} {id : Nat} {c c' : Connection} {a : ServerAction}

theorem Passes.delivers {origin : Text → Feed.Origin Event} (h : Passes host s id c a s' c') (hc : Delivers s origin c)
    (horderly : Orderly c) (hsent : ∀ slug, s.sent slug <+: s'.sent slug) (hrooms : s.Rooms) (hrooms' : s'.Rooms) :
    ∃ origin', Delivers s' origin' c' ∧ ∀ channel ∈ c.subscribed, origin' channel = origin channel := by
  cases h with
  | kept => exact ⟨origin, hc.grow hsent, fun _ _ => rfl⟩
  | received h => exact ⟨origin, hc.received hsent hrooms' h, fun _ _ => rfl⟩
  | replayed =>
    refine ⟨_, hc.replay horderly hrooms, fun channel hchannel => ?_⟩
    unfold Connection.originAfter
    cases hpending : c.pending with
    | none => rfl
    | some p =>
      have hdistinct := horderly.distinct
      rw [hpending] at hdistinct
      refine Function.update_of_ne ?_ _ _
      rintro rfl
      exact (List.nodup_append.mp hdistinct).2.2 _ hchannel _ (List.mem_singleton_self _) rfl
  | turned h => exact ⟨origin, hc.turned horderly h, fun _ _ => rfl⟩
  | brokeOff => exact ⟨origin, hc.breakOff, fun _ _ => rfl⟩

theorem Passes.subscribed (h : Passes host s id c a s' c') : c.subscribed ⊆ c'.subscribed := by
  cases h with
  | kept => exact List.Subset.refl _
  | received h =>
    cases h with
    | busy | answered | authenticated => exact List.Subset.refl _
    | dispatched hattended hpending hsomebody h => cases h <;> exact List.Subset.refl _
  | replayed =>
    unfold Connection.replay
    cases c.pending with
    | none => exact List.Subset.refl _
    | some p => exact List.subset_append_left _ _
  | turned h => cases h <;> exact List.Subset.refl _
  | brokeOff =>
    unfold Connection.breakOff
    split_ifs <;> exact List.Subset.refl _

theorem Passes.pending {p : Pending} (h : Passes host s id c a s' c') (hp : c.pending = some p) (ha : a ≠ .replay id) :
    c'.pending = some p := by
  cases h with
  | kept => exact hp
  | received h =>
    cases h with
    | busy | answered | authenticated => exact hp
    | dispatched hattended hpending => exact absurd (hpending.symm.trans hp) nofun
  | replayed => exact absurd rfl ha
  | turned h => cases h <;> exact hp
  | brokeOff =>
    unfold Connection.breakOff
    split_ifs <;> exact hp

/-- The state is sound, and every connection is orderly and was told what it should be. -/
structure Telling (config : Config) (w : Server) : Prop where
  sound : w.state.Sound config
  orderly : ∀ id c, w.connections.get id = some c → Orderly c
  delivers : ∀ id c, w.connections.get id = some c → ∃ origin, Delivers w.state origin c

section Telling
variable {config : Config}

theorem Telling.passes {origin : Text → Feed.Origin Event} (hw : Telling config w) (h : w.connections.get id = some c)
    (hpasses : Passes host w.state id c a (w.step host a).state c') (hc : Delivers w.state origin c) :
    ∃ origin', Delivers (w.step host a).state origin' c' ∧ ∀ channel ∈ c.subscribed,
      origin' channel = origin channel := by
  obtain ⟨now, hcalls⟩ := step_calls host w a
  exact hpasses.delivers hc (hw.orderly id c h) hcalls.confined.sent hw.sound.rooms (step_sound hw.sound a).rooms

theorem Telling.step (hw : Telling config w) (a : ServerAction) : Telling config (w.step host a) where
  sound := step_sound hw.sound a
  orderly := step_orderly hw.orderly a
  delivers := fun id c' h => by
    rcases step_origin h with ⟨-, -, rfl⟩ | ⟨c, hold, hpasses⟩
    · exact ⟨fun _ => ⟨0, []⟩, delivers_accept⟩
    · obtain ⟨origin, hc⟩ := hw.delivers id c hold
      obtain ⟨origin', hc', -⟩ := hw.passes hold hpasses hc
      exact ⟨origin', hc'⟩

theorem Telling.exec (hw : Telling config w) (as : List ServerAction) :
    Telling config (Run.exec (Server.step host) w as) :=
  Run.exec_invariant (P := Telling config) (fun _ a hw => hw.step a) hw as

theorem run_telling (host : Host) (as : List ServerAction) : Telling host.config (run host (.new host.config) as) :=
  Telling.exec ⟨AppState.sound_new host.config, (fun _ _ h => by cases h), fun _ _ h => by cases h⟩ as

theorem Telling.exec_delivers {origin : Text → Feed.Origin Event} {channel : Text} (hw : Telling config w)
    (h : w.connections.get id = some c) (hc : Delivers w.state origin c) (hchannel : channel ∈ c.subscribed)
    {as : List ServerAction} (has : ∀ a ∈ as, a ≠ .hangUp id) :
    ∃ c' origin', (Run.exec (Server.step host) w as).connections.get id = some c' ∧
      Delivers (Run.exec (Server.step host) w as).state origin' c' ∧ channel ∈ c'.subscribed ∧
      origin' channel = origin channel := by
  -- the origin of a room is set when it is subscribed to, and kept from then on
  induction as generalizing w c origin with
  | nil => exact ⟨c, origin, h, hc, hchannel, rfl⟩
  | cons a as ih =>
    obtain ⟨c₁, h₁, hpasses⟩ := step_passes host h fun ha => absurd ha (has a List.mem_cons_self)
    obtain ⟨origin₁, hc₁, hsame⟩ := hw.passes h hpasses hc
    obtain ⟨c', origin', h', hc', hmem, horigin⟩ :=
      ih (hw.step a) h₁ hc₁ (hpasses.subscribed hchannel) fun b hb => has b (List.mem_cons_of_mem _ hb)
    exact ⟨c', origin', h', hc', hmem, horigin.trans (hsame channel hchannel)⟩

theorem exec_pending {p : Pending} (h : w.connections.get id = some c) (hp : c.pending = some p)
    {as : List ServerAction} (has : .replay id ∉ as) :
    ∃ c', (Run.exec (Server.step host) w as).connections.get id = some c' ∧ c'.pending = some p := by
  induction as generalizing w c with
  | nil => exact ⟨c, h, hp⟩
  | cons a as ih =>
    rw [List.mem_cons, not_or] at has
    have hbusy : c.mayReturn = false := by rw [Connection.mayReturn, hp, Option.isNone_some, Bool.and_false]
    obtain ⟨c₁, h₁, hpasses⟩ := step_passes host h fun _ => hbusy
    exact ih h₁ (hpasses.pending hp (Ne.symm has.1)) has.2

end Telling

/-- How a connection follows a room. The messages it was told of, replayed or live, are messages of the room, in
order and each once; without a notice of loss none is missing between them; and a forwarder that is still there has
told everything up to its position. -/
structure Follows (s : AppState) (c : Connection) (channel : Text) : Prop where
  untold : channel ∉ c.subscribed → c.told channel = []
  posted : ∀ m ∈ (c.told channel).filterMap Event.posted, .message m ∈ s.sent channel
  increasing : ((c.told channel).filterMap Event.posted).Pairwise fun m m' => m.seq < m'.seq
  gapless : c.gaps channel = false → ∃ first, ((c.told channel).filterMap Event.posted).map Message.seq =
    List.range' first ((c.told channel).filterMap Event.posted).length
  current : ∀ f ∈ c.forwarders, f.channel = channel →
    ∃ origin, Feed isMessage (s.sent channel) origin f.position (c.gaps channel) (c.told channel)

theorem numbered_sent (hs : s.Rooms) (channel : Text) : ((s.sent channel).filterMap Event.posted).map Message.seq =
    List.range' 1 ((s.sent channel).filterMap Event.posted).length := by
  unfold AppState.sent
  cases hch : s.channels.get channel with
  | none => rfl
  | some ch =>
    have hnumbered := (hs channel ch hch).history.numbered
    have hlength := congrArg List.length hnumbered
    rw [List.length_map, List.length_range'] at hlength
    rw [← hlength] at hnumbered
    exact hnumbered

theorem posted_of_feed {log told : List Event} {origin : Feed.Origin Event} {position : Nat} {gaps : Bool}
    (h : Feed isMessage log origin position gaps told) :
    List.Sublist (told.filterMap Event.posted) (log.filterMap Event.posted) ∧
    (gaps = false → told.filterMap Event.posted <:+: log.filterMap Event.posted) := by
  have hposted (events : List Event) : (events.filter isMessage).filterMap Event.posted =
    events.filterMap Event.posted := by
    rw [filter_isMessage, List.filterMap_map]
    exact List.filterMap_some
  obtain ⟨hsublist, hsuffix⟩ := h.told_kept
  have hprefix : (log.take position).filterMap Event.posted <+: log.filterMap Event.posted :=
    (List.take_prefix _ _).filterMap _
  have htold := hsublist.filterMap Event.posted
  rw [hposted, hposted] at htold
  refine ⟨htold.trans hprefix.sublist, fun hgaps => ?_⟩
  have hlast := (hsuffix hgaps).filterMap Event.posted
  rw [hposted, hposted] at hlast
  exact hlast.isInfix.trans hprefix.isInfix

theorem Telling.follows {config : Config} (hw : Telling config w) (h : w.connections.get id = some c) (channel : Text) :
    Follows w.state c channel := by
  obtain ⟨origin, hdelivers⟩ := hw.delivers id c h
  have hnumbered := numbered_sent hw.sound.rooms channel
  have hincreasing : ((w.state.sent channel).filterMap Event.posted).Pairwise fun m m' => m.seq < m'.seq := by
    have hrange := @List.pairwise_lt_range' 1 ((w.state.sent channel).filterMap Event.posted).length 1 Nat.one_pos
    rw [← hnumbered, List.pairwise_map] at hrange
    exact hrange
  have hfeed : ∃ origin position,
      Feed isMessage (w.state.sent channel) origin position (c.gaps channel) (c.told channel) := by
    by_cases hsubscribed : channel ∈ c.subscribed
    · exact ⟨origin channel, hdelivers.ended channel hsubscribed⟩
    · obtain ⟨hnone, -⟩ := hdelivers.untold channel hsubscribed
      rw [hnone]
      exact ⟨_, 0, .start (Nat.zero_le _) List.nil_suffix⟩
  obtain ⟨origin', position, hfeed⟩ := hfeed
  obtain ⟨hsublist, hcontiguous⟩ := posted_of_feed hfeed
  refine ⟨fun hnot => (hdelivers.untold channel hnot).1, ?_, hincreasing.sublist hsublist, fun hgaps => ?_, ?_⟩
  · intro m hm
    obtain ⟨e, he, hposted⟩ := List.mem_filterMap.mp (hsublist.subset hm)
    cases e with
    | message m' =>
      cases hposted
      exact he
    | presence => cases hposted
  · exact numbered_infix hnumbered (hcontiguous hgaps)
  · rintro f hf rfl
    exact ⟨origin f.channel, hdelivers.live f hf⟩

/-- The messages a room still holds. -/
def retained (s : AppState) (channel : Text) : List Message := (s.channels.get channel).elim [] ChannelState.messages

/-- In the run the connection subscribed to the room, after `since`, and it was not hung up after that. The subscription
was granted in one state and the history replayed in another, other requests having come in between. -/
def Subscribes (host : Host) (s : AppState) (as : List ServerAction) (id : Nat) (channel : Text) (since : Option Nat)
    (granted held : AppState) : Prop :=
  ∃ before env document agentKey between after,
    as = before ++ .line id env document :: (between ++ .replay id :: after) ∧
    document.bind (Req.read env) = some (.subscribe channel agentKey since) ∧
    (∃ c, (run host s before).connections.get id = some c ∧ c.pending = none) ∧
    (∃ c p, (run host s (before ++ [.line id env document])).connections.get id = some c ∧ c.pending = some p) ∧
    .replay id ∉ between ∧ (∀ a ∈ after, a ≠ .hangUp id) ∧
    granted = (run host s (before ++ [.line id env document])).state ∧
    held = (run host s (before ++ .line id env document :: between)).state

/-- What a connection was told of a room since it subscribed, where no notice of loss came: the messages after
`since` that the room still held at the replay, as far as they were posted before the subscription, and then every
event after it up to the position of its forwarder. -/
def CaughtUp (granted held s : AppState) (channel : Text) (since : Option Nat) (c : Connection) : Prop :=
  c.gaps channel = false → ∃ position, position ≤ (s.sent channel).length ∧
    (∀ f ∈ c.forwarders, f.channel = channel → f.position = position) ∧
    c.told channel = ((retained held channel).filter fun m =>
        since.getD 0 < m.seq && m.seq ≤ (granted.sent channel).countP isMessage).map .message ++
      ((s.sent channel).take position).drop (granted.sent channel).length

theorem replayed_eq (p : Pending) (s : AppState) : p.replayed s =
    (retained s p.channel).filter fun m => p.since.getD 0 < m.seq && m.seq ≤ p.highWater := by
  unfold Pending.replayed AppState.history retained
  cases s.channels.get p.channel with
  | none => rfl
  | some ch =>
    dsimp only [Option.elim]
    rw [List.filter_filter]
    exact List.filter_congr fun m _ => Bool.and_comm _ _

theorem caughtUp_of_delivers {origin : Text → Feed.Origin Event} {channel : Text} (hc : Delivers s origin c)
    (horderly : Orderly c) (hchannel : channel ∈ c.subscribed) (hgaps : c.gaps channel = false) :
    ∃ position, position ≤ (s.sent channel).length ∧ (∀ f ∈ c.forwarders, f.channel = channel → f.position = position) ∧
      c.told channel = (origin channel).replayed ++ ((s.sent channel).take position).drop (origin channel).start := by
  by_cases hforwarded : ∃ f ∈ c.forwarders, f.channel = channel
  · obtain ⟨f, hf, rfl⟩ := hforwarded
    have hfeed := hc.live f hf
    refine ⟨f.position, hfeed.position_le, fun g hg hsame => ?_, hfeed.whole hgaps⟩
    rw [List.inj_on_of_nodup_map horderly.single hg hf hsame]
  · obtain ⟨position, hfeed⟩ := hc.ended channel hchannel
    exact ⟨position, hfeed.position_le, fun f hf hsame => absurd ⟨f, hf, hsame⟩ hforwarded, hfeed.whole hgaps⟩

theorem run_caughtUp {as : List ServerAction} {channel : Text} {since : Option Nat} {granted held : AppState}
    (h : (run host (.new host.config) as).connections.get id = some c)
    (hsubscribes : Subscribes host (.new host.config) as id channel since granted held) :
    CaughtUp granted held (run host (.new host.config) as).state channel since c := by
  obtain ⟨before, env, document, agentKey, between, after, rfl, hread, ⟨c₀, h₀, hnone⟩, ⟨c₁, p, h₁, hp⟩,
    hbetween, hafter,
    rfl, rfl⟩ := hsubscribes
  have hw₁ := run_telling host (before ++ [.line id env document])
  obtain ⟨origin₁, hc₁⟩ := hw₁.delivers id c₁ h₁
  obtain ⟨-, hmark⟩ := hc₁.pending p hp
  -- the line grants the subscription that it asks for
  have hstep : run host (.new host.config) (before ++ [.line id env document]) =
      (run host (.new host.config) before).step host (.line id env document) := run_concat ..
  have hgranted : p.channel = channel ∧ p.since = since ∧
      p.position = ((run host (.new host.config) (before ++ [.line id env document])).state.sent channel).length := by
    rw [hstep, step, update, h₀] at h₁ ⊢
    rw [Table.get_insert_self] at h₁
    cases h₁
    exact pending_receive hread hnone hp
  obtain ⟨rfl, rfl, hposition⟩ := hgranted
  rw [hposition, List.take_length] at hmark
  -- other requests come in between
  have hsplit (rest : List ServerAction) : run host (.new host.config) (before ++ .line id env document :: rest) =
      Run.exec (step host) (run host (.new host.config) (before ++ [.line id env document])) rest := by
    rw [← Run.exec_append, List.append_assoc, List.singleton_append]
  rw [hsplit (between ++ .replay id :: after), Run.exec_append, Run.exec_cons, ← hsplit between] at h ⊢
  obtain ⟨c₂, h₂, hp₂⟩ := exec_pending h₁ hp hbetween
  rw [← hsplit between] at h₂
  have hw₂ := run_telling host (before ++ .line id env document :: between)
  generalize run host (.new host.config) (before ++ .line id env document :: between) = w₂ at h₂ hw₂ h ⊢
  -- the history is replayed
  obtain ⟨origin₂, hc₂⟩ := hw₂.delivers id c₂ h₂
  have hreplayed : (w₂.step host (.replay id)).connections.get id = some (c₂.replay w₂.state) ∧
      (w₂.step host (.replay id)).state = w₂.state := by
    rw [step, update, h₂]
    exact ⟨Table.get_insert_self _ _ _, rfl⟩
  have hc₃ : Delivers (w₂.step host (.replay id)).state (c₂.originAfter w₂.state origin₂) (c₂.replay w₂.state) := by
    rw [hreplayed.2]
    exact hc₂.replay (hw₂.orderly id c₂ h₂) hw₂.sound.rooms
  have hmem : p.channel ∈ (c₂.replay w₂.state).subscribed := by
    rw [Connection.replay, hp₂]
    exact List.mem_append_right _ (List.mem_singleton_self _)
  -- and the room is followed from there
  obtain ⟨c', origin', h', hc', hchannel, horigin⟩ := (hw₂.step (.replay id)).exec_delivers hreplayed.1 hc₃ hmem hafter
  rw [h] at h'
  cases h'
  intro hgaps
  have horderly := ((hw₂.step (.replay id)).exec after).orderly id c h
  obtain ⟨position, hle, hforwarders, htold⟩ := caughtUp_of_delivers hc' horderly hchannel hgaps
  refine ⟨position, hle, hforwarders, htold.trans ?_⟩
  rw [horigin, Connection.originAfter, hp₂]
  dsimp only
  rw [Function.update_self, replayed_eq, hposition, hmark]

/-- In every run each connection follows each room, and was told of a room it subscribed to what it had asked for. -/
theorem rooms_followed (host : Host) (as : List ServerAction) {id : Nat} {c : Connection}
    (h : (run host (.new host.config) as).connections.get id = some c) (channel : Text) :
    Follows (run host (.new host.config) as).state c channel ∧
    ∀ since granted held, Subscribes host (.new host.config) as id channel since granted held →
      CaughtUp granted held (run host (.new host.config) as).state channel since c :=
  ⟨(run_telling host as).follows h channel, fun _ _ _ hsubscribes => run_caughtUp h hsubscribes⟩

theorem optional_claims : false = true → Config.inMemory.controlPlane = true :=
  fun h => absurd h Bool.false_ne_true

/-- A server that asks for no credential. -/
def openHost : Host where
  config := .inMemory
  security := {
    globalBearer := none
    credentials := []
    maxBodyBytes := 2097152
    distinct := WorkflowSecurity.distinct_nil }
  claims := { required := false, repository := "acme/app".toList, maxTtlMs := 60000 }
  bearer := rfl
  bodyLimit := rfl
  claimsBacked := optional_claims
  maxTcpConnections := 2
  loaded := ⟨none, [], 2097152, rfl⟩

def lineOf (id : Nat) (op : String) (members : List (String × String)) : ServerAction :=
  .line id adaEnv (some (.obj (("op".toList, .str op.toList) :: members.map fun m => (m.1.toList, .str m.2.toList))))

/-- Connection 0 opens a room, and connection 1 posts to it. -/
def openingLines : List ServerAction :=
  [.accept 0, .accept 1, lineOf 0 "create_channel" [("slug", "room")],
    lineOf 1 "post" [("channel", "room"), ("from", "ada"), ("content", "one")]]

def subscribing : Option Json :=
  some (.obj [("op".toList, .str "subscribe".toList), ("channel".toList, .str "room".toList)])

def postingLines : List ServerAction :=
  [lineOf 1 "post" [("channel", "room"), ("from", "ada"), ("content", "two")]]

/-- Connection 1 posts before, while and after connection 0 subscribes. -/
def roomLines : List ServerAction := openingLines ++ .line 0 adaEnv subscribing :: (postingLines ++ .replay 0 ::
  [.forward 0 0, lineOf 1 "post" [("channel", "room"), ("from", "ada"), ("content", "three")], .forward 0 0])

/-- The connection is told of the message from before, which the room still holds, and of the ones after. -/
theorem rooms_followed_roomLines : ∃ c granted held,
    (run openHost (.new .inMemory) roomLines).connections.get 0 = some c ∧
    ((c.told "room".toList).filterMap Event.posted).map Message.seq = [1, 2, 3] ∧
    Follows (run openHost (.new .inMemory) roomLines).state c "room".toList ∧
    CaughtUp granted held (run openHost (.new .inMemory) roomLines).state "room".toList none c := by
  have hrun : ((run openHost (.new .inMemory) roomLines).connections.get 0).map
      (fun c => ((c.told "room".toList).filterMap Event.posted).map Message.seq) = some [1, 2, 3] := by decide +kernel
  have hbefore : ((run openHost (.new .inMemory) openingLines).connections.get 0).any
      (fun c => c.pending.isNone) = true := by decide +kernel
  have hpending : ((run openHost (.new .inMemory) (openingLines ++ [.line 0 adaEnv subscribing])).connections.get 0).any
      (fun c => c.pending.isSome) = true := by decide +kernel
  obtain ⟨c, hc, hseqs⟩ := Option.map_eq_some_iff.mp hrun
  obtain ⟨c₀, h₀, hnone⟩ := (Option.any_eq_true _ _).mp hbefore
  obtain ⟨c₁, h₁, hsome⟩ := (Option.any_eq_true _ _).mp hpending
  obtain ⟨p, hp⟩ := Option.isSome_iff_exists.mp hsome
  have hfollowed := rooms_followed openHost roomLines hc "room".toList
  refine ⟨c, _, _, hc, hseqs, hfollowed.1,
    hfollowed.2 none _ _ ⟨openingLines, adaEnv, subscribing, none, postingLines, _,
    rfl, rfl, ⟨c₀, h₀, Option.isNone_iff_eq_none.mp hnone⟩, ⟨c₁, p, h₁, hp⟩, ?_, ?_, rfl, rfl⟩⟩
  · simp [postingLines, lineOf]
  · simp [lineOf]

end Server
end AgentBridge
