import AgentBridge.Base.Feed
import AgentBridge.State.Sound
import AgentBridge.Tcp.Discipline

/-! What a connection is told of a room: the end of the messages before it subscribed, and from then on every event. -/

namespace AgentBridge.Tcp
open State

def isMessage (e : Event) : Bool := e.posted.isSome

namespace Connection

/-- The events of a room that were written on the connection. -/
def told (c : Connection) (channel : Text) : List Event :=
  c.written.filterMap fun
    | .event room e => if room = channel then some e else none
    | _ => none

/-- The connection was told that it missed events of the room. -/
def gaps (c : Connection) (channel : Text) : Bool :=
  c.written.any fun
    | .lagged room _ => room = channel
    | _ => false

end Connection

/-- The connection is told of each room it subscribed to, from where it came in up to the position of its forwarder, and
of no other. -/
structure Delivers (s : AppState) (origin : Text → Feed.Origin Event) (c : Connection) : Prop where
  pending : ∀ p, c.pending = some p → p.position ≤ (s.sent p.channel).length ∧
    p.highWater = ((s.sent p.channel).take p.position).countP isMessage
  untold : ∀ channel, channel ∉ c.subscribed → c.told channel = [] ∧ c.gaps channel = false
  ended : ∀ channel ∈ c.subscribed,
    ∃ position, Feed isMessage (s.sent channel) (origin channel) position (c.gaps channel) (c.told channel)
  live : ∀ f ∈ c.forwarders,
    Feed isMessage (s.sent f.channel) (origin f.channel) f.position (c.gaps f.channel) (c.told f.channel)

section Rooms
variable {config : Config} {ch : ChannelState} {events : List Event}

theorem filter_isMessage (events : List Event) :
    events.filter isMessage = (events.filterMap Event.posted).map .message := by
  induction events with
  | nil => rfl
  | cons e events ih =>
    cases e with
    | message m =>
      have hposted : (Event.message m).posted = some m := rfl
      rw [List.filter_cons_of_pos rfl, List.filterMap_cons_some hposted, List.map_cons, ih]
    | presence channel agentKey event memberCount occurredAt =>
      have hposted : (Event.presence channel agentKey event memberCount occurredAt).posted = none := rfl
      rw [List.filter_cons_of_neg Bool.false_ne_true, List.filterMap_cons_none hposted, ih]

/-- The messages up to a position are the first ones posted, as many as are counted there. -/
theorem posted_take (ch : ChannelState) (position : Nat) : (ch.events.take position).filterMap Event.posted =
    ch.posted.take ((ch.events.take position).countP isMessage) := by
  have hcount : (ch.events.take position).countP isMessage =
    ((ch.events.take position).filterMap Event.posted).length := by
    rw [List.countP_eq_length_filter, filter_isMessage, List.length_map]
  rw [hcount]
  exact List.prefix_iff_eq_take.mp ((List.take_prefix _ _).filterMap _)

/-- The retained messages after `since` up to a mark are the last ones of those posted up to it. -/
theorem replayed_suffix (h : HistoryOk config ch) (position since : Nat) :
    ((ch.messages.filter fun m => since < m.seq).filter fun m : Message =>
      m.seq ≤ (ch.events.take position).countP isMessage).map Event.message <:+
        (ch.events.take position).filter isMessage := by
  have hnumbered : ch.posted.map Message.seq = List.range' 1 ch.posted.length := by
    have hlength := congrArg List.length h.numbered
    rw [List.length_map, List.length_range'] at hlength
    rw [h.numbered, hlength]
  have hring : ch.messages = ch.posted.drop (ch.posted.length - ch.messages.length) := List.suffix_iff_eq_drop.mp h.ring
  generalize ch.posted.length - ch.messages.length = k at hring
  rw [filter_isMessage, posted_take, hring, filter_above (numbered_drop hnumbered k), List.drop_drop,
    filter_upto (numbered_drop hnumbered _)]
  generalize (ch.events.take position).countP isMessage = mark
  generalize k + (since + 1 - (1 + k)) = j
  rw [show mark + 1 - (1 + j) = mark - j by omega, ← List.drop_take]
  exact (List.drop_suffix _ _).map _

end Rooms

section Written
variable (c : Connection) (channel room : Text)

theorem told_append (more : List Output) :
    Connection.told { c with written := c.written ++ more } channel =
      c.told channel ++ Connection.told { c with written := more } channel := List.filterMap_append

theorem gaps_append (more : List Output) :
    Connection.gaps { c with written := c.written ++ more } channel =
      (c.gaps channel || Connection.gaps { c with written := more } channel) := List.any_append

theorem told_events (events : List Event) :
    Connection.told { c with written := c.written ++ events.map (.event room) } channel =
      c.told channel ++ if room = channel then events else [] := by
  rw [told_append]
  congr 1
  unfold Connection.told
  rw [List.filterMap_map]
  split_ifs with hroom
  · simp [hroom]
  · simp [hroom]

theorem gaps_events (events : List Event) :
    Connection.gaps { c with written := c.written ++ events.map (.event room) } channel = c.gaps channel := by
  rw [gaps_append]
  have hnone : Connection.gaps { c with written := events.map (.event room) } channel = false := by
    simp [Connection.gaps]
  rw [hnone, Bool.or_false]

theorem told_lagged (n : Nat) :
    Connection.told { c with written := c.written ++ [.lagged room n] } channel = c.told channel := by
  rw [told_append]
  exact List.append_nil _

theorem gaps_lagged (n : Nat) :
    Connection.gaps { c with written := c.written ++ [.lagged room n] } channel =
      (c.gaps channel || decide (room = channel)) := by
  rw [gaps_append]
  simp [Connection.gaps]

theorem told_answers (answers : List Response) :
    Connection.told { c with written := c.written ++ answers.map .response } channel = c.told channel := by
  rw [told_append]
  have hnone : Connection.told { c with written := answers.map .response } channel = [] := by
    simp [Connection.told]
  rw [hnone, List.append_nil]

theorem gaps_answers (answers : List Response) :
    Connection.gaps { c with written := c.written ++ answers.map .response } channel = c.gaps channel := by
  rw [gaps_append]
  have hnone : Connection.gaps { c with written := answers.map .response } channel = false := by
    simp [Connection.gaps]
  rw [hnone, Bool.or_false]

end Written

section Steps
variable {security : WorkflowSecurity} {env : Http.Env} {c c' : Connection} {s s' : AppState}
  {origin : Text → Feed.Origin Event}

theorem delivers_accept : Delivers s origin (.accept security) where
  pending := nofun
  untold := fun _ _ => ⟨rfl, rfl⟩
  ended := fun _ h => absurd h List.not_mem_nil
  live := List.forall_mem_nil _

theorem Delivers.grow (h : Delivers s origin c) (hsent : ∀ slug, s.sent slug <+: s'.sent slug) :
    Delivers s' origin c where
  pending := fun p hp => by
    obtain ⟨hposition, hmark⟩ := h.pending p hp
    obtain ⟨rest, hrest⟩ := hsent p.channel
    refine ⟨hposition.trans (hsent p.channel).length_le, ?_⟩
    rw [hmark, ← hrest, List.take_append_of_le_length hposition]
  untold := h.untold
  ended := fun channel hchannel => by
    obtain ⟨position, hfeed⟩ := h.ended channel hchannel
    exact ⟨position, hfeed.grow (hsent channel)⟩
  live := fun f hf => (h.live f hf).grow (hsent f.channel)

theorem Delivers.answers (h : Delivers s origin c) {forwarders : List Forwarder}
    (hsublist : List.Sublist forwarders c.forwarders) (answers : List Response) :
    Delivers s origin { c with forwarders := forwarders, written := c.written ++ answers.map .response } where
  pending := h.pending
  untold := fun channel hchannel => by
    have hsame := h.untold channel hchannel
    rw [← told_answers c _ answers, ← gaps_answers c _ answers] at hsame
    exact hsame
  ended := fun channel hchannel => by
    have hsame := h.ended channel hchannel
    rw [← told_answers c _ answers, ← gaps_answers c _ answers] at hsame
    exact hsame
  live := fun f hf => by
    have hsame := h.live f (hsublist.subset hf)
    rw [← told_answers c _ answers, ← gaps_answers c _ answers] at hsame
    exact hsame

theorem Delivers.dispatched {r : Connection × AppState} (h : Delivers s origin c)
    (hsent : ∀ slug, s.sent slug <+: r.2.sent slug) (hrooms : r.2.Rooms) (hr : Dispatched c r) :
    Delivers r.2 origin r.1 := by
  have hgrown := h.grow hsent
  cases hr with
  | answered hsublist answers s' => exact hgrown.answers hsublist answers
  | @opened forwarders hsublist s' p ch hnew hroom hch hposition hmark =>
    have hroomSent : s'.sent p.channel = ch.events := by
      rw [AppState.sent, hch]
      rfl
    refine ⟨?_, hgrown.untold, hgrown.ended, fun f hf => hgrown.live f (hsublist.subset hf)⟩
    rintro _ ⟨⟩
    have hhistory := (hrooms p.channel ch hch).history
    have hposted : ch.posted.length = ch.messageCount := by
      have hlength := congrArg List.length hhistory.numbered
      rwa [List.length_map, List.length_range'] at hlength
    have hcount : ch.events.countP isMessage = ch.posted.length := by
      rw [List.countP_eq_length_filter, filter_isMessage, List.length_map]
      rfl
    rw [hroomSent, hposition, List.take_length, hmark, hcount, hposted, hhistory.next]
    exact ⟨le_rfl, rfl⟩

theorem Delivers.received {line : Option Json} {r : Connection × AppState} (h : Delivers s origin c)
    (hsent : ∀ slug, s.sent slug <+: r.2.sent slug) (hrooms : r.2.Rooms) (hr : Received security env c s line r) :
    Delivers r.2 origin r.1 := by
  cases hr with
  | busy => exact h
  | answered hattended r hr => exact h.answers (List.Sublist.refl _) [r]
  | authenticated hattended hread hnext =>
    have hsame := h.answers (List.Sublist.refl c.forwarders) [.authenticated ‹TcpPrincipal›]
    exact ⟨hsame.pending, hsame.untold, hsame.ended, hsame.live⟩
  | dispatched hattended hpending hsomebody hr => exact h.dispatched hsent hrooms hr

theorem pending_receive {document : Option Json} {channel : Text} {agentKey : Option Text} {since : Option Nat}
    {p : Pending} (hread : document.bind (Req.read env) = some (.subscribe channel agentKey since))
    (hnone : c.pending = none) (hp : (c.receive security env s document).1.pending = some p) :
    p.channel = channel ∧ p.since = since ∧
      p.position = ((c.receive security env s document).2.sent channel).length := by
  unfold Connection.receive at hp ⊢
  by_cases hbusy : (!c.attended || c.pending.isSome) = true
  · rw [if_pos hbusy] at hp
    exact absurd (hnone.symm.trans hp) nofun
  rw [if_neg hbusy, hread] at hp ⊢
  unfold Connection.handle at hp ⊢
  dsimp only at hp ⊢
  by_cases hnobody : (!c.principal.authenticated) = true
  · rw [if_pos hnobody] at hp
    exact absurd (hnone.symm.trans hp) nofun
  rw [if_neg hnobody] at hp ⊢
  cases hauthorized : c.principal.authorize (.subscribe channel agentKey since) with
  | error e =>
    rw [hauthorized] at hp
    exact absurd (hnone.symm.trans hp) nofun
  | ok =>
    rw [hauthorized] at hp
    dsimp only [Connection.dispatch] at hp ⊢
    unfold Connection.subscribe at hp ⊢
    dsimp only at hp ⊢
    split_ifs at hp ⊢
    · exact absurd (hnone.symm.trans hp) nofun
    · exact absurd (hnone.symm.trans hp) nofun
    · rcases hsubscribe : s.subscribe env.now channel agentKey with ⟨e | ⟨position, highWater⟩, s₁⟩
      · rw [hsubscribe] at hp
        exact absurd (hnone.symm.trans hp) nofun
      · rw [hsubscribe] at hp
        obtain ⟨ch, hch, hposition, -⟩ := subscribe_eq_ok hsubscribe
        cases hp
        refine ⟨rfl, rfl, ?_⟩
        rw [AppState.sent, hch]
        exact hposition

theorem replay_feed {p : Pending} (hrooms : s.Rooms) (gaps : Bool) (hposition : p.position ≤ (s.sent p.channel).length)
    (hmark : p.highWater = ((s.sent p.channel).take p.position).countP isMessage) :
    Feed isMessage (s.sent p.channel) ⟨p.position, (p.replayed s).map .message⟩ p.position gaps
      ((p.replayed s).map .message) := by
  refine .start hposition ?_
  unfold Pending.replayed AppState.history
  cases hch : s.channels.get p.channel with
  | none => exact List.nil_suffix
  | some ch =>
    have hsent : s.sent p.channel = ch.events := by
      rw [AppState.sent, hch]
      rfl
    rw [hmark, hsent]
    exact replayed_suffix (hrooms p.channel ch hch).history p.position (p.since.getD 0)

/-- Where a connection comes into its rooms once the history of a pending subscription is replayed. -/
def Connection.originAfter (c : Connection) (s : AppState) (origin : Text → Feed.Origin Event) :
    Text → Feed.Origin Event :=
  match c.pending with
  | none => origin
  | some p => Function.update origin p.channel ⟨p.position, (p.replayed s).map .message⟩

theorem Delivers.replay (h : Delivers s origin c) (horderly : Orderly c) (hrooms : s.Rooms) :
    Delivers s (c.originAfter s origin) (c.replay s) := by
  unfold Connection.replay Connection.originAfter
  cases hpending : c.pending with
  | none => exact h
  | some p =>
    dsimp only
    obtain ⟨hposition, hmark⟩ := h.pending p hpending
    -- the replay tells what the room still holds, and the feed starts at the mark taken at the subscription
    have hfeed (gaps : Bool) := replay_feed hrooms gaps hposition hmark
    generalize p.replayed s = replayed at hfeed ⊢
    have hnew : p.channel ∉ c.subscribed := by
      have hdistinct := horderly.distinct
      rw [hpending] at hdistinct
      exact fun hmem => (List.nodup_append.mp hdistinct).2.2 _ hmem _ (List.mem_singleton_self _) rfl
    have hnothing := (h.untold p.channel hnew).1
    have hmap : replayed.map (fun m => Output.event p.channel (.message m)) =
        (replayed.map Event.message).map (.event p.channel) := by
      rw [List.map_map]
      rfl
    rw [hmap]
    generalize replayed.map Event.message = events at hfeed
    have htold (channel : Text) : Connection.told { c with
        written := c.written ++ events.map (.event p.channel) ++ [.response (.subscribed p.channel)] } channel =
          c.told channel ++ if p.channel = channel then events else [] :=
      (told_answers _ channel [.subscribed p.channel]).trans (told_events c channel p.channel events)
    have hgaps (channel : Text) : Connection.gaps { c with
        written := c.written ++ events.map (.event p.channel) ++ [.response (.subscribed p.channel)] } channel =
          c.gaps channel :=
      (gaps_answers _ channel [.subscribed p.channel]).trans (gaps_events c channel p.channel events)
    have hother {channel : Text} (hne : channel ≠ p.channel) : Connection.told { c with
        written := c.written ++ events.map (.event p.channel) ++ [.response (.subscribed p.channel)] } channel =
          c.told channel := by
      rw [htold, if_neg hne.symm, List.append_nil]
    have hself : Feed isMessage (s.sent p.channel) ⟨p.position, events⟩ p.position
        (Connection.gaps { c with
          written := c.written ++ events.map (.event p.channel) ++ [.response (.subscribed p.channel)] } p.channel)
        (Connection.told { c with
          written := c.written ++ events.map (.event p.channel) ++ [.response (.subscribed p.channel)] }
            p.channel) := by
      rw [htold, if_pos rfl, hnothing, List.nil_append]
      exact hfeed _
    -- rooms not subscribed to, rooms subscribed to, and the forwarders
    refine ⟨nofun, fun channel hchannel => ?_, fun channel hchannel => ?_, fun f hf => ?_⟩
    · rw [List.mem_append, List.mem_singleton, not_or] at hchannel
      obtain ⟨hnone, hgap⟩ := h.untold channel hchannel.1
      exact ⟨(hother hchannel.2).trans hnone, (hgaps channel).trans hgap⟩
    · by_cases hsame : channel = p.channel
      · rw [hsame, Function.update_self]
        exact ⟨p.position, hself⟩
      · rw [List.mem_append, List.mem_singleton] at hchannel
        obtain ⟨position, hold⟩ := h.ended channel (hchannel.resolve_right hsame)
        rw [← hother hsame, ← hgaps channel] at hold
        rw [Function.update_of_ne hsame]
        exact ⟨position, hold⟩
    · rcases List.mem_append.mp hf with hf | hf
      · have hne : f.channel ≠ p.channel := fun heq => hnew (heq ▸ horderly.forwarded f hf)
        have hold := h.live f hf
        rw [← hother hne, ← hgaps f.channel] at hold
        rw [Function.update_of_ne hne]
        exact hold
      · rw [List.mem_singleton.mp hf, Function.update_self]
        exact hself

theorem mem_set_forwarder {forwarders : List Forwarder} {i : Nat} {f f' g : Forwarder}
    (hsingle : (forwarders.map Forwarder.channel).Nodup) (hf : forwarders[i]? = some f) (hg : g ∈ forwarders.set i f') :
    g = f' ∨ g ∈ forwarders ∧ g.channel ≠ f.channel := by
  obtain ⟨j, hj⟩ := List.getElem?_of_mem hg
  rw [List.getElem?_set] at hj
  split_ifs at hj with hij hlt
  · exact .inl (Option.some.inj hj).symm
  · refine .inr ⟨List.mem_of_getElem? hj, fun hsame => hij ?_⟩
    have hmap {k : Nat} {x : Forwarder} (hx : forwarders[k]? = some x) :
        (forwarders.map Forwarder.channel)[k]? = some x.channel := by rw [List.getElem?_map, hx]; rfl
    obtain ⟨hi, hfi⟩ := List.getElem?_eq_some_iff.mp (hmap hf)
    obtain ⟨hj', hgj⟩ := List.getElem?_eq_some_iff.mp (hmap hj)
    exact hsingle.getElem_inj_iff.mp (hfi.trans (hsame.symm.trans hgj.symm))

theorem Delivers.advance (h : Delivers s origin c) (horderly : Orderly c) {i : Nat} {f f' : Forwarder}
    {written : List Output}
    (hf : c.forwarders[i]? = some f) (hchannel : f'.channel = f.channel)
    (hothers : ∀ channel, channel ≠ f.channel →
      Connection.told { c with written := written } channel = c.told channel ∧
      Connection.gaps { c with written := written } channel = c.gaps channel)
    (hfeed : Feed isMessage (s.sent f.channel) (origin f.channel) f'.position
      (Connection.gaps { c with written := written } f.channel)
      (Connection.told { c with written := written } f.channel)) :
    Delivers s origin { c with forwarders := c.forwarders.set i f', written := written } where
  pending := h.pending
  untold := fun channel hchannel => by
    have hne : channel ≠ f.channel := by
      rintro rfl
      exact hchannel (horderly.forwarded f (List.mem_of_getElem? hf))
    obtain ⟨htold, hgaps⟩ := hothers channel hne
    obtain ⟨hnone, hwhole⟩ := h.untold channel hchannel
    exact ⟨htold.trans hnone, hgaps.trans hwhole⟩
  ended := fun channel hchannel => by
    by_cases hsame : channel = f.channel
    · rw [hsame]
      exact ⟨f'.position, hfeed⟩
    · obtain ⟨htold, hgaps⟩ := hothers channel hsame
      obtain ⟨position, hold⟩ := h.ended channel hchannel
      rw [← htold, ← hgaps] at hold
      exact ⟨position, hold⟩
  live := fun g hg => by
    rcases mem_set_forwarder horderly.single hf hg with rfl | ⟨hold, hne⟩
    · rw [hchannel]
      exact hfeed
    · obtain ⟨htold, hgaps⟩ := hothers g.channel hne
      have hlive := h.live g hold
      rw [← htold, ← hgaps] at hlive
      exact hlive

theorem Delivers.turned (h : Delivers s origin c) (horderly : Orderly c) (hr : Turned c s c') :
    Delivers s origin c' := by
  cases hr with
  | idle => exact h
  | @forwarded i f e hf he =>
    have hlive := h.live f (List.mem_of_getElem? hf)
    refine h.advance horderly hf rfl (fun channel hne => ?_) ?_
    · have htold := told_events c channel f.channel [e]
      rw [if_neg hne.symm, List.append_nil] at htold
      exact ⟨htold, gaps_events c channel f.channel [e]⟩
    · have htold := told_events c f.channel f.channel [e]
      rw [if_pos rfl] at htold
      have hgaps := gaps_events c f.channel f.channel [e]
      rw [List.map_singleton] at htold hgaps
      rw [htold, hgaps]
      exact hlive.next he
  | @lagged i n f hf hn =>
    have hlive := h.live f (List.mem_of_getElem? hf)
    refine h.advance horderly hf rfl (fun channel hne => ⟨told_lagged c channel f.channel n, ?_⟩) ?_
    · rw [gaps_lagged, decide_eq_false hne.symm, Bool.or_false]
    · rw [told_lagged, gaps_lagged, decide_eq_true rfl, Bool.or_true]
      exact hlive.skip hn
  | @finished i f hf =>
    exact h.advance horderly hf rfl (fun channel _ => ⟨rfl, rfl⟩) (h.live f (List.mem_of_getElem? hf))

theorem Delivers.breakOff (h : Delivers s origin c) : Delivers s origin c.breakOff := by
  unfold Connection.breakOff
  split_ifs
  · exact ⟨h.pending, h.untold, h.ended, h.live⟩
  · exact h

end Steps
end AgentBridge.Tcp
