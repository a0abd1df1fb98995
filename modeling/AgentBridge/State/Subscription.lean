import AgentBridge.State.History

/-! A subscription over TCP, one lock at a time: the join, the receiver with its high-water
mark, the history that is replayed up to the mark, and the live events after it. What later
sections make of a channel, and which of its messages an append evicts. -/

namespace AgentBridge
open State

/-- The second critical section of `subscribe`: the receiver's place among the events and the last
sequence number that already existed. -/
def AppState.attach (s : AppState) (slug : Text) : BridgeResult (Nat × Nat) :=
  match s.channels.get slug with
  | none => .error (.channelNotFound slug)
  | some ch => .ok (ch.events.length, ch.nextSeq - 1)

theorem subscribe_eq (s : AppState) (now : Now) (slug : Text) (agentKey : Option Text) :
    s.subscribe now slug agentKey =
      match agentKey.filter (fun k => Text.trim k ≠ []) with
      | none => (s.attach slug, s)
      | some key =>
        match s.join now slug key .member with
        | (.error e, s) => (.error e, s)
        | (.ok _, s) => (s.attach slug, s) := by
  unfold AppState.subscribe AppState.attach
  dsimp only
  cases agentKey.filter (fun k => Text.trim k ≠ []) with
  | none =>
    dsimp only
    cases s.channels.get slug <;> rfl
  | some key =>
    dsimp only
    rcases s.join now slug key .member with ⟨r, s'⟩
    cases r with
    | error e => rfl
    | ok out =>
      dsimp only
      cases s'.channels.get slug <;> rfl

structure SubscribeRequest where
  channel : Text
  agentKey : Option Text
  since : Option Nat

/-- What `subscribe` returned; `retained` records the ring of that moment, which the code does not keep. -/
structure Subscription where
  position : Nat
  highWater : Nat
  retained : List Message

/-- How far the subscriber has come. -/
inductive SubscribePhase
  | idle
  | joined
  | attached (sub : Subscription)
  | replaying (sub : Subscription) (rest : List Message)
  | live (sub : Subscription) (position : Nat)

/-- The channels, one subscriber, and the events written to it so far. -/
structure Delivery where
  world : ChannelWorld
  phase : SubscribePhase
  written : List Event

/-- A section of some other call, or the next step of the subscriber. -/
inductive DeliveryAction
  | others (a : ChannelAction)
  | proceed (now : Now)

namespace Delivery

def init (config : Config) : Delivery := ⟨ChannelWorld.init config, .idle, []⟩

/-- The subscriber's next step. The receiver keeps its place among the events and never lags. -/
def proceed (req : SubscribeRequest) (d : Delivery) (now : Now) : Delivery :=
  match d.phase with
  | .idle =>
    match req.agentKey.filter (fun k => Text.trim k ≠ []) with
    | none => { d with phase := .joined }
    | some key =>
      match d.world.state.join now req.channel key .member with
      | (.error _, s) => { d with world := { d.world with state := s } }
      | (.ok _, s) => { d with world := { d.world with state := s }, phase := .joined }
  | .joined =>
    match d.world.state.attach req.channel with
    | .error _ => { d with phase := .idle }
    | .ok (position, highWater) =>
      let retained := (d.world.state.channels.get req.channel).elim [] ChannelState.messages
      { d with phase := .attached ⟨position, highWater, retained⟩ }
  | .attached sub =>
    match d.world.state.history req.channel req.since with
    | .error _ => { d with phase := .replaying sub [] }
    | .ok history => { d with phase := .replaying sub (history.filter fun m => m.seq ≤ sub.highWater) }
  | .replaying sub (m :: rest) =>
    { d with phase := .replaying sub rest, written := d.written ++ [.message m] }
  | .replaying sub [] => { d with phase := .live sub sub.position }
  | .live sub position =>
    match (d.world.state.channels.get req.channel).bind fun ch => ch.events[position]? with
    | none => d
    | some e => { d with phase := .live sub (position + 1), written := d.written ++ [e] }

def step (req : SubscribeRequest) (d : Delivery) : DeliveryAction → Delivery
  | .others a => { d with world := d.world.step a }
  | .proceed now => d.proceed req now

abbrev run (config : Config) (req : SubscribeRequest) (as : List DeliveryAction) : Delivery :=
  Run.exec (step req) (init config) as

def messages (d : Delivery) : List Message := d.written.filterMap Event.posted

end Delivery

section Numbering
variable {config : Config} {ch old : ChannelState} {m : Message}

theorem seq_of_numbered {before after : List Message} {n : Nat}
    (h : (before ++ after).map Message.seq = List.range' 1 n) :
    (∀ m ∈ before, m.seq ≤ before.length) ∧ ∀ m ∈ after, before.length < m.seq := by
  have hn : n = before.length + after.length := by
    have hlength := congrArg List.length h
    simpa using hlength.symm
  rw [hn, List.map_append, ← List.range'_append_1] at h
  obtain ⟨hbefore, hafter⟩ := List.append_inj h (by simp)
  constructor
  · intro m hm
    have hseq := List.mem_map_of_mem (f := Message.seq) hm
    rw [hbefore, List.mem_range'_1] at hseq
    omega
  · intro m hm
    have hseq := List.mem_map_of_mem (f := Message.seq) hm
    rw [hafter, List.mem_range'_1] at hseq
    omega

theorem HistoryOk.sorted (h : HistoryOk config ch) : ch.posted.Pairwise fun a b => a.seq < b.seq := by
  have hrange : (ch.posted.map Message.seq).Pairwise (· < ·) := by
    rw [h.numbered]
    exact List.pairwise_lt_range'
  exact List.pairwise_map.mp hrange

theorem HistoryOk.count (h : HistoryOk config ch) : ch.posted.length = ch.messageCount := by
  have hlength := congrArg List.length h.numbered
  simpa using hlength

/-- How many messages were evicted so far. -/
def ChannelState.dropped (ch : ChannelState) : Nat := ch.posted.length - ch.messages.length

theorem HistoryOk.mem_messages (h : HistoryOk config ch) :
    m ∈ ch.messages ↔ m ∈ ch.posted ∧ ch.dropped < m.seq := by
  obtain ⟨evicted, hposted⟩ := h.ring
  have hdropped : ch.dropped = evicted.length := by
    rw [ChannelState.dropped, ← hposted, List.length_append, Nat.add_sub_cancel]
  have hnumbered := h.numbered
  rw [← hposted] at hnumbered
  obtain ⟨hbefore, hafter⟩ := seq_of_numbered hnumbered
  rw [hdropped, ← hposted, List.mem_append]
  constructor
  · intro hm
    exact ⟨.inr hm, hafter m hm⟩
  · rintro ⟨hm | hm, hlt⟩
    · exact absurd (hbefore m hm) (Nat.not_le.mpr hlt)
    · exact hm

/-- A channel some sections later. -/
structure Later (old ch : ChannelState) : Prop where
  events : old.events <+: ch.events
  dropped : old.dropped ≤ ch.dropped

theorem Later.refl (ch : ChannelState) : Later ch ch := ⟨List.prefix_refl _, Nat.le_refl _⟩

theorem Later.trans {mid : ChannelState} (h : Later old mid) (h' : Later mid ch) : Later old ch :=
  ⟨h.events.trans h'.events, h.dropped.trans h'.dropped⟩

theorem Later.posted (h : Later old ch) : old.posted <+: ch.posted := h.events.filterMap _

theorem Later.mem_posted (h : Later old ch) (hold : HistoryOk config old) (hch : HistoryOk config ch) :
    m ∈ old.posted ↔ m ∈ ch.posted ∧ m.seq ≤ old.messageCount := by
  obtain ⟨more, hmore⟩ := h.posted
  have hnumbered := hch.numbered
  rw [← hmore] at hnumbered
  obtain ⟨hbefore, hafter⟩ := seq_of_numbered hnumbered
  rw [hold.count] at hbefore hafter
  rw [← hmore, List.mem_append]
  constructor
  · intro hm
    exact ⟨.inl hm, hbefore m hm⟩
  · rintro ⟨hm | hm, hle⟩
    · exact hm
    · exact absurd (hafter m hm) (Nat.not_lt.mpr hle)

end Numbering

section Moves
variable {s s' : AppState} {slug target : Text} {old ch : ChannelState}

theorem SameHistory.later (h : SameHistory old ch) (hevents : old.events <+: ch.events) : Later old ch := by
  refine ⟨hevents, ?_⟩
  rw [ChannelState.dropped, ChannelState.dropped, h.posted, h.messages]

theorem later_append (hold : HistoryOk s.config old) (now : Now) (m : Message) :
    Later old (AppState.append old now s.config.maxChannelHistoryBytes m) := by
  refine ⟨List.prefix_append _ _, ?_⟩
  have hring := (append_messages hold now m).1
  have hsuffix := (evict_spec s.config.historyLimit s.config.maxChannelHistoryBytes (old.messages ++ [m])).1
  have hlength := hsuffix.length_le
  rw [← hring, List.length_append, List.length_singleton] at hlength
  rw [ChannelState.dropped, ChannelState.dropped, posted_append, List.length_append, List.length_singleton]
  omega

theorem ChannelMove.later (h : ChannelMove s slug (some old) ch) (hold : HistoryOk s.config old) :
    Later old ch := by
  cases h with
  | touched now hm => exact (sameHistory_touch _ _ _).later (List.prefix_refl _)
  | seated now role hm hroom => exact (sameHistory_seat _ _ _).later (List.prefix_append _ _)
  | unseated now hm => exact (sameHistory_unseat _ _).later (List.prefix_append _ _)
  | appended now newId sender role content metadata => exact later_append hold now _
  | stored entry => exact (sameHistory_putContext _).later (List.prefix_refl _)

theorem SectionEffect.later (h : SectionEffect s target s') (hold : s.channels.get slug = some old)
    (hok : HistoryOk s.config old) : ∃ ch, s'.channels.get slug = some ch ∧ Later old ch := by
  cases h with
  | same => exact ⟨old, hold, .refl old⟩
  | @moved ch hmove =>
    by_cases heq : slug = target
    · subst heq
      rw [hold] at hmove
      exact ⟨ch, Table.get_insert_self _ _ _, hmove.later hok⟩
    · exact ⟨old, (Table.get_insert_ne heq).trans hold, .refl old⟩

theorem EmitEffect.messages {E : Event → Prop} (h : EmitEffect E s target s') (hE : ∀ e, E e → e.posted = none)
    (hold : s.channels.get slug = some old) (hch : s'.channels.get slug = some ch) :
    ch.messages = old.messages := by
  cases h with
  | same =>
    rw [hold] at hch
    cases hch
    rfl
  | @moved ch' hmove es hevents hes =>
    rw [AppState.setChannel, Table.get_insert] at hch
    by_cases heq : slug = target
    · subst heq
      rw [if_pos rfl] at hch
      cases hch
      rw [hold] at hmove hevents
      cases hmove with
      | touched now hm => rfl
      | seated now role hm hroom => rfl
      | unseated now hm => rfl
      | appended now newId sender role content metadata =>
        have hsent : es = [_] := (List.append_cancel_left hevents).symm
        have hmessage := hE _ (hes _ (hsent ▸ List.mem_cons_self))
        cases hmessage
      | stored entry => rfl
    · rw [if_neg heq, hold] at hch
      cases hch
      rfl

end Moves

section Window
variable {config : Config} {old ch : ChannelState} {since : Nat}

theorem filter_suffix {messages : List Message} (since : Nat) (hsorted : messages.Pairwise fun a b => a.seq < b.seq) :
    (messages.filter fun m => since < m.seq) <:+ messages := by
  induction messages with
  | nil => exact List.suffix_refl _
  | cons m ms ih =>
    obtain ⟨hfirst, hrest⟩ := List.pairwise_cons.mp hsorted
    by_cases hm : since < m.seq
    · have hall : (m :: ms).filter (fun m => since < m.seq) = m :: ms := by
        rw [List.filter_eq_self]
        intro x hx
        rcases List.mem_cons.mp hx with rfl | hx
        · exact decide_eq_true hm
        · exact decide_eq_true (hm.trans (hfirst x hx))
      rw [hall]
    · rw [List.filter_cons_of_neg (by simpa using hm)]
      exact (ih hrest).trans (List.suffix_cons m ms)

theorem HistoryOk.ring_sorted (h : HistoryOk config ch) : ch.messages.Pairwise fun a b => a.seq < b.seq :=
  h.sorted.sublist h.ring.sublist

/-- The oldest message after `since` was retained before, if any message after `since` was. -/
theorem oldest_needed {k x : Message} {rest : List Message} (hold : HistoryOk config old) (hch : HistoryOk config ch)
    (hlater : Later old ch) (hx : x ∈ old.messages) (hxch : x ∈ ch.messages) (hsince : since < x.seq)
    (hk : ch.messages.filter (fun m => since < m.seq) = k :: rest) : k ∈ old.messages ∧ since < k.seq := by
  have hkmem : k ∈ ch.messages.filter (fun m => since < m.seq) := hk ▸ List.mem_cons_self
  obtain ⟨hkch, hksince⟩ := List.mem_filter.mp hkmem
  have hsorted := (hch.ring_sorted.filter (fun m => since < m.seq))
  rw [hk] at hsorted
  have hkx : k.seq ≤ x.seq := by
    have hxmem : x ∈ ch.messages.filter (fun m => since < m.seq) :=
      List.mem_filter.mpr ⟨hxch, decide_eq_true hsince⟩
    rw [hk] at hxmem
    rcases List.mem_cons.mp hxmem with rfl | hxrest
    · exact Nat.le_refl _
    · exact Nat.le_of_lt ((List.pairwise_cons.mp hsorted).1 x hxrest)
  obtain ⟨hkposted, hkdropped⟩ := hch.mem_messages.mp hkch
  have hxold := (hlater.mem_posted hold hch).mp (hold.mem_messages.mp hx).1
  have hkold : k ∈ old.posted := (hlater.mem_posted hold hch).mpr ⟨hkposted, hkx.trans hxold.2⟩
  exact ⟨hold.mem_messages.mpr ⟨hkold, Nat.lt_of_le_of_lt hlater.dropped hkdropped⟩, of_decide_eq_true hksince⟩

/-- An append leaves the retained messages after `since` in the ring exactly when they fit there
with all that came after them. -/
theorem append_keeps_iff (hold : HistoryOk config old) (hch : HistoryOk config ch) (hlater : Later old ch)
    (hkept : ∀ x ∈ old.messages, since < x.seq → x ∈ ch.messages) (hneeded : ∃ x ∈ old.messages, since < x.seq)
    (now : Now) {m : Message} (hseq : m.seq = ch.nextSeq) :
    (∀ x ∈ old.messages, since < x.seq →
        x ∈ (AppState.append ch now config.maxChannelHistoryBytes m).messages) ↔
      WithinLimits config.historyLimit config.maxChannelHistoryBytes
        (ch.messages.filter (fun x => since < x.seq) ++ [m]) := by
  have hsuffix : ch.messages.filter (fun x => since < x.seq) ++ [m] <:+ ch.messages ++ [m] := by
    obtain ⟨before, hbefore⟩ := filter_suffix since hch.ring_sorted
    exact ⟨before, by rw [← List.append_assoc, hbefore]⟩
  rw [← evict_keeps_iff hsuffix (List.append_ne_nil_of_right_ne_nil _ (List.cons_ne_nil m [])),
    ← (append_messages hch now m).1]
  have hring : (AppState.append ch now config.maxChannelHistoryBytes m).messages <:+ ch.messages ++ [m] := by
    rw [(append_messages hch now m).1]
    exact (evict_spec _ _ _).1
  constructor
  · intro h
    -- of two ends of the ring one holds the other; the oldest needed message decides
    rcases List.suffix_or_suffix_of_suffix hsuffix hring with hkeep | hevicted
    · exact hkeep
    · obtain ⟨x, hx, hsince⟩ := hneeded
      have hxkeep : x ∈ ch.messages.filter (fun x => since < x.seq) :=
        List.mem_filter.mpr ⟨hkept x hx hsince, decide_eq_true hsince⟩
      obtain ⟨k, rest, hk⟩ := List.exists_cons_of_ne_nil (List.ne_nil_of_mem hxkeep)
      obtain ⟨hkold, hksince⟩ := oldest_needed hold hch hlater hx (hkept x hx hsince) hsince hk
      have hkring := h k hkold hksince
      rw [hk, List.cons_append] at hevicted ⊢
      rcases List.suffix_cons_iff.mp hevicted with heq | hrest
      · rw [heq]
      · have hsorted : (k :: (rest ++ [m])).Pairwise fun a b => a.seq < b.seq := by
          have hposted := (hch.append now hseq).sorted
          rw [posted_append] at hposted
          rw [hk] at hsuffix
          exact (hposted.sublist (hch.ring.sublist.append_right [m])).sublist hsuffix.sublist
        have hkrest : k ∈ rest ++ [m] := hrest.subset hkring
        exact absurd ((List.pairwise_cons.mp hsorted).1 k hkrest) (Nat.lt_irrefl _)
  · intro hkeep x hx hsince
    apply hkeep.subset
    exact List.mem_append_left _ (List.mem_filter.mpr ⟨hkept x hx hsince, decide_eq_true hsince⟩)

end Window

end AgentBridge
