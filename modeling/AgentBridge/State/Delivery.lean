import AgentBridge.State.Subscription

/-! What a subscriber reads: in order and without repetition, everything posted since the
receiver was attached, and of what was retained then all that no post evicts before the
history is read. -/

namespace AgentBridge
open State

namespace Delivery

/-- The channel as it was when the receiver was attached. -/
structure Taken (config : Config) (sub : Subscription) (c : ChannelState) : Prop where
  ok : HistoryOk config c
  position : sub.position = c.events.length
  highWater : sub.highWater = c.messageCount
  retained : sub.retained = c.messages

/-- What the subscriber replays of the ring it reads. -/
def replayed (req : SubscribeRequest) (sub : Subscription) (c : ChannelState) : List Message :=
  (c.messages.filter fun m => req.since.getD 0 < m.seq).filter fun m => m.seq ≤ sub.highWater

def received (sub : Subscription) (ch : ChannelState) (position : Nat) : List Message :=
  ((ch.events.take position).drop sub.position).filterMap Event.posted

/-- What was written, by how far the subscriber has come. `c` is the channel of the attachment, `mid` that
of the history snapshot, `ch` the present one. -/
def PhaseOk (config : Config) (req : SubscribeRequest) (d : Delivery) : Prop :=
  match d.phase with
  | .idle | .joined => d.messages = []
  | .attached sub => d.messages = [] ∧ ∃ c ch, Taken config sub c ∧
      d.world.state.channels.get req.channel = some ch ∧ Later c ch
  | .replaying sub rest => ∃ c mid ch, Taken config sub c ∧ HistoryOk config mid ∧ Later c mid ∧
      d.world.state.channels.get req.channel = some ch ∧ Later mid ch ∧ d.messages ++ rest = replayed req sub mid
  | .live sub position => ∃ c mid ch, Taken config sub c ∧ HistoryOk config mid ∧ Later c mid ∧
      d.world.state.channels.get req.channel = some ch ∧ Later mid ch ∧ sub.position ≤ position ∧
      position ≤ ch.events.length ∧ d.messages = replayed req sub mid ++ received sub ch position

structure Ok (config : Config) (req : SubscribeRequest) (d : Delivery) : Prop where
  settings : d.world.state.config = config
  histories : ∀ slug ch, d.world.state.channels.get slug = some ch → HistoryOk config ch
  phase : d.PhaseOk config req

section Steps
variable {config : Config} {req : SubscribeRequest} {d : Delivery}

theorem received_later {sub : Subscription} {ch ch' : ChannelState} {position : Nat} (h : Later ch ch')
    (hposition : position ≤ ch.events.length) : received sub ch' position = received sub ch position := by
  obtain ⟨more, hmore⟩ := h.events
  rw [received, received, ← hmore, List.take_append_of_le_length hposition]

/-- Sections of other calls leave what was written as it was. -/
theorem Ok.of_section (h : Ok config req d) {world : ChannelWorld} {target : Text}
    (heffect : SectionEffect d.world.state target world.state) : Ok config req { d with world := world } := by
  obtain ⟨hconfig, hhistories, hphase⟩ := h
  have hlater : ∀ {ch}, d.world.state.channels.get req.channel = some ch →
      ∃ ch', world.state.channels.get req.channel = some ch' ∧ Later ch ch' := by
    intro ch hch
    exact heffect.later hch (hconfig ▸ hhistories _ _ hch)
  refine ⟨heffect.config.trans hconfig, ?_, ?_⟩
  · intro slug ch hch
    subst hconfig
    exact heffect.channels (fun _ _ hm => hm.historyOk) hhistories slug ch hch
  · obtain ⟨world₀, phase, written⟩ := d
    cases phase with
    | idle => exact hphase
    | joined => exact hphase
    | attached sub =>
      obtain ⟨hwritten, c, ch, htaken, hch, hc⟩ := hphase
      obtain ⟨ch', hch', hnext⟩ := hlater hch
      exact ⟨hwritten, c, ch', htaken, hch', hc.trans hnext⟩
    | replaying sub rest =>
      obtain ⟨c, mid, ch, htaken, hmid, hc, hch, hsnapshot, hwritten⟩ := hphase
      obtain ⟨ch', hch', hnext⟩ := hlater hch
      exact ⟨c, mid, ch', htaken, hmid, hc, hch', hsnapshot.trans hnext, hwritten⟩
    | live sub position =>
      obtain ⟨c, mid, ch, htaken, hmid, hc, hch, hsnapshot, hstart, hposition, hwritten⟩ := hphase
      obtain ⟨ch', hch', hnext⟩ := hlater hch
      refine ⟨c, mid, ch', htaken, hmid, hc, hch', hsnapshot.trans hnext, hstart,
        hposition.trans hnext.events.length_le, ?_⟩
      rw [received_later hnext hposition]
      exact hwritten

theorem messages_snoc (world : ChannelWorld) (phase phase' : SubscribePhase) (written : List Event) (e : Event) :
    (Delivery.mk world phase (written ++ [e])).messages =
      (Delivery.mk world phase' written).messages ++ [e].filterMap Event.posted :=
  List.filterMap_append

theorem received_succ {sub : Subscription} {ch : ChannelState} {position : Nat} {e : Event}
    (hstart : sub.position ≤ position) (he : ch.events[position]? = some e) :
    received sub ch (position + 1) = received sub ch position ++ [e].filterMap Event.posted := by
  have htake : ch.events.take (position + 1) = ch.events.take position ++ [e] := by
    rw [List.take_add_one, he]
    rfl
  have hlength : sub.position ≤ (ch.events.take position).length := by
    have hposition := (List.getElem?_eq_some_iff.mp he).1
    rw [List.length_take]
    omega
  rw [received, htake, List.drop_append_of_le_length hlength, List.filterMap_append]
  rfl

section Equations
variable {world : ChannelWorld} {ch : ChannelState} {sub : Subscription} {written : List Event}

theorem proceed_snapshot (hch : world.state.channels.get req.channel = some ch) (now : Now) :
    (Delivery.mk world (.attached sub) written).proceed req now =
      ⟨world, .replaying sub (replayed req sub ch), written⟩ := by
  have hhistory : world.state.history req.channel req.since =
      .ok (ch.messages.filter fun m => req.since.getD 0 < m.seq) := by
    rw [AppState.history, hch]
  unfold Delivery.proceed
  dsimp only
  rw [hhistory]
  rfl

theorem proceed_forward {position : Nat} {e : Event} (hch : world.state.channels.get req.channel = some ch)
    (he : ch.events[position]? = some e) (now : Now) :
    (Delivery.mk world (.live sub position) written).proceed req now =
      ⟨world, .live sub (position + 1), written ++ [e]⟩ := by
  unfold Delivery.proceed
  dsimp only
  rw [hch, Option.bind_some, he]

end Equations

theorem Ok.proceed (h : Ok config req d) (now : Now) : Ok config req (d.proceed req now) := by
  have hkeep := h
  obtain ⟨hconfig, hhistories, hphase⟩ := h
  obtain ⟨world, phase, written⟩ := d
  -- the subscriber's own step: what it takes of the room is taken under the lock, the rest it does alone
  cases phase with
  | idle =>
    unfold Delivery.proceed
    dsimp only
    cases req.agentKey.filter (fun k => Text.trim k ≠ []) with
    | none => exact ⟨hconfig, hhistories, hphase⟩
    | some key =>
      dsimp only
      have hjoin := (join_emits world.state now req.channel key .member).effect
      rcases hs : world.state.join now req.channel key .member with ⟨r, s⟩
      rw [hs] at hjoin
      have hnext : Ok config req ⟨{ world with state := s }, .idle, written⟩ := hkeep.of_section hjoin
      cases r with
      | error e => exact hnext
      | ok out => exact ⟨hnext.settings, hnext.histories, hnext.phase⟩
  | joined =>
    unfold Delivery.proceed AppState.attach
    dsimp only
    cases hch : world.state.channels.get req.channel with
    | none => exact ⟨hconfig, hhistories, hphase⟩
    | some ch =>
      have hok := hhistories _ _ hch
      have htaken : Taken config ⟨ch.events.length, ch.nextSeq - 1, ch.messages⟩ ch :=
        ⟨hok, rfl, by rw [hok.next]; rfl, rfl⟩
      exact ⟨hconfig, hhistories, hphase, ch, ch, htaken, hch, .refl ch⟩
  | attached sub =>
    obtain ⟨hwritten, c, ch, htaken, hch, hc⟩ := hphase
    rw [proceed_snapshot hch]
    refine ⟨hconfig, hhistories, c, ch, ch, htaken, hhistories _ _ hch, hc, hch, .refl ch, ?_⟩
    have hnone : (Delivery.mk world (.attached sub) written).messages = [] := hwritten
    exact congrArg (· ++ replayed req sub ch) hnone
  | replaying sub rest =>
    obtain ⟨c, mid, ch, htaken, hmid, hc, hch, hsnapshot, hwritten⟩ := hphase
    cases rest with
    | cons m rest =>
      refine ⟨hconfig, hhistories, c, mid, ch, htaken, hmid, hc, hch, hsnapshot, ?_⟩
      rw [← hwritten, Delivery.proceed, messages_snoc _ _ (.replaying sub (m :: rest)), List.append_assoc]
      rfl
    | nil =>
      have hposition : sub.position ≤ ch.events.length := by
        rw [htaken.position]
        exact (hc.trans hsnapshot).events.length_le
      refine ⟨hconfig, hhistories, c, mid, ch, htaken, hmid, hc, hch, hsnapshot, Nat.le_refl _, hposition, ?_⟩
      have hnothing : received sub ch sub.position = [] := by
        rw [received, List.drop_take_self]
        rfl
      rw [hnothing, List.append_nil, ← hwritten, List.append_nil]
      rfl
  | live sub position =>
    obtain ⟨c, mid, ch, htaken, hmid, hc, hch, hsnapshot, hstart, hposition, hwritten⟩ := hphase
    unfold Delivery.proceed
    dsimp only
    rw [hch, Option.bind_some]
    cases he : ch.events[position]? with
    | none => exact hkeep
    | some e =>
      have hlt := (List.getElem?_eq_some_iff.mp he).1
      refine ⟨hconfig, hhistories, c, mid, ch, htaken, hmid, hc, hch, hsnapshot, Nat.le_succ_of_le hstart, hlt, ?_⟩
      rw [messages_snoc _ _ (.live sub position), hwritten, received_succ hstart he, List.append_assoc]

theorem Ok.step (h : Ok config req d) (a : DeliveryAction) : Ok config req (d.step req a) := by
  cases a with
  | others a => exact h.of_section (d.world.step_emits a).effect
  | proceed now => exact h.proceed now

end Steps
section Order
variable {config : Config} {req : SubscribeRequest} {d : Delivery} {sub : Subscription} {c mid ch : ChannelState}

theorem mem_replayed {x : Message} : x ∈ replayed req sub mid ↔
    x ∈ mid.messages ∧ req.since.getD 0 < x.seq ∧ x.seq ≤ sub.highWater := by
  rw [replayed, List.mem_filter, List.mem_filter, decide_eq_true_eq, decide_eq_true_eq, and_assoc]

theorem Taken.posted (h : Taken config sub c) (hlater : Later c ch) :
    c.posted ++ (ch.events.drop sub.position).filterMap Event.posted = ch.posted := by
  obtain ⟨more, hmore⟩ := hlater.events
  rw [h.position, ← hmore, List.drop_left, ChannelState.posted, ChannelState.posted, ← hmore, List.filterMap_append]

theorem Taken.received_gt {position : Nat} {x : Message} (h : Taken config sub c) (hlater : Later c ch)
    (hch : HistoryOk config ch) (hx : x ∈ received sub ch position) : sub.highWater < x.seq := by
  have hnumbered := hch.numbered
  rw [← h.posted hlater] at hnumbered
  have hafter := (seq_of_numbered hnumbered).2
  rw [h.ok.count, ← h.highWater] at hafter
  have hsub : received sub ch position ⊆ (ch.events.drop sub.position).filterMap Event.posted := by
    rw [received, List.drop_take]
    exact ((List.take_sublist _ _).filterMap _).subset
  exact hafter x (hsub hx)

theorem Taken.retained_le {x : Message} (h : Taken config sub c) (hx : x ∈ sub.retained) : x.seq ≤ sub.highWater := by
  rw [h.retained] at hx
  rw [h.highWater]
  exact (((Later.refl c).mem_posted h.ok h.ok).mp (h.ok.mem_messages.mp hx).1).2

theorem Ok.inOrder (h : Ok config req d) : d.messages.Pairwise fun a b => a.seq < b.seq := by
  obtain ⟨-, hhistories, hphase⟩ := h
  obtain ⟨world, phase, written⟩ := d
  have hsnapshot : ∀ {sub mid}, HistoryOk config mid →
      (replayed req sub mid).Pairwise fun a b => a.seq < b.seq := by
    intro sub mid hmid
    exact (hmid.ring_sorted.filter _).filter _
  cases phase with
  | idle =>
    have hnone : (Delivery.mk world .idle written).messages = [] := hphase
    rw [hnone]
    exact List.Pairwise.nil
  | joined =>
    have hnone : (Delivery.mk world .joined written).messages = [] := hphase
    rw [hnone]
    exact List.Pairwise.nil
  | attached sub =>
    rw [hphase.1]
    exact List.Pairwise.nil
  | replaying sub rest =>
    obtain ⟨c, mid, ch, -, hmid, -, -, -, hwritten⟩ := hphase
    have hall := @hsnapshot sub mid hmid
    rw [← hwritten] at hall
    exact hall.sublist (List.sublist_append_left _ _)
  | live sub position =>
    obtain ⟨c, mid, ch, htaken, hmid, hc, hch, hlater, -, -, hwritten⟩ := hphase
    have hok := hhistories _ _ hch
    have hreceived : (received sub ch position).Sublist ch.posted := by
      rw [received, List.drop_take]
      exact ((List.take_sublist _ _).trans (List.drop_sublist _ _)).filterMap _
    rw [hwritten, List.pairwise_append]
    refine ⟨hsnapshot hmid, hok.sorted.sublist hreceived, ?_⟩
    intro a ha b hb
    exact Nat.lt_of_le_of_lt (mem_replayed.mp ha).2.2 (htaken.received_gt (hc.trans hlater) hok hb)

/-- A live subscriber that has received all events has read all that was posted since. -/
theorem Ok.complete (h : Ok config req d) (hphase : d.phase = .live sub ch.events.length)
    (hch : d.world.state.channels.get req.channel = some ch) {x : Message}
    (hx : x ∈ (ch.events.drop sub.position).filterMap Event.posted) : x ∈ d.messages := by
  have hp := h.phase
  rw [PhaseOk, hphase] at hp
  obtain ⟨c, mid, ch', -, -, -, hch', -, -, -, hwritten⟩ := hp
  rw [hch] at hch'
  cases hch'
  rw [hwritten, received, List.take_length]
  exact List.mem_append_right _ hx

/-- The subscription is under way and everything sent so far was written. -/
def CaughtUp (req : SubscribeRequest) (d : Delivery) : Prop :=
  ∃ sub ch, d.phase = .live sub ch.events.length ∧ d.world.state.channels.get req.channel = some ch

def Subscribed (d : Delivery) : Prop :=
  match d.phase with
  | .idle | .joined => False
  | .attached _ | .replaying .. | .live .. => True

end Order
section Progress
variable {config : Config} {req : SubscribeRequest} {d : Delivery}

/-- The subscriber running alone. -/
def proceedTimes (req : SubscribeRequest) (d : Delivery) (now : Now) (n : Nat) : Delivery :=
  Run.exec (step req) d (List.replicate n (.proceed now))

theorem catchesUp_live (now : Now) {ch : ChannelState} {sub : Subscription} (world : ChannelWorld)
    (hch : world.state.channels.get req.channel = some ch) (remaining : Nat) (position : Nat) (written : List Event)
    (hremaining : position + remaining = ch.events.length) :
    ∃ n, CaughtUp req (proceedTimes req ⟨world, .live sub position, written⟩ now n) := by
  -- on the events still to be forwarded
  induction remaining generalizing position written with
  | zero =>
    refine ⟨0, sub, ch, ?_, hch⟩
    rw [Nat.add_zero] at hremaining
    exact congrArg (SubscribePhase.live sub) hremaining
  | succ remaining ih =>
    have hlt : position < ch.events.length := by omega
    have he : ch.events[position]? = some ch.events[position] := List.getElem?_eq_getElem hlt
    obtain ⟨n, hn⟩ := ih (position + 1) (written ++ [ch.events[position]]) (by omega)
    refine ⟨n + 1, ?_⟩
    rw [proceedTimes, List.replicate_succ, Run.exec_cons, step, proceed_forward hch he]
    exact hn

theorem catchesUp_replaying (now : Now) {ch : ChannelState} {sub : Subscription} (world : ChannelWorld)
    (hch : world.state.channels.get req.channel = some ch) (hposition : sub.position ≤ ch.events.length)
    (rest : List Message) (written : List Event) :
    ∃ n, CaughtUp req (proceedTimes req ⟨world, .replaying sub rest, written⟩ now n) := by
  induction rest generalizing written with
  | nil =>
    obtain ⟨n, hn⟩ := catchesUp_live now world hch (ch.events.length - sub.position) sub.position written (by omega)
    exact ⟨n + 1, hn⟩
  | cons m rest ih =>
    obtain ⟨n, hn⟩ := ih (written ++ [.message m])
    exact ⟨n + 1, hn⟩

theorem Ok.catchesUp (h : Ok config req d) (hd : d.Subscribed) (now : Now) :
    ∃ n, CaughtUp req (proceedTimes req d now n) := by
  have hphase := h.phase
  obtain ⟨world, phase, written⟩ := d
  cases phase with
  | idle => exact hd.elim
  | joined => exact hd.elim
  | attached sub =>
    obtain ⟨-, c, ch, htaken, hch, hc⟩ := hphase
    have hposition : sub.position ≤ ch.events.length := htaken.position ▸ hc.events.length_le
    obtain ⟨n, hn⟩ := catchesUp_replaying now world hch hposition (replayed req sub ch) written
    refine ⟨n + 1, ?_⟩
    rw [proceedTimes, List.replicate_succ, Run.exec_cons, Delivery.step, proceed_snapshot hch]
    exact hn
  | replaying sub rest =>
    obtain ⟨c, mid, ch, htaken, -, hc, hch, hlater, -⟩ := hphase
    exact catchesUp_replaying now world hch (htaken.position ▸ (hc.trans hlater).events.length_le) rest written
  | live sub position =>
    obtain ⟨c, mid, ch, -, -, -, hch, -, -, hposition, -⟩ := hphase
    exact catchesUp_live now world hch (ch.events.length - position) position written (by omega)

end Progress

/-- The messages after `since` that were retained at the attachment are still to be had: in the ring until the
history is read, then among what is written and what waits to be. -/
def Kept (req : SubscribeRequest) (d : Delivery) : Prop :=
  match d.phase with
  | .idle | .joined => True
  | .attached sub => ∀ x ∈ sub.retained, req.since.getD 0 < x.seq →
      ∃ ch, d.world.state.channels.get req.channel = some ch ∧ x ∈ ch.messages
  | .replaying sub rest => ∀ x ∈ sub.retained, req.since.getD 0 < x.seq → x ∈ d.messages ++ rest
  | .live sub _ => ∀ x ∈ sub.retained, req.since.getD 0 < x.seq → x ∈ d.messages

/-- A message appended between the attachment and the history snapshot fits next to the messages after
`since`, if there were any. -/
def Room (req : SubscribeRequest) (d : Delivery) : DeliveryAction → Prop
  | .others (.commit now newId i) => ∀ sub call ch, d.phase = .attached sub → d.world.posts[i]? = some call →
      call.slug = req.channel → d.world.state.channels.get req.channel = some ch →
      (∃ x ∈ sub.retained, req.since.getD 0 < x.seq) →
      WithinLimits d.world.state.config.historyLimit d.world.state.config.maxChannelHistoryBytes
        (ch.messages.filter (fun x => req.since.getD 0 < x.seq) ++
          [AppState.newMessage ch now newId call.sender call.role call.content call.metadata])
  | _ => True

section Kept
variable {config : Config} {req : SubscribeRequest} {d : Delivery}

theorem kept_proceed (h : Ok config req d) (now : Now) : Kept req (d.proceed req now) ↔ Kept req d := by
  have hphase := h.phase
  obtain ⟨world, phase, written⟩ := d
  cases phase with
  | idle =>
    unfold Delivery.proceed
    dsimp only
    cases req.agentKey.filter (fun k => Text.trim k ≠ []) with
    | none => exact Iff.rfl
    | some key =>
      dsimp only
      rcases world.state.join now req.channel key .member with ⟨r, s⟩
      cases r <;> exact Iff.rfl
  | joined =>
    unfold Delivery.proceed AppState.attach
    dsimp only
    cases hch : world.state.channels.get req.channel with
    | none => exact Iff.rfl
    | some ch =>
      refine iff_of_true ?_ trivial
      intro x hx _
      exact ⟨ch, hch, hx⟩
  | attached sub =>
    obtain ⟨hwritten, c, ch, htaken, hch, hc⟩ := hphase
    have hnone : (Delivery.mk world (.replaying sub (replayed req sub ch)) written).messages = [] := hwritten
    rw [proceed_snapshot hch, Kept, Kept]
    dsimp only
    rw [hnone, List.nil_append]
    constructor
    · intro hkept x hx hsince
      exact ⟨ch, hch, (mem_replayed.mp (hkept x hx hsince)).1⟩
    · intro hkept x hx hsince
      obtain ⟨ch', hch', hmem⟩ := hkept x hx hsince
      rw [hch] at hch'
      cases hch'
      exact mem_replayed.mpr ⟨hmem, hsince, htaken.retained_le hx⟩
  | replaying sub rest =>
    cases rest with
    | cons m rest =>
      have hsame : (Delivery.mk world (.replaying sub rest) (written ++ [.message m])).messages ++ rest =
          (Delivery.mk world (.replaying sub (m :: rest)) written).messages ++ m :: rest := by
        rw [messages_snoc _ _ (.replaying sub (m :: rest)), List.append_assoc]
        rfl
      rw [Delivery.proceed, Kept, Kept]
      dsimp only
      rw [hsame]
    | nil =>
      have hsame : (Delivery.mk world (.live sub sub.position) written).messages =
          (Delivery.mk world (.replaying sub []) written).messages ++ [] := (List.append_nil _).symm
      rw [Delivery.proceed, Kept, Kept]
      dsimp only
      rw [hsame]
  | live sub position =>
    obtain ⟨c, mid, ch, htaken, -, hc, hch, hlater, hstart, -⟩ := hphase
    have hok := h.histories _ _ hch
    cases he : ch.events[position]? with
    | none =>
      have hstay : (Delivery.mk world (.live sub position) written).proceed req now =
          ⟨world, .live sub position, written⟩ := by
        unfold Delivery.proceed
        dsimp only
        rw [hch, Option.bind_some, he]
      rw [hstay]
    | some e =>
      -- the event received now is newer than all that was retained
      have hnew : ∀ x ∈ sub.retained, x ∉ [e].filterMap Event.posted := by
        intro x hx hxe
        have hreceived : x ∈ received sub ch (position + 1) := by
          rw [received_succ hstart he]
          exact List.mem_append_right _ hxe
        have hgt := htaken.received_gt (hc.trans hlater) hok hreceived
        exact absurd (htaken.retained_le hx) (Nat.not_le.mpr hgt)
      rw [proceed_forward hch he, Kept, Kept]
      dsimp only
      rw [messages_snoc _ _ (.live sub position)]
      refine forall_congr' fun x => forall_congr' fun hx => forall_congr' fun _ => ?_
      rw [List.mem_append, or_iff_left (hnew x hx)]

theorem ring_unchanged {w : ChannelWorld} {a : ChannelAction} {slug : Text} {ch ch' : ChannelState}
    (ha : ∀ now newId i call, a = .commit now newId i → w.posts[i]? = some call → call.slug ≠ slug)
    (hch : w.state.channels.get slug = some ch) (hch' : (w.step a).state.channels.get slug = some ch') :
    ch'.messages = ch.messages := by
  by_cases hcommit : ∃ now newId i, a = .commit now newId i
  · obtain ⟨now, newId, i, rfl⟩ := hcommit
    cases hcall : w.posts[i]? with
    | none =>
      rw [ChannelWorld.step, hcall, hch] at hch'
      cases hch'
      rfl
    | some call =>
      have hframe := (w.step_emits (.commit now newId i)).effect.frame (c := slug) (by
        rw [ChannelWorld.target, hcall]
        exact (ha now newId i call rfl hcall).symm)
      rw [hframe, hch] at hch'
      cases hch'
      rfl
  · push Not at hcommit
    exact (w.step_emits a).messages (ChannelAction.quiet hcommit) hch hch'

theorem room_of_phase (hd : ∀ sub, d.phase ≠ .attached sub) (a : DeliveryAction) : Room req d a := by
  cases a with
  | proceed now => trivial
  | others a =>
    cases a with
    | commit now newId i =>
      intro sub call ch hphase
      exact absurd hphase (hd sub)
    | insert | join | leave | post | subscribe | setContext => trivial

theorem kept_of_later {world : ChannelWorld} {sub : Subscription} {c ch : ChannelState} {x : Message}
    {target : Text} (h : Ok config req d) (htaken : Taken config sub c) (hc : Later c ch)
    (hch : d.world.state.channels.get req.channel = some ch)
    (heffect : SectionEffect d.world.state target world.state) (hx : x ∈ sub.retained)
    (hkept : ∃ ch', world.state.channels.get req.channel = some ch' ∧ x ∈ ch'.messages) : x ∈ ch.messages := by
  have hok := h.histories _ _ hch
  obtain ⟨ch', hch', hmem⟩ := hkept
  obtain ⟨next, hnext, hlater⟩ := heffect.later hch (h.settings.symm ▸ hok)
  rw [hch'] at hnext
  cases hnext
  have hok' : HistoryOk config ch' := (h.of_section heffect).histories _ _ hch'
  have hposted : x ∈ ch.posted := by
    have hretained : x ∈ c.messages := htaken.retained ▸ hx
    exact hc.posted.subset (htaken.ok.mem_messages.mp hretained).1
  exact hok.mem_messages.mpr ⟨hposted, Nat.lt_of_le_of_lt hlater.dropped (hok'.mem_messages.mp hmem).2⟩

/-- A post appended in the window keeps the messages after `since` exactly when it leaves room for them. -/
theorem kept_commit {world : ChannelWorld} {sub : Subscription} {written : List Event} {now : Now} {newId : Text}
    {i : Nat} {call : PostCall} (h : Ok config req ⟨world, .attached sub, written⟩)
    (hcall : world.posts[i]? = some call)
    (hslug : call.slug = req.channel) (hkept : Kept req ⟨world, .attached sub, written⟩) :
    Kept req ⟨world.step (.commit now newId i), .attached sub, written⟩ ↔
      Room req ⟨world, .attached sub, written⟩ (.others (.commit now newId i)) := by
  obtain ⟨-, c, ch, htaken, hch, hc⟩ := h.phase
  have hch : world.state.channels.get req.channel = some ch := hch
  have hok := h.histories _ _ hch
  have hsettings : world.state.config = config := h.settings
  let m := AppState.newMessage ch now newId call.sender call.role call.content call.metadata
  have hnext : (world.step (.commit now newId i)).state.channels.get req.channel =
      some (AppState.append ch now config.maxChannelHistoryBytes m) := by
    rw [ChannelWorld.step, hcall]
    dsimp only
    rw [hslug, AppState.appendMessage, hch, ← hsettings]
    exact Table.get_insert_self _ _ _
  -- up to now the room kept what the subscriber needs, so the append decides
  have hbefore : ∀ x ∈ c.messages, req.since.getD 0 < x.seq → x ∈ ch.messages := by
    intro x hx hsince
    obtain ⟨ch', hch', hmem⟩ := hkept x (htaken.retained ▸ hx) hsince
    have hsame : ch' = ch := Option.some.inj (hch'.symm.trans hch)
    exact hsame ▸ hmem
  have hafter : Kept req ⟨world.step (.commit now newId i), .attached sub, written⟩ ↔
      ∀ x ∈ c.messages, req.since.getD 0 < x.seq →
        x ∈ (AppState.append ch now config.maxChannelHistoryBytes m).messages := by
    rw [Kept]
    dsimp only
    rw [hnext, htaken.retained]
    constructor
    · intro hall x hx hsince
      obtain ⟨ch', hch', hmem⟩ := hall x hx hsince
      exact Option.some.inj hch' ▸ hmem
    · intro hall x hx hsince
      exact ⟨_, rfl, hall x hx hsince⟩
  rw [hafter]
  constructor
  · rintro hall _ _ _ ⟨⟩ hcall' - hch' hneeded
    rw [hcall] at hcall'
    cases hcall'
    rw [hch] at hch'
    cases hch'
    rw [htaken.retained] at hneeded
    dsimp only
    rw [hsettings]
    exact (append_keeps_iff htaken.ok hok hc hbefore hneeded now rfl).mp hall
  · intro hroom x hx hsince
    have hneeded : ∃ x ∈ c.messages, req.since.getD 0 < x.seq := ⟨x, hx, hsince⟩
    have hfits := hroom sub call ch rfl hcall hslug hch (htaken.retained ▸ hneeded)
    dsimp only at hfits
    rw [hsettings] at hfits
    exact (append_keeps_iff htaken.ok hok hc hbefore hneeded now rfl).mpr hfits x hx hsince

theorem kept_others (h : Ok config req d) (hkept : Kept req d) (a : ChannelAction) :
    Kept req (d.step req (.others a)) ↔ Room req d (.others a) := by
  have hok := h
  obtain ⟨world, phase, written⟩ := d
  cases phase with
  | idle => exact iff_of_true trivial (room_of_phase (by simp) _)
  | joined => exact iff_of_true trivial (room_of_phase (by simp) _)
  | replaying sub rest => exact iff_of_true hkept (room_of_phase (by simp) _)
  | live sub position => exact iff_of_true hkept (room_of_phase (by simp) _)
  | attached sub =>
    by_cases hcommit : ∃ now newId i call, a = .commit now newId i ∧ world.posts[i]? = some call ∧
        call.slug = req.channel
    · obtain ⟨now, newId, i, call, rfl, hcall, hslug⟩ := hcommit
      exact kept_commit h hcall hslug hkept
    · refine iff_of_true ?_ ?_
      · intro x hx hsince
        obtain ⟨ch, hch, hmem⟩ := hkept x hx hsince
        obtain ⟨ch', hch', -⟩ := (world.step_emits a).effect.later hch (h.settings.symm ▸ h.histories _ _ hch)
        refine ⟨ch', hch', ?_⟩
        have hsame : ch'.messages = ch.messages := by
          refine ring_unchanged ?_ hch hch'
          rintro now newId i call rfl hcall hslug
          exact hcommit ⟨now, newId, i, call, rfl, hcall, hslug⟩
        exact hsame ▸ hmem
      · cases a with
        | commit now newId i =>
          intro _ call _ _ hcall hslug
          exact absurd ⟨now, newId, i, call, rfl, hcall, hslug⟩ hcommit
        | insert | join | leave | post | subscribe | setContext => trivial

theorem lost_others (h : Ok config req d) (a : ChannelAction) (hkept : Kept req (d.step req (.others a))) :
    Kept req d := by
  have hok := h
  obtain ⟨world, phase, written⟩ := d
  cases phase with
  | idle => trivial
  | joined => trivial
  | replaying sub rest => exact hkept
  | live sub position => exact hkept
  | attached sub =>
    obtain ⟨-, c, ch, htaken, hch, hc⟩ := h.phase
    intro x hx hsince
    exact ⟨ch, hch, kept_of_later hok htaken hc hch (world.step_emits a).effect hx (hkept x hx hsince)⟩

end Kept
section Runs
variable (config : Config) (req : SubscribeRequest) (as : List DeliveryAction)

theorem init_ok : Ok config req (init config) where
  settings := rfl
  histories := by
    intro slug ch hch
    cases hch
  phase := rfl

theorem run_ok : Ok config req (run config req as) :=
  Run.exec_invariant (fun _ a h => h.step a) (init_ok config req) as

theorem run_kept_iff : Kept req (run config req as) ↔ Run.Guarded (step req) (Room req) (init config) as := by
  have hinit : Kept req (init config) := trivial
  refine Run.exec_iff_guarded (I := Ok config req) (fun _ a h => h.step a) ?_ ?_ (init_ok config req) hinit as
  · intro d a h hkept
    cases a with
    | others a => exact kept_others h hkept a
    | proceed now => exact iff_of_true ((kept_proceed h now).mpr hkept) trivial
  · intro d a h hkept
    cases a with
    | others a => exact lost_others h a hkept
    | proceed now => exact (kept_proceed h now).mp hkept

end Runs
end Delivery

open Delivery in
/-- What a subscriber reads is in order and without repetition, and holds everything posted after the
attachment once the subscriber has caught up, as it always can. It holds everything after `since` that was
retained at the attachment exactly when no post in the window before the history is read evicts any of it. -/
theorem subscription_delivery (config : Config) (req : SubscribeRequest) (as : List DeliveryAction) :
    ((run config req as).messages.Pairwise fun a b => a.seq < b.seq) ∧
    (∀ sub ch, (run config req as).phase = .live sub ch.events.length →
      (run config req as).world.state.channels.get req.channel = some ch →
      ∀ x ∈ (ch.events.drop sub.position).filterMap Event.posted, x ∈ (run config req as).messages) ∧
    ((run config req as).Subscribed → ∀ now, ∃ n, CaughtUp req (proceedTimes req (run config req as) now n)) ∧
    ∀ sub position, (run config req as).phase = .live sub position →
      ((∀ x ∈ sub.retained, req.since.getD 0 < x.seq → x ∈ (run config req as).messages) ↔
        Run.Guarded (step req) (Room req) (init config) as) := by
  have hok := run_ok config req as
  refine ⟨hok.inOrder, ?_, hok.catchesUp, ?_⟩
  · intro sub ch hphase hch x hx
    exact hok.complete hphase hch hx
  · intro sub position hphase
    rw [← run_kept_iff, Kept, hphase]

/-- A channel that keeps one message. -/
def singleConfig : Config := { Config.inMemory with historyLimit := 1 }

def adaPosts (content : String) : List DeliveryAction :=
  [.others (.post ⟨0, 0⟩ "room".toList "ada".toList .user content.toList .null), .others (.commit ⟨0, 0⟩ [] 0)]

/-- A second post falls between the attachment and the history snapshot. -/
def evictedBeforeReplay : List DeliveryAction :=
  .others (.insert ⟨0, 0⟩ "room".toList "room".toList "ada".toList [] []) :: adaPosts "one" ++
    [.proceed ⟨0, 0⟩, .proceed ⟨0, 0⟩] ++ adaPosts "two" ++
    [.proceed ⟨0, 0⟩, .proceed ⟨0, 0⟩, .proceed ⟨0, 0⟩]

theorem not_delivered_evicted : ∃ sub position,
    (Delivery.run singleConfig ⟨"room".toList, none, none⟩ evictedBeforeReplay).phase = .live sub position ∧
    ∃ x ∈ sub.retained, 0 < x.seq ∧
      x ∉ (Delivery.run singleConfig ⟨"room".toList, none, none⟩ evictedBeforeReplay).messages := by
  have hphase : (match (Delivery.run singleConfig ⟨"room".toList, none, none⟩ evictedBeforeReplay).phase with
      | .live sub _ => sub.retained.map Message.seq
      | _ => []) = [1] := by decide +kernel
  have hmessages : (Delivery.run singleConfig ⟨"room".toList, none, none⟩ evictedBeforeReplay).messages.map
      Message.seq = [2] := by decide +kernel
  generalize Delivery.run singleConfig ⟨"room".toList, none, none⟩ evictedBeforeReplay = d at hphase hmessages ⊢
  obtain ⟨world, phase, written⟩ := d
  cases phase with
  | idle | joined | attached | replaying => cases hphase
  | live sub position =>
    refine ⟨sub, position, rfl, ?_⟩
    obtain ⟨x, hx, hseq⟩ : ∃ x ∈ sub.retained, x.seq = 1 := by
      have hseqs : sub.retained.map Message.seq = [1] := hphase
      have hone : 1 ∈ sub.retained.map Message.seq := by
        rw [hseqs]
        exact List.mem_cons_self
      exact List.mem_map.mp hone
    refine ⟨x, hx, hseq ▸ Nat.one_pos, fun hread => ?_⟩
    have htwo := List.mem_map_of_mem (f := Message.seq) hread
    rw [hmessages, hseq] at htwo
    exact absurd htwo (by decide)

end AgentBridge
