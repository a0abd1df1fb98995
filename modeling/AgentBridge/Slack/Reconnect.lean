import AgentBridge.Base.Trace
import AgentBridge.Base.Word
import AgentBridge.Slack.Ingress
import Mathlib.Algebra.Order.Floor.Ring
import Mathlib.Data.Rat.Floor

/-! The receive loop of Socket Mode against any Slack: how long it waits between two connections,
and that only a recycle, which Slack announces, skips the wait. -/

namespace AgentBridge.Slack

/-- `Duration::from_secs`, in nanoseconds. -/
def fromSecs (seconds : Nat) : Nat := seconds * 1000000000

def asSecs (duration : Nat) : Nat := duration / 1000000000

def socketModeReconnectMin : Nat := fromSecs 1
def socketModeReconnectMax : Nat := fromSecs 30
def socketModeReadIdle : Nat := fromSecs 45
def socketModeHealthyAfter : Nat := fromSecs 30
def socketModeReconnectJitter : ℚ := 1 / 4

def reconnectBaseSecs (attempt : Nat) : Nat :=
  min (saturatingMul (asSecs socketModeReconnectMin) (2 ^ min attempt 5)) (asSecs socketModeReconnectMax)

/-- `round` goes away from zero at a half; nothing here is negative. -/
def reconnectDelayJittered (attempt : Nat) (jitter : ℚ) : Nat :=
  let jitter := max (-socketModeReconnectJitter) (min jitter socketModeReconnectJitter)
  let seconds := ⌊(reconnectBaseSecs attempt : ℚ) * (1 + jitter) + 1 / 2⌋.toNat
  fromSecs (min (max seconds (asSecs socketModeReconnectMin)) (asSecs socketModeReconnectMax))

structure SocketModeEnvelope where
  kind : Text
  envelopeId : Option Text
  payload : Json

structure SocketModeOpen where
  ok : Bool
  url : Option Text

/-- What came of a call of `apps.connections.open`. -/
inductive OpenAnswer
  | failed
  | unbounded
  | answered (body : Option SocketModeOpen)

def openSocketConnection : OpenAnswer → Except Error Text
  | .failed => .error .slack
  | .unbounded => .error .slack
  | .answered body =>
    let opened := body.getD ⟨false, none⟩
    if !opened.ok then .error .slack
    else match opened.url with
    | none => .error .slack
    | some url => if "wss://".toList.isPrefixOf url then .ok url else .error .slack

inductive WsMessage
  | text (text : Text)
  | ping
  | close
  | other

inductive SocketDriveEnd
  | recycle (nextUrl : Option Text)
  | dead

/-- Where the loop waits. A connection carries the time since its handshake. -/
inductive SocketPhase
  | opening
  | connecting (url : Text)
  | driving (uptime : Nat)
  | recycling (uptime : Nat)
  | sleeping (attempt delay : Nat)

structure SocketLoop where
  attempt : Nat
  phase : SocketPhase

/-- What the loop does or meets. `replacementRefused` is the refusal of the call that `drive_socket` makes on a
disconnect frame, which it drops. -/
inductive SocketEvent
  | attempt
  | opens
  | refused
  | handshakeFailed
  | acked (ack : Json)
  | disconnect
  | replacementRefused
  | closed (uptime : Nat) (cause : SocketDriveEnd)
  | slept (attempt delay : Nat)

/-- Slack's next move. Of a frame: when it came, `none` being an error or the end of the stream, how long
the reply took and whether it could be sent. -/
inductive SocketMove
  | opened (answer : OpenAnswer)
  | connected (ok : Bool)
  | received (message : Option WsMessage) (handled : Nat) (sent : Bool)
  | awoke

/-- The time since the last move, and the jitter drawn if a sleep begins. -/
structure SocketMoment where
  after : Nat
  jitter : ℚ
  move : SocketMove

namespace SocketLoop
variable (decode : Text → Option SocketModeEnvelope) (respond : SocketModeEnvelope → Option Json)

def again (attempt : Nat) (pendingUrl : Option Text) : SocketLoop × List SocketEvent :=
  match pendingUrl with
  | some url => (⟨attempt, .connecting url⟩, [.attempt])
  | none => (⟨attempt, .opening⟩, [.attempt, .opens])

def backOff (attempt : Nat) (jitter : ℚ) : SocketLoop :=
  ⟨saturatingSucc attempt, .sleeping attempt (reconnectDelayJittered attempt jitter)⟩

def ended (attempt uptime : Nat) (jitter : ℚ) (cause : SocketDriveEnd) : SocketLoop × List SocketEvent :=
  let attempt := if uptime ≥ socketModeHealthyAfter then 0 else attempt
  match cause with
  | .recycle nextUrl =>
    let (next, events) := again attempt nextUrl
    (next, .closed uptime cause :: events)
  | .dead => (backOff attempt jitter, [.closed uptime cause])

/-- One turn of the loop in `drive_socket`. -/
def receive (attempt uptime : Nat) (jitter : ℚ) (handled : Nat) (sent : Bool) :
    Option WsMessage → SocketLoop × List SocketEvent
  | none => ended attempt uptime jitter .dead
  | some .ping => (⟨attempt, .driving (uptime + handled)⟩, [])
  | some .close => ended attempt uptime jitter .dead
  | some .other => (⟨attempt, .driving uptime⟩, [])
  | some (.text text) =>
    if Text.byteLen text > socketModeMaxFrameBytes then (⟨attempt, .driving uptime⟩, [])
    else match decode text with
    | none => (⟨attempt, .driving uptime⟩, [])
    | some envelope =>
      if envelope.kind = "disconnect".toList then (⟨attempt, .recycling uptime⟩, [.disconnect, .opens])
      else match envelope.envelopeId with
      | none => (⟨attempt, .driving uptime⟩, [])
      | some envelopeId =>
        if sent then
          (⟨attempt, .driving (uptime + handled)⟩, [.acked (socketAck envelopeId (respond envelope))])
        else ended attempt (uptime + handled) jitter .dead

/-- A move that does not fit the phase cannot happen, and changes nothing. -/
def step (s : SocketLoop) (m : SocketMoment) : SocketLoop × List SocketEvent :=
  match s.phase, m.move with
  | .opening, .opened answer =>
    match openSocketConnection answer with
    | .ok url => (⟨s.attempt, .connecting url⟩, [])
    | .error _ => (backOff s.attempt m.jitter, [.refused])
  | .connecting _, .connected true => (⟨s.attempt, .driving 0⟩, [])
  | .connecting _, .connected false => (backOff s.attempt m.jitter, [.handshakeFailed])
  | .driving uptime, .received message handled sent =>
    -- the idle window closes before the frame comes
    if m.after > socketModeReadIdle then ended s.attempt (uptime + socketModeReadIdle) m.jitter .dead
    else receive decode respond s.attempt (uptime + m.after) m.jitter handled sent message
  | .recycling uptime, .opened answer =>
    match openSocketConnection answer with
    | .ok url => ended s.attempt (uptime + m.after) m.jitter (.recycle (some url))
    | .error _ =>
      let (next, events) := ended s.attempt (uptime + m.after) m.jitter (.recycle none)
      (next, .replacementRefused :: events)
  | .sleeping attempt delay, .awoke =>
    let (next, events) := again s.attempt none
    (next, .slept attempt delay :: events)
  | _, _ => (s, [])

end SocketLoop

/-- A run of `run_socket_mode`: the loop is entered with nothing pending. -/
def runSocketMode (decode : Text → Option SocketModeEnvelope) (respond : SocketModeEnvelope → Option Json)
    (moments : List SocketMoment) : SocketLoop × List SocketEvent :=
  Run.exec (Run.recorded (SocketLoop.step decode respond)) (SocketLoop.again 0 none) moments

section Delays
variable {attempt attempt' : Nat}

theorem reconnectBaseSecs_mono (h : attempt ≤ attempt') :
    reconnectBaseSecs attempt ≤ reconnectBaseSecs attempt' := by
  unfold reconnectBaseSecs saturatingMul
  gcongr
  exact one_le_two

theorem reconnectDelayJittered_bounded (attempt : Nat) (jitter : ℚ) :
    socketModeReconnectMin ≤ reconnectDelayJittered attempt jitter ∧
      reconnectDelayJittered attempt jitter ≤ socketModeReconnectMax := by
  unfold reconnectDelayJittered
  dsimp only
  generalize ⌊(reconnectBaseSecs attempt : ℚ) *
    (1 + max (-socketModeReconnectJitter) (min jitter socketModeReconnectJitter)) + 1 / 2⌋.toNat = seconds
  unfold socketModeReconnectMin socketModeReconnectMax asSecs fromSecs
  omega

theorem le_saturatingSucc (h : attempt ≤ u32Max) : attempt ≤ saturatingSucc attempt :=
  le_min attempt.le_succ h

theorem saturatingSucc_le (attempt : Nat) : saturatingSucc attempt ≤ u32Max := min_le_right _ _

end Delays

/-- The ends of a connection that are failures; `drive_socket` calls the last one dead. -/
def SocketEvent.Failed : SocketEvent → Prop
  | .refused | .handshakeFailed | .closed _ .dead => True
  | _ => False

/-- Slack has announced the end of the connection, or has refused the call made on the announcement. -/
def SocketEvent.Recycled : SocketEvent → Prop
  | .disconnect | .replacementRefused => True
  | _ => False

def SocketEvent.healthy : SocketEvent → Bool
  | .closed uptime _ => uptime ≥ socketModeHealthyAfter
  | _ => false

/-- The counter after a connection that ended like this. -/
def SocketEvent.resets (event : SocketEvent) (attempt : Nat) : Nat := if event.healthy then 0 else attempt

/-- A sleep between the bounds. -/
def SocketEvent.Waits : SocketEvent → Prop
  | .slept _ delay => socketModeReconnectMin ≤ delay ∧ delay ≤ socketModeReconnectMax
  | _ => False

def SocketPhase.Awake : SocketPhase → Prop
  | .sleeping .. => False
  | _ => True

/-- The loop is between two connections or in one whose end is not announced. -/
def SocketPhase.Unannounced : SocketPhase → Prop
  | .opening | .connecting _ | .driving _ => True
  | _ => False

theorem SocketPhase.Unannounced.awake {phase : SocketPhase} (h : phase.Unannounced) : phase.Awake := by
  cases phase with
  | sleeping => exact h
  | opening | connecting | driving | recycling => trivial

namespace SocketLoop
variable {decode : Text → Option SocketModeEnvelope} {respond : SocketModeEnvelope → Option Json}

/-- All that a move can bring about. -/
inductive Turn (s : SocketLoop) (jitter : ℚ) : SocketLoop × List SocketEvent → Prop
  | stays : Turn s jitter (s, [])
  | goesOn (hs : s.phase.Awake) {phase : SocketPhase} (h : phase.Unannounced) :
    Turn s jitter (⟨s.attempt, phase⟩, [])
  | acks (hs : s.phase.Awake) (uptime : Nat) (ack : Json) :
    Turn s jitter (⟨s.attempt, .driving uptime⟩, [.acked ack])
  | recycling (hs : s.phase.Awake) (uptime : Nat) :
    Turn s jitter (⟨s.attempt, .recycling uptime⟩, [.disconnect, .opens])
  | fails (hs : s.phase.Awake) (event : SocketEvent) (h : event.Failed) :
    Turn s jitter (backOff (event.resets s.attempt) jitter, [event])
  | replaces {announced : Nat} (hs : s.phase = .recycling announced) {event : SocketEvent} (uptime : Nat) (url : Text)
    (h : event = .closed uptime (.recycle (some url))) :
    Turn s jitter (⟨event.resets s.attempt, .connecting url⟩, [event, .attempt])
  | reopens {announced : Nat} (hs : s.phase = .recycling announced) {event : SocketEvent} (uptime : Nat)
    (h : event = .closed uptime (.recycle none)) :
    Turn s jitter (⟨event.resets s.attempt, .opening⟩, [.replacementRefused, event, .attempt, .opens])
  | wakes {attempt delay : Nat} (hs : s.phase = .sleeping attempt delay) :
    Turn s jitter ((again s.attempt none).1, .slept attempt delay :: (again s.attempt none).2)

section Turns
variable {s : SocketLoop} {jitter : ℚ}

theorem resets_closed (uptime : Nat) (cause : SocketDriveEnd) (attempt : Nat) :
    SocketEvent.resets (.closed uptime cause) attempt = if uptime ≥ socketModeHealthyAfter then 0 else attempt := by
  simp only [SocketEvent.resets, SocketEvent.healthy, decide_eq_true_eq]

theorem turn_dead (hs : s.phase.Awake) (uptime : Nat) : Turn s jitter (ended s.attempt uptime jitter .dead) := by
  unfold ended
  rw [← resets_closed uptime .dead]
  exact .fails hs _ trivial

/-- The answer to the call that `drive_socket` made on a disconnect frame. -/
theorem turn_recycling {uptime after : Nat} (hs : s.phase = .recycling uptime) (answer : OpenAnswer) :
    Turn s jitter (step decode respond s ⟨after, jitter, .opened answer⟩) := by
  unfold step
  rw [hs]
  dsimp only
  cases openSocketConnection answer with
  | ok url =>
    dsimp only
    unfold ended
    rw [← resets_closed (uptime + after) (.recycle (some url))]
    exact .replaces hs (uptime + after) url rfl
  | error e =>
    dsimp only
    unfold ended
    rw [← resets_closed (uptime + after) (.recycle none)]
    exact .reopens hs (uptime + after) rfl

theorem turn_receive (hs : s.phase.Awake) (uptime handled : Nat) (sent : Bool) (message : Option WsMessage) :
    Turn s jitter (receive decode respond s.attempt uptime jitter handled sent message) := by
  rcases message with _ | text | _ | _ | _
  · exact turn_dead hs uptime
  · unfold receive
    dsimp only
    by_cases hlarge : Text.byteLen text > socketModeMaxFrameBytes
    · rw [if_pos hlarge]
      exact .goesOn hs trivial
    · rw [if_neg hlarge]
      cases decode text with
      | none => exact .goesOn hs trivial
      | some envelope =>
        dsimp only
        by_cases hkind : envelope.kind = "disconnect".toList
        · rw [if_pos hkind]
          exact .recycling hs uptime
        · rw [if_neg hkind]
          cases envelope.envelopeId with
          | none => exact .goesOn hs trivial
          | some envelopeId =>
            cases sent with
            | true => exact .acks hs _ _
            | false => exact turn_dead hs _
  · exact .goesOn hs trivial
  · exact turn_dead hs uptime
  · exact .goesOn hs trivial

theorem turn_step (s : SocketLoop) (m : SocketMoment) : Turn s m.jitter (step decode respond s m) := by
  rcases s with ⟨attempt, phase⟩
  rcases m with ⟨after, jitter, move⟩
  cases phase with
  | opening =>
    have hs : (SocketLoop.mk attempt .opening).phase.Awake := trivial
    cases move with
    | opened answer =>
      unfold step
      dsimp only
      cases openSocketConnection answer with
      | ok url => exact .goesOn hs trivial
      | error e => exact .fails hs .refused trivial
    | connected | received | awoke => exact .stays
  | connecting url =>
    have hs : (SocketLoop.mk attempt (.connecting url)).phase.Awake := trivial
    cases move with
    | connected ok =>
      cases ok with
      | true => exact .goesOn hs trivial
      | false => exact .fails hs .handshakeFailed trivial
    | opened | received | awoke => exact .stays
  | driving uptime =>
    have hs : (SocketLoop.mk attempt (.driving uptime)).phase.Awake := trivial
    cases move with
    | received message handled sent =>
      unfold step
      dsimp only
      by_cases hidle : after > socketModeReadIdle
      · rw [if_pos hidle]
        exact turn_dead hs _
      · rw [if_neg hidle]
        exact turn_receive hs _ _ _ _
    | opened | connected | awoke => exact .stays
  | recycling uptime =>
    cases move with
    | opened answer => exact turn_recycling rfl answer
    | connected | received | awoke => exact .stays
  | sleeping failed delay =>
    cases move with
    | awoke => exact .wakes rfl
    | opened | connected | received => exact .stays

end Turns
end SocketLoop

/-! ### What holds of every run -/

/-- What may follow what: a failure only a sleep, a sleep or a recycle only a new attempt. -/
def SocketEvent.Next : SocketEvent → SocketEvent → Prop
  | .refused, next | .handshakeFailed, next | .closed _ .dead, next => next.Waits
  | .closed _ (.recycle _), next | .slept .., next => next = .attempt
  | .replacementRefused, next => ∃ uptime, next = .closed uptime (.recycle none)
  | _, _ => True

def SocketEvent.Ongoing : SocketEvent → Prop
  | .attempt | .opens | .acked _ | .disconnect => True
  | _ => False

theorem SocketEvent.Failed.next_iff {x y : SocketEvent} (hx : x.Failed) : x.Next y ↔ y.Waits := by
  cases x with
  | refused => rfl
  | handshakeFailed => rfl
  | closed uptime cause =>
    cases cause with
    | dead => rfl
    | recycle nextUrl => exact hx.elim
  | attempt | opens | acked | disconnect | replacementRefused | slept => exact hx.elim

theorem SocketEvent.Ongoing.next {x : SocketEvent} (hx : x.Ongoing) (y : SocketEvent) : x.Next y := by
  cases x with
  | attempt | opens | acked | disconnect => trivial
  | refused | handshakeFailed | replacementRefused | closed | slept => exact hx.elim

/-- After an end of the kind `ended` the loop sleeps once, within the bounds, before it tries again. -/
def BacksOff (ended : SocketEvent → Prop) (tr : List SocketEvent) : Prop :=
  Trace.Always (fun pre event => event = .attempt → ∀ before o mid, pre = before ++ o :: mid → ended o →
    .attempt ∉ mid → ∃ nap, mid = [nap] ∧ nap.Waits) tr

/-- Until a connection has lived long enough, no sleep has a smaller base than one before it. -/
def Climbs (tr : List SocketEvent) : Prop :=
  Trace.Always (fun pre event => ∀ attempt delay attempt' delay', event = .slept attempt delay →
    Trace.Since (fun x => x.healthy = true) pre (.slept attempt' delay') →
    reconnectBaseSecs attempt' ≤ reconnectBaseSecs attempt) tr

/-- `apps.connections.open` is called again only after a sleep, a disconnect frame, or the refusal of the call
that such a frame brought about. -/
def OpensApart (tr : List SocketEvent) : Prop :=
  Trace.Always (fun pre event => event = .opens → ¬ Trace.Since (fun x => x.Waits ∨ x.Recycled) pre .opens) tr

def RefusedOnDisconnect (tr : List SocketEvent) : Prop :=
  Trace.Always (fun pre event => event = .replacementRefused → ∃ before, pre = before ++ [.disconnect, .opens]) tr

/-- A recycled connection is replaced without a sleep, and a refused replacement ends it. -/
def RecyclesAtOnce (tr : List SocketEvent) : Prop :=
  Trace.Always (fun pre event =>
    (∀ before uptime nextUrl, pre = before ++ [.closed uptime (.recycle nextUrl)] → event = .attempt) ∧
    ∀ before, pre = before ++ [.replacementRefused] → ∃ uptime, event = .closed uptime (.recycle none)) tr

section Laws
variable {tr : List SocketEvent}

theorem backsOff_of_isChain (h : tr.IsChain SocketEvent.Next) : BacksOff SocketEvent.Failed tr := by
  rintro pre _ post rfl rfl before o mid rfl hfailed hmid
  rw [List.append_assoc, List.cons_append] at h
  have hend := h.right_of_append
  cases mid with
  | nil => exact (hfailed.next_iff.mp (List.isChain_cons_cons.mp hend).1).elim
  | cons nap mid =>
    obtain ⟨hnext, htail⟩ := List.isChain_cons_cons.mp hend
    have hnap : nap.Waits := hfailed.next_iff.mp hnext
    cases mid with
    | nil => exact ⟨nap, rfl, hnap⟩
    | cons x mid =>
      -- the sleep is followed by the attempt, so nothing else is in between
      have hx : nap.Next x := (List.isChain_cons_cons.mp htail).1
      cases nap with
      | slept attempt delay =>
        obtain rfl : x = .attempt := hx
        exact absurd (by simp) hmid
      | attempt | opens | refused | handshakeFailed | acked | disconnect | replacementRefused | closed =>
        exact hnap.elim

theorem recyclesAtOnce_of_isChain (h : tr.IsChain SocketEvent.Next) : RecyclesAtOnce tr := by
  rintro pre event post rfl
  refine ⟨?_, ?_⟩
  · rintro before uptime nextUrl rfl
    rw [List.append_assoc] at h
    exact (List.isChain_cons_cons.mp h.right_of_append).1
  · rintro before rfl
    rw [List.append_assoc] at h
    exact (List.isChain_cons_cons.mp h.right_of_append).1

end Laws

namespace SocketLoop
variable {decode : Text → Option SocketModeEnvelope} {respond : SocketModeEnvelope → Option Json}

def Last (s : SocketLoop) (event : SocketEvent) : Prop :=
  match s.phase with
  | .sleeping attempt delay => event.Failed ∧ (SocketEvent.slept attempt delay).Waits
  | _ => event.Ongoing

theorem last_awake {s : SocketLoop} {event : SocketEvent} (hs : s.phase.Awake) : s.Last event ↔ event.Ongoing := by
  unfold Last
  cases hphase : s.phase with
  | sleeping => exact (hphase ▸ hs).elim
  | opening | connecting | driving | recycling => rfl

theorem turn_isChain {s : SocketLoop} {jitter : ℚ} {r : SocketLoop × List SocketEvent} (h : Turn s jitter r)
    {x : SocketEvent} (hx : s.Last x) :
    (x :: r.2).IsChain SocketEvent.Next ∧ ∀ y ∈ (x :: r.2).getLast?, r.1.Last y := by
  cases h with
  | stays => exact ⟨.singleton x, by rintro _ ⟨⟩; exact hx⟩
  | goesOn hs h =>
    refine ⟨.singleton x, ?_⟩
    rintro _ ⟨⟩
    exact (last_awake h.awake).mpr ((last_awake hs).mp hx)
  | acks hs uptime ack =>
    refine ⟨.cons_cons (((last_awake hs).mp hx).next _) (.singleton _), ?_⟩
    rintro _ ⟨⟩
    trivial
  | recycling hs uptime =>
    refine ⟨.cons_cons (((last_awake hs).mp hx).next _) (.cons_cons trivial (.singleton _)), ?_⟩
    rintro _ ⟨⟩
    trivial
  | fails hs event h =>
    refine ⟨.cons_cons (((last_awake hs).mp hx).next _) (.singleton _), ?_⟩
    rintro _ ⟨⟩
    exact ⟨h, reconnectDelayJittered_bounded _ _⟩
  | replaces hs uptime url h =>
    subst h
    rw [Last, hs] at hx
    refine ⟨.cons_cons (hx.next _) (.cons_cons rfl (.singleton _)), ?_⟩
    rintro _ ⟨⟩
    trivial
  | reopens hs uptime h =>
    subst h
    rw [Last, hs] at hx
    refine ⟨.cons_cons (hx.next _) (.cons_cons ⟨uptime, rfl⟩ (.cons_cons rfl (.cons_cons trivial (.singleton _)))), ?_⟩
    rintro _ ⟨⟩
    trivial
  | @wakes attempt delay hs =>
    rw [Last, hs] at hx
    refine ⟨.cons_cons (hx.1.next_iff.mpr hx.2) (.cons_cons rfl (.cons_cons trivial (.singleton _))), ?_⟩
    rintro _ ⟨⟩
    trivial

theorem runSocketMode_isChain (moments : List SocketMoment) :
    (runSocketMode decode respond moments).2.IsChain SocketEvent.Next := by
  refine Run.exec_isChain (fun s m x hx => turn_isChain (turn_step s m) hx) ?_ ?_ moments
  · exact .cons_cons trivial (.singleton _)
  · exact ⟨.opens, rfl, trivial⟩

/-- The counter the next sleep, or the one under way, is drawn with. -/
def level (s : SocketLoop) : Nat :=
  match s.phase with
  | .sleeping attempt _ => attempt
  | _ => s.attempt

theorem level_awake {s : SocketLoop} (hs : s.phase.Awake) : s.level = s.attempt := by
  unfold level
  cases hphase : s.phase with
  | sleeping => exact (hphase ▸ hs).elim
  | opening | connecting | driving | recycling => rfl

/-- What is known of the events so far: since the last healthy connection, no sleep was drawn with a counter
above the level. -/
structure History (level : Nat) (tr : List SocketEvent) : Prop where
  since : ∀ attempt delay, Trace.Since (fun x => x.healthy = true) tr (.slept attempt delay) → attempt ≤ level
  climbs : Climbs tr
  apart : OpensApart tr
  onDisconnect : RefusedOnDisconnect tr

theorem History.mono {level level' : Nat} {tr : List SocketEvent} (h : History level tr) (hle : level ≤ level') :
    History level' tr where
  since attempt delay hsince := (h.since attempt delay hsince).trans hle
  climbs := h.climbs
  apart := h.apart
  onDisconnect := h.onDisconnect

section Events
variable {level attempt delay : Nat} {tr : List SocketEvent} {event : SocketEvent}

theorem History.concat (h : History level tr) (hslept : ∀ attempt delay, event ≠ .slept attempt delay)
    (hopens : event = .opens → ¬ Trace.Since (fun x => x.Waits ∨ x.Recycled) tr .opens)
    (hrefused : event = .replacementRefused → ∃ before, tr = before ++ [.disconnect, .opens]) :
    History level (tr ++ [event]) where
  since attempt delay hsince := by
    rcases Trace.since_concat.mp hsince with heq | ⟨hold, -⟩
    · exact absurd heq (hslept attempt delay)
    · exact h.since attempt delay hold
  climbs := Trace.always_concat.mpr ⟨h.climbs, fun attempt delay _ _ heq => absurd heq (hslept attempt delay)⟩
  apart := Trace.always_concat.mpr ⟨h.apart, hopens⟩
  onDisconnect := Trace.always_concat.mpr ⟨h.onDisconnect, hrefused⟩

theorem History.reset (h : History level tr) (hhealthy : event.healthy = true) (level' : Nat) :
    History level' (tr ++ [event]) where
  since attempt delay hsince := by
    rcases Trace.since_concat.mp hsince with rfl | ⟨-, hnot⟩
    · exact absurd hhealthy Bool.false_ne_true
    · exact absurd hhealthy hnot
  climbs := by
    refine Trace.always_concat.mpr ⟨h.climbs, ?_⟩
    rintro attempt delay _ _ rfl
    exact absurd hhealthy Bool.false_ne_true
  apart := by
    refine Trace.always_concat.mpr ⟨h.apart, ?_⟩
    rintro rfl
    exact absurd hhealthy Bool.false_ne_true
  onDisconnect := by
    refine Trace.always_concat.mpr ⟨h.onDisconnect, ?_⟩
    rintro rfl
    exact absurd hhealthy Bool.false_ne_true

theorem History.slept (h : History attempt tr) (delay : Nat) : History attempt (tr ++ [.slept attempt delay]) where
  since attempt' delay' hsince := by
    rcases Trace.since_concat.mp hsince with heq | ⟨hold, -⟩
    · cases heq
      exact le_rfl
    · exact h.since attempt' delay' hold
  climbs := by
    refine Trace.always_concat.mpr ⟨h.climbs, ?_⟩
    rintro _ _ attempt' delay' ⟨⟩ hold
    exact reconnectBaseSecs_mono (h.since attempt' delay' hold)
  apart := Trace.always_concat.mpr ⟨h.apart, nofun⟩
  onDisconnect := Trace.always_concat.mpr ⟨h.onDisconnect, nofun⟩

/-- The end of a connection, with the counter as the loop sets it after. -/
theorem History.ended (h : History level tr) (hslept : ∀ attempt delay, event ≠ .slept attempt delay)
    (hopens : event ≠ .opens) (hrefused : event ≠ .replacementRefused) :
    History (event.resets level) (tr ++ [event]) := by
  unfold SocketEvent.resets
  by_cases hhealthy : event.healthy = true
  · rw [if_pos hhealthy]
    exact h.reset hhealthy 0
  · rw [if_neg hhealthy]
    exact h.concat hslept (fun heq => absurd heq hopens) fun heq => absurd heq hrefused

theorem History.opens (h : History level tr) (hstop : ¬ Trace.Since (fun x => x.Waits ∨ x.Recycled) tr .opens) :
    History level (tr ++ [.attempt, .opens]) := by
  have hattempt : History level (tr ++ [.attempt]) := h.concat nofun nofun nofun
  have hopens : History level (tr ++ [.attempt] ++ [.opens]) := by
    refine hattempt.concat nofun (fun _ => ?_) nofun
    rw [Trace.since_concat]
    rintro (heq | ⟨hold, -⟩)
    · cases heq
    · exact hstop hold
  rwa [List.append_assoc] at hopens

end Events

/-- What every step keeps. -/
structure Paced (p : SocketLoop × List SocketEvent) : Prop where
  small : p.1.attempt ≤ u32Max
  nap : ∀ attempt delay, p.1.phase = .sleeping attempt delay →
    attempt ≤ p.1.attempt ∧ (SocketEvent.slept attempt delay).Waits
  announced : ∀ uptime, p.1.phase = .recycling uptime → ∃ before, p.2 = before ++ [.disconnect, .opens]
  history : History p.1.level p.2

theorem Paced.of_unannounced {s : SocketLoop} {tr : List SocketEvent} (hs : s.phase.Unannounced)
    (hsmall : s.attempt ≤ u32Max) (h : History s.attempt tr) : Paced (s, tr) where
  small := hsmall
  nap attempt delay hphase := by
    rw [hphase] at hs
    exact hs.elim
  announced uptime hphase := by
    rw [hphase] at hs
    exact hs.elim
  history := by
    rw [← level_awake hs.awake] at h
    exact h

theorem resets_le (event : SocketEvent) (attempt : Nat) : event.resets attempt ≤ attempt := by
  unfold SocketEvent.resets
  split_ifs
  · exact attempt.zero_le
  · exact le_rfl

section Turns
variable {s : SocketLoop} {tr : List SocketEvent}

theorem Paced.recycling (hp : Paced (s, tr)) (hs : s.phase.Awake) (uptime : Nat) :
    Paced (⟨s.attempt, .recycling uptime⟩, tr ++ [.disconnect, .opens]) := by
  have hhistory := hp.history
  rw [level_awake hs] at hhistory
  have hdisconnect : History s.attempt (tr ++ [.disconnect]) := hhistory.concat nofun nofun nofun
  have hopens : History s.attempt (tr ++ [.disconnect] ++ [.opens]) := by
    refine hdisconnect.concat nofun (fun _ => ?_) nofun
    rw [Trace.since_concat]
    rintro (heq | ⟨-, hnot⟩)
    · cases heq
    · exact hnot (.inr trivial)
  rw [List.append_assoc] at hopens
  exact ⟨hp.small, nofun, fun _ _ => ⟨tr, rfl⟩, hopens⟩

theorem Paced.fails {event : SocketEvent} (hp : Paced (s, tr)) (hs : s.phase.Awake) (hevent : event.Failed)
    (jitter : ℚ) : Paced (backOff (event.resets s.attempt) jitter, tr ++ [event]) := by
  have hhistory := hp.history
  rw [level_awake hs] at hhistory
  have hended : History (event.resets s.attempt) (tr ++ [event]) := by
    refine hhistory.ended ?_ ?_ ?_
    · rintro attempt delay rfl
      exact hevent
    · rintro rfl
      exact hevent
    · rintro rfl
      exact hevent
  refine ⟨saturatingSucc_le _, ?_, nofun, hended⟩
  rintro attempt delay ⟨⟩
  exact ⟨le_saturatingSucc ((resets_le event s.attempt).trans hp.small), reconnectDelayJittered_bounded _ _⟩

theorem Paced.reopens {announced : Nat} (hp : Paced (s, tr)) (hs : s.phase = .recycling announced) (uptime : Nat) :
    Paced (⟨SocketEvent.resets (.closed uptime (.recycle none)) s.attempt, .opening⟩,
      tr ++ [.replacementRefused, .closed uptime (.recycle none), .attempt, .opens]) := by
  have hhistory := hp.history
  have hawake : s.phase.Awake := hs ▸ trivial
  rw [level_awake hawake] at hhistory
  have hrefused : History s.attempt (tr ++ [.replacementRefused]) :=
    hhistory.concat nofun nofun fun _ => hp.announced announced hs
  have hclosed : History (SocketEvent.resets (.closed uptime (.recycle none)) s.attempt)
      (tr ++ [.replacementRefused] ++ [.closed uptime (.recycle none)]) := hrefused.ended nofun nofun nofun
  have hstop : ¬ Trace.Since (fun x => x.Waits ∨ x.Recycled)
      (tr ++ [.replacementRefused] ++ [.closed uptime (.recycle none)]) .opens := by
    rw [Trace.since_concat, Trace.since_concat]
    rintro (heq | ⟨heq | ⟨-, hnot⟩, -⟩)
    · cases heq
    · cases heq
    · exact hnot (.inr trivial)
  have hopens := hclosed.opens hstop
  rw [List.append_assoc, List.append_assoc] at hopens
  exact .of_unannounced trivial ((resets_le _ _).trans hp.small) hopens

theorem Paced.turn {jitter : ℚ} {r : SocketLoop × List SocketEvent} (hp : Paced (s, tr)) (h : Turn s jitter r) :
    Paced (r.1, tr ++ r.2) := by
  have hhistory := hp.history
  cases h with
  | stays =>
    rw [List.append_nil]
    exact hp
  | goesOn hs h =>
    rw [level_awake hs] at hhistory
    rw [List.append_nil]
    exact .of_unannounced h hp.small hhistory
  | acks hs uptime ack =>
    rw [level_awake hs] at hhistory
    exact .of_unannounced trivial hp.small (hhistory.concat nofun nofun nofun)
  | recycling hs uptime => exact hp.recycling hs uptime
  | fails hs event h => exact hp.fails hs h jitter
  | replaces hs uptime url h =>
    subst h
    have hawake : s.phase.Awake := hs ▸ trivial
    rw [level_awake hawake] at hhistory
    have hclosed : History (SocketEvent.resets (.closed uptime (.recycle (some url))) s.attempt)
        (tr ++ [.closed uptime (.recycle (some url))]) := hhistory.ended nofun nofun nofun
    have hattempt : History _ (tr ++ [.closed uptime (.recycle (some url))] ++ [.attempt]) :=
      hclosed.concat nofun nofun nofun
    rw [List.append_assoc] at hattempt
    exact .of_unannounced trivial ((resets_le _ _).trans hp.small) hattempt
  | reopens hs uptime h =>
    subst h
    exact hp.reopens hs uptime
  | @wakes attempt delay hs =>
    obtain ⟨hle, hwaits⟩ := hp.nap attempt delay hs
    rw [level, hs] at hhistory
    have hstop : ¬ Trace.Since (fun x => x.Waits ∨ x.Recycled) (tr ++ [.slept attempt delay]) .opens := by
      rw [Trace.since_concat]
      rintro (heq | ⟨-, hnot⟩)
      · cases heq
      · exact hnot (.inl hwaits)
    have hopens := (hhistory.slept delay).opens hstop
    rw [List.append_assoc] at hopens
    exact .of_unannounced trivial hp.small (hopens.mono hle)

end Turns

theorem runSocketMode_paced (moments : List SocketMoment) : Paced (runSocketMode decode respond moments) := by
  refine Run.exec_invariant (fun p m hp => hp.turn (turn_step p.1 m)) ?_ moments
  have hempty : History 0 [] :=
    ⟨fun _ _ h => absurd h Trace.not_since_nil, Trace.always_nil, Trace.always_nil, Trace.always_nil⟩
  exact .of_unannounced trivial (Nat.zero_le _) (hempty.opens Trace.not_since_nil)

end SocketLoop

/-- Whatever Slack does: after a connection that was refused, failed its handshake or died, the loop sleeps within
the bounds; the base of the sleeps falls only after a healthy connection; and `apps.connections.open` is called
again only after such a sleep, on a disconnect frame, or once more where the call on that frame was refused. -/
theorem reconnects_paced (decode : Text → Option SocketModeEnvelope) (respond : SocketModeEnvelope → Option Json)
    (moments : List SocketMoment) :
    let tr := (runSocketMode decode respond moments).2
    BacksOff SocketEvent.Failed tr ∧ Climbs tr ∧ OpensApart tr ∧ RefusedOnDisconnect tr ∧ RecyclesAtOnce tr := by
  have hchain := @SocketLoop.runSocketMode_isChain decode respond moments
  have hpaced := @SocketLoop.runSocketMode_paced decode respond moments
  exact ⟨backsOff_of_isChain hchain, hpaced.history.climbs, hpaced.history.apart, hpaced.history.onDisconnect,
    recyclesAtOnce_of_isChain hchain⟩

/-- The ends of a connection that count as failures if the cause is not looked at. -/
def SocketEvent.ShortLived : SocketEvent → Prop
  | .refused | .handshakeFailed | .replacementRefused => True
  | .closed uptime _ => uptime < socketModeHealthyAfter
  | _ => False

def disconnectFrame : Text := "\x7b\"type\":\"disconnect\"\x7d".toList

def readDisconnect (text : Text) : Option SocketModeEnvelope :=
  if text = disconnectFrame then some ⟨"disconnect".toList, none, .null⟩ else none

/-- Slack accepts a connection and announces its end at once. -/
def recyclingMoments : List SocketMoment := [
  ⟨0, 0, .connected true⟩,
  ⟨0, 0, .received (some (.text disconnectFrame)) 0 true⟩,
  ⟨0, 0, .opened (.answered (some ⟨true, some "wss://slack".toList⟩))⟩]

def recyclingRun : List SocketEvent :=
  (runSocketMode readDisconnect (fun _ => none) (
    ⟨0, 0, .opened (.answered (some ⟨true, some "wss://slack".toList⟩))⟩ ::
      recyclingMoments ++ recyclingMoments)).2

/-- Three calls of `apps.connections.open` in no time, without a sleep. -/
theorem recycle_bypasses_backOff :
    ¬ BacksOff SocketEvent.ShortLived recyclingRun ∧
      recyclingRun = [
        .attempt, .opens, .disconnect, .opens, .closed 0 (.recycle (some "wss://slack".toList)),
        .attempt, .disconnect, .opens, .closed 0 (.recycle (some "wss://slack".toList)), .attempt] := by
  have hrun : recyclingRun = [.attempt, .opens, .disconnect, .opens] ++
      [.closed 0 (.recycle (some "wss://slack".toList))] ++
      [.attempt, .disconnect, .opens, .closed 0 (.recycle (some "wss://slack".toList)), .attempt] := rfl
  have hshort : (SocketEvent.closed 0 (.recycle (some "wss://slack".toList))).ShortLived := by
    unfold SocketEvent.ShortLived socketModeHealthyAfter fromSecs
    decide
  refine ⟨fun h => ?_, rfl⟩
  obtain ⟨nap, hnap, -⟩ := h _ _ _ hrun rfl _ _ _ rfl hshort List.not_mem_nil
  cases hnap

end AgentBridge.Slack
