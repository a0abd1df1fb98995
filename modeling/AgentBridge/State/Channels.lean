import AgentBridge.State.Context

/-! Channels: creation and routing by topic, membership, messages with bounded
history, and subscriptions. -/

namespace AgentBridge

/-- The parts of the environment that channel operations read: the Unicode tables
of the standard library and the embedding service. -/
structure Surroundings where
  toLowercase : Text → Text
  isAlphanumeric : Char → Bool
  embed : Text → List Float32 × Text

structure ScoredChannel where
  channel : Channel
  score : Float32

structure ResolveOutcome where
  channel : Channel
  score : Float32
  created : Bool

structure JoinOutcome where
  member : Member
  channel : Channel
  newlyJoined : Bool

namespace State

def maxMembers : Nat := 32
def maxTopicBytes : Nat := 8192

/-- The character loop of `slugify`; `out` is reversed. -/
def slugChars (isAlphanumeric : Char → Bool) : Bool → Text → Text → Text
  | _, out, [] => out
  | lastDash, out, c :: cs =>
    if isAlphanumeric c then slugChars isAlphanumeric false (c :: out) cs
    else if !lastDash && !out.isEmpty then slugChars isAlphanumeric true ('-' :: out) cs
    else slugChars isAlphanumeric lastDash out cs

def slugify (w : Surroundings) (text : Text) : Text :=
  let out := Text.trimEndMatches '-'
    (slugChars w.isAlphanumeric false [] (w.toLowercase (Text.trim text))).reverse
  if Text.byteLen out > 96 then Text.trimEndMatches '-' (Text.truncateBytes 96 out) else out

def cosine (a b : List Float32) : Float32 :=
  let pairs := a.zip b
  if pairs.isEmpty then 0
  else
    let dot := pairs.foldl (fun acc p => acc + p.1 * p.2) 0
    let na := pairs.foldl (fun acc p => acc + p.1 * p.1) 0
    let nb := pairs.foldl (fun acc p => acc + p.2 * p.2) 0
    if na == 0 || nb == 0 then 0 else dot / (na.sqrt * nb.sqrt)

/-- `max_by` on scores with incomparable scores taken as equal: the last of the greatest. -/
def bestScored : List (Text × Float32) → Option (Text × Float32)
  | [] => none
  | p :: ps => some (ps.foldl (fun best q => if q.2 < best.2 then best else q) p)

def messageRetainedBytes (m : Message) : Nat := Text.byteLen m.content + m.metadata.bytes

/-- Oldest messages go first, by count and by retained bytes; one always stays. -/
def evict (historyLimit budget : Nat) : List Message → Nat → List Message × Nat
  | [], bytes => ([], bytes)
  | m :: ms, bytes =>
    if historyLimit < (m :: ms).length ∨ (budget < bytes ∧ 1 < (m :: ms).length) then
      evict historyLimit budget ms (bytes - messageRetainedBytes m)
    else (m :: ms, bytes)

end State

open State

namespace AppState

def listAgents (s : AppState) : List Agent := s.agents.values

def listChannels (s : AppState) : List Channel :=
  (s.channels.values.map ChannelState.toPublic).insertionSort fun a b => a.slug ≤ b.slug

def getChannel (s : AppState) (slug : Text) : BridgeResult Channel :=
  match s.channels.get slug with
  | none => .error (.channelNotFound slug)
  | some ch => .ok ch.toPublic

def newChannel (s : AppState) (now : Now) (slug topic createdBy : Text) (embedding : List Float32)
    (embeddingModel : Text) : ChannelState where
  slug := slug
  topic := topic
  topicSummary := none
  embedding := embedding
  embeddingModel := embeddingModel
  createdBy := createdBy
  createdAt := now.ts
  metadata := .obj []
  members := .empty
  messages := []
  historyBytes := 0
  nextSeq := 1
  messageCount := 0
  context := .empty
  events := []
  historyLimit := s.config.historyLimit

def insertChannel (s : AppState) (now : Now) (slug topic createdBy : Text) (embedding : List Float32)
    (embeddingModel : Text) : BridgeResult (Channel × Bool) × AppState :=
  let topic := Text.truncateBytes maxTopicBytes topic
  let createdBy := if Text.trim createdBy = [] then "system".toList else Text.trim createdBy
  let createdBy := Text.truncateBytes maxKeyBytes createdBy
  match s.channels.get slug with
  | some existing => (.ok (existing.toPublic, false), s)
  | none =>
    if s.channels.size ≥ s.config.maxChannels then
      (.error (.capacityExceeded "channels".toList s.config.maxChannels), s)
    else
      let ch := s.newChannel now slug topic createdBy embedding embeddingModel
      (.ok (ch.toPublic, true), s.setChannel slug ch)

def createOrGetChannel (s : AppState) (w : Surroundings) (now : Now) (slug topic createdBy : Text) :
    BridgeResult Channel × AppState :=
  let slug := slugify w slug
  if slug = [] then (.error (.badRequest "slug is required".toList), s)
  else match s.channels.get slug with
  | some ch => (.ok ch.toPublic, s)
  | none =>
    let topic := if Text.trim topic = [] then slug.map (fun c => if c = '-' then ' ' else c) else topic
    let (embedding, model) := w.embed topic
    let (r, s) := s.insertChannel now slug topic createdBy embedding model
    (r.map Prod.fst, s)

def searchChannels (s : AppState) (w : Surroundings) (query : Text) (limit : Nat) : List ScoredChannel :=
  let qvec := (w.embed query).1
  let scored := s.channels.values.map fun c =>
    { channel := c.toPublic, score := cosine qvec c.embedding : ScoredChannel }
  (scored.insertionSort fun a b => ¬ a.score < b.score).take (max limit 1)

/-- `unique_slug`: the base, a numbered variant, or one with a fresh suffix. -/
def uniqueSlug (s : AppState) (topicId suffixId base : Text) : Text :=
  let base := if base = [] then "topic-".toList ++ topicId.take 8 else base
  if !s.channels.contains base then base
  else
    let candidates := (List.range 998).map fun n => base ++ "-".toList ++ Text.decimal (n + 2)
    (candidates.find? fun c => !s.channels.contains c).getD (base ++ "-".toList ++ suffixId.take 8)

/-- The threshold `resolve_channel` uses: finite and within [0, 1]. -/
def resolveThreshold (s : AppState) (threshold : Option Float32) : Float32 :=
  match threshold with
  | none => s.config.resolveThreshold
  | some t =>
    if t.isFinite then (if t < 0 then 0 else if 1 < t then 1 else t) else s.config.resolveThreshold

def resolveChannel (s : AppState) (w : Surroundings) (now : Now) (topicId suffixId query createdBy : Text)
    (threshold : Option Float32) : BridgeResult ResolveOutcome × AppState :=
  let query := Text.trim query
  if query = [] then (.error (.badRequest "query is required".toList), s)
  else
    let (qvec, model) := w.embed query
    let create :=
      let slug := s.uniqueSlug topicId suffixId (slugify w query)
      let (r, s) := s.insertChannel now slug query createdBy qvec model
      (r.map fun p => { channel := p.1, score := 0, created := p.2 : ResolveOutcome }, s)
    match bestScored (s.channels.values.map fun c => (c.slug, cosine qvec c.embedding)) with
    | none => create
    | some (slug, score) =>
      if s.resolveThreshold threshold ≤ score then
        ((s.getChannel slug).map fun ch => { channel := ch, score := score, created := false }, s)
      else create

def joinChecks (agentKey : Text) : BridgeResult Unit :=
  if agentKey = [] then .error (.badRequest "agent_key is required".toList)
  else if Text.byteLen agentKey > maxKeyBytes then
    .error (.payloadTooLarge "agent_key".toList maxKeyBytes)
  else .ok ()

/-- The room after a new member took a seat, with the presence event sent. -/
def seat (ch : ChannelState) (now : Now) (agentKey : Text) (role : MemberRole) : ChannelState :=
  let members := ch.members.insert agentKey
    { agentKey := agentKey, role := role, joinedAt := now.ts, lastSeenAt := now.ts }
  { ch with
    members := members
    events := ch.events ++ [.presence ch.slug agentKey .joined members.size now.ts] }

def touch (ch : ChannelState) (now : Now) (agentKey : Text) (member : Member) : ChannelState :=
  { ch with members := ch.members.insert agentKey { member with lastSeenAt := now.ts } }

def join (s : AppState) (now : Now) (slug agentKey : Text) (role : MemberRole) :
    BridgeResult JoinOutcome × AppState :=
  let agentKey := Text.trim agentKey
  match joinChecks agentKey with
  | .error e => (.error e, s)
  | .ok () =>
    match s.channels.get slug with
    | none => (.error (.channelNotFound slug), s)
    | some ch =>
      match ch.members.get agentKey with
      | some existing =>
        let ch := touch ch now agentKey existing
        (.ok { member := { existing with lastSeenAt := now.ts }, channel := ch.toPublic,
               newlyJoined := false }, s.setChannel slug ch)
      | none =>
        if ch.members.size ≥ maxMembers then
          (.error (.channelFull slug ch.members.size maxMembers (ch.members.size + 1)), s)
        else
          let member := { agentKey := agentKey, role := role, joinedAt := now.ts, lastSeenAt := now.ts }
          let ch := seat ch now agentKey role
          (.ok { member := member, channel := ch.toPublic, newlyJoined := true }, s.setChannel slug ch)

/-- The room after a member left. -/
def unseat (ch : ChannelState) (now : Now) (agentKey : Text) : ChannelState :=
  let members := ch.members.remove agentKey
  { ch with
    members := members
    events := ch.events ++ [.presence ch.slug agentKey .left members.size now.ts] }

def leave (s : AppState) (now : Now) (slug agentKey : Text) : BridgeResult Bool × AppState :=
  match s.channels.get slug with
  | none => (.error (.channelNotFound slug), s)
  | some ch =>
    if ch.members.contains agentKey then (.ok true, s.setChannel slug (unseat ch now agentKey))
    else (.ok false, s)

def members (s : AppState) (slug : Text) : BridgeResult (List Member) :=
  match s.channels.get slug with
  | none => .error (.channelNotFound slug)
  | some ch => .ok (ch.members.values.insertionSort fun a b =>
      if a.joinedAt ≠ b.joinedAt then a.joinedAt < b.joinedAt else a.agentKey ≤ b.agentKey)

def isMember (s : AppState) (slug agentKey : Text) : Bool :=
  (s.channels.get slug).any fun ch => ch.members.contains agentKey

def postChecks (s : AppState) (sender content : Text) (metadata : Json) : BridgeResult Unit :=
  if sender = [] then .error (.badRequest "`from` (agent_key) is required".toList)
  else if Text.byteLen sender > maxKeyBytes then
    .error (.payloadTooLarge "agent_key".toList maxKeyBytes)
  else if content = [] then .error (.badRequest "`content` is required".toList)
  else if Text.byteLen content > s.config.maxContentBytes then
    .error (.payloadTooLarge "message content".toList s.config.maxContentBytes)
  else if metadata.bytes > s.config.maxContentBytes then
    .error (.payloadTooLarge "message meta".toList s.config.maxContentBytes)
  else .ok ()

def newMessage (ch : ChannelState) (now : Now) (newId sender : Text) (role : Role) (content : Text)
    (metadata : Json) : Message where
  id := newId
  channel := ch.slug
  seq := ch.nextSeq
  sender := sender
  role := role
  content := content
  metadata := metadata
  createdAt := now.ts

/-- The room after a message was appended and old ones were evicted. -/
def append (ch : ChannelState) (now : Now) (budget : Nat) (message : Message) : ChannelState :=
  let kept := evict ch.historyLimit budget (ch.messages ++ [message])
    (ch.historyBytes + messageRetainedBytes message)
  { ch with
    nextSeq := ch.nextSeq + 1
    messageCount := ch.messageCount + 1
    members := match ch.members.get message.sender with
      | some m => ch.members.insert message.sender { m with lastSeenAt := now.ts }
      | none => ch.members
    messages := kept.1
    historyBytes := kept.2
    events := ch.events ++ [.message message] }

def postMessage (s : AppState) (now : Now) (newId slug sender : Text) (role : Role) (content : Text)
    (metadata : Json) : BridgeResult Message × AppState :=
  let sender := Text.trim sender
  match s.postChecks sender content metadata with
  | .error e => (.error e, s)
  | .ok () =>
    match s.join now slug sender .member with
    | (.error e, s) => (.error e, s)
    | (.ok _, s) =>
      match s.channels.get slug with
      | none => (.error (.channelNotFound slug), s)
      | some ch =>
        let message := newMessage ch now newId sender role content metadata
        (.ok message, s.setChannel slug (append ch now s.config.maxChannelHistoryBytes message))

def history (s : AppState) (slug : Text) (since : Option Nat) : BridgeResult (List Message) :=
  match s.channels.get slug with
  | none => .error (.channelNotFound slug)
  | some ch => .ok (ch.messages.filter fun m => since.getD 0 < m.seq)

/-- A subscription: the number of events sent so far and the last sequence number. -/
def subscribe (s : AppState) (now : Now) (slug : Text) (agentKey : Option Text) :
    BridgeResult (Nat × Nat) × AppState :=
  let receiver (s : AppState) : BridgeResult (Nat × Nat) × AppState :=
    match s.channels.get slug with
    | none => (.error (.channelNotFound slug), s)
    | some ch => (.ok (ch.events.length, ch.nextSeq - 1), s)
  match agentKey.filter (fun k => Text.trim k ≠ []) with
  | none => receiver s
  | some key =>
    match s.join now slug key .member with
    | (.error e, s) => (.error e, s)
    | (.ok _, s) => receiver s

end AppState
end AgentBridge
