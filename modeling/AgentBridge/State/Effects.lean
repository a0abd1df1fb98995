import AgentBridge.State.Channels

/-! What each channel operation can do to the state, said once, and what it leaves
alone. -/

namespace AgentBridge
open State

section Join
variable (s : AppState) (now : Now) (slug key : Text) (role : MemberRole)

/-- A join fails and changes nothing, sees a member again, or seats a new one. -/
inductive JoinEffect : BridgeResult JoinOutcome × AppState → Prop
  | refused (e : BridgeError) : JoinEffect (.error e, s)
  | seen {ch : ChannelState} {m : Member} {out : JoinOutcome} (hch : s.channels.get slug = some ch)
      (hm : ch.members.get (Text.trim key) = some m) :
      JoinEffect (.ok out, s.setChannel slug (AppState.touch ch now (Text.trim key) m))
  | seated {ch : ChannelState} {out : JoinOutcome} (hch : s.channels.get slug = some ch)
      (hm : ch.members.get (Text.trim key) = none) :
      JoinEffect (.ok out, s.setChannel slug (AppState.seat ch now (Text.trim key) role))

theorem join_effect : JoinEffect s now slug key role (s.join now slug key role) := by
  unfold AppState.join
  dsimp only
  cases AppState.joinChecks (Text.trim key) with
  | error e => exact .refused e
  | ok u =>
    cases hch : s.channels.get slug with
    | none => exact .refused _
    | some ch =>
      dsimp only
      cases hm : ch.members.get (Text.trim key) with
      | some m => exact .seen hch hm
      | none =>
        dsimp only
        split_ifs
        · exact .refused _
        · exact .seated hch hm

end Join

section Post
variable (s : AppState) (now : Now) (newId slug sender : Text) (role : Role) (content : Text)
  (metadata : Json)

/-- A post fails and changes nothing, or appends one message after the join it implies. -/
inductive PostEffect : BridgeResult Message × AppState → Prop
  | refused (e : BridgeError) : PostEffect (.error e, s)
  | posted {s₁ : AppState} {ch : ChannelState} {out : JoinOutcome}
      (hjoin : s.join now slug (Text.trim sender) .member = (.ok out, s₁))
      (hch : s₁.channels.get slug = some ch) :
      PostEffect (.ok (AppState.newMessage ch now newId (Text.trim sender) role content metadata),
        s₁.setChannel slug (AppState.append ch now s₁.config.maxChannelHistoryBytes
          (AppState.newMessage ch now newId (Text.trim sender) role content metadata)))

theorem post_effect : PostEffect s now newId slug sender role content metadata
    (s.postMessage now newId slug sender role content metadata) := by
  unfold AppState.postMessage
  dsimp only
  cases s.postChecks (Text.trim sender) content metadata with
  | error e => exact .refused e
  | ok u =>
    have heff := join_effect s now slug (Text.trim sender) .member
    rcases hjoin : s.join now slug (Text.trim sender) .member with ⟨r, s₁⟩
    rw [hjoin] at heff
    dsimp only
    cases r with
    | error e =>
      cases heff
      exact .refused e
    | ok out =>
      have hsome : ∃ ch, s₁.channels.get slug = some ch := by
        cases heff <;> exact ⟨_, Table.get_insert_self _ _ _⟩
      obtain ⟨ch, hch⟩ := hsome
      simp only [hch]
      exact .posted hjoin hch

end Post

section Create
variable (s : AppState) (now : Now) (slug : Text)

/-- Creating a channel leaves the state alone, or adds an empty one where none was. -/
inductive CreateEffect : AppState → Prop
  | same : CreateEffect s
  | created (topic createdBy : Text) (embedding : List Float32) (model : Text)
      (hnone : s.channels.get slug = none) :
      CreateEffect (s.setChannel slug (s.newChannel now slug topic createdBy embedding model))

theorem insertChannel_effect (topic createdBy : Text) (embedding : List Float32) (model : Text) :
    CreateEffect s now slug (s.insertChannel now slug topic createdBy embedding model).2 := by
  unfold AppState.insertChannel
  dsimp only
  cases hch : s.channels.get slug with
  | some ch => exact .same
  | none =>
    dsimp only
    split_ifs
    all_goals first | exact .same | exact .created _ _ _ _ hch

theorem createOrGetChannel_effect (w : Surroundings) (topic createdBy : Text) :
    CreateEffect s now (slugify w slug) (s.createOrGetChannel w now slug topic createdBy).2 := by
  unfold AppState.createOrGetChannel
  dsimp only
  by_cases hempty : slugify w slug = []
  · rw [if_pos hempty]
    exact .same
  · rw [if_neg hempty]
    cases hch : s.channels.get (slugify w slug) with
    | some ch => exact .same
    | none => exact insertChannel_effect ..

end Create

section Context

@[simp] theorem touch_context (ch : ChannelState) (now : Now) (key : Text) (m : Member) :
    (AppState.touch ch now key m).context = ch.context := rfl

@[simp] theorem seat_context (ch : ChannelState) (now : Now) (key : Text) (role : MemberRole) :
    (AppState.seat ch now key role).context = ch.context := rfl

@[simp] theorem append_context (ch : ChannelState) (now : Now) (budget : Nat) (m : Message) :
    (AppState.append ch now budget m).context = ch.context := rfl

variable {s : AppState} {now : Now} {slug key : Text}

theorem entry_of_channels {s' : AppState} (h : s'.channels = s.channels) (c k : Text) :
    s'.entry c k = s.entry c k := by
  rw [AppState.entry, h]
  rfl

theorem registerAgent_channels (s : AppState) (now : Now) (agent : Agent) :
    (s.registerAgent now agent).2.channels = s.channels := by
  unfold AppState.registerAgent
  dsimp only
  split_ifs <;> rfl

theorem entry_setChannel_same {ch ch' : ChannelState} (hch : s.channels.get slug = some ch)
    (hc : ch'.context = ch.context) (c k : Text) : (s.setChannel slug ch').entry c k = s.entry c k := by
  rw [entry_setChannel]
  split_ifs with h
  · rw [h, hc, entry_of_channel hch]
  · rfl

theorem JoinEffect.entry {role : MemberRole} {r : BridgeResult JoinOutcome × AppState}
    (h : JoinEffect s now slug key role r) (c k : Text) : r.2.entry c k = s.entry c k := by
  cases h with
  | refused e => rfl
  | seen hch hm => exact entry_setChannel_same hch (touch_context _ _ _ _) c k
  | seated hch hm => exact entry_setChannel_same hch (seat_context _ _ _ _) c k

theorem PostEffect.entry {newId sender content : Text} {role : Role} {metadata : Json}
    {r : BridgeResult Message × AppState} (h : PostEffect s now newId slug sender role content metadata r)
    (c k : Text) : r.2.entry c k = s.entry c k := by
  cases h with
  | refused e => rfl
  | posted hjoin hch =>
    have heff := join_effect s now slug (Text.trim sender) .member
    rw [hjoin] at heff
    exact (entry_setChannel_same hch (append_context _ _ _ _) c k).trans (heff.entry c k)

theorem CreateEffect.entry {s' : AppState} (h : CreateEffect s now slug s') (c k : Text) :
    s'.entry c k = s.entry c k := by
  cases h with
  | same => rfl
  | created topic createdBy embedding model hnone =>
    rw [entry_setChannel]
    split_ifs with hc
    · rw [hc, AppState.entry, hnone]
      rfl
    · rfl

theorem JoinEffect.agents {role : MemberRole} {r : BridgeResult JoinOutcome × AppState}
    (h : JoinEffect s now slug key role r) : r.2.agents = s.agents := by
  cases h <;> rfl

theorem PostEffect.agents {newId sender content : Text} {role : Role} {metadata : Json}
    {r : BridgeResult Message × AppState} (h : PostEffect s now newId slug sender role content metadata r) :
    r.2.agents = s.agents := by
  cases h with
  | refused e => rfl
  | posted hjoin hch =>
    have heff := join_effect s now slug (Text.trim sender) .member
    rw [hjoin] at heff
    exact heff.agents

theorem CreateEffect.agents {s' : AppState} (h : CreateEffect s now slug s') : s'.agents = s.agents := by
  cases h <;> rfl

end Context
end AgentBridge
