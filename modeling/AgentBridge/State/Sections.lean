import AgentBridge.Base.Run
import AgentBridge.State.Effects

/-! The channel operations at the granularity of the write lock: what one critical
section makes of the channel it touches, and runs in which the sections of concurrent
calls interleave. -/

namespace AgentBridge
open State

/-- What one critical section makes of a channel, or puts where there was none. -/
inductive ChannelMove (s : AppState) (slug : Text) : Option ChannelState → ChannelState → Prop
  | created (now : Now) (topic createdBy : Text) (embedding : List Float32) (model : Text) :
      ChannelMove s slug none (s.newChannel now slug topic createdBy embedding model)
  | touched {ch : ChannelState} {m : Member} (now : Now) {key : Text} (hm : ch.members.get key = some m) :
      ChannelMove s slug (some ch) (AppState.touch ch now key m)
  | seated {ch : ChannelState} (now : Now) {key : Text} (role : MemberRole)
      (hm : ch.members.get key = none) (hroom : ch.members.size < maxMembers) :
      ChannelMove s slug (some ch) (AppState.seat ch now key role)
  | unseated {ch : ChannelState} (now : Now) {key : Text} (hm : ch.members.contains key = true) :
      ChannelMove s slug (some ch) (AppState.unseat ch now key)
  | appended {ch : ChannelState} (now : Now) (newId sender : Text) (role : Role) (content : Text)
      (metadata : Json) : ChannelMove s slug (some ch)
        (AppState.append ch now s.config.maxChannelHistoryBytes
          (AppState.newMessage ch now newId sender role content metadata))
  | stored {ch : ChannelState} (entry : ContextEntry) : ChannelMove s slug (some ch) (ch.putContext entry)

/-- A critical section leaves the state alone or moves one channel. -/
inductive SectionEffect (s : AppState) (slug : Text) : AppState → Prop
  | same : SectionEffect s slug s
  | moved {ch : ChannelState} (h : ChannelMove s slug (s.channels.get slug) ch) :
      SectionEffect s slug (s.setChannel slug ch)

def Event.posted : Event → Option Message
  | .message m => some m
  | .presence .. => none

def ChannelState.posted (ch : ChannelState) : List Message := ch.events.filterMap Event.posted

/-- The event of an agent that took a seat. -/
def Event.Joins : Event → Prop
  | .presence _ _ .joined _ _ => True
  | _ => False

/-- The event of `key` giving up its seat. -/
def Event.Leaves (key : Text) : Event → Prop
  | .presence _ agentKey .left _ _ => agentKey = key
  | _ => False

/-- A critical section whose events all satisfy `E`. -/
inductive EmitEffect (E : Event → Prop) (s : AppState) (slug : Text) : AppState → Prop
  | same : EmitEffect E s slug s
  | moved {ch : ChannelState} (h : ChannelMove s slug (s.channels.get slug) ch) (es : List Event)
      (hevents : ch.events = (s.channels.get slug).elim [] ChannelState.events ++ es) (hes : ∀ e ∈ es, E e) :
      EmitEffect E s slug (s.setChannel slug ch)

theorem EmitEffect.effect {E : Event → Prop} {s s' : AppState} {slug : Text} (h : EmitEffect E s slug s') :
    SectionEffect s slug s' := by
  cases h with
  | same => exact .same
  | moved h _ _ _ => exact .moved h

section Emits
variable {E : Event → Prop} {s : AppState} {slug : Text} {old ch : ChannelState}

theorem EmitEffect.silent (hold : s.channels.get slug = some old) (h : ChannelMove s slug (some old) ch)
    (hevents : ch.events = old.events) : EmitEffect E s slug (s.setChannel slug ch) := by
  refine .moved (hold ▸ h) [] ?_ (List.forall_mem_nil _)
  rw [hold, hevents]
  exact (List.append_nil _).symm

theorem EmitEffect.sent (hold : s.channels.get slug = some old) (h : ChannelMove s slug (some old) ch)
    {e : Event} (hevents : ch.events = old.events ++ [e]) (he : E e) :
    EmitEffect E s slug (s.setChannel slug ch) := by
  refine .moved (hold ▸ h) [e] ?_ (List.forall_mem_singleton.mpr he)
  rw [hold, hevents]
  rfl

end Emits

/-- The second critical section of `post_message`. -/
def AppState.appendMessage (s : AppState) (now : Now) (newId slug sender : Text) (role : Role)
    (content : Text) (metadata : Json) : BridgeResult Message × AppState :=
  match s.channels.get slug with
  | none => (.error (.channelNotFound slug), s)
  | some ch =>
    let message := newMessage ch now newId sender role content metadata
    (.ok message, s.setChannel slug (append ch now s.config.maxChannelHistoryBytes message))

section Posted
variable (ch : ChannelState) (now : Now)

theorem posted_touch (key : Text) (m : Member) : (AppState.touch ch now key m).posted = ch.posted := rfl

theorem posted_seat (key : Text) (role : MemberRole) : (AppState.seat ch now key role).posted = ch.posted := by
  simp [ChannelState.posted, AppState.seat, Event.posted]

theorem posted_unseat (key : Text) : (AppState.unseat ch now key).posted = ch.posted := by
  simp [ChannelState.posted, AppState.unseat, Event.posted]

theorem posted_append (budget : Nat) (m : Message) :
    (AppState.append ch now budget m).posted = ch.posted ++ [m] := by
  simp [ChannelState.posted, AppState.append, Event.posted]

end Posted

section Effects
variable (s : AppState) (now : Now) (slug : Text)

theorem postMessage_eq (newId sender : Text) (role : Role) (content : Text) (metadata : Json) :
    s.postMessage now newId slug sender role content metadata =
      match s.postChecks (Text.trim sender) content metadata with
      | .error e => (.error e, s)
      | .ok () =>
        match s.join now slug (Text.trim sender) .member with
        | (.error e, s) => (.error e, s)
        | (.ok _, s) => s.appendMessage now newId slug (Text.trim sender) role content metadata := rfl

theorem insertChannel_emits (topic createdBy : Text) (embedding : List Float32) (model : Text) :
    EmitEffect Event.Joins s slug (s.insertChannel now slug topic createdBy embedding model).2 := by
  have h := insertChannel_effect s now slug topic createdBy embedding model
  generalize (s.insertChannel now slug topic createdBy embedding model).2 = s' at h ⊢
  cases h with
  | same => exact .same
  | created topic createdBy embedding model hnone =>
    have hmove : ChannelMove s slug (s.channels.get slug) (s.newChannel now slug topic createdBy embedding model) := by
      rw [hnone]
      exact .created now topic createdBy embedding model
    have hevents : [] = (s.channels.get slug).elim [] ChannelState.events ++ [] := by
      rw [hnone]
      rfl
    exact .moved hmove [] hevents (List.forall_mem_nil _)


theorem join_emits (key : Text) (role : MemberRole) :
    EmitEffect Event.Joins s slug (s.join now slug key role).2 := by
  unfold AppState.join
  dsimp only
  cases AppState.joinChecks (Text.trim key) with
  | error e => exact .same
  | ok u =>
    cases hch : s.channels.get slug with
    | none => exact .same
    | some ch =>
      dsimp only
      cases hm : ch.members.get (Text.trim key) with
      | some m =>
        exact .silent hch (.touched now hm) rfl
      | none =>
        dsimp only
        by_cases hfull : ch.members.size ≥ maxMembers
        · rw [if_pos hfull]
          exact .same
        · rw [if_neg hfull]
          exact .sent hch (.seated now role hm (Nat.not_le.mp hfull)) rfl trivial

theorem leave_emits (key : Text) : EmitEffect (Event.Leaves key) s slug (s.leave now slug key).2 := by
  unfold AppState.leave
  cases hch : s.channels.get slug with
  | none => exact .same
  | some ch =>
    dsimp only
    by_cases hm : ch.members.contains key = true
    · rw [if_pos hm]
      exact .sent hch (.unseated now hm) rfl rfl
    · rw [if_neg hm]
      exact .same

theorem appendMessage_emits (newId sender : Text) (role : Role) (content : Text) (metadata : Json) :
    EmitEffect (fun e => e.posted ≠ none) s slug
      (s.appendMessage now newId slug sender role content metadata).2 := by
  unfold AppState.appendMessage
  cases hch : s.channels.get slug with
  | none => exact .same
  | some ch =>
    exact .sent hch (.appended now newId sender role content metadata) rfl (Option.some_ne_none _)

theorem setContextInternal_emits (key : Text) (value : ContextValue) (updatedBy : Text) :
    EmitEffect Event.Joins s slug (s.setContextInternal now slug key value updatedBy).2 := by
  rcases setContextInternal_cases s now slug key value updatedBy with ⟨e, he⟩ | ⟨ch, hch, he⟩
  · rw [he]
    exact .same
  · rw [he]
    exact .silent hch (.stored _) rfl

theorem setContext_emits (key : Text) (value : Json) (updatedBy : Text) :
    EmitEffect Event.Joins s slug (s.setContext now slug key value updatedBy).2 := by
  unfold AppState.setContext
  by_cases hreserved : isReservedContextKey key = true
  · rw [if_pos hreserved]
    exact .same
  · rw [if_neg hreserved]
    exact setContextInternal_emits s now slug key (.json value) updatedBy

end Effects

/-- A `post_message` call between its two critical sections: it has joined and not yet appended. -/
structure PostCall where
  slug : Text
  sender : Text
  role : Role
  content : Text
  metadata : Json

structure ChannelWorld where
  state : AppState
  posts : List PostCall

/-- One critical section of a call. `insert` is that of both creating calls; `post` ends with the
join, `commit` is the append of the `i`-th post under way. -/
inductive ChannelAction
  | insert (now : Now) (slug topic createdBy : Text) (embedding : List Float32) (model : Text)
  | join (now : Now) (slug agentKey : Text) (role : MemberRole)
  | leave (now : Now) (slug agentKey : Text)
  | post (now : Now) (slug sender : Text) (role : Role) (content : Text) (metadata : Json)
  | commit (now : Now) (newId : Text) (i : Nat)
  | subscribe (now : Now) (slug : Text) (agentKey : Option Text)
  | setContext (now : Now) (slug key : Text) (value : Json) (updatedBy : Text)

namespace ChannelWorld

def init (config : Config) : ChannelWorld := ⟨AppState.new config, []⟩

/-- The first section of a post: the call goes on once it has joined. -/
def begin (w : ChannelWorld) (now : Now) (call : PostCall) : ChannelWorld :=
  match w.state.postChecks call.sender call.content call.metadata with
  | .error _ => w
  | .ok () =>
    match w.state.join now call.slug call.sender .member with
    | (.error _, s) => { w with state := s }
    | (.ok _, s) => ⟨s, w.posts ++ [call]⟩

def step (w : ChannelWorld) : ChannelAction → ChannelWorld
  | .insert now slug topic createdBy embedding model =>
    { w with state := (w.state.insertChannel now slug topic createdBy embedding model).2 }
  | .join now slug agentKey role => { w with state := (w.state.join now slug agentKey role).2 }
  | .leave now slug agentKey => { w with state := (w.state.leave now slug agentKey).2 }
  | .post now slug sender role content metadata =>
    w.begin now ⟨slug, Text.trim sender, role, content, metadata⟩
  | .commit now newId i =>
    match w.posts[i]? with
    | none => w
    | some call => ⟨(w.state.appendMessage now newId call.slug call.sender call.role call.content
        call.metadata).2, w.posts.eraseIdx i⟩
  | .subscribe now slug agentKey => { w with state := (w.state.subscribe now slug agentKey).2 }
  | .setContext now slug key value updatedBy =>
    { w with state := (w.state.setContext now slug key value updatedBy).2 }

abbrev run (config : Config) (as : List ChannelAction) : ChannelWorld := Run.exec step (init config) as

end ChannelWorld

section Steps

theorem subscribe_emits (s : AppState) (now : Now) (slug : Text) (agentKey : Option Text) :
    EmitEffect Event.Joins s slug (s.subscribe now slug agentKey).2 := by
  unfold AppState.subscribe
  dsimp only
  cases agentKey.filter (fun k => Text.trim k ≠ []) with
  | none =>
    dsimp only
    cases s.channels.get slug <;> exact .same
  | some key =>
    dsimp only
    have hjoin := join_emits s now slug key .member
    rcases h : s.join now slug key .member with ⟨r, s'⟩
    rw [h] at hjoin
    cases r with
    | error e => exact hjoin
    | ok out =>
      dsimp only
      cases s'.channels.get slug <;> exact hjoin

theorem begin_emits (w : ChannelWorld) (now : Now) (call : PostCall) :
    EmitEffect Event.Joins w.state call.slug (w.begin now call).state := by
  unfold ChannelWorld.begin
  cases w.state.postChecks call.sender call.content call.metadata with
  | error e => exact .same
  | ok u =>
    dsimp only
    have hjoin := join_emits w.state now call.slug call.sender .member
    rcases h : w.state.join now call.slug call.sender .member with ⟨r, s'⟩
    rw [h] at hjoin
    cases r with
    | error e => exact hjoin
    | ok out => exact hjoin

theorem leave_entry (s : AppState) (now : Now) (slug agentKey c k : Text) :
    (s.leave now slug agentKey).2.entry c k = s.entry c k := by
  unfold AppState.leave
  cases hch : s.channels.get slug with
  | none => rfl
  | some ch =>
    dsimp only
    split_ifs
    · refine entry_setChannel_same hch ?_ c k
      rfl
    · rfl

theorem subscribe_entry (s : AppState) (now : Now) (slug : Text) (agentKey : Option Text) (c k : Text) :
    (s.subscribe now slug agentKey).2.entry c k = s.entry c k := by
  unfold AppState.subscribe
  dsimp only
  cases agentKey.filter (fun k => Text.trim k ≠ []) with
  | none =>
    dsimp only
    cases s.channels.get slug <;> rfl
  | some key =>
    dsimp only
    have hjoin := (join_effect s now slug key .member).entry c k
    rcases h : s.join now slug key .member with ⟨r, s₁⟩
    rw [h] at hjoin
    cases r with
    | error e => exact hjoin
    | ok out =>
      dsimp only
      cases s₁.channels.get slug <;> exact hjoin

theorem begin_entry (w : ChannelWorld) (now : Now) (call : PostCall) (c k : Text) :
    (w.begin now call).state.entry c k = w.state.entry c k := by
  unfold ChannelWorld.begin
  cases w.state.postChecks call.sender call.content call.metadata with
  | error e => rfl
  | ok u =>
    dsimp only
    have hjoin := (join_effect w.state now call.slug call.sender .member).entry c k
    rcases h : w.state.join now call.slug call.sender .member with ⟨r, s₁⟩
    rw [h] at hjoin
    cases r <;> exact hjoin

theorem appendMessage_entry (s : AppState) (now : Now) (newId slug sender : Text) (role : Role) (content : Text)
    (metadata : Json) (c k : Text) :
    (s.appendMessage now newId slug sender role content metadata).2.entry c k = s.entry c k := by
  unfold AppState.appendMessage
  cases hch : s.channels.get slug with
  | none => rfl
  | some ch => exact entry_setChannel_same hch (append_context _ _ _ _) c k

theorem ChannelWorld.step_entry (w : ChannelWorld) {a : ChannelAction}
    (ha : ∀ now slug key value updatedBy, a ≠ .setContext now slug key value updatedBy) (c k : Text) :
    (w.step a).state.entry c k = w.state.entry c k := by
  cases a with
  | insert now slug topic createdBy embedding model =>
    exact (insertChannel_effect w.state now slug topic createdBy embedding model).entry c k
  | join now slug agentKey role => exact (join_effect w.state now slug agentKey role).entry c k
  | leave now slug agentKey => exact leave_entry w.state now slug agentKey c k
  | post now slug sender role content metadata => exact begin_entry w now _ c k
  | subscribe now slug agentKey => exact subscribe_entry w.state now slug agentKey c k
  | commit now newId i =>
    rw [ChannelWorld.step]
    cases w.posts[i]? with
    | none => rfl
    | some call => exact appendMessage_entry ..
  | setContext now slug key value updatedBy => exact absurd rfl (ha now slug key value updatedBy)

def ChannelWorld.target (w : ChannelWorld) : ChannelAction → Text
  | .insert _ slug .. | .join _ slug .. | .leave _ slug _ | .post _ slug .. | .subscribe _ slug _
  | .setContext _ slug .. => slug
  | .commit _ _ i => (w.posts[i]?).elim [] PostCall.slug

def ChannelAction.Sends : ChannelAction → Event → Prop
  | .commit .. => fun e => e.posted ≠ none
  | .leave _ _ agentKey => Event.Leaves agentKey
  | _ => Event.Joins

theorem posted_of_joins {e : Event} (h : e.Joins) : e.posted = none := by
  cases e with
  | message m => exact h.elim
  | presence channel agentKey event memberCount occurredAt => rfl

theorem posted_of_leaves {key : Text} {e : Event} (h : e.Leaves key) : e.posted = none := by
  cases e with
  | message m => exact h.elim
  | presence channel agentKey event memberCount occurredAt => rfl

theorem ChannelAction.quiet {a : ChannelAction} (ha : ∀ now newId i, a ≠ .commit now newId i) (e : Event)
    (h : a.Sends e) : e.posted = none := by
  cases a with
  | commit now newId i => exact absurd rfl (ha now newId i)
  | leave now slug agentKey => exact posted_of_leaves h
  | insert now slug topic createdBy embedding model => exact posted_of_joins h
  | join now slug agentKey role => exact posted_of_joins h
  | post now slug sender role content metadata => exact posted_of_joins h
  | subscribe now slug agentKey => exact posted_of_joins h
  | setContext now slug key value updatedBy => exact posted_of_joins h

theorem ChannelWorld.step_emits (w : ChannelWorld) (a : ChannelAction) :
    EmitEffect a.Sends w.state (w.target a) (w.step a).state := by
  cases a with
  | insert now slug topic createdBy embedding model => exact insertChannel_emits ..
  | join now slug agentKey role => exact join_emits ..
  | leave now slug agentKey => exact leave_emits ..
  | post now slug sender role content metadata => exact begin_emits w now ⟨slug, _, role, content, metadata⟩
  | commit now newId i =>
    rw [ChannelWorld.step, ChannelWorld.target]
    cases w.posts[i]? with
    | none => exact .same
    | some call => exact appendMessage_emits ..
  | subscribe now slug agentKey => exact subscribe_emits ..
  | setContext now slug key value updatedBy => exact setContext_emits ..

end Steps

section Invariants
variable {P : ChannelState → Prop} {s s' : AppState} {slug : Text}

theorem SectionEffect.config (h : SectionEffect s slug s') : s'.config = s.config := by
  cases h <;> rfl

theorem SectionEffect.frame (h : SectionEffect s slug s') {c : Text} (hc : c ≠ slug) :
    s'.channels.get c = s.channels.get c := by
  cases h with
  | same => rfl
  | moved _ => exact Table.get_insert_ne hc

theorem SectionEffect.channels (h : SectionEffect s slug s')
    (hmove : ∀ old ch, ChannelMove s slug old ch → (∀ ch', old = some ch' → P ch') → P ch)
    (hall : ∀ c ch, s.channels.get c = some ch → P ch) (c : Text) (ch : ChannelState)
    (hc : s'.channels.get c = some ch) : P ch := by
  cases h with
  | same => exact hall c ch hc
  | moved hm =>
    rw [AppState.setChannel, Table.get_insert] at hc
    by_cases heq : c = slug
    · rw [if_pos heq] at hc
      cases hc
      exact hmove _ _ hm fun ch' hch' => hall slug ch' hch'
    · rw [if_neg heq] at hc
      exact hall c ch hc

/-- The invariant rule: what every move keeps holds of every channel in every reachable state. -/
theorem ChannelWorld.run_channels {config : Config} {P : ChannelState → Prop}
    (hmove : ∀ s slug old ch, s.config = config → ChannelMove s slug old ch →
      (∀ ch', old = some ch' → P ch') → P ch) (as : List ChannelAction) (slug : Text) (ch : ChannelState)
    (h : (run config as).state.channels.get slug = some ch) : P ch := by
  have hrun : (run config as).state.config = config ∧
      ∀ c ch, (run config as).state.channels.get c = some ch → P ch := by
    refine Run.exec_invariant (P := fun w : ChannelWorld => w.state.config = config ∧
      ∀ c ch, w.state.channels.get c = some ch → P ch) ?_ ?_ as
    · intro w a hw
      have heffect := (w.step_emits a).effect
      refine ⟨heffect.config.trans hw.1, ?_⟩
      intro c ch hc
      exact heffect.channels (fun old ch hm => hmove w.state (w.target a) old ch hw.1 hm) hw.2 c ch hc
    · exact ⟨rfl, fun c ch hc => by cases hc⟩
  exact hrun.2 slug ch h

end Invariants
end AgentBridge
