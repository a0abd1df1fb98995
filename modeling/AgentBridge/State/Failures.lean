import AgentBridge.State.Sections

/-! Calls that fail: what they leave of the state. A failed call may have pruned expired
leases, and nothing else of it remains. -/

namespace AgentBridge
open State

inductive StateCall
  | registerAgent (now : Now) (agent : Agent)
  | createOrGetChannel (w : Surroundings) (now : Now) (slug topic createdBy : Text)
  | resolveChannel (w : Surroundings) (now : Now) (topicId suffixId query createdBy : Text)
      (threshold : Option Float32)
  | join (now : Now) (slug agentKey : Text) (role : MemberRole)
  | leave (now : Now) (slug agentKey : Text)
  | postMessage (now : Now) (newId slug sender : Text) (role : Role) (content : Text) (metadata : Json)
  | setContext (now : Now) (slug key : Text) (value : Json) (updatedBy : Text)
  | setContextInternal (now : Now) (slug key : Text) (value : ContextValue) (updatedBy : Text)
  | acquireFileLease (now : Now) (newId repository path agentKey : Text) (ttlMs : Nat) (recursive : Bool)
      (purpose : Text) (metadata : Json)
  | renewFileLease (now : Now) (leaseId agentKey : Text) (fencingToken ttlMs : Nat)
  | releaseFileLease (now : Now) (leaseId agentKey : Text) (fencingToken : Nat)

def failure {α : Type} (r : BridgeResult α × AppState) : Option BridgeError × AppState :=
  match r.1 with
  | .error e => (some e, r.2)
  | .ok _ => (none, r.2)

namespace StateCall

def perform (s : AppState) : StateCall → Option BridgeError × AppState
  | registerAgent now agent => failure (s.registerAgent now agent)
  | createOrGetChannel w now slug topic createdBy => failure (s.createOrGetChannel w now slug topic createdBy)
  | resolveChannel w now topicId suffixId query createdBy threshold =>
    failure (s.resolveChannel w now topicId suffixId query createdBy threshold)
  | join now slug agentKey role => failure (s.join now slug agentKey role)
  | leave now slug agentKey => failure (s.leave now slug agentKey)
  | postMessage now newId slug sender role content metadata =>
    failure (s.postMessage now newId slug sender role content metadata)
  | setContext now slug key value updatedBy => failure (s.setContext now slug key value updatedBy)
  | setContextInternal now slug key value updatedBy => failure (s.setContextInternal now slug key value updatedBy)
  | acquireFileLease now newId repository path agentKey ttlMs recursive purpose metadata =>
    failure (s.acquireFileLease now newId repository path agentKey ttlMs recursive purpose metadata)
  | renewFileLease now leaseId agentKey fencingToken ttlMs =>
    failure (s.renewFileLease now leaseId agentKey fencingToken ttlMs)
  | releaseFileLease now leaseId agentKey fencingToken =>
    failure (s.releaseFileLease now leaseId agentKey fencingToken)

/-- The instant at which the call prunes: only the lease calls do, each at its own instant. -/
def prunesAt : StateCall → Option Now
  | acquireFileLease now .. => some now
  | renewFileLease now .. => some now
  | releaseFileLease now .. => some now
  | _ => none

end StateCall

/-- `s'` is `s`, apart from the leases that have expired by the call's own instant, when it prunes. -/
def Intact (call : StateCall) (s s' : AppState) : Prop :=
  s' = s ∨ ∃ now, call.prunesAt = some now ∧ s' = s.pruneLeases now

section Failures
variable {α : Type} {s : AppState} {e : BridgeError}

theorem failure_eq_some {r : BridgeResult α × AppState} : (failure r).1 = some e ↔ r.1 = .error e := by
  unfold failure
  cases r.1 with
  | error e' => simp
  | ok a => simp

theorem failure_state (r : BridgeResult α × AppState) : (failure r).2 = r.2 := by
  unfold failure
  cases r.1 <;> rfl

theorem error_of_map {β : Type} {x : BridgeResult α} {f : α → β} (h : x.map f = .error e) : ∃ e', x = .error e' := by
  cases x with
  | error e' => exact ⟨e', rfl⟩
  | ok a => cases h

theorem registerAgent_error {now : Now} {agent : Agent} (h : (s.registerAgent now agent).1 = .error e) :
    (s.registerAgent now agent).2 = s := by
  unfold AppState.registerAgent at h ⊢
  dsimp only at h ⊢
  split_ifs at h ⊢ <;> rfl

theorem insertChannel_error {now : Now} {slug topic createdBy : Text} {embedding : List Float32} {model : Text}
    (h : (s.insertChannel now slug topic createdBy embedding model).1 = .error e) :
    (s.insertChannel now slug topic createdBy embedding model).2 = s := by
  unfold AppState.insertChannel at h ⊢
  dsimp only at h ⊢
  cases hch : s.channels.get slug with
  | some ch => rfl
  | none =>
    rw [hch] at h
    dsimp only at h ⊢
    split_ifs at h ⊢
    rfl

theorem createOrGetChannel_error {w : Surroundings} {now : Now} {slug topic createdBy : Text}
    (h : (s.createOrGetChannel w now slug topic createdBy).1 = .error e) :
    (s.createOrGetChannel w now slug topic createdBy).2 = s := by
  unfold AppState.createOrGetChannel at h ⊢
  dsimp only at h ⊢
  by_cases hempty : slugify w slug = []
  · rw [if_pos hempty]
  · rw [if_neg hempty] at h ⊢
    cases hch : s.channels.get (slugify w slug) with
    | some ch => rfl
    | none =>
      rw [hch] at h
      dsimp only at h ⊢
      obtain ⟨e', he'⟩ := error_of_map h
      exact insertChannel_error he'

theorem resolveChannel_error {w : Surroundings} {now : Now} {topicId suffixId query createdBy : Text}
    {threshold : Option Float32}
    (h : (s.resolveChannel w now topicId suffixId query createdBy threshold).1 = .error e) :
    (s.resolveChannel w now topicId suffixId query createdBy threshold).2 = s := by
  unfold AppState.resolveChannel at h ⊢
  dsimp only at h ⊢
  by_cases hempty : Text.trim query = []
  · rw [if_pos hempty]
  · rw [if_neg hempty] at h ⊢
    cases hbest : bestScored
        (s.channels.values.map fun c => (c.slug, cosine (w.embed (Text.trim query)).1 c.embedding)) with
    | none =>
      rw [hbest] at h
      obtain ⟨e', he'⟩ := error_of_map h
      exact insertChannel_error he'
    | some best =>
      rw [hbest] at h
      dsimp only at h ⊢
      by_cases hclose : s.resolveThreshold threshold ≤ best.2
      · rw [if_pos hclose]
      · rw [if_neg hclose] at h ⊢
        obtain ⟨e', he'⟩ := error_of_map h
        exact insertChannel_error he'

theorem join_error {now : Now} {slug key : Text} {role : MemberRole} (h : (s.join now slug key role).1 = .error e) :
    (s.join now slug key role).2 = s := by
  have heff := join_effect s now slug key role
  generalize s.join now slug key role = r at h heff ⊢
  cases heff with
  | refused => rfl
  | seen => cases h
  | seated => cases h

theorem leave_error {now : Now} {slug key : Text} (h : (s.leave now slug key).1 = .error e) :
    (s.leave now slug key).2 = s := by
  unfold AppState.leave at h ⊢
  cases hch : s.channels.get slug with
  | none => rfl
  | some ch =>
    rw [hch] at h
    dsimp only at h
    split_ifs at h

/-- A post that fails has not joined: after the join nothing can fail. -/
theorem postMessage_error {now : Now} {newId slug sender : Text} {role : Role} {content : Text} {metadata : Json}
    (h : (s.postMessage now newId slug sender role content metadata).1 = .error e) :
    (s.postMessage now newId slug sender role content metadata).2 = s := by
  have heff := post_effect s now newId slug sender role content metadata
  generalize s.postMessage now newId slug sender role content metadata = r at h heff ⊢
  cases heff with
  | refused => rfl
  | posted hjoin hch => cases h

theorem setContextInternal_failed {now : Now} {slug key : Text} {value : ContextValue} {updatedBy : Text}
    (h : (s.setContextInternal now slug key value updatedBy).1 = .error e) :
    (s.setContextInternal now slug key value updatedBy).2 = s := by
  rcases setContextInternal_cases s now slug key value updatedBy with ⟨e', he⟩ | ⟨ch, hch, he⟩
  · rw [he]
  · rw [he] at h
    cases h

theorem setContext_error {now : Now} {slug key : Text} {value : Json} {updatedBy : Text}
    (h : (s.setContext now slug key value updatedBy).1 = .error e) :
    (s.setContext now slug key value updatedBy).2 = s := by
  unfold AppState.setContext at h ⊢
  by_cases hreserved : isReservedContextKey key = true
  · rw [if_pos hreserved]
  · rw [if_neg hreserved] at h ⊢
    exact setContextInternal_failed h

theorem grantFileLease_error {now : Now} {newId repository path agentKey : Text} {ttlMs : Nat} {recursive : Bool}
    {purpose : Text} {metadata : Json}
    (h : (s.grantFileLease now newId repository path agentKey ttlMs recursive purpose metadata).1 = .error e) :
    (s.grantFileLease now newId repository path agentKey ttlMs recursive purpose metadata).2 = s := by
  unfold AppState.grantFileLease at h ⊢
  split at h
  · rfl
  · dsimp only at h ⊢
    split at h
    · cases h
    · split_ifs at h ⊢
      rfl

theorem acquireFileLease_error {now : Now} {newId repository path agentKey : Text} {ttlMs : Nat} {recursive : Bool}
    {purpose : Text} {metadata : Json}
    (h : (s.acquireFileLease now newId repository path agentKey ttlMs recursive purpose metadata).1 = .error e) :
    Intact (.acquireFileLease now newId repository path agentKey ttlMs recursive purpose metadata) s
      (s.acquireFileLease now newId repository path agentKey ttlMs recursive purpose metadata).2 := by
  unfold AppState.acquireFileLease at h ⊢
  cases hchecks : s.acquireChecks repository path agentKey ttlMs metadata with
  | error e' => exact .inl rfl
  | ok normalized =>
    rw [hchecks] at h
    exact .inr ⟨now, rfl, grantFileLease_error h⟩

theorem renewFileLease_error {now : Now} {leaseId agentKey : Text} {fencingToken ttlMs : Nat}
    (h : (s.renewFileLease now leaseId agentKey fencingToken ttlMs).1 = .error e) :
    Intact (.renewFileLease now leaseId agentKey fencingToken ttlMs) s
      (s.renewFileLease now leaseId agentKey fencingToken ttlMs).2 := by
  unfold AppState.renewFileLease at h ⊢
  cases httl : normalizeFileLeaseTtl ttlMs with
  | error e' => exact .inl rfl
  | ok ttl =>
    rw [httl] at h
    dsimp only at h ⊢
    cases hfenced : (s.pruneLeases now).fencedLease leaseId agentKey fencingToken with
    | error e' => exact .inr ⟨now, rfl, rfl⟩
    | ok value =>
      rw [hfenced] at h
      cases h

theorem releaseFileLease_error {now : Now} {leaseId agentKey : Text} {fencingToken : Nat}
    (h : (s.releaseFileLease now leaseId agentKey fencingToken).1 = .error e) :
    Intact (.releaseFileLease now leaseId agentKey fencingToken) s
      (s.releaseFileLease now leaseId agentKey fencingToken).2 := by
  unfold AppState.releaseFileLease at h ⊢
  dsimp only at h ⊢
  cases hfenced : (s.pruneLeases now).fencedLease leaseId agentKey fencingToken with
  | error e' => exact .inr ⟨now, rfl, rfl⟩
  | ok value =>
    rw [hfenced] at h
    cases h

theorem intact_of_failed (call : StateCall) (h : (call.perform s).1 = some e) :
    Intact call s (call.perform s).2 := by
  cases call with
  | acquireFileLease =>
    rw [StateCall.perform, failure_state]
    exact acquireFileLease_error (failure_eq_some.mp h)
  | renewFileLease =>
    rw [StateCall.perform, failure_state]
    exact renewFileLease_error (failure_eq_some.mp h)
  | releaseFileLease =>
    rw [StateCall.perform, failure_state]
    exact releaseFileLease_error (failure_eq_some.mp h)
  | registerAgent => exact .inl ((failure_state _).trans (registerAgent_error (failure_eq_some.mp h)))
  | createOrGetChannel => exact .inl ((failure_state _).trans (createOrGetChannel_error (failure_eq_some.mp h)))
  | resolveChannel => exact .inl ((failure_state _).trans (resolveChannel_error (failure_eq_some.mp h)))
  | join => exact .inl ((failure_state _).trans (join_error (failure_eq_some.mp h)))
  | leave => exact .inl ((failure_state _).trans (leave_error (failure_eq_some.mp h)))
  | postMessage => exact .inl ((failure_state _).trans (postMessage_error (failure_eq_some.mp h)))
  | setContext => exact .inl ((failure_state _).trans (setContext_error (failure_eq_some.mp h)))
  | setContextInternal => exact .inl ((failure_state _).trans (setContextInternal_failed (failure_eq_some.mp h)))

end Failures

namespace ChannelWorld
variable {w : ChannelWorld}

/-- The channels of the posts under way are there. -/
def PostsTargeted (w : ChannelWorld) : Prop := ∀ call ∈ w.posts, (w.state.channels.get call.slug).isSome = true

theorem channel_kept {E : Event → Prop} {s s' : AppState} {target slug : Text} (h : EmitEffect E s target s')
    (hslug : (s.channels.get slug).isSome = true) : (s'.channels.get slug).isSome = true := by
  cases h with
  | same => exact hslug
  | moved hmove es hevents hes =>
    unfold AppState.setChannel
    rw [Table.get_insert]
    split_ifs
    · rfl
    · exact hslug

theorem step_channel_kept (w : ChannelWorld) (a : ChannelAction) {slug : Text}
    (hslug : (w.state.channels.get slug).isSome = true) : ((w.step a).state.channels.get slug).isSome = true :=
  channel_kept (w.step_emits a) hslug

theorem join_targets {s s' : AppState} {now : Now} {slug key : Text} {role : MemberRole} {out : JoinOutcome}
    (h : s.join now slug key role = (.ok out, s')) : (s'.channels.get slug).isSome = true := by
  have heff := join_effect s now slug key role
  rw [h] at heff
  cases heff <;> exact Option.isSome_iff_exists.mpr ⟨_, Table.get_insert_self _ _ _⟩

theorem mem_posts_step {a : ChannelAction} {call : PostCall} (h : call ∈ (w.step a).posts) :
    call ∈ w.posts ∨ ((w.step a).state.channels.get call.slug).isSome = true := by
  cases a with
  | post now slug sender role content metadata =>
    rw [ChannelWorld.step] at h ⊢
    unfold ChannelWorld.begin at h ⊢
    dsimp only at h ⊢
    cases hchecks : w.state.postChecks (Text.trim sender) content metadata with
    | error e =>
      rw [hchecks] at h
      exact .inl h
    | ok u =>
      rw [hchecks] at h
      dsimp only at h ⊢
      rcases hjoin : w.state.join now slug (Text.trim sender) .member with ⟨r, s'⟩
      rw [hjoin] at h
      cases r with
      | error e => exact .inl h
      | ok out =>
        rcases List.mem_append.mp h with h | h
        · exact .inl h
        · rw [List.mem_singleton.mp h]
          exact .inr (join_targets hjoin)
  | commit now newId i =>
    rw [ChannelWorld.step] at h
    cases hi : w.posts[i]? with
    | none =>
      rw [hi] at h
      exact .inl h
    | some call' =>
      rw [hi] at h
      exact .inl (List.eraseIdx_subset h)
  | insert | join | leave | subscribe | setContext => exact .inl h

theorem step_postsTargeted (w : ChannelWorld) (a : ChannelAction) (hw : w.PostsTargeted) :
    (w.step a).PostsTargeted := by
  intro call hcall
  rcases mem_posts_step hcall with hold | hnew
  · exact step_channel_kept w a (hw call hold)
  · exact hnew

theorem run_postsTargeted (config : Config) (as : List ChannelAction) : (run config as).PostsTargeted :=
  Run.exec_invariant step_postsTargeted (fun _ h => absurd h List.not_mem_nil) as

theorem commit_succeeds (hw : w.PostsTargeted) {call : PostCall} (hcall : call ∈ w.posts) (now : Now) (newId : Text) :
    ∃ m, (w.state.appendMessage now newId call.slug call.sender call.role call.content call.metadata).1 = .ok m := by
  obtain ⟨ch, hch⟩ := Option.isSome_iff_exists.mp (hw call hcall)
  unfold AppState.appendMessage
  rw [hch]
  exact ⟨_, rfl⟩

end ChannelWorld

theorem ChannelWorld.begin_refused {w : ChannelWorld} {now : Now} {call : PostCall}
    (h : (w.begin now call).posts = w.posts) : w.begin now call = w := by
  unfold ChannelWorld.begin at h ⊢
  cases hchecks : w.state.postChecks call.sender call.content call.metadata with
  | error e => rfl
  | ok u =>
    rw [hchecks] at h
    dsimp only at h ⊢
    rcases hjoin : w.state.join now call.slug call.sender .member with ⟨r, s'⟩
    rw [hjoin] at h
    cases r with
    | error e =>
      have hstate : s' = w.state := by
        have herror := join_error (congrArg Prod.fst hjoin)
        rwa [hjoin] at herror
      rw [hstate]
    | ok out =>
      have hlength := congrArg List.length h
      simp at hlength

/-- Every call that fails leaves the state intact. A post whose two sections are interleaved with others
fails only in the first, and then has not joined. -/
theorem errors_leave_intact (s : AppState) (call : StateCall) :
    (∀ e, (call.perform s).1 = some e → Intact call s (call.perform s).2) ∧
    ∀ (config : Config) (as : List ChannelAction),
      (∀ (now : Now) (post : PostCall), ((ChannelWorld.run config as).begin now post).posts =
          (ChannelWorld.run config as).posts →
        ((ChannelWorld.run config as).begin now post).state = (ChannelWorld.run config as).state) ∧
      ∀ post ∈ (ChannelWorld.run config as).posts, ∀ (now : Now) (newId : Text), ∃ m,
        ((ChannelWorld.run config as).state.appendMessage now newId post.slug post.sender post.role post.content
          post.metadata).1 = .ok m := by
  refine ⟨fun _ h => intact_of_failed call h, fun config as => ⟨fun now post h => ?_, fun post hpost now newId => ?_⟩⟩
  · rw [ChannelWorld.begin_refused h]
  · exact ChannelWorld.commit_succeeds (ChannelWorld.run_postsTargeted config as) hpost now newId

end AgentBridge
