import AgentBridge.Blind.Records
import AgentBridge.Http.Exposure
import AgentBridge.State.Sections

/-! The shared context as clients reach it, over HTTP and over TCP. The reserved
namespaces are out of their reach, and what is stored there leaves no trace in any
answer. -/

namespace AgentBridge
open State Orchestration

inductive TcpContextReq
  | getContext (channel : Text) (key : Option Text)
  | setContext (channel key : Text) (value : Json) (updatedBy : Text)

inductive TcpContextReply
  | failed (error : BridgeError)
  | entry (entry : Option ContextEntry)
  | context (entries : List ContextEntry)

def TcpContextReply.reply {α : Type} (render : α → TcpContextReply) : BridgeResult α → TcpContextReply
  | .error e => .failed e
  | .ok a => render a

def TcpContextReq.handle (s : AppState) (now : Now) : TcpContextReq → TcpContextReply × AppState
  | .getContext channel (some key) => (.reply .entry (s.getContextKey channel key), s)
  | .getContext channel none => (.reply .context (s.getContext channel), s)
  | .setContext channel key value updatedBy =>
    let (result, s) := s.setContext now channel key value updatedBy
    (.reply (fun e => .entry (some e)) result, s)

/-- A context call of either transport. The path of `httpGet` and `httpPut` is decoded. -/
inductive ContextCall
  | httpGet (slug : Text)
  | httpPut (slug : Text) (req : Http.SetContextReq)
  | tcp (req : TcpContextReq)

inductive ContextAnswer
  | http (reply : Http.Reply)
  | tcp (reply : TcpContextReply)

def ContextCall.handle (env : Http.Env) (s : AppState) : ContextCall → ContextAnswer × AppState
  | .httpGet slug =>
    let outcome := Http.Outcome.ofResult .context (s.getContext slug, s)
    (.http outcome.reply, outcome.state)
  | .httpPut slug req =>
    let outcome := Http.putContext env s slug req
    (.http outcome.reply, outcome.state)
  | .tcp req =>
    let (reply, s) := req.handle s env.now
    (.tcp reply, s)

def ContextAnswer.entries : ContextAnswer → List ContextEntry
  | .http (.context entries) | .tcp (.context entries) => entries
  | .http (.entry entry) => [entry]
  | .tcp (.entry entry) => entry.toList
  | _ => []

/-- The records the program keeps in the shared context for itself. -/
inductive InternalRecord
  | workflowPlan
  | workflowSubmission (ordinal : Nat)
  | admission
  | blindPlan
  | blindSubmission (ordinal : Nat)
  | blindReveal
  | leaseDescriptor (leaseId : Text)

def InternalRecord.key : InternalRecord → Text
  | workflowPlan => planContextKey
  | workflowSubmission ordinal => submissionKey ordinal
  | admission => PolicyAdmission.admissionContextKey
  | blindPlan => BlindCompetition.blindPlanContextKey
  | blindSubmission ordinal => BlindCompetition.submissionKey ordinal
  | blindReveal => BlindCompetition.blindRevealContextKey
  | leaseDescriptor leaseId => LeaseDescriptors.descriptorKey leaseId

/-- One section of a call that is no context write: it opens a channel, or moves its members and messages. -/
def RoomAction : Type :=
  {a : ChannelAction // ∀ now slug key value updatedBy, a ≠ .setContext now slug key value updatedBy}

inductive ContextAction
  | call (env : Http.Env) (call : ContextCall)
  | internal (now : Now) (slug : Text) (record : InternalRecord) (value : ContextValue) (updatedBy : Text)
  | room (a : RoomAction)

namespace ChannelWorld

def contextStep (w : ChannelWorld) : ContextAction → ChannelWorld
  | .call env call => { w with state := (call.handle env w.state).2 }
  | .internal now slug record value updatedBy =>
    { w with state := (w.state.setContextInternal now slug record.key value updatedBy).2 }
  | .room a => w.step a.1

abbrev contextRun (config : Config) (as : List ContextAction) : ChannelWorld := Run.exec contextStep (init config) as

end ChannelWorld

/-- A call of a client and the state that answers it. -/
structure Moment where
  state : AppState
  env : Http.Env
  call : ContextCall

def Moment.handle (m : Moment) : ContextAnswer × AppState := m.call.handle m.env m.state

/-- The calls of a run, in order. -/
def ChannelWorld.moments (w : ChannelWorld) : List ContextAction → List Moment
  | [] => []
  | .call env call :: as => ⟨w.state, env, call⟩ :: (w.contextStep (.call env call)).moments as
  | a :: as => (w.contextStep a).moments as

/-- The same call on the same channels, with the same reserved keys in use. What is stored under them may differ. -/
structure Moment.Alike (m m' : Moment) : Prop where
  env : m.env = m'.env
  call : m.call = m'.call
  channels : ∀ slug, m.state.channels.contains slug = m'.state.channels.contains slug
  keys : ∀ slug key, isReservedContextKey key = true →
    (m.state.entry slug key).isSome = (m'.state.entry slug key).isSome

section Reserved

theorem isReservedContextKey_trim (key : Text) : isReservedContextKey (Text.trim key) = isReservedContextKey key := by
  rw [isReservedContextKey, isReservedContextKey, Text.trim_trim]

theorem isReservedContextKey_descriptorKey (leaseId : Text) :
    isReservedContextKey (LeaseDescriptors.descriptorKey leaseId) = true := by
  have hprefix : "internal.".toList <+: LeaseDescriptors.descriptorKey leaseId :=
    List.IsPrefix.trans (by decide) (List.prefix_append LeaseDescriptors.contextPrefix leaseId)
  rw [isReservedContextKey, List.any_eq_true]
  refine ⟨_, List.mem_cons_of_mem _ List.mem_cons_self, List.isPrefixOf_iff_prefix.mpr ?_⟩
  exact Text.prefix_trim (Text.spaceless_of_all (by decide)) hprefix

theorem isReservedContextKey_record (record : InternalRecord) : isReservedContextKey record.key = true := by
  have hblind (key : Text) (h : BlindCompetition.IsBlindKey key) : isReservedContextKey key = true :=
    BlindCompetition.isReserved_of_blind h
  cases record with
  | workflowPlan => decide
  | workflowSubmission ordinal =>
    exact isReservedContextKey_of_prefix (List.IsPrefix.trans (by decide) (submissionContextPrefix_isPrefix ordinal))
  | admission => decide
  | blindPlan => exact hblind _ (.inl rfl)
  | blindSubmission ordinal => exact hblind _ (.inr (.inr (BlindCompetition.submissionPrefix_isPrefix ordinal)))
  | blindReveal => exact hblind _ (.inr (.inl rfl))
  | leaseDescriptor leaseId => exact isReservedContextKey_descriptorKey leaseId

end Reserved

section Free
variable {s s' t t' u : AppState}

/-- The states agree on all that is stored outside the reserved namespaces. -/
structure SameFree (s t : AppState) : Prop where
  config : s.config = t.config
  entries : ∀ slug key, isReservedContextKey key = false → s.entry slug key = t.entry slug key

theorem SameFree.refl (s : AppState) : SameFree s s := ⟨rfl, fun _ _ _ => rfl⟩

theorem SameFree.symm (h : SameFree s t) : SameFree t s where
  config := h.config.symm
  entries := fun slug key hkey => (h.entries slug key hkey).symm

theorem SameFree.trans (h : SameFree s t) (h' : SameFree t u) : SameFree s u where
  config := h.config.trans h'.config
  entries := fun slug key hkey => (h.entries slug key hkey).trans (h'.entries slug key hkey)

theorem config_setContextInternal (s : AppState) (now : Now) (slug key : Text) (value : ContextValue)
    (updatedBy : Text) : (s.setContextInternal now slug key value updatedBy).2.config = s.config :=
  (@setContextInternal_emits s now slug key value updatedBy).effect.config

theorem keyed_setContextInternal (hs : Keyed s) (now : Now) (slug key : Text) (value : ContextValue)
    (updatedBy : Text) : Keyed (s.setContextInternal now slug key value updatedBy).2 := by
  rcases h : s.setContextInternal now slug key value updatedBy with ⟨e | e, s'⟩
  · rw [setContextInternal_error h]
    exact hs
  · obtain ⟨-, hkey, -, hentry⟩ := entry_setContextInternal h
    intro c k e' he
    rw [hentry] at he
    split_ifs at he with hck
    · cases he
      rw [hkey, hck.2]
    · exact hs c k e' he

theorem sameFree_internal (s : AppState) (now : Now) (slug : Text) {key : Text} (hkey : isReservedContextKey key = true)
    (value : ContextValue) (updatedBy : Text) :
    SameFree s (s.setContextInternal now slug key value updatedBy).2 := by
  refine ⟨(config_setContextInternal s now slug key value updatedBy).symm, ?_⟩
  intro c k hfree
  rcases h : s.setContextInternal now slug key value updatedBy with ⟨e | e, s'⟩
  · rw [setContextInternal_error h]
  · obtain ⟨-, -, -, hentry⟩ := entry_setContextInternal h
    have hne : ¬ (c = slug ∧ k = Text.trim key) := by
      rintro ⟨-, rfl⟩
      rw [isReservedContextKey_trim, hkey] at hfree
      cases hfree
    change s.entry c k = s'.entry c k
    rw [hentry, if_neg hne]

theorem keyed_of_entries (h : ∀ c k, s'.entry c k = s.entry c k) (hs : Keyed s) : Keyed s' := by
  intro c k e he
  rw [h] at he
  exact hs c k e he

theorem sameFree_quiet (w : ChannelWorld) {a : ContextAction} (ha : ∀ env call, a ≠ .call env call) :
    SameFree w.state (w.contextStep a).state := by
  cases a with
  | call env call => exact absurd rfl (ha env call)
  | internal now slug record value updatedBy =>
    exact sameFree_internal w.state now slug (isReservedContextKey_record record) value updatedBy
  | room a =>
    refine ⟨((w.step_emits a.1).effect.config).symm, ?_⟩
    intro slug key _
    exact (w.step_entry a.2 slug key).symm

end Free

section Lists
variable {s : AppState} {slug : Text} {ch ch' : ChannelState}

def KeyedChannel (ch : ChannelState) : Prop := ∀ key e, ch.context.get key = some e → e.key = key

/-- What `get_context` answers for the channel. -/
def ChannelState.listed (ch : ChannelState) : List ContextEntry :=
  (ch.context.values.insertionSort fun a b => a.key ≤ b.key).filter fun e => !isReservedContextKey e.key

theorem getContext_eq (hch : s.channels.get slug = some ch) : s.getContext slug = .ok ch.listed := by
  rw [AppState.getContext, AppState.getContextInternal, hch]
  rfl

theorem pairwise_byKey (l : List ContextEntry) :
    (l.insertionSort fun a b => a.key ≤ b.key).Pairwise fun a b => a.key ≤ b.key := by
  have : Std.Total fun a b : ContextEntry => a.key ≤ b.key := ⟨fun a b => le_total a.key b.key⟩
  have : IsTrans ContextEntry fun a b => a.key ≤ b.key := ⟨fun _ _ _ => le_trans⟩
  exact List.pairwise_insertionSort _ l

theorem mem_listed (hch : KeyedChannel ch) (e : ContextEntry) :
    e ∈ ch.listed ↔ ch.context.get e.key = some e ∧ isReservedContextKey e.key = false := by
  rw [ChannelState.listed, List.mem_filter, List.mem_insertionSort, Table.mem_values, Bool.not_eq_true']
  constructor
  · rintro ⟨⟨key, hkey⟩, hfree⟩
    obtain rfl := hch key e hkey
    exact ⟨hkey, hfree⟩
  · rintro ⟨hkey, hfree⟩
    exact ⟨⟨e.key, hkey⟩, hfree⟩

theorem nodup_listed (hch : KeyedChannel ch) : ch.listed.Nodup := by
  apply List.Nodup.filter
  apply (List.perm_insertionSort _ _).nodup_iff.mpr
  apply Table.values_pairwise
  intro key key' e e' hne he he' heq
  exact hne ((hch key e he).symm.trans ((congrArg ContextEntry.key heq).trans (hch key' e' he')))

/-- The list is in the order of the keys, so the free entries alone determine it, whatever is stored between
them and in whatever order the map gives them. -/
theorem listed_eq (hch : KeyedChannel ch) (hch' : KeyedChannel ch')
    (hfree : ∀ key, isReservedContextKey key = false → ch.context.get key = ch'.context.get key) :
    ch.listed = ch'.listed := by
  have hsame (e : ContextEntry) : e ∈ ch.listed ↔ e ∈ ch'.listed := by
    rw [mem_listed hch, mem_listed hch']
    refine and_congr_left fun hkey => ?_
    rw [hfree e.key hkey]
  have hperm := (List.perm_ext_iff_of_nodup (nodup_listed hch) (nodup_listed hch')).mpr hsame
  refine hperm.eq_of_pairwise ?_ ((pairwise_byKey _).filter _) ((pairwise_byKey _).filter _)
  intro a b ha hb hab hba
  have hkey : a.key = b.key := le_antisymm hab hba
  obtain ⟨hget, -⟩ := (mem_listed hch a).mp ha
  obtain ⟨hget', hreserved⟩ := (mem_listed hch' b).mp hb
  rw [hkey, hfree b.key hreserved, hget'] at hget
  exact (Option.some.inj hget).symm

end Lists

section Calls
variable {s t : AppState} {slug key : Text}

theorem KeyedChannel.of_keyed {ch : ChannelState} (hs : Keyed s) (hch : s.channels.get slug = some ch) :
    KeyedChannel ch := by
  intro key e he
  exact hs slug key e ((entry_of_channel hch key).trans he)

/-- A call lists the entries of a channel, reads one of them or writes one. -/
inductive ContextCall.Runs (call : ContextCall) : Prop
  | lists (slug : Text) (render : BridgeResult (List ContextEntry) → ContextAnswer)
      (hrun : ∀ env s, call.handle env s = (render (s.getContext slug), s))
      (hread : ∀ r, (render r).entries = r.toOption.getD [])
  | reads (slug key : Text) (render : BridgeResult (Option ContextEntry) → ContextAnswer)
      (hrun : ∀ env s, call.handle env s = (render (s.getContextKey slug key), s))
      (hread : ∀ r, (render r).entries = (r.toOption.bind id).toList)
  | writes (slug key : Text) (value : Json) (updatedBy : Text) (render : BridgeResult ContextEntry → ContextAnswer)
      (hrun : ∀ env s, call.handle env s = (render (s.setContext env.now slug key value updatedBy).1,
        (s.setContext env.now slug key value updatedBy).2))
      (hread : ∀ r, (render r).entries = r.toOption.toList)

def httpAnswer {α : Type} (reply : α → Http.Reply) : BridgeResult α → ContextAnswer
  | .error e => .http (.failed e)
  | .ok a => .http (reply a)

theorem ofResult_answer {α : Type} (reply : α → Http.Reply) (r : BridgeResult α × AppState) :
    (ContextAnswer.http (Http.Outcome.ofResult reply r).reply, (Http.Outcome.ofResult reply r).state) =
      (httpAnswer reply r.1, r.2) := by
  rcases r with ⟨e | a, s⟩ <;> rfl

theorem ContextCall.runs (call : ContextCall) : call.Runs := by
  cases call with
  | httpGet slug =>
    refine .lists slug (httpAnswer .context) (fun env s => ofResult_answer _ _) ?_
    intro r
    cases r <;> rfl
  | httpPut slug req =>
    refine .writes slug req.key req.value req.updatedBy (httpAnswer .entry) (fun env s => ofResult_answer _ _) ?_
    intro r
    cases r <;> rfl
  | tcp req =>
    cases req with
    | getContext channel key =>
      cases key with
      | none =>
        refine .lists channel (fun r => .tcp (.reply .context r)) (fun env s => rfl) ?_
        intro r
        cases r <;> rfl
      | some key =>
        refine .reads channel key (fun r => .tcp (.reply .entry r)) (fun env s => rfl) ?_
        intro r
        cases r <;> rfl
    | setContext channel key value updatedBy =>
      refine .writes channel key value updatedBy (fun r => .tcp (.reply (fun e => .entry (some e)) r))
        (fun env s => rfl) ?_
      intro r
      cases r <;> rfl

theorem setContext_reserved (s : AppState) (now : Now) (slug key : Text) (value : Json) (updatedBy : Text) {c k : Text}
    (hk : isReservedContextKey k = true) : (s.setContext now slug key value updatedBy).2.entry c k = s.entry c k := by
  unfold AppState.setContext
  by_cases hreserved : isReservedContextKey key = true
  · rw [if_pos hreserved]
  · rw [if_neg hreserved]
    rcases h : s.setContextInternal now slug key (.json value) updatedBy with ⟨e | e, s'⟩
    · rw [setContextInternal_error h]
    · obtain ⟨-, -, -, hentry⟩ := entry_setContextInternal h
      have hne : ¬ (c = slug ∧ k = Text.trim key) := by
        rintro ⟨-, rfl⟩
        exact hreserved ((isReservedContextKey_trim key).symm.trans hk)
      change s'.entry c k = s.entry c k
      rw [hentry, if_neg hne]

theorem handle_reserved (call : ContextCall) (env : Http.Env) (s : AppState) {c k : Text}
    (hk : isReservedContextKey k = true) : (call.handle env s).2.entry c k = s.entry c k := by
  cases call.runs with
  | lists slug render hrun hread => rw [hrun]
  | reads slug key render hrun hread => rw [hrun]
  | writes slug key value updatedBy render hrun hread =>
    rw [hrun]
    exact setContext_reserved s env.now slug key value updatedBy hk

theorem keyed_handle (hs : Keyed s) (call : ContextCall) (env : Http.Env) : Keyed (call.handle env s).2 := by
  cases call.runs with
  | lists slug render hrun hread =>
    rw [hrun]
    exact hs
  | reads slug key render hrun hread =>
    rw [hrun]
    exact hs
  | writes slug key value updatedBy render hrun hread =>
    rw [hrun]
    unfold AppState.setContext
    split_ifs
    · exact hs
    · exact keyed_setContextInternal hs _ _ _ _ _

theorem handle_entries (hs : Keyed s) (call : ContextCall) (env : Http.Env) {e : ContextEntry}
    (he : e ∈ (call.handle env s).1.entries) :
    isReservedContextKey e.key = false ∧ ∃ slug, (call.handle env s).2.entry slug e.key = some e := by
  cases call.runs with
  | lists slug render hrun hread =>
    rw [hrun] at he ⊢
    rw [hread] at he
    cases hch : s.channels.get slug with
    | none =>
      have hnone : s.getContext slug = .error (.channelNotFound slug) := by
        rw [AppState.getContext, AppState.getContextInternal, hch]
        rfl
      rw [hnone] at he
      exact absurd he List.not_mem_nil
    | some ch =>
      rw [getContext_eq hch] at he
      obtain ⟨hget, hfree⟩ := (mem_listed (.of_keyed hs hch) e).mp he
      exact ⟨hfree, slug, (entry_of_channel hch e.key).trans hget⟩
  | reads slug key render hrun hread =>
    rw [hrun] at he ⊢
    rw [hread] at he
    unfold AppState.getContextKey AppState.getContextKeyInternal at he
    by_cases hreserved : isReservedContextKey key = true
    · rw [if_pos hreserved] at he
      exact absurd he List.not_mem_nil
    · rw [if_neg hreserved] at he
      cases hch : s.channels.get slug with
      | none =>
        rw [hch] at he
        exact absurd he List.not_mem_nil
      | some ch =>
        rw [hch] at he
        have hget : s.entry slug key = some e := (entry_of_channel hch key).trans (Option.mem_toList.mp he)
        have hkey : e.key = key := hs slug key e hget
        rw [hkey]
        exact ⟨Bool.not_eq_true _ ▸ hreserved, slug, hget⟩
  | writes slug key value updatedBy render hrun hread =>
    rw [hrun] at he ⊢
    rw [hread] at he
    unfold AppState.setContext at he ⊢
    by_cases hreserved : isReservedContextKey key = true
    · rw [if_pos hreserved] at he
      exact absurd he List.not_mem_nil
    · rw [if_neg hreserved] at he ⊢
      rcases h : s.setContextInternal env.now slug key (.json value) updatedBy with ⟨e' | e', s'⟩
      · rw [h] at he
        exact absurd he List.not_mem_nil
      · rw [h] at he
        obtain rfl : e = e' := List.mem_singleton.mp he
        obtain ⟨-, hkey, -, hentry⟩ := entry_setContextInternal h
        refine ⟨?_, slug, ?_⟩
        · rw [hkey, isReservedContextKey_trim]
          exact Bool.not_eq_true _ ▸ hreserved
        · change s'.entry slug e.key = some e
          rw [hentry, hkey, if_pos ⟨rfl, rfl⟩]

end Calls

section Twins
variable {m m' : Moment}

theorem Moment.Alike.channel_cases (h : m.Alike m') (hfree : SameFree m.state m'.state) (slug : Text) :
    (m.state.channels.get slug = none ∧ m'.state.channels.get slug = none) ∨
    ∃ ch ch', m.state.channels.get slug = some ch ∧ m'.state.channels.get slug = some ch' ∧
      (∀ key, isReservedContextKey key = false → ch.context.get key = ch'.context.get key) ∧
      ∀ key, ch.context.contains key = ch'.context.contains key := by
  have hthere := h.channels slug
  unfold Table.contains at hthere
  cases hch : m.state.channels.get slug with
  | none =>
    rw [hch] at hthere
    exact .inl ⟨rfl, Option.isSome_eq_false_iff.mp hthere.symm |> Option.isNone_iff_eq_none.mp⟩
  | some ch =>
    rw [hch] at hthere
    obtain ⟨ch', hch'⟩ := Option.isSome_iff_exists.mp hthere.symm
    have hentries (key : Text) (hkey : isReservedContextKey key = false) :
        ch.context.get key = ch'.context.get key := by
      rw [← entry_of_channel hch key, ← entry_of_channel hch' key]
      exact hfree.entries slug key hkey
    refine .inr ⟨ch, ch', rfl, hch', hentries, ?_⟩
    intro key
    unfold Table.contains
    cases hkey : isReservedContextKey key with
    | false => rw [hentries key hkey]
    | true =>
      rw [← entry_of_channel hch key, ← entry_of_channel hch' key]
      exact h.keys slug key hkey

theorem size_eq_of_contains {ch ch' : ChannelState} (h : ∀ key, ch.context.contains key = ch'.context.contains key) :
    ch.context.size = ch'.context.size := by
  have hkeys : ch.context.keySet = ch'.context.keySet := by
    ext key
    rw [Table.mem_keySet, Table.mem_keySet, h]
  rw [← Table.card_keySet, ← Table.card_keySet, hkeys]

theorem SameFree.put {s t : AppState} (h : SameFree s t) {slug : Text} {ch ch' : ChannelState} (e : ContextEntry)
    (hentries : ∀ key, isReservedContextKey key = false → ch.context.get key = ch'.context.get key) :
    SameFree (s.setChannel slug (ch.putContext e)) (t.setChannel slug (ch'.putContext e)) := by
  refine ⟨h.config, ?_⟩
  intro c k hk
  rw [entry_setChannel, entry_setChannel, ChannelState.putContext, ChannelState.putContext, Table.get_insert,
    Table.get_insert, hentries k hk, h.entries c k hk]

theorem Moment.Alike.setContext (h : m.Alike m') (hfree : SameFree m.state m'.state) (now : Now) (slug key : Text)
    (value : Json) (updatedBy : Text) :
    (m.state.setContext now slug key value updatedBy).1 = (m'.state.setContext now slug key value updatedBy).1 ∧
    SameFree (m.state.setContext now slug key value updatedBy).2
      (m'.state.setContext now slug key value updatedBy).2 := by
  unfold AppState.setContext
  by_cases hreserved : isReservedContextKey key = true
  · rw [if_pos hreserved, if_pos hreserved]
    exact ⟨rfl, hfree⟩
  rw [if_neg hreserved, if_neg hreserved]
  unfold AppState.setContextInternal
  dsimp only
  rw [hfree.config]
  split_ifs with hempty hlong hvalue
  · exact ⟨rfl, hfree⟩
  · exact ⟨rfl, hfree⟩
  · exact ⟨rfl, hfree⟩
  rcases h.channel_cases hfree slug with ⟨hs, ht⟩ | ⟨ch, ch', hs, ht, hentries, hkeys⟩
  · rw [hs, ht]
    exact ⟨rfl, hfree⟩
  · rw [hs, ht]
    dsimp only
    have hkey : isReservedContextKey (Text.trim key) = false := by
      rw [isReservedContextKey_trim]
      exact Bool.not_eq_true _ ▸ hreserved
    have hentry : AppState.contextEntry ch now (Text.trim key) (.json value) updatedBy =
        AppState.contextEntry ch' now (Text.trim key) (.json value) updatedBy := by
      unfold AppState.contextEntry
      rw [hentries _ hkey]
    rw [hkeys, size_eq_of_contains hkeys, hentry]
    by_cases hfull : (!ch'.context.contains (Text.trim key) && ch'.context.size ≥ maxContextKeys) = true
    · rw [if_pos hfull, if_pos hfull]
      exact ⟨rfl, hfree⟩
    · rw [if_neg hfull, if_neg hfull]
      exact ⟨rfl, hfree.put _ hentries⟩

theorem Moment.Alike.handle (h : m.Alike m') (hfree : SameFree m.state m'.state) (hs : Keyed m.state)
    (ht : Keyed m'.state) : m.handle.1 = m'.handle.1 ∧ SameFree m.handle.2 m'.handle.2 := by
  unfold Moment.handle
  rw [← h.call, ← h.env]
  cases m.call.runs with
  | lists slug render hrun hread =>
    rw [hrun, hrun]
    refine ⟨congrArg render ?_, hfree⟩
    rcases h.channel_cases hfree slug with ⟨hc, hc'⟩ | ⟨ch, ch', hc, hc', hentries, -⟩
    · rw [AppState.getContext, AppState.getContext, AppState.getContextInternal, AppState.getContextInternal, hc, hc']
    · rw [getContext_eq hc, getContext_eq hc', listed_eq (.of_keyed hs hc) (.of_keyed ht hc') hentries]
  | reads slug key render hrun hread =>
    rw [hrun, hrun]
    refine ⟨congrArg render ?_, hfree⟩
    unfold AppState.getContextKey AppState.getContextKeyInternal
    by_cases hreserved : isReservedContextKey key = true
    · rw [if_pos hreserved, if_pos hreserved]
    · rw [if_neg hreserved, if_neg hreserved]
      rcases h.channel_cases hfree slug with ⟨hc, hc'⟩ | ⟨ch, ch', hc, hc', hentries, -⟩
      · rw [hc, hc']
      · rw [hc, hc']
        exact congrArg Except.ok (hentries key (Bool.not_eq_true _ ▸ hreserved))
  | writes slug key value updatedBy render hrun hread =>
    rw [hrun, hrun]
    obtain ⟨hanswer, hstate⟩ := h.setContext hfree m.env.now slug key value updatedBy
    exact ⟨congrArg render hanswer, hstate⟩

end Twins

section Runs
variable {w w' : ChannelWorld}

theorem keyed_contextStep (hw : Keyed w.state) (a : ContextAction) : Keyed (w.contextStep a).state := by
  cases a with
  | call env call => exact keyed_handle hw call env
  | internal now slug record value updatedBy => exact keyed_setContextInternal hw _ _ _ _ _
  | room a => exact keyed_of_entries (w.step_entry a.2) hw

theorem keyed_init (config : Config) : Keyed (ChannelWorld.init config).state := by
  intro c k e he
  cases he

theorem first_moment (hw : Keyed w.state) {as : List ContextAction} {m : Moment} {ms : List Moment}
    (h : w.moments as = m :: ms) : SameFree w.state m.state ∧ Keyed m.state ∧
      ∃ (w₁ : ChannelWorld) (as₁ : List ContextAction), w₁.state = m.handle.2 ∧ w₁.moments as₁ = ms := by
  -- only calls are moments, and what comes before the first leaves the unreserved entries
  induction as generalizing w with
  | nil => cases h
  | cons a as ih =>
    cases a with
    | call env call =>
      cases h
      exact ⟨.refl _, hw, w.contextStep (.call env call), as, rfl, rfl⟩
    | internal now slug record value updatedBy =>
      obtain ⟨hfree, hrest⟩ := ih (keyed_contextStep hw (.internal now slug record value updatedBy)) h
      exact ⟨(sameFree_quiet w (by simp)).trans hfree, hrest⟩
    | room a =>
      obtain ⟨hfree, hrest⟩ := ih (keyed_contextStep hw (.room a)) h
      exact ⟨(sameFree_quiet w (by simp)).trans hfree, hrest⟩

theorem answers_eq {ms ms' : List Moment} (halike : List.Forall₂ Moment.Alike ms ms')
    (hfree : SameFree w.state w'.state) (hw : Keyed w.state) (hw' : Keyed w'.state) {as bs : List ContextAction}
    (has : w.moments as = ms) (hbs : w'.moments bs = ms') :
    ms.map (fun m => m.handle.1) = ms'.map fun m => m.handle.1 := by
  induction halike generalizing w w' as bs with
  | nil => rfl
  | @cons m m' ms ms' hm hms ih =>
    obtain ⟨hfirst, hkeyed, w₁, as₁, hw₁, has₁⟩ := first_moment hw has
    obtain ⟨hfirst', hkeyed', w₁', bs₁, hw₁', hbs₁⟩ := first_moment hw' hbs
    obtain ⟨hanswer, hstate⟩ := hm.handle ((hfirst.symm.trans hfree).trans hfirst') hkeyed hkeyed'
    rw [← hw₁, ← hw₁'] at hstate
    have hrest := ih hstate (hw₁ ▸ keyed_handle hkeyed m.call m.env) (hw₁' ▸ keyed_handle hkeyed' m'.call m'.env)
      has₁ hbs₁
    rw [List.map_cons, List.map_cons, hanswer, hrest]

/-- No call of a client touches or shows a reserved entry, and runs that differ only in what is stored under the
same reserved keys give clients the same answers. -/
theorem reserved_context_isolated (config : Config) :
    (∀ as env (call : ContextCall), let s := (ChannelWorld.contextRun config as).state
      (∀ slug key, isReservedContextKey key = true → (call.handle env s).2.entry slug key = s.entry slug key) ∧
      ∀ e ∈ (call.handle env s).1.entries, isReservedContextKey e.key = false ∧
        ∃ slug, (call.handle env s).2.entry slug e.key = some e) ∧
    ∀ as bs,
      List.Forall₂ Moment.Alike ((ChannelWorld.init config).moments as) ((ChannelWorld.init config).moments bs) →
      ((ChannelWorld.init config).moments as).map (fun m => m.handle.1) =
        ((ChannelWorld.init config).moments bs).map fun m => m.handle.1 := by
  constructor
  · intro as env call
    have hkeyed : Keyed (ChannelWorld.contextRun config as).state :=
      @Run.exec_invariant _ _ ChannelWorld.contextStep (fun w => Keyed w.state) (fun _ a hw => keyed_contextStep hw a) _
        (keyed_init config) as
    exact ⟨fun slug key hkey => handle_reserved call env _ hkey, fun e he => handle_entries hkeyed call env he⟩
  · intro as bs halike
    exact answers_eq halike (.refl _) (keyed_init config) (keyed_init config) rfl rfl

theorem alike_internal {s : AppState} {now : Now} {slug key updatedBy : Text} {value value' : ContextValue}
    (h : value.toJson.bytes ≤ s.config.maxContentBytes) (h' : value'.toJson.bytes ≤ s.config.maxContentBytes)
    (env : Http.Env) (call : ContextCall) :
    Moment.Alike ⟨(s.setContextInternal now slug key value updatedBy).2, env, call⟩
      ⟨(s.setContextInternal now slug key value' updatedBy).2, env, call⟩ := by
  unfold AppState.setContextInternal
  dsimp only
  rw [if_neg (Nat.not_lt.mpr h), if_neg (Nat.not_lt.mpr h')]
  split_ifs with hempty hlong
  · exact ⟨rfl, rfl, fun _ => rfl, fun _ _ _ => rfl⟩
  · exact ⟨rfl, rfl, fun _ => rfl, fun _ _ _ => rfl⟩
  cases hch : s.channels.get slug with
  | none => exact ⟨rfl, rfl, fun _ => rfl, fun _ _ _ => rfl⟩
  | some ch =>
    dsimp only
    split_ifs
    · exact ⟨rfl, rfl, fun _ => rfl, fun _ _ _ => rfl⟩
    refine ⟨rfl, rfl, ?_, ?_⟩
    · intro c
      dsimp only [AppState.setChannel]
      rw [Table.contains, Table.contains, Table.get_insert, Table.get_insert]
      split_ifs <;> rfl
    · intro c k _
      dsimp only
      rw [entry_setChannel, entry_setChannel, ChannelState.putContext, ChannelState.putContext, Table.get_insert,
        Table.get_insert, AppState.contextEntry_key, AppState.contextEntry_key]
      split_ifs <;> rfl

/-- A plan is filed in a new room before a client lists it. -/
def listingRun (plan : Nat) : List ContextAction :=
  [.room ⟨.insert ⟨0, 0⟩ "room".toList [] [] [] [], by simp⟩,
    .internal ⟨0, 0⟩ "room".toList .workflowPlan (.json (.nat plan)) "ada".toList,
    .call Http.offlineEnv (.httpGet "room".toList)]

theorem reserved_context_isolated_listing :
    ((ChannelWorld.init Config.inMemory).moments (listingRun 1)).map (fun m => m.handle.1) =
      ((ChannelWorld.init Config.inMemory).moments (listingRun 2)).map fun m => m.handle.1 := by
  refine (reserved_context_isolated Config.inMemory).2 _ _ (.cons ?_ .nil)
  exact alike_internal (by decide) (by decide) Http.offlineEnv (.httpGet "room".toList)

end Runs

end AgentBridge
