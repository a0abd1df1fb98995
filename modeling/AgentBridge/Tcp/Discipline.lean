import AgentBridge.Tcp.Session

/-! What a connection keeps to: it tells nothing before it is authenticated, and forwards each room once. -/

namespace AgentBridge.Tcp

/-- The answers that tell nothing of the state. -/
def Response.isPublic : Response → Bool
  | .hello _ | .pong | .refused _ | .failed .unauthorized => true
  | _ => false

def Output.isPublic : Output → Bool
  | .response r => r.isPublic
  | .event .. | .lagged .. => false

section Turns
variable {security : WorkflowSecurity} {env : Http.Env} {c : Connection} {s : AppState}

/-- What a dispatched request does to the connection: it is answered, or it opens a subscription at the end of a room.
Either way forwarders that have finished may be dropped. -/
inductive Dispatched (c : Connection) : Connection × AppState → Prop
  | answered {forwarders : List Forwarder} (hsublist : List.Sublist forwarders c.forwarders) (answers : List Response)
      (s' : AppState) :
      Dispatched c ({ c with forwarders, written := c.written ++ answers.map .response }, s')
  | opened {forwarders : List Forwarder} (hsublist : List.Sublist forwarders c.forwarders) {s' : AppState} {p : Pending}
      {ch : ChannelState} (hnew : p.channel ∉ c.subscribed) (hroom : forwarders.length < maxSubsPerConn)
      (hch : s'.channels.get p.channel = some ch) (hposition : p.position = ch.events.length)
      (hmark : p.highWater = ch.nextSeq - 1) :
      Dispatched c ({ c with forwarders, pending := some p }, s')

theorem subscribe_eq_ok {now : Now} {slug : Text} {agentKey : Option Text} {position highWater : Nat} {s' : AppState}
    (h : s.subscribe now slug agentKey = (.ok (position, highWater), s')) :
    ∃ ch, s'.channels.get slug = some ch ∧ position = ch.events.length ∧ highWater = ch.nextSeq - 1 := by
  unfold AppState.subscribe at h
  dsimp only at h
  cases hkey : agentKey.filter (fun k => Text.trim k ≠ []) with
  | none =>
    rw [hkey] at h
    cases hch : s.channels.get slug with
    | none =>
      rw [hch] at h
      cases h
    | some ch =>
      rw [hch] at h
      cases h
      exact ⟨ch, hch, rfl, rfl⟩
  | some key =>
    rw [hkey] at h
    dsimp only at h
    rcases hjoin : s.join now slug key .member with ⟨e | out, s₁⟩
    · rw [hjoin] at h
      cases h
    · rw [hjoin] at h
      dsimp only at h
      cases hch : s₁.channels.get slug with
      | none =>
        rw [hch] at h
        cases h
      | some ch =>
        rw [hch] at h
        cases h
        exact ⟨ch, hch, rfl, rfl⟩

theorem dispatched (c : Connection) (s : AppState) (req : Req) : Dispatched c (c.dispatch env s req) := by
  have hone {forwarders : List Forwarder} (hsublist : List.Sublist forwarders c.forwarders) (r : Response)
    (s' : AppState) :
      Dispatched c ({ c with forwarders := forwarders }.write r, s') := .answered hsublist [r] s'
  unfold Connection.dispatch
  split
  next channel agentKey since =>
    unfold Connection.subscribe
    dsimp only
    by_cases hold : channel ∈ c.subscribed
    · rw [if_pos hold]
      exact hone List.filter_sublist _ s
    rw [if_neg hold]
    by_cases hfull : (c.forwarders.filter fun f => !f.finished).length ≥ maxSubsPerConn
    · rw [if_pos hfull]
      exact hone List.filter_sublist _ s
    rw [if_neg hfull]
    rcases hsubscribe : s.subscribe env.now channel agentKey with ⟨e | ⟨position, highWater⟩, s₁⟩
    · exact hone List.filter_sublist _ s₁
    · obtain ⟨ch, hch, hposition, hmark⟩ := subscribe_eq_ok hsubscribe
      exact .opened List.filter_sublist hold (Nat.not_le.mp hfull) hch hposition hmark
  next =>
    rcases call env s req with ⟨r | r, s'⟩
    · have hsame : Dispatched c ({ c with written := c.written ++ ([] : List Response).map .response }, s') :=
        .answered (List.Sublist.refl _) [] s'
      rwa [List.map_nil, List.append_nil] at hsame
    · exact hone (List.Sublist.refl _) r s'

inductive Received (security : WorkflowSecurity) (env : Http.Env) (c : Connection) (s : AppState) (line : Option Json) :
    Connection × AppState → Prop
  | busy : Received security env c s line (c, s)
  | answered (hattended : c.attended = true) (r : Response) (hr : r.isPublic = true) :
      Received security env c s line (c.write r, s)
  | authenticated (hattended : c.attended = true) {token : Text} {next : TcpPrincipal}
      (hread : line.bind (Req.read env) = some (.auth token))
      (hnext : TcpPrincipal.candidate security token = .ok next)
      (hkept : c.principal = .unauthenticated ∨ c.principal = next) :
      Received security env c s line ({ c with principal := next }.write (.authenticated next), s)
  | dispatched (hattended : c.attended = true) {r : Connection × AppState} (hpending : c.pending = none)
      (hsomebody : c.principal ≠ .unauthenticated) (h : Dispatched c r) : Received security env c s line r

theorem received (c : Connection) (s : AppState) (line : Option Json) :
    Received security env c s line (c.receive security env s line) := by
  unfold Connection.receive
  by_cases hbusy : (!c.attended || c.pending.isSome) = true
  · rw [if_pos hbusy]
    exact .busy
  rw [if_neg hbusy]
  simp only [Bool.or_eq_true, Bool.not_eq_true', not_or, Bool.not_eq_false] at hbusy
  obtain ⟨hattended, hpending⟩ := hbusy
  cases hread : line.bind (Req.read env) with
  | none => exact .answered hattended _ rfl
  | some req =>
    dsimp only
    have hhandled : Handled security env c s req _ := handled c s req
    generalize c.handle security env s req = r at hhandled
    cases hhandled with
    | authenticated hreq hnext hkept => exact .authenticated hattended (hreq ▸ hread) hnext hkept
    | answered r hr =>
      refine .answered hattended r ?_
      rcases hr with rfl | ⟨e, rfl⟩ | rfl <;> rfl
    | dispatched hsomebody _ =>
      exact .dispatched hattended (Option.not_isSome_iff_eq_none.mp hpending) hsomebody (dispatched c s req)

inductive Turned (c : Connection) (s : AppState) : Connection → Prop
  | idle : Turned c s c
  | forwarded {i : Nat} {f : Forwarder} {e : Event} (hf : c.forwarders[i]? = some f)
      (he : (s.sent f.channel)[f.position]? = some e) :
      Turned c s { c with
        forwarders := c.forwarders.set i { f with position := f.position + 1 }
        written := c.written ++ [.event f.channel e] }
  | lagged {i n : Nat} {f : Forwarder} (hf : c.forwarders[i]? = some f)
      (hn : f.position + n ≤ (s.sent f.channel).length) :
      Turned c s { c with
        forwarders := c.forwarders.set i { f with position := f.position + n }
        written := c.written ++ [.lagged f.channel n] }
  | finished {i : Nat} {f : Forwarder} (hf : c.forwarders[i]? = some f) :
      Turned c s { c with forwarders := c.forwarders.set i { f with finished := true } }

theorem turned_forward (c : Connection) (s : AppState) (i : Nat) : Turned c s (c.forward s i) := by
  unfold Connection.forward
  cases hf : c.forwarders[i]? with
  | none => exact .idle
  | some f =>
    dsimp only
    by_cases hfinished : f.finished = true
    · rw [if_pos hfinished]
      exact .idle
    rw [if_neg hfinished]
    cases he : (s.channels.get f.channel).bind fun ch => ch.events[f.position]? with
    | none => exact .idle
    | some e =>
      refine .forwarded hf ?_
      obtain ⟨ch, hch, he⟩ := Option.bind_eq_some_iff.mp he
      rwa [AppState.sent, hch]

theorem turned_lag (c : Connection) (s : AppState) (i n : Nat) : Turned c s (c.lag s i n) := by
  unfold Connection.lag
  cases hf : c.forwarders[i]? with
  | none => exact .idle
  | some f =>
    dsimp only
    split_ifs with hskip
    · exact .idle
    · simp only [Bool.or_eq_true, decide_eq_true_eq, not_or, Nat.not_lt] at hskip
      refine .lagged hf ?_
      unfold AppState.sent
      cases hch : s.channels.get f.channel with
      | none =>
        rw [hch] at hskip
        exact hskip.2
      | some ch =>
        rw [hch] at hskip
        exact hskip.2

theorem turned_finish (c : Connection) (s : AppState) (i : Nat) : Turned c s (c.finish i) := by
  unfold Connection.finish
  cases hf : c.forwarders[i]? with
  | none => exact .idle
  | some f => exact .finished hf

end Turns

/-- What a connection keeps to in every state. -/
structure Orderly (c : Connection) : Prop where
  distinct : (c.subscribed ++ (c.pending.map Pending.channel).toList).Nodup
  forwarded : ∀ f ∈ c.forwarders, f.channel ∈ c.subscribed
  single : (c.forwarders.map Forwarder.channel).Nodup
  capped : c.forwarders.length + c.pending.toList.length ≤ maxSubsPerConn
  silent : c.principal = .unauthenticated →
    c.pending = none ∧ c.subscribed = [] ∧ ∀ out ∈ c.written, out.isPublic = true
  unattended : c.attended = false → c.pending = none

section Orderly
variable {security : WorkflowSecurity} {env : Http.Env} {c c' : Connection} {s : AppState}

theorem candidate_ne_unauthenticated {token : Text} {next : TcpPrincipal}
    (h : TcpPrincipal.candidate security token = .ok next) : next ≠ .unauthenticated := by
  unfold TcpPrincipal.candidate at h
  split_ifs at h
  · cases h
    exact nofun
  · split at h <;> cases h <;> exact nofun

theorem orderly_accept : Orderly (.accept security) where
  distinct := List.nodup_nil
  forwarded := List.forall_mem_nil _
  single := List.nodup_nil
  capped := Nat.zero_le _
  silent := fun _ => ⟨rfl, rfl, List.forall_mem_singleton.mpr rfl⟩
  unattended := fun _ => rfl

theorem Orderly.dispatched {r : Connection × AppState} (h : Orderly c) (hattended : c.attended = true)
    (hsomebody : c.principal ≠ .unauthenticated) (hr : Dispatched c r) : Orderly r.1 := by
  cases hr with
  | answered hsublist answers s' =>
    exact {
      distinct := h.distinct
      forwarded := fun f hf => h.forwarded f (hsublist.subset hf)
      single := h.single.sublist (hsublist.map _)
      capped := (Nat.add_le_add_right hsublist.length_le _).trans h.capped
      silent := fun hnobody => absurd hnobody hsomebody
      unattended := h.unattended }
  | opened hsublist hnew hroom =>
    have hsubscribed : c.subscribed.Nodup := (List.nodup_append.mp h.distinct).1
    exact {
      distinct := List.nodup_append.mpr ⟨hsubscribed, List.nodup_singleton _, by
        rintro a ha b hb rfl
        exact hnew (List.mem_singleton.mp hb ▸ ha)⟩
      forwarded := fun f hf => h.forwarded f (hsublist.subset hf)
      single := h.single.sublist (hsublist.map _)
      capped := hroom
      silent := fun hnobody => absurd hnobody hsomebody
      unattended := fun hgone => absurd (hattended.symm.trans hgone) Bool.false_ne_true.symm }

theorem Orderly.received {line : Option Json} {r : Connection × AppState} (h : Orderly c)
    (hr : Received security env c s line r) : Orderly r.1 := by
  cases hr with
  | busy => exact h
  | answered hattended r hr =>
    refine ⟨h.distinct, h.forwarded, h.single, h.capped, fun hnobody => ?_, h.unattended⟩
    obtain ⟨hnone, hsubscribed, hwritten⟩ := h.silent hnobody
    refine ⟨hnone, hsubscribed, fun out hout => ?_⟩
    rcases List.mem_append.mp hout with hout | hout
    · exact hwritten out hout
    · rw [List.mem_singleton.mp hout]
      exact hr
  | authenticated hattended hread hnext =>
    exact ⟨h.distinct, h.forwarded, h.single, h.capped, fun hnobody =>
      absurd hnobody (candidate_ne_unauthenticated hnext), h.unattended⟩
  | dispatched hattended hpending hsomebody hr => exact h.dispatched hattended hsomebody hr

theorem Orderly.replay (h : Orderly c) (s : AppState) : Orderly (c.replay s) := by
  unfold Connection.replay
  cases hpending : c.pending with
  | none => exact h
  | some p =>
    have hdistinct : (c.subscribed ++ [p.channel]).Nodup := by
      have hall := h.distinct
      rwa [hpending] at hall
    have hnew : p.channel ∉ c.subscribed := fun hmem =>
      (List.nodup_append.mp hdistinct).2.2 _ hmem _ (List.mem_singleton_self _) rfl
    have hcapped := h.capped
    rw [hpending] at hcapped
    refine ⟨by simpa using hdistinct, fun f hf => ?_, ?_, ?_, fun hnobody => ?_, fun _ => rfl⟩
    · rcases List.mem_append.mp hf with hf | hf
      · exact List.mem_append_left _ (h.forwarded f hf)
      · rw [List.mem_singleton.mp hf]
        exact List.mem_append_right _ (List.mem_singleton_self _)
    · dsimp only
      rw [List.map_append, List.map_singleton]
      refine List.nodup_append.mpr ⟨h.single, List.nodup_singleton _, ?_⟩
      rintro a ha b hb rfl
      obtain ⟨f, hf, hchannel⟩ := List.mem_map.mp ha
      have hold := h.forwarded f hf
      rw [hchannel, List.mem_singleton.mp hb] at hold
      exact hnew hold
    · simpa using hcapped
    · rw [(h.silent hnobody).1] at hpending
      cases hpending

theorem map_channel_set {forwarders : List Forwarder} {i : Nat} {f f' : Forwarder} (hf : forwarders[i]? = some f)
    (hsame : f'.channel = f.channel) :
    (forwarders.set i f').map Forwarder.channel = forwarders.map Forwarder.channel := by
  obtain ⟨hi, rfl⟩ := List.getElem?_eq_some_iff.mp hf
  rw [List.map_set, hsame, ← List.getElem_map Forwarder.channel (h := by rwa [List.length_map]), List.set_getElem_self]

theorem Orderly.turned (h : Orderly c) (hr : Turned c s c') : Orderly c' := by
  have hset {i : Nat} {f f' : Forwarder} (hf : c.forwarders[i]? = some f) (hsame : f'.channel = f.channel)
      {written : List Output} :
      Orderly { c with forwarders := c.forwarders.set i f', written := written } := by
    have hforwarder : f ∈ c.forwarders := List.mem_of_getElem? hf
    have hmap := map_channel_set hf hsame
    refine ⟨h.distinct, fun g hg => ?_, ?_, ?_, fun hnobody => ?_, h.unattended⟩
    · rcases List.mem_or_eq_of_mem_set hg with hg | rfl
      · exact h.forwarded g hg
      · exact hsame ▸ h.forwarded f hforwarder
    · rw [hmap]
      exact h.single
    · rw [List.length_set]
      exact h.capped
    · obtain ⟨-, hsubscribed, -⟩ := h.silent hnobody
      have hmem := h.forwarded f hforwarder
      rw [hsubscribed] at hmem
      cases hmem
  cases hr with
  | idle => exact h
  | forwarded hf he =>
    apply hset hf
    rfl
  | lagged hf hn =>
    apply hset hf
    rfl
  | finished hf =>
    apply hset hf
    rfl

theorem Orderly.breakOff (h : Orderly c) : Orderly c.breakOff := by
  unfold Connection.breakOff Connection.mayReturn
  split_ifs with hreturns
  · rw [Bool.and_eq_true, Option.isNone_iff_eq_none] at hreturns
    exact ⟨h.distinct, h.forwarded, h.single, h.capped, h.silent, fun _ => hreturns.2⟩
  · exact h

/-- What becomes of a connection whose handler is gone: its forwarders go on, and nothing else is written. -/
structure Trails (c c' : Connection) : Prop where
  attended : c'.attended = false
  principal : c'.principal = c.principal
  subscribed : c'.subscribed = c.subscribed
  forwarders : c'.forwarders.map Forwarder.channel = c.forwarders.map Forwarder.channel
  written : ∃ more, c'.written = c.written ++ more ∧
    ∀ out ∈ more, ∃ channel ∈ c.forwarders.map Forwarder.channel,
      (∃ e, out = .event channel e) ∨ ∃ n, out = .lagged channel n

theorem Trails.refl (hgone : c.attended = false) : Trails c c :=
  ⟨hgone, rfl, rfl, rfl, [], (List.append_nil _).symm, List.forall_mem_nil _⟩

theorem Trails.turned {c₀ : Connection} (h : Trails c₀ c) (hr : Turned c s c') : Trails c₀ c' := by
  obtain ⟨more, hmore, hforwarded⟩ := h.written
  have htail {i : Nat} {f f' : Forwarder} (hf : c.forwarders[i]? = some f) (hsame : f'.channel = f.channel)
    {out : Output}
      (hout : (∃ e, out = .event f.channel e) ∨ ∃ n, out = .lagged f.channel n) :
      Trails c₀ { c with forwarders := c.forwarders.set i f', written := c.written ++ [out] } := by
    refine ⟨h.attended, h.principal, h.subscribed, (map_channel_set hf hsame).trans h.forwarders, more ++ [out], ?_, ?_⟩
    · rw [hmore, List.append_assoc]
    · intro x hx
      rcases List.mem_append.mp hx with hx | hx
      · exact hforwarded x hx
      · rw [List.mem_singleton.mp hx]
        refine ⟨f.channel, ?_, hout⟩
        rw [← h.forwarders]
        exact List.mem_map_of_mem (List.mem_of_getElem? hf)
  cases hr with
  | idle => exact h
  | forwarded hf he =>
    refine htail hf ?_ (.inl ⟨_, rfl⟩)
    rfl
  | lagged hf hn =>
    refine htail hf ?_ (.inr ⟨_, rfl⟩)
    rfl
  | @finished i f hf =>
    have hmap : (c.forwarders.set i { f with finished := true }).map Forwarder.channel =
        c.forwarders.map Forwarder.channel := map_channel_set hf rfl
    exact ⟨h.attended, h.principal, h.subscribed, hmap.trans h.forwarders, more, hmore, hforwarded⟩

end Orderly
end AgentBridge.Tcp
