import AgentBridge.Mirror.Writes

/-! Sequence numbers across a restart. The counter of a channel is rebuilt from the highest
stored number, so a number is given out twice exactly when the write of the last message
posted to a channel never reached its table. -/

namespace AgentBridge
open State

section Numbers
variable {s s' : AppState} {slug target : Text} {first : Nat}

/-- All messages ever posted to a channel, by its slug. -/
def AppState.posted (s : AppState) (slug : Text) : List Message :=
  (s.channels.get slug).elim [] ChannelState.posted

/-- The messages sent on the channel carry consecutive numbers from `first` on. -/
structure SeqNumbered (first : Nat) (ch : ChannelState) : Prop where
  seqs : ch.posted.map Message.seq = List.range' first ch.posted.length
  next : ch.nextSeq = first + ch.posted.length

/-- A channel that counts from `first` on; one that is missing will be created counting from one. -/
def CountsFrom (first : Nat) : Option ChannelState → Prop
  | none => first = 1
  | some ch => SeqNumbered first ch

def Counts (first : Nat) (s : AppState) (slug : Text) : Prop := CountsFrom first (s.channels.get slug)

theorem ChannelMove.numbered {old : Option ChannelState} {ch : ChannelState} (h : ChannelMove s slug old ch)
    (hold : CountsFrom first old) : SeqNumbered first ch := by
  cases h with
  | created now topic createdBy embedding model =>
    have hone : first = 1 := hold
    rw [hone]
    exact ⟨rfl, rfl⟩
  | touched now hm =>
    obtain ⟨hseqs, hnext⟩ := hold
    exact ⟨hseqs, hnext⟩
  | seated now role hm hroom =>
    obtain ⟨hseqs, hnext⟩ := hold
    exact ⟨by rw [posted_seat, hseqs], by rw [posted_seat]; exact hnext⟩
  | unseated now hm =>
    obtain ⟨hseqs, hnext⟩ := hold
    exact ⟨by rw [posted_unseat, hseqs], by rw [posted_unseat]; exact hnext⟩
  | @appended ch now newId sender role content metadata =>
    obtain ⟨hseqs, hnext⟩ := hold
    constructor
    · rw [posted_append, List.map_append, hseqs, List.length_append, List.length_singleton, List.range'_1_concat,
        ← hnext]
      rfl
    · rw [posted_append, List.length_append, ← Nat.add_assoc, ← hnext]
      rfl
  | stored entry =>
    obtain ⟨hseqs, hnext⟩ := hold
    exact ⟨hseqs, hnext⟩

theorem SectionEffect.counts (h : SectionEffect s target s') (hs : Counts first s slug) : Counts first s' slug := by
  cases h with
  | same => exact hs
  | @moved ch hm =>
    rw [Counts, AppState.setChannel, Table.get_insert]
    by_cases heq : slug = target
    · rw [if_pos heq]
      rw [Counts, heq] at hs
      exact hm.numbered hs
    · rw [if_neg heq]
      exact hs

theorem Counts.seqs (h : Counts first s slug) :
    (s.posted slug).map Message.seq = List.range' first (s.posted slug).length := by
  rw [Counts] at h
  rw [AppState.posted]
  cases hch : s.channels.get slug with
  | none => rfl
  | some ch =>
    rw [hch] at h
    exact SeqNumbered.seqs h

/-- A channel knows its slug, and so do its messages. -/
structure Named (slug : Text) (ch : ChannelState) : Prop where
  own : ch.slug = slug
  posted : ∀ x ∈ ch.posted, x.channel = slug

theorem ChannelMove.named {old : Option ChannelState} {ch : ChannelState} (h : ChannelMove s slug old ch)
    (hold : ∀ c, old = some c → Named slug c) : Named slug ch := by
  cases h with
  | created now topic createdBy embedding model => exact ⟨rfl, fun x hx => absurd hx List.not_mem_nil⟩
  | touched now hm =>
    obtain ⟨hslug, hposted⟩ := hold _ rfl
    exact ⟨hslug, hposted⟩
  | seated now role hm hroom =>
    obtain ⟨hslug, hposted⟩ := hold _ rfl
    exact ⟨hslug, by rw [posted_seat]; exact hposted⟩
  | unseated now hm =>
    obtain ⟨hslug, hposted⟩ := hold _ rfl
    exact ⟨hslug, by rw [posted_unseat]; exact hposted⟩
  | appended now newId sender role content metadata =>
    obtain ⟨hslug, hposted⟩ := hold _ rfl
    refine ⟨hslug, ?_⟩
    intro x hx
    rw [posted_append] at hx
    rcases List.mem_append.mp hx with hx | hx
    · exact hposted x hx
    · rw [List.mem_singleton.mp hx]
      exact hslug
  | stored entry =>
    obtain ⟨hslug, hposted⟩ := hold _ rfl
    exact ⟨hslug, hposted⟩

def SlugKeyed (s : AppState) : Prop := ∀ slug ch, s.channels.get slug = some ch → Named slug ch

theorem SlugKeyed.posted (h : SlugKeyed s) {x : Message} (hx : x ∈ s.posted slug) : x.channel = slug := by
  rw [AppState.posted] at hx
  cases hch : s.channels.get slug with
  | none =>
    rw [hch] at hx
    exact absurd hx List.not_mem_nil
  | some ch =>
    rw [hch] at hx
    exact (h slug ch hch).posted x hx

theorem SectionEffect.slugKeyed (h : SectionEffect s target s') (hs : SlugKeyed s) : SlugKeyed s' := by
  cases h with
  | same => exact hs
  | @moved new hm =>
    intro slug ch hch
    rw [AppState.setChannel, Table.get_insert] at hch
    by_cases heq : slug = target
    · rw [if_pos heq] at hch
      cases hch
      rw [heq]
      exact hm.named fun c hc => hs target c hc
    · rw [if_neg heq] at hch
      exact hs slug ch hch

theorem EmitEffect.posted {E : Event → Prop} (h : EmitEffect E s target s') (slug : Text) :
    s.posted slug <+: s'.posted slug := by
  cases h with
  | same => exact List.prefix_refl _
  | @moved ch hm es hevents hes =>
    rw [AppState.posted, AppState.posted, AppState.setChannel, Table.get_insert]
    by_cases heq : slug = target
    · rw [if_pos heq, heq, Option.elim_some, ChannelState.posted, hevents, List.filterMap_append]
      cases s.channels.get target with
      | none => exact List.nil_prefix
      | some old => exact List.prefix_append _ _
    · rw [if_neg heq]

end Numbers

section Consecutive
variable {l : List Message} {first : Nat} {x : Message}

theorem seq_of_mem (h : l.map Message.seq = List.range' first l.length) (hx : x ∈ l) :
    first ≤ x.seq ∧ x.seq < first + l.length := by
  have hseq := List.mem_map_of_mem (f := Message.seq) hx
  rw [h] at hseq
  exact List.mem_range'_1.mp hseq

theorem getLast?_iff_seq (h : l.map Message.seq = List.range' first l.length) (hx : x ∈ l) :
    l.getLast? = some x ↔ x.seq + 1 = first + l.length := by
  have hpos : 0 < l.length := List.length_pos_of_mem hx
  have hlast {y : Message} (hy : l.getLast? = some y) : y.seq + 1 = first + l.length := by
    have hmap : (l.map Message.seq).getLast? = some y.seq := by rw [List.getLast?_map, hy, Option.map_some]
    rw [h, List.getLast?_range', if_neg (by omega), Option.some_inj] at hmap
    omega
  constructor
  · exact hlast
  · intro hseq
    have hne : l ≠ [] := List.ne_nil_of_mem hx
    have hy : l.getLast? = some (l.getLast hne) := List.getLast?_eq_some_getLast hne
    have hnodup : (l.map Message.seq).Nodup := h ▸ List.nodup_range'
    have hsame : (l.getLast hne).seq = x.seq := by
      have := hlast hy
      omega
    rw [hy, List.inj_on_of_nodup_map hnodup (List.getLast_mem hne) hx hsame]

end Consecutive

section Runs
variable {config : Config} {columnSize : Json → Nat} {m : MirrorWorld}

/-- The message writes of a run against what was posted, and the rows against the writes. -/
structure MessagesMirrored (m : MirrorWorld) : Prop where
  keyed : SlugKeyed m.live.state
  counts : ∀ slug, Counts 1 m.live.state slug
  pending : ∀ x, .message x ∈ m.pending → x ∈ m.live.state.posted x.channel
  performed : ∀ dbNow x, (dbNow, .message x) ∈ m.performed → x ∈ m.live.state.posted x.channel
  rows : ∀ c q row, m.db.messages.get (c, q) = some row → (row.channel = c ∧ row.seq = q ∧ q ≤ i64Max) ∧
    ∃ dbNow x, (dbNow, .message x) ∈ m.performed ∧ x.channel = c ∧ x.seq = q
  stored : ∀ dbNow x, (dbNow, .message x) ∈ m.performed → x.seq ≤ i64Max →
    m.db.messages.contains (x.channel, x.seq) = true

theorem ChannelWorld.persisted_posted {w : ChannelWorld} (hw : SlugKeyed w.state) {a : ChannelAction} {x : Message}
    (h : .message x ∈ w.persisted a) : x ∈ (w.step a).state.posted x.channel := by
  cases a with
  | insert now slug topic createdBy embedding model => exact absurd h List.not_mem_nil
  | join now slug agentKey role => exact absurd h List.not_mem_nil
  | leave now slug agentKey => exact absurd h List.not_mem_nil
  | post now slug sender role content metadata => exact absurd h List.not_mem_nil
  | subscribe now slug agentKey => exact absurd h List.not_mem_nil
  | setContext now slug key value updatedBy =>
    obtain ⟨e, -, he⟩ := List.mem_map.mp h
    cases he
  | commit now newId i =>
    rw [ChannelWorld.persisted] at h
    rw [ChannelWorld.step]
    cases hcall : w.posts[i]? with
    | none =>
      rw [hcall] at h
      exact absurd h List.not_mem_nil
    | some call =>
      rw [hcall] at h
      dsimp only at h ⊢
      unfold AppState.appendMessage at h ⊢
      cases hch : w.state.channels.get call.slug with
      | none =>
        rw [hch] at h
        exact absurd h List.not_mem_nil
      | some ch =>
        rw [hch] at h
        dsimp only at h ⊢
        obtain ⟨y, hy, heq⟩ := List.mem_map.mp h
        cases heq
        have hnew : x = AppState.newMessage ch now newId call.sender call.role call.content call.metadata :=
          List.mem_singleton.mp hy
        have hslug : x.channel = call.slug := by
          rw [hnew]
          exact (hw call.slug ch hch).own
        rw [hslug, AppState.posted, AppState.setChannel, Table.get_insert_self, Option.elim_some, posted_append, hnew]
        exact List.mem_append_right _ (List.mem_singleton.mpr rfl)

theorem MessagesMirrored.moved (hm : MessagesMirrored m) (live : ChannelWorld) {ws : List MirrorWrite} {target : Text}
    {E : Event → Prop} (heffect : EmitEffect E m.live.state target live.state)
    (hws : ∀ x, .message x ∈ ws → x ∈ live.state.posted x.channel) :
    MessagesMirrored { m with live, pending := m.pending ++ ws } where
  keyed := heffect.effect.slugKeyed hm.keyed
  counts := fun slug => heffect.effect.counts (hm.counts slug)
  pending := by
    intro x hx
    rcases List.mem_append.mp hx with hx | hx
    · exact (heffect.posted x.channel).subset (hm.pending x hx)
    · exact hws x hx
  performed := fun dbNow x hx => (heffect.posted x.channel).subset (hm.performed dbNow x hx)
  rows := hm.rows
  stored := hm.stored

/-- The rows after a task: what was stored stays, and a row that is new is the task's message. -/
theorem row_execute (db : Db) (dbNow : Timestamp) (write : MirrorWrite) {k : Text × Nat} {row : Message}
    (h : ((write.execute db dbNow).toOption.getD db).messages.get k = some row) :
    db.messages.get k = some row ∨
      ∃ x, write = .message x ∧ k = (x.channel, x.seq) ∧ x.seq ≤ i64Max ∧ row = { x with createdAt := dbNow } := by
  cases write with
  | context slug e =>
    rw [execute_context_messages] at h
    exact .inl h
  | message x =>
    rw [row_execute_message] at h
    by_cases hnew : k = (x.channel, x.seq) ∧ x.seq ≤ i64Max ∧ db.messages.get k = none
    · rw [if_pos hnew] at h
      exact .inr ⟨x, rfl, hnew.1, hnew.2.1, (Option.some.inj h).symm⟩
    · rw [if_neg hnew] at h
      exact .inl h

theorem contains_execute (db : Db) (dbNow : Timestamp) (write : MirrorWrite) {k : Text × Nat}
    (h : db.messages.contains k = true ∨ ∃ x, write = .message x ∧ k = (x.channel, x.seq) ∧ x.seq ≤ i64Max) :
    ((write.execute db dbNow).toOption.getD db).messages.contains k = true := by
  rw [Table.contains]
  cases write with
  | context slug e =>
    rw [execute_context_messages]
    rcases h with h | ⟨x, hx, -⟩
    · exact h
    · cases hx
  | message y =>
    rw [row_execute_message]
    by_cases hnew : k = (y.channel, y.seq) ∧ y.seq ≤ i64Max ∧ db.messages.get k = none
    · rw [if_pos hnew]
      rfl
    · rw [if_neg hnew]
      rcases h with h | ⟨x, hx, hk, hfits⟩
      · exact h
      · cases hx
        rw [not_and_or, not_and_or] at hnew
        exact Option.isSome_iff_ne_none.mpr ((hnew.resolve_left (not_not.mpr hk)).resolve_left (not_not.mpr hfits))

theorem MessagesMirrored.performs (hm : MessagesMirrored m) (dbNow : Timestamp) (i : Nat) :
    MessagesMirrored (m.perform dbNow i) := by
  rw [MirrorWorld.perform]
  cases hi : m.pending[i]? with
  | none => exact hm
  | some write =>
    have hwrite : write ∈ m.pending := List.mem_of_getElem? hi
    constructor
    · exact hm.keyed
    · exact hm.counts
    · exact fun x hx => hm.pending x (List.mem_of_mem_eraseIdx hx)
    · intro at' x hmem
      rcases List.mem_append.mp hmem with hmem | hmem
      · exact hm.performed at' x hmem
      · obtain ⟨-, rfl⟩ := Prod.mk.inj (List.mem_singleton.mp hmem)
        exact hm.pending x hwrite
    · intro c q row hrow
      rcases row_execute m.db dbNow write hrow with hold | ⟨x, rfl, hplace, hfits, rfl⟩
      · obtain ⟨hplace, at', x, hmem, hx⟩ := hm.rows c q row hold
        exact ⟨hplace, at', x, List.mem_append_left _ hmem, hx⟩
      · obtain ⟨rfl, rfl⟩ := Prod.mk.inj hplace
        exact ⟨⟨rfl, rfl, hfits⟩, dbNow, x, List.mem_append_right _ (List.mem_singleton.mpr rfl), rfl, rfl⟩
    · intro at' x hmem hfits
      apply contains_execute
      rcases List.mem_append.mp hmem with hmem | hmem
      · exact .inl (hm.stored at' x hmem hfits)
      · obtain ⟨-, rfl⟩ := Prod.mk.inj (List.mem_singleton.mp hmem)
        exact .inr ⟨x, rfl, rfl, hfits⟩

theorem MessagesMirrored.step (hm : MessagesMirrored m) (a : MirrorAction) : MessagesMirrored (m.step a) := by
  cases a with
  | live a permit =>
    refine hm.moved (m.live.step a) (m.live.step_emits a) ?_
    intro x hx
    cases permit with
    | false => exact absurd hx List.not_mem_nil
    | true => exact ChannelWorld.persisted_posted hm.keyed hx
  | record now slug key value updatedBy permit =>
    refine hm.moved { m.live with state := _ }
      (setContextInternal_emits m.live.state now slug key value updatedBy) ?_
    intro x hx
    cases permit with
    | false => exact absurd hx List.not_mem_nil
    | true =>
      obtain ⟨e, -, he⟩ := List.mem_map.mp hx
      cases he
  | perform dbNow i => exact hm.performs dbNow i
  | fail i =>
    exact ⟨hm.keyed, hm.counts, fun x hx => hm.pending x (List.mem_of_mem_eraseIdx hx), hm.performed,
      hm.rows, hm.stored⟩

theorem run_messagesMirrored (config : Config) (columnSize : Json → Nat) (as : List MirrorAction) :
    MessagesMirrored (MirrorWorld.run config columnSize as) := by
  refine Run.exec_invariant (P := MessagesMirrored) (fun m a hm => hm.step a) ?_ as
  constructor
  · intro slug ch h
    cases h
  · exact fun _ => rfl
  · exact fun _ h => absurd h List.not_mem_nil
  · exact fun _ _ h => absurd h List.not_mem_nil
  · intro c q row h
    cases h
  · exact fun _ _ h => absurd h List.not_mem_nil

/-- The highest stored number of a channel, zero where nothing is stored. -/
def Db.highWater (db : Db) (slug : Text) : Nat := Db.maxSeq (db.channelMessages slug)

theorem mem_channelMessages {db : Db} {slug : Text} {row : Message} :
    row ∈ db.channelMessages slug ↔ row ∈ db.messages.values ∧ row.channel = slug := by
  rw [Db.channelMessages, List.mem_insertionSort, List.mem_filter, decide_eq_true_eq]

theorem le_maxSeq {messages : List Message} {x : Message} (h : x ∈ messages) : x.seq ≤ Db.maxSeq messages := by
  induction messages with
  | nil => exact absurd h List.not_mem_nil
  | cons y ys ih =>
    rw [Db.maxSeq, List.map_cons, List.foldr_cons]
    rcases List.mem_cons.mp h with rfl | h
    · exact Nat.le_max_left _ _
    · exact (ih h).trans (Nat.le_max_right _ _)

theorem maxSeq_mem {messages : List Message} (h : messages ≠ []) : ∃ x ∈ messages, x.seq = Db.maxSeq messages := by
  induction messages with
  | nil => exact absurd rfl h
  | cons y ys ih =>
    have hcons : Db.maxSeq (y :: ys) = max y.seq (Db.maxSeq ys) := rfl
    by_cases hys : ys = []
    · refine ⟨y, List.mem_cons_self, ?_⟩
      rw [hcons, hys]
      exact (Nat.max_zero _).symm
    · obtain ⟨x, hx, hmax⟩ := ih hys
      rw [hcons]
      rcases le_total y.seq (Db.maxSeq ys) with hle | hle
      · exact ⟨x, List.mem_cons_of_mem _ hx, by rw [hmax, Nat.max_eq_right hle]⟩
      · exact ⟨y, List.mem_cons_self, (Nat.max_eq_left hle).symm⟩

/-- The task of the last message posted to the channel reached the database, and the number fits its column. -/
def LastStored (m : MirrorWorld) (slug : Text) : Prop :=
  ∃ dbNow x, (m.live.state.posted slug).getLast? = some x ∧ (dbNow, .message x) ∈ m.performed ∧ x.seq ≤ i64Max

theorem MessagesMirrored.highWater_mem (hm : MessagesMirrored m) {slug : Text}
    (hstored : m.db.channelMessages slug ≠ []) : ∃ dbNow x, (dbNow, .message x) ∈ m.performed ∧
      x ∈ m.live.state.posted slug ∧ x.seq = m.db.highWater slug ∧ x.seq ≤ i64Max := by
  obtain ⟨row, hrow, hmax⟩ := maxSeq_mem hstored
  obtain ⟨hvalues, hslug⟩ := mem_channelMessages.mp hrow
  obtain ⟨⟨c, q⟩, hget⟩ := Table.mem_values.mp hvalues
  obtain ⟨⟨hc, hq, hfits⟩, dbNow, x, hmem, hx, hseq⟩ := hm.rows c q row hget
  have hposted := hm.performed dbNow x hmem
  rw [hx, ← hc, hslug] at hposted
  exact ⟨dbNow, x, hmem, hposted, hseq.trans (hq.symm.trans hmax), hseq ▸ hfits⟩

theorem MessagesMirrored.highWater_le (hm : MessagesMirrored m) (slug : Text) : m.db.highWater slug ≤ i64Max := by
  by_cases hnil : m.db.channelMessages slug = []
  · rw [Db.highWater, hnil]
    exact Nat.zero_le _
  · obtain ⟨dbNow, x, -, -, hseq, hfits⟩ := hm.highWater_mem hnil
    exact hseq ▸ hfits

theorem MessagesMirrored.highWater_iff (hm : MessagesMirrored m) {slug : Text}
    (hposted : m.live.state.posted slug ≠ []) :
    (m.live.state.posted slug).length ≤ m.db.highWater slug ↔ LastStored m slug := by
  have hseqs := (hm.counts slug).seqs
  constructor
  · intro hle
    have hpos : 0 < (m.live.state.posted slug).length := List.length_pos_iff.mpr hposted
    have hnil : m.db.channelMessages slug ≠ [] := by
      intro hnil
      rw [Db.highWater, hnil] at hle
      exact absurd hle (Nat.not_le.mpr hpos)
    obtain ⟨dbNow, x, hmem, hx, hseq, hfits⟩ := hm.highWater_mem hnil
    have hbound := (seq_of_mem hseqs hx).2
    refine ⟨dbNow, x, (getLast?_iff_seq hseqs hx).mpr ?_, hmem, hfits⟩
    omega
  · rintro ⟨dbNow, x, hlast, hmem, hfits⟩
    have hx : x ∈ m.live.state.posted slug := List.mem_of_getLast? hlast
    have hseq := (getLast?_iff_seq hseqs hx).mp hlast
    obtain ⟨row, hrow⟩ := Option.isSome_iff_exists.mp (hm.stored dbNow x hmem hfits)
    obtain ⟨⟨hc, hq, -⟩, -⟩ := hm.rows _ _ row hrow
    have hstored : row ∈ m.db.channelMessages slug :=
      mem_channelMessages.mpr ⟨Table.mem_values.mpr ⟨_, hrow⟩, hc.trans (hm.keyed.posted hx)⟩
    have hle : row.seq ≤ m.db.highWater slug := le_maxSeq hstored
    omega

end Runs

section Restart
variable {db : Db} {s : AppState} {slug : Text} {n : Nat}

/-- Nothing was sent on the channel yet, and its next message gets the number `n`. -/
def Resumes (n : Nat) (s : AppState) (slug : Text) : Prop :=
  ∃ ch, s.channels.get slug = some ch ∧ ch.events = [] ∧ ch.nextSeq = n

theorem Resumes.counts (h : Resumes n s slug) : Counts n s slug := by
  obtain ⟨ch, hch, hevents, hnext⟩ := h
  have hposted : ch.posted = [] := by rw [ChannelState.posted, hevents, List.filterMap_nil]
  rw [Counts, hch]
  constructor
  · rw [hposted]
    rfl
  · rw [hposted]
    exact hnext

theorem Resumes.restoreHistory_ne (h : Resumes n s slug) {other : Text} (hother : other ≠ slug) :
    Resumes n (db.restoreHistory s other) slug := by
  obtain ⟨ch, hch, hch'⟩ := h
  refine ⟨ch, ?_, hch'⟩
  rw [Db.restoreHistory]
  cases db.channelMessages other with
  | nil => exact hch
  | cons m ms => exact (channel_restoreMessages_ne s (Ne.symm hother) _ _ _).trans hch

theorem Resumes.restoreHistory (h : Resumes n s slug) (hn : n = 1 ∨ n = db.highWater slug + 1)
    (hhigh : db.highWater slug ≤ i64Max) : Resumes (db.highWater slug + 1) (db.restoreHistory s slug) slug := by
  obtain ⟨ch, hch, hevents, hnext⟩ := h
  rw [Db.restoreHistory]
  cases hstored : db.channelMessages slug with
  | nil =>
    have hzero : db.highWater slug = 0 := by rw [Db.highWater, hstored]; rfl
    refine ⟨ch, hch, hevents, ?_⟩
    omega
  | cons m ms =>
    refine ⟨_, channel_restoreMessages hch _ _ _, hevents, ?_⟩
    have hmax : Db.maxSeq (m :: ms) = db.highWater slug := by rw [Db.highWater, hstored]
    have hlt : db.highWater slug < u64Max := lt_of_le_of_lt hhigh (by decide)
    have hsucc := saturatingAdd_one hlt
    change max (saturatingAdd (Db.maxSeq (m :: ms)) 1) 1 = _
    rw [hmax]
    omega

theorem Resumes.loadMessages (db : Db) (hhigh : db.highWater slug ≤ i64Max) {slugs : List Text}
    (h : Resumes (db.highWater slug + 1) s slug ∨ (Resumes 1 s slug ∧ slug ∈ slugs)) :
    Resumes (db.highWater slug + 1) (db.loadMessages s slugs) slug := by
  -- the room's own slug restores its numbering, the others leave it
  induction slugs generalizing s with
  | nil => exact h.resolve_right (fun h => absurd h.2 List.not_mem_nil)
  | cons c slugs ih =>
    rw [Db.loadMessages, List.foldl_cons]
    apply ih
    by_cases hc : c = slug
    · rw [hc]
      rcases h with h | ⟨h, -⟩
      · exact .inl (h.restoreHistory (.inr rfl) hhigh)
      · exact .inl (h.restoreHistory (.inl rfl) hhigh)
    · rcases h with h | ⟨h, hmem⟩
      · exact .inl (h.restoreHistory_ne hc)
      · exact .inr ⟨h.restoreHistory_ne hc, (List.mem_cons.mp hmem).resolve_left (Ne.symm hc)⟩

theorem Resumes.restoreContextEntry (h : Resumes n s slug) (target : Text) (entry : ContextEntry) :
    Resumes n (s.restoreContextEntry target entry).2 slug := by
  obtain ⟨ch, hch, hch'⟩ := h
  rcases restoreContextEntry_cases s target entry with hs | ⟨c, hc, hs⟩
  · rw [hs]
    exact ⟨ch, hch, hch'⟩
  · rw [hs]
    by_cases heq : slug = target
    · rw [← heq, hch] at hc
      cases hc
      exact ⟨ch.putContext entry, heq ▸ Table.get_insert_self _ _ _, hch'⟩
    · exact ⟨ch, (Table.get_insert_ne heq).trans hch, hch'⟩

theorem Resumes.loadRows (rows : List ContextRow) (h : Resumes n s slug) :
    Resumes n (rows.foldl (fun s row => (s.restoreContextEntry row.channelSlug row.toEntry).2) s) slug := by
  induction rows generalizing s with
  | nil => exact h
  | cons row rows ih => exact ih (h.restoreContextEntry row.channelSlug row.toEntry)

/-- A restored channel counts on from its highest stored number; one that is not restored is gone. -/
theorem counts_restart {m : MirrorWorld} (hm : MessagesMirrored m) (now : Now) (channels : List ChannelRow)
    (slug : Text) : Counts (if (m.restart now channels).state.channels.contains slug = true then
      m.db.highWater slug + 1 else 1) (m.restart now channels).state slug := by
  let loaded := Db.loadChannels (AppState.new m.live.state.config) now (channels.filter fun row => !row.archived) 0
  obtain ⟨hblank, -⟩ : AllBlank loaded ∧ loaded.config = m.live.state.config :=
    loadChannels_spec (allBlank_new m.live.state.config) now (channels.filter fun row => !row.archived) 0
  by_cases hslug : (m.restart now channels).state.channels.contains slug = true
  · rw [if_pos hslug]
    rw [contains_restart] at hslug
    obtain ⟨ch, hch⟩ := Option.isSome_iff_exists.mp hslug
    have hfresh : Resumes 1 loaded slug := ⟨ch, hch, (hblank slug ch hch).events, (hblank slug ch hch).nextSeq⟩
    have hmessages := Resumes.loadMessages { m.db with channels } (hm.highWater_le slug)
      (.inr ⟨hfresh, hblank.mem_slugs.mpr hslug⟩)
    exact (hmessages.loadRows _).counts
  · rw [if_neg hslug, Counts]
    cases hch : (m.restart now channels).state.channels.get slug with
    | none => rfl
    | some ch =>
      rw [Table.contains, hch] at hslug
      exact absurd rfl hslug

end Restart

section Reuse
variable {m : MirrorWorld} {w : ChannelWorld} {slug : Text}

/-- The messages delivered on a channel before the restart, in `m`, and after it, in `w`, carry different
numbers, and a client that saw any of the old ones is given every retained new one. -/
structure NoReuse (m : MirrorWorld) (w : ChannelWorld) (slug : Text) : Prop where
  distinct : ((m.live.state.posted slug ++ w.state.posted slug).map Message.seq).Nodup
  resume : ∀ x ∈ m.live.state.posted slug, ∀ y ∈ w.state.posted slug, ∀ ch,
    w.state.channels.get slug = some ch → y ∈ ch.messages →
    ∃ messages, w.state.history slug (some x.seq) = .ok messages ∧ y ∈ messages

theorem noReuse_of_lt (hm : (m.live.state.posted slug).map Message.seq =
      List.range' 1 (m.live.state.posted slug).length) {first : Nat}
    (hw : (w.state.posted slug).map Message.seq = List.range' first (w.state.posted slug).length)
    (h : ∀ x ∈ m.live.state.posted slug, ∀ y ∈ w.state.posted slug, x.seq < y.seq) : NoReuse m w slug where
  distinct := by
    rw [List.map_append, List.nodup_append]
    refine ⟨hm ▸ List.nodup_range', hw ▸ List.nodup_range', ?_⟩
    intro a ha b hb
    obtain ⟨x, hx, rfl⟩ := List.mem_map.mp ha
    obtain ⟨y, hy, rfl⟩ := List.mem_map.mp hb
    exact (h x hx y hy).ne
  resume := by
    intro x hx y hy ch hch hretained
    refine ⟨_, by rw [AppState.history, hch], List.mem_filter.mpr ⟨hretained, ?_⟩⟩
    exact decide_eq_true (h x hx y hy)

theorem NoReuse.first_gt (h : NoReuse m w slug)
    (hm : (m.live.state.posted slug).map Message.seq = List.range' 1 (m.live.state.posted slug).length)
    {first : Nat} (hw : (w.state.posted slug).map Message.seq = List.range' first (w.state.posted slug).length)
    (hpost : w.state.posted slug ≠ []) (hfirst : 1 ≤ first) : (m.live.state.posted slug).length < first := by
  have hpos : 0 < (w.state.posted slug).length := List.length_pos_iff.mpr hpost
  have hdistinct := h.distinct
  rw [List.map_append, List.nodup_append, hm, hw] at hdistinct
  by_contra hle
  refine hdistinct.2.2 first ?_ first ?_ rfl
  · rw [List.mem_range'_1]
    omega
  · rw [List.mem_range'_1]
    omega

/-- A channel gives out no number twice across a restart exactly when nothing was posted before it, nothing
is posted after it, or the restart restores the channel and the write of the last message had been stored. -/
theorem seq_reuse_iff (config : Config) (columnSize : Json → Nat) (as : List MirrorAction) (now : Now)
    (channels : List ChannelRow) (bs : List ChannelAction) (slug : Text) :
    NoReuse (MirrorWorld.run config columnSize as)
        (Run.exec ChannelWorld.step ((MirrorWorld.run config columnSize as).restart now channels) bs) slug ↔
      (MirrorWorld.run config columnSize as).live.state.posted slug = [] ∨
      (Run.exec ChannelWorld.step ((MirrorWorld.run config columnSize as).restart now channels) bs).state.posted
        slug = [] ∨
      (((MirrorWorld.run config columnSize as).restart now channels).state.channels.contains slug = true ∧
        LastStored (MirrorWorld.run config columnSize as) slug) := by
  have hm := run_messagesMirrored config columnSize as
  generalize MirrorWorld.run config columnSize as = m at *
  have hold := (hm.counts slug).seqs
  have hcounts : Counts (if (m.restart now channels).state.channels.contains slug = true then
      m.db.highWater slug + 1 else 1) (Run.exec ChannelWorld.step (m.restart now channels) bs).state slug := by
    refine Run.exec_invariant (P := fun w : ChannelWorld => Counts _ w.state slug) ?_
      (counts_restart hm now channels slug) bs
    exact fun w a hw => (w.step_emits a).effect.counts hw
  have hnew := hcounts.seqs
  generalize Run.exec ChannelWorld.step (m.restart now channels) bs = w at *
  constructor
  · intro h
    by_cases hbefore : m.live.state.posted slug = []
    · exact .inl hbefore
    · by_cases hafter : w.state.posted slug = []
      · exact .inr (.inl hafter)
      · have hpos : 0 < (m.live.state.posted slug).length := List.length_pos_iff.mpr hbefore
        by_cases hrestored : (m.restart now channels).state.channels.contains slug = true
        · rw [if_pos hrestored] at hnew
          have hgt := h.first_gt hold hnew hafter (by omega)
          exact .inr (.inr ⟨hrestored, (hm.highWater_iff hbefore).mp (by omega)⟩)
        · rw [if_neg hrestored] at hnew
          have hgt := h.first_gt hold hnew hafter le_rfl
          omega
  · intro h
    apply noReuse_of_lt hold hnew
    intro x hx y hy
    rcases h with h | h | ⟨hrestored, hlast⟩
    · exact absurd hx (h ▸ List.not_mem_nil)
    · exact absurd hy (h ▸ List.not_mem_nil)
    · rw [if_pos hrestored] at hnew
      have hxle := (seq_of_mem hold hx).2
      have hyge := (seq_of_mem hnew hy).1
      have hhigh := (hm.highWater_iff (List.ne_nil_of_mem hx)).mpr hlast
      omega

/-- `ada` posts one message. -/
def adaPost (content : String) : List ChannelAction :=
  [.post ⟨0, 0⟩ "room".toList "ada".toList .user content.toList .null, .commit ⟨0, 0⟩ [] 0]

/-- A message whose write is shed, in a channel whose row was stored. -/
def shedPost : List MirrorAction :=
  (.insert ⟨0, 0⟩ "room".toList "room".toList "ada".toList [] [] :: adaPost "one").map (.live · false)

theorem not_noReuse_shedPost : ¬ NoReuse (MirrorWorld.run Config.inMemory (fun _ => 0) shedPost)
    (Run.exec ChannelWorld.step
      ((MirrorWorld.run Config.inMemory (fun _ => 0) shedPost).restart ⟨0, 0⟩ [roomRow]) (adaPost "two"))
    "room".toList := by
  intro h
  have hseqs : ((MirrorWorld.run Config.inMemory (fun _ => 0) shedPost).live.state.posted "room".toList ++
      (Run.exec ChannelWorld.step
        ((MirrorWorld.run Config.inMemory (fun _ => 0) shedPost).restart ⟨0, 0⟩ [roomRow])
        (adaPost "two")).state.posted "room".toList).map Message.seq = [1, 1] := by decide +kernel
  have hdistinct := h.distinct
  rw [hseqs] at hdistinct
  exact absurd hdistinct (by decide)

end Reuse
end AgentBridge
