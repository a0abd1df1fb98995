import AgentBridge.State.Sections

/-! The bounded history of a channel: the retained messages are the last ones posted,
and the counters next to them are exact. -/

namespace AgentBridge
open State

/-- What the byte counter counts. -/
def retainedBytes (messages : List Message) : Nat := (messages.map messageRetainedBytes).sum

section Eviction
variable {limit budget : Nat} {messages : List Message}

theorem retainedBytes_cons (m : Message) (ms : List Message) :
    retainedBytes (m :: ms) = messageRetainedBytes m + retainedBytes ms := rfl

theorem retainedBytes_append (ms ns : List Message) :
    retainedBytes (ms ++ ns) = retainedBytes ms + retainedBytes ns := by
  simp [retainedBytes]

/-- What a ring of messages must satisfy under its two limits. -/
structure WithinLimits (limit budget : Nat) (messages : List Message) : Prop where
  length : messages.length ≤ limit
  bytes : retainedBytes messages ≤ budget ∨ messages.length = 1

theorem WithinLimits.suffix {keep : List Message} (h : WithinLimits limit budget messages) (hsuffix : keep <:+ messages)
    (hne : keep ≠ []) : WithinLimits limit budget keep := by
  obtain ⟨old, rfl⟩ := hsuffix
  have hpos : 0 < keep.length := List.length_pos_iff.mpr hne
  obtain ⟨hlength, hbytes⟩ := h
  rw [List.length_append] at hlength hbytes
  rw [retainedBytes_append] at hbytes
  refine ⟨by omega, ?_⟩
  apply hbytes.imp
  · intro h
    omega
  · intro h
    omega

theorem not_fits_iff (m : Message) (ms : List Message) :
    ¬ WithinLimits limit budget (m :: ms) ↔
      (limit < (m :: ms).length ∨ (budget < retainedBytes (m :: ms) ∧ 1 < (m :: ms).length)) := by
  have hpos : 0 < (m :: ms).length := Nat.succ_pos _
  constructor
  · intro h
    by_contra hfits
    rw [not_or, not_and_or, Nat.not_lt, Nat.not_lt, Nat.not_lt] at hfits
    refine h ⟨hfits.1, hfits.2.imp_right ?_⟩
    intro hone
    omega
  · rintro h ⟨hlength, hbytes⟩
    omega

theorem evict_cons (m : Message) (ms : List Message) :
    (¬ WithinLimits limit budget (m :: ms) ∧ evict limit budget (m :: ms) (retainedBytes (m :: ms)) =
      evict limit budget ms (retainedBytes ms)) ∨
    (WithinLimits limit budget (m :: ms) ∧ evict limit budget (m :: ms) (retainedBytes (m :: ms)) =
      (m :: ms, retainedBytes (m :: ms))) := by
  rw [evict]
  by_cases hfits : WithinLimits limit budget (m :: ms)
  · rw [if_neg (fun h => (not_fits_iff m ms).mpr h hfits)]
    exact .inr ⟨hfits, rfl⟩
  · -- the subtraction is exact: the sum counts `m`
    have hexact : retainedBytes (m :: ms) - messageRetainedBytes m = retainedBytes ms := by
      rw [retainedBytes_cons, Nat.add_sub_cancel_left]
    rw [if_pos ((not_fits_iff m ms).mp hfits), hexact]
    exact .inl ⟨hfits, rfl⟩

theorem evict_spec (limit budget : Nat) (messages : List Message) :
    (evict limit budget messages (retainedBytes messages)).1 <:+ messages ∧
    (evict limit budget messages (retainedBytes messages)).2 =
      retainedBytes (evict limit budget messages (retainedBytes messages)).1 ∧
    WithinLimits limit budget (evict limit budget messages (retainedBytes messages)).1 := by
  -- on the ring from its oldest message
  induction messages with
  | nil => exact ⟨List.suffix_refl _, rfl, Nat.zero_le _, .inl (Nat.zero_le _)⟩
  | cons m ms ih =>
    rcases evict_cons m ms with ⟨-, h⟩ | ⟨hfits, h⟩
    · rw [h]
      exact ⟨ih.1.trans (List.suffix_cons m ms), ih.2⟩
    · rw [h]
      exact ⟨List.suffix_refl _, rfl, hfits⟩

theorem evict_keeps_iff {keep : List Message} (hsuffix : keep <:+ messages) (hne : keep ≠ []) :
    keep <:+ (evict limit budget messages (retainedBytes messages)).1 ↔ WithinLimits limit budget keep := by
  constructor
  · intro h
    exact (evict_spec limit budget messages).2.2.suffix h hne
  · intro hkeep
    -- eviction drops from the front, and stops at the first suffix within the limits
    induction messages with
    | nil => exact absurd (List.suffix_nil.mp hsuffix) hne
    | cons m ms ih =>
      rcases evict_cons m ms with ⟨hfull, h⟩ | ⟨-, h⟩
      · rw [h]
        apply ih
        rcases List.suffix_cons_iff.mp hsuffix with rfl | hrest
        · exact absurd hkeep hfull
        · exact hrest
      · rw [h]
        exact hsuffix

end Eviction

/-- The history of a channel against everything that was posted to it. -/
structure HistoryOk (config : Config) (ch : ChannelState) : Prop where
  limit : ch.historyLimit = config.historyLimit
  numbered : ch.posted.map Message.seq = List.range' 1 ch.messageCount
  next : ch.nextSeq = ch.messageCount + 1
  ring : ch.messages <:+ ch.posted
  nonempty : 1 ≤ config.historyLimit → ch.posted ≠ [] → ch.messages ≠ []
  bytes : ch.historyBytes = retainedBytes ch.messages
  fits : WithinLimits config.historyLimit config.maxChannelHistoryBytes ch.messages

section Moves
variable {config : Config} {ch ch' : ChannelState}

/-- What a move that posts nothing leaves alone. -/
structure SameHistory (ch ch' : ChannelState) : Prop where
  historyLimit : ch'.historyLimit = ch.historyLimit
  posted : ch'.posted = ch.posted
  messageCount : ch'.messageCount = ch.messageCount
  nextSeq : ch'.nextSeq = ch.nextSeq
  messages : ch'.messages = ch.messages
  historyBytes : ch'.historyBytes = ch.historyBytes

theorem SameHistory.historyOk (h : SameHistory ch ch') (hch : HistoryOk config ch) : HistoryOk config ch' where
  limit := h.historyLimit.trans hch.limit
  numbered := by rw [h.posted, h.messageCount, hch.numbered]
  next := by rw [h.nextSeq, h.messageCount, hch.next]
  ring := by rw [h.messages, h.posted]; exact hch.ring
  nonempty := by rw [h.messages, h.posted]; exact hch.nonempty
  bytes := by rw [h.historyBytes, h.messages, hch.bytes]
  fits := by rw [h.messages]; exact hch.fits

theorem append_messages (hch : HistoryOk config ch) (now : Now) (m : Message) :
    (AppState.append ch now config.maxChannelHistoryBytes m).messages =
      (evict config.historyLimit config.maxChannelHistoryBytes (ch.messages ++ [m])
        (retainedBytes (ch.messages ++ [m]))).1 ∧
    (AppState.append ch now config.maxChannelHistoryBytes m).historyBytes =
      (evict config.historyLimit config.maxChannelHistoryBytes (ch.messages ++ [m])
        (retainedBytes (ch.messages ++ [m]))).2 := by
  have hbytes : ch.historyBytes + messageRetainedBytes m = retainedBytes (ch.messages ++ [m]) := by
    rw [retainedBytes_append, hch.bytes]
    rfl
  constructor
  · rw [AppState.append, hch.limit, hbytes]
  · rw [AppState.append, hch.limit, hbytes]

theorem HistoryOk.append (hch : HistoryOk config ch) (now : Now) {m : Message} (hseq : m.seq = ch.nextSeq) :
    HistoryOk config (AppState.append ch now config.maxChannelHistoryBytes m) := by
  obtain ⟨hmessages, hhistory⟩ := append_messages hch now m
  obtain ⟨hsuffix, hexact, hfits⟩ :=
    evict_spec config.historyLimit config.maxChannelHistoryBytes (ch.messages ++ [m])
  constructor
  · exact hch.limit
  · have hcount : (AppState.append ch now config.maxChannelHistoryBytes m).messageCount = ch.messageCount + 1 := rfl
    rw [posted_append, List.map_append, hch.numbered, hcount, List.range'_1_concat]
    simp [hseq, hch.next, Nat.add_comm]
  · exact congrArg (· + 1) hch.next
  · rw [hmessages, posted_append]
    obtain ⟨old, hold⟩ := hch.ring
    rw [← hold, List.append_assoc]
    exact hsuffix.trans (List.suffix_append _ _)
  · intro hlimit _
    -- the message just posted fits alone
    have hlast : [m] <:+ (evict config.historyLimit config.maxChannelHistoryBytes (ch.messages ++ [m])
        (retainedBytes (ch.messages ++ [m]))).1 :=
      (evict_keeps_iff (List.suffix_append _ _) (List.cons_ne_nil _ _)).mpr ⟨hlimit, .inr rfl⟩
    rw [hmessages]
    rintro hnil
    rw [hnil] at hlast
    exact List.cons_ne_nil _ _ (List.suffix_nil.mp hlast)
  · rw [hhistory, hmessages]
    exact hexact
  · rw [hmessages]
    exact hfits

theorem historyOk_newChannel (s : AppState) (now : Now)
    (slug topic createdBy : Text) (embedding : List Float32) (model : Text) :
    HistoryOk s.config (s.newChannel now slug topic createdBy embedding model) where
  limit := rfl
  numbered := rfl
  next := rfl
  ring := List.suffix_refl _
  nonempty := fun _ h => absurd rfl h
  bytes := rfl
  fits := ⟨Nat.zero_le _, .inl (Nat.zero_le _)⟩

theorem sameHistory_touch (now : Now) (key : Text) (m : Member) :
    SameHistory ch (AppState.touch ch now key m) :=
  ⟨rfl, posted_touch ch now key m, rfl, rfl, rfl, rfl⟩

theorem sameHistory_seat (now : Now) (key : Text) (role : MemberRole) :
    SameHistory ch (AppState.seat ch now key role) := ⟨rfl, posted_seat ch now key role, rfl, rfl, rfl, rfl⟩

theorem sameHistory_unseat (now : Now) (key : Text) :
    SameHistory ch (AppState.unseat ch now key) := ⟨rfl, posted_unseat ch now key, rfl, rfl, rfl, rfl⟩

theorem sameHistory_putContext (entry : ContextEntry) : SameHistory ch (ch.putContext entry) :=
  ⟨rfl, rfl, rfl, rfl, rfl, rfl⟩

theorem ChannelMove.historyOk {s : AppState} {slug : Text} {old : Option ChannelState}
    (h : ChannelMove s slug old ch)
    (hold : ∀ ch', old = some ch' → HistoryOk s.config ch') : HistoryOk s.config ch := by
  cases h with
  | created now topic createdBy embedding model => exact historyOk_newChannel s now ..
  | touched now hm => exact (sameHistory_touch _ _ _).historyOk (hold _ rfl)
  | seated now role hm hroom => exact (sameHistory_seat _ _ _).historyOk (hold _ rfl)
  | unseated now hm => exact (sameHistory_unseat _ _).historyOk (hold _ rfl)
  | appended now newId sender role content metadata => exact (hold _ rfl).append now rfl
  | stored entry => exact (sameHistory_putContext _).historyOk (hold _ rfl)

end Moves

/-- The bounded history as a client relies on it. -/
structure RetainedOk (config : Config) (ch : ChannelState) : Prop where
  consecutive : ch.messages.map Message.seq =
    List.range' (ch.nextSeq - ch.messages.length) ch.messages.length
  positive : ch.messages.length < ch.nextSeq
  count : ch.messageCount = ch.nextSeq - 1
  bytes : ch.historyBytes = (ch.messages.map messageRetainedBytes).sum
  length : ch.messages.length ≤ config.historyLimit
  budget : ch.historyBytes ≤ config.maxChannelHistoryBytes ∨ ch.messages.length = 1
  latest : ch.messages.getLast? = ch.posted.getLast?

theorem HistoryOk.retainedOk {config : Config} {ch : ChannelState} (h : HistoryOk config ch)
    (hlimit : 1 ≤ config.historyLimit) : RetainedOk config ch := by
  obtain ⟨old, hold⟩ := h.ring
  have hlength : old.length + ch.messages.length = ch.messageCount := by
    have hnumbered := congrArg List.length h.numbered
    rw [← hold] at hnumbered
    simpa using hnumbered
  have hmessages : ch.messages.map Message.seq = List.range' (1 + old.length) ch.messages.length := by
    have hnumbered := h.numbered
    rw [← hold, List.map_append, ← hlength, ← List.range'_append_1] at hnumbered
    exact (List.append_inj hnumbered (by simp)).2
  constructor
  · rw [hmessages, h.next, ← hlength]
    congr 1
    omega
  · rw [h.next]
    omega
  · rw [h.next]
    rfl
  · exact h.bytes
  · exact h.fits.length
  · rw [h.bytes]
    exact h.fits.bytes
  · by_cases hposted : ch.posted = []
    · have hmessages : ch.messages = [] := List.suffix_nil.mp (hposted ▸ h.ring)
      rw [hposted, hmessages]
    · rw [← hold, List.getLast?_append_of_ne_nil _ (h.nonempty hlimit hposted)]

theorem run_historyOk (config : Config) (as : List ChannelAction) (slug : Text) (ch : ChannelState)
    (h : (ChannelWorld.run config as).state.channels.get slug = some ch) : HistoryOk config ch := by
  refine ChannelWorld.run_channels ?_ as slug ch h
  intro s slug old ch hconfig hmove hold
  subst hconfig
  exact hmove.historyOk hold

/-- In every state reachable by interleaved channel operations, the history of every channel is
the exact end of what was posted. -/
theorem channel_history_invariant (config : Config) (hlimit : 1 ≤ config.historyLimit)
    (as : List ChannelAction) (slug : Text) (ch : ChannelState)
    (h : (ChannelWorld.run config as).state.channels.get slug = some ch) : RetainedOk config ch :=
  (run_historyOk config as slug ch h).retainedOk hlimit

/-- A channel that keeps two messages. -/
def smallConfig : Config := { Config.inMemory with historyLimit := 2 }

/-- `ada` posts three messages. -/
def burst : List ChannelAction :=
  let post (content : String) : List ChannelAction :=
    [.post ⟨0, 0⟩ "room".toList "ada".toList .user content.toList .null, .commit ⟨0, 0⟩ [] 0]
  .insert ⟨0, 0⟩ "room".toList "room".toList "ada".toList [] [] :: post "one" ++ post "two" ++ post "three"

theorem channel_history_invariant_burst : ∃ ch,
    (ChannelWorld.run smallConfig burst).state.channels.get "room".toList = some ch ∧
    ch.messages.map Message.seq = [2, 3] ∧ RetainedOk smallConfig ch := by
  have hrun : ((ChannelWorld.run smallConfig burst).state.channels.get "room".toList).map
      (fun ch => ch.messages.map Message.seq) = some [2, 3] := by decide +kernel
  obtain ⟨ch, hch, hseqs⟩ := Option.map_eq_some_iff.mp hrun
  exact ⟨ch, hch, hseqs, channel_history_invariant smallConfig (by decide) burst _ ch hch⟩

end AgentBridge
