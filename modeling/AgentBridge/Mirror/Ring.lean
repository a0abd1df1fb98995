import AgentBridge.Mirror.Restore

/-! The recent history that a boot puts back: the newest messages that fit, with the counters next to
them exact, which is what every later post goes on from. -/

namespace AgentBridge
open State

/-- The ring of a channel against its counters, whatever was posted before. -/
structure RingOk (limit budget : Nat) (ch : ChannelState) : Prop where
  sized : ch.historyLimit = limit
  ordered : ch.messages.Pairwise fun a b => a.seq < b.seq
  above : ∀ m ∈ ch.messages, m.seq < ch.nextSeq
  bytes : ch.historyBytes = retainedBytes ch.messages
  count : ch.messages.length ≤ ch.messageCount
  fits : WithinLimits limit budget ch.messages

section Moves
variable {limit budget : Nat} {ch ch' : ChannelState}

theorem SameHistory.ringOk (h : SameHistory ch ch') (hch : RingOk limit budget ch) : RingOk limit budget ch' where
  sized := h.historyLimit.trans hch.sized
  ordered := by rw [h.messages]; exact hch.ordered
  above := by rw [h.messages, h.nextSeq]; exact hch.above
  bytes := by rw [h.historyBytes, h.messages, hch.bytes]
  count := by rw [h.messages, h.messageCount]; exact hch.count
  fits := by rw [h.messages]; exact hch.fits

theorem RingOk.append (hch : RingOk limit budget ch) (now : Now) {m : Message} (hseq : m.seq = ch.nextSeq) :
    RingOk limit budget (AppState.append ch now budget m) := by
  obtain ⟨hsuffix, hexact, hfits⟩ := evict_spec limit budget (ch.messages ++ [m])
  have hkept : evict ch.historyLimit budget (ch.messages ++ [m]) (ch.historyBytes + messageRetainedBytes m) =
      evict limit budget (ch.messages ++ [m]) (retainedBytes (ch.messages ++ [m])) := by
    rw [hch.sized, retainedBytes_append, hch.bytes]
    rfl
  have hmessages : (AppState.append ch now budget m).messages =
      (evict limit budget (ch.messages ++ [m]) (retainedBytes (ch.messages ++ [m]))).1 := congrArg Prod.fst hkept
  have hbytes : (AppState.append ch now budget m).historyBytes =
      (evict limit budget (ch.messages ++ [m]) (retainedBytes (ch.messages ++ [m]))).2 := congrArg Prod.snd hkept
  have hordered : (ch.messages ++ [m]).Pairwise fun a b => a.seq < b.seq := by
    refine List.pairwise_append.mpr ⟨hch.ordered, List.pairwise_singleton _ _, ?_⟩
    intro a ha b hb
    rw [List.mem_singleton.mp hb, hseq]
    exact hch.above a ha
  constructor
  · exact hch.sized
  · rw [hmessages]
    exact hordered.sublist hsuffix.sublist
  · intro x hx
    rw [hmessages] at hx
    have hnext : (AppState.append ch now budget m).nextSeq = ch.nextSeq + 1 := rfl
    rw [hnext]
    rcases List.mem_append.mp (hsuffix.subset hx) with hold | hnew
    · exact Nat.lt_succ_of_lt (hch.above x hold)
    · rw [List.mem_singleton.mp hnew, hseq]
      exact Nat.lt_succ_self _
  · rw [hbytes, hmessages]
    exact hexact
  · have hlength := hsuffix.length_le
    rw [List.length_append, List.length_singleton] at hlength
    rw [hmessages]
    exact hlength.trans (Nat.succ_le_succ hch.count)
  · rw [hmessages]
    exact hfits

theorem ChannelMove.ringOk {s : AppState} {slug : Text} {old : ChannelState} (h : ChannelMove s slug (some old) ch)
    (hold : RingOk limit s.config.maxChannelHistoryBytes old) : RingOk limit s.config.maxChannelHistoryBytes ch := by
  cases h with
  | touched now hm => exact (sameHistory_touch _ _ _).ringOk hold
  | seated now role hm hroom => exact (sameHistory_seat _ _ _).ringOk hold
  | unseated now hm => exact (sameHistory_unseat _ _).ringOk hold
  | appended now newId sender role content metadata => exact hold.append now rfl
  | stored entry => exact (sameHistory_putContext _).ringOk hold

def RingAt (limit budget : Nat) (slug : Text) (s : AppState) : Prop :=
  s.config.maxChannelHistoryBytes = budget ∧ ∃ ch, s.channels.get slug = some ch ∧ RingOk limit budget ch

theorem SectionEffect.ringAt {s s' : AppState} {slug target : Text} (h : SectionEffect s target s')
    (hs : RingAt limit budget slug s) : RingAt limit budget slug s' := by
  obtain ⟨hbudget, ch, hch, hring⟩ := hs
  refine ⟨by rw [h.config, hbudget], ?_⟩
  by_cases heq : slug = target
  · subst heq
    cases h with
    | same => exact ⟨ch, hch, hring⟩
    | @moved new hm =>
      rw [hch] at hm
      subst hbudget
      exact ⟨new, Table.get_insert_self _ _ _, hm.ringOk hring⟩
  · exact ⟨ch, (h.frame heq).trans hch, hring⟩

theorem exec_ringAt {w : ChannelWorld} {slug : Text} (hw : RingAt limit budget slug w.state)
    (as : List ChannelAction) : RingAt limit budget slug (Run.exec ChannelWorld.step w as).state :=
  Run.exec_invariant (P := fun w : ChannelWorld => RingAt limit budget slug w.state)
    (fun w a hw => (w.step_emits a).effect.ringAt hw) hw as

end Moves

section Newest
variable {slug : Text} {messages keep : List Message}

/-- The newest messages of a channel in a list: in the order of their numbers, and with a message all
later ones. -/
structure Newest (slug : Text) (messages keep : List Message) : Prop where
  ordered : keep.Pairwise fun a b => a.seq < b.seq
  own : ∀ m ∈ keep, m ∈ messages ∧ m.channel = slug
  later : ∀ m ∈ messages, m.channel = slug → ∀ k ∈ keep, k.seq ≤ m.seq → m ∈ keep

theorem suffix_of_later {α : Type} {f : α → Nat} {l keep : List α} (hl : l.Pairwise fun a b => f a < f b)
    (hkeep : keep.Pairwise fun a b => f a < f b) (hsub : keep ⊆ l)
    (hlater : ∀ a ∈ l, ∀ k ∈ keep, f k ≤ f a → a ∈ keep) : keep <:+ l := by
  have hnodup {l : List α} (hl : l.Pairwise fun a b => f a < f b) : l.Nodup :=
    hl.imp fun h heq => absurd (congrArg f heq) (ne_of_lt h)
  -- the first element is kept only if all are
  induction l with
  | nil => rw [List.subset_nil.mp hsub]
  | cons a l ih =>
    obtain ⟨hfirst, hrest⟩ := List.pairwise_cons.mp hl
    by_cases ha : a ∈ keep
    · -- with the first element everything is in
      have hall : ∀ b, b ∈ keep ↔ b ∈ a :: l := by
        intro b
        refine ⟨fun hb => hsub hb, fun hb => hlater b hb a ha ?_⟩
        rcases List.mem_cons.mp hb with rfl | hb
        · exact le_rfl
        · exact (hfirst b hb).le
      have hperm : keep.Perm (a :: l) := (List.perm_ext_iff_of_nodup (hnodup hkeep) (hnodup hl)).mpr hall
      rw [hperm.eq_of_pairwise (fun x y _ _ hxy hyx => absurd hxy (lt_asymm hyx)) hkeep hl]
    · have hsub' : keep ⊆ l := by
        intro b hb
        exact (List.mem_cons.mp (hsub hb)).resolve_left fun heq => ha (heq ▸ hb)
      exact (ih hrest hsub' fun b hb => hlater b (List.mem_cons_of_mem a hb)).trans (List.suffix_cons a l)

def ownMessages (slug : Text) (messages : List Message) : List Message :=
  (messages.filter fun m => m.channel = slug).insertionSort fun a b => a.seq ≤ b.seq

theorem mem_ownMessages {m : Message} : m ∈ ownMessages slug messages ↔ m ∈ messages ∧ m.channel = slug := by
  rw [ownMessages, (List.perm_insertionSort _ _).mem_iff, List.mem_filter, decide_eq_true_eq]

theorem ownMessages_ordered (h : ((messages.filter fun m => m.channel = slug).map Message.seq).Nodup) :
    (ownMessages slug messages).Pairwise fun a b => a.seq < b.seq := by
  have hsorted : (ownMessages slug messages).Pairwise fun a b => a.seq ≤ b.seq := List.pairwise_insertionSort _ _
  have hdistinct : ((ownMessages slug messages).map Message.seq).Nodup :=
    ((List.perm_insertionSort _ _).map _).nodup_iff.mpr h
  exact (hsorted.and (List.pairwise_map.mp hdistinct)).imp fun h => lt_of_le_of_ne h.1 h.2

theorem newest_iff_suffix (h : ((messages.filter fun m => m.channel = slug).map Message.seq).Nodup) :
    Newest slug messages keep ↔ keep <:+ ownMessages slug messages := by
  have hordered := ownMessages_ordered h
  constructor
  · intro hkeep
    refine suffix_of_later hordered hkeep.ordered (fun m hm => mem_ownMessages.mpr (hkeep.own m hm)) ?_
    intro m hm
    obtain ⟨hmem, hown⟩ := mem_ownMessages.mp hm
    exact hkeep.later m hmem hown
  · rintro ⟨old, hold⟩
    rw [← hold] at hordered
    obtain ⟨-, hkeep, hbefore⟩ := List.pairwise_append.mp hordered
    refine ⟨hkeep, fun m hm => mem_ownMessages.mp (hold ▸ List.mem_append_right old hm), ?_⟩
    intro m hmem hown k hk hle
    have hm : m ∈ old ++ keep := hold ▸ mem_ownMessages.mpr ⟨hmem, hown⟩
    exact (List.mem_append.mp hm).resolve_left fun hearly => absurd (hbefore m hearly k hk) (Nat.not_lt.mpr hle)

end Newest

/-- What `restore_messages` leaves a channel with: the longest list of its newest messages that fits. -/
structure Restored (slug : Text) (messages : List Message) (budget : Nat) (ch : ChannelState) : Prop where
  newest : Newest slug messages ch.messages
  longest : ∀ keep, Newest slug messages keep → WithinLimits ch.historyLimit budget keep → keep <:+ ch.messages
  nonempty : (∃ m ∈ messages, m.channel = slug) → ch.messages ≠ []
  ring : RingOk ch.historyLimit budget ch

section Restore
variable {s : AppState} {slug : Text} {ch : ChannelState}

theorem restored_withMessages (hlimit : 1 ≤ ch.historyLimit) (budget : Nat) {messages : List Message}
    (messageCount : Nat) {maxSeq : Nat}
    (hdistinct : ((messages.filter fun m => m.channel = slug).map Message.seq).Nodup)
    (hmax : ∀ m ∈ messages, m.channel = slug → m.seq ≤ maxSeq) (hrange : maxSeq < u64Max) :
    Restored slug messages budget
      (AppState.withMessages ch budget (ownMessages slug messages) messageCount maxSeq) := by
  obtain ⟨hsuffix, hexact, hfits⟩ := evict_spec ch.historyLimit budget (ownMessages slug messages)
  have hmessages : (AppState.withMessages ch budget (ownMessages slug messages) messageCount maxSeq).messages =
      (evict ch.historyLimit budget (ownMessages slug messages) (retainedBytes (ownMessages slug messages))).1 := rfl
  have hnewest : Newest slug messages
      (AppState.withMessages ch budget (ownMessages slug messages) messageCount maxSeq).messages :=
    (newest_iff_suffix hdistinct).mpr hsuffix
  have hlongest : ∀ keep, Newest slug messages keep → WithinLimits ch.historyLimit budget keep →
      keep <:+ (AppState.withMessages ch budget (ownMessages slug messages) messageCount maxSeq).messages := by
    intro keep hkeep hfit
    by_cases hnil : keep = []
    · rw [hnil]
      exact List.nil_suffix
    · exact (evict_keeps_iff ((newest_iff_suffix hdistinct).mp hkeep) hnil).mpr hfit
  refine ⟨hnewest, hlongest, ?_, rfl, hnewest.ordered, ?_, hexact, le_max_right _ _, hfits⟩
  · rintro ⟨m, hm, hown⟩ hnil
    -- the last of the own messages fits alone
    have hne : ownMessages slug messages ≠ [] := List.ne_nil_of_mem (mem_ownMessages.mpr ⟨hm, hown⟩)
    have hlast : [(ownMessages slug messages).getLast hne] <:+ ownMessages slug messages :=
      ⟨_, List.dropLast_append_getLast hne⟩
    have hkept := hlongest _ ((newest_iff_suffix hdistinct).mpr hlast) ⟨hlimit, .inr rfl⟩
    rw [hnil] at hkept
    exact absurd (List.suffix_nil.mp hkept) (List.cons_ne_nil _ _)
  · intro m hm
    obtain ⟨hmem, hown⟩ := hnewest.own m hm
    have hnext : (AppState.withMessages ch budget (ownMessages slug messages) messageCount maxSeq).nextSeq =
        maxSeq + 1 := by
      have hsum : saturatingAdd maxSeq 1 = maxSeq + 1 := Nat.min_eq_left hrange
      show max (saturatingAdd maxSeq 1) 1 = maxSeq + 1
      rw [hsum]
      exact max_eq_left (Nat.le_add_left 1 maxSeq)
    rw [hnext]
    exact Nat.lt_succ_of_le (hmax m hmem hown)

/-- A restore re-establishes the history of a channel, and whatever is called afterwards keeps it. The
stored maximum is read from a `bigint`. -/
theorem restore_reestablishes (hch : s.channels.get slug = some ch) (hlimit : 1 ≤ ch.historyLimit)
    (messages : List Message) (messageCount maxSeq : Nat)
    (hdistinct : ((messages.filter fun m => m.channel = slug).map Message.seq).Nodup)
    (hmax : ∀ m ∈ messages, m.channel = slug → m.seq ≤ maxSeq) (hrange : maxSeq ≤ i64Max) :
    (s.restoreMessages slug messages messageCount maxSeq).1 = true ∧
    (∃ restored, (s.restoreMessages slug messages messageCount maxSeq).2.channels.get slug = some restored ∧
      restored.historyLimit = ch.historyLimit ∧
      Restored slug messages s.config.maxChannelHistoryBytes restored) ∧
    ∀ posts as, RingAt ch.historyLimit s.config.maxChannelHistoryBytes slug
      (Run.exec ChannelWorld.step ⟨(s.restoreMessages slug messages messageCount maxSeq).2, posts⟩ as).state := by
  have hrestored := restored_withMessages hlimit s.config.maxChannelHistoryBytes messageCount hdistinct hmax
    (lt_of_le_of_lt hrange (by decide))
  have hget := channel_restoreMessages hch messages messageCount maxSeq
  refine ⟨?_, ⟨_, hget, rfl, hrestored⟩, ?_⟩
  · unfold AppState.restoreMessages
    rw [hch]
  · intro posts as
    refine exec_ringAt ⟨?_, _, hget, hrestored.ring⟩ as
    exact congrArg Config.maxChannelHistoryBytes (config_restoreMessages s slug messages messageCount maxSeq)

end Restore

def storedMessages : List Message :=
  let stored (channel : String) (seq : Nat) : Message := {
    id := []
    channel := channel.toList
    seq := seq
    sender := "ada".toList
    role := .user
    content := "text".toList
    metadata := .null
    createdAt := [] }
  [stored "room" 7, stored "other" 9, stored "room" 4]

def storedRoom : AppState := (AppState.new smallConfig).insertChannel ⟨0, 0⟩ "room".toList [] [] [] [] |>.2

theorem restore_reestablishes_stored : ∃ ch, storedRoom.channels.get "room".toList = some ch ∧
    ∃ restored, (storedRoom.restoreMessages "room".toList storedMessages 2 7).2.channels.get "room".toList =
        some restored ∧
      Restored "room".toList storedMessages storedRoom.config.maxChannelHistoryBytes restored := by
  obtain ⟨ch, hch⟩ : ∃ ch, storedRoom.channels.get "room".toList = some ch :=
    Option.isSome_iff_exists.mp (by decide +kernel)
  have hlimit : (storedRoom.channels.get "room".toList).map ChannelState.historyLimit = some 2 := by decide +kernel
  rw [hch, Option.map_some] at hlimit
  obtain ⟨-, ⟨restored, hget, -, hrestored⟩, -⟩ := @restore_reestablishes storedRoom "room".toList ch hch
    (by rw [Option.some.inj hlimit]; decide) storedMessages 2 7 (by decide) (by decide) (by decide)
  exact ⟨ch, hch, restored, hget, hrestored⟩

end AgentBridge
