import AgentBridge.State.Context
import AgentBridge.State.Identity

/-! What the requests of an orchestration bring into being, and which of it each locked call adds or
keeps. -/

namespace AgentBridge
open State

/-- What a request can bring into being. -/
inductive Item
  | channel (slug : Text)
  | member (slug agentKey : Text)
  | record (slug key : Text)

def AppState.has (s : AppState) : Item → Bool
  | .channel slug => s.channels.contains slug
  | .member slug agentKey => s.isMember slug agentKey
  | .record slug key => (s.entry slug key).isSome

/-- Nothing is there after that was not there before. -/
def AddsNothing (s s' : AppState) : Prop := ∀ item, s'.has item = true → s.has item = true

/-- All that was there is there after. -/
def KeepsItems (s s' : AppState) : Prop := ∀ item, s.has item = true → s'.has item = true

theorem AddsNothing.refl (s : AppState) : AddsNothing s s := fun _ h => h

theorem AddsNothing.trans {s s' t : AppState} (h : AddsNothing s s') (h' : AddsNothing s' t) : AddsNothing s t :=
  fun item hitem => h item (h' item hitem)

theorem KeepsItems.refl (s : AppState) : KeepsItems s s := fun _ h => h

theorem KeepsItems.trans {s s' t : AppState} (h : KeepsItems s s') (h' : KeepsItems s' t) : KeepsItems s t :=
  fun item hitem => h' item (h item hitem)

section Channels
variable {s : AppState} {slug : Text} {ch old : ChannelState}

theorem grows_setChannel
    (h : ∀ old, s.channels.get slug = some old → ∀ key,
      (old.members.contains key = true → ch.members.contains key = true) ∧
      (old.context.contains key = true → ch.context.contains key = true)) : KeepsItems s (s.setChannel slug ch) := by
  intro item hitem
  cases item with
  | channel c =>
    change (s.channels.insert slug ch).contains c = true
    exact (Table.contains_insert _ _ _ _).mpr (.inr hitem)
  | member c key =>
    change (s.setChannel slug ch).isMember c key = true
    rw [isMember_setChannel]
    by_cases hc : c = slug
    · rw [if_pos hc]
      obtain ⟨old, hold, hmember⟩ := (Option.any_eq_true _ _).mp hitem
      exact (h old (hc ▸ hold) key).1 hmember
    · rw [if_neg hc]
      exact hitem
  | record c key =>
    change ((s.setChannel slug ch).entry c key).isSome = true
    rw [entry_setChannel]
    by_cases hc : c = slug
    · rw [if_pos hc]
      change (s.entry c key).isSome = true at hitem
      cases hold : s.channels.get c with
      | none =>
        rw [AppState.entry, hold] at hitem
        cases hitem
      | some old =>
        rw [entry_of_channel hold] at hitem
        exact (h old (hc ▸ hold) key).2 hitem
    · rw [if_neg hc]
      exact hitem

theorem addsNothing_setChannel (hold : s.channels.get slug = some old)
    (h : ∀ key, (ch.members.contains key = true → old.members.contains key = true) ∧
      (ch.context.contains key = true → old.context.contains key = true)) : AddsNothing s (s.setChannel slug ch) := by
  intro item hitem
  cases item with
  | channel c =>
    rcases (Table.contains_insert _ _ _ _).mp hitem with rfl | hitem
    · exact Option.isSome_iff_exists.mpr ⟨old, hold⟩
    · exact hitem
  | member c key =>
    change (s.setChannel slug ch).isMember c key = true at hitem
    change s.isMember c key = true
    rw [isMember_setChannel] at hitem
    by_cases hc : c = slug
    · rw [if_pos hc] at hitem
      rw [hc, isMember_of_channel hold]
      exact (h key).1 hitem
    · rwa [if_neg hc] at hitem
  | record c key =>
    change ((s.setChannel slug ch).entry c key).isSome = true at hitem
    change (s.entry c key).isSome = true
    rw [entry_setChannel] at hitem
    by_cases hc : c = slug
    · rw [if_pos hc] at hitem
      rw [hc, entry_of_channel hold]
      exact (h key).2 hitem
    · rwa [if_neg hc] at hitem

theorem contains_of_insert {κ α : Type*} [DecidableEq κ] {t : Table κ α} {k k' : κ} {a b : α}
    (hk : t.get k = some b) (h : (t.insert k a).contains k' = true) : t.contains k' = true := by
  rcases (Table.contains_insert t k k' a).mp h with rfl | h
  · exact Option.isSome_iff_exists.mpr ⟨b, hk⟩
  · exact h

end Channels

section Effects
variable {s : AppState} {now : Now} {slug key : Text}

theorem CreateEffect.keeps {s' : AppState} (h : CreateEffect s now slug s') : KeepsItems s s' := by
  cases h with
  | same => exact .refl s
  | created topic createdBy embedding model hnone =>
    apply grows_setChannel
    intro old hold
    cases hnone.symm.trans hold

theorem JoinEffect.keeps {role : MemberRole} {r : BridgeResult JoinOutcome × AppState}
    (h : JoinEffect s now slug key role r) : KeepsItems s r.2 := by
  cases h with
  | refused e => exact .refl s
  | seen hch hm =>
    apply grows_setChannel
    intro old hold key
    cases hch.symm.trans hold
    exact ⟨fun hmember => (Table.contains_insert _ _ _ _).mpr (.inr hmember), id⟩
  | seated hch hm =>
    apply grows_setChannel
    intro old hold key
    cases hch.symm.trans hold
    exact ⟨fun hmember => (Table.contains_insert _ _ _ _).mpr (.inr hmember), id⟩

/-- A join adds the seat of the agent, where it had none. -/
theorem JoinEffect.addsNothing_iff {role : MemberRole} {out : JoinOutcome} {s' : AppState}
    (h : JoinEffect s now slug key role (.ok out, s')) :
    AddsNothing s s' ↔ s.isMember slug (Text.trim key) = true := by
  cases h with
  | @seen ch m _ hch hm =>
    have hmember : s.isMember slug (Text.trim key) = true := by
      rw [isMember_of_channel hch]
      exact Option.isSome_iff_exists.mpr ⟨m, hm⟩
    refine iff_of_true ?_ hmember
    exact addsNothing_setChannel hch fun key => ⟨contains_of_insert hm, id⟩
  | @seated ch _ hch hm =>
    refine ⟨fun hadds => hadds (.member slug (Text.trim key)) ?_, fun hmember => ?_⟩
    · change (s.setChannel slug _).isMember slug (Text.trim key) = true
      rw [isMember_setChannel, if_pos rfl]
      exact (Table.contains_insert _ _ _ _).mpr (.inl rfl)
    · rw [isMember_of_channel hch, Table.contains, hm] at hmember
      cases hmember

theorem keeps_append {ch : ChannelState} {budget : Nat} {message : Message} (hch : s.channels.get slug = some ch) :
    KeepsItems s (s.setChannel slug (AppState.append ch now budget message)) := by
  apply grows_setChannel
  intro old hold key
  cases hch.symm.trans hold
  refine ⟨fun hmember => ?_, id⟩
  unfold AppState.append
  dsimp only
  cases ch.members.get message.sender with
  | none => exact hmember
  | some member => exact (Table.contains_insert _ _ _ _).mpr (.inr hmember)

theorem addsNothing_append {ch : ChannelState} {budget : Nat} {message : Message}
    (hch : s.channels.get slug = some ch) :
    AddsNothing s (s.setChannel slug (AppState.append ch now budget message)) := by
  refine addsNothing_setChannel hch fun key => ⟨fun hmember => ?_, id⟩
  unfold AppState.append at hmember
  dsimp only at hmember
  cases hsender : ch.members.get message.sender with
  | none => rwa [hsender] at hmember
  | some member =>
    rw [hsender] at hmember
    exact contains_of_insert hsender hmember

theorem PostEffect.keeps {newId sender content : Text} {role : Role} {metadata : Json}
    {r : BridgeResult Message × AppState} (h : PostEffect s now newId slug sender role content metadata r) :
    KeepsItems s r.2 := by
  cases h with
  | refused e => exact .refl s
  | posted hjoin hch =>
    have hseat := (join_effect s now slug (Text.trim sender) .member).keeps
    rw [hjoin] at hseat
    exact hseat.trans (keeps_append hch)

/-- A post adds the seat of its sender, where it had none. -/
theorem PostEffect.addsNothing_iff {newId sender content : Text} {role : Role} {metadata : Json} {message : Message}
    {s' : AppState} (h : PostEffect s now newId slug sender role content metadata (.ok message, s')) :
    AddsNothing s s' ↔ s.isMember slug (Text.trim sender) = true := by
  cases h with
  | posted hjoin hch =>
    have hseat := (join_effect s now slug (Text.trim sender) .member)
    rw [hjoin] at hseat
    rw [← Text.trim_trim sender, ← hseat.addsNothing_iff]
    exact ⟨fun hadds item hitem => hadds item (keeps_append hch item hitem),
      fun hadds => hadds.trans (addsNothing_append hch)⟩

theorem setContextInternal_keeps (value : ContextValue) (updatedBy : Text) :
    KeepsItems s (s.setContextInternal now slug key value updatedBy).2 := by
  rcases setContextInternal_cases s now slug key value updatedBy with ⟨e, he⟩ | ⟨ch, hch, he⟩
  · rw [he]
    exact .refl s
  · rw [he]
    apply grows_setChannel
    intro old hold key
    cases hch.symm.trans hold
    exact ⟨id, fun hentry => (Table.contains_insert _ _ _ _).mpr (.inr hentry)⟩

/-- A record is added where there was none. -/
theorem not_addsNothing {s s' : AppState} {slug key : Text} {e : ContextEntry} (hfree : s.entry slug key = none)
    (hstored : s'.entry slug key = some e) : ¬ AddsNothing s s' := by
  intro h
  have hhad : (s.entry slug key).isSome = true := h (.record slug key) (Option.isSome_iff_exists.mpr ⟨e, hstored⟩)
  rw [hfree] at hhad
  cases hhad

end Effects

end AgentBridge
