import AgentBridge.State.Leases
import Mathlib.Data.List.Sort

/-! Shared context of a channel. Generic callers go through `set_context` and
`get_context`, which keep the reserved namespaces out of reach; the program's own
records use the internal variants. -/

namespace AgentBridge

namespace State

def maxContextKeyBytes : Nat := 200
def maxContextKeys : Nat := 10000

def reservedContextPrefixes : List Text := ["workflow.".toList, "internal.".toList]

def isReservedContextKey (key : Text) : Bool :=
  reservedContextPrefixes.any fun p => p.isPrefixOf (Text.trim key)

end State

open State

def ChannelState.putContext (ch : ChannelState) (entry : ContextEntry) : ChannelState :=
  { ch with context := ch.context.insert entry.key entry }

namespace AppState

def setChannel (s : AppState) (slug : Text) (ch : ChannelState) : AppState :=
  { s with channels := s.channels.insert slug ch }

def contextEntry (ch : ChannelState) (now : Now) (key : Text) (value : ContextValue) (updatedBy : Text) :
    ContextEntry where
  key := key
  value := value
  version := ((ch.context.get key).map fun e => saturatingSucc e.version).getD 1
  updatedBy := Text.truncateBytes maxKeyBytes updatedBy
  updatedAt := now.ts

def setContextInternal (s : AppState) (now : Now) (slug key : Text) (value : ContextValue)
    (updatedBy : Text) : BridgeResult ContextEntry × AppState :=
  let key := Text.trim key
  if key = [] then (.error (.badRequest "context key is required".toList), s)
  else if Text.byteLen key > maxContextKeyBytes then
    (.error (.payloadTooLarge "context key".toList maxContextKeyBytes), s)
  else if value.toJson.bytes > s.config.maxContentBytes then
    (.error (.payloadTooLarge "context value".toList s.config.maxContentBytes), s)
  else match s.channels.get slug with
  | none => (.error (.channelNotFound slug), s)
  | some ch =>
    if !ch.context.contains key && ch.context.size ≥ maxContextKeys then
      (.error (.capacityExceeded "context keys".toList maxContextKeys), s)
    else
      let entry := contextEntry ch now key value updatedBy
      (.ok entry, s.setChannel slug (ch.putContext entry))

def getContextInternal (s : AppState) (slug : Text) : BridgeResult (List ContextEntry) :=
  match s.channels.get slug with
  | none => .error (.channelNotFound slug)
  | some ch => .ok (ch.context.values.insertionSort fun a b => a.key ≤ b.key)

def getContextKeyInternal (s : AppState) (slug key : Text) : BridgeResult (Option ContextEntry) :=
  match s.channels.get slug with
  | none => .error (.channelNotFound slug)
  | some ch => .ok (ch.context.get key)

def setContext (s : AppState) (now : Now) (slug key : Text) (value : Json) (updatedBy : Text) :
    BridgeResult ContextEntry × AppState :=
  if isReservedContextKey key then
    (.error (.badRequest "reserved_context_namespace".toList), s)
  else s.setContextInternal now slug key (.json value) updatedBy

def getContext (s : AppState) (slug : Text) : BridgeResult (List ContextEntry) :=
  (s.getContextInternal slug).map fun entries => entries.filter fun e => !isReservedContextKey e.key

def getContextKey (s : AppState) (slug key : Text) : BridgeResult (Option ContextEntry) :=
  if isReservedContextKey key then .error (.badRequest "reserved_context_namespace".toList)
  else s.getContextKeyInternal slug key

def entry (s : AppState) (slug key : Text) : Option ContextEntry :=
  (s.channels.get slug).bind fun ch => ch.context.get key

end AppState

@[simp] theorem AppState.contextEntry_key (ch : ChannelState) (now : Now) (key : Text)
    (value : ContextValue) (updatedBy : Text) :
    (AppState.contextEntry ch now key value updatedBy).key = key := rfl

section Write
variable {s : AppState} {now : Now} {slug key updatedBy : Text} {value : ContextValue}

theorem setContextInternal_cases (s : AppState) (now : Now) (slug key : Text) (value : ContextValue)
    (updatedBy : Text) :
    (∃ e, s.setContextInternal now slug key value updatedBy = (.error e, s)) ∨
    ∃ ch, s.channels.get slug = some ch ∧
      let entry := AppState.contextEntry ch now (Text.trim key) value updatedBy
      s.setContextInternal now slug key value updatedBy =
        (.ok entry, s.setChannel slug (ch.putContext entry)) := by
  unfold AppState.setContextInternal
  dsimp only
  split_ifs with hempty hlong hvalue
  · exact .inl ⟨_, rfl⟩
  · exact .inl ⟨_, rfl⟩
  · exact .inl ⟨_, rfl⟩
  · cases hch : s.channels.get slug with
    | none => exact .inl ⟨_, rfl⟩
    | some ch =>
      dsimp only
      by_cases hfull : (!ch.context.contains (Text.trim key) && ch.context.size ≥ maxContextKeys) = true
      · rw [if_pos hfull]
        exact .inl ⟨_, rfl⟩
      · rw [if_neg hfull]
        exact .inr ⟨ch, rfl, rfl⟩

theorem entry_setChannel (s : AppState) (slug slug' key : Text) (ch : ChannelState) :
    (s.setChannel slug ch).entry slug' key =
      if slug' = slug then ch.context.get key else s.entry slug' key := by
  unfold AppState.entry AppState.setChannel
  rw [Table.get_insert]
  split_ifs <;> rfl

theorem entry_of_channel {ch : ChannelState} (h : s.channels.get slug = some ch) (key : Text) :
    s.entry slug key = ch.context.get key := by
  rw [AppState.entry, h]
  rfl

theorem mem_getContextInternal {entries : List ContextEntry} {e : ContextEntry}
    (h : s.getContextInternal slug = .ok entries) : e ∈ entries ↔ ∃ k, s.entry slug k = some e := by
  unfold AppState.getContextInternal at h
  cases hch : s.channels.get slug with
  | none =>
    rw [hch] at h
    cases h
  | some ch =>
    rw [hch] at h
    cases h
    simp only [List.mem_insertionSort, Table.mem_values, entry_of_channel hch]

theorem pairwise_getContextInternal {entries : List ContextEntry} {R : ContextEntry → ContextEntry → Prop}
    (hsymm : ∀ a b, R a b → R b a) (h : s.getContextInternal slug = .ok entries)
    (hR : ∀ k k' a b, k ≠ k' → s.entry slug k = some a → s.entry slug k' = some b → R a b) : entries.Pairwise R := by
  unfold AppState.getContextInternal at h
  cases hch : s.channels.get slug with
  | none =>
    rw [hch] at h
    cases h
  | some ch =>
    rw [hch] at h
    cases h
    refine (Table.values_pairwise ?_).perm (List.perm_insertionSort _ _).symm (hsymm _ _)
    intro k k' a b hne ha hb
    rw [← entry_of_channel hch] at ha hb
    exact hR k k' a b hne ha hb

theorem nodup_filterMap_context {α : Type} {entries : List ContextEntry} {parse : ContextEntry → Option α}
    {ordinal : α → Nat} {keyOf : Nat → Text} (h : s.getContextInternal slug = .ok entries)
    (hkeys : ∀ k e x, s.entry slug k = some e → parse e = some x → k = keyOf (ordinal x)) :
    ((entries.filterMap parse).map ordinal).Nodup := by
  have hvalues : entries.Pairwise fun a b => ∀ x ∈ parse a, ∀ y ∈ parse b, ordinal x ≠ ordinal y := by
    refine pairwise_getContextInternal (fun a b hab x hx y hy => (hab y hy x hx).symm) h ?_
    intro k k' a b hne ha hb x hx y hy hxy
    rw [hkeys k a x ha hx, hkeys k' b y hb hy, hxy] at hne
    exact hne rfl
  rw [List.Nodup, List.pairwise_map]
  exact List.pairwise_filterMap.mpr hvalues

theorem entry_setContextInternal {e : ContextEntry} {s' : AppState}
    (h : s.setContextInternal now slug key value updatedBy = (.ok e, s')) :
    e.value = value ∧ e.key = Text.trim key ∧ e.updatedBy = Text.truncateBytes maxKeyBytes updatedBy ∧
    ∀ slug' key', s'.entry slug' key' =
      if slug' = slug ∧ key' = Text.trim key then some e else s.entry slug' key' := by
  rcases setContextInternal_cases s now slug key value updatedBy with ⟨e', he⟩ | ⟨ch, hch, he⟩
  · rw [he] at h
    cases h
  · rw [he] at h
    cases h
    refine ⟨rfl, rfl, rfl, fun slug' key' => ?_⟩
    rw [entry_setChannel, ChannelState.putContext, Table.get_insert]
    by_cases hs : slug' = slug
    · by_cases hk : key' = Text.trim key
      · simp [hs, hk]
      · simp [hs, hk, entry_of_channel hch]
    · simp [hs]

theorem setContextInternal_wrote {e : ContextEntry} {s' : AppState}
    (h : s.setContextInternal now slug key value updatedBy = (.ok e, s')) :
    e.key ≠ [] ∧ Text.byteLen e.key ≤ maxContextKeyBytes ∧
    e.version = ((s.entry slug e.key).map fun old => saturatingSucc old.version).getD 1 ∧
    ∃ ch, s.channels.get slug = some ch ∧
      (ch.context.contains e.key = true ∨ ch.context.size < maxContextKeys) ∧
      s' = s.setChannel slug (ch.putContext e) := by
  unfold AppState.setContextInternal at h
  dsimp only at h
  split_ifs at h with hempty hlong hvalue
  · cases h
  · cases h
  · cases h
  · cases hch : s.channels.get slug with
    | none =>
      rw [hch] at h
      cases h
    | some ch =>
      rw [hch] at h
      dsimp only at h
      by_cases hfull : (!ch.context.contains (Text.trim key) && ch.context.size ≥ maxContextKeys) = true
      · rw [if_pos hfull] at h
        cases h
      · rw [if_neg hfull] at h
        cases h
        refine ⟨hempty, Nat.not_lt.mp hlong, ?_, ch, rfl, ?_, rfl⟩
        · rw [AppState.contextEntry_key, entry_of_channel hch]
          rfl
        · rw [AppState.contextEntry_key]
          rw [Bool.and_eq_true, not_and_or, Bool.not_eq_true', Bool.not_eq_false, decide_eq_true_eq,
            Nat.not_le] at hfull
          exact hfull

theorem setContextInternal_error {e : BridgeError} {s' : AppState}
    (h : s.setContextInternal now slug key value updatedBy = (.error e, s')) : s' = s := by
  rcases setContextInternal_cases s now slug key value updatedBy with ⟨e', he⟩ | ⟨ch, hch, he⟩
  · rw [he] at h
    cases h
    rfl
  · rw [he] at h
    cases h

theorem setContextInternal_ok {ch : ChannelState} (hch : s.channels.get slug = some ch)
    (hempty : Text.trim key ≠ []) (hlong : Text.byteLen (Text.trim key) ≤ maxContextKeyBytes)
    (hvalue : value.toJson.bytes ≤ s.config.maxContentBytes)
    (hroom : ch.context.contains (Text.trim key) = true ∨ ch.context.size < maxContextKeys) :
    s.setContextInternal now slug key value updatedBy =
      (.ok (AppState.contextEntry ch now (Text.trim key) value updatedBy),
        s.setChannel slug (ch.putContext (AppState.contextEntry ch now (Text.trim key) value updatedBy))) := by
  have hfull : ¬ (!ch.context.contains (Text.trim key) && ch.context.size ≥ maxContextKeys) = true := by
    rw [Bool.and_eq_true, decide_eq_true_eq, Bool.not_eq_true']
    rintro ⟨hnew, hfull⟩
    rcases hroom with hheld | hroom
    · exact absurd hheld (hnew ▸ Bool.false_ne_true)
    · exact absurd hfull (Nat.not_le.mpr hroom)
  unfold AppState.setContextInternal
  dsimp only
  rw [if_neg hempty, if_neg (Nat.not_lt.mpr hlong), if_neg (Nat.not_lt.mpr hvalue), hch]
  dsimp only
  rw [if_neg hfull]

theorem setContextInternal_ok_iff :
    (∃ e, (s.setContextInternal now slug key value updatedBy).1 = .ok e) ↔
      Text.trim key ≠ [] ∧ Text.byteLen (Text.trim key) ≤ maxContextKeyBytes ∧
      value.toJson.bytes ≤ s.config.maxContentBytes ∧ ∃ ch, s.channels.get slug = some ch ∧
      (ch.context.contains (Text.trim key) = true ∨ ch.context.size < maxContextKeys) := by
  constructor
  · rintro ⟨e, he⟩
    have hset : s.setContextInternal now slug key value updatedBy =
        (.ok e, (s.setContextInternal now slug key value updatedBy).2) := Prod.ext he rfl
    have hkey : e.key = Text.trim key := (entry_setContextInternal hset).2.1
    obtain ⟨hempty, hlong, -, ch, hch, hroom, -⟩ := setContextInternal_wrote hset
    rw [hkey] at hempty hlong hroom
    refine ⟨hempty, hlong, ?_, ch, hch, hroom⟩
    by_contra hvalue
    unfold AppState.setContextInternal at he
    dsimp only at he
    rw [if_neg hempty, if_neg (Nat.not_lt.mpr hlong), if_pos (Nat.not_le.mp hvalue)] at he
    cases he
  · rintro ⟨hempty, hlong, hvalue, ch, hch, hroom⟩
    rw [setContextInternal_ok hch hempty hlong hvalue hroom]
    exact ⟨_, rfl⟩

theorem putContext_ne {ch : ChannelState} (hch : s.channels.get slug = some ch)
    (hversion : ∀ e, ch.context.get key = some e → e.version < u32Max) :
    s.setChannel slug (ch.putContext (AppState.contextEntry ch now key value updatedBy)) ≠ s := by
  intro h
  have hentry : s.entry slug key = some (AppState.contextEntry ch now key value updatedBy) := by
    rw [← h, entry_setChannel, if_pos rfl]
    exact Table.get_insert_self _ _ _
  rw [entry_of_channel hch] at hentry
  have hlt := hversion _ hentry
  have hnext : (AppState.contextEntry ch now key value updatedBy).version =
      (AppState.contextEntry ch now key value updatedBy).version + 1 := by
    rw [← saturatingSucc_of_lt hlt]
    conv_lhs => rw [AppState.contextEntry, hentry]
    rfl
  omega

end Write
end AgentBridge
