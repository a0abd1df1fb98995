import AgentBridge.State.Context
import AgentBridge.State.History

/-! What a boot puts back into the in-memory state: channels, the recent messages of a
channel with its counters, and shared-context entries. Membership is not restored. -/

namespace AgentBridge
open State

namespace AppState

def restoredChannel (s : AppState) (now : Now) (slug topic : Text) (embedding : List Float32)
    (embeddingModel createdBy : Text) (createdAt : Timestamp) (metadata : Json) : ChannelState where
  slug := slug
  topic := topic
  topicSummary := none
  embedding := embedding
  embeddingModel := embeddingModel
  createdBy := createdBy
  createdAt := if createdAt = [] then now.ts else createdAt
  metadata := metadata
  members := .empty
  messages := []
  historyBytes := 0
  nextSeq := 1
  messageCount := 0
  context := .empty
  events := []
  historyLimit := s.config.historyLimit

def restoreChannel (s : AppState) (now : Now) (slug topic : Text) (embedding : List Float32)
    (embeddingModel createdBy : Text) (createdAt : Timestamp) (metadata : Json) : Bool × AppState :=
  if s.channels.contains slug then (false, s)
  else (true, s.setChannel slug
    (s.restoredChannel now slug topic embedding embeddingModel createdBy createdAt metadata))

/-- The channel with its recent history back: the counters come from the stored totals. -/
def withMessages (ch : ChannelState) (budget : Nat) (messages : List Message) (messageCount maxSeq : Nat) :
    ChannelState :=
  let kept := evict ch.historyLimit budget messages (messages.map messageRetainedBytes).sum
  { ch with
    messages := kept.1
    historyBytes := kept.2
    messageCount := max messageCount kept.1.length
    nextSeq := max (saturatingAdd maxSeq 1) 1 }

def restoreMessages (s : AppState) (slug : Text) (messages : List Message) (messageCount maxSeq : Nat) :
    Bool × AppState :=
  match s.channels.get slug with
  | none => (false, s)
  | some ch =>
    let messages := (messages.filter fun m => m.channel = slug).insertionSort fun a b => a.seq ≤ b.seq
    (true, s.setChannel slug (withMessages ch s.config.maxChannelHistoryBytes messages messageCount maxSeq))

def restoreContextEntry (s : AppState) (slug : Text) (entry : ContextEntry) : Bool × AppState :=
  if entry.key = [] ∨ Text.byteLen entry.key > maxContextKeyBytes then (false, s)
  else match s.channels.get slug with
  | none => (false, s)
  | some ch =>
    if !ch.context.contains entry.key && ch.context.size ≥ maxContextKeys then (false, s)
    else (true, s.setChannel slug (ch.putContext entry))

end AppState

section Frame
variable {s : AppState} {slug : Text}

@[simp] theorem withMessages_context (ch : ChannelState) (budget : Nat) (messages : List Message) (count maxSeq : Nat) :
    (AppState.withMessages ch budget messages count maxSeq).context = ch.context := rfl

@[simp] theorem withMessages_events (ch : ChannelState) (budget : Nat) (messages : List Message) (count maxSeq : Nat) :
    (AppState.withMessages ch budget messages count maxSeq).events = ch.events := rfl

theorem entry_restoreMessages (s : AppState) (slug : Text) (messages : List Message) (count maxSeq : Nat)
    (c k : Text) : (s.restoreMessages slug messages count maxSeq).2.entry c k = s.entry c k := by
  unfold AppState.restoreMessages
  cases hch : s.channels.get slug with
  | none => rfl
  | some ch =>
    dsimp only
    rw [entry_setChannel, withMessages_context]
    by_cases hc : c = slug
    · rw [if_pos hc, hc, entry_of_channel hch]
    · rw [if_neg hc]

theorem config_restoreMessages (s : AppState) (slug : Text) (messages : List Message) (count maxSeq : Nat) :
    (s.restoreMessages slug messages count maxSeq).2.config = s.config := by
  unfold AppState.restoreMessages
  cases s.channels.get slug <;> rfl

theorem contains_restoreMessages (s : AppState) (slug : Text) (messages : List Message)
    (count maxSeq : Nat) (c : Text) :
    (s.restoreMessages slug messages count maxSeq).2.channels.contains c = s.channels.contains c := by
  unfold AppState.restoreMessages
  cases hch : s.channels.get slug with
  | none => rfl
  | some ch =>
    dsimp only [AppState.setChannel]
    rw [Table.contains, Table.get_insert]
    by_cases hc : c = slug
    · rw [if_pos hc, hc, Table.contains, hch]
      rfl
    · rw [if_neg hc]
      rfl

theorem channel_restoreMessages_ne (s : AppState) {slug c : Text} (hc : c ≠ slug) (messages : List Message)
    (count maxSeq : Nat) :
    (s.restoreMessages slug messages count maxSeq).2.channels.get c = s.channels.get c := by
  unfold AppState.restoreMessages
  cases s.channels.get slug with
  | none => rfl
  | some ch => exact Table.get_insert_ne hc


theorem channel_restoreMessages {ch : ChannelState} (hch : s.channels.get slug = some ch) (messages : List Message)
    (count maxSeq : Nat) : (s.restoreMessages slug messages count maxSeq).2.channels.get slug =
      some (AppState.withMessages ch s.config.maxChannelHistoryBytes
        ((messages.filter fun m => m.channel = slug).insertionSort fun a b => a.seq ≤ b.seq) count maxSeq) := by
  unfold AppState.restoreMessages
  rw [hch]
  exact Table.get_insert_self _ _ _

theorem restoreContextEntry_cases (s : AppState) (slug : Text) (entry : ContextEntry) :
    (s.restoreContextEntry slug entry).2 = s ∨ ∃ ch, s.channels.get slug = some ch ∧
      (s.restoreContextEntry slug entry).2 = s.setChannel slug (ch.putContext entry) := by
  unfold AppState.restoreContextEntry
  split_ifs with hkey
  · exact .inl rfl
  · cases hch : s.channels.get slug with
    | none => exact .inl rfl
    | some ch =>
      dsimp only
      by_cases hfull : (!ch.context.contains entry.key && ch.context.size ≥ maxContextKeys) = true
      · rw [if_pos hfull]
        exact .inl rfl
      · rw [if_neg hfull]
        exact .inr ⟨ch, rfl, rfl⟩

theorem restoreContextEntry_ok {ch : ChannelState} {entry : ContextEntry} (hch : s.channels.get slug = some ch)
    (hempty : entry.key ≠ []) (hlong : Text.byteLen entry.key ≤ maxContextKeyBytes)
    (hroom : ch.context.contains entry.key = true ∨ ch.context.size < maxContextKeys) :
    (s.restoreContextEntry slug entry).2 = s.setChannel slug (ch.putContext entry) := by
  have hkey : ¬ (entry.key = [] ∨ Text.byteLen entry.key > maxContextKeyBytes) :=
    not_or.mpr ⟨hempty, Nat.not_lt.mpr hlong⟩
  have hfull : ¬ (!ch.context.contains entry.key && ch.context.size ≥ maxContextKeys) = true := by
    rw [Bool.and_eq_true, decide_eq_true_eq, Bool.not_eq_true']
    rintro ⟨hnew, hfull⟩
    rcases hroom with hold | hroom
    · exact absurd hold (hnew ▸ Bool.false_ne_true)
    · exact absurd hfull (Nat.not_le.mpr hroom)
  unfold AppState.restoreContextEntry
  rw [if_neg hkey, hch]
  dsimp only
  rw [if_neg hfull]

end Frame
end AgentBridge
