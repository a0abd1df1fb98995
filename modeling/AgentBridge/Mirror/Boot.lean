import AgentBridge.Mirror.Tables

/-! The state after a boot: every restored channel starts from its rows alone. -/

namespace AgentBridge
open State

/-- A channel as `restore_channel` puts it: nothing was sent on it, stored in it or counted. -/
structure Blank (slug : Text) (ch : ChannelState) : Prop where
  slug : ch.slug = slug
  context : ch.context = .empty
  events : ch.events = []
  nextSeq : ch.nextSeq = 1

def AllBlank (s : AppState) : Prop := ∀ slug ch, s.channels.get slug = some ch → Blank slug ch

section Channels
variable {s : AppState}

theorem AllBlank.restoreChannel (h : AllBlank s) (now : Now) (slug topic : Text) (embedding : List Float32)
    (model createdBy : Text) (createdAt : Timestamp) (metadata : Json) :
    AllBlank (s.restoreChannel now slug topic embedding model createdBy createdAt metadata).2 := by
  unfold AppState.restoreChannel
  by_cases hold : s.channels.contains slug = true
  · rw [if_pos hold]
    exact h
  · rw [if_neg hold]
    intro c ch hc
    rw [AppState.setChannel, Table.get_insert] at hc
    by_cases hslug : c = slug
    · rw [if_pos hslug] at hc
      cases hc
      exact ⟨hslug.symm, rfl, rfl, rfl⟩
    · rw [if_neg hslug] at hc
      exact h c ch hc

theorem restoreChannel_config (s : AppState) (now : Now) (slug topic : Text) (embedding : List Float32)
    (model createdBy : Text) (createdAt : Timestamp) (metadata : Json) :
    (s.restoreChannel now slug topic embedding model createdBy createdAt metadata).2.config = s.config := by
  unfold AppState.restoreChannel
  split_ifs <;> rfl

theorem loadChannels_spec (h : AllBlank s) (now : Now) (rows : List ChannelRow) (restored : Nat) :
    AllBlank (Db.loadChannels s now rows restored) ∧
    (Db.loadChannels s now rows restored).config = s.config := by
  -- each row restores one channel, and a blank one
  induction rows generalizing s restored with
  | nil => exact ⟨h, rfl⟩
  | cons row rows ih =>
    rw [Db.loadChannels]
    by_cases hfull : restored ≥ s.config.maxChannels
    · rw [if_pos hfull]
      exact ⟨h, rfl⟩
    · rw [if_neg hfull]
      have hblank := h.restoreChannel now row.slug row.topic row.embedding row.embeddingModel row.createdBy
        row.createdAt row.metadata
      have hconfig := restoreChannel_config s now row.slug row.topic row.embedding row.embeddingModel row.createdBy
        row.createdAt row.metadata
      rcases hr : s.restoreChannel now row.slug row.topic row.embedding row.embeddingModel row.createdBy
        row.createdAt row.metadata with ⟨_ | _, s'⟩
      · rw [hr] at hblank hconfig
        exact ⟨(ih hblank restored).1, (ih hblank restored).2.trans hconfig⟩
      · rw [hr] at hblank hconfig
        exact ⟨(ih hblank (restored + 1)).1, (ih hblank (restored + 1)).2.trans hconfig⟩

theorem allBlank_new (config : Config) : AllBlank (AppState.new config) := by
  intro slug ch h
  cases h

theorem AllBlank.entry (h : AllBlank s) (slug key : Text) : s.entry slug key = none := by
  rw [AppState.entry]
  cases hch : s.channels.get slug with
  | none => rfl
  | some ch =>
    rw [Option.bind_some, (h slug ch hch).context]
    rfl

theorem AllBlank.mem_slugs (h : AllBlank s) {slug : Text} :
    slug ∈ s.listChannels.map Channel.slug ↔ s.channels.contains slug = true := by
  rw [AppState.listChannels, List.mem_map]
  simp only [List.mem_insertionSort, List.mem_map, Table.mem_values]
  constructor
  · rintro ⟨c, ⟨ch, ⟨k, hk⟩, rfl⟩, rfl⟩
    rw [Table.contains, ChannelState.toPublic, (h k ch hk).slug, hk]
    rfl
  · intro hc
    obtain ⟨ch, hch⟩ := Option.isSome_iff_exists.mp hc
    exact ⟨ch.toPublic, ⟨ch, ⟨slug, hch⟩, rfl⟩, (h slug ch hch).slug⟩

end Channels

section Messages
variable {db : Db} {s : AppState} {slug : Text}

theorem entry_restoreHistory (s : AppState) (slug c k : Text) : (db.restoreHistory s slug).entry c k = s.entry c k := by
  rw [Db.restoreHistory]
  cases db.channelMessages slug with
  | nil => rfl
  | cons m ms => exact entry_restoreMessages ..

theorem config_restoreHistory (s : AppState) (slug : Text) : (db.restoreHistory s slug).config = s.config := by
  rw [Db.restoreHistory]
  cases db.channelMessages slug with
  | nil => rfl
  | cons m ms => exact config_restoreMessages ..

theorem contains_restoreHistory (s : AppState) (slug c : Text) :
    (db.restoreHistory s slug).channels.contains c = s.channels.contains c := by
  rw [Db.restoreHistory]
  cases db.channelMessages slug with
  | nil => rfl
  | cons m ms => exact contains_restoreMessages ..

theorem loadMessages_frame (db : Db) (s : AppState) (slugs : List Text) :
    (∀ c k, (db.loadMessages s slugs).entry c k = s.entry c k) ∧
    (∀ c, (db.loadMessages s slugs).channels.contains c = s.channels.contains c) ∧
    (db.loadMessages s slugs).config = s.config := by
  induction slugs generalizing s with
  | nil => exact ⟨fun _ _ => rfl, fun _ => rfl, rfl⟩
  | cons slug slugs ih =>
    obtain ⟨hentry, hcontains, hconfig⟩ := ih (db.restoreHistory s slug)
    refine ⟨?_, ?_, ?_⟩
    · intro c k
      exact (hentry c k).trans (entry_restoreHistory s slug c k)
    · intro c
      exact (hcontains c).trans (contains_restoreHistory s slug c)
    · exact hconfig.trans (config_restoreHistory s slug)

end Messages

section Context
variable {db : Db} {s : AppState} {slug : Text}

theorem contains_restoreContextEntry (s : AppState) (slug : Text) (entry : ContextEntry) (c : Text) :
    (s.restoreContextEntry slug entry).2.channels.contains c = s.channels.contains c := by
  rcases restoreContextEntry_cases s slug entry with h | ⟨ch, hch, h⟩
  · rw [h]
  · rw [h, AppState.setChannel, Table.contains, Table.get_insert]
    by_cases hc : c = slug
    · rw [if_pos hc, hc, Table.contains, hch]
      rfl
    · rw [if_neg hc]
      rfl

theorem contains_loadRows (rows : List ContextRow) (s : AppState) (c : Text) :
    (rows.foldl (fun s row => (s.restoreContextEntry row.channelSlug row.toEntry).2) s).channels.contains c =
      s.channels.contains c := by
  induction rows generalizing s with
  | nil => rfl
  | cons row rows ih => exact (ih _).trans (contains_restoreContextEntry ..)

/-- The rows a channel can take: valid keys from a set that fits its capacity. -/
structure Takes (slug : Text) (allowed : Finset Text) (rows : List ContextRow) : Prop where
  valid : ∀ row ∈ rows, row.channelSlug = slug → row.ctxKey ≠ [] ∧ Text.byteLen row.ctxKey ≤ maxContextKeyBytes
  key_mem : ∀ row ∈ rows, row.channelSlug = slug → row.ctxKey ∈ allowed
  room : allowed.card ≤ maxContextKeys

theorem Takes.tail {allowed : Finset Text} {row : ContextRow} {rows : List ContextRow}
    (h : Takes slug allowed (row :: rows)) : Takes slug allowed rows :=
  ⟨fun r hr => h.valid r (List.mem_cons_of_mem _ hr), fun r hr => h.key_mem r (List.mem_cons_of_mem _ hr), h.room⟩

theorem entry_loadRows {allowed : Finset Text} {row : ContextRow} (hslug : row.channelSlug = slug)
    {rows : List ContextRow} (htakes : Takes slug allowed rows)
    (hone : ∀ r ∈ rows, r.channelSlug = slug → r.ctxKey = row.ctxKey → r = row) {ch : ChannelState}
    (hch : s.channels.get slug = some ch) (hkeys : ch.context.keySet ⊆ allowed)
    (h : row ∈ rows ∨ s.entry slug row.ctxKey = some row.toEntry) :
    (rows.foldl (fun s row => (s.restoreContextEntry row.channelSlug row.toEntry).2) s).entry slug row.ctxKey =
      some row.toEntry := by
  induction rows generalizing s ch with
  | nil => exact h.resolve_left List.not_mem_nil
  | cons r rows ih =>
    rw [List.foldl_cons]
    have hone' : ∀ r ∈ rows, r.channelSlug = slug → r.ctxKey = row.ctxKey → r = row :=
      fun r hr => hone r (List.mem_cons_of_mem _ hr)
    by_cases hr : r.channelSlug = slug
    · obtain ⟨hempty, hlong⟩ := htakes.valid r List.mem_cons_self hr
      have hallowed := htakes.key_mem r List.mem_cons_self hr
      -- a key the channel does not hold yet leaves the held ones below the capacity
      have hroom : ch.context.contains r.toEntry.key = true ∨ ch.context.size < maxContextKeys := by
        by_cases hheld : ch.context.contains r.ctxKey = true
        · exact .inl hheld
        · have hssub : ch.context.keySet ⊂ allowed :=
            ⟨hkeys, fun hsub => hheld (Table.mem_keySet.mp (hsub hallowed))⟩
          have hcard := Finset.card_lt_card hssub
          rw [Table.card_keySet] at hcard
          exact .inr (lt_of_lt_of_le hcard htakes.room)
      have hstep : (s.restoreContextEntry r.channelSlug r.toEntry).2 = s.setChannel slug (ch.putContext r.toEntry) := by
        rw [hr]
        exact restoreContextEntry_ok hch hempty hlong hroom
      rw [hstep]
      refine ih htakes.tail hone' (Table.get_insert_self _ _ _) ?_ ?_
      · rw [ChannelState.putContext, Table.keySet_insert]
        exact Finset.insert_subset hallowed hkeys
      · rw [entry_setChannel, if_pos rfl, ChannelState.putContext, Table.get_insert]
        by_cases hkey : r.ctxKey = row.ctxKey
        · rw [hone r List.mem_cons_self hr hkey]
          exact .inr (if_pos rfl)
        · rw [if_neg (fun heq => hkey heq.symm), ← entry_of_channel hch]
          refine h.imp_left ?_
          intro hmem
          rcases List.mem_cons.mp hmem with rfl | hmem
          · exact absurd rfl hkey
          · exact hmem
    · have hframe : (s.restoreContextEntry r.channelSlug r.toEntry).2.channels.get slug = some ch := by
        rcases restoreContextEntry_cases s r.channelSlug r.toEntry with hs | ⟨c, -, hs⟩
        · rw [hs, hch]
        · rw [hs, AppState.setChannel, Table.get_insert_ne (fun heq => hr heq.symm), hch]
      refine ih htakes.tail hone' hframe hkeys ?_
      rw [entry_of_channel hframe, ← entry_of_channel hch]
      refine h.imp_left ?_
      intro hmem
      rcases List.mem_cons.mp hmem with rfl | hmem
      · exact absurd hslug hr
      · exact hmem

end Context
end AgentBridge
