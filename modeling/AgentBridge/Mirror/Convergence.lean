import AgentBridge.Mirror.Writes

/-! The mirror of the shared context converges: the row of a key is the highest version that
reached the database, whatever the order of the tasks, and a restart brings the last write
back if it was among them. -/

namespace AgentBridge
open State

section Memory
variable {s s' : AppState} {slug key : Text} {e : ContextEntry}

def AppState.contextKeys (s : AppState) (slug : Text) : Finset Text :=
  (s.channels.get slug).elim ∅ fun ch => ch.context.keySet

theorem mem_contextKeys : key ∈ s.contextKeys slug ↔ (s.entry slug key).isSome := by
  rw [AppState.contextKeys, AppState.entry]
  cases s.channels.get slug with
  | none => simp
  | some ch => exact Table.mem_keySet

/-- What a step does to the shared context in memory, and the writes it hands over. -/
inductive ContextStep (s : AppState) : AppState → List MirrorWrite → Prop
  | kept {s' : AppState} {ws : List MirrorWrite} (h : ∀ c k, s'.entry c k = s.entry c k)
      (hws : ∀ slug e, .context slug e ∉ ws) : ContextStep s s' ws
  | wrote {slug : Text} {e : ContextEntry} {ch : ChannelState} {ws : List MirrorWrite}
      (hch : s.channels.get slug = some ch) (hkey : e.key ≠ [] ∧ Text.byteLen e.key ≤ maxContextKeyBytes)
      (hversion : e.version = ((s.entry slug e.key).map fun old => saturatingSucc old.version).getD 1)
      (hroom : ch.context.contains e.key = true ∨ ch.context.size < maxContextKeys)
      (hws : ws ⊆ [.context slug e]) : ContextStep s (s.setChannel slug (ch.putContext e)) ws

theorem setContextInternal_contextStep (s : AppState) (now : Now) (slug key : Text) (value : ContextValue)
    (updatedBy : Text) (permit : Bool) :
    ContextStep s (s.setContextInternal now slug key value updatedBy).2
      (if permit then BridgeResult.contextWrite slug (s.setContextInternal now slug key value updatedBy).1
        else []) := by
  rcases h : s.setContextInternal now slug key value updatedBy with ⟨e | e, s'⟩
  · rw [setContextInternal_error h]
    refine .kept (fun _ _ => rfl) ?_
    cases permit <;> exact fun _ _ => List.not_mem_nil
  · obtain ⟨hempty, hlong, hversion, ch, hch, hroom, rfl⟩ := setContextInternal_wrote h
    refine .wrote hch ⟨hempty, hlong⟩ hversion hroom ?_
    cases permit with
    | false => exact List.nil_subset _
    | true => exact List.Subset.refl _

theorem ChannelWorld.step_context (w : ChannelWorld) (a : ChannelAction) (permit : Bool) :
    ContextStep w.state (w.step a).state (if permit then w.persisted a else []) := by
  have hquiet {w' : ChannelWorld} (h : ∀ c k, w'.state.entry c k = w.state.entry c k) {ws : List MirrorWrite}
      (hws : ∀ slug e, .context slug e ∉ ws) : ContextStep w.state w'.state (if permit then ws else []) := by
    refine .kept h ?_
    cases permit with
    | false => exact fun _ _ => List.not_mem_nil
    | true => exact hws
  have hnone : ∀ slug e, MirrorWrite.context slug e ∉ ([] : List MirrorWrite) := fun _ _ => List.not_mem_nil
  cases a with
  | insert => exact hquiet (w.step_entry (by simp)) hnone
  | join => exact hquiet (w.step_entry (by simp)) hnone
  | leave => exact hquiet (w.step_entry (by simp)) hnone
  | post => exact hquiet (w.step_entry (by simp)) hnone
  | subscribe => exact hquiet (w.step_entry (by simp)) hnone
  | commit now newId i =>
    apply hquiet (w.step_entry (by simp))
    intro slug e hmem
    rw [ChannelWorld.persisted] at hmem
    cases hcall : w.posts[i]? with
    | none =>
      rw [hcall] at hmem
      exact List.not_mem_nil hmem
    | some call =>
      rw [hcall] at hmem
      obtain ⟨m, -, hm⟩ := List.mem_map.mp hmem
      cases hm
  | setContext now slug key value updatedBy =>
    rw [ChannelWorld.step, ChannelWorld.persisted]
    unfold AppState.setContext
    by_cases hreserved : isReservedContextKey key = true
    · rw [if_pos hreserved]
      refine .kept (fun _ _ => rfl) ?_
      cases permit <;> exact fun _ _ => List.not_mem_nil
    · rw [if_neg hreserved]
      exact setContextInternal_contextStep w.state now slug key (.json value) updatedBy permit

/-- A write made once, against what memory holds now: nothing of its key has a higher version in memory's
past, and an unsaturated version belongs to one entry. -/
structure Tracked (s : AppState) (slug : Text) (e : ContextEntry) : Prop where
  key : e.key ≠ [] ∧ Text.byteLen e.key ≤ maxContextKeyBytes
  current : ∃ cur, s.entry slug e.key = some cur ∧ cur.version ≤ u32Max ∧ e.version ≤ cur.version ∧
    (e.version = cur.version → e.version < u32Max → e = cur)

/-- The memory within its bounds, every entry under its own key. -/
structure ContextBounded (s : AppState) : Prop where
  card : ∀ slug, (s.contextKeys slug).card ≤ maxContextKeys
  entries : ∀ slug key e, s.entry slug key = some e → e.key = key ∧ e.version ≤ u32Max

theorem contextBounded_new (config : Config) : ContextBounded (AppState.new config) where
  card := fun _ => Nat.zero_le _
  entries := fun _ _ _ h => by cases h

theorem contextKeys_of_entry (h : ∀ c k, s'.entry c k = s.entry c k) (slug : Text) :
    s'.contextKeys slug = s.contextKeys slug := by
  ext key
  rw [mem_contextKeys, mem_contextKeys, h]

theorem contextKeys_setChannel {ch : ChannelState} (hch : s.channels.get slug = some ch) (c : Text) :
    (s.setChannel slug (ch.putContext e)).contextKeys c =
      if c = slug then insert e.key (s.contextKeys slug) else s.contextKeys c := by
  rw [AppState.contextKeys, AppState.setChannel, Table.get_insert]
  by_cases hc : c = slug
  · rw [if_pos hc, if_pos hc, AppState.contextKeys, hch]
    exact Table.keySet_insert e
  · rw [if_neg hc, if_neg hc]
    rfl

theorem entry_putContext {ch : ChannelState} (hch : s.channels.get slug = some ch) (c k : Text) :
    (s.setChannel slug (ch.putContext e)).entry c k =
      if c = slug ∧ k = e.key then some e else s.entry c k := by
  rw [entry_setChannel, ChannelState.putContext, Table.get_insert]
  by_cases hc : c = slug
  · by_cases hk : k = e.key
    · rw [if_pos hc, if_pos hk, if_pos ⟨hc, hk⟩]
    · rw [if_pos hc, if_neg hk, if_neg (fun h => hk h.2), hc, entry_of_channel hch]
  · rw [if_neg hc, if_neg (fun h => hc h.1)]

theorem saturatingSucc_le (n : Nat) : saturatingSucc n ≤ u32Max := Nat.min_le_right _ _

theorem ContextStep.bounded {ws : List MirrorWrite} (h : ContextStep s s' ws) (hs : ContextBounded s) :
    ContextBounded s' := by
  cases h with
  | kept h hws =>
    constructor
    · intro c
      rw [contextKeys_of_entry h]
      exact hs.card c
    · intro c k e' he
      rw [h] at he
      exact hs.entries c k e' he
  | @wrote slug e ch ws hch hkey hversion hroom hws =>
    constructor
    · intro c
      rw [contextKeys_setChannel hch]
      by_cases hc : c = slug
      · rw [if_pos hc]
        have hcard : (s.contextKeys slug).card = ch.context.size := by
          rw [AppState.contextKeys, hch]
          exact Table.card_keySet
        rcases hroom with hheld | hroom
        · have hmem : e.key ∈ s.contextKeys slug := by
            rw [mem_contextKeys, entry_of_channel hch]
            exact hheld
          rw [Finset.insert_eq_of_mem hmem]
          exact hs.card slug
        · have hle := Finset.card_insert_le e.key (s.contextKeys slug)
          omega
      · rw [if_neg hc]
        exact hs.card c
    · intro c k e' he
      rw [entry_putContext hch] at he
      by_cases hck : c = slug ∧ k = e.key
      · rw [if_pos hck] at he
        cases he
        refine ⟨hck.2.symm, ?_⟩
        rw [hversion]
        cases s.entry slug e.key with
        | none => exact show 1 ≤ 2 ^ 32 - 1 by omega
        | some old => exact saturatingSucc_le _
      · rw [if_neg hck] at he
        exact hs.entries c k e' he

/-- What was tracked stays tracked: a later write of the key has a higher version until versions saturate. -/
theorem ContextStep.tracked {ws : List MirrorWrite} (h : ContextStep s s' ws) (he : Tracked s slug e) :
    Tracked s' slug e := by
  obtain ⟨hkey, cur, hcur, hmax, hle, heq⟩ := he
  cases h with
  | kept h hws => exact ⟨hkey, cur, (h slug e.key).trans hcur, hmax, hle, heq⟩
  | @wrote c new ch ws hch hkey' hversion hroom hws =>
    refine ⟨hkey, ?_⟩
    rw [entry_putContext hch]
    by_cases hsame : slug = c ∧ e.key = new.key
    · rw [if_pos hsame]
      have hnext : new.version = saturatingSucc cur.version := by
        rw [hversion, ← hsame.1, ← hsame.2, hcur]
        rfl
      have hsucc : saturatingSucc cur.version = min (cur.version + 1) u32Max := rfl
      refine ⟨new, rfl, ?_, ?_, ?_⟩
      · exact hnext ▸ saturatingSucc_le _
      · omega
      · intro hreached hlt
        omega
    · rw [if_neg hsame]
      exact ⟨cur, hcur, hmax, hle, heq⟩

theorem ContextStep.handed {ws : List MirrorWrite} (h : ContextStep s s' ws) (hs : ContextBounded s)
    (hmem : .context slug e ∈ ws) : Tracked s' slug e := by
  have hs' := h.bounded hs
  cases h with
  | kept h hws => exact absurd hmem (hws slug e)
  | @wrote c new ch ws hch hkey hversion hroom hws =>
    have hnew : MirrorWrite.context slug e = .context c new := List.mem_singleton.mp (hws hmem)
    cases hnew
    have hentry : (s.setChannel slug (ch.putContext e)).entry slug e.key = some e := by
      rw [entry_putContext hch, if_pos ⟨rfl, rfl⟩]
    exact ⟨hkey, e, hentry, (hs'.entries slug e.key e hentry).2, le_rfl, fun _ _ => rfl⟩

end Memory

section Database

/-- The rows the performed writes of a key amount to. -/
def MirrorWorld.savedRows (m : MirrorWorld) (slug key : Text) : List ContextRow :=
  m.performed.filterMap fun p =>
    match p.2 with
    | .message _ => none
    | .context c e => if c = slug ∧ e.key = key ∧ e.version ≤ i32Max then some (e.toRow c p.1) else none

variable {m : MirrorWorld} {slug key : Text}

theorem mem_savedRows {row : ContextRow} : row ∈ m.savedRows slug key ↔ ∃ dbNow e,
    (dbNow, .context slug e) ∈ m.performed ∧ e.key = key ∧ e.version ≤ i32Max ∧ row = e.toRow slug dbNow := by
  rw [MirrorWorld.savedRows, List.mem_filterMap]
  constructor
  · rintro ⟨⟨dbNow, w⟩, hmem, hrow⟩
    cases w with
    | message x => cases hrow
    | context c e =>
      dsimp only at hrow
      by_cases h : c = slug ∧ e.key = key ∧ e.version ≤ i32Max
      · rw [if_pos h] at hrow
        obtain ⟨rfl, hkey, hfits⟩ := h
        cases hrow
        exact ⟨dbNow, e, hmem, hkey, hfits, rfl⟩
      · rw [if_neg h] at hrow
        cases hrow
  · rintro ⟨dbNow, e, hmem, hkey, hfits, rfl⟩
    exact ⟨_, hmem, if_pos ⟨rfl, hkey, hfits⟩⟩

theorem savedRows_perform_message (dbNow : Timestamp) (x : Message) {m' : MirrorWorld}
    (hm : m'.performed = m.performed ++ [(dbNow, .message x)]) :
    m'.savedRows slug key = m.savedRows slug key := by
  rw [MirrorWorld.savedRows, hm, List.filterMap_append]
  exact List.append_nil _

theorem savedRows_perform_context (dbNow : Timestamp) (c : Text) (e : ContextEntry) {m' : MirrorWorld}
    (hm : m'.performed = m.performed ++ [(dbNow, .context c e)]) :
    m'.savedRows slug key = m.savedRows slug key ++
      if c = slug ∧ e.key = key ∧ e.version ≤ i32Max then [e.toRow c dbNow] else [] := by
  rw [MirrorWorld.savedRows, hm, List.filterMap_append]
  congr 1
  by_cases h : c = slug ∧ e.key = key ∧ e.version ≤ i32Max
  · rw [if_pos h]
    exact List.filterMap_cons_some (if_pos h)
  · rw [if_neg h]
    exact List.filterMap_cons_none (if_neg h)

theorem MirrorWorld.step_advances (m : MirrorWorld) (a : MirrorAction) (k : Text × Text) :
    Register.Advances ContextRow.version (m.db.context.get k) ((m.step a).db.context.get k) := by
  cases a with
  | live a permit => exact .refl _
  | record now slug key value updatedBy permit => exact .refl _
  | fail i => exact .refl _
  | perform dbNow i =>
    rw [MirrorWorld.step, MirrorWorld.perform]
    cases m.pending[i]? with
    | none => exact .refl _
    | some write =>
      dsimp only
      cases write with
      | message x =>
        rw [execute_message_context]
        exact .refl _
      | context c e =>
        rw [execute_context]
        split_ifs
        · exact Register.advances_overwrite (m.db.context.get k) (e.toRow c dbNow)
        · exact .refl _

end Database

section Runs
variable {config : Config} {columnSize : Json → Nat} {m : MirrorWorld}

/-- The writes of a run against memory, and the rows against the writes. -/
structure ContextMirrored (m : MirrorWorld) : Prop where
  bounded : ContextBounded m.live.state
  pending : ∀ slug e, .context slug e ∈ m.pending → Tracked m.live.state slug e
  performed : ∀ dbNow slug e, (dbNow, .context slug e) ∈ m.performed → Tracked m.live.state slug e
  rows : ∀ slug key, Register.Highest ContextRow.version (m.savedRows slug key) (m.db.context.get (slug, key))

theorem ContextMirrored.moved (hm : ContextMirrored m) (live : ChannelWorld) {ws : List MirrorWrite}
    (h : ContextStep m.live.state live.state ws) :
    ContextMirrored { m with live, pending := m.pending ++ ws } where
  bounded := h.bounded hm.bounded
  pending := by
    intro slug e hmem
    rcases List.mem_append.mp hmem with hmem | hmem
    · exact h.tracked (hm.pending slug e hmem)
    · exact h.handed hm.bounded hmem
  performed := fun dbNow slug e hmem => h.tracked (hm.performed dbNow slug e hmem)
  rows := hm.rows

theorem ContextMirrored.performs (hm : ContextMirrored m) (dbNow : Timestamp) (i : Nat) :
    ContextMirrored (m.perform dbNow i) := by
  rw [MirrorWorld.perform]
  cases hi : m.pending[i]? with
  | none => exact hm
  | some write =>
    have hwrite : write ∈ m.pending := List.mem_of_getElem? hi
    refine ⟨hm.bounded, fun slug e h => hm.pending slug e (List.mem_of_mem_eraseIdx h), ?_, ?_⟩
    · intro dbNow' slug e hmem
      rcases List.mem_append.mp hmem with hmem | hmem
      · exact hm.performed dbNow' slug e hmem
      · obtain ⟨-, rfl⟩ := Prod.mk.inj (List.mem_singleton.mp hmem)
        exact hm.pending slug e hwrite
    · intro slug key
      dsimp only
      cases write with
      | message x =>
        rw [savedRows_perform_message dbNow x rfl, execute_message_context]
        exact hm.rows slug key
      | context c e =>
        rw [savedRows_perform_context dbNow c e rfl, execute_context]
        by_cases h : c = slug ∧ e.key = key ∧ e.version ≤ i32Max
        · obtain ⟨rfl, rfl, hfits⟩ := h
          rw [if_pos ⟨rfl, rfl, hfits⟩, if_pos ⟨rfl, hfits⟩]
          exact (hm.rows c e.key).overwrite _
        · have hother : ¬ ((slug, key) = (c, e.key) ∧ e.version ≤ i32Max) := by
            rintro ⟨heq, hfits⟩
            cases heq
            exact h ⟨rfl, rfl, hfits⟩
          rw [if_neg h, if_neg hother, List.append_nil]
          exact hm.rows slug key

theorem ContextMirrored.step (hm : ContextMirrored m) (a : MirrorAction) : ContextMirrored (m.step a) := by
  cases a with
  | live a permit => exact hm.moved (m.live.step a) (m.live.step_context a permit)
  | record now slug key value updatedBy permit =>
    exact hm.moved { m.live with state := _ }
      (setContextInternal_contextStep m.live.state now slug key value updatedBy permit)
  | perform dbNow i => exact hm.performs dbNow i
  | fail i => exact ⟨hm.bounded, fun slug e h => hm.pending slug e (List.mem_of_mem_eraseIdx h), hm.performed, hm.rows⟩

theorem run_contextMirrored (config : Config) (columnSize : Json → Nat) (as : List MirrorAction) :
    ContextMirrored (MirrorWorld.run config columnSize as) := by
  refine Run.exec_invariant (P := ContextMirrored) (fun m a hm => hm.step a) ?_ as
  constructor
  · exact contextBounded_new config
  · exact fun _ _ h => absurd h List.not_mem_nil
  · exact fun _ _ _ h => absurd h List.not_mem_nil
  · exact fun _ _ => rfl

theorem ContextMirrored.written (hm : ContextMirrored m) {k : Text × Text} {row : ContextRow}
    (h : m.db.context.get k = some row) : ∃ dbNow e, (dbNow, .context k.1 e) ∈ m.performed ∧ e.key = k.2 ∧
      e.version ≤ i32Max ∧ row = e.toRow k.1 dbNow := by
  have hrow := hm.rows k.1 k.2
  rw [Prod.mk.eta, h] at hrow
  exact mem_savedRows.mp hrow.1

theorem ContextMirrored.place (hm : ContextMirrored m) {row : ContextRow} (h : row ∈ m.db.context.values) :
    m.db.context.get (row.channelSlug, row.ctxKey) = some row := by
  obtain ⟨k, hk⟩ := Table.mem_values.mp h
  obtain ⟨dbNow, e, -, hkey, -, rfl⟩ := hm.written hk
  have hplace : k = (k.1, e.key) := by rw [hkey]
  rw [hplace] at hk
  exact hk

theorem ContextMirrored.takes (hm : ContextMirrored m) (slug : Text) {rows : List ContextRow}
    (hrows : ∀ row ∈ rows, row ∈ m.db.context.values) : Takes slug (m.live.state.contextKeys slug) rows := by
  have hwritten (row : ContextRow) (h : row ∈ rows) (hslug : row.channelSlug = slug) :
      ∃ e, e.key = row.ctxKey ∧ Tracked m.live.state slug e := by
    obtain ⟨dbNow, e, hmem, hkey, -, -⟩ := hm.written (hm.place (hrows row h))
    rw [hslug] at hmem
    exact ⟨e, hkey, hm.performed dbNow slug e hmem⟩
  constructor
  · intro row h hslug
    obtain ⟨e, hkey, htracked⟩ := hwritten row h hslug
    exact hkey ▸ htracked.key
  · intro row h hslug
    obtain ⟨e, hkey, htracked⟩ := hwritten row h hslug
    obtain ⟨cur, hcur, -⟩ := htracked.current
    rw [← hkey, mem_contextKeys, hcur]
    rfl
  · exact hm.bounded.card slug

theorem ContextMirrored.restart (hm : ContextMirrored m) (now : Now) (channels : List ChannelRow)
    {slug key : Text} {row : ContextRow} (hrow : m.db.context.get (slug, key) = some row)
    (hsize : m.db.columnSize row.value.toJson ≤ min m.live.state.config.maxContentBytes i64Max)
    (hslug : (m.restart now channels).state.channels.contains slug = true) :
    (m.restart now channels).state.entry slug key = some row.toEntry := by
  obtain ⟨dbNow, e, -, hkey, -, heq⟩ := hm.written hrow
  have hrowSlug : row.channelSlug = slug := heq ▸ rfl
  have hrowKey : row.ctxKey = key := heq ▸ hkey
  let loaded := Db.loadChannels (AppState.new m.live.state.config) now (channels.filter fun row => !row.archived) 0
  let slugs := loaded.listChannels.map Channel.slug
  let db := { m.db with channels }
  obtain ⟨hblank, hconfig⟩ : AllBlank loaded ∧ loaded.config = m.live.state.config :=
    loadChannels_spec (allBlank_new m.live.state.config) now (channels.filter fun row => !row.archived) 0
  obtain ⟨hentry, hcontains, hconfig'⟩ := loadMessages_frame db loaded slugs
  -- the channel is among the loaded ones, so its rows are asked for
  have hloaded : loaded.channels.contains slug = true := by
    rw [← hslug, contains_restart]
  have hasked : slug ∈ slugs := hblank.mem_slugs.mpr hloaded
  have hheld : (db.loadMessages loaded slugs).channels.contains slug = true := by
    rw [hcontains, hloaded]
  have hrows : ∀ r ∈ db.contextRows (db.loadMessages loaded slugs).config slugs, r ∈ m.db.context.values := by
    intro r hr
    rw [Db.contextRows, List.mem_insertionSort] at hr
    exact (List.mem_filter.mp hr).1
  have hmem : row ∈ db.contextRows (db.loadMessages loaded slugs).config slugs := by
    rw [Db.contextRows, List.mem_insertionSort, List.mem_filter, decide_eq_true_eq, hrowSlug, hconfig', hconfig]
    exact ⟨Table.mem_values.mpr ⟨_, hrow⟩, hasked, hsize⟩
  obtain ⟨ch, hch⟩ := Option.isSome_iff_exists.mp hheld
  -- nothing was in the channel before its rows
  have hempty : ch.context.keySet ⊆ m.live.state.contextKeys slug := by
    intro k hk
    have hnone := (hentry slug k).trans (hblank.entry slug k)
    rw [entry_of_channel hch] at hnone
    rw [Table.mem_keySet, Table.contains, hnone] at hk
    cases hk
  rw [← hrowKey]
  refine entry_loadRows hrowSlug (hm.takes slug hrows) ?_ hch hempty (.inl hmem)
  intro r hr hrslug hrkey
  have hplace := hm.place (hrows r hr)
  rw [hrslug, hrkey, hrowKey, hrow] at hplace
  exact (Option.some.inj hplace).symm

/-- What the mirror of a key promises, against the writes that reached it and against a restart. -/
structure Converges (m : MirrorWorld) (slug key : Text) : Prop where
  highest : Register.Highest ContextRow.version (m.savedRows slug key) (m.db.context.get (slug, key))
  advances : ∀ a, Register.Advances ContextRow.version (m.db.context.get (slug, key))
    ((m.step a).db.context.get (slug, key))
  /-- The last write is `e`: it is what memory holds. -/
  restored : ∀ dbNow e now channels, m.live.state.entry slug key = some e →
    (dbNow, .context slug e) ∈ m.performed → e.version ≤ i32Max →
    m.db.columnSize e.value.toJson ≤ min m.live.state.config.maxContentBytes i64Max →
    (m.restart now channels).state.channels.contains slug = true →
    ∃ e', (m.restart now channels).state.entry slug key = some e' ∧
      (e'.value, e'.version, e'.updatedBy) = (e.value, e.version, e.updatedBy)

theorem ContextMirrored.converges (hm : ContextMirrored m) (slug key : Text) : Converges m slug key where
  highest := hm.rows slug key
  advances := fun a => m.step_advances a (slug, key)
  restored := by
    intro dbNow e now channels hentry hmem hfits hsize hslug
    have hkey : e.key = key := (hm.bounded.entries slug key e hentry).1
    have hmine : e.toRow slug dbNow ∈ m.savedRows slug key := mem_savedRows.mpr ⟨dbNow, e, hmem, hkey, hfits, rfl⟩
    -- no write of the key has a higher version than memory, and one of the same version is `e`
    have hlatest : ∀ at' e', (at', .context slug e') ∈ m.performed → e'.key = key →
        e'.version ≤ e.version ∧ (e'.version = e.version → e' = e) := by
      intro at' e' hmem' hkey'
      obtain ⟨cur, hcur, -, hle, heq⟩ := (hm.performed at' slug e' hmem').current
      rw [hkey', hentry] at hcur
      cases hcur
      refine ⟨hle, fun hsame => heq hsame ?_⟩
      rw [hsame]
      exact lt_of_le_of_lt hfits (by decide)
    obtain ⟨row, hrow, hget, hversion⟩ := (hm.rows slug key).of_top hmine (by
      intro r hr
      obtain ⟨at', e', hmem', hkey', -, rfl⟩ := mem_savedRows.mp hr
      exact (hlatest at' e' hmem' hkey').1)
    obtain ⟨at', e', hmem', hkey', -, rfl⟩ := mem_savedRows.mp hrow
    have hsame : e' = e := (hlatest at' e' hmem' hkey').2 hversion
    rw [hsame] at hget
    exact ⟨_, hm.restart now channels hget hsize hslug, rfl⟩

/-- In every run, with the tasks in any order and any of them shed or failing: the row of a key is the
highest version among the writes that reached the database and fit its integer column, no step takes it
back, and a restart that restores the channel brings the last write back if it is among them. -/
theorem context_mirror_converges (config : Config) (columnSize : Json → Nat) (as : List MirrorAction)
    (slug key : Text) : Converges (MirrorWorld.run config columnSize as) slug key :=
  (run_contextMirrored config columnSize as).converges slug key

/-- The task of the last write ran, and the key is gone after a restart. -/
def LosesLastWrite (m : MirrorWorld) (slug key : Text) (channels : List ChannelRow) : Prop :=
  ∃ dbNow e, m.pending = [] ∧ m.live.state.entry slug key = some e ∧ (dbNow, .context slug e) ∈ m.performed ∧
    (m.restart ⟨0, 0⟩ channels).state.entry slug key = none

/-- `ada` writes a number under `k`. -/
def countWrite (permit : Bool) : MirrorAction :=
  .live (.setContext ⟨0, 0⟩ "room".toList "k".toList (.nat 1) "ada".toList) permit

/-- A room, `n` writes of one key that are shed, and a last one that is not. -/
def longCount (n : Nat) : List MirrorAction :=
  .live (.insert ⟨0, 0⟩ "room".toList "room".toList "ada".toList [] []) false ::
    (List.replicate n (countWrite false) ++ [countWrite true, .perform [] 0])

/-- After `n` shed writes: memory counted them, the mirror saw nothing. -/
structure Counted (config : Config) (columnSize : Json → Nat) (n : Nat) (m : MirrorWorld) : Prop where
  config : m.live.state.config = config
  db : m.db = Db.empty columnSize
  pending : m.pending = []
  version : ((m.live.state.entry "room".toList "k".toList).map ContextEntry.version).getD 0 = n
  room : ∃ ch, m.live.state.channels.get "room".toList = some ch ∧
    (ch.context.contains "k".toList = true ∨ ch.context.size < maxContextKeys)

variable {n limit : Nat}

theorem Counted.write (h : Counted config columnSize n m) (hlimit : 1 ≤ config.maxContentBytes) (permit : Bool) :
    ∃ ch e, m.live.state.channels.get "room".toList = some ch ∧ e.key = "k".toList ∧
      e.version = saturatingSucc n ∧ e.value = .json (.nat 1) ∧
      m.step (countWrite permit) = { m with
        live := { m.live with state := m.live.state.setChannel "room".toList (ch.putContext e) }
        pending := if permit then [.context "room".toList e] else [] } := by
  obtain ⟨ch, hch, hroom⟩ := h.room
  have htrim : Text.trim "k".toList = "k".toList := by decide
  let e := AppState.contextEntry ch ⟨0, 0⟩ "k".toList (.json (.nat 1)) "ada".toList
  have hvalue : (ContextValue.json (.nat 1)).toJson.bytes ≤ m.live.state.config.maxContentBytes := h.config ▸ hlimit
  have hset : m.live.state.setContext ⟨0, 0⟩ "room".toList "k".toList (.nat 1) "ada".toList =
      (.ok e, m.live.state.setChannel "room".toList (ch.putContext e)) := by
    have hok : m.live.state.setContextInternal ⟨0, 0⟩ "room".toList "k".toList (.json (.nat 1)) "ada".toList = _ :=
      setContextInternal_ok hch (htrim ▸ by decide) (htrim ▸ by decide) hvalue (htrim ▸ hroom)
    rw [AppState.setContext, if_neg (by decide), hok, htrim]
  refine ⟨ch, e, hch, rfl, ?_, rfl, ?_⟩
  · have hversion := h.version
    rw [entry_of_channel hch] at hversion
    cases hget : ch.context.get "k".toList with
    | none =>
      rw [hget] at hversion
      have hzero : n = 0 := hversion.symm
      rw [hzero]
      exact (congrArg (fun o : Option ContextEntry => (o.map fun e => saturatingSucc e.version).getD 1) hget)
    | some old =>
      rw [hget] at hversion
      have hn : n = old.version := hversion.symm
      rw [hn]
      exact (congrArg (fun o : Option ContextEntry => (o.map fun e => saturatingSucc e.version).getD 1) hget)
  · rw [countWrite, MirrorWorld.step, ChannelWorld.step, ChannelWorld.persisted, hset, h.pending]
    rfl

theorem Counted.shed (h : Counted config columnSize n m) (hlimit : 1 ≤ config.maxContentBytes) (hn : n < u32Max) :
    Counted config columnSize (n + 1) (m.step (countWrite false)) := by
  obtain ⟨ch, e, hch, hkey, hversion, -, hstep⟩ := h.write hlimit false
  rw [hstep]
  constructor
  · exact h.config
  · exact h.db
  · rfl
  · dsimp only
    rw [entry_putContext hch, if_pos ⟨rfl, hkey.symm⟩]
    exact hversion.trans (saturatingSucc_of_lt hn)
  · refine ⟨_, Table.get_insert_self _ _ _, .inl ?_⟩
    rw [ChannelState.putContext, Table.contains, hkey, Table.get_insert_self]
    rfl

def limitConfig (limit : Nat) : Config := { Config.inMemory with maxContentBytes := limit }

theorem counted_longCount (columnSize : Json → Nat) (hlimit : 1 ≤ limit) (hn : n ≤ u32Max) :
    Counted (limitConfig limit) columnSize n (MirrorWorld.run (limitConfig limit) columnSize
      (.live (.insert ⟨0, 0⟩ "room".toList "room".toList "ada".toList [] []) false ::
        List.replicate n (countWrite false))) := by
  induction n with
  | zero => exact ⟨rfl, rfl, rfl, rfl, _, rfl, .inr (show 0 < 10000 by decide)⟩
  | succ n ih =>
    have hrun := (ih (by omega)).shed hlimit (by omega)
    rw [List.replicate_succ', ← List.cons_append, MirrorWorld.run, Run.exec_append]
    exact hrun

theorem entry_restart_oversized (m : MirrorWorld) (now : Now) (channels : List ChannelRow)
    (h : ∀ row ∈ m.db.context.values,
      min m.live.state.config.maxContentBytes i64Max < m.db.columnSize row.value.toJson) (slug key : Text) :
    (m.restart now channels).state.entry slug key = none := by
  let loaded := Db.loadChannels (AppState.new m.live.state.config) now (channels.filter fun row => !row.archived) 0
  let slugs := loaded.listChannels.map Channel.slug
  let db := { m.db with channels }
  obtain ⟨hblank, hconfig⟩ : AllBlank loaded ∧ loaded.config = m.live.state.config :=
    loadChannels_spec (allBlank_new m.live.state.config) now (channels.filter fun row => !row.archived) 0
  obtain ⟨hentry, -, hconfig'⟩ := loadMessages_frame db loaded slugs
  have hnone : db.contextRows (db.loadMessages loaded slugs).config slugs = [] := by
    rw [List.eq_nil_iff_forall_not_mem]
    intro row hrow
    rw [Db.contextRows, List.mem_insertionSort, List.mem_filter, decide_eq_true_eq, hconfig', hconfig] at hrow
    exact absurd hrow.2.2 (Nat.not_le.mpr (h row hrow.1))
  have hstate : (m.restart now channels).state = db.loadMessages loaded slugs := by
    rw [MirrorWorld.restart, Db.loadState]
    dsimp only [Db.loadContext]
    rw [hnone]
    rfl
  rw [hstate, hentry, hblank.entry]

theorem entry_restart_unrestored (m : MirrorWorld) (now : Now) (slug key : Text) :
    (m.restart now []).state.entry slug key = none := by
  have hcontains : (m.restart now []).state.channels.contains slug = false := by
    rw [contains_restart]
    rfl
  rw [AppState.entry]
  cases h : (m.restart now []).state.channels.get slug with
  | none => rfl
  | some ch =>
    rw [Table.contains, h] at hcontains
    cases hcontains

theorem Counted.written (h : Counted (limitConfig limit) columnSize n m) (hlimit : 1 ≤ limit)
    {channels : List ChannelRow}
    (hlost : (((m.step (countWrite true)).step (.perform [] 0)).restart ⟨0, 0⟩ channels).state.entry
      "room".toList "k".toList = none) :
    LosesLastWrite ((m.step (countWrite true)).step (.perform [] 0)) "room".toList "k".toList channels := by
  obtain ⟨ch, e, hch, hkey, hversion, hvalue, hstep⟩ := h.write hlimit true
  rw [hstep] at hlost ⊢
  refine ⟨[], e, rfl, ?_, ?_, hlost⟩
  · exact (entry_putContext hch _ _).trans (if_pos ⟨rfl, hkey.symm⟩)
  · exact List.mem_append_right _ (List.mem_singleton.mpr rfl)

theorem Counted.loses (h : Counted (limitConfig limit) columnSize n m) (hlimit : 1 ≤ limit)
    (hlost : i32Max < saturatingSucc n ∨ min limit i64Max < columnSize (.nat 1)) :
    (((m.step (countWrite true)).step (.perform [] 0)).restart ⟨0, 0⟩ [roomRow]).state.channels.contains
      "room".toList = true ∧
    LosesLastWrite ((m.step (countWrite true)).step (.perform [] 0)) "room".toList "k".toList [roomRow] := by
  refine ⟨?_, h.written hlimit ?_⟩
  · obtain ⟨ch, e, -, -, -, -, hstep⟩ := h.write hlimit true
    rw [hstep, contains_restart]
    change (Db.loadChannels (AppState.new m.live.state.config) _ _ _).channels.contains _ = true
    rw [h.config]
    rfl
  · obtain ⟨ch, e, hch, hkey, hversion, hvalue, hstep⟩ := h.write hlimit true
    rw [hstep]
    apply entry_restart_oversized
    intro row hrow
    obtain ⟨k, hk⟩ := Table.mem_values.mp hrow
    have hget : (((MirrorWrite.context "room".toList e).execute m.db []).toOption.getD m.db).context.get k =
      some row := hk
    rw [execute_context, h.db] at hget
    have hsize : (((MirrorWrite.context "room".toList e).execute m.db []).toOption.getD m.db).columnSize =
        columnSize := by
      rw [execute_columnSize, h.db]
      rfl
    by_cases hwritten : k = ("room".toList, e.key) ∧ e.version ≤ i32Max
    · rw [if_pos hwritten] at hget
      cases hget
      have hlarge := hlost.resolve_left (by
        rw [← hversion]
        exact Nat.not_lt.mpr hwritten.2)
      change min m.live.state.config.maxContentBytes i64Max < (((MirrorWrite.context "room".toList e).execute m.db
        []).toOption.getD m.db).columnSize e.value.toJson
      rw [hsize, h.config, hvalue]
      exact hlarge
    · rw [if_neg hwritten] at hget
      cases hget

theorem run_longCount (config : Config) (columnSize : Json → Nat) (n : Nat) :
    MirrorWorld.run config columnSize (longCount n) = ((MirrorWorld.run config columnSize
      (.live (.insert ⟨0, 0⟩ "room".toList "room".toList "ada".toList [] []) false ::
        List.replicate n (countWrite false))).step (countWrite true)).step (.perform [] 0) := by
  rw [longCount, ← List.cons_append, MirrorWorld.run, Run.exec_append]
  rfl

/-- The last write can be lost though its task ran: past `i32::MAX` its version is refused, a value that
fits as text may not fit as a column, and the row of the channel may itself have been shed. -/
theorem not_context_mirror_converges :
    (∃ config as, ((MirrorWorld.run config (fun _ => 0) as).restart ⟨0, 0⟩ [roomRow]).state.channels.contains
        "room".toList = true ∧
      LosesLastWrite (MirrorWorld.run config (fun _ => 0) as) "room".toList "k".toList [roomRow]) ∧
    (∃ config as, ((MirrorWorld.run config (fun _ => 20) as).restart ⟨0, 0⟩ [roomRow]).state.channels.contains
        "room".toList = true ∧
      LosesLastWrite (MirrorWorld.run config (fun _ => 20) as) "room".toList "k".toList [roomRow]) ∧
    ∃ config as, LosesLastWrite (MirrorWorld.run config (fun _ => 20) as) "room".toList "k".toList [] := by
  refine ⟨⟨limitConfig 16, longCount i32Max, ?_⟩, ⟨limitConfig 16, longCount 0, ?_⟩, limitConfig 16, longCount 0, ?_⟩
  · rw [run_longCount]
    refine (counted_longCount _ (by decide) (by decide)).loses (by decide) (.inl ?_)
    rw [saturatingSucc_of_lt (by decide)]
    exact Nat.lt_succ_self i32Max
  · rw [run_longCount]
    exact (counted_longCount _ (by decide) (by decide)).loses (by decide) (.inr (by decide))
  · rw [run_longCount]
    exact (counted_longCount _ (by decide) (by decide)).written (by decide) (entry_restart_unrestored _ _ _ _)

end Runs
end AgentBridge
