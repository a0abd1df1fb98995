import AgentBridge.Base.Register
import AgentBridge.Mirror.Boot
import AgentBridge.State.Sections

/-! The best-effort writes of the live state to its mirror: a call that changed the state
hands its write to a task of its own, or sheds it; the tasks reach the database in any
order, and any of them may fail. -/

namespace AgentBridge
open State

/-- The write of one persistence task. Rows of agents, channels and members are not followed. -/
inductive MirrorWrite
  | message (message : Message)
  | context (slug : Text) (entry : ContextEntry)

namespace MirrorWrite

/-- What the database makes of the write when the task reaches it. -/
def execute (db : Db) (dbNow : Timestamp) : MirrorWrite → Except Text Db
  | .message m => db.insertMessage dbNow m
  | .context slug entry => db.saveContext dbNow slug entry

end MirrorWrite

structure MirrorWorld where
  live : ChannelWorld
  db : Db
  /-- Accepted tasks that have not run. -/
  pending : List MirrorWrite
  /-- The writes that reached the database and when, oldest first. -/
  performed : List (Timestamp × MirrorWrite)

/-- `live` is one critical section of a call, `record` a context write of the program for itself;
`permit` says whether the write of the call gets a permit or is shed. `perform` runs the `i`-th
accepted task, `fail` is one that does not reach the database. -/
inductive MirrorAction
  | live (a : ChannelAction) (permit : Bool)
  | record (now : Now) (slug key : Text) (value : ContextValue) (updatedBy : Text) (permit : Bool)
  | perform (dbNow : Timestamp) (i : Nat)
  | fail (i : Nat)

def BridgeResult.contextWrite (slug : Text) (r : BridgeResult ContextEntry) : List MirrorWrite :=
  r.toOption.toList.map (.context slug)

namespace ChannelWorld

/-- The write a critical section of a call leads to. -/
def persisted (w : ChannelWorld) : ChannelAction → List MirrorWrite
  | .commit now newId i =>
    match w.posts[i]? with
    | none => []
    | some call => (w.state.appendMessage now newId call.slug call.sender call.role call.content
        call.metadata).1.toOption.toList.map .message
  | .setContext now slug key value updatedBy =>
    BridgeResult.contextWrite slug (w.state.setContext now slug key value updatedBy).1
  | _ => []

end ChannelWorld

namespace MirrorWorld

def init (config : Config) (columnSize : Json → Nat) : MirrorWorld :=
  ⟨ChannelWorld.init config, Db.empty columnSize, [], []⟩

/-- The `i`-th task runs; a refused write leaves the tables alone. -/
def perform (m : MirrorWorld) (dbNow : Timestamp) (i : Nat) : MirrorWorld :=
  match m.pending[i]? with
  | none => m
  | some write =>
    { m with
      db := (write.execute m.db dbNow).toOption.getD m.db
      pending := m.pending.eraseIdx i
      performed := m.performed ++ [(dbNow, write)] }

def step (m : MirrorWorld) : MirrorAction → MirrorWorld
  | .live a permit =>
    { m with
      live := m.live.step a
      pending := m.pending ++ if permit then m.live.persisted a else [] }
  | .record now slug key value updatedBy permit =>
    let (r, s) := m.live.state.setContextInternal now slug key value updatedBy
    { m with
      live := { m.live with state := s }
      pending := m.pending ++ if permit then BridgeResult.contextWrite slug r else [] }
  | .perform dbNow i => m.perform dbNow i
  | .fail i => { m with pending := m.pending.eraseIdx i }

abbrev run (config : Config) (columnSize : Json → Nat) (as : List MirrorAction) : MirrorWorld :=
  Run.exec step (init config columnSize) as

/-- The state after a restart, when the query over channels returns `channels`: any of their rows may
have been shed as well. Posts and tasks that were under way are lost. -/
def restart (m : MirrorWorld) (now : Now) (channels : List ChannelRow) : ChannelWorld :=
  ⟨Db.loadState { m.db with channels } (AppState.new m.live.state.config) now, []⟩

end MirrorWorld

section Effects

theorem execute_message (db : Db) (dbNow : Timestamp) (message : Message) :
    ((MirrorWrite.message message).execute db dbNow).toOption.getD db =
      if message.seq ≤ i64Max ∧ db.messages.get (message.channel, message.seq) = none then
        { db with messages :=
          db.messages.insert (message.channel, message.seq) { message with createdAt := dbNow } }
      else db := by
  unfold MirrorWrite.execute Db.insertMessage
  dsimp only
  by_cases hlarge : message.seq > i64Max
  · rw [if_pos hlarge, if_neg (fun h => absurd h.1 (Nat.not_le.mpr hlarge))]
    rfl
  · rw [if_neg hlarge]
    cases hget : db.messages.get (message.channel, message.seq) with
    | none =>
      have hfree : db.messages.contains (message.channel, message.seq) = false := by rw [Table.contains, hget]; rfl
      rw [hfree, if_neg Bool.false_ne_true, if_pos ⟨Nat.not_lt.mp hlarge, rfl⟩]
      rfl
    | some stored =>
      have htaken : db.messages.contains (message.channel, message.seq) = true := by rw [Table.contains, hget]; rfl
      rw [htaken, if_pos rfl, if_neg (fun h => by cases h.2)]
      rfl

theorem row_execute_message (db : Db) (dbNow : Timestamp) (message : Message) (k : Text × Nat) :
    (((MirrorWrite.message message).execute db dbNow).toOption.getD db).messages.get k =
      if k = (message.channel, message.seq) ∧ message.seq ≤ i64Max ∧ db.messages.get k = none then
        some { message with createdAt := dbNow }
      else db.messages.get k := by
  rw [execute_message]
  by_cases hk : k = (message.channel, message.seq)
  · by_cases hfree : message.seq ≤ i64Max ∧ db.messages.get (message.channel, message.seq) = none
    · rw [if_pos hfree, if_pos ⟨hk, hfree.1, hk ▸ hfree.2⟩, hk]
      exact Table.get_insert_self _ _ _
    · rw [if_neg hfree, if_neg (fun h => hfree ⟨h.2.1, hk ▸ h.2.2⟩)]
  · have hother : ¬ (k = (message.channel, message.seq) ∧ message.seq ≤ i64Max ∧ db.messages.get k = none) :=
      fun h => hk h.1
    rw [if_neg hother]
    split_ifs
    · exact Table.get_insert_ne hk
    · rfl

theorem execute_context (db : Db) (dbNow : Timestamp) (slug : Text) (entry : ContextEntry) (k : Text × Text) :
    (((MirrorWrite.context slug entry).execute db dbNow).toOption.getD db).context.get k =
      if k = (slug, entry.key) ∧ entry.version ≤ i32Max then
        Register.overwrite ContextRow.version (db.context.get k) (entry.toRow slug dbNow)
      else db.context.get k := by
  unfold MirrorWrite.execute Db.saveContext
  dsimp only
  by_cases hlarge : entry.version > i32Max
  · rw [if_pos hlarge, if_neg (fun h => absurd h.2 (Nat.not_le.mpr hlarge))]
    rfl
  · rw [if_neg hlarge]
    have hfits : entry.version ≤ i32Max := Nat.not_lt.mp hlarge
    by_cases hk : k = (slug, entry.key)
    · rw [if_pos ⟨hk, hfits⟩, hk]
      cases hget : db.context.get (slug, entry.key) with
      | none => exact Table.get_insert_self _ _ _
      | some stored =>
        dsimp only [Register.overwrite]
        by_cases hlt : stored.version < (entry.toRow slug dbNow).version
        · rw [if_pos hlt, if_pos hlt]
          exact Table.get_insert_self _ _ _
        · rw [if_neg hlt, if_neg hlt]
          exact hget
    · rw [if_neg (fun h => hk h.1)]
      cases hget : db.context.get (slug, entry.key) with
      | none => exact Table.get_insert_ne hk
      | some stored =>
        dsimp only
        by_cases hlt : stored.version < (entry.toRow slug dbNow).version
        · rw [if_pos hlt]
          exact Table.get_insert_ne hk
        · rw [if_neg hlt]
          rfl

theorem execute_message_context (db : Db) (dbNow : Timestamp) (message : Message) :
    (((MirrorWrite.message message).execute db dbNow).toOption.getD db).context = db.context := by
  rw [execute_message]
  split_ifs <;> rfl

theorem execute_context_messages (db : Db) (dbNow : Timestamp) (slug : Text) (entry : ContextEntry) :
    (((MirrorWrite.context slug entry).execute db dbNow).toOption.getD db).messages = db.messages := by
  unfold MirrorWrite.execute Db.saveContext
  dsimp only
  split_ifs
  · rfl
  · cases db.context.get (slug, entry.key) with
    | none => rfl
    | some stored =>
      dsimp only
      split_ifs <;> rfl

theorem execute_columnSize (db : Db) (dbNow : Timestamp) (w : MirrorWrite) :
    ((w.execute db dbNow).toOption.getD db).columnSize = db.columnSize := by
  cases w with
  | message m =>
    rw [execute_message]
    split_ifs <;> rfl
  | context slug e =>
    unfold MirrorWrite.execute Db.saveContext
    dsimp only
    split_ifs
    · rfl
    · cases db.context.get (slug, e.key) with
      | none => rfl
      | some stored =>
        dsimp only
        split_ifs <;> rfl

theorem contains_restart (m : MirrorWorld) (now : Now) (channels : List ChannelRow) (slug : Text) :
    (m.restart now channels).state.channels.contains slug =
      (Db.loadChannels (AppState.new m.live.state.config) now (channels.filter fun row => !row.archived)
        0).channels.contains slug := by
  rw [MirrorWorld.restart, Db.loadState]
  dsimp only [Db.loadContext]
  rw [contains_loadRows]
  exact (loadMessages_frame _ _ _).2.1 slug

end Effects
end AgentBridge
