import AgentBridge.Mirror.Restore
import AgentBridge.State.Channels

/-! The Postgres mirror of channels, messages and shared context. The integer columns are
signed, but every write converts an unsigned value with `try_from`, so the stored numbers
are natural and the loaders' checks against negative ones have nothing to reject. -/

namespace AgentBridge
open State

structure ChannelRow where
  slug : Text
  topic : Text
  embeddingModel : Text
  embedding : List Float32
  createdBy : Text
  createdAt : Timestamp
  metadata : Json
  /-- The `status` column says `archived`. -/
  archived : Bool

/-- The row of a room `ada` created. -/
def roomRow : ChannelRow where
  slug := "room".toList
  topic := "room".toList
  embeddingModel := []
  embedding := []
  createdBy := "ada".toList
  createdAt := []
  metadata := .obj []
  archived := false

/-- A row of `shared_context`; the database stamps `updated_at`. -/
structure ContextRow where
  channelSlug : Text
  ctxKey : Text
  value : ContextValue
  version : Nat
  updatedBy : Text
  updatedAt : Timestamp

def ContextEntry.toRow (slug : Text) (dbNow : Timestamp) (entry : ContextEntry) : ContextRow where
  channelSlug := slug
  ctxKey := entry.key
  value := entry.value
  version := entry.version
  updatedBy := entry.updatedBy
  updatedAt := dbNow

def ContextRow.toEntry (row : ContextRow) : ContextEntry where
  key := row.ctxKey
  value := row.value
  version := row.version
  updatedBy := row.updatedBy
  updatedAt := row.updatedAt

/-- The tables and `pg_column_size`, the bytes Postgres needs for a stored document. -/
structure Db where
  columnSize : Json → Nat
  /-- In the order of their query: by creation time and slug. -/
  channels : List ChannelRow
  /-- By channel and sequence number; `created_at` is the database's. -/
  messages : Table (Text × Nat) Message
  /-- By channel and key. -/
  context : Table (Text × Text) ContextRow

namespace Db

def empty (columnSize : Json → Nat) : Db := ⟨columnSize, [], .empty, .empty⟩

def insertMessage (db : Db) (dbNow : Timestamp) (message : Message) : Except Text Db :=
  if message.seq > i64Max then .error "message sequence exceeds PostgreSQL bigint".toList
  else if db.messages.contains (message.channel, message.seq) then .ok db
  else .ok { db with messages :=
    db.messages.insert (message.channel, message.seq) { message with createdAt := dbNow } }

/-- The conditional upsert, executed atomically. -/
def saveContext (db : Db) (dbNow : Timestamp) (slug : Text) (entry : ContextEntry) : Except Text Db :=
  if entry.version > i32Max then .error "context version exceeds PostgreSQL integer".toList
  else
    let row := entry.toRow slug dbNow
    match db.context.get (slug, entry.key) with
    | none => .ok { db with context := db.context.insert (slug, entry.key) row }
    | some stored =>
      if stored.version < row.version then
        .ok { db with context := db.context.insert (slug, entry.key) row }
      else .ok db

def loadChannels (s : AppState) (now : Now) : List ChannelRow → Nat → AppState
  | [], _ => s
  | row :: rows, restored =>
    if restored ≥ s.config.maxChannels then s
    else match s.restoreChannel now row.slug row.topic row.embedding row.embeddingModel row.createdBy
        row.createdAt row.metadata with
    | (true, s) => loadChannels s now rows (restored + 1)
    | (false, s) => loadChannels s now rows restored

/-- The rows of one channel by sequence number. -/
def channelMessages (db : Db) (slug : Text) : List Message :=
  (db.messages.values.filter fun m => m.channel = slug).insertionSort fun a b => a.seq ≤ b.seq

def maxSeq (messages : List Message) : Nat := (messages.map Message.seq).foldr max 0

/-- The rows among the last `history_limit` of a channel that fit the content limit. -/
def retainedRows (db : Db) (config : Config) (stored : List Message) : List Message :=
  let historyLimit := min (max config.historyLimit 1) i64Max
  let contentLimit := min config.maxContentBytes i64Max
  (stored.drop (stored.length - historyLimit)).filter fun m =>
    Text.byteLen m.content ≤ contentLimit ∧ db.columnSize m.metadata ≤ contentLimit

def restoreHistory (db : Db) (s : AppState) (slug : Text) : AppState :=
  match db.channelMessages slug with
  | [] => s
  | m :: ms => (s.restoreMessages slug (db.retainedRows s.config (m :: ms)) (m :: ms).length (maxSeq (m :: ms))).2

def loadMessages (db : Db) (s : AppState) (channelSlugs : List Text) : AppState :=
  channelSlugs.foldl db.restoreHistory s

/-- The rows of the given channels whose value fits, in the order of the query. -/
def contextRows (db : Db) (config : Config) (channelSlugs : List Text) : List ContextRow :=
  let contentLimit := min config.maxContentBytes i64Max
  (db.context.values.filter fun row =>
    row.channelSlug ∈ channelSlugs ∧ db.columnSize row.value.toJson ≤ contentLimit).insertionSort
    fun a b => a.channelSlug < b.channelSlug ∨ (a.channelSlug = b.channelSlug ∧ a.ctxKey ≤ b.ctxKey)

def loadContext (db : Db) (s : AppState) (channelSlugs : List Text) : AppState :=
  (db.contextRows s.config channelSlugs).foldl
    (fun s row => (s.restoreContextEntry row.channelSlug row.toEntry).2) s

/-- A boot: durable state is restored before the listeners accept traffic. -/
def loadState (db : Db) (s : AppState) (now : Now) : AppState :=
  let s := loadChannels s now (db.channels.filter fun row => !row.archived) 0
  let channelSlugs := s.listChannels.map Channel.slug
  let s := db.loadMessages s channelSlugs
  db.loadContext s channelSlugs

end Db
end AgentBridge
