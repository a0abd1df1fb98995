import AgentBridge.Base.KeySet
import AgentBridge.Base.Lines
import AgentBridge.Base.Result
import AgentBridge.Base.Table
import AgentBridge.Base.Url

/-! The records of accepted Slack events, and the journal file that every change is appended to before it counts. -/

namespace AgentBridge.Slack

inductive AdapterError
  | configuration (message : Text)
  | journal | bridge | slack
deriving DecidableEq

def maxEventIdBytes : Nat := 255
def maxAgentKeyBytes : Nat := 255

inductive EventState
  | claimed | workflowCreated | completed | canceled
deriving DecidableEq

def EventState.isTerminal : EventState → Bool
  | completed => true
  | canceled => true
  | _ => false

inductive CancelOutcome
  | requested
  | alreadyTerminal (state : EventState)
  | unknown
deriving DecidableEq

deriving instance DecidableEq for KeySet

structure EventRecord where
  eventId : Text
  state : EventState
  workflowId : Option Text
  postedAgents : KeySet Text
  cancelRequested : Bool
  updatedAt : Text
deriving DecidableEq

inductive ClaimOutcome
  | claimed | duplicate
deriving DecidableEq

def EventState.text : EventState → Text
  | claimed => "claimed".toList
  | workflowCreated => "workflow_created".toList
  | completed => "completed".toList
  | canceled => "canceled".toList

/-- A character inside a JSON string. -/
def escapedChar (c : Char) : Text :=
  if c = '"' then "\\\"".toList
  else if c = '\\' then "\\\\".toList
  else if c = '\n' then "\\n".toList
  else if c = '\r' then "\\r".toList
  else if c = '\t' then "\\t".toList
  else if c.toNat = 8 then "\\b".toList
  else if c.toNat = 12 then "\\f".toList
  else if c.toNat < 0x20 then "\\u00".toList ++ [Nat.digitChar (c.toNat / 16), Nat.digitChar (c.toNat % 16)]
  else [c]

def quoted (s : Text) : Text := '"' :: s.flatMap escapedChar ++ ['"']

def recordText (record : EventRecord) : Text :=
  "\x7b\"event_id\":".toList ++ quoted record.eventId ++
  ",\"state\":".toList ++ quoted record.state.text ++
  (match record.workflowId with
    | some workflowId => ",\"workflow_id\":".toList ++ quoted workflowId
    | none => []) ++
  ",\"posted_agents\":[".toList ++ ((record.postedAgents.keys.map quoted).intersperse [',']).flatten ++
  "],\"cancel_requested\":".toList ++ (if record.cancelRequested then "true".toList else "false".toList) ++
  ",\"updated_at\":".toList ++ quoted record.updatedAt ++ "\x7d".toList

/-- How an append goes: the bytes that reach the file, and whether it is synced. -/
structure AppendIo where
  written : Nat
  synced : Bool

/-- The records in memory, and the bytes of the journal file, none where there is no file. -/
structure EventStore where
  records : Table Text EventRecord
  file : List Nat

def newline : Nat := 10
def carriageReturn : Nat := 13

def eventIdChar (c : Char) : Bool := Text.isAsciiAlphanumeric c || c == '-' || c == '_' || c == ':' || c == '.'

def validEventId (value : Text) : Bool :=
  !value.isEmpty && decide (Text.byteLen value ≤ maxEventIdBytes) && value.all eventIdChar

def validAgentKey (agentKey : Text) : Bool := Text.printable maxAgentKeyBytes agentKey

def validatePersistedRecord (record : EventRecord) : Except AdapterError Unit :=
  .refuseIf (!validEventId record.eventId || record.workflowId.any (fun workflowId => !validEventId workflowId) ||
    record.postedAgents.keys.any fun agentKey => !validAgentKey agentKey) .journal

inductive Mutation
  | setWorkflow (workflowId : Text)
  | markPosted (agentKey : Text)
  | complete
  | requestCancel
  | markCanceled

def Mutation.apply (record : EventRecord) : Mutation → EventRecord
  | setWorkflow workflowId => { record with state := .workflowCreated, workflowId := some workflowId }
  | markPosted agentKey => { record with postedAgents := record.postedAgents.insert agentKey }
  | complete => { record with state := .completed }
  | requestCancel => { record with cancelRequested := true }
  | markCanceled => { record with state := .canceled }

namespace EventStore

def line (record : EventRecord) : List Nat := Url.encodeUtf8 (recordText record) ++ [newline]

/-- Whether the append succeeds; the bytes it writes stay either way. -/
def appendOk (record : EventRecord) (io : AppendIo) : Bool :=
  io.synced && decide ((line record).length ≤ io.written)

def append (store : EventStore) (record : EventRecord) (io : AppendIo) : EventStore :=
  { store with file := store.file ++ (line record).take io.written }

def freshRecord (eventId now : Text) : EventRecord where
  eventId := eventId
  state := .claimed
  workflowId := none
  postedAgents := .empty
  cancelRequested := false
  updatedAt := now

def claim (store : EventStore) (eventId now : Text) (io : AppendIo) :
    Except AdapterError ClaimOutcome × EventStore :=
  if !validEventId eventId then (.error .journal, store)
  else if store.records.contains eventId then (.ok .duplicate, store)
  else
    let record := freshRecord eventId now
    let appended := store.append record io
    if appendOk record io then
      (.ok .claimed, { appended with records := appended.records.insert eventId record })
    else (.error .journal, appended)

/-- One section under the lock; the record in memory is put back where the append fails. -/
def update (store : EventStore) (eventId : Text) (mutation : Mutation) (now : Text)
    (io : AppendIo) : Except AdapterError Unit × EventStore :=
  match store.records.get eventId with
  | none => (.error .journal, store)
  | some previous =>
    let record := { mutation.apply previous with updatedAt := now }
    let appended := store.append record io
    if appendOk record io then
      (.ok (), { appended with records := appended.records.insert eventId record })
    else (.error .journal, appended)

def snapshot (store : EventStore) (eventId : Text) : Option EventRecord := store.records.get eventId

def cancelRequested (store : EventStore) (eventId : Text) : Bool :=
  (store.snapshot eventId).any EventRecord.cancelRequested

/-- The first section of `request_cancel`; `none` where it goes on to record the intent. -/
def cancelAnswer (store : EventStore) (eventId : Text) : Option CancelOutcome :=
  match store.snapshot eventId with
  | none => some .unknown
  | some existing => if existing.state.isTerminal then some (.alreadyTerminal existing.state) else none

def requestCancel (store : EventStore) (eventId now : Text) (io : AppendIo) :
    Except AdapterError CancelOutcome × EventStore :=
  match store.cancelAnswer eventId with
  | some outcome => (.ok outcome, store)
  | none => ((store.update eventId .requestCancel now io).1.map fun _ => .requested,
      (store.update eventId .requestCancel now io).2)

def withoutReturn (bytes : List Nat) : List Nat :=
  if bytes.getLast? = some carriageReturn then bytes.dropLast else bytes

/-- The lines of a file as they are read: the end of a line is not part of it, and the last may have none. -/
def journalLines (file : List Nat) : List (List Nat) :=
  let lines := Lines.split newline file
  if Lines.AtStart newline file then lines.map withoutReturn
  else lines.dropLast.map withoutReturn ++ lines.getLast?.toList

/-- `decode` is the reader derived for records. -/
def readLine (decode : Text → Option EventRecord) (records : Table Text EventRecord) (bytes : List Nat) :
    Except AdapterError (Table Text EventRecord) :=
  match Url.decodeUtf8 bytes with
  | none => .error .journal
  | some line =>
    if Text.trim line = [] then .ok records
    else match decode line with
    | none => .error .journal
    | some record => do
      validatePersistedRecord record
      return records.insert record.eventId record

def openStore (decode : Text → Option EventRecord) (file : List Nat) : Except AdapterError EventStore := do
  return ⟨← (journalLines file).foldlM (readLine decode) .empty, file⟩

end EventStore

/-- A store without a journal file. -/
def emptyStore : EventStore := ⟨.empty, []⟩

/-- The whole line is written and synced. -/
def wholeAppend : AppendIo := ⟨65536, true⟩

section Updates
variable {store : EventStore} {eventId : Text} (mutation : Mutation) (now : Text) (io : AppendIo)

/-- What an update does: the record of the event changes where the append succeeds, and the file either way. -/
theorem update_cases {previous : EventRecord} (h : store.records.get eventId = some previous) :
    (EventStore.appendOk { mutation.apply previous with updatedAt := now } io = true ∧
      store.update eventId mutation now io = (.ok (), { store.append
        { mutation.apply previous with updatedAt := now } io with
          records := store.records.insert eventId { mutation.apply previous with updatedAt := now } })) ∨
    EventStore.appendOk { mutation.apply previous with updatedAt := now } io = false ∧
      store.update eventId mutation now io = (.error .journal, store.append
        { mutation.apply previous with updatedAt := now } io) := by
  unfold EventStore.update
  rw [h]
  dsimp only
  by_cases hok : EventStore.appendOk { mutation.apply previous with updatedAt := now } io = true
  · rw [if_pos hok]
    exact .inl ⟨hok, rfl⟩
  · rw [if_neg hok]
    exact .inr ⟨Bool.eq_false_iff.mpr hok, rfl⟩

end Updates
end AgentBridge.Slack
