import AgentBridge.Base.Run
import AgentBridge.Slack.EventStore

/-! What a restart makes of the journal: any sequence of calls of the store, each append of which may fail at any of
its bytes, and then the file is read again. -/

namespace AgentBridge.Slack

/-! ### Lines -/

theorem newline_notMem_encodeChar {c : Char} (h : c ≠ '\n') : newline ∉ Url.encodeChar c := by
  have hcode : c.toNat ≠ 10 := fun heq => h (Char.toNat_inj.mp heq)
  unfold Url.encodeChar newline
  dsimp only
  split_ifs with h₁ h₂ h₃
  · rw [List.mem_singleton]
    exact fun heq => hcode heq.symm
  · simp only [List.mem_cons, List.not_mem_nil, or_false]
    omega
  · simp only [List.mem_cons, List.not_mem_nil, or_false]
    omega
  · simp only [List.mem_cons, List.not_mem_nil, or_false]
    omega

theorem newline_notMem_encodeUtf8 {s : Text} (h : '\n' ∉ s) : newline ∉ Url.encodeUtf8 s := by
  intro hmem
  obtain ⟨c, hc, hnewline⟩ := List.mem_flatMap.mp hmem
  exact newline_notMem_encodeChar (fun heq => h (heq ▸ hc)) hnewline

theorem digitChar_ne_newline {n : Nat} (h : n < 16) : Nat.digitChar n ≠ '\n' := by
  have hdigits : ∀ n < 16, Nat.digitChar n ≠ '\n' := by decide
  exact hdigits n h

theorem newline_notMem_escapedChar (c : Char) : '\n' ∉ escapedChar c := by
  unfold escapedChar
  split_ifs with h₁ h₂ h₃ h₄ h₅ h₆ h₇ h₈
  · decide
  · decide
  · decide
  · decide
  · decide
  · decide
  · decide
  · have hhigh := digitChar_ne_newline (n := c.toNat / 16) (by omega)
    have hlow := digitChar_ne_newline (n := c.toNat % 16) (by omega)
    rw [List.mem_append, List.mem_cons, List.mem_singleton]
    rintro (hmem | heq | heq)
    · exact absurd hmem (by decide)
    · exact hhigh heq.symm
    · exact hlow heq.symm
  · rw [List.mem_singleton]
    exact fun heq => h₃ heq.symm

theorem newline_notMem_quoted (s : Text) : '\n' ∉ quoted s := by
  unfold quoted
  rw [List.cons_append, List.mem_cons, List.mem_append, List.mem_singleton, List.mem_flatMap]
  rintro (heq | ⟨c, -, hmem⟩ | heq)
  · cases heq
  · exact newline_notMem_escapedChar c hmem
  · cases heq

theorem newline_notMem_agents (keys : List Text) : '\n' ∉ ((keys.map quoted).intersperse [',']).flatten := by
  induction keys with
  | nil => exact List.not_mem_nil
  | cons agentKey keys ih =>
    cases keys with
    | nil =>
      rw [List.map_singleton, List.intersperse_singleton, List.flatten_singleton]
      exact newline_notMem_quoted agentKey
    | cons next keys =>
      rw [List.map_cons, List.map_cons, List.intersperse_cons_cons, List.flatten_cons, List.flatten_cons,
        List.mem_append, List.mem_append, List.mem_singleton]
      rintro (hmem | heq | hmem)
      · exact newline_notMem_quoted agentKey hmem
      · cases heq
      · exact ih hmem

theorem newline_notMem_recordText (record : EventRecord) : '\n' ∉ recordText record := by
  unfold recordText
  simp only [List.mem_append, not_or, and_assoc]
  refine ⟨by decide, newline_notMem_quoted _, by decide, newline_notMem_quoted _, ?_, by decide,
    newline_notMem_agents _, by decide, ?_, by decide, newline_notMem_quoted _, by decide⟩
  · cases record.workflowId with
    | none => exact List.not_mem_nil
    | some workflowId =>
      rw [List.mem_append]
      rintro (hmem | hmem)
      · exact absurd hmem (by decide)
      · exact newline_notMem_quoted _ hmem
  · cases record.cancelRequested <;> decide

theorem trim_recordText (record : EventRecord) : Text.trim (recordText record) ≠ [] := by
  have hbrace : ['\x7b'] <+: recordText record := by
    unfold recordText
    simp only [List.append_assoc]
    exact ⟨_, rfl⟩
  have hopen := Text.prefix_trim (p := ['\x7b']) (Text.spaceless_of_all (by decide)) hbrace
  intro hnil
  rw [hnil, List.prefix_nil] at hopen
  cases hopen

def recordBytes (record : EventRecord) : List Nat := Url.encodeUtf8 (recordText record)

theorem recordBytes_getLast (record : EventRecord) : (recordBytes record).getLast? = some 125 := by
  unfold recordBytes recordText Url.encodeUtf8
  rw [List.flatMap_append]
  exact List.getLast?_concat

theorem newline_notMem_recordBytes (record : EventRecord) : newline ∉ recordBytes record :=
  newline_notMem_encodeUtf8 (newline_notMem_recordText record)

theorem recordBytes_ne_nil (record : EventRecord) : recordBytes record ≠ [] := by
  intro hnil
  have hlast := recordBytes_getLast record
  rw [hnil] at hlast
  cases hlast

theorem line_eq (record : EventRecord) : EventStore.line record = recordBytes record ++ [newline] := rfl

theorem withoutReturn_recordBytes (record : EventRecord) :
    EventStore.withoutReturn (recordBytes record) = recordBytes record := by
  unfold EventStore.withoutReturn
  rw [recordBytes_getLast, if_neg (by decide)]

theorem journalLines_of_split {file file' : List Nat} {record : EventRecord} (hstart : Lines.AtStart newline file)
    (h : Lines.split newline file' = Lines.split newline file ++ [recordBytes record]) :
    EventStore.journalLines file' = EventStore.journalLines file ++ [recordBytes record] := by
  unfold EventStore.journalLines
  dsimp only
  rw [h, if_pos hstart]
  split_ifs with hend
  · rw [List.map_append, List.map_singleton, withoutReturn_recordBytes]
  · rw [List.dropLast_concat, List.getLast?_concat]
    rfl

theorem journalLines_append {file : List Nat} {record : EventRecord} {written : Nat}
    (hstart : Lines.AtStart newline file) (hwritten : (EventStore.line record).length ≤ written + 1) :
    EventStore.journalLines (file ++ (EventStore.line record).take written) =
      EventStore.journalLines file ++ [recordBytes record] := by
  apply journalLines_of_split hstart
  rcases Nat.lt_or_ge written (EventStore.line record).length with hshort | hwhole
  · have hlength : (recordBytes record).length = written := by
      rw [line_eq, List.length_append, List.length_singleton] at hwritten hshort
      omega
    rw [line_eq, List.take_left' hlength]
    exact Lines.split_append_last hstart (newline_notMem_recordBytes record) (recordBytes_ne_nil record)
  · rw [List.take_of_length_le hwhole, line_eq]
    exact Lines.split_append_line hstart (newline_notMem_recordBytes record)

theorem readLine_recordBytes {decode : Text → Option EventRecord} {record : EventRecord}
    (hread : decode (recordText record) = some record) (hvalid : validatePersistedRecord record = .ok ())
    (records : Table Text EventRecord) :
    EventStore.readLine decode records (recordBytes record) = .ok (records.insert record.eventId record) := by
  unfold EventStore.readLine recordBytes
  rw [Url.decodeUtf8_encodeUtf8]
  dsimp only
  rw [if_neg (trim_recordText record), hread]
  dsimp only
  rw [hvalid]
  rfl

/-! ### Calls -/

inductive StoreOp
  | claim (eventId : Text)
  | update (eventId : Text) (mutation : Mutation)
  | requestCancel (eventId : Text)

/-- A call of the store, with the clock and how its append goes, if it makes one. -/
structure StoreCall where
  op : StoreOp
  now : Text
  io : AppendIo

inductive StoreAnswer
  | claim (outcome : ClaimOutcome)
  | done
  | cancel (outcome : CancelOutcome)

def StoreOp.eventId : StoreOp → Text
  | claim eventId => eventId
  | update eventId _ => eventId
  | requestCancel eventId => eventId

namespace StoreCall

def run (store : EventStore) (call : StoreCall) : Except AdapterError StoreAnswer × EventStore :=
  match call.op with
  | .claim eventId =>
    let (outcome, store') := store.claim eventId call.now call.io
    (outcome.map .claim, store')
  | .update eventId mutation =>
    let (outcome, store') := store.update eventId mutation call.now call.io
    (outcome.map fun _ => .done, store')
  | .requestCancel eventId =>
    let (outcome, store') := store.requestCancel eventId call.now call.io
    (outcome.map .cancel, store')

/-- What the call means to make of the record of its event; `none` where it leaves the record alone. -/
def change (call : StoreCall) (record : Option EventRecord) : Option EventRecord :=
  match call.op, record with
  | .claim eventId, none => if validEventId eventId then some (EventStore.freshRecord eventId call.now) else none
  | .claim _, some _ => none
  | .update _ mutation, some record => some { mutation.apply record with updatedAt := call.now }
  | .update .., none => none
  | .requestCancel _, some record =>
    if record.state.isTerminal then none
    else some { Mutation.requestCancel.apply record with updatedAt := call.now }
  | .requestCancel _, none => none

def appends (store : EventStore) (call : StoreCall) : Option EventRecord :=
  call.change (store.records.get call.op.eventId)

end StoreCall

/-- What a call does: nothing, or it appends a record that it then keeps, or it appends one and fails. -/
theorem run_cases (store : EventStore) (call : StoreCall) :
    (call.appends store = none ∧ (call.run store).2 = store ∧ (call.run store).1 ≠ .ok (.claim .claimed)) ∨
    (∃ record answer, call.appends store = some record ∧ EventStore.appendOk record call.io = true ∧
      call.run store = (.ok answer, { store.append record call.io with
        records := store.records.insert call.op.eventId record })) ∨
    ∃ record, call.appends store = some record ∧ EventStore.appendOk record call.io = false ∧
      call.run store = (.error .journal, store.append record call.io) := by
  obtain ⟨op, now, io⟩ := call
  -- an operation appends where its own checks pass; only a claim that returned answers `claimed`
  cases op with
  | claim eventId =>
    unfold StoreCall.run StoreCall.appends StoreCall.change EventStore.claim
    dsimp only [StoreOp.eventId]
    cases hvalid : validEventId eventId with
    | false =>
      refine .inl ⟨?_, rfl, by rintro ⟨⟩⟩
      cases store.records.get eventId with
      | none => exact if_neg (Bool.eq_false_iff.mp hvalid)
      | some record => rfl
    | true =>
      rw [Bool.not_true, if_neg Bool.false_ne_true, Table.contains]
      cases hstored : store.records.get eventId with
      | some record => exact .inl ⟨rfl, rfl, by rintro ⟨⟩⟩
      | none =>
        refine .inr ?_
        dsimp only [Option.isSome_none]
        rw [if_neg Bool.false_ne_true]
        cases hok : EventStore.appendOk (EventStore.freshRecord eventId now) io with
        | true => exact .inl ⟨_, _, if_pos hvalid, hok, rfl⟩
        | false => exact .inr ⟨_, if_pos hvalid, hok, rfl⟩
  | update eventId mutation =>
    unfold StoreCall.run StoreCall.appends StoreCall.change
    dsimp only [StoreOp.eventId]
    cases hstored : store.records.get eventId with
    | none =>
      unfold EventStore.update
      rw [hstored]
      exact .inl ⟨rfl, rfl, by rintro ⟨⟩⟩
    | some previous =>
      rcases update_cases mutation now io hstored with ⟨hok, heq⟩ | ⟨hok, heq⟩
      · rw [heq]
        exact .inr (.inl ⟨_, _, rfl, hok, rfl⟩)
      · rw [heq]
        exact .inr (.inr ⟨_, rfl, hok, rfl⟩)
  | requestCancel eventId =>
    unfold StoreCall.run StoreCall.appends StoreCall.change EventStore.requestCancel EventStore.cancelAnswer
      EventStore.snapshot
    dsimp only [StoreOp.eventId]
    cases hstored : store.records.get eventId with
    | none => exact .inl ⟨rfl, rfl, by rintro ⟨⟩⟩
    | some previous =>
      dsimp only
      cases hterminal : previous.state.isTerminal with
      | true => exact .inl ⟨rfl, rfl, by rintro ⟨⟩⟩
      | false =>
        rw [if_neg Bool.false_ne_true, if_neg Bool.false_ne_true]
        rcases update_cases .requestCancel now io hstored with ⟨hok, heq⟩ | ⟨hok, heq⟩
        · rw [heq]
          exact .inr (.inl ⟨_, _, rfl, hok, rfl⟩)
        · rw [heq]
          exact .inr (.inr ⟨_, rfl, hok, rfl⟩)

/-! ### Runs -/

/-- A store with the calls made of it and their answers. -/
structure JournalRun where
  store : EventStore
  log : List (StoreCall × Except AdapterError StoreAnswer)

namespace JournalRun

def step (run : JournalRun) (call : StoreCall) : JournalRun :=
  ⟨(call.run run.store).2, run.log ++ [(call, (call.run run.store).1)]⟩

def opened (store : EventStore) : JournalRun := ⟨store, []⟩

/-- The record of an event after a restart is the one in memory, or it with a failed call fully applied. -/
def Kept (run : JournalRun) (reopened : Table Text EventRecord) (eventId : Text) : Prop :=
  reopened.get eventId = run.store.records.get eventId ∨ ∃ call record, (call, .error .journal) ∈ run.log ∧
    call.op.eventId = eventId ∧ call.change (run.store.records.get eventId) = some record ∧
    reopened.get eventId = some record

/-- The file opens again, with every record kept, and no event that was claimed can be claimed again. -/
def Survives (decode : Text → Option EventRecord) (run : JournalRun) : Prop :=
  ∃ reopened, EventStore.openStore decode run.store.file = .ok reopened ∧
    (∀ eventId, run.Kept reopened.records eventId) ∧
    ∀ call, (call, .ok (.claim .claimed)) ∈ run.log →
      (∃ record, run.store.records.get call.op.eventId = some record) ∧
      ∀ now io, reopened.claim call.op.eventId now io = (.ok .duplicate, reopened)

end JournalRun

def Mutation.Valid : Mutation → Prop
  | setWorkflow workflowId => validEventId workflowId = true
  | markPosted agentKey => validAgentKey agentKey = true
  | _ => True

def StoreOp.Valid : StoreOp → Prop
  | update _ mutation => mutation.Valid
  | _ => True

/-- The call brings what records may hold, and its append writes nothing, or starts a line and writes all of it but
perhaps its end. -/
def JournalRun.Whole (run : JournalRun) (call : StoreCall) : Prop :=
  call.op.Valid ∧ ∀ record, call.appends run.store = some record → call.io.written = 0 ∨
    Lines.AtStart newline run.store.file ∧ (EventStore.line record).length ≤ call.io.written + 1

def JournalRun.Reads (decode : Text → Option EventRecord) (run : JournalRun) (call : StoreCall) : Prop :=
  ∀ record, call.appends run.store = some record → decode (recordText record) = some record

/-- The records of a table are under their identifiers, and could be read. -/
def Filed (records : Table Text EventRecord) : Prop :=
  ∀ eventId record, records.get eventId = some record →
    record.eventId = eventId ∧ validatePersistedRecord record = .ok ()

theorem Filed.insert {records : Table Text EventRecord} {record : EventRecord} (h : Filed records)
    (hvalid : validatePersistedRecord record = .ok ()) : Filed (records.insert record.eventId record) := by
  intro eventId stored hstored
  by_cases heq : eventId = record.eventId
  · subst heq
    rw [Table.get_insert_self] at hstored
    cases hstored
    exact ⟨rfl, hvalid⟩
  · rw [Table.get_insert_ne heq] at hstored
    exact h eventId stored hstored

theorem validatePersistedRecord_eq_ok {record : EventRecord} : validatePersistedRecord record = .ok () ↔
    validEventId record.eventId = true ∧ (∀ workflowId ∈ record.workflowId, validEventId workflowId = true) ∧
      ∀ agentKey ∈ record.postedAgents, validAgentKey agentKey = true := by
  unfold validatePersistedRecord
  rw [Except.refuseIf_eq_ok]
  simp only [Bool.or_eq_true, not_or, Bool.not_eq_true', Bool.not_eq_false, Option.any_eq_true, List.any_eq_true,
    not_exists, not_and, and_assoc]
  exact Iff.rfl

theorem readLine_filed {decode : Text → Option EventRecord} {records records' : Table Text EventRecord}
    {bytes : List Nat} (h : EventStore.readLine decode records bytes = .ok records') (hfiled : Filed records) :
    Filed records' := by
  unfold EventStore.readLine at h
  split at h
  · cases h
  · split_ifs at h with hblank
    · cases h
      exact hfiled
    · split at h
      · cases h
      · obtain ⟨_, hvalid, hrest⟩ := Except.bind_eq_ok.mp h
        cases hrest
        exact hfiled.insert hvalid

theorem foldlM_readLine_filed {decode : Text → Option EventRecord} {lines : List (List Nat)}
    {records records' : Table Text EventRecord} (h : lines.foldlM (EventStore.readLine decode) records = .ok records')
    (hfiled : Filed records) : Filed records' := by
  induction lines generalizing records with
  | nil =>
    cases h
    exact hfiled
  | cons bytes lines ih =>
    rw [List.foldlM_cons] at h
    obtain ⟨middle, hread, hrest⟩ := Except.bind_eq_ok.mp h
    exact ih hrest (readLine_filed hread hfiled)

theorem Mutation.Valid.persisted {mutation : Mutation} (hmutation : mutation.Valid) {record : EventRecord} {now : Text}
    (hrecord : validatePersistedRecord record = .ok ()) :
    validatePersistedRecord { mutation.apply record with updatedAt := now } = .ok () := by
  obtain ⟨hid, hworkflow, hposted⟩ := validatePersistedRecord_eq_ok.mp hrecord
  apply validatePersistedRecord_eq_ok.mpr
  cases mutation with
  | setWorkflow workflowId =>
    refine ⟨hid, ?_, hposted⟩
    rintro _ ⟨⟩
    exact hmutation
  | markPosted agentKey =>
    refine ⟨hid, hworkflow, ?_⟩
    intro posted hmem
    rcases KeySet.mem_insert.mp hmem with rfl | hold
    · exact hmutation
    · exact hposted posted hold
  | complete => exact ⟨hid, hworkflow, hposted⟩
  | requestCancel => exact ⟨hid, hworkflow, hposted⟩
  | markCanceled => exact ⟨hid, hworkflow, hposted⟩

theorem eventId_apply (mutation : Mutation) (record : EventRecord) :
    (mutation.apply record).eventId = record.eventId := by
  cases mutation <;> rfl

theorem appends_persisted {store : EventStore} {call : StoreCall} {record : EventRecord} (hfiled : Filed store.records)
    (hvalid : call.op.Valid) (h : call.appends store = some record) :
    record.eventId = call.op.eventId ∧ validatePersistedRecord record = .ok () := by
  obtain ⟨op, now, io⟩ := call
  unfold StoreCall.appends StoreCall.change at h
  cases op with
  | claim eventId =>
    cases hstored : store.records.get eventId with
    | some previous =>
      rw [StoreOp.eventId, hstored] at h
      cases h
    | none =>
      rw [StoreOp.eventId, hstored] at h
      dsimp only at h
      split_ifs at h with hid
      cases h
      refine ⟨rfl, validatePersistedRecord_eq_ok.mpr ⟨hid, ?_, ?_⟩⟩
      · rintro _ ⟨⟩
      · exact List.forall_mem_nil _
  | update eventId mutation =>
    cases hstored : store.records.get eventId with
    | none =>
      rw [StoreOp.eventId, hstored] at h
      cases h
    | some previous =>
      rw [StoreOp.eventId, hstored] at h
      cases h
      obtain ⟨hid, hpersisted⟩ := hfiled eventId previous hstored
      exact ⟨(eventId_apply mutation previous).trans hid, Mutation.Valid.persisted hvalid hpersisted⟩
  | requestCancel eventId =>
    cases hstored : store.records.get eventId with
    | none =>
      rw [StoreOp.eventId, hstored] at h
      cases h
    | some previous =>
      rw [StoreOp.eventId, hstored] at h
      dsimp only at h
      split_ifs at h with hterminal
      cases h
      obtain ⟨hid, hpersisted⟩ := hfiled eventId previous hstored
      exact ⟨hid, @Mutation.Valid.persisted .requestCancel trivial _ now hpersisted⟩

/-- What a run of whole appends keeps. -/
structure Journaled (decode : Text → Option EventRecord) (run : JournalRun) : Prop where
  filed : Filed run.store.records
  reads : ∃ reopened, (EventStore.journalLines run.store.file).foldlM (EventStore.readLine decode) .empty =
    .ok reopened ∧
    ∀ eventId, run.Kept reopened eventId
  claimed : ∀ call, (call, .ok (.claim .claimed)) ∈ run.log →
    ∃ record, run.store.records.get call.op.eventId = some record

section Steps
variable {decode : Text → Option EventRecord} {run run' : JournalRun} {call : StoreCall} {record : EventRecord}

theorem JournalRun.Kept.mono {reopened reopened' : Table Text EventRecord} {eventId : Text}
    (h : run.Kept reopened eventId)
    (hlog : ∀ entry ∈ run.log, entry ∈ run'.log)
    (hrecords : run'.store.records.get eventId = run.store.records.get eventId)
    (hreopened : reopened'.get eventId = reopened.get eventId) : run'.Kept reopened' eventId := by
  unfold JournalRun.Kept
  rw [hrecords, hreopened]
  rcases h with heq | ⟨call, record, hfailed, hid, hchange, hstored⟩
  · exact .inl heq
  · exact .inr ⟨call, record, hlog _ hfailed, hid, hchange, hstored⟩

theorem foldlM_append_line {records reopened : Table Text EventRecord}
    (hread : (EventStore.journalLines run.store.file).foldlM (EventStore.readLine decode) records = .ok reopened)
    (hrecord : decode (recordText record) = some record) (hpersisted : validatePersistedRecord record = .ok ())
    (hstart : Lines.AtStart newline run.store.file) {io : AppendIo}
    (hwritten : (EventStore.line record).length ≤ io.written + 1) :
    (EventStore.journalLines (run.store.append record io).file).foldlM (EventStore.readLine decode) records =
      .ok (reopened.insert record.eventId record) := by
  have hlast : [recordBytes record].foldlM (EventStore.readLine decode) reopened =
      .ok (reopened.insert record.eventId record) := by
    rw [List.foldlM_cons, readLine_recordBytes hrecord hpersisted]
    rfl
  unfold EventStore.append
  rw [journalLines_append hstart hwritten, List.foldlM_append]
  exact Except.bind_eq_ok.mpr ⟨reopened, hread, hlast⟩

theorem Journaled.step (h : Journaled decode run) (hwhole : run.Whole call) (hreads : run.Reads decode call) :
    Journaled decode (run.step call) := by
  obtain ⟨reopened, hread, hkept⟩ := h.reads
  have hlog : ∀ entry ∈ run.log, entry ∈ (run.step call).log := fun _ hmem => List.mem_append_left _ hmem
  have hnew : (call, (call.run run.store).1) ∈ (run.step call).log :=
    List.mem_append_right _ (List.mem_singleton_self _)
  -- nothing is appended, the line is there in full, or the append fails and leaves nothing or the line
  rcases run_cases run.store call with ⟨-, hstore, hanswer⟩ | ⟨record, answer, happends, hok, heq⟩ |
    ⟨record, happends, hfails, heq⟩
  · have hsame : (run.step call).store = run.store := hstore
    refine ⟨?_, ⟨reopened, ?_, fun eventId => (hkept eventId).mono hlog (by rw [hsame]) rfl⟩, ?_⟩
    · rw [hsame]
      exact h.filed
    · rw [hsame]
      exact hread
    · intro call' hclaimed
      rw [hsame]
      rcases List.mem_append.mp hclaimed with hold | hlast
      · exact h.claimed call' hold
      · obtain ⟨-, hanswered⟩ := Prod.mk.inj (List.mem_singleton.mp hlast)
        exact absurd hanswered.symm hanswer
  · obtain ⟨hid, hpersisted⟩ := appends_persisted h.filed hwhole.1 happends
    have hrecord := hreads record happends
    have hlength : (EventStore.line record).length ≤ call.io.written := by
      unfold EventStore.appendOk at hok
      exact of_decide_eq_true (Bool.and_eq_true_iff.mp hok).2
    -- an append that succeeds is whole, so it began at the start of a line
    have hstart : Lines.AtStart newline run.store.file := by
      rcases hwhole.2 record happends with hnothing | ⟨hstart, -⟩
      · rw [hnothing, line_eq, List.length_append, List.length_singleton] at hlength
        omega
      · exact hstart
    have hstep : (run.step call).store = { run.store.append record call.io with
        records := run.store.records.insert call.op.eventId record } := congrArg Prod.snd heq
    refine ⟨?_, ⟨reopened.insert record.eventId record, ?_, ?_⟩, ?_⟩
    · rw [hstep, ← hid]
      exact h.filed.insert hpersisted
    · rw [hstep]
      exact foldlM_append_line hread hrecord hpersisted hstart (hlength.trans (Nat.le_succ _))
    · intro eventId
      by_cases hevent : eventId = record.eventId
      · subst hevent
        refine .inl ?_
        rw [hstep, Table.get_insert_self, hid, Table.get_insert_self]
      · refine (hkept eventId).mono hlog ?_ (Table.get_insert_ne hevent)
        rw [hstep]
        exact Table.get_insert_ne (hid ▸ hevent)
    · intro call' hclaimed
      rw [hstep]
      by_cases hevent : call'.op.eventId = call.op.eventId
      · rw [hevent]
        exact ⟨record, Table.get_insert_self _ _ _⟩
      · rcases List.mem_append.mp hclaimed with hold | hlast
        · obtain ⟨stored, hstored⟩ := h.claimed call' hold
          exact ⟨stored, (Table.get_insert_ne hevent).trans hstored⟩
        · obtain ⟨hcall, -⟩ := Prod.mk.inj (List.mem_singleton.mp hlast)
          exact absurd (congrArg (fun c => c.op.eventId) hcall) hevent
  · obtain ⟨hid, hpersisted⟩ := appends_persisted h.filed hwhole.1 happends
    have hrecord := hreads record happends
    have hstep : (run.step call).store = run.store.append record call.io := congrArg Prod.snd heq
    rw [heq] at hnew
    have hclaimed : ∀ call', (call', .ok (.claim .claimed)) ∈ (run.step call).log →
        ∃ record, (run.step call).store.records.get call'.op.eventId = some record := by
      intro call' hclaimed
      rw [hstep]
      rcases List.mem_append.mp hclaimed with hold | hlast
      · exact h.claimed call' hold
      · rw [heq] at hlast
        obtain ⟨-, hanswered⟩ := Prod.mk.inj (List.mem_singleton.mp hlast)
        cases hanswered
    have hfiled : Filed (run.step call).store.records := by
      rw [hstep]
      exact h.filed
    rcases hwhole.2 record happends with hnothing | ⟨hstart, hwritten⟩
    · refine ⟨hfiled, ⟨reopened, ?_, fun eventId => (hkept eventId).mono hlog (by rw [hstep]; rfl) rfl⟩, hclaimed⟩
      rw [hstep, EventStore.append, hnothing, List.take_zero, List.append_nil]
      exact hread
    · refine ⟨hfiled, ⟨reopened.insert record.eventId record, ?_, ?_⟩, hclaimed⟩
      · rw [hstep]
        exact foldlM_append_line hread hrecord hpersisted hstart hwritten
      · intro eventId
        by_cases hevent : eventId = record.eventId
        · subst hevent
          -- the event's record on file is ahead of the one in memory
          refine .inr ⟨call, record, hnew, hid.symm, ?_, Table.get_insert_self _ _ _⟩
          rw [hstep, hid]
          exact happends
        · refine (hkept eventId).mono hlog ?_ (Table.get_insert_ne hevent)
          rw [hstep]
          rfl

theorem Journaled.exec {calls : List StoreCall} (h : Journaled decode run)
    (hwhole : Run.Guarded JournalRun.step JournalRun.Whole run calls)
    (hreads : Run.Guarded JournalRun.step (JournalRun.Reads decode) run calls) :
    Journaled decode (Run.exec JournalRun.step run calls) := by
  induction calls generalizing run with
  | nil => exact h
  | cons call calls ih => exact ih (h.step hwhole.1 hreads.1) hwhole.2 hreads.2

theorem Journaled.survives (h : Journaled decode run) : run.Survives decode := by
  obtain ⟨reopened, hread, hkept⟩ := h.reads
  refine ⟨⟨reopened, run.store.file⟩, Except.bind_eq_ok.mpr ⟨reopened, hread, rfl⟩, hkept, ?_⟩
  intro call hclaimed
  obtain ⟨record, hstored⟩ := h.claimed call hclaimed
  refine ⟨⟨record, hstored⟩, ?_⟩
  intro now io
  obtain ⟨hid, hpersisted⟩ := h.filed _ _ hstored
  have hvalid : validEventId call.op.eventId = true := hid ▸ (validatePersistedRecord_eq_ok.mp hpersisted).1
  have hknown : reopened.contains call.op.eventId = true := by
    rw [Table.contains]
    rcases hkept call.op.eventId with heq | ⟨_, record', -, -, -, heq⟩
    · rw [heq, hstored]
      rfl
    · rw [heq]
      rfl
  unfold EventStore.claim
  rw [hvalid, Bool.not_true, if_neg Bool.false_ne_true, if_pos hknown]

theorem journaled_opened {file : List Nat} {store : EventStore} (h : EventStore.openStore decode file = .ok store) :
    Journaled decode (.opened store) := by
  obtain ⟨records, hread, hstore⟩ := Except.bind_eq_ok.mp h
  cases hstore
  have hempty : Filed .empty := by
    rintro _ _ ⟨⟩
  exact ⟨foldlM_readLine_filed hread hempty, ⟨records, hread, fun _ => .inl rfl⟩,
    fun _ hmem => (List.not_mem_nil hmem).elim⟩

end Steps

/-- In every run of calls from a restart on whose appends are whole lines or nothing, the journal survives another. -/
theorem survives_of_whole (decode : Text → Option EventRecord) {file : List Nat} {store : EventStore}
    (hopen : EventStore.openStore decode file = .ok store) {calls : List StoreCall}
    (hreads : Run.Guarded JournalRun.step (JournalRun.Reads decode) (.opened store) calls)
    (hwhole : Run.Guarded JournalRun.step JournalRun.Whole (.opened store) calls) :
    (Run.exec JournalRun.step (.opened store) calls).Survives decode :=
  ((journaled_opened hopen).exec hwhole hreads).survives

/-! A run whose last append fails, after its line or within it. -/

def readKnown (known : List EventRecord) (text : Text) : Option EventRecord :=
  known.find? fun record => recordText record = text

def claimedEvent : EventRecord := EventStore.freshRecord "Ev1".toList "2026-07-31T06:00:00Z".toList

def completedEvent : EventRecord :=
  { claimedEvent with state := .completed, updatedAt := "2026-07-31T06:00:09Z".toList }

def claimAndComplete (io : AppendIo) : List StoreCall :=
  [⟨.claim claimedEvent.eventId, claimedEvent.updatedAt, wholeAppend⟩,
    ⟨.update claimedEvent.eventId .complete, completedEvent.updatedAt, io⟩]

theorem whole_of_all {run : JournalRun} {call : StoreCall} (hvalid : call.op.Valid)
    (h : ((call.appends run.store).all fun record => decide (call.io.written = 0 ∨
      Lines.AtStart newline run.store.file ∧ (EventStore.line record).length ≤ call.io.written + 1)) = true) :
    run.Whole call := by
  refine ⟨hvalid, ?_⟩
  intro record happends
  rw [happends] at h
  exact of_decide_eq_true h

theorem reads_of_all {decode : Text → Option EventRecord} {run : JournalRun} {call : StoreCall}
    (h : ((call.appends run.store).all fun record => decide (decode (recordText record) = some record)) = true) :
    run.Reads decode call := by
  intro record happends
  rw [happends] at h
  exact of_decide_eq_true h

/-- The line is written and the sync fails. -/
theorem survives_unsynced : (Run.exec JournalRun.step (.opened emptyStore) (claimAndComplete ⟨65536, false⟩)).Survives
    (readKnown [claimedEvent, completedEvent]) :=
  survives_of_whole _ (rfl : EventStore.openStore _ [] = .ok emptyStore)
    ⟨reads_of_all (by decide +kernel), reads_of_all (by decide +kernel), trivial⟩
    ⟨whole_of_all trivial (by decide +kernel), whole_of_all trivial (by decide +kernel), trivial⟩

/-- Seven bytes of the line are written: the file opens no more, and the claim is lost with it. -/
theorem not_survives : ¬ (Run.exec JournalRun.step (.opened emptyStore) (claimAndComplete ⟨7, false⟩)).Survives
    (readKnown [claimedEvent, completedEvent]) := by
  rintro ⟨reopened, hopen, -⟩
  have hfails : (EventStore.openStore (readKnown [claimedEvent, completedEvent])
      (Run.exec JournalRun.step (.opened emptyStore) (claimAndComplete ⟨7, false⟩)).store.file).isOk = false := by
    decide +kernel
  rw [hopen] at hfails
  cases hfails

end AgentBridge.Slack
