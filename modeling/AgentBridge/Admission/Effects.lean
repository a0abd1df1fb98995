import AgentBridge.Admission.Storage
import AgentBridge.Workflow.Protocol

/-! What each admission operation can do to the stored record, said once. -/

namespace AgentBridge.PolicyAdmission
open State Orchestration

def stored (s : AppState) (workflowId : Text) : Option AdmissionRecord :=
  (s.entry (channelOf workflowId) admissionContextKey).bind fun e =>
    match e.value with
    | .admission record => some record
    | _ => none

section Load
variable {s : AppState} {workflowId : Text} {record : AdmissionRecord}

theorem loadAdmission_eq_some :
    loadAdmission s workflowId = .ok (some record) ↔ stored s workflowId = some record := by
  unfold loadAdmission stored AppState.getContextKeyInternal AppState.entry
  cases hch : s.channels.get (channelOf workflowId) with
  | none => simp [bind, Except.bind]
  | some ch =>
    cases hget : ch.context.get admissionContextKey with
    | none => simp [bind, Except.bind, hget]
    | some e => cases hv : e.value <;> simp [bind, Except.bind, hget, hv]

theorem stored_of_load_none (h : loadAdmission s workflowId = .ok none) : stored s workflowId = none := by
  cases hs : stored s workflowId with
  | none => rfl
  | some record =>
    rw [loadAdmission_eq_some.mpr hs] at h
    cases h

theorem requireAdmission_eq_ok {message : String} (h : requireAdmission s workflowId message = .ok record) :
    stored s workflowId = some record := by
  unfold requireAdmission at h
  split at h
  · cases h
  · cases h
  next found hload =>
    cases h
    exact loadAdmission_eq_some.mp hload

theorem requireActive_eq_ok {u : Unit} (h : requireActive record = .ok u) : record.status = .active := by
  unfold requireActive at h
  split_ifs at h with hactive
  exact hactive

theorem channelOf_injective : Function.Injective channelOf := fun _ _ h => List.append_cancel_left h

theorem trim_admissionContextKey : Text.trim admissionContextKey = admissionContextKey := by decide

end Load

/-- `s'` is `s` with the record stored for its workflow. -/
def Writes (s s' : AppState) (record : AdmissionRecord) : Prop :=
  ∃ e, e.key = admissionContextKey ∧ e.value = .admission record ∧
    Puts s s' (channelOf record.workflowId) e

section Write
variable {s s' : AppState} {record : AdmissionRecord}

theorem Writes.stored (h : Writes s s' record) (workflowId : Text) :
    stored s' workflowId =
      if workflowId = record.workflowId then some record else stored s workflowId := by
  obtain ⟨e, hkey, hvalue, hput⟩ := h
  unfold PolicyAdmission.stored
  split_ifs with hw
  · rw [hw, ← hkey, hput.self, Option.bind_some, hvalue]
  · rw [hput.ne fun hc => hw (channelOf_injective hc.1)]

theorem persistAdmission_cases (s : AppState) (now : Now) (record : AdmissionRecord) :
    (∃ e, persistAdmission s now record = (.error e, s)) ∨
    ∃ e s', persistAdmission s now record = (.ok e, s') ∧ Writes s s' record := by
  unfold persistAdmission
  rcases hset : s.setContextInternal now (channelOf record.workflowId) admissionContextKey
    (.admission record) record.requestedBy with ⟨r, s'⟩
  cases r with
  | error e =>
    rw [setContextInternal_error hset]
    exact .inl ⟨e, rfl⟩
  | ok e =>
    obtain ⟨hvalue, hkey, -, hentry⟩ := entry_setContextInternal hset
    rw [trim_admissionContextKey] at hkey hentry
    exact .inr ⟨e, s', rfl, e, hkey, hvalue, hkey ▸ trim_admissionContextKey, hkey.symm ▸ hentry⟩

theorem persisted_cases (s : AppState) (now : Now) (record : AdmissionRecord) :
    (∃ e, persisted s now record = (.error e, s)) ∨
    ∃ s', persisted s now record = (.ok record, s') ∧ Writes s s' record := by
  unfold persisted
  rcases persistAdmission_cases s now record with ⟨e, h⟩ | ⟨e, s', h, hw⟩
  · exact .inl ⟨_, by rw [h]⟩
  · exact .inr ⟨s', by rw [h], hw⟩

theorem not_isRecordKey_admissionContextKey : ¬ IsRecordKey admissionContextKey := by
  unfold IsRecordKey
  decide

theorem Writes.sound {w : SubmitWorld} (h : Writes w.state s' record) (hw : w.Sound) :
    SubmitWorld.Sound { w with state := s' } := by
  obtain ⟨e, hkey, -, hput⟩ := h
  have hsame (c k : Text) (hk : IsRecordKey k) : s'.entry c k = w.state.entry c k := by
    refine hput.ne fun hc => not_isRecordKey_admissionContextKey ?_
    rw [← hkey, ← hc.2]
    exact hk
  refine ⟨hw.records.of_quiet (hput.keyed hw.records.keyed) (fun c => hsame c _ (.inl rfl))
    fun c k hp => hsame c k (.inr hp), fun call hc => (hw.calls call hc).mono fun c k e' hk he => ?_⟩
  rw [hsame c k hk, he]

theorem stored_of_recordStep (h : RecordStep s s') (workflowId : Text) :
    stored s' workflowId = stored s workflowId := by
  have hentry : s'.entry (channelOf workflowId) admissionContextKey =
      s.entry (channelOf workflowId) admissionContextKey := by
    cases h with
    | same h => exact h _ _
    | plan plan e hfree hkey hvalue hn hput =>
      refine hput.ne fun hc => ?_
      exact absurd (hc.2.trans hkey) (by decide)
    | submission plan a submission e hplan hans hready hfree hkey hvalue hput =>
      refine hput.ne fun hc => not_isRecordKey_admissionContextKey (.inr ?_)
      rw [hc.2, hkey]
      exact submissionContextPrefix_isPrefix _
    | generic slug e hkey hput =>
      refine hput.ne fun hc => ?_
      rw [← hc.2] at hkey
      exact absurd hkey (by decide)
  unfold stored
  rw [hentry]

end Write

def identity (record : AdmissionRecord) :
    Nat × Text × Text × Option Text × Option Text × AdmissionPolicySnapshot × Timestamp :=
  (record.version, record.workflowId, record.requestedBy, record.approvedBy, record.overrideReason,
    record.policy, record.createdAt)

/-- The record a charge or a closure writes in place of `record`. -/
structure Closes (record record' : AdmissionRecord) : Prop where
  active : record.status = .active
  identity : identity record' = identity record
  usage : record'.usage = record.usage

structure Charges (record record' : AdmissionRecord) (delta : UsageDelta) : Prop where
  active : record.status = .active
  identity : identity record' = identity record
  usage : attemptedTotals record.usage delta = some record'.usage
  budget : budgetViolation record'.policy.budget record'.usage = none

theorem closes_of_active {record : AdmissionRecord} (hactive : record.status = .active)
    (status : AdmissionStatus) (updatedAt : Timestamp) (reason : Option Text) (delta : Option UsageDelta) :
    Closes record { record with
      status := status, updatedAt := updatedAt, terminalReason := reason, lastRejectedDelta := delta } :=
  ⟨hactive, rfl, rfl⟩

theorem charges_of_active {record : AdmissionRecord} {delta : UsageDelta} {attempted : UsageTotals}
    (hactive : record.status = .active) (htotals : attemptedTotals record.usage delta = some attempted)
    (hbudget : budgetViolation record.policy.budget attempted = none) (updatedAt : Timestamp) :
    Charges record { record with
      usage := attempted, updatedAt := updatedAt, lastRejectedDelta := none } delta :=
  ⟨hactive, rfl, htotals, hbudget⟩

section Operations
variable (s : AppState) (now : Now) (workflowId updatedBy : Text)

/-- `create_admission` changes nothing and answers with what it found, or it stores the new record. -/
theorem createAdmission_cases (request : AdmitReq) :
    (∃ r, createAdmission s now workflowId request = (r, s) ∧ ∀ record, r ≠ .ok (record, true)) ∨
    ∃ record s', createAdmission s now workflowId request = (.ok (record, true), s') ∧
      stored s workflowId = none ∧ newAdmission s now workflowId request = .ok record ∧
      Writes s s' record := by
  have hfailed (e : AdmissionFailure) (record : AdmissionRecord) :
      (.error e : AdmissionResult (AdmissionRecord × Bool)) ≠ .ok (record, true) := by simp
  unfold createAdmission
  rcases hload : loadAdmission s workflowId with e | found
  · exact .inl ⟨_, rfl, hfailed _⟩
  · cases found with
    | some existing => exact .inl ⟨_, rfl, by simp⟩
    | none =>
      dsimp only
      cases hnew : newAdmission s now workflowId request with
      | error e => exact .inl ⟨_, rfl, hfailed _⟩
      | ok record =>
        dsimp only
        rcases persisted_cases s now record with ⟨e, h⟩ | ⟨s', h, hw⟩
        · rw [h]
          exact .inl ⟨_, rfl, hfailed _⟩
        · rw [h]
          exact .inr ⟨record, s', rfl, stored_of_load_none hload, rfl, hw⟩

theorem rejected_cases (record : AdmissionRecord) (delta : UsageDelta) (reason : Text)
    (hactive : record.status = .active) :
    (∃ e, rejected s now record delta reason = (.error e, s)) ∨
    ∃ e s' record', rejected s now record delta reason = (.error e, s') ∧ Closes record record' ∧
      Writes s s' record' := by
  unfold rejected exhaust
  dsimp only
  rcases persistAdmission_cases s now { record with
    status := .exhausted
    updatedAt := now.ts
    terminalReason := some reason
    lastRejectedDelta := some delta } with ⟨e, h⟩ | ⟨e, s', h, hw⟩
  · rw [h]
    exact .inl ⟨_, rfl⟩
  · rw [h]
    exact .inr ⟨_, s', _, rfl, closes_of_active hactive _ _ _ _, hw⟩

/-- `record_usage` fails and changes nothing, fails and closes the admission, or charges it. -/
theorem recordUsage_cases (delta : UsageDelta) :
    (∃ e, recordUsage s now workflowId updatedBy delta = (.error e, s)) ∨
    (∃ e s' record record', recordUsage s now workflowId updatedBy delta = (.error e, s') ∧
      stored s workflowId = some record ∧ Closes record record' ∧ Writes s s' record') ∨
    ∃ s' record record', recordUsage s now workflowId updatedBy delta = (.ok record', s') ∧
      stored s workflowId = some record ∧ Charges record record' delta ∧ Writes s s' record' := by
  unfold recordUsage
  split
  · exact .inl ⟨_, rfl⟩
  next record h =>
    obtain ⟨found, hfound, h⟩ := Except.bind_eq_ok.mp h
    obtain ⟨_, hrequire, h⟩ := Except.bind_eq_ok.mp h
    obtain ⟨_, -, h⟩ := Except.bind_eq_ok.mp h
    obtain ⟨_, -, h⟩ := Except.bind_eq_ok.mp h
    cases h
    have hstored := requireAdmission_eq_ok hfound
    have hactive := requireActive_eq_ok hrequire
    have hrejected (reason : Text) : (∃ e, rejected s now record delta reason = (.error e, s)) ∨
        (∃ e s' record₀ record', rejected s now record delta reason = (.error e, s') ∧
          stored s workflowId = some record₀ ∧ Closes record₀ record' ∧ Writes s s' record') := by
      refine (rejected_cases s now record delta reason hactive).imp_right ?_
      rintro ⟨e, s', record', h, hc, hw⟩
      exact ⟨e, s', record, record', h, hstored, hc, hw⟩
    cases htotals : attemptedTotals record.usage delta with
    | none => exact (hrejected _).imp_right .inl
    | some attempted =>
      dsimp only
      cases hbudget : budgetViolation record.policy.budget attempted with
      | some reason => exact (hrejected _).imp_right .inl
      | none =>
        dsimp only
        rcases persisted_cases s now { record with
          usage := attempted
          updatedAt := now.ts
          lastRejectedDelta := none } with ⟨e, h⟩ | ⟨s', h, hw⟩
        · exact .inl ⟨e, h⟩
        · exact .inr (.inr ⟨s', record, _, h, hstored, charges_of_active hactive htotals hbudget _, hw⟩)

/-- `transition` fails and changes nothing, or closes the admission. -/
theorem transition_cases (status : AdmissionStatus) (reason : Option Text) :
    (∃ e, transition s now workflowId updatedBy status reason = (.error e, s)) ∨
    ∃ s' record record', transition s now workflowId updatedBy status reason = (.ok record', s') ∧
      stored s workflowId = some record ∧ Closes record record' ∧ Writes s s' record' := by
  unfold transition
  split
  · exact .inl ⟨_, rfl⟩
  next record terminalReason h =>
    obtain ⟨found, hfound, h⟩ := Except.bind_eq_ok.mp h
    obtain ⟨_, hrequire, h⟩ := Except.bind_eq_ok.mp h
    obtain ⟨_, -, h⟩ := Except.bind_eq_ok.mp h
    obtain ⟨_, -, h⟩ := Except.bind_eq_ok.mp h
    obtain ⟨_, -, h⟩ := Except.bind_eq_ok.mp h
    cases h
    rcases persisted_cases s now { record with
      status := status
      updatedAt := now.ts
      terminalReason := terminalReason } with ⟨e, h⟩ | ⟨s', h, hw⟩
    · exact .inl ⟨e, h⟩
    · exact .inr ⟨s', record, _, h, requireAdmission_eq_ok hfound,
        closes_of_active (requireActive_eq_ok hrequire) _ _ _ _, hw⟩

theorem newAdmission_record {s : AppState} {now : Now} {workflowId : Text} {request : AdmitReq}
    {record : AdmissionRecord} (h : newAdmission s now workflowId request = .ok record) :
    record.workflowId = workflowId ∧ record.usage = {} := by
  obtain ⟨plan, -, h⟩ := Except.bind_eq_ok.mp h
  obtain ⟨_, -, h⟩ := Except.bind_eq_ok.mp h
  obtain ⟨decision, -, h⟩ := Except.bind_eq_ok.mp h
  obtain ⟨_, -, h⟩ := Except.bind_eq_ok.mp h
  obtain ⟨requestedBy, -, h⟩ := Except.bind_eq_ok.mp h
  obtain ⟨approvedBy, -, h⟩ := Except.bind_eq_ok.mp h
  obtain ⟨_, -, h⟩ := Except.bind_eq_ok.mp h
  obtain ⟨overrideReason, -, h⟩ := Except.bind_eq_ok.mp h
  cases h
  exact ⟨rfl, rfl⟩

end Operations
end AgentBridge.PolicyAdmission
