import AgentBridge.Blind.Calls
import AgentBridge.Workflow.Protocol
import Mathlib.Data.List.Perm.Subperm

/-! The records a blind competition keeps in its channel: their keys, the insert-only
write, what a load reads back, and what holds of them in every state. -/

namespace AgentBridge.BlindCompetition
open State
open Orchestration (Puts Keyed)

section Keys

theorem submissionKey_injective : Function.Injective submissionKey := by
  intro m n h
  exact Text.decimal_injective (List.append_cancel_left h)

theorem trim_submissionKey (n : Nat) : Text.trim (submissionKey n) = submissionKey n := by
  have hpre : ∀ c ∈ blindSubmissionContextPrefix, Text.isWhitespace c = false := Text.spaceless_of_all (by decide)
  exact Text.trim_eq_self (Text.spaceless_append_decimal hpre n)

theorem trim_blindPlanContextKey : Text.trim blindPlanContextKey = blindPlanContextKey := by decide

theorem trim_blindRevealContextKey : Text.trim blindRevealContextKey = blindRevealContextKey := by decide

theorem submissionPrefix_isPrefix (n : Nat) : blindSubmissionContextPrefix <+: submissionKey n :=
  List.prefix_append _ _

theorem submissionKey_ne {key : Text} (h : ¬ blindSubmissionContextPrefix <+: key) (n : Nat) :
    submissionKey n ≠ key := by
  rintro rfl
  exact h (submissionPrefix_isPrefix n)

theorem not_prefix_plan : ¬ blindSubmissionContextPrefix <+: blindPlanContextKey := by decide

theorem not_prefix_reveal : ¬ blindSubmissionContextPrefix <+: blindRevealContextKey := by decide

theorem reveal_ne_plan : blindRevealContextKey ≠ blindPlanContextKey := by decide

def IsBlindKey (key : Text) : Prop :=
  key = blindPlanContextKey ∨ key = blindRevealContextKey ∨ blindSubmissionContextPrefix <+: key

theorem isReserved_of_blind {key : Text} (h : IsBlindKey key) : isReservedContextKey key = true := by
  apply Orchestration.isReservedContextKey_of_prefix
  rcases h with rfl | rfl | h
  · decide
  · decide
  · exact List.IsPrefix.trans (by decide) h

end Keys

section Context
variable {s s' : AppState} {now : Now} {slug key updatedBy channel : Text} {value : ContextValue}
  {e : ContextEntry} {plan : BlindCompetitionPlan}

theorem insertBlindContext_cases (s : AppState) (now : Now) (slug key : Text) (value : ContextValue)
    (updatedBy : Text) (htrim : Text.trim key = key) :
    (∃ e, insertBlindContext s now slug key value updatedBy = (.error e, s)) ∨
    ∃ e s', insertBlindContext s now slug key value updatedBy = (.ok e, s') ∧
      s.entry slug key = none ∧ e.key = key ∧ e.value = value ∧ e.version = 1 ∧ Puts s s' slug e := by
  unfold insertBlindContext AppState.getContextKeyInternal
  cases hch : s.channels.get slug with
  | none => exact .inl ⟨_, rfl⟩
  | some ch =>
    dsimp only
    cases hget : ch.context.get key with
    | some old => exact .inl ⟨_, rfl⟩
    | none =>
      dsimp only
      rcases setContextInternal_cases s now slug key value updatedBy with ⟨e, he⟩ | ⟨ch', hch', he⟩
      · rw [he]
        exact .inl ⟨e, rfl⟩
      · obtain rfl : ch = ch' := Option.some.inj (hch.symm.trans hch')
        obtain ⟨hvalue, hkey, -, hentry⟩ := entry_setContextInternal he
        rw [htrim] at he hkey hentry
        refine .inr ⟨_, _, he, (entry_of_channel hch key).trans hget, hkey, rfl, ?_, ?_⟩
        · simp [AppState.contextEntry, hget]
        · exact ⟨hkey.symm ▸ htrim, hkey.symm ▸ hentry⟩

theorem loadPlan_eq_ok {workflowId : Text} : loadPlan s workflowId = .ok plan ↔
    ∃ channel e, blindChannel workflowId = .ok channel ∧
      s.entry channel blindPlanContextKey = some e ∧ e.value = .blindPlan plan := by
  unfold loadPlan
  cases hchannel : blindChannel workflowId with
  | error e => simp [bind, Except.bind]
  | ok channel =>
    unfold AppState.getContextKeyInternal AppState.entry
    cases hch : s.channels.get channel with
    | none => simp [bind, Except.bind, hch]
    | some ch =>
      cases hget : ch.context.get blindPlanContextKey with
      | none => simp [bind, Except.bind, hch, hget]
      | some e => cases hv : e.value <;> simp [bind, Except.bind, hch, hget, hv]

theorem parseSubmission_eq_some {submission : BlindSubmission} :
    parseSubmission e = some submission ↔
      blindSubmissionContextPrefix <+: e.key ∧ e.value = .blindSubmission submission := by
  unfold parseSubmission
  rw [← List.isPrefixOf_iff_prefix]
  split_ifs with hp
  · cases hv : e.value <;> simp [hp]
  · simp [hp]

theorem mem_loadSubmissions {submissions : List BlindSubmission} {submission : BlindSubmission}
    (hs : Keyed s) (h : loadSubmissions s channel = .ok submissions) :
    submission ∈ submissions ↔ ∃ k e, s.entry channel k = some e ∧ blindSubmissionContextPrefix <+: k ∧
      e.value = .blindSubmission submission := by
  obtain ⟨entries, hentries, rfl⟩ := Except.map_eq_ok.mp h
  simp only [List.mem_insertionSort, List.mem_filterMap, parseSubmission_eq_some, mem_getContextInternal hentries]
  constructor
  · rintro ⟨e, ⟨k, he⟩, hp, hv⟩
    exact ⟨k, e, he, hs _ _ _ he ▸ hp, hv⟩
  · rintro ⟨k, e, he, hp, hv⟩
    exact ⟨e, ⟨k, he⟩, (hs _ _ _ he).symm ▸ hp, hv⟩

/-- Submissions under different keys have different ordinals, so no ordinal is read twice. -/
theorem nodup_loadSubmissions {submissions : List BlindSubmission}
    (h : loadSubmissions s channel = .ok submissions)
    (hkeys : ∀ k e sub, s.entry channel k = some e → parseSubmission e = some sub →
      k = submissionKey sub.assignmentOrdinal) :
    (submissions.map BlindSubmission.assignmentOrdinal).Nodup := by
  obtain ⟨entries, hentries, rfl⟩ := Except.map_eq_ok.mp h
  have hread := nodup_filterMap_context hentries hkeys
  exact ((List.perm_insertionSort _ _).map BlindSubmission.assignmentOrdinal).nodup_iff.mpr hread

end Context
end AgentBridge.BlindCompetition
