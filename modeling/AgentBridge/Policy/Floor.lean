import AgentBridge.Policy.Soundness

/-! Degradation never undercuts the risk floor. A course is degraded only for low
or medium risk without repository writes and without any provider or specialised
executor being required, and degradation always leaves a feasible provider set. -/

namespace AgentBridge.Policy

theorem modeRank_saferMode (a b : WorkflowMode) :
    modeRank (saferMode a b) = max (modeRank a) (modeRank b) := by
  unfold saferMode
  split_ifs with h
  · exact (max_eq_left h).symm
  · exact (max_eq_right (Nat.le_of_not_le h)).symm

theorem minimumMode_le_raisedMode (request : PolicyRequest) (risk : TaskRisk) (reviewer : Option Text) :
    modeRank (minimumMode risk request.dataSensitivity request.requiresRepositoryWrite) ≤
      modeRank (raisedMode request risk reviewer) := by
  simp only [raisedMode, requiredMode, modeRank_saferMode, baseRequiredMode]
  omega

theorem minimumMode_strict {risk : TaskRisk} {sensitivity : DataSensitivity} {write : Bool}
    (h : sensitivity = .restricted ∨ risk = .high ∨ risk = .critical) :
    minimumMode risk sensitivity write = .consensus := by
  refine if_pos ?_
  rcases h with h | rfl | rfl
  · exact .inl h
  · exact .inr (by decide)
  · exact .inr (by decide)

theorem eq_consensus_of_modeRank {mode : WorkflowMode} (h : modeRank .consensus ≤ modeRank mode) :
    mode = .consensus := by
  cases mode <;> first | rfl | exact absurd h (by decide)

theorem degradationRank_default_le {default : DegradationBehavior}
    {requested : Option DegradationBehavior} {hasRequired specialized : Bool} :
    degradationRank default ≤
      degradationRank (effectiveDegradationBehavior default requested hasRequired specialized) := by
  have hsel : degradationRank default ≤ degradationRank
      ((requested.filter fun r => degradationRank default < degradationRank r).getD default) := by
    cases hf : requested.filter fun r => decide (degradationRank default < degradationRank r) with
    | none => exact le_rfl
    | some r => exact (of_decide_eq_true (Option.filter_eq_some_iff.mp hf).2).le
  unfold effectiveDegradationBehavior
  dsimp only
  split_ifs with hlow
  · rw [Bool.and_eq_true, decide_eq_true_eq] at hlow
    exact hsel.trans hlow.2.le
  · exact hsel

theorem lenient_default {risk : TaskRisk} {sensitivity : DataSensitivity} {write : Bool}
    (h : degradationRank (defaultDegradationBehavior risk sensitivity write) < 2) :
    sensitivity ≠ .restricted ∧ (risk = .low ∨ risk = .medium) ∧ write = false := by
  cases sensitivity <;> cases risk <;> cases write <;>
    first | exact absurd h (by decide) | exact ⟨by decide, by decide, rfl⟩

theorem rank_max (a b : TaskRisk) : (a.max b).rank = max a.rank b.rank := by
  cases a <;> cases b <;> rfl

theorem medium_le_effectiveRisk {request : PolicyRequest} {caps : KeySet Text}
    (h : request.requiresRepositoryWrite = true) :
    TaskRisk.rank .medium ≤ (effectiveRisk request caps).rank := by
  unfold effectiveRisk
  simp only [h, if_true]
  split_ifs <;> simp only [rank_max] <;> omega

/-- What a degraded course says about its request. -/
structure Lenient (request : PolicyRequest) (risk : TaskRisk) (i : Intake) : Prop where
  sensitivity : request.dataSensitivity ≠ .restricted
  risk : risk = .low ∨ risk = .medium
  write : request.requiresRepositoryWrite = false
  unrequired : i.requiredSelection.keys = []
  standard : executionTarget i.protocol = .standardWorkflow

section Degraded
variable {request : PolicyRequest} {caps : KeySet Text} {i : Intake} {c : Course}

theorem lenient_of_degraded (hd : i.Degraded c) (h : i.Reads request caps) :
    Lenient request (effectiveRisk request caps) i := by
  have hrank : degradationRank i.degradationBehavior < 2 := by
    rcases hd.behavior with ⟨hb, -⟩ | ⟨hb, -⟩ <;> rw [hb] <;> decide
  obtain ⟨eligible, excluded, he⟩ := h.fields
  have hb : i.degradationBehavior = degradationBehavior request (effectiveRisk request caps)
      i.requiredReviewerAgentKey i.requiredSelection := by
    rw [he]
    rfl
  have hp : i.protocol = raisedProtocol request (effectiveRisk request caps)
      i.requiredReviewerAgentKey := by
    rw [he]
    rfl
  rw [hb] at hrank
  obtain ⟨hs, hr, hw⟩ := lenient_default (degradationRank_default_le.trans_lt hrank)
  refine ⟨hs, hr, hw, ?_, ?_⟩
  · by_contra hne
    have hreq : (!i.requiredSelection.keys.isEmpty) = true := by simpa using hne
    exact absurd (degradationRank_effective (.inl hreq)) (Nat.not_le.mpr hrank)
  · by_contra hne
    rw [hp] at hne
    exact absurd (degradationRank_effective (.inr (decide_eq_true hne))) (Nat.not_le.mpr hrank)

theorem minimum_le_desired {mode : WorkflowMode} (hreq : i.requiredSelection.keys = [])
    (h : minimumProviderCount mode ≤ i.maxSelectable) : i.minimum mode ≤ i.desired mode := by
  have hsize : i.requiredSelection.size = 0 := by
    rw [KeySet.size, hreq]
    rfl
  unfold Intake.minimum Intake.desired
  rw [hsize]
  cases mode <;> simp only [minimumProviderCount, desiredProviderCount] at h ⊢ <;> omega

theorem afterShortage_feasible (h : i.Reads request caps)
    (hc : i.afterShortage request i.course = .ok c) : i.minimum c.mode ≤ i.desired c.mode := by
  unfold Intake.afterShortage at hc
  split_ifs at hc with hshort
  · have hd := resolveShortage_eq_ok hc
    exact minimum_le_desired (lenient_of_degraded hd h).unrequired hd.feasible
  · cases hc
    exact Nat.le_of_not_lt hshort

end Degraded
/-- The floor that risk, sensitivity and repository writes put under an allowed decision. -/
structure RiskFloor (request : PolicyRequest) (risk : TaskRisk) (d : PolicyDecision) : Prop where
  mode : modeRank (minimumMode risk request.dataSensitivity request.requiresRepositoryWrite) ≤
    modeRank d.mode
  strict : request.dataSensitivity = .restricted ∨ risk = .high ∨ risk = .critical →
    d.mode = .consensus ∧ 3 ≤ d.selectedProviders.length ∧ d.disposition = .requireHumanApproval
  write : request.requiresRepositoryWrite = true → d.requireFiduciaLease = true ∧
    TaskRisk.rank .medium ≤ risk.rank ∧ d.requireHumanApproval = true
  degraded : ∀ g, d.degradation = some g →
    (risk = .low ∨ risk = .medium) ∧ request.requiresRepositoryWrite = false ∧
    request.requiredAgentKeys = [] ∧ request.requiredReviewerAgentKey = none ∧
    executionTarget g.fromProtocol = .standardWorkflow ∧
    (∀ p, request.requestedProtocol = some p → executionTarget p = .standardWorkflow) ∧
    (g.behavior = .fallbackToSingleWithHumanApproval → d.requireHumanApproval = true)

section Floor
variable {request : PolicyRequest} {caps : KeySet Text} {i : Intake} {c : Course} {d : PolicyDecision}

theorem executionTarget_requested {risk : TaskRisk} {reviewer : Option Text} {p : CoordinationProtocol}
    (hp : request.requestedProtocol = some p)
    (h : executionTarget (raisedProtocol request risk reviewer) = .standardWorkflow) :
    executionTarget p = .standardWorkflow := by
  have hreq : requestedProtocol request risk = p := by
    rw [requestedProtocol, hp]
    rfl
  rw [raisedProtocol, selectedProtocol, hreq] at h
  have hle : modeRank (raisedMode request risk reviewer) ≤ modeRank .consensus := by
    cases raisedMode request risk reviewer <;> decide
  by_contra hne
  have hspecial : protocolRequiredMode p = .consensus := by
    cases p <;> first | rfl | exact absurd rfl hne
  rw [hspecial, if_neg (Nat.not_lt.mpr hle)] at h
  exact hne h

theorem minimumMode_le (h : i.Reads request caps) (hc : c = i.course ∨ i.Degraded c) :
    modeRank (minimumMode (effectiveRisk request caps) request.dataSensitivity
      request.requiresRepositoryWrite) ≤ modeRank c.mode := by
  rcases hc with rfl | hd
  · obtain ⟨eligible, excluded, he⟩ := h.fields
    rw [he]
    exact minimumMode_le_raisedMode _ _ _
  · have hl := lenient_of_degraded hd h
    have hsingle : minimumMode (effectiveRisk request caps) request.dataSensitivity
        request.requiresRepositoryWrite = .single := by
      rcases hl.risk with hr | hr <;> simp [minimumMode, hr, hl.sensitivity, hl.write, TaskRisk.rank]
    rw [hsingle]
    exact Nat.zero_le _

theorem human_approval (h : i.Reads request caps) (hc : c = i.course ∨ i.Degraded c)
    (hn : requiresHumanApproval request (effectiveRisk request caps) = true) :
    c.requireHumanApproval = true := by
  have hi : i.requireHumanApproval = true := by
    obtain ⟨eligible, excluded, he⟩ := h.fields
    rw [he]
    exact hn
  rcases hc with rfl | hd
  · exact hi
  · rcases hd.behavior with ⟨-, hh⟩ | ⟨-, hh⟩
    · exact hh
    · exact hh.trans hi

theorem riskFloor_of_allows (h : i.Reads request caps) (hal : i.Allows request c d) :
    RiskFloor request (effectiveRisk request caps) d := by
  obtain ⟨-, hc⟩ := settle_eq_ok hal.settled
  have hmode := minimumMode_le h hc
  have hlen : minimumProviderCount c.mode ≤ (Intake.selectedProviders c.mode (i.reduced c)).length :=
    ((le_max_left _ _).trans hal.enough).trans_eq (length_selectedProviders _ _).symm
  rw [hal.decision]
  -- the mode, strict risk, repository writes, and what a degradation requires
  refine ⟨hmode, fun hs => ?_, fun hw => ?_, fun g hg => ?_⟩
  · rw [minimumMode_strict hs] at hmode
    have hcons := eq_consensus_of_modeRank hmode
    have hhuman : c.requireHumanApproval = true := by
      refine human_approval h hc ?_
      rcases hs with hs | hs | hs <;> simp [requiresHumanApproval, hs, TaskRisk.rank]
    have hthree : 3 ≤ minimumProviderCount c.mode := by
      rw [hcons]
      exact le_rfl
    exact ⟨hcons, hthree.trans hlen, if_pos hhuman⟩
  · have hmed : TaskRisk.rank .medium ≤ (effectiveRisk request caps).rank := medium_le_effectiveRisk hw
    have hhuman : c.requireHumanApproval = true :=
      human_approval h hc (by simp [requiresHumanApproval, hw, hmed])
    exact ⟨hw, hmed, hhuman⟩
  · rcases hc with rfl | hd
    · cases hg
    · have hl := lenient_of_degraded hd h
      obtain ⟨g', hg', hbeh, hfrom, -⟩ := hd.record
      obtain rfl : g' = g := Option.some.inj (hg'.symm.trans hg)
      have hnone (key : Text) : key ∉ i.requiredSelection := by
        intro hk
        have := List.ne_nil_of_mem hk
        exact this hl.unrequired
      refine ⟨hl.risk, hl.write, ?_, ?_, hfrom ▸ hl.standard, fun p hp => ?_, fun hf => ?_⟩
      · by_contra hne
        obtain ⟨value, hvalue⟩ := List.exists_mem_of_ne_nil _ hne
        exact hnone _ ((h.required _).mpr (.inl ⟨value, hvalue, rfl⟩))
      · cases hr : request.requiredReviewerAgentKey with
        | none => rfl
        | some key =>
          refine absurd ((h.required (Text.trim key)).mpr (.inr ?_)) (hnone _)
          rw [h.reviewer, hr]
          rfl
      · obtain ⟨eligible, excluded, he⟩ := h.fields
        have hstd := hl.standard
        rw [he] at hstd
        exact executionTarget_requested hp hstd
      · rw [hbeh] at hf
        rcases hd.behavior with ⟨-, hh⟩ | ⟨hb, -⟩
        · exact hh
        · exact absurd (hf.symm.trans hb) (by decide)

end Floor

/-- Every decision keeps the risk floor when it allows, and none is refused
because degradation left a shortage. -/
theorem evaluate_respects_floor (request : PolicyRequest) (d : PolicyDecision)
    (h : evaluate request = .ok d) :
    d.denialReason ≠ some Intake.infeasible ∧
    (d.allowed = true → ∃ caps, normalizeCapabilities request.requiredCapabilities = .ok caps ∧
      RiskFloor request (effectiveRisk request caps) d) := by
  obtain ⟨i, hi, he⟩ := Except.bind_eq_ok.mp h
  cases he
  obtain ⟨caps, hreads⟩ := intake_reads hi
  constructor
  · rcases decision_cases i request with hr | ⟨c, hc, hlt, -⟩ | ⟨c, hal⟩
    · exact hr.2
    · exact absurd (afterShortage_feasible hreads hc) (Nat.not_le.mpr hlt)
    · rw [hal.decision]
      exact nofun
  · intro hallowed
    obtain ⟨c, hal⟩ := decision_allows hallowed
    exact ⟨caps, hreads.capabilities, riskFloor_of_allows hreads hal⟩

/-- Medium-risk work that asks for consensus while one provider is there. -/
def shortRequest : PolicyRequest := { reviewedRequest with
  taskRisk := .medium
  requestedMode := some .consensus
  requiredReviewerAgentKey := none
  providers := [plainProvider "a".toList] }

theorem evaluate_respects_floor_fallback : ∃ d, evaluate shortRequest = .ok d ∧ d.mode = .single ∧
    d.degradation.isSome = true ∧ d.requireHumanApproval = true ∧
    ∃ caps, normalizeCapabilities shortRequest.requiredCapabilities = .ok caps ∧
      RiskFloor shortRequest (effectiveRisk shortRequest caps) d := by
  have h : (evaluate shortRequest).toOption.map (fun d =>
      (d.allowed, d.mode, d.degradation.isSome, d.requireHumanApproval)) =
      some (true, .single, true, true) := by decide
  cases he : evaluate shortRequest with
  | error e => rw [he] at h; cases h
  | ok d =>
    rw [he] at h
    obtain ⟨ha, hm, hd, hh⟩ : d.allowed = true ∧ d.mode = .single ∧ d.degradation.isSome = true ∧
        d.requireHumanApproval = true := by simpa [Except.toOption] using h
    exact ⟨d, rfl, hm, hd, hh, (evaluate_respects_floor _ d he).2 ha⟩

end AgentBridge.Policy
