import AgentBridge.Policy.Selection

/-! Soundness of allowed decisions: who is selected, at what cost, under which
budget and in which role. -/

namespace AgentBridge.Policy

theorem mapM_normalizeAgentKey {key reviewer : Option Text}
    (h : key.mapM normalizeAgentKey = .ok reviewer) : reviewer = key.map Text.trim := by
  cases key with
  | none =>
    cases h
    rfl
  | some key =>
    rw [Option.mapM_some] at h
    cases hk : normalizeAgentKey key with
    | error e => rw [hk] at h; cases h
    | ok k =>
      rw [hk] at h
      cases h
      rw [normalizeAgentKey_eq_ok hk]
      rfl

/-- How an intake comes from its request. -/
structure Intake.Reads (request : PolicyRequest) (caps : KeySet Text) (i : Intake) : Prop where
  capabilities : normalizeCapabilities request.requiredCapabilities = .ok caps
  reviewer : i.requiredReviewerAgentKey = request.requiredReviewerAgentKey.map Text.trim
  required : ∀ key, key ∈ i.requiredSelection ↔
    (∃ value ∈ request.requiredAgentKeys, Text.trim value = key) ∨
      i.requiredReviewerAgentKey = some key
  fields : ∃ eligible excluded, i = .of request (Policy.effectiveRisk request caps)
    i.requiredReviewerAgentKey i.requiredSelection eligible excluded
  distinct : (i.eligible.map trimmedKey).Nodup
  eligible : ∀ p ∈ i.eligible, p ∈ request.providers ∧ Eligible request p

theorem mem_requiredSelection {keys : KeySet Text} {reviewer : Option Text} {key : Text} :
    key ∈ reviewer.elim keys keys.insert ↔ key ∈ keys ∨ reviewer = some key := by
  cases reviewer with
  | none => simp
  | some r => simp [or_comm, eq_comm]

theorem intake_reads {request : PolicyRequest} {i : Intake} (h : intake request = .ok i) :
    ∃ caps, i.Reads request caps := by
  unfold intake at h
  simp only [Except.bind_eq_ok] at h
  obtain ⟨⟨⟩, hvalid, caps, hcaps, keys, hkeys, reviewer, hreviewer, ⟨eligible, excluded⟩, hpart, h⟩ := h
  cases h
  obtain ⟨hsub, hel⟩ := partitionProviders_eligible hcaps hpart
  have hrank : (rankProviders eligible).Perm eligible := List.perm_insertionSort _ _
  refine ⟨caps, hcaps, mapM_normalizeAgentKey hreviewer, fun key => ?_, ⟨eligible, excluded, rfl⟩, ?_,
    fun p hp => ?_⟩
  · rw [← mem_normalizeAgentKeys hkeys]
    exact mem_requiredSelection
  · exact (hrank.map _).nodup_iff.mpr ((validateRequest_distinct hvalid).sublist (hsub.map _))
  · have hp := hrank.subset hp
    exact ⟨hsub.subset hp, hel p hp⟩

/-- A course that shortage handling changed. -/
structure Intake.Degraded (i : Intake) (c : Course) : Prop where
  behavior : i.degradationBehavior = .fallbackToSingleWithHumanApproval ∧
      c.requireHumanApproval = true ∨
    i.degradationBehavior = .reduceProviderCount ∧ c.requireHumanApproval = i.requireHumanApproval
  record : ∃ g, c.degradation = some g ∧ g.behavior = i.degradationBehavior ∧
    g.fromProtocol = i.protocol ∧ g.humanApprovalRequired = c.requireHumanApproval
  feasible : minimumProviderCount c.mode ≤ i.maxSelectable

theorem highestFeasibleMode_le {available : Nat} {mode : WorkflowMode}
    (h : highestFeasibleMode available = some mode) : minimumProviderCount mode ≤ available := by
  unfold highestFeasibleMode at h
  split_ifs at h with h₁ h₂ h₃ <;> cases h
  · exact h₁
  · exact h₂
  · exact h₃

theorem minimumProviderCount_mono {a b : WorkflowMode} (h : modeRank a ≤ modeRank b) :
    minimumProviderCount a ≤ minimumProviderCount b := by
  cases a <;> cases b <;> first | decide | exact absurd h (by decide)

theorem resolveShortage_eq_ok {i : Intake} {request : PolicyRequest} {c : Course}
    (h : i.resolveShortage request i.course = .ok c) : i.Degraded c := by
  unfold Intake.resolveShortage at h
  dsimp only at h
  split at h
  · cases h
  · cases h
  · rename_i hb
    split_ifs at h with hsome
    cases h
    exact ⟨.inl ⟨hb, rfl⟩, ⟨_, rfl, rfl, rfl, rfl⟩, Nat.one_le_iff_ne_zero.mpr hsome⟩
  · rename_i hb
    cases hf : highestFeasibleMode i.maxSelectable with
    | none => rw [hf] at h; cases h
    | some feasible =>
      rw [hf] at h
      cases h
      refine ⟨.inr ⟨hb, rfl⟩, ⟨_, rfl, rfl, rfl, rfl⟩, ?_⟩
      have hle := highestFeasibleMode_le hf
      dsimp only
      split_ifs with hlow
      · exact (minimumProviderCount_mono hlow.le).trans hle
      · exact hle

theorem afterShortage_eq_ok {i : Intake} {request : PolicyRequest} {c : Course}
    (h : i.afterShortage request i.course = .ok c) : c = i.course ∨ i.Degraded c := by
  unfold Intake.afterShortage at h
  split_ifs at h
  · exact .inr (resolveShortage_eq_ok h)
  · cases h
    exact .inl rfl

theorem settle_eq_ok {i : Intake} {request : PolicyRequest} {c : Course}
    (h : i.settle request i.course = .ok c) :
    i.minimum c.mode ≤ i.desired c.mode ∧ (c = i.course ∨ i.Degraded c) := by
  obtain ⟨c', hc', h⟩ := Except.bind_eq_ok.mp h
  obtain ⟨hmin, h⟩ := Except.check_eq_ok.mp h
  cases h
  exact ⟨Nat.le_of_not_lt hmin, afterShortage_eq_ok hc'⟩

/-- A refusal for another reason than a shortage that degradation left over. -/
def Refusal (d : PolicyDecision) : Prop :=
  d.allowed = false ∧ d.denialReason ≠ some Intake.infeasible

theorem refusal_of_text {i : Intake} {request : PolicyRequest} {c : Course}
    {disposition : PolicyDisposition} {text : Text} {missing : List Text}
    (h : text.head? ≠ some 'd') : Refusal (i.nonExecuteDecision request c disposition text missing) := by
  refine ⟨rfl, fun he => h ?_⟩
  rw [Option.some.inj he]
  rfl

theorem checkRequired_error {i : Intake} {request : PolicyRequest} {c : Course} {d : PolicyDecision}
    (h : i.checkRequired request c = .error d) : Refusal d := by
  unfold Intake.checkRequired at h
  by_cases hmissing : i.missingRequiredAgentKeys = []
  · rw [if_pos hmissing] at h
    cases h
  · rw [if_neg hmissing] at h
    cases h
    exact refusal_of_text (by simp)

theorem checkRequired_ok {i : Intake} {request : PolicyRequest} {c : Course}
    (h : i.checkRequired request c = .ok ()) : i.missingRequiredAgentKeys = [] := by
  unfold Intake.checkRequired at h
  split_ifs at h with hmissing
  exact hmissing

theorem resolveShortage_error {i : Intake} {request : PolicyRequest} {c : Course} {d : PolicyDecision}
    (h : i.resolveShortage request c = .error d) : Refusal d := by
  unfold Intake.resolveShortage at h
  dsimp only at h
  split at h
  · cases h
    exact refusal_of_text (by simp)
  · cases h
    exact refusal_of_text (by simp)
  · split_ifs at h
    cases h
    exact refusal_of_text (by simp)
  · split at h <;> cases h
    exact refusal_of_text (by simp)

theorem settle_error {i : Intake} {request : PolicyRequest} {c : Course} {d : PolicyDecision}
    (h : i.settle request c = .error d) :
    Refusal d ∨ ∃ c', i.afterShortage request c = .ok c' ∧ i.desired c'.mode < i.minimum c'.mode ∧
      d.allowed = false := by
  unfold Intake.settle at h
  cases hc : i.afterShortage request c with
  | error d' =>
    rw [hc] at h
    cases h
    unfold Intake.afterShortage at hc
    split_ifs at hc
    exact .inl (resolveShortage_error hc)
  | ok c' =>
    rw [hc] at h
    change (if i.desired c'.mode < i.minimum c'.mode then _ else _) = _ at h
    split_ifs at h with hlt
    cases h
    exact .inr ⟨c', rfl, hlt, rfl⟩

theorem conclude_cases (i : Intake) (request : PolicyRequest) (c : Course) :
    Refusal (i.conclude request c) ∨
    i.minimum c.mode ≤ (i.reduced c).length ∧
      totalEstimatedCost (i.reduced c) ≤ i.budget.maxCostMicroUsd ∧
      i.conclude request c = i.allow request (i.noteReduction c) (i.reduced c) := by
  unfold Intake.conclude
  dsimp only
  split_ifs with hcost htime
  · exact .inl (refusal_of_text (by simp))
  · exact .inl (refusal_of_text (by simp))
  · simp only [not_or, Nat.not_lt] at hcost
    exact .inr ⟨hcost.1, hcost.2, rfl⟩

structure Intake.Allows (i : Intake) (request : PolicyRequest) (c : Course) (d : PolicyDecision) :
    Prop where
  present : i.missingRequiredAgentKeys = []
  settled : i.settle request i.course = .ok c
  enough : i.minimum c.mode ≤ (i.reduced c).length
  affordable : totalEstimatedCost (i.reduced c) ≤ i.budget.maxCostMicroUsd
  decision : d = i.allow request (i.noteReduction c) (i.reduced c)

theorem decision_cases (i : Intake) (request : PolicyRequest) :
    Refusal (i.decision request) ∨
    (∃ c, i.afterShortage request i.course = .ok c ∧ i.desired c.mode < i.minimum c.mode ∧
      (i.decision request).allowed = false) ∨
    ∃ c, i.Allows request c (i.decision request) := by
  unfold Intake.decision
  cases hreq : i.checkRequired request i.course with
  | error d => exact .inl (checkRequired_error hreq)
  | ok u =>
    cases hsettle : i.settle request i.course with
    | error d =>
      rcases settle_error hsettle with h | h
      · exact .inl h
      · exact .inr (.inl h)
    | ok c =>
      rcases conclude_cases i request c with h | ⟨henough, hcost, hd⟩
      · exact .inl h
      · exact .inr (.inr ⟨c, checkRequired_ok hreq, hsettle, henough, hcost, hd⟩)

theorem decision_allows {i : Intake} {request : PolicyRequest}
    (h : (i.decision request).allowed = true) : ∃ c, i.Allows request c (i.decision request) := by
  rcases decision_cases i request with hr | ⟨c, -, -, hr⟩ | ha
  · exact absurd h (by simp [hr.1])
  · exact absurd h (by simp [hr])
  · exact ha

section Selected
variable (mode : WorkflowMode) (l : List ProviderCandidate)

theorem length_selectedProviders : (Intake.selectedProviders mode l).length = l.length :=
  List.length_mapIdx

theorem map_agentKey_selectedProviders :
    (Intake.selectedProviders mode l).map SelectedProvider.agentKey = l.map trimmedKey := by
  refine List.ext_getElem (by simp [Intake.selectedProviders]) fun n h₁ h₂ => ?_
  simp [Intake.selectedProviders]

theorem map_cost_selectedProviders :
    (Intake.selectedProviders mode l).map SelectedProvider.estimatedCostMicroUsd =
      l.map ProviderCandidate.estimatedCostMicroUsd := by
  refine List.ext_getElem (by simp [Intake.selectedProviders]) fun n h₁ h₂ => ?_
  simp [Intake.selectedProviders]

theorem mem_selectedProviders {p : SelectedProvider} (h : p ∈ Intake.selectedProviders mode l) :
    ∃ q ∈ l, p.agentKey = trimmedKey q ∧ p.kind = q.kind ∧ p.model = Text.trim q.model ∧
      p.estimatedCostMicroUsd = q.estimatedCostMicroUsd := by
  obtain ⟨n, hn, rfl⟩ := List.mem_mapIdx.mp h
  exact ⟨l[n], List.getElem_mem hn, rfl, rfl, rfl, rfl⟩

theorem role_selectedProviders {n : Nat} (hn : n < (Intake.selectedProviders mode l).length) :
    (Intake.selectedProviders mode l)[n].role = .reviewer ↔
      mode = .consensus ∧ n + 1 = (Intake.selectedProviders mode l).length := by
  rw [length_selectedProviders]
  simp only [Intake.selectedProviders, List.getElem_mapIdx]
  split_ifs with h
  · exact iff_of_true rfl h
  · exact iff_of_false (by simp) h

end Selected

theorem degradationRank_effective {default : DegradationBehavior}
    {requested : Option DegradationBehavior} {hasRequired specialized : Bool}
    (h : hasRequired = true ∨ specialized = true) :
    2 ≤ degradationRank (effectiveDegradationBehavior default requested hasRequired specialized) := by
  unfold effectiveDegradationBehavior
  dsimp only
  split_ifs with hlow
  · exact le_rfl
  · have hany : (hasRequired || specialized) = true := Bool.or_eq_true_iff.mpr h
    rw [hany, Bool.true_and, decide_eq_true_eq, Nat.not_lt] at hlow
    exact hlow

section Allowed
variable {request : PolicyRequest} {caps : KeySet Text} {i : Intake} {c : Course} {d : PolicyDecision}

theorem Intake.Reads.degradationRank_of_required (h : i.Reads request caps) {key : Text}
    (hkey : key ∈ i.requiredSelection) : 2 ≤ degradationRank i.degradationBehavior := by
  obtain ⟨eligible, excluded, he⟩ := h.fields
  rw [he]
  refine degradationRank_effective (.inl ?_)
  have hne : i.requiredSelection.keys ≠ [] := List.ne_nil_of_mem hkey
  simpa using hne

theorem Intake.Reads.present (h : i.Reads request caps) (hm : i.missingRequiredAgentKeys = []) :
    ∀ key ∈ i.requiredSelection, key ∈ i.eligible.map trimmedKey := by
  obtain ⟨eligible, excluded, he⟩ := h.fields
  rw [he] at hm ⊢
  intro key hkey
  exact KeySet.mem_ofList.mp (KeySet.difference_eq_nil.mp hm key hkey)

theorem pick_selection (h : i.Reads request caps) (hm : i.missingRequiredAgentKeys = []) :
    Selection i.requiredSelection i.eligible (i.pick c) :=
  (pickProviders_selection h.distinct (h.present hm)).perm (moveReviewerLast_perm _ _)

theorem reduced_selection (h : i.Reads request caps) (hm : i.missingRequiredAgentKeys = []) :
    Selection i.requiredSelection i.eligible (i.reduced c) := by
  unfold Intake.reduced
  dsimp only
  split_ifs
  · exact dropOptional_selection _ (pick_selection h hm)
  · exact pick_selection h hm

theorem length_reduced_le_pick : (i.reduced c).length ≤ (i.pick c).length := by
  unfold Intake.reduced
  dsimp only
  split_ifs
  · exact length_dropOptional_le _ _
  · exact le_rfl

theorem length_reduced_le (h : i.Reads request caps) (hm : i.missingRequiredAgentKeys = [])
    (hc : i.minimum c.mode ≤ i.desired c.mode) : (i.reduced c).length ≤ i.budget.maxProviders := by
  calc (i.reduced c).length
      ≤ (i.pick c).length := length_reduced_le_pick
    _ = (pickProviders i.requiredSelection i.eligible (i.desired c.mode)).length :=
        (moveReviewerLast_perm _ _).length_eq
    _ ≤ max i.requiredSelection.size (i.desired c.mode) := length_pickProviders_le (h.present hm)
    _ ≤ i.desired c.mode := max_le ((le_max_right _ _).trans hc) le_rfl
    _ ≤ i.budget.maxProviders := (min_le_right _ _).trans (min_le_left _ _)

theorem reduced_getLast (h : i.Reads request caps) (hm : i.missingRequiredAgentKeys = []) {key : Text}
    (hr : i.requiredReviewerAgentKey = some key) :
    ∃ p, (i.reduced c).getLast? = some p ∧ trimmedKey p = key := by
  have hreq : key ∈ i.requiredSelection := (h.required key).mpr (.inr hr)
  have hrank := h.degradationRank_of_required hreq
  have hkeep : i.reduced c = i.pick c := by
    unfold Intake.reduced
    refine if_neg fun hb => ?_
    rw [hb] at hrank
    exact absurd hrank (by decide)
  rw [hkeep, Intake.pick, hr]
  exact moveReviewerLast_getLast ((pickProviders_selection h.distinct (h.present hm)).required key hreq)

end Allowed

/-- One budget field against its profile, the absolute cap and the request. -/
structure Clamped (requested : Option Nat) (profile absolute value : Nat) : Prop where
  positive : 1 ≤ value
  profile : value ≤ profile
  absolute : value ≤ absolute
  requested : ∀ r, requested = some r → 1 ≤ r → value ≤ r

theorem clamp_clamped {requested : Option Nat} {profile absolute : Nat} (hp : 1 ≤ profile)
    (ha : 1 ≤ absolute) : Clamped requested profile absolute (clamp requested profile absolute) := by
  unfold clamp
  refine ⟨by omega, by omega, by omega, ?_⟩
  rintro r rfl hr
  simp only [Option.getD_some]
  omega

structure BudgetClamped (requested : RequestedBudget) (profile budget : BudgetLimits) : Prop where
  maxProviders : Clamped requested.maxProviders profile.maxProviders absMaxProviders budget.maxProviders
  maxRounds : Clamped requested.maxRounds profile.maxRounds absMaxRounds budget.maxRounds
  maxWallClockMs :
    Clamped requested.maxWallClockMs profile.maxWallClockMs absMaxWallClockMs budget.maxWallClockMs
  maxInputTokens :
    Clamped requested.maxInputTokens profile.maxInputTokens absMaxInputTokens budget.maxInputTokens
  maxOutputTokens :
    Clamped requested.maxOutputTokens profile.maxOutputTokens absMaxOutputTokens budget.maxOutputTokens
  maxRetries : Clamped requested.maxRetries profile.maxRetries absMaxRetries budget.maxRetries
  maxConcurrency :
    Clamped requested.maxConcurrency profile.maxConcurrency absMaxConcurrency budget.maxConcurrency
  maxCostMicroUsd :
    Clamped requested.maxCostMicroUsd profile.maxCostMicroUsd absMaxCostMicroUsd budget.maxCostMicroUsd

theorem clampBudget_clamped (requested : RequestedBudget) (risk : TaskRisk) :
    BudgetClamped requested (budgetProfile risk) (clampBudget requested (budgetProfile risk)) := by
  constructor <;> exact clamp_clamped (by cases risk <;> decide) (by decide)

/-- What holds of every allowed decision. -/
structure SoundDecision (request : PolicyRequest) (d : PolicyDecision) : Prop where
  distinct : (d.selectedProviders.map fun p => Text.trim p.agentKey).Nodup
  eligible : ∀ p ∈ d.selectedProviders, ∃ q ∈ request.providers, p.agentKey = Text.trim q.agentKey ∧
    p.kind = q.kind ∧ p.model = Text.trim q.model ∧
    p.estimatedCostMicroUsd = q.estimatedCostMicroUsd ∧ Eligible request q
  required : ∀ key ∈ request.requiredAgentKeys, ∃ p ∈ d.selectedProviders, p.agentKey = Text.trim key
  reviewer : ∀ key, request.requiredReviewerAgentKey = some key →
    ∃ p ∈ d.selectedProviders, p.agentKey = Text.trim key
  count : minimumProviderCount d.mode ≤ d.selectedProviders.length ∧
    d.selectedProviders.length ≤ d.budget.maxProviders
  cost : (d.selectedProviders.map SelectedProvider.estimatedCostMicroUsd).sum ≤ d.budget.maxCostMicroUsd
  budget : ∃ caps, normalizeCapabilities request.requiredCapabilities = .ok caps ∧
    BudgetClamped request.requestedBudget
      (budgetProfile (budgetRisk (effectiveRisk request caps) (requiredMode request (effectiveRisk request caps)
        (request.requiredReviewerAgentKey.map Text.trim)))) d.budget
  roles : d.mode = .consensus →
    (∀ n (hn : n < d.selectedProviders.length),
      d.selectedProviders[n].role = .reviewer ↔ n + 1 = d.selectedProviders.length) ∧
    ∀ key, request.requiredReviewerAgentKey = some key →
      ∃ p, d.selectedProviders.getLast? = some p ∧ p.agentKey = Text.trim key

theorem budget_clamped {request : PolicyRequest} {caps : KeySet Text} {i : Intake}
    (h : i.Reads request caps) : BudgetClamped request.requestedBudget
      (budgetProfile (budgetRisk (effectiveRisk request caps) (requiredMode request (effectiveRisk request caps)
        (request.requiredReviewerAgentKey.map Text.trim)))) i.budget := by
  obtain ⟨eligible, excluded, he⟩ := h.fields
  rw [he, h.reviewer]
  exact clampBudget_clamped _ _

/-- The providers of an allowed decision: distinct candidates, with their roles by position. -/
theorem evaluate_selected {request : PolicyRequest} {d : PolicyDecision} (h : evaluate request = .ok d)
    (hallowed : d.allowed = true) : ∃ l : List ProviderCandidate,
      d.selectedProviders = Intake.selectedProviders d.mode l ∧ (l.map trimmedKey).Nodup := by
  obtain ⟨i, hi, he⟩ := Except.bind_eq_ok.mp h
  cases he
  obtain ⟨caps, hreads⟩ := intake_reads hi
  obtain ⟨c, hal⟩ := decision_allows hallowed
  refine ⟨i.reduced c, ?_, (reduced_selection hreads hal.present).nodup⟩
  rw [hal.decision]
  rfl

theorem evaluate_sound (request : PolicyRequest) (d : PolicyDecision) (h : evaluate request = .ok d)
    (hallowed : d.allowed = true) : SoundDecision request d := by
  obtain ⟨i, hi, he⟩ := Except.bind_eq_ok.mp h
  cases he
  obtain ⟨caps, hreads⟩ := intake_reads hi
  obtain ⟨c, hal⟩ := decision_allows hallowed
  have hsel := reduced_selection (c := c) hreads hal.present
  have hbudget := budget_clamped hreads
  obtain ⟨hmin, -⟩ := settle_eq_ok hal.settled
  -- required agents are picked in every course
  have hkey (key : Text) (hk : key ∈ i.requiredSelection) :
      ∃ p ∈ Intake.selectedProviders c.mode (i.reduced c), p.agentKey = key := by
    have hm := hsel.required key hk
    rwa [← map_agentKey_selectedProviders c.mode, List.mem_map] at hm
  have hcost : totalEstimatedCost (i.reduced c) < u64Max :=
    calc totalEstimatedCost (i.reduced c) ≤ i.budget.maxCostMicroUsd := hal.affordable
      _ ≤ absMaxCostMicroUsd := hbudget.maxCostMicroUsd.absolute
      _ < u64Max := by decide
  rw [hal.decision]
  refine ⟨?_, fun p hp => ?_, fun key hk => ?_, fun key hk => ?_, ⟨?_, ?_⟩, ?_,
    ⟨caps, hreads.capabilities, hbudget⟩, fun hmode => ⟨fun n hn => ?_, fun key hk => ?_⟩⟩
  · have htrim : (Intake.selectedProviders c.mode (i.reduced c)).map (fun p => Text.trim p.agentKey) =
        (i.reduced c).map trimmedKey := by
      rw [← Function.comp_def Text.trim, ← List.map_map, map_agentKey_selectedProviders, List.map_map]
      exact List.map_congr_left fun p _ => Text.trim_trim _
    exact htrim ▸ hsel.nodup
  · obtain ⟨q, hq, hpk, hkind, hmodel, hqcost⟩ := mem_selectedProviders _ _ hp
    obtain ⟨hmem, hel⟩ := hreads.eligible q (hsel.subset hq)
    exact ⟨q, hmem, hpk, hkind, hmodel, hqcost, hel⟩
  · exact hkey _ ((hreads.required _).mpr (.inl ⟨key, hk, rfl⟩))
  · refine hkey _ ((hreads.required _).mpr (.inr ?_))
    rw [hreads.reviewer, hk]
    rfl
  · exact ((le_max_left _ _).trans hal.enough).trans_eq (length_selectedProviders _ _).symm
  · exact (length_selectedProviders _ _).trans_le (length_reduced_le hreads hal.present hmin)
  · calc ((Intake.selectedProviders c.mode (i.reduced c)).map SelectedProvider.estimatedCostMicroUsd).sum
        = ((i.reduced c).map ProviderCandidate.estimatedCostMicroUsd).sum := by
          rw [map_cost_selectedProviders]
      _ = totalEstimatedCost (i.reduced c) := (totalEstimatedCost_eq_sum hcost).symm
      _ ≤ i.budget.maxCostMicroUsd := hal.affordable
  · exact (role_selectedProviders c.mode (i.reduced c) hn).trans (and_iff_right hmode)
  · have hr : i.requiredReviewerAgentKey = some (Text.trim key) := by
      rw [hreads.reviewer, hk]
      rfl
    obtain ⟨p, hp, hpk⟩ := reduced_getLast (c := c) hreads hal.present hr
    have hlast : ((Intake.selectedProviders c.mode (i.reduced c)).map SelectedProvider.agentKey).getLast? =
        some (Text.trim key) := by
      rw [map_agentKey_selectedProviders, List.getLast?_map, hp, Option.map_some, hpk]
    rw [List.getLast?_map] at hlast
    exact Option.map_eq_some_iff.mp hlast

/-- An available candidate with the default metrics. -/
def plainProvider (agentKey : Text) : ProviderCandidate where
  agentKey := agentKey
  kind := .other
  model := "m".toList
  available := true
  availability := .available
  capabilities := []
  trustedForRestricted := false
  historicalQualityBps := 10000
  healthScoreBps := 10000
  recentErrorRateBps := 0
  p95LatencyMs := 0
  estimatedCostMicroUsd := 0
  maxContextTokens := 0

/-- High-risk work for three providers, `a` required as the reviewer. -/
def reviewedRequest : PolicyRequest where
  taskRisk := .high
  dataSensitivity := .internal
  requestedMode := none
  requestedProtocol := none
  requestedDegradation := none
  requiredAgentKeys := []
  requiredReviewerAgentKey := some "a".toList
  requiredCapabilities := []
  requiresRepositoryWrite := false
  expectedDurationMs := 0
  requestedBudget := {}
  providers := [plainProvider "a".toList, plainProvider "b".toList, plainProvider "c".toList]

theorem evaluate_sound_reviewed : ∃ d, evaluate reviewedRequest = .ok d ∧
    d.selectedProviders.map SelectedProvider.agentKey = ["b".toList, "c".toList, "a".toList] ∧
    SoundDecision reviewedRequest d := by
  have h : (evaluate reviewedRequest).toOption.map (fun d =>
      (d.allowed, d.selectedProviders.map SelectedProvider.agentKey)) =
      some (true, ["b".toList, "c".toList, "a".toList]) := by decide
  cases he : evaluate reviewedRequest with
  | error e => rw [he] at h; cases h
  | ok d =>
    rw [he] at h
    obtain ⟨ha, hk⟩ := Prod.mk.inj (Option.some.inj h)
    exact ⟨d, rfl, hk, evaluate_sound _ d he ha⟩

end AgentBridge.Policy
