import AgentBridge.Policy.Floor
import Mathlib.Data.List.Perm.Subperm

/-! Which requests pass validation, and what the policy decides when every candidate is
required and eligible: nothing is degraded or dropped, and all of them are selected. -/

namespace AgentBridge.Policy

section Normalize
variable {value : Text} {values : List Text} {s : KeySet Text}

theorem normalizeAgentKey_isOk :
    (∃ key, normalizeAgentKey value = .ok key) ↔ Text.printable maxAgentKeyBytes (Text.trim value) = true := by
  unfold normalizeAgentKey
  simp only [Except.check_eq_ok, exists_and_left, Bool.not_eq_true', Bool.not_eq_false]
  exact and_iff_left ⟨_, rfl⟩

theorem insertAgentKeys_isOk : (∃ t, insertAgentKeys s values = .ok t) ↔
    (values.map Text.trim).Nodup ∧ ∀ value ∈ values, Text.trim value ∉ s ∧
      Text.printable maxAgentKeyBytes (Text.trim value) = true := by
  -- the keys seen so far are those that may not come again
  induction values generalizing s with
  | nil => simp [insertAgentKeys]
  | cons value values ih =>
    constructor
    · rintro ⟨t, h⟩
      obtain ⟨key, hkey, h⟩ := Except.bind_eq_ok.mp h
      obtain ⟨hnew, h⟩ := Except.check_eq_ok.mp h
      obtain ⟨hnodup, hall⟩ := ih.mp ⟨t, h⟩
      have hprintable := normalizeAgentKey_isOk.mp ⟨key, hkey⟩
      obtain rfl := normalizeAgentKey_eq_ok hkey
      refine ⟨List.nodup_cons.mpr ⟨?_, hnodup⟩, List.forall_mem_cons.mpr ⟨⟨hnew, hprintable⟩, ?_⟩⟩
      · intro hmem
        obtain ⟨other, hother, heq⟩ := List.mem_map.mp hmem
        exact (hall other hother).1 (KeySet.mem_insert.mpr (.inl heq))
      · intro other hother
        exact ⟨fun hs => (hall other hother).1 (KeySet.mem_insert.mpr (.inr hs)), (hall other hother).2⟩
    · rintro ⟨hnodup, hall⟩
      obtain ⟨hfresh, hnodup⟩ := List.nodup_cons.mp hnodup
      obtain ⟨⟨hnew, hprintable⟩, hall⟩ := List.forall_mem_cons.mp hall
      obtain ⟨key, hkey⟩ := normalizeAgentKey_isOk.mpr hprintable
      obtain rfl := normalizeAgentKey_eq_ok hkey
      have hrest : ∀ other ∈ values, Text.trim other ∉ s.insert (Text.trim value) ∧
          Text.printable maxAgentKeyBytes (Text.trim other) = true := by
        intro other hother
        refine ⟨fun hmem => ?_, (hall other hother).2⟩
        rcases KeySet.mem_insert.mp hmem with heq | hs
        · exact hfresh (heq ▸ List.mem_map_of_mem hother)
        · exact (hall other hother).1 hs
      obtain ⟨t, ht⟩ := ih.mpr ⟨hnodup, hrest⟩
      exact ⟨t, Except.bind_eq_ok.mpr ⟨_, hkey, Except.check_eq_ok.mpr ⟨hnew, ht⟩⟩⟩

theorem normalizeAgentKeys_isOk : (∃ t, normalizeAgentKeys values = .ok t) ↔
    (values.map Text.trim).Nodup ∧
      ∀ value ∈ values, Text.printable maxAgentKeyBytes (Text.trim value) = true := by
  rw [normalizeAgentKeys, insertAgentKeys_isOk]
  simp only [KeySet.not_mem_empty, not_false_eq_true, true_and]

/-- The form in which capabilities are compared. -/
def capability (value : Text) : Text := Text.toAsciiLowercase (Text.trim value)

theorem insertCapabilities_isOk : (∃ t, insertCapabilities s values = .ok t) ↔
    ∀ value ∈ values, Text.printable maxCapabilityBytes (capability value) = true := by
  induction values generalizing s with
  | nil => simp [insertCapabilities]
  | cons value values ih =>
    simp only [insertCapabilities, Except.check_eq_ok, exists_and_left, ih, List.forall_mem_cons,
      Bool.not_eq_true', Bool.not_eq_false]
    rfl

theorem mem_insertCapabilities {t : KeySet Text} (h : insertCapabilities s values = .ok t) {c : Text} :
    c ∈ t ↔ c ∈ s ∨ ∃ value ∈ values, capability value = c := by
  induction values generalizing s with
  | nil =>
    cases h
    simp
  | cons value values ih =>
    rw [insertCapabilities] at h
    obtain ⟨-, h⟩ := Except.check_eq_ok.mp h
    rw [ih h, KeySet.mem_insert]
    simp only [List.mem_cons, exists_eq_or_imp]
    change (c = capability value ∨ c ∈ s) ∨ _ ↔ c ∈ s ∨ capability value = c ∨ _
    rw [@eq_comm _ c]
    tauto

theorem normalizeCapabilities_isOk : (∃ t, normalizeCapabilities values = .ok t) ↔
    values.length ≤ maxCapabilities ∧
      ∀ value ∈ values, Text.printable maxCapabilityBytes (capability value) = true := by
  unfold normalizeCapabilities
  simp only [Except.check_eq_ok, exists_and_left, insertCapabilities_isOk, Nat.not_lt, gt_iff_lt]

theorem mem_normalizeCapabilities {t : KeySet Text} (h : normalizeCapabilities values = .ok t) {c : Text} :
    c ∈ t ↔ ∃ value ∈ values, capability value = c := by
  obtain ⟨-, h⟩ := Except.check_eq_ok.mp h
  rw [mem_insertCapabilities h]
  exact or_iff_right KeySet.not_mem_empty

end Normalize

/-- What validation asks of one candidate. -/
structure ProviderAcceptable (p : ProviderCandidate) : Prop where
  key : Text.printable maxAgentKeyBytes (trimmedKey p) = true
  model : Text.printable maxModelBytes (Text.trim p.model) = true
  quality : p.historicalQualityBps ≤ 10000
  health : p.healthScoreBps ≤ 10000
  errorRate : p.recentErrorRateBps ≤ 10000
  count : p.capabilities.length ≤ maxCapabilities
  capabilities : ∀ value ∈ p.capabilities, Text.printable maxCapabilityBytes (capability value) = true

section Validate
variable {providers : List ProviderCandidate} {s : KeySet Text} {request : PolicyRequest}

theorem checkBps_eq_ok {key field : Text} {value : Nat} {u : Unit} :
    checkBps key field value = .ok u ↔ value ≤ 10000 := by
  unfold checkBps
  rw [Except.check_eq_ok, Nat.not_lt]
  exact and_iff_left rfl

theorem validateProviders_isOk : (∃ t, validateProviders s providers = .ok t) ↔
    (providers.map trimmedKey).Nodup ∧ ∀ p ∈ providers, trimmedKey p ∉ s ∧ ProviderAcceptable p := by
  -- the keys seen so far are those that may not come again
  induction providers generalizing s with
  | nil => simp [validateProviders]
  | cons provider providers ih =>
    constructor
    · rintro ⟨t, h⟩
      have hdistinct := validateProviders_distinct h
      obtain ⟨key, hkey, h⟩ := Except.bind_eq_ok.mp h
      obtain ⟨-, h⟩ := Except.check_eq_ok.mp h
      obtain ⟨hmodel, h⟩ := Except.check_eq_ok.mp h
      simp only [Except.bind_eq_ok, checkBps_eq_ok, exists_const] at h
      obtain ⟨hquality, hhealth, herror, caps, hcaps, h⟩ := h
      obtain ⟨hcount, hprintable⟩ := normalizeCapabilities_isOk.mp ⟨caps, hcaps⟩
      have hrest := (ih.mp ⟨t, h⟩).2
      refine ⟨hdistinct.1, ?_⟩
      intro p hp
      refine ⟨hdistinct.2 p hp, ?_⟩
      rcases List.mem_cons.mp hp with rfl | hp
      · exact ⟨normalizeAgentKey_isOk.mp ⟨key, hkey⟩, by simpa using hmodel, hquality, hhealth, herror, hcount,
          hprintable⟩
      · exact (hrest p hp).2
    · rintro ⟨hnodup, hall⟩
      obtain ⟨hfresh, hnodup⟩ := List.nodup_cons.mp hnodup
      obtain ⟨⟨hnew, haccept⟩, hall⟩ := List.forall_mem_cons.mp hall
      obtain ⟨key, hkey⟩ := normalizeAgentKey_isOk.mpr haccept.key
      obtain rfl := normalizeAgentKey_eq_ok hkey
      obtain ⟨caps, hcaps⟩ := normalizeCapabilities_isOk.mpr ⟨haccept.count, haccept.capabilities⟩
      have hrest : ∀ p ∈ providers, trimmedKey p ∉ s.insert (trimmedKey provider) ∧ ProviderAcceptable p := by
        intro p hp
        refine ⟨fun hmem => ?_, (hall p hp).2⟩
        rcases KeySet.mem_insert.mp hmem with heq | hs
        · exact hfresh (heq ▸ List.mem_map_of_mem hp)
        · exact (hall p hp).1 hs
      obtain ⟨t, ht⟩ := ih.mpr ⟨hnodup, hrest⟩
      refine ⟨t, Except.bind_eq_ok.mpr ⟨_, hkey, Except.check_eq_ok.mpr ⟨hnew, Except.check_eq_ok.mpr ⟨?_, ?_⟩⟩⟩⟩
      · simpa using haccept.model
      · simp only [Except.bind_eq_ok, checkBps_eq_ok, exists_const]
        exact ⟨haccept.quality, haccept.health, haccept.errorRate, caps, hcaps, ht⟩

theorem requirePresent_eq_ok {what : Text} {required : List Text} :
    requirePresent s what required = .ok () ↔ ∀ key ∈ required, key ∈ s := by
  induction required with
  | nil => simp [requirePresent]
  | cons key required ih =>
    rw [requirePresent, Except.check_eq_ok, ih, not_not, List.forall_mem_cons]

theorem mem_validateProviders {t : KeySet Text} (h : validateProviders s providers = .ok t) {key : Text} :
    key ∈ t ↔ key ∈ s ∨ ∃ p ∈ providers, trimmedKey p = key := by
  induction providers generalizing s with
  | nil =>
    cases h
    simp
  | cons provider providers ih =>
    obtain ⟨k, hk, h⟩ := Except.bind_eq_ok.mp h
    obtain ⟨-, h⟩ := Except.check_eq_ok.mp h
    obtain ⟨-, h⟩ := Except.check_eq_ok.mp h
    simp only [Except.bind_eq_ok] at h
    obtain ⟨-, -, -, -, -, -, -, -, h⟩ := h
    rw [ih h, KeySet.mem_insert, normalizeAgentKey_eq_ok hk]
    simp only [List.mem_cons, exists_eq_or_imp]
    change (key = trimmedKey provider ∨ key ∈ s) ∨ _ ↔ key ∈ s ∨ trimmedKey provider = key ∨ _
    rw [@eq_comm _ key]
    tauto

theorem acceptable_of_validateRequest (h : validateRequest request = .ok ()) :
    ∀ p ∈ request.providers, ProviderAcceptable p := by
  unfold validateRequest at h
  simp only [Except.check_eq_ok, Except.bind_eq_ok] at h
  obtain ⟨-, -, -, -, -, -, -, -, keys, hkeys, -⟩ := h
  intro p hp
  exact ((validateProviders_isOk.mp ⟨keys, hkeys⟩).2 p hp).2

end Validate

structure FullRequest (request : PolicyRequest) : Prop where
  nonempty : request.providers ≠ []
  few : request.requiredAgentKeys.length ≤ maxRequiredProviderKeys
  keys : (request.requiredAgentKeys.map Text.trim).Nodup
  same : ∀ key, (∃ value ∈ request.requiredAgentKeys, Text.trim value = key) ↔
    ∃ p ∈ request.providers, trimmedKey p = key
  distinct : (request.providers.map trimmedKey).Nodup
  acceptable : ∀ p ∈ request.providers, ProviderAcceptable p
  available : ∀ p ∈ request.providers, p.available = true ∧ p.availability = .available
  reviewer : ∀ key ∈ request.requiredReviewerAgentKey, key ∈ request.requiredAgentKeys
  unrestricted : request.dataSensitivity ≠ .restricted
  capabilities : request.requiredCapabilities.length ≤ maxCapabilities
  capable : ∀ c ∈ request.requiredCapabilities, ∀ p ∈ request.providers,
    ∃ value ∈ p.capabilities, capability value = capability c

section Full
variable {request : PolicyRequest}

theorem FullRequest.perm (h : FullRequest request) :
    (request.requiredAgentKeys.map Text.trim).Perm (request.providers.map trimmedKey) := by
  rw [List.perm_ext_iff_of_nodup h.keys h.distinct]
  intro key
  rw [List.mem_map, List.mem_map]
  exact h.same key

theorem FullRequest.printable (h : FullRequest request) {value : Text} (hv : value ∈ request.requiredAgentKeys) :
    Text.printable maxAgentKeyBytes (Text.trim value) = true := by
  obtain ⟨p, hp, hkey⟩ := (h.same (Text.trim value)).mp ⟨value, hv, rfl⟩
  exact hkey ▸ (h.acceptable p hp).key

theorem FullRequest.normalizes (h : FullRequest request) :
    ∃ caps, normalizeCapabilities request.requiredCapabilities = .ok caps := by
  refine normalizeCapabilities_isOk.mpr ⟨h.capabilities, ?_⟩
  intro c hc
  obtain ⟨p, hp⟩ := List.exists_mem_of_ne_nil _ h.nonempty
  obtain ⟨value, hvalue, heq⟩ := h.capable c hc p hp
  exact heq ▸ (h.acceptable p hp).capabilities value hvalue

theorem FullRequest.normalizedKeys (h : FullRequest request) : ∃ keys,
    normalizeAgentKeys request.requiredAgentKeys = .ok keys ∧
    request.requiredReviewerAgentKey.mapM normalizeAgentKey = .ok (request.requiredReviewerAgentKey.map Text.trim) ∧
    (∀ key, key ∈ keys ↔ ∃ p ∈ request.providers, trimmedKey p = key) ∧
    ∀ key ∈ request.requiredReviewerAgentKey.map Text.trim, key ∈ keys := by
  obtain ⟨keys, hkeys⟩ := normalizeAgentKeys_isOk.mpr ⟨h.keys, fun value hv => h.printable hv⟩
  have hmem := fun key => (mem_normalizeAgentKeys hkeys).trans (h.same key)
  refine ⟨keys, hkeys, ?_, hmem, ?_⟩
  · cases hr : request.requiredReviewerAgentKey with
    | none => rfl
    | some value =>
      obtain ⟨key, hkey⟩ := normalizeAgentKey_isOk.mpr (h.printable (h.reviewer value hr))
      rw [Option.mapM_some, hkey, normalizeAgentKey_eq_ok hkey]
      rfl
  · intro key hkey
    obtain ⟨value, hvalue, rfl⟩ := Option.mem_map.mp hkey
    exact (hmem _).mpr ((h.same _).mp ⟨value, h.reviewer value hvalue, rfl⟩)

theorem FullRequest.validates (h : FullRequest request) : validateRequest request = .ok () := by
  obtain ⟨keys, hkeys, hreviewer, hmem, hin⟩ := h.normalizedKeys
  obtain ⟨seen, hseen⟩ := validateProviders_isOk.mpr
    ⟨h.distinct, fun p hp => ⟨KeySet.not_mem_empty, h.acceptable p hp⟩⟩
  have hpresent : ∀ key, key ∈ keys → key ∈ seen := by
    intro key hkey
    exact (mem_validateProviders hseen).mpr (.inr ((hmem key).mp hkey))
  have hlen := h.perm.length_eq
  rw [List.length_map, List.length_map] at hlen
  have hfew := h.few
  unfold validateRequest
  simp only [Except.check_eq_ok, Except.bind_eq_ok]
  refine ⟨by simpa using h.nonempty, ?_, Nat.not_lt.mpr hfew, Nat.not_lt.mpr h.capabilities, keys, hkeys, _, hreviewer,
    seen, hseen, (), requirePresent_eq_ok.mpr hpresent, requirePresent_eq_ok.mpr ?_⟩
  · rw [← hlen, gt_iff_lt, Nat.not_lt]
    exact hfew.trans (by decide)
  · intro key hkey
    exact hpresent key (hin key (Option.mem_toList.mp hkey))

theorem exclusionReason_none {p : ProviderCandidate} {caps advertised : KeySet Text}
    {sensitivity : DataSensitivity} (havailable : p.available = true ∧ p.availability = .available)
    (hunrestricted : sensitivity ≠ .restricted) (hadvertised : normalizeCapabilities p.capabilities = .ok advertised)
    (hcapable : ∀ c ∈ caps, c ∈ advertised) : exclusionReason p caps sensitivity = .ok none := by
  obtain ⟨hon, havailability⟩ := havailable
  unfold exclusionReason unsuitedReason
  rw [if_neg (by simp [hon]), havailability]
  dsimp only
  rw [if_neg (fun hr => hunrestricted hr.1)]
  exact Except.bind_eq_ok.mpr ⟨_, hadvertised, if_pos hcapable⟩

theorem partitionProviders_all {caps : KeySet Text} {sensitivity : DataSensitivity}
    {providers : List ProviderCandidate} (h : ∀ p ∈ providers, exclusionReason p caps sensitivity = .ok none) :
    partitionProviders caps sensitivity providers = .ok (providers, []) := by
  induction providers with
  | nil => rfl
  | cons p providers ih =>
    obtain ⟨hp, hrest⟩ := List.forall_mem_cons.mp h
    rw [partitionProviders, hp, ih hrest]
    rfl

theorem FullRequest.intake (h : FullRequest request) : ∃ caps keys,
    normalizeCapabilities request.requiredCapabilities = .ok caps ∧
    (∀ key, key ∈ keys ↔ ∃ p ∈ request.providers, trimmedKey p = key) ∧
    Policy.intake request = .ok (.of request (effectiveRisk request caps)
      (request.requiredReviewerAgentKey.map Text.trim)
      ((request.requiredReviewerAgentKey.map Text.trim).elim keys keys.insert) request.providers []) := by
  obtain ⟨caps, hcaps⟩ := h.normalizes
  obtain ⟨keys, hkeys, hreviewer, hmem, -⟩ := h.normalizedKeys
  have hnone : ∀ p ∈ request.providers, exclusionReason p caps request.dataSensitivity = .ok none := by
    intro p hp
    obtain ⟨advertised, hadvertised⟩ :=
      normalizeCapabilities_isOk.mpr ⟨(h.acceptable p hp).count, (h.acceptable p hp).capabilities⟩
    refine exclusionReason_none (h.available p hp) h.unrestricted hadvertised ?_
    intro c hc
    obtain ⟨value, hvalue, rfl⟩ := (mem_normalizeCapabilities hcaps).mp hc
    exact (mem_normalizeCapabilities hadvertised).mpr (h.capable value hvalue p hp)
  refine ⟨caps, keys, hcaps, hmem, ?_⟩
  unfold Policy.intake
  simp only [Except.bind_eq_ok]
  exact ⟨(), h.validates, caps, hcaps, keys, hkeys, _, hreviewer, _, partitionProviders_all hnone, rfl⟩

structure Intake.Full (request : PolicyRequest) (i : Intake) : Prop where
  reads : ∃ caps, i.Reads request caps
  eligible : i.eligible.Perm request.providers
  missing : i.missingRequiredAgentKeys = []
  required : ∀ key, key ∈ i.requiredSelection ↔ key ∈ i.eligible.map trimmedKey
  size : i.requiredSelection.size = i.eligible.length

theorem FullRequest.full (h : FullRequest request) {i : Intake} (hi : Policy.intake request = .ok i) :
    i.Full request := by
  obtain ⟨caps, keys, -, hmem, hintake⟩ := h.intake
  have hreads := intake_reads hi
  rw [hi] at hintake
  cases hintake
  have hperm : (rankProviders request.providers).Perm request.providers := List.perm_insertionSort _ _
  have hdistinct : ((rankProviders request.providers).map trimmedKey).Nodup :=
    (hperm.map trimmedKey).nodup_iff.mpr h.distinct
  obtain ⟨_, _, _, _, hin⟩ := h.normalizedKeys
  have hrequired : ∀ key, key ∈ (request.requiredReviewerAgentKey.map Text.trim).elim keys keys.insert ↔
      key ∈ (rankProviders request.providers).map trimmedKey := by
    intro key
    rw [mem_requiredSelection, (hperm.map trimmedKey).mem_iff, List.mem_map, hmem]
    refine or_iff_left_of_imp ?_
    intro hkey
    obtain ⟨value, hvalue, rfl⟩ := Option.mem_map.mp hkey
    exact (h.same _).mp ⟨value, h.reviewer value hvalue, rfl⟩
  refine ⟨hreads, hperm, ?_, hrequired, ?_⟩
  · refine KeySet.difference_eq_nil.mpr ?_
    intro key hkey
    exact KeySet.mem_ofList.mpr ((hrequired key).mp hkey)
  · rw [KeySet.size, ← List.length_map (f := trimmedKey)]
    exact ((List.perm_ext_iff_of_nodup (KeySet.nodup _) hdistinct).mpr hrequired).length_eq

end Full

section Decide
variable {request : PolicyRequest} {i : Intake}

theorem desiredProviderCount_le (mode : WorkflowMode) (available : Nat) :
    desiredProviderCount mode available ≤ available := by
  cases mode with
  | single => exact min_le_left _ _
  | sequential => exact min_le_left _ _
  | competitive => exact min_le_left _ _
  | consensus => exact min_le_left _ _

theorem Intake.Full.counts (h : i.Full request) (hmin : minimumProviderCount i.mode ≤ i.eligible.length)
    (hmax : i.eligible.length ≤ i.budget.maxProviders) :
    i.desired i.mode = i.eligible.length ∧ i.minimum i.mode = i.eligible.length := by
  have hselectable : i.maxSelectable = i.eligible.length := min_eq_right hmax
  have hdesired := desiredProviderCount_le i.mode i.eligible.length
  constructor
  · rw [Intake.desired, hselectable, h.size]
    omega
  · rw [Intake.minimum, h.size]
    omega

theorem Intake.Full.pick_perm (h : i.Full request) (hmin : minimumProviderCount i.mode ≤ i.eligible.length)
    (hmax : i.eligible.length ≤ i.budget.maxProviders) : (i.pick i.course).Perm i.eligible := by
  obtain ⟨caps, hreads⟩ := h.reads
  obtain ⟨hdesired, -⟩ := h.counts hmin hmax
  have hselection := pick_selection (c := i.course) hreads h.missing
  have hnodup : (i.pick i.course).Nodup := hselection.nodup.of_map
  refine (hnodup.subperm hselection.subset).perm_of_length_le ?_
  have hkeys : (i.eligible.map trimmedKey).Subperm ((i.pick i.course).map trimmedKey) :=
    hreads.distinct.subperm fun key hkey => hselection.required key ((h.required key).mpr hkey)
  simpa using hkeys.length_le

theorem Intake.Full.decision (h : i.Full request) (hne : i.eligible ≠ [])
    (hmin : minimumProviderCount i.mode ≤ i.eligible.length) (hmax : i.eligible.length ≤ i.budget.maxProviders)
    (hcost : (i.eligible.map ProviderCandidate.estimatedCostMicroUsd).sum ≤ i.budget.maxCostMicroUsd)
    (hduration : request.expectedDurationMs = 0) :
    i.decision request = i.allow request i.course (i.pick i.course) := by
  obtain ⟨caps, hreads⟩ := h.reads
  obtain ⟨hdesired, hminimum⟩ := h.counts hmin hmax
  have hperm := h.pick_perm hmin hmax
  -- somebody is required, so no provider is dropped for its cost
  have hreduced : i.reduced i.course = i.pick i.course := by
    obtain ⟨p, hp⟩ := List.exists_mem_of_ne_nil _ hne
    have hrank := hreads.degradationRank_of_required ((h.required _).mpr (List.mem_map_of_mem hp))
    unfold Intake.reduced
    refine if_neg fun hb => ?_
    rw [hb] at hrank
    exact absurd hrank (by decide)
  have htotal : totalEstimatedCost (i.pick i.course) ≤ i.budget.maxCostMicroUsd := by
    rw [totalEstimatedCost_eq_min, (hperm.map _).sum_nat]
    exact (min_le_left _ _).trans hcost
  have hcheck : i.checkRequired request i.course = .ok () := if_pos h.missing
  have hshort : ¬ i.desired i.course.mode < i.minimum i.course.mode := by
    change ¬ i.desired i.mode < i.minimum i.mode
    rw [hdesired, hminimum]
    exact lt_irrefl _
  have hsettle : i.settle request i.course = .ok i.course := by
    unfold Intake.settle Intake.afterShortage
    rw [if_neg hshort]
    exact if_neg hshort
  have hnote : i.noteReduction i.course = i.course := by
    unfold Intake.noteReduction
    rw [hreduced, if_neg (lt_irrefl _)]
  unfold Intake.decision
  rw [hcheck]
  dsimp only
  rw [hsettle]
  dsimp only
  unfold Intake.conclude
  dsimp only
  rw [hreduced, hnote, if_neg, if_neg]
  · simp [hduration]
  · change ¬ ((i.pick i.course).length < i.minimum i.mode ∨ _)
    rw [hminimum, hperm.length_eq]
    simp [htotal]

end Decide

end AgentBridge.Policy
