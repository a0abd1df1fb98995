import AgentBridge.Base.Result
import AgentBridge.Policy.Evaluate

/-! What the stages of provider selection establish: normalised and distinct
keys, eligibility, and a selection that holds every required provider and no key
twice. -/

namespace AgentBridge.Policy

theorem normalizeAgentKey_eq_ok {value key : Text} (h : normalizeAgentKey value = .ok key) :
    key = Text.trim value := by
  unfold normalizeAgentKey at h
  exact (Except.ok.inj (Except.check_eq_ok.mp h).2).symm

theorem mem_insertAgentKeys {values : List Text} {s t : KeySet Text}
    (h : insertAgentKeys s values = .ok t) {key : Text} :
    key ∈ t ↔ key ∈ s ∨ ∃ value ∈ values, Text.trim value = key := by
  induction values generalizing s with
  | nil =>
    cases h
    simp
  | cons value values ih =>
    obtain ⟨k, hk, h⟩ := Except.bind_eq_ok.mp h
    obtain ⟨-, h⟩ := Except.check_eq_ok.mp h
    rw [ih h, KeySet.mem_insert, normalizeAgentKey_eq_ok hk]
    simp only [List.mem_cons, exists_eq_or_imp]
    tauto

theorem mem_normalizeAgentKeys {values : List Text} {t : KeySet Text}
    (h : normalizeAgentKeys values = .ok t) {key : Text} :
    key ∈ t ↔ ∃ value ∈ values, Text.trim value = key := by
  rw [mem_insertAgentKeys h]
  exact or_iff_right KeySet.not_mem_empty

theorem validateProviders_distinct {providers : List ProviderCandidate} {s t : KeySet Text}
    (h : validateProviders s providers = .ok t) :
    (providers.map trimmedKey).Nodup ∧ ∀ p ∈ providers, trimmedKey p ∉ s := by
  induction providers generalizing s with
  | nil => exact ⟨List.nodup_nil, fun _ hp => (List.not_mem_nil hp).elim⟩
  | cons provider providers ih =>
    obtain ⟨key, hkey, h⟩ := Except.bind_eq_ok.mp h
    obtain ⟨hnew, h⟩ := Except.check_eq_ok.mp h
    obtain ⟨-, h⟩ := Except.check_eq_ok.mp h
    simp only [Except.bind_eq_ok] at h
    obtain ⟨-, -, -, -, -, -, -, -, h⟩ := h
    obtain ⟨hnodup, hout⟩ := ih h
    rw [normalizeAgentKey_eq_ok hkey] at hnew hout
    constructor
    · refine List.nodup_cons.mpr ⟨fun hmem => ?_, hnodup⟩
      obtain ⟨p, hp, he⟩ := List.mem_map.mp hmem
      exact hout p hp (KeySet.mem_insert.mpr (.inl he))
    · intro p hp
      rcases List.mem_cons.mp hp with rfl | hp
      · exact hnew
      · exact fun hs => hout p hp (KeySet.mem_insert.mpr (.inr hs))

theorem validateRequest_distinct {request : PolicyRequest} (h : validateRequest request = .ok ()) :
    (request.providers.map trimmedKey).Nodup := by
  unfold validateRequest at h
  simp only [Except.check_eq_ok, Except.bind_eq_ok] at h
  obtain ⟨-, -, -, -, -, -, -, -, keys, hkeys, -⟩ := h
  exact (validateProviders_distinct hkeys).1

/-- The conditions under which `exclusion_reason` excludes nothing. -/
structure Eligible (request : PolicyRequest) (provider : ProviderCandidate) : Prop where
  available : provider.available = true
  availability : provider.availability = .available ∨ provider.availability = .degraded
  trusted : request.dataSensitivity = .restricted → provider.trustedForRestricted = true
  capable : ∃ required advertised, normalizeCapabilities request.requiredCapabilities = .ok required ∧
    normalizeCapabilities provider.capabilities = .ok advertised ∧ ∀ c ∈ required, c ∈ advertised

theorem unsuitedReason_eq_none {provider : ProviderCandidate} {required : KeySet Text}
    {sensitivity : DataSensitivity} (h : unsuitedReason provider required sensitivity = .ok none) :
    (sensitivity = .restricted → provider.trustedForRestricted = true) ∧
      ∃ advertised, normalizeCapabilities provider.capabilities = .ok advertised ∧
        ∀ c ∈ required, c ∈ advertised := by
  unfold unsuitedReason at h
  split_ifs at h with htrust
  · cases h
  · obtain ⟨advertised, hadv, h⟩ := Except.bind_eq_ok.mp h
    split_ifs at h with hcap
    · exact ⟨fun hr => by simpa [hr] using htrust, advertised, hadv, hcap⟩
    · cases h

theorem eligible_of_exclusionReason {request : PolicyRequest} {provider : ProviderCandidate}
    {required : KeySet Text} (hreq : normalizeCapabilities request.requiredCapabilities = .ok required)
    (h : exclusionReason provider required request.dataSensitivity = .ok none) :
    Eligible request provider := by
  unfold exclusionReason at h
  by_cases hav : provider.available = false
  · rw [if_pos hav] at h
    cases h
  · rw [if_neg hav] at h
    have hrest : (provider.availability = .available ∨ provider.availability = .degraded) ∧
        unsuitedReason provider required request.dataSensitivity = .ok none := by
      cases hp : provider.availability <;> rw [hp] at h
      case available => exact ⟨.inl rfl, h⟩
      case degraded => exact ⟨.inr rfl, h⟩
      case outage => cases h
      case disabled => cases h
    obtain ⟨htrust, advertised, hadv, hcap⟩ := unsuitedReason_eq_none hrest.2
    exact ⟨by simpa using hav, hrest.1, htrust, required, advertised, hreq, hadv, hcap⟩

theorem partitionProviders_eligible {request : PolicyRequest} {required : KeySet Text}
    (hreq : normalizeCapabilities request.requiredCapabilities = .ok required)
    {providers eligible : List ProviderCandidate} {excluded : List ProviderExclusion}
    (h : partitionProviders required request.dataSensitivity providers = .ok (eligible, excluded)) :
    eligible.Sublist providers ∧ ∀ p ∈ eligible, Eligible request p := by
  induction providers generalizing eligible excluded with
  | nil =>
    cases h
    exact ⟨.slnil, fun _ hp => (List.not_mem_nil hp).elim⟩
  | cons provider providers ih =>
    obtain ⟨reason, hreason, h⟩ := Except.bind_eq_ok.mp h
    obtain ⟨⟨el, ex⟩, hrest, h⟩ := Except.bind_eq_ok.mp h
    obtain ⟨hsub, hel⟩ := ih hrest
    cases reason with
    | some r =>
      cases h
      exact ⟨hsub.cons _, hel⟩
    | none =>
      cases h
      refine ⟨hsub.cons_cons _, fun p hp => ?_⟩
      rcases List.mem_cons.mp hp with rfl | hp
      · exact eligible_of_exclusionReason hreq hreason
      · exact hel p hp

structure Selection (required : KeySet Text) (eligible selected : List ProviderCandidate) : Prop where
  nodup : (selected.map trimmedKey).Nodup
  subset : selected ⊆ eligible
  required : ∀ key ∈ required, key ∈ selected.map trimmedKey

section Pick
variable {required : KeySet Text} {eligible selected : List ProviderCandidate} {desired : Nat}

theorem map_find_key {keys : List Text} (h : ∀ key ∈ keys, key ∈ eligible.map trimmedKey) :
    (keys.filterMap fun key => eligible.find? fun p => trimmedKey p = key).map trimmedKey = keys := by
  induction keys with
  | nil => rfl
  | cons key keys ih =>
    obtain ⟨q, hq, hkey⟩ := List.mem_map.mp (h key List.mem_cons_self)
    obtain ⟨p, hp⟩ : ∃ p, eligible.find? (fun p => trimmedKey p = key) = some p :=
      Option.isSome_iff_exists.mp (List.find?_isSome.mpr ⟨q, hq, by simpa using hkey⟩)
    have hrest := ih fun k hk => h k (List.mem_cons_of_mem _ hk)
    simp only [List.filterMap_cons, hp, List.map_cons, hrest]
    simpa using List.find?_some hp

/-- Filling appends optional providers in order and stops at `desired`. -/
theorem fillOptional_eq_append (required : KeySet Text) (desired : Nat)
    (selected eligible : List ProviderCandidate) :
    ∃ extra, fillOptional required desired selected eligible = selected ++ extra ∧
      extra.Sublist eligible ∧ (∀ p ∈ extra, trimmedKey p ∉ required) ∧
      (selected ++ extra).length ≤ max selected.length desired := by
  induction eligible generalizing selected with
  | nil => exact ⟨[], by simp [fillOptional], .slnil, by simp, by simp⟩
  | cons provider eligible ih =>
    rw [fillOptional]
    split_ifs with hfull hreq
    · exact ⟨[], by simp, List.nil_sublist _, by simp, by simp⟩
    · obtain ⟨extra, he, hsub, hopt, hlen⟩ := ih selected
      exact ⟨extra, he, hsub.cons _, hopt, hlen⟩
    · obtain ⟨extra, he, hsub, hopt, hlen⟩ := ih (selected ++ [provider])
      refine ⟨provider :: extra, by rw [he, List.append_assoc]; rfl, hsub.cons_cons _, ?_, ?_⟩
      · intro p hp
        rcases List.mem_cons.mp hp with rfl | hp
        · exact hreq
        · exact hopt p hp
      · simp only [List.length_append, List.length_cons, List.length_nil] at hlen ⊢
        omega

theorem pickProviders_selection (hnodup : (eligible.map trimmedKey).Nodup)
    (hall : ∀ key ∈ required, key ∈ eligible.map trimmedKey) :
    Selection required eligible (pickProviders required eligible desired) := by
  obtain ⟨extra, he, hsub, hopt, -⟩ := fillOptional_eq_append required desired
    (required.keys.filterMap fun key => eligible.find? fun p => trimmedKey p = key) eligible
  have hkeys := map_find_key hall
  refine ⟨?_, ?_, ?_⟩ <;> rw [pickProviders, he]
  · rw [List.map_append, hkeys, List.nodup_append]
    refine ⟨required.nodup, hnodup.sublist (hsub.map _), ?_⟩
    rintro key hkey _ hextra rfl
    obtain ⟨p, hp, rfl⟩ := List.mem_map.mp hextra
    exact hopt p hp hkey
  · refine List.append_subset.mpr ⟨fun p hp => ?_, hsub.subset⟩
    obtain ⟨key, -, hfind⟩ := List.mem_filterMap.mp hp
    exact List.mem_of_find?_eq_some hfind
  · intro key hkey
    rw [List.map_append, hkeys]
    exact List.mem_append_left _ hkey

theorem length_pickProviders_le (hall : ∀ key ∈ required, key ∈ eligible.map trimmedKey) :
    (pickProviders required eligible desired).length ≤ max required.size desired := by
  obtain ⟨extra, he, -, -, hlen⟩ := fillOptional_eq_append required desired
    (required.keys.filterMap fun key => eligible.find? fun p => trimmedKey p = key) eligible
  have hsize := congrArg List.length (map_find_key hall)
  rw [List.length_map] at hsize
  rw [pickProviders, he]
  rw [hsize] at hlen
  exact hlen

theorem Selection.perm {l : List ProviderCandidate} (h : Selection required eligible selected)
    (hp : l.Perm selected) : Selection required eligible l := by
  refine ⟨(hp.map _).nodup_iff.mpr h.nodup, List.Subset.trans hp.subset h.subset, fun key hkey => ?_⟩
  exact (hp.map _).mem_iff.mpr (h.required key hkey)

theorem moveReviewerLast_perm (reviewer : Option Text) (selected : List ProviderCandidate) :
    (moveReviewerLast reviewer selected).Perm selected := by
  cases reviewer with
  | none => exact .refl _
  | some key =>
    rw [moveReviewerLast]
    split
    · exact .refl _
    · rename_i p hp
      obtain ⟨a, l₁, l₂, hl₁, ha, he, hrest⟩ :=
        List.exists_of_eraseP (List.mem_of_find?_eq_some hp) (List.find?_some hp)
      have hpa : p = a := by
        rw [he, List.find?_append, List.find?_eq_none.mpr hl₁] at hp
        simpa [ha] using hp.symm
      rw [hrest, hpa, he]
      calc (l₁ ++ l₂ ++ [a]).Perm (a :: (l₁ ++ l₂)) := List.perm_append_singleton a _
        List.Perm _ (l₁ ++ a :: l₂) := List.perm_middle.symm

theorem moveReviewerLast_getLast {key : Text} (h : key ∈ selected.map trimmedKey) :
    ∃ p, (moveReviewerLast (some key) selected).getLast? = some p ∧ trimmedKey p = key := by
  obtain ⟨q, hq, hkey⟩ := List.mem_map.mp h
  obtain ⟨p, hp⟩ : ∃ p, selected.find? (fun p => trimmedKey p = key) = some p :=
    Option.isSome_iff_exists.mp (List.find?_isSome.mpr ⟨q, hq, by simpa using hkey⟩)
  refine ⟨p, ?_, by simpa using List.find?_some hp⟩
  simp only [moveReviewerLast, hp]
  exact List.getLast?_concat

end Pick

section CostLoop
variable {required : KeySet Text} {reviewer : Option Text} {maxCost minimum : Nat}
  {eligible selected : List ProviderCandidate}

theorem Selection.eraseRemovable (h : Selection required eligible selected) :
    Selection required eligible (selected.reverse.eraseP (removable required reviewer)).reverse := by
  have hsub : (selected.reverse.eraseP (removable required reviewer)).reverse.Sublist selected := by
    simpa using (List.eraseP_sublist (p := removable required reviewer) (l := selected.reverse)).reverse
  refine ⟨h.nodup.sublist (hsub.map _), List.Subset.trans hsub.subset h.subset, fun key hkey => ?_⟩
  obtain ⟨p, hp, rfl⟩ := List.mem_map.mp (h.required key hkey)
  refine List.mem_map.mpr ⟨p, List.mem_reverse.mpr ?_, rfl⟩
  -- a required provider is not removable, so the erased one is another
  refine (List.mem_eraseP_of_neg ?_).mpr (List.mem_reverse.mpr hp)
  simp [removable, hkey]

theorem dropOptional_selection (fuel : Nat) (h : Selection required eligible selected) :
    Selection required eligible (dropOptional required reviewer maxCost minimum fuel selected) := by
  induction fuel generalizing selected with
  | zero => exact h
  | succ fuel ih =>
    rw [dropOptional]
    split_ifs
    · exact ih h.eraseRemovable
    · exact h

theorem length_dropOptional_le (fuel : Nat) (selected : List ProviderCandidate) :
    (dropOptional required reviewer maxCost minimum fuel selected).length ≤ selected.length := by
  induction fuel generalizing selected with
  | zero => exact le_rfl
  | succ fuel ih =>
    rw [dropOptional]
    split_ifs
    · refine (ih _).trans ?_
      rw [List.length_reverse]
      exact List.length_eraseP_le.trans_eq List.length_reverse
    · exact le_rfl

end CostLoop

/-- A saturating sum is the sum, cut off at the ceiling of a `u64`. -/
theorem foldl_saturatingAdd (f : ProviderCandidate → Nat) (l : List ProviderCandidate) {total : Nat}
    (htotal : total ≤ u64Max) :
    l.foldl (fun total p => saturatingAdd total (f p)) total = min (total + (l.map f).sum) u64Max := by
  induction l generalizing total with
  | nil => simp [htotal]
  | cons p l ih =>
    have hle : saturatingAdd total (f p) ≤ u64Max := Nat.min_le_right _ _
    rw [List.foldl_cons, ih hle, List.map_cons, List.sum_cons, saturatingAdd]
    omega

theorem totalEstimatedCost_eq_min (selected : List ProviderCandidate) :
    totalEstimatedCost selected = min (selected.map ProviderCandidate.estimatedCostMicroUsd).sum u64Max := by
  have hmin := foldl_saturatingAdd ProviderCandidate.estimatedCostMicroUsd selected (Nat.zero_le u64Max)
  rw [Nat.zero_add] at hmin
  exact hmin

theorem totalEstimatedCost_eq_sum {selected : List ProviderCandidate}
    (h : totalEstimatedCost selected < u64Max) :
    totalEstimatedCost selected = (selected.map ProviderCandidate.estimatedCostMicroUsd).sum := by
  have hmin := totalEstimatedCost_eq_min selected
  omega

end AgentBridge.Policy
