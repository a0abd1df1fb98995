import AgentBridge.Policy.Reference

/-! A policy request with its lists in another order: the decision is the same, but for the order in
which it lists the excluded providers. -/

namespace AgentBridge.Policy

/-- A provider without its capabilities, which no decision shows. -/
def plain (p : ProviderCandidate) : ProviderCandidate := { p with capabilities := [] }

/-- The same provider with its capabilities in another order. -/
def Relisted (p q : ProviderCandidate) : Prop := plain p = plain q ∧ p.capabilities.Perm q.capabilities

/-- The same request with providers, required keys and capability lists in another order. -/
structure Reordered (r r' : PolicyRequest) : Prop where
  providers : ∃ l, r.providers.Perm l ∧ List.Forall₂ Relisted l r'.providers
  requiredAgentKeys : r.requiredAgentKeys.Perm r'.requiredAgentKeys
  requiredCapabilities : r.requiredCapabilities.Perm r'.requiredCapabilities
  rest : r' = { r with
    providers := r'.providers
    requiredAgentKeys := r'.requiredAgentKeys
    requiredCapabilities := r'.requiredCapabilities }

/-- The same decision, with the excluded providers in another order. -/
def SameDecision (d d' : PolicyDecision) : Prop :=
  d.excludedProviders.Perm d'.excludedProviders ∧ d' = { d with excludedProviders := d'.excludedProviders }

def SameAnswer : PolicyResult PolicyDecision → PolicyResult PolicyDecision → Prop
  | .ok d, .ok d' => SameDecision d d'
  | .error _, .error _ => True
  | _, _ => False

section Plain
variable {required : KeySet Text} {reviewer : Option Text} {maxCost minimum : Nat}

theorem requiredPart_plain (l : List ProviderCandidate) :
    requiredPart required (l.map plain) = (requiredPart required l).map plain := by
  unfold requiredPart
  rw [List.map_filterMap]
  congr 1
  funext key
  rw [List.find?_map]
  rfl

theorem optionalPart_plain (l : List ProviderCandidate) :
    optionalPart required (l.map plain) = (optionalPart required l).map plain := List.filter_map

theorem pickProviders_plain (l : List ProviderCandidate) (desired : Nat) :
    pickProviders required (l.map plain) desired = (pickProviders required l desired).map plain := by
  rw [pickProviders_eq_take, pickProviders_eq_take, requiredPart_plain, optionalPart_plain, List.map_append,
    List.map_take, List.length_map]

theorem moveReviewerLast_plain (l : List ProviderCandidate) :
    moveReviewerLast reviewer (l.map plain) = (moveReviewerLast reviewer l).map plain := by
  cases reviewer with
  | none => rfl
  | some key =>
    rw [moveReviewerLast, moveReviewerLast, List.find?_map]
    cases hfind : l.find? (fun p => trimmedKey p = key) with
    | none =>
      have hnone : l.find? ((fun p => decide (trimmedKey p = key)) ∘ plain) = none := hfind
      rw [hnone]
      rfl
    | some p =>
      have hsome : l.find? ((fun p => decide (trimmedKey p = key)) ∘ plain) = some p := hfind
      rw [hsome, List.eraseP_map]
      dsimp only [Option.map_some]
      rw [List.map_append]
      rfl

theorem totalEstimatedCost_plain (l : List ProviderCandidate) :
    totalEstimatedCost (l.map plain) = totalEstimatedCost l := List.foldl_map

theorem dropOptional_plain (fuel : Nat) (l : List ProviderCandidate) :
    dropOptional required reviewer maxCost minimum fuel (l.map plain) =
      (dropOptional required reviewer maxCost minimum fuel l).map plain := by
  induction fuel generalizing l with
  | zero => rfl
  | succ fuel ih =>
    have hany : (l.map plain).any (removable required reviewer) = l.any (removable required reviewer) := List.any_map
    have herase : ((l.map plain).reverse.eraseP (removable required reviewer)).reverse =
        (l.reverse.eraseP (removable required reviewer)).reverse.map plain := by
      rw [← List.map_reverse, List.eraseP_map, ← List.map_reverse]
      rfl
    rw [dropOptional, dropOptional, totalEstimatedCost_plain, List.length_map, hany, herase]
    split_ifs
    · exact ih _
    · rfl

theorem selectedProviders_plain (mode : WorkflowMode) (l : List ProviderCandidate) :
    Intake.selectedProviders mode (l.map plain) = Intake.selectedProviders mode l := by
  refine List.ext_getElem (by simp [Intake.selectedProviders]) fun n h₁ h₂ => ?_
  simp only [Intake.selectedProviders, List.getElem_mapIdx, List.getElem_map, List.length_map]
  rfl

theorem minimumContextTokens_plain (l : List ProviderCandidate) :
    minimumContextTokens (l.map plain) = minimumContextTokens l := by
  unfold minimumContextTokens
  rw [List.map_map]
  rfl

theorem estimatedWallClockMs_plain (request : PolicyRequest) (mode : WorkflowMode) (l : List ProviderCandidate) :
    Intake.estimatedWallClockMs request mode (l.map plain) = Intake.estimatedWallClockMs request mode l := by
  unfold Intake.estimatedWallClockMs
  rw [List.foldl_map, List.map_map]
  rfl

end Plain

/-- Intakes with the same demands, the same eligible providers up to capabilities, and the same
exclusions up to their order. -/
structure Intake.Similar (i i' : Intake) : Prop where
  eligible : i.eligible.map plain = i'.eligible.map plain
  excluded : i.excludedProviders.Perm i'.excludedProviders
  rest : i' = { i with eligible := i'.eligible, excludedProviders := i'.excludedProviders }

/-- Stages that stop with the same decision or go on alike. -/
def SameStage {α : Type} : Except PolicyDecision α → Except PolicyDecision α → Prop
  | .error d, .error d' => SameDecision d d'
  | .ok a, .ok a' => a = a'
  | _, _ => False

theorem SameStage.cases {α : Type} {x x' : Except PolicyDecision α} (h : SameStage x x') :
    (∃ d d', x = .error d ∧ x' = .error d' ∧ SameDecision d d') ∨ ∃ a, x = .ok a ∧ x' = .ok a := by
  cases x with
  | error d =>
    cases x' with
    | error d' => exact .inl ⟨d, d', rfl, rfl, h⟩
    | ok a' => exact h.elim
  | ok a =>
    cases x' with
    | error d' => exact h.elim
    | ok a' =>
      obtain rfl : a = a' := h
      exact .inr ⟨a, rfl, rfl⟩

section Similar
variable {request request' : PolicyRequest} {i i' : Intake} {c : Course}

theorem Intake.Similar.length (h : i.Similar i') : i'.eligible.length = i.eligible.length := by
  have hlen := congrArg List.length h.eligible
  rw [List.length_map, List.length_map] at hlen
  exact hlen.symm

theorem Intake.Similar.maxSelectable (h : i.Similar i') : i'.maxSelectable = i.maxSelectable := by
  unfold Intake.maxSelectable
  rw [h.length, h.rest]

theorem Intake.Similar.minimum (h : i.Similar i') (mode : WorkflowMode) : i'.minimum mode = i.minimum mode := by
  rw [h.rest]
  rfl

theorem Intake.Similar.desired (h : i.Similar i') (mode : WorkflowMode) : i'.desired mode = i.desired mode := by
  unfold Intake.desired
  rw [h.maxSelectable, h.rest]

theorem Intake.Similar.summary (h : i.Similar i') (c : Course) (missing : List Text) :
    i'.selectionSummary c missing = i.selectionSummary c missing := by
  unfold Intake.selectionSummary
  rw [h.desired, h.minimum, h.length, ← h.excluded.length_eq, h.rest]

theorem Intake.Similar.degrade (h : i.Similar i') (c : Course) (trigger : Text)
    (next : Option (WorkflowMode × CoordinationProtocol)) (human : Bool) :
    i'.degrade c trigger next human = i.degrade c trigger next human := by
  rw [h.rest]
  rfl

theorem Intake.Similar.nonExecute (h : i.Similar i')
    (hwrite : request'.requiresRepositoryWrite = request.requiresRepositoryWrite)
    (c : Course) (disposition : PolicyDisposition) (text : Text) (missing : List Text) :
    SameDecision (i.nonExecuteDecision request c disposition text missing)
      (i'.nonExecuteDecision request' c disposition text missing) := by
  refine ⟨h.excluded, ?_⟩
  unfold Intake.nonExecuteDecision
  rw [h.summary, hwrite, h.rest]

theorem Intake.Similar.checkRequired (h : i.Similar i')
    (hwrite : request'.requiresRepositoryWrite = request.requiresRepositoryWrite)
    (c : Course) : SameStage (i.checkRequired request c) (i'.checkRequired request' c) := by
  have hmissing : i'.missingRequiredAgentKeys = i.missingRequiredAgentKeys := by rw [h.rest]
  have hbehavior : i'.degradationBehavior = i.degradationBehavior := by rw [h.rest]
  unfold Intake.checkRequired
  rw [hmissing, hbehavior]
  by_cases hnil : i.missingRequiredAgentKeys = []
  · rw [if_pos hnil, if_pos hnil]
    rfl
  · rw [if_neg hnil, if_neg hnil]
    dsimp only
    rw [h.degrade]
    exact h.nonExecute hwrite _ _ _ _

theorem Intake.Similar.resolveShortage (h : i.Similar i')
    (hwrite : request'.requiresRepositoryWrite = request.requiresRepositoryWrite)
    (c : Course) : SameStage (i.resolveShortage request c) (i'.resolveShortage request' c) := by
  have hbehavior : i'.degradationBehavior = i.degradationBehavior := by rw [h.rest]
  unfold Intake.resolveShortage
  rw [hbehavior, h.minimum, h.desired, h.maxSelectable]
  dsimp only
  cases i.degradationBehavior with
  | failClosed =>
    dsimp only
    rw [h.degrade]
    exact h.nonExecute hwrite _ _ _ _
  | queueUntilRequiredProvidersAreAvailable =>
    dsimp only
    rw [h.degrade]
    exact h.nonExecute hwrite _ _ _ _
  | fallbackToSingleWithHumanApproval =>
    dsimp only
    split_ifs
    · exact h.nonExecute hwrite _ _ _ _
    · rw [h.degrade]
      rfl
  | reduceProviderCount =>
    dsimp only
    cases highestFeasibleMode i.maxSelectable with
    | none => exact h.nonExecute hwrite _ _ _ _
    | some feasible =>
      dsimp only
      rw [h.degrade]
      rfl

theorem Intake.Similar.afterShortage (h : i.Similar i')
    (hwrite : request'.requiresRepositoryWrite = request.requiresRepositoryWrite)
    (c : Course) : SameStage (i.afterShortage request c) (i'.afterShortage request' c) := by
  unfold Intake.afterShortage
  rw [h.desired, h.minimum]
  split_ifs
  · exact h.resolveShortage hwrite c
  · rfl

theorem Intake.Similar.settle (h : i.Similar i')
    (hwrite : request'.requiresRepositoryWrite = request.requiresRepositoryWrite)
    (c : Course) : SameStage (i.settle request c) (i'.settle request' c) := by
  unfold Intake.settle
  rcases (h.afterShortage hwrite c).cases with ⟨d, d', hc, hc', hsame⟩ | ⟨c₁, hc, hc'⟩
  · rw [hc, hc']
    exact hsame
  · rw [hc, hc']
    change SameStage (if i.desired c₁.mode < i.minimum c₁.mode then _ else _)
      (if i'.desired c₁.mode < i'.minimum c₁.mode then _ else _)
    rw [h.desired, h.minimum]
    split_ifs
    · exact h.nonExecute hwrite _ _ _ _
    · rfl

theorem Intake.Similar.pick (h : i.Similar i') (c : Course) : (i'.pick c).map plain = (i.pick c).map plain := by
  have hreviewer : i'.requiredReviewerAgentKey = i.requiredReviewerAgentKey := by rw [h.rest]
  have hrequired : i'.requiredSelection = i.requiredSelection := by rw [h.rest]
  unfold Intake.pick
  rw [h.desired, hreviewer, hrequired, ← moveReviewerLast_plain, ← moveReviewerLast_plain, ← pickProviders_plain,
    ← pickProviders_plain, h.eligible]

theorem Intake.Similar.reduced (h : i.Similar i') (c : Course) :
    (i'.reduced c).map plain = (i.reduced c).map plain := by
  have hpick := h.pick c
  have hlen := congrArg List.length hpick
  rw [List.length_map, List.length_map] at hlen
  have hreviewer : i'.requiredReviewerAgentKey = i.requiredReviewerAgentKey := by rw [h.rest]
  have hrequired : i'.requiredSelection = i.requiredSelection := by rw [h.rest]
  have hbudget : i'.budget = i.budget := by rw [h.rest]
  have hbehavior : i'.degradationBehavior = i.degradationBehavior := by rw [h.rest]
  unfold Intake.reduced
  dsimp only
  rw [hbehavior, hreviewer, hrequired, hbudget, h.minimum, hlen]
  split_ifs
  · rw [← dropOptional_plain, ← dropOptional_plain, hpick]
  · exact hpick

theorem Intake.Similar.length_reduced (h : i.Similar i') (c : Course) :
    (i'.reduced c).length = (i.reduced c).length := by
  have hlen := congrArg List.length (h.reduced c)
  rwa [List.length_map, List.length_map] at hlen

theorem Intake.Similar.noteReduction (h : i.Similar i') (c : Course) : i'.noteReduction c = i.noteReduction c := by
  have hlen := congrArg List.length (h.pick c)
  rw [List.length_map, List.length_map] at hlen
  unfold Intake.noteReduction
  rw [h.length_reduced, hlen]

theorem Intake.Similar.cost (h : i.Similar i') (c : Course) :
    totalEstimatedCost (i'.reduced c) = totalEstimatedCost (i.reduced c) := by
  rw [← totalEstimatedCost_plain, h.reduced, totalEstimatedCost_plain]

theorem Intake.Similar.allow (h : i.Similar i')
    (hwrite : request'.requiresRepositoryWrite = request.requiresRepositoryWrite)
    (hduration : request'.expectedDurationMs = request.expectedDurationMs) (c c' : Course) :
    SameDecision (i.allow request c' (i.reduced c)) (i'.allow request' c' (i'.reduced c)) := by
  have hbudget : i'.budget = i.budget := by rw [h.rest]
  have hbehavior : i'.degradationBehavior = i.degradationBehavior := by rw [h.rest]
  have hselected : Intake.selectedProviders c'.mode (i'.reduced c) =
      Intake.selectedProviders c'.mode (i.reduced c) := by
    rw [← selectedProviders_plain, h.reduced, selectedProviders_plain]
  have htokens : minimumContextTokens (i'.reduced c) = minimumContextTokens (i.reduced c) := by
    rw [← minimumContextTokens_plain, h.reduced, minimumContextTokens_plain]
  have hclock : Intake.estimatedWallClockMs request' c'.mode (i'.reduced c) =
      Intake.estimatedWallClockMs request c'.mode (i.reduced c) := by
    rw [← estimatedWallClockMs_plain, h.reduced, estimatedWallClockMs_plain]
    unfold Intake.estimatedWallClockMs
    rw [hduration]
  refine ⟨h.excluded, ?_⟩
  unfold Intake.allow
  rw [h.summary, h.length_reduced, h.cost, hselected, htokens, hclock, hwrite, hbudget, hbehavior]

theorem Intake.Similar.conclude (h : i.Similar i')
    (hwrite : request'.requiresRepositoryWrite = request.requiresRepositoryWrite)
    (hduration : request'.expectedDurationMs = request.expectedDurationMs) (c : Course) :
    SameDecision (i.conclude request c) (i'.conclude request' c) := by
  have hbudget : i'.budget = i.budget := by rw [h.rest]
  unfold Intake.conclude
  dsimp only
  rw [h.length_reduced, h.noteReduction, h.minimum, h.cost, hduration, hbudget]
  split_ifs
  · exact h.nonExecute hwrite _ _ _ _
  · exact h.nonExecute hwrite _ _ _ _
  · exact h.allow hwrite hduration c _

theorem Intake.Similar.decision (h : i.Similar i')
    (hwrite : request'.requiresRepositoryWrite = request.requiresRepositoryWrite)
    (hduration : request'.expectedDurationMs = request.expectedDurationMs) :
    SameDecision (i.decision request) (i'.decision request') := by
  have hcourse : i'.course = i.course := by
    rw [h.rest]
    rfl
  unfold Intake.decision
  rw [hcourse]
  rcases (h.checkRequired hwrite i.course).cases with ⟨d, d', hc, hc', hsame⟩ | ⟨u, hc, hc'⟩
  · rw [hc, hc']
    exact hsame
  · rw [hc, hc']
    dsimp only
    rcases (h.settle hwrite i.course).cases with ⟨d, d', hs, hs', hsame⟩ | ⟨c, hs, hs'⟩
    · rw [hs, hs']
      exact hsame
    · rw [hs, hs']
      exact h.conclude hwrite hduration c

end Similar

section Normalize
variable {values values' : List Text} {s : KeySet Text}

theorem normalizeCapabilities_perm (hperm : values.Perm values') (h : normalizeCapabilities values = .ok s) :
    normalizeCapabilities values' = .ok s := by
  obtain ⟨hcount, hprintable⟩ := normalizeCapabilities_isOk.mp ⟨s, h⟩
  obtain ⟨t, ht⟩ := (@normalizeCapabilities_isOk values').mpr
    ⟨hperm.length_eq ▸ hcount, fun value hvalue => hprintable value (hperm.mem_iff.mpr hvalue)⟩
  have hsame : t = s := by
    refine KeySet.eq_of_sorted (insertCapabilities_sorted List.Pairwise.nil (Except.check_eq_ok.mp ht).2)
      (insertCapabilities_sorted List.Pairwise.nil (Except.check_eq_ok.mp h).2) fun c => ?_
    rw [mem_normalizeCapabilities ht, mem_normalizeCapabilities h]
    simp only [hperm.mem_iff]
  exact hsame ▸ ht

theorem normalizeAgentKeys_perm (hperm : values.Perm values') (h : normalizeAgentKeys values = .ok s) :
    normalizeAgentKeys values' = .ok s := by
  obtain ⟨hnodup, hprintable⟩ := normalizeAgentKeys_isOk.mp ⟨s, h⟩
  obtain ⟨t, ht⟩ := (@normalizeAgentKeys_isOk values').mpr
    ⟨(hperm.map _).nodup_iff.mp hnodup, fun value hvalue => hprintable value (hperm.mem_iff.mpr hvalue)⟩
  have hsame : t = s := by
    refine KeySet.eq_of_sorted (insertAgentKeys_sorted List.Pairwise.nil ht)
      (insertAgentKeys_sorted List.Pairwise.nil h) fun key => ?_
    rw [mem_normalizeAgentKeys ht, mem_normalizeAgentKeys h]
    simp only [hperm.mem_iff]
  exact hsame ▸ ht

end Normalize

/-- What validation asks of a request, whatever the order of its lists. -/
structure ValidRequest (request : PolicyRequest) : Prop where
  nonempty : request.providers ≠ []
  providers : request.providers.length ≤ maxProviderCandidates
  required : request.requiredAgentKeys.length ≤ maxRequiredProviderKeys
  capabilities : request.requiredCapabilities.length ≤ maxCapabilities
  keys : ∃ keys, normalizeAgentKeys request.requiredAgentKeys = .ok keys
  reviewer : ∃ reviewer, request.requiredReviewerAgentKey.mapM normalizeAgentKey = .ok reviewer
  distinct : (request.providers.map trimmedKey).Nodup
  acceptable : ∀ p ∈ request.providers, ProviderAcceptable p
  present : ∀ key, Required request key → ∃ p ∈ request.providers, trimmedKey p = key

theorem validateRequest_iff {request : PolicyRequest} : validateRequest request = .ok () ↔ ValidRequest request := by
  unfold validateRequest
  simp only [Except.check_eq_ok, Except.bind_eq_ok, List.isEmpty_iff, Nat.not_lt, gt_iff_lt]
  constructor
  · rintro ⟨hne, hproviders, hrequired, hcapabilities, keys, hkeys, reviewer, hreviewer, seen, hseen, _, hpresent,
      hlast⟩
    obtain ⟨hdistinct, hall⟩ := validateProviders_isOk.mp ⟨seen, hseen⟩
    refine ⟨hne, hproviders, hrequired, hcapabilities, ⟨keys, hkeys⟩, ⟨reviewer, hreviewer⟩, hdistinct,
      fun p hp => (hall p hp).2, ?_⟩
    have hmem {key : Text} (hkey : key ∈ seen) : ∃ p ∈ request.providers, trimmedKey p = key := by
      rcases (mem_validateProviders hseen).mp hkey with hempty | h
      · exact absurd hempty KeySet.not_mem_empty
      · exact h
    rintro key (hkey | ⟨value, hvalue, rfl⟩)
    · exact hmem (requirePresent_eq_ok.mp hpresent key ((mem_normalizeAgentKeys hkeys).mpr hkey))
    · refine hmem (requirePresent_eq_ok.mp hlast _ ?_)
      rw [mapM_normalizeAgentKey hreviewer, hvalue]
      exact List.mem_singleton.mpr rfl
  · rintro ⟨hne, hproviders, hrequired, hcapabilities, ⟨keys, hkeys⟩, ⟨reviewer, hreviewer⟩, hdistinct, hacceptable,
      hpresent⟩
    obtain ⟨seen, hseen⟩ := (@validateProviders_isOk request.providers .empty).mpr
      ⟨hdistinct, fun p hp => ⟨KeySet.not_mem_empty, hacceptable p hp⟩⟩
    have hmem {key : Text} (hkey : Required request key) : key ∈ seen :=
      (mem_validateProviders hseen).mpr (.inr (hpresent key hkey))
    refine ⟨hne, hproviders, hrequired, hcapabilities, keys, hkeys, reviewer, hreviewer, seen, hseen, (), ?_, ?_⟩
    · exact requirePresent_eq_ok.mpr fun key hkey => hmem (.inl ((mem_normalizeAgentKeys hkeys).mp hkey))
    · refine requirePresent_eq_ok.mpr fun key hkey => hmem (.inr ?_)
      rw [mapM_normalizeAgentKey hreviewer, Option.mem_toList, Option.map_eq_some_iff] at hkey
      exact hkey

section Relisted
variable {p q : ProviderCandidate} {l l' : List ProviderCandidate} {required : KeySet Text}
  {sensitivity : DataSensitivity}

theorem Relisted.symm (h : Relisted p q) : Relisted q p := ⟨h.1.symm, h.2.symm⟩

theorem Relisted.eq (h : Relisted p q) : q = { p with capabilities := q.capabilities } := by
  obtain ⟨hplain, -⟩ := h
  cases p
  cases q
  simp only [plain, ProviderCandidate.mk.injEq] at hplain
  simp only [ProviderCandidate.mk.injEq]
  tauto

theorem Relisted.acceptable (h : Relisted p q) (hp : ProviderAcceptable p) : ProviderAcceptable q := by
  have hperm := h.2
  rw [h.eq]
  exact ⟨hp.key, hp.model, hp.quality, hp.health, hp.errorRate, hperm.length_eq ▸ hp.count,
    fun value hvalue => hp.capabilities value (hperm.mem_iff.mpr hvalue)⟩

theorem Relisted.exclusionReason (h : Relisted p q) (hp : ProviderAcceptable p) :
    Policy.exclusionReason q required sensitivity = Policy.exclusionReason p required sensitivity := by
  obtain ⟨caps, hcaps⟩ := normalizeCapabilities_isOk.mpr ⟨hp.count, hp.capabilities⟩
  have hcaps' := normalizeCapabilities_perm h.2 hcaps
  have hunsuited : unsuitedReason q required sensitivity = unsuitedReason p required sensitivity := by
    unfold unsuitedReason
    rw [hcaps, hcaps', h.eq]
  unfold Policy.exclusionReason
  rw [hunsuited, h.eq]

/-- The outcome of `exclusion_reason` where it does not fail. -/
def exclusion (required : KeySet Text) (sensitivity : DataSensitivity) (p : ProviderCandidate) :
    Option ProviderExclusionReason :=
  (exclusionReason p required sensitivity).toOption.getD none

theorem exclusionReason_eq (hp : ProviderAcceptable p) :
    Policy.exclusionReason p required sensitivity = .ok (exclusion required sensitivity p) := by
  have hunsuited : ∃ r, unsuitedReason p required sensitivity = .ok r := by
    obtain ⟨caps, hcaps⟩ := normalizeCapabilities_isOk.mpr ⟨hp.count, hp.capabilities⟩
    unfold unsuitedReason
    rw [hcaps]
    split_ifs
    · exact ⟨_, rfl⟩
    · by_cases hall : ∀ c ∈ required.keys, c ∈ caps
      · exact ⟨none, if_pos hall⟩
      · exact ⟨some .missingCapability, if_neg hall⟩
  have hok : ∃ r, Policy.exclusionReason p required sensitivity = .ok r := by
    unfold Policy.exclusionReason
    split_ifs
    · exact ⟨_, rfl⟩
    · cases p.availability with
      | available => exact hunsuited
      | degraded => exact hunsuited
      | outage => exact ⟨_, rfl⟩
      | disabled => exact ⟨_, rfl⟩
  obtain ⟨r, hr⟩ := hok
  rw [exclusion, hr]
  rfl

def exclusions (required : KeySet Text) (sensitivity : DataSensitivity) (l : List ProviderCandidate) :
    List ProviderExclusion :=
  l.filterMap fun p => (exclusion required sensitivity p).map fun r => { agentKey := trimmedKey p, reason := r }

def eligibles (required : KeySet Text) (sensitivity : DataSensitivity) (l : List ProviderCandidate) :
    List ProviderCandidate :=
  l.filter fun p => (exclusion required sensitivity p).isNone

theorem partitionProviders_eq (h : ∀ p ∈ l, ProviderAcceptable p) : partitionProviders required sensitivity l =
    .ok (eligibles required sensitivity l, exclusions required sensitivity l) := by
  induction l with
  | nil => rfl
  | cons p l ih =>
    obtain ⟨hp, hrest⟩ := List.forall_mem_cons.mp h
    rw [partitionProviders, exclusionReason_eq hp, ih hrest]
    cases hr : exclusion required sensitivity p with
    | none => simp [eligibles, exclusions, hr, Bind.bind, Except.bind, Pure.pure, Except.pure]
    | some r => simp [eligibles, exclusions, hr, Bind.bind, Except.bind, Pure.pure, Except.pure, trimmedKey]

theorem exclusion_relisted (h : Relisted p q) (hp : ProviderAcceptable p) :
    exclusion required sensitivity q = exclusion required sensitivity p := by
  unfold exclusion
  rw [h.exclusionReason hp]

theorem trimmedKey_relisted (h : Relisted p q) : trimmedKey q = trimmedKey p := by
  rw [h.eq]
  rfl

theorem relisted_lists (h : List.Forall₂ Relisted l l') (hl : ∀ p ∈ l, ProviderAcceptable p) :
    (eligibles required sensitivity l').map plain = (eligibles required sensitivity l).map plain ∧
      exclusions required sensitivity l' = exclusions required sensitivity l := by
  induction h with
  | nil => exact ⟨rfl, rfl⟩
  | @cons p q l l' hpq _ ih =>
    obtain ⟨hp, hrest⟩ := List.forall_mem_cons.mp hl
    obtain ⟨heligible, hexcluded⟩ := ih hrest
    have hsame : exclusion required sensitivity q = exclusion required sensitivity p := exclusion_relisted hpq hp
    unfold eligibles at heligible ⊢
    unfold exclusions at hexcluded ⊢
    rw [List.filter_cons, List.filter_cons, List.filterMap_cons, List.filterMap_cons, hsame, hexcluded,
      trimmedKey_relisted hpq]
    refine ⟨?_, rfl⟩
    split_ifs
    · rw [List.map_cons, List.map_cons, heligible, hpq.1]
    · exact heligible

theorem rankProviders_plain (l : List ProviderCandidate) : rankProviders (l.map plain) = (rankProviders l).map plain :=
  (List.map_insertionSort _ _ plain l fun _ _ _ _ => Iff.rfl).symm

theorem rankProviders_perm (hdistinct : (l.map trimmedKey).Nodup) (h : l.Perm l') :
    rankProviders l = rankProviders l' := by
  have hrank : (rankProviders l').Perm l' := List.perm_insertionSort _ _
  refine rankProviders_eq_of_sublist ?_ (pairwise_rankProviders l') (List.Sublist.refl _) (h.trans hrank.symm)
  exact (((hrank.trans h.symm).map _).nodup_iff).mpr hdistinct

end Relisted

section Reordered
variable {r r' : PolicyRequest} {i : Intake}

theorem Relisted.forall₂_symm {l l' : List ProviderCandidate} (h : List.Forall₂ Relisted l l') :
    List.Forall₂ Relisted l' l := by
  induction h with
  | nil => exact .nil
  | cons hpq _ ih => exact .cons hpq.symm ih

theorem Relisted.exists_perm {l m m' : List ProviderCandidate} (h : List.Forall₂ Relisted m m') (hperm : l.Perm m) :
    ∃ l', l'.Perm m' ∧ List.Forall₂ Relisted l l' := by
  obtain ⟨l', hl, hl'⟩ := List.perm_comp_forall₂ hperm h
  exact ⟨l', hl', hl⟩

theorem Reordered.symm (h : Reordered r r') : Reordered r' r := by
  obtain ⟨l, hperm, hlists⟩ := h.providers
  obtain ⟨l', hl', hback⟩ := Relisted.exists_perm hlists hperm
  refine ⟨⟨l', hl'.symm, Relisted.forall₂_symm hback⟩, h.requiredAgentKeys.symm, h.requiredCapabilities.symm, ?_⟩
  rw [h.rest]

theorem Relisted.exists_of_mem {l l' : List ProviderCandidate} (h : List.Forall₂ Relisted l l') {q : ProviderCandidate}
    (hq : q ∈ l') : ∃ p ∈ l, Relisted p q := by
  induction h with
  | nil => cases hq
  | @cons p q' l l' hpq _ ih =>
    rcases List.mem_cons.mp hq with rfl | hq
    · exact ⟨p, List.mem_cons_self, hpq⟩
    · obtain ⟨p', hp', hrel⟩ := ih hq
      exact ⟨p', List.mem_cons_of_mem _ hp', hrel⟩

theorem Relisted.map_trimmedKey {l l' : List ProviderCandidate} (h : List.Forall₂ Relisted l l') :
    l'.map trimmedKey = l.map trimmedKey := by
  induction h with
  | nil => rfl
  | cons hpq _ ih => rw [List.map_cons, List.map_cons, ih, trimmedKey_relisted hpq]

theorem Reordered.required_iff (h : Reordered r r') (key : Text) : Required r' key ↔ Required r key := by
  unfold Required
  rw [h.rest]
  simp only [h.requiredAgentKeys.mem_iff]

theorem Reordered.valid (h : Reordered r r') (hr : ValidRequest r) : ValidRequest r' := by
  obtain ⟨l, hperm, hlists⟩ := h.providers
  have hlength : r'.providers.length = r.providers.length := hlists.length_eq.symm.trans hperm.length_eq.symm
  have hkeys : (r'.providers.map trimmedKey).Perm (r.providers.map trimmedKey) := by
    rw [Relisted.map_trimmedKey hlists]
    exact (hperm.map _).symm
  obtain ⟨keys, hnormal⟩ := hr.keys
  refine ⟨?_, hlength ▸ hr.providers, h.requiredAgentKeys.length_eq ▸ hr.required,
    h.requiredCapabilities.length_eq ▸ hr.capabilities, ⟨keys, normalizeAgentKeys_perm h.requiredAgentKeys hnormal⟩,
    ?_, hkeys.nodup_iff.mpr hr.distinct, ?_, ?_⟩
  · intro hnil
    rw [hnil, List.length_nil] at hlength
    exact hr.nonempty (List.length_eq_zero_iff.mp hlength.symm)
  · rw [h.rest]
    exact hr.reviewer
  · intro q hq
    obtain ⟨p, hp, hpq⟩ := Relisted.exists_of_mem hlists hq
    exact hpq.acceptable (hr.acceptable p (hperm.mem_iff.mpr hp))
  · intro key hkey
    obtain ⟨p, hp, rfl⟩ := hr.present key ((h.required_iff key).mp hkey)
    exact List.mem_map.mp (hkeys.mem_iff.mpr (List.mem_map_of_mem hp))

theorem intake_reordered (h : Reordered r r') (hi : intake r = .ok i) : ∃ i', intake r' = .ok i' ∧ i.Similar i' := by
  unfold intake at hi
  simp only [Except.bind_eq_ok] at hi
  obtain ⟨⟨⟩, hvalid, caps, hcaps, keys, hkeys, reviewer, hreviewer, ⟨eligible, excluded⟩, hpart, hi⟩ := hi
  cases hi
  have hr := validateRequest_iff.mp hvalid
  have hr' := h.valid hr
  obtain ⟨l, hperm, hlists⟩ := h.providers
  have hl : ∀ p ∈ l, ProviderAcceptable p := fun p hp => hr.acceptable p (hperm.mem_iff.mpr hp)
  rw [partitionProviders_eq hr.acceptable] at hpart
  cases hpart
  have hsensitivity : r'.dataSensitivity = r.dataSensitivity := by rw [h.rest]
  have hreviewer' : r'.requiredReviewerAgentKey = r.requiredReviewerAgentKey := by rw [h.rest]
  obtain ⟨heligible, hexcluded⟩ := @relisted_lists _ _ caps r.dataSensitivity hlists hl
  have hpart' := @partitionProviders_eq _ caps r'.dataSensitivity hr'.acceptable
  rw [hsensitivity] at hpart'
  -- the rankings agree, as the eligible providers do up to their order and their capability lists
  have hranked : (rankProviders (eligibles caps r.dataSensitivity r'.providers)).map plain =
      (rankProviders (eligibles caps r.dataSensitivity r.providers)).map plain := by
    have hsub : (eligibles caps r.dataSensitivity r.providers).Sublist r.providers := List.filter_sublist
    have hsame : ((eligibles caps r.dataSensitivity r.providers).map plain).Perm
        ((eligibles caps r.dataSensitivity r'.providers).map plain) := by
      rw [heligible]
      exact (hperm.filter _).map plain
    rw [← rankProviders_plain, ← rankProviders_plain]
    refine (rankProviders_perm ?_ hsame).symm
    rw [List.map_map]
    exact hr.distinct.sublist (hsub.map _)
  have hmissing : (rankProviders (eligibles caps r.dataSensitivity r'.providers)).map trimmedKey =
      (rankProviders (eligibles caps r.dataSensitivity r.providers)).map trimmedKey := by
    have hmap := congrArg (List.map trimmedKey) hranked
    rwa [List.map_map, List.map_map] at hmap
  refine ⟨.of r' (effectiveRisk r' caps) reviewer (reviewer.elim keys keys.insert)
    (eligibles caps r.dataSensitivity r'.providers) (exclusions caps r.dataSensitivity r'.providers), ?_, ?_⟩
  · unfold intake
    simp only [Except.bind_eq_ok]
    refine ⟨(), validateRequest_iff.mpr hr', caps, normalizeCapabilities_perm h.requiredCapabilities hcaps, keys,
      normalizeAgentKeys_perm h.requiredAgentKeys hkeys, reviewer, hreviewer'.symm ▸ hreviewer,
      (eligibles caps r.dataSensitivity r'.providers, exclusions caps r.dataSensitivity r'.providers), ?_, rfl⟩
    rw [hsensitivity]
    exact hpart'
  · refine ⟨hranked.symm, ?_, ?_⟩
    · change (exclusions caps r.dataSensitivity r.providers).Perm (exclusions caps r.dataSensitivity r'.providers)
      rw [hexcluded]
      exact hperm.filterMap _
    · unfold Intake.of
      rw [hmissing, h.rest]
      rfl

theorem evaluate_reordered (h : Reordered r r') : SameAnswer (evaluate r) (evaluate r') := by
  have hwrite : r'.requiresRepositoryWrite = r.requiresRepositoryWrite := by rw [h.rest]
  have hduration : r'.expectedDurationMs = r.expectedDurationMs := by rw [h.rest]
  cases hi : intake r with
  | ok i =>
    obtain ⟨i', hi', hsimilar⟩ := intake_reordered h hi
    unfold evaluate
    rw [hi, hi']
    exact hsimilar.decision hwrite hduration
  | error e =>
    cases hi' : intake r' with
    | ok i' =>
      -- the other way round the reading would succeed as well
      obtain ⟨i, hback, -⟩ := intake_reordered h.symm hi'
      rw [hi] at hback
      cases hback
    | error e' =>
      unfold evaluate
      rw [hi, hi']
      trivial

end Reordered

/-- The providers of an allowed decision are those of the reference definition, and a request in another
order has the same answer. -/
theorem selection_reference (request : PolicyRequest) :
    (∀ d, evaluate request = .ok d → d.allowed = true →
      ∃ needed others k, ReferenceSelection request d needed others k) ∧
    ∀ request', Reordered request request' → SameAnswer (evaluate request) (evaluate request') := by
  refine ⟨?_, fun request' h => evaluate_reordered h⟩
  intro d hd hallowed
  obtain ⟨i, hi, he⟩ := Except.bind_eq_ok.mp hd
  cases he
  obtain ⟨c, hal⟩ := decision_allows hallowed
  exact reference_of_allows hi hal

def reversedRequest : PolicyRequest :=
  { reviewedRequest with providers := reviewedRequest.providers.reverse }

theorem reversedRequest_reordered : Reordered reviewedRequest reversedRequest where
  providers := ⟨_, (List.reverse_perm _).symm, List.forall₂_same.mpr fun _ _ => ⟨rfl, List.Perm.refl _⟩⟩
  requiredAgentKeys := List.Perm.refl _
  requiredCapabilities := List.Perm.refl _
  rest := rfl

theorem selection_reference_reviewed : ∃ d needed others k, evaluate reviewedRequest = .ok d ∧
    ReferenceSelection reviewedRequest d needed others k ∧
      SameAnswer (evaluate reviewedRequest) (evaluate reversedRequest) := by
  have hdecision : (evaluate reviewedRequest).toOption.map PolicyDecision.allowed = some true := by decide +kernel
  obtain ⟨d, hd, hallowed⟩ := Except.toOption_map_eq_some.mp hdecision
  obtain ⟨hselected, hreordered⟩ := selection_reference reviewedRequest
  obtain ⟨needed, others, k, hreference⟩ := hselected d hd hallowed
  exact ⟨d, needed, others, k, hd, hreference, hreordered reversedRequest reversedRequest_reordered⟩

end AgentBridge.Policy
