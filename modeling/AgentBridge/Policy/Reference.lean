import AgentBridge.Policy.Readmission
import Mathlib.Order.Bounds.Basic

/-! Provider selection by its reference definition: the required providers, and of the others a
prefix of their ranking whose length the mode, the budget and the costs determine. -/

namespace AgentBridge.Policy

/-- The ranking: available first, then high quality and health, then low error rate, latency, cost and key. -/
def Before (p q : ProviderCandidate) : Prop :=
  p.availability.rank < q.availability.rank ∨ p.availability.rank = q.availability.rank ∧
  (q.historicalQualityBps < p.historicalQualityBps ∨ p.historicalQualityBps = q.historicalQualityBps ∧
  (q.healthScoreBps < p.healthScoreBps ∨ p.healthScoreBps = q.healthScoreBps ∧
  (p.recentErrorRateBps < q.recentErrorRateBps ∨ p.recentErrorRateBps = q.recentErrorRateBps ∧
  (p.p95LatencyMs < q.p95LatencyMs ∨ p.p95LatencyMs = q.p95LatencyMs ∧
  (p.estimatedCostMicroUsd < q.estimatedCostMicroUsd ∨ p.estimatedCostMicroUsd = q.estimatedCostMicroUsd ∧
  p.agentKey < q.agentKey)))))

def Required (request : PolicyRequest) (key : Text) : Prop :=
  (∃ value ∈ request.requiredAgentKeys, Text.trim value = key) ∨
    ∃ value ∈ request.requiredReviewerAgentKey, Text.trim value = key

def estimatedCosts (providers : List ProviderCandidate) : Nat :=
  (providers.map ProviderCandidate.estimatedCostMicroUsd).sum

/-- How many providers a mode asks for, of those that are there and within the budget. -/
def desiredCount (mode : WorkflowMode) (maxProviders eligible required : Nat) : Nat :=
  min (max (desiredProviderCount mode (min maxProviders eligible)) required) (min maxProviders eligible)

def movedLast (reviewer : Option Text) (keys : List Text) : List Text :=
  match reviewer with
  | none => keys
  | some key => keys.erase key ++ [key]

/-- The selection of a request by its definition: the required providers in key order, then `k` of the
others in their ranking. -/
structure Reference (request : PolicyRequest) (mode : WorkflowMode) (budget : BudgetLimits)
    (behavior : DegradationBehavior) (needed others : List ProviderCandidate) (k : Nat) : Prop where
  keyOrder : (needed.map trimmedKey).Pairwise (· < ·)
  required : ∀ p, p ∈ needed ↔ p ∈ request.providers ∧ Required request (trimmedKey p)
  present : ∀ key, Required request key → key ∈ needed.map trimmedKey
  eligible : ∀ p ∈ needed, Eligible request p
  ranked : others.Pairwise Before
  optional : ∀ p, p ∈ others ↔ p ∈ request.providers ∧ Eligible request p ∧ ¬ Required request (trimmedKey p)
  full : behavior ≠ .reduceProviderCount → k =
    desiredCount mode budget.maxProviders (needed.length + others.length) needed.length - needed.length
  reduced : behavior = .reduceProviderCount → IsGreatest { k | k ≤
      desiredCount mode budget.maxProviders (needed.length + others.length) needed.length - needed.length ∧
      minimumProviderCount mode ≤ needed.length + k ∧
      estimatedCosts (needed ++ others.take k) ≤ budget.maxCostMicroUsd } k

/-- The providers of a decision are the selection of its request, the required reviewer moved last. -/
structure ReferenceSelection (request : PolicyRequest) (d : PolicyDecision) (needed others : List ProviderCandidate)
    (k : Nat) : Prop extends Reference request d.mode d.budget d.degradationBehavior needed others k where
  selected : d.selectedProviders.map SelectedProvider.agentKey =
    movedLast (request.requiredReviewerAgentKey.map Text.trim) ((needed ++ others.take k).map trimmedKey)

section Order
variable {p q : ProviderCandidate}

theorem compareText_eq_lt {a b : Text} : compareText a b = .lt ↔ a < b := by
  unfold compareText
  split_ifs with h
  · simp [h]
  · simp [h]
  · simp [h]

theorem compareProviders_eq_lt (hp : ProviderAcceptable p) (hq : ProviderAcceptable q) :
    compareProviders p q = .lt ↔ Before p q := by
  unfold compareProviders Before
  rw [Nat.min_eq_left hp.quality, Nat.min_eq_left hq.quality, Nat.min_eq_left hp.health, Nat.min_eq_left hq.health,
    Nat.min_eq_left hp.errorRate, Nat.min_eq_left hq.errorRate]
  simp only [Ordering.then_eq_lt, Nat.compare_eq_lt, Nat.compare_eq_eq, compareText_eq_lt]
  rw [@eq_comm _ q.historicalQualityBps, @eq_comm _ q.healthScoreBps]

theorem before_of_ranked (hp : ProviderAcceptable p) (hq : ProviderAcceptable q) (h : Ranked p q)
    (hne : trimmedKey p ≠ trimmedKey q) : Before p q := by
  rw [← compareProviders_eq_lt hp hq]
  cases hc : compareProviders p q with
  | lt => rfl
  | gt => exact absurd hc h
  | eq =>
    have hback : Ranked q p := by
      rw [Ranked, @Std.OrientedCmp.eq_swap _ compareProviders, hc]
      rintro ⟨⟩
    exact absurd (congrArg Text.trim (agentKey_eq_of_ranked h hback)) hne

theorem before_asymm (h : Before p q) (h' : Before q p) : False := by
  have hkeys := @lt_asymm _ _ p.agentKey q.agentKey
  grind [Before]

theorem Reference.lists_eq {request : PolicyRequest} {mode mode' : WorkflowMode} {budget budget' : BudgetLimits}
    {behavior behavior' : DegradationBehavior} {needed needed' others others' : List ProviderCandidate} {k k' : Nat}
    (h : Reference request mode budget behavior needed others k)
    (h' : Reference request mode' budget' behavior' needed' others' k') : needed = needed' ∧ others = others' := by
  constructor
  · have hnodup {l : List ProviderCandidate} (hl : (l.map trimmedKey).Pairwise (· < ·)) : l.Nodup :=
      List.Nodup.of_map _ (hl.imp ne_of_lt)
    refine List.Perm.eq_of_pairwise (fun p q _ _ hpq hqp => absurd hpq (lt_asymm hqp))
      (List.pairwise_map.mp h.keyOrder) (List.pairwise_map.mp h'.keyOrder) ?_
    refine (List.perm_ext_iff_of_nodup (hnodup h.keyOrder) (hnodup h'.keyOrder)).mpr fun p => ?_
    rw [h.required, h'.required]
  · have hnodup {l : List ProviderCandidate} (hl : l.Pairwise Before) : l.Nodup := by
      refine hl.imp ?_
      rintro p q hpq rfl
      exact before_asymm hpq hpq
    refine List.Perm.eq_of_pairwise (fun p q _ _ hpq hqp => (before_asymm hpq hqp).elim) h.ranked h'.ranked ?_
    refine (List.perm_ext_iff_of_nodup (hnodup h.ranked) (hnodup h'.ranked)).mpr fun p => ?_
    rw [h.optional, h'.optional]

theorem Reference.unique {request : PolicyRequest} {mode : WorkflowMode} {budget : BudgetLimits}
    {behavior : DegradationBehavior} {needed needed' others others' : List ProviderCandidate} {k k' : Nat}
    (h : Reference request mode budget behavior needed others k)
    (h' : Reference request mode budget behavior needed' others' k') :
    needed = needed' ∧ others = others' ∧ k = k' := by
  obtain ⟨rfl, rfl⟩ := h.lists_eq h'
  refine ⟨rfl, rfl, ?_⟩
  by_cases hb : behavior = .reduceProviderCount
  · exact IsGreatest.unique (h.reduced hb) (h'.reduced hb)
  · rw [h.full hb, h'.full hb]

end Order

section Pick
variable {required : KeySet Text} {eligible selected l : List ProviderCandidate} {desired maxCost minimum : Nat}

def optionalPart (required : KeySet Text) (eligible : List ProviderCandidate) : List ProviderCandidate :=
  eligible.filter (trimmedKey · ∉ required)

theorem fillOptional_eq_take (required : KeySet Text) (desired : Nat) (selected eligible : List ProviderCandidate) :
    fillOptional required desired selected eligible =
      selected ++ (optionalPart required eligible).take (desired - selected.length) := by
  -- a required provider is passed over, an optional one takes a place while there is one
  induction eligible generalizing selected with
  | nil => simp [fillOptional, optionalPart]
  | cons p eligible ih =>
    rw [fillOptional]
    by_cases hfull : desired ≤ selected.length
    · rw [if_pos hfull, Nat.sub_eq_zero_of_le hfull, List.take_zero, List.append_nil]
    · rw [if_neg hfull]
      by_cases hreq : trimmedKey p ∈ required
      · have hfilter : optionalPart required (p :: eligible) = optionalPart required eligible :=
          List.filter_cons_of_neg (by simpa using hreq)
        rw [if_pos hreq, ih, hfilter]
      · have hfilter : optionalPart required (p :: eligible) = p :: optionalPart required eligible :=
          List.filter_cons_of_pos (by simpa using hreq)
        have hroom : desired - selected.length = desired - (selected ++ [p]).length + 1 := by
          rw [List.length_append, List.length_singleton]
          omega
        rw [if_neg hreq, ih, hfilter, hroom, List.take_succ_cons, List.append_assoc]
        rfl

theorem pickProviders_eq_take (required : KeySet Text) (eligible : List ProviderCandidate) (desired : Nat) :
    pickProviders required eligible desired = requiredPart required eligible ++
      (optionalPart required eligible).take (desired - (requiredPart required eligible).length) :=
  fillOptional_eq_take required desired (requiredPart required eligible) eligible

theorem map_moveReviewerLast {reviewer : Option Text} (h : ∀ key ∈ reviewer, key ∈ l.map trimmedKey) :
    (moveReviewerLast reviewer l).map trimmedKey = movedLast reviewer (l.map trimmedKey) := by
  cases reviewer with
  | none => rfl
  | some key =>
    obtain ⟨q, hq, hkey⟩ := List.mem_map.mp (h key rfl)
    obtain ⟨p, hp⟩ : ∃ p, l.find? (fun p => trimmedKey p = key) = some p :=
      Option.isSome_iff_exists.mp (List.find?_isSome.mpr ⟨q, hq, by simpa using hkey⟩)
    have hpk : trimmedKey p = key := by simpa using List.find?_some hp
    rw [moveReviewerLast, hp]
    dsimp only
    rw [List.map_append, List.map_singleton, hpk, movedLast, List.erase_eq_eraseP, List.eraseP_map]
    congr 3
    funext p
    simp [beq_eq_decide, eq_comm]

theorem dropOptional_eq_take (hnone : ∀ key, key ∉ required) (fuel : Nat) (l : List ProviderCandidate) :
    ∃ n ≤ l.length, dropOptional required none maxCost minimum fuel l = l.take n ∧
      ∀ m, n < m → m ≤ l.length → maxCost < totalEstimatedCost (l.take m) := by
  -- each round drops the last provider, and only where the list is too dear
  induction fuel generalizing l with
  | zero => exact ⟨l.length, le_rfl, by simp [dropOptional], fun m hm hle => absurd hle (Nat.not_le.mpr hm)⟩
  | succ fuel ih =>
    rw [dropOptional]
    split_ifs with hgo
    · have hlast : (l.reverse.eraseP (removable required none)).reverse = l.take (l.length - 1) := by
        have hall : removable required none = fun _ => true := by
          funext p
          simp [removable, hnone]
        have htail : l.reverse.eraseP (fun _ => true) = l.reverse.tail := by
          cases l.reverse <;> rfl
        rw [hall, htail, List.tail_reverse, List.reverse_reverse, List.dropLast_eq_take]
      rw [hlast]
      obtain ⟨n, hn, htake, hover⟩ := ih (l.take (l.length - 1))
      rw [List.length_take] at hn hover
      refine ⟨n, by omega, ?_, ?_⟩
      · rw [htake, List.take_take]
        congr 1
        omega
      · intro m hm hle
        by_cases hend : m = l.length
        · rw [hend, List.take_length]
          exact hgo.1
        · have hmore := hover m hm (by omega)
          rw [List.take_take] at hmore
          have hmin : min m (l.length - 1) = m := by omega
          rwa [hmin] at hmore
    · exact ⟨l.length, le_rfl, by simp, fun m hm hle => absurd hle (Nat.not_le.mpr hm)⟩

theorem mem_requiredPart (hdistinct : (eligible.map trimmedKey).Nodup) {p : ProviderCandidate} :
    p ∈ requiredPart required eligible ↔ p ∈ eligible ∧ trimmedKey p ∈ required := by
  constructor
  · intro hp
    obtain ⟨hkey, hmem⟩ := trimmedKey_requiredPart hp
    exact ⟨hmem, hkey⟩
  · rintro ⟨hp, hkey⟩
    obtain ⟨q, hq⟩ : ∃ q, eligible.find? (fun q => trimmedKey q = trimmedKey p) = some q :=
      Option.isSome_iff_exists.mp (List.find?_isSome.mpr ⟨p, hp, by simp⟩)
    have hqk : trimmedKey q = trimmedKey p := by simpa using List.find?_some hq
    have hqp : q = p := List.inj_on_of_nodup_map hdistinct (List.mem_of_find?_eq_some hq) hp hqk
    exact List.mem_filterMap.mpr ⟨trimmedKey p, hkey, hqp ▸ hq⟩

theorem mem_optionalPart {p : ProviderCandidate} :
    p ∈ optionalPart required eligible ↔ p ∈ eligible ∧ trimmedKey p ∉ required := by
  rw [optionalPart, List.mem_filter, decide_eq_true_eq]

theorem parts_perm (hdistinct : (eligible.map trimmedKey).Nodup) :
    (requiredPart required eligible ++ optionalPart required eligible).Perm eligible := by
  have hneeded : (requiredPart required eligible).Nodup := by
    refine required.nodup.filterMap ?_
    intro key key' p hp hp'
    have hk : trimmedKey p = key := by simpa using List.find?_some hp
    have hk' : trimmedKey p = key' := by simpa using List.find?_some hp'
    exact hk.symm.trans hk'
  have hparts : (requiredPart required eligible ++ optionalPart required eligible).Nodup := by
    refine List.nodup_append.mpr ⟨hneeded, hdistinct.of_map.filter _, ?_⟩
    rintro p hp q hq rfl
    exact (mem_optionalPart.mp hq).2 (trimmedKey_requiredPart hp).1
  refine (List.perm_ext_iff_of_nodup hparts hdistinct.of_map).mpr ?_
  intro p
  rw [List.mem_append, mem_requiredPart hdistinct, mem_optionalPart]
  tauto

end Pick

section Intake
variable {request : PolicyRequest} {caps : KeySet Text} {i : Intake} {c : Course}

theorem insertAgentKeys_sorted {values : List Text} {s t : KeySet Text} (hs : s.keys.Pairwise (· ≤ ·))
    (h : insertAgentKeys s values = .ok t) : t.keys.Pairwise (· ≤ ·) := by
  induction values generalizing s with
  | nil =>
    cases h
    exact hs
  | cons value values ih =>
    obtain ⟨key, -, h⟩ := Except.bind_eq_ok.mp h
    obtain ⟨-, h⟩ := Except.check_eq_ok.mp h
    exact ih (KeySet.sorted_insert hs key) h

theorem insertCapabilities_sorted {values : List Text} {s t : KeySet Text} (hs : s.keys.Pairwise (· ≤ ·))
    (h : insertCapabilities s values = .ok t) : t.keys.Pairwise (· ≤ ·) := by
  induction values generalizing s with
  | nil =>
    cases h
    exact hs
  | cons value values ih =>
    rw [insertCapabilities] at h
    obtain ⟨-, h⟩ := Except.check_eq_ok.mp h
    exact ih (KeySet.sorted_insert hs _) h

theorem mem_partitionProviders {required : KeySet Text} {sensitivity : DataSensitivity}
    {providers eligible : List ProviderCandidate} {excluded : List ProviderExclusion}
    (h : partitionProviders required sensitivity providers = .ok (eligible, excluded)) {p : ProviderCandidate} :
    p ∈ eligible ↔ p ∈ providers ∧ exclusionReason p required sensitivity = .ok none := by
  induction providers generalizing eligible excluded with
  | nil =>
    cases h
    simp
  | cons provider providers ih =>
    obtain ⟨reason, hreason, h⟩ := Except.bind_eq_ok.mp h
    obtain ⟨⟨el, ex⟩, hrest, h⟩ := Except.bind_eq_ok.mp h
    have hih := ih hrest
    cases reason with
    | some r =>
      cases h
      rw [hih, List.mem_cons]
      constructor
      · rintro ⟨hp, hnone⟩
        exact ⟨.inr hp, hnone⟩
      · rintro ⟨rfl | hp, hnone⟩
        · rw [hreason] at hnone
          cases hnone
        · exact ⟨hp, hnone⟩
    | none =>
      cases h
      rw [List.mem_cons, hih, List.mem_cons]
      constructor
      · rintro (rfl | ⟨hp, hnone⟩)
        · exact ⟨.inl rfl, hreason⟩
        · exact ⟨.inr hp, hnone⟩
      · rintro ⟨rfl | hp, hnone⟩
        · exact .inl rfl
        · exact .inr ⟨hp, hnone⟩

/-- What reading a request adds to `Reads`: the order of the required keys and all eligible providers. -/
theorem intake_complete (h : intake request = .ok i) : validateRequest request = .ok () ∧
    i.requiredSelection.keys.Pairwise (· ≤ ·) ∧
    i.eligible.Pairwise Ranked ∧ ∀ p, p ∈ i.eligible ↔ p ∈ request.providers ∧ Eligible request p := by
  unfold intake at h
  simp only [Except.bind_eq_ok] at h
  obtain ⟨⟨⟩, hvalid, caps, hcaps, keys, hkeys, reviewer, -, ⟨eligible, excluded⟩, hpart, h⟩ := h
  cases h
  have hsorted : keys.keys.Pairwise (· ≤ ·) := insertAgentKeys_sorted List.Pairwise.nil hkeys
  refine ⟨hvalid, ?_, pairwise_rankProviders eligible, ?_⟩
  · cases reviewer with
    | none => exact hsorted
    | some key => exact KeySet.sorted_insert hsorted key
  · intro p
    have hrank : (rankProviders eligible).Perm eligible := List.perm_insertionSort _ _
    refine hrank.mem_iff.trans ((mem_partitionProviders hpart).trans (and_congr_right fun _ => ?_))
    constructor
    · exact eligible_of_exclusionReason hcaps
    · exact exclusionReason_of_eligible hcaps

theorem mem_requiredSelection_iff (h : i.Reads request caps) {key : Text} :
    key ∈ i.requiredSelection ↔ Required request key := by
  rw [h.required, h.reviewer, Required]
  refine or_congr_right ?_
  rw [Option.map_eq_some_iff]
  rfl

theorem reduced_eq (h : i.Reads request caps) (hdesired : i.desired c.mode ≤ i.eligible.length) :
    ∃ k, i.reduced c = moveReviewerLast i.requiredReviewerAgentKey (requiredPart i.requiredSelection i.eligible ++
        (optionalPart i.requiredSelection i.eligible).take k) ∧
      (i.degradationBehavior ≠ .reduceProviderCount →
        k = i.desired c.mode - (requiredPart i.requiredSelection i.eligible).length) ∧
      (i.degradationBehavior = .reduceProviderCount → k ≤ i.desired c.mode ∧ ∀ m, k < m → m ≤ i.desired c.mode →
        i.budget.maxCostMicroUsd <
          totalEstimatedCost ((optionalPart i.requiredSelection i.eligible).take m)) := by
  unfold Intake.reduced
  dsimp only
  by_cases hb : i.degradationBehavior = .reduceProviderCount
  · obtain ⟨hnone, hreviewer⟩ := h.unrequired hb
    have hall : optionalPart i.requiredSelection i.eligible = i.eligible :=
      List.filter_eq_self.mpr fun p _ => by simp [hnone]
    have hpick : i.pick c = i.eligible.take (i.desired c.mode) := by
      rw [Intake.pick, hreviewer, moveReviewerLast, pickProviders_eq_take, requiredPart_of_none hnone, hall]
      rfl
    obtain ⟨n, hn, htake, hover⟩ := @dropOptional_eq_take _ i.budget.maxCostMicroUsd (i.minimum c.mode) hnone
      (i.pick c).length (i.pick c)
    rw [hpick, List.length_take, Nat.min_eq_left hdesired] at hn
    refine ⟨n, ?_, fun hne => absurd hb hne, fun _ => ⟨hn, ?_⟩⟩
    · rw [if_pos hb, hreviewer, htake, hpick, List.take_take, Nat.min_eq_left hn, requiredPart_of_none hnone, hall]
      rfl
    · intro m hm hle
      have hmore := hover m hm (by rw [hpick, List.length_take, Nat.min_eq_left hdesired]; exact hle)
      rwa [hpick, List.take_take, Nat.min_eq_left hle, ← hall] at hmore
  · refine ⟨_, ?_, fun _ => rfl, fun h' => absurd h' hb⟩
    rw [if_neg hb, Intake.pick, pickProviders_eq_take]

theorem totalEstimatedCost_le_iff {l : List ProviderCandidate} {maxCost : Nat} (h : maxCost < u64Max) :
    totalEstimatedCost l ≤ maxCost ↔ estimatedCosts l ≤ maxCost := by
  rw [totalEstimatedCost_eq_min, estimatedCosts]
  omega

theorem greatest_affordable {others : List ProviderCandidate} {k desired minimum maxCost : Nat} (hk : k ≤ desired)
    (hmin : minimum ≤ k) (hcost : totalEstimatedCost (others.take k) ≤ maxCost) (hmax : maxCost < u64Max)
    (hover : ∀ m, k < m → m ≤ desired → maxCost < totalEstimatedCost (others.take m)) :
    IsGreatest { k | k ≤ desired ∧ minimum ≤ k ∧ estimatedCosts (others.take k) ≤ maxCost } k := by
  refine ⟨⟨hk, hmin, (totalEstimatedCost_le_iff hmax).mp hcost⟩, ?_⟩
  rintro m ⟨hm, -, haffordable⟩
  by_contra hlt
  exact absurd ((totalEstimatedCost_le_iff hmax).mpr haffordable)
    (Nat.not_le.mpr (hover m (Nat.lt_of_not_le hlt) hm))

/-- What an intake that goes on with the course `c` selects is the selection of the request. -/
theorem reference_of_settled (hi : intake request = .ok i) (hmissing : i.missingRequiredAgentKeys = [])
    (henough : i.minimum c.mode ≤ (i.reduced c).length)
    (haffordable : totalEstimatedCost (i.reduced c) ≤ i.budget.maxCostMicroUsd) :
    ∃ needed others k, Reference request c.mode i.budget i.degradationBehavior needed others k ∧
      i.reduced c = moveReviewerLast i.requiredReviewerAgentKey (needed ++ others.take k) ∧
      (needed ++ others).Perm i.eligible ∧ needed.map trimmedKey = i.requiredSelection.keys := by
  obtain ⟨caps, h⟩ := intake_reads hi
  obtain ⟨hvalid, hsorted, hranked, heligible⟩ := intake_complete hi
  have hacceptable := acceptable_of_validateRequest hvalid
  have hpresent := h.present hmissing
  have hkeys : (requiredPart i.requiredSelection i.eligible).map trimmedKey = i.requiredSelection.keys :=
    map_find_key hpresent
  have hsize : (requiredPart i.requiredSelection i.eligible).length = i.requiredSelection.size := by
    rw [← List.length_map (f := trimmedKey), hkeys]
    rfl
  have hparts : (requiredPart i.requiredSelection i.eligible ++ optionalPart i.requiredSelection i.eligible).Perm
      i.eligible := parts_perm h.distinct
  have hcount := hparts.length_eq
  rw [List.length_append] at hcount
  have hdesired : i.desired c.mode = desiredCount c.mode i.budget.maxProviders
      ((requiredPart i.requiredSelection i.eligible).length + (optionalPart i.requiredSelection i.eligible).length)
      (requiredPart i.requiredSelection i.eligible).length := by
    rw [hcount, hsize]
    rfl
  have hle : i.desired c.mode ≤ i.eligible.length := (min_le_right _ _).trans (min_le_right _ _)
  have hcost : i.budget.maxCostMicroUsd < u64Max :=
    ((budget_clamped h).maxCostMicroUsd.absolute).trans_lt (by decide)
  obtain ⟨k, hreduced, hfull, hshort⟩ := reduced_eq (c := c) h hle
  refine ⟨requiredPart i.requiredSelection i.eligible, optionalPart i.requiredSelection i.eligible, k,
    ⟨?_, ?_, ?_, ?_, ?_, ?_, ?_, ?_⟩, hreduced, hparts, hkeys⟩
  · rw [hkeys]
    exact (hsorted.and i.requiredSelection.nodup).imp fun h => lt_of_le_of_ne h.1 h.2
  · intro p
    rw [mem_requiredPart h.distinct, heligible, mem_requiredSelection_iff h]
    refine ⟨fun hp => ⟨hp.1.1, hp.2⟩, fun hp => ⟨⟨hp.1, ?_⟩, hp.2⟩⟩
    -- a required key is that of an eligible provider, and no other provider has it
    obtain ⟨q, hq, hkey⟩ := List.mem_map.mp (hpresent _ ((mem_requiredSelection_iff h).mpr hp.2))
    obtain ⟨hqmem, hqel⟩ := (heligible q).mp hq
    rwa [← List.inj_on_of_nodup_map (validateRequest_distinct hvalid) hqmem hp.1 hkey]
  · intro key hkey
    rw [hkeys]
    exact (mem_requiredSelection_iff h).mpr hkey
  · intro p hp
    exact ((heligible p).mp ((mem_requiredPart h.distinct).mp hp).1).2
  · have hkept : (optionalPart i.requiredSelection i.eligible).Sublist i.eligible := List.filter_sublist
    have hdistinct := List.pairwise_map.mp (h.distinct.sublist (hkept.map _))
    refine ((hranked.sublist hkept).and hdistinct).imp_of_mem ?_
    intro p q hp hq hpq
    have hmem {p : ProviderCandidate} (hp : p ∈ optionalPart i.requiredSelection i.eligible) :=
      hacceptable p ((heligible p).mp (hkept.subset hp)).1
    exact before_of_ranked (hmem hp) (hmem hq) hpq.1 hpq.2
  · intro p
    rw [mem_optionalPart, heligible, mem_requiredSelection_iff h, and_assoc]
  · intro hb
    exact (hfull hb).trans (congrArg (· - _) hdesired)
  · intro hb
    obtain ⟨hk, hover⟩ := hshort hb
    obtain ⟨hnone, hreviewer⟩ := h.unrequired hb
    have hempty : requiredPart i.requiredSelection i.eligible = [] := requiredPart_of_none hnone
    rw [hempty, hreviewer] at hreduced
    rw [hempty] at hdesired ⊢
    have hlen : k ≤ (optionalPart i.requiredSelection i.eligible).length := by
      rw [hempty, List.length_nil, Nat.zero_add] at hcount
      exact hcount ▸ hk.trans hle
    have hmin := (le_max_left _ _).trans henough
    rw [hreduced] at hmin haffordable
    have hgreatest := @greatest_affordable (optionalPart i.requiredSelection i.eligible) _ _ _ _ hk
      (hmin.trans_eq (by simp [moveReviewerLast, hlen])) haffordable hcost hover
    rw [hdesired] at hgreatest
    simp only [List.length_nil, Nat.zero_add, Nat.sub_zero, List.nil_append] at hgreatest ⊢
    exact hgreatest

theorem reference_of_allows {d : PolicyDecision} (hi : intake request = .ok i) (hal : i.Allows request c d) :
    ∃ needed others k, ReferenceSelection request d needed others k := by
  obtain ⟨caps, h⟩ := intake_reads hi
  obtain ⟨needed, others, k, href, hreduced, -, hkeys⟩ :=
    reference_of_settled hi hal.present hal.enough hal.affordable
  rw [hal.decision]
  refine ⟨needed, others, k, href, ?_⟩
  have hlast : ∀ key ∈ i.requiredReviewerAgentKey, key ∈ (needed ++ others.take k).map trimmedKey := by
    intro key hkey
    rw [List.map_append, hkeys]
    exact List.mem_append_left _ ((h.required key).mpr (.inr hkey))
  rw [← h.reviewer, ← map_moveReviewerLast hlast, ← hreduced]
  exact map_agentKey_selectedProviders _ _

end Intake

end AgentBridge.Policy
