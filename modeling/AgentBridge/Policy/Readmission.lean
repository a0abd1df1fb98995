import AgentBridge.Policy.Acceptance
import Mathlib.Data.Prod.Lex

/-! A decision evaluated again: the request that names the mode of a decision and offers
just its providers leads to the same decision. -/

namespace AgentBridge.Policy

section Ranking

theorem compareProviders_eq : compareProviders =
    compareLex (compareOn fun p => p.availability.rank)
    (compareLex (fun a b => compareOn (fun p => min p.historicalQualityBps 10000) b a)
    (compareLex (fun a b => compareOn (fun p => min p.healthScoreBps 10000) b a)
    (compareLex (compareOn fun p => min p.recentErrorRateBps 10000)
    (compareLex (compareOn fun p => p.p95LatencyMs)
    (compareLex (compareOn fun p => p.estimatedCostMicroUsd)
    (fun a b => compareText a.agentKey b.agentKey)))))) := rfl

instance transCmp_compareText : Std.TransCmp compareText :=
  Std.TransOrd.compareOfLessAndEq_of_antisymm_of_trans_of_total_of_not_le le_antisymm le_trans le_total not_le

instance transCmp_agentKey : Std.TransCmp fun a b : ProviderCandidate => compareText a.agentKey b.agentKey where
  eq_swap := by
    intro a b
    exact @Std.OrientedCmp.eq_swap _ compareText _ _ _
  isLE_trans := by
    intro a b c
    exact @Std.TransCmp.isLE_trans _ compareText _ _ _ _

instance transCmp_compareProviders : Std.TransCmp compareProviders := by
  rw [compareProviders_eq]
  infer_instance

/-- `p` is ranked before `q` or level with it. -/
def Ranked (p q : ProviderCandidate) : Prop := compareProviders p q ≠ .gt

instance : DecidableRel Ranked := fun p q => inferInstanceAs (Decidable (compareProviders p q ≠ .gt))

theorem ranked_iff {p q : ProviderCandidate} : Ranked p q ↔ (compareProviders p q).isLE = true := by
  rw [Ranked, Ordering.isLE_iff_ne_gt]

instance : Std.Total Ranked where
  total p q := by
    rw [ranked_iff, ranked_iff]
    cases h : compareProviders p q with
    | lt => exact .inl rfl
    | eq => exact .inl rfl
    | gt =>
      refine .inr ?_
      rw [@Std.OrientedCmp.eq_swap _ compareProviders, h]
      rfl

instance : IsTrans ProviderCandidate Ranked where
  trans p q r hpq hqr := by
    rw [ranked_iff] at hpq hqr ⊢
    exact Std.TransCmp.isLE_trans hpq hqr

theorem agentKey_eq_of_ranked {p q : ProviderCandidate} (hpq : Ranked p q) (hqp : Ranked q p) :
    p.agentKey = q.agentKey := by
  have heq : compareProviders p q = .eq := by
    rw [ranked_iff] at hpq hqp
    exact Std.OrientedCmp.isLE_antisymm hpq hqp
  have hkey : compareText p.agentKey q.agentKey = .eq := by
    rw [compareProviders_eq] at heq
    simp only [compareLex_eq_eq] at heq
    exact heq.2.2.2.2.2.2
  unfold compareText at hkey
  split_ifs at hkey with hlt he
  exact he

theorem pairwise_rankProviders (l : List ProviderCandidate) : (rankProviders l).Pairwise Ranked := by
  exact List.pairwise_insertionSort Ranked l

theorem rankProviders_eq_of_sublist {l l' m : List ProviderCandidate} (hdistinct : (l.map trimmedKey).Nodup)
    (hranked : l.Pairwise Ranked) (hsub : l'.Sublist l) (hperm : m.Perm l') : rankProviders m = l' := by
  have hrank : (rankProviders m).Perm l' := (List.perm_insertionSort _ _).trans hperm
  refine hrank.eq_of_pairwise ?_ (pairwise_rankProviders m) (hranked.sublist hsub)
  intro p q hp hq hpq hqp
  have hkey : trimmedKey p = trimmedKey q := congrArg Text.trim (agentKey_eq_of_ranked hpq hqp)
  exact List.inj_on_of_nodup_map hdistinct (hsub.subset (hrank.subset hp)) (hsub.subset hq) hkey

end Ranking

section Modes
variable {request : PolicyRequest} {risk : TaskRisk} {reviewer : Option Text} {chosen : List ProviderCandidate}

def restricted (request : PolicyRequest) (mode : WorkflowMode) (chosen : List ProviderCandidate) : PolicyRequest :=
  { request with requestedMode := some mode, providers := chosen }

theorem saferMode_raised (a b : WorkflowMode) : saferMode (saferMode a b) b = saferMode a b := by
  cases a <;> cases b <;> rfl

theorem protocolRequiredMode_default (mode : WorkflowMode) : protocolRequiredMode (defaultProtocol mode) = mode := by
  cases mode <;> rfl

theorem selectedProtocol_default {a b : WorkflowMode} (h : modeRank a ≤ modeRank b) :
    selectedProtocol b (defaultProtocol a) = defaultProtocol b := by
  rw [selectedProtocol, protocolRequiredMode_default]
  split_ifs with hlt
  · rfl
  · cases a <;> cases b <;> first | rfl | exact absurd h (by decide) | exact absurd (by decide) hlt

theorem modes_restricted (request : PolicyRequest) (risk : TaskRisk) (reviewer : Option Text)
    (chosen : List ProviderCandidate) :
    let r' := restricted request (raisedMode request risk reviewer) chosen
    requiredMode r' risk reviewer = requiredMode request risk reviewer ∧
      raisedMode r' risk reviewer = raisedMode request risk reviewer ∧
      raisedProtocol r' risk reviewer = raisedProtocol request risk reviewer := by
  intro r'
  have hbase : baseRequiredMode r' risk = baseRequiredMode request risk := rfl
  have hdefault : defaultRequestedMode r' risk = raisedMode request risk reviewer := rfl
  have hraises (hrequired : requiredMode r' risk reviewer = requiredMode request risk reviewer) :
      raisedMode r' risk reviewer = raisedMode request risk reviewer := by
    rw [raisedMode, hdefault, hrequired]
    exact saferMode_raised _ _
  cases hp : request.requestedProtocol with
  | some p =>
    -- a requested protocol asks for the same mode as before
    have hprotocol : requestedProtocol r' risk = p := congrArg (Option.getD · _) hp
    have hprotocol' : requestedProtocol request risk = p := congrArg (Option.getD · _) hp
    have hrequired : requiredMode r' risk reviewer = requiredMode request risk reviewer := by
      unfold requiredMode
      rw [hbase, hprotocol, hprotocol']
    have hraised := hraises hrequired
    refine ⟨hrequired, hraised, ?_⟩
    rw [raisedProtocol, hraised, hprotocol, raisedProtocol, hprotocol']
  | none =>
    -- the default protocol follows the mode, and the raised mode is the required one
    have hprotocol : requestedProtocol r' risk = defaultProtocol (raisedMode request risk reviewer) :=
      congrArg (Option.getD · _) hp
    have hprotocol' : requestedProtocol request risk = defaultProtocol (defaultRequestedMode request risk) :=
      congrArg (Option.getD · _) hp
    have hrequired : requiredMode r' risk reviewer = requiredMode request risk reviewer := by
      unfold requiredMode
      rw [hbase, hprotocol, hprotocol', protocolRequiredMode_default, protocolRequiredMode_default, raisedMode,
        requiredMode, hprotocol', protocolRequiredMode_default]
      generalize baseRequiredMode request risk = base
      generalize defaultRequestedMode request risk = mode
      cases base <;> cases mode <;> cases reviewer <;> rfl
    have hraised := hraises hrequired
    refine ⟨hrequired, hraised, ?_⟩
    rw [raisedProtocol, hraised, hprotocol, raisedProtocol, hprotocol']
    have hle : modeRank (defaultRequestedMode request risk) ≤ modeRank (raisedMode request risk reviewer) := by
      rw [raisedMode, modeRank_saferMode]
      exact le_max_left _ _
    rw [selectedProtocol_default le_rfl, selectedProtocol_default hle]

end Modes

section Pick
variable {required : KeySet Text} {reviewer : Option Text} {eligible selected extra : List ProviderCandidate}
  {desired maxCost minimum : Nat}

def requiredPart (required : KeySet Text) (eligible : List ProviderCandidate) : List ProviderCandidate :=
  required.keys.filterMap fun key => eligible.find? fun p => trimmedKey p = key

theorem fillOptional_all (h : (selected ++ eligible.filter (trimmedKey · ∉ required)).length ≤ desired) :
    fillOptional required desired selected eligible = selected ++ eligible.filter (trimmedKey · ∉ required) := by
  -- the places suffice for every optional provider
  induction eligible generalizing selected with
  | nil => simp [fillOptional]
  | cons p eligible ih =>
    rw [fillOptional]
    by_cases hreq : trimmedKey p ∈ required
    · have hfilter : (p :: eligible).filter (trimmedKey · ∉ required) =
          eligible.filter (trimmedKey · ∉ required) := List.filter_cons_of_neg (by simpa using hreq)
      rw [hfilter] at h ⊢
      rw [if_pos hreq, ih h]
      split_ifs with hfull
      · have hnil : eligible.filter (trimmedKey · ∉ required) = [] := by
          rw [List.length_append] at h
          exact List.length_eq_zero_iff.mp (by omega)
        rw [hnil, List.append_nil]
      · rfl
    · have hfilter : (p :: eligible).filter (trimmedKey · ∉ required) =
          p :: eligible.filter (trimmedKey · ∉ required) := List.filter_cons_of_pos (by simpa using hreq)
      rw [hfilter] at h ⊢
      have hroom : ¬ desired ≤ selected.length := by
        rw [List.length_append, List.length_cons] at h
        omega
      rw [if_neg hroom, if_neg hreq, ih (by simpa using h), List.append_assoc]
      rfl

theorem dropOptional_sublist (fuel : Nat) (selected : List ProviderCandidate) :
    (dropOptional required reviewer maxCost minimum fuel selected).Sublist selected := by
  induction fuel generalizing selected with
  | zero => exact .refl _
  | succ fuel ih =>
    rw [dropOptional]
    split_ifs
    · refine (ih _).trans ?_
      simpa using (List.eraseP_sublist (p := removable required reviewer) (l := selected.reverse)).reverse
    · exact .refl _

theorem pickProviders_eq_append (required : KeySet Text) (eligible : List ProviderCandidate) (desired : Nat) :
    ∃ extra, pickProviders required eligible desired = requiredPart required eligible ++ extra ∧
      extra.Sublist eligible ∧ ∀ p ∈ extra, trimmedKey p ∉ required := by
  obtain ⟨extra, he, hsub, hopt, -⟩ := fillOptional_eq_append required desired (requiredPart required eligible) eligible
  exact ⟨extra, he, hsub, hopt⟩

theorem eq_of_sublist_of_mem {α : Type*} [DecidableEq α] {l s t : List α} (hl : l.Nodup) (hs : s.Sublist l)
    (ht : t.Sublist l) (hmem : ∀ a, a ∈ s ↔ a ∈ t) : s = t := by
  have hfilter : ∀ {u : List α}, u.Sublist l → u = l.filter (· ∈ u) := by
    intro u hu
    have hself : u.filter (· ∈ u) = u := List.filter_eq_self.mpr (by simp)
    have hsub := hu.filter (· ∈ u)
    rw [hself] at hsub
    refine hsub.eq_of_length_le ?_
    exact ((hl.filter _).subperm fun a ha => by simpa using (List.mem_filter.mp ha).2).length_le
  rw [hfilter hs, hfilter ht]
  exact List.filter_congr fun a _ => decide_eq_decide.mpr (hmem a)

theorem trimmedKey_requiredPart {p : ProviderCandidate} (h : p ∈ requiredPart required eligible) :
    trimmedKey p ∈ required ∧ p ∈ eligible := by
  obtain ⟨key, hkey, hfind⟩ := List.mem_filterMap.mp h
  have hp : trimmedKey p = key := by simpa using List.find?_some hfind
  exact ⟨hp ▸ hkey, List.mem_of_find?_eq_some hfind⟩

theorem requiredPart_of_none (h : ∀ key, key ∉ required) : requiredPart required eligible = [] := by
  refine List.eq_nil_iff_forall_not_mem.mpr fun p hp => ?_
  exact h _ (trimmedKey_requiredPart hp).1

theorem requiredPart_of_sublist (hdistinct : (eligible.map trimmedKey).Nodup) (hsub : selected.Sublist eligible)
    (hpart : requiredPart required eligible ⊆ selected) :
    requiredPart required selected = requiredPart required eligible := by
  refine List.filterMap_congr fun key hkey => ?_
  cases hfind : eligible.find? (fun p => trimmedKey p = key) with
  | none =>
    rw [List.find?_eq_none] at hfind ⊢
    exact fun p hp => hfind p (hsub.subset hp)
  | some p =>
    have hp : p ∈ selected := hpart (List.mem_filterMap.mpr ⟨key, hkey, hfind⟩)
    have hpk : trimmedKey p = key := by simpa using List.find?_some hfind
    obtain ⟨q, hq⟩ : ∃ q, selected.find? (fun p => trimmedKey p = key) = some q :=
      Option.isSome_iff_exists.mp (List.find?_isSome.mpr ⟨p, hp, by simpa using hpk⟩)
    have hqk : trimmedKey q = key := by simpa using List.find?_some hq
    rw [hq, List.inj_on_of_nodup_map hdistinct (hsub.subset (List.mem_of_find?_eq_some hq)) (hsub.subset hp)
      (hqk.trans hpk.symm)]

theorem pickProviders_again (hdistinct : (eligible.map trimmedKey).Nodup) (hextra : extra.Sublist eligible)
    (hopt : ∀ p ∈ extra, trimmedKey p ∉ required) (hsub : selected.Sublist eligible)
    (hmem : ∀ p, p ∈ selected ↔ p ∈ requiredPart required eligible ++ extra) :
    pickProviders required selected (requiredPart required eligible ++ extra).length =
      requiredPart required eligible ++ extra := by
  have hpart : requiredPart required selected = requiredPart required eligible :=
    requiredPart_of_sublist hdistinct hsub fun p hp => (hmem p).mpr (List.mem_append_left _ hp)
  have hrest : selected.filter (trimmedKey · ∉ required) = extra := by
    refine eq_of_sublist_of_mem hdistinct.of_map (List.filter_sublist.trans hsub) hextra fun p => ?_
    rw [List.mem_filter, hmem, List.mem_append, decide_eq_true_eq]
    constructor
    · rintro ⟨hp | hp, hout⟩
      · exact absurd (trimmedKey_requiredPart hp).1 hout
      · exact hp
    · exact fun hp => ⟨.inr hp, hopt p hp⟩
  change fillOptional required _ (requiredPart required selected) selected = _
  rw [hpart, fillOptional_all] <;> rw [hrest]

theorem dropOptional_of_affordable (fuel : Nat) (h : totalEstimatedCost selected ≤ maxCost) :
    dropOptional required reviewer maxCost minimum fuel selected = selected := by
  cases fuel with
  | zero => rfl
  | succ fuel => exact if_neg fun hgo => absurd hgo.1 (Nat.not_lt.mpr h)

end Pick

section Intake
variable {request : PolicyRequest} {caps : KeySet Text} {i : Intake} {c : Course} {mode : WorkflowMode}
  {chosen : List ProviderCandidate}

theorem Intake.Reads.unrequired (h : i.Reads request caps) (hb : i.degradationBehavior = .reduceProviderCount) :
    (∀ key, key ∉ i.requiredSelection) ∧ i.requiredReviewerAgentKey = none := by
  have hnone : ∀ key, key ∉ i.requiredSelection := by
    intro key hkey
    have hrank := h.degradationRank_of_required hkey
    rw [hb] at hrank
    exact absurd hrank (by decide)
  refine ⟨hnone, ?_⟩
  cases hr : i.requiredReviewerAgentKey with
  | none => rfl
  | some key => exact absurd ((h.required key).mpr (.inr hr)) (hnone key)

/-- The selection: the required providers, then candidates in their ranking, the reviewer moved last. -/
theorem reduced_shape (h : i.Reads request caps) :
    ∃ extra, i.reduced c = moveReviewerLast i.requiredReviewerAgentKey
        (requiredPart i.requiredSelection i.eligible ++ extra) ∧
      extra.Sublist i.eligible ∧ ∀ p ∈ extra, trimmedKey p ∉ i.requiredSelection := by
  obtain ⟨extra, he, hsub, hopt⟩ := pickProviders_eq_append i.requiredSelection i.eligible (i.desired c.mode)
  have hpick : i.pick c = moveReviewerLast i.requiredReviewerAgentKey
      (requiredPart i.requiredSelection i.eligible ++ extra) := by rw [Intake.pick, he]
  unfold Intake.reduced
  dsimp only
  split_ifs with hb
  · -- only with nobody required are providers dropped, and then the selection is a part of the ranking
    obtain ⟨hnone, hreviewer⟩ := h.unrequired hb
    have hpart : requiredPart i.requiredSelection i.eligible = [] := requiredPart_of_none hnone
    rw [hpart, hreviewer, List.nil_append] at hpick
    rw [hpart, hreviewer, hpick]
    exact ⟨_, rfl, (dropOptional_sublist _ _).trans hsub, fun p _ => hnone _⟩
  · exact ⟨extra, hpick, hsub, hopt⟩

theorem exclusionReason_of_eligible {p : ProviderCandidate}
    (hcaps : normalizeCapabilities request.requiredCapabilities = .ok caps)
    (h : Eligible request p) : exclusionReason p caps request.dataSensitivity = .ok none := by
  obtain ⟨havailable, havailability, htrusted, required, advertised, hrequired, hadvertised, hcapable⟩ := h
  obtain rfl : required = caps := Except.ok.inj (hrequired.symm.trans hcaps)
  have hsuited : unsuitedReason p required request.dataSensitivity = .ok none := by
    unfold unsuitedReason
    rw [if_neg fun hr => by simp [htrusted hr.1] at hr]
    exact Except.bind_eq_ok.mpr ⟨_, hadvertised, if_pos hcapable⟩
  unfold exclusionReason
  rw [if_neg (by simp [havailable])]
  rcases havailability with ha | ha <;> rw [ha] <;> exact hsuited

theorem validateRequest_restricted (h : validateRequest request = .ok ()) (hne : chosen ≠ [])
    (hsub : chosen.Subperm request.providers)
    (hrequired : ∀ value, value ∈ request.requiredAgentKeys ∨ value ∈ request.requiredReviewerAgentKey →
      ∃ p ∈ chosen, trimmedKey p = Text.trim value) :
    validateRequest (restricted request mode chosen) = .ok () := by
  have hdistinct := validateRequest_distinct h
  have hacceptable := acceptable_of_validateRequest h
  unfold validateRequest at h ⊢
  simp only [Except.check_eq_ok, Except.bind_eq_ok] at h ⊢
  obtain ⟨-, hcount, hfew, hcapabilities, keys, hkeys, reviewer, hreviewer, -⟩ := h
  obtain ⟨l, hperm, hl⟩ := hsub
  obtain ⟨seen, hseen⟩ := (@validateProviders_isOk chosen .empty).mpr
    ⟨(hperm.map _).nodup_iff.mp (hdistinct.sublist (hl.map _)), fun p hp =>
      ⟨KeySet.not_mem_empty, hacceptable p (hl.subset (hperm.mem_iff.mpr hp))⟩⟩
  have hpresent : ∀ value, value ∈ request.requiredAgentKeys ∨ value ∈ request.requiredReviewerAgentKey →
      Text.trim value ∈ seen := by
    intro value hvalue
    exact (mem_validateProviders hseen).mpr (.inr (hrequired value hvalue))
  refine ⟨by simpa [restricted] using hne, ?_, hfew, hcapabilities, keys, hkeys, reviewer, hreviewer, seen, hseen, (),
    requirePresent_eq_ok.mpr fun key hkey => ?_, requirePresent_eq_ok.mpr fun key hkey => ?_⟩
  · have hlen := hl.length_le
    rw [hperm.length_eq] at hlen
    change ¬ chosen.length > _
    omega
  · obtain ⟨value, hvalue, rfl⟩ := (mem_normalizeAgentKeys hkeys).mp hkey
    exact hpresent value (.inl hvalue)
  · rw [mapM_normalizeAgentKey hreviewer, Option.mem_toList, Option.map_eq_some_iff] at hkey
    obtain ⟨value, hvalue, rfl⟩ := hkey
    exact hpresent value (.inr hvalue)

/-- What the restricted request is read as: the same demands, and all its candidates eligible. -/
theorem intake_restricted (hi : intake request = .ok i) (hne : chosen ≠ []) (hsub : chosen.Subperm i.eligible)
    (hrequired : ∀ key ∈ i.requiredSelection, ∃ p ∈ chosen, trimmedKey p = key) :
    ∃ caps eligible excluded, i = .of request (effectiveRisk request caps) i.requiredReviewerAgentKey
        i.requiredSelection eligible excluded ∧
      intake (restricted request mode chosen) = .ok (.of (restricted request mode chosen)
        (effectiveRisk request caps) i.requiredReviewerAgentKey i.requiredSelection chosen []) := by
  obtain ⟨caps₀, hreads⟩ := intake_reads hi
  unfold intake at hi
  simp only [Except.bind_eq_ok] at hi
  obtain ⟨⟨⟩, hvalid, caps, hcaps, keys, hkeys, reviewer, hreviewer, ⟨eligible, excluded⟩, hpart, hi⟩ := hi
  cases hi
  obtain ⟨hel, heligible⟩ := partitionProviders_eligible hcaps hpart
  have hranked : (rankProviders eligible).Perm eligible := List.perm_insertionSort _ _
  have hchosen : chosen.Subperm eligible := hsub.trans hranked.subperm
  have hkept : ∀ value, value ∈ request.requiredAgentKeys ∨ value ∈ request.requiredReviewerAgentKey →
      ∃ p ∈ chosen, trimmedKey p = Text.trim value := by
    rintro value (hvalue | hvalue)
    · exact hrequired _ ((hreads.required _).mpr (.inl ⟨value, hvalue, rfl⟩))
    · refine hrequired _ ((hreads.required _).mpr (.inr ?_))
      rw [hreads.reviewer, hvalue]
      rfl
  refine ⟨caps, eligible, excluded, rfl, ?_⟩
  have hall : ∀ p ∈ chosen, exclusionReason p caps request.dataSensitivity = .ok none := by
    intro p hp
    exact exclusionReason_of_eligible hcaps (heligible p (hchosen.subset hp))
  unfold intake
  simp only [Except.bind_eq_ok]
  exact ⟨(), validateRequest_restricted hvalid hne (hchosen.trans hel.subperm) hkept, caps, hcaps, keys, hkeys,
    reviewer, hreviewer, _, partitionProviders_all hall, rfl⟩

theorem conclude_allowed : (i.conclude request c).allowed = true ↔ i.minimum c.mode ≤ (i.reduced c).length ∧
    totalEstimatedCost (i.reduced c) ≤ i.budget.maxCostMicroUsd ∧
    (0 < request.expectedDurationMs → request.expectedDurationMs ≤ i.budget.maxWallClockMs) := by
  unfold Intake.conclude
  dsimp only
  split_ifs with hcost htime
  · refine iff_of_false (by simp [Intake.nonExecuteDecision]) ?_
    rintro ⟨hmin, hmax, -⟩
    exact hcost.elim (Nat.not_lt.mpr hmin) (Nat.not_lt.mpr hmax)
  · refine iff_of_false (by simp [Intake.nonExecuteDecision]) ?_
    rintro ⟨-, -, hle⟩
    exact absurd htime.2 (Nat.not_lt.mpr (hle htime.1))
  · simp only [not_or, Nat.not_lt, not_and] at hcost htime
    exact iff_of_true rfl ⟨hcost.1, hcost.2, htime⟩

theorem decision_eq_conclude (hpresent : i.missingRequiredAgentKeys = [])
    (henough : i.minimum i.mode ≤ i.desired i.mode) : i.decision request = i.conclude request i.course := by
  have hcheck : i.checkRequired request i.course = .ok () := if_pos hpresent
  have hshort : ¬ i.desired i.course.mode < i.minimum i.course.mode := Nat.not_lt.mpr henough
  have hsettle : i.settle request i.course = .ok i.course := by
    unfold Intake.settle Intake.afterShortage
    rw [if_neg hshort]
    exact if_neg hshort
  unfold Intake.decision
  rw [hcheck]
  dsimp only
  rw [hsettle]

/-- Once no more than `n` candidates are wanted, offering just `n` wants all of them. -/
theorem desired_again {size available n : Nat}
    (h : n ≤ min (max (desiredProviderCount mode available) size) available) :
    min (max (desiredProviderCount mode n) size) n = n := by
  cases mode <;> simp only [desiredProviderCount] at h ⊢ <;> omega

end Intake

/-- `i'` demands what `i` does, and just the selection of `i` is eligible there. -/
structure Intake.Narrows (i i' : Intake) : Prop where
  mode : i'.mode = i.mode
  protocol : i'.protocol = i.protocol
  requiredSelection : i'.requiredSelection = i.requiredSelection
  reviewer : i'.requiredReviewerAgentKey = i.requiredReviewerAgentKey
  budget : i'.budget = i.budget
  requireHumanApproval : i'.requireHumanApproval = i.requireHumanApproval
  eligible : i'.eligible = i.eligible.filter (· ∈ i.reduced i.course)
  present : i'.missingRequiredAgentKeys = []

section Again
variable {request request' : PolicyRequest} {caps : KeySet Text} {i i' : Intake}

/-- An intake whose own course, undegraded, is allowed. -/
structure Intake.Direct (request : PolicyRequest) (i : Intake) : Prop where
  reads : ∃ caps, i.Reads request caps
  present : i.missingRequiredAgentKeys = []
  enough : i.minimum i.mode ≤ i.desired i.mode
  allowed : (i.conclude request i.course).allowed = true

theorem Intake.Direct.selection (h : i.Direct request) :
    Selection i.requiredSelection i.eligible (i.reduced i.course) := by
  obtain ⟨caps, hreads⟩ := h.reads
  exact reduced_selection hreads h.present

theorem Intake.Direct.distinct (h : i.Direct request) : (i.eligible.map trimmedKey).Nodup := by
  obtain ⟨caps, hreads⟩ := h.reads
  exact hreads.distinct

theorem Intake.Direct.mem_filter (h : i.Direct request) {p : ProviderCandidate} :
    p ∈ i.eligible.filter (· ∈ i.reduced i.course) ↔ p ∈ i.reduced i.course := by
  rw [List.mem_filter, decide_eq_true_eq]
  exact and_iff_right_of_imp fun hp => h.selection.subset hp

theorem Intake.Direct.filter_perm (h : i.Direct request) :
    (i.eligible.filter (· ∈ i.reduced i.course)).Perm (i.reduced i.course) :=
  (List.perm_ext_iff_of_nodup (h.distinct.of_map.filter _) h.selection.nodup.of_map).mpr fun _ => h.mem_filter

theorem Intake.Direct.length_le (h : i.Direct request) :
    (i.reduced i.course).length ≤ min (max (desiredProviderCount i.mode i.maxSelectable) i.requiredSelection.size)
      i.maxSelectable := by
  obtain ⟨caps, hreads⟩ := h.reads
  calc (i.reduced i.course).length
      ≤ (i.pick i.course).length := length_reduced_le_pick
    _ = (pickProviders i.requiredSelection i.eligible (i.desired i.mode)).length :=
        (moveReviewerLast_perm _ _).length_eq
    _ ≤ max i.requiredSelection.size (i.desired i.mode) := length_pickProviders_le (hreads.present h.present)
    _ ≤ i.desired i.mode := max_le ((le_max_right _ _).trans h.enough) le_rfl

theorem Intake.Narrows.desired (hn : i.Narrows i') (h : i.Direct request) :
    i'.desired i'.mode = (i.reduced i.course).length := by
  have hle := h.length_le
  have hselectable : i'.maxSelectable = (i.reduced i.course).length := by
    rw [Intake.maxSelectable, hn.eligible, h.filter_perm.length_eq, hn.budget]
    exact min_eq_right (hle.trans ((min_le_right _ _).trans (min_le_left _ _)))
  rw [Intake.desired, hselectable, hn.mode, hn.requiredSelection]
  exact desired_again hle

theorem Intake.Narrows.minimum (hn : i.Narrows i') : i'.minimum i'.mode = i.minimum i.mode := by
  rw [Intake.minimum, hn.mode, hn.requiredSelection]
  rfl

theorem Intake.Narrows.pick (hn : i.Narrows i') (h : i.Direct request) :
    i'.pick i'.course = i.reduced i.course := by
  obtain ⟨caps, hreads⟩ := h.reads
  obtain ⟨extra, hshape, hextra, hopt⟩ := reduced_shape (c := i.course) hreads
  have hperm := moveReviewerLast_perm i.requiredReviewerAgentKey
    (requiredPart i.requiredSelection i.eligible ++ extra)
  rw [← hshape] at hperm
  have hagain := pickProviders_again h.distinct hextra hopt List.filter_sublist
    fun p => h.mem_filter.trans hperm.mem_iff
  change moveReviewerLast i'.requiredReviewerAgentKey
    (pickProviders i'.requiredSelection i'.eligible (i'.desired i'.mode)) = _
  rw [hn.desired h, hperm.length_eq, hn.requiredSelection, hn.eligible, hagain, hn.reviewer, ← hshape]

theorem Intake.Narrows.decision (hn : i.Narrows i') (h : i.Direct request)
    (hduration : request'.expectedDurationMs = request.expectedDurationMs) :
    i'.decision request' = i'.allow request' i'.course (i.reduced i.course) := by
  obtain ⟨hmin, hcost, hwall⟩ := conclude_allowed.mp h.allowed
  have hreduced : i'.reduced i'.course = i.reduced i.course := by
    unfold Intake.reduced
    dsimp only
    rw [hn.pick h, dropOptional_of_affordable _ (hn.budget ▸ hcost), ite_self]
    rfl
  have hnote : i'.noteReduction i'.course = i'.course := by
    unfold Intake.noteReduction
    rw [hreduced, hn.pick h, if_neg (lt_irrefl _)]
  have henough : i'.minimum i'.mode ≤ i'.desired i'.mode := by
    rw [hn.minimum, hn.desired h]
    exact hmin
  rw [decision_eq_conclude hn.present henough]
  unfold Intake.conclude
  dsimp only
  rw [hreduced, hnote, if_neg, if_neg]
  · rw [hduration, hn.budget]
    exact fun hlate => absurd (hwall hlate.1) (Nat.not_le.mpr hlate.2)
  · change ¬ ((i.reduced i.course).length < i'.minimum i'.mode ∨ _)
    rw [hn.minimum, hn.budget]
    exact not_or.mpr ⟨Nat.not_lt.mpr hmin, Nat.not_lt.mpr hcost⟩

theorem exists_narrows (h : i.Direct request) (hi : intake request = .ok i)
    {chosen : List ProviderCandidate} (hchosen : chosen.Perm (i.reduced i.course)) :
    ∃ i', intake (restricted request i.mode chosen) = .ok i' ∧ i.Narrows i' := by
  obtain ⟨hmin, -, -⟩ := conclude_allowed.mp h.allowed
  have hrequired : ∀ key ∈ i.requiredSelection, ∃ p ∈ chosen, trimmedKey p = key := by
    intro key hkey
    obtain ⟨p, hp, rfl⟩ := List.mem_map.mp (h.selection.required key hkey)
    exact ⟨p, hchosen.mem_iff.mpr hp, rfl⟩
  have hne : chosen ≠ [] := by
    rintro rfl
    rw [hchosen.symm.eq_nil, List.length_nil] at hmin
    have hone : 1 ≤ minimumProviderCount i.mode := by cases i.mode <;> decide
    exact absurd (hone.trans (le_max_left _ _)) (Nat.not_le.mpr (Nat.lt_succ_of_le hmin))
  have hsubperm := hchosen.subperm.trans (h.selection.nodup.of_map.subperm h.selection.subset)
  obtain ⟨caps, eligible, excluded, he, hi'⟩ := @intake_restricted _ _ i.mode _ hi hne hsubperm hrequired
  have hranked : i.eligible.Pairwise Ranked := by
    rw [he]
    exact pairwise_rankProviders eligible
  have hrank : rankProviders chosen = i.eligible.filter (· ∈ i.reduced i.course) :=
    rankProviders_eq_of_sublist h.distinct hranked List.filter_sublist (hchosen.trans h.filter_perm.symm)
  have hmode : i.mode = raisedMode request (effectiveRisk request caps) i.requiredReviewerAgentKey :=
    congrArg Intake.mode he
  obtain ⟨hrequiredMode, hraised, hprotocol⟩ :=
    modes_restricted request (effectiveRisk request caps) i.requiredReviewerAgentKey chosen
  rw [← hmode] at hrequiredMode hraised hprotocol
  refine ⟨_, hi', hraised, hprotocol.trans ?_, rfl, rfl, ?_, ?_, hrank, ?_⟩
  · exact (congrArg Intake.protocol he).symm
  · change clampBudget request.requestedBudget (budgetProfile (budgetRisk _ (requiredMode _ _ _))) = _
    rw [hrequiredMode]
    exact (congrArg Intake.budget he).symm
  · exact (congrArg Intake.requireHumanApproval he).symm
  · refine KeySet.difference_eq_nil.mpr fun key hkey => KeySet.mem_ofList.mpr ?_
    obtain ⟨p, hp, rfl⟩ := hrequired key hkey
    exact List.mem_map_of_mem ((List.perm_insertionSort _ _).mem_iff.mpr hp)

theorem direct_of_allowed (hi : intake request = .ok i) (hallowed : (i.decision request).allowed = true)
    (hplain : (i.decision request).degradation = none) :
    i.Direct request ∧ i.decision request = i.conclude request i.course := by
  obtain ⟨caps, hreads⟩ := intake_reads hi
  obtain ⟨c, hal⟩ := decision_allows hallowed
  obtain ⟨henough, hc⟩ := settle_eq_ok hal.settled
  rcases hc with rfl | hdegraded
  · have hconclude := @decision_eq_conclude request _ hal.present henough
    exact ⟨⟨⟨caps, hreads⟩, hal.present, henough, hconclude ▸ hallowed⟩, hconclude⟩
  · obtain ⟨g, hg, -⟩ := hdegraded.record
    have hnone : c.degradation = none := by
      rw [hal.decision] at hplain
      exact hplain
    exact absurd (hg.symm.trans hnone) (by simp)

theorem filter_providers_perm (hi : intake request = .ok i) {required : KeySet Text} {selected : List ProviderCandidate}
    (h : Selection required i.eligible selected) :
    (request.providers.filter fun p => trimmedKey p ∈ selected.map trimmedKey).Perm selected := by
  obtain ⟨caps, hreads⟩ := intake_reads hi
  obtain ⟨⟨⟩, hvalid, -⟩ := Except.bind_eq_ok.mp hi
  have hdistinct := validateRequest_distinct hvalid
  refine (List.perm_ext_iff_of_nodup (hdistinct.of_map.filter _) h.nodup.of_map).mpr fun p => ?_
  have hprovider : ∀ q ∈ selected, q ∈ request.providers := fun q hq => (hreads.eligible q (h.subset hq)).1
  rw [List.mem_filter, decide_eq_true_eq]
  constructor
  · rintro ⟨hp, hkey⟩
    obtain ⟨q, hq, hkey⟩ := List.mem_map.mp hkey
    rwa [List.inj_on_of_nodup_map hdistinct hp (hprovider q hq) hkey.symm]
  · exact fun hp => ⟨hprovider p hp, List.mem_map_of_mem hp⟩

end Again

/-- What two decisions have in common when they lead to the same plan. -/
structure SameOutcome (d d' : PolicyDecision) : Prop where
  allowed : d'.allowed = d.allowed
  mode : d'.mode = d.mode
  coordinationProtocol : d'.coordinationProtocol = d.coordinationProtocol
  executionTarget : d'.executionTarget = d.executionTarget
  budget : d'.budget = d.budget
  disposition : d'.disposition = d.disposition
  requireHumanApproval : d'.requireHumanApproval = d.requireHumanApproval
  selectedProviders : d'.selectedProviders = d.selectedProviders

def selectedCandidates (request : PolicyRequest) (d : PolicyDecision) : List ProviderCandidate :=
  request.providers.filter fun p => trimmedKey p ∈ d.selectedProviders.map SelectedProvider.agentKey

theorem evaluate_again {request : PolicyRequest} {d : PolicyDecision} (h : evaluate request = .ok d)
    (hallowed : d.allowed = true) (hplain : d.degradation = none) {chosen : List ProviderCandidate}
    (hchosen : chosen.Perm (selectedCandidates request d)) :
    ∃ d', evaluate (restricted request d.mode chosen) = .ok d' ∧ SameOutcome d d' := by
  obtain ⟨i, hi, he⟩ := Except.bind_eq_ok.mp h
  cases he
  obtain ⟨hdirect, hconclude⟩ := direct_of_allowed hi hallowed hplain
  have hd : i.decision request = i.allow request (i.noteReduction i.course) (i.reduced i.course) := by
    rcases conclude_cases i request i.course with hr | ⟨-, -, hd⟩
    · rw [← hconclude, Refusal, hallowed] at hr
      exact absurd hr.1 (by decide)
    · exact hconclude.trans hd
  have hmode : (i.decision request).mode = i.mode := by rw [hd]; rfl
  have hperm : chosen.Perm (i.reduced i.course) := by
    have hkeys : (i.decision request).selectedProviders.map SelectedProvider.agentKey =
        (i.reduced i.course).map trimmedKey := by
      rw [hd]
      exact map_agentKey_selectedProviders _ _
    rw [selectedCandidates, hkeys] at hchosen
    exact hchosen.trans (filter_providers_perm hi hdirect.selection)
  obtain ⟨i', hi', hnarrow⟩ := exists_narrows hdirect hi hperm
  refine ⟨i'.decision (restricted request i.mode chosen), ?_, ?_⟩
  · rw [hmode]
    exact Except.bind_eq_ok.mpr ⟨i', hi', rfl⟩
  · rw [@Intake.Narrows.decision _ (restricted request i.mode chosen) _ _ hnarrow hdirect rfl, hd]
    refine ⟨rfl, hnarrow.mode, hnarrow.protocol, congrArg executionTarget hnarrow.protocol, hnarrow.budget, ?_,
      hnarrow.requireHumanApproval, ?_⟩
    · change (if i'.requireHumanApproval then _ else _) = if i.requireHumanApproval then _ else _
      rw [hnarrow.requireHumanApproval]
    · change Intake.selectedProviders i'.mode _ = Intake.selectedProviders i.mode _
      rw [hnarrow.mode]

end AgentBridge.Policy
