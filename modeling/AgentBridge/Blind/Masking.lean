import AgentBridge.Blind.Records

/-! States that differ only in what one worker of one competition submitted. Masking
blanks that candidate; operations that never look at a stored candidate commute with it. -/

namespace AgentBridge.BlindCompetition
open State

section Mask
variable (worker channel : Text)

/-- The candidate without its content, if it is the worker's. -/
def maskSubmission (submission : BlindSubmission) : BlindSubmission :=
  if submission.agentKey = worker then { submission with content := [], metadata := .null } else submission

def maskValue : ContextValue → ContextValue
  | .blindSubmission submission => .blindSubmission (maskSubmission worker submission)
  | value => value

/-- Only candidates of the competition in `channel` are masked. -/
def maskEntry (slug key : Text) (e : ContextEntry) : ContextEntry :=
  if slug = channel ∧ blindSubmissionContextPrefix <+: key ∧ blindSubmissionContextPrefix <+: e.key then
    { e with value := maskValue worker e.value }
  else e

def maskChannel (slug : Text) (ch : ChannelState) : ChannelState :=
  { ch with context := ch.context.map (maskEntry worker channel slug) }

def mask (s : AppState) : AppState :=
  { s with channels := s.channels.map (maskChannel worker channel) }

/-- Nothing but the worker's candidate is different. -/
def Alike (s t : AppState) : Prop := mask worker channel s = mask worker channel t

/-- Equal replies, and states that stay alike. -/
def Same {α : Type} (p q : α × AppState) : Prop := p.1 = q.1 ∧ Alike worker channel p.2 q.2

end Mask

section Entries
variable {worker channel slug key : Text} {e : ContextEntry} {ch : ChannelState} {s t : AppState}

@[simp] theorem maskEntry_key : (maskEntry worker channel slug key e).key = e.key := by
  unfold maskEntry
  split_ifs <;> rfl

@[simp] theorem maskEntry_version : (maskEntry worker channel slug key e).version = e.version := by
  unfold maskEntry
  split_ifs <;> rfl

theorem maskEntry_of_key (h : ¬ blindSubmissionContextPrefix <+: key) : maskEntry worker channel slug key e = e :=
  if_neg fun hc => h hc.2.1

theorem maskEntry_of_entryKey (h : ¬ blindSubmissionContextPrefix <+: e.key) :
    maskEntry worker channel slug key e = e := if_neg fun hc => h hc.2.2

theorem maskEntry_of_slug (h : slug ≠ channel) : maskEntry worker channel slug key e = e := if_neg fun hc => h hc.1

@[simp] theorem get_maskChannel : (maskChannel worker channel slug ch).context.get key =
    (ch.context.get key).map (maskEntry worker channel slug key) := Table.get_map ..

@[simp] theorem contains_maskChannel :
    (maskChannel worker channel slug ch).context.contains key = ch.context.contains key := Table.contains_map ..

@[simp] theorem size_maskChannel : (maskChannel worker channel slug ch).context.size = ch.context.size :=
  Table.size_map ..

@[simp] theorem get_mask : (mask worker channel s).channels.get slug =
    (s.channels.get slug).map (maskChannel worker channel slug) := Table.get_map ..

@[simp] theorem config_mask : (mask worker channel s).config = s.config := rfl

@[simp] theorem agents_mask : (mask worker channel s).agents = s.agents := rfl

@[simp] theorem size_mask : (mask worker channel s).channels.size = s.channels.size := Table.size_map ..

@[simp] theorem contains_mask : (mask worker channel s).channels.contains slug = s.channels.contains slug :=
  Table.contains_map ..

theorem mask_setChannel : mask worker channel (s.setChannel slug ch) =
    (mask worker channel s).setChannel slug (maskChannel worker channel slug ch) := by
  unfold mask AppState.setChannel
  rw [Table.map_insert]

theorem maskChannel_putContext : (maskChannel worker channel slug (ch.putContext e)).context =
    (maskChannel worker channel slug ch).context.insert e.key (maskEntry worker channel slug e.key e) :=
  Table.map_insert ..

theorem Alike.refl (s : AppState) : Alike worker channel s s := rfl

theorem Alike.trans {u : AppState} (h : Alike worker channel s t) (h' : Alike worker channel t u) :
    Alike worker channel s u := Eq.trans h h'

theorem Alike.config (h : Alike worker channel s t) : s.config = t.config := by
  have heq : (mask worker channel s).config = (mask worker channel t).config := congrArg AppState.config h
  exact heq

theorem Alike.agents (h : Alike worker channel s t) : s.agents = t.agents := by
  have heq : (mask worker channel s).agents = (mask worker channel t).agents := congrArg AppState.agents h
  exact heq

theorem Alike.get (h : Alike worker channel s t) (slug : Text) :
    (s.channels.get slug).map (maskChannel worker channel slug) =
      (t.channels.get slug).map (maskChannel worker channel slug) := by
  rw [← get_mask, ← get_mask, h]

theorem Alike.channel_cases (h : Alike worker channel s t) (slug : Text) :
    (s.channels.get slug = none ∧ t.channels.get slug = none) ∨
    ∃ ch ch', s.channels.get slug = some ch ∧ t.channels.get slug = some ch' ∧
      maskChannel worker channel slug ch = maskChannel worker channel slug ch' := by
  have hget := h.get slug
  cases hs : s.channels.get slug with
  | none =>
    rw [hs] at hget
    exact .inl ⟨rfl, Option.map_eq_none_iff.mp hget.symm⟩
  | some ch =>
    rw [hs] at hget
    obtain ⟨ch', ht, hch⟩ := Option.map_eq_some_iff.mp hget.symm
    exact .inr ⟨ch, ch', rfl, ht, hch.symm⟩

theorem Alike.same {α : Type} (h : Alike worker channel s t) (op : AppState → α × AppState)
    (hop : ∀ s, op (mask worker channel s) = ((op s).1, mask worker channel (op s).2)) :
    Same worker channel (op s) (op t) := by
  have heq : ((op s).1, mask worker channel (op s).2) = ((op t).1, mask worker channel (op t).2) := by
    rw [← hop s, ← hop t, h]
  exact ⟨(Prod.mk.inj heq).1, (Prod.mk.inj heq).2⟩

theorem Same.cases {α : Type} {p q : BridgeResult α × AppState} (h : Same worker channel p q) :
    (∃ e s t, p = (.error e, s) ∧ q = (.error e, t) ∧ Alike worker channel s t) ∨
    ∃ a s t, p = (.ok a, s) ∧ q = (.ok a, t) ∧ Alike worker channel s t := by
  obtain ⟨r, s⟩ := p
  obtain ⟨r', t⟩ := q
  obtain ⟨hr, hst⟩ := h
  change r = r' at hr
  subst hr
  cases r with
  | error e => exact .inl ⟨e, s, t, rfl, rfl, hst⟩
  | ok a => exact .inr ⟨a, s, t, rfl, rfl, hst⟩

end Entries

section Operations
variable {worker channel : Text}

theorem registerAgent_mask (s : AppState) (now : Now) (agent : Agent) :
    (mask worker channel s).registerAgent now agent =
      ((s.registerAgent now agent).1, mask worker channel (s.registerAgent now agent).2) := by
  unfold AppState.registerAgent mask
  dsimp only
  split_ifs <;> rfl

theorem join_mask (s : AppState) (now : Now) (slug key : Text) (role : MemberRole) :
    (mask worker channel s).join now slug key role =
      ((s.join now slug key role).1, mask worker channel (s.join now slug key role).2) := by
  unfold AppState.join
  dsimp only
  cases AppState.joinChecks (Text.trim key) with
  | error e => rfl
  | ok u =>
    rw [get_mask]
    cases hch : s.channels.get slug with
    | none => rfl
    | some ch =>
      dsimp only [Option.map_some]
      have hmembers : (maskChannel worker channel slug ch).members = ch.members := rfl
      rw [hmembers]
      cases ch.members.get (Text.trim key) with
      | some m =>
        dsimp only
        rw [mask_setChannel]
        rfl
      | none =>
        dsimp only
        split_ifs
        · rfl
        · dsimp only
          rw [mask_setChannel]
          rfl

theorem leave_mask (s : AppState) (now : Now) (slug key : Text) :
    (mask worker channel s).leave now slug key =
      ((s.leave now slug key).1, mask worker channel (s.leave now slug key).2) := by
  unfold AppState.leave
  rw [get_mask]
  cases hch : s.channels.get slug with
  | none => rfl
  | some ch =>
    dsimp only [Option.map_some]
    have hmembers : (maskChannel worker channel slug ch).members = ch.members := rfl
    rw [hmembers]
    split_ifs
    · dsimp only
      rw [mask_setChannel]
      rfl
    · rfl

theorem postMessage_mask (s : AppState) (now : Now) (newId slug sender : Text) (role : Role) (content : Text)
    (metadata : Json) : (mask worker channel s).postMessage now newId slug sender role content metadata =
      ((s.postMessage now newId slug sender role content metadata).1,
        mask worker channel (s.postMessage now newId slug sender role content metadata).2) := by
  have hchecks : (mask worker channel s).postChecks (Text.trim sender) content metadata =
      s.postChecks (Text.trim sender) content metadata := rfl
  unfold AppState.postMessage
  dsimp only
  rw [hchecks, join_mask]
  cases s.postChecks (Text.trim sender) content metadata with
  | error e => rfl
  | ok u =>
    dsimp only
    rcases s.join now slug (Text.trim sender) .member with ⟨r, s₁⟩
    cases r with
    | error e => rfl
    | ok out =>
      dsimp only
      rw [get_mask]
      cases s₁.channels.get slug with
      | none => rfl
      | some ch =>
        dsimp only [Option.map_some]
        rw [mask_setChannel]
        rfl

theorem insertChannel_mask (s : AppState) (now : Now) (slug topic createdBy : Text) (embedding : List Float32)
    (model : Text) : (mask worker channel s).insertChannel now slug topic createdBy embedding model =
      ((s.insertChannel now slug topic createdBy embedding model).1,
        mask worker channel (s.insertChannel now slug topic createdBy embedding model).2) := by
  unfold AppState.insertChannel
  dsimp only
  rw [get_mask]
  cases s.channels.get slug with
  | some ch => rfl
  | none =>
    dsimp only [Option.map_none]
    have hroom : (mask worker channel s).channels.size ≥ (mask worker channel s).config.maxChannels ↔
        s.channels.size ≥ s.config.maxChannels := by rw [size_mask, config_mask]
    by_cases hfull : s.channels.size ≥ s.config.maxChannels
    · rw [if_pos hfull, if_pos (hroom.mpr hfull)]
      rfl
    · rw [if_neg hfull, if_neg (hroom.not.mpr hfull)]
      dsimp only
      rw [mask_setChannel]
      rfl

theorem createOrGetChannel_mask (s : AppState) (w : Surroundings) (now : Now) (slug topic createdBy : Text) :
    (mask worker channel s).createOrGetChannel w now slug topic createdBy =
      ((s.createOrGetChannel w now slug topic createdBy).1,
        mask worker channel (s.createOrGetChannel w now slug topic createdBy).2) := by
  unfold AppState.createOrGetChannel
  dsimp only
  rw [get_mask]
  by_cases hempty : slugify w slug = []
  · rw [if_pos hempty, if_pos hempty]
  · rw [if_neg hempty, if_neg hempty]
    cases s.channels.get (slugify w slug) with
    | some ch => rfl
    | none =>
      dsimp only [Option.map_none]
      rw [insertChannel_mask]

theorem joinAll_mask (s : AppState) (now : Now) (slug : Text) (keys : List Text) :
    Orchestration.joinAll (mask worker channel s) now slug keys =
      ((Orchestration.joinAll s now slug keys).1, mask worker channel (Orchestration.joinAll s now slug keys).2) := by
  induction keys generalizing s with
  | nil => rfl
  | cons key keys ih =>
    rw [Orchestration.joinAll, Orchestration.joinAll, join_mask]
    rcases s.join now slug key .member with ⟨r, s₁⟩
    cases r with
    | error e => rfl
    | ok out => exact ih s₁

theorem subscribe_mask (s : AppState) (now : Now) (slug : Text) (agentKey : Option Text) :
    (mask worker channel s).subscribe now slug agentKey =
      ((s.subscribe now slug agentKey).1, mask worker channel (s.subscribe now slug agentKey).2) := by
  unfold AppState.subscribe
  dsimp only
  cases agentKey.filter (fun k => Text.trim k ≠ []) with
  | none =>
    dsimp only
    rw [get_mask]
    cases s.channels.get slug <;> rfl
  | some key =>
    dsimp only
    rw [join_mask]
    rcases s.join now slug key .member with ⟨r, s₁⟩
    cases r with
    | error e => rfl
    | ok out =>
      dsimp only
      rw [get_mask]
      cases s₁.channels.get slug <;> rfl

end Operations

section Reads
variable {worker channel slug key : Text} {s : AppState}

theorem maskEntry_of_freeEntry {e : ContextEntry} (h : isReservedContextKey e.key = false) :
    maskEntry worker channel slug key e = e :=
  maskEntry_of_entryKey fun hp => by
    rw [isReserved_of_blind (.inr (.inr hp))] at h
    cases h

theorem getContextKeyInternal_mask (s : AppState) (slug key : Text) :
    (mask worker channel s).getContextKeyInternal slug key =
      (s.getContextKeyInternal slug key).map (Option.map (maskEntry worker channel slug key)) := by
  unfold AppState.getContextKeyInternal
  rw [get_mask]
  cases s.channels.get slug with
  | none => rfl
  | some ch =>
    dsimp only [Option.map_some]
    rw [get_maskChannel]
    rfl

/-- A record that is no candidate is read as it is. -/
theorem getContextKeyInternal_other (hkey : ¬ blindSubmissionContextPrefix <+: key) :
    (mask worker channel s).getContextKeyInternal slug key = s.getContextKeyInternal slug key := by
  have hid : maskEntry worker channel slug key = id := funext fun e => maskEntry_of_key hkey
  rw [getContextKeyInternal_mask, hid, Option.map_id]
  cases s.getContextKeyInternal slug key <;> rfl

theorem getContextKey_mask : (mask worker channel s).getContextKey slug key = s.getContextKey slug key := by
  unfold AppState.getContextKey
  by_cases hreserved : isReservedContextKey key = true
  · rw [if_pos hreserved, if_pos hreserved]
  · rw [if_neg hreserved, if_neg hreserved]
    exact getContextKeyInternal_other fun hp => hreserved (isReserved_of_blind (.inr (.inr hp)))

theorem getContextInternal_mask {α : Type} {f : ContextEntry → Option α}
    (hf : ∀ key e, f (maskEntry worker channel slug key e) = f e) :
    ((mask worker channel s).getContextInternal slug).map (List.filterMap f) =
      (s.getContextInternal slug).map (List.filterMap f) := by
  unfold AppState.getContextInternal
  rw [get_mask]
  cases s.channels.get slug with
  | none => rfl
  | some ch =>
    have hmasked : (maskChannel worker channel slug ch).context.values.insertionSort (fun a b => a.key ≤ b.key) =
        (ch.context.toAList.entries.insertionSort fun a b => a.2.key ≤ b.2.key).map
          fun e => maskEntry worker channel slug e.1 e.2 := by
      refine Table.values_map_insertionSort ?_ _
      intro k a k' b
      rw [maskEntry_key, maskEntry_key]
    dsimp only [Option.map_some, Except.map]
    rw [hmasked, Table.values_insertionSort, List.filterMap_map, List.filterMap_map]
    exact congrArg Except.ok (List.filterMap_congr fun e _ => hf e.1 e.2)

theorem getContext_mask : (mask worker channel s).getContext slug = s.getContext slug := by
  have hfree (key : Text) (e : ContextEntry) :
      Option.guard (fun e => !isReservedContextKey e.key) (maskEntry worker channel slug key e) =
        Option.guard (fun e => !isReservedContextKey e.key) e := by
    cases he : isReservedContextKey e.key with
    | false => rw [maskEntry_of_freeEntry he]
    | true => simp [Option.guard, he]
  have hread := getContextInternal_mask (s := s) hfree
  rw [List.filterMap_eq_filter] at hread
  exact hread

theorem loadReveal_mask (s : AppState) (slug : Text) : loadReveal (mask worker channel s) slug = loadReveal s slug := by
  unfold loadReveal
  rw [getContextKeyInternal_other not_prefix_reveal]

theorem loadPlan_mask (s : AppState) (workflowId : Text) :
    loadPlan (mask worker channel s) workflowId = loadPlan s workflowId := by
  unfold loadPlan
  simp only [getContextKeyInternal_other not_prefix_plan]

theorem assignedWorker_mask (s : AppState) (identity : AuthenticatedAdapter) (plan : BlindCompetitionPlan) :
    assignedWorker (mask worker channel s) identity plan = assignedWorker s identity plan := by
  unfold assignedWorker
  rw [loadReveal_mask]

theorem maskSubmission_idem (submission : BlindSubmission) :
    maskSubmission worker (maskSubmission worker submission) = maskSubmission worker submission := by
  unfold maskSubmission
  split_ifs <;> rfl

theorem maskSubmission_ordinal (submission : BlindSubmission) :
    (maskSubmission worker submission).assignmentOrdinal = submission.assignmentOrdinal := by
  unfold maskSubmission
  split_ifs <;> rfl

theorem parseSubmission_mask (key : Text) (e : ContextEntry) :
    (parseSubmission (maskEntry worker channel slug key e)).map (maskSubmission worker) =
      (parseSubmission e).map (maskSubmission worker) := by
  unfold parseSubmission
  rw [maskEntry_key]
  unfold maskEntry
  split_ifs
  · cases e.value with
    | blindSubmission submission => exact congrArg some (maskSubmission_idem submission)
    | json value => rfl
    | workflowPlan plan => rfl
    | workflowSubmission submission => rfl
    | admission record => rfl
    | blindPlan plan => rfl
    | blindReveal reveal => rfl
    | leaseDescriptor descriptor => rfl
  · rfl
  · rfl

theorem loadSubmissions_mask (s : AppState) (slug : Text) :
    (loadSubmissions (mask worker channel s) slug).map (List.map (maskSubmission worker)) =
      (loadSubmissions s slug).map (List.map (maskSubmission worker)) := by
  have hread : ((mask worker channel s).getContextInternal slug).map
      (List.filterMap fun e => (parseSubmission e).map (maskSubmission worker)) =
      (s.getContextInternal slug).map
        (List.filterMap fun e => (parseSubmission e).map (maskSubmission worker)) :=
    getContextInternal_mask parseSubmission_mask
  have hsorted (l : List BlindSubmission) :
      (l.insertionSort fun a b => a.assignmentOrdinal ≤ b.assignmentOrdinal).map (maskSubmission worker) =
        (l.map (maskSubmission worker)).insertionSort fun a b => a.assignmentOrdinal ≤ b.assignmentOrdinal := by
    refine List.map_insertionSort _ _ _ _ fun a _ b _ => ?_
    rw [maskSubmission_ordinal, maskSubmission_ordinal]
  unfold loadSubmissions
  rcases Except.map_eq_map hread with ⟨e, hmasked, hplain⟩ | ⟨masked, plain, hmasked, hplain, hlists⟩
  · rw [hmasked, hplain]
  · rw [hmasked, hplain]
    dsimp only [Except.map]
    rw [hsorted, hsorted, List.map_filterMap, List.map_filterMap, hlists]

theorem loadSubmissions_other (s : AppState) (hslug : slug ≠ channel) :
    loadSubmissions (mask worker channel s) slug = loadSubmissions s slug := by
  have hid (key : Text) (e : ContextEntry) : maskEntry worker channel slug key e = e := maskEntry_of_slug hslug
  have hctx (ch : ChannelState) : (maskChannel worker channel slug ch).context = ch.context :=
    Table.map_eq_self hid _
  unfold loadSubmissions AppState.getContextInternal
  rw [get_mask]
  cases s.channels.get slug with
  | none => rfl
  | some ch =>
    dsimp only [Option.map_some]
    rw [hctx]

theorem maskSubmission_agentKey (submission : BlindSubmission) :
    (maskSubmission worker submission).agentKey = submission.agentKey := by
  unfold maskSubmission
  split_ifs <;> rfl

theorem maskSubmission_of_ne {submission : BlindSubmission} (h : submission.agentKey ≠ worker) :
    maskSubmission worker submission = submission := if_neg h

theorem filter_mask {viewer : Option Text} (hviewer : viewer ≠ some worker) (submissions : List BlindSubmission) :
    (submissions.map (maskSubmission worker)).filter (fun submission => viewer = some submission.agentKey) =
      submissions.filter fun submission => viewer = some submission.agentKey := by
  have hkey : ((fun submission : BlindSubmission => decide (viewer = some submission.agentKey)) ∘
      maskSubmission worker) = fun submission => decide (viewer = some submission.agentKey) := by
    funext submission
    rw [Function.comp_apply, maskSubmission_agentKey]
  rw [List.filter_map, hkey]
  refine (List.map_congr_left fun submission hmem => ?_).trans (List.map_id _)
  apply maskSubmission_of_ne
  rintro rfl
  exact hviewer (of_decide_eq_true (List.mem_filter.mp hmem).2)

theorem loadReveal_of_hidden (h : s.entry slug blindRevealContextKey = none) {reveal : Option BlindReveal}
    (hload : loadReveal s slug = .ok reveal) : reveal = none := by
  unfold loadReveal AppState.getContextKeyInternal at hload
  unfold AppState.entry at h
  cases hch : s.channels.get slug with
  | none =>
    rw [hch] at hload
    cases hload
  | some ch =>
    rw [hch] at h hload
    dsimp only [bind, Except.bind] at hload
    rw [Option.bind_some] at h
    rw [h] at hload
    exact (Except.ok.inj hload).symm

theorem buildView_mask (s : AppState) (plan : BlindCompetitionPlan) {viewer : Option Text}
    (hviewer : viewer ≠ some worker) (hhidden : s.entry channel blindRevealContextKey = none) :
    buildView (mask worker channel s) plan viewer = buildView s plan viewer := by
  unfold buildView
  rw [loadReveal_mask]
  by_cases hslug : plan.channel = channel
  · have hload : (loadSubmissions (mask worker channel s) plan.channel).map (List.map (maskSubmission worker)) =
        (loadSubmissions s plan.channel).map (List.map (maskSubmission worker)) := loadSubmissions_mask s _
    rcases Except.map_eq_map hload with ⟨e, hmasked, hplain⟩ | ⟨masked, plain, hmasked, hplain, hlists⟩
    · rw [hmasked, hplain]
    · have hlength : masked.length = plain.length := by
        rw [← List.length_map (maskSubmission worker), hlists, List.length_map]
      have hvisible : masked.filter (fun submission => viewer = some submission.agentKey) =
          plain.filter fun submission => viewer = some submission.agentKey := by
        rw [← filter_mask hviewer masked, hlists, filter_mask hviewer plain]
      rw [hmasked, hplain]
      cases hreveal : loadReveal s plan.channel with
      | error e => rfl
      | ok reveal =>
        obtain rfl := loadReveal_of_hidden (hslug ▸ hhidden) hreveal
        dsimp only [bind, Except.bind, Option.isSome_none]
        simp only [hlength, hvisible, Bool.false_eq_true, if_false]
  · rw [loadSubmissions_other s hslug]

end Reads
end AgentBridge.BlindCompetition
