import AgentBridge.Base.Url
import AgentBridge.Slack.Registry

/-! What the registry authorises: the loaded bindings against the document they were read from, and the
requests that are resolved against the conditions of their binding. -/

namespace AgentBridge.Slack

section Characters

theorem repositoryChar_iff {c : Char} : repositoryChar c = true ↔ ((48 ≤ c.toNat ∧ c.toNat ≤ 57) ∨
    (65 ≤ c.toNat ∧ c.toNat ≤ 90) ∨ (97 ≤ c.toNat ∧ c.toNat ≤ 122)) ∨ c.toNat = 45 ∨ c.toNat = 95 ∨ c.toNat = 46 := by
  have hchar : ∀ d : Char, (c == d) = true ↔ c.toNat = d.toNat := by
    intro d
    rw [beq_iff_eq, Char.toNat_inj]
  rw [repositoryChar, Bool.or_eq_true, Bool.or_eq_true, Bool.or_eq_true, Text.isAsciiAlphanumeric_iff, hchar, hchar,
    hchar, or_assoc, or_assoc]
  rfl

theorem repositoryChar_toLower {c : Char} (h : repositoryChar c = true) : repositoryChar c.toLower = true := by
  by_cases hc : 65 ≤ c.toNat ∧ c.toNat ≤ 90
  · have hlower := Text.toNat_toLower hc
    rw [repositoryChar_iff]
    omega
  · rw [Text.toLower_of_not_upper hc]
    exact h

theorem isWhitespace_of_repositoryChar {c : Char} (h : repositoryChar c = true) : Text.isWhitespace c = false := by
  rw [repositoryChar_iff] at h
  simp only [Text.isWhitespace, Bool.or_eq_false_iff, Bool.and_eq_false_iff, decide_eq_false_iff_not,
    beq_eq_false_iff_ne]
  omega

theorem repositoryChar_ne {c d : Char} (h : repositoryChar c = true) (hd : repositoryChar d = false) : c ≠ d := by
  rintro rfl
  rw [h] at hd
  cases hd

end Characters

/-- A repository name as the registry reads it. -/
structure RepositoryName (owner repository : Text) : Prop where
  ownerNe : owner ≠ []
  repositoryNe : repository ≠ []
  ownerChars : ∀ c ∈ owner, repositoryChar c = true
  repositoryChars : ∀ c ∈ repository, repositoryChar c = true
  length : Text.byteLen (owner ++ '/' :: repository) ≤ maxIdentifierBytes

section Repositories
variable {value owner repository result : Text}

theorem byteLen_toAsciiLowercase (h : ∀ c ∈ owner, repositoryChar c = true) :
    Text.byteLen (Text.toAsciiLowercase owner) = Text.byteLen owner := by
  have hone : ∀ c : Char, repositoryChar c = true → c.utf8Size = 1 := by
    intro c hc
    rw [repositoryChar_iff] at hc
    rw [Char.utf8Size_eq_one_iff, UInt32.le_iff_toNat_le]
    change c.toNat ≤ 127
    omega
  rw [Text.byteLen, Text.byteLen, Text.toAsciiLowercase, List.map_map]
  refine congrArg List.sum (List.map_congr_left fun c hc => ?_)
  rw [Function.comp_apply, hone c (h c hc), hone _ (repositoryChar_toLower (h c hc))]

theorem chars_toAsciiLowercase (h : ∀ c ∈ owner, repositoryChar c = true) :
    ∀ c ∈ Text.toAsciiLowercase owner, repositoryChar c = true := by
  intro c hc
  obtain ⟨d, hd, rfl⟩ := List.mem_map.mp hc
  exact repositoryChar_toLower (h d hd)

theorem RepositoryName.toLower (h : RepositoryName owner repository) :
    RepositoryName (Text.toAsciiLowercase owner) (Text.toAsciiLowercase repository) := by
  refine ⟨?_, ?_, chars_toAsciiLowercase h.ownerChars, chars_toAsciiLowercase h.repositoryChars, ?_⟩
  · rw [Text.toAsciiLowercase, Ne, List.map_eq_nil_iff]
    exact h.ownerNe
  · rw [Text.toAsciiLowercase, Ne, List.map_eq_nil_iff]
    exact h.repositoryNe
  · have hlength := h.length
    rw [Text.byteLen_append, Text.byteLen_cons] at hlength ⊢
    rwa [byteLen_toAsciiLowercase h.ownerChars, byteLen_toAsciiLowercase h.repositoryChars]

theorem RepositoryName.char {c : Char} (h : RepositoryName owner repository) (hc : c ∈ owner ++ '/' :: repository) :
    c = '/' ∨ repositoryChar c = true := by
  rcases List.mem_append.mp hc with howner | hrest
  · exact .inr (h.ownerChars c howner)
  · rcases List.mem_cons.mp hrest with rfl | hrepository
    · exact .inl rfl
    · exact .inr (h.repositoryChars c hrepository)

theorem RepositoryName.trim (h : RepositoryName owner repository) :
    Text.trim (owner ++ '/' :: repository) = owner ++ '/' :: repository := by
  apply Text.trim_eq_self
  intro c hc
  rcases h.char hc with rfl | hchar
  · rfl
  · exact isWhitespace_of_repositoryChar hchar

theorem RepositoryName.passes (h : RepositoryName owner repository) : ¬ "://".toList <:+: owner ++ '/' :: repository ∧
    (owner ++ '/' :: repository).count '/' = 1 := by
  have hslash : ∀ s : Text, (∀ c ∈ s, repositoryChar c = true) → s.count '/' = 0 := by
    intro s hs
    rw [List.count_eq_zero]
    intro hmem
    exact repositoryChar_ne (hs _ hmem) (by decide) rfl
  constructor
  · intro hinside
    rcases h.char (hinside.subset (by decide : ':' ∈ "://".toList)) with hc | hc
    · exact absurd hc (by decide)
    · exact absurd hc (by decide)
  · rw [List.count_append, List.count_cons_self, hslash owner h.ownerChars, hslash repository h.repositoryChars]

/-- What `normalize_repository` accepts and what it makes of it. -/
theorem normalizeRepository_eq_ok : normalizeRepository value = .ok result ↔
    ∃ owner repository, RepositoryName owner repository ∧ Text.trim value = owner ++ '/' :: repository ∧
      ¬ ".git".toList <:+ Text.trim value ∧
      result = Text.toAsciiLowercase owner ++ '/' :: Text.toAsciiLowercase repository := by
  unfold normalizeRepository
  simp only [Except.bind_eq_ok, Except.refuseIf_eq_ok]
  constructor
  · rintro ⟨_, hcheck, hsplit⟩
    simp only [not_or, not_lt, gt_iff_lt, not_not] at hcheck
    obtain ⟨-, hlength, -, hgit, -⟩ := hcheck
    rcases hs : Text.splitOnce '/' (Text.trim value) with _ | ⟨owner, repository⟩
    · rw [hs] at hsplit
      cases hsplit
    · rw [hs] at hsplit
      obtain ⟨_, hparts, hresult⟩ := Except.bind_eq_ok.mp hsplit
      rw [Except.refuseIf_eq_ok] at hparts
      simp only [not_or, not_not, List.all_eq_true] at hparts
      obtain ⟨howner, hrepository, hownerChars, hrepositoryChars⟩ := hparts
      obtain ⟨htrim, -⟩ := Text.splitOnce_eq_some.mp hs
      exact ⟨owner, repository, ⟨howner, hrepository, hownerChars, hrepositoryChars, htrim ▸ hlength⟩, htrim, hgit,
        (Except.ok.inj hresult).symm⟩
  · rintro ⟨owner, repository, hname, htrim, hgit, rfl⟩
    have hsplit : Text.splitOnce '/' (Text.trim value) = some (owner, repository) := by
      refine Text.splitOnce_eq_some.mpr ⟨htrim, ?_⟩
      intro hmem
      exact repositoryChar_ne (hname.ownerChars _ hmem) (by decide) rfl
    obtain ⟨hurl, hcount⟩ := hname.passes
    refine ⟨(), ?_, ?_⟩
    · rw [htrim] at hgit ⊢
      simp only [not_or, not_lt, gt_iff_lt, not_not]
      exact ⟨by simp, hname.length, hurl, hgit, hcount⟩
    · rw [hsplit]
      refine Except.bind_eq_ok.mpr ⟨(), ?_, rfl⟩
      rw [Except.refuseIf_eq_ok]
      simp only [not_or, not_not, List.all_eq_true]
      exact ⟨hname.ownerNe, hname.repositoryNe, hname.ownerChars, hname.repositoryChars⟩

theorem normalizeRepository_again (h : normalizeRepository value = .ok result) :
    normalizeRepository result = .ok result ↔ ¬ ".git".toList <:+ Text.toAsciiLowercase (Text.trim value) := by
  obtain ⟨owner, repository, hname, htrim, -, rfl⟩ := normalizeRepository_eq_ok.mp h
  have hlower := hname.toLower
  have hresult : Text.toAsciiLowercase (Text.trim value) =
      Text.toAsciiLowercase owner ++ '/' :: Text.toAsciiLowercase repository := by
    rw [htrim, Text.toAsciiLowercase, List.map_append, List.map_cons]
    rfl
  rw [hresult, normalizeRepository_eq_ok, hlower.trim]
  constructor
  · rintro ⟨_, _, -, -, hgit, -⟩
    exact hgit
  · intro hgit
    refine ⟨_, _, hlower, rfl, hgit, ?_⟩
    rw [Text.toAsciiLowercase_toAsciiLowercase, Text.toAsciiLowercase_toAsciiLowercase]

end Repositories

def StableIdentifier (value : Text) : Prop := validateStableIdentifier value = .ok ()

/-- What a binding that was loaded satisfies, and what the normalisation made of the one in the document. -/
structure Validated (readers : RegistryReaders) (raw binding : ChannelProjectBinding) : Prop where
  identifiers : ∀ id ∈ [raw.workspaceId, raw.channelId, raw.linearTeamId, raw.linearProjectId, raw.updatedBy],
    StableIdentifier id
  teamKey : validateTeamKey raw.linearTeamKey = .ok ()
  someRepository : raw.repositoryAllowlist.keys ≠ []
  repositories : raw.repositoryAllowlist.size ≤ maxRepositoriesPerBinding
  allowlist : ∃ normalized, raw.repositoryAllowlist.keys.mapM normalizeRepository = .ok normalized ∧
    binding.repositoryAllowlist = .ofList normalized
  defaultRepository : normalizeRepository raw.defaultRepository = .ok binding.defaultRepository
  defaultAllowed : binding.defaultRepository ∈ binding.repositoryAllowlist
  defaultMode : raw.defaultAgentMode ∈ raw.allowedAgentModes
  principals : raw.allowedUserIds.size + raw.allowedUserGroupIds.size ≠ 0
  principalIds : ∀ id ∈ raw.allowedUserIds.keys ++ raw.allowedUserGroupIds.keys, StableIdentifier id
  rest : binding = { raw with
    repositoryAllowlist := binding.repositoryAllowlist, defaultRepository := binding.defaultRepository }

section Loading
variable {readers : RegistryReaders} {raw binding : ChannelProjectBinding}

theorem validateBinding_validated (h : validateBinding readers raw = .ok binding) : Validated readers raw binding := by
  unfold validateBinding at h
  obtain ⟨_, hids, h⟩ := Except.bind_eq_ok.mp h
  obtain ⟨_, hteam, h⟩ := Except.bind_eq_ok.mp h
  obtain ⟨_, -, h⟩ := Except.bind_eq_ok.mp h
  obtain ⟨_, hsome, h⟩ := Except.bind_eq_ok.mp h
  obtain ⟨_, hmany, h⟩ := Except.bind_eq_ok.mp h
  obtain ⟨normalized, hnormalized, h⟩ := Except.bind_eq_ok.mp h
  obtain ⟨defaultRepository, hdefault, h⟩ := Except.bind_eq_ok.mp h
  obtain ⟨_, hallowed, h⟩ := Except.bind_eq_ok.mp h
  obtain ⟨_, -, h⟩ := Except.bind_eq_ok.mp h
  obtain ⟨_, hmode, h⟩ := Except.bind_eq_ok.mp h
  obtain ⟨_, hprincipals, h⟩ := Except.bind_eq_ok.mp h
  obtain ⟨_, -, h⟩ := Except.bind_eq_ok.mp h
  obtain ⟨_, hprincipalIds, h⟩ := Except.bind_eq_ok.mp h
  obtain ⟨_, -, h⟩ := Except.bind_eq_ok.mp h
  cases h
  simp only [Except.refuseIf_eq_ok, not_not, not_lt, gt_iff_lt] at hsome hmany hallowed hmode hprincipals
  exact {
    identifiers := Except.checkAll_eq_ok.mp hids
    teamKey := hteam
    someRepository := hsome
    repositories := hmany
    allowlist := ⟨normalized, hnormalized, rfl⟩
    defaultRepository := hdefault
    defaultAllowed := hallowed
    defaultMode := hmode
    principals := hprincipals
    principalIds := Except.checkAll_eq_ok.mp hprincipalIds
    rest := rfl }

theorem Validated.mem_allowlist (h : Validated readers raw binding) {r : Text} :
    r ∈ binding.repositoryAllowlist ↔ ∃ e ∈ raw.repositoryAllowlist, normalizeRepository e = .ok r := by
  obtain ⟨normalized, hnormalized, hallowlist⟩ := h.allowlist
  rw [hallowlist, KeySet.mem_ofList]
  exact Except.mem_of_mapM hnormalized

theorem Validated.key (h : Validated readers raw binding) : binding.key = raw.key := by
  rw [h.rest]
  rfl

end Loading

/-- Where `f` tells the elements of a list apart, one element has its value. -/
theorem filter_eq_singleton {α β : Type} [DecidableEq β] {l : List α} {f : α → β} (h : (l.map f).Nodup) {a : α}
    (ha : a ∈ l) : l.filter (fun b => f b = f a) = [a] := by
  induction l with
  | nil => cases ha
  | cons b l ih =>
    obtain ⟨hb, hl⟩ := List.nodup_cons.mp h
    rcases List.mem_cons.mp ha with rfl | hmem
    · have hnone : l.filter (fun b => f b = f a) = [] := by
        rw [List.filter_eq_nil_iff]
        intro b' hb' heq
        exact hb (of_decide_eq_true heq ▸ List.mem_map_of_mem hb')
      rw [List.filter_cons_of_pos (by simp), hnone]
    · have hne : f b ≠ f a := fun heq => hb (heq ▸ List.mem_map_of_mem hmem)
      rw [List.filter_cons_of_neg (by simpa using hne)]
      exact ih hl hmem

def SlackProjectRegistryDocument.bindingsFor (document : SlackProjectRegistryDocument) (key : ChannelKey) :
    List ChannelProjectBinding := document.bindings.filter fun binding => binding.key = key

section Loading
variable {readers : RegistryReaders} {bindings loaded : Table ChannelKey ChannelProjectBinding}
  {list : List ChannelProjectBinding}

/-- The loop of `from_json`: keys do not repeat, and every binding is stored as validation made it. -/
theorem insertBindings_spec (h : SlackProjectRegistry.insertBindings readers bindings list = .ok loaded) :
    (list.map ChannelProjectBinding.key).Nodup ∧ (∀ raw ∈ list, bindings.contains raw.key = false) ∧
    (∀ key binding, bindings.get key = some binding → loaded.get key = some binding) ∧
    (∀ raw ∈ list, ∃ binding, loaded.get raw.key = some binding ∧ Validated readers raw binding) ∧
    ∀ key binding, loaded.get key = some binding → bindings.get key = some binding ∨ ∃ raw ∈ list, raw.key = key := by
  -- the keys already inserted are those that a later binding may not have
  induction list generalizing bindings with
  | nil =>
    cases h
    exact ⟨List.nodup_nil, List.forall_mem_nil _, fun _ _ h => h, List.forall_mem_nil _, fun _ _ h => .inl h⟩
  | cons raw list ih =>
    rw [SlackProjectRegistry.insertBindings] at h
    obtain ⟨binding, hbinding, h⟩ := Except.bind_eq_ok.mp h
    obtain ⟨_, hfresh, h⟩ := Except.bind_eq_ok.mp h
    rw [Except.refuseIf_eq_ok, Bool.not_eq_true] at hfresh
    obtain ⟨hnodup, hrest, hkept, hstored, hget⟩ := ih h
    have hvalid := validateBinding_validated hbinding
    have hkey : binding.key = raw.key := hvalid.key
    rw [hkey] at hfresh hrest hkept hget
    have hne : ∀ raw' ∈ list, raw'.key ≠ raw.key := by
      intro raw' hraw' heq
      have habsent := hrest raw' hraw'
      rw [Table.contains, heq, Table.get_insert_self] at habsent
      cases habsent
    have hnone : bindings.get raw.key = none := by simpa [Table.contains] using hfresh
    refine ⟨?_, ?_, ?_, ?_, ?_⟩
    · rw [List.map_cons, List.nodup_cons]
      refine ⟨?_, hnodup⟩
      intro hmem
      obtain ⟨raw', hraw', heq⟩ := List.mem_map.mp hmem
      exact hne raw' hraw' heq
    · refine List.forall_mem_cons.mpr ⟨hfresh, ?_⟩
      intro raw' hraw'
      have habsent := hrest raw' hraw'
      rwa [Table.contains, Table.get_insert_ne (hne raw' hraw')] at habsent
    · intro key binding' hold
      apply hkept
      rw [Table.get_insert_ne]
      · exact hold
      · rintro rfl
        rw [hnone] at hold
        cases hold
    · exact List.forall_mem_cons.mpr ⟨⟨binding, hkept _ _ (Table.get_insert_self _ _ _), hvalid⟩, hstored⟩
    · intro key binding' hloaded
      rcases hget key binding' hloaded with hold | ⟨raw', hraw', heq⟩
      · rw [Table.get_insert] at hold
        by_cases hk : key = raw.key
        · exact .inr ⟨raw, List.mem_cons_self, hk.symm⟩
        · rw [if_neg hk] at hold
          exact .inl hold
      · exact .inr ⟨raw', List.mem_cons_of_mem _ hraw', heq⟩

/-- A loaded registry holds the bindings of the document, one for each channel, as validation made them. -/
theorem fromJson_spec {input : List UInt8} {registry : SlackProjectRegistry}
    (h : SlackProjectRegistry.fromJson readers input = .ok registry) :
    ∃ document, readers.document input = some document ∧
      (∀ raw ∈ document.bindings, document.bindingsFor raw.key = [raw] ∧
        ∃ binding, registry.bindings.get raw.key = some binding ∧ Validated readers raw binding) ∧
      ∀ key binding, registry.bindings.get key = some binding → ∃ raw ∈ document.bindings, raw.key = key := by
  unfold SlackProjectRegistry.fromJson at h
  split at h
  · cases h
  · rename_i document hdocument
    obtain ⟨_, -, h⟩ := Except.bind_eq_ok.mp h
    obtain ⟨_, -, h⟩ := Except.bind_eq_ok.mp h
    obtain ⟨loaded, hloaded, h⟩ := Except.bind_eq_ok.mp h
    cases h
    obtain ⟨hnodup, -, -, hstored, hget⟩ := insertBindings_spec hloaded
    refine ⟨document, hdocument, ?_, ?_⟩
    · intro raw hraw
      exact ⟨filter_eq_singleton hnodup hraw, hstored raw hraw⟩
    · intro key binding hbinding
      rcases hget key binding hbinding with hnone | hsome
      · cases hnone
      · exact hsome

end Loading

section Issues

theorem decimal_ofDigitChars {s : Text} (hne : s ≠ []) (hdigits : ∀ c ∈ s, c.isDigit = true)
    (hzero : s.head? ≠ some '0') :
    0 < Nat.ofDigitChars 10 s 0 ∧ Text.decimal (Nat.ofDigitChars 10 s 0) = s := by
  -- the last digit is split off, as `decimal` writes it
  induction s using List.reverseRecOn with
  | nil => exact absurd rfl hne
  | append_singleton t c ih =>
    have hc : 48 ≤ c.toNat ∧ c.toNat ≤ 57 := Char.isDigit_iff_toNat.mp (hdigits c (by simp))
    have hchar : Nat.digitChar (c.toNat - 48) = c := by
      have hten : c.toNat - 48 < 10 := by omega
      have hvalue := Nat.toNat_digitChar_sub_48_of_lt_ten hten
      have hdigit : (Nat.digitChar (c.toNat - 48)).isDigit = true := by
        rw [Nat.isDigit_digitChar]
        exact decide_eq_true hten
      have hrange : 48 ≤ (Nat.digitChar (c.toNat - 48)).toNat ∧ (Nat.digitChar (c.toNat - 48)).toNat ≤ 57 :=
        Char.isDigit_iff_toNat.mp hdigit
      apply Char.toNat_inj.mp
      omega
    have hlast : Text.decimal (c.toNat - 48) = [c] := by
      rw [Text.decimal, Nat.toDigits_of_lt_base (by omega), hchar]
    have hvalue : Nat.ofDigitChars 10 (t ++ [c]) 0 = 10 * Nat.ofDigitChars 10 t 0 + (c.toNat - 48) := by
      rw [Nat.ofDigitChars_append, Nat.ofDigitChars_cons, Nat.ofDigitChars_nil]
      rfl
    rw [hvalue]
    by_cases ht : t = []
    · subst ht
      have hpos : 48 < c.toNat := by
        refine lt_of_le_of_ne hc.1 ?_
        intro heq
        apply hzero
        have hc0 : c = '0' := Char.toNat_inj.mp heq.symm
        rw [hc0]
        rfl
      rw [Nat.ofDigitChars_nil, Nat.mul_zero, Nat.zero_add, hlast]
      exact ⟨by omega, rfl⟩
    · have hhead : t.head? ≠ some '0' := by
        cases t with
        | nil => exact absurd rfl ht
        | cons d t => exact hzero
      obtain ⟨hpos, hdecimal⟩ := ih ht (fun d hd => hdigits d (List.mem_append_left _ hd)) hhead
      refine ⟨by omega, ?_⟩
      rw [Text.decimal, ← Nat.toDigits_append_toDigits (by decide) hpos (by omega)]
      change Text.decimal _ ++ Text.decimal _ = _
      rw [hdecimal, hlast]

/-- An issue identifier of the team: `{team_key}-{number}` with the number a positive `u64` in decimal. -/
def IssueOf (teamKey text : Text) (n : Nat) : Prop :=
  1 ≤ n ∧ n < 2 ^ 64 ∧ text = teamKey ++ '-' :: Text.decimal n

theorem parseU64_digits {s : Text} (hne : s ≠ []) (hdigits : ∀ c ∈ s, c.isDigit = true) :
    Http.parseU64 s = if Nat.ofDigitChars 10 s 0 < 2 ^ 64 then some (Nat.ofDigitChars 10 s 0) else none := by
  cases s with
  | nil => exact absurd rfl hne
  | cons c s =>
    have hplus : c ≠ '+' := by
      rintro rfl
      exact absurd (hdigits '+' List.mem_cons_self) (by decide)
    unfold Http.parseU64
    split
    · rename_i rest heq
      exact absurd (List.cons.inj heq).1 hplus
    · have hall : (c :: s).all Char.isDigit = true := List.all_eq_true.mpr hdigits
      dsimp only
      rw [hall]
      rfl

theorem head_decimal {n : Nat} (h : 1 ≤ n) : (Text.decimal n).head? ≠ some '0' := by
  -- the leading digit is that of the quotient by ten
  induction n using Nat.strongRecOn with
  | ind n ih =>
    by_cases hten : n < 10
    · rw [Text.decimal, Nat.toDigits_of_lt_base hten]
      intro hhead
      have hzero : n = 0 := Nat.digitChar_eq_zero.mp (Option.some.inj hhead)
      omega
    · have hdiv : 0 < n / 10 := by omega
      have hsplit : Text.decimal n = Text.decimal (n / 10) ++ Text.decimal (n % 10) := by
        unfold Text.decimal
        rw [Nat.toDigits_append_toDigits (by decide) hdiv (by omega), Nat.div_add_mod]
      have hrest := ih (n / 10) (by omega) hdiv
      rw [hsplit, List.head?_append]
      cases hhead : (Text.decimal (n / 10)).head? with
      | none => exact absurd (List.head?_eq_none_iff.mp hhead) Nat.toDigits_ne_nil
      | some c =>
        rw [hhead] at hrest
        exact hrest

theorem dash_not_mem {key : Text} (h : validateTeamKey key = .ok ()) : '-' ∉ key := by
  unfold validateTeamKey at h
  simp only [Except.refuseIf_eq_ok, not_or, not_not, List.all_eq_true] at h
  intro hmem
  exact absurd (h.2.1 '-' hmem) (by decide)

theorem parseLinearIssueIdentifier_eq_ok {value : Text} {issue : LinearIssueRef} :
    parseLinearIssueIdentifier value = .ok issue ↔ validateTeamKey issue.teamKey = .ok () ∧
      issue.identifier = Text.trim value ∧ IssueOf issue.teamKey (Text.trim value) issue.number := by
  unfold parseLinearIssueIdentifier
  dsimp only
  constructor
  · intro h
    rcases hs : Text.splitOnce '-' (Text.trim value) with _ | ⟨teamKey, number⟩
    · rw [hs] at h
      cases h
    · rw [hs] at h
      obtain ⟨_, hteam, h⟩ := Except.bind_eq_ok.mp h
      obtain ⟨_, hnumber, h⟩ := Except.bind_eq_ok.mp h
      rw [Except.mapError_eq_ok] at hteam
      simp only [Except.refuseIf_eq_ok, not_or, not_not, List.all_eq_true] at hnumber
      obtain ⟨hne, hzero, hdigits⟩ := hnumber
      obtain ⟨hpos, hdecimal⟩ := decimal_ofDigitChars hne hdigits hzero
      obtain ⟨htrim, -⟩ := Text.splitOnce_eq_some.mp hs
      rw [parseU64_digits hne hdigits] at h
      by_cases hlt : Nat.ofDigitChars 10 number 0 < 2 ^ 64
      · rw [if_pos hlt, Option.filter_some, if_pos (by simpa using hpos)] at h
        cases h
        refine ⟨hteam, rfl, hpos, hlt, ?_⟩
        rw [htrim, hdecimal]
      · rw [if_neg hlt] at h
        cases h
  · rintro ⟨hteam, hidentifier, hpos, hlt, htrim⟩
    have hs : Text.splitOnce '-' (Text.trim value) = some (issue.teamKey, Text.decimal issue.number) :=
      Text.splitOnce_eq_some.mpr ⟨htrim, dash_not_mem hteam⟩
    have hdigits : ∀ c ∈ Text.decimal issue.number, c.isDigit = true := fun c hc => Text.isDigit_of_mem_decimal hc
    have hvalue : Nat.ofDigitChars 10 (Text.decimal issue.number) 0 = issue.number :=
      Nat.ofDigitChars_toDigits (by decide) (by decide)
    rw [hs]
    refine Except.bind_eq_ok.mpr ⟨(), Except.mapError_eq_ok.mpr hteam, ?_⟩
    refine Except.bind_eq_ok.mpr ⟨(), ?_, ?_⟩
    · simp only [Except.refuseIf_eq_ok, not_or, not_not, List.all_eq_true]
      exact ⟨Nat.toDigits_ne_nil, head_decimal hpos, hdigits⟩
    · have hne : Text.decimal issue.number ≠ [] := Nat.toDigits_ne_nil
      have hnonzero : 0 < issue.number := hpos
      rw [parseU64_digits hne hdigits, hvalue, if_pos hlt, Option.filter_some,
        if_pos (decide_eq_true hnonzero), ← hidentifier]
      rfl

end Issues

structure ResolveRequest.WellFormed (request : ResolveRequest) : Prop where
  workspaceId : StableIdentifier request.workspaceId
  channelId : StableIdentifier request.channelId
  userId : StableIdentifier request.userId
  userGroupIds : ∀ id ∈ request.userGroupIds.keys, StableIdentifier id

def ResolveRequest.key (request : ResolveRequest) : ChannelKey := (request.workspaceId, request.channelId)

/-- The repository a request is about, as it was written: the requested one, or the default of the binding. -/
def ResolveRequest.named (request : ResolveRequest) (binding : ChannelProjectBinding) : Text :=
  request.requestedRepository.getD binding.defaultRepository

def ResolveRequest.mode (request : ResolveRequest) (binding : ChannelProjectBinding) : AgentMode :=
  request.requestedAgentMode.getD binding.defaultAgentMode

/-- The user is named by the binding, or one of the groups presented is. -/
def ResolveRequest.Authorized (request : ResolveRequest) (binding : ChannelProjectBinding) : Prop :=
  request.userId ∈ binding.allowedUserIds ∨ ∃ id ∈ request.userGroupIds, id ∈ binding.allowedUserGroupIds

/-- A normalised repository that the allowlist of a binding of the document names. -/
def ChannelProjectBinding.Allows (binding : ChannelProjectBinding) (repository : Text) : Prop :=
  ∃ entry ∈ binding.repositoryAllowlist, normalizeRepository entry = .ok repository

/-- The conditions under which a request is to be resolved, on the binding as the document has it. -/
structure ResolveRequest.MeetsBinding (request : ResolveRequest) (binding : ChannelProjectBinding) : Prop where
  authorized : request.Authorized binding
  repository : ∃ name, normalizeRepository (request.named binding) = .ok name ∧ binding.Allows name
  mode : request.mode binding ∈ binding.allowedAgentModes
  write : binding.writePolicy.permits request.requestedCapability = true
  issue : ∀ text ∈ request.linearIssueIdentifier, ∃ n, IssueOf binding.linearTeamKey (Text.trim text) n

/-- Permitted by the document: well formed, one binding for the channel, and its conditions met. -/
def Permitted (document : SlackProjectRegistryDocument) (request : ResolveRequest) : Prop :=
  request.WellFormed ∧ ∃ binding, document.bindingsFor request.key = [binding] ∧ request.MeetsBinding binding

/-- What a resolved context tells of the document and the request. -/
structure ResolvedFrom (binding : ChannelProjectBinding) (request : ResolveRequest)
    (context : ResolvedProjectContext) : Prop where
  authorized : request.Authorized binding
  repository : normalizeRepository (request.named binding) = .ok context.repository
  allowed : binding.Allows context.repository
  mode : context.agentMode = request.mode binding ∧ context.agentMode ∈ binding.allowedAgentModes
  write : binding.writePolicy.permits request.requestedCapability = true
  issue : ∀ issue ∈ context.issue, issue.teamKey = binding.linearTeamKey ∧
    IssueOf issue.teamKey issue.identifier issue.number

section Resolving
variable {readers : RegistryReaders} {registry : SlackProjectRegistry} {request : ResolveRequest}
  {context : ResolvedProjectContext} {raw binding : ChannelProjectBinding}

def contextFor (binding : ChannelProjectBinding) (request : ResolveRequest) (repository : Text)
    (issue : Option LinearIssueRef) : ResolvedProjectContext where
  workspaceId := binding.workspaceId
  channelId := binding.channelId
  linearTeamId := binding.linearTeamId
  linearTeamKey := binding.linearTeamKey
  linearProjectId := binding.linearProjectId
  repository := repository
  agentMode := request.mode binding
  writePolicy := binding.writePolicy
  budgetPolicy := binding.budgetPolicy
  issue := issue

/-- Every check of `resolve`, in terms of the loaded binding. -/
theorem resolve_eq_ok : registry.resolve request = .ok context ↔ request.WellFormed ∧
    ∃ binding repository issue, registry.bindings.get request.key = some binding ∧ request.Authorized binding ∧
      request.repository binding = .ok repository ∧ repository ∈ binding.repositoryAllowlist ∧
      request.mode binding ∈ binding.allowedAgentModes ∧
      binding.writePolicy.permits request.requestedCapability = true ∧
      request.linearIssueIdentifier.mapM parseLinearIssueIdentifier = .ok issue ∧
      (∀ i ∈ issue, i.teamKey = binding.linearTeamKey) ∧ context = contextFor binding request repository issue := by
  have hauthorized : ∀ binding : ChannelProjectBinding,
      ¬ (!decide (request.userId ∈ binding.allowedUserIds) && !request.userGroupIds.keys.any fun groupId =>
        decide (groupId ∈ binding.allowedUserGroupIds)) = true ↔ request.Authorized binding := by
    intro binding
    rw [← Bool.not_or, Bool.not_eq_true', Bool.not_eq_false, Bool.or_eq_true, decide_eq_true_eq, List.any_eq_true]
    simp only [decide_eq_true_eq]
    rfl
  have hteam : ∀ (issue : Option LinearIssueRef) (binding : ChannelProjectBinding),
      ¬ (issue.any fun i => decide (i.teamKey ≠ binding.linearTeamKey)) = true ↔
        ∀ i ∈ issue, i.teamKey = binding.linearTeamKey := by
    intro issue binding
    cases issue <;> simp
  unfold SlackProjectRegistry.resolve
  -- one way the checks are taken apart in their order, the other way they are put together again
  constructor
  · intro h
    obtain ⟨_, hworkspace, h⟩ := Except.bind_eq_ok.mp h
    obtain ⟨_, hchannel, h⟩ := Except.bind_eq_ok.mp h
    obtain ⟨_, huser, h⟩ := Except.bind_eq_ok.mp h
    obtain ⟨_, hgroups, h⟩ := Except.bind_eq_ok.mp h
    refine ⟨⟨hworkspace, hchannel, huser, Except.checkAll_eq_ok.mp hgroups⟩, ?_⟩
    cases hget : registry.bindings.get (request.workspaceId, request.channelId) with
    | none =>
      rw [hget] at h
      cases h
    | some binding =>
      rw [hget] at h
      obtain ⟨_, hprincipal, h⟩ := Except.bind_eq_ok.mp h
      obtain ⟨repository, hrepository, h⟩ := Except.bind_eq_ok.mp h
      obtain ⟨_, hallowed, h⟩ := Except.bind_eq_ok.mp h
      obtain ⟨_, hmode, h⟩ := Except.bind_eq_ok.mp h
      obtain ⟨_, hwrite, h⟩ := Except.bind_eq_ok.mp h
      obtain ⟨issue, hissue, h⟩ := Except.bind_eq_ok.mp h
      obtain ⟨_, hmatch, h⟩ := Except.bind_eq_ok.mp h
      rw [Except.refuseIf_eq_ok] at hprincipal hallowed hmode hwrite hmatch
      exact ⟨binding, repository, issue, hget, (hauthorized binding).mp hprincipal, hrepository, not_not.mp hallowed,
        not_not.mp hmode, not_not.mp hwrite, hissue, (hteam issue binding).mp hmatch, (Except.ok.inj h).symm⟩
  · rintro ⟨hformed, binding, repository, issue, hget, hprincipal, hrepository, hallowed, hmode, hwrite, hissue, hmatch,
      rfl⟩
    refine Except.bind_eq_ok.mpr ⟨(), hformed.workspaceId, Except.bind_eq_ok.mpr ⟨(), hformed.channelId, ?_⟩⟩
    refine Except.bind_eq_ok.mpr ⟨(), hformed.userId, Except.bind_eq_ok.mpr ⟨(), ?_, ?_⟩⟩
    · exact Except.checkAll_eq_ok.mpr hformed.userGroupIds
    · rw [ResolveRequest.key] at hget
      rw [hget]
      refine Except.bind_eq_ok.mpr ⟨(), Except.refuseIf_eq_ok.mpr ((hauthorized binding).mpr hprincipal), ?_⟩
      refine Except.bind_eq_ok.mpr ⟨repository, hrepository, ?_⟩
      refine Except.bind_eq_ok.mpr ⟨(), Except.refuseIf_eq_ok.mpr (not_not.mpr hallowed), ?_⟩
      refine Except.bind_eq_ok.mpr ⟨(), Except.refuseIf_eq_ok.mpr (not_not.mpr hmode), ?_⟩
      refine Except.bind_eq_ok.mpr ⟨(), Except.refuseIf_eq_ok.mpr (not_not.mpr hwrite), ?_⟩
      refine Except.bind_eq_ok.mpr ⟨issue, hissue, ?_⟩
      exact Except.bind_eq_ok.mpr ⟨(), Except.refuseIf_eq_ok.mpr ((hteam issue binding).mpr hmatch), rfl⟩

/-- A loaded binding names the same repository as the one in the document. -/
theorem Validated.repository (h : Validated readers raw binding) {repository : Text} :
    request.repository binding = .ok repository ↔ normalizeRepository (request.named raw) = .ok repository := by
  unfold ResolveRequest.repository ResolveRequest.named
  cases request.requestedRepository with
  | some requested => rfl
  | none =>
    rw [Option.getD_none, h.defaultRepository]

theorem Validated.authorized (h : Validated readers raw binding) :
    request.Authorized binding ↔ request.Authorized raw := by
  rw [h.rest]
  rfl

theorem Validated.writePolicy (h : Validated readers raw binding) : binding.writePolicy = raw.writePolicy := by
  rw [h.rest]

theorem Validated.allowedAgentModes (h : Validated readers raw binding) :
    binding.allowedAgentModes = raw.allowedAgentModes := by
  rw [h.rest]

theorem Validated.linearTeamKey (h : Validated readers raw binding) : binding.linearTeamKey = raw.linearTeamKey := by
  rw [h.rest]

theorem Validated.linearProjectId (h : Validated readers raw binding) :
    binding.linearProjectId = raw.linearProjectId := by
  rw [h.rest]

theorem Validated.mode (h : Validated readers raw binding) : request.mode binding = request.mode raw := by
  rw [h.rest]
  rfl

theorem mapM_parse_eq_ok {text : Option Text} {issue : Option LinearIssueRef} :
    text.mapM parseLinearIssueIdentifier = .ok issue ↔ (text = none ∧ issue = none) ∨
      ∃ t i, text = some t ∧ issue = some i ∧ parseLinearIssueIdentifier t = .ok i := by
  cases text with
  | none =>
    rw [Option.mapM_none]
    constructor
    · intro h
      exact .inl ⟨rfl, (Except.ok.inj h).symm⟩
    · rintro (⟨-, rfl⟩ | ⟨t, i, ht, -⟩)
      · rfl
      · cases ht
  | some t =>
    rw [Option.mapM_some]
    constructor
    · intro h
      obtain ⟨i, hi, rfl⟩ := Except.map_eq_ok.mp h
      exact .inr ⟨t, i, rfl, rfl, hi⟩
    · rintro (⟨ht, -⟩ | ⟨t', i, ht, rfl, hi⟩)
      · cases ht
      · cases ht
        exact Except.map_eq_ok.mpr ⟨i, hi, rfl⟩

/-- The issue of a request may be missing; one that is there is read, and meets what is asked of it. -/
theorem exists_mapM_parse {text : Option Text} {teamKey : Text} :
    (∃ issue, text.mapM parseLinearIssueIdentifier = .ok issue ∧ ∀ i ∈ issue, i.teamKey = teamKey) ↔
      ∀ t ∈ text, ∃ i, parseLinearIssueIdentifier t = .ok i ∧ i.teamKey = teamKey := by
  constructor
  · rintro ⟨issue, hissue, hteam⟩ t ht
    rcases mapM_parse_eq_ok.mp hissue with ⟨rfl, -⟩ | ⟨t', i, rfl, rfl, hparse⟩
    · cases ht
    · cases ht
      exact ⟨i, hparse, hteam i rfl⟩
  · intro h
    cases text with
    | none => exact ⟨none, rfl, fun i hi => by cases hi⟩
    | some t =>
      obtain ⟨i, hparse, hteam⟩ := h t rfl
      refine ⟨some i, mapM_parse_eq_ok.mpr (.inr ⟨t, i, rfl, rfl, hparse⟩), ?_⟩
      rintro i ⟨⟩
      exact hteam

theorem resolve_of_binding (hvalid : Validated readers raw binding)
    (hbinding : registry.bindings.get request.key = some binding) (hcontext : registry.resolve request = .ok context) :
    request.WellFormed ∧ request.MeetsBinding raw ∧ ResolvedFrom raw request context := by
  obtain ⟨hformed, binding', repository, issue, hbinding', hprincipal, hrepository, hallowed, hmode, hwrite, hissue,
    hmatch, rfl⟩ := resolve_eq_ok.mp hcontext
  cases hbinding.symm.trans hbinding'
  have hpolicy := hvalid.writePolicy
  have hmodes := hvalid.allowedAgentModes
  have hkey := hvalid.linearTeamKey
  have hname := hvalid.repository.mp hrepository
  have hallows : raw.Allows repository := hvalid.mem_allowlist.mp hallowed
  have hpermits : raw.writePolicy.permits request.requestedCapability = true := hpolicy ▸ hwrite
  have hof : ∀ text i, request.linearIssueIdentifier = some text → issue = some i →
      i.identifier = Text.trim text ∧ i.teamKey = raw.linearTeamKey ∧ IssueOf i.teamKey i.identifier i.number := by
    rintro text i htext rfl
    rw [htext] at hissue
    obtain ⟨i', hparse, hi⟩ := Except.map_eq_ok.mp hissue
    cases hi
    obtain ⟨-, hidentifier, hof⟩ := parseLinearIssueIdentifier_eq_ok.mp hparse
    exact ⟨hidentifier, (hmatch i rfl).trans hkey, hidentifier ▸ hof⟩
  refine ⟨hformed, ⟨hvalid.authorized.mp hprincipal, ⟨repository, hname, hallows⟩, ?_, hpermits, ?_⟩,
    hvalid.authorized.mp hprincipal, hname, hallows, ⟨hvalid.mode, ?_⟩, hpermits, ?_⟩
  · rwa [← hmodes, ← hvalid.mode]
  · intro text htext
    rcases mapM_parse_eq_ok.mp hissue with ⟨hnone, -⟩ | ⟨t, i, ht, rfl, -⟩
    · rw [hnone] at htext
      cases htext
    · obtain ⟨hidentifier, hteam, hnumber⟩ := hof text i htext rfl
      rw [hidentifier, hteam] at hnumber
      exact ⟨i.number, hnumber⟩
  · rwa [← hmodes]
  · intro i hi
    rcases mapM_parse_eq_ok.mp hissue with ⟨-, hnone⟩ | ⟨t, i', ht, -, -⟩
    · rw [contextFor, hnone] at hi
      cases hi
    · obtain ⟨-, hteam, hnumber⟩ := hof t i ht hi
      exact ⟨hteam, hnumber⟩

theorem resolve_of_meets (hvalid : Validated readers raw binding)
    (hbinding : registry.bindings.get request.key = some binding) (hformed : request.WellFormed)
    (hmeets : request.MeetsBinding raw) : ∃ context, registry.resolve request = .ok context := by
  obtain ⟨repository, hrepository, hallowed⟩ := hmeets.repository
  have hpolicy := hvalid.writePolicy
  have hmodes := hvalid.allowedAgentModes
  have hkey := hvalid.linearTeamKey
  have hissue : ∃ issue, request.linearIssueIdentifier.mapM parseLinearIssueIdentifier = .ok issue ∧
      ∀ i ∈ issue, i.teamKey = binding.linearTeamKey := by
    refine exists_mapM_parse.mpr fun text htext => ?_
    obtain ⟨n, hof⟩ := hmeets.issue text htext
    exact ⟨⟨Text.trim text, raw.linearTeamKey, n⟩,
      parseLinearIssueIdentifier_eq_ok.mpr ⟨hvalid.teamKey, rfl, hof⟩, hkey.symm⟩
  obtain ⟨issue, hissue, hmatch⟩ := hissue
  exact ⟨_, resolve_eq_ok.mpr ⟨hformed, binding, repository, issue, hbinding, hvalid.authorized.mpr hmeets.authorized,
    hvalid.repository.mpr hrepository, hvalid.mem_allowlist.mpr hallowed,
    by rw [hvalid.mode, hmodes]; exact hmeets.mode, hpolicy ▸ hmeets.write, hissue, hmatch, rfl⟩⟩

end Resolving

/-- Authorisation is sound and canonical, and complete. -/
structure RegistrySound (document : SlackProjectRegistryDocument) (request : ResolveRequest)
    (result : Except RegistryError ResolvedProjectContext) : Prop where
  sound : ∀ context, result = .ok context → ∃ binding, document.bindingsFor request.key = [binding] ∧
    ResolvedFrom binding request context
  canonical : ∀ context, result = .ok context → normalizeRepository context.repository = .ok context.repository
  complete : Permitted document request → ∃ context, result = .ok context

/-- The name lower-cases to one with the suffix that repositories must not have. -/
def GitSuffix (name : Text) : Prop := ".git".toList <:+ Text.toAsciiLowercase (Text.trim name)

section Documents
variable {readers : RegistryReaders} {input : List UInt8} {registry : SlackProjectRegistry}
  {document : SlackProjectRegistryDocument} {request : ResolveRequest}

theorem resolve_sound (hload : SlackProjectRegistry.fromJson readers input = .ok registry)
    (hdocument : readers.document input = some document) {context : ResolvedProjectContext}
    (hcontext : registry.resolve request = .ok context) : ∃ raw, document.bindingsFor request.key = [raw] ∧
      request.WellFormed ∧ request.MeetsBinding raw ∧ ResolvedFrom raw request context := by
  obtain ⟨document', hdocument', hstored, hget⟩ := fromJson_spec hload
  cases hdocument.symm.trans hdocument'
  obtain ⟨-, binding, -, -, hbinding, -⟩ := resolve_eq_ok.mp hcontext
  obtain ⟨raw, hraw, hkey⟩ := hget _ _ hbinding
  obtain ⟨hfor, binding', hbinding', hvalid⟩ := hstored raw hraw
  rw [hkey] at hfor hbinding'
  cases hbinding.symm.trans hbinding'
  exact ⟨raw, hfor, resolve_of_binding hvalid hbinding hcontext⟩

theorem resolve_complete (hload : SlackProjectRegistry.fromJson readers input = .ok registry)
    (hdocument : readers.document input = some document) (h : Permitted document request) :
    ∃ context, registry.resolve request = .ok context := by
  obtain ⟨document', hdocument', hstored, -⟩ := fromJson_spec hload
  cases hdocument.symm.trans hdocument'
  obtain ⟨hformed, raw, hfor, hmeets⟩ := h
  have hmem : raw ∈ document.bindingsFor request.key := by
    rw [hfor]
    exact List.mem_singleton_self raw
  obtain ⟨hraw, hkey⟩ := List.mem_filter.mp hmem
  obtain ⟨-, binding, hbinding, hvalid⟩ := hstored raw hraw
  rw [of_decide_eq_true hkey] at hbinding
  exact resolve_of_meets hvalid hbinding hformed hmeets

theorem permitted_iff (hload : SlackProjectRegistry.fromJson readers input = .ok registry)
    (hdocument : readers.document input = some document) :
    Permitted document request ↔ ∃ context, registry.resolve request = .ok context := by
  constructor
  · exact resolve_complete hload hdocument
  · rintro ⟨context, hcontext⟩
    obtain ⟨raw, hfor, hformed, hmeets, -⟩ := resolve_sound hload hdocument hcontext
    exact ⟨hformed, raw, hfor, hmeets⟩

end Documents

/-- What a resolution does meets all of this exactly when the repository of a permitted request does not hide a
`.git` suffix behind its case. -/
theorem registrySound_iff {readers : RegistryReaders} {input : List UInt8} {registry : SlackProjectRegistry}
    {document : SlackProjectRegistryDocument} (hload : SlackProjectRegistry.fromJson readers input = .ok registry)
    (hdocument : readers.document input = some document) (request : ResolveRequest) :
    RegistrySound document request (registry.resolve request) ↔
      ∀ binding, document.bindingsFor request.key = [binding] → request.WellFormed → request.MeetsBinding binding →
        ¬ GitSuffix (request.named binding) := by
  constructor
  · intro h raw hfor hformed hmeets
    obtain ⟨context, hcontext⟩ := resolve_complete hload hdocument ⟨hformed, raw, hfor, hmeets⟩
    obtain ⟨raw', hfor', -, -, hfrom⟩ := resolve_sound hload hdocument hcontext
    cases hfor.symm.trans hfor'
    exact (normalizeRepository_again hfrom.repository).mp (h.canonical context hcontext)
  · intro h
    refine ⟨?_, ?_, resolve_complete hload hdocument⟩
    · intro context hcontext
      obtain ⟨raw, hfor, -, -, hfrom⟩ := resolve_sound hload hdocument hcontext
      exact ⟨raw, hfor, hfrom⟩
    · intro context hcontext
      obtain ⟨raw, hfor, hformed, hmeets, hfrom⟩ := resolve_sound hload hdocument hcontext
      exact (normalizeRepository_again hfrom.repository).mpr (h raw hfor hformed hmeets)

def boundTo (repository : Text) : ChannelProjectBinding where
  workspaceId := "T012345".toList
  channelId := "C012345".toList
  linearTeamId := "eb8ab169".toList
  linearTeamKey := "DEN".toList
  linearProjectId := "3abf3f94".toList
  defaultRepository := repository
  repositoryAllowlist := .ofList [repository]
  defaultAgentMode := .claude
  allowedAgentModes := ⟨[.claude, .review], by decide⟩
  allowedUserIds := .ofList ["U012345".toList]
  allowedUserGroupIds := .empty
  writePolicy := .draftPullRequest
  budgetPolicy := ⟨2, 900, 100000, 1000, 2⟩
  updatedBy := "UADMIN".toList
  updatedAt := "2026-07-31T06:00:00Z".toList

/-- The document with one binding, as it is written; what is not about the repositories is that of `boundTo`. -/
def documentText (binding : ChannelProjectBinding) : Text :=
  let quoted (value : Text) : Text := "\"".toList ++ value ++ "\"".toList
  "\x7b\"schema_version\":1,\"bindings\":[\x7b\"workspace_id\":\"T012345\",\"channel_id\":\"C012345\",".toList ++
    "\"linear_team_id\":\"eb8ab169\",\"linear_team_key\":\"DEN\",\"linear_project_id\":\"3abf3f94\",".toList ++
    "\"default_repository\":".toList ++ quoted binding.defaultRepository ++
    ",\"repository_allowlist\":[".toList ++ Components.join ',' (binding.repositoryAllowlist.keys.map quoted) ++
    "],\"default_agent_mode\":\"claude\",\"allowed_agent_modes\":[\"claude\",\"review\"],".toList ++
    "\"allowed_user_ids\":[\"U012345\"],\"allowed_user_group_ids\":[],".toList ++
    "\"write_policy\":\"draft_pull_request\",\"budget_policy\":\x7b\"max_concurrent_runs\":2,".toList ++
    "\"max_runtime_secs\":900,\"max_tokens\":100000,".toList ++
    "\"max_spend_cents\":1000,\"max_retries\":2\x7d,\"updated_by\":\"UADMIN\",".toList ++
    "\"updated_at\":\"2026-07-31T06:00:00Z\"\x7d]\x7d".toList

def documentBytes (binding : ChannelProjectBinding) : List UInt8 :=
  (Url.encodeUtf8 (documentText binding)).map UInt8.ofNat

def onlyReaders (binding : ChannelProjectBinding) : RegistryReaders where
  document := fun input => if input = documentBytes binding then some ⟨1, [binding]⟩ else none
  rfc3339 := fun text => text = "2026-07-31T06:00:00Z".toList

theorem decodes_documentBytes (binding : ChannelProjectBinding) :
    (onlyReaders binding).document (documentBytes binding) = some ⟨1, [binding]⟩ := by
  unfold onlyReaders
  dsimp only
  rw [if_pos (Eq.refl (documentBytes binding))]

def boundRegistry (repository : Text) : Except RegistryError SlackProjectRegistry :=
  SlackProjectRegistry.fromJson (onlyReaders (boundTo repository)) (documentBytes (boundTo repository))

def issueRequest : ResolveRequest where
  workspaceId := "T012345".toList
  channelId := "C012345".toList
  userId := "U012345".toList
  userGroupIds := .empty
  requestedRepository := none
  requestedAgentMode := none
  requestedCapability := .readOnly
  linearIssueIdentifier := some "DEN-1042".toList

theorem registrySound_bound : ∃ registry, boundRegistry "ORESoftware/bridge.rs".toList = .ok registry ∧
    RegistrySound ⟨1, [boundTo "ORESoftware/bridge.rs".toList]⟩ issueRequest (registry.resolve issueRequest) := by
  have hload : (boundRegistry "ORESoftware/bridge.rs".toList).toOption.isSome = true := by decide +kernel
  obtain ⟨registry, h⟩ := Except.isSome_toOption.mp hload
  refine ⟨registry, h, (registrySound_iff h (decodes_documentBytes _) issueRequest).mpr fun binding hfor _ _ => ?_⟩
  have hmem : binding ∈ [boundTo "ORESoftware/bridge.rs".toList] :=
    List.mem_of_mem_filter (hfor.symm ▸ List.mem_singleton_self binding)
  rw [List.mem_singleton.mp hmem]
  unfold GitSuffix
  decide

/-- A repository whose name ends in `.GIT` is resolved under a name that the registry refuses. -/
theorem not_registrySound : ∃ registry, boundRegistry "ORESoftware/bridge.GIT".toList = .ok registry ∧
    ∃ context, registry.resolve issueRequest = .ok context ∧
      normalizeRepository context.repository ≠ .ok context.repository := by
  have hresolved : ((boundRegistry "ORESoftware/bridge.GIT".toList).toOption.bind
      fun registry => (registry.resolve issueRequest).toOption.map ResolvedProjectContext.repository) =
      some "oresoftware/bridge.git".toList := by decide +kernel
  obtain ⟨registry, hregistry, hcontext⟩ := Option.bind_eq_some_iff.mp hresolved
  obtain ⟨context, hcontext, hname⟩ := Except.toOption_map_eq_some.mp hcontext
  refine ⟨registry, Except.toOption_eq_some.mp hregistry, context, hcontext, ?_⟩
  rw [hname]
  intro hagain
  obtain ⟨_, _, -, -, hgit, -⟩ := normalizeRepository_eq_ok.mp hagain
  exact hgit (by decide)

end AgentBridge.Slack
