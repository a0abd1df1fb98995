import AgentBridge.Slack.Modal
import AgentBridge.Slack.RunIdentity

/-! The issue a slash command is about. The first token that looks like an issue is taken, and what is taken is
held against the team of the channel. -/

namespace AgentBridge.Slack

def issueTokens (text : Text) : List Text := (Text.trim text).splitOnP issueBreak

/-- Two to ten capitals, a hyphen and digits. -/
def LooksLikeIssue (token : Text) : Prop := ∃ team number, token = team ++ '-' :: number ∧
  (2 ≤ Text.byteLen team ∧ Text.byteLen team ≤ 10) ∧ (∀ c ∈ team, c.isUpper = true) ∧
  number ≠ [] ∧ ∀ c ∈ number, c.isDigit = true

/-- An issue of the team: its key, a hyphen and a positive number without leading zeros. -/
def NamesIssue (teamKey token : Text) : Prop := ∃ n, 1 ≤ n ∧ token = teamKey ++ '-' :: Text.decimal n

/-- The first token that looks like an issue is one of the team that fits in a `u64`, and a team whose key has a
digit, which no such token has, is not named. -/
structure ReadableIssues (teamKey text : Text) : Prop where
  first : ∀ before token after, issueTokens text = before ++ token :: after → (∀ t ∈ before, ¬ LooksLikeIssue t) →
    LooksLikeIssue token → ∃ n, IssueOf teamKey token n
  digits : (∃ c ∈ teamKey, c.isDigit = true) → ∀ token ∈ issueTokens text, ¬ NamesIssue teamKey token

/-- What a command's run has for its issue agrees with the registry. -/
structure IssuesAgree (registry : SlackProjectRegistry) (teamKey : Text) (groups : KeySet Text)
    (command : SlashCommand) (run : RunRequest) : Prop where
  attached : (∃ token ∈ issueTokens command.text, NamesIssue teamKey token) →
    ∃ issue ∈ run.linearIssue, NamesIssue teamKey issue
  resolved : ∃ context, registry.resolve (run.resolveRequest groups) = .ok context
  parsed : ∀ issue ∈ run.linearIssue, ∃ ref, parseLinearIssueIdentifier issue = .ok ref

section Tokens
variable {token teamKey text : Text}

theorem isUpper_iff {c : Char} : c.isUpper = true ↔ 65 ≤ c.toNat ∧ c.toNat ≤ 90 := by
  have hval : c.isUpper = decide (c.val ≥ 'A'.val ∧ c.val ≤ 'Z'.val) := rfl
  rw [hval, decide_eq_true_eq, ge_iff_le, UInt32.le_iff_toNat_le, UInt32.le_iff_toNat_le]
  rfl

theorem isDigit_iff {c : Char} : c.isDigit = true ↔ 48 ≤ c.toNat ∧ c.toNat ≤ 57 :=
  Char.isDigit_iff_toNat

theorem not_isUpper_of_isDigit {c : Char} (h : c.isDigit = true) : ¬ c.isUpper = true := by
  rw [isDigit_iff] at h
  rw [isUpper_iff]
  omega

theorem dash_not_mem_capitals {team : Text} (h : ∀ c ∈ team, c.isUpper = true) : '-' ∉ team := by
  intro hmem
  exact absurd (h '-' hmem) (by decide)

theorem issueToken_iff : issueToken token = true ↔ LooksLikeIssue token := by
  unfold issueToken LooksLikeIssue
  constructor
  · intro h
    rcases hs : Text.splitOnce '-' token with _ | ⟨team, number⟩
    · rw [hs] at h
      cases h
    · rw [hs] at h
      simp only [Bool.and_eq_true, decide_eq_true_eq, List.all_eq_true, Bool.not_eq_true', List.isEmpty_eq_false_iff]
        at h
      obtain ⟨⟨⟨hlength, hteam⟩, hne⟩, hnumber⟩ := h
      exact ⟨team, number, (Text.splitOnce_eq_some.mp hs).1, hlength, hteam, hne, hnumber⟩
  · rintro ⟨team, number, htoken, hlength, hteam, hne, hnumber⟩
    rw [Text.splitOnce_eq_some.mpr ⟨htoken, dash_not_mem_capitals hteam⟩]
    simp only [Bool.and_eq_true, decide_eq_true_eq, List.all_eq_true, Bool.not_eq_true', List.isEmpty_eq_false_iff]
    exact ⟨⟨⟨hlength, hteam⟩, hne⟩, hnumber⟩

theorem findIssue_eq_some : findIssue (Text.trim text) = some token ↔ LooksLikeIssue token ∧
    ∃ before after, issueTokens text = before ++ token :: after ∧ ∀ t ∈ before, ¬ LooksLikeIssue t := by
  rw [findIssue, List.find?_eq_some_iff_append, issueToken_iff]
  simp only [Bool.not_eq_true', ← Bool.not_eq_true, issueToken_iff]
  rfl

theorem findIssue_eq_none : findIssue (Text.trim text) = none ↔ ∀ t ∈ issueTokens text, ¬ LooksLikeIssue t := by
  rw [findIssue, List.find?_eq_none]
  simp only [issueToken_iff]
  rfl

theorem LooksLikeIssue.trim (h : LooksLikeIssue token) : Text.trim token = token := by
  obtain ⟨team, number, rfl, -, hteam, -, hnumber⟩ := h
  apply Text.trim_eq_self
  intro c hc
  apply isWhitespace_of_repositoryChar
  rw [repositoryChar_iff]
  rcases List.mem_append.mp hc with hc | hc
  · exact .inl (.inr (.inl (isUpper_iff.mp (hteam c hc))))
  · rcases List.mem_cons.mp hc with rfl | hc
    · exact .inr (.inl rfl)
    · exact .inl (.inl (isDigit_iff.mp (hnumber c hc)))

theorem NamesIssue.capitals (hnames : NamesIssue teamKey token) (hkey : '-' ∉ teamKey) (h : LooksLikeIssue token) :
    ∀ c ∈ teamKey, c.isUpper = true := by
  obtain ⟨n, -, htoken⟩ := hnames
  obtain ⟨team, number, htoken', -, hteam, -, -⟩ := h
  have hsplit := Text.splitOnce_eq_some.mpr ⟨htoken, hkey⟩
  rw [Text.splitOnce_eq_some.mpr ⟨htoken', dash_not_mem_capitals hteam⟩] at hsplit
  cases hsplit
  exact hteam

theorem NamesIssue.looksLike (hnames : NamesIssue teamKey token) (hkey : validateTeamKey teamKey = .ok ())
    (hdigits : ¬ ∃ c ∈ teamKey, c.isDigit = true) : LooksLikeIssue token := by
  obtain ⟨n, hpos, htoken⟩ := hnames
  unfold validateTeamKey at hkey
  simp only [Except.refuseIf_eq_ok, not_or, not_not, List.all_eq_true] at hkey
  obtain ⟨hlength, hchars, -⟩ := hkey
  refine ⟨teamKey, Text.decimal n, htoken, hlength, ?_, Nat.toDigits_ne_nil, fun c hc => Text.isDigit_of_mem_decimal hc⟩
  intro c hc
  have hchar := hchars c hc
  rw [upperOrDigit, Bool.or_eq_true] at hchar
  exact hchar.resolve_right fun hdigit => hdigits ⟨c, hc, hdigit⟩

theorem IssueOf.names {n : Nat} (h : IssueOf teamKey token n) : NamesIssue teamKey token :=
  ⟨n, h.1, h.2.2⟩

theorem parse_of_looksLike (hkey : validateTeamKey teamKey = .ok ()) (h : LooksLikeIssue token) :
    (∃ ref, parseLinearIssueIdentifier token = .ok ref ∧ ref.teamKey = teamKey) ↔ ∃ n, IssueOf teamKey token n := by
  constructor
  · rintro ⟨ref, hparse, rfl⟩
    obtain ⟨-, -, hof⟩ := parseLinearIssueIdentifier_eq_ok.mp hparse
    rw [h.trim] at hof
    exact ⟨ref.number, hof⟩
  · rintro ⟨n, hof⟩
    refine ⟨⟨token, teamKey, n⟩, parseLinearIssueIdentifier_eq_ok.mpr ⟨hkey, h.trim.symm, ?_⟩, rfl⟩
    rwa [h.trim]

end Tokens

section Runs
variable {registryReaders : RegistryReaders} {input : List UInt8} {registry : SlackProjectRegistry}
  {request : ResolveRequest} {binding : ChannelProjectBinding} {readers : CommandReaders} {command : SlashCommand}
  {contextMessages : Nat} {run : RunRequest}

theorem loaded_teamKey (hload : SlackProjectRegistry.fromJson registryReaders input = .ok registry) {key : ChannelKey}
    (hbinding : registry.bindings.get key = some binding) : validateTeamKey binding.linearTeamKey = .ok () := by
  obtain ⟨document, -, hstored, hget⟩ := fromJson_spec hload
  obtain ⟨raw, hraw, rfl⟩ := hget key binding hbinding
  obtain ⟨-, binding', hbinding', hvalid⟩ := hstored raw hraw
  cases hbinding.symm.trans hbinding'
  rw [hvalid.linearTeamKey]
  exact hvalid.teamKey

theorem resolve_issue_iff (hbinding : registry.bindings.get request.key = some binding)
    {context : ResolvedProjectContext}
    (hplain : registry.resolve { request with linearIssueIdentifier := none } = .ok context) :
    (∃ context, registry.resolve request = .ok context) ↔ ∀ text ∈ request.linearIssueIdentifier,
      ∃ ref, parseLinearIssueIdentifier text = .ok ref ∧ ref.teamKey = binding.linearTeamKey := by
  obtain ⟨hformed, binding', repository, -, hbinding', hprincipal, hrepository, hallowed, hmode, hwrite, -⟩ :=
    resolve_eq_ok.mp hplain
  cases hbinding.symm.trans hbinding'
  -- the checks of `hplain` do not read the issue, so they hold of the whole request
  constructor
  · rintro ⟨context', hcontext⟩ text htext
    obtain ⟨-, binding', -, issue, hbinding', -, -, -, -, -, hissue, hteam, -⟩ := resolve_eq_ok.mp hcontext
    cases hbinding.symm.trans hbinding'
    exact exists_mapM_parse.mp ⟨issue, hissue, hteam⟩ text htext
  · intro h
    obtain ⟨issue, hissue, hteam⟩ := exists_mapM_parse.mpr h
    exact ⟨_, resolve_eq_ok.mpr ⟨⟨hformed.workspaceId, hformed.channelId, hformed.userId, hformed.userGroupIds⟩,
      binding, repository, issue, hbinding, hprincipal, hrepository, hallowed, hmode, hwrite, hissue, hteam, rfl⟩⟩

theorem direct_linearIssue (h : RunRequest.direct readers command contextMessages = .ok run) :
    run.linearIssue = findIssue (Text.trim command.text) := by
  obtain ⟨prompt, hprompt, h⟩ := Except.bind_eq_ok.mp h
  cases h
  unfold Slack.prompt at hprompt
  dsimp only at hprompt
  split_ifs at hprompt
  cases hprompt
  rfl

/-- The run of an authorised command agrees with the registry on its issue exactly if its text is readable. -/
theorem issuesAgree_iff (hload : SlackProjectRegistry.fromJson registryReaders input = .ok registry)
    (hrun : RunRequest.direct readers command contextMessages = .ok run) (groups : KeySet Text)
    (hbinding : registry.bindings.get (run.teamId, run.channelId) = some binding) {context : ResolvedProjectContext}
    (hauthorized : registry.resolve { run.resolveRequest groups with linearIssueIdentifier := none } = .ok context) :
    IssuesAgree registry binding.linearTeamKey groups command run ↔
      ReadableIssues binding.linearTeamKey command.text := by
  have hkey := loaded_teamKey hload hbinding
  have hissue := direct_linearIssue hrun
  have hresolved := @resolve_issue_iff _ (run.resolveRequest groups) _ hbinding _ hauthorized
  constructor
  · intro h
    have hparsed := hresolved.mp h.resolved
    refine ⟨?_, ?_⟩
    · intro before token after htokens hbefore hlooks
      have hfound := findIssue_eq_some.mpr ⟨hlooks, before, after, htokens, hbefore⟩
      exact (parse_of_looksLike hkey hlooks).mp (hparsed token (hissue.trans hfound))
    · intro hdigit token htoken hnames
      -- what is found has capitals only before its hyphen, so an attached issue leaves the key no digit
      obtain ⟨issue, hmem, hown⟩ := h.attached ⟨token, htoken, hnames⟩
      obtain ⟨hlooks, -⟩ := findIssue_eq_some.mp (hissue ▸ hmem)
      obtain ⟨c, hc, hdigit⟩ := hdigit
      exact not_isUpper_of_isDigit hdigit (hown.capitals (dash_not_mem hkey) hlooks c hc)
  · intro h
    have hof : ∀ issue ∈ run.linearIssue, LooksLikeIssue issue ∧ ∃ n, IssueOf binding.linearTeamKey issue n := by
      intro issue hmem
      obtain ⟨hlooks, before, after, htokens, hbefore⟩ := findIssue_eq_some.mp (hissue ▸ hmem)
      exact ⟨hlooks, h.first before issue after htokens hbefore hlooks⟩
    have hparsed : ∀ issue ∈ run.linearIssue,
        ∃ ref, parseLinearIssueIdentifier issue = .ok ref ∧ ref.teamKey = binding.linearTeamKey := by
      intro issue hmem
      obtain ⟨hlooks, hnumber⟩ := hof issue hmem
      exact (parse_of_looksLike hkey hlooks).mpr hnumber
    refine ⟨?_, hresolved.mpr hparsed, fun issue hmem => ?_⟩
    · rintro ⟨token, htoken, hnames⟩
      cases hfound : run.linearIssue with
      | none =>
        -- the named token looks like an issue itself, as its key has no digit
        have hnone := findIssue_eq_none.mp (hissue.symm.trans hfound)
        have hdigit : ¬ ∃ c ∈ binding.linearTeamKey, c.isDigit = true := fun hdigit =>
          h.digits hdigit token htoken hnames
        exact absurd (hnames.looksLike hkey hdigit) (hnone token htoken)
      | some issue =>
        obtain ⟨-, n, hnumber⟩ := hof issue hfound
        exact ⟨issue, rfl, hnumber.names⟩
    · obtain ⟨ref, hparse, -⟩ := hparsed issue hmem
      exact ⟨ref, hparse⟩

end Runs

def issueCommand (text : String) : SlashCommand where
  teamId := "T012345".toList
  channelId := "C012345".toList
  userId := "U012345".toList
  command := "/x-ores-claude".toList
  text := text.toList
  triggerId := "1".toList
  provider := .claude
  named := by decide

/-- A registry that resolves the run of a command without its issue, for the binding of its channel. -/
structure IssueCase (loaded : Except RegistryError SlackProjectRegistry) (direct : Except Error RunRequest)
    (registry : SlackProjectRegistry) (run : RunRequest) (binding : ChannelProjectBinding)
    (context : ResolvedProjectContext) : Prop where
  loaded : loaded = .ok registry
  direct : direct = .ok run
  binding : registry.bindings.get (run.teamId, run.channelId) = some binding
  authorized : registry.resolve { run.resolveRequest .empty with linearIssueIdentifier := none } = .ok context

def issueCase (loaded : Except RegistryError SlackProjectRegistry) (direct : Except Error RunRequest) :
    Option (SlackProjectRegistry × RunRequest × ChannelProjectBinding × ResolvedProjectContext) := do
  let registry ← loaded.toOption
  let run ← direct.toOption
  let binding ← registry.bindings.get (run.teamId, run.channelId)
  let context ← (registry.resolve { run.resolveRequest .empty with linearIssueIdentifier := none }).toOption
  return (registry, run, binding, context)

section Cases
variable {loaded : Except RegistryError SlackProjectRegistry} {direct : Except Error RunRequest}
  {registry : SlackProjectRegistry} {run : RunRequest} {binding : ChannelProjectBinding}
  {context : ResolvedProjectContext}

theorem issueCase_spec (h : issueCase loaded direct = some (registry, run, binding, context)) :
    IssueCase loaded direct registry run binding context := by
  obtain ⟨registry', hregistry, h⟩ := Option.bind_eq_some_iff.mp h
  obtain ⟨run', hrun, h⟩ := Option.bind_eq_some_iff.mp h
  obtain ⟨binding', hbinding, h⟩ := Option.bind_eq_some_iff.mp h
  obtain ⟨context', hcontext, h⟩ := Option.bind_eq_some_iff.mp h
  cases h
  exact ⟨Except.toOption_eq_some.mp hregistry, Except.toOption_eq_some.mp hrun, hbinding,
    Except.toOption_eq_some.mp hcontext⟩

end Cases

def issueRun (text : String) : Except Error RunRequest :=
  RunRequest.direct plainReaders (issueCommand text) 0

theorem issuesAgree_named : ∃ registry run binding context,
    IssueCase (boundRegistry "ORESoftware/bridge.rs".toList) (issueRun "Fix DEN-7 today") registry run binding context ∧
    run.linearIssue = some "DEN-7".toList ∧
    IssuesAgree registry binding.linearTeamKey .empty (issueCommand "Fix DEN-7 today") run := by
  have hfacts : (issueCase (boundRegistry "ORESoftware/bridge.rs".toList) (issueRun "Fix DEN-7 today")).map
      (fun found => (found.2.1.linearIssue, found.2.2.1.linearTeamKey)) =
      some (some "DEN-7".toList, "DEN".toList) := by decide +kernel
  obtain ⟨⟨registry, run, binding, context⟩, hcase, hfacts⟩ := Option.map_eq_some_iff.mp hfacts
  obtain ⟨hissue, hkey⟩ := Prod.mk.inj hfacts
  have hspec := issueCase_spec hcase
  have hreadable : ReadableIssues binding.linearTeamKey (issueCommand "Fix DEN-7 today").text := by
    dsimp only at hkey
    rw [hkey]
    have htokens : issueTokens (issueCommand "Fix DEN-7 today").text =
        ["Fix".toList, "DEN-7".toList, "today".toList] := by decide
    constructor
    · rintro before token after hsplit - ⟨team, number, heq, -⟩
      have hmem : token ∈ ["Fix".toList, "DEN-7".toList, "today".toList] := by
        rw [← htokens, hsplit]
        exact List.mem_append_right _ List.mem_cons_self
      have hhyphen : '-' ∈ token := by
        rw [heq]
        exact List.mem_append_right _ List.mem_cons_self
      simp only [List.mem_cons, List.not_mem_nil, or_false] at hmem
      rcases hmem with rfl | rfl | rfl
      · exact absurd hhyphen (by decide)
      · exact ⟨7, by decide, by decide⟩
      · exact absurd hhyphen (by decide)
    · rintro ⟨c, hc, hdigit⟩
      have hcapitals : "DEN".toList.all (fun c => !c.isDigit) = true := by decide
      have hcapital := List.all_eq_true.mp hcapitals c hc
      rw [hdigit] at hcapital
      cases hcapital
  exact ⟨registry, run, binding, context, hspec, hissue,
    (issuesAgree_iff hspec.loaded hspec.direct .empty hspec.binding hspec.authorized).mpr hreadable⟩

/-- A command about an issue of the channel's team is refused for the name of an encoding before it. -/
theorem not_issuesAgree : ∃ registry run binding context,
    IssueCase (boundRegistry "ORESoftware/bridge.rs".toList) (issueRun "Write UTF-8 for DEN-7") registry run
      binding context ∧
    (∃ token ∈ issueTokens (issueCommand "Write UTF-8 for DEN-7").text, NamesIssue binding.linearTeamKey token) ∧
    ¬ IssuesAgree registry binding.linearTeamKey .empty (issueCommand "Write UTF-8 for DEN-7") run := by
  have hfacts : (issueCase (boundRegistry "ORESoftware/bridge.rs".toList) (issueRun "Write UTF-8 for DEN-7")).map
      (fun found =>
        (found.2.2.1.linearTeamKey, (found.1.resolve (found.2.1.resolveRequest .empty)).toOption.isSome)) =
      some ("DEN".toList, false) := by decide +kernel
  obtain ⟨⟨registry, run, binding, context⟩, hcase, hfacts⟩ := Option.map_eq_some_iff.mp hfacts
  obtain ⟨hkey, hrefused⟩ := Prod.mk.inj hfacts
  refine ⟨registry, run, binding, context, issueCase_spec hcase, ?_, ?_⟩
  · refine ⟨"DEN-7".toList, by decide, 7, by decide, ?_⟩
    dsimp only at hkey
    rw [hkey]
    decide
  · intro hagrees
    obtain ⟨resolved, hresolved⟩ := hagrees.resolved
    dsimp only at hrefused
    rw [hresolved] at hrefused
    cases hrefused

end AgentBridge.Slack
