import AgentBridge.Base.Words
import AgentBridge.Slack.Workers

/-! The grammar of commands in messages: an optional mention, the configured prefix, and either a control verb with
the id of an event or a prompt, which a flag may route to one model. -/

namespace AgentBridge.Slack

namespace Bridge

def maxPromptBytes : Nat := 100000

end Bridge

def ModelSelection.parse (value : Text) : Option ModelSelection :=
  let value := Text.toAsciiLowercase value
  if value = "claude".toList then some .claude
  else if value = "chatgpt".toList ∨ value = "openai".toList ∨ value = "gpt".toList then some .chatgpt
  else if value = "both".toList then some .both
  else none

inductive CommandParse
  | notCommand
  | invalid
  | prompt (prompt : Text) (selection : ModelSelection)
  | status (target : Text)
  | cancel (target : Text)
deriving DecidableEq

def controlVerbs : List Text := ["status".toList, "cancel".toList]

def isControlVerb (word : Text) : Bool := controlVerbs.any fun verb => Text.equalsIgnoreAsciiCase word verb

def modelFlag : Text := "--model".toList

def stripLeadingMention (text : Text) : Text :=
  if ¬ "<@".toList <+: text then text
  else match Text.splitOnce '>' text with
    | none => text
    | some (_, rest) => Text.trimStart rest

/-- The end of `parse_command`, on a prompt that no control verb begins. -/
def selectModels (prompt : Text) : CommandParse :=
  match Text.stripPrefix modelFlag prompt with
  | none => .prompt prompt .both
  | some rest =>
    let rest := Text.trimStart rest
    let (value, remainder) := (Text.splitWhitespace rest).getD (rest, [])
    match ModelSelection.parse value with
    | none => .invalid
    | some selection =>
      let remainder := Text.trim remainder
      if remainder = [] then .invalid else .prompt remainder selection

/-- `parse_command` from the control verbs on. -/
def parsePrompt (prompt : Text) : CommandParse :=
  match ((Text.splitWhitespace prompt).map fun (head, tail) => (head, Text.trim tail)).filter
      fun (head, _) => isControlVerb head with
  | some (verb, argument) =>
    if !validEventId argument then .invalid
    else if Text.equalsIgnoreAsciiCase verb "status".toList then .status argument else .cancel argument
  | none => if isControlVerb prompt then .invalid else selectModels prompt

def parseCommand (text commandPrefix : Text) : CommandParse :=
  match Text.stripPrefix commandPrefix (stripLeadingMention (Text.trim text)) with
  | none => .notCommand
  | some [] => .invalid
  | some (c :: rest) =>
    if !Text.isWhitespace c then .notCommand
    else
      let prompt := Text.trim (c :: rest)
      if prompt = [] ∨ Text.byteLen prompt > Bridge.maxPromptBytes ∨ Char.ofNat 0 ∈ prompt then .invalid
      else parsePrompt prompt

/-! ### The grammar -/

/-- A text without the mention it may begin with. -/
inductive WithoutMention (text : Text) : Text → Prop
  | mention {name rest gap : Text} (htext : Text.trim text = "<@".toList ++ name ++ '>' :: (gap ++ rest))
      (hname : '>' ∉ name) (hgap : ∀ c ∈ gap, Text.isWhitespace c = true) (hrest : Text.StartsClean rest) :
      WithoutMention text rest
  | plain (h : ∀ name rest, Text.trim text ≠ "<@".toList ++ name ++ '>' :: rest) : WithoutMention text (Text.trim text)

/-- The text is a command with this body: the prefix is a token of its own before it. -/
structure CommandBody (commandPrefix text body : Text) : Prop where
  tokens : ∃ rest gap, WithoutMention text rest ∧ rest = commandPrefix ++ gap ++ body ∧ gap ≠ [] ∧
    ∀ c ∈ gap, Text.isWhitespace c = true
  ne : body ≠ []
  starts : Text.StartsClean body

/-- Within the length limit and without NUL. -/
def WithinLimits (body : Text) : Prop := Text.byteLen body ≤ Bridge.maxPromptBytes ∧ Char.ofNat 0 ∉ body

/-- The leading tokens of two bodies: the first ones, and after the flag the second ones. -/
def SameLeading (body body' : Text) : Prop := Text.firstWord body = Text.firstWord body' ∧
  (Text.firstWord body = modelFlag → Text.firstWord (Text.afterWord body) = Text.firstWord (Text.afterWord body'))

/-- A control verb, in any case, with one valid event id. -/
def Controls (verb : Text) (body target : Text) : Prop :=
  Text.equalsIgnoreAsciiCase (Text.firstWord body) verb = true ∧ Text.afterWord body = target ∧
    validEventId target = true

structure FollowsGrammar (commandPrefix text : Text) : Prop where
  selected : ∀ prompt selection, parseCommand text commandPrefix = .prompt prompt selection → selection ≠ .both →
    ∃ body, CommandBody commandPrefix text body ∧ Text.firstWord body = modelFlag ∧
      ModelSelection.parse (Text.firstWord (Text.afterWord body)) = some selection ∧
      prompt = Text.afterWord (Text.afterWord body)
  ordinary : ∀ body, CommandBody commandPrefix text body → WithinLimits body → modelFlag <+: Text.firstWord body →
    Text.firstWord body ≠ modelFlag → parseCommand text commandPrefix = .prompt body .both
  status : ∀ target, parseCommand text commandPrefix = .status target ↔
    ∃ body, CommandBody commandPrefix text body ∧ WithinLimits body ∧ Controls "status".toList body target
  cancel : ∀ target, parseCommand text commandPrefix = .cancel target ↔
    ∃ body, CommandBody commandPrefix text body ∧ WithinLimits body ∧ Controls "cancel".toList body target
  stable : ∀ text' body body' prompt prompt' selection selection', CommandBody commandPrefix text body →
    CommandBody commandPrefix text' body' → SameLeading body body' →
    parseCommand text commandPrefix = .prompt prompt selection →
    parseCommand text' commandPrefix = .prompt prompt' selection' → selection = selection'

/-- The first token of a command begins with the flag only where it is the flag. -/
def ExactFlag (commandPrefix text : Text) : Prop :=
  ∀ body, CommandBody commandPrefix text body → WithinLimits body → modelFlag <+: Text.firstWord body →
    Text.firstWord body = modelFlag

section Leading
variable {text rest commandPrefix body : Text}

theorem not_isWhitespace_modelFlag : ∀ c ∈ modelFlag, Text.isWhitespace c = false :=
  Text.spaceless_of_all (by decide)

/-- The mention of a text ends at its first `>`. -/
theorem splitOnce_mention {text name rest : Text} (h : text = "<@".toList ++ name ++ '>' :: rest) (hname : '>' ∉ name) :
    Text.splitOnce '>' text = some ("<@".toList ++ name, rest) := by
  refine Text.splitOnce_eq_some.mpr ⟨h, ?_⟩
  rw [List.mem_append, not_or]
  exact ⟨by decide, hname⟩

theorem mention_of_splitOnce {text before rest : Text} (hstart : "<@".toList <+: text)
    (h : Text.splitOnce '>' text = some (before, rest)) :
    ∃ name, text = "<@".toList ++ name ++ '>' :: rest ∧ '>' ∉ name := by
  obtain ⟨rfl, hbefore⟩ := Text.splitOnce_eq_some.mp h
  have hlength : "<@".toList.length ≤ before.length := by
    by_contra hshort
    have hclosed : before ++ ['>'] <+: "<@".toList := by
      refine @List.prefix_of_prefix_length_le _ _ _ (before ++ '>' :: rest) ?_ hstart ?_
      · exact ⟨rest, List.append_assoc ..⟩
      · rw [List.length_append, List.length_singleton]
        omega
    exact absurd (hclosed.subset (List.mem_append_right _ (List.mem_singleton_self _))) (by decide)
  obtain ⟨name, rfl⟩ := List.prefix_of_prefix_length_le hstart (List.prefix_append _ _) hlength
  exact ⟨name, rfl, fun hmem => hbefore (List.mem_append_right _ hmem)⟩

theorem stripLeadingMention_mention {text name rest : Text} (h : text = "<@".toList ++ name ++ '>' :: rest)
    (hname : '>' ∉ name) : stripLeadingMention text = Text.trimStart rest := by
  have hstart : "<@".toList <+: text := by
    rw [h, List.append_assoc]
    exact List.prefix_append _ _
  rw [stripLeadingMention, if_neg (not_not.mpr hstart), splitOnce_mention h hname]

theorem stripLeadingMention_plain {text : Text} (h : ∀ name rest, text ≠ "<@".toList ++ name ++ '>' :: rest) :
    stripLeadingMention text = text := by
  by_cases hstart : "<@".toList <+: text
  · rw [stripLeadingMention, if_neg (not_not.mpr hstart)]
    cases hsplit : Text.splitOnce '>' text with
    | none => rfl
    | some parts =>
      obtain ⟨name, htext, -⟩ := mention_of_splitOnce hstart hsplit
      exact absurd htext (h name parts.2)
  · rw [stripLeadingMention, if_pos hstart]

theorem withoutMention_iff : WithoutMention text rest ↔ rest = stripLeadingMention (Text.trim text) := by
  constructor
  · rintro (⟨htext, hname, hgap, hrest⟩ | h)
    · rw [stripLeadingMention_mention htext hname, Text.trimStart, List.dropWhile_append_of_pos hgap,
        Text.startsClean_iff.mp hrest]
    · rw [stripLeadingMention_plain h]
  · rintro rfl
    by_cases h : ∀ name rest, Text.trim text ≠ "<@".toList ++ name ++ '>' :: rest
    · rw [stripLeadingMention_plain h]
      exact .plain h
    · push Not at h
      obtain ⟨name, rest, htext⟩ := h
      have hstart : "<@".toList <+: Text.trim text := by
        rw [htext, List.append_assoc]
        exact List.prefix_append _ _
      have hmem : '>' ∈ Text.trim text := by
        rw [htext]
        exact List.mem_append_right _ List.mem_cons_self
      obtain ⟨name', htext', hname'⟩ := mention_of_splitOnce hstart (by rw [Text.splitOnce, if_pos hmem])
      have hgap := List.takeWhile_append_dropWhile (p := Text.isWhitespace)
        (l := ((Text.trim text).dropWhile (· ≠ '>')).tail)
      rw [stripLeadingMention_mention htext' hname']
      refine @WithoutMention.mention _ _ _ (List.takeWhile Text.isWhitespace _) (hgap.symm ▸ htext') hname' ?_ ?_
      · intro c hc
        exact List.mem_takeWhile_imp hc
      · exact Text.startsClean_iff.mpr (List.dropWhile_idempotent _ _)

theorem stripLeadingMention_suffix (text : Text) : stripLeadingMention text <:+ text := by
  unfold stripLeadingMention
  split_ifs with hstart
  · cases hsplit : Text.splitOnce '>' text with
    | none => exact List.suffix_refl text
    | some parts =>
      obtain ⟨htext, -⟩ := Text.splitOnce_eq_some.mp hsplit
      refine (List.dropWhile_suffix _).trans ?_
      rw [htext, List.append_cons]
      exact List.suffix_append _ _
  · exact List.suffix_refl text

/-- The body is what `parse_command` trims after the prefix. -/
theorem commandBody_iff : CommandBody commandPrefix text body ↔
    ∃ c tail, stripLeadingMention (Text.trim text) = commandPrefix ++ c :: tail ∧ Text.isWhitespace c = true ∧
      body = Text.trim (c :: tail) ∧ body ≠ [] := by
  have hends : Text.EndsClean (stripLeadingMention (Text.trim text)) :=
    (Text.trim_eq_self_iff.mp (Text.trim_trim text)).2.of_suffix (stripLeadingMention_suffix _)
  constructor
  · rintro ⟨⟨rest, gap, hrest, hsplit, hne, hgap⟩, hbody, hstarts⟩
    rw [withoutMention_iff] at hrest
    subst hrest
    obtain ⟨c, gap, rfl⟩ := List.exists_cons_of_ne_nil hne
    rw [List.append_assoc, List.cons_append] at hsplit
    refine ⟨c, gap ++ body, hsplit, hgap c List.mem_cons_self, ?_, hbody⟩
    have hclean : Text.EndsClean (c :: (gap ++ body)) := hends.of_suffix (hsplit ▸ List.suffix_append _ _)
    rw [hclean.trim_eq, Text.trimStart, ← List.cons_append, List.dropWhile_append_of_pos hgap,
      Text.startsClean_iff.mp hstarts]
  · rintro ⟨c, tail, hsplit, hc, rfl, hne⟩
    have hclean : Text.EndsClean (c :: tail) := hends.of_suffix (hsplit ▸ List.suffix_append _ _)
    have hgap := List.takeWhile_append_dropWhile (p := Text.isWhitespace) (l := c :: tail)
    refine ⟨⟨_, (c :: tail).takeWhile Text.isWhitespace, withoutMention_iff.mpr rfl, ?_, ?_, ?_⟩, hne, ?_⟩
    · rw [hsplit, hclean.trim_eq, Text.trimStart, List.append_assoc, hgap]
    · rw [List.takeWhile_cons_of_pos hc]
      exact List.cons_ne_nil _ _
    · intro d hd
      exact List.mem_takeWhile_imp hd
    · rw [hclean.trim_eq]
      exact Text.startsClean_iff.mpr (List.dropWhile_idempotent _ _)

theorem CommandBody.unique {body' : Text} (h : CommandBody commandPrefix text body)
    (h' : CommandBody commandPrefix text body') : body = body' := by
  obtain ⟨c, tail, hsplit, -, rfl, -⟩ := commandBody_iff.mp h
  obtain ⟨c', tail', hsplit', -, rfl, -⟩ := commandBody_iff.mp h'
  rw [List.append_cancel_left (hsplit.symm.trans hsplit')]

theorem CommandBody.trim (h : CommandBody commandPrefix text body) : Text.trim body = body := by
  obtain ⟨c, tail, -, -, rfl, -⟩ := commandBody_iff.mp h
  exact Text.trim_trim _

theorem parseCommand_of_body (h : CommandBody commandPrefix text body) : parseCommand text commandPrefix =
    if Text.byteLen body > Bridge.maxPromptBytes ∨ Char.ofNat 0 ∈ body then .invalid else parsePrompt body := by
  obtain ⟨c, tail, hsplit, hc, rfl, hne⟩ := commandBody_iff.mp h
  rw [parseCommand, Text.stripPrefix_eq_some.mpr hsplit]
  simp only [hc, Bool.not_true, Bool.false_eq_true, if_false, hne, false_or]

theorem parseCommand_of_no_body (h : ∀ body, ¬ CommandBody commandPrefix text body) :
    parseCommand text commandPrefix = .notCommand ∨ parseCommand text commandPrefix = .invalid := by
  unfold parseCommand
  split
  · exact .inl rfl
  · exact .inr rfl
  · rename_i c tail hsplit
    rw [Text.stripPrefix_eq_some] at hsplit
    by_cases hc : Text.isWhitespace c = true
    · have hempty : Text.trim (c :: tail) = [] := by
        by_contra hne
        exact h _ (commandBody_iff.mpr ⟨c, tail, hsplit, hc, rfl, hne⟩)
      right
      simp only [hc, hempty, Bool.not_true, Bool.false_eq_true, if_false, true_or, if_true]
    · left
      simp only [hc, Bool.not_false, if_true]

end Leading

section Bodies
variable {text commandPrefix body rest prompt target verb : Text} {selection : ModelSelection}

theorem isWhitespace_of_isControlVerb (h : isControlVerb body = true) : ∀ c ∈ body, Text.isWhitespace c = false := by
  obtain ⟨verb, hverb, heq⟩ := List.any_eq_true.mp h
  rw [Text.equalsIgnoreAsciiCase, beq_iff_eq] at heq
  intro c hc
  have hlower : c.toLower ∈ Text.toAsciiLowercase verb := heq ▸ List.mem_map_of_mem hc
  have hspaceless : controlVerbs.all (fun verb => (Text.toAsciiLowercase verb).all fun c => !Text.isWhitespace c) =
      true := by decide
  rw [← Text.isWhitespace_toLower]
  exact Text.spaceless_of_all (List.all_eq_true.mp hspaceless verb hverb) _ hlower

theorem parsePrompt_control (h : isControlVerb (Text.firstWord body) = true) : parsePrompt body =
    if !validEventId (Text.afterWord body) then .invalid
    else if Text.equalsIgnoreAsciiCase (Text.firstWord body) "status".toList then .status (Text.afterWord body)
    else .cancel (Text.afterWord body) := by
  unfold parsePrompt
  rcases hsplit : Text.splitWhitespace body with _ | ⟨head, tail⟩
  · obtain ⟨hfirst, hafter⟩ := Text.splitWhitespace_eq_none hsplit
    rw [hfirst] at h
    rw [hafter, Option.map_none, Option.filter_none]
    simp only [h, if_true]
    rfl
  · obtain ⟨rfl, hafter⟩ := Text.splitWhitespace_eq_some hsplit
    rw [Option.map_some, Option.filter_some]
    simp only [h, hafter, if_true]

theorem parsePrompt_other (h : isControlVerb (Text.firstWord body) = false) : parsePrompt body = selectModels body := by
  have hbody : isControlVerb body = false := by
    rw [← Bool.not_eq_true]
    intro hverb
    have hfirst := Text.firstWord_append (isWhitespace_of_isControlVerb hverb) []
    rw [List.append_nil] at hfirst
    rw [hfirst, Text.firstWord, List.takeWhile_nil, List.append_nil, hverb] at h
    cases h
  unfold parsePrompt
  rcases hsplit : Text.splitWhitespace body with _ | ⟨head, tail⟩
  · rw [Option.map_none, Option.filter_none]
    simp only [hbody, Bool.false_eq_true, if_false]
  · obtain ⟨rfl, -⟩ := Text.splitWhitespace_eq_some hsplit
    rw [Option.map_some, Option.filter_some]
    simp only [h, Bool.false_eq_true, if_false, hbody]

/-- What follows the letters of the flag is read as the name of a model and a prompt. -/
theorem selectModels_append (rest : Text) : selectModels (modelFlag ++ rest) =
    match ModelSelection.parse (Text.firstWord (Text.trimStart rest)) with
    | none => .invalid
    | some selection =>
      if Text.afterWord (Text.trimStart rest) = [] then .invalid
      else .prompt (Text.afterWord (Text.trimStart rest)) selection := by
  rw [selectModels, Text.stripPrefix_eq_some.mpr rfl]
  dsimp only
  rcases hsplit : Text.splitWhitespace (Text.trimStart rest) with _ | ⟨head, tail⟩
  · obtain ⟨hfirst, hafter⟩ := Text.splitWhitespace_eq_none hsplit
    rw [Option.getD_none, hfirst, hafter]
    rfl
  · obtain ⟨rfl, hafter⟩ := Text.splitWhitespace_eq_some hsplit
    rw [Option.getD_some, ← hafter]

theorem selectModels_plain (h : ¬ modelFlag <+: body) : selectModels body = .prompt body .both := by
  rw [selectModels, Text.stripPrefix_eq_none.mpr h]

theorem trimStart_of_flag (hclean : Text.trim (modelFlag ++ rest) = modelFlag ++ rest)
    (h : Text.firstWord (modelFlag ++ rest) = modelFlag) :
    Text.trimStart rest = Text.afterWord (modelFlag ++ rest) := by
  rw [Text.firstWord_append not_isWhitespace_modelFlag, List.append_right_eq_self] at h
  have hends := (Text.trim_eq_self_iff.mp hclean).2.of_suffix (List.suffix_append modelFlag rest)
  rw [Text.afterWord_append not_isWhitespace_modelFlag, Text.afterWord_of_firstWord_eq_nil h, hends.trim_eq]

theorem trimStart_of_loose (h : Text.firstWord (modelFlag ++ rest) ≠ modelFlag) : Text.trimStart rest = rest := by
  rw [Text.firstWord_append not_isWhitespace_modelFlag, Ne, List.append_right_eq_self] at h
  exact Text.startsClean_iff.mp (Text.startsClean_of_firstWord h)

theorem selectModels_eq_prompt (h : selectModels (modelFlag ++ rest) = .prompt prompt selection) :
    ModelSelection.parse (Text.firstWord (Text.trimStart rest)) = some selection ∧
      prompt = Text.afterWord (Text.trimStart rest) := by
  rw [selectModels_append] at h
  cases hparse : ModelSelection.parse (Text.firstWord (Text.trimStart rest)) with
  | none =>
    rw [hparse] at h
    cases h
  | some selected =>
    rw [hparse] at h
    dsimp only at h
    split_ifs at h
    cases h
    exact ⟨rfl, rfl⟩

def leadingSelection (first second : Text) : Option ModelSelection :=
  if first = modelFlag then ModelSelection.parse second
  else match Text.stripPrefix modelFlag first with
    | none => some .both
    | some name => ModelSelection.parse name

theorem leadingSelection_of_prompt (hclean : Text.trim body = body) (h : selectModels body = .prompt prompt selection) :
    leadingSelection (Text.firstWord body) (Text.firstWord (Text.afterWord body)) = some selection := by
  by_cases hflag : modelFlag <+: body
  · obtain ⟨rest, rfl⟩ := hflag
    obtain ⟨hparse, -⟩ := selectModels_eq_prompt h
    unfold leadingSelection
    split_ifs with hfirst
    · rwa [← trimStart_of_flag hclean hfirst]
    · rw [trimStart_of_loose hfirst] at hparse
      rw [Text.firstWord_append not_isWhitespace_modelFlag, Text.stripPrefix_eq_some.mpr rfl]
      exact hparse
  · rw [selectModels_plain hflag] at h
    cases h
    have hfirst : ¬ modelFlag <+: Text.firstWord body :=
      mt (Text.isPrefix_firstWord not_isWhitespace_modelFlag).mp hflag
    have hne : Text.firstWord body ≠ modelFlag := by
      intro heq
      rw [heq] at hfirst
      exact hfirst (List.prefix_refl modelFlag)
    rw [leadingSelection, if_neg hne, Text.stripPrefix_eq_none.mpr hfirst]

theorem selectModels_ne_whole (h : modelFlag <+: body) : selectModels body ≠ .prompt body selection := by
  obtain ⟨rest, rfl⟩ := h
  intro heq
  obtain ⟨-, hprompt⟩ := selectModels_eq_prompt heq
  have hshort : (Text.afterWord (Text.trimStart rest)).length ≤ rest.length :=
    calc (Text.afterWord (Text.trimStart rest)).length
        ≤ ((Text.trimStart rest).dropWhile fun c => !Text.isWhitespace c).length := (Text.trim_infix _).length_le
      _ ≤ (Text.trimStart rest).length := (List.dropWhile_suffix _).length_le
      _ ≤ rest.length := (List.dropWhile_suffix _).length_le
  rw [← hprompt, List.length_append] at hshort
  have hflag : modelFlag.length = 7 := rfl
  omega

end Bodies

section Grammar
variable {text commandPrefix body prompt target : Text} {selection : ModelSelection}

theorem not_withinLimits : ¬ WithinLimits body ↔ Text.byteLen body > Bridge.maxPromptBytes ∨ Char.ofNat 0 ∈ body := by
  rw [WithinLimits, not_and_or, not_le, not_not]

theorem parseCommand_refused (h : CommandBody commandPrefix text body) (hlimits : ¬ WithinLimits body) :
    parseCommand text commandPrefix = .invalid := by
  rw [parseCommand_of_body h, if_pos (not_withinLimits.mp hlimits)]

theorem parseCommand_within (h : CommandBody commandPrefix text body) (hlimits : WithinLimits body) :
    parseCommand text commandPrefix = parsePrompt body := by
  rw [parseCommand_of_body h, if_neg fun hover => not_withinLimits.mpr hover hlimits]

theorem body_of_parse (hcommand : parseCommand text commandPrefix ≠ .notCommand)
    (hvalid : parseCommand text commandPrefix ≠ .invalid) : ∃ body, CommandBody commandPrefix text body ∧
      WithinLimits body ∧ parseCommand text commandPrefix = parsePrompt body := by
  by_cases h : ∀ body, ¬ CommandBody commandPrefix text body
  · rcases parseCommand_of_no_body h with hparse | hparse
    · exact absurd hparse hcommand
    · exact absurd hparse hvalid
  · obtain ⟨body, hbody⟩ := not_forall_not.mp h
    have hlimits : WithinLimits body := by
      by_contra hover
      exact hvalid (parseCommand_refused hbody hover)
    exact ⟨body, hbody, hlimits, parseCommand_within hbody hlimits⟩

theorem isControlVerb_iff {word : Text} : isControlVerb word = true ↔
    Text.equalsIgnoreAsciiCase word "status".toList = true ∨
      Text.equalsIgnoreAsciiCase word "cancel".toList = true := by
  simp [isControlVerb, controlVerbs]

theorem selectModels_cases (body : Text) :
    selectModels body = .invalid ∨ ∃ prompt selection, selectModels body = .prompt prompt selection := by
  by_cases hflag : modelFlag <+: body
  · obtain ⟨rest, rfl⟩ := hflag
    rw [selectModels_append]
    cases ModelSelection.parse (Text.firstWord (Text.trimStart rest)) with
    | none => exact .inl rfl
    | some selection =>
      dsimp only
      split_ifs
      · exact .inl rfl
      · exact .inr ⟨_, _, rfl⟩
  · exact .inr ⟨body, .both, selectModels_plain hflag⟩

theorem isControlVerb_of_parsePrompt (hvalid : parsePrompt body ≠ .invalid)
    (hprompt : ∀ prompt selection, parsePrompt body ≠ .prompt prompt selection) :
    isControlVerb (Text.firstWord body) = true := by
  by_contra hverb
  have hother := parsePrompt_other (Bool.eq_false_of_not_eq_true hverb)
  rcases selectModels_cases body with hinvalid | ⟨prompt, selection, hselect⟩
  · exact hvalid (hother.trans hinvalid)
  · exact hprompt prompt selection (hother.trans hselect)

theorem parsePrompt_status : parsePrompt body = .status target ↔ Controls "status".toList body target := by
  constructor
  · intro h
    have hverb := isControlVerb_of_parsePrompt (by rw [h]; nofun) (by rw [h]; nofun)
    rw [parsePrompt_control hverb] at h
    split_ifs at h with hid hstatus
    cases h
    exact ⟨hstatus, rfl, by simpa using hid⟩
  · rintro ⟨hstatus, rfl, hid⟩
    rw [parsePrompt_control (isControlVerb_iff.mpr (.inl hstatus)), hid, hstatus]
    rfl

theorem parsePrompt_cancel : parsePrompt body = .cancel target ↔ Controls "cancel".toList body target := by
  constructor
  · intro h
    have hverb := isControlVerb_of_parsePrompt (by rw [h]; nofun) (by rw [h]; nofun)
    rw [parsePrompt_control hverb] at h
    split_ifs at h with hid hstatus
    cases h
    exact ⟨(isControlVerb_iff.mp hverb).resolve_left hstatus, rfl, by simpa using hid⟩
  · rintro ⟨hcancel, rfl, hid⟩
    -- the two verbs differ, whatever the case of their letters
    have hstatus : Text.equalsIgnoreAsciiCase (Text.firstWord body) "status".toList = false := by
      rw [Text.equalsIgnoreAsciiCase, beq_iff_eq] at hcancel
      rw [Text.equalsIgnoreAsciiCase, hcancel]
      decide
    rw [parsePrompt_control (isControlVerb_iff.mpr (.inr hcancel)), hid, hstatus]
    rfl

theorem parsePrompt_prompt (h : parsePrompt body = .prompt prompt selection) :
    selectModels body = .prompt prompt selection := by
  cases hverb : isControlVerb (Text.firstWord body) with
  | false => rwa [parsePrompt_other hverb] at h
  | true =>
    rw [parsePrompt_control hverb] at h
    split_ifs at h

theorem parseCommand_eq_iff {result : CommandParse} (hcommand : result ≠ .notCommand) (hvalid : result ≠ .invalid) :
    parseCommand text commandPrefix = result ↔
      ∃ body, CommandBody commandPrefix text body ∧ WithinLimits body ∧ parsePrompt body = result := by
  constructor
  · rintro rfl
    obtain ⟨body, hbody, hlimits, hparse⟩ := body_of_parse hcommand hvalid
    exact ⟨body, hbody, hlimits, hparse.symm⟩
  · rintro ⟨body, hbody, hlimits, hparse⟩
    exact (parseCommand_within hbody hlimits).trans hparse

theorem body_of_prompt (h : parseCommand text commandPrefix = .prompt prompt selection) :
    ∃ body, CommandBody commandPrefix text body ∧ WithinLimits body ∧
      selectModels body = .prompt prompt selection := by
  obtain ⟨body, hbody, hlimits, hparse⟩ :=
    (@parseCommand_eq_iff text commandPrefix (.prompt prompt selection) nofun nofun).mp h
  exact ⟨body, hbody, hlimits, parsePrompt_prompt hparse⟩

theorem parseCommand_status : parseCommand text commandPrefix = .status target ↔
    ∃ body, CommandBody commandPrefix text body ∧ WithinLimits body ∧ Controls "status".toList body target := by
  rw [@parseCommand_eq_iff text commandPrefix (.status target) nofun nofun]
  simp only [parsePrompt_status]

theorem parseCommand_cancel : parseCommand text commandPrefix = .cancel target ↔
    ∃ body, CommandBody commandPrefix text body ∧ WithinLimits body ∧ Controls "cancel".toList body target := by
  rw [@parseCommand_eq_iff text commandPrefix (.cancel target) nofun nofun]
  simp only [parsePrompt_cancel]

theorem selection_of_sameLeading {body body' prompt' : Text} {selection' : ModelSelection}
    (hclean : Text.trim body = body) (hclean' : Text.trim body' = body') (hsame : SameLeading body body')
    (h : selectModels body = .prompt prompt selection) (h' : selectModels body' = .prompt prompt' selection') :
    selection = selection' := by
  have hleading := leadingSelection_of_prompt hclean h
  have hleading' := leadingSelection_of_prompt hclean' h'
  obtain ⟨hfirst, hsecond⟩ := hsame
  rw [← hfirst] at hleading'
  by_cases hflag : Text.firstWord body = modelFlag
  · rw [← hsecond hflag, hleading] at hleading'
    exact Option.some.inj hleading'
  · rw [leadingSelection, if_neg hflag] at hleading hleading'
    exact Option.some.inj (hleading.symm.trans hleading')

/-- Commands over the limits are refused, and a text follows the grammar exactly if its first token begins with the
flag only where it is the flag. -/
theorem parse_command_grammar (text commandPrefix : Text) :
    (∀ body, CommandBody commandPrefix text body → ¬ WithinLimits body →
      parseCommand text commandPrefix = .invalid) ∧
    (FollowsGrammar commandPrefix text ↔ ExactFlag commandPrefix text) := by
  refine ⟨fun body hbody hover => parseCommand_refused hbody hover, ?_, ?_⟩
  · intro h body hbody hlimits hstart
    by_contra hne
    have hwhole := h.ordinary body hbody hlimits hstart hne
    obtain ⟨body', hbody', -, hselect⟩ := body_of_prompt hwhole
    cases hbody.unique hbody'
    exact selectModels_ne_whole ((Text.isPrefix_firstWord not_isWhitespace_modelFlag).mp hstart) hselect
  · intro h
    refine ⟨?_, ?_, fun target => parseCommand_status, fun target => parseCommand_cancel, ?_⟩
    · intro prompt selection hparse hselection
      obtain ⟨body, hbody, hlimits, hselect⟩ := body_of_prompt hparse
      by_cases hflag : modelFlag <+: body
      · have hfirst := h body hbody hlimits ((Text.isPrefix_firstWord not_isWhitespace_modelFlag).mpr hflag)
        have hclean := hbody.trim
        obtain ⟨rest, rfl⟩ := hflag
        obtain ⟨hname, hrest⟩ := selectModels_eq_prompt hselect
        rw [trimStart_of_flag hclean hfirst] at hname hrest
        exact ⟨_, hbody, hfirst, hname, hrest⟩
      · rw [selectModels_plain hflag] at hselect
        cases hselect
        exact absurd rfl hselection
    · intro body hbody hlimits hstart hne
      exact absurd (h body hbody hlimits hstart) hne
    · intro text' body body' prompt prompt' selection selection' hbody hbody' hsame hparse hparse'
      obtain ⟨found, hfound, -, hselect⟩ := body_of_prompt hparse
      obtain ⟨found', hfound', -, hselect'⟩ := body_of_prompt hparse'
      cases hbody.unique hfound
      cases hbody'.unique hfound'
      exact selection_of_sameLeading hbody.trim hbody'.trim hsame hselect hselect'

/-- A first token that merely begins with the flag routes the prompt to one model. -/
theorem not_followsGrammar :
    parseCommand "!ask-both --modelclaude explain raft".toList "!ask-both".toList =
      .prompt "explain raft".toList .claude ∧
    ¬ FollowsGrammar "!ask-both".toList "!ask-both --modelclaude explain raft".toList := by
  have hparse : parseCommand "!ask-both --modelclaude explain raft".toList "!ask-both".toList =
      .prompt "explain raft".toList .claude := by decide +kernel
  refine ⟨hparse, ?_⟩
  intro h
  obtain ⟨body, hbody, hflag, -⟩ := h.selected _ _ hparse (by decide)
  have hwhole : CommandBody "!ask-both".toList "!ask-both --modelclaude explain raft".toList
      "--modelclaude explain raft".toList := commandBody_iff.mpr
    ⟨' ', "--modelclaude explain raft".toList, by decide +kernel, by decide, by decide +kernel, by decide⟩
  rw [hbody.unique hwhole] at hflag
  exact absurd hflag (by decide)

end Grammar
end AgentBridge.Slack
