import AgentBridge.Base.Boundary
import AgentBridge.Base.Components
import AgentBridge.Base.Fitting
import AgentBridge.Slack.Commands

/-! The messages of a channel that a prompt is given as context. Both services take the newest messages of people
from a page of history, newest first, and bound what they take in bytes. -/

namespace AgentBridge.Slack

namespace Bridge

def maxContextBlockBytes : Nat := 12000
def maxSingleContextMessageBytes : Nat := 1500

def truncationSuffix : Text := "\n… [truncated]".toList

def truncateUtf8 (value : Text) (maximumBytes : Nat) : Text :=
  if Text.byteLen value ≤ maximumBytes then value
  else if maximumBytes ≤ Text.byteLen truncationSuffix then
    (Text.sliceTo value (Text.floorBoundary value (min maximumBytes (Text.byteLen value)))).getD []
  else
    let contentLimit := maximumBytes - Text.byteLen truncationSuffix
    (Text.sliceTo value (Text.floorBoundary value (min contentLimit (Text.byteLen value)))).getD [] ++ truncationSuffix

/-- A message of a page; what the page leaves out is empty. -/
structure HistoryMessage where
  text : Text
  user : Text
  botId : Text
  ts : Text
  subtype : Text

def contextHeading (message : HistoryMessage) : Text :=
  "[".toList ++ message.ts ++ "] <@".toList ++ message.user ++ ">: ".toList

def contextBody (message : HistoryMessage) : Text :=
  truncateUtf8 (Text.trim message.text) maxSingleContextMessageBytes

/-- The loop of `render_context`. -/
def selectContext (depth : Nat) (botUserId : Option Text) : (selected : List Text) → List HistoryMessage → List Text
  | selected, [] => selected
  | selected, message :: messages =>
    if selected.length = depth then selected
    else if message.subtype ≠ [] ∨ Text.trim message.text = [] then selectContext depth botUserId selected messages
    else if message.botId ≠ [] then selectContext depth botUserId selected messages
    else if botUserId = some message.user then selectContext depth botUserId selected messages
    else if message.user = [] then selectContext depth botUserId selected messages
    else selectContext depth botUserId (selected ++ [contextHeading message ++ contextBody message]) messages

def renderContext (messages : List HistoryMessage) (depth : Nat) (botUserId : Option Text) : Option Text :=
  if depth = 0 then none
  else
    let selected := selectContext depth botUserId [] messages
    if selected = [] then none
    else some (truncateUtf8 (Components.join '\n' selected.reverse) maxContextBlockBytes)

end Bridge

def maxContextMessageBytes : Nat := 4000
def maxContextTotalBytes : Nat := 32000

structure HistoryMessage where
  user : Option Text
  text : Text
  ts : Text
  botId : Option Text
  subtype : Option Text

structure HistoryResponse where
  ok : Bool
  messages : List HistoryMessage

structure ContextMessage where
  userId : Option Text
  ts : Text
  text : Text

def truncate (value : Text) (maximumBytes : Nat) : Text :=
  if Text.byteLen value ≤ maximumBytes then value
  else (Text.sliceTo value (Text.floorBoundary value (min maximumBytes (Text.byteLen value)))).getD []

namespace CommandApp

def takeContext (count : Nat) : (total : Nat) → (messages : List ContextMessage) → List HistoryMessage →
    List ContextMessage
  | _, messages, [] => messages
  | total, messages, message :: rest =>
    if message.botId.isSome ∨ message.subtype.isSome ∨ Text.trim message.text = [] then
      takeContext count total messages rest
    else
      let text := truncate (Text.trim message.text) maxContextMessageBytes
      if total + Text.byteLen text > maxContextTotalBytes then messages
      else
        let messages := messages ++ [⟨message.user, message.ts, text⟩]
        if messages.length = count then messages
        else takeContext count (total + Text.byteLen text) messages rest

/-- `response` is what Slack answered, if it did and the answer could be read. -/
def context (count : Nat) (response : Option HistoryResponse) : Except Error (List ContextMessage) :=
  if count = 0 then .ok []
  else match response with
    | none => .error .slack
    | some response => if !response.ok then .error .slack else .ok (takeContext count 0 [] response.messages).reverse

end CommandApp

/-! ### What is kept -/

/-- The bodies of messages, oldest first, each with the part of it that is shown: one that is cut or missing has
only missing ones before it. -/
def KeepsLatest (spans : List (Text × Text)) : Prop :=
  spans.Pairwise fun older newer => newer.2 ≠ newer.1 → older.2 = []

namespace Bridge

/-- Headings and bodies as the lines of a transcript. -/
def transcript (lines : List (Text × Text)) : Text :=
  Components.join '\n' (lines.map fun line => line.1 ++ line.2)

/-- The bodies of the lines with the parts that lie in the first `shown` characters of the transcript. -/
def spans : (shown : Nat) → List (Text × Text) → List (Text × Text)
  | _, [] => []
  | shown, line :: lines =>
    (line.2, line.2.take (shown - line.1.length)) :: spans (shown - (line.1.length + line.2.length + 1)) lines

/-- A message of a person other than the bot. -/
def HistoryMessage.Human (botUserId : Option Text) (message : HistoryMessage) : Prop :=
  message.subtype = [] ∧ message.botId = [] ∧ message.user ≠ [] ∧ botUserId ≠ some message.user

instance (botUserId : Option Text) (message : HistoryMessage) : Decidable (message.Human botUserId) :=
  inferInstanceAs (Decidable (_ ∧ _))

/-- A message of a person that says something. -/
def eligible (botUserId : Option Text) (message : HistoryMessage) : Bool :=
  decide (message.Human botUserId ∧ Text.trim message.text ≠ [])

def newestHumans (messages : List HistoryMessage) (depth : Nat) (botUserId : Option Text) : List HistoryMessage :=
  ((messages.filter (eligible botUserId)).take depth).reverse

def contextLines (messages : List HistoryMessage) (depth : Nat) (botUserId : Option Text) : List (Text × Text) :=
  (newestHumans messages depth botUserId).map fun message => (contextHeading message, contextBody message)

/-- The block shows only messages of people, at most `depth` of them and in the order of time, keeps to the limit,
and shows the latest ones. -/
structure ContextLaw (messages : List HistoryMessage) (depth : Nat) (botUserId : Option Text) : Prop where
  human : ∀ message ∈ newestHumans messages depth botUserId, message.Human botUserId
  atMost : (newestHumans messages depth botUserId).length ≤ depth
  chronological : (newestHumans messages depth botUserId).reverse.Sublist messages
  bounded : ∀ block ∈ renderContext messages depth botUserId, Text.byteLen block ≤ maxContextBlockBytes
  latest : ∀ block ∈ renderContext messages depth botUserId, ∃ shown mark, block = shown ++ mark ∧
    (mark = [] ∨ mark = truncationSuffix) ∧ shown <+: transcript (contextLines messages depth botUserId) ∧
    KeepsLatest (spans shown.length (contextLines messages depth botUserId))

/-- The whole transcript fits, or no newer message follows the oldest one, or nothing of the oldest one is within
what is kept. -/
def BlockFits (messages : List HistoryMessage) (depth : Nat) (botUserId : Option Text) : Prop :=
  Text.byteLen (transcript (contextLines messages depth botUserId)) ≤ maxContextBlockBytes ∨
  (contextLines messages depth botUserId).length ≤ 1 ∨
  ∃ line ∈ (contextLines messages depth botUserId).head?,
    maxContextBlockBytes - Text.byteLen truncationSuffix < Text.byteLen (line.1 ++ line.2.take 1)

end Bridge

namespace Bridge

section Truncation
variable {value : Text} {maximumBytes : Nat}

theorem truncateUtf8_of_le (h : Text.byteLen value ≤ maximumBytes) : truncateUtf8 value maximumBytes = value :=
  if_pos h

/-- A text that is too long is cut so that the suffix fits behind it. -/
theorem truncateUtf8_of_lt (h : maximumBytes < Text.byteLen value)
    (hsuffix : Text.byteLen truncationSuffix < maximumBytes) : truncateUtf8 value maximumBytes =
      Text.truncateBytes (maximumBytes - Text.byteLen truncationSuffix) value ++ truncationSuffix := by
  have hmin : min (maximumBytes - Text.byteLen truncationSuffix) (Text.byteLen value) =
      maximumBytes - Text.byteLen truncationSuffix := Nat.min_eq_left (by omega)
  rw [truncateUtf8, if_neg (Nat.not_le.mpr h), if_neg (Nat.not_le.mpr hsuffix)]
  dsimp only
  rw [hmin, Text.sliceTo_floorBoundary]
  rfl

theorem byteLen_truncateUtf8 (hsuffix : Text.byteLen truncationSuffix < maximumBytes) :
    Text.byteLen (truncateUtf8 value maximumBytes) ≤ maximumBytes := by
  by_cases h : Text.byteLen value ≤ maximumBytes
  · rwa [truncateUtf8_of_le h]
  · have hkept := Text.byteLen_truncateBytes (maximumBytes - Text.byteLen truncationSuffix) value
    rw [truncateUtf8_of_lt (Nat.not_le.mp h) hsuffix, Text.byteLen_append]
    omega

theorem truncateUtf8_ne_nil (h : value ≠ []) (hsuffix : Text.byteLen truncationSuffix < maximumBytes) :
    truncateUtf8 value maximumBytes ≠ [] := by
  by_cases hfits : Text.byteLen value ≤ maximumBytes
  · rwa [truncateUtf8_of_le hfits]
  · rw [truncateUtf8_of_lt (Nat.not_le.mp hfits) hsuffix]
    exact List.append_ne_nil_of_right_ne_nil _ (by decide)

end Truncation

section Spans
variable {shown : Nat} {lines : List (Text × Text)} {line : Text × Text}

theorem length_transcript_singleton (line : Text × Text) :
    (transcript [line]).length = line.1.length + line.2.length := by
  simp [transcript, Components.join]

theorem length_transcript_cons (line next : Text × Text) (lines : List (Text × Text)) :
    (transcript (line :: next :: lines)).length =
      line.1.length + line.2.length + 1 + (transcript (next :: lines)).length := by
  rw [transcript, List.map_cons, List.map_cons, Components.join_cons_cons, List.length_append, List.length_append,
    List.length_cons]
  change line.1.length + line.2.length + ((transcript (next :: lines)).length + 1) = _
  omega

theorem length_transcript_pos (hne : lines ≠ []) (hbodies : ∀ line ∈ lines, line.2 ≠ []) :
    0 < (transcript lines).length := by
  obtain ⟨line, lines, rfl⟩ := List.exists_cons_of_ne_nil hne
  have hbody := List.length_pos_iff.mpr (hbodies line List.mem_cons_self)
  cases lines with
  | nil =>
    rw [length_transcript_singleton]
    omega
  | cons next lines =>
    rw [length_transcript_cons]
    omega

theorem spans_whole (h : (transcript lines).length ≤ shown) : ∀ span ∈ spans shown lines, span.2 = span.1 := by
  induction lines generalizing shown with
  | nil => exact List.forall_mem_nil _
  | cons line lines ih =>
    cases lines with
    | nil =>
      rw [length_transcript_singleton] at h
      exact List.forall_mem_singleton.mpr (List.take_of_length_le (by omega))
    | cons next lines =>
      rw [length_transcript_cons] at h
      exact List.forall_mem_cons.mpr ⟨List.take_of_length_le (by omega), ih (by omega)⟩

theorem spans_cut (hne : lines ≠ []) (hbodies : ∀ line ∈ lines, line.2 ≠ []) (h : shown < (transcript lines).length) :
    ∃ span ∈ spans shown lines, span.2 ≠ span.1 := by
  -- a cut that falls short of the end cuts the last line
  induction lines generalizing shown with
  | nil => exact absurd rfl hne
  | cons line lines ih =>
    obtain ⟨hbody, hrest⟩ := List.forall_mem_cons.mp hbodies
    cases lines with
    | nil =>
      rw [length_transcript_singleton] at h
      refine ⟨_, List.mem_cons_self, ?_⟩
      intro heq
      dsimp only at heq
      have hlength := congrArg List.length heq
      have hpos := List.length_pos_iff.mpr hbody
      rw [List.length_take] at hlength
      omega
    | cons next lines =>
      rw [length_transcript_cons] at h
      have hlater := length_transcript_pos (List.cons_ne_nil next lines) hrest
      obtain ⟨span, hspan, hcut⟩ := ih (List.cons_ne_nil _ _) hrest
        (show shown - (line.1.length + line.2.length + 1) < _ by omega)
      exact ⟨span, List.mem_cons_of_mem _ hspan, hcut⟩

theorem spans_zero : ∀ span ∈ spans 0 lines, span.2 = [] := by
  induction lines with
  | nil => exact List.forall_mem_nil _
  | cons line lines ih =>
    rw [spans, Nat.zero_sub, Nat.zero_sub]
    exact List.forall_mem_cons.mpr ⟨rfl, ih⟩

/-- A beginning of the transcript shows the latest messages only where it is all of it, or shows none of them, or
there is one message at most. -/
theorem keepsLatest_iff (hbodies : ∀ line ∈ lines, line.2 ≠ []) : KeepsLatest (spans shown lines) ↔
    (transcript lines).length ≤ shown ∨ lines.length ≤ 1 ∨ ∃ line ∈ lines.head?, shown ≤ line.1.length := by
  cases lines with
  | nil => exact iff_of_true List.Pairwise.nil (.inr (.inl (Nat.zero_le 1)))
  | cons line lines =>
    obtain ⟨hbody, hrest⟩ := List.forall_mem_cons.mp hbodies
    have hpairs : KeepsLatest (spans shown (line :: lines)) ↔
        (∀ newer ∈ spans (shown - (line.1.length + line.2.length + 1)) lines, newer.2 ≠ newer.1 →
          line.2.take (shown - line.1.length) = []) ∧
        KeepsLatest (spans (shown - (line.1.length + line.2.length + 1)) lines) := List.pairwise_cons
    constructor
    · intro h
      obtain ⟨hfirst, -⟩ := hpairs.mp h
      by_cases hall : (transcript (line :: lines)).length ≤ shown
      · exact .inl hall
      · refine .inr (or_iff_not_imp_left.mpr fun hmany => ⟨line, rfl, ?_⟩)
        obtain ⟨next, later, rfl⟩ : ∃ next later, lines = next :: later := by
          refine List.exists_cons_of_ne_nil ?_
          rintro rfl
          exact hmany (Nat.le_refl 1)
        rw [length_transcript_cons] at hall
        have hlater := length_transcript_pos (List.cons_ne_nil next later) hrest
        obtain ⟨newer, hnewer, hcut⟩ := spans_cut (List.cons_ne_nil next later) hrest
          (show shown - (line.1.length + line.2.length + 1) < _ by omega)
        -- a newer line is cut off, so nothing of the oldest one may be left: the cut is in its heading
        have hmissing := hfirst newer hnewer hcut
        rw [List.take_eq_nil_iff, or_iff_left hbody] at hmissing
        omega
    · rintro (hall | hfew | ⟨_, ⟨⟩, hshown⟩)
      · have hwhole := spans_whole hall
        exact List.pairwise_of_forall_mem_list fun older _ newer hnewer hcut => absurd (hwhole newer hnewer) hcut
      · have hnil : lines = [] := List.length_eq_zero_iff.mp (Nat.le_zero.mp (Nat.le_of_succ_le_succ hfew))
        subst hnil
        exact List.pairwise_singleton _ _
      · have hmissing : ∀ span ∈ spans shown (line :: lines), span.2 = [] := by
          rw [spans, Nat.sub_eq_zero_of_le hshown,
            Nat.sub_eq_zero_of_le (show shown ≤ line.1.length + line.2.length + 1 by omega)]
          exact List.forall_mem_cons.mpr ⟨rfl, spans_zero⟩
        exact List.pairwise_of_forall_mem_list fun older holder _ _ _ => hmissing older holder

end Spans

section Rendering
variable {messages : List HistoryMessage} {depth : Nat} {botUserId : Option Text} {selected : List Text}
  {message : HistoryMessage}

theorem selectContext_skip (h : eligible botUserId message = false) :
    selectContext depth botUserId selected (message :: messages) =
      if selected.length = depth then selected else selectContext depth botUserId selected messages := by
  rw [eligible, decide_eq_false_iff_not, HistoryMessage.Human] at h
  rw [selectContext]
  split_ifs with _ hblank hbot hself huser
  · rfl
  · rfl
  · rfl
  · rfl
  · rfl
  · rw [not_or, not_not] at hblank
    exact absurd ⟨⟨hblank.1, not_not.mp hbot, huser, hself⟩, hblank.2⟩ h

theorem selectContext_take (h : eligible botUserId message = true) :
    selectContext depth botUserId selected (message :: messages) =
      if selected.length = depth then selected
      else selectContext depth botUserId (selected ++ [contextHeading message ++ contextBody message]) messages := by
  rw [eligible, decide_eq_true_eq] at h
  obtain ⟨⟨hsubtype, hbot, huser, hself⟩, htext⟩ := h
  rw [selectContext, if_neg (not_or.mpr ⟨not_not.mpr hsubtype, htext⟩), if_neg (not_not.mpr hbot), if_neg hself,
    if_neg huser]

theorem selectContext_eq (messages : List HistoryMessage) (h : selected.length ≤ depth) :
    selectContext depth botUserId selected messages = selected ++
      ((messages.filter (eligible botUserId)).take (depth - selected.length)).map
        fun message => contextHeading message ++ contextBody message := by
  -- what is selected so far, and the places that are left
  induction messages generalizing selected with
  | nil => rw [selectContext, List.filter_nil, List.take_nil, List.map_nil, List.append_nil]
  | cons message messages ih =>
    by_cases hfull : selected.length = depth
    · have hnone : depth - selected.length = 0 := by omega
      rw [selectContext, if_pos hfull, hnone, List.take_zero, List.map_nil, List.append_nil]
    · cases heligible : eligible botUserId message with
      | false =>
        rw [selectContext_skip heligible, if_neg hfull, ih h, List.filter_cons_of_neg (by simp [heligible])]
      | true =>
        have hroom : depth - selected.length = depth - (selected.length + 1) + 1 := by omega
        rw [selectContext_take heligible, if_neg hfull, ih (by rw [List.length_append, List.length_singleton]; omega),
          List.filter_cons_of_pos heligible, hroom, List.take_succ_cons, List.map_cons, List.length_append,
          List.length_singleton, List.append_assoc, List.singleton_append]

theorem renderContext_eq (messages : List HistoryMessage) (depth : Nat) (botUserId : Option Text) :
    renderContext messages depth botUserId =
      if contextLines messages depth botUserId = [] then none
      else some (truncateUtf8 (transcript (contextLines messages depth botUserId)) maxContextBlockBytes) := by
  have hselected : (selectContext depth botUserId [] messages).reverse =
      (contextLines messages depth botUserId).map fun line => line.1 ++ line.2 := by
    rw [selectContext_eq messages (Nat.zero_le depth), List.nil_append, List.length_nil, Nat.sub_zero, contextLines,
      newestHumans, List.map_map, ← List.map_reverse]
    rfl
  have hempty : selectContext depth botUserId [] messages = [] ↔ contextLines messages depth botUserId = [] := by
    rw [← List.reverse_eq_nil_iff, hselected, List.map_eq_nil_iff]
  unfold renderContext
  by_cases hdepth : depth = 0
  · have hnone : contextLines messages depth botUserId = [] := by
      rw [contextLines, newestHumans, hdepth, List.take_zero]
      rfl
    rw [if_pos hdepth, if_pos hnone]
  · rw [if_neg hdepth]
    dsimp only
    rw [hselected]
    simp only [hempty]
    rfl

theorem contextBody_ne_nil (h : Text.trim message.text ≠ []) : contextBody message ≠ [] :=
  truncateUtf8_ne_nil h (by decide)

theorem eligible_of_newestHumans (h : message ∈ newestHumans messages depth botUserId) :
    eligible botUserId message = true :=
  (List.mem_filter.mp (List.mem_of_mem_take (List.mem_reverse.mp h))).2

theorem bodies_contextLines : ∀ line ∈ contextLines messages depth botUserId, line.2 ≠ [] := by
  intro line hline
  obtain ⟨message, hmessage, rfl⟩ := List.mem_map.mp hline
  exact contextBody_ne_nil (of_decide_eq_true (eligible_of_newestHumans hmessage)).2

theorem length_truncateBytes_le_iff {line : Text × Text} {rest : Text} {room : Nat} (hbody : line.2 ≠ []) :
    (Text.truncateBytes room (line.1 ++ line.2 ++ rest)).length ≤ line.1.length ↔
      room < Text.byteLen (line.1 ++ line.2.take 1) := by
  obtain ⟨c, body, hsplit⟩ := List.exists_cons_of_ne_nil hbody
  have hprefix : line.1 ++ line.2.take 1 <+: line.1 ++ line.2 ++ rest := by
    rw [hsplit, List.append_assoc]
    exact (List.prefix_append_right_inj _).mpr ⟨body ++ rest, rfl⟩
  have hlength : (line.1 ++ line.2.take 1).length = line.1.length + 1 := by
    rw [hsplit, List.length_append]
    rfl
  constructor
  · intro h
    by_contra hfits
    have hkept := (Text.prefix_truncateBytes hprefix (Nat.not_lt.mp hfits)).length_le
    omega
  · intro h
    by_contra hlong
    have hinside := List.prefix_of_prefix_length_le hprefix (Text.truncateBytes_isPrefix room _)
      (show (line.1 ++ line.2.take 1).length ≤ _ by omega)
    have hbytes := Text.byteLen_le_of_isPrefix hinside
    have hroom := Text.byteLen_truncateBytes room (line.1 ++ line.2 ++ rest)
    omega

theorem transcript_cons (line : Text × Text) (lines : List (Text × Text)) :
    ∃ rest, transcript (line :: lines) = line.1 ++ line.2 ++ rest := by
  cases lines with
  | nil => exact ⟨[], by simp [transcript, Components.join]⟩
  | cons next lines =>
    refine ⟨'\n' :: transcript (next :: lines), ?_⟩
    rw [transcript, List.map_cons, List.map_cons, Components.join_cons_cons]
    rfl

/-- What a cut block keeps is a beginning of the transcript that ends with the latest messages only if there is one
line, or none of the oldest body is kept. -/
theorem keepsLatest_cut {lines : List (Text × Text)} (hbodies : ∀ line ∈ lines, line.2 ≠ []) {room : Nat}
    (h : room < Text.byteLen (transcript lines)) :
    KeepsLatest (spans (Text.truncateBytes room (transcript lines)).length lines) ↔
      lines.length ≤ 1 ∨ ∃ line ∈ lines.head?, room < Text.byteLen (line.1 ++ line.2.take 1) := by
  have hkept : ¬ (transcript lines).length ≤ (Text.truncateBytes room (transcript lines)).length := by
    intro hlength
    have hwhole := (Text.truncateBytes_isPrefix room (transcript lines)).eq_of_length_le hlength
    have hroom := Text.byteLen_truncateBytes room (transcript lines)
    rw [hwhole] at hroom
    omega
  rw [keepsLatest_iff hbodies, or_iff_right hkept]
  refine or_congr_right ?_
  cases lines with
  | nil => simp
  | cons line lines =>
    obtain ⟨rest, hrest⟩ := transcript_cons line lines
    simp only [List.head?_cons, Option.mem_def, Option.some.injEq, exists_eq_left']
    rw [hrest, length_truncateBytes_le_iff (hbodies line List.mem_cons_self)]

theorem showsLatest_iff {lines : List (Text × Text)} (hbodies : ∀ line ∈ lines, line.2 ≠ []) :
    (∃ shown mark, truncateUtf8 (transcript lines) maxContextBlockBytes = shown ++ mark ∧
      (mark = [] ∨ mark = truncationSuffix) ∧ shown <+: transcript lines ∧ KeepsLatest (spans shown.length lines)) ↔
    Text.byteLen (transcript lines) ≤ maxContextBlockBytes ∨ lines.length ≤ 1 ∨ ∃ line ∈ lines.head?,
      maxContextBlockBytes - Text.byteLen truncationSuffix < Text.byteLen (line.1 ++ line.2.take 1) := by
  have hsuffix : Text.byteLen truncationSuffix < maxContextBlockBytes := by decide
  by_cases hfits : Text.byteLen (transcript lines) ≤ maxContextBlockBytes
  · refine iff_of_true ⟨transcript lines, [], ?_, .inl rfl, List.prefix_refl _, ?_⟩ (.inl hfits)
    · rw [truncateUtf8_of_le hfits, List.append_nil]
    · exact (keepsLatest_iff hbodies).mpr (.inl (Nat.le_refl _))
  · rw [or_iff_right hfits, truncateUtf8_of_lt (Nat.not_le.mp hfits) hsuffix, ← keepsLatest_cut hbodies (by omega)]
    constructor
    · rintro ⟨shown, mark, heq, hmark, hstart, hlatest⟩
      -- what is shown is at least what was kept, and less than the transcript
      have hlonger : (Text.truncateBytes (maxContextBlockBytes - Text.byteLen truncationSuffix)
        (transcript lines)).length ≤
          shown.length := by
        have hlength := congrArg List.length heq
        rw [List.length_append, List.length_append] at hlength
        rcases hmark with rfl | rfl
        · rw [List.length_nil] at hlength
          omega
        · omega
      have hpart : ¬ (transcript lines).length ≤ shown.length := by
        intro hall
        have hbytes := congrArg Text.byteLen heq
        have hkept := Text.byteLen_truncateBytes (maxContextBlockBytes - Text.byteLen truncationSuffix)
          (transcript lines)
        rw [hstart.eq_of_length_le hall, Text.byteLen_append, Text.byteLen_append] at hbytes
        omega
      rcases (keepsLatest_iff hbodies).mp hlatest with hall | hfew | ⟨line, hline, hheading⟩
      · exact absurd hall hpart
      · exact (keepsLatest_iff hbodies).mpr (.inr (.inl hfew))
      · exact (keepsLatest_iff hbodies).mpr (.inr (.inr ⟨line, hline, hlonger.trans hheading⟩))
    · intro h
      exact ⟨_, truncationSuffix, rfl, .inr rfl, Text.truncateBytes_isPrefix _ _, h⟩

theorem contextLaw_iff (messages : List HistoryMessage) (depth : Nat) (botUserId : Option Text) :
    ContextLaw messages depth botUserId ↔ BlockFits messages depth botUserId := by
  have hshows := showsLatest_iff (@bodies_contextLines messages depth botUserId)
  have hblock := renderContext_eq messages depth botUserId
  constructor
  · intro h
    by_cases hnone : contextLines messages depth botUserId = []
    · rw [BlockFits, hnone]
      exact .inl (Nat.zero_le _)
    · rw [if_neg hnone] at hblock
      exact hshows.mp (h.latest _ hblock)
  · intro h
    have hbounded : ∀ block ∈ renderContext messages depth botUserId,
        block = truncateUtf8 (transcript (contextLines messages depth botUserId)) maxContextBlockBytes := by
      intro block hmem
      rw [hblock, Option.mem_def] at hmem
      split_ifs at hmem
      exact (Option.some.inj hmem).symm
    refine ⟨?_, ?_, ?_, ?_, ?_⟩
    · intro message hmessage
      exact (of_decide_eq_true (eligible_of_newestHumans hmessage)).1
    · rw [newestHumans, List.length_reverse]
      exact List.length_take_le _ _
    · rw [newestHumans, List.reverse_reverse]
      exact (List.take_sublist _ _).trans List.filter_sublist
    · intro block hmem
      rw [hbounded block hmem]
      exact byteLen_truncateUtf8 (by decide)
    · intro block hmem
      rw [hbounded block hmem]
      exact hshows.mpr h

end Rendering

end Bridge

/-! ### The service of slash commands -/

/-- A message of a person other than the bot. -/
def HistoryMessage.Human (bot : Text) (message : HistoryMessage) : Prop :=
  message.subtype = none ∧ message.botId = none ∧ message.user ≠ none ∧ message.user ≠ some bot

instance (bot : Text) (message : HistoryMessage) : Decidable (message.Human bot) :=
  inferInstanceAs (Decidable (_ ∧ _))

namespace CommandApp

def contextMessage (message : HistoryMessage) : ContextMessage :=
  ⟨message.user, message.ts, truncate (Text.trim message.text) maxContextMessageBytes⟩

def contextBytes (message : HistoryMessage) : Nat := Text.byteLen (contextMessage message).text

/-- A message that `context` does not pass over. -/
def candidate (message : HistoryMessage) : Bool :=
  decide (message.botId = none ∧ message.subtype = none ∧ Text.trim message.text ≠ [])

/-- The newest messages of people that say something, newest first. -/
def newestHumans (messages : List HistoryMessage) (count : Nat) (bot : Text) : List HistoryMessage :=
  (messages.filter fun message => message.Human bot ∧ Text.trim message.text ≠ []).take count

/-- The texts of messages, oldest first, of which the `kept` newest ones are shown. -/
def keptSpans (kept : Nat) (newest : List HistoryMessage) : List (Text × Text) :=
  ((newest.take kept).map (fun message => ((contextMessage message).text, (contextMessage message).text)) ++
    (newest.drop kept).map fun message => ((contextMessage message).text, [])).reverse

/-- The result has only messages of people, at most `count` of them and in the order of time, keeps to the limit,
and has the latest ones. -/
structure ContextLaw (messages : List HistoryMessage) (count : Nat) (bot : Text) (result : List ContextMessage) :
    Prop where
  human : ∀ message ∈ newestHumans messages count bot, message.Human bot
  atMost : result.length ≤ count
  chronological : (newestHumans messages count bot).Sublist messages
  bounded : List.totalSize (fun message => Text.byteLen message.text) result ≤ maxContextTotalBytes
  latest : ∃ kept, result = ((newestHumans messages count bot).take kept).reverse.map contextMessage ∧
    KeepsLatest (keptSpans kept (newestHumans messages count bot))

/-- Among the newest messages without a bot id and a subtype, those that fit are of people other than the bot. -/
def PeoplePage (messages : List HistoryMessage) (count : Nat) (bot : Text) : Prop :=
  ∀ k ≤ count, List.totalSize contextBytes ((messages.filter candidate).take k) ≤ maxContextTotalBytes →
    ∀ message ∈ (messages.filter candidate).take k, message.Human bot

section Taking
variable {messages : List HistoryMessage} {count total : Nat} {bot : Text} {taken : List ContextMessage}
  {message : HistoryMessage}

theorem keepsLatest_keptSpans (kept : Nat) (newest : List HistoryMessage) : KeepsLatest (keptSpans kept newest) := by
  rw [KeepsLatest, keptSpans, List.pairwise_reverse, List.pairwise_append]
  refine ⟨?_, ?_, ?_⟩
  · refine List.pairwise_of_forall_mem_list fun newer hnewer _ _ hcut => ?_
    obtain ⟨message, -, rfl⟩ := List.mem_map.mp hnewer
    exact absurd rfl hcut
  · refine List.pairwise_of_forall_mem_list fun _ _ older holder _ => ?_
    obtain ⟨message, -, rfl⟩ := List.mem_map.mp holder
    rfl
  · intro newer hnewer older _ hcut
    obtain ⟨message, -, rfl⟩ := List.mem_map.mp hnewer
    exact absurd rfl hcut

theorem takeContext_skip (h : candidate message = false) :
    takeContext count total taken (message :: messages) = takeContext count total taken messages := by
  rw [candidate, decide_eq_false_iff_not] at h
  rw [takeContext, if_pos]
  by_contra hpasses
  simp only [not_or, Bool.not_eq_true, Option.isSome_eq_false_iff, Option.isNone_iff_eq_none] at hpasses
  exact h hpasses

theorem takeContext_candidate (h : candidate message = true) : takeContext count total taken (message :: messages) =
    if total + contextBytes message > maxContextTotalBytes then taken
    else if (taken ++ [contextMessage message]).length = count then taken ++ [contextMessage message]
    else takeContext count (total + contextBytes message) (taken ++ [contextMessage message]) messages := by
  rw [candidate, decide_eq_true_eq] at h
  obtain ⟨hbot, hsubtype, htext⟩ := h
  rw [takeContext, if_neg]
  · rfl
  · rw [hbot, hsubtype]
    simpa using htext

theorem takeContext_eq (messages : List HistoryMessage) (hcount : taken.length < count)
    (htotal : total ≤ maxContextTotalBytes) : takeContext count total taken messages = taken ++
      ((List.fitting contextBytes (maxContextTotalBytes - total) (messages.filter candidate)).take
        (count - taken.length)).map contextMessage := by
  -- a message past the byte limit ends the selection
  induction messages generalizing total taken with
  | nil => rw [takeContext, List.filter_nil, List.fitting, List.take_nil, List.map_nil, List.append_nil]
  | cons message messages ih =>
    cases hcandidate : candidate message with
    | false => rw [takeContext_skip hcandidate, ih hcount htotal, List.filter_cons_of_neg (by simp [hcandidate])]
    | true =>
      have hroom : count - taken.length = count - (taken.length + 1) + 1 := by omega
      rw [takeContext_candidate hcandidate, List.filter_cons_of_pos hcandidate, List.fitting, List.length_append,
        List.length_singleton]
      by_cases hfits : contextBytes message ≤ maxContextTotalBytes - total
      · rw [if_neg (by omega), if_pos hfits, hroom, List.take_succ_cons, List.map_cons]
        by_cases hlast : taken.length + 1 = count
        · rw [if_pos hlast, hlast, Nat.sub_self, List.take_zero, List.map_nil]
        · rw [if_neg hlast, ih (by rw [List.length_append, List.length_singleton]; omega) (by omega),
            List.length_append, List.length_singleton, List.append_assoc, List.singleton_append,
            Nat.sub_add_eq maxContextTotalBytes total]
      · rw [if_pos (by omega), if_neg hfits, List.take_nil, List.map_nil, List.append_nil]

def takenCandidates (messages : List HistoryMessage) (count : Nat) : List HistoryMessage :=
  (List.fitting contextBytes maxContextTotalBytes (messages.filter candidate)).take count

theorem context_page (messages : List HistoryMessage) (count : Nat) :
    context count (some ⟨true, messages⟩) = .ok ((takenCandidates messages count).reverse.map contextMessage) := by
  rw [context, takenCandidates]
  by_cases hcount : count = 0
  · rw [if_pos hcount, hcount]
    rfl
  · rw [if_neg hcount, List.map_reverse]
    dsimp only
    rw [takeContext_eq messages (Nat.pos_of_ne_zero hcount) (Nat.zero_le _)]
    rfl

theorem prefix_takenCandidates {p : List HistoryMessage} : p <+: takenCandidates messages count ↔
    p <+: messages.filter candidate ∧ p.length ≤ count ∧ List.totalSize contextBytes p ≤ maxContextTotalBytes := by
  have hfitting := List.fitting_isPrefix contextBytes maxContextTotalBytes (messages.filter candidate)
  constructor
  · intro h
    have hfits := h.trans (List.take_prefix count _)
    refine ⟨hfits.trans hfitting, h.length_le.trans (List.length_take_le _ _), ?_⟩
    have htotal := List.totalSize_fitting contextBytes maxContextTotalBytes (messages.filter candidate)
    obtain ⟨rest, hrest⟩ := hfits
    rw [← hrest, List.totalSize, List.map_append, List.sum_append] at htotal
    exact (Nat.le_add_right _ _).trans htotal
  · rintro ⟨hstart, hlength, htotal⟩
    exact List.prefix_take_iff.mpr ⟨List.prefix_fitting hstart htotal, hlength⟩

theorem peoplePage_iff : PeoplePage messages count bot ↔
    ∀ message ∈ takenCandidates messages count, message.Human bot := by
  constructor
  · intro h message hmessage
    obtain ⟨hstart, hlength, htotal⟩ := prefix_takenCandidates.mp (List.prefix_refl (takenCandidates messages count))
    have htake := List.prefix_iff_eq_take.mp hstart
    refine h _ hlength ?_ message ?_
    · rwa [← htake]
    · rwa [← htake]
  · intro h k hk htotal message hmessage
    have hstart := prefix_takenCandidates.mpr
      ⟨List.take_prefix k (messages.filter candidate), (List.length_take_le _ _).trans hk, htotal⟩
    exact h message (hstart.subset hmessage)

theorem takenCandidates_eq (h : ∀ message ∈ takenCandidates messages count, message.Human bot) :
    takenCandidates messages count =
      (newestHumans messages count bot).take (takenCandidates messages count).length := by
  obtain ⟨⟨rest, hrest⟩, hlength, -⟩ :=
    prefix_takenCandidates.mp (List.prefix_refl (takenCandidates messages count))
  have hfilter : messages.filter (fun message => message.Human bot ∧ Text.trim message.text ≠ []) =
      (messages.filter candidate).filter fun message => decide (message.Human bot) := by
    rw [List.filter_filter]
    refine List.filter_congr fun message _ => ?_
    rw [candidate, ← Bool.decide_and]
    refine decide_eq_decide.mpr ⟨?_, ?_⟩
    · rintro ⟨hhuman, htext⟩
      exact ⟨hhuman, hhuman.2.1, hhuman.1, htext⟩
    · rintro ⟨hhuman, -, -, htext⟩
      exact ⟨hhuman, htext⟩
  have hall : (takenCandidates messages count).filter (fun message => decide (message.Human bot)) =
      takenCandidates messages count := List.filter_eq_self.mpr fun message hmessage =>
        decide_eq_true (h message hmessage)
  rw [newestHumans, hfilter, ← hrest, List.filter_append, hall, List.take_take, Nat.min_eq_left hlength,
    List.take_left]

theorem totalSize_contextMessages (taken : List HistoryMessage) :
    List.totalSize (fun message => Text.byteLen message.text) (taken.reverse.map contextMessage) =
      List.totalSize contextBytes taken := by
  rw [List.totalSize, List.map_map, List.map_reverse, List.sum_reverse]
  rfl

theorem contextLaw_iff (messages : List HistoryMessage) (count : Nat) (bot : Text) :
    (∃ result, context count (some ⟨true, messages⟩) = .ok result ∧ ContextLaw messages count bot result) ↔
      PeoplePage messages count bot := by
  obtain ⟨-, hlength, htotal⟩ := prefix_takenCandidates.mp (List.prefix_refl (takenCandidates messages count))
  rw [context_page, peoplePage_iff]
  constructor
  · rintro ⟨_, ⟨⟩, hlaw⟩ message hmessage
    obtain ⟨kept, heq, -⟩ := hlaw.latest
    have hshown : contextMessage message ∈ (takenCandidates messages count).reverse.map contextMessage :=
      List.mem_map_of_mem (List.mem_reverse.mpr hmessage)
    rw [heq] at hshown
    obtain ⟨source, hsource, hsame⟩ := List.mem_map.mp hshown
    have hhuman := hlaw.human source (List.mem_of_mem_take (List.mem_reverse.mp hsource))
    have huser : source.user = message.user := congrArg ContextMessage.userId hsame
    have hcandidate := (List.mem_filter.mp
      ((List.fitting_isPrefix _ _ _).subset (List.mem_of_mem_take hmessage))).2
    obtain ⟨hbot, hsubtype, -⟩ := of_decide_eq_true hcandidate
    exact ⟨hsubtype, hbot, huser ▸ hhuman.2.2.1, huser ▸ hhuman.2.2.2⟩
  · intro h
    refine ⟨_, rfl, ?_, ?_, ?_, ?_, (takenCandidates messages count).length, ?_, keepsLatest_keptSpans _ _⟩
    · intro message hmessage
      exact (of_decide_eq_true (List.mem_filter.mp (List.mem_of_mem_take hmessage)).2).1
    · rw [List.length_map, List.length_reverse]
      exact hlength
    · exact (List.take_sublist _ _).trans List.filter_sublist
    · rwa [totalSize_contextMessages]
    · rw [← takenCandidates_eq h]

end Taking

end CommandApp

/-- The context that either service gives obeys its law exactly in these cases. -/
theorem context_law_iff (messages : List Bridge.HistoryMessage) (depth : Nat) (botUserId : Option Text)
    (page : List HistoryMessage) (count : Nat) (bot : Text) :
    (Bridge.ContextLaw messages depth botUserId ↔ Bridge.BlockFits messages depth botUserId) ∧
    ((∃ result, CommandApp.context count (some ⟨true, page⟩) = .ok result ∧
      CommandApp.ContextLaw page count bot result) ↔ CommandApp.PeoplePage page count bot) :=
  ⟨Bridge.contextLaw_iff messages depth botUserId, CommandApp.contextLaw_iff page count bot⟩

def longPage : List Bridge.HistoryMessage :=
  List.replicate 9 ⟨List.replicate 1500 'a', "U1".toList, [], "1.0".toList, []⟩

/-- The newest of them is cut off while the oldest is shown. -/
theorem not_contextLaw : ¬ ∀ messages depth botUserId, Bridge.ContextLaw messages depth botUserId := by
  intro h
  have hfits := (Bridge.contextLaw_iff longPage 9 none).mp (h longPage 9 none)
  have hlines : Bridge.contextLines longPage 9 none =
      List.replicate 9 ("[1.0] <@U1>: ".toList, List.replicate 1500 'a') := by decide +kernel
  rw [Bridge.BlockFits, hlines] at hfits
  revert hfits
  decide +kernel

end AgentBridge.Slack
