import AgentBridge.Base.Result
import AgentBridge.Base.Run
import AgentBridge.State.Embed
import Mathlib.Data.List.Chain

/-! Canonical slugs: what `slugify` yields, which of the minted slugs it leaves as they
are, and so which channels a client reaches again by the slug it was given. -/

namespace AgentBridge
open State

/-- An alphanumeric character as lower-casing leaves it. -/
def Surroundings.Letter (w : Surroundings) (c : Char) : Prop :=
  w.isAlphanumeric c = true ∧ ∃ text, c ∈ w.toLowercase text

/-- What slugs rely on in the Unicode tables: lower-casing is idempotent on alphanumerics. -/
structure UnicodeTables (w : Surroundings) : Prop where
  dash : w.isAlphanumeric '-' = false
  space : ∀ c, w.isAlphanumeric c = true → Text.isWhitespace c = false
  ascii : ∀ c, c.isDigit = true ∨ c.isLower = true → w.isAlphanumeric c = true ∧ w.toLowercase [c] = [c]
  lower : ∀ text, (∀ c ∈ text, c = '-' ∨ w.Letter c) → w.toLowercase text = text

/-- Letters with single dashes between them and perhaps one at the end. -/
structure Hyphenated (w : Surroundings) (s : Text) : Prop where
  chars : ∀ c ∈ s, c = '-' ∨ w.Letter c
  dashes : s.IsChain fun a b => a ≠ '-' ∨ b ≠ '-'
  start : s.head? ≠ some '-'

/-- Hyphenated text that does not end in a dash. -/
structure Canonical (w : Surroundings) (s : Text) : Prop extends Hyphenated w s where
  stop : s.getLast? ≠ some '-'

section Hyphenated
variable {w : Surroundings} {s t : Text} {c : Char}

theorem UnicodeTables.ne_dash (hw : UnicodeTables w) (h : w.Letter c) : c ≠ '-' := by
  rintro rfl
  rw [Surroundings.Letter, hw.dash] at h
  cases h.1

theorem hyphenated_nil : Hyphenated w [] :=
  ⟨List.forall_mem_nil _, List.isChain_nil, by simp⟩

theorem Hyphenated.of_prefix (h : Hyphenated w s) (ht : t <+: s) : Hyphenated w t := by
  obtain ⟨rest, rfl⟩ := ht
  obtain ⟨hchars, hdashes, hstart⟩ := h
  refine ⟨fun c hc => hchars c (List.mem_append_left _ hc), (List.isChain_append.mp hdashes).1, ?_⟩
  intro hhead
  apply hstart
  rw [List.head?_append, hhead]
  rfl

theorem Hyphenated.snoc (h : Hyphenated w s) (hc : c = '-' ∨ w.Letter c)
    (hdash : c = '-' → s ≠ [] ∧ s.getLast? ≠ some '-') : Hyphenated w (s ++ [c]) := by
  refine ⟨?_, ?_, ?_⟩
  · intro c' hc'
    rcases List.mem_append.mp hc' with hold | hnew
    · exact h.chars c' hold
    · rw [List.mem_singleton.mp hnew]
      exact hc
  · refine List.isChain_append.mpr ⟨h.dashes, List.isChain_singleton c, ?_⟩
    intro a ha b hb
    obtain rfl : c = b := by simpa using hb
    by_cases hcd : c = '-'
    · left
      rintro rfl
      exact (hdash hcd).2 ha
    · exact .inr hcd
  · intro hhead
    cases s with
    | nil =>
      have hcd : c = '-' := by simpa using hhead
      exact (hdash hcd).1 rfl
    | cons a s =>
      exact h.start hhead

theorem Canonical.suffixed (hw : UnicodeTables w) (h : Canonical w s) (hs : s ≠ []) (ht : ∀ c ∈ t, w.Letter c)
    (hne : t ≠ []) : Canonical w (s ++ '-' :: t) := by
  have hdash : Hyphenated w (s ++ ['-']) := h.toHyphenated.snoc (.inl rfl) fun _ => ⟨hs, h.stop⟩
  have hall : Hyphenated w (s ++ ['-'] ++ t) := by
    clear hne
    induction t using List.reverseRecOn with
    | nil => rwa [List.append_nil]
    | append_singleton t c ih =>
      have hc : w.Letter c := ht c (by simp)
      rw [← List.append_assoc]
      refine (ih fun c' hc' => ht c' (List.mem_append_left _ hc')).snoc (.inr hc) ?_
      intro hcd
      exact absurd hcd (hw.ne_dash hc)
  rw [List.append_assoc] at hall
  refine ⟨hall, ?_⟩
  have hlast : (s ++ '-' :: t).getLast? = t.getLast? := by
    rw [List.getLast?_append, List.getLast?_cons]
    cases hl : t.getLast? with
    | none => exact absurd (List.getLast?_eq_none_iff.mp hl) hne
    | some c => rfl
  rw [hlast]
  intro hd
  exact hw.ne_dash (ht '-' (List.mem_of_getLast? hd)) rfl

end Hyphenated

section Slugify
variable {w : Surroundings} {s : Text}

theorem slugChars_hyphenated (hw : UnicodeTables w) {text lowered : Text}
    (hlowered : ∀ c ∈ lowered, c ∈ w.toLowercase text) {lastDash : Bool} {out : Text} (hout : Hyphenated w out.reverse)
    (hlast : lastDash = false → out.reverse.getLast? ≠ some '-') :
    Hyphenated w (slugChars w.isAlphanumeric lastDash out lowered).reverse := by
  -- a dash is written only after a letter, so no two meet
  induction lowered generalizing lastDash out with
  | nil => exact hout
  | cons c cs ih =>
    have hrest : ∀ c ∈ cs, c ∈ w.toLowercase text := fun c hc => hlowered c (List.mem_cons_of_mem _ hc)
    rw [slugChars]
    by_cases halpha : w.isAlphanumeric c = true
    · have hletter : w.Letter c := ⟨halpha, text, hlowered c List.mem_cons_self⟩
      rw [if_pos halpha]
      refine ih hrest ?_ ?_
      · rw [List.reverse_cons]
        exact hout.snoc (.inr hletter) fun hcd => absurd hcd (hw.ne_dash hletter)
      · intro _
        simp [hw.ne_dash hletter]
    · rw [if_neg halpha]
      by_cases hdash : (!lastDash && !out.isEmpty) = true
      · rw [if_pos hdash]
        obtain ⟨hlastDash, hne⟩ := Bool.and_eq_true_iff.mp hdash
        refine ih hrest ?_ ?_
        · rw [List.reverse_cons]
          refine hout.snoc (.inl rfl) fun _ => ⟨?_, hlast (by simpa using hlastDash)⟩
          simpa using hne
        · intro h
          cases h
      · rw [if_neg hdash]
        exact ih hrest hout hlast

/-- What `slugify` does to its output: dashes at the end go, then bytes over the limit. -/
theorem slugify_spec (w : Surroundings) (text : Text) :
    slugify w text <+: (slugChars w.isAlphanumeric false [] (w.toLowercase (Text.trim text))).reverse ∧
      (slugify w text).getLast? ≠ some '-' ∧ Text.byteLen (slugify w text) ≤ 96 := by
  have htrim : ∀ s : Text, Text.trimEndMatches '-' s <+: s ∧ (Text.trimEndMatches '-' s).getLast? ≠ some '-' := by
    intro s
    refine ⟨List.rdropWhile_prefix _ _, ?_⟩
    intro hlast
    have hne : s.rdropWhile (· == '-') ≠ [] := by
      intro hnil
      rw [Text.trimEndMatches, hnil] at hlast
      cases hlast
    have hnot := List.rdropWhile_last_not (· == '-') s hne
    rw [Text.trimEndMatches, List.getLast?_eq_some_getLast hne] at hlast
    exact hnot (by simpa using hlast)
  unfold slugify
  dsimp only
  generalize (slugChars w.isAlphanumeric false [] (w.toLowercase (Text.trim text))).reverse = out
  by_cases hlong : Text.byteLen (Text.trimEndMatches '-' out) > 96
  · rw [if_pos hlong]
    obtain ⟨hpre, hstop⟩ := htrim (Text.truncateBytes 96 (Text.trimEndMatches '-' out))
    refine ⟨hpre.trans ((Text.truncateBytes_isPrefix _ _).trans (htrim out).1), hstop, ?_⟩
    exact (Text.byteLen_le_of_isPrefix hpre).trans (Text.byteLen_truncateBytes _ _)
  · rw [if_neg hlong]
    exact ⟨(htrim out).1, (htrim out).2, Nat.not_lt.mp hlong⟩

theorem slugify_canonical (hw : UnicodeTables w) (text : Text) : Canonical w (slugify w text) := by
  obtain ⟨hpre, hstop, -⟩ := slugify_spec w text
  have hloop : Hyphenated w (slugChars w.isAlphanumeric false [] (w.toLowercase (Text.trim text))).reverse :=
    slugChars_hyphenated hw (fun c hc => hc) hyphenated_nil (by simp)
  exact ⟨hloop.of_prefix hpre, hstop⟩

theorem slugChars_of_hyphenated (hw : UnicodeTables w) {lastDash : Bool} {out : Text}
    (hchars : ∀ c ∈ s, c = '-' ∨ w.Letter c) (hdashes : s.IsChain fun a b => a ≠ '-' ∨ b ≠ '-')
    (hfirst : lastDash = true ∨ out = [] → s.head? ≠ some '-') :
    slugChars w.isAlphanumeric lastDash out s = s.reverse ++ out := by
  -- a text of letters and single dashes is copied as it is
  induction s generalizing lastDash out with
  | nil => rfl
  | cons c cs ih =>
    have hrest : ∀ c ∈ cs, c = '-' ∨ w.Letter c := fun c hc => hchars c (List.mem_cons_of_mem _ hc)
    have htail : cs.IsChain fun a b => a ≠ '-' ∨ b ≠ '-' := hdashes.tail
    rw [slugChars, List.reverse_cons, List.append_assoc]
    rcases hchars c List.mem_cons_self with rfl | hletter
    · have hgo : ¬ (lastDash = true ∨ out = []) := fun h => hfirst h rfl
      have hdash : (!lastDash && !out.isEmpty) = true := by
        rw [not_or] at hgo
        simpa using hgo
      have hnext : cs.head? ≠ some '-' := by
        intro hhead
        have hpair := hdashes.rel_head? hhead
        simp at hpair
      rw [if_neg (by simp [hw.dash]), if_pos hdash]
      exact ih hrest htail fun _ => hnext
    · rw [if_pos hletter.1]
      refine ih hrest htail ?_
      rintro (h | h) <;> cases h

theorem slugify_eq_self_iff (hw : UnicodeTables w) (h : Canonical w s) : slugify w s = s ↔ Text.byteLen s ≤ 96 := by
  constructor
  · intro heq
    rw [← heq]
    exact (slugify_spec w s).2.2
  · intro hlen
    have htrim : Text.trim s = s := by
      apply Text.trim_eq_self
      intro c hc
      rcases h.chars c hc with rfl | hletter
      · rfl
      · exact hw.space c hletter.1
    have hchars : (slugChars w.isAlphanumeric false [] s).reverse = s := by
      rw [slugChars_of_hyphenated hw h.chars h.dashes fun _ => h.start]
      simp
    have hend : Text.trimEndMatches '-' s = s := by
      rw [Text.trimEndMatches, List.rdropWhile_eq_self_iff]
      intro hne hlast
      apply h.stop
      rw [List.getLast?_eq_some_getLast hne]
      simpa using hlast
    unfold slugify
    rw [htrim, hw.lower s h.chars, hchars, hend]
    dsimp only
    rw [if_neg (Nat.not_lt.mpr hlen)]

end Slugify
/-- What the code takes of a fresh UUID: eight lower-case hexadecimal digits at its start. -/
structure FreshId where
  text : Text
  length : 8 ≤ text.length
  hex : ∀ c ∈ text.take 8, c.isDigit = true ∨ c.isLower = true

section Mint
variable {w : Surroundings} {s : AppState}

def baseSlug (w : Surroundings) (topicId : FreshId) (query : Text) : Text :=
  if slugify w query = [] then "topic-".toList ++ topicId.text.take 8 else slugify w query

/-- The suffix of a taken slug: the first free number from two, or a fresh one. -/
def freeSuffix (s : AppState) (suffixId : FreshId) (base : Text) : Text :=
  (((List.range 998).map fun n => Text.decimal (n + 2)).find? fun t =>
    !s.channels.contains (base ++ '-' :: t)).getD (suffixId.text.take 8)

theorem uniqueSlug_eq (topicId suffixId : FreshId) (query : Text) :
    s.uniqueSlug topicId.text suffixId.text (slugify w query) =
      if s.channels.contains (baseSlug w topicId query) = true then
        baseSlug w topicId query ++ '-' :: freeSuffix s suffixId (baseSlug w topicId query)
      else baseSlug w topicId query := by
  have hmint : s.uniqueSlug topicId.text suffixId.text (slugify w query) =
      if (!s.channels.contains (baseSlug w topicId query)) = true then baseSlug w topicId query
      else (((List.range 998).map fun n => baseSlug w topicId query ++ "-".toList ++ Text.decimal (n + 2)).find?
        fun c => !s.channels.contains c).getD (baseSlug w topicId query ++ "-".toList ++ suffixId.text.take 8) := rfl
  rw [hmint]
  generalize baseSlug w topicId query = base
  have hsuffixed : ((List.range 998).map fun n => base ++ "-".toList ++ Text.decimal (n + 2)) =
      ((List.range 998).map fun n => Text.decimal (n + 2)).map fun t => base ++ '-' :: t := by
    rw [List.map_map]
    refine List.map_congr_left fun n _ => ?_
    exact List.append_assoc ..
  cases s.channels.contains base with
  | false => rfl
  | true =>
    rw [if_neg (by simp), if_pos rfl]
    have hlast : base ++ "-".toList ++ suffixId.text.take 8 = base ++ '-' :: suffixId.text.take 8 :=
      List.append_assoc ..
    rw [hsuffixed, List.find?_map, hlast]
    exact Option.getD_map (fun t => base ++ '-' :: t) _ _

theorem letter_of_ascii (hw : UnicodeTables w) {c : Char} (hc : c.isDigit = true ∨ c.isLower = true) : w.Letter c := by
  obtain ⟨halpha, hlower⟩ := hw.ascii c hc
  refine ⟨halpha, [c], ?_⟩
  rw [hlower]
  exact List.mem_singleton_self c

theorem FreshId.ne_nil (id : FreshId) : id.text.take 8 ≠ [] := by
  intro hnil
  have hlength := congrArg List.length hnil
  rw [List.length_take, List.length_nil] at hlength
  have := id.length
  omega

theorem freeSuffix_letters (hw : UnicodeTables w) (suffixId : FreshId) (base : Text) :
    (∀ c ∈ freeSuffix s suffixId base, w.Letter c) ∧ freeSuffix s suffixId base ≠ [] := by
  unfold freeSuffix
  cases hfind : ((List.range 998).map fun n => Text.decimal (n + 2)).find? fun t =>
      !s.channels.contains (base ++ '-' :: t) with
  | none => exact ⟨fun c hc => letter_of_ascii hw (suffixId.hex c hc), suffixId.ne_nil⟩
  | some t =>
    obtain ⟨n, -, rfl⟩ := List.mem_map.mp (List.mem_of_find?_eq_some hfind)
    exact ⟨fun c hc => letter_of_ascii hw (.inl (Text.isDigit_of_mem_decimal hc)), Nat.toDigits_ne_nil⟩

theorem baseSlug_canonical (hw : UnicodeTables w) (topicId : FreshId) (query : Text) :
    Canonical w (baseSlug w topicId query) ∧ baseSlug w topicId query ≠ [] ∧
      Text.byteLen (baseSlug w topicId query) ≤ 96 := by
  unfold baseSlug
  by_cases hempty : slugify w query = []
  · rw [if_pos hempty]
    have hword : Canonical w "topic".toList := by
      refine ⟨⟨?_, by simp, by decide⟩, by decide⟩
      intro c hc
      have hlower : "topic".toList.all Char.isLower = true := by decide
      exact .inr (letter_of_ascii hw (.inr (List.all_eq_true.mp hlower c hc)))
    have hletters : ∀ c ∈ topicId.text.take 8, w.Letter c := fun c hc => letter_of_ascii hw (topicId.hex c hc)
    have hlength : Text.byteLen (topicId.text.take 8) ≤ 32 := by
      refine (Text.byteLen_le _).trans ?_
      rw [List.length_take]
      omega
    refine ⟨hword.suffixed hw (by decide) hletters topicId.ne_nil, List.cons_ne_nil _ _, ?_⟩
    have hpre : Text.byteLen "topic-".toList = 6 := by decide
    rw [Text.byteLen_append, hpre]
    omega
  · rw [if_neg hempty]
    exact ⟨slugify_canonical hw query, hempty, (slugify_spec w query).2.2⟩

end Mint
/-- A client reaches the channel again by its key. -/
structure StableSlug (w : Surroundings) (s : AppState) (key : Text) (ch : ChannelState) : Prop where
  fixed : slugify w key = key
  again : ∀ now topic createdBy, s.createOrGetChannel w now key topic createdBy = (.ok ch.toPublic, s)

/-- A call that creates channels or routes to them. -/
inductive SlugAction
  | create (now : Now) (slug topic createdBy : Text)
  | resolve (now : Now) (topicId suffixId : FreshId) (query createdBy : Text) (threshold : Option Float32)

def slugStep (w : Surroundings) (s : AppState) : SlugAction → AppState
  | .create now slug topic createdBy => (s.createOrGetChannel w now slug topic createdBy).2
  | .resolve now topicId suffixId query createdBy threshold =>
    (s.resolveChannel w now topicId.text suffixId.text query createdBy threshold).2

/-- No channel is close enough to the query. -/
def Mints (w : Surroundings) (s : AppState) (query : Text) (threshold : Option Float32) : Prop :=
  Text.trim query ≠ [] ∧ ∀ best, bestScored (s.channels.values.map fun c =>
    (c.slug, cosine (w.embed (Text.trim query)).1 c.embedding)) = some best → ¬ s.resolveThreshold threshold ≤ best.2

/-- A new topic whose slug is taken leaves room for a free suffix. -/
def SuffixRoom (w : Surroundings) (s : AppState) : SlugAction → Prop
  | .create .. => True
  | .resolve _ topicId suffixId query _ threshold =>
    let base := baseSlug w topicId (Text.trim query)
    let suffix := freeSuffix s suffixId base
    Mints w s query threshold → s.channels.size < s.config.maxChannels → s.channels.contains base = true →
      s.channels.contains (base ++ '-' :: suffix) = false → Text.byteLen base + 1 + Text.byteLen suffix ≤ 96

/-- What all keys are, whatever their length. -/
def SlugsOk (w : Surroundings) (s : AppState) : Prop :=
  ∀ key ch, s.channels.get key = some ch → ch.slug = key ∧ Canonical w key ∧ key ≠ []

/-- All keys are within the limit of `slugify`. -/
def SlugsShort (s : AppState) : Prop := ∀ key ch, s.channels.get key = some ch → Text.byteLen key ≤ 96

section Steps
variable {w : Surroundings} {s : AppState}

theorem insertChannel_state (s : AppState) (now : Now) (slug topic createdBy : Text) (embedding : List Float32)
    (model : Text) :
    (s.channels.contains slug = false ∧ s.channels.size < s.config.maxChannels ∧
      ∃ ch, ch.slug = slug ∧ (s.insertChannel now slug topic createdBy embedding model).2 = s.setChannel slug ch) ∨
    (¬ (s.channels.contains slug = false ∧ s.channels.size < s.config.maxChannels) ∧
      (s.insertChannel now slug topic createdBy embedding model).2 = s) := by
  unfold AppState.insertChannel Table.contains
  dsimp only
  cases s.channels.get slug with
  | some ch => exact .inr ⟨by simp, rfl⟩
  | none =>
    dsimp only
    by_cases hfull : s.channels.size ≥ s.config.maxChannels
    · rw [if_pos hfull]
      exact .inr ⟨fun h => Nat.not_le.mpr h.2 hfull, rfl⟩
    · rw [if_neg hfull]
      exact .inl ⟨rfl, Nat.not_le.mp hfull, _, rfl, rfl⟩

theorem resolveChannel_state (w : Surroundings) (s : AppState) (now : Now) (topicId suffixId : FreshId)
    (query createdBy : Text) (threshold : Option Float32) :
    (Mints w s query threshold ∧ ∃ embedding model,
      (s.resolveChannel w now topicId.text suffixId.text query createdBy threshold).2 =
        (s.insertChannel now (s.uniqueSlug topicId.text suffixId.text (slugify w (Text.trim query)))
          (Text.trim query) createdBy embedding model).2) ∨
    (¬ Mints w s query threshold ∧
      (s.resolveChannel w now topicId.text suffixId.text query createdBy threshold).2 = s) := by
  unfold AppState.resolveChannel Mints
  dsimp only
  by_cases hquery : Text.trim query = []
  · rw [if_pos hquery]
    exact .inr ⟨fun h => h.1 hquery, rfl⟩
  · rw [if_neg hquery]
    cases hbest : bestScored (s.channels.values.map fun c =>
        (c.slug, cosine (w.embed (Text.trim query)).1 c.embedding)) with
    | none => exact .inl ⟨⟨hquery, fun best h => by cases h⟩, _, _, rfl⟩
    | some best =>
      dsimp only
      by_cases hscore : s.resolveThreshold threshold ≤ best.2
      · rw [if_pos hscore]
        exact .inr ⟨fun h => h.2 best rfl hscore, rfl⟩
      · rw [if_neg hscore]
        refine .inl ⟨⟨hquery, ?_⟩, _, _, rfl⟩
        rintro _ ⟨⟩
        exact hscore

theorem createOrGetChannel_state (w : Surroundings) (s : AppState) (now : Now) (slug topic createdBy : Text) :
    (s.createOrGetChannel w now slug topic createdBy).2 = s ∨
    (slugify w slug ≠ [] ∧ ∃ ch, ch.slug = slugify w slug ∧
      (s.createOrGetChannel w now slug topic createdBy).2 = s.setChannel (slugify w slug) ch) := by
  unfold AppState.createOrGetChannel
  dsimp only
  by_cases hempty : slugify w slug = []
  · rw [if_pos hempty]
    exact .inl rfl
  · rw [if_neg hempty]
    cases s.channels.get (slugify w slug) with
    | some ch => exact .inl rfl
    | none =>
      dsimp only
      rcases insertChannel_state s now (slugify w slug) (if Text.trim topic = [] then
        (slugify w slug).map (fun c => if c = '-' then ' ' else c) else topic) createdBy (w.embed _).1
        (w.embed _).2 with ⟨-, -, ch, hslug, hs⟩ | ⟨-, hs⟩
      · exact .inr ⟨hempty, ch, hslug, hs⟩
      · exact .inl hs

theorem SlugsOk.insert (h : SlugsOk w s) {slug : Text} {ch : ChannelState} (hch : ch.slug = slug)
    (hslug : Canonical w slug) (hne : slug ≠ []) : SlugsOk w (s.setChannel slug ch) := by
  intro key ch' hget
  rw [AppState.setChannel, Table.get_insert] at hget
  by_cases heq : key = slug
  · rw [if_pos heq] at hget
    cases hget
    rw [heq]
    exact ⟨hch, hslug, hne⟩
  · rw [if_neg heq] at hget
    exact h key ch' hget

theorem slugsShort_insert {slug : Text} {ch : ChannelState} (h : SlugsShort s) :
    SlugsShort (s.setChannel slug ch) ↔ Text.byteLen slug ≤ 96 := by
  constructor
  · intro hall
    exact hall slug ch (Table.get_insert_self _ _ _)
  · intro hslug key ch' hget
    rw [AppState.setChannel, Table.get_insert] at hget
    by_cases heq : key = slug
    · rw [heq]
      exact hslug
    · rw [if_neg heq] at hget
      exact h key ch' hget

theorem uniqueSlug_canonical (hw : UnicodeTables w) (s : AppState) (topicId suffixId : FreshId) (query : Text) :
    Canonical w (s.uniqueSlug topicId.text suffixId.text (slugify w query)) ∧
      s.uniqueSlug topicId.text suffixId.text (slugify w query) ≠ [] := by
  obtain ⟨hbase, hne, -⟩ := baseSlug_canonical hw topicId query
  rw [uniqueSlug_eq]
  by_cases htaken : s.channels.contains (baseSlug w topicId query) = true
  · obtain ⟨hletters, hsuffix⟩ := freeSuffix_letters (s := s) hw suffixId (baseSlug w topicId query)
    rw [if_pos htaken]
    exact ⟨hbase.suffixed hw hne hletters hsuffix, List.append_ne_nil_of_left_ne_nil hne _⟩
  · rw [if_neg htaken]
    exact ⟨hbase, hne⟩

theorem SlugsOk.step (hw : UnicodeTables w) (h : SlugsOk w s) (a : SlugAction) : SlugsOk w (slugStep w s a) := by
  cases a with
  | create now slug topic createdBy =>
    rw [slugStep]
    rcases createOrGetChannel_state w s now slug topic createdBy with hs | ⟨hne, ch, hch, hs⟩
    · rw [hs]
      exact h
    · rw [hs]
      exact h.insert hch (slugify_canonical hw slug) hne
  | resolve now topicId suffixId query createdBy threshold =>
    rw [slugStep]
    obtain ⟨hcanonical, hne⟩ := uniqueSlug_canonical hw s topicId suffixId (Text.trim query)
    rcases resolveChannel_state w s now topicId suffixId query createdBy threshold with
      ⟨-, embedding, model, hs⟩ | ⟨-, hs⟩
    · rw [hs]
      rcases insertChannel_state s now (s.uniqueSlug topicId.text suffixId.text (slugify w (Text.trim query)))
        (Text.trim query) createdBy embedding model with ⟨-, -, ch, hch, hs⟩ | ⟨-, hs⟩
      · rw [hs]
        exact h.insert hch hcanonical hne
      · rw [hs]
        exact h
    · rw [hs]
      exact h

theorem slugsShort_step (hw : UnicodeTables w) (h : SlugsShort s) (a : SlugAction) :
    SlugsShort (slugStep w s a) ↔ SuffixRoom w s a := by
  cases a with
  | create now slug topic createdBy =>
    refine iff_of_true ?_ trivial
    rw [slugStep]
    rcases createOrGetChannel_state w s now slug topic createdBy with hs | ⟨-, ch, -, hs⟩
    · rw [hs]
      exact h
    · rw [hs]
      exact (slugsShort_insert h).mpr (slugify_spec w slug).2.2
  | resolve now topicId suffixId query createdBy threshold =>
    rw [slugStep, SuffixRoom]
    have hslug := uniqueSlug_eq (w := w) (s := s) topicId suffixId (Text.trim query)
    have hbase := (baseSlug_canonical hw topicId (Text.trim query)).2.2
    generalize hsuffix : freeSuffix s suffixId (baseSlug w topicId (Text.trim query)) = suffix at hslug ⊢
    generalize baseSlug w topicId (Text.trim query) = base at hslug hbase ⊢
    rcases resolveChannel_state w s now topicId suffixId query createdBy threshold with
      ⟨hmints, embedding, model, hs⟩ | ⟨hroutes, hs⟩
    · rw [hs]
      rcases insertChannel_state s now (s.uniqueSlug topicId.text suffixId.text (slugify w (Text.trim query)))
        (Text.trim query) createdBy embedding model with ⟨hfree, hcapacity, ch, hch, hs⟩ | ⟨hrefused, hs⟩
      · rw [hs, slugsShort_insert h, hslug]
        rw [hslug] at hfree
        by_cases htaken : s.channels.contains base = true
        · rw [if_pos htaken] at hfree ⊢
          have hlength : Text.byteLen (base ++ '-' :: suffix) = Text.byteLen base + 1 + Text.byteLen suffix := by
            rw [Text.byteLen_append, Text.byteLen_cons, Nat.add_assoc]
            rfl
          rw [hlength]
          exact ⟨fun hroom _ _ _ _ => hroom, fun hroom => hroom hmints hcapacity htaken hfree⟩
        · rw [if_neg htaken]
          exact iff_of_true hbase fun _ _ h => absurd h htaken
      · rw [hs]
        refine iff_of_true h fun _ hcapacity htaken hfree => absurd ⟨?_, hcapacity⟩ hrefused
        rw [hslug, if_pos htaken]
        exact hfree
    · rw [hs]
      exact iff_of_true h fun hmints => absurd hmints hroutes

theorem slugsShort_of_insert {slug : Text} {ch : ChannelState} (h : SlugsShort (s.setChannel slug ch)) :
    SlugsShort s := by
  intro key ch' hget
  by_cases heq : key = slug
  · rw [heq]
    exact h slug ch (Table.get_insert_self _ _ _)
  · exact h key ch' ((Table.get_insert_ne heq).trans hget)

theorem slugsShort_of_step (a : SlugAction) (h : SlugsShort (slugStep w s a)) : SlugsShort s := by
  cases a with
  | create now slug topic createdBy =>
    rw [slugStep] at h
    rcases createOrGetChannel_state w s now slug topic createdBy with hs | ⟨-, ch, -, hs⟩
    · rwa [hs] at h
    · rw [hs] at h
      exact slugsShort_of_insert h
  | resolve now topicId suffixId query createdBy threshold =>
    rw [slugStep] at h
    rcases resolveChannel_state w s now topicId suffixId query createdBy threshold with
      ⟨-, embedding, model, hs⟩ | ⟨-, hs⟩
    · rw [hs] at h
      rcases insertChannel_state s now (s.uniqueSlug topicId.text suffixId.text (slugify w (Text.trim query)))
        (Text.trim query) createdBy embedding model with ⟨-, -, ch, -, hs⟩ | ⟨-, hs⟩
      · rw [hs] at h
        exact slugsShort_of_insert h
      · rwa [hs] at h
    · rwa [hs] at h

theorem stableSlug_iff (hw : UnicodeTables w) (h : SlugsOk w s) {key : Text} {ch : ChannelState}
    (hget : s.channels.get key = some ch) : StableSlug w s key ch ↔ Text.byteLen key ≤ 96 := by
  obtain ⟨-, hcanonical, hne⟩ := h key ch hget
  constructor
  · intro hstable
    exact (slugify_eq_self_iff hw hcanonical).mp hstable.fixed
  · intro hshort
    have hfixed := (slugify_eq_self_iff hw hcanonical).mpr hshort
    refine ⟨hfixed, ?_⟩
    intro now topic createdBy
    unfold AppState.createOrGetChannel
    rw [hfixed]
    dsimp only
    rw [if_neg hne, hget]

end Steps

/-- Every key is the slug of its channel. It is a fixed point of `slugify` and leads back to that channel, for
all channels of a run, exactly when no new topic of the run lacked room for the suffix it needed. -/
theorem canonical_slugs (w : Surroundings) (hw : UnicodeTables w) (config : Config) (as : List SlugAction) :
    (∀ key ch, (Run.exec (slugStep w) (AppState.new config) as).channels.get key = some ch → ch.slug = key) ∧
    ((∀ key ch, (Run.exec (slugStep w) (AppState.new config) as).channels.get key = some ch →
        StableSlug w (Run.exec (slugStep w) (AppState.new config) as) key ch) ↔
      Run.Guarded (slugStep w) (SuffixRoom w) (AppState.new config) as) := by
  have hnone : ∀ key ch, (AppState.new config).channels.get key = some ch → False := by
    intro key ch hget
    cases hget
  have hinit : SlugsOk w (AppState.new config) := fun key ch hget => (hnone key ch hget).elim
  have hrun : SlugsOk w (Run.exec (slugStep w) (AppState.new config) as) :=
    Run.exec_invariant (fun _ a h => h.step hw a) hinit as
  refine ⟨fun key ch hget => (hrun key ch hget).1, ?_⟩
  have hshort : SlugsShort (Run.exec (slugStep w) (AppState.new config) as) ↔
      Run.Guarded (slugStep w) (SuffixRoom w) (AppState.new config) as :=
    Run.exec_iff_guarded (I := SlugsOk w) (P := SlugsShort) (fun _ a h => h.step hw a)
      (fun _ a _ h => slugsShort_step hw h a)
      (fun _ a _ h => slugsShort_of_step a h) hinit (fun key ch hget => (hnone key ch hget).elim) as
  rw [← hshort]
  constructor
  · intro h key ch hget
    exact (stableSlug_iff hw hrun hget).mp (h key ch hget)
  · intro h key ch hget
    exact (stableSlug_iff hw hrun hget).mpr (h key ch hget)

theorem asciiSurroundings_tables : UnicodeTables asciiSurroundings where
  dash := by decide
  space := by
    intro c hc
    simp only [asciiSurroundings, Text.isAsciiAlphanumeric, Bool.or_eq_true, Bool.and_eq_true, decide_eq_true_eq,
      Char.le_def, UInt32.le_iff_toNat_le] at hc
    simp only [Text.isWhitespace, Bool.or_eq_false_iff, Bool.and_eq_false_iff, decide_eq_false_iff_not,
      beq_eq_false_iff_ne]
    change ((48 ≤ c.toNat ∧ c.toNat ≤ 57) ∨ (65 ≤ c.toNat ∧ c.toNat ≤ 90)) ∨ (97 ≤ c.toNat ∧ c.toNat ≤ 122) at hc
    omega
  ascii := by
    intro c hc
    have hlower : c.isLower = (decide (c.val ≥ 'a'.val) && decide (c.val ≤ 'z'.val)) := rfl
    simp only [Char.isDigit, hlower, Bool.and_eq_true, decide_eq_true_eq, UInt32.le_iff_toNat_le, ge_iff_le] at hc
    change (48 ≤ c.toNat ∧ c.toNat ≤ 57) ∨ (97 ≤ c.toNat ∧ c.toNat ≤ 122) at hc
    constructor
    · simp only [asciiSurroundings, Text.isAsciiAlphanumeric, Bool.or_eq_true, Bool.and_eq_true, decide_eq_true_eq,
        Char.le_def, UInt32.le_iff_toNat_le]
      change ((48 ≤ c.toNat ∧ c.toNat ≤ 57) ∨ (65 ≤ c.toNat ∧ c.toNat ≤ 90)) ∨ (97 ≤ c.toNat ∧ c.toNat ≤ 122)
      omega
    · exact congrArg (fun d => [d]) (Text.toLower_of_not_upper (by omega))
  lower := by
    intro text htext
    refine (List.map_congr_left fun c hc => ?_).trans (List.map_id text)
    rcases htext c hc with rfl | ⟨-, source, hsource⟩
    · rfl
    · obtain ⟨d, -, rfl⟩ := List.mem_map.mp hsource
      exact Text.toLower_of_not_upper (Text.not_upper_toLower d)

theorem canonical_slugs_created : ∃ ch,
    (Run.exec (slugStep asciiSurroundings) (AppState.new Config.inMemory)
      [.create ⟨0, 0⟩ "War  Room!".toList [] []]).channels.get "war-room".toList = some ch ∧
    StableSlug asciiSurroundings (Run.exec (slugStep asciiSurroundings) (AppState.new Config.inMemory)
      [.create ⟨0, 0⟩ "War  Room!".toList [] []]) "war-room".toList ch :=
  ⟨_, rfl, (canonical_slugs asciiSurroundings asciiSurroundings_tables Config.inMemory
    [.create ⟨0, 0⟩ "War  Room!".toList [] []]).2.mpr ⟨trivial, trivial⟩ _ _ rfl⟩

/-- A full-length slug is asked for under one topic, and then as a topic of its own. -/
def longTopicTwice : List SlugAction :=
  let id : FreshId := ⟨"0123abcd".toList, by decide, by simp⟩
  [.create ⟨0, 0⟩ (List.replicate 96 'a') "soccer policy".toList [],
    .resolve ⟨0, 0⟩ id id (List.replicate 96 'a') [] none]

/-- The second channel is minted under a slug that leads to the first. -/
theorem not_stable_longTopicTwice : ∃ s key ch other,
    s = Run.exec (slugStep asciiSurroundings) (AppState.new Config.inMemory) longTopicTwice ∧
    s.channels.get key = some ch ∧ slugify asciiSurroundings key ≠ key ∧
    (s.createOrGetChannel asciiSurroundings ⟨0, 0⟩ key [] []).1 = .ok other ∧ other.slug ≠ key := by
  have hrun : ((Run.exec (slugStep asciiSurroundings) (AppState.new Config.inMemory) longTopicTwice).channels.get
      (List.replicate 96 'a' ++ "-2".toList)).isSome = true := by decide +kernel
  have hagain : ((Run.exec (slugStep asciiSurroundings) (AppState.new Config.inMemory)
      longTopicTwice).createOrGetChannel asciiSurroundings ⟨0, 0⟩ (List.replicate 96 'a' ++ "-2".toList)
      [] []).1.toOption.map Channel.slug = some (List.replicate 96 'a') := by decide +kernel
  obtain ⟨ch, hch⟩ := Option.isSome_iff_exists.mp hrun
  obtain ⟨other, hother, hslug⟩ := Except.toOption_map_eq_some.mp hagain
  refine ⟨_, _, ch, other, rfl, hch, by decide +kernel, hother, ?_⟩
  rw [hslug]
  decide

end AgentBridge
