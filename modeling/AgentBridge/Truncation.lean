import AgentBridge.Runner.Prompt
import AgentBridge.Slack.Context

/-! The helpers that cut a text to a number of bytes. Each steps back from its limit to a character boundary in code
of its own; what they keep is the same. -/

namespace AgentBridge

def State.truncateBytes (s : Text) (max : Nat) : Text :=
  if Text.byteLen s ≤ max then s else (Text.sliceTo s (Text.floorBoundary s max)).getD []

/-- Of every text the longest beginning within the limit is kept, and of that all. -/
structure Truncates (cut : Text → Nat → Text) : Prop where
  longest : ∀ s limit, Text.LongestPrefix limit s (cut s limit)
  again : ∀ s limit, cut (cut s limit) limit = cut s limit

/-- A text that is too long is cut so that a suffix fits behind it, where the limit is more than the suffix takes. -/
structure TruncatesWithSuffix (suffix : Text) (cut : Text → Nat → Text) : Prop where
  whole : ∀ s limit, Text.byteLen s ≤ limit → cut s limit = s
  marked : ∀ s limit, limit < Text.byteLen s → Text.byteLen suffix < limit →
    ∃ kept, Text.LongestPrefix (limit - Text.byteLen suffix) s kept ∧ cut s limit = kept ++ suffix
  bare : ∀ s limit, limit < Text.byteLen s → limit ≤ Text.byteLen suffix → Text.LongestPrefix limit s (cut s limit)
  fits : ∀ s limit, Text.byteLen (cut s limit) ≤ limit
  again : ∀ s limit, cut (cut s limit) limit = cut s limit

/-- The offset is the end of the text or that of a byte that may start a character, and the bytes before it are
UTF-8. -/
structure SlicesAt (s : Text) (offset : Nat) : Prop where
  boundary : offset = Text.byteLen s ∨ ∃ b, (Url.encodeUtf8 s)[offset]? = some b ∧ Url.isTail b = false
  slice : ∃ kept, Text.sliceTo s offset = some kept ∧
    Url.decodeUtf8 ((Url.encodeUtf8 s).take offset) = some kept

section Helpers
variable {s : Text} {limit : Nat}

theorem truncates_of_longest {cut : Text → Nat → Text} (h : ∀ s limit, Text.LongestPrefix limit s (cut s limit)) :
    Truncates cut := by
  refine ⟨h, fun s limit => ?_⟩
  exact (h (cut s limit) limit).unique (h s limit).self

theorem sliceTo_floorBoundary_min (s : Text) (limit : Nat) :
    Text.sliceTo s (Text.floorBoundary s (min limit (Text.byteLen s))) = some (Text.truncateBytes limit s) := by
  rw [Text.sliceTo_floorBoundary]
  rcases Nat.le_total limit (Text.byteLen s) with hle | hle
  · rw [Nat.min_eq_left hle]
  · rw [Nat.min_eq_right hle, Text.truncateBytes_of_le le_rfl, Text.truncateBytes_of_le hle]

/-- The texts of the state are cut as `truncate_bytes` cuts them. -/
theorem State.truncateBytes_eq (s : Text) (max : Nat) : State.truncateBytes s max = Text.truncateBytes max s := by
  unfold State.truncateBytes
  split_ifs with hfits
  · exact (Text.truncateBytes_of_le hfits).symm
  · rw [Text.sliceTo_floorBoundary]
    rfl

theorem Slack.truncate_eq (s : Text) (limit : Nat) : Slack.truncate s limit = Text.truncateBytes limit s := by
  unfold Slack.truncate
  split_ifs with hfits
  · exact (Text.truncateBytes_of_le hfits).symm
  · rw [sliceTo_floorBoundary_min]
    rfl

theorem Slack.Bridge.truncateUtf8_of_le_suffix (h : limit < Text.byteLen s)
    (hsuffix : limit ≤ Text.byteLen Slack.Bridge.truncationSuffix) :
    Slack.Bridge.truncateUtf8 s limit = Text.truncateBytes limit s := by
  rw [Slack.Bridge.truncateUtf8, if_neg (Nat.not_le.mpr h), if_pos hsuffix, sliceTo_floorBoundary_min]
  rfl

theorem Slack.Bridge.byteLen_truncateUtf8_le (s : Text) (limit : Nat) :
    Text.byteLen (Slack.Bridge.truncateUtf8 s limit) ≤ limit := by
  rcases Nat.lt_or_ge (Text.byteLen Slack.Bridge.truncationSuffix) limit with hsuffix | hsuffix
  · exact Slack.Bridge.byteLen_truncateUtf8 hsuffix
  · rcases Nat.lt_or_ge limit (Text.byteLen s) with hlong | hfits
    · rw [Slack.Bridge.truncateUtf8_of_le_suffix hlong hsuffix]
      exact Text.byteLen_truncateBytes limit s
    · rwa [Slack.Bridge.truncateUtf8_of_le hfits]

theorem slicesAt_floorBoundary (s : Text) (n : Nat) : SlicesAt s (Text.floorBoundary s n) where
  boundary := Text.isCharBoundary_iff_byte.mp (Text.isCharBoundary_floorBoundary s n)
  slice := by
    refine ⟨_, Text.sliceTo_floorBoundary s n, ?_⟩
    rw [Text.floorBoundary_eq, Text.take_encodeUtf8 (Text.truncateBytes_isPrefix n s), Url.decodeUtf8_encodeUtf8]

theorem truncates_truncateUtf8 : TruncatesWithSuffix Slack.Bridge.truncationSuffix Slack.Bridge.truncateUtf8 where
  whole := fun _ _ hfits => Slack.Bridge.truncateUtf8_of_le hfits
  marked := fun s _ hlong hsuffix =>
    ⟨_, Text.longestPrefix_truncateBytes _ s, Slack.Bridge.truncateUtf8_of_lt hlong hsuffix⟩
  bare := by
    intro s limit hlong hsuffix
    rw [Slack.Bridge.truncateUtf8_of_le_suffix hlong hsuffix]
    exact Text.longestPrefix_truncateBytes limit s
  fits := Slack.Bridge.byteLen_truncateUtf8_le
  again := fun s limit => Slack.Bridge.truncateUtf8_of_le (Slack.Bridge.byteLen_truncateUtf8_le s limit)

end Helpers

/-- Three of the helpers keep the longest beginning within their limit, the fourth leaves room for its suffix where the
limit is more than that, none slices inside a character, and cutting again changes nothing. -/
theorem truncation_law :
    Truncates State.truncateBytes ∧ Truncates Slack.truncate ∧
    (Truncates (fun s limit => (Runner.appendBounded [] s 0 limit).1) ∧
      ∀ target s retained limit,
        (Runner.appendBounded target s retained limit).1 = target ++ (Runner.appendBounded [] s 0 limit).1) ∧
    TruncatesWithSuffix Slack.Bridge.truncationSuffix Slack.Bridge.truncateUtf8 ∧
    ∀ s n, SlicesAt s (Text.floorBoundary s n) := by
  have happend : ∀ s limit, (Runner.appendBounded [] s 0 limit).1 = Text.truncateBytes limit s := by
    intro s limit
    rw [Runner.appendBounded_eq, List.nil_append]
  refine ⟨truncates_of_longest ?_, truncates_of_longest ?_, ⟨truncates_of_longest ?_, ?_⟩, truncates_truncateUtf8,
    slicesAt_floorBoundary⟩
  · intro s limit
    rw [State.truncateBytes_eq]
    exact Text.longestPrefix_truncateBytes limit s
  · intro s limit
    rw [Slack.truncate_eq]
    exact Text.longestPrefix_truncateBytes limit s
  · intro s limit
    rw [happend]
    exact Text.longestPrefix_truncateBytes limit s
  · intro target s retained limit
    rw [happend, Runner.appendBounded_eq]

/-- A limit of just the suffix would hold it, and the text is cut without it. -/
theorem not_truncation_law : ¬ ∀ s limit, limit < Text.byteLen s →
    Text.byteLen Slack.Bridge.truncationSuffix ≤ limit → ∃ kept,
      Text.LongestPrefix (limit - Text.byteLen Slack.Bridge.truncationSuffix) s kept ∧
      Slack.Bridge.truncateUtf8 s limit = kept ++ Slack.Bridge.truncationSuffix := by
  intro h
  obtain ⟨kept, -, heq⟩ := h (List.replicate 17 'a') 16 (by decide) (by decide)
  have hcut : Slack.Bridge.truncateUtf8 (List.replicate 17 'a') 16 = List.replicate 16 'a' := by decide
  have hsuffix : ']' ∈ List.replicate 16 'a' := by
    rw [← hcut, heq]
    exact List.mem_append_right kept (by decide)
  exact absurd hsuffix (by decide)

end AgentBridge
