import AgentBridge.Base.Url

/-! Byte offsets in text: the greatest character boundary at or below an offset, as the loops that step
back to it compute it, the slice that ends there, and the bytes around it. -/

namespace Text

/-- A character starts at the offset, or the text ends there. -/
def isCharBoundary (s : Text) (n : Nat) : Bool := s.inits.any fun p => byteLen p = n

/-- Steps back from an offset until it is a boundary. -/
def floorBoundary (s : Text) : Nat → Nat
  | 0 => 0
  | n + 1 => if isCharBoundary s (n + 1) then n + 1 else floorBoundary s n

/-- The bytes before the offset; there is no such slice off a boundary. -/
def sliceTo (s : Text) (n : Nat) : Option Text := s.inits.find? fun p => byteLen p = n

/-- The longest beginning of whole characters that takes at most `limit` bytes. -/
structure LongestPrefix (limit : Nat) (s kept : Text) : Prop where
  isPrefix : kept <+: s
  fits : byteLen kept ≤ limit
  longest : ∀ p, p <+: s → byteLen p ≤ limit → p <+: kept

section Boundary
variable {s p q : Text} {n : Nat}

theorem isCharBoundary_iff : isCharBoundary s n = true ↔ ∃ p, p <+: s ∧ byteLen p = n := by
  simp [isCharBoundary]

theorem eq_of_isPrefix_of_byteLen (h : p <+: q) (hlen : byteLen p = byteLen q) : p = q := by
  obtain ⟨rest, rfl⟩ := h
  rw [byteLen_append] at hlen
  cases rest with
  | nil => rw [List.append_nil]
  | cons c rest =>
    have hc := c.utf8Size_pos
    rw [byteLen_cons] at hlen
    omega

theorem isPrefix_unique (hp : p <+: s) (hq : q <+: s) (hlen : byteLen p = byteLen q) : p = q := by
  rcases List.prefix_or_prefix_of_prefix hp hq with h | h
  · exact eq_of_isPrefix_of_byteLen h hlen
  · exact (eq_of_isPrefix_of_byteLen h hlen.symm).symm

theorem truncateBytes_succ_of_lt (h : byteLen (truncateBytes (n + 1) s) ≤ n) :
    truncateBytes (n + 1) s = truncateBytes n s := by
  rw [← truncateBytes_truncateBytes (Nat.le_succ n) s, truncateBytes_of_le h]

theorem floorBoundary_eq (s : Text) (n : Nat) : floorBoundary s n = byteLen (truncateBytes n s) := by
  induction n with
  | zero => exact (Nat.le_zero.mp (byteLen_truncateBytes 0 s)).symm
  | succ n ih =>
    have hle := byteLen_truncateBytes (n + 1) s
    rw [floorBoundary]
    by_cases hb : isCharBoundary s (n + 1) = true
    · -- what ends at the boundary fits, so truncation keeps it
      obtain ⟨p, hp, hlen⟩ := isCharBoundary_iff.mp hb
      have hkept := byteLen_le_of_isPrefix (prefix_truncateBytes hp hlen.le)
      rw [if_pos hb]
      omega
    · have hne : byteLen (truncateBytes (n + 1) s) ≠ n + 1 := fun h =>
        hb (isCharBoundary_iff.mpr ⟨_, truncateBytes_isPrefix _ _, h⟩)
      rw [if_neg hb, ih, truncateBytes_succ_of_lt (by omega)]

theorem sliceTo_floorBoundary (s : Text) (n : Nat) :
    sliceTo s (floorBoundary s n) = some (truncateBytes n s) := by
  rw [floorBoundary_eq]
  obtain ⟨p, hp⟩ : ∃ p, sliceTo s (byteLen (truncateBytes n s)) = some p := by
    refine Option.isSome_iff_exists.mp (List.find?_isSome.mpr ⟨truncateBytes n s, ?_, by simp⟩)
    exact List.mem_inits _ _ |>.mpr (truncateBytes_isPrefix n s)
  have hmem := (List.mem_inits _ _).mp (List.mem_of_find?_eq_some hp)
  have hlen : byteLen p = byteLen (truncateBytes n s) := by simpa using List.find?_some hp
  rw [hp, isPrefix_unique hmem (truncateBytes_isPrefix n s) hlen]

end Boundary

section Longest
variable {s kept kept' : Text} {limit : Nat}

theorem longestPrefix_truncateBytes (limit : Nat) (s : Text) : LongestPrefix limit s (truncateBytes limit s) where
  isPrefix := truncateBytes_isPrefix limit s
  fits := byteLen_truncateBytes limit s
  longest := fun _ hp hfits => prefix_truncateBytes hp hfits

theorem LongestPrefix.unique (h : LongestPrefix limit s kept) (h' : LongestPrefix limit s kept') : kept = kept' := by
  have hle := h'.longest kept h.isPrefix h.fits
  have hge := h.longest kept' h'.isPrefix h'.fits
  exact hle.eq_of_length (le_antisymm hle.length_le hge.length_le)

theorem longestPrefix_self (h : byteLen s ≤ limit) : LongestPrefix limit s s :=
  ⟨List.prefix_refl s, h, fun _ hp _ => hp⟩

theorem LongestPrefix.self (h : LongestPrefix limit s kept) : LongestPrefix limit kept kept :=
  longestPrefix_self h.fits

end Longest

/-! ### The bytes of a text -/

section Bytes
variable {s kept : Text} {n : Nat}

theorem length_encodeChar (c : Char) : (Url.encodeChar c).length = c.utf8Size := by
  have hval : c.val.toNat = c.toNat := rfl
  unfold Url.encodeChar
  dsimp only
  split_ifs with hone htwo hthree
  · exact (Char.utf8Size_eq_one_iff.mpr (UInt32.le_iff_toNat_le.mpr (by rw [hval]; exact Nat.le_of_lt_succ hone))).symm
  · refine (Char.utf8Size_eq_two_iff.mpr ⟨UInt32.lt_iff_toNat_lt.mpr ?_, UInt32.le_iff_toNat_le.mpr ?_⟩).symm
    · rw [hval]
      exact Nat.lt_of_not_le fun hle => hone (Nat.lt_succ_of_le hle)
    · rw [hval]
      exact Nat.le_of_lt_succ htwo
  · refine (Char.utf8Size_eq_three_iff.mpr ⟨UInt32.lt_iff_toNat_lt.mpr ?_, UInt32.le_iff_toNat_le.mpr ?_⟩).symm
    · rw [hval]
      exact Nat.lt_of_not_le fun hle => htwo (Nat.lt_succ_of_le hle)
    · rw [hval]
      exact Nat.le_of_lt_succ hthree
  · refine (Char.utf8Size_eq_four_iff.mpr (UInt32.lt_iff_toNat_lt.mpr ?_)).symm
    rw [hval]
    exact Nat.lt_of_not_le fun hle => hthree (Nat.lt_succ_of_le hle)

theorem length_encodeUtf8 (s : Text) : (Url.encodeUtf8 s).length = byteLen s := by
  rw [Url.encodeUtf8, List.length_flatMap, byteLen]
  exact congrArg List.sum (List.map_congr_left fun c _ => length_encodeChar c)

theorem encodeChar_eq (c : Char) : ∃ lead tail, Url.encodeChar c = lead :: tail ∧ Url.isTail lead = false ∧
    ∀ b ∈ tail, Url.isTail b = true := by
  have hscalar := Url.isScalar_toNat c
  rw [Url.isScalar, Bool.and_eq_true, decide_eq_true_eq] at hscalar
  obtain ⟨hmax, -⟩ := hscalar
  have htail : ∀ n, Url.isTail (0x80 + n % 64) = true := by
    intro n
    rw [Url.isTail, Bool.and_eq_true, decide_eq_true_eq, decide_eq_true_eq]
    omega
  have hlead : ∀ b, b < 0x80 ∨ 0xBF < b → Url.isTail b = false := by
    intro b hb
    rw [Url.isTail, Bool.and_eq_false_iff, decide_eq_false_iff_not, decide_eq_false_iff_not]
    omega
  unfold Url.encodeChar
  dsimp only
  split_ifs with hone htwo hthree
  · exact ⟨_, _, rfl, hlead _ (.inl hone), List.forall_mem_nil _⟩
  · exact ⟨_, _, rfl, hlead _ (.inr (by omega)), by simp [htail]⟩
  · exact ⟨_, _, rfl, hlead _ (.inr (by omega)), by simp [htail]⟩
  · exact ⟨_, _, rfl, hlead _ (.inr (by omega)), by simp [htail]⟩

theorem isCharBoundary_cons {c : Char} : isCharBoundary (c :: s) n = true ↔
    n = 0 ∨ c.utf8Size ≤ n ∧ isCharBoundary s (n - c.utf8Size) = true := by
  rw [isCharBoundary_iff, isCharBoundary_iff]
  constructor
  · rintro ⟨p, hp, hlen⟩
    cases p with
    | nil => exact .inl hlen.symm
    | cons d p =>
      obtain ⟨rfl, hrest⟩ := List.cons_prefix_cons.mp hp
      rw [byteLen_cons] at hlen
      exact .inr ⟨by omega, p, hrest, by omega⟩
  · rintro (rfl | ⟨hle, p, hp, hlen⟩)
    · exact ⟨[], List.nil_prefix, rfl⟩
    · exact ⟨c :: p, (List.prefix_cons_inj c).mpr hp, by rw [byteLen_cons]; omega⟩

/-- `str::is_char_boundary`: the end of the text, or a byte that is not a tail byte. -/
theorem isCharBoundary_iff_byte : isCharBoundary s n = true ↔
    n = byteLen s ∨ ∃ b, (Url.encodeUtf8 s)[n]? = some b ∧ Url.isTail b = false := by
  -- a character starts with the one byte of its encoding that is no tail
  induction s generalizing n with
  | nil =>
    rw [isCharBoundary_iff]
    constructor
    · rintro ⟨p, hp, hlen⟩
      rw [List.prefix_nil.mp hp] at hlen
      exact .inl hlen.symm
    · rintro (hend | ⟨b, hb, -⟩)
      · exact ⟨[], List.nil_prefix, hend.symm⟩
      · cases hb
  | cons c s ih =>
    obtain ⟨lead, tail, hbytes, hlead, htail⟩ := encodeChar_eq c
    have hsize : c.utf8Size = tail.length + 1 := by
      rw [← length_encodeChar, hbytes, List.length_cons]
    have hencode : Url.encodeUtf8 (c :: s) = lead :: tail ++ Url.encodeUtf8 s := by
      rw [Url.encodeUtf8, List.flatMap_cons, hbytes]
      rfl
    rw [isCharBoundary_cons, ih, hencode, byteLen_cons, hsize]
    by_cases hstart : n = 0
    · exact iff_of_true (.inl hstart) (.inr ⟨lead, by rw [hstart]; rfl, hlead⟩)
    · rw [or_iff_right hstart]
      by_cases hinside : n < tail.length + 1
      · -- inside the character there are tail bytes only
        refine iff_of_false (fun h => absurd h.1 (by omega)) ?_
        rintro (hend | ⟨b, hb, hnot⟩)
        · omega
        · obtain ⟨m, rfl⟩ := Nat.exists_eq_succ_of_ne_zero hstart
          rw [List.getElem?_append_left (by rw [List.length_cons]; omega), List.getElem?_cons_succ] at hb
          rw [htail b (List.mem_of_getElem? hb)] at hnot
          cases hnot
      · rw [List.getElem?_append_right (by rw [List.length_cons]; omega), List.length_cons]
        have hend : n - (tail.length + 1) = byteLen s ↔ n = tail.length + 1 + byteLen s := by omega
        rw [hend]
        exact and_iff_right (by omega)

theorem take_encodeUtf8 (h : kept <+: s) : (Url.encodeUtf8 s).take (byteLen kept) = Url.encodeUtf8 kept := by
  obtain ⟨rest, rfl⟩ := h
  rw [Url.encodeUtf8, List.flatMap_append, ← length_encodeUtf8]
  exact List.take_left

theorem isCharBoundary_floorBoundary (s : Text) (n : Nat) : isCharBoundary s (floorBoundary s n) = true := by
  rw [floorBoundary_eq]
  exact isCharBoundary_iff.mpr ⟨_, truncateBytes_isPrefix n s, rfl⟩

end Bytes

end Text
