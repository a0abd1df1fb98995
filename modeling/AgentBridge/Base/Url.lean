import AgentBridge.Base.Components
import AgentBridge.Base.Text

/-! Request paths: their segments, percent-decoding of a captured segment and the
UTF-8 encoding underneath. -/

namespace Url

def encodeChar (c : Char) : List Nat :=
  let n := c.toNat
  if n < 0x80 then [n]
  else if n < 0x800 then [0xC0 + n / 64, 0x80 + n % 64]
  else if n < 0x10000 then [0xE0 + n / 4096, 0x80 + n / 64 % 64, 0x80 + n % 64]
  else [0xF0 + n / 262144, 0x80 + n / 4096 % 64, 0x80 + n / 64 % 64, 0x80 + n % 64]

def encodeUtf8 (s : Text) : List Nat := s.flatMap encodeChar

def isTail (b : Nat) : Bool := 0x80 ≤ b && b ≤ 0xBF

/-- Unicode scalar values: code points without the surrogates. -/
def isScalar (n : Nat) : Bool := n ≤ 0x10FFFF && !(0xD800 ≤ n && n ≤ 0xDFFF)

/-- Decodes with `owed` tail bytes of a character outstanding. `acc` is what its
bytes gave so far, and a character below `least` was encoded in too many bytes. -/
def decodeFrom : Nat → Nat → Nat → List Nat → Option Text
  | 0, _, _, [] => some []
  | 0, _, _, b :: bs =>
    if b < 0x80 then (decodeFrom 0 0 0 bs).map (Char.ofNat b :: ·)
    else if 0xC2 ≤ b && b ≤ 0xDF then decodeFrom 1 (b - 0xC0) 0x80 bs
    else if 0xE0 ≤ b && b ≤ 0xEF then decodeFrom 2 (b - 0xE0) 0x800 bs
    else if 0xF0 ≤ b && b ≤ 0xF4 then decodeFrom 3 (b - 0xF0) 0x10000 bs
    else none
  | _ + 1, _, _, [] => none
  | owed + 1, acc, least, b :: bs =>
    let n := acc * 64 + (b - 0x80)
    if !isTail b then none
    else if owed ≠ 0 then decodeFrom owed n least bs
    else if least ≤ n && isScalar n then (decodeFrom 0 0 0 bs).map (Char.ofNat n :: ·)
    else none

/-- UTF-8 without surrogates and overlong forms; anything else is an error. -/
def decodeUtf8 (bytes : List Nat) : Option Text := decodeFrom 0 0 0 bytes

def hexDigit (c : Char) : Option Nat :=
  if '0' ≤ c && c ≤ '9' then some (c.toNat - '0'.toNat)
  else if 'a' ≤ c && c ≤ 'f' then some (c.toNat - 'a'.toNat + 10)
  else if 'A' ≤ c && c ≤ 'F' then some (c.toNat - 'A'.toNat + 10)
  else none

/-- The bytes of a segment with its escapes replaced; a `%` that starts no escape stands for itself. -/
def unescape : Text → List Nat
  | '%' :: hi :: lo :: rest =>
    match hexDigit hi, hexDigit lo with
    | some h, some l => (16 * h + l) :: unescape rest
    | _, _ => encodeChar '%' ++ unescape (hi :: lo :: rest)
  | c :: rest => encodeChar c ++ unescape rest
  | [] => []

def percentDecode (segment : Text) : Option Text := decodeUtf8 (unescape segment)

/-- The segments of an absolute path, as they were sent. -/
def segments : Text → Option (List Text)
  | '/' :: rest => some (rest.splitOn '/')
  | _ => none

theorem eq_of_segments {path : Text} {parts : List Text} (h : segments path = some parts) :
    path = '/' :: Components.join '/' parts := by
  unfold segments at h
  split at h
  next rest =>
    cases h
    rw [Components.join_split]
  next => cases h

/-- A path whose first and last segments are not empty loses only its leading slash to
trimming. -/
theorem splitOn_trimMatches_of_segments {path : Text} {parts : List Text} (h : segments path = some parts)
    (hfirst : parts.head? ≠ some []) (hlast : parts.getLast? ≠ some []) :
    (Text.trimMatches '/' path).splitOn '/' = parts := by
  unfold segments at h
  split at h
  next rest =>
    cases h
    have hhead : rest.dropWhile (· == '/') = rest := by
      rw [List.dropWhile_eq_self_iff]
      intro hl heq
      match rest, hl, heq with
      | c :: cs, _, heq =>
        apply hfirst
        have hc : (c == '/') = true := heq
        rw [List.splitOn_cons_eq_if_modifyHead, if_pos hc]
        rfl
    have htail : rest.rdropWhile (· == '/') = rest := by
      rw [List.rdropWhile_eq_self_iff]
      intro hne heq
      apply hlast
      have hsplit : rest = rest.dropLast ++ '/' :: [] := by
        rw [← beq_iff_eq.mp heq, List.dropLast_append_getLast hne]
      rw [hsplit, List.splitOn_append_cons_self, List.splitOn_nil, List.getLast?_concat]
    have htrim : Text.trimMatches '/' ('/' :: rest) = rest := by
      unfold Text.trimMatches
      rw [List.dropWhile_cons_of_pos (by rfl), hhead, htail]
    rw [htrim]
  next => cases h

section Utf8
variable {n acc least t : Nat} {rest : List Nat}

theorem decodeFrom_tail (ht : t < 64) (owed : Nat) : decodeFrom (owed + 2) acc least ((0x80 + t) :: rest) =
    decodeFrom (owed + 1) (acc * 64 + t) least rest := by
  have htail : isTail (0x80 + t) = true := by
    rw [isTail, Bool.and_eq_true, decide_eq_true_eq, decide_eq_true_eq]
    omega
  rw [decodeFrom, if_neg (by rw [htail]; simp), if_pos (Nat.succ_ne_zero owed), Nat.add_sub_cancel_left]

theorem decodeFrom_last (ht : t < 64) (hn : acc * 64 + t = n) (hleast : least ≤ n) (hscalar : isScalar n = true) :
    decodeFrom 1 acc least ((0x80 + t) :: rest) = (decodeFrom 0 0 0 rest).map (Char.ofNat n :: ·) := by
  have htail : isTail (0x80 + t) = true := by
    rw [isTail, Bool.and_eq_true, decide_eq_true_eq, decide_eq_true_eq]
    omega
  rw [decodeFrom, if_neg (by rw [htail]; simp), if_neg (by simp), Nat.add_sub_cancel_left, hn, if_pos]
  rw [Bool.and_eq_true, decide_eq_true_eq]
  exact ⟨hleast, hscalar⟩

theorem isScalar_toNat (c : Char) : isScalar c.toNat = true := by
  have hvalid : c.toNat < 55296 ∨ 57343 < c.toNat ∧ c.toNat < 1114112 := c.valid
  rw [isScalar, Bool.and_eq_true, Bool.not_eq_true', Bool.and_eq_false_iff, decide_eq_true_eq, decide_eq_false_iff_not,
    decide_eq_false_iff_not]
  omega

/-- The bytes of a character are read back as that character. -/
theorem decodeFrom_encodeChar (c : Char) (rest : List Nat) :
    decodeFrom 0 0 0 (encodeChar c ++ rest) = (decodeFrom 0 0 0 rest).map (c :: ·) := by
  have hscalar := isScalar_toNat c
  have hmax : c.toNat ≤ 0x10FFFF := by
    rw [isScalar, Bool.and_eq_true, decide_eq_true_eq] at hscalar
    exact hscalar.1
  have hback : Char.ofNat c.toNat = c := Char.ofNat_toNat c
  unfold encodeChar
  dsimp only
  generalize c.toNat = n at hscalar hmax hback ⊢
  rw [← hback]
  have hlead : ∀ b lo hi : Nat, lo ≤ b → b ≤ hi → (decide (lo ≤ b) && decide (b ≤ hi)) = true := by
    intro b lo hi hlo hhi
    rw [Bool.and_eq_true, decide_eq_true_eq, decide_eq_true_eq]
    exact ⟨hlo, hhi⟩
  have hnot : ∀ b lo hi : Nat, b < lo ∨ hi < b → ¬ (decide (lo ≤ b) && decide (b ≤ hi)) = true := by
    intro b lo hi hout
    rw [Bool.and_eq_true, decide_eq_true_eq, decide_eq_true_eq]
    omega
  by_cases hone : n < 0x80
  · rw [if_pos hone, List.singleton_append, decodeFrom, if_pos hone]
  · rw [if_neg hone]
    by_cases htwo : n < 0x800
    · rw [if_pos htwo, List.cons_append, List.cons_append, List.nil_append, decodeFrom, if_neg (by omega),
        if_pos (hlead _ _ _ (by omega) (by omega)), Nat.add_sub_cancel_left]
      exact decodeFrom_last (by omega) (by omega) (by omega) hscalar
    · rw [if_neg htwo]
      by_cases hthree : n < 0x10000
      · rw [if_pos hthree, List.cons_append, List.cons_append, List.cons_append, List.nil_append, decodeFrom,
          if_neg (by omega), if_neg (hnot _ _ _ (by omega)), if_pos (hlead _ _ _ (by omega) (by omega)),
          Nat.add_sub_cancel_left, decodeFrom_tail (by omega)]
        exact decodeFrom_last (by omega) (by omega) (by omega) hscalar
      · rw [if_neg hthree, List.cons_append, List.cons_append, List.cons_append, List.cons_append, List.nil_append,
          decodeFrom, if_neg (by omega), if_neg (hnot _ _ _ (by omega)), if_neg (hnot _ _ _ (by omega)),
          if_pos (hlead _ _ _ (by omega) (by omega)), Nat.add_sub_cancel_left, decodeFrom_tail (by omega),
          decodeFrom_tail (by omega)]
        exact decodeFrom_last (by omega) (by omega) (by omega) hscalar

/-- UTF-8 is read back as the text it encodes. -/
theorem decodeUtf8_encodeUtf8 (s : Text) : decodeUtf8 (encodeUtf8 s) = some s := by
  unfold decodeUtf8 encodeUtf8
  induction s with
  | nil => rfl
  | cons c s ih => rw [List.flatMap_cons, decodeFrom_encodeChar, ih, Option.map_some]

end Utf8

end Url
