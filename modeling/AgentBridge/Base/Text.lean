import Mathlib.Algebra.Order.Ring.Nat
import Mathlib.Data.Char
import Mathlib.Data.List.DropRight
import Mathlib.Data.List.Infix
import Mathlib.Data.List.Lex

/-! Text as a sequence of Unicode scalar values, with the string operations of
the Rust standard library that inspect characters, bytes and separators. -/

abbrev Text := List Char

namespace Text

/-- One proof for all decisions whether a text is in a list. -/
instance : LawfulBEq Text := inferInstance

/-- The `White_Space` property. -/
def isWhitespace (c : Char) : Bool :=
  let n := c.toNat
  (0x09 ≤ n && n ≤ 0x0D) || n == 0x20 || n == 0x85 || n == 0xA0 || n == 0x1680 ||
    (0x2000 ≤ n && n ≤ 0x200A) || n == 0x2028 || n == 0x2029 || n == 0x202F ||
    n == 0x205F || n == 0x3000

/-- The general category `Cc`. -/
def isControl (c : Char) : Bool := c.toNat < 0x20 || (0x7F ≤ c.toNat && c.toNat ≤ 0x9F)

def isAsciiAlphanumeric (c : Char) : Bool :=
  ('0' ≤ c && c ≤ '9') || ('A' ≤ c && c ≤ 'Z') || ('a' ≤ c && c ≤ 'z')

def trim (s : Text) : Text := (s.dropWhile isWhitespace).rdropWhile isWhitespace

def trimEndMatches (c : Char) (s : Text) : Text := s.rdropWhile (· == c)

def trimMatches (c : Char) (s : Text) : Text := (s.dropWhile (· == c)).rdropWhile (· == c)

/-- Length of the UTF-8 encoding. -/
def byteLen (s : Text) : Nat := (s.map Char.utf8Size).sum

def toAsciiLowercase (s : Text) : Text := s.map Char.toLower

def decimal (n : Nat) : Text := Nat.toDigits 10 n

/-- The longest prefix of whole characters that takes at most `max` bytes. -/
def truncateBytes (max : Nat) : Text → Text
  | [] => []
  | c :: s => if c.utf8Size ≤ max then c :: truncateBytes (max - c.utf8Size) s else []

def splitOnce (c : Char) (s : Text) : Option (Text × Text) :=
  if c ∈ s then some (s.takeWhile (· ≠ c), (s.dropWhile (· ≠ c)).tail) else none

/-- Text of at least one byte, at most `max` bytes, and free of control characters. -/
def printable (max : Nat) (s : Text) : Bool :=
  !s.isEmpty && byteLen s ≤ max && !s.any isControl

@[simp] theorem byteLen_nil : byteLen [] = 0 := rfl

@[simp] theorem byteLen_cons (c : Char) (s : Text) :
    byteLen (c :: s) = c.utf8Size + byteLen s := by
  simp [byteLen]

@[simp] theorem byteLen_append (s t : Text) : byteLen (s ++ t) = byteLen s + byteLen t := by
  simp [byteLen]

theorem truncateBytes_of_le {s : Text} {max : Nat} (h : byteLen s ≤ max) :
    truncateBytes max s = s := by
  induction s generalizing max with
  | nil => rfl
  | cons c s ih =>
    rw [byteLen_cons] at h
    rw [truncateBytes, if_pos (by omega), ih (by omega)]

theorem byteLen_le (s : Text) : byteLen s ≤ 4 * s.length := by
  induction s with
  | nil => exact Nat.zero_le _
  | cons c s ih =>
    have hc := c.utf8Size_le_four
    rw [byteLen_cons, List.length_cons]
    omega

theorem length_le_byteLen (s : Text) : s.length ≤ byteLen s := by
  induction s with
  | nil => exact Nat.le_refl _
  | cons c s ih =>
    have hc := c.utf8Size_pos
    rw [byteLen_cons, List.length_cons]
    omega

theorem byteLen_le_of_isPrefix {s t : Text} (h : s <+: t) : byteLen s ≤ byteLen t := by
  obtain ⟨rest, rfl⟩ := h
  rw [byteLen_append]
  exact Nat.le_add_right _ _

theorem truncateBytes_isPrefix (max : Nat) (s : Text) : truncateBytes max s <+: s := by
  induction s generalizing max with
  | nil => exact List.prefix_refl _
  | cons c s ih =>
    rw [truncateBytes]
    by_cases hc : c.utf8Size ≤ max
    · rw [if_pos hc]
      exact (List.prefix_cons_inj c).mpr (ih _)
    · rw [if_neg hc]
      exact List.nil_prefix

theorem byteLen_truncateBytes (max : Nat) (s : Text) : byteLen (truncateBytes max s) ≤ max := by
  induction s generalizing max with
  | nil => exact Nat.zero_le _
  | cons c s ih =>
    rw [truncateBytes]
    by_cases hc : c.utf8Size ≤ max
    · have hrest := ih (max - c.utf8Size)
      rw [if_pos hc, byteLen_cons]
      omega
    · rw [if_neg hc]
      exact Nat.zero_le _

theorem truncateBytes_truncateBytes {m n : Nat} (h : m ≤ n) (s : Text) :
    truncateBytes m (truncateBytes n s) = truncateBytes m s := by
  induction s generalizing m n with
  | nil => rfl
  | cons c s ih =>
    rw [truncateBytes, truncateBytes]
    by_cases hn : c.utf8Size ≤ n
    · rw [if_pos hn, truncateBytes]
      by_cases hm : c.utf8Size ≤ m
      · rw [if_pos hm, if_pos hm, ih (by omega)]
      · rw [if_neg hm, if_neg hm]
    · rw [if_neg hn, if_neg (by omega), truncateBytes]

theorem prefix_truncateBytes {p s : Text} {max : Nat} (h : p <+: s) (hfits : byteLen p ≤ max) :
    p <+: truncateBytes max s := by
  induction p generalizing s max with
  | nil => exact List.nil_prefix
  | cons c p ih =>
    obtain ⟨rest, rfl⟩ := h
    rw [byteLen_cons] at hfits
    rw [List.cons_append, truncateBytes, if_pos (by omega)]
    exact (List.prefix_cons_inj c).mpr (ih (List.prefix_append _ _) (by omega))

theorem decimal_injective : Function.Injective decimal := by
  intro m n h
  have key (k : Nat) : Nat.ofDigitChars 10 (decimal k) 0 = k :=
    Nat.ofDigitChars_toDigits (by decide) (by decide)
  rw [← key m, h, key n]

theorem isDigit_of_mem_decimal {n : Nat} {c : Char} (h : c ∈ decimal n) : c.isDigit = true :=
  Nat.isDigit_of_mem_toDigits (by decide) (by decide) h

theorem isWhitespace_of_isDigit {c : Char} (h : c.isDigit = true) : isWhitespace c = false := by
  have hc : 48 ≤ c.toNat ∧ c.toNat ≤ 57 := Char.isDigit_iff_toNat.mp h
  simp only [isWhitespace, Bool.or_eq_false_iff, Bool.and_eq_false_iff, decide_eq_false_iff_not,
    beq_eq_false_iff_ne]
  omega

theorem isAsciiAlphanumeric_iff {c : Char} : isAsciiAlphanumeric c = true ↔
    (48 ≤ c.toNat ∧ c.toNat ≤ 57) ∨ (65 ≤ c.toNat ∧ c.toNat ≤ 90) ∨ (97 ≤ c.toNat ∧ c.toNat ≤ 122) := by
  simp only [isAsciiAlphanumeric, Bool.or_eq_true, Bool.and_eq_true, decide_eq_true_eq, Char.le_def,
    UInt32.le_iff_toNat_le]
  exact or_assoc

theorem spaceless_of_all {s : Text} (h : s.all (fun c => !isWhitespace c) = true) :
    ∀ c ∈ s, isWhitespace c = false := by
  intro c hc
  simpa using List.all_eq_true.mp h c hc

theorem spaceless_append_decimal {s : Text} (h : ∀ c ∈ s, isWhitespace c = false) (n : Nat) :
    ∀ c ∈ s ++ decimal n, isWhitespace c = false := by
  intro c hc
  rcases List.mem_append.mp hc with hc | hc
  · exact h c hc
  · exact isWhitespace_of_isDigit (isDigit_of_mem_decimal hc)

/-- Text without white space at its ends is left as it is. -/
theorem trim_eq_self {s : Text} (h : ∀ c ∈ s, isWhitespace c = false) : trim s = s := by
  have hdrop : s.dropWhile isWhitespace = s := by
    rw [List.dropWhile_eq_self_iff]
    intro hl
    simp [h _ (List.getElem_mem hl)]
  rw [trim, hdrop, List.rdropWhile_eq_self_iff]
  intro hne
  simp [h _ (List.getLast_mem hne)]

theorem dropWhile_trim (s : Text) : (trim s).dropWhile isWhitespace = trim s := by
  have hp : trim s <+: s.dropWhile isWhitespace := List.rdropWhile_prefix _ _
  rw [List.dropWhile_eq_self_iff]
  intro hl
  rw [hp.getElem hl]
  exact List.dropWhile_get_zero_not _ _ (hl.trans_le hp.length_le)

@[simp] theorem trim_trim (s : Text) : trim (trim s) = trim s := by
  change ((trim s).dropWhile isWhitespace).rdropWhile isWhitespace = trim s
  rw [dropWhile_trim]
  exact List.rdropWhile_idempotent _ _

def StartsClean (s : Text) : Prop := ∀ c ∈ s.head?, isWhitespace c = false

def EndsClean (s : Text) : Prop := ∀ c ∈ s.getLast?, isWhitespace c = false

theorem trim_infix (s : Text) : trim s <:+: s :=
  (List.rdropWhile_prefix _ _).isInfix.trans (List.dropWhile_suffix _).isInfix

theorem startsClean_iff {s : Text} : StartsClean s ↔ s.dropWhile isWhitespace = s := by
  unfold StartsClean
  cases s with
  | nil => simp
  | cons c s => simp [List.dropWhile_eq_self_iff]

theorem endsClean_iff {s : Text} : EndsClean s ↔ s.rdropWhile isWhitespace = s := by
  unfold EndsClean
  rcases List.eq_nil_or_concat' s with rfl | ⟨s, c, rfl⟩
  · simp
  · simp [List.rdropWhile_eq_self_iff]

theorem trim_eq_self_iff {s : Text} : trim s = s ↔ StartsClean s ∧ EndsClean s := by
  rw [startsClean_iff, endsClean_iff]
  constructor
  · intro h
    have hstart : s.dropWhile isWhitespace = s := by
      refine (List.dropWhile_suffix _).eq_of_length (le_antisymm (List.dropWhile_suffix _).length_le ?_)
      calc s.length = (trim s).length := by rw [h]
        _ ≤ (s.dropWhile isWhitespace).length := (List.rdropWhile_prefix _ _).length_le
    rw [trim, hstart] at h
    exact ⟨hstart, h⟩
  · rintro ⟨hstart, hend⟩
    rw [trim, hstart, hend]

theorem byteLen_sublist {s t : Text} (h : s.Sublist t) : byteLen s ≤ byteLen t := by
  induction h with
  | slnil => exact le_rfl
  | cons c h ih =>
    rw [byteLen_cons]
    exact ih.trans (Nat.le_add_left _ _)
  | cons_cons c h ih =>
    rw [byteLen_cons, byteLen_cons]
    exact Nat.add_le_add_left ih _

theorem prefix_trim {p s : Text} (hp : ∀ c ∈ p, isWhitespace c = false) (h : p <+: s) : p <+: trim s := by
  obtain ⟨r, rfl⟩ := h
  cases p with
  | nil => exact List.nil_prefix
  | cons c p =>
    have hstart : (c :: p ++ r).dropWhile isWhitespace = c :: p ++ r := by
      simp [hp c List.mem_cons_self]
    have hself : (c :: p).reverse.dropWhile isWhitespace = (c :: p).reverse := by
      rw [List.dropWhile_eq_self_iff]
      intro hl
      simpa using hp _ (List.mem_reverse.mp (List.getElem_mem hl))
    rw [trim, hstart, List.rdropWhile, List.reverse_append, List.dropWhile_append, hself]
    split_ifs
    · rw [List.reverse_reverse]
    · rw [List.reverse_append, List.reverse_reverse]
      exact List.prefix_append _ _

theorem rdropWhile_append_whitespace {s trail : Text} (h : ∀ c ∈ trail, isWhitespace c = true) :
    (s ++ trail).rdropWhile isWhitespace = s.rdropWhile isWhitespace := by
  have hdrop : trail.reverse.dropWhile isWhitespace = [] := by
    rw [List.dropWhile_eq_nil_iff]
    intro c hc
    exact h c (List.mem_reverse.mp hc)
  rw [List.rdropWhile, List.reverse_append, List.dropWhile_append, hdrop]
  rfl

theorem trim_eq_dropWhile (s : Text) : trim s = (s.rdropWhile isWhitespace).dropWhile isWhitespace := by
  have htrail : ∀ c ∈ s.rtakeWhile isWhitespace, isWhitespace c = true := fun c hc => List.mem_rtakeWhile_imp hc
  have hsplit : s.rdropWhile isWhitespace ++ s.rtakeWhile isWhitespace = s := List.rdropWhile_append_rtakeWhile ..
  have hlast := List.rdropWhile_last_not isWhitespace s
  generalize s.rdropWhile isWhitespace = core at hsplit hlast ⊢
  generalize s.rtakeWhile isWhitespace = trail at hsplit htrail
  rw [trim, ← hsplit, List.dropWhile_append]
  cases hcore : core.dropWhile isWhitespace with
  | nil =>
    have hnil : trail.dropWhile isWhitespace = [] := List.dropWhile_eq_nil_iff.mpr htrail
    rw [hnil]
    rfl
  | cons c rest =>
    have hsuffix : c :: rest <:+ core := hcore ▸ List.dropWhile_suffix _
    have hne : core ≠ [] := by
      rintro rfl
      cases hcore
    have hend : (c :: rest).getLast (List.cons_ne_nil _ _) = core.getLast hne := hsuffix.getLast _
    simp only [List.isEmpty_cons, Bool.false_eq_true, if_false]
    rw [rdropWhile_append_whitespace htrail, List.rdropWhile_eq_self_iff]
    intro _
    rw [hend]
    exact hlast hne

theorem trim_truncateBytes {s : Text} {max : Nat} (h : byteLen (s.rdropWhile isWhitespace) ≤ max) :
    trim (truncateBytes max s) = trim s := by
  have hcore : s.rdropWhile isWhitespace <+: truncateBytes max s :=
    prefix_truncateBytes (List.rdropWhile_prefix _ _) h
  have hsplit : s.rdropWhile isWhitespace ++ s.rtakeWhile isWhitespace = s := List.rdropWhile_append_rtakeWhile ..
  obtain ⟨kept, hkept⟩ := hcore
  have hws : ∀ c ∈ kept, isWhitespace c = true := by
    intro c hc
    have hpre : s.rdropWhile isWhitespace ++ kept <+: s.rdropWhile isWhitespace ++ s.rtakeWhile isWhitespace := by
      rw [hkept, hsplit]
      exact truncateBytes_isPrefix _ _
    exact List.mem_rtakeWhile_imp (((List.prefix_append_right_inj _).mp hpre).subset hc)
  rw [trim_eq_dropWhile, trim_eq_dropWhile s, ← hkept, rdropWhile_append_whitespace hws,
    List.rdropWhile_idempotent]

theorem length_trim_truncateBytes {s : Text} {max : Nat} (h : max < byteLen (s.rdropWhile isWhitespace)) :
    (trim (truncateBytes max s)).length < (trim s).length := by
  have hcore : truncateBytes max s <+: s.rdropWhile isWhitespace := by
    rcases List.prefix_or_prefix_of_prefix (truncateBytes_isPrefix max s) (List.rdropWhile_prefix isWhitespace s)
      with hcut | hkept
    · exact hcut
    · have hfits := (byteLen_le_of_isPrefix hkept).trans (byteLen_truncateBytes max s)
      omega
  obtain ⟨rest, hrest⟩ := hcore
  have hlast := List.rdropWhile_last_not isWhitespace s
  have hne : rest ≠ [] := by
    rintro rfl
    have hfits := byteLen_truncateBytes max s
    rw [List.append_nil] at hrest
    rw [← hrest] at h
    omega
  have hcut : (trim (truncateBytes max s)).length ≤ ((truncateBytes max s).dropWhile isWhitespace).length :=
    (List.rdropWhile_prefix _ _).length_le
  rw [trim_eq_dropWhile s, ← hrest, List.dropWhile_append]
  rw [← hrest] at hlast
  cases hdrop : (truncateBytes max s).dropWhile isWhitespace with
  | nil =>
    rw [hdrop] at hcut
    have hkept : rest.dropWhile isWhitespace ≠ [] := by
      intro hall
      have hend := List.dropWhile_eq_nil_iff.mp hall _ (List.getLast_mem hne)
      have hnot := hlast (List.append_ne_nil_of_right_ne_nil _ hne)
      rw [List.getLast_append_of_ne_nil _ hne] at hnot
      exact hnot hend
    have hpos := List.length_pos_iff.mpr hkept
    simp only [List.isEmpty_nil, if_true]
    rw [List.length_nil] at hcut
    omega
  | cons c kept =>
    rw [hdrop] at hcut
    have hpos := List.length_pos_iff.mpr hne
    simp only [List.isEmpty_cons, Bool.false_eq_true, if_false]
    rw [List.length_append]
    omega

theorem toLower_of_not_upper {c : Char} (h : ¬ (65 ≤ c.toNat ∧ c.toNat ≤ 90)) : c.toLower = c := by
  unfold Char.toLower
  rw [dif_neg]
  simp only [ge_iff_le, UInt32.le_iff_toNat_le]
  exact h

theorem toNat_toLower {c : Char} (h : 65 ≤ c.toNat ∧ c.toNat ≤ 90) : c.toLower.toNat = c.toNat + 32 := by
  have hword : c.toLower.toNat = (c.val.toNat + 32) % 2 ^ 32 := by
    unfold Char.toLower
    rw [dif_pos]
    · exact UInt32.toNat_add c.val 32
    · simp only [ge_iff_le, UInt32.le_iff_toNat_le]
      exact h
  change 65 ≤ c.val.toNat ∧ c.val.toNat ≤ 90 at h
  change c.toLower.toNat = c.val.toNat + 32
  omega

theorem not_upper_toLower (c : Char) : ¬ (65 ≤ c.toLower.toNat ∧ c.toLower.toNat ≤ 90) := by
  by_cases hupper : 65 ≤ c.toNat ∧ c.toNat ≤ 90
  · rw [toNat_toLower hupper]
    omega
  · rw [toLower_of_not_upper hupper]
    exact hupper

@[simp] theorem toAsciiLowercase_toAsciiLowercase (s : Text) :
    toAsciiLowercase (toAsciiLowercase s) = toAsciiLowercase s := by
  rw [toAsciiLowercase, toAsciiLowercase, List.map_map]
  exact List.map_congr_left fun c _ => toLower_of_not_upper (not_upper_toLower c)

theorem isWhitespace_toLower (c : Char) : isWhitespace c.toLower = isWhitespace c := by
  by_cases hupper : 65 ≤ c.toNat ∧ c.toNat ≤ 90
  · have hlower := toNat_toLower hupper
    have hword : ∀ d : Char, 65 ≤ d.toNat ∧ d.toNat ≤ 122 → isWhitespace d = false := by
      intro d hd
      simp only [isWhitespace, Bool.or_eq_false_iff, Bool.and_eq_false_iff, decide_eq_false_iff_not,
        beq_eq_false_iff_ne]
      omega
    rw [hword c (by omega), hword c.toLower (by omega)]
  · rw [toLower_of_not_upper hupper]

theorem trim_toAsciiLowercase (s : Text) : trim (toAsciiLowercase s) = toAsciiLowercase (trim s) := by
  have hcomp : isWhitespace ∘ Char.toLower = isWhitespace := funext isWhitespace_toLower
  simp only [trim, toAsciiLowercase, List.rdropWhile, List.dropWhile_map, ← List.map_reverse, hcomp]

theorem splitOnce_eq_some {c : Char} {s a b : Text} : splitOnce c s = some (a, b) ↔ s = a ++ c :: b ∧ c ∉ a := by
  unfold splitOnce
  constructor
  · intro h
    split_ifs at h with hc
    obtain ⟨rfl, rfl⟩ := Prod.mk.inj (Option.some.inj h)
    have hne : s.dropWhile (· ≠ c) ≠ [] := by
      intro hnil
      have hall := List.dropWhile_eq_nil_iff.mp hnil c hc
      simp at hall
    have hhead : (s.dropWhile (· ≠ c)).head hne = c := by
      have hnot := List.head_dropWhile_not (· ≠ c) hne
      simpa using hnot
    refine ⟨?_, ?_⟩
    · calc s = s.takeWhile (· ≠ c) ++ s.dropWhile (· ≠ c) := (List.takeWhile_append_dropWhile ..).symm
        _ = _ := by rw [← List.cons_head_tail hne, hhead, List.tail_cons]
    · intro hmem
      have hkept := List.mem_takeWhile_imp hmem
      simp at hkept
  · rintro ⟨rfl, hc⟩
    have hall : ∀ d ∈ a, (decide (d ≠ c)) = true := by
      intro d hd
      apply decide_eq_true
      rintro rfl
      exact hc hd
    rw [if_pos (by simp), List.takeWhile_append_of_pos hall, List.dropWhile_append_of_pos hall]
    simp

end Text
