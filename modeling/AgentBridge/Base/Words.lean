import AgentBridge.Base.Text

/-! Texts as words with whitespace between them. -/

namespace Text

def trimStart (s : Text) : Text := s.dropWhile isWhitespace

def splitWhitespace (s : Text) : Option (Text × Text) :=
  match s.dropWhile fun c => !isWhitespace c with
  | [] => none
  | _ :: rest => some (s.takeWhile fun c => !isWhitespace c, rest)

def stripPrefix (start s : Text) : Option Text := if start <+: s then some (s.drop start.length) else none

def equalsIgnoreAsciiCase (s t : Text) : Bool := toAsciiLowercase s == toAsciiLowercase t

def firstWord (s : Text) : Text := s.takeWhile fun c => !isWhitespace c

/-- What follows the first word, trimmed. -/
def afterWord (s : Text) : Text := trim (s.dropWhile fun c => !isWhitespace c)

section Words
variable {s t word rest start : Text}

theorem stripPrefix_eq_some : stripPrefix start s = some rest ↔ s = start ++ rest := by
  unfold stripPrefix
  constructor
  · intro h
    split_ifs at h with hstart
    obtain ⟨tail, rfl⟩ := hstart
    rw [List.drop_left, Option.some.injEq] at h
    rw [h]
  · rintro rfl
    rw [if_pos (List.prefix_append start rest), List.drop_left]

theorem stripPrefix_eq_none : stripPrefix start s = none ↔ ¬ start <+: s := by
  unfold stripPrefix
  split_ifs with h
  · exact iff_of_false (by simp) (not_not.mpr h)
  · exact iff_of_true rfl h

theorem trim_of_whitespace_cons {c : Char} (h : isWhitespace c = true) : trim (c :: s) = trim s := by
  rw [trim, List.dropWhile_cons_of_pos h]
  rfl

theorem isWhitespace_of_dropWhile_cons {c : Char} (h : (s.dropWhile fun c => !isWhitespace c) = c :: rest) :
    isWhitespace c = true := by
  have hne : (s.dropWhile fun c => !isWhitespace c) ≠ [] := by
    rw [h]
    exact List.cons_ne_nil _ _
  have hhead := List.head_dropWhile_not _ hne
  simp only [h, List.head_cons, Bool.not_eq_false'] at hhead
  exact hhead

theorem splitWhitespace_eq_some (h : splitWhitespace s = some (word, rest)) :
    word = firstWord s ∧ trim rest = afterWord s := by
  unfold splitWhitespace at h
  split at h
  · cases h
  · rename_i c tail hdrop
    obtain ⟨rfl, rfl⟩ := Prod.mk.inj (Option.some.inj h)
    refine ⟨rfl, ?_⟩
    rw [afterWord, hdrop, trim_of_whitespace_cons (isWhitespace_of_dropWhile_cons hdrop)]

theorem splitWhitespace_eq_none (h : splitWhitespace s = none) : firstWord s = s ∧ afterWord s = [] := by
  unfold splitWhitespace at h
  split at h
  · rename_i hdrop
    have hsplit := List.takeWhile_append_dropWhile (p := fun c => !isWhitespace c) (l := s)
    rw [hdrop, List.append_nil] at hsplit
    refine ⟨hsplit, ?_⟩
    rw [afterWord, hdrop]
    rfl
  · cases h

theorem firstWord_append (h : ∀ c ∈ start, isWhitespace c = false) (s : Text) :
    firstWord (start ++ s) = start ++ firstWord s := by
  refine List.takeWhile_append_of_pos fun c hc => ?_
  rw [h c hc]
  rfl

theorem afterWord_append (h : ∀ c ∈ start, isWhitespace c = false) (s : Text) :
    afterWord (start ++ s) = afterWord s := by
  unfold afterWord
  rw [List.dropWhile_append_of_pos]
  intro c hc
  rw [h c hc]
  rfl

theorem isPrefix_firstWord (h : ∀ c ∈ start, isWhitespace c = false) : start <+: firstWord s ↔ start <+: s := by
  constructor
  · intro hfirst
    exact hfirst.trans (List.takeWhile_prefix _)
  · rintro ⟨rest, rfl⟩
    rw [firstWord_append h]
    exact List.prefix_append start _

theorem startsClean_of_firstWord (h : firstWord s ≠ []) : StartsClean s := by
  intro c hc
  obtain ⟨tail, rfl⟩ : ∃ tail, s = c :: tail := List.head?_eq_some_iff.mp hc
  by_contra hspace
  rw [Bool.not_eq_false] at hspace
  exact h (List.takeWhile_cons_of_neg (by simp [hspace]))

theorem afterWord_of_firstWord_eq_nil (h : firstWord s = []) : afterWord s = trim s := by
  have hsplit := List.takeWhile_append_dropWhile (p := fun c => !isWhitespace c) (l := s)
  rw [firstWord] at h
  rw [h, List.nil_append] at hsplit
  rw [afterWord, hsplit]

theorem EndsClean.of_suffix (h : EndsClean t) (hs : s <:+ t) : EndsClean s := by
  obtain ⟨lead, rfl⟩ := hs
  intro c hc
  apply h
  rw [List.getLast?_append, Option.mem_def.mp hc]
  rfl

theorem EndsClean.trim_eq (h : EndsClean s) : trim s = trimStart s :=
  endsClean_iff.mp (h.of_suffix (List.dropWhile_suffix _))

end Words
end Text
