import Mathlib.Data.List.Basic

/-! Readers of a log that only grows. A reader is first given the end of what is kept of the log so far, and then what
comes, entry after entry; it may be told that entries were left out. -/

/-- Where a reader came in: the position, and what it was given of the entries before it. -/
structure Feed.Origin (α : Type*) where
  start : Nat
  replayed : List α

/-- What a reader at a position of the log was told. Of the entries before its start it was given the last ones that are
kept, and from there on all entries, or some of them where there are gaps. -/
def Feed {α : Type*} (kept : α → Bool) (log : List α) (origin : Feed.Origin α) (position : Nat) (gaps : Bool)
    (told : List α) : Prop :=
  ∃ live, told = origin.replayed ++ live ∧ origin.start ≤ position ∧ position ≤ log.length ∧
    origin.replayed <:+ (log.take origin.start).filter kept ∧
    List.Sublist live ((log.take position).drop origin.start) ∧
    (gaps = false → live = (log.take position).drop origin.start)

/-! Lists whose entries are numbered one after another. -/

section Numbered
variable {α : Type*} {number : α → Nat} {l : List α} {a : Nat}

theorem numbered_drop (h : l.map number = List.range' a l.length) (n : Nat) :
    (l.drop n).map number = List.range' (a + n) (l.drop n).length := by
  rw [List.map_drop, h, List.drop_range', List.length_drop, Nat.mul_one]

theorem numbered_infix {l' : List α} (h : l.map number = List.range' a l.length) (hl : l' <:+: l) :
    ∃ first, l'.map number = List.range' first l'.length := by
  obtain ⟨before, after, rfl⟩ := hl
  have htail := numbered_drop h before.length
  rw [List.append_assoc, List.drop_left, List.map_append, List.length_append, ← List.range'_append_1] at htail
  exact ⟨_, (List.append_inj htail (by simp)).1⟩

theorem filter_above (h : l.map number = List.range' a l.length) (n : Nat) :
    l.filter (fun x => n < number x) = l.drop (n + 1 - a) := by
  -- the numbers run on from `a`, so a filter by number is a drop
  induction l generalizing a with
  | nil => simp
  | cons x l ih =>
    rw [List.map_cons, List.length_cons, List.range'_succ, List.cons.injEq] at h
    obtain ⟨hx, hl⟩ := h
    by_cases hn : n < number x
    · have hnone : n + 1 - a = 0 := by omega
      have hall : l.filter (fun x => n < number x) = l := by
        rw [ih hl, show n + 1 - (a + 1) = 0 by omega, List.drop_zero]
      rw [List.filter_cons_of_pos (by simpa using hn), hall, hnone, List.drop_zero]
    · rw [List.filter_cons_of_neg (by simpa using hn), ih hl, show n + 1 - a = (n + 1 - (a + 1)) + 1 by omega,
        List.drop_succ_cons]

theorem filter_upto (h : l.map number = List.range' a l.length) (n : Nat) :
    l.filter (fun x => number x ≤ n) = l.take (n + 1 - a) := by
  induction l generalizing a with
  | nil => simp
  | cons x l ih =>
    rw [List.map_cons, List.length_cons, List.range'_succ, List.cons.injEq] at h
    obtain ⟨hx, hl⟩ := h
    by_cases hn : number x ≤ n
    · rw [List.filter_cons_of_pos (by simpa using hn), ih hl, show n + 1 - a = (n + 1 - (a + 1)) + 1 by omega,
        List.take_succ_cons]
    · rw [List.filter_cons_of_neg (by simpa using hn), ih hl, show n + 1 - a = 0 by omega,
        show n + 1 - (a + 1) = 0 by omega, List.take_zero, List.take_zero]

end Numbered

namespace Feed
variable {α : Type*} {kept : α → Bool} {log log' : List α} {origin : Origin α} {position n : Nat} {gaps : Bool}
  {told replayed : List α} {e : α}

theorem start (hposition : position ≤ log.length) (h : replayed <:+ (log.take position).filter kept) :
    Feed kept log ⟨position, replayed⟩ position gaps replayed := by
  have hnone : (log.take position).drop position = [] := by simp
  refine ⟨[], by simp, Nat.le_refl _, hposition, h, ?_, ?_⟩
  · exact List.nil_sublist _
  · exact fun _ => hnone.symm

theorem position_le (h : Feed kept log origin position gaps told) : position ≤ log.length := by
  obtain ⟨-, -, -, hposition, -⟩ := h
  exact hposition

theorem whole (h : Feed kept log origin position gaps told) (hgaps : gaps = false) :
    told = origin.replayed ++ (log.take position).drop origin.start := by
  obtain ⟨live, htold, -, -, -, -, hall⟩ := h
  rw [htold, hall hgaps]

/-- What was told stays as it is when the log grows. -/
theorem grow (h : Feed kept log origin position gaps told) (hlog : log <+: log') :
    Feed kept log' origin position gaps told := by
  obtain ⟨live, htold, hstart, hposition, hreplayed, hlive, hall⟩ := h
  have htake {m : Nat} (hm : m ≤ log.length) : log'.take m = log.take m := by
    obtain ⟨rest, rfl⟩ := hlog
    exact List.take_append_of_le_length hm
  refine ⟨live, htold, hstart, Nat.le_trans hposition hlog.length_le, ?_, ?_, ?_⟩
  · rwa [htake (Nat.le_trans hstart hposition)]
  · rwa [htake hposition]
  · rwa [htake hposition]

theorem next (h : Feed kept log origin position gaps told) (he : log[position]? = some e) :
    Feed kept log origin (position + 1) gaps (told ++ [e]) := by
  obtain ⟨live, rfl, hstart, hposition, hreplayed, hlive, hall⟩ := h
  obtain ⟨hlt, hget⟩ := List.getElem?_eq_some_iff.mp he
  have htake : (log.take (position + 1)).drop origin.start = (log.take position).drop origin.start ++ [e] := by
    rw [List.take_add_one, he, Option.toList_some, List.drop_append_of_le_length]
    rwa [List.length_take_of_le hposition]
  refine ⟨live ++ [e], by simp, Nat.le_succ_of_le hstart, hlt, hreplayed, ?_, fun hgaps => ?_⟩
  · rw [htake]
    exact hlive.append_right [e]
  · rw [htake, hall hgaps]

theorem skip (h : Feed kept log origin position gaps told) (hn : position + n ≤ log.length) :
    Feed kept log origin (position + n) true told := by
  obtain ⟨live, rfl, hstart, hposition, hreplayed, hlive, -⟩ := h
  refine ⟨live, rfl, Nat.le_add_right_of_le hstart, hn, hreplayed, hlive.trans ?_, nofun⟩
  exact ((List.take_prefix_take_left (Nat.le_add_right _ _)).sublist).drop origin.start

theorem told_kept (h : Feed kept log origin position gaps told) :
    List.Sublist (told.filter kept) ((log.take position).filter kept) ∧
    (gaps = false → told.filter kept <:+ (log.take position).filter kept) := by
  obtain ⟨live, rfl, hstart, hposition, hreplayed, hlive, hall⟩ := h
  have hsplit : (log.take position).filter kept =
      (log.take origin.start).filter kept ++ ((log.take position).drop origin.start).filter kept := by
    rw [← List.filter_append]
    congr 1
    conv_lhs => rw [← List.take_append_drop origin.start (log.take position), List.take_take, Nat.min_eq_left hstart]
  have hsame : origin.replayed.filter kept = origin.replayed := by
    rw [List.filter_eq_self]
    exact fun a ha => (List.mem_filter.mp (hreplayed.subset ha)).2
  rw [List.filter_append, hsame, hsplit]
  refine ⟨hreplayed.sublist.append (hlive.filter kept), fun hgaps => ?_⟩
  obtain ⟨earlier, hearlier⟩ := hreplayed
  rw [hall hgaps]
  exact ⟨earlier, by rw [← hearlier, List.append_assoc]⟩

end Feed
