import Mathlib.Data.List.Sort

/-! Sets kept as ordered lists without repetition, as an ordered set iterates. -/

structure KeySet (α : Type*) where
  keys : List α
  nodup : keys.Nodup

namespace KeySet
variable {α : Type*} [DecidableEq α] [LE α] [DecidableLE α] {s t : KeySet α} {a b : α}

instance : DecidableEq (KeySet α) := fun s t =>
  decidable_of_iff (s.keys = t.keys) ⟨fun h => by cases s; cases t; cases h; rfl, congrArg keys⟩

instance : Membership α (KeySet α) := ⟨fun s a => a ∈ s.keys⟩

instance (s : KeySet α) (a : α) : Decidable (a ∈ s) := inferInstanceAs (Decidable (a ∈ s.keys))

def empty : KeySet α := ⟨[], List.nodup_nil⟩

def insert (a : α) (s : KeySet α) : KeySet α :=
  if h : a ∈ s.keys then s
  else ⟨s.keys.orderedInsert (· ≤ ·) a,
    (s.keys.perm_orderedInsert (· ≤ ·) a).nodup_iff.mpr (List.nodup_cons.mpr ⟨h, s.nodup⟩)⟩

def size (s : KeySet α) : Nat := s.keys.length

def difference (s t : KeySet α) : List α := s.keys.filter (· ∉ t)

/-- Equality of sets, by inclusion both ways. -/
def SameKeys (s t : KeySet α) : Prop := s.difference t = [] ∧ t.difference s = []

instance (s t : KeySet α) : Decidable (SameKeys s t) := inferInstanceAs (Decidable (_ ∧ _))

def ofList (l : List α) : KeySet α := l.foldl (fun s a => s.insert a) empty

omit [DecidableEq α] [LE α] [DecidableLE α] in
theorem not_mem_empty : a ∉ (empty : KeySet α) := List.not_mem_nil

@[simp] theorem mem_insert : b ∈ s.insert a ↔ b = a ∨ b ∈ s := by
  unfold insert
  split_ifs with h
  · exact ⟨.inr, fun hb => hb.elim (fun he => he ▸ h) id⟩
  · exact List.mem_orderedInsert _

omit [LE α] [DecidableLE α] in
theorem difference_eq_nil : s.difference t = [] ↔ ∀ a ∈ s, a ∈ t := by
  simp only [difference, List.filter_eq_nil_iff, decide_eq_true_eq, not_not]
  rfl

omit [LE α] [DecidableLE α] in
theorem sameKeys_iff : SameKeys s t ↔ ∀ a, a ∈ s ↔ a ∈ t := by
  unfold SameKeys
  rw [difference_eq_nil, difference_eq_nil]
  exact ⟨fun h a => ⟨h.1 a, h.2 a⟩, fun h => ⟨fun a => (h a).mp, fun a => (h a).mpr⟩⟩

theorem mem_foldl_insert {l : List α} : b ∈ l.foldl (fun s a => s.insert a) s ↔ b ∈ s ∨ b ∈ l := by
  induction l generalizing s with
  | nil => simp
  | cons a l ih =>
    rw [List.foldl_cons, ih, mem_insert, List.mem_cons]
    tauto

@[simp] theorem mem_ofList {l : List α} : b ∈ ofList l ↔ b ∈ l := by
  rw [ofList, mem_foldl_insert]
  exact or_iff_right not_mem_empty

omit [DecidableEq α] [DecidableLE α] in
theorem eq_of_sorted [Std.Antisymm fun a b : α => a ≤ b] (hs : s.keys.Pairwise (· ≤ ·))
    (ht : t.keys.Pairwise (· ≤ ·)) (h : ∀ a, a ∈ s ↔ a ∈ t) : s = t := by
  have hperm : s.keys.Perm t.keys := (List.perm_ext_iff_of_nodup s.nodup t.nodup).mpr h
  have hkeys : s.keys = t.keys := hperm.eq_of_pairwise (fun _ _ _ _ => Std.Antisymm.antisymm _ _) hs ht
  cases s
  cases t
  congr

section Sorted
variable [Std.Total fun a b : α => a ≤ b] [IsTrans α (· ≤ ·)]

theorem sorted_insert {s : KeySet α} (hs : s.keys.Pairwise (· ≤ ·)) (a : α) :
    (s.insert a).keys.Pairwise (· ≤ ·) := by
  unfold insert
  split_ifs
  · exact hs
  · exact hs.orderedInsert a s.keys

theorem sorted_foldl_insert {s : KeySet α} (hs : s.keys.Pairwise (· ≤ ·)) (l : List α) :
    (l.foldl (fun s a => s.insert a) s).keys.Pairwise (· ≤ ·) := by
  induction l generalizing s with
  | nil => exact hs
  | cons a l ih => exact ih (sorted_insert hs a)

theorem keys_ofList_eq [Std.Antisymm fun a b : α => a ≤ b] {l l' : List α} (h : ∀ a, a ∈ l ↔ a ∈ l') :
    (ofList l).keys = (ofList l').keys := by
  refine congrArg keys (eq_of_sorted (sorted_foldl_insert List.Pairwise.nil l)
    (sorted_foldl_insert List.Pairwise.nil l') ?_)
  intro a
  exact mem_ofList.trans ((h a).trans mem_ofList.symm)

end Sorted

end KeySet
