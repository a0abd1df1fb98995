import Mathlib.Data.List.Infix

/-! Separated lists. Joining separator-free components is injective, and the
prefix relation on component lists is a prefix test on the joined strings. A
scope is a single component list or the whole subtree below it. -/

namespace Components
variable {α : Type*} [DecidableEq α] {sep : α} {as bs : List (List α)}

/-- Components joined by one separator. -/
def join (sep : α) (parts : List (List α)) : List α := [sep].intercalate parts

def SepFree (sep : α) (parts : List (List α)) : Prop := ∀ part ∈ parts, sep ∉ part

theorem split_join (ha : SepFree sep as) (hne : as ≠ []) : (join sep as).splitOn sep = as :=
  List.splitOn_intercalate sep ha hne

theorem join_split (s : List α) : join sep (s.splitOn sep) = s := List.intercalate_splitOn sep

theorem sepFree_split (s : List α) : SepFree sep (s.splitOn sep) := by
  -- a separator opens a new part, any other element joins the first
  induction s with
  | nil =>
    intro part hp
    simp only [List.splitOn_nil, List.mem_singleton] at hp
    simp [hp]
  | cons x s ih =>
    intro part hp
    rw [List.splitOn_cons_eq_if_modifyHead] at hp
    split_ifs at hp with hx
    · rcases List.mem_cons.mp hp with rfl | hp
      · exact List.not_mem_nil
      · exact ih part hp
    · cases hs : s.splitOn sep with
      | nil => exact absurd hs (List.splitOn_ne_nil sep s)
      | cons head rest =>
        rw [hs] at hp ih
        rcases List.mem_cons.mp hp with rfl | hp
        · have hxs : sep ≠ x := fun he => hx (beq_iff_eq.mpr he.symm)
          simpa [hxs] using ih head List.mem_cons_self
        · exact ih part (List.mem_cons_of_mem _ hp)

theorem split_join_append (ha : SepFree sep as) (hne : as ≠ []) (s : List α) :
    (join sep as ++ sep :: s).splitOn sep = as ++ s.splitOn sep := by
  rw [List.splitOn_append_cons_self, split_join ha hne]

theorem join_append (ha : SepFree sep as) (hb : SepFree sep bs) (hane : as ≠ []) (hbne : bs ≠ []) :
    join sep (as ++ bs) = join sep as ++ sep :: join sep bs := by
  have hs : (join sep as ++ sep :: join sep bs).splitOn sep = as ++ bs := by
    rw [split_join_append ha hane, split_join hb hbne]
  rw [← hs, join_split]

theorem split_join_eq_flatMap {parts : List (List α)} (hne : parts ≠ []) :
    (join sep parts).splitOn sep = parts.flatMap (List.splitOn sep) := by
  induction parts with
  | nil => exact absurd rfl hne
  | cons a l ih =>
    cases l with
    | nil =>
      have hone : join sep [a] = a := List.intercalate_singleton
      rw [hone, List.flatMap_singleton]
    | cons b l =>
      have hjoin : join sep (a :: b :: l) = a ++ sep :: join sep (b :: l) := by
        simp [join, List.intercalate_cons_cons]
      rw [hjoin, List.splitOn_append_cons_self, ih (List.cons_ne_nil b l)]
      rfl

/-- `b` starts with `a` followed by the separator exactly when the components of
`a` are a proper prefix of those of `b`. -/
theorem join_sep_prefix_iff (ha : SepFree sep as) (hb : SepFree sep bs)
    (hane : as ≠ []) (hbne : bs ≠ []) :
    join sep as ++ [sep] <+: join sep bs ↔ as <+: bs ∧ as ≠ bs := by
  constructor
  · rintro ⟨s, hs⟩
    have hsplit : as ++ s.splitOn sep = bs := by
      rw [← split_join_append ha hane, ← split_join hb hbne, ← hs]
      simp
    refine ⟨⟨_, hsplit⟩, fun he => List.splitOn_ne_nil sep s ?_⟩
    rw [← he] at hsplit
    simp at hsplit
  · rintro ⟨⟨cs, rfl⟩, hne⟩
    have hcne : cs ≠ [] := by
      rintro rfl
      simp at hne
    refine ⟨join sep cs, ?_⟩
    rw [join_append ha (fun p hp => hb p (List.mem_append_right _ hp)) hane hcne]
    simp

theorem split_injective : Function.Injective (List.splitOn sep : List α → List (List α)) := by
  intro s t h
  have key (s : List α) : join sep (s.splitOn sep) = s := join_split s
  rw [← key s, h, key t]

section Sublists
omit [DecidableEq α]

theorem join_cons_cons (a b : List α) (l : List (List α)) : join sep (a :: b :: l) = a ++ sep :: join sep (b :: l) := by
  simp [join, List.intercalate_cons_cons]

theorem join_sublist {as bs : List (List α)} (h : as.Sublist bs) : (join sep as).Sublist (join sep bs) := by
  induction h with
  | slnil => exact .refl _
  | @cons as bs b h ih =>
    cases bs with
    | nil =>
      rw [List.sublist_nil.mp h]
      exact List.nil_sublist _
    | cons c bs =>
      rw [join_cons_cons]
      exact (ih.cons sep).trans (List.sublist_append_right _ _)
  | @cons_cons as bs b h ih =>
    cases bs with
    | nil =>
      rw [List.sublist_nil.mp h]
    | cons c bs =>
      rw [join_cons_cons]
      cases as with
      | nil =>
        have hone : join sep [b] = b := List.intercalate_singleton
        rw [hone]
        exact List.sublist_append_left _ _
      | cons a as =>
        rw [join_cons_cons]
        exact (List.Sublist.refl b).append (ih.cons_cons sep)

theorem head?_join {a : List α} (ha : a ≠ []) (l : List (List α)) : (join sep (a :: l)).head? = a.head? := by
  cases l with
  | nil => exact congrArg List.head? List.intercalate_singleton
  | cons b l => rw [join_cons_cons, List.head?_append_of_ne_nil _ ha]

theorem getLast?_join {a : List α} (ha : a ≠ []) (l : List (List α)) :
    (join sep (l ++ [a])).getLast? = a.getLast? := by
  induction l with
  | nil => exact congrArg List.getLast? List.intercalate_singleton
  | cons b l ih =>
    have hne : join sep (l ++ [a]) ≠ [] := by
      intro h
      rw [h] at ih
      exact ha (List.getLast?_eq_none_iff.mp ih.symm)
    obtain ⟨c, l', hl⟩ : ∃ c l', l ++ [a] = c :: l' := List.exists_cons_of_ne_nil (by simp)
    rw [List.cons_append, hl, join_cons_cons, ← hl, List.getLast?_append_of_ne_nil _ (by simp),
      List.getLast?_cons_of_ne_nil hne, ih]

end Sublists

section Scope
variable {β : Type*} {a b p : List β} {ra rb : Bool}

/-- What a claim on `root` covers: `root` itself, or all of its subtree. -/
def scope (root : List β) (recursive : Bool) : Set (List β) :=
  {p | p = root ∨ recursive = true ∧ root <+: p}

theorem mem_scope_self : a ∈ scope a ra := .inl rfl

/-- Two scopes meet within any set that contains both roots exactly when one
root lies in the other's scope. -/
theorem scope_meet_iff {N : Set (List β)} (ha : a ∈ N) (hb : b ∈ N) :
    (∃ p ∈ N, p ∈ scope a ra ∧ p ∈ scope b rb) ↔ b ∈ scope a ra ∨ a ∈ scope b rb := by
  constructor
  · rintro ⟨p, -, hpa | ⟨hra, hpa⟩, hpb | ⟨hrb, hpb⟩⟩
    · exact .inl (.inl (hpb.symm.trans hpa))
    · exact .inr (.inr ⟨hrb, hpa ▸ hpb⟩)
    · exact .inl (.inr ⟨hra, hpb ▸ hpa⟩)
    · rcases List.prefix_or_prefix_of_prefix hpa hpb with h | h
      · exact .inl (.inr ⟨hra, h⟩)
      · exact .inr (.inr ⟨hrb, h⟩)
  · rintro (h | h)
    · exact ⟨b, hb, h, mem_scope_self⟩
    · exact ⟨a, ha, mem_scope_self, h⟩

end Scope
end Components
