import AgentBridge.State.Leases

/-! Scopes of leases over normalised paths. The string test of
`lease_scopes_overlap` decides whether two scopes have a path in common. -/

namespace AgentBridge
open State

/-- Paths as `normalize_file_path` returns them. -/
def NormalizedPath (p : Text) : Prop := ∃ raw, normalizeFilePath raw = .ok p

def components (p : Text) : List Text := p.splitOn '/'

/-- A lease covers its own path; a recursive one also every descendant, component by component. -/
def FileLease.Covers (lease : FileLease) (p : Text) : Prop :=
  components p ∈ Components.scope (components lease.path) lease.recursive

/-- `q` is a proper descendant of `p`. -/
def Below (p q : Text) : Prop := components p <+: components q ∧ components p ≠ components q

theorem components_injective : Function.Injective components := Components.split_injective

theorem pathParts_subset {parts kept : List Text} (h : pathParts parts = .ok kept) : kept ⊆ parts := by
  induction parts generalizing kept with
  | nil =>
    cases h
    exact List.Subset.refl _
  | cons part rest ih =>
    unfold pathParts at h
    split_ifs at h with hskip hup
    · exact List.Subset.trans (ih h) (List.subset_cons_self _ _)
    · cases hr : pathParts rest with
      | error e => rw [hr] at h; cases h
      | ok tail =>
        rw [hr] at h
        cases h
        exact List.cons_subset_cons _ (ih hr)

theorem NormalizedPath.eq_join {p : Text} (h : NormalizedPath p) :
    ∃ parts, parts ≠ [] ∧ Components.SepFree '/' parts ∧ p = Components.join '/' parts := by
  obtain ⟨raw, h⟩ := h
  unfold normalizeFilePath at h
  dsimp only at h
  split_ifs at h
  cases hp : pathParts ((Text.trim raw).splitOn '/') with
  | error e => rw [hp] at h; cases h
  | ok parts =>
    rw [hp] at h
    change (if parts = [] then _ else _) = _ at h
    split_ifs at h with hne
    cases h
    exact ⟨parts, hne, fun q hq => Components.sepFree_split _ q (pathParts_subset hp hq), rfl⟩

theorem slash_prefix_iff {a b : Text} (ha : NormalizedPath a) (hb : NormalizedPath b) :
    (a ++ "/".toList).isPrefixOf b = true ↔ Below a b := by
  obtain ⟨as, hane, hasep, rfl⟩ := ha.eq_join
  obtain ⟨bs, hbne, hbsep, rfl⟩ := hb.eq_join
  rw [List.isPrefixOf_iff_prefix, Below, components, components, Components.split_join hasep hane,
    Components.split_join hbsep hbne]
  exact Components.join_sep_prefix_iff hasep hbsep hane hbne

theorem eq_or_below_iff {a b : Text} {ra : Bool} :
    (b = a ∨ ra = true ∧ Below a b) ↔ components b ∈ Components.scope (components a) ra := by
  constructor
  · rintro (rfl | ⟨hr, hp, -⟩)
    · exact Components.mem_scope_self
    · exact .inr ⟨hr, hp⟩
  · rintro (h | ⟨hr, hp⟩)
    · exact .inl (components_injective h)
    · by_cases he : components a = components b
      · exact .inl (components_injective he).symm
      · exact .inr ⟨hr, hp, he⟩

theorem leaseScopesOverlap_iff_mem {a b : Text} {ra rb : Bool} (ha : NormalizedPath a)
    (hb : NormalizedPath b) :
    leaseScopesOverlap a ra b rb = true ↔
      components b ∈ Components.scope (components a) ra ∨
        components a ∈ Components.scope (components b) rb := by
  rw [← eq_or_below_iff, ← eq_or_below_iff, ← slash_prefix_iff ha hb, ← slash_prefix_iff hb ha]
  simp only [leaseScopesOverlap, Bool.or_eq_true, beq_iff_eq, Bool.and_eq_true]
  tauto

/-- `lease_scopes_overlap` holds exactly when some normalised path is in both scopes. -/
theorem leaseScopesOverlap_iff {a b : Text} {ra rb : Bool} (ha : NormalizedPath a)
    (hb : NormalizedPath b) :
    leaseScopesOverlap a ra b rb = true ↔
      ∃ p, NormalizedPath p ∧ components p ∈ Components.scope (components a) ra ∧
        components p ∈ Components.scope (components b) rb := by
  rw [leaseScopesOverlap_iff_mem ha hb, ← Components.scope_meet_iff
    (N := Set.image components {p | NormalizedPath p}) ⟨a, ha, rfl⟩ ⟨b, hb, rfl⟩]
  constructor
  · rintro ⟨-, ⟨p, hp, rfl⟩, hpa, hpb⟩
    exact ⟨p, hp, hpa, hpb⟩
  · rintro ⟨p, hp, hpa, hpb⟩
    exact ⟨_, ⟨p, hp, rfl⟩, hpa, hpb⟩

/-- A recursive lease on `src` reaches `src/x` and not `src2/x`. -/
example : leaseScopesOverlap "src".toList true "src/x".toList false = true ∧
    leaseScopesOverlap "src".toList true "src2/x".toList false = false := by decide

end AgentBridge
