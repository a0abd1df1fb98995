import Mathlib.Order.Lattice
import Mathlib.Data.List.Basic

/-! A register that only a higher version overwrites. Whatever the order of the
writes, it holds a write of the highest version. -/

namespace Register
variable {α ν : Type*} [LinearOrder ν] (version : α → ν)

def overwrite (stored : Option α) (a : α) : Option α :=
  match stored with
  | none => some a
  | some b => if version b < version a then some a else some b

/-- What the register may hold once the writes `l` reached it. -/
def Highest (l : List α) : Option α → Prop
  | none => l = []
  | some b => b ∈ l ∧ ∀ a ∈ l, version a ≤ version b

/-- No write takes a version back, and one that keeps the version keeps the value. -/
def Advances (old new : Option α) : Prop :=
  ∀ a, old = some a → ∃ b, new = some b ∧ (b = a ∨ version a < version b)

variable {version} {l : List α} {stored : Option α} {a b : α}

theorem Advances.refl (o : Option α) : Advances version o o := fun a h => ⟨a, h, .inl rfl⟩

theorem advances_overwrite (stored : Option α) (a : α) : Advances version stored (overwrite version stored a) := by
  intro b hb
  rw [hb, overwrite]
  by_cases hlt : version b < version a
  · rw [if_pos hlt]
    exact ⟨a, rfl, .inr hlt⟩
  · rw [if_neg hlt]
    exact ⟨b, rfl, .inl rfl⟩

theorem Highest.overwrite (h : Highest version l stored) (a : α) :
    Highest version (l ++ [a]) (overwrite version stored a) := by
  cases stored with
  | none =>
    have hnil : l = [] := h
    rw [hnil]
    exact ⟨List.mem_singleton.mpr rfl, fun b hb => (List.mem_singleton.mp hb ▸ le_rfl)⟩
  | some b =>
    obtain ⟨hmem, hmax⟩ : b ∈ l ∧ ∀ a ∈ l, version a ≤ version b := h
    rw [Register.overwrite]
    by_cases hlt : version b < version a
    · rw [if_pos hlt]
      refine ⟨List.mem_append_right _ (List.mem_singleton.mpr rfl), ?_⟩
      intro c hc
      rcases List.mem_append.mp hc with hc | hc
      · exact le_trans (hmax c hc) (le_of_lt hlt)
      · exact List.mem_singleton.mp hc ▸ le_rfl
    · rw [if_neg hlt]
      refine ⟨List.mem_append_left _ hmem, ?_⟩
      intro c hc
      rcases List.mem_append.mp hc with hc | hc
      · exact hmax c hc
      · exact List.mem_singleton.mp hc ▸ not_lt.mp hlt

/-- Where no write exceeds `a`, the register holds a write of the version of `a`. -/
theorem Highest.of_top (h : Highest version l stored) (ha : a ∈ l) (htop : ∀ b ∈ l, version b ≤ version a) :
    ∃ b ∈ l, stored = some b ∧ version b = version a := by
  cases stored with
  | none =>
    have hnil : l = [] := h
    rw [hnil] at ha
    exact absurd ha List.not_mem_nil
  | some b => exact ⟨b, h.1, rfl, le_antisymm (htop b h.1) (h.2 a ha)⟩

end Register
