import Mathlib.Algebra.BigOperators.Group.List.Basic
import Mathlib.Algebra.Order.Ring.Nat
import Mathlib.Data.List.Infix

/-! The longest beginning of a list whose sizes sum to at most a limit. -/

namespace List
variable {α : Type} {size : α → Nat} {room : Nat} {l p : List α} {a : α}

def totalSize (size : α → Nat) (l : List α) : Nat := (l.map size).sum

@[simp] theorem totalSize_nil : totalSize size ([] : List α) = 0 := rfl

@[simp] theorem totalSize_cons : totalSize size (a :: l) = size a + totalSize size l := by
  rw [totalSize, map_cons, sum_cons, totalSize]

def fitting (size : α → Nat) : (room : Nat) → List α → List α
  | _, [] => []
  | room, a :: l => if size a ≤ room then a :: fitting size (room - size a) l else []

theorem fitting_isPrefix (size : α → Nat) (room : Nat) (l : List α) : fitting size room l <+: l := by
  induction l generalizing room with
  | nil => exact prefix_refl []
  | cons a l ih =>
    rw [fitting]
    split_ifs
    · exact (prefix_cons_inj a).mpr (ih _)
    · exact nil_prefix

theorem totalSize_fitting (size : α → Nat) (room : Nat) (l : List α) : totalSize size (fitting size room l) ≤ room := by
  induction l generalizing room with
  | nil => exact Nat.zero_le room
  | cons a l ih =>
    rw [fitting]
    split_ifs with hfits
    · have hrest := ih (room - size a)
      rw [totalSize_cons]
      omega
    · exact Nat.zero_le room

theorem prefix_fitting (h : p <+: l) (hfits : totalSize size p ≤ room) : p <+: fitting size room l := by
  induction p generalizing l room with
  | nil => exact nil_prefix
  | cons a p ih =>
    obtain ⟨rest, rfl⟩ := h
    -- the size of the whole beginning bounds that of its first entry, so the entry is taken
    rw [totalSize_cons] at hfits
    rw [cons_append, fitting, if_pos (by omega)]
    exact (prefix_cons_inj a).mpr (ih (prefix_append p rest) (by omega))

end List
