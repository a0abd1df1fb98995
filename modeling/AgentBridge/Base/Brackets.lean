import Mathlib.Data.List.Count

/-! Traces that open, use and close resources. What is open forms a stack, and its top is
closed first. -/

namespace Brackets

inductive Op (ρ : Type*)
  | opened (r : ρ)
  | used (r : ρ)
  | closed (r : ρ)
deriving DecidableEq

variable {ρ : Type*} [DecidableEq ρ] {held held' : List ρ} {r : ρ}

/-- What is open after the trace, the last opened first. There is no answer once something is used that
is not open, or closed that is not on top. -/
def after : List ρ → List (Op ρ) → Option (List ρ)
  | held, [] => some held
  | held, .opened r :: ops => after (r :: held) ops
  | held, .used r :: ops => if r ∈ held then after held ops else none
  | [], .closed _ :: _ => none
  | top :: held, .closed r :: ops => if r = top then after held ops else none

theorem after_append (held : List ρ) (xs ys : List (Op ρ)) :
    after held (xs ++ ys) = (after held xs).bind fun held' => after held' ys := by
  -- once the account is broken it stays so
  induction xs generalizing held with
  | nil => rfl
  | cons x xs ih =>
    cases x with
    | opened r => exact ih (r :: held)
    | used r =>
      show (if r ∈ held then after held (xs ++ ys) else none) = _
      by_cases h : r ∈ held
      · rw [if_pos h, ih, after, if_pos h]
      · simp [after, h]
    | closed r =>
      cases held with
      | nil => rfl
      | cons top held =>
        show (if r = top then after held (xs ++ ys) else none) = _
        by_cases h : r = top
        · rw [if_pos h, ih, after, if_pos h]
        · simp [after, h]

theorem count_opened {ops : List (Op ρ)} (h : after held ops = some held') (r : ρ) :
    held.count r + ops.count (.opened r) = ops.count (.closed r) + held'.count r := by
  -- what is open at first is part of the balance
  induction ops generalizing held with
  | nil =>
    cases h
    simp
  | cons op ops ih =>
    cases op with
    | opened r' =>
      have htail := @ih (r' :: held) h
      by_cases hr : r' = r
      · subst hr
        simp only [List.count_cons_self, List.count_cons_of_ne (show Op.opened r' ≠ .closed r' from nofun)] at htail ⊢
        omega
      · simp only [List.count_cons_of_ne hr, List.count_cons_of_ne (show Op.opened r' ≠ .closed r from nofun),
          List.count_cons_of_ne (show Op.opened r' ≠ .opened r from fun heq => hr (Op.opened.inj heq))] at htail ⊢
        omega
    | used r' =>
      rw [after] at h
      split_ifs at h with hmem
      simpa using ih h
    | closed r' =>
      cases held with
      | nil => cases h
      | cons top held =>
        rw [after] at h
        split_ifs at h with htop
        subst htop
        have htail := ih h
        by_cases hr : r' = r
        · subst hr
          simp only [List.count_cons_self, List.count_cons_of_ne (show Op.closed r' ≠ .opened r' from nofun)] at htail ⊢
          omega
        · simp only [List.count_cons_of_ne hr, List.count_cons_of_ne (show Op.closed r' ≠ .opened r from nofun),
            List.count_cons_of_ne (show Op.closed r' ≠ .closed r from fun heq => hr (Op.closed.inj heq))] at htail ⊢
          omega

/-- When nothing is left open, everything was closed as often as it was opened. -/
theorem count_closed {ops : List (Op ρ)} (h : after [] ops = some ([] : List ρ)) (r : ρ) :
    ops.count (.closed r) = ops.count (.opened r) := by
  have hcount := count_opened h r
  simpa using hcount.symm

theorem opened_of_mem {ops : List (Op ρ)} (h : after [] ops = some held') (hr : r ∈ held') : .opened r ∈ ops := by
  have hcount := count_opened h r
  have hpos := List.count_pos_iff.mpr hr
  rw [List.count_nil] at hcount
  exact List.count_pos_iff.mp (by omega)

end Brackets
