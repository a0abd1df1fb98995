import Mathlib.Data.Set.Insert
import Mathlib.Data.Nat.Find
import Mathlib.Order.Interval.Set.Defs
import Mathlib.Order.WellFounded

/-! Sets that hold whatever their members wait for. Membership is checked against
an earlier, smaller set and the element is added later: because sets only grow, the
check is still good at that time. -/

namespace Precedence
variable {ι : Type*} {needs : ι → Set ι} {S T : Set ι} {i : ι}

/-- Everything a member waits for is a member. -/
def Closed (needs : ι → Set ι) (S : Set ι) : Prop := ∀ i ∈ S, needs i ⊆ S

theorem Closed.mono_insert (h : Closed needs T) (hready : needs i ⊆ S) (hgrow : S ⊆ T) :
    Closed needs (insert i T) := by
  intro j hj m hm
  rcases hj with rfl | hj
  · exact .inr (hgrow (hready hm))
  · exact .inr (h j hj hm)

/-- Waiting for all smaller numbers: a bounded closed set is an initial segment. -/
theorem Closed.initial {S : Set ℕ} {N : ℕ} (h : Closed Set.Iio S) (hN : ∀ n ∈ S, n < N) :
    ∃ k ≤ N, ∀ n, n ∈ S ↔ n < k := by
  classical
  have hout : ∃ n, n ∉ S := ⟨N, fun hmem => lt_irrefl N (hN N hmem)⟩
  refine ⟨Nat.find hout, Nat.find_min' hout fun hmem => lt_irrefl N (hN N hmem), fun n => ?_⟩
  constructor
  · intro hn
    by_contra hge
    rcases (not_lt.mp hge).lt_or_eq with hlt | heq
    · exact Nat.find_spec hout (h n hn hlt)
    · exact Nat.find_spec hout (heq ▸ hn)
  · intro hlt
    exact not_not.mp (Nat.find_min hout hlt)

theorem exists_ready (rank : ι → ℕ) (hrank : ∀ i, ∀ j ∈ needs i, rank j < rank i) (h : i ∉ S) :
    ∃ j ∉ S, needs j ⊆ S := by
  obtain ⟨j, hj, hmin⟩ := (measure rank).wf.has_min {j | j ∉ S} ⟨i, h⟩
  refine ⟨j, hj, ?_⟩
  intro m hm
  by_contra hout
  exact hmin m hout (hrank j m hm)

end Precedence
