import AgentBridge.Base.Run
import Mathlib.Data.List.Chain
import Mathlib.Order.OrderIsoNat

/-! Steps that emit events: the trace of a run, conditions on an event and the events
before it, and infinite runs under a rank that no step raises. -/

namespace Trace
variable {ε : Type*} {P : List ε → ε → Prop} {tr : List ε} {e : ε}

/-- Every event of the trace meets `P` together with the events before it. -/
def Always (P : List ε → ε → Prop) (tr : List ε) : Prop :=
  ∀ pre e post, tr = pre ++ e :: post → P pre e

theorem always_nil : Always P ([] : List ε) := by
  intro pre e post h
  exact absurd h.symm (by simp)

theorem always_concat : Always P (tr ++ [e]) ↔ Always P tr ∧ P tr e := by
  constructor
  · intro h
    refine ⟨?_, h tr e [] rfl⟩
    intro pre e' post htr
    exact h pre e' (post ++ [e]) (by rw [htr]; simp)
  · rintro ⟨htr, he⟩ pre e' post hsplit
    rcases List.eq_nil_or_concat post with rfl | ⟨post, last, rfl⟩
    · obtain ⟨rfl, hlast⟩ := List.append_inj' hsplit rfl
      obtain rfl := List.head_eq_of_cons_eq hlast
      exact he
    · have hsplit' : tr ++ [e] = (pre ++ e' :: post) ++ [last] := by simpa using hsplit
      exact htr pre e' post (List.append_inj' hsplit' rfl).1

def last (kind : ε → Bool) (tr : List ε) : Option ε := (tr.filter kind).getLast?

@[simp] theorem last_nil (kind : ε → Bool) : last kind [] = none := rfl

theorem last_concat_of (kind : ε → Bool) (h : kind e = true) : last kind (tr ++ [e]) = some e := by
  simp [last, List.filter_append, h]

theorem last_concat_of_not (kind : ε → Bool) (h : kind e = false) :
    last kind (tr ++ [e]) = last kind tr := by
  simp [last, List.filter_append, h]

/-- `e` has happened, and nothing of the kind `stop` since. -/
def Since (stop : ε → Prop) (tr : List ε) (e : ε) : Prop :=
  ∃ pre mid, tr = pre ++ e :: mid ∧ ∀ x ∈ mid, ¬ stop x

theorem not_since_nil {stop : ε → Prop} : ¬ Since stop [] e := by
  rintro ⟨pre, mid, h, -⟩
  exact absurd h.symm (by simp)

theorem since_concat {stop : ε → Prop} {x : ε} :
    Since stop (tr ++ [x]) e ↔ x = e ∨ Since stop tr e ∧ ¬ stop x := by
  constructor
  · rintro ⟨pre, mid, hsplit, hmid⟩
    rcases List.eq_nil_or_concat' mid with rfl | ⟨mid, last, rfl⟩
    · obtain ⟨-, hlast⟩ := List.append_inj' hsplit rfl
      exact .inl (List.head_eq_of_cons_eq hlast)
    · have hsplit' : tr ++ [x] = (pre ++ e :: mid) ++ [last] := by simpa using hsplit
      obtain ⟨htr, hlast⟩ := List.append_inj' hsplit' rfl
      obtain rfl := List.head_eq_of_cons_eq hlast
      exact .inr ⟨⟨pre, mid, htr, fun y hy => hmid y (by simp [hy])⟩, hmid x (by simp)⟩
  · rintro (rfl | ⟨⟨pre, mid, rfl, hmid⟩, hx⟩)
    · exact ⟨tr, [], rfl, by simp⟩
    · refine ⟨pre, mid ++ [x], by simp, fun y hy => ?_⟩
      rcases List.mem_append.mp hy with hy | hy
      · exact hmid y hy
      · exact List.mem_singleton.mp hy ▸ hx

end Trace

namespace Run
variable {σ α ε : Type*} {step : σ → α → σ × List ε}

/-- The step on states that carry the events so far. -/
def recorded (step : σ → α → σ × List ε) (s : σ × List ε) (a : α) : σ × List ε :=
  ((step s.1 a).1, s.2 ++ (step s.1 a).2)

theorem exec_recorded (s : σ) (tr : List ε) (as : List α) :
    exec (recorded step) (s, tr) as =
      ((exec (recorded step) (s, []) as).1, tr ++ (exec (recorded step) (s, []) as).2) := by
  induction as generalizing s tr with
  | nil => simp
  | cons a as ih =>
    have htail := ih (step s a).1 (tr ++ (step s a).2)
    have hhead := ih (step s a).1 (step s a).2
    simp only [exec_cons, recorded, List.nil_append] at htail hhead ⊢
    rw [htail, hhead, List.append_assoc]

/-- Where `Last` tells which event came last, and every step goes on from it in the relation `R`,
each event of a run is followed by one that may follow it. -/
theorem exec_isChain {R : ε → ε → Prop} {Last : σ → ε → Prop}
    (hstep : ∀ s a x, Last s x → List.IsChain R (x :: (step s a).2) ∧
      ∀ y ∈ (x :: (step s a).2).getLast?, Last (step s a).1 y)
    {s : σ} {tr : List ε} (htr : List.IsChain R tr) (hlast : ∃ x ∈ tr.getLast?, Last s x) (as : List α) :
    List.IsChain R (exec (recorded step) (s, tr) as).2 := by
  -- `Last` links the events of a step to the last one before it
  induction as generalizing s tr with
  | nil => exact htr
  | cons a as ih =>
    obtain ⟨x, hx, hl⟩ := hlast
    obtain ⟨hchain, hnext⟩ := hstep s a x hl
    obtain ⟨hhead, htail⟩ := List.isChain_cons.mp hchain
    refine ih (htr.append htail fun y hy => ?_) ?_
    · obtain rfl := Option.mem_unique hx hy
      exact hhead
    · rcases List.eq_nil_or_concat' (step s a).2 with hnil | ⟨es, last, hes⟩
      · rw [hnil] at hnext
        refine ⟨x, ?_, hnext x (by simp)⟩
        change x ∈ (tr ++ (step s a).2).getLast?
        rwa [hnil, List.append_nil]
      · rw [hes] at hnext
        refine ⟨last, ?_, hnext last (List.getLast?_concat (l := x :: es))⟩
        change last ∈ (tr ++ (step s a).2).getLast?
        rw [hes, ← List.append_assoc]
        simp

/-- The state after the first `n` actions of an infinite run. -/
def after (step : σ → α → σ) (s : σ) (as : ℕ → α) (n : ℕ) : σ := exec step s ((List.range n).map as)

theorem after_succ (step : σ → α → σ) (s : σ) (as : ℕ → α) (n : ℕ) :
    after step s as (n + 1) = step (after step s as n) (as n) := by
  simp [after, List.range_succ]

/-- Where no step raises the rank and a step that keeps it keeps `f`, the value of `f` settles in
every infinite run. -/
theorem exists_settled {β : Type*} {step : σ → α → σ} (rank : σ → ℕ) (f : σ → β) {I : σ → Prop}
    (hinv : ∀ s a, I s → I (step s a))
    (hstep : ∀ s a, I s → rank (step s a) < rank s ∨ rank (step s a) = rank s ∧ f (step s a) = f s)
    {s : σ} (hs : I s) (as : ℕ → α) :
    ∃ N, ∀ k, N ≤ k → f (after step s as k) = f (after step s as N) := by
  have hI : ∀ n, I (after step s as n) := fun n => exec_invariant hinv hs _
  have hdrop : ∀ n, rank (after step s as (n + 1)) ≤ rank (after step s as n) := by
    intro n
    rw [after_succ]
    rcases hstep _ (as n) (hI n) with h | h
    · exact h.le
    · exact h.1.le
  have hanti : Antitone fun n => rank (after step s as n) := antitone_nat_of_succ_le hdrop
  obtain ⟨N, hN⟩ := WellFoundedGT.monotone_chain_condition
    (⟨fun n => OrderDual.toDual (rank (after step s as n)), fun _ _ h => hanti h⟩ : ℕ →o ℕᵒᵈ)
  refine ⟨N, fun k hk => ?_⟩
  -- the rank can fall only finitely often, and where it does not, `f` stays
  induction k, hk using Nat.le_induction with
  | base => rfl
  | succ k hk ih =>
    have hk' : rank (after step s as k) = rank (after step s as (k + 1)) := by
      have h1 : rank (after step s as N) = rank (after step s as k) := hN k hk
      have h2 : rank (after step s as N) = rank (after step s as (k + 1)) := hN (k + 1) (hk.trans k.le_succ)
      exact h1.symm.trans h2
    rw [after_succ] at hk' ⊢
    rcases hstep _ (as k) (hI k) with h | h
    · exact absurd hk' h.ne'
    · exact h.2.trans ih

end Run
