import Mathlib.Data.List.Basic

/-! Runs of a state machine given by a step function: composition, the invariant
rule, and the same rule for runs whose steps all meet a side condition. -/

namespace Run
variable {σ α : Type*} {step : σ → α → σ} {P : σ → Prop}

/-- The state after the actions `as`, in order. -/
def exec (step : σ → α → σ) (s : σ) (as : List α) : σ := as.foldl step s

/-- Every action of the run meets `G` in the state it is taken in. -/
def Guarded (step : σ → α → σ) (G : σ → α → Prop) : σ → List α → Prop
  | _, [] => True
  | s, a :: as => G s a ∧ Guarded step G (step s a) as

instance decidableGuarded {G : σ → α → Prop} [∀ s a, Decidable (G s a)] :
    (s : σ) → (as : List α) → Decidable (Guarded step G s as)
  | _, [] => inferInstanceAs (Decidable True)
  | s, a :: as =>
    have : Decidable (Guarded step G (step s a) as) := decidableGuarded (step s a) as
    inferInstanceAs (Decidable (G s a ∧ Guarded step G (step s a) as))

@[simp] theorem exec_nil (s : σ) : exec step s [] = s := rfl

@[simp] theorem exec_cons (s : σ) (a : α) (as : List α) :
    exec step s (a :: as) = exec step (step s a) as := rfl

@[simp] theorem exec_append (s : σ) (as bs : List α) :
    exec step s (as ++ bs) = exec step (exec step s as) bs := List.foldl_append

theorem guarded_append {G : σ → α → Prop} {s : σ} {as bs : List α} :
    Guarded step G s (as ++ bs) ↔ Guarded step G s as ∧ Guarded step G (exec step s as) bs := by
  induction as generalizing s with
  | nil => simp [Guarded]
  | cons a as ih => simp only [List.cons_append, Guarded, ih, exec_cons, and_assoc]

theorem exec_invariant_of {G : σ → α → Prop} (hstep : ∀ s a, G s a → P s → P (step s a))
    {s : σ} {as : List α} (hg : Guarded step G s as) (h0 : P s) : P (exec step s as) := by
  induction as generalizing s with
  | nil => exact h0
  | cons a as ih => exact ih hg.2 (hstep s a hg.1 h0)

theorem exec_invariant (hstep : ∀ s a, P s → P (step s a)) {s : σ} (h0 : P s) (as : List α) :
    P (exec step s as) := by
  induction as generalizing s with
  | nil => exact h0
  | cons a as ih => exact ih (hstep s a h0)

theorem exec_related {R : σ → σ → Prop} (hstep : ∀ s t a, R s t → R (step s a) (step t a)) {s t : σ}
    (h : R s t) (as : List α) : R (exec step s as) (exec step t as) := by
  induction as generalizing s t with
  | nil => exact h
  | cons a as ih => exact ih (hstep s t a h)

theorem exists_step_of_exec {s : σ} {as : List α} (h0 : ¬ P s) (h : P (exec step s as)) :
    ∃ before a after, as = before ++ a :: after ∧ ¬ P (exec step s before) ∧ P (step (exec step s before) a) := by
  induction as generalizing s with
  | nil => exact absurd h h0
  | cons a as ih =>
    by_cases hfirst : P (step s a)
    · exact ⟨[], a, as, rfl, h0, hfirst⟩
    · obtain ⟨before, a', after, rfl, hbefore, hstep⟩ := ih hfirst h
      exact ⟨a :: before, a', after, rfl, hbefore, hstep⟩

/-- Where `I` is an invariant and, under it, a step keeps `P` exactly when it meets `G`: the runs that
meet `G` all along are those that keep `P` all along. -/
theorem guarded_iff_exec {G : σ → α → Prop} {I : σ → Prop} (hinv : ∀ s a, I s → I (step s a))
    (hstep : ∀ s a, I s → P s → (P (step s a) ↔ G s a)) {s : σ} (hs : I s) (h0 : P s) (as : List α) :
    (∀ bs, bs <+: as → P (exec step s bs)) ↔ Guarded step G s as := by
  -- the first action that breaks the guard breaks the property, at the prefix that ends there
  induction as generalizing s with
  | nil =>
    constructor
    · intro _
      trivial
    · intro _ bs hbs
      rw [List.prefix_nil.mp hbs]
      exact h0
  | cons a as ih =>
    constructor
    · intro h
      have hfirst : P (step s a) := h [a] (by simp)
      refine ⟨(hstep s a hs h0).mp hfirst, (ih (hinv s a hs) hfirst).mp ?_⟩
      intro bs hbs
      exact h (a :: bs) ((List.prefix_cons_inj a).mpr hbs)
    · rintro ⟨hg, hrest⟩ bs hbs
      have hfirst : P (step s a) := (hstep s a hs h0).mpr hg
      cases bs with
      | nil => exact h0
      | cons b bs =>
        obtain ⟨rfl, hrun⟩ := List.cons_prefix_cons.mp hbs
        exact (ih (hinv s b hs) hfirst).mpr hrest bs hrun

/-- The same where `P` once lost is not regained: the end of the run decides. -/
theorem exec_iff_guarded {G : σ → α → Prop} {I : σ → Prop} (hinv : ∀ s a, I s → I (step s a))
    (hstep : ∀ s a, I s → P s → (P (step s a) ↔ G s a)) (hlost : ∀ s a, I s → P (step s a) → P s)
    {s : σ} (hs : I s) (h0 : P s) (as : List α) : P (exec step s as) ↔ Guarded step G s as := by
  have hback : ∀ (as : List α) (s : σ), I s → P (exec step s as) → P s := by
    intro as
    induction as with
    | nil => exact fun _ _ h => h
    | cons a as ih =>
      intro s hs h
      exact hlost s a hs (ih (step s a) (hinv s a hs) h)
  induction as generalizing s with
  | nil => exact iff_of_true h0 trivial
  | cons a as ih =>
    constructor
    · intro h
      have hfirst : P (step s a) := hback as (step s a) (hinv s a hs) h
      exact ⟨(hstep s a hs h0).mp hfirst, (ih (hinv s a hs) hfirst).mp h⟩
    · rintro ⟨hg, hrest⟩
      exact (ih (hinv s a hs) ((hstep s a hs h0).mpr hg)).mpr hrest

end Run
