import AgentBridge.Base.Run

/-! Calls that run in steps and undo nothing. What others do in between is part of the moment a
step runs in, so a run is a list of moments. A call that fails has left nothing behind exactly
when every step after the first that added something was ready. -/

namespace Leftover
variable {σ μ : Type*}

/-- A stepwise call: what a step adds, when it has failed, and what its next step needs to succeed. `Due` says
of the moment a step finds whether it adds something; `Late` are the stages that come only after an addition. -/
structure Call (σ μ : Type*) where
  step : σ → μ → σ
  Adds : σ → μ → Prop
  Due : σ → μ → Prop
  Failed : σ → Prop
  Ready : σ → μ → Prop
  Late : σ → Prop
  failed_iff : ∀ q m, ¬ Failed q → (Failed (step q m) ↔ ¬ Ready q m)
  failed_stays : ∀ q m, Failed q → Failed (step q m) ∧ ¬ Adds q m
  due_iff : ∀ q m, Due q m ↔ Adds q m
  adds_ready : ∀ q m, ¬ Late q → Adds q m → Ready q m
  late_added : ∀ q m, Late (step q m) → Late q ∨ Adds q m

variable (call : Call σ μ)

/-- Some step of the run adds something. -/
def Added : σ → List μ → Prop
  | _, [] => False
  | q, m :: ms => call.Adds q m ∨ Added (call.step q m) ms

/-- Every step that comes after one that was due to add something is ready; `added` tells of the steps before. -/
def Prepared : Prop → σ → List μ → Prop
  | _, _, [] => True
  | added, q, m :: ms => (added → call.Ready q m) ∧ Prepared (added ∨ call.Due q m) (call.step q m) ms

variable {call}

theorem failed_exec {q : σ} (h : call.Failed q) (ms : List μ) : call.Failed (Run.exec call.step q ms) := by
  induction ms generalizing q with
  | nil => exact h
  | cons m ms ih => exact ih (call.failed_stays q m h).1

theorem not_added_of_failed {q : σ} (h : call.Failed q) (ms : List μ) : ¬ Added call q ms := by
  induction ms generalizing q with
  | nil => exact id
  | cons m ms ih =>
    rintro (hadds | hadded)
    · exact (call.failed_stays q m h).2 hadds
    · exact ih (call.failed_stays q m h).1 hadded

theorem prepared_of_not {added : Prop} {q : σ} (h : call.Failed q) (hadded : ¬ added) (ms : List μ) :
    Prepared call added q ms := by
  induction ms generalizing q added with
  | nil => trivial
  | cons m ms ih =>
    obtain ⟨hfailed, hadds⟩ := call.failed_stays q m h
    have hdue : ¬ call.Due q m := fun h => hadds ((call.due_iff q m).mp h)
    exact ⟨fun ha => absurd ha hadded, ih hfailed (not_or.mpr ⟨hadded, hdue⟩)⟩

/-- With what was added before: while the call runs, a late stage means that something was. -/
theorem clean_iff_of {added : Prop} {q : σ} (hrunning : ¬ call.Failed q) (hlate : call.Late q → added) (ms : List μ) :
    (call.Failed (Run.exec call.step q ms) → ¬ (added ∨ Added call q ms)) ↔ Prepared call added q ms := by
  -- as long as the call runs, a late stage means that something was added before
  induction ms generalizing q added with
  | nil => exact iff_of_true (fun h => absurd h hrunning) trivial
  | cons m ms ih =>
    have hfailed := call.failed_iff q m hrunning
    by_cases hready : call.Ready q m
    · have hnext : ¬ call.Failed (call.step q m) := fun h => hfailed.mp h hready
      have hlate' : call.Late (call.step q m) → added ∨ call.Adds q m :=
        fun h => (call.late_added q m h).imp_left hlate
      rw [Run.exec_cons, Added, ← or_assoc, ih hnext hlate', Prepared, call.due_iff]
      exact (and_iff_right fun _ => hready).symm
    · have hnext : call.Failed (call.step q m) := hfailed.mpr hready
      have hend : call.Failed (Run.exec call.step q (m :: ms)) := failed_exec hnext ms
      by_cases hadded : added
      · refine iff_of_false (fun h => h hend (.inl hadded)) ?_
        exact fun h => hready (h.1 hadded)
      · have hadds : ¬ call.Adds q m := fun h => hready (call.adds_ready q m (fun hl => hadded (hlate hl)) h)
        have hnone : ¬ (added ∨ Added call q (m :: ms)) := by
          rintro (h | h | h)
          · exact hadded h
          · exact hadds h
          · exact not_added_of_failed hnext ms h
        refine iff_of_true (fun _ => hnone) ⟨fun h => absurd h hadded, ?_⟩
        have hdue : ¬ call.Due q m := fun h => hadds ((call.due_iff q m).mp h)
        exact prepared_of_not hnext (not_or.mpr ⟨hadded, hdue⟩) ms

/-- A call leaves nothing behind when it fails if and only if, whatever happens in between, every step after its
first addition is ready. -/
theorem clean_iff {q : σ} (hlate : ¬ call.Late q) (ms : List μ) :
    (call.Failed (Run.exec call.step q ms) → ¬ Added call q ms) ↔ Prepared call False q ms := by
  by_cases hfailed : call.Failed q
  · exact iff_of_true (fun _ => not_added_of_failed hfailed ms) (prepared_of_not hfailed not_false ms)
  · have h := @clean_iff_of _ _ call False _ hfailed (fun hl => hlate hl) ms
    rwa [false_or] at h

end Leftover
