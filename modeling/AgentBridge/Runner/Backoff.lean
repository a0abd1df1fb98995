import AgentBridge.Runner.Retry

/-! The back-off of the retry policy. Within the bounds of a valid policy none of its operations leaves the
range of its numbers, and a delay lies between half of its exponential step and the step. -/

namespace AgentBridge.Runner

/-- The exponential step before a retry, without jitter. -/
def exponentialDelay (baseDelayMs maxDelayMs retryOrdinal : Nat) : Nat :=
  min (baseDelayMs * 2 ^ min (retryOrdinal - 1) 20) maxDelayMs

/-- The part of the step that is waited, in hundredths of a percent. -/
def jitterBps (sha256 : Sha256) (retryOrdinal : Nat) (seed : Text) : Nat :=
  5000 + jitterSample sha256 retryOrdinal seed % 5001

/-- The back-off on numbers without a limit. -/
def exactBackoff (sha256 : Sha256) (baseDelayMs maxDelayMs retryOrdinal : Nat) (seed : Text) : Nat :=
  let step := exponentialDelay baseDelayMs maxDelayMs retryOrdinal
  let jittered := (step * jitterBps sha256 retryOrdinal seed + 9999) / 10000
  min (max jittered 1) maxDelayMs

/-- All that the back-off computes is a `u64`, up to the nanoseconds of the delay. -/
structure WithinRange (sha256 : Sha256) (baseDelayMs maxDelayMs retryOrdinal : Nat) (seed : Text) : Prop where
  shift : 2 ^ min (retryOrdinal - 1) 20 ≤ u64Max
  scaled : baseDelayMs * 2 ^ min (retryOrdinal - 1) 20 ≤ u64Max
  jitter : jitterBps sha256 retryOrdinal seed ≤ u64Max
  product : exponentialDelay baseDelayMs maxDelayMs retryOrdinal * jitterBps sha256 retryOrdinal seed ≤ u64Max
  rounded : exponentialDelay baseDelayMs maxDelayMs retryOrdinal * jitterBps sha256 retryOrdinal seed + 9999 ≤ u64Max
  duration : Duration.fromMillis (exactBackoff sha256 baseDelayMs maxDelayMs retryOrdinal seed) ≤ Duration.max

section Backoff
variable {sha256 : Sha256} {base cap ordinal : Nat} {seed : Text}

theorem jitterBps_bounds (sha256 : Sha256) (ordinal : Nat) (seed : Text) :
    5000 ≤ jitterBps sha256 ordinal seed ∧ jitterBps sha256 ordinal seed ≤ 10000 := by
  unfold jitterBps
  omega

theorem shift_le (ordinal : Nat) : 2 ^ min (ordinal - 1) 20 ≤ 2 ^ 20 :=
  Nat.pow_le_pow_right (by decide) (min_le_right _ _)

theorem base_le_exponentialDelay (hcap : base ≤ cap) : base ≤ exponentialDelay base cap ordinal :=
  le_min (Nat.le_mul_of_pos_right base (Nat.two_pow_pos _)) hcap

theorem exponentialDelay_le (base cap ordinal : Nat) : exponentialDelay base cap ordinal ≤ cap :=
  min_le_right _ _

theorem exponentialDelay_mono (base cap : Nat) : Monotone (exponentialDelay base cap) := by
  intro ordinal next hle
  have hexponent : min (ordinal - 1) 20 ≤ min (next - 1) 20 := min_le_min_right _ (Nat.sub_le_sub_right hle 1)
  have hpow : 2 ^ min (ordinal - 1) 20 ≤ 2 ^ min (next - 1) 20 := Nat.pow_le_pow_right (by decide) hexponent
  exact min_le_min_right _ (Nat.mul_le_mul_left base hpow)

theorem jittered_bounds {step bps : Nat} (h : 5000 ≤ bps ∧ bps ≤ 10000) :
    (step + 1) / 2 ≤ (step * bps + 9999) / 10000 ∧ (step * bps + 9999) / 10000 ≤ step := by
  have hlow : step * 5000 ≤ step * bps := Nat.mul_le_mul_left step h.1
  have hhigh : step * bps ≤ step * 10000 := Nat.mul_le_mul_left step h.2
  omega

theorem exactBackoff_eq (hbase : 1 ≤ base) (hcap : base ≤ cap) : exactBackoff sha256 base cap ordinal seed =
    (exponentialDelay base cap ordinal * jitterBps sha256 ordinal seed + 9999) / 10000 := by
  have hstep : base ≤ exponentialDelay base cap ordinal := base_le_exponentialDelay hcap
  have hlimit := exponentialDelay_le base cap ordinal
  obtain ⟨hlow, hhigh⟩ := @jittered_bounds (exponentialDelay base cap ordinal) _ (jitterBps_bounds sha256 ordinal seed)
  unfold exactBackoff
  dsimp only
  rw [Nat.max_eq_left (by omega), Nat.min_eq_left (by omega)]

theorem exactBackoff_bounds (hbase : 1 ≤ base) (hcap : base ≤ cap) :
    (exponentialDelay base cap ordinal + 1) / 2 ≤ exactBackoff sha256 base cap ordinal seed ∧
      exactBackoff sha256 base cap ordinal seed ≤ exponentialDelay base cap ordinal := by
  rw [exactBackoff_eq hbase hcap]
  exact jittered_bounds (jitterBps_bounds sha256 ordinal seed)

theorem withinRange_of_le (hbase : base ≤ absMaxDelayMs) (hcap : cap ≤ absMaxDelayMs) :
    WithinRange sha256 base cap ordinal seed := by
  have hshift := shift_le ordinal
  have hbps := (jitterBps_bounds sha256 ordinal seed).2
  have hstep := (exponentialDelay_le base cap ordinal).trans hcap
  have hscaled : base * 2 ^ min (ordinal - 1) 20 ≤ absMaxDelayMs * 2 ^ 20 := Nat.mul_le_mul hbase hshift
  have hproduct : exponentialDelay base cap ordinal * jitterBps sha256 ordinal seed ≤ absMaxDelayMs * 10000 :=
    Nat.mul_le_mul hstep hbps
  have hdelay : exactBackoff sha256 base cap ordinal seed ≤ absMaxDelayMs := (min_le_right _ _).trans hcap
  have hlimits : absMaxDelayMs * 2 ^ 20 ≤ u64Max ∧ absMaxDelayMs * 10000 + 9999 ≤ u64Max ∧ 10000 ≤ u64Max ∧
      2 ^ 20 ≤ u64Max ∧ Duration.fromMillis absMaxDelayMs ≤ Duration.max := by decide
  obtain ⟨hscale, hround, hpercent, hword, hlong⟩ := hlimits
  exact {
    shift := hshift.trans hword
    scaled := hscaled.trans hscale
    jitter := hbps.trans hpercent
    product := (Nat.le_add_right _ _).trans ((Nat.add_le_add_right hproduct 9999).trans hround)
    rounded := (Nat.add_le_add_right hproduct 9999).trans hround
    duration := (Nat.mul_le_mul_right _ hdelay).trans hlong }

theorem deterministicBackoff_eq (h : WithinRange sha256 base cap ordinal seed) :
    deterministicBackoff sha256 base cap ordinal seed =
      Duration.fromMillis (exactBackoff sha256 base cap ordinal seed) := by
  have hscaled : saturatingMul base (2 ^ min (ordinal - 1) 20) = base * 2 ^ min (ordinal - 1) 20 :=
    min_eq_left h.scaled
  have hjitter : saturatingAdd 5000 (jitterSample sha256 ordinal seed % 5001) = jitterBps sha256 ordinal seed :=
    min_eq_left h.jitter
  have hproduct : saturatingMul (exponentialDelay base cap ordinal) (jitterBps sha256 ordinal seed) =
      exponentialDelay base cap ordinal * jitterBps sha256 ordinal seed := min_eq_left h.product
  have hrounded : saturatingAdd (exponentialDelay base cap ordinal * jitterBps sha256 ordinal seed) 9999 =
      exponentialDelay base cap ordinal * jitterBps sha256 ordinal seed + 9999 := min_eq_left h.rounded
  calc deterministicBackoff sha256 base cap ordinal seed
      = Duration.fromMillis (min (max (saturatingAdd (saturatingMul
          (min (saturatingMul base (2 ^ min (ordinal - 1) 20)) cap)
          (saturatingAdd 5000 (jitterSample sha256 ordinal seed % 5001))) 9999 / 10000) 1) cap) := rfl
    _ = Duration.fromMillis (min (max (saturatingAdd (saturatingMul (exponentialDelay base cap ordinal)
          (jitterBps sha256 ordinal seed)) 9999 / 10000) 1) cap) := by rw [hscaled, hjitter, exponentialDelay]
    _ = Duration.fromMillis (exactBackoff sha256 base cap ordinal seed) := by rw [hproduct, hrounded, exactBackoff]

end Backoff

section Plan
variable {sha256 : Sha256} {policy : RetryPolicy} {error : ProviderError} {ordinal : Nat}
  {seed : Text}

theorem RetryPolicy.Valid.delayFor_pos (h : policy.Valid) : 0 < (policy.delayFor sha256 error ordinal seed).1 := by
  have hmin : 10 ≤ policy.baseDelayMs := h.base.1
  have hcap : policy.baseDelayMs ≤ policy.maxDelayMs := h.base.2
  unfold RetryPolicy.delayFor
  split
  · rename_i delay hdelay
    have hpos : delay ≠ 0 := of_decide_eq_true (Option.mem_filter_iff.mp hdelay).2
    exact lt_min (Nat.pos_of_ne_zero hpos) (Nat.mul_pos (by omega) (by decide))
  · have hrange : WithinRange sha256 policy.baseDelayMs policy.maxDelayMs ordinal seed :=
      withinRange_of_le (hcap.trans h.delay) h.delay
    have hstep := @base_le_exponentialDelay _ _ ordinal hcap
    obtain ⟨hlow, -⟩ := @exactBackoff_bounds sha256 _ _ ordinal seed (by omega : 1 ≤ policy.baseDelayMs) hcap
    dsimp only
    rw [deterministicBackoff_eq hrange]
    exact Nat.mul_pos (by omega) (by decide)

end Plan

/-- Under every policy that passes validation, the back-off stays within its numbers and between half of its step and
the step, which grows with the retries, and no plan waits for nothing or longer than the policy lets it. -/
theorem backoff_within_step (sha256 : Sha256) (input : RetryPolicyInput) (provider : Text) (policy : RetryPolicy)
    (h : input.validate provider = .ok policy) :
    (∀ ordinal seed, WithinRange sha256 policy.baseDelayMs policy.maxDelayMs ordinal seed ∧
      ∃ delay, deterministicBackoff sha256 policy.baseDelayMs policy.maxDelayMs ordinal seed =
          Duration.fromMillis delay ∧
        delay = exactBackoff sha256 policy.baseDelayMs policy.maxDelayMs ordinal seed ∧
        (exponentialDelay policy.baseDelayMs policy.maxDelayMs ordinal + 1) / 2 ≤ delay ∧
        delay ≤ exponentialDelay policy.baseDelayMs policy.maxDelayMs ordinal ∧
        1 ≤ delay ∧ delay ≤ policy.maxDelayMs) ∧
    Monotone (exponentialDelay policy.baseDelayMs policy.maxDelayMs) ∧
    ∀ error ordinal spent seed plan, policy.plan sha256 error ordinal spent seed = some plan →
      0 < plan.delay ∧ plan.delay ≤ Duration.fromMillis policy.maxDelayMs := by
  have hvalid := RetryPolicyInput.validate_valid h
  have hmin : 10 ≤ policy.baseDelayMs := hvalid.base.1
  have hcap : policy.baseDelayMs ≤ policy.maxDelayMs := hvalid.base.2
  refine ⟨?_, exponentialDelay_mono _ _, ?_⟩
  · intro ordinal seed
    have hrange : WithinRange sha256 policy.baseDelayMs policy.maxDelayMs ordinal seed :=
      withinRange_of_le (hcap.trans hvalid.delay) hvalid.delay
    have hstep := @base_le_exponentialDelay _ _ ordinal hcap
    have hlimit := exponentialDelay_le policy.baseDelayMs policy.maxDelayMs ordinal
    obtain ⟨hlow, hhigh⟩ := @exactBackoff_bounds sha256 _ _ ordinal seed (by omega : 1 ≤ policy.baseDelayMs) hcap
    exact ⟨hrange, _, deterministicBackoff_eq hrange, rfl, hlow, hhigh, by omega, hhigh.trans hlimit⟩
  · intro error ordinal spent seed plan hplan
    obtain ⟨-, -, -, hdelay, -⟩ := RetryPolicy.plan_eq_some hplan
    rw [hdelay]
    exact ⟨hvalid.delayFor_pos, RetryPolicy.delayFor_le⟩

def longestDelays : RetryPolicyInput where
  maxRetries := 5
  baseDelayMs := 300000
  maxDelayMs := 300000
  maxTotalDelayMs := 900000

theorem backoff_within_step_longest : ∃ policy, longestDelays.validate "claude".toList = .ok policy ∧
    ∃ delay, deterministicBackoff (fun _ _ => 0) policy.baseDelayMs policy.maxDelayMs 5 [] = Duration.fromMillis delay ∧
      150000 ≤ delay ∧ delay ≤ 300000 := by
  refine ⟨_, rfl, ?_⟩
  obtain ⟨hbackoff, -, -⟩ := backoff_within_step (fun _ _ => 0) longestDelays "claude".toList _ rfl
  obtain ⟨-, delay, hdelay, -, hlow, hhigh, -⟩ := hbackoff 5 []
  exact ⟨delay, hdelay, hlow, hhigh⟩

end AgentBridge.Runner
