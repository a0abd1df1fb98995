import AgentBridge.Base.KeySet
import AgentBridge.Base.Result
import AgentBridge.Base.Text
import AgentBridge.Base.Word
import Mathlib.Tactic.SplitIfs

/-! The runner's retry policy: which provider errors are tried again, after which
delay, and within which budget of delays. -/

namespace AgentBridge

/-- A span of time, in nanoseconds. -/
abbrev Duration := Nat

namespace Duration

def max : Duration := u64Max * 1000000000 + 999999999

def fromMillis (ms : Nat) : Duration := ms * 1000000

def asMillis (d : Duration) : Nat := d / 1000000

def saturatingAdd (a b : Duration) : Duration := min (a + b) max

end Duration

inductive ProviderTransportKind
  | connect | timeout | request | responseBody
deriving DecidableEq

inductive ProviderFailureKind
  | rateLimited | overloaded | temporarilyUnavailable | serverError
deriving DecidableEq

inductive ProviderError
  | invalidConfig (message : Text)
  | missingCredential (name : Text)
  | promptTooLarge
  | transport (kind : ProviderTransportKind)
  | httpStatus (status : Nat) (retryAfter : Option Duration) (failureKind : Option ProviderFailureKind)
  | responseTooLarge
  | invalidResponse
deriving DecidableEq

namespace ProviderError

def transportKind : ProviderError → Option ProviderTransportKind
  | .transport kind => some kind
  | _ => none

def status : ProviderError → Option Nat
  | .httpStatus status _ _ => some status
  | _ => none

def retryAfter : ProviderError → Option Duration
  | .httpStatus _ retryAfter _ => retryAfter
  | _ => none

def failureKind : ProviderError → Option ProviderFailureKind
  | .httpStatus _ _ failureKind => failureKind
  | _ => none

end ProviderError

namespace Runner

def absMaxRetries : Nat := 5
def minDelayMs : Nat := 10
def absMaxDelayMs : Nat := 300000
def absMaxTotalDelayMs : Nat := 900000

structure RetryPolicy where
  maxRetries : Nat
  baseDelayMs : Nat
  maxDelayMs : Nat
  maxTotalDelayMs : Nat
  retryableStatuses : KeySet Nat
  retryConnectErrors : Bool
  retryTimeoutErrors : Bool

inductive RetryDelaySource
  | retryAfter | exponentialJitter
deriving DecidableEq

inductive RetryReason
  | connect
  | timeout
  | httpStatus (status : Nat)
  | rateLimited (status : Nat)
  | overloaded (status : Nat)
  | temporarilyUnavailable (status : Nat)
  | serverError (status : Nat)
deriving DecidableEq

structure RetryPlan where
  retryOrdinal : Nat
  delay : Duration
  delaySource : RetryDelaySource
  reason : RetryReason
deriving DecidableEq

inductive RetryConfigError
  | invalid (message : Text)
deriving DecidableEq

/-- A retry policy as the configuration document gives it. -/
structure RetryPolicyInput where
  maxRetries : Nat := 0
  baseDelayMs : Nat := 250
  maxDelayMs : Nat := 5000
  maxTotalDelayMs : Nat := 15000
  retryableStatuses : List Nat := [408, 425, 429, 500, 502, 503, 504, 529]
  retryConnectErrors : Bool := true
  retryTimeoutErrors : Bool := false

def statusMayBeRetried (status : Nat) : Bool :=
  status ∈ [408, 409, 425, 429, 500, 502, 503, 504, 529]

namespace RetryPolicyInput

def disabled : RetryPolicyInput := {}

def refuse (provider : Text) (problem : Text) : RetryConfigError :=
  .invalid ("provider '".toList ++ provider ++ "' ".toList ++ problem)

/-- The set of the statuses, each checked as it is added. -/
def collectStatuses (provider : Text) (statuses : KeySet Nat) :
    List Nat → Except RetryConfigError (KeySet Nat)
  | [] => .ok statuses
  | status :: rest =>
    if !statusMayBeRetried status then
      .error (refuse provider
        ("status ".toList ++ Text.decimal status ++ " is not an allowed retry status".toList))
    else collectStatuses provider (statuses.insert status) rest

def validate (input : RetryPolicyInput) (provider : Text) : Except RetryConfigError RetryPolicy :=
  if absMaxRetries < input.maxRetries then
    .error (refuse provider ("max_retries must be <= ".toList ++ Text.decimal absMaxRetries))
  else if ¬ (minDelayMs ≤ input.baseDelayMs ∧ input.baseDelayMs ≤ absMaxDelayMs) then
    .error (refuse provider ("base_delay_ms must be between ".toList ++ Text.decimal minDelayMs ++
      " and ".toList ++ Text.decimal absMaxDelayMs))
  else if input.maxDelayMs < input.baseDelayMs ∨ absMaxDelayMs < input.maxDelayMs then
    .error (refuse provider
      ("max_delay_ms must be >= base_delay_ms and <= ".toList ++ Text.decimal absMaxDelayMs))
  else if input.maxTotalDelayMs < input.baseDelayMs ∨ absMaxTotalDelayMs < input.maxTotalDelayMs then
    .error (refuse provider
      ("max_total_delay_ms must be >= base_delay_ms and <= ".toList ++
        Text.decimal absMaxTotalDelayMs))
  else if 32 < input.retryableStatuses.length then
    .error (refuse provider "retryable_statuses exceeds 32 entries".toList)
  else do
    let statuses ← collectStatuses provider KeySet.empty input.retryableStatuses
    return {
      maxRetries := input.maxRetries
      baseDelayMs := input.baseDelayMs
      maxDelayMs := input.maxDelayMs
      maxTotalDelayMs := input.maxTotalDelayMs
      retryableStatuses := statuses
      retryConnectErrors := input.retryConnectErrors
      retryTimeoutErrors := input.retryTimeoutErrors }

end RetryPolicyInput

structure RetryPolicy.Valid (policy : RetryPolicy) : Prop where
  retries : policy.maxRetries ≤ absMaxRetries
  base : minDelayMs ≤ policy.baseDelayMs ∧ policy.baseDelayMs ≤ policy.maxDelayMs
  delay : policy.maxDelayMs ≤ absMaxDelayMs
  total : policy.baseDelayMs ≤ policy.maxTotalDelayMs ∧ policy.maxTotalDelayMs ≤ absMaxTotalDelayMs

theorem RetryPolicyInput.validate_valid {input : RetryPolicyInput} {provider : Text}
    {policy : RetryPolicy} (h : input.validate provider = .ok policy) : policy.Valid := by
  unfold RetryPolicyInput.validate at h
  obtain ⟨hretries, h⟩ := Except.check_eq_ok.mp h
  obtain ⟨hbase, h⟩ := Except.check_eq_ok.mp h
  obtain ⟨hdelay, h⟩ := Except.check_eq_ok.mp h
  obtain ⟨htotal, h⟩ := Except.check_eq_ok.mp h
  obtain ⟨-, h⟩ := Except.check_eq_ok.mp h
  obtain ⟨statuses, -, h⟩ := Except.bind_eq_ok.mp h
  obtain rfl : _ = policy := Except.ok.inj h
  push Not at hbase hdelay htotal
  exact { retries := Nat.le_of_not_lt hretries
          base := ⟨hbase.1, hdelay.1⟩
          delay := hdelay.2
          total := htotal }

/-- The digest of a byte string: 32 bytes. -/
abbrev Sha256 := List UInt8 → Fin 32 → UInt8

def deterministicBackoff (sha256 : Sha256) (baseDelayMs maxDelayMs retryOrdinal : Nat) (seed : Text) :
    Duration :=
  let exponent := min (retryOrdinal - 1) 20
  let exponential := min (saturatingMul baseDelayMs (2 ^ exponent)) maxDelayMs
  let digest := sha256 (seed.flatMap String.utf8EncodeChar ++ [UInt8.ofNat retryOrdinal])
  let sample := (digest 0).toNat * 256 + (digest 1).toNat
  let jitterBps := saturatingAdd 5000 (sample % 5001)
  let jittered := saturatingAdd (saturatingMul exponential jitterBps) 9999 / 10000
  Duration.fromMillis (min (max jittered 1) maxDelayMs)

/-- The first two bytes of the digest. -/
def jitterSample (sha256 : Sha256) (retryOrdinal : Nat) (seed : Text) : Nat :=
  let digest := sha256 (seed.flatMap String.utf8EncodeChar ++ [UInt8.ofNat retryOrdinal])
  (digest 0).toNat * 256 + (digest 1).toNat

theorem deterministicBackoff_le (sha256 : Sha256) (base maxDelayMs ordinal : Nat) (seed : Text) :
    deterministicBackoff sha256 base maxDelayMs ordinal seed ≤ Duration.fromMillis maxDelayMs :=
  Nat.mul_le_mul_right _ (min_le_right _ _)

namespace RetryPolicy
variable {sha256 : Sha256} {policy : RetryPolicy} {error : ProviderError} {ordinal : Nat}
  {spent : Duration} {seed : Text}

def retryReason (policy : RetryPolicy) (error : ProviderError) : Option RetryReason :=
  match error.transportKind with
  | some .connect => if policy.retryConnectErrors then some .connect else none
  | some .timeout => if policy.retryTimeoutErrors then some .timeout else none
  | some .request => none
  | some .responseBody => none
  | none =>
    match error.status with
    | none => none
    | some status =>
      if status ∉ policy.retryableStatuses then none
      else match error.failureKind with
      | some .rateLimited => some (.rateLimited status)
      | some .overloaded => some (.overloaded status)
      | some .temporarilyUnavailable => some (.temporarilyUnavailable status)
      | some .serverError => some (.serverError status)
      | none => some (.httpStatus status)

/-- The delay before retry `retryOrdinal`, and where it comes from. -/
def delayFor (sha256 : Sha256) (policy : RetryPolicy) (error : ProviderError) (retryOrdinal : Nat)
    (seed : Text) : Duration × RetryDelaySource :=
  match error.retryAfter.filter (fun delay => delay ≠ 0) with
  | some delay => (min delay (Duration.fromMillis policy.maxDelayMs), .retryAfter)
  | none =>
    (deterministicBackoff sha256 policy.baseDelayMs policy.maxDelayMs retryOrdinal seed,
      .exponentialJitter)

def plan (sha256 : Sha256) (policy : RetryPolicy) (error : ProviderError) (retryOrdinal : Nat)
    (spentDelay : Duration) (seed : Text) : Option RetryPlan :=
  if retryOrdinal = 0 ∨ policy.maxRetries < retryOrdinal then none
  else match policy.retryReason error with
  | none => none
  | some reason =>
    let (delay, delaySource) := policy.delayFor sha256 error retryOrdinal seed
    if Duration.fromMillis policy.maxTotalDelayMs < Duration.saturatingAdd spentDelay delay then none
    else some { retryOrdinal, delay, delaySource, reason }

theorem delayFor_le : (policy.delayFor sha256 error ordinal seed).1 ≤
    Duration.fromMillis policy.maxDelayMs := by
  unfold delayFor
  split
  · exact min_le_right _ _
  · exact deterministicBackoff_le _ _ _ _ _

/-- What a plan says: the retry it is for, one of those allowed, and its delay, which what is left of the bound on
all delays admits. -/
theorem plan_eq_some {p : RetryPlan} (h : policy.plan sha256 error ordinal spent seed = some p) :
    p.retryOrdinal = ordinal ∧ 0 < ordinal ∧ ordinal ≤ policy.maxRetries ∧
      p.delay = (policy.delayFor sha256 error ordinal seed).1 ∧
      Duration.saturatingAdd spent p.delay ≤ Duration.fromMillis policy.maxTotalDelayMs := by
  unfold RetryPolicy.plan at h
  split_ifs at h with hordinal
  push Not at hordinal
  cases hreason : policy.retryReason error with
  | none =>
    rw [hreason] at h
    cases h
  | some reason =>
    simp only [hreason] at h
    split_ifs at h with hspent
    obtain rfl := Option.some.inj h
    exact ⟨rfl, Nat.pos_of_ne_zero hordinal.1, hordinal.2, rfl, Nat.le_of_not_lt hspent⟩

theorem Valid.saturatingAdd_eq (hvalid : policy.Valid)
    {delay : Duration} (h : Duration.saturatingAdd spent delay ≤ Duration.fromMillis policy.maxTotalDelayMs) :
    Duration.saturatingAdd spent delay = spent + delay := by
  have hbound : policy.maxTotalDelayMs ≤ 900000 := hvalid.total.2
  have hroom : Duration.fromMillis policy.maxTotalDelayMs < Duration.max := by
    change policy.maxTotalDelayMs * 1000000 < (2 ^ 64 - 1) * 1000000000 + 999999999
    omega
  rcases min_le_iff.mp h with hsum | hmax
  · exact min_eq_left (hsum.trans hroom.le)
  · exact absurd hmax (Nat.not_le_of_lt hroom)

end RetryPolicy
end Runner
end AgentBridge
