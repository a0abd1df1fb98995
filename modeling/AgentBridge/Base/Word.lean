import Mathlib.Algebra.Order.Ring.Nat

/-! Arithmetic of unsigned counters of 32 and 64 bits, as natural numbers. -/

def u64Max : Nat := 2 ^ 64 - 1
def u32Max : Nat := 2 ^ 32 - 1
def i64Max : Nat := 2 ^ 63 - 1
def i32Max : Nat := 2 ^ 31 - 1

def saturatingAdd (a b : Nat) : Nat := min (a + b) u64Max

def saturatingSucc (a : Nat) : Nat := min (a + 1) u32Max

def saturatingMul (a b : Nat) : Nat := min (a * b) u64Max

def checkedAdd (a b : Nat) : Option Nat := if a + b ≤ u64Max then some (a + b) else none

/-- `AtomicU64::fetch_add(1)`: the value after the call. -/
def wrappingSucc (a : Nat) : Nat := (a + 1) % 2 ^ 64

variable {n : Nat}

theorem saturatingAdd_one (h : n < u64Max) : saturatingAdd n 1 = n + 1 := by
  unfold saturatingAdd u64Max at *
  omega

theorem saturatingSucc_of_lt (h : n < u32Max) : saturatingSucc n = n + 1 := by
  unfold saturatingSucc u32Max at *
  omega

theorem wrappingSucc_of_lt (h : n < u64Max) : wrappingSucc n = n + 1 := by
  unfold wrappingSucc u64Max at *
  omega

theorem wrappingSucc_ne (n : Nat) : wrappingSucc n ≠ n := by
  unfold wrappingSucc
  omega
