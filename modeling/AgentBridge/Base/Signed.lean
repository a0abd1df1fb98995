import AgentBridge.Base.Word
import Mathlib.Data.Int.Order.Basic

/-! Signed integers of 64 bits: the operations that do not overflow, and their decimal notation. -/

abbrev I64 := { n : Int // -2 ^ 63 ≤ n ∧ n < 2 ^ 63 }

namespace I64

def saturatingSub (a b : I64) : I64 :=
  ⟨max (-2 ^ 63) (min (a.val - b.val) (2 ^ 63 - 1)), by omega⟩

/-- The cast to a `u64`, which takes the bits as they are. -/
def asU64 (a : I64) : Nat := (a.val % 2 ^ 64).toNat

def absDiff (a b : I64) : Nat := (a.val - b.val).natAbs

def plus : Nat := 43
def minus : Nat := 45

/-- The sign and the digits of a number in decimal notation. -/
def signed : List Nat → Bool × List Nat
  | [] => (false, [])
  | byte :: rest =>
    if byte = minus then (true, rest) else if byte = plus then (false, rest) else (false, byte :: rest)

/-- `i64::from_str` on the bytes of the text: an optional sign and at least one digit, in range. -/
def parse (bytes : List Nat) : Option I64 :=
  let (negative, digits) := signed bytes
  if digits = [] ∨ ¬ digits.all fun byte => 48 ≤ byte && byte ≤ 57 then none
  else
    let magnitude : Nat := digits.foldl (fun n byte => 10 * n + (byte - 48)) 0
    let value : Int := if negative then -magnitude else magnitude
    if h : -2 ^ 63 ≤ value ∧ value < 2 ^ 63 then some ⟨value, h⟩ else none

variable {a b : I64}

theorem asU64_of_nonneg (h : 0 ≤ a.val) : (asU64 a : Int) = a.val := by
  have hrange := a.property
  unfold asU64
  omega

theorem asU64_saturatingSub (h : b.val ≤ a.val) : asU64 (saturatingSub a b) = min (absDiff a b) i64Max := by
  have hvalue : (saturatingSub a b).val = max (-2 ^ 63) (min (a.val - b.val) (2 ^ 63 - 1)) := rfl
  have hnonneg : 0 ≤ (saturatingSub a b).val := by omega
  have hcast := asU64_of_nonneg hnonneg
  unfold absDiff i64Max
  omega

theorem absDiff_comm (a b : I64) : absDiff a b = absDiff b a := by
  unfold absDiff
  omega

/-- A `u64` holds every difference. -/
theorem absDiff_le (a b : I64) : absDiff a b ≤ u64Max := by
  have ha := a.property
  have hb := b.property
  unfold absDiff u64Max
  omega

end I64
