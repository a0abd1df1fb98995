import AgentBridge.Base.Text
import AgentBridge.Base.Url

/-! Addresses as the Rust standard library reads them. A reader gives what it read and the rest of the text. -/

structure Ipv4Addr where
  octets : Vector (Fin 256) 4
deriving DecidableEq

structure Ipv6Addr where
  segments : Vector (Fin 65536) 8
deriving DecidableEq

inductive IpAddr
  | v4 (address : Ipv4Addr)
  | v6 (address : Ipv6Addr)
deriving DecidableEq

namespace IpAddr

def digitOf (radix : Nat) (c : Char) : Option Nat := (Url.hexDigit c).filter (· < radix)

def isDigitOf (radix : Nat) (c : Char) : Bool := (digitOf radix c).isSome

/-- A number below `limit` of at most `maxDigits` digits. -/
def readNumber (radix maxDigits limit : Nat) (allowZeroPrefix : Bool) (s : Text) : Option (Fin limit × Text) :=
  let digits := s.takeWhile (isDigitOf radix)
  let value := (digits.filterMap (digitOf radix)).foldl (fun n digit => radix * n + digit) 0
  if digits = [] ∨ digits.length > maxDigits ∨
    (!allowZeroPrefix ∧ digits.head? = some '0' ∧ 1 < digits.length) then none
  else if h : value < limit then some (⟨value, h⟩, s.drop digits.length) else none

def readChar (c : Char) : Text → Option Text
  | [] => none
  | d :: s => if d = c then some s else none

def readSeparator {α : Type} (c : Char) (first : Bool) (inner : Text → Option (α × Text)) (s : Text) :
    Option (α × Text) :=
  if first then inner s else (readChar c s).bind inner

def readIpv4Addr (s : Text) : Option (Ipv4Addr × Text) := do
  let (a, s) ← readSeparator '.' true (readNumber 10 3 256 false) s
  let (b, s) ← readSeparator '.' false (readNumber 10 3 256 false) s
  let (c, s) ← readSeparator '.' false (readNumber 10 3 256 false) s
  let (d, s) ← readSeparator '.' false (readNumber 10 3 256 false) s
  return (⟨#v[a, b, c, d]⟩, s)

def segment (high low : Fin 256) : Fin 65536 := ⟨256 * high + low, by omega⟩

/-- The groups of an address, at most `left` of them, and whether an IPv4 address ended them. -/
def readGroups : (left : Nat) → (first : Bool) → Text → List (Fin 65536) × Bool × Text
  | 0, _, s => ([], false, s)
  | left + 1, first, s =>
    match if 0 < left then readSeparator ':' first readIpv4Addr s else none with
    | some (⟨octets⟩, s) => ([segment octets[0] octets[1], segment octets[2] octets[3]], true, s)
    | none =>
      match readSeparator ':' first (readNumber 16 4 65536 true) s with
      | none => ([], false, s)
      | some (group, s) =>
        let (groups, ipv4, s) := readGroups left false s
        (group :: groups, ipv4, s)

theorem length_readGroups (left : Nat) (first : Bool) (s : Text) : (readGroups left first s).1.length ≤ left := by
  -- every group read uses up one of those left
  induction left generalizing first s with
  | zero => exact le_rfl
  | succ left ih =>
    rw [readGroups]
    split
    · rename_i hread
      split_ifs at hread with hleft
      rw [List.length_cons, List.length_singleton]
      omega
    · split
      · exact Nat.zero_le _
      · exact Nat.succ_le_succ (ih ..)

/-- The groups on both sides of `::` with the zeroes between them. -/
def joinGroups (head tail : List (Fin 65536)) (h : head.length + tail.length ≤ 8) : Ipv6Addr where
  segments := ⟨(head ++ List.replicate (8 - (head.length + tail.length)) 0 ++ tail).toArray, by simp; omega⟩

/-- The groups before `::`, where the zeroes stand, and those after it. -/
def readIpv6Addr (s : Text) : Option (Ipv6Addr × Text) :=
  match hhead : readGroups 8 true s with
  | (head, headIpv4, afterHead) =>
    if h : head.length = 8 then some (⟨⟨head.toArray, h⟩⟩, afterHead)
    else if headIpv4 then none
    else ((readChar ':' afterHead).bind (readChar ':')).map fun afterColons =>
      match htail : readGroups (8 - (head.length + 1)) true afterColons with
      | (tail, _, afterTail) =>
        have hroom : head.length + tail.length ≤ 8 := by
          have hlength := length_readGroups 8 true s
          have hlimit := length_readGroups (8 - (head.length + 1)) true afterColons
          rw [hhead] at hlength
          rw [htail] at hlimit
          dsimp only at hlength hlimit
          omega
        (joinGroups head tail hroom, afterTail)

/-- `str::parse`: an address and nothing after it. -/
def parse (s : Text) : Option IpAddr :=
  match (readIpv4Addr s).map (fun (address, s) => (v4 address, s)) <|>
      (readIpv6Addr s).map (fun (address, s) => (v6 address, s)) with
  | some (address, []) => some address
  | _ => none

def isLoopback : IpAddr → Bool
  | v4 address => address.octets[0] == 127
  | v6 address => address.segments == #v[0, 0, 0, 0, 0, 0, 0, 1]

example : (parse "::1".toList).map isLoopback = some true := by decide

example : (parse "::ffff:127.0.0.1".toList).map isLoopback = some false := by decide

end IpAddr
