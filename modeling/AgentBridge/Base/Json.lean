import AgentBridge.Base.Text
import Mathlib.Data.List.Sort

/-! JSON documents. An object keeps its members in textual order, repetitions
included: a generic reader sees the last member of a name, a typed reader
refuses a name that occurs twice. -/

inductive JsonNumber
  | posInt (n : Nat)
  | negInt (n : Nat)
  /-- A number with a fraction or an exponent, as it is printed. -/
  | float (text : Text)
deriving DecidableEq

inductive Json
  | null
  | bool (b : Bool)
  | num (n : JsonNumber)
  | str (s : Text)
  | arr (items : List Json)
  | obj (fields : List (Text × Json))

namespace Json

def charBytes (c : Char) : Nat :=
  if c = '"' ∨ c = '\\' ∨ c = '\n' ∨ c = '\r' ∨ c = '\t' ∨ c.toNat = 8 ∨ c.toNat = 12 then 2
  else if c.toNat < 0x20 then 6 else c.utf8Size

def textBytes (s : Text) : Nat := 2 + (s.map charBytes).sum

@[simp] theorem textBytes_nil : textBytes [] = 2 := rfl

theorem textBytes_le (s : Text) : textBytes s ≤ 2 + 6 * s.length := by
  unfold textBytes
  induction s with
  | nil => exact Nat.le_refl _
  | cons c s ih =>
    have hchar : charBytes c ≤ 6 := by
      have hsize := Char.utf8Size_le_four c
      unfold charBytes
      split_ifs <;> omega
    rw [List.map_cons, List.sum_cons, List.length_cons]
    omega

theorem length_lt_textBytes (s : Text) : s.length < textBytes s := by
  unfold textBytes
  induction s with
  | nil => exact Nat.zero_lt_two
  | cons c s ih =>
    have hchar : 1 ≤ charBytes c := by
      have hsize := Char.utf8Size_pos c
      unfold charBytes
      split_ifs <;> omega
    rw [List.map_cons, List.sum_cons, List.length_cons]
    omega

def numberBytes : JsonNumber → Nat
  | .posInt n => (Text.decimal n).length
  | .negInt n => 1 + (Text.decimal n).length
  | .float text => text.length

mutual
/-- Length of the compact serialisation. -/
def bytes : Json → Nat
  | null => 4
  | bool b => if b then 4 else 5
  | num n => numberBytes n
  | str s => textBytes s
  | arr items => 2 + bytesItems items
  | obj fields => 2 + bytesFields fields

def bytesItems : List Json → Nat
  | [] => 0
  | [j] => bytes j
  | j :: js => bytes j + 1 + bytesItems js

def bytesFields : List (Text × Json) → Nat
  | [] => 0
  | [(k, v)] => textBytes k + 1 + bytes v
  | (k, v) :: rest => textBytes k + 1 + bytes v + 1 + bytesFields rest
end

/-- Member `key` of an object, as an indexing reader sees it. -/
def get (key : Text) : Json → Option Json
  | obj fields => (fields.reverse.find? (fun e => e.1 = key)).map Prod.snd
  | _ => none

/-- The members a generic reader keeps: of one name the last. -/
def lastOfName {α : Type} : List (Text × α) → List (Text × α)
  | [] => []
  | e :: rest => if rest.any (fun r => r.1 = e.1) then lastOfName rest else e :: lastOfName rest

/-- The first result in the order of a generic reader's map, which sorts by name. -/
def firstByName {α : Type} (results : List (Text × Option α)) : Option α :=
  ((lastOfName results).insertionSort fun a b => a.1 ≤ b.1).findSome? Prod.snd

def asStr : Json → Option Text
  | str s => some s
  | _ => none

def asBool : Json → Option Bool
  | bool b => some b
  | _ => none

def asU64 : Json → Option Nat
  | num (.posInt n) => if n < 2 ^ 64 then some n else none
  | _ => none

def asArray : Json → Option (List Json)
  | arr items => some items
  | _ => none

/-- An unsigned integer, as it is serialised. -/
def nat (n : Nat) : Json := num (.posInt n)

def texts (values : List Text) : Json := arr (values.map str)

def optional (key : Text) : Option Json → List (Text × Json)
  | none => []
  | some value => [(key, value)]

end Json
