import AgentBridge.Base.Json
import Mathlib.Data.List.Sort

/-! Reading records from JSON documents the way derived readers do. A record
comes as an object, whose unknown members are skipped and whose known members
must not repeat, or as an array of its fields in order. -/

namespace Json

mutual
/-- The document as a generic value keeps it: of the members of one name the last
one, in key order. -/
def value : Json → Json
  | arr items => arr (valueItems items)
  | obj fields => obj (valueFields fields)
  | j => j

def valueItems : List Json → List Json
  | [] => []
  | j :: js => value j :: valueItems js

def valueFields : List (Text × Json) → List (Text × Json)
  | [] => []
  | (k, v) :: rest =>
    -- a later member of the same name replaces this one
    if rest.any (fun e => e.1 = k) then valueFields rest
    else (valueFields rest).orderedInsert (fun a b => a.1 ≤ b.1) (k, value v)
end

theorem nodup_valueFields (fields : List (Text × Json)) :
    (valueFields fields).map Prod.fst ⊆ fields.map Prod.fst ∧ ((valueFields fields).map Prod.fst).Nodup := by
  induction fields with
  | nil => exact ⟨List.Subset.refl _, List.nodup_nil⟩
  | cons e rest ih =>
    obtain ⟨k, v⟩ := e
    obtain ⟨hsub, hnodup⟩ := ih
    rw [valueFields]
    by_cases hagain : rest.any (fun e => e.1 = k) = true
    · rw [if_pos hagain]
      exact ⟨List.Subset.trans hsub (List.subset_cons_self _ _), hnodup⟩
    · rw [if_neg hagain]
      have hperm := (List.perm_orderedInsert (fun a b : Text × Json => a.1 ≤ b.1) (k, value v)
        (valueFields rest)).map Prod.fst
      have hnew : k ∉ (valueFields rest).map Prod.fst := by
        intro hmem
        obtain ⟨e, he, hk⟩ := List.mem_map.mp (hsub hmem)
        exact hagain (List.any_eq_true.mpr ⟨e, he, decide_eq_true hk⟩)
      refine ⟨?_, hperm.nodup_iff.mpr (List.nodup_cons.mpr ⟨hnew, hnodup⟩)⟩
      intro k' hk'
      rcases List.mem_cons.mp (hperm.subset hk') with rfl | hold
      · exact List.mem_cons_self
      · exact List.mem_cons_of_mem _ (hsub hold)

theorem get_of_mem {fields : List (Text × Json)} (hnodup : (fields.map Prod.fst).Nodup) {k : Text} {v : Json}
    (h : (k, v) ∈ fields) : (obj fields).get k = some v := by
  have hfind : fields.reverse.find? (fun e => e.1 = k) = some (k, v) := by
    cases hf : fields.reverse.find? (fun e => e.1 = k) with
    | none =>
      have hnone := List.find?_eq_none.mp hf (k, v) (List.mem_reverse.mpr h)
      simp at hnone
    | some e =>
      have hmem : e ∈ fields := List.mem_reverse.mp (List.mem_of_find?_eq_some hf)
      have hk : e.1 = k := by simpa using List.find?_some hf
      rw [List.inj_on_of_nodup_map hnodup hmem h hk]
  rw [get, hfind]
  rfl

end Json

namespace Decode
variable {α : Type*}

/-- What a record's fields are read from. -/
inductive Source
  | members (fields : List (Text × Json))
  | items (values : List Json)

/-- The one member of a name, if there is any; a repetition is an error. -/
def unique : List (Text × Json) → Option (Option Json)
  | [] => some none
  | [e] => some (some e.2)
  | _ => none

/-- The document of field `name`, the `i`-th of its record: an inner `none` when it
is absent, an outer one when the member repeats. -/
def Source.field (i : Nat) (name : String) : Source → Option (Option Json)
  | .members fields => unique (fields.filter fun e => e.1 = name.toList)
  | .items values => some values[i]?

def Source.required (s : Source) (i : Nat) (name : String) (read : Json → Option α) : Option α :=
  (s.field i name).bind fun found => found.bind read

def Source.defaulted (s : Source) (i : Nat) (name : String) (default : α) (read : Json → Option α) :
    Option α :=
  (s.field i name).bind fun found => found.elim (some default) read

/-- An optional field without a default: it may be left out of an object only. -/
def Source.optional (s : Source) (i : Nat) (name : String) (read : Json → Option (Option α)) :
    Option (Option α) :=
  match s with
  | .members _ => s.defaulted i name none read
  | .items _ => s.required i name read

/-- A record of `n` fields. -/
def record (n : Nat) (build : Source → Option α) : Json → Option α
  | .obj fields => build (.members fields)
  | .arr items => if items.length ≤ n then build (.items items) else none
  | _ => none

def nullable (read : Json → Option α) : Json → Option (Option α)
  | .null => some none
  | j => (read j).map some

def list (read : Json → Option α) : Json → Option (List α)
  | .arr items => items.mapM read
  | _ => none

/-- An unsigned integer of `w` bits. -/
def uint (w : Nat) : Json → Option Nat
  | .num (.posInt n) => if n < 2 ^ w then some n else none
  | _ => none

/-- A variant without data, by its name or as the one member of an object. -/
def variant (variants : List (String × α)) : Json → Option α
  | .str name => (variants.find? fun v => v.1.toList = name).map Prod.snd
  | .obj [(name, .null)] => (variants.find? fun v => v.1.toList = name).map Prod.snd
  | _ => none

def generic (j : Json) : Option Json := some j.value

/-- Where a document has a text under the name, a record that is read from it has this text in the field. -/
def Names (name : String) (read : Json → Option α) (field : α → Text) : Prop :=
  ∀ j a t, read j = some a → (j.get name.toList).bind Json.asStr = some t → field a = t

section Names
variable {n i : Nat} {name : String} {build : Source → Option α} {field : α → Text} {fields : List (Text × Json)}

theorem get_of_field {found : Option Json} (h : (Source.members fields).field i name = some found) :
    (Json.obj fields).get name.toList = found := by
  have hlast : fields.reverse.find? (fun e => e.1 = name.toList) =
      (fields.filter fun e => e.1 = name.toList).getLast? := by
    rw [← List.head?_filter, List.filter_reverse, List.head?_reverse]
  rw [Json.get, hlast]
  rw [Source.field] at h
  generalize (fields.filter fun e => e.1 = name.toList) = members at h ⊢
  match members, h with
  | [], h | [e], h =>
    cases h
    rfl
  | _ :: _ :: _, h => cases h

theorem members_of_record {j : Json} {a : α} {t : Text} (hread : record n build j = some a)
    (ht : (j.get name.toList).bind Json.asStr = some t) :
    ∃ fields, j = .obj fields ∧ build (.members fields) = some a := by
  cases j with
  | obj fields => exact ⟨fields, rfl, hread⟩
  | arr items => cases ht
  | null | bool b | num n | str s => cases hread

theorem Names.required (i : Nat) (h : ∀ s a, build s = some a → s.required i name Json.asStr = some (field a)) :
    Names name (record n build) field := by
  intro j a t hread ht
  obtain ⟨fields, rfl, hbuild⟩ := members_of_record hread ht
  obtain ⟨found, hfield, hfound⟩ := Option.bind_eq_some_iff.mp (h _ a hbuild)
  rw [get_of_field hfield, hfound] at ht
  exact Option.some.inj ht

theorem Names.defaulted (i : Nat) (default : Text)
    (h : ∀ s a, build s = some a → s.defaulted i name default Json.asStr = some (field a)) :
    Names name (record n build) field := by
  intro j a t hread ht
  obtain ⟨fields, rfl, hbuild⟩ := members_of_record hread ht
  obtain ⟨found, hfield, hfound⟩ := Option.bind_eq_some_iff.mp (h _ a hbuild)
  rw [get_of_field hfield] at ht
  cases found with
  | none => cases ht
  | some value => exact Option.some.inj (hfound.symm.trans ht)

end Names

end Decode
