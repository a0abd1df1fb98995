import Mathlib.Data.Finset.Card
import Mathlib.Data.List.AList
import Mathlib.Data.List.Sort

/-! Keyed stores: an `AList` at a constant value type, with the operations a
hash map offers. Iteration follows the entry list; a hash map promises no order,
so no statement about a table depends on it. -/

structure Table (κ : Type*) (α : Type*) where
  toAList : AList (fun _ : κ => α)

namespace Table
variable {κ α β : Type*}

def empty : Table κ α := ⟨∅⟩

def values (t : Table κ α) : List α := t.toAList.entries.map Sigma.snd

def size (t : Table κ α) : Nat := t.toAList.entries.length

def retain (p : α → Bool) (t : Table κ α) : Table κ α :=
  ⟨⟨t.toAList.entries.filter (fun e => p e.2),
    List.NodupKeys.sublist List.filter_sublist t.toAList.nodupKeys⟩⟩

/-- Some entry whose value satisfies `p`, with its key. -/
def findEntry (p : α → Bool) (t : Table κ α) : Option (κ × α) :=
  (t.toAList.entries.find? (fun e => p e.2)).map fun e => (e.1, e.2)

/-- Every value rewritten under its key. -/
def map (f : κ → α → α) (t : Table κ α) : Table κ α :=
  ⟨⟨t.toAList.entries.map fun e => ⟨e.1, f e.1 e.2⟩, by
    rw [List.NodupKeys, List.keys, List.map_map]
    exact t.toAList.nodupKeys⟩⟩

variable [DecidableEq κ]

def get (t : Table κ α) (k : κ) : Option α := t.toAList.lookup k

def contains (t : Table κ α) (k : κ) : Bool := (t.get k).isSome

def insert (t : Table κ α) (k : κ) (a : α) : Table κ α := ⟨t.toAList.insert k a⟩

def remove (t : Table κ α) (k : κ) : Table κ α := ⟨t.toAList.erase k⟩

@[simp] theorem get_empty (k : κ) : (empty : Table κ α).get k = none := rfl

@[simp] theorem get_insert_self (t : Table κ α) (k : κ) (a : α) : (t.insert k a).get k = some a :=
  AList.lookup_insert _

theorem get_insert_ne {t : Table κ α} {k k' : κ} {a : α} (h : k' ≠ k) :
    (t.insert k a).get k' = t.get k' := AList.lookup_insert_ne h

theorem get_insert (t : Table κ α) (k k' : κ) (a : α) :
    (t.insert k a).get k' = if k' = k then some a else t.get k' := by
  split_ifs with h
  · rw [h, get_insert_self]
  · exact get_insert_ne h

theorem contains_insert (t : Table κ α) (k k' : κ) (a : α) :
    (t.insert k a).contains k' = true ↔ k' = k ∨ t.contains k' = true := by
  rw [contains, get_insert]
  split_ifs with h
  · exact iff_of_true rfl (.inl h)
  · rw [or_iff_right h]
    rfl

@[simp] theorem get_remove_self (t : Table κ α) (k : κ) : (t.remove k).get k = none :=
  AList.lookup_erase _ _

theorem get_remove_ne {t : Table κ α} {k k' : κ} (h : k' ≠ k) :
    (t.remove k).get k' = t.get k' := AList.lookup_erase_ne h

theorem mem_entries {t : Table κ α} {k : κ} {a : α} :
    (⟨k, a⟩ : Sigma fun _ : κ => α) ∈ t.toAList.entries ↔ t.get k = some a :=
  AList.mem_lookup_iff.symm

theorem mem_values {t : Table κ α} {a : α} : a ∈ t.values ↔ ∃ k, t.get k = some a := by
  constructor
  · intro h
    obtain ⟨⟨k, b⟩, he, rfl⟩ := List.mem_map.mp h
    exact ⟨k, mem_entries.mp he⟩
  · rintro ⟨k, h⟩
    exact List.mem_map.mpr ⟨⟨k, a⟩, mem_entries.mpr h, rfl⟩

theorem values_pairwise {t : Table κ α} {R : α → α → Prop}
    (h : ∀ k k' a b, k ≠ k' → t.get k = some a → t.get k' = some b → R a b) : t.values.Pairwise R := by
  refine List.pairwise_map.mpr (List.Pairwise.imp_of_mem ?_ (List.nodupKeys_iff_pairwise.mp t.toAList.nodupKeys))
  rintro ⟨k, a⟩ ⟨k', b⟩ ha hb hne
  exact h k k' a b hne (mem_entries.mp ha) (mem_entries.mp hb)

theorem get_retain_eq_some {p : α → Bool} {t : Table κ α} {k : κ} {a : α} :
    (t.retain p).get k = some a ↔ t.get k = some a ∧ p a = true := by
  rw [← mem_entries, ← mem_entries]
  exact List.mem_filter

theorem mem_values_retain {p : α → Bool} {t : Table κ α} {a : α} :
    a ∈ (t.retain p).values ↔ a ∈ t.values ∧ p a = true := by
  simp only [mem_values, get_retain_eq_some, exists_and_right]

theorem mem_values_insert {t : Table κ α} {k : κ} {a b : α} (h : b ∈ (t.insert k a).values) :
    b = a ∨ b ∈ t.values := by
  obtain ⟨k', hk⟩ := mem_values.mp h
  rw [get_insert] at hk
  split_ifs at hk
  · exact .inl (Option.some.inj hk).symm
  · exact .inr (mem_values.mpr ⟨k', hk⟩)

theorem mem_values_remove {t : Table κ α} {k : κ} {b : α} (h : b ∈ (t.remove k).values) :
    b ∈ t.values := by
  obtain ⟨k', hk⟩ := mem_values.mp h
  by_cases he : k' = k
  · rw [he, get_remove_self] at hk
    cases hk
  · rw [get_remove_ne he] at hk
    exact mem_values.mpr ⟨k', hk⟩

theorem findEntry_eq_some {p : α → Bool} {t : Table κ α} {k : κ} {a : α}
    (h : t.findEntry p = some (k, a)) : t.get k = some a ∧ p a = true := by
  obtain ⟨e, hf, he⟩ := Option.map_eq_some_iff.mp h
  obtain ⟨rfl, rfl⟩ := Prod.mk.inj he
  exact ⟨mem_entries.mp (List.mem_of_find?_eq_some hf), by simpa using List.find?_some hf⟩

omit [DecidableEq κ] in
theorem findEntry_eq_none {p : α → Bool} {t : Table κ α} (h : t.findEntry p = none) {a : α}
    (ha : a ∈ t.values) : p a = false := by
  obtain ⟨e, he, rfl⟩ := List.mem_map.mp ha
  simpa using List.find?_eq_none.mp (Option.map_eq_none_iff.mp h) e he

omit [DecidableEq κ] in
theorem findEntry_none {p : α → Bool} {t : Table κ α} (h : ∀ a ∈ t.values, p a = false) : t.findEntry p = none := by
  refine Option.map_eq_none_iff.mpr (List.find?_eq_none.mpr fun e he => ?_)
  simpa using h e.2 (List.mem_map.mpr ⟨e, he, rfl⟩)

theorem findEntry_retain_insert {p q : α → Bool} {t : Table κ α} {k : κ} {a : α} (hp : p a = true) (hq : q a = true) :
    ((t.insert k a).retain q).findEntry p = some (k, a) := by
  have hentries : (t.insert k a).toAList.entries = ⟨k, a⟩ :: List.kerase k t.toAList.entries := rfl
  have hhead : ((t.insert k a).retain q).toAList.entries =
      ⟨k, a⟩ :: (List.kerase k t.toAList.entries).filter fun e => q e.2 := by
    unfold retain
    dsimp only
    rw [hentries]
    exact List.filter_cons_of_pos (p := fun e : Sigma fun _ : κ => α => q e.2) hq
  rw [findEntry, hhead]
  exact congrArg (Option.map _) (List.find?_cons_of_pos (p := fun e : Sigma fun _ : κ => α => p e.2) hp)

section Keys
variable {t : Table κ α} {k : κ}

/-- The keys in use, as a set. -/
def keySet (t : Table κ α) : Finset κ := t.toAList.keys.toFinset

theorem mem_keySet : k ∈ t.keySet ↔ t.contains k = true := by
  rw [keySet, List.mem_toFinset, contains, get, AList.lookup_isSome]
  rfl

theorem card_keySet : t.keySet.card = t.size := by
  rw [keySet, List.toFinset_card_of_nodup (AList.keys_nodup _)]
  exact List.length_map _

@[simp] theorem keySet_empty : (empty : Table κ α).keySet = ∅ := rfl

@[simp] theorem keySet_insert (a : α) : (t.insert k a).keySet = Insert.insert k t.keySet := by
  ext k'
  rw [mem_keySet, Finset.mem_insert, mem_keySet, contains, get_insert]
  by_cases h : k' = k
  · simp [h]
  · simp [h, contains]

@[simp] theorem keySet_remove : (t.remove k).keySet = t.keySet.erase k := by
  ext k'
  rw [mem_keySet, Finset.mem_erase, mem_keySet, contains]
  by_cases h : k' = k
  · simp [h]
  · simp [h, contains, get_remove_ne h]

end Keys

section Map

omit [DecidableEq κ] in
@[simp] theorem size_map (f : κ → α → α) (t : Table κ α) : (t.map f).size = t.size := List.length_map _

omit [DecidableEq κ] in
theorem values_map (f : κ → α → α) (t : Table κ α) :
    (t.map f).values = t.toAList.entries.map fun e => f e.1 e.2 := List.map_map

omit [DecidableEq κ] in
theorem map_values_map {f : κ → α → α} {g : α → β} (h : ∀ k a, g (f k a) = g a) (t : Table κ α) :
    (t.map f).values.map g = t.values.map g := by
  rw [values_map, values, List.map_map, List.map_map]
  exact List.map_congr_left fun e _ => h e.1 e.2

omit [DecidableEq κ] in
theorem values_insertionSort (r : α → α → Prop) [DecidableRel r] (t : Table κ α) : t.values.insertionSort r =
    (t.toAList.entries.insertionSort fun e e' => r e.2 e'.2).map Sigma.snd :=
  (List.map_insertionSort (fun (e e' : Sigma fun _ : κ => α) => r e.2 e'.2) r Sigma.snd _
    fun _ _ _ _ => Iff.rfl).symm

omit [DecidableEq κ] in
theorem map_eq_self {f : κ → α → α} (h : ∀ k a, f k a = a) (t : Table κ α) : t.map f = t := by
  refine congrArg Table.mk (AList.ext ?_)
  exact (List.map_congr_left fun e _ => congrArg (Sigma.mk e.1) (h e.1 e.2)).trans (List.map_id _)

omit [DecidableEq κ] in
theorem values_map_insertionSort {f : κ → α → α} {r : α → α → Prop} [DecidableRel r]
    (h : ∀ k a k' b, r (f k a) (f k' b) ↔ r a b) (t : Table κ α) :
    (t.map f).values.insertionSort r =
      (t.toAList.entries.insertionSort fun e e' => r e.2 e'.2).map fun e => f e.1 e.2 := by
  rw [values_map]
  exact (List.map_insertionSort _ _ _ _ fun a _ b _ => (h a.1 a.2 b.1 b.2).symm).symm

theorem get_map (f : κ → α → α) (t : Table κ α) (k : κ) : (t.map f).get k = (t.get k).map (f k) := by
  ext b
  simp only [Option.map_eq_some_iff, ← mem_entries]
  constructor
  · intro h
    obtain ⟨⟨k', a⟩, ha, he⟩ := List.mem_map.mp h
    cases he
    exact ⟨a, ha, rfl⟩
  · rintro ⟨a, ha, rfl⟩
    exact List.mem_map.mpr ⟨⟨k, a⟩, ha, rfl⟩

@[simp] theorem contains_map (f : κ → α → α) (t : Table κ α) (k : κ) : (t.map f).contains k = t.contains k := by
  rw [contains, get_map, Option.isSome_map, contains]

theorem map_insert (f : κ → α → α) (t : Table κ α) (k : κ) (a : α) :
    (t.insert k a).map f = (t.map f).insert k (f k a) := by
  refine congrArg Table.mk (AList.ext ?_)
  change (List.kinsert k a t.toAList.entries).map (fun e => (⟨e.1, f e.1 e.2⟩ : Sigma fun _ : κ => α)) =
    List.kinsert k (f k a) (t.toAList.entries.map fun e => ⟨e.1, f e.1 e.2⟩)
  rw [List.kinsert, List.kinsert, List.map_cons]
  refine congrArg _ ?_
  unfold List.kerase
  rw [List.eraseP_map]
  rfl

end Map

end Table
