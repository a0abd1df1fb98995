import AgentBridge.Base.Json
import AgentBridge.Base.Result
import AgentBridge.Base.Table
import AgentBridge.Base.Url

/-! The `application/x-www-form-urlencoded` bodies of slash commands: the hand-written reader, and the
standard writer that re-encodes the payload of a Socket Mode frame. -/

namespace AgentBridge.Slack

inductive Error
  | config (message : Text)
  | request | policy | slack | coordinator | bridge | journal
deriving DecidableEq

def maxFormFields : Nat := 64
def socketModeMaxFrameBytes : Nat := 262144

abbrev Form := Table Text Text

/-- Of a byte. -/
def hex (value : Nat) : Option Nat :=
  if 48 ≤ value ∧ value ≤ 57 then some (value - 48)
  else if 97 ≤ value ∧ value ≤ 102 then some (value - 97 + 10)
  else if 65 ≤ value ∧ value ≤ 70 then some (value - 65 + 10)
  else none

def plusByte : Nat := 43
def percentByte : Nat := 37
def spaceByte : Nat := 32

def percentDecodeBytes : List Nat → Except Error (List Nat)
  | [] => .ok []
  | byte :: rest =>
    if byte = plusByte then (percentDecodeBytes rest).map (spaceByte :: ·)
    else if byte = percentByte then
      match rest with
      | high :: low :: rest =>
        match hex high, hex low with
        | some high, some low => (percentDecodeBytes rest).map ((16 * high + low) :: ·)
        | _, _ => .error .request
      | _ => .error .request
    else (percentDecodeBytes rest).map (byte :: ·)

def percentDecode (value : Text) : Except Error Text := do
  match Url.decodeUtf8 (← percentDecodeBytes (Url.encodeUtf8 value)) with
  | none => throw .request
  | some text => return text

/-- The loop of `parse_form`. -/
def insertPairs (output : Form) : List Text → Except Error Form
  | [] => .ok output
  | pair :: rest => do
    .refuseIf (output.size ≥ maxFormFields) .request
    let (key, value) := (Text.splitOnce '=' pair).getD (pair, [])
    let key ← percentDecode key
    let value ← percentDecode value
    .refuseIf (output.contains key = true) .request
    insertPairs (output.insert key value) rest

def parseForm (body : List Nat) : Except Error Form :=
  match Url.decodeUtf8 body with
  | none => .error .request
  | some body => insertPairs .empty ((body.splitOn '&').filter (· ≠ []))

/-! ### The standard writer -/

/-- An upper-case hexadecimal digit. -/
def hexDigit (n : Nat) : Char := if n < 10 then Char.ofNat (48 + n) else Char.ofNat (55 + n)

/-- The bytes that stand for themselves: ASCII alphanumerics and `*-._`. -/
def unreserved (byte : Nat) : Bool :=
  (48 ≤ byte && byte ≤ 57) || (65 ≤ byte && byte ≤ 90) || (97 ≤ byte && byte ≤ 122) || byte == 42 || byte == 45 ||
    byte == 46 || byte == 95

def byteSerialize (byte : Nat) : Text :=
  if unreserved byte then [Char.ofNat byte]
  else if byte = spaceByte then ['+']
  else ['%', hexDigit (byte / 16), hexDigit (byte % 16)]

def serializeText (value : Text) : Text := (Url.encodeUtf8 value).flatMap byteSerialize

def serializePair (pair : Text × Text) : Text := serializeText pair.1 ++ '=' :: serializeText pair.2

/-- What the writer has after the pairs were appended. -/
def serializeForm (pairs : List (Text × Text)) : Text := Components.join '&' (pairs.map serializePair)

/-- The string members of an object. -/
def stringFields (fields : List (Text × Json)) : List (Text × Text) :=
  fields.filterMap fun field => (Json.asStr field.2).map fun value => (field.1, value)

def socketPayloadToForm : Json → Except Error (List Nat)
  | .obj fields => do
    let carried := stringFields fields
    .refuseIf (carried.length = 0) .request
    let encoded := serializeForm carried
    .refuseIf (Text.byteLen encoded > socketModeMaxFrameBytes) .request
    return Url.encodeUtf8 encoded
  | _ => .error .request

section Bytes
variable {byte n : Nat} {rest bytes : List Nat} {s : Text}

theorem toNat_ofNat_ascii (h : n < 128) : (Char.ofNat n).toNat = n := by
  rw [Char.ofNat, dif_pos (.inl (by omega))]
  rfl

theorem encodeChar_ofNat (h : n < 128) : Url.encodeChar (Char.ofNat n) = [n] := by
  rw [Url.encodeChar, toNat_ofNat_ascii h]
  exact if_pos h

theorem hexDigit_spec (h : n < 16) : ∃ byte, Url.encodeChar (hexDigit n) = [byte] ∧ hex byte = some n := by
  unfold hexDigit
  by_cases hten : n < 10
  · rw [if_pos hten]
    refine ⟨48 + n, encodeChar_ofNat (by omega), ?_⟩
    rw [hex, if_pos (by omega), Nat.add_sub_cancel_left]
  · rw [if_neg hten]
    refine ⟨55 + n, encodeChar_ofNat (by omega), ?_⟩
    rw [hex, if_neg (by omega), if_neg (by omega), if_pos (by omega)]
    congr 1
    omega

theorem unreserved_bounds (h : unreserved byte = true) : byte < 128 ∧ byte ≠ plusByte ∧ byte ≠ percentByte := by
  simp only [unreserved, Bool.or_eq_true, Bool.and_eq_true, decide_eq_true_eq, beq_iff_eq] at h
  unfold plusByte percentByte
  omega

theorem percentDecodeBytes_cons (byte : Nat) (rest : List Nat) : percentDecodeBytes (byte :: rest) =
    if byte = plusByte then (percentDecodeBytes rest).map (spaceByte :: ·)
    else if byte = percentByte then
      match rest with
      | high :: low :: rest =>
        match hex high, hex low with
        | some high, some low => (percentDecodeBytes rest).map ((16 * high + low) :: ·)
        | _, _ => .error .request
      | _ => .error .request
    else (percentDecodeBytes rest).map (byte :: ·) := by
  rw [percentDecodeBytes.eq_def]

theorem percentDecodeBytes_plain (hplus : byte ≠ plusByte) (hpercent : byte ≠ percentByte) :
    percentDecodeBytes (byte :: rest) = (percentDecodeBytes rest).map (byte :: ·) := by
  rw [percentDecodeBytes_cons, if_neg hplus, if_neg hpercent]

/-- What the writer makes of a byte is read back as that byte. -/
theorem percentDecodeBytes_byteSerialize (h : byte < 256) :
    percentDecodeBytes (Url.encodeUtf8 (byteSerialize byte) ++ rest) =
      (percentDecodeBytes rest).map (byte :: ·) := by
  unfold byteSerialize
  by_cases hplain : unreserved byte = true
  · obtain ⟨hascii, hplus, hpercent⟩ := unreserved_bounds hplain
    rw [if_pos hplain, Url.encodeUtf8, List.flatMap_singleton, encodeChar_ofNat hascii, List.singleton_append,
      percentDecodeBytes_plain hplus hpercent]
  · rw [if_neg hplain]
    by_cases hspace : byte = spaceByte
    · rw [if_pos hspace, hspace]
      change percentDecodeBytes (plusByte :: rest) = _
      rw [percentDecodeBytes_cons, if_pos rfl]
    · obtain ⟨high, henchigh, hhigh⟩ := hexDigit_spec (show byte / 16 < 16 by omega)
      obtain ⟨low, henclow, hlow⟩ := hexDigit_spec (show byte % 16 < 16 by omega)
      have hbytes : Url.encodeUtf8 ['%', hexDigit (byte / 16), hexDigit (byte % 16)] = [percentByte, high, low] := by
        rw [Url.encodeUtf8, List.flatMap_cons, List.flatMap_cons, List.flatMap_singleton, henchigh, henclow]
        rfl
      have hvalue : 16 * (byte / 16) + byte % 16 = byte := Nat.div_add_mod byte 16
      rw [if_neg hspace, hbytes, List.cons_append, List.cons_append, List.cons_append, List.nil_append,
        percentDecodeBytes_cons, if_neg (by decide), if_pos rfl]
      simp only [hhigh, hlow, hvalue]

theorem encodeUtf8_append (s t : Text) : Url.encodeUtf8 (s ++ t) = Url.encodeUtf8 s ++ Url.encodeUtf8 t :=
  List.flatMap_append

theorem percentDecodeBytes_serialize (h : ∀ byte ∈ bytes, byte < 256) :
    percentDecodeBytes (Url.encodeUtf8 (bytes.flatMap byteSerialize)) = .ok bytes := by
  induction bytes with
  | nil => rfl
  | cons byte bytes ih =>
    obtain ⟨hbyte, hrest⟩ := List.forall_mem_cons.mp h
    rw [List.flatMap_cons, encodeUtf8_append, percentDecodeBytes_byteSerialize hbyte, ih hrest]
    rfl

theorem lt_of_mem_encodeUtf8 (h : byte ∈ Url.encodeUtf8 s) : byte < 256 := by
  obtain ⟨c, -, hc⟩ := List.mem_flatMap.mp h
  have hscalar := Url.isScalar_toNat c
  rw [Url.isScalar, Bool.and_eq_true, decide_eq_true_eq] at hscalar
  unfold Url.encodeChar at hc
  dsimp only at hc
  split_ifs at hc
  all_goals
    simp only [List.mem_cons, List.not_mem_nil, or_false] at hc
    omega

theorem percentDecode_serializeText (value : Text) : percentDecode (serializeText value) = .ok value := by
  unfold percentDecode serializeText
  rw [percentDecodeBytes_serialize fun byte hbyte => lt_of_mem_encodeUtf8 hbyte]
  change (match Url.decodeUtf8 (Url.encodeUtf8 value) with
    | none => throw Error.request
    | some text => (return text : Except Error Text)) = _
  rw [Url.decodeUtf8_encodeUtf8]
  rfl

end Bytes

section Pairs
variable {pairs : List (Text × Text)}

theorem hexDigit_ne {n : Nat} (h : n < 16) : hexDigit n ≠ '&' ∧ hexDigit n ≠ '=' := by
  have hrange : (hexDigit n).toNat < 58 ∧ 48 ≤ (hexDigit n).toNat ∨ 65 ≤ (hexDigit n).toNat := by
    unfold hexDigit
    by_cases hten : n < 10
    · rw [if_pos hten, toNat_ofNat_ascii (by omega)]
      omega
    · rw [if_neg hten, toNat_ofNat_ascii (by omega)]
      omega
  constructor <;> rintro heq <;> rw [heq] at hrange <;> revert hrange <;> decide

theorem serializeText_ne {value : Text} {c : Char} (h : c ∈ serializeText value) : c ≠ '&' ∧ c ≠ '=' := by
  obtain ⟨byte, hbyte, hc⟩ := List.mem_flatMap.mp h
  have hlt := lt_of_mem_encodeUtf8 hbyte
  unfold byteSerialize at hc
  split_ifs at hc with hplain hspace
  · obtain rfl := List.mem_singleton.mp hc
    have hascii := (unreserved_bounds hplain).1
    constructor
    · intro heq
      have hvalue := toNat_ofNat_ascii hascii
      rw [heq] at hvalue
      rw [← hvalue] at hplain
      exact absurd hplain (by decide)
    · intro heq
      have hvalue := toNat_ofNat_ascii hascii
      rw [heq] at hvalue
      rw [← hvalue] at hplain
      exact absurd hplain (by decide)
  · obtain rfl := List.mem_singleton.mp hc
    decide
  · simp only [List.mem_cons, List.not_mem_nil, or_false] at hc
    rcases hc with rfl | rfl | rfl
    · decide
    · exact hexDigit_ne (by omega)
    · exact hexDigit_ne (by omega)

theorem splitOnce_serializePair (pair : Text × Text) :
    Text.splitOnce '=' (serializePair pair) = some (serializeText pair.1, serializeText pair.2) :=
  Text.splitOnce_eq_some.mpr ⟨rfl, fun hmem => (serializeText_ne hmem).2 rfl⟩

theorem insertPairs_serialize {output : Form} (hkeys : (pairs.map Prod.fst).Nodup)
    (hfresh : ∀ pair ∈ pairs, output.contains pair.1 = false) (hroom : output.size + pairs.length ≤ maxFormFields) :
    ∃ form, insertPairs output (pairs.map serializePair) = .ok form ∧
      ∀ key value, form.get key = some value ↔ (key, value) ∈ pairs ∨ output.get key = some value := by
  -- each pair is fresh among those inserted and those to come, and there is room for all
  induction pairs generalizing output with
  | nil => exact ⟨output, rfl, fun key value => by simp⟩
  | cons pair pairs ih =>
    obtain ⟨hnew, hrest⟩ := List.nodup_cons.mp hkeys
    obtain ⟨habsent, hfreshRest⟩ := List.forall_mem_cons.mp hfresh
    have hne : ∀ pair' ∈ pairs, pair'.1 ≠ pair.1 := by
      intro pair' hmem heq
      exact hnew (heq ▸ List.mem_map_of_mem hmem)
    have hsize : (output.insert pair.1 pair.2).size ≤ output.size + 1 := by
      rw [← Table.card_keySet, Table.keySet_insert, ← Table.card_keySet]
      exact Finset.card_insert_le _ _
    rw [List.length_cons] at hroom
    have hfreshInsert : ∀ pair' ∈ pairs, (output.insert pair.1 pair.2).contains pair'.1 = false := by
      intro pair' hmem
      rw [Table.contains, Table.get_insert_ne (hne pair' hmem)]
      exact hfreshRest pair' hmem
    obtain ⟨form, hform, hget⟩ := ih hrest hfreshInsert (by omega)
    refine ⟨form, ?_, ?_⟩
    · rw [List.map_cons, insertPairs]
      refine Except.bind_eq_ok.mpr ⟨(), Except.refuseIf_eq_ok.mpr (by omega), ?_⟩
      rw [splitOnce_serializePair, Option.getD_some]
      refine Except.bind_eq_ok.mpr ⟨pair.1, percentDecode_serializeText _, ?_⟩
      refine Except.bind_eq_ok.mpr ⟨pair.2, percentDecode_serializeText _, ?_⟩
      exact Except.bind_eq_ok.mpr ⟨(), Except.refuseIf_eq_ok.mpr (by rw [habsent]; exact Bool.false_ne_true), hform⟩
    · intro key value
      rw [hget, Table.get_insert, List.mem_cons]
      by_cases hkey : key = pair.1
      · have hnone : output.get pair.1 = none := by simpa [Table.contains] using habsent
        have hother : (key, value) ∉ pairs := fun hmem => hne _ hmem hkey
        rw [if_pos hkey, hkey, hnone, Option.some.injEq]
        constructor
        · rintro (hmem | rfl)
          · exact absurd (hkey ▸ hmem) hother
          · exact .inl (.inl rfl)
        · rintro ((hpair | hmem) | hnone)
          · exact .inr (congrArg Prod.snd hpair).symm
          · exact absurd (hkey ▸ hmem) hother
          · cases hnone
      · have hpair : (key, value) ≠ pair := fun heq => hkey (congrArg Prod.fst heq)
        rw [if_neg hkey]
        simp only [hpair, false_or]

theorem parseForm_serializeForm (hne : pairs ≠ []) (hkeys : (pairs.map Prod.fst).Nodup)
    (hroom : pairs.length ≤ maxFormFields) :
    ∃ form, parseForm (Url.encodeUtf8 (serializeForm pairs)) = .ok form ∧
      ∀ key value, form.get key = some value ↔ (key, value) ∈ pairs := by
  have hsep : Components.SepFree '&' (pairs.map serializePair) := by
    intro part hpart hmem
    obtain ⟨pair, -, rfl⟩ := List.mem_map.mp hpart
    rcases List.mem_append.mp hmem with hkey | hvalue
    · exact (serializeText_ne hkey).1 rfl
    · rcases List.mem_cons.mp hvalue with heq | hvalue
      · exact absurd heq (by decide)
      · exact (serializeText_ne hvalue).1 rfl
  have hsplit : (serializeForm pairs).splitOn '&' = pairs.map serializePair :=
    Components.split_join hsep (by simpa using hne)
  have hfilter : (pairs.map serializePair).filter (· ≠ []) = pairs.map serializePair := by
    rw [List.filter_eq_self]
    intro part hpart
    obtain ⟨pair, -, rfl⟩ := List.mem_map.mp hpart
    simp [serializePair]
  have hempty : (Table.empty : Form).size + pairs.length ≤ maxFormFields := by
    change 0 + pairs.length ≤ maxFormFields
    omega
  obtain ⟨form, hform, hget⟩ := insertPairs_serialize hkeys (fun _ _ => rfl) hempty
  refine ⟨form, ?_, ?_⟩
  · unfold parseForm
    rw [Url.decodeUtf8_encodeUtf8]
    dsimp only
    rw [hsplit, hfilter]
    exact hform
  · intro key value
    rw [hget, Table.get_empty]
    simp

end Pairs

end AgentBridge.Slack
