import AgentBridge.Base.Signed
import AgentBridge.Slack.Form

/-! The signatures of Slack's requests. The event service and the command service each verify them with
code of their own. -/

namespace AgentBridge.Slack

/-- What `HeaderValue::to_str` reads of the first header of a name, in bytes. -/
abbrev Headers := Text → Option (List Nat)

def requestTimestampHeader : Text := "x-slack-request-timestamp".toList
def signatureHeader : Text := "x-slack-signature".toList

def versionBytes : List Nat := Url.encodeUtf8 "v0=".toList

/-- `strip_prefix("v0=")`. -/
def stripVersion (value : List Nat) : Option (List Nat) :=
  if versionBytes <+: value then some (value.drop versionBytes.length) else none

/-- What is signed: the timestamp as it was sent, and the body. -/
def signedBytes (timestamp body : List Nat) : List Nat :=
  Url.encodeUtf8 "v0:".toList ++ timestamp ++ Url.encodeUtf8 ":".toList ++ body

/-! ### The event service -/

inductive SignatureError
  | missing | timestamp | stale | invalid
deriving DecidableEq

def hexNibble (value : Nat) : Option Nat :=
  if 48 ≤ value ∧ value ≤ 57 then some (value - 48)
  else if 97 ≤ value ∧ value ≤ 102 then some (value - 97 + 10)
  else if 65 ≤ value ∧ value ≤ 70 then some (value - 65 + 10)
  else none

/-- A byte of its two halves. -/
def joinNibbles (high low : Nat) : Nat := ((high <<< 4) % 256) ||| low

def decodeHex32 (value : List Nat) : Option (List Nat) :=
  if value.length ≠ 64 then none
  else (List.range 32).mapM fun index => do
    let high ← hexNibble (value.getD (index * 2) 0)
    let low ← hexNibble (value.getD (index * 2 + 1) 0)
    return joinNibbles high low

def requestAge (now timestamp : I64) : Nat :=
  if timestamp.val ≤ now.val then I64.asU64 (I64.saturatingSub now timestamp)
  else I64.asU64 (I64.saturatingSub timestamp now)

/-- `hmac` gives the code of a message under a key, of any length. -/
def verifySlackSignature (hmac : List Nat → List Nat → List Nat) (signingSecret : Text) (maxRequestAgeSecs : Nat)
    (headers : Headers) (body : List Nat) (now : I64) : Except SignatureError Unit :=
  match headers requestTimestampHeader with
  | none => .error .missing
  | some timestamp =>
    match I64.parse timestamp with
    | none => .error .timestamp
    | some timestampValue =>
      if requestAge now timestampValue > maxRequestAgeSecs then .error .stale
      else match (headers signatureHeader).bind stripVersion with
      | none => .error .missing
      | some signature =>
        match decodeHex32 signature with
        | none => .error .invalid
        | some signature =>
          if hmac (Url.encodeUtf8 signingSecret) (signedBytes timestamp body) = signature then .ok ()
          else .error .invalid

/-! ### The command service -/

def decodeSignature (value : List Nat) : Option (List Nat) :=
  if value.length ≠ 64 then none
  else (List.range 32).mapM fun index => do
    let high ← hex (value.getD (index * 2) 0)
    let low ← hex (value.getD (index * 2 + 1) 0)
    return joinNibbles high low

def verifySignature (hmac : List Nat → List Nat → List Nat) (signingSecret : Text) (headers : Headers)
    (body : List Nat) (now : I64) : Bool :=
  match headers requestTimestampHeader with
  | none => false
  | some timestamp =>
    match I64.parse timestamp with
    | none => false
    | some timestampValue =>
      if I64.absDiff now timestampValue > 300 then false
      else match ((headers signatureHeader).bind stripVersion).bind decodeSignature with
      | none => false
      | some signature => hmac (Url.encodeUtf8 signingSecret) (signedBytes timestamp body) = signature

/-! ### What both accept -/

/-- A hexadecimal digit, in either case. -/
def IsHexDigit (byte : Nat) : Prop := 48 ≤ byte ∧ byte ≤ 57 ∨ 97 ≤ byte ∧ byte ≤ 102 ∨ 65 ≤ byte ∧ byte ≤ 70

instance (byte : Nat) : Decidable (IsHexDigit byte) := inferInstanceAs (Decidable (_ ∨ _))

def hexValue (byte : Nat) : Nat := if byte ≤ 57 then byte - 48 else if byte ≤ 70 then byte - 55 else byte - 87

/-- The digits spell the bytes of a code of 32 bytes. -/
structure Spells (digits tag : List Nat) : Prop where
  length : digits.length = 64
  hex : ∀ byte ∈ digits, IsHexDigit byte
  tag : tag = (List.range 32).map fun i =>
    16 * hexValue (digits.getD (i * 2) 0) + hexValue (digits.getD (i * 2 + 1) 0)

/-- The request is at most `maxAge` seconds away from the clock and carries the code of its timestamp and
its body. -/
def Authentic (hmac : List Nat → List Nat → List Nat) (signingSecret : Text) (maxAge : Nat) (headers : Headers)
    (body : List Nat) (now : I64) : Prop :=
  ∃ timestamp ts digits, headers requestTimestampHeader = some timestamp ∧
    I64.parse timestamp = some ts ∧ (now.val - ts.val).natAbs ≤ maxAge ∧
    headers signatureHeader = some (versionBytes ++ digits) ∧
    Spells digits (hmac (Url.encodeUtf8 signingSecret) (signedBytes timestamp body))

section Decode
variable {value digits tag : List Nat}

theorem hex_eq (byte : Nat) : hex byte = if IsHexDigit byte then some (hexValue byte) else none := by
  by_cases hd : 48 ≤ byte ∧ byte ≤ 57
  · rw [hex, if_pos hd, if_pos (.inl hd), hexValue, if_pos hd.2]
  · by_cases hl : 97 ≤ byte ∧ byte ≤ 102
    · rw [hex, if_neg hd, if_pos hl, if_pos (.inr (.inl hl)), hexValue, if_neg (by omega), if_neg (by omega)]
      congr 1
      omega
    · by_cases hu : 65 ≤ byte ∧ byte ≤ 70
      · rw [hex, if_neg hd, if_neg hl, if_pos hu, if_pos (.inr (.inr hu)), hexValue, if_neg (by omega), if_pos hu.2]
        congr 1
        omega
      · rw [hex, if_neg hd, if_neg hl, if_neg hu, if_neg]
        exact not_or.mpr ⟨hd, not_or.mpr ⟨hl, hu⟩⟩

theorem hexValue_lt {byte : Nat} (h : IsHexDigit byte) : hexValue byte < 16 := by
  unfold IsHexDigit at h
  unfold hexValue
  split_ifs <;> omega

theorem joinNibbles_eq {high low : Nat} (hhigh : high < 16) (hlow : low < 16) :
    joinNibbles high low = 16 * high + low := by
  have hshift : (high <<< 4) % 256 = 2 ^ 4 * high := by
    rw [Nat.shiftLeft_eq]
    omega
  rw [joinNibbles, hshift, ← Nat.two_pow_add_eq_or_of_lt hlow]

theorem mapM_ite {α β : Type} (p : α → Prop) [DecidablePred p] (v : α → β) (l : List α) :
    (l.mapM fun a => if p a then some (v a) else none) = if ∀ a ∈ l, p a then some (l.map v) else none := by
  induction l with
  | nil => rfl
  | cons a l ih =>
    rw [List.mapM_cons, ih]
    by_cases ha : p a
    · by_cases hl : ∀ a ∈ l, p a
      · rw [if_pos ha, if_pos hl, if_pos (List.forall_mem_cons.mpr ⟨ha, hl⟩)]
        rfl
      · rw [if_pos ha, if_neg hl, if_neg fun h => hl (List.forall_mem_cons.mp h).2]
        rfl
    · rw [if_neg ha, if_neg fun h => ha (List.forall_mem_cons.mp h).1]
      rfl

theorem decodeByte_eq (digits : List Nat) (i : Nat) :
    (do
      let high ← hex (digits.getD (i * 2) 0)
      let low ← hex (digits.getD (i * 2 + 1) 0)
      return joinNibbles high low : Option Nat) =
      if IsHexDigit (digits.getD (i * 2) 0) ∧ IsHexDigit (digits.getD (i * 2 + 1) 0) then
        some (16 * hexValue (digits.getD (i * 2) 0) + hexValue (digits.getD (i * 2 + 1) 0))
      else none := by
  rw [hex_eq, hex_eq]
  by_cases hhigh : IsHexDigit (digits.getD (i * 2) 0)
  · by_cases hlow : IsHexDigit (digits.getD (i * 2 + 1) 0)
    · rw [if_pos hhigh, if_pos hlow, if_pos ⟨hhigh, hlow⟩, ← joinNibbles_eq (hexValue_lt hhigh) (hexValue_lt hlow)]
      rfl
    · have hnot : ¬ (IsHexDigit (digits.getD (i * 2) 0) ∧ IsHexDigit (digits.getD (i * 2 + 1) 0)) :=
        fun h => hlow h.2
      rw [if_pos hhigh, if_neg hlow, if_neg hnot]
      rfl
  · have hnot : ¬ (IsHexDigit (digits.getD (i * 2) 0) ∧ IsHexDigit (digits.getD (i * 2 + 1) 0)) :=
      fun h => hhigh h.1
    rw [if_neg hhigh, if_neg hnot]
    rfl

theorem getD_of_lt {j : Nat} (hj : j < digits.length) : digits.getD j 0 = digits[j] := by
  rw [List.getD_eq_getElem?_getD, List.getElem?_eq_getElem hj, Option.getD_some]

theorem forall_pairs_iff (h : digits.length = 64) (p : Nat → Prop) :
    (∀ i ∈ List.range 32, p (digits.getD (i * 2) 0) ∧ p (digits.getD (i * 2 + 1) 0)) ↔ ∀ byte ∈ digits, p byte := by
  constructor
  · intro hpairs byte hbyte
    obtain ⟨j, hj, rfl⟩ := List.getElem_of_mem hbyte
    obtain ⟨heven, hodd⟩ := hpairs (j / 2) (List.mem_range.mpr (by omega))
    rcases Nat.mod_two_eq_zero_or_one j with hmod | hmod
    · have hindex : j / 2 * 2 = j := by omega
      rwa [hindex, getD_of_lt hj] at heven
    · have hindex : j / 2 * 2 + 1 = j := by omega
      rwa [hindex, getD_of_lt hj] at hodd
  · intro hall i hi
    have hlt := List.mem_range.mp hi
    have hat {j : Nat} (hj : j < digits.length) : p (digits.getD j 0) := by
      rw [getD_of_lt hj]
      exact hall _ (List.getElem_mem hj)
    exact ⟨hat (by omega), hat (by omega)⟩

theorem decodeSignature_eq_some : decodeSignature digits = some tag ↔ Spells digits tag := by
  unfold decodeSignature
  by_cases hlength : digits.length = 64
  · rw [if_neg (not_not.mpr hlength)]
    have hturns := funext (decodeByte_eq digits)
    rw [hturns, mapM_ite, ite_eq_iff, forall_pairs_iff hlength IsHexDigit]
    constructor
    · rintro (⟨hall, htag⟩ | ⟨-, htag⟩)
      · exact ⟨hlength, hall, (Option.some.inj htag).symm⟩
      · cases htag
    · rintro ⟨-, hall, rfl⟩
      exact .inl ⟨hall, rfl⟩
  · rw [if_pos hlength]
    exact iff_of_false nofun fun h => hlength h.length

theorem decodeHex32_eq (value : List Nat) : decodeHex32 value = decodeSignature value := rfl

theorem bind_stripVersion {header : Option (List Nat)} :
    header.bind stripVersion = some digits ↔ header = some (versionBytes ++ digits) := by
  cases header with
  | none => exact iff_of_false nofun nofun
  | some value =>
    rw [Option.bind_some, stripVersion, Option.some.injEq]
    by_cases h : versionBytes <+: value
    · obtain ⟨rest, rfl⟩ := h
      rw [if_pos (List.prefix_append _ _), List.drop_left, Option.some.injEq, List.append_cancel_left_eq]
    · rw [if_neg h]
      exact iff_of_false nofun fun heq => h (heq ▸ List.prefix_append _ _)

end Decode

section Verify
variable {hmac : List Nat → List Nat → List Nat} {signingSecret : Text} {headers : Headers} {body : List Nat}
  {now : I64}

theorem requestAge_eq (now timestamp : I64) :
    requestAge now timestamp = min (now.val - timestamp.val).natAbs i64Max := by
  unfold requestAge
  split_ifs with h
  · rw [I64.asU64_saturatingSub h]
    rfl
  · rw [I64.asU64_saturatingSub (le_of_not_ge h), I64.absDiff_comm]
    rfl

theorem verifySlackSignature_ok_iff {maxAge : Nat} (hmax : maxAge < i64Max) :
    verifySlackSignature hmac signingSecret maxAge headers body now = .ok () ↔
      Authentic hmac signingSecret maxAge headers body now := by
  unfold verifySlackSignature Authentic
  cases htimestamp : headers requestTimestampHeader with
  | none => simp
  | some timestamp =>
    dsimp only
    cases hts : I64.parse timestamp with
    | none => simp [hts]
    | some ts =>
      dsimp only
      rw [requestAge_eq]
      -- the saturated age is over the limit exactly if the distance is, as the limit is below `i64Max`
      by_cases hfresh : (now.val - ts.val).natAbs ≤ maxAge
      · rw [if_neg (by omega)]
        cases hsig : (headers signatureHeader).bind stripVersion with
        | none =>
          refine iff_of_false nofun ?_
          rintro ⟨timestamp', ts', digits, -, -, -, hheader, -⟩
          rw [bind_stripVersion.mpr hheader] at hsig
          cases hsig
        | some digits =>
          have hheader := bind_stripVersion.mp hsig
          dsimp only
          rw [decodeHex32_eq]
          cases hdecode : decodeSignature digits with
          | none =>
            refine iff_of_false nofun ?_
            rintro ⟨timestamp', ts', digits', heq, -, -, hheader', hspells⟩
            rw [hheader, Option.some.injEq, List.append_cancel_left_eq] at hheader'
            rw [hheader', decodeSignature_eq_some.mpr hspells] at hdecode
            cases hdecode
          | some tag =>
            dsimp only
            -- only one code is spelled by the digits, and it is compared with the computed one
            have hspells := decodeSignature_eq_some.mp hdecode
            constructor
            · intro hok
              split_ifs at hok with htag
              exact ⟨timestamp, ts, digits, rfl, hts, hfresh, hheader, htag ▸ hspells⟩
            · rintro ⟨timestamp', ts', digits', heq, -, -, hheader', hspells'⟩
              rw [hheader, Option.some.injEq, List.append_cancel_left_eq] at hheader'
              cases heq
              subst hheader'
              rw [if_pos (hspells'.tag.trans hspells.tag.symm)]
      · rw [if_pos (by omega)]
        refine iff_of_false nofun ?_
        rintro ⟨timestamp', ts', digits, heq, hts', hfresh', -⟩
        cases heq
        rw [hts, Option.some.injEq] at hts'
        exact hfresh (hts' ▸ hfresh')

theorem verifySignature_eq (hmac : List Nat → List Nat → List Nat) (signingSecret : Text) (headers : Headers)
    (body : List Nat) (now : I64) :
    verifySignature hmac signingSecret headers body now = true ↔
      verifySlackSignature hmac signingSecret 300 headers body now = .ok () := by
  unfold verifySignature verifySlackSignature
  cases headers requestTimestampHeader with
  | none => simp
  | some timestamp =>
    dsimp only
    cases I64.parse timestamp with
    | none => simp
    | some ts =>
      dsimp only
      have hage : requestAge now ts > 300 ↔ I64.absDiff now ts > 300 := by
        rw [requestAge_eq, I64.absDiff, i64Max]
        omega
      simp only [hage]
      split_ifs
      · simp
      · cases (headers signatureHeader).bind stripVersion with
        | none => simp
        | some digits =>
          rw [Option.bind_some]
          dsimp only
          rw [decodeHex32_eq]
          cases decodeSignature digits with
          | none => simp
          | some tag =>
            dsimp only
            split_ifs with htag <;> simp [htag]

/-- Both services accept exactly the authentic requests of the last and the next five minutes, and no
arithmetic overflows on the way. -/
theorem signature_verifiers_agree (hmac : List Nat → List Nat → List Nat) (signingSecret : Text) (headers : Headers)
    (body : List Nat) (now : I64) :
    (verifySlackSignature hmac signingSecret 300 headers body now = .ok () ↔
      verifySignature hmac signingSecret headers body now = true) ∧
    (verifySignature hmac signingSecret headers body now = true ↔
      Authentic hmac signingSecret 300 headers body now) ∧
    ∀ timestamp : I64, requestAge now timestamp = min (now.val - timestamp.val).natAbs i64Max ∧
      I64.absDiff now timestamp = (now.val - timestamp.val).natAbs ∧ I64.absDiff now timestamp ≤ u64Max := by
  have hagree := verifySignature_eq hmac signingSecret headers body now
  refine ⟨hagree.symm, hagree.trans (verifySlackSignature_ok_iff (by decide)), ?_⟩
  intro timestamp
  exact ⟨requestAge_eq now timestamp, rfl, I64.absDiff_le now timestamp⟩

end Verify

end AgentBridge.Slack
