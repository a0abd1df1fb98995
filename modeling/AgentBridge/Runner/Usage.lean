import AgentBridge.Http.Exposure
import AgentBridge.Runner.Accounting

/-! The usage object of a provider response, in the one shape the accounting reads, and
which responses the accounting refuses for what they leave out. -/

namespace AgentBridge

namespace Providers

def usageU64 (value : Json) (keys : List String) : Option Nat := keys.findSome? (Http.findU64 value)

def usageMember : ProviderProtocol → String
  | .geminiGenerateContent => "usageMetadata"
  | _ => "usage"

def inputKeys : ProviderProtocol → List String
  | .openAiResponses => ["input_tokens", "prompt_tokens"]
  | .anthropicMessages => ["input_tokens"]
  | .geminiGenerateContent => ["promptTokenCount", "prompt_token_count"]
  | .openAiCompatibleChat => ["prompt_tokens", "input_tokens"]

def outputKeys : ProviderProtocol → List String
  | .openAiResponses => ["output_tokens", "completion_tokens"]
  | .anthropicMessages => ["output_tokens"]
  | .geminiGenerateContent => ["candidatesTokenCount", "candidates_token_count"]
  | .openAiCompatibleChat => ["completion_tokens", "output_tokens"]

def totalKeys : ProviderProtocol → List String
  | .geminiGenerateContent => ["totalTokenCount", "total_token_count"]
  | _ => ["total_tokens"]

def isNull : Json → Bool
  | .null => true
  | _ => false

def rawUsage (protocol : ProviderProtocol) (body : Json) : Option Json :=
  (body.get (usageMember protocol).toList).filter fun value => !isNull value

/-- The members of the canonical object. A count that is missing is zero. -/
def canonicalUsage (protocol : ProviderProtocol) (raw : Json) : List (Text × Json) :=
  let inputTokens := (usageU64 raw (inputKeys protocol)).getD 0
  let outputTokens := (usageU64 raw (outputKeys protocol)).getD 0
  let totalTokens := (usageU64 raw (totalKeys protocol)).getD (saturatingAdd inputTokens outputTokens)
  [("input_tokens".toList, .nat inputTokens), ("output_tokens".toList, .nat outputTokens),
    ("total_tokens".toList, .nat totalTokens), ("raw".toList, raw)]

def normalizeUsage (protocol : ProviderProtocol) (body : Json) : Json :=
  match rawUsage protocol body with
  | none => .null
  | some raw => .obj (canonicalUsage protocol raw)

end Providers

section Search
variable {α : Type} {read : Json → Option α} {key : Text}

theorem lastOfName_subset (l : List (Text × α)) : Json.lastOfName l ⊆ l := by
  induction l with
  | nil => exact List.Subset.refl _
  | cons e rest ih =>
    rw [Json.lastOfName]
    split_ifs
    · exact List.subset_cons_of_subset _ ih
    · exact List.cons_subset_cons _ ih

theorem mem_of_firstByName {results : List (Text × Option α)} {a : α} (h : Json.firstByName results = some a) :
    ∃ e ∈ results, e.2 = some a := by
  obtain ⟨e, he, ha⟩ := List.exists_of_findSome?_eq_some h
  exact ⟨e, lastOfName_subset _ ((List.perm_insertionSort _ _).mem_iff.mp he), ha⟩

mutual
theorem findMember_read : ∀ (j : Json) {a : α}, Http.findMember read key j = some a → ∃ v, read v = some a
  | .obj fields, a, h => by
    rw [Http.findMember] at h
    rcases (Option.orElse_eq_some _ _ _).mp h with h | ⟨-, h⟩
    · obtain ⟨v, -, hv⟩ := Option.bind_eq_some_iff.mp h
      exact ⟨v, hv⟩
    · obtain ⟨e, he, ha⟩ := mem_of_firstByName h
      exact findMember_read_fields fields e he ha
  | .arr items, a, h => by
    rw [Http.findMember] at h
    exact findMember_read_items items h
  | .null, a, h => by simp [Http.findMember] at h
  | .bool b, a, h => by simp [Http.findMember] at h
  | .num n, a, h => by simp [Http.findMember] at h
  | .str s, a, h => by simp [Http.findMember] at h

theorem findMember_read_fields : ∀ (fields : List (Text × Json)) (e : Text × Option α),
    e ∈ Http.findMember.inFields read key fields → ∀ {a : α}, e.2 = some a → ∃ v, read v = some a
  | [], e, he, a, ha => by simp [Http.findMember.inFields] at he
  | (k, v) :: rest, e, he, a, ha => by
    rw [Http.findMember.inFields] at he
    rcases List.mem_cons.mp he with rfl | he
    · exact findMember_read v ha
    · exact findMember_read_fields rest e he ha

theorem findMember_read_items : ∀ (items : List Json) {a : α},
    Http.findMember.inItems read key items = some a → ∃ v, read v = some a
  | [], a, h => by simp [Http.findMember.inItems] at h
  | j :: js, a, h => by
    rw [Http.findMember.inItems] at h
    rcases (Option.orElse_eq_some _ _ _).mp h with h | ⟨-, h⟩
    · exact findMember_read j h
    · exact findMember_read_items js h
end

end Search

namespace Providers
open Runner

section Normalize
variable {protocol : ProviderProtocol} {body raw : Json} {n : Nat}

theorem findU64_lt {key : String} {value : Json} (h : Http.findU64 value key = some n) : n < 2 ^ 64 := by
  obtain ⟨v, hv⟩ := findMember_read value h
  unfold Json.asU64 at hv
  split at hv
  · split_ifs at hv with hlt
    exact Option.some.inj hv ▸ hlt
  · cases hv

theorem usageU64_getD_lt (value : Json) (keys : List String) : (usageU64 value keys).getD 0 < 2 ^ 64 := by
  cases h : usageU64 value keys with
  | none => decide
  | some n =>
    obtain ⟨key, -, hn⟩ := List.exists_of_findSome?_eq_some h
    exact findU64_lt hn

theorem findFirstU64_of_get {fields : List (Text × Json)} {key : String} {rest : List String} (hn : n < 2 ^ 64)
    (hget : (Json.obj fields).get key.toList = some (.nat n)) :
    findFirstU64 (.obj fields) (key :: rest) = some n := by
  have hread : Json.asU64 (.nat n) = some n := if_pos hn
  have hfound : Http.findU64 (.obj fields) key = some n := by
    rw [Http.findU64, Http.findMember, hget, Option.bind_some, hread]
    rfl
  rw [findFirstU64, List.findSome?_cons, hfound]

theorem normalizeUsage_none (h : rawUsage protocol body = none) (keys : List String) :
    findFirstU64 (normalizeUsage protocol body) keys = none := by
  rw [normalizeUsage, h]
  exact List.findSome?_eq_none_iff.mpr fun key _ => by rw [Http.findU64, Http.findMember] <;> simp

/-- With a usage object both counts are read, as zero where the object has none. -/
theorem normalizeUsage_some (h : rawUsage protocol body = some raw) :
    findFirstU64 (normalizeUsage protocol body) inputTokenKeys = some ((usageU64 raw (inputKeys protocol)).getD 0) ∧
    findFirstU64 (normalizeUsage protocol body) outputTokenKeys =
      some ((usageU64 raw (outputKeys protocol)).getD 0) := by
  have hinput : (Json.obj (canonicalUsage protocol raw)).get "input_tokens".toList =
      some (.nat ((usageU64 raw (inputKeys protocol)).getD 0)) := rfl
  have houtput : (Json.obj (canonicalUsage protocol raw)).get "output_tokens".toList =
      some (.nat ((usageU64 raw (outputKeys protocol)).getD 0)) := rfl
  rw [normalizeUsage, h]
  exact ⟨findFirstU64_of_get (usageU64_getD_lt _ _) hinput, findFirstU64_of_get (usageU64_getD_lt _ _) houtput⟩

end Normalize

/-- The body carries no input count, or no output count, under the usage object of its protocol. -/
def Unmetered (protocol : ProviderProtocol) (body : Json) : Prop :=
  (rawUsage protocol body).bind (usageU64 · (inputKeys protocol)) = none ∨
    (rawUsage protocol body).bind (usageU64 · (outputKeys protocol)) = none

section Report
variable {control : AdmissionControl} {env : Http.Env} {s : AppState} {workflowId provider : Text} {usage : Json}
  {elapsedMs : Nat} {reservation : UsageReservation}

theorem reportUsage_ne_unpriced (delta : UsageDelta) :
    (control.reportUsage env s workflowId provider delta).1 ≠ .error .unpricedUsage := by
  unfold AdmissionControl.reportUsage
  dsimp only
  split
  · unfold validateActive
    split_ifs <;> simp
  · simp

theorem reportResponse_unpriced_iff :
    (control.reportResponse env s workflowId provider usage elapsedMs reservation).1 = .error .unpricedUsage ↔
      control.pricing provider = none ∨ findFirstU64 usage inputTokenKeys = none ∨
        findFirstU64 usage outputTokenKeys = none := by
  unfold AdmissionControl.reportResponse AdmissionControl.actualUsage
  generalize findFirstU64 usage inputTokenKeys = input
  generalize findFirstU64 usage outputTokenKeys = output
  cases control.pricing provider with
  | none => exact iff_of_true rfl (.inl rfl)
  | some pricing =>
    cases input with
    | none => exact iff_of_true rfl (.inr (.inl rfl))
    | some inputTokens =>
      cases output with
      | none => exact iff_of_true rfl (.inr (.inr rfl))
      | some outputTokens => exact iff_of_false (reportUsage_ne_unpriced _) (by simp)

end Report

/-- Missing metering is refused exactly when the usage object is missing altogether, or when the
provider is one without a price. -/
theorem unmetered_refused_iff (protocol : ProviderProtocol) (body : Json) (control : AdmissionControl)
    (env : Http.Env) (s : AppState) (workflowId provider : Text) (elapsedMs : Nat) (reservation : UsageReservation) :
    (Unmetered protocol body →
      (control.reportResponse env s workflowId provider (normalizeUsage protocol body) elapsedMs reservation).1 =
        .error .unpricedUsage) ↔
      ¬ Unmetered protocol body ∨ rawUsage protocol body = none ∨ control.pricing provider = none := by
  rw [imp_iff_not_or, reportResponse_unpriced_iff]
  cases h : rawUsage protocol body with
  | none => exact iff_of_true (.inr (.inr (.inl (normalizeUsage_none h _)))) (.inr (.inl rfl))
  | some raw =>
    obtain ⟨hinput, houtput⟩ := normalizeUsage_some h
    rw [hinput, houtput]
    simp

/-- A response that reports only a total. -/
def totalOnly : Json := .obj [("usage".toList, .obj [("total_tokens".toList, .nat 5000)])]

theorem not_unmetered_refused : ¬ ∀ (protocol : ProviderProtocol) (body : Json) (control : AdmissionControl)
    (env : Http.Env) (s : AppState) (workflowId provider : Text) (elapsedMs : Nat) (reservation : UsageReservation),
    Unmetered protocol body → (control.reportResponse env s workflowId provider (normalizeUsage protocol body)
      elapsedMs reservation).1 = .error .unpricedUsage := by
  intro hclaim
  have hrefused := hclaim .anthropicMessages totalOnly
    ⟨"runner".toList, none, fun _ => some ⟨3, 15, 0, 0⟩⟩ Http.offlineEnv (.new .inMemory) "w".toList "claude".toList 0
    ⟨0, 0, 0⟩ (.inl (by decide))
  obtain ⟨hinput, houtput⟩ := @normalizeUsage_some .anthropicMessages totalOnly
    (.obj [("total_tokens".toList, .nat 5000)]) rfl
  rw [reportResponse_unpriced_iff, hinput, houtput] at hrefused
  simp at hrefused

end Providers
end AgentBridge
