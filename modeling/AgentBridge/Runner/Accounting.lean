import AgentBridge.Http.Handlers
import AgentBridge.Runner.RetryExecution

/-! What the runner charges to an admission: a reservation before every attempt of a
provider call, and after the last one what the response cost beyond its reservation. -/

namespace AgentBridge
open PolicyAdmission

structure ProviderRequest where
  prompt : Text
  maxOutputTokens : Nat
  system : Option Text

namespace Runner

def inputTokenOverhead : Nat := 256

/-- Lengths are `usize`, which converts to `u64`. -/
def conservativeInputTokens (request : ProviderRequest) : Nat :=
  saturatingAdd (saturatingAdd (Text.byteLen request.prompt) ((request.system.map Text.byteLen).getD 0))
    inputTokenOverhead

def u128Max : Nat := 2 ^ 128 - 1

/-- The price of a call in `u128`, rounded up and cut to a `u64`. -/
def priceUsage (pricing : ProviderPricing) (inputTokens outputTokens : Nat) : Nat :=
  let input := min (inputTokens * pricing.inputMicroUsdPerMillion) u128Max
  let output := min (outputTokens * pricing.outputMicroUsdPerMillion) u128Max
  let total := min (min (input + output) u128Max + 999999) u128Max / 1000000
  min total u64Max

def callCost (pricing : ProviderPricing) (inputTokens outputTokens : Nat) : Nat :=
  saturatingAdd (priceUsage pricing inputTokens outputTokens) pricing.fixedCallReserveMicroUsd

/-- The first of the keys that is found decides. -/
def findFirstU64 (value : Json) (keys : List String) : Option Nat :=
  keys.findSome? (Http.findU64 value)

def inputTokenKeys : List String := ["input_tokens", "prompt_tokens", "prompt_token_count", "promptTokenCount"]

def outputTokenKeys : List String :=
  ["output_tokens", "completion_tokens", "candidates_token_count", "candidatesTokenCount"]

def costKeys : List String := ["cost_micro_usd", "costMicroUsd"]

def validateActive (admission : AdmissionRecord) : Except AdmissionClientError AdmissionRecord :=
  if admission.status = .active then .ok admission else .error .notActive

namespace AdmissionControl

/-- `report_usage`: the request to the bridge, and its answer. -/
def reportUsage (control : AdmissionControl) (env : Http.Env) (s : AppState) (workflowId providerAgentKey : Text)
    (delta : UsageDelta) : Except AdmissionClientError AdmissionRecord × AppState :=
  let outcome := Http.reportUsage env s workflowId { updatedBy := control.actor, providerAgentKey, delta }
  match outcome.reply with
  | .admission _ record => (validateActive record, outcome.state)
  | _ => (.error .unanswered, outcome.state)

def reservationFor (control : AdmissionControl) (providerAgentKey : Text) (request : ProviderRequest) :
    Except AdmissionClientError UsageReservation :=
  match control.pricing providerAgentKey with
  | none => .error .unpricedUsage
  | some pricing =>
    let inputTokens := conservativeInputTokens request
    let outputTokens := request.maxOutputTokens
    if pricing.maxContextTokens > 0 ∧ inputTokens > pricing.maxContextTokens then .error .inputTooLarge
    else .ok { inputTokens, outputTokens, costMicroUsd := callCost pricing inputTokens outputTokens }

def attemptDelta (reservation : UsageReservation) (concurrency : Nat) (isRetry : Bool) : UsageDelta where
  inputTokens := reservation.inputTokens
  outputTokens := reservation.outputTokens
  costMicroUsd := reservation.costMicroUsd
  retries := if isRetry then 1 else 0
  providerCalls := 1
  concurrency := concurrency

def reserveAttempt (control : AdmissionControl) (env : Http.Env) (s : AppState)
    (workflowId providerAgentKey : Text) (request : ProviderRequest) (concurrency : Nat) (isRetry : Bool) :
    Except AdmissionClientError (AdmissionRecord × UsageReservation) × AppState :=
  match control.reservationFor providerAgentKey request with
  | .error e => (.error e, s)
  | .ok reservation =>
    let r := control.reportUsage env s workflowId providerAgentKey (attemptDelta reservation concurrency isRetry)
    (r.1.map fun admission => (admission, reservation), r.2)

def reserveCall (control : AdmissionControl) (env : Http.Env) (s : AppState) (workflowId providerAgentKey : Text)
    (request : ProviderRequest) (concurrency : Nat) :
    Except AdmissionClientError (AdmissionRecord × UsageReservation) × AppState :=
  control.reserveAttempt env s workflowId providerAgentKey request concurrency false

def reserveRetry (control : AdmissionControl) (env : Http.Env) (s : AppState) (workflowId providerAgentKey : Text)
    (request : ProviderRequest) (concurrency : Nat) :
    Except AdmissionClientError (AdmissionRecord × UsageReservation) × AppState :=
  control.reserveAttempt env s workflowId providerAgentKey request concurrency true

/-- Tokens and cost of a response: what the provider reports, the cost priced where it is not reported. -/
def actualUsage (control : AdmissionControl) (providerAgentKey : Text) (usage : Json) :
    Except AdmissionClientError UsageReservation :=
  match control.pricing providerAgentKey, findFirstU64 usage inputTokenKeys, findFirstU64 usage outputTokenKeys with
  | some pricing, some inputTokens, some outputTokens => .ok {
      inputTokens, outputTokens
      costMicroUsd := (findFirstU64 usage costKeys).getD (callCost pricing inputTokens outputTokens) }
  | _, _, _ => .error .unpricedUsage

/-- What an actual usage leaves to be charged beyond a reservation. -/
def excessDelta (actual reservation : UsageReservation) (elapsedMs : Nat) : UsageDelta where
  inputTokens := actual.inputTokens - reservation.inputTokens
  outputTokens := actual.outputTokens - reservation.outputTokens
  costMicroUsd := actual.costMicroUsd - reservation.costMicroUsd
  elapsedMs := elapsedMs

def reportResponse (control : AdmissionControl) (env : Http.Env) (s : AppState)
    (workflowId providerAgentKey : Text) (usage : Json) (elapsedMs : Nat) (reservation : UsageReservation) :
    Except AdmissionClientError AdmissionRecord × AppState :=
  match control.actualUsage providerAgentKey usage with
  | .error e => (.error e, s)
  | .ok actual =>
    control.reportUsage env s workflowId providerAgentKey (excessDelta actual reservation elapsedMs)

end AdmissionControl
end Runner
end AgentBridge
