import MochiPort.LastMaximum
import MochiPort.RustText
import MochiPort.Tables

namespace MochiPort

open RustText

inductive ProviderType where
  | openAiResponses
  | deepSeekResponses
  | grokResponses
  | chatCompletions
  | anthropicMessages
  deriving DecidableEq

def ProviderType.routeKey : ProviderType → String
  | .openAiResponses => "openai_responses"
  | .deepSeekResponses => "deepseek_responses"
  | .grokResponses => "grok_responses"
  | .chatCompletions => "chat_completions"
  | .anthropicMessages => "anthropic_messages"

/-- What the routing reads of a provider; the aliases are in the order of their keys. -/
structure ProviderConfig where
  name : String
  enabled : Bool := true
  providerType : ProviderType := .openAiResponses
  baseUrl : String := ""
  models : List String := []
  modelAliases : List (String × String) := []
  weight : Nat := 100
  deriving DecidableEq

structure AiGatewayConfig where
  providers : List ProviderConfig
  modelOwners : List (String × String) := []

structure GatewayError where
  status : Nat
  errorType : String
  code : String
  message : String
  deriving DecidableEq

def GatewayError.invalidModel (model : String) : GatewayError where
  status := 422
  errorType := "invalid_model_error"
  code := "invalid_model"
  message := "model '" ++ model ++ "' is not configured in any provider"

namespace ProviderConfig

def effectiveWeight (provider : ProviderConfig) : Nat := max provider.weight 1

def resolveUpstreamModel (provider : ProviderConfig) (model : String) : Option String :=
  (provider.modelAliases.lookup model).or <|
    ((provider.modelAliases.find? fun entry => eqIgnoreAsciiCase entry.1 model).map Prod.snd).or <|
      (provider.models.find? fun configured => configured = model).or <|
        provider.models.find? fun configured => eqIgnoreAsciiCase configured model

def matchesModel (provider : ProviderConfig) (model : String) : Bool := (provider.resolveUpstreamModel model).isSome

end ProviderConfig

namespace AiGatewayConfig

def modelOwner (config : AiGatewayConfig) (model : String) : Option String :=
  let model := trim model
  if model = "" then none
  else
    ((config.modelOwners.find? fun entry => eqIgnoreAsciiCase (trim entry.1) model).map
      fun entry => trim entry.2).filter (· ≠ "")

/-- The first provider with the name of the owner that is enabled and serves the model. -/
def effectiveModelOwner (config : AiGatewayConfig) (model : String) : Option ProviderConfig :=
  (config.modelOwner model).bind fun owner =>
    config.providers.find? fun provider =>
      provider.name = owner && provider.enabled && provider.matchesModel model

end AiGatewayConfig

def providerRouteId (provider : ProviderConfig) : String :=
  trim provider.name ++ "\x00" ++ provider.providerType.routeKey ++ "\x00" ++ trim provider.baseUrl

/-- The double nearest to a number, the even one of two. -/
def roundToDouble (n : Nat) : Nat :=
  let excess := Nat.log2 n + 1 - 53
  if excess = 0 then n
  else
    let quotient := n >>> excess
    let rest := n - quotient <<< excess
    let half := 1 <<< (excess - 1)
    if half < rest ∨ half = rest ∧ quotient % 2 = 1 then (quotient + 1) <<< excess else quotient <<< excess

def hrwHashU64 (sha256 : List UInt8 → Vector UInt8 32) (sessionId : String) (provider : ProviderConfig) : Nat :=
  let bytes := ("codexhub-ai-gateway-hrw-v2\x00" ++ sessionId ++ "\x00" ++ providerRouteId provider).toUTF8.toList
  ((sha256 bytes).toList.take 8).foldl (fun hash byte => hash <<< 8 + byte.toNat) 0

/-- The score in units of 2 to the power of -64; the division by `u64::MAX as f64 + 1.0` is exact. -/
def hrwScore (sha256 : List UInt8 → Vector UInt8 32) (sessionId : String) (provider : ProviderConfig) : Nat :=
  roundToDouble (roundToDouble (hrwHashU64 sha256 sessionId provider) + 1)

example : roundToDouble 0xffffffffffffffff = 0x10000000000000000 := by decide +kernel

example : roundToDouble 0x20000000000001 = 0x20000000000000 := by decide +kernel

def normalizedSession (sessionId : Option String) : Option String :=
  (sessionId.map trim).filter (· ≠ "")

/-- By weight, then by the score for the session, then by the route. -/
def compareProviders (sha256 : List UInt8 → Vector UInt8 32) (sessionId : Option String)
    (left right : ProviderConfig) : Ordering :=
  (compare left.effectiveWeight right.effectiveWeight).then
    ((match sessionId with
      | some sid => compare (hrwScore sha256 sid left) (hrwScore sha256 sid right)
      | none => .eq).then (compare (providerRouteId left) (providerRouteId right)))

def selectByPriority (sha256 : List UInt8 → Vector UInt8 32) (candidates : List ProviderConfig)
    (sessionId : Option String) : Option ProviderConfig :=
  LastMaximum.lastMax (compareProviders sha256 (normalizedSession sessionId)) candidates

def failureThreshold : Nat := 3

def cooldown : Nat := 30 * 1000000000

def bindingTtl : Nat := 30 * 60 * 1000000000

def u32Max : Nat := 0xffffffff

structure ProviderHealth where
  consecutiveFailures : Nat
  blacklistedUntil : Option Nat

structure SessionBinding where
  routeId : String
  lastUsed : Nat

structure GatewayRoutingState where
  health : Table String ProviderHealth
  bindings : Table String SessionBinding

namespace GatewayRoutingState

def empty : GatewayRoutingState := ⟨∅, ∅⟩

def isBlacklisted (state : GatewayRoutingState) (routeId : String) (now : Nat) : Bool :=
  ((state.health.lookup routeId).bind ProviderHealth.blacklistedUntil).any fun until_ => now < until_

def recordSuccess (state : GatewayRoutingState) (routeId : String) : GatewayRoutingState :=
  match state.health.lookup routeId with
  | some _ => { state with health := state.health.insert routeId ⟨0, none⟩ }
  | none => state

def recordFailure (state : GatewayRoutingState) (routeId : String) (now : Nat) : GatewayRoutingState :=
  let entry := (state.health.lookup routeId).getD ⟨0, none⟩
  let failures := min (entry.consecutiveFailures + 1) u32Max
  let blacklistedUntil := if failureThreshold ≤ failures then some (now + cooldown) else entry.blacklistedUntil
  { state with health := state.health.insert routeId ⟨failures, blacklistedUntil⟩ }

/-- `duration_since` is zero for a time that is not past yet. -/
def bindingFor (state : GatewayRoutingState) (sessionId : String) (now : Nat) : Option String :=
  ((state.bindings.lookup sessionId).filter fun binding => now - binding.lastUsed ≤ bindingTtl).map
    SessionBinding.routeId

def bind (state : GatewayRoutingState) (sessionId routeId : String) (now : Nat) : GatewayRoutingState :=
  { state with bindings := state.bindings.insert sessionId ⟨routeId, now⟩ }

def evictStale (state : GatewayRoutingState) (now : Nat) : GatewayRoutingState :=
  { state with bindings := state.bindings.retain fun _ binding => now - binding.lastUsed ≤ bindingTtl }

def bindSession (state : GatewayRoutingState) (sessionId : Option String) (routeId : String) (now : Nat) :
    GatewayRoutingState :=
  match sessionId with
  | some sid => state.bind sid routeId now
  | none => state

end GatewayRoutingState

section

variable (sha256 : List UInt8 → Vector UInt8 32) (model : String) (sessionId : Option String)
  (config : AiGatewayConfig) (state : GatewayRoutingState) (now : Nat)

def resolveProviderWithStateMatching (accepts : ProviderConfig → Bool) :
    Except GatewayError (ProviderConfig × String) × GatewayRoutingState :=
  let candidates := config.providers.filter fun provider =>
    provider.enabled && provider.matchesModel model && accepts provider
  if candidates = [] then (.error (.invalidModel model), state)
  else
    let sessionId := normalizedSession sessionId
    let blacklisted (provider : ProviderConfig) : Bool := state.isBlacklisted (providerRouteId provider) now
    let choose (provider : ProviderConfig) (routeId : String) :
        Except GatewayError (ProviderConfig × String) × GatewayRoutingState :=
      (.ok (provider, routeId), state.bindSession sessionId routeId now)
    match (config.effectiveModelOwner model).filter fun owner => accepts owner && !blacklisted owner with
    | some owner => choose owner (providerRouteId owner)
    | none =>
      let healthy := candidates.filter fun provider => !blacklisted provider
      let bound := (sessionId.bind fun sid => state.bindingFor sid now).bind fun bound =>
        (healthy.find? fun provider => providerRouteId provider = bound).map fun provider => (provider, bound)
      match bound with
      | some (provider, bound) => choose provider bound
      | none =>
        match selectByPriority sha256 (if healthy = [] then candidates else healthy) sessionId with
        | some selected => choose selected (providerRouteId selected)
        | none => (.error (.invalidModel model), state)

def resolveProviderWithState : Except GatewayError (ProviderConfig × String) × GatewayRoutingState :=
  resolveProviderWithStateMatching sha256 model sessionId config state now fun _ => true

def resolveProviderWithStateForType (providerType : ProviderType) :
    Except GatewayError (ProviderConfig × String) × GatewayRoutingState :=
  resolveProviderWithStateMatching sha256 model sessionId config state now fun provider =>
    provider.providerType = providerType

end

end MochiPort
