import AgentLibOS.DataFlow.Labels
import AgentLibOS.Library.Run
import Mathlib.Data.Prod.Lex
import Mathlib.Order.Lattice.Nat

namespace AgentLibOS.DataFlow
open Library.Text Library.Run Memory

/-! ## Sinks and patterns -/

inductive SinkTrustLevel
  | untrusted | conditional | trusted
  deriving DecidableEq, Repr

inductive DataFlowError
  | value | validation | denied
  deriving DecidableEq, Repr

def sensitivityRank (value : DataSensitivity) : Nat := sensitivityOrder.idxOf value

def providerBackedPrefixes : List String :=
  ["llm:", "jsonrpc:", "mcp:", "mcp_stdio:", "shell:", "pty:"]

def providerBacked (identity : String) : Bool :=
  providerBackedPrefixes.any fun start => start.toList.isPrefixOf identity.toList

/-- The text is stripped and has a namespace and a target around its first colon. -/
def canonicalNamespaced (value : String) : Bool :=
  value.toList == strip isSpace value.toList && value.toList.contains ':' &&
    value.toList.takeWhile (· != ':') != [] && (value.toList.dropWhile (· != ':')).drop 1 != []

/-- The identity that `DataSink` accepts. -/
def validSinkIdentity (identity : String) : Bool :=
  requireText identity && !identity.toList.contains '*' && canonicalNamespaced identity

structure DataSink where
  identity : String
  identitySha256 : Option String
  trustIdentity : Option String
  trustIdentitySha256 : Option String
  identityValid : validSinkIdentity identity = true
  trustValid : ∀ value, trustIdentity = some value →
    (requireText value && !value.toList.contains '*' && value.toList.contains ':') = true

namespace DataSink

def registryIdentity (sink : DataSink) : String := sink.trustIdentity.getD sink.identity

def registryIdentitySha256 (sink : DataSink) : Option String :=
  sink.trustIdentitySha256.orElse fun _ => sink.identitySha256

end DataSink

def wildcard (pattern : String) : Bool := pattern.toList.getLast? == some '*'

def validateSinkPattern (pattern : String) : Bool :=
  requireText pattern && pattern.toList.all (· != Char.ofNat 0) &&
    decide (pattern.toList.count '*' ≤ 1) && (!pattern.toList.contains '*' || wildcard pattern) &&
    canonicalNamespaced pattern

/-- `pattern[:-1]` of a pattern with a wildcard: what registration compares. -/
def patternBase (pattern : String) : List Char :=
  if wildcard pattern then pattern.toList.dropLast else pattern.toList

/-- `pattern.rstrip("*")`: what resolution ranks by. -/
def rankedBase (pattern : String) : List Char := pattern.toList.rdropWhile (· == '*')

/-- What `sink_pattern_matches` computes once both texts are accepted. -/
def matchesIdentity (pattern identity : String) : Bool :=
  if wildcard pattern then pattern.toList.dropLast.isPrefixOf identity.toList
  else identity == pattern

def sinkPatternMatches (pattern sink : String) : Except DataFlowError Bool :=
  if !validateSinkPattern pattern then .error .value
  else if !validSinkIdentity sink then .error .value
  else .ok (matchesIdentity pattern sink)

/-! ## Rules and their registry -/

structure SinkTrustRule where
  pattern : String
  trustLevel : SinkTrustLevel
  maxSensitivity : DataSensitivity
  tenants : List String
  principals : List String
  identitySha256 : Option String
  patternValid : validateSinkPattern pattern = true
  untrustedBounded : trustLevel = .untrusted → sensitivityRank maxSensitivity ≤ sensitivityRank .normal
  providerBounded : providerBacked pattern = true → identitySha256 = none →
    sensitivityRank maxSensitivity ≤ sensitivityRank .normal

structure SinkTrustSpec where
  trustId : String
  rule : SinkTrustRule
  generation : Nat
  createdBy : String
  active : Bool

/-- The table `sink_trust_records`, newest generation first, and the row of `sink_trust_registry`. -/
structure SinkTrustRegistry where
  records : List SinkTrustSpec
  generation : Nat

namespace SinkTrustRegistry

def empty : SinkTrustRegistry := ⟨[], 0⟩

/-- `list_sink_trust(active_only=True)`. -/
def active (registry : SinkTrustRegistry) : List SinkTrustSpec := registry.records.filter (·.active)

def inspectSinkTrust (registry : SinkTrustRegistry) (pattern : String) : Option SinkTrustSpec :=
  registry.active.find? (·.rule.pattern == pattern)

def deactivate (registry : SinkTrustRegistry) (pattern : String) : List SinkTrustSpec :=
  registry.records.map fun item =>
    if item.rule.pattern = pattern then { item with active := false } else item

/-! ## The store -/

def storeRegister (registry : SinkTrustRegistry) (spec : SinkTrustSpec) (replace : Bool) :
    Except DataFlowError SinkTrustRegistry :=
  if spec.generation ≠ registry.generation + 1 then .error .validation
  else if (registry.inspectSinkTrust spec.rule.pattern).isSome && !replace then .error .validation
  else if registry.records.any (·.trustId == spec.trustId) then .error .validation
  else .ok ⟨spec :: registry.deactivate spec.rule.pattern, spec.generation⟩

def storeUnregister (registry : SinkTrustRegistry) (pattern : String) (generation : Nat) :
    Except DataFlowError SinkTrustRegistry :=
  if generation ≠ registry.generation + 1 then .error .validation
  else if (registry.inspectSinkTrust pattern).isNone then .error .validation
  else .ok ⟨registry.deactivate pattern, generation⟩

/-! ## The manager -/

/-- `registry_list_limit` and the hash of a rule. -/
structure Config where
  registryListLimit : Nat
  specHash : SinkTrustRule → String

variable (config : Config)

/-- `authorized` is whether the actor has the authority, or none is required. -/
def registerSinkTrust (registry : SinkTrustRegistry) (rule : SinkTrustRule)
    (actor trustId : String) (replace authorized : Bool) : Except DataFlowError SinkTrustRegistry :=
  if !authorized then .error .denied
  else if !registry.active.any (·.rule.pattern == rule.pattern) &&
      decide (config.registryListLimit ≤ registry.active.length) then .error .validation
  else if registry.active.any fun existing =>
      !(replace && existing.rule.pattern == rule.pattern) &&
        patternBase existing.rule.pattern == patternBase rule.pattern then .error .validation
  else if !requireText actor then .error .value
  else registry.storeRegister ⟨trustId, rule, registry.generation + 1, actor, true⟩ replace

def unregisterSinkTrust (registry : SinkTrustRegistry) (pattern : String) (authorized : Bool) :
    Except DataFlowError SinkTrustRegistry :=
  let selected := String.ofList (strip isSpace pattern.toList)
  if !authorized then .error .denied
  else if (registry.inspectSinkTrust selected).isNone then .error .validation
  else registry.storeUnregister selected (registry.generation + 1)

inductive Change
  | register (rule : SinkTrustRule) (actor trustId : String) (replace authorized : Bool)
  | unregister (pattern : String) (authorized : Bool)

def Change.exec (registry : SinkTrustRegistry) : Change → Except DataFlowError SinkTrustRegistry
  | .register rule actor trustId replace authorized =>
      registry.registerSinkTrust config rule actor trustId replace authorized
  | .unregister pattern authorized => registry.unregisterSinkTrust pattern authorized

/-- Changes that are decided one after the other, each in its own transaction; an error ends them. -/
def changeAll (registry : SinkTrustRegistry) :
    List (SinkTrustRegistry → Option Change) → SinkTrustRegistry
  | [] => registry
  | decide_ :: rest =>
      match decide_ registry with
      | none => registry.changeAll rest
      | some change =>
          match change.exec config registry with
          | .ok registry' => registry'.changeAll rest
          | .error _ => registry

/-- The rules of the configuration with the ids drawn for them. -/
def bootstrapConfiguredRules (registry : SinkTrustRegistry)
    (configured : List (SinkTrustRule × String)) : SinkTrustRegistry :=
  let removals := registry.active.filter fun item =>
    item.createdBy == "runtime.bootstrap" &&
      !configured.any fun entry => entry.1.pattern == item.rule.pattern
  registry.changeAll config <|
    removals.map (fun item _ => some (.unregister item.rule.pattern true)) ++
      configured.map fun (rule, trustId) current =>
        match current.inspectSinkTrust rule.pattern with
        | none => some (.register rule "runtime.bootstrap" trustId false true)
        | some existing =>
            if config.specHash existing.rule = config.specHash rule then none
            else some (.register rule "runtime.bootstrap" trustId true true)

inductive Op
  | change (change : Change)
  | bootstrap (configured : List (SinkTrustRule × String))

def step (registry : SinkTrustRegistry) : Op → SinkTrustRegistry
  | .change change => transact (Change.exec config) registry change
  | .bootstrap configured => registry.bootstrapConfiguredRules config configured

/-! ## Resolution -/

def matching (identity : String) : List SinkTrustSpec → Except DataFlowError (List SinkTrustSpec)
  | [] => .ok []
  | item :: rest => do
      let hit ← sinkPatternMatches item.rule.pattern identity
      let others ← matching identity rest
      pure (if hit then item :: others else others)

/-- `(len(item.pattern.rstrip("*")), item.generation)`. -/
def priority (item : SinkTrustSpec) : ℕ ×ₗ ℕ :=
  toLex ((rankedBase item.rule.pattern).length, item.generation)

def resolveSinkTrust (registry : SinkTrustRegistry) (sink : DataSink) :
    Except DataFlowError (Option SinkTrustSpec) := do
  let found ← matching sink.registryIdentity registry.active
  match found.insertionSort fun left right => priority right ≤ priority left with
  | [] => .ok none
  | first :: rest =>
      let longest := (rankedBase first.rule.pattern).length
      let tied := (first :: rest).filter fun item =>
        (rankedBase item.rule.pattern).length == longest
      if 1 < tied.length then .error .validation else .ok (some first)

end SinkTrustRegistry
end AgentLibOS.DataFlow
