import AgentLibOS.Library.Text
import Mathlib.Data.List.Dedup
import Mathlib.Tactic.Common

namespace AgentLibOS.Memory
open Library.Text

inductive DataSensitivity
  | «public» | normal | confidential | restricted | secret
  deriving DecidableEq, Repr

inductive DataTrustLevel
  | untrusted | unknown | userAsserted | verified | trusted
  deriving DecidableEq, Repr

inductive DataIntegrity
  | untrusted | unknown | checked | verified
  deriving DecidableEq, Repr

def sensitivityOrder : List DataSensitivity :=
  [.«public», .normal, .confidential, .restricted, .secret]

def trustOrder : List DataTrustLevel := [.untrusted, .unknown, .userAsserted, .verified, .trusted]

def integrityOrder : List DataIntegrity := [.untrusted, .unknown, .checked, .verified]

/-- The labels that `validate` admits; `mixed` is reserved to tenants and principals. -/
def validateOptionalIdentity (mixedAllowed : Bool) : Option String → Bool
  | none => true
  | some value =>
      value != "" && value.toList == strip isSpace value.toList &&
        (value != "mixed" || mixedAllowed) &&
        decide (value.length ≤ 256) && value.toList.all fun c => 32 ≤ c.toNat && c.toNat != 127

structure ObjectMetadata where
  sensitivity : DataSensitivity
  trustLevel : DataTrustLevel
  integrity : DataIntegrity
  origin : Option String
  tenant : Option String
  principal : Option String
  declassificationAuthority : Option String
  originValid : validateOptionalIdentity false origin = true
  tenantValid : validateOptionalIdentity true tenant = true
  principalValid : validateOptionalIdentity true principal = true
  authorityValid : validateOptionalIdentity false declassificationAuthority = true

/-! ## Merging one component -/

section Ordered
variable {α : Type} [DecidableEq α]

/-- `max(values, key=rankings.__getitem__)`: the first of the greatest values. -/
def highest (order : List α) (first : α) (rest : List α) : α :=
  rest.foldl (fun best value => if order.idxOf best < order.idxOf value then value else best) first

def lowest (order : List α) (first : α) (rest : List α) : α :=
  rest.foldl (fun best value => if order.idxOf value < order.idxOf best then value else best) first

end Ordered

/-- The set `{str(value) for value in values if value not in {None, ""}}`, without repetitions. -/
def identities (values : List (Option String)) : List String :=
  (values.filterMap fun value => value.filter (· != "")).dedup

def mergeOrigin (explicit : Option String) (inherited : List (Option String)) : Option String :=
  if explicit ∉ [none, some "", some "local", some "unknown"] then explicit
  else match identities inherited with
    | [] => explicit
    | [value] => some value
    | _ => some "derived"

def mergeSecurityIdentity (explicit : Option String) (inherited : List (Option String)) :
    Option String :=
  match identities (explicit :: inherited) with
  | [] => none
  | value :: others => if "mixed" ∈ value :: others ∨ others ≠ [] then some "mixed" else some value

def mergeDeclassificationAuthority (explicit : Option String) (inherited : List (Option String)) :
    Option String :=
  match identities (explicit :: inherited) with
  | [value] => some value
  | _ => none

/-! ## Merged labels are valid -/

theorem mem_identities {values : List (Option String)} {value : String} :
    value ∈ identities values ↔ some value ∈ values ∧ value ≠ "" := by
  simp only [identities, List.mem_dedup, List.mem_filterMap, Option.filter_eq_some_iff]
  aesop

theorem mergeOrigin_valid {explicit : Option String} {inherited : List (Option String)}
    (own : validateOptionalIdentity false explicit = true)
    (others : ∀ value ∈ inherited, validateOptionalIdentity false value = true) :
    validateOptionalIdentity false (mergeOrigin explicit inherited) = true := by
  unfold mergeOrigin
  by_cases kept : explicit ∉ [none, some "", some "local", some "unknown"]
  · rw [if_pos kept]
    exact own
  · rw [if_neg kept]
    split
    · exact own
    · rename_i value single
      have member : value ∈ identities inherited := by simp [single]
      exact others _ (mem_identities.mp member).1
    · decide

theorem mergeSecurityIdentity_valid {explicit : Option String} {inherited : List (Option String)}
    (valid : ∀ value ∈ explicit :: inherited, validateOptionalIdentity true value = true) :
    validateOptionalIdentity true (mergeSecurityIdentity explicit inherited) = true := by
  unfold mergeSecurityIdentity
  split
  · rfl
  · rename_i value others shape
    split_ifs
    · decide
    · have member : value ∈ identities (explicit :: inherited) := by simp [shape]
      exact valid _ (mem_identities.mp member).1

theorem mergeDeclassificationAuthority_valid {explicit : Option String}
    {inherited : List (Option String)}
    (valid : ∀ value ∈ explicit :: inherited, validateOptionalIdentity false value = true) :
    validateOptionalIdentity false (mergeDeclassificationAuthority explicit inherited) = true := by
  unfold mergeDeclassificationAuthority
  split
  · rename_i value single
    have member : value ∈ identities (explicit :: inherited) := by simp [single]
    exact valid _ (mem_identities.mp member).1
  · rfl

/-! ## Propagation -/

def propagateObjectLabels (metadata : ObjectMetadata) (parents : List ObjectMetadata) :
    ObjectMetadata :=
  if parents = [] then metadata
  else
    { sensitivity := highest sensitivityOrder metadata.sensitivity (parents.map (·.sensitivity))
      trustLevel := lowest trustOrder metadata.trustLevel (parents.map (·.trustLevel))
      integrity := lowest integrityOrder metadata.integrity (parents.map (·.integrity))
      origin := mergeOrigin metadata.origin (parents.map (·.origin))
      tenant := mergeSecurityIdentity metadata.tenant (parents.map (·.tenant))
      principal := mergeSecurityIdentity metadata.principal (parents.map (·.principal))
      declassificationAuthority := mergeDeclassificationAuthority
        metadata.declassificationAuthority (parents.map (·.declassificationAuthority))
      originValid := mergeOrigin_valid metadata.originValid (by simp [ObjectMetadata.originValid])
      tenantValid := mergeSecurityIdentity_valid (by
        simp [metadata.tenantValid, ObjectMetadata.tenantValid])
      principalValid := mergeSecurityIdentity_valid (by
        simp [metadata.principalValid, ObjectMetadata.principalValid])
      authorityValid := mergeDeclassificationAuthority_valid (by
        simp [metadata.authorityValid, ObjectMetadata.authorityValid]) }

def identityIsConservative (current proposed : Option String) : Bool :=
  proposed == current || proposed == some "mixed" || (current == none && proposed != none)

def isConservativeLabelPropagation (current proposed : ObjectMetadata) : Bool :=
  sensitivityOrder.idxOf current.sensitivity ≤ sensitivityOrder.idxOf proposed.sensitivity &&
    trustOrder.idxOf proposed.trustLevel ≤ trustOrder.idxOf current.trustLevel &&
    integrityOrder.idxOf proposed.integrity ≤ integrityOrder.idxOf current.integrity &&
    identityIsConservative current.tenant proposed.tenant &&
    identityIsConservative current.principal proposed.principal &&
    decide (proposed.declassificationAuthority ∈ [current.declassificationAuthority, none])

end AgentLibOS.Memory
