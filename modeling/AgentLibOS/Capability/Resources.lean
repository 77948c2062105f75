import AgentLibOS.Library.Text
import Mathlib.Tactic.Common

namespace AgentLibOS.Capability
open Library.Text

structure CapabilityDenied where
  message : String
  deriving DecidableEq, Repr

/-- `GLOBAL` of the source's enumeration is built by no code path. -/
inductive ResourceScope
  | exactScope | subtreeScope | prefixScope
  deriving DecidableEq, Repr

structure ResourcePattern where
  raw : List Char
  kind : List Char
  body : List Char
  scope : ResourceScope
  deriving DecidableEq, Repr

namespace ResourceAuthority

def canonicalText (resource : List Char) : List Char :=
  let raw := collapse '/' (strip isSpace resource)
  if ['/'] <:+ raw ∧ ¬ [':', '/'] <:+ raw then raw.rdropWhile (· == '/') else raw

def canonical (resource : String) : String := String.ofList (canonicalText resource.toList)

/-- `body[:-2]`. -/
def dropTwo (body : List Char) : List Char := body.take (body.length - 2)

def parseText (resource : List Char) (requested : Bool) :
    Except CapabilityDenied ResourcePattern :=
  let raw := canonicalText resource
  if raw = ['*'] then
    .error ⟨"capability resources must be typed; use '<kind>:*' instead of global '*'"⟩
  else if '*' ∈ raw ∧ ¬ ([':', '*'] <:+ raw ∨ ['/', '*'] <:+ raw) then
    .error ⟨"resource wildcard must be terminal and canonical: " ++ String.ofList resource⟩
  else if ':' ∉ raw then
    .error ⟨"resource must be typed: " ++ String.ofList resource⟩
  else
    let kind := raw.takeWhile (· != ':')
    let body := (raw.dropWhile (· != ':')).tail
    if kind = [] ∨ body = [] then
      .error ⟨"resource must be typed: " ++ String.ofList resource⟩
    else if [':', '*'] <:+ raw then
      if requested = true ∧ raw ≠ resource then
        .error ⟨"requested resource is not canonical: " ++ String.ofList resource⟩
      else .ok ⟨raw, kind, dropTwo body, .prefixScope⟩
    else if ['/', '*'] <:+ raw then
      .ok ⟨raw, kind, (dropTwo body).rdropWhile (· == '/'), .subtreeScope⟩
    else .ok ⟨raw, kind, body, .exactScope⟩

def parse (resource : String) (requested : Bool) : Except CapabilityDenied ResourcePattern :=
  parseText resource.toList requested

/-- The comparison `matches` makes once both texts are parsed. -/
def selects (pattern request : ResourcePattern) : Bool :=
  if pattern.kind ≠ request.kind then false
  else match pattern.scope with
    | .exactScope => decide (pattern.raw = request.raw)
    | .prefixScope =>
        if pattern.body = [] then decide (pattern.kind ++ [':'] <+: request.raw)
        else decide (pattern.kind ++ ':' :: pattern.body ++ [':'] <+: request.raw ∨
          request.raw = pattern.kind ++ ':' :: pattern.body)
    | .subtreeScope =>
        decide (request.body = pattern.body ∨ pattern.body ++ ['/'] <+: request.body)

def matchesText (granted requested : List Char) : Bool :=
  match parseText granted false, parseText requested true with
  | .ok pattern, .ok request => selects pattern request
  | _, _ => false

/-- `ResourceAuthority.matches`. -/
def «matches» (granted requested : String) : Bool :=
  matchesText granted.toList requested.toList

def coversText (granted requestedPattern : List Char) : Bool :=
  match parseText requestedPattern false with
  | .ok requested => matchesText granted requested.raw
  | .error _ => false

def covers (granted requestedPattern : String) : Bool :=
  coversText granted.toList requestedPattern.toList

example : covers "filesystem:workspace:src/*" "filesystem:workspace:src/main.py" = true := by decide
example : «matches» "filesystem:workspace:src/*" "filesystem:workspace:src2/main.py" = false := by
  decide

end ResourceAuthority
end AgentLibOS.Capability
