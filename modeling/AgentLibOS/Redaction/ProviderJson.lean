import AgentLibOS.Capability.Value
import AgentLibOS.Library.Run
import AgentLibOS.Redaction.SensitiveText

namespace AgentLibOS.Redaction
open Capability Library.Run

/-- What Python knows of Unicode characters: case folding, and the alphanumeric characters with the
underscore. -/
structure CharacterTables where
  casefold : String → String
  word : Char → Bool

/-- `ValidationError`, by its message. -/
abbrev ProviderError := String

/-! ## MCP Apps -/

section
variable (tables : CharacterTables)

/-- `text.partition("=")`: the name and what follows the sign, if there is one. -/
def partitionParameter (text : String) : String × Option String :=
  match text.toList.span (· != '=') with
  | (name, _ :: selected) => (String.ofList name, some (String.ofList selected))
  | (name, []) => (String.ofList name, none)

def unquoted (text : String) : String :=
  String.ofList (Library.Text.strip ("\"'".toList.contains ·) text.toList)

def isMcpAppMime (value : String) : Bool :=
  match (value.splitOn ";").map strip with
  | [] => false
  | kind :: parameters =>
      tables.casefold kind == "text/html" && parameters.any fun parameter =>
        match partitionParameter parameter with
        | (name, some selected) => tables.casefold (strip name) == "profile" &&
            tables.casefold (unquoted (strip selected)) == "mcp-app"
        | (_, none) => false

def isMcpAppMetadataKey (value : String) : Bool :=
  let folded := tables.casefold value
  folded == "ui" || folded.startsWith "ui/" || folded.startsWith "io.modelcontextprotocol/ui"

def rejectMcpAppSelector (value label : String) : Except ProviderError Unit := do
  ensure (value ≠ "" ∧ '\x00' ∉ value.toList) s!"MCP {label} must be a non-empty string"
  ensure (¬ (tables.casefold value).startsWith "ui:") "MCP Apps ui:// resources are unsupported"

def rejectMcpAppText (value : String) : Except ProviderError Unit := do
  if value ≠ "" ∧ (tables.casefold value).startsWith "ui:" then
    rejectMcpAppSelector tables value "Apps selector"
  ensure (¬ isMcpAppMime tables value) "MCP Apps HTML content is unsupported"

end

/-! ## Provider values -/

def maxJsonDepth : Nat := 64

def maxJsonNodes : Nat := 100000

section
variable (tables : CharacterTables) (sensitiveValues : List String)

def enterNode (depth nodes : Nat) : Except ProviderError Unit := do
  ensure (nodes + 1 ≤ maxJsonNodes) "MCP provider JSON exceeds maximum node count"
  ensure (depth ≤ maxJsonDepth) "MCP provider JSON exceeds maximum depth"

/-- `math.isfinite`. -/
def isFinite : FloatValue → Bool
  | .finite _ => true
  | _ => false

mutual

/-- `sanitize_provider_json` at a depth, after so many nodes; it returns their new number too. -/
def sanitizeProviderJson (depth nodes : Nat) : Value → Except ProviderError (Value × Nat)
  | .str text => do
      enterNode depth nodes
      rejectMcpAppText tables text
      .ok (.str (redactSensitiveText tables.word sensitiveValues text), nodes + 1)
  | .list items => do
      enterNode depth nodes
      let (selected, nodes) ← sanitizeItems (depth + 1) (nodes + 1) items
      .ok (.list selected, nodes)
  | .dict entries => do
      enterNode depth nodes
      let (selected, nodes) ← sanitizeEntries (depth + 1) (nodes + 1) [] entries
      .ok (.dict selected, nodes)
  | .float value => do
      enterNode depth nodes
      ensure (isFinite value) "MCP provider JSON contains a non-finite number"
      .ok (.float value, nodes + 1)
  | value => do
      enterNode depth nodes
      .ok (value, nodes + 1)

def sanitizeItems (depth nodes : Nat) : List Value → Except ProviderError (List Value × Nat)
  | [] => .ok ([], nodes)
  | item :: rest => do
      let (item, nodes) ← sanitizeProviderJson depth nodes item
      let (rest, nodes) ← sanitizeItems depth nodes rest
      .ok (item :: rest, nodes)

def sanitizeEntries (depth nodes : Nat) (selected : Dict) :
    Dict → Except ProviderError (Dict × Nat)
  | [] => .ok (selected, nodes)
  | (key, item) :: rest =>
      if isMcpAppMetadataKey tables key then sanitizeEntries depth nodes selected rest
      else do
        rejectMcpAppText tables key
        let publicKey := redactSensitiveText tables.word sensitiveValues key
        ensure (¬ Dict.has selected publicKey) "MCP provider JSON keys collide after redaction"
        let (item, nodes) ← sanitizeProviderJson depth nodes item
        sanitizeEntries depth nodes (selected ++ [(publicKey, item)]) rest

end

end

/-! ## No secret is shown -/

mutual

/-- The strings and keys of a value. -/
def texts : Value → List String
  | .str text => [text]
  | .list items => itemTexts items
  | .dict entries => entryTexts entries
  | _ => []

def itemTexts : List Value → List String
  | [] => []
  | item :: rest => texts item ++ itemTexts rest

def entryTexts : Dict → List String
  | [] => []
  | (key, item) :: rest => key :: texts item ++ entryTexts rest

end

theorem entryTexts_append (left right : Dict) :
    entryTexts (left ++ right) = entryTexts left ++ entryTexts right := by
  induction left with
  | nil => rfl
  | cons entry rest ih =>
      obtain ⟨key, item⟩ := entry
      rw [List.cons_append, entryTexts, entryTexts, ih]
      simp

section
variable {tables : CharacterTables} {sensitiveValues : List String} {secret : String}
  (known : secret ∈ sensitiveValues) (hidden : Opaque secret)

include known hidden

mutual

theorem sanitized_hides : ∀ (value : Value) (depth nodes : Nat) (result : Value) (nodes' : Nat),
    sanitizeProviderJson tables sensitiveValues depth nodes value = .ok (result, nodes') →
    ∀ text ∈ texts result, ¬ Shows secret text
  | .str text, _, _, result, nodes', done => by
      rw [sanitizeProviderJson] at done
      obtain ⟨_, _, done⟩ := bind_eq_ok.mp done
      obtain ⟨_, _, done⟩ := bind_eq_ok.mp done
      cases done
      rw [texts]
      exact List.forall_mem_singleton.mpr (redactSensitiveText_hides _ known hidden text)
  | .list items, depth, nodes, result, nodes', done => by
      rw [sanitizeProviderJson] at done
      obtain ⟨_, _, done⟩ := bind_eq_ok.mp done
      obtain ⟨⟨selected, _⟩, inner, done⟩ := bind_eq_ok.mp done
      cases done
      rw [texts]
      exact sanitizedItems_hide items _ _ selected _ inner
  | .dict entries, depth, nodes, result, nodes', done => by
      rw [sanitizeProviderJson] at done
      obtain ⟨_, _, done⟩ := bind_eq_ok.mp done
      obtain ⟨⟨selected, _⟩, inner, done⟩ := bind_eq_ok.mp done
      cases done
      rw [texts]
      exact sanitizedEntries_hide entries _ _ [] selected _ (by simp [entryTexts]) inner
  | .float value, _, _, result, nodes', done => by
      rw [sanitizeProviderJson] at done
      obtain ⟨_, _, done⟩ := bind_eq_ok.mp done
      obtain ⟨_, _, done⟩ := bind_eq_ok.mp done
      cases done
      simp [texts]
  | .none, _, _, result, nodes', done | .bool _, _, _, result, nodes', done
  | .int _, _, _, result, nodes', done => by
      rw [sanitizeProviderJson] at done
      · obtain ⟨_, _, done⟩ := bind_eq_ok.mp done
        cases done
        simp [texts]
      all_goals exact fun _ same => Value.noConfusion same

theorem sanitizedItems_hide : ∀ (items : List Value) (depth nodes : Nat) (result : List Value)
    (nodes' : Nat),
    sanitizeItems tables sensitiveValues depth nodes items = .ok (result, nodes') →
    ∀ text ∈ itemTexts result, ¬ Shows secret text
  | [], _, _, result, nodes', done => by
      rw [sanitizeItems] at done
      cases done
      simp [itemTexts]
  | item :: rest, _, _, result, nodes', done => by
      rw [sanitizeItems] at done
      obtain ⟨⟨item', _⟩, head, done⟩ := bind_eq_ok.mp done
      obtain ⟨⟨rest', _⟩, tail, done⟩ := bind_eq_ok.mp done
      cases done
      rw [itemTexts]
      exact List.forall_mem_append.mpr
        ⟨sanitized_hides item _ _ item' _ head, sanitizedItems_hide rest _ _ rest' _ tail⟩

theorem sanitizedEntries_hide : ∀ (entries : Dict) (depth nodes : Nat) (selected result : Dict)
    (nodes' : Nat), (∀ text ∈ entryTexts selected, ¬ Shows secret text) →
    sanitizeEntries tables sensitiveValues depth nodes selected entries = .ok (result, nodes') →
    ∀ text ∈ entryTexts result, ¬ Shows secret text
  | [], _, _, selected, result, nodes', clear, done => by
      rw [sanitizeEntries] at done
      cases done
      exact clear
  | (key, item) :: rest, depth, nodes, selected, result, nodes', clear, done => by
      rw [sanitizeEntries] at done
      split at done
      · exact sanitizedEntries_hide rest _ _ selected result _ clear done
      · obtain ⟨_, _, done⟩ := bind_eq_ok.mp done
        obtain ⟨_, _, done⟩ := bind_eq_ok.mp done
        obtain ⟨⟨item', _⟩, inner, done⟩ := bind_eq_ok.mp done
        refine sanitizedEntries_hide rest _ _ _ result _ ?_ done
        rw [entryTexts_append, List.forall_mem_append]
        refine ⟨clear, ?_⟩
        have here := sanitized_hides item _ _ item' _ inner
        have keyed := redactSensitiveText_hides tables.word known hidden key
        simpa [entryTexts, keyed] using here

end

end

/-- No text that is shown after redaction contains one of the sensitive values, nor does a string
or key of a provider value. -/
theorem exact_secrets_hidden (tables : CharacterTables) (sensitiveValues : List String)
    (hidden : ∀ secret ∈ sensitiveValues, Opaque secret) :
    (∀ value, ∀ secret ∈ sensitiveValues,
      ¬ Shows secret (redactSensitiveText tables.word sensitiveValues value)) ∧
    ∀ depth nodes value result nodes',
      sanitizeProviderJson tables sensitiveValues depth nodes value = .ok (result, nodes') →
      ∀ text ∈ texts result, ∀ secret ∈ sensitiveValues, ¬ Shows secret text := by
  constructor
  · intro value secret known
    exact redactSensitiveText_hides tables.word known (hidden secret known) value
  · intro depth nodes value result nodes' done text inside secret known
    exact sanitized_hides known (hidden secret known) value depth nodes result nodes' done text inside

def plainTables : CharacterTables where
  casefold text := text.map Char.toLower
  word c := c.isAlphanum || c == '_'

theorem hunter_opaque : ∀ secret ∈ ["hunter2", "hunter"], Opaque secret := by
  rw [List.forall_mem_cons, List.forall_mem_singleton]
  constructor
  · exact ⟨by decide, by decide +kernel, by decide +kernel, by decide +kernel⟩
  · exact ⟨by decide, by decide +kernel, by decide +kernel, by decide +kernel⟩

theorem exact_secrets_hidden_hunter :
    ¬ Shows "hunter2" (redactSensitiveText plainTables.word ["hunter2", "hunter"] "hunterhunter2") ∧
    ¬ Shows "hunter" (redactSensitiveText plainTables.word ["hunter2", "hunter"] "hunterhunter2") :=
  have shown := (exact_secrets_hidden plainTables ["hunter2", "hunter"] hunter_opaque).1
  ⟨shown "hunterhunter2" "hunter2" (by decide), shown "hunterhunter2" "hunter" (by decide)⟩

end AgentLibOS.Redaction
