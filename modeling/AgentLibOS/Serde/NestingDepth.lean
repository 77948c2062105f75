import AgentLibOS.Library.JsonText
import AgentLibOS.Library.Run

namespace AgentLibOS.Serde
open Library Library.Json

/-! ## The guard before the decoder -/

/-- `_MAX_JSON_NESTING_DEPTH`. -/
def maxJsonNestingDepth : Nat := 256

/-- `_MAX_JSON_NODES`. -/
def maxJsonNodes : Nat := 100000

def nestingFault : String := "JSON nesting exceeds maximum depth=256"

def nodesFault : String := "JSON document exceeds maximum nodes=100000"

structure SourceState where
  depth : Nat
  inString : Bool
  escaped : Bool

def sourceStep (state : SourceState) (character : Nat) : Except String SourceState :=
  if state.inString then
    if state.escaped then .ok { state with escaped := false }
    else if character = backslash then .ok { state with escaped := true }
    else if character = quote then .ok { state with inString := false }
    else .ok state
  else if character = quote then .ok { state with inString := true }
  else if character = openBracket ∨ character = openBrace then
    if maxJsonNestingDepth < state.depth + 1 then .error nestingFault
    else .ok { state with depth := state.depth + 1 }
  else if character = closeBracket ∨ character = closeBrace then
    .ok { state with depth := state.depth - 1 }
  else .ok state

/-- `_validate_json_source_nesting_depth`. -/
def validateJsonSourceNestingDepth (value : Text) : Except String Unit :=
  (value.foldlM sourceStep ⟨0, false, false⟩).map fun _ => ()

/-! ## The guard over a document -/

theorem foldlM_step {state next : SourceState} {c : Nat} (one : sourceStep state c = .ok next)
    (text : Text) : (c :: text).foldlM sourceStep state = text.foldlM sourceStep next := by
  rw [List.foldlM_cons, one]
  rfl

/-- Outside of strings a plain character changes nothing. -/
theorem plain_step {c : Nat} (known : plain c = true) (depth : Nat) :
    sourceStep ⟨depth, false, false⟩ c = .ok ⟨depth, false, false⟩ := by
  simp only [plain, bne_iff_ne, Bool.and_eq_true, ne_eq] at known
  obtain ⟨⟨⟨⟨notQuote, notOpen⟩, notClose⟩, notOpenBrace⟩, notCloseBrace⟩ := known
  simp [sourceStep, notQuote, notOpen, notClose, notOpenBrace, notCloseBrace]

theorem plain_skimmed {text rest : Text} (takes : Takes plain text rest) (depth : Nat) :
    text.foldlM sourceStep ⟨depth, false, false⟩ = rest.foldlM sourceStep ⟨depth, false, false⟩ := by
  obtain ⟨used, rfl, known⟩ := takes
  induction used with
  | nil => rfl
  | cons c used ih =>
      rw [List.forall_mem_cons] at known
      rw [List.cons_append, foldlM_step (plain_step known.1 depth)]
      exact ih known.2

theorem blank_skimmed (text : Text) (depth : Nat) :
    text.foldlM sourceStep ⟨depth, false, false⟩ =
      (skipBlank text).foldlM sourceStep ⟨depth, false, false⟩ :=
  plain_skimmed (skipBlank_takes text) depth

theorem hexValue_inner {c value : Nat} (digit : hexValue c = some value) (depth : Nat) :
    sourceStep ⟨depth, true, false⟩ c = .ok ⟨depth, true, false⟩ := by
  have range : c ≠ backslash ∧ c ≠ quote := by
    constructor
    · rintro rfl
      cases digit
    · rintro rfl
      cases digit
  simp [sourceStep, range.1, range.2]

theorem escape_skimmed (c : Nat) (text : Text) (depth : Nat) :
    (backslash :: c :: text).foldlM sourceStep ⟨depth, true, false⟩ =
      text.foldlM sourceStep ⟨depth, true, false⟩ := by
  have enter : sourceStep ⟨depth, true, false⟩ backslash = .ok ⟨depth, true, true⟩ := rfl
  have leave : sourceStep ⟨depth, true, true⟩ c = .ok ⟨depth, true, false⟩ := rfl
  rw [foldlM_step enter, foldlM_step leave]

/-- The flags follow a string literal to its closing quote. -/
theorem string_skimmed {text : Text} {units : List CodeUnit} {rest : Text}
    (read : scanUnits text = some (units, rest)) (depth : Nat) :
    text.foldlM sourceStep ⟨depth, true, false⟩ = rest.foldlM sourceStep ⟨depth, false, false⟩ := by
  fun_induction scanUnits text generalizing units with
  | case1 => cases read
  | case2 =>
      cases read
      exact foldlM_step rfl rest
  | case3 h₁ h₂ h₃ h₄ after _ ih =>
      simp only [Option.bind_eq_bind, Option.bind_eq_some_iff] at read
      obtain ⟨d₁, hex₁, d₂, hex₂, d₃, hex₃, d₄, hex₄, ⟨units', rest'⟩, later, done⟩ := read
      cases done
      rw [escape_skimmed, foldlM_step (hexValue_inner hex₁ depth),
        foldlM_step (hexValue_inner hex₂ depth), foldlM_step (hexValue_inner hex₃ depth),
        foldlM_step (hexValue_inner hex₄ depth)]
      exact ih later
  | case4 e after _ _ ih =>
      simp only [Option.bind_eq_bind, Option.bind_eq_some_iff] at read
      obtain ⟨value, -, ⟨units', rest'⟩, later, done⟩ := read
      cases done
      rw [escape_skimmed]
      exact ih later
  | case5 => cases read
  | case6 => cases read
  | case7 c after notQuote notBackslash _ ih =>
      simp only [Option.bind_eq_bind, Option.bind_eq_some_iff] at read
      obtain ⟨⟨units', rest'⟩, later, done⟩ := read
      cases done
      have inner : sourceStep ⟨depth, true, false⟩ c = .ok ⟨depth, true, false⟩ := by
        simp [sourceStep, notQuote, notBackslash]
      rw [foldlM_step inner]
      exact ih later

theorem quoted_skimmed {text value rest : Text} (read : scanString text = some (value, rest))
    (depth : Nat) : (quote :: text).foldlM sourceStep ⟨depth, false, false⟩ =
      rest.foldlM sourceStep ⟨depth, false, false⟩ := by
  obtain ⟨⟨units, after⟩, scanned, done⟩ := Option.map_eq_some_iff.mp read
  cases done
  have enter : sourceStep ⟨depth, false, false⟩ quote = .ok ⟨depth, true, false⟩ := rfl
  rw [foldlM_step enter]
  exact string_skimmed scanned depth

theorem expect_skimmed {c : Nat} {text rest : Text} (found : expect c text = some rest)
    (depth : Nat) : text.foldlM sourceStep ⟨depth, false, false⟩ =
      (c :: rest).foldlM sourceStep ⟨depth, false, false⟩ := by
  rw [blank_skimmed, expect_eq found]

theorem close_step {c : Nat} (closes : c = closeBracket ∨ c = closeBrace) (depth : Nat) :
    sourceStep ⟨depth + 1, false, false⟩ c = .ok ⟨depth, false, false⟩ := by
  rcases closes with rfl | rfl <;> rfl

/-- The guard reads a part of a text that nests so deep, and ends at the depth `depth`. -/
def Skims (start : Nat) (text : Text) (nesting depth : Nat) (rest : Text) : Prop :=
  text.foldlM sourceStep ⟨start, false, false⟩ =
    if start + nesting ≤ maxJsonNestingDepth then rest.foldlM sourceStep ⟨depth, false, false⟩
    else .error nestingFault

theorem Skims.flat {start : Nat} {text rest : Text} (low : start ≤ maxJsonNestingDepth)
    (same : text.foldlM sourceStep ⟨start, false, false⟩ =
      rest.foldlM sourceStep ⟨start, false, false⟩) : Skims start text 0 start rest := by
  rw [Skims, if_pos (by simpa using low), same]

theorem Skims.then {start depth first second : Nat} {text between rest : Text}
    (one : Skims start text first start between) (two : Skims start between second depth rest) :
    Skims start text (max first second) depth rest := by
  rw [Skims] at one two ⊢
  rw [one, two]
  split_ifs <;> first | rfl | omega

/-- A container adds one level around its parts. -/
theorem Skims.enclosed {start nesting c : Nat} {text rest : Text}
    (opens : c = openBracket ∨ c = openBrace)
    (inner : start + 1 ≤ maxJsonNestingDepth → Skims (start + 1) text nesting start rest) :
    Skims start (c :: text) (1 + nesting) start rest := by
  rw [Skims, List.foldlM_cons]
  by_cases room : start + 1 ≤ maxJsonNestingDepth
  · have step : sourceStep ⟨start, false, false⟩ c = .ok ⟨start + 1, false, false⟩ := by
      rcases opens with rfl | rfl <;> exact if_neg (Nat.not_lt_of_le room)
    rw [step, ← Nat.add_assoc]
    exact inner room
  · have step : sourceStep ⟨start, false, false⟩ c = .error nestingFault := by
      rcases opens with rfl | rfl <;> exact if_pos (Nat.lt_of_not_le room)
    rw [step, if_neg (by omega)]
    rfl

theorem Skims.closed {c : Nat} (closes : c = closeBracket ∨ c = closeBrace) {text rest : Text}
    (found : expect c text = some rest) {depth : Nat} (low : depth < maxJsonNestingDepth) :
    Skims (depth + 1) text 0 depth rest := by
  rw [Skims, Nat.add_zero, if_pos (Nat.succ_le_of_lt low), expect_skimmed found,
    foldlM_step (close_step closes depth)]

theorem separator_skimmed {c : Nat} (known : plain c = true) {text rest : Text}
    (found : expect c text = some rest) (depth : Nat) :
    text.foldlM sourceStep ⟨depth, false, false⟩ =
      (skipBlank rest).foldlM sourceStep ⟨depth, false, false⟩ := by
  rw [expect_skimmed found, foldlM_step (plain_step known depth), blank_skimmed]

section
variable {fuel : Nat}
  (value : ∀ {text tree rest}, scanOnce fuel text = some (tree, rest) →
    ∀ depth ≤ maxJsonNestingDepth, Skims depth text tree.depth depth rest)
include value

theorem scanItems_skimmed
    (items : ∀ {text items rest}, scanItems fuel text = some (items, rest) →
      ∀ depth < maxJsonNestingDepth, Skims (depth + 1) text (JsonTree.itemsDepth items) depth rest)
    {text rest : Text} {trees : List (JsonTree Token)}
    (read : scanItems (fuel + 1) text = some (trees, rest)) (depth : Nat)
    (low : depth < maxJsonNestingDepth) :
    Skims (depth + 1) text (JsonTree.itemsDepth trees) depth rest := by
  rw [scanItems] at read
  simp only [Option.bind_eq_bind, Option.bind_eq_some_iff] at read
  obtain ⟨⟨item, between⟩, here, later⟩ := read
  have first := value here (depth + 1) low
  cases closed : expect closeBracket between with
  | some after =>
      rw [closed] at later
      cases later
      exact first.then (.closed (.inl rfl) closed low)
  | none =>
      rw [closed] at later
      simp only [Option.bind_eq_some_iff] at later
      obtain ⟨beyond, separated, ⟨others, after⟩, more, done⟩ := later
      cases done
      have second := items more depth low
      rw [Skims, ← separator_skimmed rfl separated] at second
      exact first.then second

theorem scanMembers_skimmed
    (members : ∀ {text members rest}, scanMembers fuel text = some (members, rest) →
      ∀ depth < maxJsonNestingDepth, Skims (depth + 1) text (JsonTree.entriesDepth members) depth rest)
    {text rest : Text} {entries : List (Text × JsonTree Token)}
    (read : scanMembers (fuel + 1) text = some (entries, rest)) (depth : Nat)
    (low : depth < maxJsonNestingDepth) :
    Skims (depth + 1) text (JsonTree.entriesDepth entries) depth rest := by
  cases text with
  | nil => cases read
  | cons c start =>
      rw [scanMembers] at read
      simp only [Option.bind_eq_bind, Option.ite_none_right_eq_some, Option.bind_eq_some_iff]
        at read
      obtain ⟨rfl, ⟨key, afterKey⟩, keyRead, beforeValue, colonRead, ⟨tree, between⟩, here, later⟩ :=
        read
      have first := value here (depth + 1) low
      rw [Skims, ← separator_skimmed rfl colonRead, ← quoted_skimmed keyRead] at first
      cases closed : expect closeBrace between with
      | some after =>
          rw [closed] at later
          cases later
          exact Skims.then first (.closed (.inr rfl) closed low)
      | none =>
          rw [closed] at later
          simp only [Option.bind_eq_some_iff] at later
          obtain ⟨beyond, separated, ⟨others, after⟩, more, done⟩ := later
          cases done
          have second := members more depth low
          rw [Skims, ← separator_skimmed rfl separated] at second
          exact Skims.then first second

end

/-- Induction on the bound of the recursion: a value, the items of an array, the members of an
object. -/
theorem scan_skimmed (fuel : Nat) :
    (∀ {text tree rest}, scanOnce fuel text = some (tree, rest) →
      ∀ depth ≤ maxJsonNestingDepth, Skims depth text tree.depth depth rest) ∧
    (∀ {text items rest}, scanItems fuel text = some (items, rest) →
      ∀ depth < maxJsonNestingDepth, Skims (depth + 1) text (JsonTree.itemsDepth items) depth rest) ∧
    (∀ {text members rest}, scanMembers fuel text = some (members, rest) →
      ∀ depth < maxJsonNestingDepth,
        Skims (depth + 1) text (JsonTree.entriesDepth members) depth rest) := by
  induction fuel with
  | zero =>
      refine ⟨?_, ?_, ?_⟩
      all_goals
        intro _ _ _ read
        cases read
  | succ fuel ih =>
      obtain ⟨value, items, members⟩ := ih
      refine ⟨?_, scanItems_skimmed value items, scanMembers_skimmed value members⟩
      intro text tree rest read depth low
      cases text with
      | nil => cases read
      | cons c start =>
          rw [scanOnce] at read
          split_ifs at read with string object array
          · obtain ⟨⟨text, after⟩, quoted, done⟩ := Option.map_eq_some_iff.mp read
            cases done
            exact .flat low (string ▸ quoted_skimmed quoted depth)
          · cases closed : expect closeBrace start with
            | some after =>
                rw [closed] at read
                cases read
                exact .enclosed (.inr object) fun room => .closed (.inr rfl) closed room
            | none =>
                rw [closed] at read
                obtain ⟨⟨entries, after⟩, inside, done⟩ := Option.map_eq_some_iff.mp read
                cases done
                refine .enclosed (.inr object) fun room => ?_
                have inner := members inside depth room
                rw [Skims, ← blank_skimmed] at inner
                exact inner
          · cases closed : expect closeBracket start with
            | some after =>
                rw [closed] at read
                cases read
                exact .enclosed (.inl array) fun room => .closed (.inl rfl) closed room
            | none =>
                rw [closed] at read
                obtain ⟨⟨trees, after⟩, inside, done⟩ := Option.map_eq_some_iff.mp read
                cases done
                refine .enclosed (.inl array) fun room => ?_
                have inner := items inside depth room
                rw [Skims, ← blank_skimmed] at inner
                exact inner
          · obtain ⟨⟨token, after⟩, scalar, done⟩ := Option.map_eq_some_iff.mp read
            cases done
            exact .flat low (plain_skimmed (scanScalar_takes scalar).1 depth)

theorem validateJsonSourceNestingDepth_document {text : Text} {tree : JsonTree Token}
    (read : document text = some tree) :
    validateJsonSourceNestingDepth text =
      Run.ensure (tree.depth ≤ maxJsonNestingDepth) nestingFault := by
  obtain ⟨rest, ⟨fuel, scanned⟩, finished⟩ := document_iff.mp read
  have skims := (scan_skimmed fuel).1 scanned 0 (Nat.zero_le _)
  rw [Skims, ← blank_skimmed, Nat.zero_add, blank_skimmed rest, finished] at skims
  rw [validateJsonSourceNestingDepth, skims, Run.ensure]
  split_ifs <;> rfl

/-! ## The traversal after it -/

section
variable {α : Type}

/-- The loop over `pending`, whose last entry is the first of the list. Without `maxNodes` the
nodes are not limited. The fuel is at least the number of values that are pending. -/
def visit (maxNodes : Option Nat) : Nat → Nat → List (JsonTree α × Nat) → Except String Unit
  | _, _, [] => .ok ()
  | 0, _, _ :: _ => .error nodesFault
  | fuel + 1, nodes, (current, parentDepth) :: pending => do
      let limit (nodes : Nat) : Except String Unit := Run.ensure (∀ bound ∈ maxNodes, nodes ≤ bound) nodesFault
      limit (nodes + 1)
      let descend (nodes : Nat) (children : List (JsonTree α)) : Except String Unit := do
        Run.ensure (parentDepth + 1 ≤ maxJsonNestingDepth) nestingFault
        visit maxNodes fuel nodes ((children.reverse.map fun child => (child, parentDepth + 1)) ++ pending)
      match current with
      | .dict entries => do
          limit (nodes + 1 + entries.length)
          descend (nodes + 1 + entries.length) (entries.map Prod.snd)
      | .list items => descend (nodes + 1) items
      | .leaf _ => visit maxNodes fuel (nodes + 1) pending

/-- `_validate_json_nesting_depth`. -/
def validateJsonNestingDepth (maxNodes : Option Nat) (value : JsonTree α) : Except String Unit :=
  visit maxNodes value.size 0 [(value, 0)]

/-- The entries that a container adds to the stack. -/
def deeper (parentDepth : Nat) (children : List (JsonTree α)) : List (JsonTree α × Nat) :=
  children.reverse.map fun child => (child, parentDepth + 1)

theorem deeper_size (parentDepth : Nat) (children : List (JsonTree α))
    (pending : List (JsonTree α × Nat)) :
    JsonTree.itemsSize ((deeper parentDepth children ++ pending).map Prod.fst) =
      JsonTree.itemsSize children + JsonTree.itemsSize (pending.map Prod.fst) := by
  have firsts : (deeper parentDepth children).map Prod.fst = children.reverse := by
    rw [deeper, List.map_map]
    exact List.map_id _
  rw [List.map_append, JsonTree.itemsSize_append, firsts, JsonTree.itemsSize_reverse]

theorem forall_deeper {parentDepth : Nat} {children : List (JsonTree α)} {P : JsonTree α × Nat → Prop} :
    (∀ entry ∈ deeper parentDepth children, P entry) ↔
      ∀ child ∈ children, P (child, parentDepth + 1) := by
  simp [deeper]

/-- The children of a container are visited or, one level too deep, refused. -/
theorem visit_container (fuel nodes parentDepth : Nat) {current : JsonTree α}
    (pending : List (JsonTree α × Nat)) {children : List (JsonTree α)}
    (container : current = .list children ∨ ∃ entries, current = .dict entries ∧
      children = entries.map Prod.snd) :
    ∃ nodes', visit none (fuel + 1) nodes ((current, parentDepth) :: pending) =
      if parentDepth + 1 ≤ maxJsonNestingDepth then
        visit none fuel nodes' (deeper parentDepth children ++ pending)
      else .error nestingFault := by
  rcases container with rfl | ⟨entries, rfl, rfl⟩
  · refine ⟨nodes + 1, ?_⟩
    by_cases room : parentDepth + 1 ≤ maxJsonNestingDepth
    · simp only [visit, Run.ensure, Option.not_mem_none, false_implies, implies_true, if_true,
        if_pos room]
      rfl
    · simp only [visit, Run.ensure, Option.not_mem_none, false_implies, implies_true, if_true,
        if_neg room]
      rfl
  · refine ⟨nodes + 1 + entries.length, ?_⟩
    by_cases room : parentDepth + 1 ≤ maxJsonNestingDepth
    · simp only [visit, Run.ensure, Option.not_mem_none, false_implies, implies_true, if_true,
        if_pos room]
      rfl
    · simp only [visit, Run.ensure, Option.not_mem_none, false_implies, implies_true, if_true,
        if_neg room]
      rfl

/-- Nothing pending is too deep. -/
def Shallow (pending : List (JsonTree α × Nat)) : Prop :=
  ∀ entry ∈ pending, entry.2 + entry.1.depth ≤ maxJsonNestingDepth

instance (pending : List (JsonTree α × Nat)) : Decidable (Shallow pending) :=
  inferInstanceAs (Decidable (∀ entry ∈ pending, _))

theorem shallow_container {parentDepth : Nat} {current : JsonTree α} {pending : List (JsonTree α × Nat)}
    {children : List (JsonTree α)} (nesting : current.depth = 1 + JsonTree.itemsDepth children)
    (room : parentDepth + 1 ≤ maxJsonNestingDepth) :
    Shallow (deeper parentDepth children ++ pending) ↔ Shallow ((current, parentDepth) :: pending) := by
  rw [Shallow, Shallow, List.forall_mem_append, List.forall_mem_cons, forall_deeper]
  refine and_congr ?_ Iff.rfl
  have bound : parentDepth + current.depth ≤ maxJsonNestingDepth ↔
      JsonTree.itemsDepth children ≤ maxJsonNestingDepth - (parentDepth + 1) := by
    omega
  rw [bound, JsonTree.itemsDepth_le]
  refine forall_congr' fun child => imp_congr_right fun _ => ?_
  change parentDepth + 1 + child.depth ≤ _ ↔ _
  omega

/-- Without a limit on nodes the loop fails exactly when something pending is too deep. -/
theorem visit_exact {fuel nodes : Nat} {pending : List (JsonTree α × Nat)}
    (enough : JsonTree.itemsSize (pending.map Prod.fst) ≤ fuel)
    (low : ∀ entry ∈ pending, entry.2 ≤ maxJsonNestingDepth) :
    visit none fuel nodes pending = Run.ensure (Shallow pending) nestingFault := by
  induction fuel generalizing nodes pending with
  | zero =>
      cases pending with
      | nil => simp [visit, Run.ensure, Shallow]
      | cons entry pending =>
          have positive := entry.1.size_pos
          rw [List.map_cons, JsonTree.itemsSize] at enough
          omega
  | succ fuel ih =>
      cases pending with
      | nil => simp [visit, Run.ensure, Shallow]
      | cons entry pending =>
          obtain ⟨current, parentDepth⟩ := entry
          rw [List.forall_mem_cons] at low
          rw [List.map_cons, JsonTree.itemsSize] at enough
          -- A container and its children, for arrays and objects alike.
          have container : ∀ children : List (JsonTree α),
              current = .list children ∨ (∃ entries, current = .dict entries ∧
                children = entries.map Prod.snd) →
              current.depth = 1 + JsonTree.itemsDepth children →
              current.size = 1 + JsonTree.itemsSize children →
              visit none (fuel + 1) nodes ((current, parentDepth) :: pending) =
                Run.ensure (Shallow ((current, parentDepth) :: pending)) nestingFault := by
            intro children shape nesting weight
            obtain ⟨nodes', step⟩ := visit_container fuel nodes parentDepth pending shape
            rw [step]
            by_cases room : parentDepth + 1 ≤ maxJsonNestingDepth
            · rw [if_pos room, ih]
              · exact Run.ensure_congr _ (shallow_container nesting room)
              · rw [deeper_size]
                dsimp only at enough
                omega
              · rw [List.forall_mem_append, forall_deeper]
                exact ⟨fun _ _ => room, low.2⟩
            · rw [if_neg room, Run.ensure, if_neg]
              rw [Shallow, List.forall_mem_cons]
              dsimp only
              omega
          cases current with
          | leaf value =>
              have step : visit none (fuel + 1) nodes ((.leaf value, parentDepth) :: pending) =
                  visit none fuel (nodes + 1) pending := by
                simp only [visit, Run.ensure, Option.not_mem_none, false_implies, implies_true,
                  if_true]
                rfl
              rw [step, ih (by simp only [JsonTree.size] at enough; omega) low.2]
              apply Run.ensure_congr
              rw [Shallow, Shallow, List.forall_mem_cons]
              exact ⟨fun rest => ⟨low.1, rest⟩, And.right⟩
          | list items => exact container items (.inl rfl) rfl rfl
          | dict entries =>
              exact container (entries.map Prod.snd) (.inr ⟨entries, rfl, rfl⟩)
                (by rw [JsonTree.depth, JsonTree.entriesDepth_eq]) (by rw [JsonTree.size, JsonTree.entriesSize_eq])

theorem validateJsonNestingDepth_exact (value : JsonTree α) :
    validateJsonNestingDepth none value =
      Run.ensure (value.depth ≤ maxJsonNestingDepth) nestingFault := by
  rw [validateJsonNestingDepth, visit_exact (by simp [JsonTree.itemsSize]) (by simp)]
  apply Run.ensure_congr
  simp [Shallow]

end
end AgentLibOS.Serde
