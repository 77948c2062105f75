import AgentLibOS.Responses.Items
import AgentLibOS.Responses.WireStability

namespace AgentLibOS.Responses
open Capability Library Library.Run Library.Metered

variable {output : Bool} {provider : Option String}

/-! ## Routing metadata -/

theorem lookup_pop_of_ne (item : Dict) {key name : String} (apart : key ≠ name) :
    (item.pop name).lookup key = item.lookup key := by
  induction item with
  | nil => rfl
  | cons entry rest ih =>
      obtain ⟨own, value⟩ := entry
      rw [Dict.pop] at ih ⊢
      by_cases same : own = name
      · have other : (key == own) = false := beq_false_of_ne fun equal => apart (equal.trans same)
        rw [List.filter_cons_of_neg (by simpa using same), ih, List.lookup_cons, other]
      · rw [List.filter_cons_of_pos (by simpa using same), List.lookup_cons, List.lookup_cons, ih]

theorem pop_of_absent {item : Dict} {name : String}
    (absent : ∀ entry ∈ item, entry.1 ≠ name) : item.pop name = item :=
  List.filter_eq_self.mpr fun entry inside => decide_eq_true (absent entry inside)

/-- One turn of the loop over the routing keys. -/
def dropKey (item : Dict) (key : String) : Dict :=
  if isNone (item.get key) then item.pop key else item

theorem dropRouting_call (item : Dict) :
    dropRouting "function_call" item = dropKey (dropKey item "caller") "namespace" := rfl

theorem dropKey_filter (item : Dict) (key : String) :
    ∃ keeps, dropKey item key = item.filter keeps := by
  unfold dropKey
  split_ifs
  · exact ⟨_, rfl⟩
  · exact ⟨fun _ => true, (List.filter_eq_self.mpr fun _ _ => rfl).symm⟩

theorem dropKey_lookup (item : Dict) {key name : String} (apart : key ≠ name) :
    (dropKey item name).lookup key = item.lookup key := by
  unfold dropKey
  split_ifs
  · exact lookup_pop_of_ne item apart
  · rfl

theorem dropKey_of_absent {item : Dict} {name : String}
    (absent : ∀ entry ∈ item, entry.1 ≠ name) : dropKey item name = item := by
  unfold dropKey
  split_ifs
  · exact pop_of_absent absent
  · rfl

/-- Entries are dropped, and only of the two routing keys. -/
theorem dropRouting_filter (kind : String) (item : Dict) :
    ∃ keeps, dropRouting kind item = item.filter keeps := by
  by_cases call : kind = "function_call"
  · subst call
    obtain ⟨first, caller⟩ := dropKey_filter item "caller"
    obtain ⟨second, both⟩ := dropKey_filter (dropKey item "caller") "namespace"
    refine ⟨fun entry => second entry && first entry, ?_⟩
    rw [dropRouting_call, both, caller, List.filter_filter]
  · rw [dropRouting, if_neg call]
    exact ⟨fun _ => true, (List.filter_eq_self.mpr fun _ _ => rfl).symm⟩

theorem dropRouting_lookup (kind : String) (item : Dict) {key : String} (caller : key ≠ "caller")
    (namespace_ : key ≠ "namespace") : (dropRouting kind item).lookup key = item.lookup key := by
  by_cases call : kind = "function_call"
  · subst call
    rw [dropRouting_call, dropKey_lookup _ namespace_, dropKey_lookup _ caller]
  · rw [dropRouting, if_neg call]

theorem dropRouting_allowed (kind : String) {item : Dict} {allowed : List String}
    (caller : "caller" ∉ allowed) (namespace_ : "namespace" ∉ allowed)
    (within : keysWithin allowed item = true) : dropRouting kind item = item := by
  by_cases call : kind = "function_call"
  · subst call
    have absent {name : String} (outside : name ∉ allowed) : ∀ entry ∈ item, entry.1 ≠ name := by
      rintro entry inside rfl
      exact outside (List.contains_iff_mem.mp (List.all_eq_true.mp within entry inside))
    rw [dropRouting_call, dropKey_of_absent (absent caller), dropKey_of_absent (absent namespace_)]
  · rw [dropRouting, if_neg call]

theorem itemKind_congr {item item' : Dict} (type : item'.lookup "type" = item.lookup "type")
    (role : item'.lookup "role" = item.lookup "role") : itemKind item' = itemKind item := by
  unfold itemKind Dict.has Dict.get
  rw [type, role]

theorem allowed_no_routing {kind : String} {allowed : List String}
    (found : allowedFields provider kind = some allowed) :
    "caller" ∉ allowed ∧ "namespace" ∉ allowed := by
  unfold allowedFields providerItemFields itemFields at found
  split_ifs at found <;> cases found <;> decide

/-! ## The shape of an item -/

/-- The shape check passes on its own result. -/
theorem validateItemShape_again {item : Value} {kind : String} {item' : Dict}
    (done : validateItemShape output provider item = .ok (kind, item')) :
    validateItemShape output provider (.dict item') = .ok (kind, item') ∧
      itemKind item' = .str kind ∧
      ∃ entries keeps, item = .dict entries ∧ item' = entries.filter keeps := by
  cases item with
  | dict entries =>
      simp only [validateItemShape] at done ⊢
      cases named : itemKind entries with
      | str kind' =>
          rw [named] at done
          dsimp only at done
          cases fields : allowedFields provider kind' with
          | none =>
              rw [fields] at done
              cases done
          | some allowed =>
              rw [fields] at done
              dsimp only at done
              obtain ⟨_, mode, later⟩ := bind_eq_ok.mp done
              obtain ⟨_, keys, later⟩ := bind_eq_ok.mp later
              obtain ⟨_, status, later⟩ := bind_eq_ok.mp later
              obtain ⟨_, identifier, last⟩ := bind_eq_ok.mp later
              obtain ⟨rfl, rfl⟩ := Prod.mk.inj (Except.ok.inj last)
              have routing := allowed_no_routing fields
              have same := dropRouting_allowed kind' routing.1 routing.2
                (ensure_ok.mp keys)
              have kindAgain : itemKind (dropRouting kind' entries) = .str kind' := by
                rw [itemKind_congr (dropRouting_lookup kind' entries (by decide) (by decide))
                  (dropRouting_lookup kind' entries (by decide) (by decide)), named]
              obtain ⟨keeps, filtered⟩ := dropRouting_filter kind' entries
              refine ⟨?_, kindAgain, entries, keeps, rfl, filtered⟩
              rw [kindAgain]
              dsimp only
              rw [fields]
              dsimp only
              rw [same]
              exact done
      | _ =>
          rw [named] at done
          cases done
  | _ => cases done

/-- What is accepted as output has the shape of input. -/
theorem validateItemShape_input {item : Value} {result : String × Dict}
    (done : validateItemShape true provider item = .ok result) :
    validateItemShape false provider item = .ok result ∧ result.1 ≠ "function_call_output" := by
  cases item with
  | dict entries =>
      simp only [validateItemShape] at done ⊢
      cases named : itemKind entries with
      | str kind =>
          rw [named] at done
          dsimp only at done ⊢
          cases fields : allowedFields provider kind with
          | none =>
              rw [fields] at done
              cases done
          | some allowed =>
              rw [fields] at done
              dsimp only at done ⊢
              obtain ⟨_, mode, later⟩ := bind_eq_ok.mp done
              have other : kind ≠ "function_call_output" := by
                simpa using ensure_ok.mp mode
              refine ⟨bind_eq_ok.mpr ⟨(), ensure_ok.mpr (by simp), later⟩, ?_⟩
              obtain ⟨_, _, later⟩ := bind_eq_ok.mp later
              obtain ⟨_, _, later⟩ := bind_eq_ok.mp later
              obtain ⟨_, _, last⟩ := bind_eq_ok.mp later
              rw [← Except.ok.inj last]
              exact other
      | _ =>
          rw [named] at done
          cases done
  | _ => cases done

/-! ## The checks of a kind -/

/-- What an item of a kind does to the pairing. -/
def kindStep (kind : String) (item : Dict) : ToolStep String :=
  match item.get "call_id" with
  | .str callId =>
      if kind = "function_call" then .call callId
      else if kind = "function_call_output" then .result callId else .skip
  | _ => .skip

def toolStep : Value → ToolStep String
  | .dict item =>
      match itemKind item with
      | .str kind => kindStep kind item
      | _ => .skip
  | _ => .skip

/-- The kinds that have a shape. -/
theorem kind_of_allowed {kind : String} {allowed : List String}
    (found : allowedFields provider kind = some allowed) :
    kind = "reasoning" ∨ kind = "message" ∨ (providerItemFields kind).isSome = true ∨
      kind = "function_call" ∨ kind = "function_call_output" := by
  unfold allowedFields at found
  split_ifs at found
  · exact .inr (.inr (.inl (Option.isSome_iff_exists.mpr ⟨_, found⟩)))
  · unfold itemFields at found
    split_ifs at found <;> simp [*]

/-- A check that does not look at the pairing leaves it. -/
theorem untouched {check : Except ResponseItemsError Unit} {step : ToolStep String}
    (skips : step = .skip) {pairing next : Pairing String}
    (done : (check.map fun _ => pairing) = .ok next) :
    pairing.advance step = some next ∧ ∀ other last : Pairing String,
      other.advance step = some last → (check.map fun _ => other) = .ok last := by
  subst skips
  obtain ⟨_, passed, rfl⟩ := map_eq_ok.mp done
  refine ⟨rfl, fun other last moved => ?_⟩
  rw [passed, ← Option.some.inj moved]
  rfl

theorem kindStep_skip {kind : String} (call : kind ≠ "function_call")
    (result : kind ≠ "function_call_output") (item : Dict) : kindStep kind item = .skip := by
  unfold kindStep
  cases item.get "call_id" with
  | str callId => simp only [if_neg call, if_neg result]
  | _ => rfl

theorem validateToolItem_step {kind : String} {item : Dict} {pairing next : Pairing String}
    (tool : kind = "function_call" ∨ kind = "function_call_output")
    (done : validateToolItem kind item pairing = .ok next) :
    pairing.advance (kindStep kind item) = some next ∧ ∀ other last : Pairing String,
      other.advance (kindStep kind item) = some last →
        validateToolItem kind item other = .ok last := by
  unfold validateToolItem kindStep at *
  cases identified : item.get "call_id" with
  | str callId =>
      rw [identified] at done
      dsimp only at done ⊢
      obtain ⟨_, filled, later⟩ := bind_eq_ok.mp done
      rcases tool with rfl | rfl
      · rw [if_pos rfl] at later ⊢
        obtain ⟨_, fields, later⟩ := bind_eq_ok.mp later
        constructor
        · cases moved : pairing.advance (.call callId) with
          | none =>
              rw [moved] at later
              cases later
          | some middle =>
              rw [moved] at later
              exact congrArg some (Except.ok.inj later)
        · intro other last moved
          refine bind_eq_ok.mpr ⟨(), filled, ?_⟩
          rw [if_pos rfl]
          refine bind_eq_ok.mpr ⟨(), fields, ?_⟩
          rw [moved]
      · rw [if_neg (by decide)] at later ⊢
        rw [if_pos rfl]
        cases moved : pairing.advance (.result callId) with
        | none =>
            rw [moved] at later
            cases later
        | some middle =>
            rw [moved] at later
            obtain ⟨_, text, same⟩ := bind_eq_ok.mp later
            refine ⟨congrArg some (Except.ok.inj same), fun other last moved' => ?_⟩
            refine bind_eq_ok.mpr ⟨(), filled, ?_⟩
            rw [if_neg (by decide), moved']
            exact bind_eq_ok.mpr ⟨(), text, rfl⟩
  | _ =>
      rw [identified] at done
      cases done

theorem validateKind_step {kind : String} {item : Dict} {pairing next : Pairing String}
    (known : kind = "reasoning" ∨ kind = "message" ∨ (providerItemFields kind).isSome = true ∨
      kind = "function_call" ∨ kind = "function_call_output")
    (done : validateKind output provider kind item pairing = .ok next) :
    pairing.advance (kindStep kind item) = some next ∧ ∀ other last : Pairing String,
      other.advance (kindStep kind item) = some last →
        validateKind output provider kind item other = .ok last := by
  unfold validateKind at *
  by_cases reasoning : kind = "reasoning"
  · simp only [if_pos reasoning] at done ⊢
    exact untouched (kindStep_skip (by rw [reasoning]; decide) (by rw [reasoning]; decide) item)
      done
  · by_cases message : kind = "message"
    · simp only [if_neg reasoning, if_pos message] at done ⊢
      exact untouched (kindStep_skip (by rw [message]; decide) (by rw [message]; decide) item) done
    · by_cases hosted : (providerItemFields kind).isSome = true
      · simp only [if_neg reasoning, if_neg message, if_pos hosted] at done ⊢
        refine untouched (kindStep_skip ?_ ?_ item) done
        · rintro rfl
          exact absurd hosted (by decide)
        · rintro rfl
          exact absurd hosted (by decide)
      · simp only [if_neg reasoning, if_neg message, if_neg hosted] at done ⊢
        have tool : kind = "function_call" ∨ kind = "function_call_output" := by tauto
        exact validateToolItem_step tool done

/-! ## Output as input -/

theorem validateMessageBlock_input {block : Value}
    (done : validateMessageBlock true block = .ok ()) : validateMessageBlock false block = .ok () := by
  cases block with
  | dict entries =>
      simp only [validateMessageBlock] at done ⊢
      cases typed : Dict.get entries "type" with
      | str kind =>
          rw [typed] at done
          dsimp only at done ⊢
          cases fields : messageBlockFields kind with
          | none =>
              rw [fields] at done
              cases done
          | some allowed =>
              rw [fields] at done
              dsimp only at done ⊢
              obtain ⟨_, _, later⟩ := bind_eq_ok.mp done
              exact bind_eq_ok.mpr ⟨(), ensure_ok.mpr (by simp), later⟩
      | _ =>
          rw [typed] at done
          cases done
  | _ => cases done

theorem textIn_mono {few many : List String} (more : ∀ text ∈ few, text ∈ many) {value : Value}
    (inside : textIn few value = true) : textIn many value = true := by
  cases value with
  | str text => exact List.contains_iff_mem.mpr (more text (List.contains_iff_mem.mp inside))
  | _ => cases inside

theorem validateMessage_input {item : Dict} (done : validateMessage true item = .ok ()) :
    validateMessage false item = .ok () := by
  obtain ⟨_, head, later⟩ := bind_eq_ok.mp done
  obtain ⟨_, phase, blocks⟩ := bind_eq_ok.mp later
  have role := ensure_ok.mp head
  refine bind_eq_ok.mpr ⟨(), ensure_ok.mpr ⟨textIn_mono ?_ role.1, role.2⟩,
    bind_eq_ok.mpr ⟨(), phase, ?_⟩⟩
  · intro text inside
    rw [List.mem_singleton.mp inside]
    decide
  · cases content : item.get "content" with
    | list listed =>
        rw [content] at blocks
        exact forM_eq_ok.mpr fun block inside =>
          validateMessageBlock_input (forM_eq_ok.mp blocks block inside)
    | _ => rfl

theorem validateKind_input {kind : String} {item : Dict} {pairing next : Pairing String}
    (done : validateKind true provider kind item pairing = .ok next) :
    validateKind false provider kind item pairing = .ok next := by
  unfold validateKind at *
  by_cases reasoning : kind = "reasoning"
  · simp only [if_pos reasoning] at done ⊢
    exact done
  · by_cases message : kind = "message"
    · simp only [if_neg reasoning, if_pos message] at done ⊢
      obtain ⟨_, checked, rfl⟩ := map_eq_ok.mp done
      exact map_eq_ok.mpr ⟨(), validateMessage_input checked, rfl⟩
    · simp only [if_neg reasoning, if_neg message] at done ⊢
      exact done

/-! ## Items -/

/-- The validated item is the item without some entries. -/
def Filtered (item item' : Value) : Prop :=
  ∃ (entries : Dict) (keeps : String × Value → Bool),
    item = .dict entries ∧ item' = .dict (entries.filter keeps)

theorem validateItemShape_known {item : Value} {kind : String} {item' : Dict}
    (done : validateItemShape output provider item = .ok (kind, item')) :
    ∃ allowed, allowedFields provider kind = some allowed := by
  cases item with
  | dict entries =>
      simp only [validateItemShape] at done
      cases named : itemKind entries with
      | str kind' =>
          rw [named] at done
          dsimp only at done
          cases fields : allowedFields provider kind' with
          | none =>
              rw [fields] at done
              cases done
          | some allowed =>
              rw [fields] at done
              dsimp only at done
              obtain ⟨_, _, later⟩ := bind_eq_ok.mp done
              obtain ⟨_, _, later⟩ := bind_eq_ok.mp later
              obtain ⟨_, _, later⟩ := bind_eq_ok.mp later
              obtain ⟨_, _, last⟩ := bind_eq_ok.mp later
              obtain ⟨rfl, _⟩ := Prod.mk.inj (Except.ok.inj last)
              exact ⟨allowed, fields⟩
      | _ =>
          rw [named] at done
          cases done
  | _ => cases done

theorem validateItem_ok {item item' : Value} {pairing next : Pairing String} :
    validateItem output provider pairing item = .ok (item', next) ↔
      ∃ kind entries, validateItemShape output provider item = .ok (kind, entries) ∧
        item' = .dict entries ∧ validateKind output provider kind entries pairing = .ok next := by
  constructor
  · intro done
    obtain ⟨⟨kind, entries⟩, shape, later⟩ := bind_eq_ok.mp done
    obtain ⟨moved, checked, last⟩ := bind_eq_ok.mp later
    obtain ⟨rfl, rfl⟩ := Prod.mk.inj (Except.ok.inj last)
    exact ⟨kind, entries, shape, rfl, checked⟩
  · rintro ⟨kind, entries, shape, rfl, checked⟩
    exact bind_eq_ok.mpr ⟨_, shape, bind_eq_ok.mpr ⟨_, checked, rfl⟩⟩

/-- An item that is accepted is accepted wherever its step can be taken, and is accepted again. -/
structure Accepted (output : Bool) (provider : Option String) (pairing next : Pairing String)
    (item item' : Value) : Prop where
  taken : pairing.advance (toolStep item') = some next
  elsewhere : ∀ other last : Pairing String, other.advance (toolStep item') = some last →
    validateItem output provider other item = .ok (item', last)
  again : validateItem output provider pairing item' = .ok (item', next)
  filtered : Filtered item item'

theorem validateItem_accepted {item item' : Value} {pairing next : Pairing String}
    (done : validateItem output provider pairing item = .ok (item', next)) :
    Accepted output provider pairing next item item' := by
  obtain ⟨kind, entries, shape, rfl, checked⟩ := validateItem_ok.mp done
  obtain ⟨again, named, original, keeps, rfl, rfl⟩ := validateItemShape_again shape
  obtain ⟨allowed, fields⟩ := validateItemShape_known shape
  have step : toolStep (.dict (original.filter keeps)) = kindStep kind (original.filter keeps) := by
    simp only [toolStep, named]
  obtain ⟨taken, elsewhere⟩ := validateKind_step (kind_of_allowed fields) checked
  refine ⟨step ▸ taken, fun other last moved => ?_, ?_, original, keeps, rfl, rfl⟩
  · rw [step] at moved
    exact validateItem_ok.mpr ⟨kind, _, shape, rfl, elsewhere other last moved⟩
  · exact validateItem_ok.mpr ⟨kind, _, again, rfl, checked⟩

theorem validateItem_input {item item' : Value} {pairing next : Pairing String}
    (done : validateItem true provider pairing item = .ok (item', next)) :
    validateItem false provider pairing item = .ok (item', next) ∧
      ∀ id, toolStep item' ≠ .result id := by
  obtain ⟨kind, entries, shape, rfl, checked⟩ := validateItem_ok.mp done
  obtain ⟨shape', other⟩ := validateItemShape_input shape
  refine ⟨validateItem_ok.mpr ⟨kind, entries, shape', rfl, validateKind_input checked⟩, ?_⟩
  intro id
  have named := (validateItemShape_again shape).2.1
  simp only [toolStep, named, kindStep]
  cases entries.get "call_id" with
  | str callId =>
      dsimp only
      split_ifs <;> simp
  | _ => simp

theorem validateItems_cons {item : Value} {rest results : List Value}
    {pairing last : Pairing String} :
    validateItems output provider (item :: rest) pairing = .ok (results, last) ↔
      ∃ item' next rest', validateItem output provider pairing item = .ok (item', next) ∧
        validateItems output provider rest next = .ok (rest', last) ∧ results = item' :: rest' := by
  constructor
  · intro done
    obtain ⟨⟨item', next⟩, here, later⟩ := bind_eq_ok.mp done
    obtain ⟨⟨rest', final⟩, there, same⟩ := bind_eq_ok.mp later
    obtain ⟨rfl, rfl⟩ := Prod.mk.inj (Except.ok.inj same)
    exact ⟨item', next, rest', here, there, rfl⟩
  · rintro ⟨item', next, rest', here, there, rfl⟩
    exact bind_eq_ok.mpr ⟨_, here, bind_eq_ok.mpr ⟨_, there, rfl⟩⟩

theorem validateItems_append {front back front' back' : List Value}
    {pairing middle last : Pairing String}
    (first : validateItems output provider front pairing = .ok (front', middle))
    (second : validateItems output provider back middle = .ok (back', last)) :
    validateItems output provider (front ++ back) pairing = .ok (front' ++ back', last) := by
  induction front generalizing pairing front' with
  | nil =>
      obtain ⟨rfl, rfl⟩ := Prod.mk.inj (Except.ok.inj first)
      exact second
  | cons item front ih =>
      obtain ⟨item', next, rest', here, there, rfl⟩ := validateItems_cons.mp first
      exact validateItems_cons.mpr ⟨item', next, rest' ++ back', here, ih there, rfl⟩

/-- A list of items that is accepted takes its steps, and is accepted wherever they can be taken
and again. -/
structure AllAccepted (output : Bool) (provider : Option String) (pairing last : Pairing String)
    (items items' : List Value) : Prop where
  taken : pairing.run (items'.map toolStep) = some last
  elsewhere : ∀ other final : Pairing String, other.run (items'.map toolStep) = some final →
    validateItems output provider items other = .ok (items', final)
  again : validateItems output provider items' pairing = .ok (items', last)
  filtered : List.Forall₂ Filtered items items'

theorem validateItems_accepted {items items' : List Value} {pairing last : Pairing String}
    (done : validateItems output provider items pairing = .ok (items', last)) :
    AllAccepted output provider pairing last items items' := by
  induction items generalizing pairing items' with
  | nil =>
      obtain ⟨rfl, rfl⟩ := Prod.mk.inj (Except.ok.inj done)
      refine ⟨rfl, fun other final taken => ?_, rfl, .nil⟩
      rw [← Option.some.inj taken]
      rfl
  | cons item items ih =>
      obtain ⟨item', next, rest', here, there, rfl⟩ := validateItems_cons.mp done
      have accepted := validateItem_accepted here
      have rest := ih there
      refine ⟨Pairing.run_cons.mpr ⟨next, accepted.taken, rest.taken⟩, ?_, ?_,
        .cons accepted.filtered rest.filtered⟩
      · intro other final taken
        obtain ⟨middle, first, later⟩ := Pairing.run_cons.mp taken
        exact validateItems_cons.mpr ⟨item', middle, rest', accepted.elsewhere other middle first,
          rest.elsewhere middle final later, rfl⟩
      · exact validateItems_cons.mpr ⟨item', next, rest', accepted.again, rest.again, rfl⟩

theorem validateItems_input {items items' : List Value} {pairing last : Pairing String}
    (done : validateItems true provider items pairing = .ok (items', last)) :
    validateItems false provider items pairing = .ok (items', last) ∧
      ∀ id, .result id ∉ items'.map toolStep := by
  induction items generalizing pairing items' with
  | nil =>
      obtain ⟨rfl, rfl⟩ := Prod.mk.inj (Except.ok.inj done)
      exact ⟨rfl, fun _ => List.not_mem_nil⟩
  | cons item items ih =>
      obtain ⟨item', next, rest', here, there, rfl⟩ := validateItems_cons.mp done
      obtain ⟨input, plainStep⟩ := validateItem_input here
      obtain ⟨inputs, plainSteps⟩ := ih there
      refine ⟨validateItems_cons.mpr ⟨item', next, rest', input, inputs, rfl⟩, fun id member => ?_⟩
      rcases List.mem_cons.mp member with same | later
      · exact plainStep id same.symm
      · exact plainSteps id later

/-! ## Results -/

/-- A well-formed text result for the call. -/
structure TextResult (item : Value) (callId : String) : Prop where
  shape : ∃ entries : Dict, item = .dict entries ∧
    keysWithin ["type", "id", "call_id", "output", "status"] entries = true ∧
    entries.get "type" = .str "function_call_output" ∧ entries.get "call_id" = .str callId ∧
    isStr (entries.get "output") = true ∧
    (isNone (entries.get "status") = true ∨ textIn ["completed"] (entries.get "status") = true) ∧
    (isNone (entries.get "id") = true ∨ isStr (entries.get "id") = true)

theorem allowedFields_result (provider : Option String) :
    allowedFields provider "function_call_output" =
      some ["type", "id", "call_id", "output", "status"] := by
  have outside : "function_call_output" ∉ (provider.bind providerItemTypes).getD [] := by
    cases provider with
    | none => decide
    | some name =>
        rw [Option.bind_some, providerItemTypes]
        split_ifs <;> decide
  rw [allowedFields, if_neg outside]
  rfl

theorem itemKind_typed {item : Dict} {kind : String} (type : item.get "type" = .str kind) :
    itemKind item = .str kind := by
  have present : item.has "type" = true := by
    rw [Dict.has, Option.isSome_iff_ne_none]
    intro absent
    rw [Dict.get, absent] at type
    cases type
  rw [itemKind, if_pos present, type]

theorem TextResult.toolStep_eq {item : Value} {callId : String} (result : TextResult item callId) :
    toolStep item = .result callId := by
  obtain ⟨entries, rfl, _, type, call, _⟩ := result.shape
  simp only [toolStep, itemKind_typed type, kindStep, call]
  rfl

/-- A result is accepted where its step can be taken. -/
theorem validateItem_result {item : Value} {callId : String} (result : TextResult item callId)
    (filled : callId ≠ "") {pairing next : Pairing String}
    (moved : pairing.advance (.result callId) = some next) :
    validateItem false provider pairing item = .ok (item, next) := by
  obtain ⟨entries, rfl, keys, type, call, text, status, identifier⟩ := result.shape
  refine validateItem_ok.mpr ⟨"function_call_output", entries, ?_, rfl, ?_⟩
  · simp only [validateItemShape, itemKind_typed type, allowedFields_result]
    exact bind_eq_ok.mpr ⟨(), ensure_ok.mpr (by simp), bind_eq_ok.mpr ⟨(), ensure_ok.mpr keys,
      bind_eq_ok.mpr ⟨(), ensure_ok.mpr status, bind_eq_ok.mpr ⟨(), ensure_ok.mpr identifier, rfl⟩⟩⟩⟩
  · show validateToolItem "function_call_output" entries pairing = .ok next
    rw [validateToolItem, call]
    refine bind_eq_ok.mpr ⟨(), ensure_ok.mpr filled, ?_⟩
    rw [if_neg (by decide), moved]
    exact bind_eq_ok.mpr ⟨(), ensure_ok.mpr text, rfl⟩

theorem validateItems_results {items : List Value} {ids : List String}
    (results : List.Forall₂ TextResult items ids) (filled : ∀ id ∈ ids, id ≠ "")
    {pairing last : Pairing String} (taken : pairing.run (ids.map .result) = some last) :
    validateItems false provider items pairing = .ok (items, last) := by
  induction results generalizing pairing with
  | nil =>
      rw [← Option.some.inj taken]
      rfl
  | @cons item id items ids here _ ih =>
      obtain ⟨next, first, rest⟩ := Pairing.run_cons.mp taken
      exact validateItems_cons.mpr ⟨item, next, items,
        validateItem_result here (filled id (.head _)) first,
        ih (fun other inside => filled other (.tail _ inside)) rest, rfl⟩

/-! ## Identifiers -/

theorem validateKind_filled {kind : String} {item : Dict} {pairing next : Pairing String}
    (done : validateKind output provider kind item pairing = .ok next) {id : String}
    (call : kindStep kind item = .call id) : id ≠ "" := by
  unfold kindStep at call
  cases identified : item.get "call_id" with
  | str callId =>
      rw [identified] at call
      dsimp only at call
      split_ifs at call with isCall
      obtain rfl := ToolStep.call.inj call
      subst isCall
      have tool : validateToolItem "function_call" item pairing = .ok next := done
      rw [validateToolItem, identified] at tool
      obtain ⟨_, filled, _⟩ := bind_eq_ok.mp tool
      exact ensure_ok.mp filled
  | _ =>
      rw [identified] at call
      cases call

/-- A call that is accepted has an identifier. -/
theorem validateItems_filled {items items' : List Value} {pairing last : Pairing String}
    (done : validateItems output provider items pairing = .ok (items', last)) :
    ∀ id, .call id ∈ items'.map toolStep → id ≠ "" := by
  induction items generalizing pairing items' with
  | nil =>
      obtain ⟨rfl, rfl⟩ := Prod.mk.inj (Except.ok.inj done)
      exact fun _ inside => absurd inside List.not_mem_nil
  | cons item items ih =>
      obtain ⟨item', next, rest', here, there, rfl⟩ := validateItems_cons.mp done
      intro id inside
      rcases List.mem_cons.mp inside with first | later
      · obtain ⟨kind, entries, shape, rfl, checked⟩ := validateItem_ok.mp here
        have named := (validateItemShape_again shape).2.1
        simp only [toolStep, named] at first
        exact validateKind_filled checked first.symm
      · exact ih there id later

end AgentLibOS.Responses
