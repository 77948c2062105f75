import AgentLibOS.Library.Base64
import AgentLibOS.Library.JsonOrder
import AgentLibOS.Serde.BoundedJson

namespace AgentLibOS.Storage
open Library Library.Json

/-! ## Keys of Human requests -/

/-- `(created_at, request_id)`. -/
structure HumanKey where
  createdAt : Text
  requestId : Text
  deriving DecidableEq

/-- A cursor as a caller hands it in: on the wire, or already decoded. -/
inductive HumanCursor
  | start
  | wire (text : Text)
  | key (key : HumanKey)

def cursorFault : String := "TaskRun Human request cursor is invalid"

/-- `bytes.decode("utf-8")`. -/
def decodeUtf8 : List Nat → Option Text
  | [] => some []
  | a :: rest =>
      if a < 0x80 then (decodeUtf8 rest).map (a :: ·)
      else
        let continues (byte : Nat) : Bool := 0x80 ≤ byte && byte < 0xC0
        match rest with
        | b :: rest =>
            if 0xC2 ≤ a ∧ a < 0xE0 ∧ continues b = true then
              (decodeUtf8 rest).map (((a - 0xC0) * 64 + (b - 0x80)) :: ·)
            else
              match rest with
              | c :: rest =>
                  let three := ((a - 0xE0) * 64 + (b - 0x80)) * 64 + (c - 0x80)
                  if 0xE0 ≤ a ∧ a < 0xF0 ∧ continues b = true ∧ continues c = true ∧
                      0x800 ≤ three ∧ Serde.isSurrogate three = false then
                    (decodeUtf8 rest).map (three :: ·)
                  else
                    match rest with
                    | d :: rest =>
                        let four := (((a - 0xF0) * 64 + (b - 0x80)) * 64 + (c - 0x80)) * 64 + (d - 0x80)
                        if 0xF0 ≤ a ∧ continues b = true ∧ continues c = true ∧ continues d = true ∧
                            0x10000 ≤ four ∧ four < 0x110000 then
                          (decodeUtf8 rest).map (four :: ·)
                        else none
                    | [] => none
              | [] => none
        | [] => none

/-- The payload of a cursor; it has no floats. -/
def cursorPayload (key : HumanKey) : JsonTree (Scalar Empty) :=
  .dict [(codes "created_at", .leaf (.str key.createdAt)),
    (codes "request_id", .leaf (.str key.requestId))]

/-- The JSON text of a cursor, whose bytes are its code points. -/
def cursorJson (key : HumanKey) : Text := dumps Empty.elim ⟨true, 0, 0, none⟩ (cursorPayload key)

/-- `_encode_task_run_human_cursor`. -/
def encodeTaskRunHumanCursor (key : HumanKey) : Text :=
  codes "h1." ++ Base64.unpadded (Base64.encode (cursorJson key))

def textField {φ : Type} (entries : List (Text × JsonTree (Scalar φ))) (name : Text) : Option Text :=
  match entries.lookup name with
  | some (.leaf (.str value)) => some value
  | _ => none

/-- The checks of a decoded payload. -/
def cursorKey {φ : Type} : JsonTree (Scalar φ) → Except String HumanKey
  | .dict payload =>
      let names := payload.map Prod.fst
      if (∀ name ∈ names, name ∈ [codes "created_at", codes "request_id"]) ∧
          ∀ name ∈ [codes "created_at", codes "request_id"], name ∈ names then
        match textField payload (codes "created_at"), textField payload (codes "request_id") with
        | some createdAt, some requestId =>
            if createdAt.length ≤ 128 ∧ requestId ≠ [] ∧ requestId.length ≤ 256 then
              .ok ⟨createdAt, requestId⟩
            else .error cursorFault
        | _, _ => .error cursorFault
      else .error cursorFault
  | _ => .error cursorFault

/-- The key of a cursor on the wire. -/
def decodeWire (floats : Serde.Floats) (cursor : Text) : Except String HumanKey :=
  if (codes "h1.").isPrefixOf cursor = true ∧ cursor.length ≤ 1024 then
    match Base64.decode (Base64.padded (cursor.drop 3)) with
    | some decoded =>
        if decoded.length ≤ 512 then
          match (decodeUtf8 decoded).map (Serde.jsonLoads floats) with
          | some (.ok payload) => cursorKey payload
          | _ => .error cursorFault
        else .error cursorFault
    | none => .error cursorFault
  else .error cursorFault

/-- `_decode_task_run_human_cursor`. -/
def decodeTaskRunHumanCursor (floats : Serde.Floats) :
    HumanCursor → Except String (Option HumanKey)
  | .start => .ok none
  | .wire cursor => if cursor = [] then .ok none else (decodeWire floats cursor).map some
  | .key key => if key.requestId = [] then .error cursorFault else .ok (some key)

/-! ## A cursor is read back -/

/-- A key that the decoder accepts: within its bounds on characters and bytes. -/
structure HumanKey.InBounds (key : HumanKey) : Prop where
  createdAt : key.createdAt.length ≤ 128
  requestId : key.requestId ≠ []
  requestIdLength : key.requestId.length ≤ 256
  payload : (cursorJson key).length ≤ 512
  cursor : (encodeTaskRunHumanCursor key).length ≤ 1024

/-- A key without a high surrogate directly before a low one. -/
structure HumanKey.Portable (key : HumanKey) : Prop where
  createdAt : Json.Portable key.createdAt
  requestId : Json.Portable key.requestId

instance (key : HumanKey) : Decidable key.InBounds :=
  decidable_of_iff (key.createdAt.length ≤ 128 ∧ key.requestId ≠ [] ∧ key.requestId.length ≤ 256 ∧
      (cursorJson key).length ≤ 512 ∧ (encodeTaskRunHumanCursor key).length ≤ 1024)
    ⟨fun ⟨a, b, c, d, e⟩ => ⟨a, b, c, d, e⟩, fun ⟨a, b, c, d, e⟩ => ⟨a, b, c, d, e⟩⟩

instance (key : HumanKey) : Decidable key.Portable :=
  decidable_of_iff (Json.Portable key.createdAt ∧ Json.Portable key.requestId)
    ⟨fun ⟨a, b⟩ => ⟨a, b⟩, fun ⟨a, b⟩ => ⟨a, b⟩⟩

theorem decodeUtf8_ascii {bytes : List Nat} (ascii : ∀ byte ∈ bytes, byte < 0x80) :
    decodeUtf8 bytes = some bytes := by
  induction bytes with
  | nil => rfl
  | cons byte bytes ih =>
      rw [List.forall_mem_cons] at ascii
      rw [decodeUtf8, if_pos ascii.1, ih ascii.2]
      rfl

theorem hexDigit_ascii {value : Nat} (small : value < 16) : hexDigit value < 0x80 := by
  unfold hexDigit
  split_ifs <;> omega

theorem escapeUnit_ascii {unit : Nat} (small : unit < 0x10000) : ∀ c ∈ escapeUnit unit, c < 0x80 := by
  simp only [escapeUnit, List.forall_mem_cons]
  refine ⟨by decide, by decide, hexDigit_ascii ?_, hexDigit_ascii ?_, hexDigit_ascii ?_,
    hexDigit_ascii ?_, by simp⟩ <;> omega

theorem writePoint_ascii {c : Nat} (known : c < 0x110000) : ∀ d ∈ writePoint true c, d < 0x80 := by
  intro d inside
  rw [writePoint] at inside
  cases short : shortEscape c with
  | some e =>
      have small : e < 0x80 := by
        unfold shortEscape at short
        split_ifs at short <;> (cases short; decide)
      rw [short] at inside
      rcases List.mem_pair.mp inside with rfl | rfl
      · decide
      · exact small
  | none =>
      rw [short] at inside
      simp only [Bool.true_eq_false, or_false] at inside
      split_ifs at inside with printable small
      · rw [List.mem_singleton.mp inside]
        omega
      · exact escapeUnit_ascii small d inside
      · rcases List.mem_append.mp inside with high | low
        · exact escapeUnit_ascii (by rw [highSurrogate]; omega) d high
        · exact escapeUnit_ascii (by rw [lowSurrogate]; omega) d low

theorem writeString_ascii {text : Text} (known : ∀ c ∈ text, c < 0x110000) :
    ∀ c ∈ writeString true text, c < 0x80 := by
  intro c inside
  rw [writeString, List.mem_cons, List.mem_append, List.mem_singleton, List.mem_flatMap] at inside
  rcases inside with rfl | ⟨d, listed, inside⟩ | rfl
  · decide
  · exact writePoint_ascii (known d listed) c inside
  · decide

theorem cursorPayload_sorted (key : HumanKey) : (cursorPayload key).sorted = cursorPayload key := rfl

theorem cursorJson_eq (key : HumanKey) : cursorJson key =
    openBrace :: (writeString true (codes "created_at") ++ colon :: (writeString true key.createdAt ++
      comma :: (writeString true (codes "request_id") ++ colon :: (writeString true key.requestId ++
        [closeBrace])))) := by
  rw [cursorJson, dumps, cursorPayload_sorted]
  simp [cursorPayload, write, writeEntries, Style.enclose, Style.newline, Style.separator,
    writeScalar]

theorem cursorJson_ascii {key : HumanKey} (portable : key.Portable) :
    ∀ c ∈ cursorJson key, c < 0x80 := by
  have createdAt := writeString_ascii portable.createdAt.known
  have requestId := writeString_ascii portable.requestId.known
  have first : ∀ c ∈ writeString true (codes "created_at"), c < 0x80 :=
    writeString_ascii (by decide)
  have second : ∀ c ∈ writeString true (codes "request_id"), c < 0x80 :=
    writeString_ascii (by decide)
  rw [cursorJson_eq]
  simp only [List.forall_mem_cons, List.forall_mem_append]
  exact ⟨by decide, first, by decide, createdAt, by decide, second, by decide, requestId, by decide,
    by simp⟩

theorem jsonLoads_cursor (floats : Serde.Floats) {key : HumanKey} (portable : key.Portable) :
    Serde.jsonLoads floats (cursorJson key) =
      .ok (.dict [(codes "created_at", .leaf (.str key.createdAt)),
        (codes "request_id", .leaf (.str key.requestId))]) := by
  have writable : Writable Empty.elim (cursorPayload key) :=
    ⟨by decide, portable.createdAt, by decide, portable.requestId, trivial⟩
  have ascii : Style.ascii ⟨true, 0, 0, none⟩ = true := rfl
  have read : document (cursorJson key) = _ := document_dumps ascii writable
  rw [Serde.jsonLoads, read]
  rfl

theorem cursorKey_payload {φ : Type} {key : HumanKey} (bounds : key.InBounds) :
    cursorKey (.dict ([(codes "created_at", .leaf (.str key.createdAt)),
      (codes "request_id", .leaf (.str key.requestId))] : List (Text × JsonTree (Scalar φ)))) =
        .ok key := by
  have names : (∀ name ∈ [codes "created_at", codes "request_id"],
      name ∈ [codes "created_at", codes "request_id"]) ∧
        ∀ name ∈ [codes "created_at", codes "request_id"],
          name ∈ [codes "created_at", codes "request_id"] := ⟨fun _ => id, fun _ => id⟩
  have fits := And.intro bounds.createdAt (And.intro bounds.requestId bounds.requestIdLength)
  rw [cursorKey]
  simp only [List.map_cons, List.map_nil]
  rw [if_pos names]
  change (if key.createdAt.length ≤ 128 ∧ key.requestId ≠ [] ∧ key.requestId.length ≤ 256 then
    Except.ok key else .error cursorFault) = .ok key
  exact if_pos fits

theorem decode_encode_cursor (floats : Serde.Floats) {key : HumanKey} (bounds : key.InBounds)
    (portable : key.Portable) :
    decodeTaskRunHumanCursor floats (.wire (encodeTaskRunHumanCursor key)) = .ok (some key) := by
  have ascii := cursorJson_ascii portable
  have bytes := Base64.decode_encode fun c inside => (ascii c inside).trans (by decide)
  have start : (codes "h1.").isPrefixOf (encodeTaskRunHumanCursor key) = true :=
    List.isPrefixOf_iff_prefix.mpr (List.prefix_append _ _)
  have dropped : (encodeTaskRunHumanCursor key).drop 3 =
      Base64.unpadded (Base64.encode (cursorJson key)) := rfl
  have nonempty : encodeTaskRunHumanCursor key ≠ [] := by
    intro empty
    rw [empty] at start
    cases start
  have read : decodeWire floats (encodeTaskRunHumanCursor key) = .ok key := by
    rw [decodeWire, if_pos ⟨start, bounds.cursor⟩, dropped, Base64.padded_unpadded, bytes]
    simp only [if_pos bounds.payload, decodeUtf8_ascii ascii, Option.map_some,
      jsonLoads_cursor floats portable]
    exact cursorKey_payload bounds
  rw [decodeTaskRunHumanCursor, if_neg nonempty, read]
  rfl

end AgentLibOS.Storage
