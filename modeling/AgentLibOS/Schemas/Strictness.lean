import AgentLibOS.Schemas.Certificate

namespace AgentLibOS.Schemas
open Capability

/-- A strict result is certified, and any other is the schema without its titles, unless strict
mode converts a schema in which it overlooks one that accepts objects. -/
theorem strict_certificate_sound_iff {floatBytes : ℚ → Nat} {schema : JsonObject} {result : Value}
    {strict : Bool}
    (done : normalizeOpenaiStrictSchema floatBytes schema.entries = .ok (result, strict)) :
    ((strict = true → Certified result) ∧
        (strict = false → Untitled (.dict schema.entries) result)) ↔
      (Convertible (.dict schema.entries) → Coverable (.dict schema.entries)) := by
  obtain ⟨decided, written⟩ := normalizeOpenaiStrictSchema_ok done
  have whole := strip_distinct schema.distinct
  cases strict with
  | true =>
      have all := (every_convertible _).mp decided.symm
      have converts := (strip_convertible _).mp all
      rw [if_pos rfl] at written
      rw [written]
      have exact_when := (normalize_certified _ whole all).trans (strip_coverable _)
      exact ⟨fun ⟨sound, _⟩ _ => exact_when.mp (sound rfl),
        fun covers => ⟨fun _ => exact_when.mpr (covers converts), nofun⟩⟩
  | false =>
      rw [if_neg Bool.false_ne_true] at written
      constructor
      · intro _ converts
        rw [(every_convertible _).mpr ((strip_convertible _).mpr converts)] at decided
        cases decided
      · intro _
        exact ⟨nofun, fun _ => written ▸ strip_untitled _⟩

def searchParameters : JsonObject where
  entries := [("type", .str "object"), ("title", .str "Search"), ("properties", .dict [
    ("query", .dict [("type", .str "string"), ("title", .str "Query")]),
    ("options", .dict [("type", .str "object"), ("properties", .dict [
      ("limit", .dict [("type", .str "integer")])])])])]
  distinct := by decide

def strictSearchParameters : Value :=
  .dict [("type", .str "object"), ("properties", .dict [
    ("query", .dict [("type", .str "string")]),
    ("options", .dict [("type", .str "object"), ("properties", .dict [
        ("limit", .dict [("type", .str "integer")])]),
      ("additionalProperties", .bool false), ("required", .list [.str "limit"])])]),
    ("additionalProperties", .bool false), ("required", .list [.str "query", .str "options"])]

theorem searchParameters_strict :
    normalizeOpenaiStrictSchema (fun _ => 3) searchParameters.entries =
      .ok (strictSearchParameters, true) := by
  have bounded : validateSchemaBounds (fun _ => 3) searchParameters.entries = .ok () := by
    decide +kernel
  rw [normalizeOpenaiStrictSchema, bounded]
  rfl

theorem searchParameters_certificate :
    normalizeOpenaiStrictSchema (fun _ => 3) searchParameters.entries =
        .ok (strictSearchParameters, true) ∧
      (((true = true → Certified strictSearchParameters) ∧
          (true = false → Untitled (.dict searchParameters.entries) strictSearchParameters)) ↔
        (Convertible (.dict searchParameters.entries) →
          Coverable (.dict searchParameters.entries))) :=
  ⟨searchParameters_strict, strict_certificate_sound_iff searchParameters_strict⟩

/-- Objects among the types of a list stay open. -/
theorem strict_certificate_unsound :
    ¬ ∀ (floatBytes : ℚ → Nat) (schema : JsonObject) (result : Value) (strict : Bool),
      normalizeOpenaiStrictSchema floatBytes schema.entries = .ok (result, strict) →
      (strict = true → Certified result) ∧
        (strict = false → Untitled (.dict schema.entries) result) := by
  intro sound
  let nullable : JsonObject :=
    ⟨[("type", .list [.str "object", .str "null"])], by decide⟩
  have done : normalizeOpenaiStrictSchema (fun _ => 3) nullable.entries =
      .ok (.dict nullable.entries, true) := rfl
  have closed := (sound _ nullable _ _ done).1 rfl _ (.here _)
  have listed : typeListsObject nullable.entries :=
    ⟨_, rfl, _, List.mem_cons_self, rfl⟩
  cases (closed (.inr listed)).isObject

end AgentLibOS.Schemas
