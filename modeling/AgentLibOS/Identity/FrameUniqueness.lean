import AgentLibOS.Identity.HostResult
import Mathlib

namespace AgentLibOS.Identity
open Library.Framing Library.Run

/-! ## The frames of a result -/

mutual

/-- The frames that stand for a result. -/
inductive Streams {φ : Type} (types : HostTypes) (repr : φ → String) :
    HostValue φ → List Frame → Prop
  | none : Streams types repr .none [framed "none" []]
  | bool (value : Bool) :
      Streams types repr (.bool value) [framed "bool" (utf8 (if value then "1" else "0"))]
  | int (value : Int) : Streams types repr (.int value) [framed "int" (utf8 value.repr)]
  | float (value : φ) : Streams types repr (.float value) [framed "float" (utf8 (repr value))]
  | str (text : String) : Streams types repr (.str text) [framed "str" (utf8 text)]
  | bytes (mutable : Bool) (raw : List UInt8) :
      Streams types repr (.bytes mutable raw) [framed "bytes" raw]
  | enum (type value : String) :
      Streams types repr (.enum type (some value)) [framed "enum" (utf8 value)]
  | list {items : List (HostValue φ)} {frames : List Frame}
      (each : StreamsAll types repr items frames) :
      Streams types repr (.list items)
        (framed "list" [] :: framed "length" (utf8 items.length.repr) :: frames)
  | tuple {items : List (HostValue φ)} {frames : List Frame}
      (each : StreamsAll types repr items frames) :
      Streams types repr (.tuple items)
        (framed "tuple" [] :: framed "length" (utf8 items.length.repr) :: frames)
  | dict {entries : List (String × HostValue φ)} {frames : List Frame}
      (each : StreamsNamed types repr "key" (sortedByKey entries) frames) :
      Streams types repr (.dict entries)
        (framed "dict" [] :: framed "length" (utf8 entries.length.repr) :: frames)
  | dataclass {identity : String} {storage fields : List (String × HostValue φ)}
      {frames : List Frame} (known : hostDataclassFields types identity storage = .ok fields)
      (each : StreamsNamed types repr "field" fields frames) :
      Streams types repr (.dataclass identity storage)
        (framed "dataclass" (utf8 identity) :: frames)

inductive StreamsAll {φ : Type} (types : HostTypes) (repr : φ → String) :
    List (HostValue φ) → List Frame → Prop
  | nil : StreamsAll types repr [] []
  | cons {value : HostValue φ} {rest : List (HostValue φ)} {frames frames' : List Frame}
      (head : Streams types repr value frames) (tail : StreamsAll types repr rest frames') :
      StreamsAll types repr (value :: rest) (frames ++ frames')

inductive StreamsNamed {φ : Type} (types : HostTypes) (repr : φ → String) :
    String → List (String × HostValue φ) → List Frame → Prop
  | nil (label : String) : StreamsNamed types repr label [] []
  | cons {label name : String} {value : HostValue φ} {rest : List (String × HostValue φ)}
      {frames frames' : List Frame} (head : Streams types repr value frames)
      (tail : StreamsNamed types repr label rest frames') :
      StreamsNamed types repr label ((name, value) :: rest)
        (framed label (utf8 name) :: (frames ++ frames'))

end

/-! ## Results that are the same -/

mutual

/-- Equal but for the kind of a byte string, the order of a dict's keys, the class of an enum and
what a dataclass has beside the fields that count. -/
inductive Same {φ : Type} (types : HostTypes) : HostValue φ → HostValue φ → Prop
  | refl (value : HostValue φ) : Same types value value
  | bytes (mutable mutable' : Bool) (raw : List UInt8) :
      Same types (.bytes mutable raw) (.bytes mutable' raw)
  | enum (type type' : String) (value : Option String) :
      Same types (.enum type value) (.enum type' value)
  | list {items items' : List (HostValue φ)} (each : SameAll types items items') :
      Same types (.list items) (.list items')
  | tuple {items items' : List (HostValue φ)} (each : SameAll types items items') :
      Same types (.tuple items) (.tuple items')
  | dict {entries entries' ordered ordered' : List (String × HostValue φ)}
      (order : entries.Perm ordered) (order' : entries'.Perm ordered')
      (each : SameNamed types ordered ordered') : Same types (.dict entries) (.dict entries')
  | dataclass {identity : String} {storage storage' fields fields' : List (String × HostValue φ)}
      (known : hostDataclassFields types identity storage = .ok fields)
      (known' : hostDataclassFields types identity storage' = .ok fields')
      (each : SameNamed types fields fields') :
      Same types (.dataclass identity storage) (.dataclass identity storage')

inductive SameAll {φ : Type} (types : HostTypes) : List (HostValue φ) → List (HostValue φ) → Prop
  | nil : SameAll types [] []
  | cons {value value' : HostValue φ} {rest rest' : List (HostValue φ)}
      (head : Same types value value') (tail : SameAll types rest rest') :
      SameAll types (value :: rest) (value' :: rest')

inductive SameNamed {φ : Type} (types : HostTypes) :
    List (String × HostValue φ) → List (String × HostValue φ) → Prop
  | nil : SameNamed types [] []
  | cons {name : String} {value value' : HostValue φ} {rest rest' : List (String × HostValue φ)}
      (head : Same types value value') (tail : SameNamed types rest rest') :
      SameNamed types ((name, value) :: rest) ((name, value') :: rest')

end

/-! ## Texts -/

theorem utf8_injective : Function.Injective utf8 := by
  intro left right same
  have arrays : left.toByteArray.data = right.toByteArray.data := Array.toList_inj.mp same
  exact String.toByteArray_inj.mp (ByteArray.ext arrays)

theorem framed_inj {tag tag' : String} {payload payload' : List UInt8} :
    framed tag payload = framed tag' payload' ↔ tag = tag' ∧ payload = payload' := by
  rw [framed, framed, Frame.mk.injEq, utf8_injective.eq_iff]

theorem single_frame {tag : String} {payload payload' : List UInt8} {rest rest' : List Frame}
    (same : [framed tag payload] ++ rest = [framed tag payload'] ++ rest') :
    payload = payload' ∧ rest = rest' := by
  rw [List.cons_append, List.cons_append, List.cons.injEq, framed_inj] at same
  exact ⟨same.1.2, same.2⟩

/-- Frames that begin with the number of their parts. -/
theorem counted_frames {tag : String} {count count' : Nat} {frames frames' rest rest' : List Frame}
    (same : framed tag [] :: framed "length" (utf8 count.repr) :: frames ++ rest =
      framed tag [] :: framed "length" (utf8 count'.repr) :: frames' ++ rest') :
    count = count' ∧ frames ++ rest = frames' ++ rest' := by
  rw [List.cons_append, List.cons_append, List.cons_append, List.cons_append, List.cons.injEq,
    List.cons.injEq, framed_inj, framed_inj, utf8_injective.eq_iff] at same
  exact ⟨Nat.repr_injective same.2.1.2, same.2.2⟩

/-! ## One result for each stream -/

section
variable {φ : Type} {types : HostTypes} {repr : φ → String} (exact_repr : Function.Injective repr)

include exact_repr

mutual

theorem streams_unique : ∀ {value : HostValue φ} {frames : List Frame},
    Streams types repr value frames → ∀ {value' : HostValue φ} {frames' rest rest' : List Frame},
    Streams types repr value' frames' → frames ++ rest = frames' ++ rest' →
    Same types value value' ∧ rest = rest'
  | _, _, .none, _, _, _, _, other, same => by
      cases other with
      | none => exact ⟨.refl _, (List.cons.inj same).2⟩
      | _ => simp [framed_inj] at same
  | _, _, .bool value, _, _, _, _, other, same => by
      cases other with
      | bool value' =>
          obtain ⟨texts, same⟩ := single_frame same
          have values : value = value' := by
            cases value <;> cases value' <;> simp [utf8_injective.eq_iff] at texts ⊢
          exact ⟨values ▸ .refl _, same⟩
      | _ => simp [framed_inj] at same
  | _, _, .int value, _, _, _, _, other, same => by
      cases other with
      | int value' =>
          obtain ⟨texts, same⟩ := single_frame same
          exact ⟨Int.repr_injective (utf8_injective texts) ▸ .refl _, same⟩
      | _ => simp [framed_inj] at same
  | _, _, .float value, _, _, _, _, other, same => by
      cases other with
      | float value' =>
          obtain ⟨texts, same⟩ := single_frame same
          exact ⟨exact_repr (utf8_injective texts) ▸ .refl _, same⟩
      | _ => simp [framed_inj] at same
  | _, _, .str text, _, _, _, _, other, same => by
      cases other with
      | str text' =>
          obtain ⟨texts, same⟩ := single_frame same
          exact ⟨utf8_injective texts ▸ .refl _, same⟩
      | _ => simp [framed_inj] at same
  | _, _, .bytes _ raw, _, _, _, _, other, same => by
      cases other with
      | bytes mutable' raw' =>
          obtain ⟨rfl, rests⟩ := single_frame same
          exact ⟨.bytes _ _ _, rests⟩
      | _ => simp [framed_inj] at same
  | _, _, .enum _ value, _, _, _, _, other, same => by
      cases other with
      | enum type' value' =>
          obtain ⟨texts, same⟩ := single_frame same
          exact ⟨utf8_injective texts ▸ .enum _ _ _, same⟩
      | _ => simp [framed_inj] at same
  | _, _, .list each, _, _, _, _, other, same => by
      cases other with
      | list each' =>
          obtain ⟨lengths, same⟩ := counted_frames same
          obtain ⟨items, same⟩ := streamsAll_unique each each' lengths same
          exact ⟨.list items, same⟩
      | _ => simp [framed_inj] at same
  | _, _, .tuple each, _, _, _, _, other, same => by
      cases other with
      | tuple each' =>
          obtain ⟨lengths, same⟩ := counted_frames same
          obtain ⟨items, same⟩ := streamsAll_unique each each' lengths same
          exact ⟨.tuple items, same⟩
      | _ => simp [framed_inj] at same
  | _, _, .dict each, _, _, _, _, other, same => by
      cases other with
      | @dict entries' _ each' =>
          obtain ⟨lengths, same⟩ := counted_frames same
          rw [← (sortedByKey_perm _).length_eq, ← (sortedByKey_perm entries').length_eq] at lengths
          obtain ⟨entries, same⟩ := streamsNamed_unique each each' lengths same
          exact ⟨.dict (sortedByKey_perm _).symm (sortedByKey_perm _).symm entries, same⟩
      | _ => simp [framed_inj] at same
  | _, _, .dataclass known each, _, _, _, _, other, same => by
      cases other with
      | dataclass known' each' =>
          rw [List.cons_append, List.cons_append, List.cons.injEq, framed_inj,
            utf8_injective.eq_iff] at same
          obtain ⟨⟨_, rfl⟩, same⟩ := same
          have lengths := congrArg List.length (hostDataclassFields_names known known')
          rw [List.length_map, List.length_map] at lengths
          obtain ⟨fields, same⟩ := streamsNamed_unique each each' lengths same
          exact ⟨.dataclass known known' fields, same⟩
      | _ => simp [framed_inj] at same

theorem streamsAll_unique : ∀ {items : List (HostValue φ)} {frames : List Frame},
    StreamsAll types repr items frames →
    ∀ {items' : List (HostValue φ)} {frames' rest rest' : List Frame},
    StreamsAll types repr items' frames' → items.length = items'.length →
    frames ++ rest = frames' ++ rest' → SameAll types items items' ∧ rest = rest'
  | _, _, .nil, _, _, _, _, .nil, _, same => ⟨.nil, same⟩
  | _, _, .cons head tail, _, _, _, _, .cons head' tail', lengths, same => by
      rw [List.append_assoc, List.append_assoc] at same
      obtain ⟨first, same⟩ := streams_unique head head' same
      obtain ⟨others, same⟩ := streamsAll_unique tail tail' (Nat.succ.inj lengths) same
      exact ⟨.cons first others, same⟩

theorem streamsNamed_unique : ∀ {label : String} {entries : List (String × HostValue φ)}
    {frames : List Frame}, StreamsNamed types repr label entries frames →
    ∀ {entries' : List (String × HostValue φ)} {frames' rest rest' : List Frame},
    StreamsNamed types repr label entries' frames' → entries.length = entries'.length →
    frames ++ rest = frames' ++ rest' → SameNamed types entries entries' ∧ rest = rest'
  | _, _, _, .nil _, _, _, _, _, .nil _, _, same => ⟨.nil, same⟩
  | _, _, _, .cons head tail, _, _, _, _, .cons head' tail', lengths, same => by
      rw [List.cons_append, List.cons_append, List.append_assoc, List.append_assoc,
        List.cons.injEq, framed_inj, utf8_injective.eq_iff] at same
      obtain ⟨⟨_, rfl⟩, same⟩ := same
      obtain ⟨first, same⟩ := streams_unique head head' same
      obtain ⟨others, same⟩ := streamsNamed_unique tail tail' (Nat.succ.inj lengths) same
      exact ⟨.cons first others, same⟩

end

end

end AgentLibOS.Identity
