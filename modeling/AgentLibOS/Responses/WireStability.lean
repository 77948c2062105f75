import AgentLibOS.Responses.WireCopy

namespace AgentLibOS.Responses
open Capability Library.Metered

/-! ## The copy is regular -/

theorem within_down (x y : WireCount) (both : (x + y).Within) : x.Within :=
  ⟨(Nat.le_add_right _ _).trans both.1, (Nat.le_add_right _ _).trans both.2⟩

theorem raise_fails {β : Type} (fault : ResponseItemsError) :
    Fails WireCount.Within (raise fault : Counted β) := .error fault

theorem enter_meets : Meets WireCount.Within enter ⟨⟩ ⟨1, 0⟩ := by
  intro count start r
  rw [enter]
  split_ifs with full
  · refine iff_of_false (by simp) fun both => ?_
    exact absurd both.1.1 (Nat.not_le.mpr full)
  · have enough : (count + ⟨1, 0⟩ : WireCount).Within := ⟨Nat.not_lt.mp full, start.2⟩
    exact ⟨fun same => ⟨enough, (Except.ok.inj same).symm⟩, fun both => by rw [both.2]; rfl⟩

theorem copyString_meets (value : String) :
    Meets WireCount.Within (copyString value) value ⟨0, value.utf8ByteSize⟩ ∨
      Fails WireCount.Within (copyString value) := by
  by_cases long : responseItemsMaxStringBytes < value.length ∨
      responseItemsMaxStringBytes < value.utf8ByteSize
  · right
    intro count _ r done
    unfold copyString at done
    by_cases chars : responseItemsMaxStringBytes < value.length
    · rw [if_pos chars] at done
      cases done
    · rw [if_neg chars] at done
      dsimp only at done
      rw [if_pos (.inl (long.resolve_left chars))] at done
      cases done
  · left
    rw [not_or] at long
    intro count start r
    unfold copyString
    rw [if_neg long.1]
    dsimp only
    by_cases full : responseItemsMaxBytes < count.stringBytes + value.utf8ByteSize
    · rw [if_pos (.inr full)]
      refine iff_of_false (by simp) fun both => ?_
      exact absurd both.1.2 (Nat.not_le.mpr full)
    · rw [if_neg (not_or.mpr ⟨long.2, full⟩)]
      have enough : (count + ⟨0, value.utf8ByteSize⟩ : WireCount).Within :=
        ⟨start.1, Nat.not_lt.mp full⟩
      exact ⟨fun same => ⟨enough, (Except.ok.inj same).symm⟩, fun both => by rw [both.2]; rfl⟩

theorem copyString_regular (value : String) :
    Regular WireCount.Within (copyString value) ⟨0, value.utf8ByteSize⟩ :=
  (copyString_meets value).imp_left fun meets => ⟨value, meets⟩

theorem copyKey_regular (left : Nat) (key : WireKey) :
    Regular WireCount.Within (copyKey left key) (keySize key) := by
  cases key with
  | text value =>
      have whole := Regular.bind within_down (.inl ⟨_, enter_meets⟩) fun _ =>
        copyString_regular value
      have size : (⟨1, 0⟩ + ⟨0, value.utf8ByteSize⟩ : WireCount) = keySize (.text value) :=
        WireCount.ext (by simp [keySize]) (by simp [keySize])
      rw [size] at whole
      exact whole.checked _ _ within_down
  | surrogates underscored => exact .inr (raise_fails _)
  | other => exact .inr (raise_fails _)

theorem copyEntry_regular {copy : WireValue → Counted Value} {size : WireValue → WireCount}
    (regular : ∀ value, Regular WireCount.Within (copy value) (size value)) (left : Nat)
    (entry : WireKey × WireValue) :
    Regular WireCount.Within (copyEntry copy left entry) (entrySize size entry) := by
  refine Regular.checked _ _ within_down ?_
  exact (regular entry.2).bind within_down fun value =>
    (copyKey_regular left entry.1).map (fun key => (key, value)) within_down

theorem copyEntries_regular {copy : WireValue → Counted Value} {size : WireValue → WireCount}
    (regular : ∀ value, Regular WireCount.Within (copy value) (size value)) (left : Nat)
    (entries : WireEntries) :
    Regular WireCount.Within (copyEntries copy left entries) (total (entrySize size) entries) := by
  refine Regular.checked _ _ within_down (Regular.map Value.dict within_down ?_)
  exact Regular.mapM within_down fun entry _ => copyEntry_regular regular left entry

theorem copyInside_regular {copy : WireValue → Counted Value} {size : WireValue → WireCount}
    (regular : ∀ value, Regular WireCount.Within (copy value) (size value)) (left : Nat)
    (value : WireValue) :
    Regular WireCount.Within (copyInside copy left value) (sizeInside size value) := by
  cases value with
  | null => exact .pure _
  | bool value => exact .pure _
  | int value => exact Regular.checked _ _ within_down (.pure _)
  | float value => exact Regular.checked _ _ within_down (.pure _)
  | text value => exact (copyString_regular value).map Value.str within_down
  | surrogates length => exact .inr (raise_fails _)
  | items values =>
      refine Regular.checked _ _ within_down (.map Value.list within_down ?_)
      exact Regular.mapM within_down fun value _ => regular value
  | object entries => exact copyEntries_regular regular left entries
  | model outputMessage fieldsSet fields extras =>
      simp only [copyInside, sizeInside]
      cases sdkFields outputMessage fieldsSet fields extras with
      | error fault => exact .inr (raise_fails _)
      | ok entries => exact copyEntries_regular regular left entries
  | unsupported => exact .inr (raise_fails _)

theorem copy_regular (left : Nat) (value : WireValue) :
    Regular WireCount.Within (copy left value) (wireSize left value) := by
  induction left generalizing value with
  | zero => exact .inr (raise_fails _)
  | succ left ih =>
      exact Regular.bind within_down (.inl ⟨_, enter_meets⟩) fun _ =>
        copyInside_regular ih left value

/-! ## A copy is copied to itself -/

/-- The value is its own copy. -/
def Stable (copy : WireValue → Counted Value) (size : WireValue → WireCount) (value : Value) :
    Prop :=
  Meets WireCount.Within (copy (plain value)) value (size (plain value))

/-- Whatever a copy returns is its own copy, of the same size. -/
def Settles (copy : WireValue → Counted Value) (size : WireValue → WireCount) : Prop :=
  ∀ wire value, Returns WireCount.Within (copy wire) value (size wire) →
    Stable copy size value ∧ size (plain value) = size wire

variable {copy : WireValue → Counted Value} {size : WireValue → WireCount} {left : Nat}

/-- The entries of a copied mapping are copied to themselves. -/
structure StableEntries (copy : WireValue → Counted Value) (size : WireValue → WireCount)
    (left : Nat) (entries : Dict) : Prop where
  few : entries.length ≤ maxNodes
  each : ∀ entry ∈ entries, Meets WireCount.Within (copyEntry copy left (plainEntry entry)) entry
    (entrySize size (plainEntry entry))

theorem StableEntries.filter {entries : Dict} (stable : StableEntries copy size left entries)
    (keeps : String × Value → Bool) : StableEntries copy size left (entries.filter keeps) where
  few := (List.length_filter_le _ _).trans stable.few
  each := fun entry inside => stable.each entry (List.mem_of_mem_filter inside)

theorem StableEntries.meets {entries : Dict} (stable : StableEntries copy size left entries) :
    Meets WireCount.Within (copyEntries copy left (plainEntries entries)) (.dict entries)
      (total (entrySize size) (plainEntries entries)) := by
  rw [plainEntries_eq]
  refine Meets.checked (by rw [List.length_map]; exact stable.few) within_down
    (Meets.map Value.dict within_down ?_)
  refine Meets.mapM within_down ?_
  rw [List.forall₂_map_left_iff, List.forall₂_same]
  exact stable.each

theorem copyString_returns {value copied : String} {c last : WireCount} (start : c.Within)
    (done : copyString value c = .ok (copied, last)) : copied = value := by
  rcases copyString_meets value with meets | fails
  · exact (Prod.mk.inj ((meets c start _).mp done).2).1
  · exact absurd done (fails c start _)

/-- A key that was copied is a text, and is copied to itself. -/
theorem copyKey_settles {key : WireKey} {copied : String}
    (returns : Returns WireCount.Within (copyKey left key) copied (keySize key)) :
    key = .text copied ∧ Meets WireCount.Within (copyKey left key) copied (keySize key) := by
  refine ⟨?_, (copyKey_regular left key).meets returns⟩
  cases key with
  | text value =>
      obtain ⟨_, c, _, start, _, done⟩ := Regular.bind_returns (.inl ⟨_, enter_meets⟩)
        (checked_returns returns).2
      rw [copyString_returns start done]
  | surrogates underscored =>
      obtain ⟨c, _, done⟩ := returns
      cases done
  | other =>
      obtain ⟨c, _, done⟩ := returns
      cases done

/-- An entry that was copied is copied to itself. -/
theorem copyEntry_settles (regular : ∀ value, Regular WireCount.Within (copy value) (size value))
    (settles : Settles copy size) {wire : WireKey × WireValue} {entry : String × Value}
    (returns : Returns WireCount.Within (copyEntry copy left wire) entry (entrySize size wire)) :
    Meets WireCount.Within (copyEntry copy left (plainEntry entry)) entry
        (entrySize size (plainEntry entry)) ∧
      entrySize size wire = entrySize size (plainEntry entry) := by
  obtain ⟨value, c, copied, start, last, done⟩ :=
    (regular wire.2).bind_returns (checked_returns returns).2
  have keyed := (copyKey_regular left wire.1).map (fun key => (key, value)) within_down
  obtain ⟨key, rfl, copiedKey⟩ := (copyKey_regular left wire.1).map_returns
    (keyed.returns start done)
  obtain ⟨same, meetsKey⟩ := copyKey_settles copiedKey
  obtain ⟨stable, sized⟩ := settles wire.2 value copied
  rw [same] at meetsKey
  refine ⟨Meets.checked (by simp [plainEntry]) within_down
    (Meets.bind within_down stable (meetsKey.map (fun key => (key, value)) within_down)), ?_⟩
  rw [entrySize, entrySize, plainEntry, same, sized]

theorem copyEntries_settles
    (regular : ∀ value, Regular WireCount.Within (copy value) (size value))
    (settles : Settles copy size) {wires : WireEntries} {value : Value}
    (returns : Returns WireCount.Within (copyEntries copy left wires) value
      (total (entrySize size) wires)) :
    ∃ entries, value = .dict entries ∧ StableEntries copy size left entries ∧
      total (entrySize size) (plainEntries entries) = total (entrySize size) wires := by
  obtain ⟨few, mapped⟩ := checked_returns returns
  have each : ∀ wire ∈ wires, Regular WireCount.Within (copyEntry copy left wire)
      (entrySize size wire) := fun wire _ => copyEntry_regular regular left wire
  obtain ⟨entries, rfl, c, start, done⟩ := (Regular.mapM within_down each).map_returns mapped
  have pairs := mapM_returns each start done
  have settled := pairs.imp fun _ _ => copyEntry_settles regular settles
  refine ⟨entries, rfl, ⟨pairs.length_eq ▸ few, ?_⟩, ?_⟩
  · exact forall_results (settled.imp fun _ _ both => both.1)
  · rw [plainEntries_eq, total_map]
    exact (total_congr (settled.imp fun _ _ both => both.2)).symm

theorem copyInside_settles
    (regular : ∀ value, Regular WireCount.Within (copy value) (size value))
    (settles : Settles copy size) (left : Nat) :
    Settles (copyInside copy left) (sizeInside size) := by
  intro wire value returns
  have again := (copyInside_regular regular left wire).meets returns
  cases wire with
  | null =>
      obtain ⟨c, _, done⟩ := returns
      obtain ⟨rfl, _⟩ := Prod.mk.inj (Except.ok.inj done)
      exact ⟨again, rfl⟩
  | bool flag =>
      obtain ⟨c, _, done⟩ := returns
      obtain ⟨rfl, _⟩ := Prod.mk.inj (Except.ok.inj done)
      exact ⟨again, rfl⟩
  | int number =>
      obtain ⟨c, _, done⟩ := (checked_returns returns).2
      obtain ⟨rfl, _⟩ := Prod.mk.inj (Except.ok.inj done)
      exact ⟨again, rfl⟩
  | float number =>
      obtain ⟨c, _, done⟩ := (checked_returns returns).2
      obtain ⟨rfl, _⟩ := Prod.mk.inj (Except.ok.inj done)
      exact ⟨again, rfl⟩
  | text string =>
      obtain ⟨copied, rfl, c, start, done⟩ := (copyString_regular string).map_returns returns
      obtain rfl := copyString_returns start done
      exact ⟨again, rfl⟩
  | surrogates length =>
      obtain ⟨c, _, done⟩ := returns
      cases done
  | items values =>
      obtain ⟨few, mapped⟩ := checked_returns returns
      obtain ⟨copied, rfl, c, start, done⟩ :=
        (Regular.mapM within_down fun value _ => regular value).map_returns mapped
      have pairs := mapM_returns (fun value _ => regular value) start done
      have settled := pairs.imp fun wire value => settles wire value
      have size_eq : total size (copied.map plain) = total size values := by
        rw [total_map]
        exact (total_congr (settled.imp fun _ _ both => both.2.symm)).symm
      refine ⟨?_, ?_⟩
      · show Meets WireCount.Within (copyInside copy left (.items (plainItems copied))) _
          (total size (plainItems copied))
        rw [plainItems_eq]
        refine Meets.checked (by rw [List.length_map, ← pairs.length_eq]; exact few) within_down
          (Meets.map Value.list within_down (Meets.mapM within_down ?_))
        rw [List.forall₂_map_left_iff, List.forall₂_same]
        exact forall_results (settled.imp fun _ _ both => both.1)
      · show total size (plainItems copied) = total size values
        rw [plainItems_eq, size_eq]
  | object wires =>
      obtain ⟨entries, rfl, stable, sized⟩ := copyEntries_settles regular settles returns
      exact ⟨stable.meets, sized⟩
  | model outputMessage fieldsSet fields extras =>
      simp only [copyInside, sizeInside] at returns ⊢
      cases found : sdkFields outputMessage fieldsSet fields extras with
      | error fault =>
          rw [found] at returns
          obtain ⟨c, _, done⟩ := returns
          cases done
      | ok wires =>
          rw [found] at returns
          obtain ⟨entries, rfl, stable, sized⟩ := copyEntries_settles regular settles returns
          exact ⟨stable.meets, sized⟩
  | unsupported =>
      obtain ⟨c, _, done⟩ := returns
      cases done

theorem copy_settles (left : Nat) : Settles (Responses.copy left) (wireSize left) := by
  induction left with
  | zero =>
      rintro wire value ⟨c, _, done⟩
      cases done
  | succ left ih =>
      intro wire value returns
      obtain ⟨_, c, _, start, last, done⟩ := Regular.bind_returns (.inl ⟨_, enter_meets⟩) returns
      have inside := (copyInside_regular (copy_regular left) left wire).returns start done
      obtain ⟨stable, sized⟩ := copyInside_settles (copy_regular left) ih left wire value inside
      exact ⟨Meets.bind within_down enter_meets stable, congrArg (⟨1, 0⟩ + ·) sized⟩

/-- The entries of a mapping that was copied are copied to themselves. -/
theorem copied_entries {left : Nat} {wire : WireValue} {entries : Dict}
    (returns : Returns WireCount.Within (Responses.copy (left + 1) wire) (.dict entries)
      (wireSize (left + 1) wire)) :
    StableEntries (Responses.copy left) (wireSize left) left entries := by
  obtain ⟨stable, sized⟩ := copy_settles (left + 1) wire _ returns
  obtain ⟨c, begun, copied⟩ := returns
  have enough := ((copy_regular (left + 1) wire).ok begun copied).2
  rw [← sized] at enough
  have again := stable.result begun enough
  obtain ⟨_, middle, _, start, last, done⟩ :=
    Regular.bind_returns (.inl ⟨_, enter_meets⟩) ⟨c, begun, again⟩
  have inside := (copyEntries_regular (copy_regular left) left (plainEntries entries)).returns
    start done
  obtain ⟨entries', same, kept, _⟩ := copyEntries_settles (copy_regular left) (copy_settles left)
    inside
  rw [Value.dict.inj same]
  exact kept

end AgentLibOS.Responses
