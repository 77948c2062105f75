import Mathlib.Data.List.Infix

namespace AgentLibOS.Library.Masking

variable {α : Type*}

/-! ## Parts of a list around a barrier -/

theorem prefix_barrier {part before after : List α} {c : α} (outside : c ∉ part)
    (le : part <+: before ++ c :: after) : part <+: before := by
  induction before generalizing part with
  | nil =>
      cases part with
      | nil => exact List.nil_prefix
      | cons a part =>
          rw [List.nil_append, List.cons_prefix_cons] at le
          exact absurd (le.1 ▸ List.mem_cons_self) outside
  | cons b before ih =>
      cases part with
      | nil => exact List.nil_prefix
      | cons a part =>
          rw [List.cons_append, List.cons_prefix_cons] at le
          rw [List.cons_prefix_cons]
          exact ⟨le.1, ih (fun inside => outside (List.mem_cons_of_mem a inside)) le.2⟩

theorem infix_barrier {part before after : List α} {c : α} (outside : c ∉ part)
    (le : part <:+: before ++ c :: after) : part <:+: before ∨ part <:+: after := by
  induction before with
  | nil =>
      rcases List.infix_cons_iff.mp le with first | later
      · change part <+: [] ++ c :: after at first
        exact .inl (prefix_barrier outside first).isInfix
      · exact .inr later
  | cons b before ih =>
      rcases List.infix_cons_iff.mp le with first | later
      · change part <+: (b :: before) ++ c :: after at first
        exact .inl (prefix_barrier outside first).isInfix
      · rcases ih later with here | there
        · exact .inl (List.infix_cons here)
        · exact .inr there

/-! ## Masked lists -/

/-- The second list is the first with some parts replaced by masks. -/
inductive Masked (masks : List α → Prop) : List α → List α → Prop
  | nil : Masked masks [] []
  | keep (c : α) {text text' : List α} (rest : Masked masks text text') :
      Masked masks (c :: text) (c :: text')
  | mask (part : List α) {mask text text' : List α} (known : masks mask)
      (rest : Masked masks text text') : Masked masks (part ++ text) (mask ++ text')

namespace Masked

variable {masks : List α → Prop} {text text' : List α}

theorem refl : ∀ text : List α, Masked masks text text
  | [] => nil
  | c :: text => keep c (refl text)

theorem append (before : List α) (masked : Masked masks text text') :
    Masked masks (before ++ text) (before ++ text') := by
  induction before with
  | nil => exact masked
  | cons c before ih => exact keep c ih

end Masked

/-- A mask that no part with the secret's elements begins or lies in. -/
structure Apart (secret mask : List α) : Prop where
  opens : ∃ c rest, mask = c :: rest ∧ c ∉ secret
  clear : ∀ after, secret <:+: mask ++ after → secret <:+: after

section
variable {masks : List α → Prop} {text text' secret : List α}
  (apart : ∀ mask, masks mask → Apart secret mask)

include apart

/-- A prefix with elements of the secret only comes from the list itself. -/
theorem Masked.start (masked : Masked masks text text') {part : List α}
    (within : ∀ c ∈ part, c ∈ secret) (le : part <+: text') : part <+: text := by
  induction masked generalizing part with
  | nil => exact le
  | keep c _ ih =>
      cases part with
      | nil => exact List.nil_prefix
      | cons a part =>
          rw [List.cons_prefix_cons] at le ⊢
          exact ⟨le.1, ih (fun c inside => within c (List.mem_cons_of_mem a inside)) le.2⟩
  | mask _ known _ _ =>
      cases part with
      | nil => exact List.nil_prefix
      | cons a part =>
          obtain ⟨c, rest, rfl, outside⟩ := (apart _ known).opens
          rw [List.cons_append, List.cons_prefix_cons] at le
          exact absurd (within a List.mem_cons_self) (le.1 ▸ outside)

/-- Masking shows no secret that was not there. -/
theorem Masked.clear (masked : Masked masks text text') (absent : ¬ secret <:+: text) :
    ¬ secret <:+: text' := by
  induction masked with
  | nil => exact absent
  | keep c rest ih =>
      intro le
      rcases List.infix_cons_iff.mp le with first | later
      · have here := (Masked.keep c rest).start apart (fun _ => id) first
        exact absent here.isInfix
      · exact ih (fun le => absent (List.infix_cons le)) later
  | mask part known _ ih =>
      intro le
      exact ih (fun le => absent (le.trans (List.suffix_append part _).isInfix))
        ((apart _ known).clear _ le)

end

/-! ## Substitution -/

/-- A scan that replaces what `find` finds: the length of a match at the head, at least one, and
the replacement. It looks at the element before, and passes over so many elements first. -/
def substitute (find : Option α → List α → Option (Nat × List α)) :
    Nat → Option α → List α → List α
  | _, _, [] => []
  | skip + 1, _, c :: rest => substitute find skip (some c) rest
  | 0, previous, c :: rest =>
      match find previous (c :: rest) with
      | some (length + 1, replacement) => replacement ++ substitute find length (some c) rest
      | _ => c :: substitute find 0 (some c) rest

/-- The replacement keeps the match but for one masked part. -/
def Masks (masks : List α → Prop) (text : List α) (length : Nat) (replacement : List α) : Prop :=
  ∃ kept part mask tail, text.take length = kept ++ part ++ tail ∧ masks mask ∧
    replacement = kept ++ mask ++ tail

theorem substitute_masked {masks : List α → Prop}
    {find : Option α → List α → Option (Nat × List α)}
    (finds : ∀ previous text length replacement, find previous text = some (length, replacement) →
      Masks masks text length replacement) (skip : Nat) (previous : Option α) (text : List α) :
    Masked masks (text.drop skip) (substitute find skip previous text) := by
  induction text generalizing skip previous with
  | nil =>
      rw [List.drop_nil, substitute]
      exact .nil
  | cons c rest ih =>
      cases skip with
      | succ skip =>
          rw [substitute, List.drop_succ_cons]
          exact ih skip _
      | zero =>
          rw [List.drop_zero, substitute]
          split
          · rename_i length replacement found
            obtain ⟨kept, part, mask, tail, shape, known, rfl⟩ := finds _ _ _ _ found
            have whole : c :: rest = kept ++ (part ++ (tail ++ rest.drop length)) := by
              rw [← List.append_assoc, ← List.append_assoc, ← shape, ← List.drop_succ_cons (a := c),
                List.take_append_drop]
            rw [whole, List.append_assoc, List.append_assoc]
            exact ((ih length _).append tail |>.mask part known).append kept
          · exact .keep c (ih 0 _)

section
variable [DecidableEq α]

/-- Finds a fixed part. -/
def findPart (part replacement : List α) (_ : Option α) (text : List α) :
    Option (Nat × List α) :=
  if part.isPrefixOf text then some (part.length, replacement) else none

/-- Replacement of a fixed nonempty part. -/
def replacePart (part replacement text : List α) : List α :=
  substitute (findPart part replacement) 0 none text

theorem findPart_masks {part replacement : List α} (previous : Option α) (text : List α)
    (length : Nat) (written : List α)
    (found : findPart part replacement previous text = some (length, written)) :
    Masks (· = replacement) text length written := by
  obtain ⟨_, same⟩ := Option.ite_none_right_eq_some.mp found
  cases same
  exact ⟨[], text.take part.length, replacement, [], by simp, rfl, by simp⟩

theorem replacePart_masked (part replacement text : List α) :
    Masked (· = replacement) text (replacePart part replacement text) :=
  substitute_masked findPart_masks 0 none text

theorem replacePart_clear {part replacement : List α} (nonempty : part ≠ [])
    (apart : Apart part replacement) (text : List α) :
    ¬ part <:+: replacePart part replacement text := by
  have apart' : ∀ mask, mask = replacement → Apart part mask := fun _ same => same ▸ apart
  have clear (skip : Nat) (previous : Option α) :
      ¬ part <:+: substitute (findPart part replacement) skip previous text := by
    induction text generalizing skip previous with
    | nil =>
        rw [substitute]
        exact fun le => nonempty (List.infix_nil.mp le)
    | cons c rest ih =>
        cases skip with
        | succ skip =>
            rw [substitute]
            exact ih skip _
        | zero =>
            have masked : Masked (· = replacement) (c :: rest)
                (substitute (findPart part replacement) 0 previous (c :: rest)) :=
              substitute_masked findPart_masks 0 previous (c :: rest)
            rw [substitute] at masked ⊢
            by_cases here : part.isPrefixOf (c :: rest) = true
            · obtain ⟨length, same⟩ := Nat.exists_eq_succ_of_ne_zero
                (fun zero => nonempty (List.length_eq_zero_iff.mp zero))
              rw [findPart, if_pos here, same]
              exact fun le => ih length _ (apart.clear _ le)
            · rw [findPart, if_neg here] at masked ⊢
              intro le
              rcases List.infix_cons_iff.mp le with first | later
              · have le := masked.start apart' (fun _ => id) first
                exact here (List.isPrefixOf_iff_prefix.mpr le)
              · exact ih 0 _ later
  exact clear 0 none

end

end AgentLibOS.Library.Masking
