import AgentLibOS.Library.Masking
import Mathlib.Data.List.Permutation

namespace AgentLibOS.Library.Masking
variable {α : Type*} [DecidableEq α]

/-! ## Steps of a replacement -/

theorem substitute_skip {part replacement : List α} (skip : Nat) (previous : Option α)
    (text : List α) : substitute (findPart part replacement) skip previous text =
      replacePart part replacement (text.drop skip) := by
  have forget (text : List α) (skip : Nat) (previous previous' : Option α) :
      substitute (findPart part replacement) skip previous text =
        substitute (findPart part replacement) skip previous' text := by
    cases text with
    | nil => simp [substitute]
    | cons c rest =>
        cases skip with
        | zero => simp only [substitute, findPart]
        | succ skip => simp only [substitute]
  induction text generalizing skip previous with
  | nil => simp [replacePart, substitute]
  | cons c rest ih =>
      cases skip with
      | zero => exact forget _ _ _ _
      | succ skip =>
          rw [substitute, List.drop_succ_cons]
          exact ih skip _

theorem replacePart_nil (part replacement : List α) : replacePart part replacement [] = [] := by
  rw [replacePart, substitute]

theorem replacePart_here {part replacement : List α} (nonempty : part ≠ []) (rest : List α) :
    replacePart part replacement (part ++ rest) = replacement ++ replacePart part replacement rest := by
  obtain ⟨c, part, rfl⟩ := List.exists_cons_of_ne_nil nonempty
  have here : (c :: part).isPrefixOf (c :: (part ++ rest)) = true :=
    List.isPrefixOf_iff_prefix.mpr (List.prefix_append (c :: part) rest)
  rw [replacePart, List.cons_append, substitute, findPart, if_pos here]
  simp only [List.length_cons]
  rw [substitute_skip, List.drop_left]

theorem replacePart_past {part replacement : List α} {c : α} {rest : List α}
    (absent : ¬ part <+: c :: rest) :
    replacePart part replacement (c :: rest) = c :: replacePart part replacement rest := by
  have missed : ¬ part.isPrefixOf (c :: rest) = true := fun here =>
    absent (List.isPrefixOf_iff_prefix.mp here)
  rw [replacePart, substitute, findPart, if_neg missed]
  simp only []
  rw [substitute_skip, List.drop_zero]

/-- A scan passes over elements at which the part does not begin. -/
theorem replacePart_pass {part replacement passed rest : List α}
    (absent : ∀ k < passed.length, ¬ part <+: (passed ++ rest).drop k) :
    replacePart part replacement (passed ++ rest) =
      passed ++ replacePart part replacement rest := by
  induction passed with
  | nil => rfl
  | cons c passed ih =>
      have later : ∀ k < passed.length, ¬ part <+: (passed ++ rest).drop k := fun k small =>
        absent (k + 1) (Nat.succ_lt_succ small)
      have first : ¬ part <+: c :: (passed ++ rest) := absent 0 (Nat.succ_pos _)
      rw [List.cons_append, replacePart_past first, ih later, List.cons_append]

/-! ## Marks -/

/-- A text where a replaced part has become a mark, which is no element. -/
abbrev Marked (α : Type*) := List (Option α)

def mark (secret : List α) (text : Marked α) : Marked α := replacePart (secret.map some) [none] text

/-- The text with a mask for every mark. -/
def shown (mask : List α) (text : Marked α) : List α :=
  text.flatMap fun element => element.elim mask fun c => [c]

/-- No occurrence of the secret in the shown text has a part of a mask. -/
def maskFree (mask secret : List α) : Marked α → Bool
  | [] => true
  | some c :: rest =>
      decide (secret <+: c :: shown mask rest → secret.map some <+: some c :: rest) &&
        maskFree mask secret rest
  | none :: rest =>
      decide (∀ k < mask.length, ¬ secret <+: (mask ++ shown mask rest).drop k) &&
        maskFree mask secret rest

theorem maskFree_append {mask secret : List α} {front rest : Marked α}
    (free : maskFree mask secret (front ++ rest) = true) : maskFree mask secret rest = true := by
  induction front with
  | nil => exact free
  | cons c front ih =>
      cases c <;>
        (rw [List.cons_append, maskFree, Bool.and_eq_true] at free
         exact ih free.2)

omit [DecidableEq α] in
/-- A part that begins a text of elements begins it in the marked text. -/
theorem prefix_split {secret : List α} {text : Marked α} (here : secret.map some <+: text) :
    ∃ rest, text = secret.map some ++ rest ∧ text.drop secret.length = rest := by
  obtain ⟨rest, rfl⟩ := here
  refine ⟨rest, rfl, ?_⟩
  rw [← List.length_map some, List.drop_left]

omit [DecidableEq α] in
theorem shown_append (mask : List α) (front rest : Marked α) :
    shown mask (front ++ rest) = shown mask front ++ shown mask rest := List.flatMap_append

omit [DecidableEq α] in
theorem shown_some (mask part : List α) : shown mask (part.map some) = part := by
  induction part with
  | nil => rfl
  | cons c part ih => exact congrArg (c :: ·) ih

/-- Masking what is marked is replacing it in the shown text. -/
theorem shown_mark {mask secret : List α} (nonempty : secret ≠ []) {text : Marked α}
    (free : maskFree mask secret text = true) :
    shown mask (mark secret text) = replacePart secret mask (shown mask text) := by
  have nonempty' : secret.map some ≠ [] := by simpa using nonempty
  induction sized : text.length using Nat.strong_induction_on generalizing text with
  | _ size ih =>
      cases text with
      | nil => rw [mark, replacePart_nil, shown, List.flatMap_nil, replacePart_nil]
      | cons element rest =>
          have shorter : rest.length < size := by simp [← sized]
          cases element with
          | none =>
              rw [maskFree, Bool.and_eq_true, decide_eq_true_iff] at free
              have unmarked : ¬ secret.map some <+: none :: rest := by
                obtain ⟨c, secret, rfl⟩ := List.exists_cons_of_ne_nil nonempty
                simp
              rw [mark, replacePart_past unmarked]
              change mask ++ shown mask (mark secret rest) =
                replacePart secret mask (mask ++ shown mask rest)
              rw [replacePart_pass free.1, ih _ shorter free.2 rfl]
          | some c =>
              have free' := free
              rw [maskFree, Bool.and_eq_true, decide_eq_true_iff] at free'
              by_cases here : secret.map some <+: some c :: rest
              · obtain ⟨behind, shape, -⟩ := prefix_split here
                have lengths := congrArg List.length shape
                rw [List.length_append, List.length_map] at lengths
                have smaller : behind.length < size := by
                  have positive := List.length_pos_iff.mpr nonempty
                  omega
                rw [shape] at free ⊢
                rw [mark, replacePart_here nonempty', shown_append, shown_append, shown_some,
                  replacePart_here nonempty]
                have later := ih _ smaller (maskFree_append free) rfl
                rw [mark] at later
                rw [later]
                simp [shown]
              · have absent : ¬ secret <+: c :: shown mask rest := fun begins => here (free'.1 begins)
                rw [mark, replacePart_past here]
                change c :: shown mask (mark secret rest) = replacePart secret mask (c :: shown mask rest)
                rw [replacePart_past absent, ih _ shorter free'.2 rfl]

/-! ## Two parts of equal length -/

/-- A scan for both parts, after so many elements, never finds one inside an occurrence of the
other. -/
def clashFree {β : Type*} [DecidableEq β] (first second : List β) : Nat → List β → Bool
  | _, [] => true
  | skip + 1, _ :: rest => clashFree first second skip rest
  | 0, c :: rest =>
      if first <+: c :: rest then
        decide (∀ k < first.length - 1, ¬ second <+: rest.drop k) &&
          clashFree first second (first.length - 1) rest
      else if second <+: c :: rest then
        decide (∀ k < second.length - 1, ¬ first <+: rest.drop k) &&
          clashFree first second (second.length - 1) rest
      else clashFree first second 0 rest

theorem clashFree_skip {β : Type*} [DecidableEq β] (first second : List β) (skip : Nat)
    (text : List β) : clashFree first second skip text = clashFree first second 0 (text.drop skip) := by
  induction text generalizing skip with
  | nil => simp [clashFree]
  | cons c rest ih =>
      cases skip with
      | zero => rfl
      | succ skip =>
          rw [clashFree, List.drop_succ_cons]
          exact ih skip

/-- What begins a marked text without a mark begins the text. -/
theorem prefix_of_mark {secret part : List α} (nonempty : secret ≠ []) {text : Marked α}
    (here : part.map some <+: mark secret text) : part.map some <+: text := by
  have nonempty' : secret.map some ≠ [] := by simpa using nonempty
  induction text generalizing part with
  | nil => rwa [mark, replacePart_nil] at here
  | cons c rest ih =>
      cases part with
      | nil => exact List.nil_prefix
      | cons d part =>
          by_cases found : secret.map some <+: c :: rest
          · obtain ⟨behind, shape, -⟩ := prefix_split found
            rw [mark, shape, replacePart_here nonempty'] at here
            simp at here
          · rw [mark, replacePart_past found, List.map_cons, List.cons_prefix_cons] at here
            rw [List.map_cons, List.cons_prefix_cons]
            exact ⟨here.1, ih here.2⟩

section
variable {first second : List α} (different : first ≠ second) (level : first.length = second.length)
include different level

/-- A scan for the second part passes over an occurrence of the first. -/
theorem mark_pass {c : Option α} {rest behind : Marked α} (shape : c :: rest = first.map some ++ behind)
    (inside : ∀ k < (first.map some).length - 1, ¬ second.map some <+: rest.drop k) :
    mark second (first.map some ++ behind) = first.map some ++ mark second behind := by
  apply replacePart_pass
  intro k small here
  cases k with
  | zero =>
      rw [List.drop_zero] at here
      have equal : second.map some = first.map some :=
        (List.prefix_of_prefix_length_le here (List.prefix_append _ _)
          (by simp [level])).eq_of_length (by simp [level])
      exact different (List.map_injective_iff.mpr (fun _ _ => Option.some.inj) equal.symm)
  | succ k =>
      rw [← shape, List.drop_succ_cons] at here
      exact inside k (by omega) here

omit different level in
theorem mark_none {secret : List α} (nonempty : secret ≠ []) (rest : Marked α) :
    mark secret (none :: rest) = none :: mark secret rest := by
  obtain ⟨c, secret, rfl⟩ := List.exists_cons_of_ne_nil nonempty
  exact replacePart_past (by simp)

/-- Parts without a clash are marked in either order. -/
theorem mark_comm (nonempty : first ≠ []) {text : Marked α}
    (free : clashFree (first.map some) (second.map some) 0 text = true) :
    mark second (mark first text) = mark first (mark second text) := by
  have nonempty' : second ≠ [] := by
    rw [← List.length_pos_iff, ← level]
    exact List.length_pos_iff.mpr nonempty
  have here₁ (rest : Marked α) : mark first (first.map some ++ rest) = none :: mark first rest :=
    replacePart_here (by simpa using nonempty) rest
  have here₂ (rest : Marked α) : mark second (second.map some ++ rest) = none :: mark second rest :=
    replacePart_here (by simpa using nonempty') rest
  induction sized : text.length using Nat.strong_induction_on generalizing text with
  | _ size ih =>
      cases text with
      | nil => simp only [mark, replacePart_nil]
      | cons c rest =>
          have drops {part : List α} (nonempty : part ≠ []) {behind : Marked α}
              (shape : c :: rest = part.map some ++ behind) :
              rest.drop ((part.map some).length - 1) = behind ∧ behind.length < size := by
            obtain ⟨d, part, rfl⟩ := List.exists_cons_of_ne_nil nonempty
            rw [List.map_cons, List.cons_append, List.cons.injEq] at shape
            rw [shape.2, ← sized, shape.2]
            constructor
            · simp
            · simp only [List.length_cons, List.length_append, List.length_map]
              omega
          rw [clashFree] at free
          split_ifs at free with found found'
          · obtain ⟨behind, shape, -⟩ := prefix_split found
            obtain ⟨left, shorter⟩ := drops nonempty shape
            rw [Bool.and_eq_true, decide_eq_true_iff, clashFree_skip, left] at free
            rw [shape, here₁, mark_none nonempty', mark_pass different level shape free.1, here₁,
              ih _ shorter free.2 rfl]
          · obtain ⟨behind, shape, -⟩ := prefix_split found'
            obtain ⟨left, shorter⟩ := drops nonempty' shape
            rw [Bool.and_eq_true, decide_eq_true_iff, clashFree_skip, left] at free
            rw [shape, here₂, mark_none nonempty, mark_pass different.symm level.symm shape free.1,
              here₂, ih _ shorter free.2 rfl]
          · have later := ih _ (show rest.length < size by simp [← sized]) free rfl
            have past₁ : mark first (c :: rest) = c :: mark first rest := replacePart_past found
            have past₂ : mark second (c :: rest) = c :: mark second rest := replacePart_past found'
            have still₁ : ¬ first.map some <+: c :: mark second rest := fun here =>
              found (prefix_of_mark nonempty' (past₂ ▸ here))
            have still₂ : ¬ second.map some <+: c :: mark first rest := fun here =>
              found' (prefix_of_mark nonempty (past₁ ▸ here))
            have step₁ : mark first (c :: mark second rest) = c :: mark first (mark second rest) :=
              replacePart_past still₁
            have step₂ : mark second (c :: mark first rest) = c :: mark second (mark first rest) :=
              replacePart_past still₂
            rw [past₁, past₂, step₁, step₂, later]

end

/-! ## Groups of parts of equal length -/

/-- The marks of all parts, in their order. -/
def marks (parts : List (List α)) (text : Marked α) : Marked α :=
  parts.foldl (fun text part => mark part text) text

/-- In every order of the parts, each is found outside the masks and does not clash with the next. -/
def Steady (mask : List α) (parts : List (List α)) (text : List α) : Prop :=
  ∀ order ∈ parts.permutations', ∀ count < order.length,
    maskFree mask (order.getD count []) (marks (order.take count) (text.map some)) = true ∧
      (count + 1 < order.length →
        clashFree ((order.getD count []).map some) ((order.getD (count + 1) []).map some) 0
          (marks (order.take count) (text.map some)) = true)

instance (mask : List α) (parts : List (List α)) (text : List α) : Decidable (Steady mask parts text) :=
  inferInstanceAs (Decidable (∀ order ∈ parts.permutations', ∀ count < order.length, _ ∧ _))

theorem steady_nil (mask text : List α) : Steady mask [] text := by
  intro order inside count small
  rw [List.Perm.eq_nil (List.mem_permutations'.mp inside)] at small
  exact absurd small (Nat.not_lt_zero count)

/-- Steps that commute wherever two of them are neighbours give one result in every order. -/
theorem foldl_perm {σ τ : Type*} {step : σ → τ → σ} {start : σ} {steps : List τ}
    (swaps : ∀ before first second after, (before ++ first :: second :: after).Perm steps →
      step (step (before.foldl step start) first) second =
        step (step (before.foldl step start) second) first) {order : List τ}
    (same : order.Perm steps) : order.foldl step start = steps.foldl step start := by
  suffices whole : ∀ before left right : List τ, left.Perm right →
      (before ++ left).Perm steps →
      (before ++ left).foldl step start = (before ++ right).foldl step start from
    whole [] order steps same same
  intro before left right related
  induction related generalizing before with
  | nil => exact fun _ => rfl
  | cons first _ ih =>
      intro inside
      have next := ih (before ++ [first])
      simp only [List.append_assoc, List.singleton_append] at next
      exact next inside
  | swap first second rest =>
      intro inside
      have here := swaps before second first rest inside
      simp only [List.foldl_append, List.foldl_cons, here]
  | trans left _ ih ih' =>
      intro inside
      exact (ih before inside).trans (ih' before ((left.symm.append_left before).trans inside))

/-- What a steady group says of one place in one order. -/
theorem Steady.at {mask : List α} {parts : List (List α)} {text : List α}
    (steady : Steady mask parts text) {before after : List (List α)} {secret : List α}
    (order : (before ++ secret :: after).Perm parts) :
    maskFree mask secret (marks before (text.map some)) = true ∧
      ∀ next ∈ after.head?, clashFree (secret.map some) (next.map some) 0
        (marks before (text.map some)) = true := by
  have here := steady _ (List.mem_permutations'.mpr order) before.length (by simp)
  have current : (before ++ secret :: after).getD before.length [] = secret := by simp
  have front : (before ++ secret :: after).take before.length = before := List.take_left
  rw [current, front] at here
  refine ⟨here.1, fun next first => ?_⟩
  obtain ⟨rest, rfl⟩ : ∃ rest, after = next :: rest := by
    cases after with
    | nil => cases first
    | cons d rest =>
        cases first
        exact ⟨rest, rfl⟩
  have following : (before ++ secret :: next :: rest).getD (before.length + 1) [] = next := by simp
  have clash := here.2 (by simp)
  rwa [following] at clash

/-- The replacements of a steady group are its marks. -/
theorem foldl_replace {mask : List α} {parts order : List (List α)} {text : List α}
    (steady : Steady mask parts text) (nonempty : ∀ part ∈ parts, part ≠ [])
    (same : order.Perm parts) :
    order.foldl (fun text part => replacePart part mask text) text =
      shown mask (marks order (text.map some)) := by
  suffices grown : ∀ before after, before ++ after = order →
      before.foldl (fun text part => replacePart part mask text) text =
        shown mask (marks before (text.map some)) from
    grown order [] (List.append_nil order)
  intro before
  induction before using List.reverseRecOn with
  | nil =>
      intro _ _
      exact (shown_some mask text).symm
  | append_singleton before part ih =>
      intro after shape
      rw [List.append_assoc, List.singleton_append] at shape
      have place : (before ++ part :: after).Perm parts := by rw [shape]; exact same
      have inside : part ∈ parts := place.mem_iff.mp (by simp)
      rw [marks, List.foldl_append, List.foldl_append, ih _ shape]
      exact (shown_mark (nonempty part inside) (steady.at place).1).symm

/-- A steady group of parts of one length is replaced in any order. -/
theorem replace_perm {mask : List α} {parts order : List (List α)} {text : List α}
    (steady : Steady mask parts text) (nonempty : ∀ part ∈ parts, part ≠ [])
    (distinct : parts.Nodup) {size : Nat} (level : ∀ part ∈ parts, part.length = size)
    (same : order.Perm parts) :
    order.foldl (fun text part => replacePart part mask text) text =
      parts.foldl (fun text part => replacePart part mask text) text := by
  rw [foldl_replace steady nonempty same, foldl_replace steady nonempty (List.Perm.refl parts)]
  refine congrArg (shown mask) (foldl_perm (fun before first second after place => ?_) same)
  have inside : first ∈ parts := place.mem_iff.mp (by simp)
  have inside' : second ∈ parts := place.mem_iff.mp (by simp)
  have different : first ≠ second := by
    have apart := place.nodup_iff.mpr distinct
    rw [List.nodup_append, List.nodup_cons] at apart
    exact fun equal => apart.2.1.1 (by simp [equal])
  exact mark_comm different ((level first inside).trans (level second inside').symm)
    (nonempty first inside) ((steady.at place).2 second rfl)

end AgentLibOS.Library.Masking
