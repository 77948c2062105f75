import AgentLibOS.DataFlow.FileLabels
import AgentLibOS.Library.Masking
import AgentLibOS.Library.Pages
import Mathlib.Data.Prod.Lex
import Mathlib.Order.OrderDual

namespace AgentLibOS.DataFlow
open Library.Pages

/-! ## `LIKE` -/

inductive LikeToken
  | anything
  | anyCharacter
  | letter (c : Char)
  | nothing

/-- A pattern of `LIKE`; a last escape character escapes nothing and never matches. -/
def likeTokens (escape : Option Char) : List Char → List LikeToken
  | [] => []
  | [c] =>
      if escape = some c then [.nothing]
      else if c = '%' then [.anything]
      else if c = '_' then [.anyCharacter]
      else [.letter c]
  | c :: d :: rest =>
      if escape = some c then .letter d :: likeTokens escape rest
      else if c = '%' then .anything :: likeTokens escape (d :: rest)
      else if c = '_' then .anyCharacter :: likeTokens escape (d :: rest)
      else .letter c :: likeTokens escape (d :: rest)

/-- Letters match without regard to ASCII case. -/
def likeMatches : List LikeToken → List Char → Bool
  | [], text => text.isEmpty
  | .anything :: rest, text => text.tails.any (likeMatches rest)
  | .anyCharacter :: rest, _ :: text => likeMatches rest text
  | .letter c :: rest, x :: text => c.toLower == x.toLower && likeMatches rest text
  | _, _ => false

/-- `text LIKE pattern ESCAPE escape`. -/
def like (escape : Option Char) (pattern text : String) : Bool :=
  likeMatches (likeTokens escape pattern.toList) text.toList

def escaped (c : Char) (text : List Char) : List Char :=
  text.flatMap fun x => if x = c then ['!', x] else [x]

/-- `prefix.replace("!", "!!").replace("%", "!%").replace("_", "!_")`. -/
def escapedPrefix (text : List Char) : List Char := escaped '_' (escaped '%' (escaped '!' text))

/-- The text begins with another, without regard to ASCII case. -/
def Begins (start text : List Char) : Prop := start.map Char.toLower <+: text.map Char.toLower

instance (start text : List Char) : Decidable (Begins start text) :=
  inferInstanceAs (Decidable (start.map Char.toLower <+: text.map Char.toLower))

/-! ## The bindings of a tree -/

/-- The path is the selected one or lies below it. -/
def InTree (selected path : String) : Prop :=
  selected = "" ∨ selected = "." ∨ path = selected ∨ selected.toList ++ ['/'] <+: path.toList

instance (selected path : String) : Decidable (InTree selected path) :=
  inferInstanceAs (Decidable (_ ∨ _ ∨ _ ∨ _))

/-- The directory of the repository itself. -/
def IsGit (path : String) : Prop := path = ".git" ∨ ".git/".toList <+: path.toList

/-- The last of all characters. -/
def lastCharacter : Char := Char.ofNat 0x10ffff

/-- `str.rstrip("/")`. -/
def stripSlashes (path : String) : String := String.ofList (path.toList.rdropWhile (· == '/'))

def FileLabelBinding.live (binding : FileLabelBinding) : Bool :=
  binding.active && !binding.tombstoned

/-- `ORDER BY normalized_path COLLATE BINARY, generation DESC, binding_id`. -/
def treeOrder (binding : FileLabelBinding) : String ×ₗ ℕᵒᵈ ×ₗ String :=
  toLex (binding.normalizedPath, toLex (OrderDual.toDual binding.generation, binding.bindingId))

/-- The clauses of the query that do not depend on the page. -/
def inTree (selected : String) (binding : FileLabelBinding) : Bool :=
  let path := binding.normalizedPath
  binding.live && path != ".git" && !like none ".git/%" path &&
    (selected == "" || selected == "." ||
      (decide (selected ≤ path) && decide (path < selected.push lastCharacter) &&
        (path == selected ||
          like (some '!') (String.ofList (escapedPrefix (selected ++ "/").toList ++ ['%'])) path)))

namespace FileLabelRows

def treePage (rows : FileLabelRows) (selected : String) (batchSize : Nat) (lastPath : Option String) :
    List FileLabelBinding :=
  let found := rows.filter fun binding =>
    inTree selected binding && lastPath.all fun last => decide (last < binding.normalizedPath)
  (found.insertionSort fun left right => treeOrder left ≤ treeOrder right).take batchSize

/-- `list_file_label_bindings_for_tree`, for at most so many pages. -/
def listFileLabelBindingsForTree (rows : FileLabelRows) (normalizedPath : String)
    (batchSize fuel : Nat) : Option (List FileLabelBinding) :=
  collect (·.normalizedPath) (rows.treePage (stripSlashes normalizedPath) batchSize) batchSize fuel
    none

end FileLabelRows

/-! ## `LIKE` on an escaped start -/

theorem likeTokens_letter {escape : Option Char} {c : Char} (plain : escape ≠ some c)
    (literal : c ≠ '%' ∧ c ≠ '_') (rest : List Char) :
    likeTokens escape (c :: rest) = .letter c :: likeTokens escape rest := by
  cases rest with
  | nil => simp [likeTokens, plain, literal]
  | cons d rest => rw [likeTokens, if_neg plain, if_neg literal.1, if_neg literal.2]

theorem escapedPrefix_cons (c : Char) (text : List Char) :
    escapedPrefix (c :: text) =
      (if c = '!' ∨ c = '%' ∨ c = '_' then ['!', c] else [c]) ++ escapedPrefix text := by
  by_cases bang : c = '!'
  · subst bang
    rfl
  · by_cases percent : c = '%'
    · subst percent
      rfl
    · by_cases underscore : c = '_'
      · subst underscore
        rfl
      · simp [escapedPrefix, escaped, bang, percent, underscore]

theorem likeTokens_escapedPrefix (text : List Char) :
    likeTokens (some '!') (escapedPrefix text ++ ['%']) =
      text.map LikeToken.letter ++ [.anything] := by
  induction text with
  | nil => rfl
  | cons c text ih =>
      rw [escapedPrefix_cons, List.map_cons, List.cons_append, ← ih]
      split
      · rw [List.append_assoc, List.cons_append, List.cons_append, List.nil_append, likeTokens,
          if_pos rfl]
      · rename_i literal
        rw [not_or, not_or] at literal
        exact likeTokens_letter (fun same => literal.1 (Option.some.inj same).symm) literal.2 _

theorem likeMatches_start (start text : List Char) :
    likeMatches (start.map LikeToken.letter ++ [.anything]) text = true ↔ Begins start text := by
  induction start generalizing text with
  | nil =>
      have all : likeMatches [.anything] text = true := by
        rw [likeMatches, List.any_eq_true]
        exact ⟨[], (List.mem_tails [] text).mpr List.nil_suffix, rfl⟩
      exact ⟨fun _ => List.nil_prefix, fun _ => all⟩
  | cons c start ih =>
      rw [List.map_cons, List.cons_append, Begins, List.map_cons]
      cases text with
      | nil => simp [likeMatches]
      | cons x text =>
          rw [likeMatches, Bool.and_eq_true, beq_iff_eq, ih, List.map_cons, List.cons_prefix_cons]
          rfl

theorem like_escaped (selected path : String) :
    like (some '!') (String.ofList (escapedPrefix selected.toList ++ ['%'])) path = true ↔
      Begins selected.toList path.toList := by
  rw [like, String.toList_ofList, likeTokens_escapedPrefix, likeMatches_start]

theorem like_git (path : String) :
    like none ".git/%" path = true ↔ Begins ".git/".toList path.toList := by
  have tokens : likeTokens none ".git/%".toList =
      ".git/".toList.map LikeToken.letter ++ [.anything] := by
    rfl
  rw [like, tokens, likeMatches_start]

/-! ## The range of a tree -/

theorem prefix_of_range {start text : List Char} (low : ¬ text < start)
    (high : text < start ++ [lastCharacter]) : start <+: text := by
  induction start generalizing text with
  | nil => exact List.nil_prefix
  | cons a start ih =>
      cases text with
      | nil => exact absurd (List.nil_lt_cons a start) low
      | cons b text =>
          rw [List.cons_lt_cons_iff, not_or, not_and] at low
          rw [List.cons_append, List.cons_lt_cons_iff] at high
          rcases high with less | ⟨rfl, high⟩
          · exact absurd less low.1
          · exact List.cons_prefix_cons.mpr ⟨rfl, ih (low.2 rfl) high⟩

/-- What follows the start comes after it, and before it with the last of all characters if it
begins with less. -/
theorem range_of_rest {rest : List Char} (start : List Char) (less : rest < [lastCharacter]) :
    ¬ start ++ rest < start ∧ start ++ rest < start ++ [lastCharacter] := by
  induction start with
  | nil => exact ⟨List.not_lt_nil rest, less⟩
  | cons a start ih =>
      rw [List.cons_append, List.cons_append, List.cons_lt_cons_iff, List.cons_lt_cons_iff]
      refine ⟨?_, .inr ⟨rfl, ih.2⟩⟩
      rintro (smaller | ⟨_, smaller⟩)
      · exact lt_irrefl a smaller
      · exact ih.1 smaller

theorem slash_of_toLower {c : Char} (same : c.toLower = '/') : c = '/' := by
  by_cases upper : c.val ≥ 'A'.val ∧ c.val ≤ 'Z'.val
  · have low : 65 ≤ c.val.toNat := upper.1
    have high : c.val.toNat ≤ 90 := upper.2
    have raised : c.toLower.val = c.val + ('a'.val - 'A'.val) := congrArg Char.val (dif_pos upper)
    have value : (c.val.toNat + 32) % 2 ^ 32 = 47 :=
      congrArg UInt32.toNat (raised.symm.trans (congrArg Char.val same))
    omega
  · have kept : c.toLower = c := dif_neg upper
    exact kept.symm.trans same

/-- In the range of a tree, beginning with its prefix up to case is beginning with it. -/
theorem begins_in_range {start text : List Char} (within : start <+: text) :
    Begins (start ++ ['/']) text ↔ start ++ ['/'] <+: text := by
  obtain ⟨rest, rfl⟩ := within
  rw [Begins, List.map_append, List.map_append, List.prefix_append_right_inj,
    List.prefix_append_right_inj]
  cases rest with
  | nil => simp
  | cons c rest =>
      rw [List.map_cons, List.map_nil, List.map_cons, List.cons_prefix_cons, List.cons_prefix_cons]
      refine and_congr ⟨fun same => (slash_of_toLower same.symm).symm, fun same => ?_⟩
        ⟨fun _ => List.nil_prefix, fun _ => List.nil_prefix⟩
      rw [← same]

theorem slash_lt_lastCharacter : '/' < lastCharacter := by
  rw [lastCharacter]
  decide

theorem selects_iff (selected path : String) :
    (decide (selected ≤ path) && decide (path < selected.push lastCharacter) &&
      (path == selected ||
        like (some '!') (String.ofList (escapedPrefix (selected ++ "/").toList ++ ['%'])) path)) =
        true ↔
      path = selected ∨ selected.toList ++ ['/'] <+: path.toList := by
  have below : (selected ++ "/").toList = selected.toList ++ ['/'] := String.toList_append
  rw [Bool.and_eq_true, Bool.and_eq_true, decide_eq_true_iff, decide_eq_true_iff, ← String.not_lt,
    String.lt_iff_toList_lt, String.lt_iff_toList_lt, String.toList_push, Bool.or_eq_true,
    beq_iff_eq, like_escaped, below]
  constructor
  · rintro ⟨⟨low, high⟩, same | begins⟩
    · exact .inl same
    · exact .inr ((begins_in_range (prefix_of_range low high)).mp begins)
  · rintro (rfl | ⟨rest, shape⟩)
    · have whole := range_of_rest path.toList (List.nil_lt_cons lastCharacter [])
      rw [List.append_nil] at whole
      exact ⟨whole, .inl rfl⟩
    · have less : '/' :: rest < [lastCharacter] :=
        List.cons_lt_cons_iff.mpr (.inl slash_lt_lastCharacter)
      have whole := range_of_rest selected.toList less
      rw [← shape]
      refine ⟨?_, .inr ?_⟩
      · rw [List.append_assoc]
        exact whole
      · rw [List.append_assoc]
        exact (begins_in_range (List.prefix_append _ _)).mpr ⟨rest, List.append_assoc _ _ _⟩

theorem inTree_iff (selected : String) (binding : FileLabelBinding) :
    inTree selected binding = true ↔
      binding.live = true ∧ binding.normalizedPath ≠ ".git" ∧
        ¬ Begins ".git/".toList binding.normalizedPath.toList ∧
        InTree selected binding.normalizedPath := by
  have git : (!like none ".git/%" binding.normalizedPath) = true ↔
      ¬ Begins ".git/".toList binding.normalizedPath.toList := by
    rw [Bool.not_eq_true', ← Bool.not_eq_true, like_git]
  rw [inTree, Bool.and_eq_true, Bool.and_eq_true, Bool.and_eq_true, bne_iff_ne, git,
    Bool.or_eq_true, selects_iff, Bool.or_eq_true, beq_iff_eq, beq_iff_eq, InTree, or_assoc,
    and_assoc, and_assoc]

end AgentLibOS.DataFlow
