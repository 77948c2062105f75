import AgentLibOS.DataFlow.TreeQuery

namespace AgentLibOS.DataFlow
open Library.Pages

inductive TreeError
  | invalidBinding (bindingId : String)
  deriving DecidableEq, Repr

def externalFileLabels : DataLabels where
  sensitivity := .normal
  trustLevel := .untrusted
  integrity := .untrusted
  origin := some "external-filesystem"
  tenant := none
  principal := none
  declassificationAuthority := none
  originValid := rfl
  tenantValid := DataLabels.default.tenantValid
  principalValid := DataLabels.default.principalValid
  authorityValid := DataLabels.default.authorityValid

def externalFileContext : DataFlowContext := .of externalFileLabels [] none

namespace FileLabelBinding

/-- The source reference of a binding whose content is hashed. -/
def sourceRef (binding : FileLabelBinding) (contentSha256 : String) : DataSourceRef :=
  ⟨"file_binding:" ++ binding.bindingId, binding.generation, contentSha256⟩

/-- `_file_binding_context`. -/
def fileBindingContext (binding : FileLabelBinding) : Except TreeError DataFlowContext :=
  match binding.contentSha256 with
  | none => .error (.invalidBinding binding.bindingId)
  | some contentSha256 =>
      if binding.tombstoned || !binding.active then .error (.invalidBinding binding.bindingId)
      else .ok (.of binding.labels [binding.sourceRef contentSha256] none)

end FileLabelBinding

/-- What a deletion of a tree settles: the bindings are kept by path. -/
structure TreeSnapshot where
  context : DataFlowContext
  stateVersion : String
  bindings : String → Option (String × Nat)

/-- `_file_tree_state_version`; the digest of the bindings is a parameter. -/
def fileTreeStateVersion (digest : List (String × String × Nat × Option String) → String)
    (bindings : List FileLabelBinding) : String :=
  digest (bindings.map fun binding =>
    (binding.normalizedPath, binding.bindingId, binding.generation, binding.contentSha256))

/-- `file_tree_deletion_snapshot` of the listed bindings; the last one of a path is kept. -/
def treeSnapshot (digest : List (String × String × Nat × Option String) → String)
    (selected : String) (bindings : List FileLabelBinding) : Except TreeError TreeSnapshot := do
  let contexts ← bindings.mapM FileLabelBinding.fileBindingContext
  let outside := if bindings.any (·.normalizedPath == selected) then [] else [externalFileContext]
  return {
    context := .aggregate (contexts ++ outside)
    stateVersion := fileTreeStateVersion digest bindings
    bindings := fun path => (bindings.reverse.find? (·.normalizedPath == path)).map fun binding =>
      (binding.bindingId, binding.generation) }

/-- `file_tree_deletion_snapshot`, for a listing of at most so many pages. -/
def FileLabelRows.fileTreeDeletionSnapshot
    (digest : List (String × String × Nat × Option String) → String) (rows : FileLabelRows)
    (normalizedPath : String) (batchSize fuel : Nat) : Option (Except TreeError TreeSnapshot) :=
  let selected := stripSlashes normalizedPath
  (rows.listFileLabelBindingsForTree selected batchSize fuel).map (treeSnapshot digest selected)

/-! ## Listing -/

section
variable {rows : FileLabelRows}

/-- A path has at most one active row. -/
def FileLabelRows.UniqueActive (rows : FileLabelRows) : Prop :=
  ((rows.filter (·.active)).map (·.normalizedPath)).Nodup

instance (rows : FileLabelRows) : Decidable rows.UniqueActive :=
  inferInstanceAs (Decidable (List.Nodup _))

theorem path_le_of_treeOrder {left right : FileLabelBinding}
    (ordered : treeOrder left ≤ treeOrder right) : left.normalizedPath ≤ right.normalizedPath := by
  rcases Prod.Lex.le_iff.mp ordered with less | ⟨same, _⟩
  · exact le_of_lt less
  · exact le_of_eq same

theorem inTree_paths_nodup (unique : rows.UniqueActive) (selected : String) :
    ((rows.filter (inTree selected)).map (·.normalizedPath)).Nodup := by
  refine List.Nodup.sublist (List.Sublist.map _ ?_) unique
  refine List.monotone_filter_right rows fun binding inside => ?_
  have live := ((inTree_iff selected binding).mp inside).1
  rw [FileLabelBinding.live, Bool.and_eq_true] at live
  exact live.1

/-- The bindings of the tree in the order of the query. -/
def treeBindings (rows : FileLabelRows) (selected : String) : List FileLabelBinding :=
  (rows.filter (inTree selected)).insertionSort fun left right => treeOrder left ≤ treeOrder right

theorem mem_treeBindings {selected : String} {binding : FileLabelBinding} :
    binding ∈ treeBindings rows selected ↔ binding ∈ rows ∧ inTree selected binding = true := by
  rw [treeBindings, List.mem_insertionSort, List.mem_filter]

theorem treeBindings_sorted (unique : rows.UniqueActive) (selected : String) :
    (treeBindings rows selected).Pairwise fun left right =>
      left.normalizedPath < right.normalizedPath := by
  have ordered := List.pairwise_insertionSort
    (fun left right : FileLabelBinding => treeOrder left ≤ treeOrder right)
    (rows.filter (inTree selected))
  have distinct := ((List.perm_insertionSort
    (fun left right : FileLabelBinding => treeOrder left ≤ treeOrder right)
    (rows.filter (inTree selected))).map (·.normalizedPath)).nodup_iff.mpr
      (inTree_paths_nodup unique selected)
  rw [List.Nodup, List.pairwise_map] at distinct
  exact (ordered.and distinct).imp fun both =>
    lt_of_le_of_ne (path_le_of_treeOrder both.1) both.2

theorem treePage_eq (unique : rows.UniqueActive) (selected : String) (batchSize : Nat)
    (after : Option String) :
    rows.treePage selected batchSize after =
      ((treeBindings rows selected).filter fun binding =>
        beyond after binding.normalizedPath).take batchSize := by
  rw [FileLabelRows.treePage]
  congr 1
  let le : FileLabelBinding → FileLabelBinding → Prop :=
    fun left right => treeOrder left ≤ treeOrder right
  have found : (rows.filter fun binding =>
      inTree selected binding && after.all fun last => decide (last < binding.normalizedPath)) =
      (rows.filter (inTree selected)).filter fun binding => beyond after binding.normalizedPath := by
    rw [List.filter_filter]
    exact List.filter_congr fun binding _ => Bool.and_comm _ _
  have filtered := (List.perm_insertionSort le (rows.filter (inTree selected))).filter fun binding =>
    beyond after binding.normalizedPath
  rw [found]
  refine List.Perm.eq_of_pairwise ?_ (List.pairwise_insertionSort le _)
    ((List.pairwise_insertionSort le _).filter _)
    ((List.perm_insertionSort le _).trans filtered.symm)
  intro left right listed inside forth back
  have first := (List.mem_filter.mp ((List.mem_insertionSort _).mp listed)).1
  have second := (List.mem_insertionSort _).mp (List.mem_filter.mp inside).1
  exact List.inj_on_of_nodup_map (inTree_paths_nodup unique selected) first second
    (le_antisymm (path_le_of_treeOrder forth) (path_le_of_treeOrder back))

/-- The pages of the query are the bindings of the tree. -/
theorem listFileLabelBindingsForTree_eq (unique : rows.UniqueActive) (path : String)
    {batchSize fuel : Nat} (positive : 0 < batchSize) (enough : rows.length < fuel) :
    rows.listFileLabelBindingsForTree path batchSize fuel =
      some (treeBindings rows (stripSlashes path)) := by
  have few : (treeBindings rows (stripSlashes path)).length ≤ rows.length := by
    rw [treeBindings, List.length_insertionSort]
    exact List.length_filter_le _ _
  have all : ((treeBindings rows (stripSlashes path)).filter fun binding =>
      beyond none binding.normalizedPath) = treeBindings rows (stripSlashes path) :=
    List.filter_eq_self.mpr fun _ _ => rfl
  rw [FileLabelRows.listFileLabelBindingsForTree,
    collect_eq (treeBindings_sorted unique _) positive (treePage_eq unique _ batchSize)
      (by rw [all]; omega), all]

/-! ## Snapshot -/

/-- What the snapshot keeps of a binding. -/
def TreeSnapshot.Keeps (snapshot : TreeSnapshot) (binding : FileLabelBinding) : Prop :=
  binding.labels.Conservative snapshot.context.labels ∧
    (∀ contentSha256 ∈ binding.contentSha256,
      binding.sourceRef contentSha256 ∈ snapshot.context.sourceRefs) ∧
    snapshot.bindings binding.normalizedPath = some (binding.bindingId, binding.generation)

theorem fileBindingContext_live {binding : FileLabelBinding} (live : binding.live = true) :
    ∃ contentSha256, binding.contentSha256 = some contentSha256 ∧
      binding.fileBindingContext =
        .ok (.of binding.labels [binding.sourceRef contentSha256] none) := by
  rw [FileLabelBinding.live, Bool.and_eq_true, Bool.not_eq_true'] at live
  have hashed := binding.hashed
  rw [live.2] at hashed
  obtain ⟨contentSha256, content⟩ := Option.isSome_iff_exists.mp hashed
  refine ⟨contentSha256, content, ?_⟩
  rw [FileLabelBinding.fileBindingContext, content]
  simp [live]

/-- The contexts of live bindings, in their order. -/
theorem fileBindingContexts_live {bindings : List FileLabelBinding}
    (live : ∀ binding ∈ bindings, binding.live = true) :
    ∃ contexts, bindings.mapM FileLabelBinding.fileBindingContext = .ok contexts ∧
      ∀ binding ∈ bindings, ∃ context ∈ contexts, binding.fileBindingContext = .ok context := by
  induction bindings with
  | nil => exact ⟨[], rfl, by simp⟩
  | cons binding bindings ih =>
      obtain ⟨contexts, rest, found⟩ := ih fun other listed => live other (.tail _ listed)
      obtain ⟨contentSha256, _, context⟩ := fileBindingContext_live (live binding (.head _))
      refine ⟨.of binding.labels [binding.sourceRef contentSha256] none :: contexts, ?_, ?_⟩
      · rw [List.mapM_cons, context, rest]
        rfl
      · intro other listed
        rcases List.mem_cons.mp listed with rfl | later
        · exact ⟨_, .head _, context⟩
        · obtain ⟨kept, inside, same⟩ := found other later
          exact ⟨kept, .tail _ inside, same⟩

/-- The binding of a path is found among bindings with distinct paths. -/
theorem find_path {bindings : List FileLabelBinding}
    (distinct : (bindings.map (·.normalizedPath)).Nodup) {binding : FileLabelBinding}
    (listed : binding ∈ bindings) :
    bindings.reverse.find? (·.normalizedPath == binding.normalizedPath) = some binding := by
  cases found : bindings.reverse.find? (·.normalizedPath == binding.normalizedPath) with
  | none =>
      have absent := List.find?_eq_none.mp found binding (List.mem_reverse.mpr listed)
      simp at absent
  | some other =>
      have same : other.normalizedPath = binding.normalizedPath := by
        simpa using List.find?_some found
      have inside := List.mem_reverse.mp (List.mem_of_find?_eq_some found)
      rw [List.inj_on_of_nodup_map distinct inside listed same]

variable (digest : List (String × String × Nat × Option String) → String)

/-- A snapshot of live bindings keeps each of them. -/
theorem treeSnapshot_keeps (selected : String) {bindings : List FileLabelBinding}
    (distinct : (bindings.map (·.normalizedPath)).Nodup)
    (live : ∀ binding ∈ bindings, binding.live = true) :
    ∃ snapshot, treeSnapshot digest selected bindings = .ok snapshot ∧
      ∀ binding ∈ bindings, snapshot.Keeps binding := by
  obtain ⟨contexts, all, found⟩ := fileBindingContexts_live live
  refine ⟨_, by rw [treeSnapshot, all]; rfl, ?_⟩
  intro binding listed
  obtain ⟨context, inside, own⟩ := found binding listed
  obtain ⟨contentSha256, content, same⟩ := fileBindingContext_live (live binding listed)
  rw [same] at own
  have member := Except.ok.inj own ▸ List.mem_append_left
    (if bindings.any (·.normalizedPath == selected) then [] else [externalFileContext]) inside
  refine ⟨?_, ?_, ?_⟩
  · exact DataLabels.aggregate_conservative (List.mem_map_of_mem member)
  · intro sha256 hashed
    rw [content] at hashed
    rw [← Option.mem_some.mp hashed]
    refine mem_aggregate_sourceRefs.mpr ⟨_, member, ?_⟩
    exact mem_normalizeSourceRefs.mpr (List.mem_singleton_self _)
  · show Option.map _ (bindings.reverse.find? _) = _
    rw [find_path distinct listed]
    rfl

/-! ## Exact collection -/

/-- The live bindings of the tree outside of the repository's own directory. -/
def Collected (rows : FileLabelRows) (selected : String) (binding : FileLabelBinding) : Prop :=
  binding ∈ rows ∧ binding.live = true ∧ InTree selected binding.normalizedPath ∧
    ¬ IsGit binding.normalizedPath

/-- The listing returns each collected binding once, and the snapshot keeps it. -/
def TreeExact (rows : FileLabelRows) (path : String) (batchSize : Nat) : Prop :=
  (∃ found, (∀ fuel, rows.length < fuel →
      rows.listFileLabelBindingsForTree path batchSize fuel = some found) ∧
    found.Nodup ∧ ∀ binding, binding ∈ found ↔ Collected rows (stripSlashes path) binding) ∧
  ∃ snapshot, (∀ fuel, rows.length < fuel →
      rows.fileTreeDeletionSnapshot digest path batchSize fuel = some (.ok snapshot)) ∧
    ∀ binding, Collected rows (stripSlashes path) binding → snapshot.Keeps binding

theorem stripSlashes_idem (path : String) : stripSlashes (stripSlashes path) = stripSlashes path := by
  rw [stripSlashes, stripSlashes, String.toList_ofList, List.rdropWhile_idempotent]

/-- Subtree label collection is exact when no live path of the tree begins with `.git/` only up
to case. -/
theorem tree_collection_exact_iff (unique : rows.UniqueActive) (path : String) {batchSize : Nat}
    (positive : 0 < batchSize) :
    TreeExact digest rows path batchSize ↔
      ∀ binding ∈ rows, binding.live = true →
        InTree (stripSlashes path) binding.normalizedPath →
        Begins ".git/".toList binding.normalizedPath.toList →
        ".git/".toList <+: binding.normalizedPath.toList := by
  have listing : ∀ fuel, rows.length < fuel →
      rows.listFileLabelBindingsForTree path batchSize fuel =
        some (treeBindings rows (stripSlashes path)) :=
    fun fuel enough => listFileLabelBindingsForTree_eq unique path positive enough
  constructor
  · rintro ⟨⟨found, returned, _, exactly⟩, _⟩ binding stored live within begins
    by_contra outside
    have same := Option.some.inj ((returned _ (Nat.lt_succ_self _)).symm.trans
      (listing _ (Nat.lt_succ_self _)))
    have notGit : ¬ IsGit binding.normalizedPath := by
      rintro (named | inside)
      · rw [named] at begins
        exact absurd begins (by decide)
      · exact outside inside
    have member := (exactly binding).mpr ⟨stored, live, within, notGit⟩
    rw [same] at member
    exact ((inTree_iff _ binding).mp (mem_treeBindings.mp member).2).2.2.1 begins
  · intro exactCase
    have member (binding : FileLabelBinding) :
        binding ∈ treeBindings rows (stripSlashes path) ↔
          Collected rows (stripSlashes path) binding := by
      rw [mem_treeBindings, inTree_iff, Collected, IsGit, not_or]
      constructor
      · rintro ⟨stored, live, name, begins, within⟩
        exact ⟨stored, live, within, name, fun inside => begins (inside.map _)⟩
      · rintro ⟨stored, live, within, name, outside⟩
        exact ⟨stored, live, name,
          fun begins => outside (exactCase binding stored live within begins), within⟩
    have sorted := treeBindings_sorted unique (stripSlashes path)
    have distinct : ((treeBindings rows (stripSlashes path)).map (·.normalizedPath)).Nodup :=
      List.pairwise_map.mpr (sorted.imp ne_of_lt)
    obtain ⟨snapshot, taken, kept⟩ := treeSnapshot_keeps digest (stripSlashes path) distinct
      fun binding listed => ((member binding).mp listed).2.1
    refine ⟨⟨_, listing, distinct.of_map _, member⟩, snapshot, ?_, ?_⟩
    · intro fuel enough
      rw [FileLabelRows.fileTreeDeletionSnapshot,
        listFileLabelBindingsForTree_eq unique _ positive enough, stripSlashes_idem, Option.map_some,
        taken]
    · exact fun binding collected => kept binding ((member binding).mpr collected)

/-- A live binding of a file that is labelled as it came from outside. -/
def externalBinding (bindingId normalizedPath : String) : FileLabelBinding where
  bindingId := bindingId
  normalizedPath := normalizedPath
  contentSha256 := some "content"
  labels := externalFileLabels
  sourceRefs := []
  generation := 1
  tombstoned := false
  active := true
  positive := le_rfl
  hashed := rfl

theorem tree_collection_exact_sources :
    TreeExact (fun _ => "version")
      [externalBinding "first" "src/100%_done!", externalBinding "second" "SRC/a",
        externalBinding "third" "src/b", externalBinding "fourth" ".git/config"] "src/" 1 :=
  (tree_collection_exact_iff (fun _ => "version") (by decide) "src/" (by decide)).mpr (by decide)

/-- The label of a file below a directory `.GIT` is not collected. -/
theorem tree_collection_omits_upper_case :
    (FileLabelRows.UniqueActive [externalBinding "upper" ".GIT/config"]) ∧
      ¬ TreeExact (fun _ => "version") [externalBinding "upper" ".GIT/config"] "." 1000 := by
  refine ⟨by decide, ?_⟩
  rintro ⟨⟨found, returned, _, exactly⟩, _⟩
  have none : (FileLabelRows.listFileLabelBindingsForTree
      [externalBinding "upper" ".GIT/config"] "." 1000 2).map (·.length) = some 0 := by
    decide +kernel
  rw [returned 2 (by decide)] at none
  have nothing := List.eq_nil_of_length_eq_zero (Option.some.inj none)
  have member := (exactly (externalBinding "upper" ".GIT/config")).mpr
    ⟨List.mem_singleton_self _, rfl, .inr (.inl (by decide)), by
      rintro (named | inside)
      · exact absurd named (by decide)
      · exact absurd inside (by decide)⟩
  rw [nothing] at member
  cases member

end

end AgentLibOS.DataFlow
