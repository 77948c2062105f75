import AgentLibOS.Semantic.Lineage

namespace AgentLibOS.Semantic
open Library CycleCheck

/-! ## Pages -/

section Pages
variable {ρ : Type} {cursor : ρ → SemanticV6Cursor} {rows : List ρ}
  {after : Option SemanticV6Cursor} {limit : Nat}

/-- The rows that a query has yet to return, in the order it returns them. -/
def remaining (cursor : ρ → SemanticV6Cursor) (rows : List ρ) (after : Option SemanticV6Cursor) :
    List ρ :=
  (rows.filter fun row => beyond after (cursor row)).insertionSort
    fun left right => cursor left ≤ cursor right

theorem mem_remaining {row : ρ} :
    row ∈ remaining cursor rows after ↔ row ∈ rows ∧ beyond after (cursor row) = true := by
  rw [remaining, List.mem_insertionSort, List.mem_filter]

theorem length_remaining : (remaining cursor rows after).length =
    (rows.filter fun row => beyond after (cursor row)).length :=
  List.length_insertionSort _ _

theorem queryPage_records :
    (queryPage cursor rows after limit).records = (remaining cursor rows after).take limit := by
  change ((remaining cursor rows after).take (limit + 1)).take limit = _
  rw [List.take_take, Nat.min_eq_left (Nat.le_succ limit)]

theorem queryPage_next : (queryPage cursor rows after limit).nextCursor =
    if limit < (remaining cursor rows after).length then
      ((remaining cursor rows after).take limit).getLast?.map cursor else none := by
  change (if limit < ((remaining cursor rows after).take (limit + 1)).length then
    (((remaining cursor rows after).take (limit + 1)).take limit).getLast?.map cursor else none) = _
  rw [List.take_take, Nat.min_eq_left (Nat.le_succ limit), List.length_take]
  refine if_congr ?_ rfl rfl
  omega

/-- The last page returns all that is left. -/
theorem queryPage_last (last : (queryPage cursor rows after limit).nextCursor = none)
    (positive : 0 < limit) {row : ρ} : row ∈ (queryPage cursor rows after limit).records ↔
      row ∈ rows ∧ beyond after (cursor row) = true := by
  rw [queryPage_next] at last
  have short : (remaining cursor rows after).length ≤ limit := by
    by_contra long
    rw [if_pos (not_le.mp long), Option.map_eq_none_iff, List.getLast?_eq_none_iff,
      List.take_eq_nil_iff] at last
    rcases last with none_ | none_
    · omega
    · rw [none_] at long
      exact long (Nat.zero_le limit)
  rw [queryPage_records, List.take_of_length_le short, mem_remaining]

theorem remaining_sorted (nodup : (rows.map cursor).Nodup) :
    (remaining cursor rows after).Pairwise fun left right => cursor left < cursor right := by
  have sorted : (remaining cursor rows after).Pairwise fun left right =>
      cursor left ≤ cursor right := by
    have total : Std.Total fun left right : ρ => cursor left ≤ cursor right :=
      ⟨fun left right => le_total (cursor left) (cursor right)⟩
    have trans : IsTrans ρ fun left right => cursor left ≤ cursor right :=
      ⟨fun _ _ _ first second => le_trans first second⟩
    exact List.pairwise_insertionSort _ _
  have distinct : (remaining cursor rows after).Pairwise fun left right =>
      cursor left ≠ cursor right := by
    have kept : ((rows.filter fun row => beyond after (cursor row)).map cursor).Nodup :=
      nodup.sublist (List.filter_sublist.map cursor)
    have perm := (List.perm_insertionSort (fun left right : ρ => cursor left ≤ cursor right)
      (rows.filter fun row => beyond after (cursor row))).map cursor
    exact List.pairwise_map.mp (perm.nodup_iff.mpr kept)
  exact (sorted.and distinct).imp fun both => lt_of_le_of_ne both.1 both.2

/-- A page that is not the last returns some rows and leaves exactly those beyond its cursor. -/
theorem queryPage_more {next : SemanticV6Cursor} (nodup : (rows.map cursor).Nodup)
    (more : (queryPage cursor rows after limit).nextCursor = some next) :
    (∀ row, row ∈ rows ∧ beyond after (cursor row) = true ↔
      row ∈ (queryPage cursor rows after limit).records ∨
        row ∈ rows ∧ beyond (some next) (cursor row) = true) ∧
    (remaining cursor rows (some next)).length < (remaining cursor rows after).length := by
  rw [queryPage_next] at more
  split_ifs at more with long
  obtain ⟨last, found, rfl⟩ := Option.map_eq_some_iff.mp more
  obtain ⟨front, shape⟩ := List.getLast?_eq_some_iff.mp found
  have sorted : (remaining cursor rows after).Pairwise _ := remaining_sorted nodup
  have whole := List.take_append_drop limit (remaining cursor rows after)
  rw [← whole, List.pairwise_append] at sorted
  have inside : last ∈ (remaining cursor rows after).take limit := by
    rw [shape]
    exact List.mem_append_right front (List.mem_singleton_self last)
  have early : ∀ row ∈ (remaining cursor rows after).take limit, ¬ cursor last < cursor row := by
    intro row listed
    rw [shape] at listed sorted
    rcases List.mem_append.mp listed with before | here
    · have := (List.pairwise_append.mp sorted.1).2.2 row before last (List.mem_singleton_self last)
      exact this.not_gt
    · rw [List.mem_singleton.mp here]
      exact lt_irrefl _
  have late : ∀ row ∈ (remaining cursor rows after).drop limit, cursor last < cursor row :=
    fun row listed => sorted.2.2 last inside row listed
  have moved : ∀ row, row ∈ rows ∧ beyond (some (cursor last)) (cursor row) = true →
      row ∈ rows ∧ beyond after (cursor row) = true := by
    rintro row ⟨listed, further⟩
    refine ⟨listed, ?_⟩
    have start := (mem_remaining.mp (List.mem_of_mem_take inside)).2
    cases after with
    | none => rfl
    | some start' =>
        simp only [beyond, decide_eq_true_eq] at start further ⊢
        exact start.trans further
  constructor
  · intro row
    constructor
    · intro left
      have listed := mem_remaining.mpr left
      rw [← whole, List.mem_append] at listed
      rcases listed with taken | dropped
      · exact Or.inl (queryPage_records ▸ taken)
      · exact Or.inr ⟨left.1, decide_eq_true (late row dropped)⟩
    · rintro (taken | further)
      · rw [queryPage_records] at taken
        exact mem_remaining.mp (List.mem_of_mem_take taken)
      · exact moved row further
  · have subset : (remaining cursor rows (some (cursor last))).Subperm
        ((remaining cursor rows after).drop limit) := by
      refine List.subperm_of_subset ?_ fun row listed => ?_
      · exact (remaining_sorted nodup).imp fun less same => less.ne (congrArg cursor same)
      · have further := mem_remaining.mp listed
        have listed' := mem_remaining.mpr (moved row further)
        rw [← whole, List.mem_append] at listed'
        refine listed'.resolve_left fun taken => early row taken ?_
        simpa [beyond] using further.2
    have bound := subset.length_le
    have positive : 0 < ((remaining cursor rows after).take limit).length :=
      List.length_pos_of_mem inside
    have total := congrArg List.length whole
    rw [List.length_append] at total
    omega

end Pages

namespace SemanticFlowGraph
variable {graph : SemanticFlowGraph}

/-- The edges that a traversal in the process can follow. -/
def InScope (pid : Option Identifier) (edge : SemanticFlowEdgeRecord) : Prop :=
  ∀ selected, pid = some selected → edge.pid = selected

theorem mem_edgesAt {pid : Option Identifier} {nodeId : Identifier}
    {edge : SemanticFlowEdgeRecord} : edge ∈ graph.edgesAt pid nodeId ↔
      edge ∈ graph.edges ∧ InScope pid edge ∧
        (edge.source.nodeId = nodeId ∨ edge.target.nodeId = nodeId) := by
  unfold edgesAt InScope
  cases pid <;> simp

theorem WellFormed.edgeCursors (wellFormed : graph.WellFormed) (pid : Option Identifier)
    (nodeId : Identifier) : ((graph.edgesAt pid nodeId).map (·.cursor)).Nodup := by
  have ids : ((graph.edgesAt pid nodeId).map (·.edgeId)).Nodup :=
    wellFormed.edgeIds.sublist (List.filter_sublist.map _)
  refine List.pairwise_map.mpr ((List.pairwise_map.mp ids).imp fun differ same => differ ?_)
  have parts := congrArg (fun c : SemanticV6Cursor => (ofLex c).2) same
  exact Subtype.ext parts

theorem mem_iterPages (wellFormed : graph.WellFormed) {pid : Option Identifier}
    {nodeId : Identifier} (fuel : Nat) (after : Option SemanticV6Cursor)
    (enough : (remaining (·.cursor) (graph.edgesAt pid nodeId) after).length < fuel)
    {edge : SemanticFlowEdgeRecord} : edge ∈ graph.iterPages pid nodeId fuel after ↔
      edge ∈ graph.edgesAt pid nodeId ∧ beyond after edge.cursor = true := by
  induction fuel generalizing after with
  | zero => exact absurd enough (Nat.not_lt_zero _)
  | succ fuel ih =>
      cases more : (graph.querySemanticFlowEdges after semanticV6QueryHardLimit pid
          nodeId).nextCursor with
      | none =>
          simp only [iterPages, more]
          exact queryPage_last more (by decide)
      | some next =>
          obtain ⟨exact_, fewer⟩ := queryPage_more (wellFormed.edgeCursors pid nodeId) more
          simp only [iterPages, more]
          rw [List.mem_append, ih (some next) (by omega), exact_ edge]
          rfl

/-- The pages together return every edge at the node. -/
theorem mem_iterLineageEdges (wellFormed : graph.WellFormed) {pid : Option Identifier}
    {nodeId : Identifier} {edge : SemanticFlowEdgeRecord} :
    edge ∈ graph.iterLineageEdges pid nodeId ↔ edge ∈ graph.edges ∧ InScope pid edge ∧
      (edge.source.nodeId = nodeId ∨ edge.target.nodeId = nodeId) := by
  have enough : (remaining (·.cursor) (graph.edgesAt pid nodeId) none).length <
      graph.edges.length + 1 := by
    rw [length_remaining]
    have inner := List.length_filter_le (fun row => beyond none row.cursor)
      (graph.edgesAt pid nodeId)
    have outer : (graph.edgesAt pid nodeId).length ≤ graph.edges.length :=
      List.length_filter_le _ _
    omega
  rw [iterLineageEdges, mem_iterPages wellFormed _ none enough, ← mem_edgesAt]
  simp [beyond]

/-! ## The traversal against the edges of the graph -/

/-- The relation that the traversal follows: the target is compared by its identifier alone. -/
def Feeds (graph : SemanticFlowGraph) (pid : Option Identifier) (source node : FlowNode) : Prop :=
  ∃ edge ∈ graph.edges, InScope pid edge ∧ edge.source = source ∧
    edge.target.nodeId = node.nodeId

def Reaches (graph : SemanticFlowGraph) (root : LineageRoot) (node : FlowNode) : Prop :=
  Relation.ReflTransGen (graph.Feeds root.pid) node root.node

/-- A discovered item stands for an edge at a seen node; its far end is seen too, unless it is
missing or outside the scope. -/
structure Explained (graph : SemanticFlowGraph) (root : LineageRoot) (scan : Scan)
    (item : LineageItem) : Prop where
  stored : item.edge ∈ graph.edges
  nodeType : item.nodeType = item.edge.source.nodeType
  node : item.node = (graph.scopedLineageNode root item.edge.source).1
  far : item.node.isSome → item.edge.source ∈ scan.seenNodes ∧ ∃ near ∈ scan.seenNodes,
    item.edge.target.nodeId = near.nodeId ∧ scan.adjacency.Adjacent near item.edge.source
  lost : item.node = none → scan.missing = true ∨ scan.conflict = true

/-- The invariant of an upstream traversal. The nodes of `visited` have left the frontier, and the
edges into those of `expanded` are discovered. -/
structure Scanned (graph : SemanticFlowGraph) (root : LineageRoot) (visited expanded : List FlowNode)
    (scan : Scan) : Prop where
  root_seen : root.node ∈ scan.seenNodes
  pending : ∀ node ∈ scan.seenNodes, node ∈ visited ∨ ∃ depth, (node, depth) ∈ scan.frontier
  queued : ∀ node depth, (node, depth) ∈ scan.frontier → node ∈ scan.seenNodes
  visited_seen : ∀ node ∈ visited, node ∈ scan.seenNodes
  expanded : scan.truncated = false → ∀ node ∈ expanded, ∀ edge ∈ graph.edges,
    InScope root.pid edge → edge.target.nodeId = node.nodeId → edge.edgeId ∈ scan.seenEdges
  itemOf : ∀ id ∈ scan.seenEdges, ∃ item ∈ scan.discovered, item.edge.edgeId = id
  explained : ∀ item ∈ scan.discovered, graph.Explained root scan item
  listed : ∀ node ∈ scan.seenNodes, node = root.node ∨
    ∃ item ∈ scan.discovered, item.edge.source = node ∧ item.node.isSome
  reached : ∀ node ∈ scan.seenNodes, graph.Reaches root node

/-- What a round of the traversal only adds to. -/
structure Advances (scan next : Scan) : Prop where
  seenNodes : ∀ node ∈ scan.seenNodes, node ∈ next.seenNodes
  seenEdges : ∀ id ∈ scan.seenEdges, id ∈ next.seenEdges
  adjacency : ∀ a b, scan.adjacency.Adjacent a b → next.adjacency.Adjacent a b
  missing : scan.missing = true → next.missing = true
  conflict : scan.conflict = true → next.conflict = true
  truncated : next.truncated = scan.truncated

theorem Advances.refl (scan : Scan) : Advances scan scan :=
  ⟨fun _ h => h, fun _ h => h, fun _ _ h => h, id, id, rfl⟩

theorem Advances.trans {first second third : Scan} (here : Advances first second)
    (there : Advances second third) : Advances first third :=
  ⟨fun n h => there.seenNodes n (here.seenNodes n h),
    fun i h => there.seenEdges i (here.seenEdges i h),
    fun a b h => there.adjacency a b (here.adjacency a b h),
    fun h => there.missing (here.missing h), fun h => there.conflict (here.conflict h),
    there.truncated.trans here.truncated⟩

theorem Explained.advance {root : LineageRoot} {scan next : Scan} {item : LineageItem}
    (explained : graph.Explained root scan item) (advances : Advances scan next) :
    graph.Explained root next item := by
  refine ⟨explained.stored, explained.nodeType, explained.node, fun found => ?_, fun absent => ?_⟩
  · obtain ⟨seen, near, seenNear, same, edge⟩ := explained.far found
    exact ⟨advances.seenNodes _ seen, near, advances.seenNodes _ seenNear, same,
      advances.adjacency _ _ edge⟩
  · exact (explained.lost absent).imp advances.missing advances.conflict

/-- A node that is not found in the scope is missing or in conflict. -/
theorem scopedLineageNode_none {root : LineageRoot} {node : FlowNode}
    (absent : (graph.scopedLineageNode root node).1 = none) :
    (graph.scopedLineageNode root node).2.1 = true ∨
      (graph.scopedLineageNode root node).2.2 = true := by
  unfold scopedLineageNode at absent ⊢
  cases found : graph.getNode node with
  | none => simp
  | some selected =>
      simp only [found] at absent ⊢
      split_ifs at absent ⊢
      exact Or.inr rfl

variable {root : LineageRoot} {visited expanded : List FlowNode} {scan : Scan}
  {selected : FlowNode} {depth : Nat} {edge : SemanticFlowEdgeRecord}

/-- The scan after an edge that has not been seen before. -/
def follow (graph : SemanticFlowGraph) (root : LineageRoot) (selected : FlowNode) (depth : Nat)
    (scan : Scan) (edge : SemanticFlowEdgeRecord) : Scan :=
  if (graph.scopedLineageNode root edge.source).1.isSome then
    (scan.discover graph root selected depth edge edge.source).enqueue edge.source (depth + 1)
  else scan.discover graph root selected depth edge edge.source

/-- An edge is skipped, followed, or ends the traversal as truncated. -/
theorem scanEdge_cases (graph : SemanticFlowGraph) (root : LineageRoot) (selected : FlowNode)
    (depth : Nat) (scan : Scan) (edge : SemanticFlowEdgeRecord) :
    (graph.scanEdge root .upstream selected depth scan edge = .ok scan ∧
      (edge.target.nodeId = selected.nodeId → edge.edgeId ∈ scan.seenEdges)) ∨
    (edge.target.nodeId = selected.nodeId ∧
      (graph.scanEdge root .upstream selected depth scan edge =
          .ok (graph.follow root selected depth scan edge) ∨
        ∃ result, graph.scanEdge root .upstream selected depth scan edge = .error result ∧
          result.traversalTruncated = true)) := by
  unfold scanEdge lineageAdjacent
  by_cases here : edge.target.nodeId = selected.nodeId
  · by_cases old : edge.edgeId ∈ scan.seenEdges
    · refine Or.inl ⟨?_, fun _ => old⟩
      simp [here, old]
    · refine Or.inr ⟨here, ?_⟩
      simp only [here, ne_eq, not_true_eq_false, if_false, old]
      by_cases full : semanticFlowLineageHardLimit ≤
          (scan.discover graph root selected depth edge edge.source).discovered.length
      · rw [if_pos full]
        exact Or.inr ⟨_, rfl, rfl⟩
      · rw [if_neg full, follow, apply_ite Except.ok]
        exact Or.inl rfl
  · refine Or.inl ⟨?_, fun same => absurd same here⟩
    simp [here]

theorem mem_enqueue {key node : FlowNode} :
    node ∈ (scan.enqueue key depth).seenNodes ↔ node ∈ scan.seenNodes ∨ node = key := by
  unfold Scan.enqueue
  by_cases old : key ∈ scan.seenNodes
  · rw [if_pos old]
    exact ⟨Or.inl, fun h => h.elim id fun same => same ▸ old⟩
  · rw [if_neg old]
    exact List.mem_cons.trans or_comm

theorem mem_enqueue_frontier {key node : FlowNode} {depth' : Nat} :
    (node, depth') ∈ (scan.enqueue key depth).frontier ↔ (node, depth') ∈ scan.frontier ∨
      (key ∉ scan.seenNodes ∧ node = key ∧ depth' = depth) := by
  unfold Scan.enqueue
  by_cases old : key ∈ scan.seenNodes
  · simp [old]
  · simp [old]

/-- What following an edge changes. -/
structure Follows (graph : SemanticFlowGraph) (root : LineageRoot) (selected : FlowNode)
    (depth : Nat) (scan : Scan) (edge : SemanticFlowEdgeRecord) (next : Scan) : Prop where
  seenNodes : ∀ node, node ∈ next.seenNodes ↔ node ∈ scan.seenNodes ∨
    ((graph.scopedLineageNode root edge.source).1.isSome ∧ node = edge.source)
  frontier : ∀ node depth', (node, depth') ∈ next.frontier ↔ (node, depth') ∈ scan.frontier ∨
    ((graph.scopedLineageNode root edge.source).1.isSome ∧ edge.source ∉ scan.seenNodes ∧
      node = edge.source ∧ depth' = depth + 1)
  seenEdges : next.seenEdges = edge.edgeId :: scan.seenEdges
  adjacency : ∀ a b, next.adjacency.Adjacent a b ↔ scan.adjacency.Adjacent a b ∨
    ((graph.scopedLineageNode root edge.source).1.isSome ∧ a = selected ∧ b = edge.source)
  discovered : next.discovered = scan.discovered ++ [⟨depth + 1, edge, edge.source.nodeType,
    (graph.scopedLineageNode root edge.source).1⟩]
  missing : next.missing = (scan.missing || (graph.scopedLineageNode root edge.source).2.1)
  conflict : next.conflict = (scan.conflict || (graph.scopedLineageNode root edge.source).2.2)
  truncated : next.truncated = scan.truncated

theorem adjacent_discover (depth : Nat) {a b : FlowNode} :
    (scan.discover graph root selected depth edge edge.source).adjacency.Adjacent a b ↔
      scan.adjacency.Adjacent a b ∨ ((graph.scopedLineageNode root edge.source).1.isSome ∧
        a = selected ∧ b = edge.source) := by
  unfold Scan.discover
  dsimp only
  by_cases found : (graph.scopedLineageNode root edge.source).1.isSome = true
  · rw [if_pos found, Adjacency.adjacent_touch, Adjacency.adjacent_link]
    simp [found]
  · rw [if_neg found]
    simp [found]

theorem enqueue_rest (scan : Scan) (key : FlowNode) (depth : Nat) :
    scan.enqueue key depth = { scan with
      seenNodes := (scan.enqueue key depth).seenNodes
      frontier := (scan.enqueue key depth).frontier } := by
  unfold Scan.enqueue
  split_ifs <;> rfl

theorem follows_follow (graph : SemanticFlowGraph) (root : LineageRoot) (selected : FlowNode)
    (depth : Nat) (scan : Scan) (edge : SemanticFlowEdgeRecord) :
    graph.Follows root selected depth scan edge (graph.follow root selected depth scan edge) := by
  unfold follow
  by_cases found : (graph.scopedLineageNode root edge.source).1.isSome = true
  · rw [if_pos found]
    refine ⟨fun node => ?_, fun node depth' => ?_, ?_, fun a b => ?_, ?_, ?_, ?_, ?_⟩
    · rw [mem_enqueue]
      simp [found, Scan.discover]
    · rw [mem_enqueue_frontier]
      simp [found, Scan.discover]
    · rw [enqueue_rest]
      rfl
    · rw [enqueue_rest]
      exact adjacent_discover depth
    · rw [enqueue_rest]
      rfl
    · rw [enqueue_rest]
      rfl
    · rw [enqueue_rest]
      rfl
    · rw [enqueue_rest]
      rfl
  · rw [if_neg found]
    refine ⟨fun node => ?_, fun node depth' => ?_, rfl, fun a b => adjacent_discover depth, rfl, rfl, rfl,
      rfl⟩
    · simp [found, Scan.discover]
    · simp [found, Scan.discover]

variable {next : Scan}

theorem Follows.advances (follows : graph.Follows root selected depth scan edge next) :
    Advances scan next := by
  refine ⟨fun node seen => (follows.seenNodes node).mpr (Or.inl seen), fun id seen => ?_,
    fun a b old => (follows.adjacency a b).mpr (Or.inl old), fun h => ?_, fun h => ?_,
    follows.truncated⟩
  · rw [follows.seenEdges]
    exact List.mem_cons_of_mem _ seen
  · rw [follows.missing, h, Bool.true_or]
  · rw [follows.conflict, h, Bool.true_or]

/-- Following an edge into a seen node keeps the invariant. -/
theorem Scanned.follow (scanned : graph.Scanned root visited expanded scan)
    (follows : graph.Follows root selected depth scan edge next)
    (seen : selected ∈ scan.seenNodes) (stored : edge ∈ graph.edges)
    (inScope : InScope root.pid edge) (here : edge.target.nodeId = selected.nodeId) :
    graph.Scanned root visited expanded next := by
  have advances := follows.advances
  have explained : graph.Explained root next ⟨depth + 1, edge, edge.source.nodeType,
      (graph.scopedLineageNode root edge.source).1⟩ := by
    refine ⟨stored, rfl, rfl, fun found => ⟨?_, selected, advances.seenNodes selected seen, here, ?_⟩,
      fun absent => ?_⟩
    · exact (follows.seenNodes edge.source).mpr (Or.inr ⟨found, rfl⟩)
    · exact (follows.adjacency selected edge.source).mpr (Or.inr ⟨found, rfl, rfl⟩)
    · rcases scopedLineageNode_none absent with missing | conflict
      · exact Or.inl (by rw [follows.missing, missing, Bool.or_true])
      · exact Or.inr (by rw [follows.conflict, conflict, Bool.or_true])
  constructor
  case root_seen => exact advances.seenNodes _ scanned.root_seen
  case pending =>
    intro node inside
    by_cases old : node ∈ scan.seenNodes
    · refine (scanned.pending node old).imp_right ?_
      rintro ⟨depth', listed⟩
      exact ⟨depth', (follows.frontier node depth').mpr (Or.inl listed)⟩
    · obtain ⟨found, rfl⟩ := ((follows.seenNodes node).mp inside).resolve_left old
      exact Or.inr ⟨depth + 1, (follows.frontier _ _).mpr (Or.inr ⟨found, old, rfl, rfl⟩)⟩
  case queued =>
    intro node depth' listed
    rcases (follows.frontier node depth').mp listed with old | ⟨found, -, rfl, -⟩
    · exact advances.seenNodes node (scanned.queued node depth' old)
    · exact (follows.seenNodes _).mpr (Or.inr ⟨found, rfl⟩)
  case visited_seen =>
    intro node inside
    exact advances.seenNodes node (scanned.visited_seen node inside)
  case expanded =>
    intro whole node inside edge' stored' inScope' into
    rw [advances.truncated] at whole
    exact advances.seenEdges _ (scanned.expanded whole node inside edge' stored' inScope' into)
  case itemOf =>
    intro id inside
    rw [follows.seenEdges, List.mem_cons] at inside
    rw [follows.discovered]
    rcases inside with rfl | old
    · exact ⟨_, List.mem_append_right _ (List.mem_singleton_self _), rfl⟩
    · obtain ⟨item, listed, same⟩ := scanned.itemOf id old
      exact ⟨item, List.mem_append_left _ listed, same⟩
  case explained =>
    intro item listed
    rw [follows.discovered, List.mem_append, List.mem_singleton] at listed
    rcases listed with old | rfl
    · exact (scanned.explained item old).advance advances
    · exact explained
  case listed =>
    intro node inside
    rw [follows.discovered]
    rcases (follows.seenNodes node).mp inside with old | ⟨found, rfl⟩
    · refine (scanned.listed node old).imp_right ?_
      rintro ⟨item, listed, same⟩
      exact ⟨item, List.mem_append_left _ listed, same⟩
    · exact Or.inr ⟨_, List.mem_append_right _ (List.mem_singleton_self _), rfl, found⟩
  case reached =>
    intro node inside
    rcases (follows.seenNodes node).mp inside with old | ⟨-, rfl⟩
    · exact scanned.reached node old
    · exact (scanned.reached selected seen).head ⟨edge, stored, inScope, rfl, here⟩

/-- The inner loop discovers every edge into the selected node, or it ends the traversal. -/
theorem Scanned.scanEdges (depth : Nat) {edges : List SemanticFlowEdgeRecord}
    (scanned : graph.Scanned root visited expanded scan) (seen : selected ∈ scan.seenNodes)
    (known : ∀ edge ∈ edges, edge ∈ graph.edges ∧ InScope root.pid edge) :
    (∃ next, edges.foldlM (graph.scanEdge root .upstream selected depth) scan = .ok next ∧
      graph.Scanned root visited expanded next ∧ Advances scan next ∧
      ∀ edge ∈ edges, edge.target.nodeId = selected.nodeId → edge.edgeId ∈ next.seenEdges) ∨
    ∃ result, edges.foldlM (graph.scanEdge root .upstream selected depth) scan = .error result ∧
      result.traversalTruncated = true := by
  induction edges generalizing scan with
  | nil => exact Or.inl ⟨scan, rfl, scanned, .refl scan, fun _ inside => nomatch inside⟩
  | cons edge edges ih =>
      obtain ⟨stored, inScope⟩ := known edge List.mem_cons_self
      have known' := fun edge' inside => known edge' (List.mem_cons_of_mem edge inside)
      rw [List.foldlM_cons]
      rcases scanEdge_cases graph root selected depth scan edge with
        ⟨skipped, old⟩ | ⟨here, followed | ⟨result, ended, truncated⟩⟩
      · rw [skipped]
        refine (ih scanned seen known').imp_left ?_
        rintro ⟨next, done, scanned', advances, all⟩
        exact ⟨next, done, scanned', advances, List.forall_mem_cons.mpr
          ⟨fun into => advances.seenEdges _ (old into), all⟩⟩
      · rw [followed]
        have follows := follows_follow graph root selected depth scan edge
        have scanned' := scanned.follow follows seen stored inScope here
        have seen' := follows.advances.seenNodes selected seen
        refine (ih scanned' seen' known').imp_left ?_
        rintro ⟨next, done, scanned'', advances, all⟩
        refine ⟨next, done, scanned'', follows.advances.trans advances, List.forall_mem_cons.mpr
          ⟨fun _ => advances.seenEdges _ ?_, all⟩⟩
        rw [follows.seenEdges]
        exact List.mem_cons_self
      · rw [ended]
        exact Or.inr ⟨result, rfl, truncated⟩

theorem scanned_start (graph : SemanticFlowGraph) (found : root.record.isSome) :
    graph.Scanned root [] [] (.start root) ∧ (Scan.start root).missing = false := by
  constructor
  · constructor
    case root_seen => exact List.mem_singleton_self root.node
    case pending =>
      intro node inside
      rw [Scan.start, List.mem_singleton] at inside
      exact Or.inr ⟨0, List.mem_singleton.mpr (congrArg (·, 0) inside)⟩
    case queued =>
      intro node depth listed
      rw [Scan.start, List.mem_singleton] at listed
      cases listed
      exact List.mem_singleton_self root.node
    case visited_seen => exact fun _ inside => nomatch inside
    case expanded => exact fun _ _ inside => nomatch inside
    case itemOf => exact fun _ inside => nomatch inside
    case explained => exact fun _ inside => nomatch inside
    case listed =>
      intro node inside
      exact Or.inl (List.mem_singleton.mp inside)
    case reached =>
      intro node inside
      rw [List.mem_singleton.mp inside]
      exact .refl
  · rw [Scan.start]
    cases record : root.record with
    | none =>
        rw [record] at found
        cases found
    | some record => rfl

/-- A traversal that is not truncated has expanded every node it has seen. -/
theorem Scanned.finished (wellFormed : graph.WellFormed) {maxDepth : Nat} (fuel : Nat)
    {result : LineageTraversalResult} (scanned : graph.Scanned root visited visited scan)
    (done : graph.scanNodes root .upstream maxDepth fuel scan = some result)
    (whole : result.traversalTruncated = false) :
    ∃ visited' last, graph.Scanned root visited' visited' last ∧ last.frontier = [] ∧
      last.truncated = false ∧ result = last.result false := by
  induction fuel generalizing scan visited with
  | zero => cases done
  | succ fuel ih =>
      unfold scanNodes at done
      cases shape : scan.frontier with
      | nil =>
          simp only [shape] at done
          cases done
          exact ⟨visited, scan, scanned, shape, whole, congrArg scan.result whole⟩
      | cons entry frontier =>
          obtain ⟨selected, depth⟩ := entry
          simp only [shape] at done
          have seen : selected ∈ scan.seenNodes := scanned.queued selected depth (by simp [shape])
          -- The selected node leaves the frontier before its edges are read.
          have popped : ∀ truncated, (truncated = false → scan.truncated = false) →
              graph.Scanned root (selected :: visited) visited
                { scan with frontier, truncated } := by
            intro truncated before
            refine { scanned with
              pending := fun node inside => ?_
              queued := fun node depth' listed => ?_
              visited_seen := List.forall_mem_cons.mpr ⟨seen, scanned.visited_seen⟩
              expanded := fun whole => scanned.expanded (before whole)
              explained := fun item listed => ?_ }
            · rcases scanned.pending node inside with old | ⟨depth', listed⟩
              · exact Or.inl (List.mem_cons_of_mem selected old)
              · rw [shape, List.mem_cons] at listed
                rcases listed with here | later
                · cases here
                  exact Or.inl List.mem_cons_self
                · exact Or.inr ⟨depth', later⟩
            · refine scanned.queued node depth' ?_
              rw [shape]
              exact List.mem_cons_of_mem _ listed
            · have explained := scanned.explained item listed
              exact ⟨explained.stored, explained.nodeType, explained.node, explained.far,
                explained.lost⟩
          by_cases deep : maxDepth ≤ depth
          · rw [if_pos deep] at done
            have cut := popped true (fun h => by cases h)
            refine ih { cut with expanded := fun h => by cases h } done
          · rw [if_neg deep] at done
            have open_ := popped scan.truncated id
            rcases open_.scanEdges depth seen (fun edge inside =>
              let known := (mem_iterLineageEdges wellFormed).mp inside
              ⟨known.1, known.2.1⟩) with ⟨next, ran, scanned', -, all⟩ | ⟨early, ran, truncated⟩
            · rw [ran] at done
              refine ih { scanned' with expanded := fun whole' => ?_ } done
              refine List.forall_mem_cons.mpr ⟨fun edge stored inScope into => ?_,
                scanned'.expanded whole'⟩
              exact all edge ((mem_iterLineageEdges wellFormed).mpr
                ⟨stored, inScope, Or.inr into⟩) into
            · rw [ran] at done
              cases done
              rw [truncated] at whole
              cases whole

/-! ## The traversal ends -/

/-- Every discovered edge makes room for one node of the frontier. -/
theorem scanEdges_budget {direction : FlowLineageDirection} {edges : List SemanticFlowEdgeRecord}
    (done : edges.foldlM (graph.scanEdge root direction selected depth) scan = .ok next) :
    next.frontier.length + scan.discovered.length ≤
        scan.frontier.length + next.discovered.length ∧
      (scan.discovered.length ≤ semanticFlowLineageHardLimit →
        next.discovered.length ≤ semanticFlowLineageHardLimit) := by
  induction edges generalizing scan with
  | nil =>
      cases done
      exact ⟨le_rfl, id⟩
  | cons edge edges ih =>
      rw [List.foldlM_cons, Run.bind_eq_ok] at done
      obtain ⟨middle, here, later⟩ := done
      obtain ⟨rest, restBound⟩ := ih later
      suffices first : middle.frontier.length + scan.discovered.length ≤
          scan.frontier.length + middle.discovered.length ∧
          (scan.discovered.length ≤ semanticFlowLineageHardLimit →
            middle.discovered.length ≤ semanticFlowLineageHardLimit) by
        exact ⟨by omega, fun bound => restBound (first.2 bound)⟩
      unfold scanEdge at here
      cases adjacent : lineageAdjacent edge selected.nodeId direction with
      | none =>
          simp only [adjacent] at here
          cases here
          exact ⟨le_rfl, id⟩
      | some key =>
          simp only [adjacent] at here
          split_ifs at here with old full found
          · cases here
            exact ⟨le_rfl, id⟩
          · cases here
            have one : (scan.discover graph root selected depth edge key).discovered.length =
                scan.discovered.length + 1 := List.length_append
            rw [enqueue_rest]
            dsimp only
            refine ⟨?_, fun _ => by omega⟩
            unfold Scan.enqueue
            split_ifs
            · change scan.frontier.length + _ ≤ _
              omega
            · dsimp only
              rw [List.length_append, List.length_singleton]
              change scan.frontier.length + 1 + _ ≤ _
              omega
          · cases here
            have one : (scan.discover graph root selected depth edge key).discovered.length =
                scan.discovered.length + 1 := List.length_append
            refine ⟨?_, fun _ => by omega⟩
            change scan.frontier.length + _ ≤ _
            omega

theorem scanNodes_ends (graph : SemanticFlowGraph) (root : LineageRoot)
    (direction : FlowLineageDirection) (maxDepth fuel : Nat) (scan : Scan)
    (bounded : scan.discovered.length ≤ semanticFlowLineageHardLimit)
    (enough : scan.frontier.length + semanticFlowLineageHardLimit <
      fuel + scan.discovered.length) :
    (graph.scanNodes root direction maxDepth fuel scan).isSome := by
  induction fuel generalizing scan with
  | zero => omega
  | succ fuel ih =>
      unfold scanNodes
      cases shape : scan.frontier with
      | nil => rfl
      | cons entry frontier =>
          obtain ⟨selected, depth⟩ := entry
          rw [shape, List.length_cons] at enough
          dsimp only
          by_cases deep : maxDepth ≤ depth
          · rw [if_pos deep]
            exact ih _ bounded (by dsimp only; omega)
          · rw [if_neg deep]
            cases ran : (graph.iterLineageEdges root.pid selected.nodeId).foldlM
                (graph.scanEdge root direction selected depth) { scan with frontier } with
            | error result => rfl
            | ok next =>
                obtain ⟨budget, bounded'⟩ := scanEdges_budget ran
                exact ih next (bounded' bounded) (by dsimp only at budget; omega)

/-- The traversal never runs out of fuel. -/
theorem scanLineage_ends (graph : SemanticFlowGraph) (root : LineageRoot)
    (direction : FlowLineageDirection) (maxDepth : Nat) :
    (graph.scanLineage root direction maxDepth).isSome :=
  scanNodes_ends graph root direction maxDepth _ _ (Nat.zero_le _)
    (by simp only [Scan.start, List.length_singleton, List.length_nil]; omega)

end SemanticFlowGraph
end AgentLibOS.Semantic
