import AgentLibOS.Semantic.LineageScan

namespace AgentLibOS.Semantic
open Library CycleCheck

namespace SemanticFlowGraph
variable {graph : SemanticFlowGraph}

/-! ## What a graph says upstream of an entity -/

def Flows (graph : SemanticFlowGraph) (source target : FlowNode) : Prop :=
  ∃ edge ∈ graph.edges, edge.source = source ∧ edge.target = target

/-- The nodes from which `node` is reachable, with `node` itself. -/
def Upstream (graph : SemanticFlowGraph) (source node : FlowNode) : Prop :=
  Relation.ReflTransGen graph.Flows source node

/-- The vectors recorded for an entity: its baseline and the suggestions of its assertions. -/
inductive Recorded (graph : SemanticFlowGraph) (id : Identifier) (vector : FlowLabelVector) : Prop
  | baseline (record : SemanticFlowEntityRecord) (found : graph.getEntity id = some record)
      (same : record.baselineLabels = vector)
  | assertion (assertion : SemanticFlowLabelAssertionRecord) (stored : assertion ∈ graph.assertions)
      (about : assertion.entityId = id) (read : assertion.suggestion = .ok vector)

/-- An entity that is complete, with assertions that are all complete and tighten its baseline. -/
def SoundEntity (graph : SemanticFlowGraph) (id : Identifier) : Prop :=
  ∃ record, graph.getEntity id = some record ∧ record.coverage = .complete ∧
    ∀ assertion ∈ graph.assertions, assertion.entityId = id → assertion.Sound record.baselineLabels

/-! ## The labels of one entity -/

/-- Complete effective labels are the least tightening of everything recorded for the entity. -/
theorem effectiveLabels_complete {id : Identifier} {effective : FlowEffectiveLabels}
    (done : graph.effectiveLabels id = .ok effective) (complete : effective.coverage = .complete) :
    graph.SoundEntity id ∧
      ∀ bound, effective.labels ≤ bound ↔ ∀ vector, graph.Recorded id vector → vector ≤ bound := by
  unfold effectiveLabels at done
  cases found : graph.getEntity id with
  | none =>
      simp only [found] at done
      cases done
      cases complete
  | some record =>
      simp only [found] at done
      obtain ⟨computed, ran, made⟩ := Run.bind_eq_ok.mp done
      cases more : (graph.querySemanticFlowLabelAssertions none flowLabelAssertionHardLimit
          id).nextCursor with
      | some next =>
          simp only [more, Option.isNone_some, Bool.false_eq_true, if_false] at made
          cases made
          cases (worseCoverage_complete.mp complete).2
      | none =>
          simp only [more, Option.isNone_none, if_true] at made
          cases made
          have all : ∀ assertion, assertion ∈ (graph.querySemanticFlowLabelAssertions none
              flowLabelAssertionHardLimit id).records ↔
                assertion ∈ graph.assertions ∧ assertion.entityId = id := by
            intro assertion
            rw [querySemanticFlowLabelAssertions, queryPage_last more (by decide)]
            simp [beyond]
          obtain ⟨started, sound, le_iff⟩ := computeEffectiveLabels_complete ran complete
          refine ⟨⟨record, found, started, fun assertion stored about =>
            sound assertion ((all assertion).mpr ⟨stored, about⟩)⟩, fun bound => ?_⟩
          rw [le_iff]
          constructor
          · rintro ⟨base, others⟩ vector recorded
            cases recorded with
            | baseline record' found' same =>
                rw [found] at found'
                cases found'
                exact same ▸ base
            | assertion assertion stored about read =>
                exact others assertion ((all assertion).mpr ⟨stored, about⟩) vector read
          · intro below
            refine ⟨below _ (.baseline record found rfl), fun assertion inside vector read => ?_⟩
            obtain ⟨stored, about⟩ := (all assertion).mp inside
            exact below vector (.assertion assertion stored about read)

/-! ## The items of a lineage -/

theorem entityId_of_getEntity {id : Identifier} {record : SemanticFlowEntityRecord}
    (found : graph.getEntity id = some record) : record.entityId = id := by
  simpa using List.find?_some found

theorem getNode_of_scoped {root : LineageRoot} {node : FlowNode} {record : FlowRecord}
    (found : (graph.scopedLineageNode root node).1 = some record) :
    graph.getNode node = some record := by
  unfold scopedLineageNode at found
  cases here : graph.getNode node with
  | none =>
      simp only [here] at found
      cases found
  | some selected =>
      simp only [here] at found
      split_ifs at found
      exact found

/-- An item carries the node at the far end of its edge. -/
structure Faithful (graph : SemanticFlowGraph) (item : LineageItem) : Prop where
  nodeType : item.nodeType = item.edge.source.nodeType
  node : ∀ record, item.node = some record → graph.getNode item.edge.source = some record

theorem Explained.faithful {root : LineageRoot} {scan : Scan} {item : LineageItem}
    (explained : graph.Explained root scan item) : graph.Faithful item :=
  ⟨explained.nodeType, fun _ found => getNode_of_scoped (explained.node.symm.trans found)⟩

/-- One item: it repeats an entity or is an activity, or it adds one sound entity. -/
theorem coverItem_complete {scan next : CoverageScan} {item : LineageItem}
    (done : graph.coverItem scan item = .ok next) (faithful : graph.Faithful item)
    (complete : next.status = .complete) :
    scan.status = .complete ∧ item.node ≠ none ∧
      ((next.seenEntities = scan.seenEntities ∧ next.aggregateLabels = scan.aggregateLabels ∧
          ∀ id, item.edge.source = ⟨.entity, id⟩ → id ∈ scan.seenEntities) ∨
        ∃ id, item.edge.source = ⟨.entity, id⟩ ∧ id ∉ scan.seenEntities ∧
          next.seenEntities = scan.seenEntities ++ [id] ∧ graph.SoundEntity id ∧
          ∀ bound, next.aggregateLabels ≤ bound ↔ scan.aggregateLabels ≤ bound ∧
            ∀ vector, graph.Recorded id vector → vector ≤ bound) := by
  unfold coverItem at done
  cases here : item.node with
  | none =>
      simp only [here] at done
      cases done
      cases (worseCoverage_complete.mp complete).2
  | some record =>
      have typed := faithful.nodeType
      have stored := faithful.node record here
      cases kind : item.nodeType with
      | activity =>
          simp only [here, kind] at done
          cases done
          refine ⟨complete, Option.some_ne_none record, Or.inl ⟨rfl, rfl, fun id same => ?_⟩⟩
          rw [kind, same] at typed
          cases typed
      | entity =>
          rw [kind] at typed
          unfold getNode at stored
          rw [← typed] at stored
          obtain ⟨entity, found, rfl⟩ := Option.map_eq_some_iff.mp stored
          have name := entityId_of_getEntity found
          have source : item.edge.source = ⟨.entity, entity.entityId⟩ := by
            cases shape : item.edge.source with
            | mk nodeType nodeId =>
                rw [shape] at typed name
                obtain rfl : nodeType = .entity := typed.symm
                rw [name]
          simp only [here, kind] at done
          by_cases old : entity.entityId ∈ scan.seenEntities
          · rw [if_pos old] at done
            cases done
            refine ⟨complete, Option.some_ne_none _, Or.inl ⟨rfl, rfl, fun id same => ?_⟩⟩
            rw [source] at same
            cases same
            exact old
          · rw [if_neg old] at done
            obtain ⟨upstream, labelled, made⟩ := Run.bind_eq_ok.mp done
            cases made
            obtain ⟨before, own⟩ := worseCoverage_complete.mp complete
            obtain ⟨sound, le_iff⟩ := effectiveLabels_complete labelled own
            refine ⟨(worseCoverage_complete.mp before).1, Option.some_ne_none _,
              Or.inr ⟨entity.entityId, source, old, rfl, sound, fun bound => ?_⟩⟩
            change scan.aggregateLabels ⊔ upstream.labels ≤ bound ↔ _
            rw [sup_le_iff, le_iff]

/-- What the loop of `coverage` has collected when its status is complete. -/
structure Covered (graph : SemanticFlowGraph) (items : List LineageItem)
    (start last : CoverageScan) : Prop where
  complete : start.status = .complete
  found : ∀ item ∈ items, item.node ≠ none
  grown : ∀ id ∈ start.seenEntities, id ∈ last.seenEntities
  seen : ∀ id ∈ last.seenEntities, id ∈ start.seenEntities ∨ (graph.SoundEntity id ∧
    ∃ item ∈ items, item.edge.source = ⟨.entity, id⟩)
  covers : ∀ item ∈ items, ∀ id, item.edge.source = ⟨.entity, id⟩ → id ∈ last.seenEntities
  le_iff : ∀ bound, last.aggregateLabels ≤ bound ↔ start.aggregateLabels ≤ bound ∧
    ∀ id ∈ last.seenEntities, id ∉ start.seenEntities → ∀ vector, graph.Recorded id vector →
      vector ≤ bound

theorem coverItems_complete {items : List LineageItem} {start last : CoverageScan}
    (done : items.foldlM graph.coverItem start = .ok last)
    (faithful : ∀ item ∈ items, graph.Faithful item) (complete : last.status = .complete) :
    graph.Covered items start last := by
  induction items generalizing start with
  | nil =>
      cases done
      exact ⟨complete, by simp, fun _ h => h, fun _ h => Or.inl h, by simp,
        fun bound => ⟨fun below => ⟨below, fun id seen fresh => absurd seen fresh⟩, And.left⟩⟩
  | cons item items ih =>
      rw [List.foldlM_cons, Run.bind_eq_ok] at done
      obtain ⟨next, here, later⟩ := done
      have rest := ih later fun other inside => faithful other (List.mem_cons_of_mem item inside)
      obtain ⟨started, found, step⟩ :=
        coverItem_complete here (faithful item List.mem_cons_self) rest.complete
      have later_seen : ∀ id ∈ last.seenEntities, id ∈ next.seenEntities ∨
          (graph.SoundEntity id ∧ ∃ item' ∈ item :: items, item'.edge.source = ⟨.entity, id⟩) := by
        intro id seen
        refine (rest.seen id seen).imp_right ?_
        rintro ⟨sound, item', inside, source⟩
        exact ⟨sound, item', List.mem_cons_of_mem item inside, source⟩
      rcases step with ⟨sameSeen, sameLabels, repeated⟩ | ⟨id, source, fresh, added, sound, joined⟩
      · refine ⟨started, List.forall_mem_cons.mpr ⟨found, rest.found⟩, fun id seen => ?_,
          fun id seen => ?_, List.forall_mem_cons.mpr ⟨fun id source => ?_, rest.covers⟩,
          fun bound => ?_⟩
        · exact rest.grown id (sameSeen ▸ seen)
        · exact sameSeen ▸ later_seen id seen
        · exact rest.grown id (sameSeen ▸ repeated id source)
        · rw [rest.le_iff, sameSeen, sameLabels]
      · refine ⟨started, List.forall_mem_cons.mpr ⟨found, rest.found⟩, fun id' seen => ?_,
          fun id' seen => ?_, List.forall_mem_cons.mpr ⟨fun id' source' => ?_, rest.covers⟩,
          fun bound => ?_⟩
        · exact rest.grown id' (added ▸ List.mem_append_left _ seen)
        · rcases later_seen id' seen with before | after
          · rw [added, List.mem_append, List.mem_singleton] at before
            rcases before with old | rfl
            · exact Or.inl old
            · exact Or.inr ⟨sound, item, List.mem_cons_self, source⟩
          · exact Or.inr after
        · rw [source] at source'
          cases source'
          exact rest.grown id (added ▸ List.mem_append_right _ (List.mem_singleton_self id))
        · rw [rest.le_iff, joined, and_assoc]
          refine and_congr_right fun _ => ⟨?_, ?_⟩
          · rintro ⟨own, others⟩ id' seen fresh'
            by_cases same : id' = id
            · exact same ▸ own
            · refine others id' seen ?_
              rw [added, List.mem_append, List.mem_singleton]
              exact not_or.mpr ⟨fresh', same⟩
          · intro all
            refine ⟨all id (rest.grown id ?_) fresh, fun id' seen fresh' => all id' seen ?_⟩
            · exact added ▸ List.mem_append_right _ (List.mem_singleton_self id)
            · exact fun old => fresh' (added ▸ List.mem_append_left _ old)

/-! ## A complete report -/

theorem lineageCoverage_complete {baseline : FlowCoverageStatus}
    {traversal : LineageTraversalResult}
    (complete : lineageCoverage baseline traversal = .complete) :
    traversal.scopeConflict = false ∧ traversal.cycleDetected = false ∧
      traversal.missingNode = false := by
  unfold lineageCoverage at complete
  split_ifs at complete with conflict missing
  · cases (worseCoverage_complete.mp complete).2
  · cases (worseCoverage_complete.mp complete).2
  · rw [not_or] at conflict
    exact ⟨by simpa using conflict.1, by simpa using conflict.2, by simpa using missing⟩

/-- A page that is not truncated returns every discovered item. -/
theorem paginateLineage_whole {discovered : List LineageItem} {limit : Nat}
    (whole : (paginateLineage discovered none limit).2.2 = false) {item : LineageItem} :
    item ∈ (paginateLineage discovered none limit).1 ↔ item ∈ discovered := by
  unfold paginateLineage at whole ⊢
  simp only [decide_eq_false_iff_not, not_lt] at whole ⊢
  rw [List.take_of_length_le whole]
  simp [beyond]

theorem resolveLineageRoot_entity {id : Identifier} {record : SemanticFlowEntityRecord}
    (found : graph.getEntity id = some record) :
    graph.resolveLineageRoot id = ⟨⟨.entity, id⟩, some (.entity record)⟩ := by
  simp [resolveLineageRoot, getNode, found]

/-- The entities that `coverage` visits. -/
def visited (graph : SemanticFlowGraph) (id : Identifier) (maxDepth : Nat) : List Identifier :=
  match graph.coverageScan id maxDepth with
  | .ok (some (scan, _)) => scan.seenEntities
  | _ => []

/-- The scope of a node: the root that a traversal from it has. -/
def rootOf (record : SemanticFlowEntityRecord) : LineageRoot :=
  ⟨⟨.entity, record.entityId⟩, some (.entity record)⟩

/-- What a complete report says about the traversal behind it. -/
structure Surveyed (graph : SemanticFlowGraph) (record : SemanticFlowEntityRecord)
    (visited : List Identifier) (labels : FlowLabelVector) : Prop where
  found : graph.getEntity record.entityId = some record
  visited_iff : ∀ id, id ∈ visited ↔ graph.Reaches (rootOf record) ⟨.entity, id⟩
  sound : ∀ id ∈ visited, graph.SoundEntity id
  le_iff : ∀ bound, labels ≤ bound ↔ ∀ id ∈ visited, ∀ vector, graph.Recorded id vector →
    vector ≤ bound
  acyclic : ∃ adjacency : Adjacency FlowNode, hasCycle adjacency = false ∧ ∀ edge ∈ graph.edges,
    InScope record.pid edge → ∀ node, graph.Reaches (rootOf record) node →
      edge.target.nodeId = node.nodeId → ∃ near, graph.Reaches (rootOf record) near ∧
        edge.target.nodeId = near.nodeId ∧ adjacency.Adjacent near edge.source

/-- A complete traversal has seen every node that reaches the root, and its adjacency has every
edge into them. -/
theorem Scanned.closed (wellFormed : graph.WellFormed) {root : LineageRoot}
    {nodes : List FlowNode} {scan : Scan} (scanned : graph.Scanned root nodes nodes scan)
    (emptied : scan.frontier = []) (whole : scan.truncated = false)
    (found : scan.missing = false) (agreed : scan.conflict = false) :
    (∀ node, node ∈ scan.seenNodes ↔ graph.Reaches root node) ∧
      ∀ edge ∈ graph.edges, InScope root.pid edge → ∀ node ∈ scan.seenNodes,
        edge.target.nodeId = node.nodeId → edge.source ∈ scan.seenNodes ∧
          ∃ near ∈ scan.seenNodes, edge.target.nodeId = near.nodeId ∧
            scan.adjacency.Adjacent near edge.source := by
  have closed : ∀ edge ∈ graph.edges, InScope root.pid edge → ∀ node ∈ scan.seenNodes,
      edge.target.nodeId = node.nodeId → edge.source ∈ scan.seenNodes ∧
        ∃ near ∈ scan.seenNodes, edge.target.nodeId = near.nodeId ∧
          scan.adjacency.Adjacent near edge.source := by
    intro edge stored inScope node seen into
    have left : node ∈ nodes := by
      refine (scanned.pending node seen).resolve_right ?_
      rintro ⟨depth, listed⟩
      rw [emptied] at listed
      cases listed
    obtain ⟨item, listed, same⟩ := scanned.itemOf edge.edgeId
      (scanned.expanded whole node left edge stored inScope into)
    have explained := scanned.explained item listed
    have : item.edge = edge :=
      List.inj_on_of_nodup_map wellFormed.edgeIds explained.stored stored same
    rw [← this]
    refine explained.far (Option.isSome_iff_ne_none.mpr fun absent => ?_)
    rcases explained.lost absent with missing | conflict
    · rw [found] at missing
      cases missing
    · rw [agreed] at conflict
      cases conflict
  refine ⟨fun node => ⟨scanned.reached node, fun reaches => ?_⟩, closed⟩
  induction reaches using Relation.ReflTransGen.head_induction_on with
  | refl => exact scanned.root_seen
  | head step _ ih =>
      obtain ⟨edge, stored, inScope, rfl, into⟩ := step
      exact (closed edge stored inScope _ ih into).1

/-- The traversal that a lineage is made of. -/
theorem lineage_cases {id : Identifier} {maxDepth : Nat} {answer : Lineage}
    (done : graph.lineage id .upstream none semanticFlowLineageHardLimit maxDepth =
      .ok (some answer)) :
    ∃ traversal effective, graph.scanLineage (graph.resolveLineageRoot id) .upstream maxDepth =
        some traversal ∧ graph.effectiveLabels id = .ok effective ∧
      answer.coverage = lineageCoverage effective.coverage traversal ∧
      answer.truncated = (traversal.traversalTruncated ||
        (paginateLineage traversal.discovered none semanticFlowLineageHardLimit).2.2) ∧
      answer.items = (paginateLineage traversal.discovered none semanticFlowLineageHardLimit).1 := by
  unfold lineage at done
  obtain ⟨⟨⟩, -, done⟩ := Run.bind_eq_ok.mp done
  obtain ⟨⟨⟩, -, done⟩ := Run.bind_eq_ok.mp done
  cases scanned : graph.scanLineage (graph.resolveLineageRoot id) .upstream maxDepth with
  | none =>
      simp only [scanned] at done
      cases done
  | some traversal =>
      simp only [scanned] at done
      obtain ⟨effective, labelled, made⟩ := Run.bind_eq_ok.mp done
      cases made
      exact ⟨traversal, effective, rfl, labelled, rfl, rfl, rfl⟩

theorem coverageScan_surveyed (wellFormed : graph.WellFormed) {record : SemanticFlowEntityRecord}
    {maxDepth : Nat} {scan : CoverageScan} {answer : Lineage}
    (stored : graph.getEntity record.entityId = some record)
    (ran : graph.coverageScan record.entityId maxDepth = .ok (some (scan, answer)))
    (whole : answer.truncated = false) (complete : scan.status = .complete) :
    graph.Surveyed record scan.seenEntities scan.aggregateLabels := by
  unfold coverageScan at ran
  obtain ⟨lineage, made, ran⟩ := Run.bind_eq_ok.mp ran
  obtain ⟨effective, labelled, ran⟩ := Run.bind_eq_ok.mp ran
  cases lineage with
  | none => cases ran
  | some lineage =>
      obtain ⟨last, covered, ran⟩ := Run.bind_eq_ok.mp ran
      cases ran
      obtain ⟨traversal, _, scanned, _, coverage_eq, truncated_eq, items_eq⟩ := lineage_cases made
      rw [truncated_eq, Bool.or_eq_false_iff] at whole
      rw [resolveLineageRoot_entity stored] at scanned
      obtain ⟨start, known⟩ := @scanned_start (rootOf record) graph rfl
      obtain ⟨nodes, final, survey, emptied, uncut, rfl⟩ :=
        start.finished wellFormed _ scanned whole.1
      have items : ∀ item, item ∈ answer.items ↔ item ∈ final.discovered := by
        intro item
        rw [items_eq]
        exact paginateLineage_whole whole.2
      have collected := coverItems_complete covered (fun item inside =>
        (survey.explained item ((items item).mp inside)).faithful) complete
      obtain ⟨own, through⟩ := worseCoverage_complete.mp collected.complete
      rw [coverage_eq] at through
      obtain ⟨agreed, acyclic, found⟩ := lineageCoverage_complete through
      obtain ⟨reaches, closed⟩ := survey.closed wellFormed emptied uncut found agreed
      obtain ⟨sound, le_iff⟩ := effectiveLabels_complete labelled own
      refine ⟨stored, fun id => ?_, fun id seen => ?_, fun bound => ?_,
        final.adjacency, acyclic, fun edge inside inScope node upstream into => ?_⟩
      · rw [← reaches]
        constructor
        · intro seen
          rcases collected.seen id seen with old | ⟨-, item, listed, source⟩
          · rw [List.mem_singleton.mp old]
            exact survey.root_seen
          · have explained := survey.explained item ((items item).mp listed)
            rw [← source]
            exact (explained.far (Option.isSome_iff_ne_none.mpr (collected.found item listed))).1
        · intro seen
          rcases survey.listed _ seen with root | ⟨item, listed, source, -⟩
          · cases root
            exact collected.grown _ (List.mem_singleton_self _)
          · exact collected.covers item ((items item).mpr listed) id source
      · rcases collected.seen id seen with old | ⟨sound', -⟩
        · rw [List.mem_singleton.mp old]
          exact sound
        · exact sound'
      · rw [collected.le_iff, le_iff]
        constructor
        · rintro ⟨base, others⟩ id seen
          by_cases root : id ∈ [record.entityId]
          · rw [List.mem_singleton.mp root]
            exact base
          · exact others id seen root
        · intro all
          exact ⟨all record.entityId (collected.grown _ (List.mem_singleton_self _)),
            fun id seen _ => all id seen⟩
      · obtain ⟨near, seen, same, edge_⟩ :=
          (closed edge inside inScope node ((reaches node).mpr upstream) into).2
        exact ⟨near, (reaches near).mp seen, same, edge_⟩

theorem coverage_surveyed (wellFormed : graph.WellFormed) {entityId : String} {maxDepth : Nat}
    {report : FlowCoverageReport}
    (done : graph.coverage entityId maxDepth = .ok (some report))
    (complete : report.status = .complete) :
    ∃ record, record.entityId = report.entityId ∧
      graph.Surveyed record (graph.visited report.entityId maxDepth) report.effectiveLabels := by
  unfold coverage at done
  obtain ⟨id, -, done⟩ := Run.bind_eq_ok.mp done
  cases stored : graph.getEntity id with
  | none =>
      simp only [stored] at done
      cases done
      cases complete
  | some record =>
      obtain rfl := entityId_of_getEntity stored
      simp only [stored] at done
      obtain ⟨scanned, ran, made⟩ := Run.bind_eq_ok.mp done
      obtain ⟨⟨scan, lineage⟩, rfl, rfl⟩ := Option.map_eq_some_iff.mp (Except.ok.inj made)
      have seen : graph.visited record.entityId maxDepth = scan.seenEntities := by
        rw [visited, ran]
      cases cut : lineage.truncated with
      | true =>
          simp only [cut, if_true] at complete
          cases (worseCoverage_complete.mp complete).2
      | false =>
          simp only [cut, Bool.false_eq_true, if_false] at complete
          refine ⟨record, rfl, ?_⟩
          dsimp only
          rw [seen]
          exact coverageScan_surveyed wellFormed stored ran cut complete

/-! ## The upstream subgraph -/

theorem endpoint_entity {record : SemanticFlowEntityRecord}
    (found : graph.getEntity record.entityId = some record) :
    graph.endpoint ⟨.entity, record.entityId⟩ = some (record.pid, record.tenantBucketSha256) := by
  simp [endpoint, found]

variable {record : SemanticFlowEntityRecord}

/-- Edges stay within one scope, so everything upstream is in the scope of the entity. -/
theorem upstream_scope (wellFormed : graph.WellFormed)
    (found : graph.getEntity record.entityId = some record) {node : FlowNode}
    (upstream : graph.Upstream node ⟨.entity, record.entityId⟩) :
    graph.endpoint node = some (record.pid, record.tenantBucketSha256) := by
  induction upstream using Relation.ReflTransGen.head_induction_on with
  | refl => exact endpoint_entity found
  | head step _ ih =>
      obtain ⟨edge, stored, rfl, rfl⟩ := step
      obtain ⟨tenant, source, target⟩ :=
        validateSemanticFlowEdgeScope_ok.mp (wellFormed.checked edge stored)
      rw [source, ← target, ih]

/-- An edge into a node of the upstream subgraph is in the scope of the traversal. -/
theorem inScope_of_upstream (wellFormed : graph.WellFormed)
    (found : graph.getEntity record.entityId = some record) {edge : SemanticFlowEdgeRecord}
    (stored : edge ∈ graph.edges)
    (upstream : graph.Upstream edge.target ⟨.entity, record.entityId⟩) :
    InScope record.pid edge := by
  obtain ⟨tenant, -, target⟩ :=
    validateSemanticFlowEdgeScope_ok.mp (wellFormed.checked edge stored)
  have same := (upstream_scope wellFormed found upstream).symm.trans target
  simp only [Option.some.injEq, Prod.mk.injEq] at same
  intro selected here
  rw [same.1] at here
  exact Option.some.inj here

theorem reaches_of_upstream (wellFormed : graph.WellFormed)
    (found : graph.getEntity record.entityId = some record) {node : FlowNode}
    (upstream : graph.Upstream node ⟨.entity, record.entityId⟩) :
    graph.Reaches (rootOf record) node := by
  induction upstream using Relation.ReflTransGen.head_induction_on with
  | refl => exact .refl
  | head step later ih =>
      obtain ⟨edge, stored, rfl, rfl⟩ := step
      exact ih.head ⟨edge, stored, inScope_of_upstream wellFormed found stored later, rfl, rfl⟩

/-- No edge leads into the other node that has the identifier of a node upstream of the entity. -/
def Unambiguous (graph : SemanticFlowGraph) (id : Identifier) : Prop :=
  ∀ record, graph.getEntity id = some record → ∀ edge ∈ graph.edges, InScope record.pid edge →
    ∀ node, graph.Upstream node ⟨.entity, id⟩ → edge.target.nodeId = node.nodeId →
      edge.target = node

theorem upstream_of_reaches (found : graph.getEntity record.entityId = some record)
    (unambiguous : graph.Unambiguous record.entityId) {node : FlowNode}
    (reaches : graph.Reaches (rootOf record) node) :
    graph.Upstream node ⟨.entity, record.entityId⟩ := by
  induction reaches using Relation.ReflTransGen.head_induction_on with
  | refl => exact .refl
  | head step _ ih =>
      obtain ⟨edge, stored, inScope, rfl, into⟩ := step
      exact ih.head ⟨edge, stored, rfl, unambiguous record found edge stored inScope _ ih into⟩

/-- A path into an upstream node runs backwards through the adjacency of the traversal. -/
theorem path_backwards {adjacency : Adjacency FlowNode} (wellFormed : graph.WellFormed)
    (found : graph.getEntity record.entityId = some record)
    (unambiguous : graph.Unambiguous record.entityId)
    (edges : ∀ edge ∈ graph.edges, InScope record.pid edge → ∀ node,
      graph.Reaches (rootOf record) node → edge.target.nodeId = node.nodeId →
        ∃ near, graph.Reaches (rootOf record) near ∧ edge.target.nodeId = near.nodeId ∧
          adjacency.Adjacent near edge.source)
    {source target : FlowNode} (path : Relation.TransGen graph.Flows source target)
    (upstream : graph.Upstream target ⟨.entity, record.entityId⟩) :
    Relation.TransGen adjacency.Adjacent target source := by
  have back : ∀ {a b : FlowNode}, graph.Flows a b →
      graph.Upstream b ⟨.entity, record.entityId⟩ → adjacency.Adjacent b a := by
    rintro _ _ ⟨edge, stored, rfl, rfl⟩ upstream
    have inScope := inScope_of_upstream wellFormed found stored upstream
    obtain ⟨near, reaches, same, adjacent⟩ := edges edge stored inScope edge.target
      (reaches_of_upstream wellFormed found upstream) rfl
    have := unambiguous record found edge stored inScope near
      (upstream_of_reaches found unambiguous reaches) same
    exact this ▸ adjacent
  induction path with
  | single step => exact .single (back step upstream)
  | tail _ step ih => exact (ih (upstream.head step)).head (back step upstream)

/-! ## Complete coverage omits nothing -/

/-- What a complete report about an entity promises. -/
structure OmitsNothing (graph : SemanticFlowGraph) (report : FlowCoverageReport)
    (visited : List Identifier) : Prop where
  reachable : ∀ id, graph.Upstream ⟨.entity, id⟩ ⟨.entity, report.entityId⟩ → id ∈ visited
  acyclic : ∀ node, graph.Upstream node ⟨.entity, report.entityId⟩ →
    ¬ Relation.TransGen graph.Flows node node
  scope : ∃ record, graph.getEntity report.entityId = some record ∧
    ∀ node, graph.Upstream node ⟨.entity, report.entityId⟩ →
      graph.endpoint node = some (record.pid, record.tenantBucketSha256)
  sound : ∀ id ∈ visited, graph.SoundEntity id
  labels : report.effectiveLabels.TightestOf
    {vector | ∃ id, graph.Upstream ⟨.entity, id⟩ ⟨.entity, report.entityId⟩ ∧
      graph.Recorded id vector}

theorem Surveyed.omitsNothing (wellFormed : graph.WellFormed) {report : FlowCoverageReport}
    {visited : List Identifier} (same : record.entityId = report.entityId)
    (surveyed : graph.Surveyed record visited report.effectiveLabels)
    (unambiguous : graph.Unambiguous report.entityId) :
    graph.OmitsNothing report visited := by
  have found := surveyed.found
  rw [← same] at unambiguous
  have upstream_iff : ∀ node, graph.Upstream node ⟨.entity, record.entityId⟩ ↔
      graph.Reaches (rootOf record) node := fun node =>
    ⟨reaches_of_upstream wellFormed found, upstream_of_reaches found unambiguous⟩
  constructor
  case reachable =>
    intro id upstream
    rw [← same, upstream_iff] at upstream
    exact (surveyed.visited_iff id).mpr upstream
  case acyclic =>
    intro node upstream cycle
    rw [← same] at upstream
    obtain ⟨adjacency, passed, edges⟩ := surveyed.acyclic
    exact acyclic_of_hasCycle passed node
      (path_backwards wellFormed found unambiguous edges cycle upstream)
  case scope =>
    refine ⟨record, same ▸ found, fun node upstream => ?_⟩
    rw [← same] at upstream
    exact upstream_scope wellFormed found upstream
  case sound => exact surveyed.sound
  case labels =>
    rw [← same]
    refine FlowLabelVector.tightestOf_of_isLUB ?_ ⟨?_, fun bound above => ?_⟩
    · exact ⟨record.baselineLabels, record.entityId, .refl, .baseline record found rfl⟩
    · rintro vector ⟨id, upstream, recorded⟩
      rw [upstream_iff, ← surveyed.visited_iff] at upstream
      exact (surveyed.le_iff _).mp le_rfl id upstream vector recorded
    · refine (surveyed.le_iff bound).mpr fun id seen vector recorded => above ⟨id, ?_, recorded⟩
      rw [upstream_iff, ← surveyed.visited_iff]
      exact seen

/-! ## Later appends -/

variable {later : SemanticFlowGraph}

theorem Grows.reaches (grows : graph.Grows later) {root : LineageRoot} {node : FlowNode}
    (reaches : graph.Reaches root node) : later.Reaches root node := by
  have kept : ∀ a b, graph.Feeds root.pid a b → later.Feeds root.pid a b := by
    rintro a b ⟨edge, stored, rest⟩
    exact ⟨edge, grows.edges.mem stored, rest⟩
  exact Relation.ReflTransGen.mono kept _ _ reaches

theorem Grows.recorded (grows : graph.Grows later) {id : Identifier} {vector : FlowLabelVector}
    (recorded : graph.Recorded id vector) : later.Recorded id vector := by
  cases recorded with
  | baseline record found same => exact .baseline record (grows.entities.rowOf found) same
  | assertion assertion stored about read =>
      exact .assertion assertion (grows.assertions.mem stored) about read

/-- What is recorded upstream stays recorded, so labels are only tightened. -/
theorem Surveyed.tightens (grows : graph.Grows later) {record' : SemanticFlowEntityRecord}
    {visited visited' : List Identifier} {labels labels' : FlowLabelVector}
    (surveyed : graph.Surveyed record visited labels)
    (surveyed' : later.Surveyed record' visited' labels')
    (same : record'.entityId = record.entityId) : labels ≤ labels' := by
  have kept := grows.entities.rowOf surveyed.found
  have found := surveyed'.found
  rw [same, getEntity, kept] at found
  cases found
  refine (surveyed.le_iff labels').mpr fun id seen vector recorded => ?_
  have seen' := (surveyed'.visited_iff id).mpr (grows.reaches ((surveyed.visited_iff id).mp seen))
  exact (surveyed'.le_iff labels').mp le_rfl id seen' vector (grows.recorded recorded)

theorem coverage_entityId {entityId : String} {maxDepth : Nat} {report : FlowCoverageReport}
    (done : graph.coverage entityId maxDepth = .ok (some report)) :
    report.entityId.val = entityId := by
  unfold coverage at done
  obtain ⟨id, valid, done⟩ := Run.bind_eq_ok.mp done
  have named : id.val = entityId := by
    unfold requireIdentifier at valid
    split_ifs at valid
    cases valid
    rfl
  cases stored : graph.getEntity id with
  | none =>
      simp only [stored] at done
      cases done
      exact named
  | some record =>
      simp only [stored] at done
      obtain ⟨scanned, -, made⟩ := Run.bind_eq_ok.mp done
      obtain ⟨_, rfl, rfl⟩ := Option.map_eq_some_iff.mp (Except.ok.inj made)
      exact named

theorem lineage_ends (graph : SemanticFlowGraph) (nodeId : Identifier)
    (direction : FlowLineageDirection) (after : Option SemanticV6Cursor) (limit maxDepth : Nat) :
    graph.lineage nodeId direction after limit maxDepth ≠ .ok none := by
  intro done
  unfold lineage at done
  obtain ⟨⟨⟩, -, done⟩ := Run.bind_eq_ok.mp done
  obtain ⟨⟨⟩, -, done⟩ := Run.bind_eq_ok.mp done
  obtain ⟨traversal, scanned⟩ := Option.isSome_iff_exists.mp
    (scanLineage_ends graph (graph.resolveLineageRoot nodeId) direction maxDepth)
  simp only [scanned] at done
  obtain ⟨effective, -, made⟩ := Run.bind_eq_ok.mp done
  cases made

/-- The traversal behind a coverage report always ends by itself. -/
theorem coverage_ends (graph : SemanticFlowGraph) (entityId : String) (maxDepth : Nat) :
    graph.coverage entityId maxDepth ≠ .ok none := by
  intro done
  unfold coverage at done
  obtain ⟨id, -, done⟩ := Run.bind_eq_ok.mp done
  cases stored : graph.getEntity id with
  | none =>
      simp only [stored] at done
      cases done
  | some record =>
      simp only [stored] at done
      obtain ⟨scanned, ran, made⟩ := Run.bind_eq_ok.mp done
      obtain rfl := Option.map_eq_none_iff.mp (Except.ok.inj made)
      unfold coverageScan at ran
      obtain ⟨lineage, made, ran⟩ := Run.bind_eq_ok.mp ran
      obtain ⟨effective, -, ran⟩ := Run.bind_eq_ok.mp ran
      cases lineage with
      | none => exact lineage_ends graph id .upstream none _ maxDepth made
      | some lineage =>
          obtain ⟨scan, -, ran⟩ := Run.bind_eq_ok.mp ran
          cases ran

/-- A complete report on an unambiguous entity omits nothing, and later complete reports only
tighten its labels. -/
theorem complete_coverage_omits_nothing (bundles : List SemanticFlowBundle) (entityId : String)
    (maxDepth : Nat) :
    (empty.appends bundles).coverage entityId maxDepth ≠ .ok none ∧
      ∀ report, (empty.appends bundles).coverage entityId maxDepth = .ok (some report) →
        report.status = .complete →
        ((empty.appends bundles).Unambiguous report.entityId →
          (empty.appends bundles).OmitsNothing report
            ((empty.appends bundles).visited report.entityId maxDepth)) ∧
        ∀ (further : List SemanticFlowBundle) (maxDepth' : Nat) (report' : FlowCoverageReport),
          ((empty.appends bundles).appends further).coverage entityId maxDepth' =
            .ok (some report') → report'.status = .complete →
          report'.effectiveLabels.isTighteningOf report.effectiveLabels = true := by
  refine ⟨coverage_ends _ entityId maxDepth, fun report done complete => ?_⟩
  have wellFormed := wellFormed_empty.appends bundles
  obtain ⟨record, same, surveyed⟩ := coverage_surveyed wellFormed done complete
  refine ⟨surveyed.omitsNothing wellFormed same, fun further maxDepth' report' done' complete' => ?_⟩
  obtain ⟨record', same', surveyed'⟩ :=
    coverage_surveyed (wellFormed.appends further) done' complete'
  refine Surveyed.tightens (grows_appends _ further) surveyed surveyed' ?_
  rw [same, same']
  exact Subtype.ext ((coverage_entityId done').trans (coverage_entityId done).symm)

/-! ## Two graphs -/

def sampleEntity (id : Identifier) : SemanticFlowEntityRecord where
  entityId := id
  kind := .toolResult
  pid := some ⟨"pid_1", by decide⟩
  tenantBucketSha256 := "tenant"
  contentSha256 := "content"
  versionSha256 := "version"
  provenanceSha256 := "provenance"
  baselineLabels := {}
  identityPresent := false
  identityMixed := false
  coverage := .complete
  createdAt := "2026-01-01T00:00:00.000000+00:00"
  mixedPresent := fun mixed => nomatch mixed

def sampleActivity (id : Identifier) : SemanticFlowActivityRecord where
  activityId := id
  kind := .toolCall
  pid := ⟨"pid_1", by decide⟩
  actionId := none
  effectId := none
  stateSha256 := "state"
  providerSpecSha256 := none
  toolSchemaSha256 := none
  modelArtifactSha256 := none
  tenantBucketSha256 := "tenant"
  createdAt := "2026-01-01T00:00:00.000000+00:00"

def sampleEdge (id : Identifier) (source target : FlowNode) (noSelfLoop : source ≠ target) :
    SemanticFlowEdgeRecord where
  edgeId := id
  relation := .direct
  source := source
  target := target
  pid := ⟨"pid_1", by decide⟩
  provenanceSha256 := "provenance"
  createdAt := "2026-01-01T00:00:00.000000+00:00"
  noSelfLoop := noSelfLoop

def inputId : Identifier := ⟨"input", by decide⟩
def answerId : Identifier := ⟨"answer", by decide⟩
def sharedId : Identifier := ⟨"shared", by decide⟩

/-- An input that is read by a call which writes an answer. -/
def chain : SemanticFlowBundle where
  entities := [sampleEntity inputId, sampleEntity answerId]
  activities := [sampleActivity sharedId]
  edges := [
    sampleEdge ⟨"edge_1", by decide⟩ ⟨.entity, inputId⟩ ⟨.activity, sharedId⟩ (by decide),
    sampleEdge ⟨"edge_2", by decide⟩ ⟨.activity, sharedId⟩ ⟨.entity, answerId⟩ (by decide)]

/-- Nodes whose identifiers tell them apart. -/
theorem unambiguous_of_ids {id : Identifier}
    (root : ∀ edge ∈ graph.edges, edge.target.nodeId = id → edge.target = ⟨.entity, id⟩)
    (sources : ∀ edge ∈ graph.edges, ∀ other ∈ graph.edges,
      edge.target.nodeId = other.source.nodeId → edge.target = other.source) :
    graph.Unambiguous id := by
  intro record found edge stored inScope node upstream into
  rcases Relation.ReflTransGen.cases_head upstream with same | ⟨next, ⟨other, listed, rfl, -⟩, -⟩
  · rw [same] at into ⊢
    exact root edge stored into
  · exact sources edge stored other listed into

theorem report_of_status (bundles : List SemanticFlowBundle) (entityId : String) (maxDepth : Nat)
    (id : Identifier) (status : ((empty.appends bundles).coverage entityId maxDepth).map
      (fun answer => answer.map fun report => (report.status, report.entityId)) =
        .ok (some (.complete, id))) :
    ∃ report, (empty.appends bundles).coverage entityId maxDepth = .ok (some report) ∧
      report.status = .complete ∧ report.entityId = id := by
  obtain ⟨answer, done, shape⟩ := Run.map_eq_ok.mp status
  obtain ⟨report, rfl, parts⟩ := Option.map_eq_some_iff.mp shape
  exact ⟨report, done, Prod.mk.inj parts⟩

theorem complete_coverage_omits_nothing_chain :
    ∃ report, (empty.appends [chain]).coverage "answer" 8 = .ok (some report) ∧
      (empty.appends [chain]).OmitsNothing report
        ((empty.appends [chain]).visited report.entityId 8) := by
  obtain ⟨report, done, complete, name⟩ :=
    report_of_status [chain] "answer" 8 answerId (by decide +kernel)
  refine ⟨report, done,
    (((complete_coverage_omits_nothing [chain] "answer" 8).2 report done complete).1 ?_)⟩
  rw [name]
  exact unambiguous_of_ids (by decide +kernel) (by decide +kernel)

/-- A call that reads and writes one object, and an entity with the identifier of the call: the
edge into the call is taken for an edge into the entity. -/
def namesakes : SemanticFlowBundle where
  entities := [sampleEntity sharedId, sampleEntity inputId, sampleEntity answerId]
  activities := [sampleActivity sharedId]
  edges := [
    sampleEdge ⟨"edge_1", by decide⟩ ⟨.entity, sharedId⟩ ⟨.entity, answerId⟩ (by decide),
    sampleEdge ⟨"edge_2", by decide⟩ ⟨.entity, inputId⟩ ⟨.activity, sharedId⟩ (by decide),
    sampleEdge ⟨"edge_3", by decide⟩ ⟨.activity, sharedId⟩ ⟨.entity, inputId⟩ (by decide),
    sampleEdge ⟨"edge_4", by decide⟩ ⟨.activity, sharedId⟩ ⟨.entity, answerId⟩ (by decide)]

theorem cycle_reported_complete :
    ¬ ∀ (bundles : List SemanticFlowBundle) (entityId : String) (maxDepth : Nat)
      (report : FlowCoverageReport),
      (empty.appends bundles).coverage entityId maxDepth = .ok (some report) →
      report.status = .complete → (empty.appends bundles).OmitsNothing report
        ((empty.appends bundles).visited report.entityId maxDepth) := by
  intro claim
  obtain ⟨report, done, complete, name⟩ :=
    report_of_status [namesakes] "answer" 8 answerId (by decide +kernel)
  have promise := claim [namesakes] "answer" 8 report done complete
  have reads : (empty.appends [namesakes]).Flows ⟨.entity, inputId⟩ ⟨.activity, sharedId⟩ := by
    unfold Flows
    decide +kernel
  have writes : (empty.appends [namesakes]).Flows ⟨.activity, sharedId⟩ ⟨.entity, inputId⟩ := by
    unfold Flows
    decide +kernel
  have answers : (empty.appends [namesakes]).Flows ⟨.activity, sharedId⟩ ⟨.entity, answerId⟩ := by
    unfold Flows
    decide +kernel
  rw [← name] at answers
  exact promise.acyclic ⟨.activity, sharedId⟩ (.single answers) (.tail (.single writes) reads)

end SemanticFlowGraph
end AgentLibOS.Semantic
