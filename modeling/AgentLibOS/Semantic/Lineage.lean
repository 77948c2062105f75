import AgentLibOS.Library.CycleCheck
import AgentLibOS.Semantic.FlowLabels
import Mathlib.Data.List.Sort
import Mathlib.Data.Prod.Lex
import Mathlib.Data.String.Basic

namespace AgentLibOS.Semantic
open Library CycleCheck

def semanticV6QueryHardLimit : Nat := 500
def semanticFlowLineageHardLimit : Nat := 1000
def flowLineageDepthHardLimit : Nat := 16
def flowLabelAssertionHardLimit : Nat := 256

/-! ## Pages -/

/-- The order of the pairs `(created_at, record_id)`. -/
abbrev SemanticV6Cursor := Lex (String × String)

def cursorOf (createdAt : String) (recordId : Identifier) : SemanticV6Cursor :=
  toLex (createdAt, recordId.val)

def SemanticFlowEdgeRecord.cursor (edge : SemanticFlowEdgeRecord) : SemanticV6Cursor :=
  cursorOf edge.createdAt edge.edgeId

def SemanticFlowLabelAssertionRecord.cursor (assertion : SemanticFlowLabelAssertionRecord) :
    SemanticV6Cursor :=
  cursorOf assertion.createdAt assertion.assertionId

structure SemanticFlowPage (ρ : Type) where
  records : List ρ
  nextCursor : Option SemanticV6Cursor

/-- `records_page`: the query has asked for one row more than the limit. -/
def recordsPage {ρ : Type} (cursor : ρ → SemanticV6Cursor) (rows : List ρ) (limit : Nat) :
    SemanticFlowPage ρ where
  records := rows.take limit
  nextCursor := if limit < rows.length then (rows.take limit).getLast?.map cursor else none

def beyond (after : Option SemanticV6Cursor) (cursor : SemanticV6Cursor) : Bool :=
  match after with
  | none => true
  | some start => start < cursor

/-- `_query_v6_page`. -/
def queryPage {ρ : Type} (cursor : ρ → SemanticV6Cursor) (rows : List ρ)
    (after : Option SemanticV6Cursor) (limit : Nat) : SemanticFlowPage ρ :=
  let ordered := (rows.filter fun row => beyond after (cursor row)).insertionSort
    fun left right => cursor left ≤ cursor right
  recordsPage cursor (ordered.take (limit + 1)) limit

inductive FlowLineageDirection
  | upstream | downstream
  deriving DecidableEq, Repr

namespace SemanticFlowGraph

/-- The filter of the edge query, by process and by the identifier of an endpoint of any type. -/
def edgesAt (graph : SemanticFlowGraph) (pid : Option Identifier) (nodeId : Identifier) :
    List SemanticFlowEdgeRecord :=
  graph.edges.filter fun edge => (pid.all fun selected => edge.pid = selected) &&
    (edge.source.nodeId = nodeId || edge.target.nodeId = nodeId)

def querySemanticFlowEdges (graph : SemanticFlowGraph) (after : Option SemanticV6Cursor)
    (limit : Nat) (pid : Option Identifier) (nodeId : Identifier) :
    SemanticFlowPage SemanticFlowEdgeRecord :=
  queryPage (·.cursor) (graph.edgesAt pid nodeId) after limit

def querySemanticFlowLabelAssertions (graph : SemanticFlowGraph) (after : Option SemanticV6Cursor)
    (limit : Nat) (entityId : Identifier) : SemanticFlowPage SemanticFlowLabelAssertionRecord :=
  queryPage (·.cursor) (graph.assertions.filter (·.entityId = entityId)) after limit

/-- `_iter_lineage_edges`, page by page; each page but the last moves the cursor forward. -/
def iterPages (graph : SemanticFlowGraph) (pid : Option Identifier) (nodeId : Identifier) :
    Nat → Option SemanticV6Cursor → List SemanticFlowEdgeRecord
  | 0, _ => []
  | fuel + 1, after =>
      let page := graph.querySemanticFlowEdges after semanticV6QueryHardLimit pid nodeId
      match page.nextCursor with
      | none => page.records
      | some next => page.records ++ graph.iterPages pid nodeId fuel (some next)

def iterLineageEdges (graph : SemanticFlowGraph) (pid : Option Identifier)
    (nodeId : Identifier) : List SemanticFlowEdgeRecord :=
  graph.iterPages pid nodeId (graph.edges.length + 1) none

/-! ## The traversal -/

inductive FlowRecord
  | entity (record : SemanticFlowEntityRecord)
  | activity (record : SemanticFlowActivityRecord)

def FlowRecord.pid : FlowRecord → Option Identifier
  | .entity record => record.pid
  | .activity record => some record.pid

def FlowRecord.tenantBucketSha256 : FlowRecord → String
  | .entity record => record.tenantBucketSha256
  | .activity record => record.tenantBucketSha256

def getNode (graph : SemanticFlowGraph) (node : FlowNode) : Option FlowRecord :=
  match node.nodeType with
  | .entity => (graph.getEntity node.nodeId).map .entity
  | .activity => (graph.getActivity node.nodeId).map .activity

structure LineageItem where
  depth : Nat
  edge : SemanticFlowEdgeRecord
  nodeType : FlowNodeType
  node : Option FlowRecord

structure LineageTraversalResult where
  discovered : List LineageItem
  traversalTruncated : Bool
  scopeConflict : Bool
  cycleDetected : Bool
  missingNode : Bool

/-- The root of a traversal with its process and its tenant bucket. -/
structure LineageRoot where
  node : FlowNode
  record : Option FlowRecord

def LineageRoot.pid (root : LineageRoot) : Option Identifier := root.record.bind (·.pid)

def LineageRoot.tenantBucketSha256 (root : LineageRoot) : Option String :=
  root.record.map (·.tenantBucketSha256)

def resolveLineageRoot (graph : SemanticFlowGraph) (nodeId : Identifier) : LineageRoot :=
  match graph.getNode ⟨.entity, nodeId⟩ with
  | some record => ⟨⟨.entity, nodeId⟩, some record⟩
  | none => ⟨⟨.activity, nodeId⟩, graph.getNode ⟨.activity, nodeId⟩⟩

/-- The far end of an edge; the near end is compared by its identifier alone. -/
def lineageAdjacent (edge : SemanticFlowEdgeRecord) (selectedNodeId : Identifier) :
    FlowLineageDirection → Option FlowNode
  | .upstream => if edge.target.nodeId ≠ selectedNodeId then none else some edge.source
  | .downstream => if edge.source.nodeId ≠ selectedNodeId then none else some edge.target

/-- `_scoped_lineage_node`: the node, whether it is missing, whether it leaves the scope. -/
def scopedLineageNode (graph : SemanticFlowGraph) (root : LineageRoot) (node : FlowNode) :
    Option FlowRecord × Bool × Bool :=
  match graph.getNode node with
  | none => (none, true, false)
  | some selected =>
      if selected.pid ≠ root.pid ∨ some selected.tenantBucketSha256 ≠ root.tenantBucketSha256 then
        (none, false, true)
      else (some selected, false, false)

structure Scan where
  frontier : List (FlowNode × Nat)
  seenNodes : List FlowNode
  seenEdges : List Identifier
  adjacency : Adjacency FlowNode
  discovered : List LineageItem
  truncated : Bool
  conflict : Bool
  missing : Bool

def Scan.start (root : LineageRoot) : Scan where
  frontier := [(root.node, 0)]
  seenNodes := [root.node]
  seenEdges := []
  adjacency := .single root.node
  discovered := []
  truncated := false
  conflict := false
  missing := root.record.isNone

def Scan.result (scan : Scan) (truncated : Bool) : LineageTraversalResult where
  discovered := scan.discovered
  traversalTruncated := truncated
  scopeConflict := scan.conflict
  cycleDetected := hasCycle scan.adjacency
  missingNode := scan.missing

/-- What an edge adds to the scan, apart from the frontier. -/
def Scan.discover (graph : SemanticFlowGraph) (root : LineageRoot) (selected : FlowNode)
    (depth : Nat) (scan : Scan) (edge : SemanticFlowEdgeRecord) (key : FlowNode) : Scan :=
  let (adjacent, edgeMissing, edgeConflict) := graph.scopedLineageNode root key
  { scan with
    seenEdges := edge.edgeId :: scan.seenEdges
    missing := scan.missing || edgeMissing
    conflict := scan.conflict || edgeConflict
    adjacency :=
      if adjacent.isSome then (scan.adjacency.link selected key).touch key else scan.adjacency
    discovered := scan.discovered ++ [⟨depth + 1, edge, key.nodeType, adjacent⟩] }

def Scan.enqueue (scan : Scan) (key : FlowNode) (depth : Nat) : Scan :=
  if key ∈ scan.seenNodes then scan
  else { scan with
    seenNodes := key :: scan.seenNodes
    frontier := scan.frontier ++ [(key, depth)] }

/-- The body of the inner loop; an error is the early return of the traversal. -/
def scanEdge (graph : SemanticFlowGraph) (root : LineageRoot) (direction : FlowLineageDirection)
    (selected : FlowNode) (depth : Nat) (scan : Scan) (edge : SemanticFlowEdgeRecord) :
    Except LineageTraversalResult Scan :=
  match lineageAdjacent edge selected.nodeId direction with
  | none => .ok scan
  | some key =>
      if edge.edgeId ∈ scan.seenEdges then .ok scan
      else
        let next := scan.discover graph root selected depth edge key
        if semanticFlowLineageHardLimit ≤ next.discovered.length then .error (next.result true)
        else if (graph.scopedLineageNode root key).1.isSome then .ok (next.enqueue key (depth + 1))
        else .ok next

/-- The outer loop; `none` when the fuel runs out. -/
def scanNodes (graph : SemanticFlowGraph) (root : LineageRoot) (direction : FlowLineageDirection)
    (maxDepth : Nat) : Nat → Scan → Option LineageTraversalResult
  | 0, _ => none
  | fuel + 1, scan =>
      match scan.frontier with
      | [] => some (scan.result scan.truncated)
      | (selected, depth) :: frontier =>
          if maxDepth ≤ depth then
            graph.scanNodes root direction maxDepth fuel { scan with frontier, truncated := true }
          else
            match (graph.iterLineageEdges root.pid selected.nodeId).foldlM
              (graph.scanEdge root direction selected depth) { scan with frontier } with
            | .error result => some result
            | .ok next => graph.scanNodes root direction maxDepth fuel next

/-- Every discovered edge adds one node at most, so the limit bounds the rounds. -/
def scanLineage (graph : SemanticFlowGraph) (root : LineageRoot)
    (direction : FlowLineageDirection) (maxDepth : Nat) : Option LineageTraversalResult :=
  graph.scanNodes root direction maxDepth (semanticFlowLineageHardLimit + 2) (.start root)

/-! ## Labels, lineage and coverage -/

def effectiveLabels (graph : SemanticFlowGraph) (entityId : Identifier) :
    Except ValidationError FlowEffectiveLabels :=
  match graph.getEntity entityId with
  | none => .ok ⟨{}, .unknown, 0, 0⟩
  | some entity => do
      let page := graph.querySemanticFlowLabelAssertions none flowLabelAssertionHardLimit entityId
      let effective ← computeEffectiveLabels entity.baselineLabels page.records entity.coverage
      if page.nextCursor.isNone then .ok effective
      else .ok { effective with coverage := worseCoverage effective.coverage .partial_ }

def lineageCoverage (baseline : FlowCoverageStatus) (traversal : LineageTraversalResult) :
    FlowCoverageStatus :=
  if traversal.scopeConflict ∨ traversal.cycleDetected then .conflict
  else if traversal.missingNode then worseCoverage baseline .unknown
  else if traversal.traversalTruncated then worseCoverage baseline .partial_
  else baseline

def paginateLineage (discovered : List LineageItem) (after : Option SemanticV6Cursor)
    (limit : Nat) : List LineageItem × Option SemanticV6Cursor × Bool :=
  let ordered := (discovered.insertionSort fun left right =>
    left.edge.cursor ≤ right.edge.cursor).filter fun item => beyond after item.edge.cursor
  let selected := ordered.take limit
  let truncated := decide (limit < ordered.length)
  (selected, if truncated then selected.getLast?.map (·.edge.cursor) else none, truncated)

structure Lineage where
  rootNodeId : Identifier
  direction : FlowLineageDirection
  items : List LineageItem
  effectiveLabels : FlowLabelVector
  coverage : FlowCoverageStatus
  nextCursor : Option SemanticV6Cursor
  truncated : Bool

/-- `lineage` over `_fallback_lineage`; `none` when the traversal runs out of fuel. -/
def lineage (graph : SemanticFlowGraph) (nodeId : Identifier) (direction : FlowLineageDirection)
    (after : Option SemanticV6Cursor) (limit maxDepth : Nat) :
    Except ValidationError (Option Lineage) := do
  Run.ensure (1 ≤ limit ∧ limit ≤ semanticFlowLineageHardLimit)
    "semantic v6 query limit must be between 1 and 1000"
  Run.ensure (1 ≤ maxDepth ∧ maxDepth ≤ flowLineageDepthHardLimit)
    "flow lineage depth must be between 1 and 16"
  match graph.scanLineage (graph.resolveLineageRoot nodeId) direction maxDepth with
  | none => .ok none
  | some traversal =>
      let (items, nextCursor, pageTruncated) := paginateLineage traversal.discovered after limit
      let effective ← graph.effectiveLabels nodeId
      .ok (some
        { rootNodeId := nodeId
          direction
          items
          effectiveLabels := effective.labels
          coverage := lineageCoverage effective.coverage traversal
          nextCursor
          truncated := traversal.traversalTruncated || pageTruncated })

structure FlowCoverageReport where
  entityId : Identifier
  status : FlowCoverageStatus
  effectiveLabels : FlowLabelVector
  entityCount : Nat
  activityCount : Nat
  edgeCount : Nat
  assertionCount : Nat
  maxDepth : Nat

/-- The local variables of `coverage`; `seenEntities` is in the order of the visits. -/
structure CoverageScan where
  aggregateLabels : FlowLabelVector
  assertionCount : Nat
  seenEntities : List Identifier
  activities : Nat
  status : FlowCoverageStatus
  deepest : Nat

def coverItem (graph : SemanticFlowGraph) (scan : CoverageScan) (item : LineageItem) :
    Except ValidationError CoverageScan :=
  let scan := { scan with deepest := max scan.deepest item.depth }
  match item.node, item.nodeType with
  | none, _ => .ok { scan with status := worseCoverage scan.status .unknown }
  | some _, .activity => .ok { scan with activities := scan.activities + 1 }
  | some (.activity _), .entity => .ok scan
  | some (.entity record), .entity =>
      if record.entityId ∈ scan.seenEntities then .ok scan
      else do
        let upstream ← graph.effectiveLabels record.entityId
        .ok { scan with
          seenEntities := scan.seenEntities ++ [record.entityId]
          aggregateLabels := scan.aggregateLabels.tighten upstream.labels
          assertionCount := scan.assertionCount + upstream.assertionCount
          status := worseCoverage (worseCoverage scan.status record.coverage) upstream.coverage }

/-- The scan over the items of the lineage; `none` when the traversal runs out of fuel. -/
def coverageScan (graph : SemanticFlowGraph) (entityId : Identifier) (maxDepth : Nat) :
    Except ValidationError (Option (CoverageScan × Lineage)) := do
  let lineage ← graph.lineage entityId .upstream none semanticFlowLineageHardLimit maxDepth
  let effective ← graph.effectiveLabels entityId
  match lineage with
  | none => .ok none
  | some lineage => do
      let scan ← lineage.items.foldlM graph.coverItem
        { aggregateLabels := effective.labels
          assertionCount := effective.assertionCount
          seenEntities := [entityId]
          activities := 0
          status := worseCoverage effective.coverage lineage.coverage
          deepest := 0 }
      .ok (some (scan, lineage))

def requireIdentifier (value label : String) : Except ValidationError Identifier :=
  if valid : canonicalText value 512 = true then .ok ⟨value, valid⟩
  else .error s!"{label} must be bounded canonical text"

def coverage (graph : SemanticFlowGraph) (entityId : String) (maxDepth : Nat) :
    Except ValidationError (Option FlowCoverageReport) := do
  let selectedEntityId ← requireIdentifier entityId "flow coverage entity"
  match graph.getEntity selectedEntityId with
  | none => .ok (some ⟨selectedEntityId, .unknown, {}, 0, 0, 0, 0, 0⟩)
  | some _ => do
      let scanned ← graph.coverageScan selectedEntityId maxDepth
      .ok (scanned.map fun (scan, lineage) =>
        { entityId := selectedEntityId
          status := if lineage.truncated then worseCoverage scan.status .partial_ else scan.status
          effectiveLabels := scan.aggregateLabels
          entityCount := scan.seenEntities.length
          activityCount := scan.activities
          edgeCount := lineage.items.length
          assertionCount := scan.assertionCount
          maxDepth := scan.deepest })

end SemanticFlowGraph
end AgentLibOS.Semantic
