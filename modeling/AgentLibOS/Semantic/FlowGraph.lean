import AgentLibOS.Library.Run
import AgentLibOS.Memory.DataLabels

namespace AgentLibOS.Semantic
open Library Library.Text Memory

/-! ## Records -/

def canonicalText (value : String) (maximum : Nat) : Bool :=
  value != "" && decide (value.length ≤ maximum) &&
    value.toList == strip isSpace value.toList && value.toList.all fun c => 32 ≤ c.toNat

/-- A text that `_text` and `_require_identifier` accept. -/
abbrev Identifier := {value : String // canonicalText value 512 = true}

inductive FlowNodeType
  | entity | activity
  deriving DecidableEq, Repr

structure FlowNode where
  nodeType : FlowNodeType
  nodeId : Identifier
  deriving DecidableEq

inductive FlowEntityKind
  | rootGoal | objectVersion | fileBindingVersion | providerResult | toolResult | materialization
  | modelOutput
  deriving DecidableEq, Repr

inductive FlowActivityKind
  | processSpawn | providerCall | toolCall | llmCall | objectCreate | objectUpdate | objectAppend
  | objectMaterialize | objectRead | fileRead | fileWrite | transformation | aggregation
  | conditional | toolSelection | memoryRetrieval
  deriving DecidableEq, Repr

inductive FlowEdgeRelation
  | direct | indirect | control
  deriving DecidableEq, Repr

inductive FlowLabelSource
  | host | model | deterministic
  deriving DecidableEq, Repr

inductive FlowCoverageStatus
  | complete | partial_ | unknown | stale | conflict
  deriving DecidableEq, Repr

structure FlowLabelVector where
  sensitivity : DataSensitivity := .normal
  trustLevel : DataTrustLevel := .unknown
  integrity : DataIntegrity := .unknown
  deriving DecidableEq, Repr

@[ext] structure SemanticFlowEntityRecord where
  entityId : Identifier
  kind : FlowEntityKind
  pid : Option Identifier
  tenantBucketSha256 : String
  contentSha256 : String
  versionSha256 : String
  provenanceSha256 : String
  baselineLabels : FlowLabelVector
  identityPresent : Bool
  identityMixed : Bool
  coverage : FlowCoverageStatus
  createdAt : String
  mixedPresent : identityMixed = true → identityPresent = true
  deriving DecidableEq

structure SemanticFlowActivityRecord where
  activityId : Identifier
  kind : FlowActivityKind
  pid : Identifier
  actionId : Option Identifier
  effectId : Option Identifier
  stateSha256 : String
  providerSpecSha256 : Option String
  toolSchemaSha256 : Option String
  modelArtifactSha256 : Option String
  tenantBucketSha256 : String
  createdAt : String
  deriving DecidableEq

structure SemanticFlowEdgeRecord where
  edgeId : Identifier
  relation : FlowEdgeRelation
  source : FlowNode
  target : FlowNode
  pid : Identifier
  provenanceSha256 : String
  createdAt : String
  noSelfLoop : source ≠ target
  deriving DecidableEq

inductive FlowDataLocator
  | jsonField (locatorSha256 : String) (path : List String) (valueSha256 : String)
      (named : path ≠ [])
  | textChunk (locatorSha256 valueSha256 : String) (ordinal offsetStart offsetEnd : Nat)
      (nonempty : offsetStart < offsetEnd)
  deriving DecidableEq

/-- The bounds are free texts; they are read when labels are computed. -/
structure SemanticFlowLabelAssertionRecord where
  assertionId : Identifier
  entityId : Identifier
  source : FlowLabelSource
  sensitivityFloor : String
  integrityCeiling : String
  trustCeiling : String
  evidenceSha256 : String
  assessmentId : Option Identifier
  locator : Option FlowDataLocator
  category : Option String
  coverage : FlowCoverageStatus
  createdAt : String
  deriving DecidableEq

/-- `ValidationError`, by its message. -/
abbrev ValidationError := String

/-! ## The append-only tables -/

section Exact
variable {ρ : Type} [DecidableEq ρ]

def rowOf (identity : ρ → Identifier) (rows : List ρ) (id : Identifier) : Option ρ :=
  rows.find? fun row => identity row = id

/-- `_append_v6_exact`. -/
def appendExact (table : String) (identity : ρ → Identifier) (rows : List ρ) (record : ρ) :
    Except ValidationError (List ρ) :=
  match rowOf identity rows (identity record) with
  | some existing =>
      if existing = record then .ok rows
      else .error s!"append-only {table} identity conflicts with existing evidence"
  | none => .ok (rows ++ [record])

end Exact

structure SemanticFlowGraph where
  entities : List SemanticFlowEntityRecord
  activities : List SemanticFlowActivityRecord
  edges : List SemanticFlowEdgeRecord
  assertions : List SemanticFlowLabelAssertionRecord

structure SemanticFlowBundle where
  entities : List SemanticFlowEntityRecord := []
  activities : List SemanticFlowActivityRecord := []
  edges : List SemanticFlowEdgeRecord := []
  assertions : List SemanticFlowLabelAssertionRecord := []

namespace SemanticFlowGraph

def empty : SemanticFlowGraph := ⟨[], [], [], []⟩

def getEntity (graph : SemanticFlowGraph) (id : Identifier) : Option SemanticFlowEntityRecord :=
  rowOf (·.entityId) graph.entities id

def getActivity (graph : SemanticFlowGraph) (id : Identifier) :
    Option SemanticFlowActivityRecord :=
  rowOf (·.activityId) graph.activities id

/-- The process and the tenant bucket of a node. -/
def endpoint (graph : SemanticFlowGraph) (node : FlowNode) : Option (Option Identifier × String) :=
  match node.nodeType with
  | .entity => (graph.getEntity node.nodeId).map fun row => (row.pid, row.tenantBucketSha256)
  | .activity =>
      (graph.getActivity node.nodeId).map fun row => (some row.pid, row.tenantBucketSha256)

def checkEndpoint (graph : SemanticFlowGraph) (edge : SemanticFlowEdgeRecord) (node : FlowNode) :
    Except ValidationError String :=
  match graph.endpoint node with
  | none => .error "semantic flow edge references an unknown node"
  | some (pid, tenantBucketSha256) =>
      if pid = some edge.pid then .ok tenantBucketSha256
      else .error "semantic flow edge PID scope is inconsistent"

def validateSemanticFlowEdgeScope (graph : SemanticFlowGraph) (edge : SemanticFlowEdgeRecord) :
    Except ValidationError Unit := do
  let source ← graph.checkEndpoint edge edge.source
  let target ← graph.checkEndpoint edge edge.target
  if source = target then .ok () else .error "semantic flow edge cannot cross tenant buckets"

def validateAssertion (graph : SemanticFlowGraph) (value : SemanticFlowLabelAssertionRecord) :
    Except ValidationError Unit :=
  if (graph.getEntity value.entityId).isSome then .ok ()
  else .error "semantic flow assertion references an unknown entity"

def appendSemanticFlowBundle (graph : SemanticFlowGraph) (bundle : SemanticFlowBundle) :
    Except ValidationError SemanticFlowGraph := do
  let entities ← bundle.entities.foldlM
    (appendExact "semantic_flow_entities" (·.entityId)) graph.entities
  let activities ← bundle.activities.foldlM
    (appendExact "semantic_flow_activities" (·.activityId)) graph.activities
  let nodes := { graph with entities, activities }
  bundle.edges.forM nodes.validateSemanticFlowEdgeScope
  let edges ← bundle.edges.foldlM (appendExact "semantic_flow_edges" (·.edgeId)) graph.edges
  bundle.assertions.forM nodes.validateAssertion
  let assertions ← bundle.assertions.foldlM
    (appendExact "semantic_flow_label_assertions" (·.assertionId)) graph.assertions
  .ok { nodes with edges, assertions }

/-- The graph after a sequence of appends, each in a transaction of its own. -/
def appends (graph : SemanticFlowGraph) (bundles : List SemanticFlowBundle) : SemanticFlowGraph :=
  Run.run (Run.transact appendSemanticFlowBundle) graph bundles

end SemanticFlowGraph

/-! ## What an append keeps -/

section Exact
variable {ρ : Type} [DecidableEq ρ] {table : String} {identity : ρ → Identifier}
  {rows rows' : List ρ}

/-- An append refuses, repeats a row, or adds one under a new identity. -/
theorem appendExact_cases {record : ρ} (done : appendExact table identity rows record = .ok rows') :
    (rows' = rows ∧ record ∈ rows) ∨
      (rows' = rows ++ [record] ∧ ∀ row ∈ rows, identity row ≠ identity record) := by
  unfold appendExact at done
  cases found : rowOf identity rows (identity record) with
  | some existing =>
      simp only [found] at done
      by_cases same : existing = record
      · rw [if_pos same] at done
        cases done
        exact Or.inl ⟨rfl, same ▸ List.mem_of_find?_eq_some found⟩
      · rw [if_neg same] at done
        cases done
  | none =>
      simp only [found] at done
      cases done
      refine Or.inr ⟨rfl, fun row inside => ?_⟩
      simpa using List.find?_eq_none.mp found row inside

omit [DecidableEq ρ]

/-- The rows after a batch of appends: the rows before it, and new ones under new identities. -/
structure Extends (identity : ρ → Identifier) (rows rows' : List ρ) : Prop where
  added : ∃ new, rows' = rows ++ new
  nodup : (rows.map identity).Nodup → (rows'.map identity).Nodup

theorem Extends.refl (rows : List ρ) : Extends identity rows rows :=
  ⟨⟨[], (List.append_nil rows).symm⟩, id⟩

theorem Extends.trans {rows'' : List ρ} (first : Extends identity rows rows')
    (second : Extends identity rows' rows'') : Extends identity rows rows'' := by
  obtain ⟨new, rfl⟩ := first.added
  obtain ⟨newer, rfl⟩ := second.added
  exact ⟨⟨new ++ newer, List.append_assoc rows new newer⟩, fun nodup => second.nodup (first.nodup nodup)⟩

theorem Extends.mem {row : ρ} (extended : Extends identity rows rows') (inside : row ∈ rows) :
    row ∈ rows' := by
  obtain ⟨new, rfl⟩ := extended.added
  exact List.mem_append_left new inside

theorem Extends.rowOf {id : Identifier} {row : ρ} (extended : Extends identity rows rows')
    (found : rowOf identity rows id = some row) : rowOf identity rows' id = some row := by
  obtain ⟨new, rfl⟩ := extended.added
  unfold Semantic.rowOf at found ⊢
  rw [List.find?_append, found, Option.some_or]

variable [DecidableEq ρ]

theorem extends_append {record : ρ} (done : appendExact table identity rows record = .ok rows') :
    Extends identity rows rows' := by
  obtain ⟨rfl, -⟩ | ⟨rfl, fresh⟩ := appendExact_cases done
  · exact Extends.refl rows'
  · refine ⟨⟨[record], rfl⟩, fun nodup => ?_⟩
    rw [List.map_append, List.map_singleton]
    refine List.nodup_append.mpr ⟨nodup, List.nodup_singleton _, ?_⟩
    intro id inside id' here same
    obtain ⟨row, listed, rfl⟩ := List.mem_map.mp inside
    exact fresh row listed (same.trans (List.mem_singleton.mp here))

theorem extends_appendAll {records : List ρ}
    (done : records.foldlM (appendExact table identity) rows = .ok rows') :
    Extends identity rows rows' :=
  Run.foldlM_keeps (fun here before => before.trans (extends_append here)) done
    (Extends.refl rows)

/-- A row of the table was there before or is one of the appended records. -/
theorem mem_appendAll {records : List ρ}
    (done : records.foldlM (appendExact table identity) rows = .ok rows') {row : ρ}
    (inside : row ∈ rows') : row ∈ rows ∨ row ∈ records := by
  induction records generalizing rows with
  | nil =>
      cases done
      exact Or.inl inside
  | cons record records ih =>
      rw [List.foldlM_cons, Run.bind_eq_ok] at done
      obtain ⟨next, here, later⟩ := done
      rcases ih later with before | new
      · obtain ⟨rfl, -⟩ | ⟨rfl, -⟩ := appendExact_cases here
        · exact Or.inl before
        · rcases List.mem_append.mp before with old | this
          · exact Or.inl old
          · exact Or.inr (List.mem_singleton.mp this ▸ List.mem_cons_self)
      · exact Or.inr (List.mem_cons_of_mem record new)

omit [DecidableEq ρ] in
theorem rowOf_of_mem {row : ρ} (nodup : (rows.map identity).Nodup) (inside : row ∈ rows) :
    rowOf identity rows (identity row) = some row := by
  have found := List.find?_isSome.mpr
    (show ∃ x ∈ rows, (decide (identity x = identity row)) = true from ⟨row, inside, by simp⟩)
  obtain ⟨other, here⟩ := Option.isSome_iff_exists.mp found
  have same : identity other = identity row := by simpa using List.find?_some here
  have listed := List.mem_of_find?_eq_some here
  rw [rowOf, here, List.inj_on_of_nodup_map nodup listed inside same]

end Exact

namespace SemanticFlowGraph

/-- The tables of `later` extend those of `graph`. -/
structure Grows (graph later : SemanticFlowGraph) : Prop where
  entities : Extends (·.entityId) graph.entities later.entities
  activities : Extends (·.activityId) graph.activities later.activities
  edges : Extends (·.edgeId) graph.edges later.edges
  assertions : Extends (·.assertionId) graph.assertions later.assertions

theorem Grows.refl (graph : SemanticFlowGraph) : graph.Grows graph :=
  ⟨.refl _, .refl _, .refl _, .refl _⟩

theorem Grows.trans {graph later last : SemanticFlowGraph} (first : graph.Grows later)
    (second : later.Grows last) : graph.Grows last :=
  ⟨first.entities.trans second.entities, first.activities.trans second.activities,
    first.edges.trans second.edges, first.assertions.trans second.assertions⟩

structure WellFormed (graph : SemanticFlowGraph) : Prop where
  entityIds : (graph.entities.map (·.entityId)).Nodup
  edgeIds : (graph.edges.map (·.edgeId)).Nodup
  assertionIds : (graph.assertions.map (·.assertionId)).Nodup
  checked : ∀ edge ∈ graph.edges, graph.validateSemanticFlowEdgeScope edge = .ok ()

theorem wellFormed_empty : empty.WellFormed :=
  ⟨List.nodup_nil, List.nodup_nil, List.nodup_nil, fun _ inside => nomatch inside⟩

variable {graph later : SemanticFlowGraph}

theorem Grows.endpoint (grows : graph.Grows later) {node : FlowNode}
    {scope : Option Identifier × String} (found : graph.endpoint node = some scope) :
    later.endpoint node = some scope := by
  unfold SemanticFlowGraph.endpoint at found ⊢
  cases kind : node.nodeType with
  | entity =>
      simp only [kind, Option.map_eq_some_iff] at found ⊢
      obtain ⟨row, here, same⟩ := found
      exact ⟨row, grows.entities.rowOf here, same⟩
  | activity =>
      simp only [kind, Option.map_eq_some_iff] at found ⊢
      obtain ⟨row, here, same⟩ := found
      exact ⟨row, grows.activities.rowOf here, same⟩

theorem checkEndpoint_ok {edge : SemanticFlowEdgeRecord} {node : FlowNode} {tenant : String} :
    graph.checkEndpoint edge node = .ok tenant ↔
      graph.endpoint node = some (some edge.pid, tenant) := by
  unfold checkEndpoint
  cases graph.endpoint node with
  | none => simp
  | some scope =>
      obtain ⟨pid, bucket⟩ := scope
      by_cases same : pid = some edge.pid <;> simp [same]

/-- An edge runs within one process and one tenant bucket. -/
theorem validateSemanticFlowEdgeScope_ok {edge : SemanticFlowEdgeRecord} :
    graph.validateSemanticFlowEdgeScope edge = .ok () ↔ ∃ tenant,
      graph.endpoint edge.source = some (some edge.pid, tenant) ∧
        graph.endpoint edge.target = some (some edge.pid, tenant) := by
  unfold validateSemanticFlowEdgeScope
  simp only [Run.bind_eq_ok, checkEndpoint_ok]
  constructor
  · rintro ⟨source, left, target, right, done⟩
    by_cases same : source = target
    · exact ⟨source, left, same ▸ right⟩
    · rw [if_neg same] at done
      cases done
  · rintro ⟨tenant, left, right⟩
    exact ⟨tenant, left, tenant, right, if_pos rfl⟩

theorem Grows.checked (grows : graph.Grows later) {edge : SemanticFlowEdgeRecord}
    (checked : graph.validateSemanticFlowEdgeScope edge = .ok ()) :
    later.validateSemanticFlowEdgeScope edge = .ok () := by
  obtain ⟨tenant, left, right⟩ := validateSemanticFlowEdgeScope_ok.mp checked
  exact validateSemanticFlowEdgeScope_ok.mpr ⟨tenant, grows.endpoint left, grows.endpoint right⟩

/-- What one append does: every table is extended and every new edge has been checked. -/
theorem appendSemanticFlowBundle_cases {bundle : SemanticFlowBundle}
    (done : graph.appendSemanticFlowBundle bundle = .ok later) :
    graph.Grows later ∧ ∀ edge ∈ later.edges, edge ∈ graph.edges ∨
      later.validateSemanticFlowEdgeScope edge = .ok () := by
  unfold appendSemanticFlowBundle at done
  obtain ⟨entities, entitiesDone, done⟩ := Run.bind_eq_ok.mp done
  obtain ⟨activities, activitiesDone, done⟩ := Run.bind_eq_ok.mp done
  obtain ⟨⟨⟩, checked, done⟩ := Run.bind_eq_ok.mp done
  obtain ⟨edges, edgesDone, done⟩ := Run.bind_eq_ok.mp done
  obtain ⟨⟨⟩, -, done⟩ := Run.bind_eq_ok.mp done
  obtain ⟨assertions, assertionsDone, done⟩ := Run.bind_eq_ok.mp done
  cases done
  refine ⟨⟨extends_appendAll entitiesDone, extends_appendAll activitiesDone,
    extends_appendAll edgesDone, extends_appendAll assertionsDone⟩, fun edge inside => ?_⟩
  exact (mem_appendAll edgesDone inside).imp_right fun new => Run.forM_eq_ok.mp checked edge new

theorem WellFormed.append (wellFormed : graph.WellFormed) {bundle : SemanticFlowBundle}
    (done : graph.appendSemanticFlowBundle bundle = .ok later) : later.WellFormed := by
  obtain ⟨grows, checked⟩ := appendSemanticFlowBundle_cases done
  refine ⟨grows.entities.nodup wellFormed.entityIds, grows.edges.nodup wellFormed.edgeIds,
    grows.assertions.nodup wellFormed.assertionIds, fun edge inside => ?_⟩
  rcases checked edge inside with old | new
  · exact grows.checked (wellFormed.checked edge old)
  · exact new

theorem WellFormed.appends (wellFormed : graph.WellFormed) (bundles : List SemanticFlowBundle) :
    (graph.appends bundles).WellFormed := by
  refine Run.stable_run (fun state bundle before => ?_) bundles wellFormed
  rcases Run.transact_cases appendSemanticFlowBundle state bundle with done | kept
  · exact before.append done
  · rw [kept]
    exact before

theorem grows_appends (graph : SemanticFlowGraph) (bundles : List SemanticFlowBundle) :
    graph.Grows (graph.appends bundles) := by
  refine Run.stable_run (fun state bundle before => ?_) bundles (Grows.refl graph)
  rcases Run.transact_cases appendSemanticFlowBundle state bundle with done | kept
  · exact before.trans (appendSemanticFlowBundle_cases done).1
  · rw [kept]
    exact before

end SemanticFlowGraph
end AgentLibOS.Semantic
