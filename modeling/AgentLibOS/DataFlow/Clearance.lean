import AgentLibOS.DataFlow.FileLabels
import AgentLibOS.DataFlow.SinkTrust

namespace AgentLibOS.DataFlow
open Memory

/-! ## Sources -/

structure SourceObject where
  version : Nat
  payloadSha256 : String

/-- The durable row of an Object that the running memory does not hold. -/
structure PersistedObjectState where
  released : Bool
  recoveredAfterReopen : Bool
  version : Nat
  payloadPresent : Bool

/-- What source references are checked against. -/
structure SourceState where
  fileBindings : FileLabelRows
  getObject : String → Option SourceObject
  getPersistedObjectState : String → Option PersistedObjectState

inductive SourceError
  | malformed (oid : String)
  | bindingUnavailable (bindingId : String)
  | bindingChanged (bindingId : String)
  | disappeared (oid : String)
  | notLive (oid : String)
  | changed (oid : String)
  | payloadUnavailable (oid : String)
  deriving DecidableEq, Repr

namespace SourceState

def fileBindingSourceRefPrefix : List Char := "file_binding:".toList

def fileRefError (state : SourceState) (ref : DataSourceRef) (bindingId : String) :
    Option SourceError :=
  if bindingId = "" then some (.malformed ref.oid)
  else
    match state.fileBindings.getFileLabelBindingById bindingId with
    | none => some (.bindingUnavailable bindingId)
    | some binding =>
        if binding.tombstoned || binding.generation != ref.version ||
            binding.contentSha256 != some ref.contentSha256 then some (.bindingChanged bindingId)
        else none

def objectRefError (state : SourceState) (allowRecovered : Bool) (ref : DataSourceRef) :
    Option SourceError :=
  match state.getObject ref.oid with
  | some object =>
      if object.version != ref.version || object.payloadSha256 != ref.contentSha256 then
        some (.changed ref.oid)
      else none
  | none =>
      match state.getPersistedObjectState ref.oid with
      | none => some (.disappeared ref.oid)
      | some persisted =>
          if !persisted.released || !allowRecovered || !persisted.recoveredAfterReopen then
            some (.notLive ref.oid)
          else if persisted.version != ref.version then some (.changed ref.oid)
          else if persisted.payloadPresent then some (.payloadUnavailable ref.oid)
          else none

def refError (state : SourceState) (allowRecovered : Bool) (ref : DataSourceRef) :
    Option SourceError :=
  if fileBindingSourceRefPrefix.isPrefixOf ref.oid.toList then
    state.fileRefError ref
      (String.ofList (ref.oid.toList.drop fileBindingSourceRefPrefix.length))
  else state.objectRefError allowRecovered ref

/-- The first reference that is not current. -/
def validateSourceRefs (state : SourceState) (allowRecovered : Bool) (refs : List DataSourceRef) :
    Option SourceError :=
  refs.findSome? (state.refError allowRecovered)

end SourceState

/-! ## Clearance -/

inductive ClearanceError
  | belowIntegrity | mixedIdentity | aboveSensitivity | identityHash | tenant | principal
  deriving DecidableEq, Repr

inductive DataFlowOutcome
  | allow | releaseRequired | deny
  deriving DecidableEq, Repr

def DataFlowOutcome.rank : DataFlowOutcome → Nat
  | .allow => 0
  | .releaseRequired => 1
  | .deny => 2

def integrityRank (value : DataIntegrity) : Nat := integrityOrder.idxOf value

/-- `min((left, right), key=sensitivity_rank)`. -/
def lowerSensitivity (left right : DataSensitivity) : DataSensitivity :=
  if sensitivityRank right < sensitivityRank left then right else left

/-- The cap on the sensitivity; no record is treated as an untrusted one. -/
def maxSensitivity (defaultMax : DataSensitivity) (trust : Option SinkTrustSpec) :
    DataSensitivity :=
  let selected := trust.elim defaultMax (·.rule.maxSensitivity)
  if trust.elim SinkTrustLevel.untrusted (·.rule.trustLevel) = .untrusted then
    lowerSensitivity selected .normal
  else selected

/-- The identity is outside the list that the record enumerates; no identity is inside. -/
def outside (identity : Option String) (cleared : Option (List String)) : Bool :=
  match identity, cleared with
  | none, _ => false
  | some _, none => true
  | some value, some listed => !listed.contains value

def clearanceError (defaultMax : DataSensitivity) (sink : DataSink) (labels : DataLabels)
    (trust : Option SinkTrustSpec) (minimumIntegrity : DataIntegrity) : Option ClearanceError :=
  if integrityRank labels.integrity < integrityRank minimumIntegrity then some .belowIntegrity
  else if labels.isMixedIdentity then some .mixedIdentity
  else if sensitivityRank (maxSensitivity defaultMax trust) < sensitivityRank labels.sensitivity then
    some .aboveSensitivity
  else if trust.any fun record =>
      record.rule.identitySha256.isSome &&
        sink.registryIdentitySha256 != record.rule.identitySha256 then some .identityHash
  else if outside labels.tenant (trust.map (·.rule.tenants)) then some .tenant
  else if outside labels.principal (trust.map (·.rule.principals)) then some .principal
  else none

/-- `classify_egress_snapshot`. -/
def classifyEgressSnapshot (defaultMax : DataSensitivity) (registry : SinkTrustRegistry)
    (state : SourceState) (sink : DataSink) (context : DataFlowContext) (allowRecovered : Bool)
    (minimumIntegrity : DataIntegrity) : DataFlowOutcome :=
  if (state.validateSourceRefs allowRecovered context.sourceRefs).isSome then .deny
  else
    match registry.resolveSinkTrust sink with
    | .error _ => .deny
    | .ok trust =>
        if (clearanceError defaultMax sink context.labels trust minimumIntegrity).isSome then .deny
        else if trust.any fun record => record.rule.trustLevel == .conditional &&
            decide (sensitivityRank .normal < sensitivityRank context.labels.sensitivity) then
          .releaseRequired
        else .allow

/-! ## More restrictive labels -/

theorem conservative_iff {current proposed : DataLabels} :
    current.Conservative proposed ↔
      sensitivityRank current.sensitivity ≤ sensitivityRank proposed.sensitivity ∧
      trustOrder.idxOf proposed.trustLevel ≤ trustOrder.idxOf current.trustLevel ∧
      integrityRank proposed.integrity ≤ integrityRank current.integrity ∧
      identityIsConservative current.tenant proposed.tenant = true ∧
      identityIsConservative current.principal proposed.principal = true ∧
      proposed.declassificationAuthority ∈ [current.declassificationAuthority, none] := by
  unfold DataLabels.Conservative isConservativeLabelPropagation
  simp only [Bool.and_eq_true, decide_eq_true_eq, and_assoc]
  rfl

section
variable {defaultMax : DataSensitivity} {sink : DataSink} {labels current proposed : DataLabels}
  {trust : Option SinkTrustSpec} {minimumIntegrity : DataIntegrity}

theorem clearanceError_none :
    clearanceError defaultMax sink labels trust minimumIntegrity = none ↔
      integrityRank minimumIntegrity ≤ integrityRank labels.integrity ∧
      labels.isMixedIdentity = false ∧
      sensitivityRank labels.sensitivity ≤ sensitivityRank (maxSensitivity defaultMax trust) ∧
      (trust.any fun record => record.rule.identitySha256.isSome &&
        sink.registryIdentitySha256 != record.rule.identitySha256) = false ∧
      outside labels.tenant (trust.map (·.rule.tenants)) = false ∧
      outside labels.principal (trust.map (·.rule.principals)) = false := by
  unfold clearanceError
  split_ifs <;> simp_all

/-- An identity that is neither mixed nor outside the clearance stands for every weaker one. -/
theorem outside_conservative {current proposed : Option String} {cleared : Option (List String)}
    (conservative : identityIsConservative current proposed = true)
    (single : proposed ≠ some "mixed") (inside : outside proposed cleared = false) :
    outside current cleared = false := by
  unfold identityIsConservative at conservative
  simp only [Bool.or_eq_true, Bool.and_eq_true, beq_iff_eq] at conservative
  rcases conservative with (same | mixed) | ⟨absent, -⟩
  · rw [← same]
    exact inside
  · exact absurd mixed single
  · rw [absent]
    rfl

theorem not_mixed (single : labels.isMixedIdentity = false) :
    labels.tenant ≠ some "mixed" ∧ labels.principal ≠ some "mixed" := by
  simpa [DataLabels.isMixedIdentity] using single

theorem identity_not_mixed {current proposed : Option String}
    (conservative : identityIsConservative current proposed = true)
    (single : proposed ≠ some "mixed") : current ≠ some "mixed" := by
  rintro rfl
  unfold identityIsConservative at conservative
  simp only [Bool.or_eq_true, Bool.and_eq_true, beq_iff_eq] at conservative
  rcases conservative with (same | mixed) | ⟨absent, -⟩
  · exact single same
  · exact single mixed
  · cases absent

/-- What is cleared for more restrictive labels is cleared. -/
theorem clearanceError_conservative (conservative : current.Conservative proposed)
    (cleared : clearanceError defaultMax sink proposed trust minimumIntegrity = none) :
    clearanceError defaultMax sink current trust minimumIntegrity = none := by
  obtain ⟨sensitivity, -, integrity, tenant, principal, -⟩ := conservative_iff.mp conservative
  obtain ⟨floor, single, cap, hash, tenant_in, principal_in⟩ := clearanceError_none.mp cleared
  obtain ⟨tenant_single, principal_single⟩ := not_mixed single
  apply clearanceError_none.mpr
  refine ⟨floor.trans integrity, ?_, sensitivity.trans cap, hash,
    outside_conservative tenant tenant_single tenant_in,
    outside_conservative principal principal_single principal_in⟩
  rw [DataLabels.isMixedIdentity, Bool.or_eq_false_iff, beq_eq_false_iff_ne, beq_eq_false_iff_ne]
  exact ⟨identity_not_mixed tenant tenant_single, identity_not_mixed principal principal_single⟩

end

theorem validateSourceRefs_subset {state : SourceState} {allowRecovered : Bool}
    {refs more : List DataSourceRef} (covers : ∀ ref ∈ refs, ref ∈ more)
    (current : state.validateSourceRefs allowRecovered more = none) :
    state.validateSourceRefs allowRecovered refs = none := by
  rw [SourceState.validateSourceRefs, List.findSome?_eq_none_iff] at *
  exact fun ref member => current ref (covers ref member)

/-! ## Egress is monotone in the labels and the sources -/

section Egress
variable {defaultMax : DataSensitivity} {registry : SinkTrustRegistry} {state : SourceState}
  {sink : DataSink} {allowRecovered : Bool} {minimumIntegrity : DataIntegrity}

theorem classifyEgressSnapshot_mono {left right : DataFlowContext}
    (conservative : left.labels.Conservative right.labels)
    (covers : ∀ ref ∈ left.sourceRefs, ref ∈ right.sourceRefs) :
    (classifyEgressSnapshot defaultMax registry state sink left allowRecovered
        minimumIntegrity).rank ≤
      (classifyEgressSnapshot defaultMax registry state sink right allowRecovered
        minimumIntegrity).rank := by
  have most : ∀ outcome : DataFlowOutcome, outcome.rank ≤ DataFlowOutcome.deny.rank := by
    intro outcome
    cases outcome <;> decide
  unfold classifyEgressSnapshot
  cases right_refs : state.validateSourceRefs allowRecovered right.sourceRefs with
  | some err => exact most _
  | none =>
      rw [validateSourceRefs_subset covers right_refs]
      cases registry.resolveSinkTrust sink with
      | error err => exact le_rfl
      | ok trust =>
          dsimp only [Option.isSome_none]
          cases right_clear : clearanceError defaultMax sink right.labels trust
              minimumIntegrity with
          | some err => exact most _
          | none =>
              rw [clearanceError_conservative conservative right_clear]
              simp only [Option.isSome_none, Bool.false_eq_true, if_false]
              split_ifs with left_release right_release
              · exact le_rfl
              · refine absurd ?_ right_release
                cases trust with
                | none => cases left_release
                | some record =>
                    simp only [Option.any_some, Bool.and_eq_true, decide_eq_true_eq] at *
                    exact ⟨left_release.1,
                      left_release.2.trans_le (conservative_iff.mp conservative).1⟩
              · exact Nat.zero_le _
              · exact le_rfl

/-- More restrictive labels of the same sources, or the aggregate of several sources, get no more
permissive outcome. -/
theorem egress_monotone (defaultMax : DataSensitivity) (registry : SinkTrustRegistry)
    (state : SourceState) (sink : DataSink) (allowRecovered : Bool)
    (minimumIntegrity : DataIntegrity) :
    (∀ (x r : DataLabels) (sourceRefs : List DataSourceRef) (materializationId : Option String),
      x.Conservative r →
        (classifyEgressSnapshot defaultMax registry state sink ⟨x, sourceRefs, materializationId⟩
            allowRecovered minimumIntegrity).rank ≤
          (classifyEgressSnapshot defaultMax registry state sink ⟨r, sourceRefs, materializationId⟩
            allowRecovered minimumIntegrity).rank) ∧
    ∀ contexts : List DataFlowContext, ∀ context ∈ contexts,
      (classifyEgressSnapshot defaultMax registry state sink context allowRecovered
          minimumIntegrity).rank ≤
        (classifyEgressSnapshot defaultMax registry state sink (.aggregate contexts)
          allowRecovered minimumIntegrity).rank := by
  constructor
  · intro x r sourceRefs materializationId conservative
    exact classifyEgressSnapshot_mono conservative fun _ member => member
  · intro contexts context member
    apply classifyEgressSnapshot_mono
    · exact DataLabels.aggregate_conservative (List.mem_map_of_mem member)
    · exact fun ref inside => mem_aggregate_sourceRefs.mpr ⟨context, member, inside⟩

def emptySources : SourceState := ⟨[], fun _ => none, fun _ => none⟩

def outputSink : DataSink where
  identity := "file:out"
  identitySha256 := none
  trustIdentity := none
  trustIdentitySha256 := none
  identityValid := by decide
  trustValid := fun _ given => by cases given

theorem egress_monotone_secret :
    let secret : DataLabels := { DataLabels.default with sensitivity := .secret }
    let classified := fun context => classifyEgressSnapshot .normal .empty emptySources outputSink
      context false .untrusted
    (classified ⟨.default, [], none⟩).rank ≤ (classified ⟨secret, [], none⟩).rank ∧
      (classified ⟨secret, [], none⟩).rank ≤
        (classified (.aggregate [⟨secret, [], none⟩, ⟨.default, [], none⟩])).rank ∧
      classified ⟨.default, [], none⟩ = .allow ∧ classified ⟨secret, [], none⟩ = .deny := by
  intro secret classified
  refine ⟨?_, ?_, by decide, by decide⟩
  · exact (egress_monotone .normal .empty emptySources outputSink false .untrusted).1 _ _ _ _
      (by unfold DataLabels.Conservative; decide)
  · exact (egress_monotone .normal .empty emptySources outputSink false .untrusted).2 _ _
      List.mem_cons_self

end Egress
end AgentLibOS.DataFlow
