import AgentLibOS.Effects.Store

namespace AgentLibOS.Effects
open Library Library.JoinFold Capability

inductive DataFlowDirection
  | none | ingress | egress | bidirectional
  deriving DecidableEq, Repr

inductive PostProviderFailureMode
  | propagate | preserveResult
  deriving DecidableEq, Repr

inductive ResourcePolicy
  | none | optional | required
  deriving DecidableEq, Repr

structure ProtectedOperationContract where
  name : String
  stateMutation : Bool
  informationFlow : Bool
  dataFlowDirection : DataFlowDirection
  resourcePolicy : ResourcePolicy
  postProviderFailureMode : PostProviderFailureMode
  deriving DecidableEq, Repr

def ProtectedOperationContract.flags (contract : ProtectedOperationContract) : EffectFlags :=
  (contract.stateMutation, contract.informationFlow)

structure ResourceSettlement where
  chargeReservedMaximum : Bool
  deriving DecidableEq, Repr

structure ProtectedOperationInvocation where
  actor : String
  /-- The finite-use capabilities that the decisions and releases consume, each with the id drawn
  for its reservation. -/
  consumes : List (String × String)
  reservesUsage : Bool
  preflightUsage : Bool
  idempotencyKey : String
  /-- `provider_registry_phase_guard` is supplied. -/
  registryGuard : Bool
  failureSettlement : Bool
  /-- `failure_resource`, by the phase that failed. -/
  failureResource : String → Option ResourceSettlement

structure Classification where
  flags : EffectFlags
  /-- `provider_metadata["outcome"]`. -/
  outcome : String
  deriving DecidableEq, Repr

/-- The arguments of `complete`; `classified` is what the provider's classifier returns, nothing if
it raises. -/
structure Completion where
  classificationOverride : Option Classification
  classified : Option Classification
  resource : Option ResourceSettlement
  deriving DecidableEq, Repr

/-! ## Questions to the environment -/

/-- Where a run depends on something other than the cell: each place may raise. -/
inductive Question
  | prepare
  | guardEnter
  | guardExit
  | dispatch (phase : ProviderPhase)
  | function (phase : ProviderPhase)
  | observeIngress
  | readEffect
  | recordPhase
  | expectEvidence
  | commitReservations
  | lifecycle
  | failureEvidence
  | failureSettlement
  | settleFailure
  | failureResource
  | charge
  | abort
  | validateResource
  | completion (flags : EffectFlags)
  | observers
  | operationExit
  deriving DecidableEq, Repr

/-- A provider function may also certify that its effect has not started, by
`ProviderEffectNotStarted` or by `ProviderEffectNotStartedResult`. -/
inductive Reply
  | returned
  | raised (fault : Fault)
  | notStarted
  | notStartedResult
  deriving DecidableEq, Repr

def Reply.outcome : Reply → PhaseOutcome
  | .returned => .returned
  | .raised _ => .raised
  | .notStarted => .certifiedNotStarted
  | .notStartedResult => .certifiedNotStarted

abbrev Op (α : Type) := Program Local Fault Question Reply α

def memory : Op Operation := Program.read fun s => s.operation

def remember (change : Operation → Operation) : Op Unit :=
  Program.act fun s => { s with operation := change s.operation }

def fallible (question : Question) : Op Unit := do
  match ← Program.request question with
  | .returned => pure ()
  | .raised fault => throw fault
  | _ => throw .exception

/-- A transaction in which anything up to its commit may raise. -/
def atomically {α : Type} (question : Question) (body : Local → Except Fault (Local × α)) :
    Op α := do
  fallible question
  Program.transaction body

def orRaise (changed : Option Local) : Except Fault (Local × Unit) :=
  match changed with
  | some s => .ok (s, ())
  | none => .error .exception

namespace ProtectedOperation

def expectSettlementEvidence : Op Unit := fallible .expectEvidence

/-! ## Prepare -/

/-- One decision of `_reserve_decisions`; a capability is reserved once. -/
def reserveDecision (contract : ProtectedOperationContract)
    (invocation : ProtectedOperationInvocation) (s : Local) (consumed : String × String) :
    Except Fault Local :=
  if s.operation.reservationIds.any fun id => (s.reservations id).any (·.capId == consumed.1) then
    .ok s
  else match (s.capabilities consumed.1).bind (·.takeUses 1), s.reservations consumed.2 with
    | some row, none =>
        let reserved := (s.setCapability consumed.1 row).setReservation consumed.2
          { capId := consumed.1
            status := .reserved
            reservedBy := invocation.actor
            reason := "protected operation reserved authority for " ++ contract.name }
        .ok { reserved with
          operation := { s.operation with
            reservationIds := s.operation.reservationIds ++ [consumed.2] } }
    | _, _ => .error .exception

def prepareBody (contract : ProtectedOperationContract) (invocation : ProtectedOperationInvocation)
    (s : Local) : Except Fault (Local × Unit) := do
  let s ← invocation.consumes.foldlM (reserveDecision contract invocation) s
  let prepared := s.record
    { flags := contract.flags
      effectState := .pending
      transactionState := .prepared
      protectedOperation := some ⟨contract.name, invocation.actor, s.operation.reservationIds⟩
      completedPhases := []
      activePhase := none
      idempotencyKey := some invocation.idempotencyKey }
  let reserved :=
    if invocation.reservesUsage then
      { prepared with
        envelope := some .active
        operation := { prepared.operation with resourceReserved := true } }
    else prepared
  pure (reserved, ())

def prepare (contract : ProtectedOperationContract) (invocation : ProtectedOperationInvocation) :
    Op Unit :=
  atomically .prepare (prepareBody contract invocation)

/-! ## Settlement -/

def commitBody (s : Local) : Except Fault (Local × Unit) :=
  .ok (s.operation.reservationIds.foldl Local.commitReservedUse s, ())

def commitReservations : Op Unit := do
  let operation ← memory
  if operation.reservationsCommitted then pure ()
  else
    atomically .commitReservations commitBody
    remember fun operation => { operation with reservationsCommitted := true }
    fallible .lifecycle

def commitReservationsBestEffort : Op Unit :=
  tryCatch commitReservations fun fault =>
    match fault with
    | .exception => pure ()
    | .interrupt => throw .interrupt

def releaseResourceReservation (s : Local) : Except Fault Local :=
  if s.operation.resourceReserved then
    match s.settleUsageReservation .released with
    | some s' => .ok s'
    | none => .error .exception
  else .ok s

def abortBody (s : Local) : Except Fault (Local × Unit) := do
  let released ← releaseResourceReservation
    (s.operation.reservationIds.reverse.foldl Local.restoreReservedUse s)
  orRaise released.abandonExternalEffectIntent

def abortNotStarted : Op Unit := do
  let operation ← memory
  if operation.terminal then pure ()
  else
    atomically .abort abortBody
    remember fun operation => { operation with terminal := true }

def runFailureSettlement (invocation : ProtectedOperationInvocation) : Op Unit := do
  let operation ← memory
  if !invocation.failureSettlement || operation.failureSettlementRun || !operation.dispatched then
    pure ()
  else
    remember fun operation => { operation with failureSettlementRun := true }
    fallible .failureSettlement

def failureResourceSettlement (contract : ProtectedOperationContract)
    (invocation : ProtectedOperationInvocation) (phase : String) :
    Op (Option ResourceSettlement) := do
  fallible .failureResource
  match invocation.failureResource phase with
  | some settlement =>
      if contract.resourcePolicy = .none then throw .exception else pure (some settlement)
  | none =>
      if contract.resourcePolicy ≠ .required || invocation.reservesUsage then pure none
      else if invocation.preflightUsage then pure (some ⟨false⟩)
      else throw .exception

def chargeResource (resource : Option ResourceSettlement) : Op Unit :=
  match resource with
  | none => pure ()
  | some settlement => do
      fallible .expectEvidence
      let operation ← memory
      if operation.resourceReserved then
        atomically .charge fun s => orRaise (s.settleUsageReservation
          (if settlement.chargeReservedMaximum then .chargedMaximum else .settled))
      else fallible .charge

def settleResourceReservationUnknown : Op Unit := do
  fallible .expectEvidence
  atomically .charge fun s => orRaise (s.settleUsageReservation .chargedMaximum)

/-- `record_external_effect` with the event and the audit row of the operation. -/
def finalizeBody (flags : EffectFlags) (state : TransactionState)
    (evidence : Option ProtectedEvidence) (s : Local) : Except Fault (Local × Unit) :=
  orRaise ((s.finalizeExternalEffect flags state evidence).map fun s =>
    { s with audits := s.audits ++ [.operationEvidence] })

/-- The resource part of a settled failure. -/
def chargeFailure (contract : ProtectedOperationContract) (invocation : ProtectedOperationInvocation)
    (phase : String) (settled : Bool) : Op Unit :=
  if settled then do
    let resource ← failureResourceSettlement contract invocation phase
    let operation ← memory
    if operation.resourceReserved && resource.isNone then settleResourceReservationUnknown
    else chargeResource resource
  else pure ()

/-- Every failure is settled with an unknown outcome. -/
def settleFailure (contract : ProtectedOperationContract) (invocation : ProtectedOperationInvocation)
    (flags : EffectFlags) (phase : String) : Op Unit := do
  let settlement ← (runFailureSettlement invocation).attempt
  let settled ← tryCatch
    (do
      atomically .settleFailure (finalizeBody flags .unknown none)
      pure true)
    fun fault => match fault with
      | .exception => pure false
      | .interrupt => throw .interrupt
  remember fun operation => { operation with terminal := true }
  chargeFailure contract invocation phase settled
  fallible .lifecycle
  match settlement with
  | .ok _ => pure ()
  | .error fault => throw fault

def effectCeiling (contract : ProtectedOperationContract) (completed : List ProviderPhase)
    (active : Option ProviderPhase) : EffectFlags :=
  phaseFlags contract.flags (completed ++ active.toList)

def finalizeUnknown (contract : ProtectedOperationContract)
    (invocation : ProtectedOperationInvocation) (phase : String)
    (active : Option ProviderPhase) : Op Unit := do
  let operation ← memory
  if operation.terminal then pure ()
  else
    fallible .failureEvidence
    let operation ← memory
    settleFailure contract invocation (effectCeiling contract operation.completedPhases active) phase

def handleNotStarted (contract : ProtectedOperationContract)
    (invocation : ProtectedOperationInvocation) (phase : ProviderPhase) : Op Unit := do
  let operation ← memory
  let effectfulPhases := operation.completedPhases.filter (·.effectful)
  if effectfulPhases = [] then abortNotStarted
  else
    commitReservationsBestEffort
    fallible .failureEvidence
    settleFailure contract invocation (phaseFlags (false, false) effectfulPhases) phase.name

/-! ## Provider phases -/

def dispatchBody (contract : ProtectedOperationContract) (phase : ProviderPhase) (s : Local) :
    Except Fault (Local × Unit) :=
  if ¬ phase.flags ≤ contract.flags then .error .exception
  else match s.markExternalEffectDispatched with
    | none => .error .exception
    | some marked =>
        orRaise ((marked.transitionExternalEffect [.dispatched] .dispatched fun row =>
          { row with activePhase := some phase }).map fun s =>
            { s with trace := s.trace.dispatched })

def dispatch (contract : ProtectedOperationContract) (phase : ProviderPhase) : Op Unit := do
  atomically (.dispatch phase) (dispatchBody contract phase)
  remember fun operation => { operation with dispatched := true }

def abortUnlessEffectful : Op Unit := do
  let operation ← memory
  if operation.completedPhases.any (·.effectful) then pure () else abortNotStarted

def dispatchOrAbortNotStarted (contract : ProtectedOperationContract) (phase : ProviderPhase) :
    Op Unit :=
  tryCatch (dispatch contract phase) fun fault => do
    abortUnlessEffectful
    throw fault

def observeDataFlowIngress (contract : ProtectedOperationContract) (phase : ProviderPhase) :
    Op Unit := do
  let operation ← memory
  if operation.dataFlowIngressObserved || !phase.informationFlow then pure ()
  else if contract.dataFlowDirection ≠ .ingress ∧ contract.dataFlowDirection ≠ .bidirectional then
    pure ()
  else
    fallible .observeIngress
    remember fun operation => { operation with dataFlowIngressObserved := true }

/-- The transition says whether it was persisted. -/
def recordBody (completed : List ProviderPhase) (s : Local) : Except Fault (Local × Bool) :=
  match s.transitionExternalEffect [.dispatched] .dispatched fun row =>
      { row with activePhase := none, completedPhases := completed } with
  | some s' => .ok (s', true)
  | none => .ok (s, false)

def recordCompletedPhase (contract : ProtectedOperationContract)
    (invocation : ProtectedOperationInvocation) (phase : ProviderPhase) : Op Unit := do
  fallible .readEffect
  match ← Program.read fun s => s.row with
  | none => throw .exception
  | some row =>
      let persisted ← atomically .recordPhase (recordBody (row.completedPhases ++ [phase]))
      if persisted then pure ()
      else
        expectSettlementEvidence
        commitReservationsBestEffort
        finalizeUnknown contract invocation (phase.name ++ "_phase_evidence") (some phase)
        throw .exception

/-- The provider function itself. -/
def invokeFunction (phase : ProviderPhase) : Op Reply := do
  Program.act fun s => { s with trace := s.trace.invoked phase }
  let reply ← Program.request (.function phase)
  Program.act fun s => { s with trace := s.trace.ended reply.outcome }
  pure reply

/-- Up to the end of the phase scope: whether the function returned a not-started certificate. -/
def runFunction (contract : ProtectedOperationContract) (invocation : ProtectedOperationInvocation)
    (phase : ProviderPhase) : Op Bool := do
  dispatchOrAbortNotStarted contract phase
  match ← invokeFunction phase with
  | .returned => pure false
  | .notStartedResult => pure true
  | .notStarted =>
      handleNotStarted contract invocation phase
      throw .exception
  | .raised fault =>
      observeDataFlowIngress contract phase
      expectSettlementEvidence
      commitReservationsBestEffort
      finalizeUnknown contract invocation phase.name (some phase)
      throw fault

def finishPhase (contract : ProtectedOperationContract) (invocation : ProtectedOperationInvocation)
    (phase : ProviderPhase) (certified : Bool) : Op Unit :=
  if certified then handleNotStarted contract invocation phase
  else do
    observeDataFlowIngress contract phase
    recordCompletedPhase contract invocation phase
    expectSettlementEvidence
    remember fun operation =>
      { operation with completedPhases := operation.completedPhases ++ [phase] }
    if phase.commitsAuthority then
      tryCatch commitReservations fun fault => do
        finalizeUnknown contract invocation "capability_commit" none
        throw fault
    else pure ()

def requireActive : Op Unit := do
  let operation ← memory
  if operation.terminal then throw .exception else pure ()

/-- The registry guard wraps the phase; leaving it may raise as well. -/
def providerRegistryPhaseScope {α : Type} (invocation : ProtectedOperationInvocation)
    (body : Op α) : Op α :=
  if invocation.registryGuard then do
    fallible .guardEnter
    let result ← body.attempt
    fallible .guardExit
    match result with
    | .ok value => pure value
    | .error fault => throw fault
  else body

def call (contract : ProtectedOperationContract) (invocation : ProtectedOperationInvocation)
    (phase : ProviderPhase) : Op Unit := do
  requireActive
  let certified ← providerRegistryPhaseScope invocation (runFunction contract invocation phase)
  finishPhase contract invocation phase certified

def acall (contract : ProtectedOperationContract) (invocation : ProtectedOperationInvocation)
    (phase : ProviderPhase) : Op Unit := do
  requireActive
  if invocation.registryGuard then throw .exception
  else
    let certified ← runFunction contract invocation phase
    finishPhase contract invocation phase certified

/-! ## Completion and exit -/

def Completion.classification (contract : ProtectedOperationContract) (completion : Completion) :
    Classification :=
  match completion.classificationOverride, completion.classified with
  | some classification, _ => classification
  | none, some classification => classification
  | none, none => ⟨contract.flags, ""⟩

def classificationWithPhaseFloor (classification : Classification)
    (completed : List ProviderPhase) : Classification :=
  { classification with flags := phaseFlags classification.flags completed }

def outcomeState (outcome : String) : TransactionState :=
  if "unknown".toList.isPrefixOf outcome.toList then .unknown
  else if outcome = "failed" then .failed
  else .committed

def validateResourceSettlement (contract : ProtectedOperationContract)
    (resource : Option ResourceSettlement) : Op Unit :=
  if resource.isNone && contract.resourcePolicy = .required then throw .exception
  else if resource.isSome && contract.resourcePolicy = .none then throw .exception
  else fallible .validateResource

/-- The handler of a failed completion. -/
def completionFailed (contract : ProtectedOperationContract)
    (invocation : ProtectedOperationInvocation) (fault : Fault) : Op Unit := do
  let settlement ← Program.attempt (do
    runFailureSettlement invocation
    let operation ← memory
    if operation.resourceReserved then settleResourceReservationUnknown else pure ())
  remember fun operation => { operation with terminal := true }
  fallible .lifecycle
  match settlement with
  | .error raised => throw raised
  | .ok _ =>
      if contract.postProviderFailureMode = .preserveResult then pure () else throw fault

def complete (contract : ProtectedOperationContract) (invocation : ProtectedOperationInvocation)
    (completion : Completion) : Op Unit := do
  requireActive
  let operation ← memory
  if !operation.dispatched then throw .exception
  else
    validateResourceSettlement contract completion.resource
    let classification := Completion.classification contract completion
    let floor := classificationWithPhaseFloor classification operation.completedPhases
    let finalized ← Program.attempt (do
      atomically (.completion classification.flags) (finalizeBody floor.flags
        (outcomeState floor.outcome)
        (some ⟨contract.name, invocation.actor, operation.reservationIds⟩))
      remember fun operation => { operation with terminal := true })
    match finalized with
    | .error fault => completionFailed contract invocation fault
    | .ok _ =>
        fallible .lifecycle
        fallible .observers
        chargeResource completion.resource

/-- What `__exit__` settles, with whether leaving the block is a protocol error. -/
def exitSettlement (contract : ProtectedOperationContract)
    (invocation : ProtectedOperationInvocation) (failing : Bool) : Op Bool := do
  let operation ← memory
  if operation.terminal then pure false
  else if !operation.dispatched then
    abortNotStarted
    pure !failing
  else
    finalizeUnknown contract invocation
      (if failing then "caller_failed_after_provider" else "protocol_incomplete") none
    pure !failing

def exit (contract : ProtectedOperationContract) (invocation : ProtectedOperationInvocation)
    (failing : Bool) : Op Unit := do
  let settlement ← (exitSettlement contract invocation failing).attempt
  let scope ← (fallible .operationExit).attempt
  match settlement, scope with
  | .error fault, _ => throw fault
  | .ok true, _ => throw .exception
  | .ok false, .error fault => throw fault
  | .ok false, .ok _ => pure ()

end ProtectedOperation

/-! ## Whole runs -/

inductive CallerStep
  | call (phase : ProviderPhase)
  | acall (phase : ProviderPhase)
  | complete (completion : Completion)
  deriving DecidableEq, Repr

def CallerStep.perform (contract : ProtectedOperationContract)
    (invocation : ProtectedOperationInvocation) : CallerStep → Op Unit
  | .call phase => ProtectedOperation.call contract invocation phase
  | .acall phase => ProtectedOperation.acall contract invocation phase
  | .complete completion => ProtectedOperation.complete contract invocation completion

/-- A caller that goes on after every error. -/
def performAll (contract : ProtectedOperationContract) (invocation : ProtectedOperationInvocation) :
    List CallerStep → Op Unit
  | [] => pure ()
  | step :: steps => do
      let _ ← (step.perform contract invocation).attempt
      performAll contract invocation steps

/-- The whole `with` block. -/
def protectedOperation (contract : ProtectedOperationContract)
    (invocation : ProtectedOperationInvocation) (steps : List CallerStep) (failing : Bool) :
    Op Unit := do
  ProtectedOperation.prepare contract invocation
  performAll contract invocation steps
  ProtectedOperation.exit contract invocation failing

end AgentLibOS.Effects
