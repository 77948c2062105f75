import AgentLibOS.Effects.OperationRuns
import AgentLibOS.Library.Run

namespace AgentLibOS.Effects
open Library Library.JoinFold Library.Program Library.Run Capability

/-! ## One operation on its own -/

variable {contract : ProtectedOperationContract} {invocation : ProtectedOperationInvocation}

/-- One step of a running operation: a change of the store, or a question and its reply. -/
def proceed (running : Op Unit × Local) (reply : Reply) : Op Unit × Local :=
  running.1.advance reply running.2

/-- A new operation over the given capability rows, about to be used by its caller. -/
def begun (contract : ProtectedOperationContract) (invocation : ProtectedOperationInvocation)
    (steps : List CallerStep) (failing : Bool) (capabilities : String → Option CapabilityRow) :
    Op Unit × Local :=
  (protectedOperation contract invocation steps failing,
    { Cell.new with capabilities := capabilities })

/-- A reply that the operation can bear in its present state. -/
def Bears (contract : ProtectedOperationContract) (running : Op Unit × Local)
    (reply : Reply) : Prop :=
  match running.1 with
  | .ask question _ => Careful .alone contract running.2 question reply
  | _ => True

instance {s : Local} {question : Question} {reply : Reply} :
    Decidable (Careful .alone contract s question reply) :=
  match question with
  | .dispatch phase => inferInstanceAs (Decidable (reply ≠ .returned ∨ ¬ phase.flags ≤ contract.flags →
      s.operation.completedPhases.any (·.effectful) = true ∨
        Accounted s.operation.completedPhases s.trace.all))
  | .function _ => inferInstanceAs (Decidable (Setting.alone = .alone →
      reply = .notStarted ∨ reply = .notStartedResult →
        Accounted s.operation.completedPhases s.trace.earlier))
  | .completion flags => inferInstanceAs (Decidable (Setting.alone = .alone → reply = .returned →
      ∀ run ∈ s.trace.all, run.spent = true →
        run.phase.flags ≤ phaseFlags flags s.operation.completedPhases))
  | .prepare | .guardEnter | .guardExit | .observeIngress | .readEffect | .recordPhase
  | .expectEvidence | .commitReservations | .lifecycle | .failureEvidence | .failureSettlement
  | .settleFailure | .failureResource | .charge | .abort | .validateResource | .observers
  | .operationExit => .isTrue trivial

instance {running : Op Unit × Local} {reply : Reply} : Decidable (Bears contract running reply) :=
  match running with
  | (.ask question _, s) => inferInstanceAs (Decidable (Careful .alone contract s question reply))
  | (.done _, _) | (.step _ _, _) => .isTrue trivial

theorem Fresh.begun {setting : Setting} {capabilities : String → Option CapabilityRow} :
    Fresh setting { Cell.new with capabilities := capabilities } :=
  ⟨rfl, rfl, rfl, rfl⟩

/-- What a step preserves: the store tells of the effect, and the rest of the program keeps it so. -/
theorem proceed_keeps (running : Op Unit × Local) (reply : Reply)
    (holds : NeverErased running.2 ∧
      Safe (discipline .alone contract invocation.actor) (fun _ _ => True) running.1 running.2)
    (bears : Bears contract running reply) :
    NeverErased (proceed running reply).2 ∧
      Safe (discipline .alone contract invocation.actor) (fun _ _ => True)
        (proceed running reply).1 (proceed running reply).2 := by
  obtain ⟨kept, safe⟩ := holds
  refine Safe.advance safe kept ?_
  obtain ⟨program, s⟩ := running
  cases program with
  | ask question next => exact bears
  | _ => trivial

/-- A possibly executed provider effect is never erased, as long as the operation bears the replies. -/
theorem provider_effect_never_erased (contract : ProtectedOperationContract)
    (invocation : ProtectedOperationInvocation) (steps : List CallerStep) (failing : Bool)
    (capabilities : String → Option CapabilityRow) (replies : List Reply)
    (bears : Meets proceed (Bears contract)
      (begun contract invocation steps failing capabilities) replies) :
    NeverErased
      (run proceed (begun contract invocation steps failing capabilities) replies).2 := by
  have init : NeverErased (begun contract invocation steps failing capabilities).2 :=
    @Fresh.kept .alone contract invocation.actor _ Fresh.begun
  exact (invariant_run proceed_keeps
    ⟨init, @protectedOperation_safe .alone contract invocation _ _ _ Fresh.begun⟩ bears).1

/-! ## An update that is read back -/

def demoContract : ProtectedOperationContract :=
  ⟨"primitive.demo", true, true, .ingress, .optional, .propagate⟩

def demoInvocation : ProtectedOperationInvocation :=
  ⟨"pid_1", [("cap_1", "capres_1")], true, false, "key_1", false, false, fun _ => none⟩

def demoCapabilities (capId : String) : Option CapabilityRow :=
  if capId = "cap_1" then some ⟨"pid_1", "object:demo", true, some 1, .active, none, fun _ none_ => by cases none_⟩
  else none

/-- The caller goes on after an error of the first call. -/
def demoBegun : Op Unit × Local :=
  begun demoContract demoInvocation
    [.call ⟨"write", true, true, true⟩, .call ⟨"read", false, true, true⟩] true demoCapabilities

/-- The update returns and its ingress cannot be observed; then the second dispatch is rejected. -/
def demoReplies : List Reply :=
  List.replicate 10 .returned ++ [.raised .exception, .returned, .raised .exception] ++
    List.replicate 7 .returned

theorem demo_never_erased : Meets proceed (Bears demoContract) demoBegun (demoReplies.take 12) ∧
    NeverErased (run proceed demoBegun (demoReplies.take 12)).2 := by
  have bears : Meets proceed (Bears demoContract) demoBegun (demoReplies.take 12) := by
    decide +kernel
  exact ⟨bears, provider_effect_never_erased _ _ _ _ _ _ bears⟩

theorem demo_erased : ¬ NeverErased (run proceed demoBegun demoReplies).2 := by
  intro never
  have spent : (run proceed demoBegun demoReplies).2.trace.Spent := by
    refine ⟨⟨⟨"write", true, true, true⟩, some .returned⟩, ?_, rfl⟩
    decide +kernel
  have erased : (run proceed demoBegun demoReplies).2.row.isSome = false := by decide +kernel
  rw [never.kept spent] at erased
  cases erased

end AgentLibOS.Effects
