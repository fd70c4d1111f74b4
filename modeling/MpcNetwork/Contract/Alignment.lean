import MpcNetwork.Contract.Transitions
import MpcNetwork.Lib.Runs

/-! # Keys are aligned with domains

The running state holds one key for each registered domain, in the registry's order.  While
keys are generated or reshared, the keys that are ready cover the first domains and the key
event is about the next one.
-/

namespace MpcNetwork.Contract

open Fallible Runs

/-- The keys are those of the first domains, and `next` is the domain after them. -/
structure Covers (keys : List KeyForDomain) (domains : List DomainConfig) (next : DomainConfig) :
    Prop where
  same : keys.map (·.domainId) = (domains.take keys.length).map (·.id)
  isNext : domains[keys.length]? = some next

namespace Covers

theorem none (isFirst : domains[0]? = some next) : Covers [] domains next where
  same := rfl
  isNext := isFirst

section

variable (covers : Covers keys domains next) (key : PublicKeyExtended) (attempt : AttemptId)

include covers key attempt

theorem with_key :
    (keys ++ [KeyForDomain.mk next.id key attempt]).map (·.domainId) =
      (domains.take (keys.length + 1)).map (·.id) := by
  rw [List.take_add_one, covers.isNext, List.map_append, List.map_append, covers.same]
  rfl

theorem advance (isAfter : domains[keys.length + 1]? = some after) :
    Covers (keys ++ [KeyForDomain.mk next.id key attempt]) domains after where
  same := by
    rw [List.length_append, List.length_singleton]
    exact covers.with_key key attempt
  isNext := by
    rw [List.length_append, List.length_singleton]
    exact isAfter

theorem finish (last : domains[keys.length + 1]? = Option.none) :
    (keys ++ [KeyForDomain.mk next.id key attempt]).map (·.domainId) = domains.map (·.id) := by
  have all : domains.take (keys.length + 1) = domains :=
    List.take_of_length_le (List.getElem?_eq_none_iff.mp last)
  rw [covers.with_key key attempt, all]

end

theorem next_mem (covers : Covers keys domains next) : next ∈ domains :=
  List.mem_of_getElem? covers.isNext

end Covers

namespace RunningContractState

def Aligned (self : RunningContractState) : Prop :=
  self.keyset.domains.map (·.domainId) = self.domains.domains.map (·.id)

theorem Aligned.length {self : RunningContractState} (aligned : self.Aligned) :
    self.keyset.domains.length = self.domains.domains.length := by
  simpa only [List.length_map] using congrArg List.length aligned

/-- New domains come right after those that have a key. -/
theorem Aligned.covers {self : RunningContractState} (aligned : self.Aligned)
    (added : self.domains.addDomains (first :: later) = .ok registry) :
    Covers self.keyset.domains registry.domains first := by
  obtain ⟨appended, _, _⟩ := DomainRegistry.addDomains_ok added
  constructor
  · rw [appended, aligned.length, List.take_left]
    exact aligned
  · rw [appended, aligned.length, List.getElem?_append_right (Nat.le_refl _), Nat.sub_self]
    rfl

end RunningContractState

def ProtocolContractState.Aligned : ProtocolContractState → Prop
  | notInitialized => True
  | running state => state.Aligned
  | initializing state =>
    state.generatingKey.epochId = state.epochId ∧
      Covers state.generatedKeys state.domains.domains state.generatingKey.domain
  | resharing state =>
    state.previousRunningState.Aligned ∧
      Covers state.resharedKeys state.previousRunningState.domains.domains
        state.resharingKey.domain

theorem KeyEvent.Moves.same {event : KeyEvent} (moved : event.Moves starting after) :
    after.epochId = event.epochId ∧ after.domain = event.domain ∧
      after.parameters = event.parameters := by
  cases moved <;> exact ⟨rfl, rfl, rfl⟩

theorem Transition.aligned (transition : Transition env call s started epoch t) (aligned : s.Aligned) :
    t.Aligned := by
  cases transition with
  | voted => exact aligned
  | resharingStarted state proposal first isFirst => exact ⟨aligned, .none isFirst⟩
  | parametersReplaced state proposal empty =>
    have none : state.domains.domains = [] :=
      List.eq_nil_of_length_eq_zero (Nat.le_zero.mp (List.getElem?_eq_none_iff.mp empty))
    exact (congrArg (List.map (·.id)) none).symm
  | keygenStarted state first later registry added =>
    exact ⟨rfl, RunningContractState.Aligned.covers aligned added⟩
  | keygenMoved state event cancelVotes moved =>
    obtain ⟨sameEpoch, sameDomain, _⟩ := moved.same
    refine ⟨sameEpoch.trans aligned.1, ?_⟩
    rw [sameDomain]
    exact aligned.2
  | keyGenerated state key attempt next isNext => exact ⟨rfl, aligned.2.advance key attempt isNext⟩
  | keygenFinished state key attempt last => exact aligned.2.finish key attempt last
  | keygenCancelled state => exact aligned.2.same
  | resharingMoved state event votes requests moved =>
    obtain ⟨_, sameDomain, _⟩ := moved.same
    refine ⟨aligned.1, ?_⟩
    rw [sameDomain]
    exact aligned.2
  | resharingReplaced state proposal first isFirst => exact ⟨aligned.1, .none isFirst⟩
  | keyReshared state previousKey attempt next _ isNext =>
    exact ⟨aligned.1, aligned.2.advance previousKey.key attempt isNext⟩
  | resharingFinished state previousKey attempt _ last =>
    exact aligned.2.finish previousKey.key attempt last
  | resharingCancelled state => exact aligned.1

/-- A successful call in its environment, with the state the contract went over to. -/
abbrev CallEvent := (Env × Call) × Option ProtocolContractState

/-- A call as a step of the contract; a failed call is rolled back and is no step. -/
def act (self : MpcContract) (call : Env × Call) :
    Option (MpcContract × Option ProtocolContractState) :=
  match perform call.1 self call.2 with
  | .ok (next, contract) => some (contract, next)
  | .error _ => none

theorem act_eq_some :
    act self call = some (contract, next) ↔ perform call.1 self call.2 = .ok (next, contract) := by
  unfold act
  split <;> simp_all [and_comm]

theorem acts_transition (acts : Acts act self event contract) :
    Transition event.1.1 event.1.2 self.protocolState event.1.2.starts
      (event.2.bind ProtocolContractState.resharingEpoch) contract.protocolState :=
  perform_transition (act_eq_some.mp acts)

theorem aligned_run (aligned : start.protocolState.Aligned)
    (run : Run (Acts act) start es contract) : contract.protocolState.Aligned := by
  refine run.invariant (fun _ contract => contract.protocolState.Aligned) aligned ?_
  intro _ _ _ _ _ ih acts
  exact (acts_transition acts).aligned ih

end MpcNetwork.Contract
