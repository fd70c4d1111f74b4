import MpcNetwork.Contract.Governance

/-! # What a call can do to the protocol state

`Transition` lists once what a successful governing call can do to the protocol state.
Invariants of the contract are proved over this list and not over the methods.
-/

namespace MpcNetwork.Contract

open Fallible

/-- The attempt may change, and the counter moves exactly when the call starts an attempt. -/
inductive KeyEvent.Moves (event : KeyEvent) : Option KeyEventId → KeyEvent → Prop where
  | kept (inst : Option KeyEventInstance) : Moves event none { event with inst := inst }
  | started (inst : Option KeyEventInstance) : Moves event (some event.expectedKeyEventId)
      { event with inst := inst, nextAttemptId := event.nextAttemptId.next }

variable {env : Env}

theorem KeyEvent.start_moves {event : KeyEvent}
    (done : event.start env keyEventId timeoutBlocks = .ok after) :
    event.Moves (some keyEventId) after := by
  obtain ⟨rfl, sameEpoch, sameDomain, sameParameters, counted⟩ := KeyEvent.start_ok done
  obtain ⟨epochId, domain, parameters, inst, nextAttemptId⟩ := after
  cases sameEpoch
  cases sameDomain
  cases sameParameters
  cases counted
  exact .started inst

/-- The signer's vote for the domains is the last one that was missing. -/
def CompletesAddDomains (env : Env) (state : RunningContractState) (domains : List DomainConfig) :
    Prop :=
  ∃ participant, authenticatedParticipantId env state.parameters.participants = .ok participant ∧
    (state.addDomainsVotes.vote domains participant).1 = state.parameters.participants.len

/-- By the call the contract can come from `s` to `t`, starting `started` and `epoch`, if any. -/
inductive Transition (env : Env) (call : Call) : ProtocolContractState → Option KeyEventId →
    Option EpochId → ProtocolContractState → Prop where
  | voted (state : RunningContractState) (parametersVotes : ThresholdParametersVotes)
      (addDomainsVotes : AddDomainsVotes) :
      Transition env call (.running state) none none (.running { state with
        parametersVotes := parametersVotes, addDomainsVotes := addDomainsVotes })
  | resharingStarted (state : RunningContractState) (proposal : ThresholdParameters)
      (first : DomainConfig) (isFirst : state.domains.getDomainByIndex 0 = some first)
      (valid : state.parameters.validateIncomingProposal proposal = .ok ()) :
      Transition env call (.running state) none (some state.prospectiveEpochId) (.resharing
        { previousRunningState :=
            .new state.domains state.keyset state.parameters state.addDomainsVotes
          resharedKeys := []
          resharingKey := .new state.prospectiveEpochId first proposal
          cancellationRequests := ∅ })
  | parametersReplaced (state : RunningContractState) (proposal : ThresholdParameters)
      (empty : state.domains.getDomainByIndex 0 = none)
      (valid : state.parameters.validateIncomingProposal proposal = .ok ()) :
      Transition env call (.running state) none none (.running
        (.new state.domains ⟨state.keyset.epochId.next, []⟩ proposal state.addDomainsVotes))
  | keygenStarted (state : RunningContractState) (first : DomainConfig)
      (later : List DomainConfig) (registry : DomainRegistry)
      (added : state.domains.addDomains (first :: later) = .ok registry)
      (asked : call = .voteAddDomains (first :: later))
      (complete : CompletesAddDomains env state (first :: later)) :
      Transition env call (.running state) none none (.initializing
        { domains := registry
          epochId := state.keyset.epochId
          generatedKeys := state.keyset.domains
          generatingKey := .new state.keyset.epochId first state.parameters
          cancelVotes := ∅ })
  | keygenMoved (state : InitializingContractState) (event : KeyEvent)
      (cancelVotes : Finset ParticipantId) (moved : state.generatingKey.Moves started event) :
      Transition env call (.initializing state) started none (.initializing { state with
        generatingKey := event, cancelVotes := cancelVotes })
  | keyGenerated (state : InitializingContractState) (key : PublicKeyExtended)
      (attempt : AttemptId) (next : DomainConfig)
      (isNext : state.domains.getDomainByIndex (state.generatedKeys.length + 1) = some next) :
      Transition env call (.initializing state) none none (.initializing { state with
        generatedKeys := state.generatedKeys ++ [⟨state.generatingKey.domain.id, key, attempt⟩]
        generatingKey := .new state.epochId next state.generatingKey.parameters })
  | keygenFinished (state : InitializingContractState) (key : PublicKeyExtended)
      (attempt : AttemptId)
      (last : state.domains.getDomainByIndex (state.generatedKeys.length + 1) = none) :
      Transition env call (.initializing state) none none (.running (.new state.domains
        ⟨state.epochId, state.generatedKeys ++ [⟨state.generatingKey.domain.id, key, attempt⟩]⟩
        state.generatingKey.parameters .default))
  | keygenCancelled (state : InitializingContractState) :
      Transition env call (.initializing state) none none (.running (.new
        (state.domains.retainDomains state.generatedKeys.length)
        ⟨state.epochId, state.generatedKeys⟩ state.generatingKey.parameters .default))
  | resharingMoved (state : ResharingContractState) (event : KeyEvent)
      (parametersVotes : ThresholdParametersVotes) (cancellationRequests : Finset AccountId)
      (moved : state.resharingKey.Moves started event) :
      Transition env call (.resharing state) started none (.resharing { state with
        previousRunningState := { state.previousRunningState with
          parametersVotes := parametersVotes }
        resharingKey := event
        cancellationRequests := cancellationRequests })
  | resharingReplaced (state : ResharingContractState) (proposal : ThresholdParameters)
      (first : DomainConfig)
      (isFirst : state.previousRunningState.domains.getDomainByIndex 0 = some first)
      (valid : state.previousRunningState.parameters.validateIncomingProposal proposal = .ok ()) :
      Transition env call (.resharing state) none (some state.prospectiveEpochId.next) (.resharing
        { previousRunningState := .new state.previousRunningState.domains
            state.previousRunningState.keyset state.previousRunningState.parameters
            state.previousRunningState.addDomainsVotes
          resharedKeys := []
          resharingKey := .new state.prospectiveEpochId.next first proposal
          cancellationRequests := ∅ })
  | keyReshared (state : ResharingContractState) (previousKey : KeyForDomain)
      (attempt : AttemptId) (next : DomainConfig)
      (isPrevious : state.previousRunningState.keyset.domains[state.resharedKeys.length]? =
        some previousKey)
      (isNext : state.previousRunningState.domains.getDomainByIndex
        (state.resharedKeys.length + 1) = some next) :
      Transition env call (.resharing state) none none (.resharing { state with
        resharedKeys := state.resharedKeys ++
          [⟨state.resharingKey.domain.id, previousKey.key, attempt⟩]
        resharingKey := .new state.prospectiveEpochId next state.resharingKey.parameters })
  | resharingFinished (state : ResharingContractState) (previousKey : KeyForDomain)
      (attempt : AttemptId)
      (isPrevious : state.previousRunningState.keyset.domains[state.resharedKeys.length]? =
        some previousKey)
      (last : state.previousRunningState.domains.getDomainByIndex
        (state.resharedKeys.length + 1) = none) :
      Transition env call (.resharing state) none none (.running (.new
        state.previousRunningState.domains
        ⟨state.prospectiveEpochId, state.resharedKeys ++
          [⟨state.resharingKey.domain.id, previousKey.key, attempt⟩]⟩
        state.resharingKey.parameters state.previousRunningState.addDomainsVotes))
  | resharingCancelled (state : ResharingContractState) :
      Transition env call (.resharing state) none none (.running { state.previousRunningState with
        previouslyCancelledResharingEpochId := some state.prospectiveEpochId })

/-- The effect of a method's result on the protocol state. -/
def Effect (env : Env) (call : Call) (s : ProtocolContractState) (started : Option KeyEventId)
    (outcome : ProtocolContractState.Outcome) : Prop :=
  Transition env call s started (outcome.1.bind ProtocolContractState.resharingEpoch)
    (outcome.1.getD outcome.2)

variable {prospectiveEpochId : EpochId}

namespace RunningContractState

variable {env : Env} {call : Call} {state changed : RunningContractState} {proposal : ThresholdParameters}

theorem processNewParametersProposal_ok
    (done : state.processNewParametersProposal env proposal = .ok (accepted, changed)) :
    state.parameters.validateIncomingProposal proposal = .ok () ∧
      ∃ votes, changed = { state with parametersVotes := votes } := by
  simp only [processNewParametersProposal, bind_ok_iff] at done
  obtain ⟨_, valid, candidate, _, rest⟩ := done
  refine ⟨valid, ?_⟩
  split at rest <;> simp only [bind_ok_iff, pure_ok_iff, Prod.mk.injEq] at rest
  · obtain ⟨_, _, _, same⟩ := rest
    exact ⟨_, same.symm⟩
  · exact ⟨_, rest.2.symm⟩

/-- Recorded votes play no part in the transition. -/
theorem transitionToResharingNoChecks_effect (votes : ThresholdParametersVotes)
    (valid : state.parameters.validateIncomingProposal proposal = .ok ())
    (done : { state with parametersVotes := votes }.transitionToResharingNoChecks proposal =
      (next, changed)) :
    Effect env call (.running state) none (next.map .resharing, .running changed) := by
  unfold transitionToResharingNoChecks at done
  split at done
  case h_1 first isFirst =>
      cases done
      exact .resharingStarted state proposal first isFirst valid
  case h_2 empty =>
      cases done
      exact .parametersReplaced state proposal empty valid

theorem voteNewParameters_effect
    (done : state.voteNewParameters env prospectiveEpochId proposal = .ok (next, changed)) :
    Effect env call (.running state) none (next.map .resharing, .running changed) := by
  simp only [voteNewParameters, bind_ok_iff, pure_ok_iff] at done
  obtain ⟨_, _, ⟨accepted, voted⟩, processed, result⟩ := done
  obtain ⟨valid, votes, rfl⟩ := processNewParametersProposal_ok processed
  cases accepted with
  | false =>
    cases result
    exact .voted state votes state.addDomainsVotes
  | true => exact transitionToResharingNoChecks_effect votes valid result

theorem voteAddDomains_effect {domains : List DomainConfig}
    (done : state.voteAddDomains env domains = .ok (next, changed)) :
    Effect env (.voteAddDomains domains) (.running state) none (next.map .initializing, .running changed) := by
  simp only [voteAddDomains, bind_ok_iff, found_eq_ok] at done
  obtain ⟨first, isHead, rest⟩ := done
  obtain ⟨later, rfl⟩ := List.head?_eq_some_iff.mp isHead
  split at rest
  · simp at rest
  · simp only [bind_ok_iff] at rest
    obtain ⟨participant, authenticated, rest⟩ := rest
    split at rest
    case isTrue complete =>
        simp only [bind_ok_iff, pure_ok_iff, Prod.mk.injEq] at rest
        obtain ⟨registry, added, rfl, rfl⟩ := rest
        exact .keygenStarted state first later registry added rfl
          ⟨participant, authenticated, complete.symm⟩
    case isFalse =>
        cases rest
        exact .voted state state.parametersVotes _

end RunningContractState

namespace InitializingContractState

variable {env : Env} {call : Call} {state changed : InitializingContractState}

theorem start_effect (done : state.start env keyEventId timeoutBlocks = .ok changed) :
    Effect env call (.initializing state) (some keyEventId) (none, .initializing changed) := by
  simp only [start, bind_ok_iff, pure_ok_iff] at done
  obtain ⟨event, started, rfl⟩ := done
  exact .keygenMoved state event state.cancelVotes (KeyEvent.start_moves started)

theorem votePk_effect (done : state.votePk env keyEventId publicKey = .ok (next, changed)) :
    Effect env call (.initializing state) none (next.map .running, .initializing changed) := by
  simp only [votePk, bind_ok_iff] at done
  obtain ⟨⟨complete, event⟩, voted, rest⟩ := done
  obtain ⟨_, sameDomain, inst, rfl⟩ := KeyEvent.voteSuccess_ok voted
  split at rest
  · rw [List.length_append, List.length_singleton, sameDomain] at rest
    split at rest
    case h_1 next isNext =>
        cases rest
        exact .keyGenerated state publicKey keyEventId.attemptId next isNext
    case h_2 last =>
        cases rest
        exact .keygenFinished state publicKey keyEventId.attemptId last
  · cases rest
    exact .keygenMoved state _ state.cancelVotes (.kept inst)

theorem voteAbort_effect (done : state.voteAbort env keyEventId = .ok changed) :
    Effect env call (.initializing state) none (none, .initializing changed) := by
  simp only [voteAbort, bind_ok_iff, pure_ok_iff] at done
  obtain ⟨event, aborted, rfl⟩ := done
  rw [KeyEvent.voteAbort_ok aborted]
  exact .keygenMoved state _ state.cancelVotes (.kept none)

theorem voteCancel_effect (done : state.voteCancel env nextDomainId = .ok (next, changed)) :
    Effect env call (.initializing state) none (next.map .running, .initializing changed) := by
  simp only [voteCancel, bind_ok_iff] at done
  obtain ⟨_, _, participant, _, rest⟩ := done
  split at rest
  · cases rest
    exact .keygenCancelled state
  · cases rest
    exact .keygenMoved state _ _ (.kept state.generatingKey.inst)

end InitializingContractState

namespace ResharingContractState

variable {env : Env} {call : Call} {state changed : ResharingContractState}

theorem voteNewParameters_effect
    (done : state.voteNewParameters env prospectiveEpochId proposal = .ok (next, changed)) :
    Effect env call (.resharing state) none (next.map .resharing, .resharing changed) := by
  simp only [voteNewParameters, bind_ok_iff] at done
  obtain ⟨_, _, ⟨accepted, voted⟩, processed, rest⟩ := done
  obtain ⟨valid, votes, rfl⟩ := RunningContractState.processNewParametersProposal_ok processed
  split at rest
  · simp only [bind_ok_iff, found_eq_ok, pure_ok_iff, Prod.mk.injEq] at rest
    obtain ⟨first, isFirst, rfl, rfl⟩ := rest
    exact .resharingReplaced state proposal first isFirst valid
  · cases rest
    exact .resharingMoved state _ votes state.cancellationRequests (.kept state.resharingKey.inst)

theorem start_effect (done : state.start env keyEventId timeoutBlocks = .ok changed) :
    Effect env call (.resharing state) (some keyEventId) (none, .resharing changed) := by
  simp only [start, bind_ok_iff, pure_ok_iff] at done
  obtain ⟨event, started, rfl⟩ := done
  exact .resharingMoved state event _ state.cancellationRequests (KeyEvent.start_moves started)

theorem voteReshared_effect (done : state.voteReshared env keyEventId = .ok (next, changed)) :
    Effect env call (.resharing state) none (next.map .running, .resharing changed) := by
  simp only [voteReshared, bind_ok_iff, found_eq_ok] at done
  obtain ⟨previousKey, isPrevious, ⟨complete, event⟩, voted, rest⟩ := done
  obtain ⟨_, sameDomain, inst, rfl⟩ := KeyEvent.voteSuccess_ok voted
  split at rest
  · rw [List.length_append, List.length_singleton, sameDomain] at rest
    split at rest
    case h_1 next isNext =>
        cases rest
        exact .keyReshared state previousKey keyEventId.attemptId next isPrevious isNext
    case h_2 last =>
        cases rest
        exact .resharingFinished state previousKey keyEventId.attemptId isPrevious last
  · cases rest
    exact .resharingMoved state _ _ state.cancellationRequests (.kept inst)

theorem voteAbort_effect (done : state.voteAbort env keyEventId = .ok changed) :
    Effect env call (.resharing state) none (none, .resharing changed) := by
  simp only [voteAbort, bind_ok_iff, pure_ok_iff] at done
  obtain ⟨event, aborted, rfl⟩ := done
  rw [KeyEvent.voteAbort_ok aborted]
  exact .resharingMoved state _ _ state.cancellationRequests (.kept none)

theorem voteCancelResharing_effect (done : state.voteCancelResharing env = .ok (next, changed)) :
    Effect env call (.resharing state) none (next.map .running, .resharing changed) := by
  simp only [voteCancelResharing, bind_ok_iff] at done
  obtain ⟨candidate, _, rest⟩ := done
  split at rest
  · cases rest
    exact .resharingCancelled state
  · cases rest
    exact .resharingMoved state _ _ _ (.kept state.resharingKey.inst)

end ResharingContractState

theorem perform_transition (done : perform env self call = .ok (next, contract)) :
    Transition env call self.protocolState call.starts
      (next.bind ProtocolContractState.resharingEpoch) contract.protocolState := by
  obtain ⟨outcome, dispatched, rfl, _, rfl⟩ := perform_dispatched done
  generalize self.protocolState = state at dispatched
  cases dispatched with
  | newParameters _ voted => exact RunningContractState.voteNewParameters_effect voted
  | otherParameters _ voted => exact ResharingContractState.voteNewParameters_effect voted
  | addDomains _ voted => exact RunningContractState.voteAddDomains_effect voted
  | startKeygen _ started => exact InitializingContractState.start_effect started
  | votePk _ voted => exact InitializingContractState.votePk_effect voted
  | startReshare _ started => exact ResharingContractState.start_effect started
  | voteReshared _ voted => exact ResharingContractState.voteReshared_effect voted
  | cancelResharing _ voted => exact ResharingContractState.voteCancelResharing_effect voted
  | cancelKeygen _ voted => exact InitializingContractState.voteCancel_effect voted
  | abortKeygen _ aborted => exact InitializingContractState.voteAbort_effect aborted
  | abortReshare _ aborted => exact ResharingContractState.voteAbort_effect aborted
  | teeSwitch state => exact .voted state state.parametersVotes state.addDomainsVotes
  | teeExpel state _ valid moved =>
    exact RunningContractState.transitionToResharingNoChecks_effect state.parametersVotes valid
      moved

end MpcNetwork.Contract
