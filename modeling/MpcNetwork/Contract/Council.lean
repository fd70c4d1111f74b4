import MpcNetwork.Contract.Deployment

/-! # Who governs the contract

`Seats` is what the phases of the contract have in common: the parameters in force, those
that are being reshared to, the votes for new ones and the epoch that a vote has to name.
`Seats.Moves` lists what a call can do to them, with what the call has checked.
-/

namespace MpcNetwork.Contract

open Fallible Runs

structure Seats where
  governing : ThresholdParameters
  proposed : Option ThresholdParameters
  votes : ThresholdParametersVotes
  epoch : EpochId

/-- The seats of each phase.  A contract that is not initialised has no one. -/
def ProtocolContractState.seats : ProtocolContractState → Seats
  | notInitialized => ⟨⟨⟨⟨0⟩, []⟩, 0⟩, none, .default, ⟨0⟩⟩
  | initializing state => ⟨state.generatingKey.parameters, none, .default, state.epochId.next⟩
  | running state => ⟨state.parameters, none, state.parametersVotes, state.prospectiveEpochId⟩
  | resharing state =>
    ⟨state.previousRunningState.parameters, some state.resharingKey.parameters,
      state.previousRunningState.parametersVotes, state.prospectiveEpochId.next⟩

/-- The vote for new parameters that a call is, with the epoch it names. -/
def Call.newParameters : Call → Option (EpochId × ThresholdParameters)
  | voteNewParameters prospectiveEpochId proposal => some (prospectiveEpochId, proposal)
  | _ => none

namespace Seats

/-- A vote that names the right epoch. A newcomer comes after `threshold` votes of those in force.
    -/
structure Votes (env : Env) (call : Call) (s : Seats) (proposal : ThresholdParameters) : Prop where
  asked : call = .voteNewParameters s.epoch proposal
  valid : s.governing.validateIncomingProposal proposal = .ok ()
  member : proposal.participants.isParticipantGivenAccountId env.signerAccountId = true
  admitted : s.governing.participants.isParticipantGivenAccountId env.signerAccountId = true ∨
    s.governing.threshold ≤ s.votes.nVotes proposal s.governing.participants

/-- Everyone in the proposal has voted for it, the signer with this call. -/
structure Carries (env : Env) (call : Call) (s : Seats) (proposal : ThresholdParameters) : Prop
    extends Votes env call s proposal where
  complete : proposal.participants.len = (s.votes.vote proposal env.signerAccountId).1

/-- The proposal is what is left of the parameters in force after a TEE check. -/
structure Expels (call : Call) (governing proposal : ThresholdParameters) : Prop where
  asked : call = .verifyTee
  valid : governing.validateIncomingProposal proposal = .ok ()
  sameNextId : proposal.participants.nextId = governing.participants.nextId
  remaining : proposal.participants.participants.Sublist governing.participants.participants

inductive Brings (env : Env) (call : Call) (s : Seats) (proposal : ThresholdParameters) : Prop where
  | carried (carries : Carries env call s proposal)
  | expelled (expels : Expels call s.governing proposal) (settled : s.proposed = none)

/-- What a call does to the seats.  Only votes for new parameters are recorded. -/
inductive Moves (env : Env) (call : Call) (s : Seats) : Seats → Prop where
  | kept (silent : call.newParameters = none) : Moves env call s s
  | reset (epoch : EpochId) (settled : s.proposed = none) :
      Moves env call s { s with votes := .default, epoch := epoch }
  | cast (proposal : ThresholdParameters) (votes : Votes env call s proposal) :
      Moves env call s { s with votes := (s.votes.vote proposal env.signerAccountId).2 }
  | proposed (proposal : ThresholdParameters) (brings : Brings env call s proposal) :
      Moves env call s ⟨s.governing, some proposal, .default, s.epoch.next⟩
  | replaced (proposal : ThresholdParameters) (epoch : EpochId)
      (brings : Brings env call s proposal) (settled : s.proposed = none) :
      Moves env call s ⟨proposal, none, .default, epoch⟩
  | adopted (proposal : ThresholdParameters) (isProposed : s.proposed = some proposal) :
      Moves env call s ⟨proposal, none, .default, s.epoch⟩
  | dropped (silent : call.newParameters = none) : Moves env call s { s with proposed := none }

end Seats

namespace RunningContractState

variable {env : Env} {state : RunningContractState} {proposal : ThresholdParameters}

theorem processNewParametersProposal_votes {s : Seats}
    (done : state.processNewParametersProposal env proposal = .ok (accepted, changed))
    (governing : s.governing = state.parameters) (votes : s.votes = state.parametersVotes)
    (asked : call = .voteNewParameters s.epoch proposal) :
    s.Votes env call proposal ∧
      accepted = decide (proposal.participants.len = (s.votes.vote proposal env.signerAccountId).1) ∧
      changed = { state with
        parametersVotes := (s.votes.vote proposal env.signerAccountId).2 } := by
  obtain ⟨_, _, _, epoch⟩ := s
  cases governing
  cases votes
  simp only [processNewParametersProposal, authenticatedAccountId, bind_ok_iff, require_eq_ok,
    pure_ok_iff] at done
  obtain ⟨_, valid, candidate, ⟨_, member, rfl⟩, rest⟩ := done
  split at rest
  · rename_i newcomer
    simp only [bind_ok_iff, require_eq_ok, pure_ok_iff, Prod.mk.injEq] at rest
    obtain ⟨_, enough, rfl, rfl⟩ := rest
    exact ⟨⟨asked, valid, member, .inr enough⟩, rfl, rfl⟩
  · rename_i known
    simp only [pure_ok_iff, Prod.mk.injEq] at rest
    obtain ⟨rfl, rfl⟩ := rest
    exact ⟨⟨asked, valid, member, .inl (by simpa using known)⟩, rfl, rfl⟩

theorem transitionToResharingNoChecks_moves (votes : ThresholdParametersVotes)
    (brings : (ProtocolContractState.running state).seats.Brings env call proposal)
    (done : { state with parametersVotes := votes }.transitionToResharingNoChecks proposal =
      (next, changed)) :
    (ProtocolContractState.running state).seats.Moves env call
      ((next.map ProtocolContractState.resharing).getD (.running changed)).seats := by
  unfold transitionToResharingNoChecks at done
  split at done
  · cases done
    exact .proposed proposal brings
  · cases done
    exact .replaced proposal _ brings rfl

theorem voteNewParameters_moves {prospectiveEpochId : EpochId}
    (done : state.voteNewParameters env prospectiveEpochId proposal = .ok (next, changed)) :
    (ProtocolContractState.running state).seats.Moves env
      (.voteNewParameters prospectiveEpochId proposal)
      ((next.map ProtocolContractState.resharing).getD (.running changed)).seats := by
  simp only [voteNewParameters, bind_ok_iff, require_eq_ok, pure_ok_iff] at done
  obtain ⟨_, rfl, ⟨accepted, voted⟩, processed, result⟩ := done
  obtain ⟨votes, complete, rfl⟩ := processNewParametersProposal_votes
    (s := (ProtocolContractState.running state).seats) processed rfl rfl rfl
  cases accepted with
  | false =>
    cases result
    exact .cast proposal votes
  | true =>
    exact transitionToResharingNoChecks_moves _
      (.carried ⟨votes, of_decide_eq_true complete.symm⟩) result

theorem voteAddDomains_moves {domains : List DomainConfig}
    (done : state.voteAddDomains env domains = .ok (next, changed)) :
    (ProtocolContractState.running state).seats.Moves env (.voteAddDomains domains)
      ((next.map ProtocolContractState.initializing).getD (.running changed)).seats := by
  simp only [voteAddDomains, bind_ok_iff, found_eq_ok] at done
  obtain ⟨first, _, rest⟩ := done
  split at rest
  · simp at rest
  · simp only [bind_ok_iff] at rest
    obtain ⟨participant, _, rest⟩ := rest
    split at rest
    · simp only [bind_ok_iff, pure_ok_iff, Prod.mk.injEq] at rest
      obtain ⟨registry, _, rfl, rfl⟩ := rest
      exact .reset _ rfl
    · cases rest
      exact .kept rfl

end RunningContractState

theorem Transition.seats_initializing
    (transition : Transition env call (.initializing state) started epoch t) :
    t.seats = (ProtocolContractState.initializing state).seats := by
  cases transition with
  | keygenMoved _ event cancelVotes moved =>
    obtain ⟨_, _, sameParameters⟩ := moved.same
    simp only [ProtocolContractState.seats, sameParameters]
  | keyGenerated | keygenFinished | keygenCancelled => rfl

namespace ResharingContractState

variable {env : Env} {state : ResharingContractState}

theorem voteNewParameters_moves {prospectiveEpochId : EpochId}
    (done : state.voteNewParameters env prospectiveEpochId proposal = .ok (next, changed)) :
    (ProtocolContractState.resharing state).seats.Moves env
      (.voteNewParameters prospectiveEpochId proposal)
      ((next.map ProtocolContractState.resharing).getD (.resharing changed)).seats := by
  simp only [voteNewParameters, bind_ok_iff, require_eq_ok] at done
  obtain ⟨_, rfl, ⟨accepted, voted⟩, processed, rest⟩ := done
  obtain ⟨votes, complete, rfl⟩ := RunningContractState.processNewParametersProposal_votes
    (s := (ProtocolContractState.resharing state).seats) processed rfl rfl rfl
  split at rest
  · rename_i isAccepted
    simp only [bind_ok_iff, found_eq_ok, pure_ok_iff, Prod.mk.injEq] at rest
    obtain ⟨first, _, rfl, rfl⟩ := rest
    exact .proposed proposal (.carried ⟨votes, of_decide_eq_true (complete.symm.trans isAccepted)⟩)
  · cases rest
    exact .cast proposal votes

theorem start_seats (done : state.start env keyEventId timeoutBlocks = .ok changed) :
    (ProtocolContractState.resharing changed).seats =
      (ProtocolContractState.resharing state).seats := by
  simp only [start, bind_ok_iff, pure_ok_iff] at done
  obtain ⟨event, started, rfl⟩ := done
  obtain ⟨_, sameEpoch, _, sameParameters, _⟩ := KeyEvent.start_ok started
  simp only [ProtocolContractState.seats, prospectiveEpochId, sameEpoch, sameParameters]

theorem voteReshared_moves (done : state.voteReshared env keyEventId = .ok (next, changed)) :
    (ProtocolContractState.resharing state).seats.Moves env (.voteReshared keyEventId)
      ((next.map ProtocolContractState.running).getD (.resharing changed)).seats := by
  simp only [voteReshared, bind_ok_iff, found_eq_ok] at done
  obtain ⟨previousKey, _, ⟨complete, event⟩, voted, rest⟩ := done
  obtain ⟨_, _, inst, rfl⟩ := KeyEvent.voteSuccess_ok voted
  split at rest
  · split at rest
    · cases rest
      exact .kept rfl
    · cases rest
      exact .adopted _ rfl
  · cases rest
    exact .kept rfl

theorem voteAbort_seats (done : state.voteAbort env keyEventId = .ok changed) :
    (ProtocolContractState.resharing changed).seats =
      (ProtocolContractState.resharing state).seats := by
  simp only [voteAbort, bind_ok_iff, pure_ok_iff] at done
  obtain ⟨event, aborted, rfl⟩ := done
  rw [KeyEvent.voteAbort_ok aborted]
  rfl

theorem voteCancelResharing_moves (done : state.voteCancelResharing env = .ok (next, changed)) :
    (ProtocolContractState.resharing state).seats.Moves env .voteCancelResharing
      ((next.map ProtocolContractState.running).getD (.resharing changed)).seats := by
  simp only [voteCancelResharing, bind_ok_iff] at done
  obtain ⟨candidate, _, rest⟩ := done
  split at rest
  · cases rest
    exact .dropped rfl
  · cases rest
    exact .kept rfl

end ResharingContractState

theorem reverifyAndCleanupParticipants_remaining
    (remaining : reverifyAndCleanupParticipants env participants = .remaining left) :
    left.nextId = participants.nextId ∧
      left.participants.Sublist participants.participants := by
  simp only [reverifyAndCleanupParticipants] at remaining
  split at remaining
  · cases remaining
    exact ⟨rfl, List.filter_sublist⟩
  · cases remaining

theorem perform_moves (done : perform env self call = .ok (next, contract)) :
    self.protocolState.seats.Moves env call contract.protocolState.seats := by
  have transition := perform_transition done
  obtain ⟨outcome, dispatched, rfl, _, rfl⟩ := perform_dispatched done
  generalize self.protocolState = phase at dispatched transition
  cases dispatched with
  | newParameters _ voted => exact RunningContractState.voteNewParameters_moves voted
  | otherParameters _ voted => exact ResharingContractState.voteNewParameters_moves voted
  | addDomains _ voted => exact RunningContractState.voteAddDomains_moves voted
  | startReshare _ started =>
    exact ResharingContractState.start_seats started ▸ .kept rfl
  | voteReshared _ voted => exact ResharingContractState.voteReshared_moves voted
  | cancelResharing _ voted => exact ResharingContractState.voteCancelResharing_moves voted
  | abortReshare _ aborted =>
    exact ResharingContractState.voteAbort_seats aborted ▸ .kept rfl
  | startKeygen | votePk | cancelKeygen | abortKeygen =>
    rw [transition.seats_initializing]
    exact .kept rfl
  | teeSwitch => exact .kept rfl
  | teeExpel state remaining valid moved =>
    obtain ⟨sameNextId, sublist⟩ := reverifyAndCleanupParticipants_remaining remaining
    exact RunningContractState.transitionToResharingNoChecks_moves state.parametersVotes
      (.expelled ⟨rfl, valid, sameNextId, sublist⟩ rfl) moved

end MpcNetwork.Contract
