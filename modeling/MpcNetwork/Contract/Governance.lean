import MpcNetwork.Contract.Requests

/-! # Calls that govern the protocol state

The voting methods of the contract and the TEE check that removes participants.  `perform`
dispatches over all of them.
-/

namespace MpcNetwork.Contract

open Fallible

inductive TeeValidationResult where
  | full
  | remaining (participantsWithValidAttestation : Participants)

/-- Keep the participants whose stored attestation still verifies. -/
def reverifyAndCleanupParticipants (env : Env) (participants : Participants) :
    TeeValidationResult :=
  let valid := participants.participants.filter env.reverifyParticipant
  if valid.length ≠ participants.len then .remaining ⟨participants.nextId, valid⟩ else .full

namespace MpcContract

/-- A contract in the given running state without any request. -/
def fresh (state : RunningContractState) (config : Config) : MpcContract where
  protocolState := .running state
  pendingSignatureRequests := fun _ => none
  pendingCkdRequests := fun _ => none
  pendingVerifyForeignTxRequests := fun _ => none
  foreignChainPolicy := []
  config := config
  acceptRequests := true

def init (parameters : ThresholdParameters) (config : Config) : Except Error MpcContract := do
  parameters.validate
  pure (fresh (.new .default ⟨⟨0⟩, []⟩ parameters .default) config)

def initRunning (domains : List DomainConfig) (nextDomainId : Nat) (keyset : Keyset)
    (parameters : ThresholdParameters) (config : Config) : Except Error MpcContract := do
  parameters.validate
  let domains ← DomainRegistry.fromRawValidated domains nextDomainId
  require (domains.domains.map (fun domain => domain.id) =
    keyset.domains.map fun key => key.domainId) (.domain .domainsMismatch)
  pure (fresh (.new domains keyset parameters .default) config)

/-- Go over to the next state, if the method gave one. -/
def settle (self : MpcContract) (outcome : ProtocolContractState.Outcome) : MpcContract :=
  { self with protocolState := outcome.1.getD outcome.2 }

/-- A method's result: the state it goes over to, if any, and the contract after it. -/
abbrev Settled := Option ProtocolContractState × MpcContract

def voteNewParameters (env : Env) (self : MpcContract) (prospectiveEpochId : EpochId)
    (proposal : ThresholdParameters) : Except Error Settled := do
  match reverifyAndCleanupParticipants env proposal.participants with
  | .full => do
    let outcome ← self.protocolState.voteNewParameters env prospectiveEpochId proposal
    pure (outcome.1, self.settle outcome)
  | .remaining _ => throw (.invalidParameters .invalidTeeRemoteAttestation)

def voteAddDomains (env : Env) (self : MpcContract) (domains : List DomainConfig) :
    Except Error Settled := do
  let outcome ← self.protocolState.voteAddDomains env domains
  pure (outcome.1, self.settle outcome)

def startKeygenInstance (env : Env) (self : MpcContract) (keyEventId : KeyEventId) :
    Except Error Settled := do
  self.assertCallerIsAttestedParticipantAndProtocolActive env
  let state ← self.protocolState.startKeygenInstance env keyEventId
    self.config.keyEventTimeoutBlocks
  pure (none, { self with protocolState := state })

def votePk (env : Env) (self : MpcContract) (keyEventId : KeyEventId)
    (publicKey : PublicKeyExtended) : Except Error Settled := do
  self.assertCallerIsAttestedParticipantAndProtocolActive env
  let outcome ← self.protocolState.votePk env keyEventId publicKey
  pure (outcome.1, self.settle outcome)

def startReshareInstance (env : Env) (self : MpcContract) (keyEventId : KeyEventId) :
    Except Error Settled := do
  self.assertCallerIsAttestedParticipantAndProtocolActive env
  let state ← self.protocolState.startReshareInstance env keyEventId
    self.config.keyEventTimeoutBlocks
  pure (none, { self with protocolState := state })

def voteReshared (env : Env) (self : MpcContract) (keyEventId : KeyEventId) :
    Except Error Settled := do
  self.assertCallerIsAttestedParticipantAndProtocolActive env
  let outcome ← self.protocolState.voteReshared env keyEventId
  pure (outcome.1, self.settle outcome)

def voteCancelResharing (env : Env) (self : MpcContract) : Except Error Settled := do
  let outcome ← self.protocolState.voteCancelResharing env
  pure (outcome.1, self.settle outcome)

def voteCancelKeygen (env : Env) (self : MpcContract) (nextDomainId : Nat) :
    Except Error Settled := do
  let outcome ← self.protocolState.voteCancelKeygen env nextDomainId
  pure (outcome.1, self.settle outcome)

def voteAbortKeyEventInstance (env : Env) (self : MpcContract) (keyEventId : KeyEventId) :
    Except Error Settled := do
  self.assertCallerIsAttestedParticipantAndProtocolActive env
  let state ← self.protocolState.voteAbortKeyEventInstance env keyEventId
  pure (none, { self with protocolState := state })

def voterAccount (env : Env) (self : MpcContract) : Except Error AccountId := do
  require (env.signerAccountId = env.predecessorAccountId) (.invalidParameters .callerNotSigner)
  let _ ← self.protocolState.authenticateUpdateVote env
  pure env.signerAccountId

def voterOrPanic (env : Env) (self : MpcContract) : Except Error AccountId := do
  assertCallerIsSigner env
  expect .panic (self.voterAccount env)

/-- Reshare to the participants that verify; with fewer than `threshold`, stop taking requests. -/
def verifyTee (env : Env) (self : MpcContract) : Except Error (Bool × Settled) := do
  let _ ← self.voterOrPanic env
  match self.protocolState with
  | .running state =>
    let current := state.parameters
    match reverifyAndCleanupParticipants env current.participants with
    | .full => pure (true, none, { self with acceptRequests := true })
    | .remaining participants =>
      if participants.len < current.threshold then
        pure (false, none, { self with acceptRequests := false })
      else do
        let parameters ← expect .panic (ThresholdParameters.new participants current.threshold)
        current.validateIncomingProposal parameters
        let (next, state) := state.transitionToResharingNoChecks parameters
        let outcome := (next.map .resharing, .running state)
        pure (true, outcome.1, { self with acceptRequests := true }.settle outcome)
  | _ => throw (.invalidState .protocolStateNotRunning)

end MpcContract

inductive Call where
  | voteNewParameters (prospectiveEpochId : EpochId) (proposal : ThresholdParameters)
  | voteAddDomains (domains : List DomainConfig)
  | startKeygenInstance (keyEventId : KeyEventId)
  | votePk (keyEventId : KeyEventId) (publicKey : PublicKeyExtended)
  | startReshareInstance (keyEventId : KeyEventId)
  | voteReshared (keyEventId : KeyEventId)
  | voteCancelResharing
  | voteCancelKeygen (nextDomainId : Nat)
  | voteAbortKeyEventInstance (keyEventId : KeyEventId)
  | verifyTee

open MpcContract in
def perform (env : Env) (self : MpcContract) : Call → Except Error Settled
  | .voteNewParameters prospectiveEpochId proposal =>
    self.voteNewParameters env prospectiveEpochId proposal
  | .voteAddDomains domains => self.voteAddDomains env domains
  | .startKeygenInstance keyEventId => self.startKeygenInstance env keyEventId
  | .votePk keyEventId publicKey => self.votePk env keyEventId publicKey
  | .startReshareInstance keyEventId => self.startReshareInstance env keyEventId
  | .voteReshared keyEventId => self.voteReshared env keyEventId
  | .voteCancelResharing => self.voteCancelResharing env
  | .voteCancelKeygen nextDomainId => self.voteCancelKeygen env nextDomainId
  | .voteAbortKeyEventInstance keyEventId => self.voteAbortKeyEventInstance env keyEventId
  | .verifyTee => do pure (← self.verifyTee env).2

/-- The key event id a call starts an attempt under. -/
def Call.starts : Call → Option KeyEventId
  | startKeygenInstance keyEventId | startReshareInstance keyEventId => some keyEventId
  | _ => none

/-- The epoch of a resharing the contract goes over to. -/
def ProtocolContractState.resharingEpoch : ProtocolContractState → Option EpochId
  | resharing state => some state.prospectiveEpochId
  | _ => none

/-- The method that a call comes down to, in the phase that it is for. -/
inductive Dispatched (env : Env) (timeoutBlocks : Nat) :
    ProtocolContractState → Call → ProtocolContractState.Outcome → Prop where
  | newParameters (state : RunningContractState)
      (voted : state.voteNewParameters env epochId proposal = .ok (next, changed)) :
      Dispatched env timeoutBlocks (.running state) (.voteNewParameters epochId proposal)
        (next.map .resharing, .running changed)
  | otherParameters (state : ResharingContractState)
      (voted : state.voteNewParameters env epochId proposal = .ok (next, changed)) :
      Dispatched env timeoutBlocks (.resharing state) (.voteNewParameters epochId proposal)
        (next.map .resharing, .resharing changed)
  | addDomains (state : RunningContractState)
      (voted : state.voteAddDomains env domains = .ok (next, changed)) :
      Dispatched env timeoutBlocks (.running state) (.voteAddDomains domains)
        (next.map .initializing, .running changed)
  | startKeygen (state : InitializingContractState)
      (started : state.start env keyEventId timeoutBlocks = .ok changed) :
      Dispatched env timeoutBlocks (.initializing state) (.startKeygenInstance keyEventId)
        (none, .initializing changed)
  | votePk (state : InitializingContractState)
      (voted : state.votePk env keyEventId publicKey = .ok (next, changed)) :
      Dispatched env timeoutBlocks (.initializing state) (.votePk keyEventId publicKey)
        (next.map .running, .initializing changed)
  | startReshare (state : ResharingContractState)
      (started : state.start env keyEventId timeoutBlocks = .ok changed) :
      Dispatched env timeoutBlocks (.resharing state) (.startReshareInstance keyEventId)
        (none, .resharing changed)
  | voteReshared (state : ResharingContractState)
      (voted : state.voteReshared env keyEventId = .ok (next, changed)) :
      Dispatched env timeoutBlocks (.resharing state) (.voteReshared keyEventId)
        (next.map .running, .resharing changed)
  | cancelResharing (state : ResharingContractState)
      (voted : state.voteCancelResharing env = .ok (next, changed)) :
      Dispatched env timeoutBlocks (.resharing state) .voteCancelResharing
        (next.map .running, .resharing changed)
  | cancelKeygen (state : InitializingContractState)
      (voted : state.voteCancel env nextDomainId = .ok (next, changed)) :
      Dispatched env timeoutBlocks (.initializing state) (.voteCancelKeygen nextDomainId)
        (next.map .running, .initializing changed)
  | abortKeygen (state : InitializingContractState)
      (aborted : state.voteAbort env keyEventId = .ok changed) :
      Dispatched env timeoutBlocks (.initializing state) (.voteAbortKeyEventInstance keyEventId)
        (none, .initializing changed)
  | abortReshare (state : ResharingContractState)
      (aborted : state.voteAbort env keyEventId = .ok changed) :
      Dispatched env timeoutBlocks (.resharing state) (.voteAbortKeyEventInstance keyEventId)
        (none, .resharing changed)
  | teeSwitch (state : RunningContractState) :
      Dispatched env timeoutBlocks (.running state) .verifyTee (none, .running state)
  | teeExpel (state : RunningContractState)
      (remaining : reverifyAndCleanupParticipants env state.parameters.participants =
        .remaining left)
      (valid : state.parameters.validateIncomingProposal ⟨left, state.parameters.threshold⟩ =
        .ok ())
      (moved : state.transitionToResharingNoChecks ⟨left, state.parameters.threshold⟩ =
        (next, changed)) :
      Dispatched env timeoutBlocks (.running state) .verifyTee
        (next.map .resharing, .running changed)

theorem MpcContract.verifyTee_dispatched {self : MpcContract}
    (done : self.verifyTee env = .ok (answer, next, contract)) :
    ∃ outcome, Dispatched env timeoutBlocks self.protocolState .verifyTee outcome ∧
      next = outcome.1 ∧ ∃ accepts, contract = { self with
        protocolState := outcome.1.getD outcome.2, acceptRequests := accepts } := by
  obtain ⟨phase, _, _, _, _, _, _⟩ := self
  simp only [verifyTee, bind_ok_iff] at done
  obtain ⟨_, _, rest⟩ := done
  cases phase with
  | running state =>
    simp only at rest
    split at rest
    · cases rest
      exact ⟨_, .teeSwitch state, rfl, _, rfl⟩
    · rename_i left remaining
      split at rest
      · cases rest
        exact ⟨_, .teeSwitch state, rfl, _, rfl⟩
      · simp only [ThresholdParameters.new, expect_eq_ok, bind_ok_iff, pure_ok_iff,
          Prod.mk.injEq] at rest
        obtain ⟨_, ⟨_, _, rfl⟩, _, valid, _, rfl, rfl⟩ := rest
        exact ⟨_, .teeExpel state remaining valid rfl, rfl, _, rfl⟩
  | _ => cases rest

/-- A governing call changes the protocol state and the acceptance of requests only. -/
theorem perform_dispatched (done : perform env self call = .ok (next, contract)) :
    ∃ outcome, Dispatched env self.config.keyEventTimeoutBlocks self.protocolState call outcome ∧
      next = outcome.1 ∧ ∃ accepts, contract = { self with
        protocolState := outcome.1.getD outcome.2, acceptRequests := accepts } := by
  obtain ⟨phase, _, _, _, _, _, _⟩ := self
  cases call with
  | verifyTee =>
    simp only [perform, bind_ok_iff, pure_ok_iff] at done
    obtain ⟨⟨answer, _⟩, verified, rfl⟩ := done
    exact MpcContract.verifyTee_dispatched verified
  | voteNewParameters =>
    simp only [perform, MpcContract.voteNewParameters] at done
    split at done
    · simp only [bind_ok_iff, pure_ok_iff, Prod.mk.injEq] at done
      obtain ⟨outcome, voted, rfl, rfl⟩ := done
      cases phase <;>
        simp only [ProtocolContractState.voteNewParameters, bind_ok_iff, pure_ok_iff] at voted
      case running state =>
        obtain ⟨_, voted, rfl⟩ := voted
        exact ⟨_, .newParameters state voted, rfl, _, rfl⟩
      case resharing state =>
        obtain ⟨_, voted, rfl⟩ := voted
        exact ⟨_, .otherParameters state voted, rfl, _, rfl⟩
      all_goals cases voted
    · cases done
  | voteAddDomains | voteCancelResharing | voteCancelKeygen =>
    simp only [perform, MpcContract.voteAddDomains, MpcContract.voteCancelResharing,
      MpcContract.voteCancelKeygen, bind_ok_iff, pure_ok_iff, Prod.mk.injEq] at done
    obtain ⟨outcome, voted, rfl, rfl⟩ := done
    refine ⟨outcome, ?_, rfl, _, rfl⟩
    cases phase <;> first
      | cases voted
      | simp only [ProtocolContractState.voteAddDomains, ProtocolContractState.voteCancelResharing,
          ProtocolContractState.voteCancelKeygen, bind_ok_iff, pure_ok_iff] at voted
        obtain ⟨_, voted, rfl⟩ := voted
        constructor
        exact voted
  | votePk | voteReshared =>
    simp only [perform, MpcContract.votePk, MpcContract.voteReshared, bind_ok_iff, pure_ok_iff,
      Prod.mk.injEq] at done
    obtain ⟨_, _, outcome, voted, rfl, rfl⟩ := done
    refine ⟨outcome, ?_, rfl, _, rfl⟩
    cases phase <;> first
      | cases voted
      | simp only [ProtocolContractState.votePk, ProtocolContractState.voteReshared, bind_ok_iff,
          pure_ok_iff] at voted
        obtain ⟨_, voted, rfl⟩ := voted
        constructor
        exact voted
  | startKeygenInstance | startReshareInstance | voteAbortKeyEventInstance =>
    simp only [perform, MpcContract.startKeygenInstance, MpcContract.startReshareInstance,
      MpcContract.voteAbortKeyEventInstance, bind_ok_iff, pure_ok_iff, Prod.mk.injEq] at done
    obtain ⟨_, _, changed, called, rfl, rfl⟩ := done
    refine ⟨(none, changed), ?_, rfl, _, rfl⟩
    cases phase <;> first
      | cases called
      | simp only [ProtocolContractState.startKeygenInstance,
          ProtocolContractState.startReshareInstance,
          ProtocolContractState.voteAbortKeyEventInstance, bind_ok_iff, pure_ok_iff] at called
        obtain ⟨_, called, rfl⟩ := called
        constructor
        exact called

theorem perform_frame (done : perform env self call = .ok (next, contract)) :
    ∃ state accepts, contract = { self with
      protocolState := state, acceptRequests := accepts } := by
  obtain ⟨_, _, _, accepts, same⟩ := perform_dispatched done
  exact ⟨_, accepts, same⟩

end MpcNetwork.Contract
