import MpcNetwork.Contract.KeyEvent

/-! # The protocol state of the contract

The contract is in one of three phases: running, generating keys for new domains, or
resharing all keys onto new parameters.  A method gives the changed state and, when it
completes the phase, the state to replace it with.
-/

namespace MpcNetwork.Contract

open Fallible

structure RunningContractState where
  domains : DomainRegistry
  keyset : Keyset
  parameters : ThresholdParameters
  parametersVotes : ThresholdParametersVotes
  addDomainsVotes : AddDomainsVotes
  previouslyCancelledResharingEpochId : Option EpochId

structure ResharingContractState where
  previousRunningState : RunningContractState
  resharedKeys : List KeyForDomain
  resharingKey : KeyEvent
  cancellationRequests : Finset AccountId

structure InitializingContractState where
  domains : DomainRegistry
  epochId : EpochId
  generatedKeys : List KeyForDomain
  generatingKey : KeyEvent
  cancelVotes : Finset ParticipantId

namespace RunningContractState

def new (domains : DomainRegistry) (keyset : Keyset) (parameters : ThresholdParameters)
    (addDomainsVotes : AddDomainsVotes) : RunningContractState where
  domains := domains
  keyset := keyset
  parameters := parameters
  parametersVotes := .default
  addDomainsVotes := addDomainsVotes.getRemainingVotes parameters.participants
  previouslyCancelledResharingEpochId := none

def prospectiveEpochId (self : RunningContractState) : EpochId :=
  (self.previouslyCancelledResharingEpochId.getD self.keyset.epochId).next

/-- Without domains there is nothing to reshare: the parameters are replaced in place. -/
def transitionToResharingNoChecks (self : RunningContractState) (proposal : ThresholdParameters) :
    Option ResharingContractState × RunningContractState :=
  match self.domains.getDomainByIndex 0 with
  | some firstDomain =>
    let resharing :=
      { previousRunningState :=
          .new self.domains self.keyset self.parameters self.addDomainsVotes
        resharedKeys := []
        resharingKey := .new self.prospectiveEpochId firstDomain proposal
        cancellationRequests := ∅ }
    (some resharing, self)
  | none =>
    (none, .new self.domains ⟨self.keyset.epochId.next, []⟩ proposal self.addDomainsVotes)

/-- Record the signer's vote.  True when all participants of the proposal have voted for it. -/
def processNewParametersProposal (env : Env) (self : RunningContractState)
    (proposal : ThresholdParameters) : Except Error (Bool × RunningContractState) := do
  self.parameters.validateIncomingProposal proposal
  let candidate ← authenticatedAccountId env proposal.participants
  -- a newcomer votes only after `threshold` current participants have
  if !self.parameters.participants.isParticipantGivenAccountId env.signerAccountId then
    require (self.parameters.threshold ≤
        self.parametersVotes.nVotes proposal self.parameters.participants)
      (.vote .voterPending)
  let (nVotes, parametersVotes) := self.parametersVotes.vote proposal candidate
  pure (decide (proposal.participants.len = nVotes),
    { self with parametersVotes := parametersVotes })

def voteNewParameters (env : Env) (self : RunningContractState) (prospectiveEpochId : EpochId)
    (proposal : ThresholdParameters) :
    Except Error (Option ResharingContractState × RunningContractState) := do
  require (prospectiveEpochId = self.prospectiveEpochId)
    (.invalidParameters (.epochMismatch prospectiveEpochId self.prospectiveEpochId))
  let (accepted, self) ← self.processNewParametersProposal env proposal
  pure (if accepted then self.transitionToResharingNoChecks proposal else (none, self))

/-- The first proposed domain whose scheme does not fit its purpose. -/
def misfit (domains : List DomainConfig) : Option DomainConfig :=
  domains.find? fun domain => !isValidSchemeForPurpose domain.purpose domain.scheme

def voteAddDomains (env : Env) (self : RunningContractState) (domains : List DomainConfig) :
    Except Error (Option InitializingContractState × RunningContractState) := do
  let firstDomain ← found (.domain .addDomainsMustAddAtLeastOneDomain) domains.head?
  if let some domain := misfit domains then
    throw (.domain (.invalidSchemePurposeCombination domain.scheme domain.purpose))
  let participant ← authenticatedParticipantId env self.parameters.participants
  let (nVotes, addDomainsVotes) := self.addDomainsVotes.vote domains participant
  let self := { self with addDomainsVotes := addDomainsVotes }
  if self.parameters.participants.len = nVotes then
    let newDomains ← self.domains.addDomains domains
    let initializing :=
      { domains := newDomains
        epochId := self.keyset.epochId
        generatedKeys := self.keyset.domains
        generatingKey := .new self.keyset.epochId firstDomain self.parameters
        cancelVotes := ∅ }
    pure (some initializing, self)
  else pure (none, self)

end RunningContractState

namespace ResharingContractState

def prospectiveEpochId (self : ResharingContractState) : EpochId := self.resharingKey.epochId

/-- A re-proposal; its votes are kept in the previous running state. -/
def voteNewParameters (env : Env) (self : ResharingContractState) (prospectiveEpochId : EpochId)
    (proposal : ThresholdParameters) :
    Except Error (Option ResharingContractState × ResharingContractState) := do
  require (prospectiveEpochId = self.prospectiveEpochId.next)
    (.invalidParameters (.epochMismatch prospectiveEpochId self.prospectiveEpochId.next))
  let (accepted, previous) ← self.previousRunningState.processNewParametersProposal env proposal
  let self := { self with previousRunningState := previous }
  if accepted then
    let firstDomain ← found .panic (previous.domains.getDomainByIndex 0)
    let resharing :=
      { previousRunningState := .new previous.domains previous.keyset previous.parameters
          previous.addDomainsVotes
        resharedKeys := []
        resharingKey := .new self.prospectiveEpochId.next firstDomain proposal
        cancellationRequests := ∅ }
    pure (some resharing, self)
  else pure (none, self)

def start (env : Env) (self : ResharingContractState) (keyEventId : KeyEventId)
    (keyEventTimeoutBlocks : Nat) : Except Error ResharingContractState := do
  let event ← self.resharingKey.start env keyEventId keyEventTimeoutBlocks
  pure { self with resharingKey := event }

def voteReshared (env : Env) (self : ResharingContractState) (keyEventId : KeyEventId) :
    Except Error (Option RunningContractState × ResharingContractState) := do
  let previous := self.previousRunningState
  let previousKey ← found .panic previous.keyset.domains[self.resharedKeys.length]?
  let (complete, event) ← self.resharingKey.voteSuccess env keyEventId previousKey.key
  if complete then
    let newKey : KeyForDomain := ⟨keyEventId.domainId, previousKey.key, keyEventId.attemptId⟩
    let resharedKeys := self.resharedKeys ++ [newKey]
    let self := { self with resharedKeys := resharedKeys, resharingKey := event }
    match previous.domains.getDomainByIndex resharedKeys.length with
    | some nextDomain =>
      let event := KeyEvent.new self.prospectiveEpochId nextDomain event.parameters
      pure (none, { self with resharingKey := event })
    | none =>
      let keyset : Keyset := ⟨self.prospectiveEpochId, resharedKeys⟩
      let running := RunningContractState.new previous.domains keyset event.parameters
        previous.addDomainsVotes
      pure (some running, self)
  else pure (none, { self with resharingKey := event })

def voteAbort (env : Env) (self : ResharingContractState) (keyEventId : KeyEventId) :
    Except Error ResharingContractState := do
  let event ← self.resharingKey.voteAbort env keyEventId
  pure { self with resharingKey := event }

def voteCancelResharing (env : Env) (self : ResharingContractState) :
    Except Error (Option RunningContractState × ResharingContractState) := do
  let previous := self.previousRunningState
  let candidate ← authenticatedAccountId env previous.parameters.participants
  let requests := insert candidate self.cancellationRequests
  let self := { self with cancellationRequests := requests }
  if previous.parameters.threshold ≤ requests.card then
    pure (some { previous with
      previouslyCancelledResharingEpochId := some self.prospectiveEpochId }, self)
  else pure (none, self)

end ResharingContractState

namespace InitializingContractState

def start (env : Env) (self : InitializingContractState) (keyEventId : KeyEventId)
    (keyEventTimeoutBlocks : Nat) : Except Error InitializingContractState := do
  let event ← self.generatingKey.start env keyEventId keyEventTimeoutBlocks
  pure { self with generatingKey := event }

def votePk (env : Env) (self : InitializingContractState) (keyEventId : KeyEventId)
    (publicKey : PublicKeyExtended) :
    Except Error (Option RunningContractState × InitializingContractState) := do
  let (complete, event) ← self.generatingKey.voteSuccess env keyEventId publicKey
  if complete then
    let newKey : KeyForDomain := ⟨keyEventId.domainId, publicKey, keyEventId.attemptId⟩
    let generatedKeys := self.generatedKeys ++ [newKey]
    let self := { self with generatedKeys := generatedKeys, generatingKey := event }
    match self.domains.getDomainByIndex generatedKeys.length with
    | some nextDomain =>
      let event := KeyEvent.new self.epochId nextDomain event.parameters
      pure (none, { self with generatingKey := event })
    | none =>
      let running := RunningContractState.new self.domains ⟨self.epochId, generatedKeys⟩
        event.parameters .default
      pure (some running, self)
  else pure (none, { self with generatingKey := event })

def voteAbort (env : Env) (self : InitializingContractState) (keyEventId : KeyEventId) :
    Except Error InitializingContractState := do
  let event ← self.generatingKey.voteAbort env keyEventId
  pure { self with generatingKey := event }

/-- Only a vote that was not there before can complete the cancellation. -/
def voteCancel (env : Env) (self : InitializingContractState) (nextDomainId : Nat) :
    Except Error (Option RunningContractState × InitializingContractState) := do
  require (nextDomainId = self.domains.nextDomainId) (.invalidParameters .nextDomainIdMismatch)
  let parameters := self.generatingKey.parameters
  let participant ← authenticatedParticipantId env parameters.participants
  let cancelVotes := insert participant self.cancelVotes
  let new := participant ∉ self.cancelVotes
  let self := { self with cancelVotes := cancelVotes }
  if new ∧ parameters.threshold ≤ cancelVotes.card then
    let domains := self.domains.retainDomains self.generatedKeys.length
    let keyset : Keyset := ⟨self.epochId, self.generatedKeys⟩
    pure (some (.new domains keyset parameters .default), self)
  else pure (none, self)

end InitializingContractState

inductive ProtocolContractState where
  | notInitialized
  | initializing (state : InitializingContractState)
  | running (state : RunningContractState)
  | resharing (state : ResharingContractState)

namespace ProtocolContractState

def domainRegistry : ProtocolContractState → Except Error DomainRegistry
  | running state => pure state.domains
  | resharing state => pure state.previousRunningState.domains
  | _ => throw (.invalidState .protocolStateNotRunningNorResharing)

def publicKey (domainId : DomainId) : ProtocolContractState → Except Error PublicKeyExtended
  | running state => state.keyset.publicKey domainId
  | resharing state => state.previousRunningState.keyset.publicKey domainId
  | _ => throw (.invalidState .protocolStateNotRunningNorResharing)

def isRunningOrResharing : ProtocolContractState → Bool
  | running _ | resharing _ => true
  | _ => false

/-- The participants of the phase: those of the proposal while resharing. -/
def activeParticipants : ProtocolContractState → Except Error Participants
  | initializing state => pure state.generatingKey.parameters.participants
  | running state => pure state.parameters.participants
  | resharing state => pure state.resharingKey.parameters.participants
  | notInitialized => throw .panic

/-- Votes on updates are cast by the participants that hold the keys. -/
def authenticateUpdateVote (env : Env) : ProtocolContractState → Except Error ParticipantId
  | initializing state => authenticatedParticipantId env state.generatingKey.parameters.participants
  | running state => authenticatedParticipantId env state.parameters.participants
  | resharing state =>
    authenticatedParticipantId env state.previousRunningState.parameters.participants
  | notInitialized => throw (.invalidState .unexpectedProtocolState)

def startKeygenInstance (env : Env) (keyEventId : KeyEventId) (timeoutBlocks : Nat) :
    ProtocolContractState → Except Error ProtocolContractState
  | initializing state => do pure (initializing (← state.start env keyEventId timeoutBlocks))
  | _ => throw (.invalidState .protocolStateNotInitializing)

def startReshareInstance (env : Env) (keyEventId : KeyEventId) (timeoutBlocks : Nat) :
    ProtocolContractState → Except Error ProtocolContractState
  | resharing state => do pure (resharing (← state.start env keyEventId timeoutBlocks))
  | _ => throw (.invalidState .protocolStateNotResharing)

/-- The changed state and the state to go over to, if any. -/
abbrev Outcome := Option ProtocolContractState × ProtocolContractState

def voteReshared (env : Env) (keyEventId : KeyEventId) :
    ProtocolContractState → Except Error Outcome
  | resharing state => do
    let (next, state) ← state.voteReshared env keyEventId
    pure (next.map running, resharing state)
  | _ => throw (.invalidState .protocolStateNotResharing)

def voteCancelResharing (env : Env) : ProtocolContractState → Except Error Outcome
  | resharing state => do
    let (next, state) ← state.voteCancelResharing env
    pure (next.map running, resharing state)
  | _ => throw (.invalidState .protocolStateNotResharing)

def votePk (env : Env) (keyEventId : KeyEventId) (publicKey : PublicKeyExtended) :
    ProtocolContractState → Except Error Outcome
  | initializing state => do
    let (next, state) ← state.votePk env keyEventId publicKey
    pure (next.map running, initializing state)
  | _ => throw (.invalidState .protocolStateNotInitializing)

def voteNewParameters (env : Env) (prospectiveEpochId : EpochId)
    (proposedParameters : ThresholdParameters) : ProtocolContractState → Except Error Outcome
  | running state => do
    let (next, state) ← state.voteNewParameters env prospectiveEpochId proposedParameters
    pure (next.map resharing, running state)
  | resharing state => do
    let (next, state) ← state.voteNewParameters env prospectiveEpochId proposedParameters
    pure (next.map resharing, resharing state)
  | _ => throw (.invalidState .protocolStateNotRunningNorResharing)

def voteAddDomains (env : Env) (domains : List DomainConfig) :
    ProtocolContractState → Except Error Outcome
  | running state => do
    let (next, state) ← state.voteAddDomains env domains
    pure (next.map initializing, running state)
  | _ => throw (.invalidState .protocolStateNotRunning)

def voteAbortKeyEventInstance (env : Env) (keyEventId : KeyEventId) :
    ProtocolContractState → Except Error ProtocolContractState
  | resharing state => do pure (resharing (← state.voteAbort env keyEventId))
  | initializing state => do pure (initializing (← state.voteAbort env keyEventId))
  | _ => throw (.invalidState .protocolStateNotRunningNorResharing)

def voteCancelKeygen (env : Env) (nextDomainId : Nat) :
    ProtocolContractState → Except Error Outcome
  | initializing state => do
    let (next, state) ← state.voteCancel env nextDomainId
    pure (next.map running, initializing state)
  | _ => throw (.invalidState .protocolStateNotInitializing)

end ProtocolContractState

end MpcNetwork.Contract
