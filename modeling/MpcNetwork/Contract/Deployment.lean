import MpcNetwork.Contract.Alignment
import MpcNetwork.Contract.TeeState

/-! # The contract with its TEE state and node migrations

The governing calls ask two questions about attestations; here the stored attestations answer
them.  The other calls are those that change the attestations, the allowed images and the
information about a participant.
-/

namespace MpcNetwork.Contract

open Fallible Runs
open Tee (MpcDockerImageHash)

/-- What the chain tells a call. The storage cost is missing if the call frees storage. -/
structure Host where
  currentAccountId : AccountId
  signerAccountId : AccountId
  signerAccountPk : PublicKey
  predecessorAccountId : AccountId
  blockHeight : Nat
  blockTimestamp : Nat
  prepaidGas : Nat
  attachedDeposit : Nat
  storageCost : Option Nat

structure BackupServiceInfo where
  publicKey : Tee.Bytes 32
  deriving DecidableEq

/-- The node that an account moves to, with the account key it will sign with. -/
structure DestinationNodeInfo where
  signerAccountPk : PublicKey
  destinationNodeInfo : ParticipantInfo
  deriving DecidableEq

structure NodeMigrations where
  backupServicesInfo : Table AccountId BackupServiceInfo
  ongoingMigrations : Table AccountId DestinationNodeInfo

namespace NodeMigrations

def default : NodeMigrations := ⟨∅, ∅⟩

def setBackupServiceInfo (self : NodeMigrations) (accountId : AccountId) (info : BackupServiceInfo) :
    NodeMigrations :=
  { self with backupServicesInfo := self.backupServicesInfo.insert accountId info }

def setDestinationNodeInfo (self : NodeMigrations) (accountId : AccountId)
    (info : DestinationNodeInfo) : NodeMigrations :=
  { self with ongoingMigrations := self.ongoingMigrations.insert accountId info }

def removeAccountData (self : NodeMigrations) (accountId : AccountId) : NodeMigrations where
  backupServicesInfo := self.backupServicesInfo.erase accountId
  ongoingMigrations := self.ongoingMigrations.erase accountId

def removeMigration (self : NodeMigrations) (accountId : AccountId) :
    Option DestinationNodeInfo × NodeMigrations :=
  (self.ongoingMigrations.lookup accountId,
    { self with ongoingMigrations := self.ongoingMigrations.erase accountId })

end NodeMigrations

inductive NodeMigrationError where
  | keysetMismatch | migrationNotFound | accountPublicKeyMismatch
  deriving Repr, DecidableEq

inductive MethodError where
  | contract (error : Error)
  | nodeMigration (error : NodeMigrationError)
  deriving Repr, DecidableEq

/-- The first entry of the account gets the new information. -/
def Participants.updateInfo (self : Participants) (accountId : AccountId)
    (newInfo : ParticipantInfo) : Except Error Participants :=
  match self.participants.findIdx? fun entry => entry.1 = accountId with
  | some index => pure { self with
      participants := self.participants.modify index fun entry => (entry.1, entry.2.1, newInfo) }
  | none => throw (.invalidState .notParticipant)

namespace ProtocolContractState

/-- The parameters in force; a proposal is not yet. -/
def thresholdParameters : ProtocolContractState → Option ThresholdParameters
  | notInitialized => none
  | initializing state => some state.generatingKey.parameters
  | running state => some state.parameters
  | resharing state => some state.previousRunningState.parameters

def threshold (self : ProtocolContractState) : Except Error Nat := do
  let parameters ← found (.invalidState .unexpectedProtocolState) self.thresholdParameters
  pure parameters.threshold

def proposedParameters : ProtocolContractState → Option ThresholdParameters
  | resharing state => some state.resharingKey.parameters
  | _ => none

def isExistingOrProspectiveParticipant (self : ProtocolContractState) (accountId : AccountId) :
    Except Error Bool := do
  let parameters ← found (.invalidState .unexpectedProtocolState) self.thresholdParameters
  pure (parameters.participants.isParticipantGivenAccountId accountId ||
    self.proposedParameters.any fun proposal =>
      proposal.participants.isParticipantGivenAccountId accountId)

end ProtocolContractState

/-- Whether the call drops expired images before it asks for attestations. -/
def Call.cleansUp : Call → Bool
  | voteNewParameters _ _ | verifyTee => true
  | _ => false

structure Deployment where
  contract : MpcContract
  teeState : TeeState
  nodeMigrations : NodeMigrations
  teeUpgradeDeadlineDurationSeconds : Nat

namespace Deployment

/-- Every initial participant counts as attested. -/
def deploy (contract : MpcContract) (participants : Participants) (durationSeconds : Nat) :
    Deployment where
  contract := contract
  teeState := .withMockedParticipantAttestations participants
  nodeMigrations := .default
  teeUpgradeDeadlineDurationSeconds := durationSeconds

def init (parameters : ThresholdParameters) (config : Config) (durationSeconds : Nat) :
    Except Error Deployment := do
  let contract ← MpcContract.init parameters config
  pure (deploy contract parameters.participants durationSeconds)

def initRunning (domains : List DomainConfig) (nextDomainId : Nat) (keyset : Keyset)
    (parameters : ThresholdParameters) (config : Config) (durationSeconds : Nat) :
    Except Error Deployment := do
  let contract ← MpcContract.initRunning domains nextDomainId keyset parameters config
  pure (deploy contract parameters.participants durationSeconds)

/-- The environment of a governing call, with the answers of the stored attestations. -/
def env (self : Deployment) (host : Host) : Env where
  signerAccountId := host.signerAccountId
  predecessorAccountId := host.predecessorAccountId
  blockHeight := host.blockHeight
  prepaidGas := host.prepaidGas
  attachedDeposit := host.attachedDeposit
  isCallerAnAttestedParticipant := fun participants =>
    (self.teeState.isCallerAnAttestedParticipant host.signerAccountId host.signerAccountPk
      participants).isOk
  reverifyParticipant :=
    self.teeState.reverifies host.blockTimestamp self.teeUpgradeDeadlineDurationSeconds

/-- The expired images are gone before the call asks for attestations. -/
def beforeCall (self : Deployment) (host : Host) (call : Call) : Deployment :=
  if call.cleansUp then
    { self with teeState := self.teeState.cleanupExpiredHashes host.blockTimestamp
                  self.teeUpgradeDeadlineDurationSeconds }
  else self

def govern (self : Deployment) (host : Host) (call : Call) :
    Except MethodError (Option ProtocolContractState × Deployment) := do
  let self := self.beforeCall host call
  let (next, contract) ← (perform (self.env host) self.contract call).mapError .contract
  pure (next, { self with contract := contract })

variable {Collateral : Type} (verifier : AttestationVerifier Collateral)

/-- Anyone can submit an attestation, and pays for new storage. -/
def submitParticipantInfo (self : Deployment) (host : Host)
    (attestation : Tee.Attestation Collateral) (tlsPublicKey : Tee.Bytes 32) :
    Except MethodError Deployment := do
  (MpcContract.assertCallerIsSigner (self.env host)).mapError MethodError.contract
  let nodeId : NodeId :=
    ⟨host.signerAccountId, .ofEd25519 tlsPublicKey, some host.signerAccountPk⟩
  let (isNewAttestation, teeState) ←
    (self.teeState.addParticipant verifier nodeId attestation host.blockTimestamp
      self.teeUpgradeDeadlineDurationSeconds).mapError fun error =>
        match error with
        | .expiryOverflow => .contract .panic
        | _ => .contract (.invalidParameters .invalidTeeRemoteAttestation)
  let callerIsNotParticipant := !(self.contract.voterAccount (self.env host)).isOk
  if isNewAttestation || callerIsNotParticipant then do
    let cost ← found (MethodError.contract .panic) host.storageCost
    require (cost ≤ host.attachedDeposit)
      (MethodError.contract (.invalidParameters .insufficientDeposit))
    pure { self with teeState := teeState }
  else pure { self with teeState := teeState }

/-- The parameters in force and the id of the signer among their participants. -/
def teeVoter (self : Deployment) (host : Host) :
    Except MethodError (ThresholdParameters × ParticipantId) := do
  let _ ← (self.contract.voterOrPanic (self.env host)).mapError MethodError.contract
  let parameters ← found (MethodError.contract .panic)
    self.contract.protocolState.thresholdParameters
  let participant ← (authenticatedParticipantId (self.env host) parameters.participants).mapError
    MethodError.contract
  pure (parameters, participant)

def voteCodeHash (self : Deployment) (host : Host) (codeHash : MpcDockerImageHash) :
    Except MethodError (Bool × Deployment) := do
  let (_, participant) ← self.teeVoter host
  let (votes, teeState) := self.teeState.vote codeHash participant
  let threshold ← self.contract.protocolState.threshold.mapError MethodError.contract
  if threshold ≤ votes then
    let teeState := teeState.whitelistTeeProposal verifier codeHash host.blockTimestamp
      self.teeUpgradeDeadlineDurationSeconds
    pure (true, { self with teeState := teeState })
  else pure (false, { self with teeState := teeState })

def voteAddLauncherHash (self : Deployment) (host : Host) (launcherHash : LauncherImageHash) :
    Except MethodError (Bool × Deployment) := do
  let (_, participant) ← self.teeVoter host
  let (votes, teeState) := self.teeState.voteLauncher (.add launcherHash) participant
  let threshold ← self.contract.protocolState.threshold.mapError MethodError.contract
  if threshold ≤ votes then
    let (added, teeState) := teeState.addLauncherImage verifier launcherHash host.blockTimestamp
      self.teeUpgradeDeadlineDurationSeconds
    pure (added, { self with teeState := teeState })
  else pure (false, { self with teeState := teeState })

/-- True when this vote removes the launcher, which takes all participants. -/
def voteRemoveLauncherHash (self : Deployment) (host : Host) (launcherHash : LauncherImageHash) :
    Except MethodError (Bool × Deployment) := do
  let (parameters, participant) ← self.teeVoter host
  let (votes, teeState) := self.teeState.voteLauncher (.remove launcherHash) participant
  if parameters.participants.len ≤ votes then
    let (removed, teeState) := teeState.removeLauncherImage launcherHash
    pure (removed, { self with teeState := teeState })
  else pure (false, { self with teeState := teeState })

def registerBackupService (self : Deployment) (host : Host) (info : BackupServiceInfo) :
    Except MethodError Deployment := do
  (MpcContract.assertCallerIsSigner (self.env host)).mapError MethodError.contract
  let eligible ← (self.contract.protocolState.isExistingOrProspectiveParticipant
    host.signerAccountId).mapError MethodError.contract
  require eligible (MethodError.contract (.invalidState .notParticipant))
  pure { self with nodeMigrations :=
          self.nodeMigrations.setBackupServiceInfo host.signerAccountId info }

/-- The running state that a signer takes part in. -/
def runningParticipant (self : Deployment) (host : Host) :
    Except MethodError RunningContractState := do
  (MpcContract.assertCallerIsSigner (self.env host)).mapError MethodError.contract
  match self.contract.protocolState with
  | .running state => do
    require (state.parameters.participants.isParticipantGivenAccountId host.signerAccountId)
      (MethodError.contract (.invalidState .notParticipant))
    pure state
  | _ => throw (.contract (.invalidState .protocolStateNotRunning))

def startNodeMigration (self : Deployment) (host : Host) (info : DestinationNodeInfo) :
    Except MethodError Deployment := do
  let _ ← self.runningParticipant host
  pure { self with nodeMigrations :=
          self.nodeMigrations.setDestinationNodeInfo host.signerAccountId info }

/-- The attestation under the destination's TLS key has to verify; whose it is does not matter. -/
def concludeNodeMigration (self : Deployment) (host : Host) (keyset : Keyset) :
    Except MethodError Deployment := do
  let state ← self.runningParticipant host
  require (state.keyset = keyset) (MethodError.nodeMigration .keysetMismatch)
  let (migration, nodeMigrations) := self.nodeMigrations.removeMigration host.signerAccountId
  let destination ← found (MethodError.nodeMigration .migrationNotFound) migration
  require (destination.signerAccountPk = host.signerAccountPk)
    (MethodError.nodeMigration .accountPublicKeyMismatch)
  let nodeId : NodeId := ⟨host.signerAccountId, destination.destinationNodeInfo.signPk,
    some destination.signerAccountPk⟩
  require (self.teeState.reverifyParticipants nodeId host.blockTimestamp
      self.teeUpgradeDeadlineDurationSeconds = .valid)
    (MethodError.contract (.invalidParameters .invalidTeeRemoteAttestation))
  let participants ← (state.parameters.participants.updateInfo host.signerAccountId
    destination.destinationNodeInfo).mapError MethodError.contract
  let state := { state with parameters := ⟨participants, state.parameters.threshold⟩ }
  pure { self with
    contract := { self.contract with protocolState := .running state }
    nodeMigrations := nodeMigrations }

/-- Only the contract itself calls a private method. -/
def assertPrivate (host : Host) : Except MethodError Unit :=
  require (host.predecessorAccountId = host.currentAccountId) (.contract .panic)

def cleanTeeStatus (self : Deployment) (host : Host) : Except MethodError Deployment := do
  assertPrivate host
  match self.contract.protocolState with
  | .running state =>
    pure { self with teeState := self.teeState.cleanNonParticipants state.parameters.participants }
  | _ => throw (.contract (.invalidState .protocolStateNotRunning))

/-- Only accounts with a backup service are looked at. -/
def cleanupOrphanedNodeMigrations (self : Deployment) (host : Host) :
    Except MethodError Deployment := do
  assertPrivate host
  let nodeMigrations ← self.nodeMigrations.backupServicesInfo.keys.foldlM
    (fun migrations accountId => do
      let stays ← (self.contract.protocolState.isExistingOrProspectiveParticipant
        accountId).mapError MethodError.contract
      pure (if stays then migrations else migrations.removeAccountData accountId))
    self.nodeMigrations
  pure { self with nodeMigrations := nodeMigrations }

end Deployment

inductive Method (Collateral : Type) where
  | govern (call : Call)
  | submitParticipantInfo (attestation : Tee.Attestation Collateral) (tlsPublicKey : Tee.Bytes 32)
  | voteCodeHash (codeHash : MpcDockerImageHash)
  | voteAddLauncherHash (launcherHash : LauncherImageHash)
  | voteRemoveLauncherHash (launcherHash : LauncherImageHash)
  | registerBackupService (info : BackupServiceInfo)
  | startNodeMigration (info : DestinationNodeInfo)
  | concludeNodeMigration (keyset : Keyset)
  | cleanTeeStatus
  | cleanupOrphanedNodeMigrations

/-- What a method did besides changing the state. -/
inductive MethodNote where
  | wentTo (next : Option ProtocolContractState)
  | whitelisted (codeHash : MpcDockerImageHash)
  | launcherAdded (launcherHash : LauncherImageHash)
  | launcherRemoved (launcherHash : LauncherImageHash)
  | quiet

namespace Deployment

variable {Collateral : Type} (verifier : AttestationVerifier Collateral)

def invoke (self : Deployment) (host : Host) :
    Method Collateral → Except MethodError (MethodNote × Deployment)
  | .govern call => do
    let (next, self) ← self.govern host call
    pure (.wentTo next, self)
  | .submitParticipantInfo attestation tlsPublicKey => do
    pure (.quiet, ← self.submitParticipantInfo verifier host attestation tlsPublicKey)
  | .voteCodeHash codeHash => do
    let (done, self) ← self.voteCodeHash verifier host codeHash
    pure (if done then .whitelisted codeHash else .quiet, self)
  | .voteAddLauncherHash launcherHash => do
    let (done, self) ← self.voteAddLauncherHash verifier host launcherHash
    pure (if done then .launcherAdded launcherHash else .quiet, self)
  | .voteRemoveLauncherHash launcherHash => do
    let (done, self) ← self.voteRemoveLauncherHash host launcherHash
    pure (if done then .launcherRemoved launcherHash else .quiet, self)
  | .registerBackupService info => do pure (.quiet, ← self.registerBackupService host info)
  | .startNodeMigration info => do pure (.quiet, ← self.startNodeMigration host info)
  | .concludeNodeMigration keyset => do pure (.quiet, ← self.concludeNodeMigration host keyset)
  | .cleanTeeStatus => do pure (.quiet, ← self.cleanTeeStatus host)
  | .cleanupOrphanedNodeMigrations => do
    pure (.quiet, ← self.cleanupOrphanedNodeMigrations host)

/-- The state as it is read back by the next call. -/
def persisted (self : Deployment) : Deployment :=
  { self with teeState := { self.teeState with
      allowedDockerImageHashes := self.teeState.allowedDockerImageHashes.stored } }

/-- A successful call in its environment, with what it did. -/
abbrev MethodEvent (Collateral : Type) := (Host × Method Collateral) × MethodNote

/-- A call as a step; a failed call is rolled back and is no step. -/
def act (self : Deployment) (call : Host × Method Collateral) : Option (Deployment × MethodNote) :=
  match self.invoke verifier call.1 call.2 with
  | .ok (note, after) => some (after.persisted, note)
  | .error _ => none

end Deployment

end MpcNetwork.Contract
