import Mathlib.Algebra.Polynomial.Degree.Defs
import Mathlib.Algebra.Polynomial.Eval.Defs
import MpcNetwork.Contract.Transitions
import MpcNetwork.Lib.Sessions
import MpcNetwork.Node.Keyshares.Handles
import MpcNetwork.Node.Network.RunProtocol
import MpcNetwork.Threshold.Dkg
import MpcNetwork.Threshold.RobustEcdsa

/-! # Key resharing

The nodes of the proposed participants run the reshare protocol for the key event that the
contract works on.  The leader of the key event opens a channel that lists all of them.  Every
other node takes up any channel that names a resharing task, with the participant list and the key
event that its Start message carries.  A node that has its new share stores it and votes for the
key event.

The contract and the honest nodes act in any order, within one resharing, and what a node sees of
the contract may lag behind.  The malicious members decide which channels there are for the nodes
to take up, and they make any calls.  `resharing_computation_inner` is cut in two where it waits
for the protocol.  A party comes to the end of the protocol only after every honest party that its
list names has joined, because every round waits for a message of everybody.
-/

namespace MpcNetwork.Node.Keyshares

open Contract (SignatureScheme)

variable {curves : Curves}

def Curves.ofScheme (curves : Curves) : SignatureScheme → Curve
  | .secp256k1 | .v2Secp256k1 => curves.secp256k1
  | .ed25519 => curves.ed25519
  | .bls12381 => curves.bls12381

def KeyshareData.ofOutput : (scheme : SignatureScheme) → KeygenOutput (curves.ofScheme scheme) →
    KeyshareData curves
  | .secp256k1, output => .secp256k1 output
  | .v2Secp256k1, output => .v2Secp256k1 output
  | .ed25519, output => .ed25519 output
  | .bls12381, output => .bls12381 output

/-- The group of a curve and how the bytes of a public key are read as one of its elements. -/
class CurveGroup (curve : Curve) where
  [field : Field curve.Scalar]
  [group : AddCommGroup curve.Element]
  [module : Module curve.Scalar curve.Element]
  generator : curve.Element
  decode : List UInt8 → Option curve.Element

attribute [reducible, instance] CurveGroup.field CurveGroup.group CurveGroup.module

class CurveGroups (curves : Curves) where
  secp256k1 : CurveGroup curves.secp256k1
  ed25519 : CurveGroup curves.ed25519
  bls12381 : CurveGroup curves.bls12381

instance [groups : CurveGroups curves] : (scheme : SignatureScheme) →
    CurveGroup (curves.ofScheme scheme)
  | .secp256k1 | .v2Secp256k1 => groups.secp256k1
  | .ed25519 => groups.ed25519
  | .bls12381 => groups.bls12381

end MpcNetwork.Node.Keyshares

namespace MpcNetwork.Node.KeyEvents

open Contract (AccountId DomainConfig Env EpochId KeyEvent KeyEventId KeyForDomain Keyset
  MpcContract Participants ResharingContractState SignatureScheme ThresholdParameters)
open Fallible Jobs Jobs.Job Keyshares Network Sessions Threshold
open Threshold.OtBasedEcdsa (ReconstructionLowerBound)
open Threshold.RobustEcdsa (translateThreshold)

structure ContractKeyEventInstance where
  id : KeyEventId
  domain : DomainConfig
  started : Bool
  completedDomains : List KeyForDomain
  deriving Repr, DecidableEq

def convertKeyEventToInstance (keyEvent : KeyEvent) (currentHeight : Nat)
    (completedDomains : List KeyForDomain) : ContractKeyEventInstance :=
  match keyEvent.inst.filter fun inst => currentHeight < inst.expiresOn with
  | some inst => ⟨⟨keyEvent.epochId, keyEvent.domain.id, inst.attemptId⟩, keyEvent.domain, true,
      completedDomains⟩
  | none => ⟨keyEvent.expectedKeyEventId, keyEvent.domain, false, completedDomains⟩

inductive KeyEventIdComparisonResult where
  | remoteAhead | remoteMatches | remoteBehind
  deriving Repr, DecidableEq

/-- Ids are in the order of epochs, then domains, then attempts. -/
def ContractKeyEventInstance.compareToExpectedKeyEventId (self : ContractKeyEventInstance)
    (expected : KeyEventId) : KeyEventIdComparisonResult :=
  let order := (compare self.id.epochId.value expected.epochId.value).then
    ((compare self.id.domainId.value expected.domainId.value).then
      (compare self.id.attemptId.value expected.attemptId.value))
  match order with
  | .lt => .remoteBehind
  | .gt => .remoteAhead
  | .eq => if self.started then .remoteMatches else .remoteBehind

/-- The ids of contract participants as nodes write them. -/
def memberIds (participants : Participants) : List ParticipantId :=
  participants.participants.map fun entry => ⟨entry.2.1.id⟩

/-- Of the `ParticipantsConfig` only the ids, the accounts and the threshold are used here. -/
structure ResharingArgs (curves : Curves) where
  previousKeyset : Keyset
  existingKeyshares : Option (List (Keyshare curves))
  newThreshold : ReconstructionLowerBound
  oldParticipants : ThresholdParameters

inductive ResharingError where
  | anyhow (text : String)
  | keyshareNotFound (keyId : KeyEventId)
  | noPreviousKey (keyId : KeyEventId)
  | invalidPublicKey
  | unexpectedPair (publicKey : PublicKey) (scheme : SignatureScheme)
  | initialization (error : InitializationError)
  | computation
  | storage (error : KeyshareError)
  deriving Repr, DecidableEq

variable {curves : Curves}

def ResharingArgs.existingKeyshare (args : ResharingArgs curves) (keyId : KeyEventId) :
    Except ResharingError (Option (Keyshare curves)) :=
  match args.existingKeyshares with
  | some existingKeyshares => (found (.keyshareNotFound keyId)
      (existingKeyshares.find? fun share => share.keyId.domainId = keyId.domainId)).map some
  | none => .ok none

def privateShare : (scheme : SignatureScheme) → KeyshareData curves →
    Except ResharingError (curves.ofScheme scheme).Scalar
  | .secp256k1, .secp256k1 data => .ok data.privateShare
  | .v2Secp256k1, .v2Secp256k1 data => .ok data.privateShare
  | .ed25519, .ed25519 data => .ok data.privateShare
  | .bls12381, .bls12381 data => .ok data.privateShare
  | .secp256k1, _ | .v2Secp256k1, _ => .error (.anyhow "Expected ecdsa keyshare!")
  | .ed25519, _ => .error (.anyhow "Expected eddsa keyshare!")
  | .bls12381, _ => .error (.anyhow "Expected ckd keyshare!")

def myShare (scheme : SignatureScheme) : Option (Keyshare curves) →
    Except ResharingError (Option (curves.ofScheme scheme).Scalar)
  | some keyshare => (privateShare scheme keyshare.data).map some
  | none => .ok none

/-- A public key together with a scheme that goes with it. -/
def schemeKey [groups : CurveGroups curves] : (scheme : SignatureScheme) → PublicKey →
    Except ResharingError (curves.ofScheme scheme).Element
  | .secp256k1, .secp256k1 bytes | .v2Secp256k1, .secp256k1 bytes =>
    found .invalidPublicKey (groups.secp256k1.decode bytes)
  | .ed25519, .ed25519 bytes => found .invalidPublicKey (groups.ed25519.decode bytes)
  | .bls12381, .bls12381 bytes => found .invalidPublicKey (groups.bls12381.decode bytes)
  | scheme, publicKey => .error (.unexpectedPair publicKey scheme)

structure KeyResharingComputation (curve : Curve) where
  threshold : ReconstructionLowerBound
  oldParticipants : List ParticipantId
  oldThreshold : ReconstructionLowerBound
  myShare : Option curve.Scalar
  publicKey : curve.Element

/-- The number of malicious parties, and one more to reconstruct. -/
def translated (threshold numberOfParticipants : Nat) :
    Except ResharingError ReconstructionLowerBound := do
  let maxMalicious ← (translateThreshold (.ofNat threshold) (.ofNat numberOfParticipants)).mapError
    .anyhow
  pure ⟨maxMalicious.value.toNat + 1⟩

/-- The new and the old threshold.  Robust ECDSA has its own. -/
def thresholds (scheme : SignatureScheme) (newThreshold : ReconstructionLowerBound)
    (oldParticipants : ThresholdParameters) (channel : NetworkTaskChannel) :
    Except ResharingError (ReconstructionLowerBound × ReconstructionLowerBound) :=
  if scheme = .v2Secp256k1 then do
    let new ← translated newThreshold.value channel.participants.length
    let old ← translated oldParticipants.threshold oldParticipants.participants.len
    pure (new, old)
  else pure (newThreshold, ⟨oldParticipants.threshold⟩)

/-- What `run_key_resharing_client` of each provider performs on the channel. -/
def runKeyResharingClient (scheme : SignatureScheme) (newThreshold : ReconstructionLowerBound)
    (myShare : Option (curves.ofScheme scheme).Scalar)
    (publicKey : (curves.ofScheme scheme).Element) (oldParticipants : ThresholdParameters)
    (channel : NetworkTaskChannel) :
    Except ResharingError (KeyResharingComputation (curves.ofScheme scheme)) := do
  let (threshold, oldThreshold) ← thresholds scheme newThreshold oldParticipants channel
  pure ⟨threshold, memberIds oldParticipants.participants, oldThreshold, myShare, publicKey⟩

/-- What the parties of one run of the reshare protocol have in common. -/
structure ReshareSession (curves : Curves) where
  channelId : ChannelId
  scheme : SignatureScheme
  participants : ParticipantList
  threshold : ReconstructionLowerBound
  oldParticipants : ParticipantList
  publicKey : (curves.ofScheme scheme).Element
  deriving DecidableEq

def ReshareSession.members (session : ReshareSession curves) : List ParticipantId :=
  session.participants.participants.map .ofParticipant

/-- The checks that `reshare` makes before the protocol starts. -/
def KeyResharingComputation.compute {scheme : SignatureScheme}
    (self : KeyResharingComputation (curves.ofScheme scheme)) (channel : NetworkTaskChannel) :
    Except ResharingError (ReshareSession curves) := do
  let (participants, oldParticipants) ← (Dkg.assertReshareKeysInvariants
    (channel.participants.map ParticipantId.participant) channel.myParticipantId.participant
    self.threshold self.myShare self.oldThreshold
    (self.oldParticipants.map ParticipantId.participant)).mapError .initialization
  pure ⟨channel.channelId, scheme, participants, self.threshold, oldParticipants, self.publicKey⟩

structure ResharingComputation (curves : Curves) where
  keyId : KeyEventId
  keyshareHandle : PendingKeyshareStorageHandle
  session : ReshareSession curves

section

variable [CurveGroups curves]

def prepareSession (channel : NetworkTaskChannel) (keyId : KeyEventId) (domain : DomainConfig)
    (args : ResharingArgs curves) : Except ResharingError (ReshareSession curves) := do
  let existingKeyshare ← args.existingKeyshare keyId
  let previousPublicKey ← (args.previousKeyset.publicKey keyId.domainId).mapError fun _ =>
    .noPreviousKey keyId
  let publicKey ← schemeKey domain.scheme (.ofExtended previousPublicKey)
  let myShare ← myShare domain.scheme existingKeyshare
  let computation ← runKeyResharingClient domain.scheme args.newThreshold myShare publicKey
    args.oldParticipants channel
  computation.compute channel

/-- `resharing_computation_inner` up to the protocol. -/
def startComputation (channel : NetworkTaskChannel) (resharedKeys : List KeyForDomain)
    (keyId : KeyEventId) (domain : DomainConfig) (args : ResharingArgs curves) :
    Job ResharingError (KeyshareStorage curves) (ResharingComputation curves) := do
  ofExcept (require (keyId.domainId = domain.id) (.anyhow "Domain mismatch"))
  let keyshareHandle ←
    (KeyshareStorage.startResharingKey resharedKeys keyId).mapFailure .storage
  let session ← ofExcept (prepareSession channel keyId domain args)
  pure ⟨keyId, keyshareHandle, session⟩

end

/-- `resharing_computation_inner` after the protocol, up to the vote. -/
def concludeComputation (computation : ResharingComputation curves)
    (newKeyshare : KeygenOutput (curves.ofScheme computation.session.scheme)) :
    Job ResharingError (KeyshareStorage curves) (Keyshare curves) := do
  ofExcept (require (newKeyshare.publicKey = computation.session.publicKey)
    (.anyhow "Public key should not change after key resharing"))
  let keyshare := ⟨computation.keyId, .ofOutput computation.session.scheme newKeyshare⟩
  (KeyshareStorage.commitKeyshare computation.keyshareHandle keyshare).mapFailure .storage
  pure keyshare

inductive ChainSendTransactionRequest where
  | voteReshared (keyEventId : KeyEventId)
  | voteAbortKeyEventInstance (keyEventId : KeyEventId)
  deriving Repr, DecidableEq

/-- The participants of its network, its arguments, and the key event as it last saw it. -/
structure ResharingJob (curves : Curves) where
  participants : List ParticipantId
  args : ResharingArgs curves
  keyEvent : ContractKeyEventInstance

/-- A node with the computations it has under way and the transactions it has sent. -/
structure ResharingNode (curves : Curves) where
  storage : KeyshareStorage curves
  job : Option (ResharingJob curves)
  computations : List (ResharingComputation curves)
  sent : List ChainSendTransactionRequest

/-- A failure is voted on.  A process that stops loses what it has in memory. -/
def ResharingNode.stopped (node : ResharingNode curves) (keyId : KeyEventId) :
    Stop ResharingError → ResharingNode curves
  | .failed _ => { node with sent := .voteAbortKeyEventInstance keyId :: node.sent }
  | _ => { node with job := none, computations := [] }

def ResharingNode.started (node : ResharingNode curves) (storage : KeyshareStorage curves)
    (computation : ResharingComputation curves) : ResharingNode curves :=
  { node with storage := storage, computations := computation :: node.computations }

def ResharingNode.reshared (node : ResharingNode curves) (storage : KeyshareStorage curves)
    (keyId : KeyEventId) : ResharingNode curves :=
  { node with storage := storage, sent := .voteReshared keyId :: node.sent }

def isLeaderForKeyEvent (me : ParticipantId) (participants : List ParticipantId) : Bool :=
  participants.all fun id => me.raw ≤ id.raw

def resharingTask : MpcTaskId → Option KeyEventId
  | .ecdsaTaskId (.keyResharing keyEvent) | .eddsaTaskId (.keyResharing keyEvent) => some keyEvent
  | _ => none

/-- The leader opens its channel itself when the key event has started, with everybody. -/
def resharingLeader (job : ResharingJob curves) (channel : NetworkTaskChannel) : Prop :=
  channel.taskId = .ecdsaTaskId (.keyResharing job.keyEvent.id) ∧ job.keyEvent.started ∧
    channel.participants = job.participants

/-- A follower takes a channel as it comes.  A Start that lists somebody unknown opens none. -/
def resharingFollower (job : ResharingJob curves) (channel : NetworkTaskChannel) : Prop :=
  ∀ id ∈ channel.participants, id ∈ job.participants

instance (job : ResharingJob curves) (channel : NetworkTaskChannel) :
    Decidable (resharingLeader job channel) :=
  inferInstanceAs (Decidable (_ ∧ _ ∧ _))

instance (job : ResharingJob curves) (channel : NetworkTaskChannel) :
    Decidable (resharingFollower job channel) :=
  inferInstanceAs (Decidable (∀ id ∈ channel.participants, id ∈ job.participants))

def ResharingJob.Takes (job : ResharingJob curves) (me : ParticipantId)
    (channel : NetworkTaskChannel) (keyId : KeyEventId) : Prop :=
  channel.myParticipantId = me ∧
    (if isLeaderForKeyEvent me job.participants then resharingLeader job channel
      else resharingFollower job channel) ∧
    job.keyEvent.compareToExpectedKeyEventId keyId ≠ .remoteBehind

instance (job : ResharingJob curves) (me : ParticipantId) (channel : NetworkTaskChannel)
    (keyId : KeyEventId) : Decidable (job.Takes me channel keyId) := by
  unfold ResharingJob.Takes
  infer_instance

/-- Evaluations at the ids of one polynomial below the threshold, with the secret at zero. -/
def SharesSecret {curve : Curve} [CurveGroup curve] (publicKey : curve.Element) (threshold : Nat)
    (Has : ParticipantId → curve.Scalar → Prop) : Prop :=
  ∃ f : Polynomial curve.Scalar, f.degree < threshold ∧
    f.eval 0 • CurveGroup.generator = publicKey ∧
    ∀ id share, Has id share → share = f.eval (Dkg.scalar curve.Scalar id.participant)

/-- The honest parties of one session and key event get shares of the old secret. -/
structure ReshareProtocol (curves : Curves) [CurveGroups curves] where
  output : KeyEventId → (session : ReshareSession curves) → ParticipantId →
    KeygenOutput (curves.ofScheme session.scheme)
  shares : ∀ keyId session, 2 ≤ session.threshold.value →
    SharesSecret session.publicKey session.threshold.value fun id share =>
      id ∈ session.members ∧ (output keyId session id).privateShare = share

structure ResharingSystem (curves : Curves) where
  contract : MpcContract
  nodes : ParticipantId → ResharingNode curves
  joined : List (Joined ParticipantId KeyEventId (ReshareSession curves))

inductive Action where
  | call (env : Env) (call : Contract.Call)
  | observe (me : ParticipantId) (blockHeight : Nat)
  | startJob (me : ParticipantId) (blockHeight writes : Nat)
  | takeUp (me : ParticipantId) (channel : NetworkTaskChannel) (writes : Nat)
  | finish (me : ParticipantId) (index : Nat) (succeeds : Bool) (writes : Nat)
  | expire (me : ParticipantId) (index : Nat)

inductive Result (curves : Curves) where
  | called
  | refused
  | worked
  | committed (me : ParticipantId) (share : Keyshare curves)
  deriving DecidableEq

namespace ResharingSystem

def setNode (s : ResharingSystem curves) (me : ParticipantId) (node : ResharingNode curves) :
    ResharingSystem curves :=
  { s with nodes := Function.update s.nodes me node }

def join (s : ResharingSystem curves) (me : ParticipantId) (node : ResharingNode curves)
    (entry : Joined ParticipantId KeyEventId (ReshareSession curves)) : ResharingSystem curves :=
  { s with nodes := Function.update s.nodes me node, joined := entry :: s.joined }

/-- The contract as long as it is in the resharing with this epoch. -/
def resharing (s : ResharingSystem curves) (epochId : EpochId) : Option ResharingContractState :=
  match s.contract.protocolState with
  | .resharing state => if state.prospectiveEpochId = epochId then some state else none
  | _ => none

/-- The account of an honest member votes only when its node has sent the vote. -/
def mayCall (honest : ParticipantId → Bool) (s : ResharingSystem curves)
    (participants : Participants) (env : Env) : Contract.Call → Bool
  | .voteReshared keyEventId => participants.participants.all fun entry =>
    entry.1 = env.signerAccountId → honest ⟨entry.2.1.id⟩ →
      .voteReshared keyEventId ∈ (s.nodes ⟨entry.2.1.id⟩).sent
  | _ => true

/-- Calls are looked at until the contract leaves the resharing. -/
def call (honest : ParticipantId → Bool) (epochId : EpochId) (s : ResharingSystem curves)
    (env : Env) (call : Contract.Call) : Option (ResharingSystem curves × Result curves) := do
  let state ← s.resharing epochId
  if s.mayCall honest state.resharingKey.parameters.participants env call then
    match Contract.perform env s.contract call with
    | .ok (_, contract) => some ({ s with contract := contract }, .called)
    | .error _ => some (s, .refused)
  else none

/-- The node sees how the contract stands.  Its job ends with the resharing. -/
def observe (epochId : EpochId) (s : ResharingSystem curves) (me : ParticipantId)
    (blockHeight : Nat) : Option (ResharingSystem curves × Result curves) := do
  let node := s.nodes me
  let job ← node.job
  match s.resharing epochId with
  | some state =>
    let keyEvent := convertKeyEventToInstance state.resharingKey blockHeight state.resharedKeys
    some (s.setNode me { node with job := some { job with keyEvent := keyEvent } }, .worked)
  | none => some (s.setNode me { node with job := none, computations := [] }, .worked)

/-- `run_key_resharing` up to the loop. An old participant needs its shares of the keyset. -/
def startJob (honest : ParticipantId → Bool) (epochId : EpochId) (s : ResharingSystem curves)
    (me : ParticipantId) (blockHeight writes : Nat) :
    Option (ResharingSystem curves × Result curves) := do
  let node := s.nodes me
  let state ← s.resharing epochId
  let parameters := state.resharingKey.parameters
  let entry ← parameters.participants.participants.find? fun entry => entry.2.1.id = me.raw
  let previous := state.previousRunningState
  let wasParticipantLastEpoch :=
    previous.parameters.participants.isParticipantGivenAccountId entry.1
  let (result, storage) := KeyshareStorage.updatePermanentKeyshares previous.keyset
    { node.storage with writesLeft := writes }
  let job := fun existingKeyshares => some
    { participants := memberIds parameters.participants
      args := ⟨previous.keyset, existingKeyshares, ⟨parameters.threshold⟩, previous.parameters⟩
      keyEvent := convertKeyEventToInstance state.resharingKey blockHeight state.resharedKeys }
  let started := match result with
    | .ok keyshares => job (if wasParticipantLastEpoch then some keyshares else none)
    | .error (.failed _) => if wasParticipantLastEpoch then none else job none
    | .error _ => none
  if honest me then
    some (s.setNode me { node with storage := storage, job := started, computations := [] },
      .worked)
  else none

def takeUp [CurveGroups curves] (s : ResharingSystem curves) (me : ParticipantId)
    (channel : NetworkTaskChannel) (writes : Nat) :
    Option (ResharingSystem curves × Result curves) := do
  let node := s.nodes me
  let job ← node.job
  let keyId ← resharingTask channel.taskId
  if job.Takes me channel keyId then
    match startComputation channel job.keyEvent.completedDomains keyId job.keyEvent.domain job.args
        { node.storage with writesLeft := writes } with
    | (.ok computation, storage) => some (s.join me (node.started storage computation)
      ⟨me, keyId, computation.session⟩, .worked)
    | (.error stop, storage) =>
      some (s.setNode me ({ node with storage := storage }.stopped keyId stop), .worked)
  else none

def finish [CurveGroups curves] (protocol : ReshareProtocol curves)
    (honest : ParticipantId → Bool) (s : ResharingSystem curves) (me : ParticipantId) (index : Nat)
    (succeeds : Bool) (writes : Nat) : Option (ResharingSystem curves × Result curves) := do
  let node := s.nodes me
  let computation ← node.computations[index]?
  let node := { node with computations := node.computations.eraseIdx index }
  let keyId := computation.keyId
  if succeeds then
    if Attended ReshareSession.members honest s.joined computation.session then
      match concludeComputation computation (protocol.output keyId computation.session me)
          { node.storage with writesLeft := writes } with
      | (.ok share, storage) =>
        some (s.setNode me (node.reshared storage keyId), .committed me share)
      | (.error stop, storage) =>
        some (s.setNode me ({ node with storage := storage }.stopped keyId stop), .worked)
    else none
  else some (s.setNode me (node.stopped keyId (.failed .computation)), .worked)

def expire (s : ResharingSystem curves) (me : ParticipantId) (index : Nat) :
    Option (ResharingSystem curves × Result curves) :=
  let node := s.nodes me
  some (s.setNode me { node with computations := node.computations.eraseIdx index }, .worked)

def act [CurveGroups curves] (protocol : ReshareProtocol curves) (honest : ParticipantId → Bool)
    (epochId : EpochId) (s : ResharingSystem curves) :
    Action → Option (ResharingSystem curves × Result curves)
  | .call env call => s.call honest epochId env call
  | .observe me blockHeight => s.observe epochId me blockHeight
  | .startJob me blockHeight writes => s.startJob honest epochId me blockHeight writes
  | .takeUp me channel writes => s.takeUp me channel writes
  | .finish me index succeeds writes => s.finish protocol honest me index succeeds writes
  | .expire me index => s.expire me index

end ResharingSystem

end MpcNetwork.Node.KeyEvents
