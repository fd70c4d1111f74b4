import Mathlib.Data.List.Chain
import MpcNetwork.Lib.Ballots
import MpcNetwork.Lib.Fallible

/-! # Primitive types of the contract

Accounts, participants, threshold parameters, domains, key identifiers and the vote
tallies the contract keeps.  A call that returns an error is rolled back by the chain,
so every mutating method is a function into `Except` that gives the new value.
-/

namespace MpcNetwork.Contract

open Fallible

structure AccountId where
  name : String
  deriving Repr, DecidableEq

/-- A public key of the chain (an account key or a TLS key). -/
structure PublicKey where
  bytes : List UInt8
  deriving Repr, DecidableEq

structure EdwardsPoint where
  x : Nat
  y : Nat
  deriving Repr, DecidableEq

inductive PublicKeyExtended where
  | secp256k1 (nearPublicKey : PublicKey)
  | ed25519 (nearPublicKeyCompressed : PublicKey) (edwardsPoint : EdwardsPoint)
  | bls12381 (publicKey : PublicKey)
  deriving Repr, DecidableEq

structure ParticipantInfo where
  url : String
  signPk : PublicKey
  deriving Repr, DecidableEq

structure ParticipantId where
  id : UInt32
  deriving Repr, DecidableEq

@[ext] structure EpochId where
  value : Nat
  deriving Repr, DecidableEq

@[ext] structure AttemptId where
  value : Nat
  deriving Repr, DecidableEq

@[ext] structure DomainId where
  value : Nat
  deriving Repr, DecidableEq

inductive SignatureScheme where
  | secp256k1 | ed25519 | bls12381 | v2Secp256k1
  deriving Repr, DecidableEq

inductive DomainPurpose where
  | sign | foreignTx | ckd
  deriving Repr, DecidableEq

inductive VoteError where
  | voterNotLeader | voteAlreadySubmitted | voterPending
  deriving Repr, DecidableEq

inductive KeyEventError where
  | keyEventIdMismatch | activeKeyEvent | noActiveKeyEvent
  deriving Repr, DecidableEq

inductive InvalidParameters where
  | malformedPayload
  | insufficientDeposit
  | insufficientGas
  | requestNotFound
  | domainNotFound (provided : DomainId)
  | epochMismatch (provided expected : EpochId)
  | nextDomainIdMismatch
  | invalidDomainId
  | wrongDomainPurpose (domainId : DomainId) (expected actual : DomainPurpose)
  | invalidTeeRemoteAttestation
  | callerNotSigner
  | chainNotInPolicy
  deriving Repr, DecidableEq

inductive InvalidState where
  | protocolStateNotRunning | protocolStateNotResharing | protocolStateNotInitializing
  | protocolStateNotRunningNorResharing | unexpectedProtocolState | notParticipant
  deriving Repr, DecidableEq

inductive InvalidThreshold where
  | minAbsRequirementFailed | minRelRequirementFailed | maxRequirementFailed
  deriving Repr, DecidableEq

inductive InvalidCandidateSet where
  | insufficientOldParticipants | incoherentParticipantIds | newParticipantIdsNotContiguous
  | newParticipantIdsTooHigh
  deriving Repr, DecidableEq

inductive DomainError where
  | noSuchDomain
  | newDomainIdsNotContiguous (expectedId : DomainId)
  | addDomainsMustAddAtLeastOneDomain
  | invalidDomains
  | domainsMismatch
  | invalidSchemePurposeCombination (scheme : SignatureScheme) (purpose : DomainPurpose)
  deriving Repr, DecidableEq

inductive RespondError where
  | invalidSignature | signatureSchemeMismatch | tweakNotOnCurve
  deriving Repr, DecidableEq

/-- A `panic` is a failed `assert`, `expect`, `unwrap` or index; it rolls the call back too. -/
inductive Error where
  | respond (error : RespondError)
  | vote (error : VoteError)
  | invalidParameters (error : InvalidParameters)
  | invalidState (error : InvalidState)
  | invalidThreshold (error : InvalidThreshold)
  | invalidCandidateSet (error : InvalidCandidateSet)
  | keyEvent (error : KeyEventError)
  | domain (error : DomainError)
  | teeValidationFailed
  | panic
  deriving Repr, DecidableEq

structure Participants where
  nextId : ParticipantId
  participants : List (AccountId × ParticipantId × ParticipantInfo)
  deriving Repr, DecidableEq

/-- What a call reads of its environment. Attestations are read through two questions: whether the
    caller is attested, and whether a participant's attestation still verifies. -/
structure Env where
  signerAccountId : AccountId
  predecessorAccountId : AccountId
  blockHeight : Nat
  prepaidGas : Nat
  attachedDeposit : Nat
  isCallerAnAttestedParticipant : Participants → Bool
  reverifyParticipant : AccountId × ParticipantId × ParticipantInfo → Bool

namespace Participants

def len (self : Participants) : Nat := self.participants.length

/-- Ids are unique and below `nextId`, accounts are unique. -/
def validate (self : Participants) : Except Error Unit := do
  let incoherent := Error.invalidCandidateSet .incoherentParticipantIds
  require (∀ entry ∈ self.participants, entry.2.1.id < self.nextId.id) incoherent
  require ((self.participants.map fun entry => entry.2.1).toFinset.card = self.len) incoherent
  require ((self.participants.map fun entry => entry.1).toFinset.card = self.len) incoherent

def isParticipantGivenAccountId (self : Participants) (account : AccountId) : Bool :=
  self.participants.any fun entry => entry.1 = account

def isParticipantGivenParticipantId (self : Participants) (id : ParticipantId) : Bool :=
  self.participants.any fun entry => entry.2.1 = id

end Participants

/-- The id of the signer among the participants. -/
def authenticatedParticipantId (env : Env) (participants : Participants) :
    Except Error ParticipantId := do
  let entry ← found (.invalidState .notParticipant)
    (participants.participants.find? fun entry => entry.1 = env.signerAccountId)
  pure entry.2.1

/-- The signer's account, if it is among the participants. -/
def authenticatedAccountId (env : Env) (participants : Participants) : Except Error AccountId := do
  require (participants.isParticipantGivenAccountId env.signerAccountId)
    (.invalidState .notParticipant)
  pure env.signerAccountId

structure ThresholdParameters where
  participants : Participants
  threshold : Nat
  deriving Repr, DecidableEq

namespace ThresholdParameters

def minThresholdAbsolute : Nat := 2

/-- At most the number of shares, at least two, and at least 60% rounded up. -/
def validateThreshold (nShares k : Nat) : Except Error Unit := do
  require (k ≤ nShares) (.invalidThreshold .maxRequirementFailed)
  require (minThresholdAbsolute ≤ k) (.invalidThreshold .minAbsRequirementFailed)
  require ((3 * nShares + 4) / 5 ≤ k) (.invalidThreshold .minRelRequirementFailed)

def new (participants : Participants) (threshold : Nat) : Except Error ThresholdParameters := do
  validateThreshold participants.len threshold
  pure ⟨participants, threshold⟩

def validate (self : ThresholdParameters) : Except Error Unit := do
  validateThreshold self.participants.len self.threshold
  self.participants.validate

/-- What the loop has seen: the range of the new ids and the number of old participants. -/
structure Candidates where
  newMinId : UInt32
  newMaxId : UInt32
  nOld : Nat

/-- The loop body.  The lookup maps of the source keep the last entry for an account. -/
def addCandidate (old : Participants) (seen : Candidates)
    (entry : AccountId × ParticipantId × ParticipantInfo) : Except Error Candidates := do
  let incoherent := Error.invalidCandidateSet .incoherentParticipantIds
  match old.participants.reverse.find? fun known => known.1 = entry.1 with
  | some known => do
    require (entry.2.1 = known.2.1) incoherent
    require (entry.2.2 = known.2.2) incoherent
    pure { seen with nOld := seen.nOld + 1 }
  | none => do
    require (old.isParticipantGivenParticipantId entry.2.1 = false) incoherent
    pure { seen with
      newMinId := min seen.newMinId entry.2.1.id
      newMaxId := max seen.newMaxId entry.2.1.id }

/-- Whether `proposal` may replace the current parameters. -/
def validateIncomingProposal (self proposal : ThresholdParameters) : Except Error Unit := do
  proposal.validate
  let start : Candidates := ⟨4294967295, 0, 0⟩
  let seen ← proposal.participants.participants.foldlM (addCandidate self.participants) start
  require (self.threshold ≤ seen.nOld) (.invalidCandidateSet .insufficientOldParticipants)
  let nNew := proposal.participants.len - seen.nOld
  if 0 < nNew then do
    require (nNew - 1 = seen.newMaxId.toNat - seen.newMinId.toNat)
      (.invalidCandidateSet .newParticipantIdsNotContiguous)
    require (seen.newMinId = self.participants.nextId.id)
      (.invalidCandidateSet .newParticipantIdsNotContiguous)
    require (seen.newMaxId.toNat + 1 = proposal.participants.nextId.id.toNat)
      (.invalidCandidateSet .newParticipantIdsTooHigh)
  else pure ()

end ThresholdParameters

end MpcNetwork.Contract
