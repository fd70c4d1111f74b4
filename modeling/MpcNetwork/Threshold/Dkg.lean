import Mathlib.Algebra.Field.Basic
import Mathlib.Data.List.DropRight
import MpcNetwork.Lib.Feldman
import MpcNetwork.Threshold.OtBasedEcdsa
import MpcNetwork.Threshold.Rounds

/-! # Distributed key generation

`do_keyshare`, which key generation, resharing and refreshing have in common, as one
participant runs it.  The scalars are a field and the group is a module over it.  What the
participant draws at random and what it receives are arguments, so they are arbitrary.  Of the
hash functions nothing is assumed.

Neither the zero scalar nor the identity can be serialised.  A newcomer to a resharing shares
the secret zero and therefore leaves the constant out of its commitment.
-/

namespace MpcNetwork.Threshold.Dkg

open Fallible Jobs
open OtBasedEcdsa (ReconstructionLowerBound)

abbrev SessionId := List UInt8

/-- The first argument of a hash function is the domain separator. -/
structure Ciphersuite (Scalar Element Hash : Type) where
  generator : Element
  hdkg : Nat → (sessionId : Hash) → (id : Scalar) → (vkShare bigR : Element) → Option Scalar
  hashSessionIds : Nat → List (Option SessionId) → Hash
  hashCommitment : Nat → Participant → List Element → (sessionId : Hash) → Hash

structure KeygenOutput (Scalar Element : Type) where
  privateShare : Scalar
  publicKey : Element
  deriving Repr, DecidableEq

structure Signature (Scalar Element : Type) where
  bigR : Element
  z : Scalar
  deriving Repr, DecidableEq

def scalar (Scalar : Type) [Field Scalar] (p : Participant) : Scalar :=
  ((p.id.toNat + 1 : Nat) : Scalar)

def describe (p : Participant) : String := s!"Participant({p.id})"

section Polynomials

variable {Scalar Element : Type} [Field Scalar] [DecidableEq Scalar] [AddCommGroup Element]
  [DecidableEq Element] [Module Scalar Element]

/-- A list of coefficients, the constant first, with a highest one that is not zero. -/
structure Polynomial (C : Type) [Zero C] where
  coefficients : List C
  nonempty : coefficients ≠ []
  leading : coefficients.getLast nonempty ≠ 0

/-- Drop the highest zero coefficients: `Polynomial::new` and `PolynomialCommitment::new`. -/
def Polynomial.new {C : Type} [Zero C] [DecidableEq C] (coefficients : List C) :
    Except ProtocolError (Polynomial C) :=
  if nonempty : coefficients.rdropWhile (fun c => c = 0) ≠ [] then
    .ok ⟨_, nonempty, by simpa using List.rdropWhile_last_not _ _ nonempty⟩
  else .error .emptyOrZeroCoefficients

/-- A scalar takes 32 bytes, and an allocation has to fit into `isize`. -/
def generatePolynomial (secret : Scalar) (degree : Nat) (draws : Nat → Scalar) :
    Except ProtocolError (Polynomial Scalar) := do
  require ((degree + 1) * 32 < 2 ^ 63) .integerOverflow
  Polynomial.new (secret :: (List.range degree).map draws)

def evalAtZero {C : Type} (coefficients : List C) : Except ProtocolError C :=
  found .emptyOrZeroCoefficients coefficients.head?

def evalAtPoint (coefficients : List Scalar) (point : Scalar) : Except ProtocolError Scalar :=
  if point = 0 then evalAtZero coefficients
  else if coefficients = [] then .error .emptyOrZeroCoefficients
  else .ok (coefficients.reverse.foldl (fun value c => value * point + c) 0)

def commitPolynomial (generator : Element) (coefficients : List Scalar) :
    Except ProtocolError (Polynomial Element) :=
  Polynomial.new (coefficients.map fun c => c • generator)

def generateCoefficientCommitment (generator : Element) (coefficients : List Scalar) :
    Except ProtocolError (Polynomial Element) := do
  let remaining := if coefficients.head? = some 0 then coefficients.tail else coefficients
  let polynomial ← Polynomial.new remaining
  commitPolynomial generator polynomial.coefficients

def evaluateVss (identifier : Scalar) (commitment : List Element) : Element :=
  (commitment.foldl (fun acc c => (identifier * acc.1, acc.2 + acc.1 • c)) (1, 0)).2

/-- The sum has as many coefficients as the first commitment. -/
def sumCommitments (commitments : List (List Element)) : Except ProtocolError (List Element) := do
  let first ← found .incorrectNumberOfCommitments commitments.head?
  commitments.foldlM (fun sum commitment => do
    require (sum.length ≤ commitment.length) .incorrectNumberOfCommitments
    pure (List.zipWith (· + ·) sum commitment)) (List.replicate first.length 0)

def publicKeyFromCommitments (commitments : List (List Element)) :
    Except ProtocolError Element := do
  let commitment ← sumCommitments commitments
  found .errorExtractVerificationKey commitment.head?

/-- The commitment with the identity for a constant that was left out. -/
def insertIdentityIfMissing (threshold : ReconstructionLowerBound) (commitment : List Element) :
    List Element :=
  if commitment.length = threshold.value - 1 then 0 :: commitment else commitment

end Polynomials

section Keyshare

variable {Scalar Element Hash : Type} [Field Scalar] [DecidableEq Scalar] [AddCommGroup Element]
  [DecidableEq Element] [Module Scalar Element] [DecidableEq Hash]

def assertKeyshareInputs (me : Participant) (secret : Scalar)
    (oldResharePackage : Option (Element × ParticipantList)) :
    Except ProtocolError (Option Element × Option ParticipantList) :=
  match oldResharePackage with
  | some (oldKey, oldParticipants) =>
    if secret = 0 then do
      require (¬ oldParticipants.contains me) (.assertionFailed
        s!"{describe me} is running Resharing with a zero share but does belong to the old participant set")
      pure (some oldKey, some oldParticipants)
    else do
      require (oldParticipants.contains me) (.assertionFailed
        s!"{describe me} is running Resharing with a non-zero share but does not belong to the old participant set")
      pure (some oldKey, some oldParticipants)
  | none => do
    require (secret ≠ 0) (.assertionFailed s!"{describe me} is running DKG with a zero share")
    pure (none, none)

def challenge (suite : Ciphersuite Scalar Element Hash) (domainSeparator : Nat) (sessionId : Hash)
    (id : Scalar) (vkShare bigR : Element) : Except ProtocolError Scalar := do
  require (vkShare ≠ 0) (.assertionFailed
    "The verification share
        could not be serialized as it is null")
  require (bigR ≠ 0) (.assertionFailed
    "The group element R
        could not be serialized as it is the identity")
  found .dkgNotSupported (suite.hdkg domainSeparator sessionId id vkShare bigR)

def proofOfKnowledge (suite : Ciphersuite Scalar Element Hash) (sessionId : Hash)
    (domainSeparator : Nat) (me : Participant) (coefficients : List Scalar)
    (commitment : List Element) (nonce : Scalar) :
    Except ProtocolError (Signature Scalar Element) := do
  let vkShare ← evalAtZero commitment
  let bigR := nonce • suite.generator
  let hash ← challenge suite domainSeparator sessionId (scalar Scalar me) vkShare bigR
  let constant ← evalAtZero coefficients
  pure ⟨bigR, nonce + constant * hash⟩

def internalVerifyProofOfKnowledge (suite : Ciphersuite Scalar Element Hash) (sessionId : Hash)
    (domainSeparator : Nat) (participant : Participant) (commitment : List Element)
    (proof : Signature Scalar Element) : Except ProtocolError Unit := do
  let vkShare ← found (.assertionFailed "Empty coefficient list") commitment.head?
  let c ← challenge suite domainSeparator sessionId (scalar Scalar participant) vkShare proof.bigR
  require (proof.bigR = proof.z • suite.generator - c • vkShare)
    (.invalidProofOfKnowledge participant)

/-- Only a newcomer to a resharing has no proof, and its commitment is one shorter. -/
def verifyProofOfKnowledge (suite : Ciphersuite Scalar Element Hash) (sessionId : Hash)
    (domainSeparator : Nat) (threshold : ReconstructionLowerBound) (participant : Participant)
    (oldParticipants : Option ParticipantList) (commitment : List Element)
    (proof : Option (Signature Scalar Element)) : Except ProtocolError Unit :=
  match proof with
  | none => do
    require (∃ old ∈ oldParticipants, ¬ old.contains participant)
      (.maliciousParticipant participant)
    require (commitment.length = threshold.value - 1) .incorrectNumberOfCommitments
  | some proof => do
    require (¬ ∃ old ∈ oldParticipants, ¬ old.contains participant)
      (.maliciousParticipant participant)
    require (commitment.length = threshold.value) .incorrectNumberOfCommitments
    internalVerifyProofOfKnowledge suite sessionId domainSeparator participant commitment proof

/-- A commitment with an identity in it cannot be serialised. -/
def commitmentHash (suite : Ciphersuite Scalar Element Hash) (domainSeparator : Nat)
    (participant : Participant) (commitment : List Element) (sessionId : Hash) :
    Except ProtocolError Hash := do
  require (∀ c ∈ commitment, c ≠ 0) .errorEncoding
  pure (suite.hashCommitment domainSeparator participant commitment sessionId)

def verifyCommitmentHash (suite : Ciphersuite Scalar Element Hash) (sessionId : Hash)
    (participant : Participant) (domainSeparator : Nat) (commitment : List Element)
    (allHashCommitments : ParticipantMap Hash) : Except ProtocolError Unit := do
  let actual ← allHashCommitments.index participant
  let expected ← commitmentHash suite domainSeparator participant commitment sessionId
  require (actual = expected) .invalidCommitmentHash

def validateReceivedShare (generator : Element) (me sender : Participant) (share : Scalar)
    (commitment : List Element) : Except ProtocolError Unit := do
  require (scalar Scalar me ≠ 0) .identityElement
  require (share • generator = evaluateVss (scalar Scalar me) commitment)
    (.invalidSecretShare sender)
  require (commitment ≠ []) (.assertionFailed
    s!"could not
            extract the verification key matching the secret
            share sent by {describe sender}")

/-- The arguments of `do_keyshare`. -/
structure Keyshare (Scalar Element : Type) where
  participants : ParticipantList
  me : Participant
  threshold : ReconstructionLowerBound
  secret : Scalar
  oldResharePackage : Option (Element × ParticipantList)

/-- The secret, the part of the session id, the other coefficients and the proof's nonce. -/
structure Draws (Scalar : Type) where
  secret : Scalar
  sessionId : SessionId
  coefficients : Nat → Scalar
  nonce : Scalar

structure Received (Scalar Element Hash : Type) where
  sessionIds : Votes SessionId
  commitmentHashes : List (Participant × Except String Hash)
  commitments : Votes (List Element × Option (Signature Scalar Element))
  shares : List (Participant × Except String Scalar)
  successes : Votes (Bool × Hash)

/-- What a participant has after the broadcast of the commitments. -/
structure Committed (Scalar Element Hash : Type) where
  oldVerificationKey : Option Element
  oldParticipants : Option ParticipantList
  sessionId : Hash
  secretCoefficients : List Scalar
  commitment : List Element
  allHashCommitments : ParticipantMap Hash
  commitmentsAndProofs : ParticipantMap (List Element × Option (Signature Scalar Element))

def failing {α : Type} (x : Except ProtocolError α) : Except (Stop ProtocolError) α :=
  x.mapError .failed

/-- The separators of the session id, of the proofs and of the commitments. -/
def sessionSeparator : Nat := 0

def proofSeparator : Nat := sessionSeparator + 1

def commitSeparator : Nat := proofSeparator + 1

def generateProof (suite : Ciphersuite Scalar Element Hash) (sessionId : Hash)
    (oldParticipants : Option ParticipantList) (me : Participant) (coefficients : List Scalar)
    (commitment : List Element) (nonce : Scalar) :
    Except ProtocolError (Option (Signature Scalar Element)) :=
  if oldParticipants.all fun old => old.contains me then
    (proofOfKnowledge suite sessionId proofSeparator me coefficients commitment nonce).map some
  else .ok none

/-- Agree on a session id, exchange hashes of commitments, and broadcast these with proofs. -/
def commitmentRounds (suite : Ciphersuite Scalar Element Hash)
    (arguments : Keyshare Scalar Element) (draws : Draws Scalar)
    (received : Received Scalar Element Hash) :
    Except (Stop ProtocolError) (Committed Scalar Element Hash) := do
  let { participants, me, threshold, secret, oldResharePackage } := arguments
  let (oldVerificationKey, oldParticipants) ←
    failing (assertKeyshareInputs me secret oldResharePackage)
  let sessionIds ← doBroadcast participants me draws.sessionId received.sessionIds
  let sessionId := suite.hashSessionIds sessionSeparator sessionIds.data
  failing (require (1 ≤ threshold.value) .integerOverflow)
  let secretCoefficients ←
    failing (generatePolynomial secret (threshold.value - 1) draws.coefficients)
  let coefficientCommitment ←
    failing (generateCoefficientCommitment suite.generator secretCoefficients.coefficients)
  let commitment := coefficientCommitment.coefficients
  let proof ← failing (generateProof suite sessionId oldParticipants me
    secretCoefficients.coefficients commitment draws.nonce)
  let hash ← failing (commitmentHash suite commitSeparator me commitment sessionId)
  let hashes ← recvFromOthers participants me received.commitmentHashes
  let allHashCommitments := hashes.foldl (fun map message => map.put message.1 message.2)
    ((ParticipantMap.new participants).put me hash)
  let commitmentsAndProofs ←
    doBroadcast participants me (commitment, proof) received.commitments
  pure ⟨oldVerificationKey, oldParticipants, sessionId, secretCoefficients.coefficients,
    commitment, allHashCommitments, commitmentsAndProofs⟩

/-- Round four: check what everybody else committed to, and complete the commitments. -/
def verifyCommitments (suite : Ciphersuite Scalar Element Hash)
    (arguments : Keyshare Scalar Element) (committed : Committed Scalar Element Hash) :
    Except ProtocolError (ParticipantMap (List Element)) :=
  (arguments.participants.others arguments.me).foldlM (fun map p => do
    let (commitment, proof) ← committed.commitmentsAndProofs.index p
    verifyProofOfKnowledge suite committed.sessionId proofSeparator arguments.threshold p
      committed.oldParticipants commitment proof
    verifyCommitmentHash suite committed.sessionId p commitSeparator commitment
      committed.allHashCommitments
    pure (map.put p (insertIdentityIfMissing arguments.threshold commitment)))
    ((ParticipantMap.new arguments.participants).put arguments.me
      (insertIdentityIfMissing arguments.threshold committed.commitment))

/-- Add up the shares, each checked against the commitment of its sender. -/
def addShares (suite : Ciphersuite Scalar Element Hash) (me : Participant)
    (fullCommitments : ParticipantMap (List Element)) (own : Scalar)
    (shares : List (Participant × Scalar)) : Except ProtocolError Scalar :=
  shares.foldlM (fun sum message => do
    let commitment ← fullCommitments.index message.1
    validateReceivedShare suite.generator me message.1 message.2 commitment
    pure (sum + message.2)) own

def broadcastSuccess (participants : ParticipantList) (me : Participant) (sessionId : Hash)
    (votes : Votes (Bool × Hash)) : Except (Stop ProtocolError) Unit := do
  let voteList ← doBroadcast participants me (true, sessionId) votes
  let voteList ← failing (found (.assertionFailed "vote_list is empty") voteList.toRefsOrNone)
  failing do
    require (∀ vote ∈ voteList, vote.2 = sessionId) (.assertionFailed
      "A participant
                broadcast the wrong session id. Aborting Protocol!")
    require (∀ vote ∈ voteList, vote.1 = true) (.assertionFailed
      "A participant
                seems to have failed its checks. Aborting Protocol!")

def doKeyshare (suite : Ciphersuite Scalar Element Hash) (arguments : Keyshare Scalar Element)
    (draws : Draws Scalar) (received : Received Scalar Element Hash) :
    Except (Stop ProtocolError) (KeygenOutput Scalar Element) := do
  let committed ← commitmentRounds suite arguments draws received
  let fullCommitments ← failing (verifyCommitments suite arguments committed)
  let commitments ← failing (found (.assertionFailed "all_full_commitments is empty")
    fullCommitments.toRefsOrNone)
  let publicKey ← failing (publicKeyFromCommitments commitments)
  failing (require (∀ old ∈ committed.oldVerificationKey, old = publicKey)
    (.assertionFailed "new public key does not match old public key"))
  let own ← failing (evalAtPoint committed.secretCoefficients (scalar Scalar arguments.me))
  let shares ← recvFromOthers arguments.participants arguments.me received.shares
  let privateShare ← failing (addShares suite arguments.me fullCommitments own shares)
  broadcastSuccess arguments.participants arguments.me committed.sessionId received.successes
  pure ⟨privateShare, publicKey⟩

/-- The arguments are refused, or the secret to share cannot be computed. -/
inductive StartError where
  | initialization (error : InitializationError)
  | protocol (error : ProtocolError)
  deriving Repr, DecidableEq

def assertKeyInvariants (participants : List Participant) (me : Participant)
    (threshold : ReconstructionLowerBound) : Except InitializationError ParticipantList := do
  require (2 ≤ participants.length) (.notEnoughParticipants participants.length)
  require (threshold.value ≤ participants.length)
    (.thresholdTooLarge threshold.value participants.length)
  require (2 ≤ threshold.value) (.thresholdTooSmall threshold.value 2)
  let participants ← found .duplicateParticipants (ParticipantList.new participants)
  require (participants.contains me) (.missingParticipant "self" me)
  pure participants

def assertReshareKeysInvariants (participants : List Participant) (me : Participant)
    (threshold : ReconstructionLowerBound) (oldSigningKey : Option Scalar)
    (oldThreshold : ReconstructionLowerBound) (oldParticipants : List Participant) :
    Except InitializationError (ParticipantList × ParticipantList) := do
  let participants ← assertKeyInvariants participants me threshold
  let oldParticipants ← found .duplicateParticipants (ParticipantList.new oldParticipants)
  let both := oldParticipants.intersection participants
  require (oldThreshold.value ≤ both.len)
    (.notEnoughParticipantsForNewThreshold oldThreshold.value both.len)
  require (¬ (oldParticipants.contains me ∧ oldSigningKey.isNone)) (.badParameters
    s!"party {describe me} is present in the old participant list but provided no share")
  pure (participants, oldParticipants)

def computeLagrangeCoefficient (points : List Scalar) (x : Scalar) :
    Except ProtocolError Scalar := do
  require (1 < points.length) .invalidInterpolationArguments
  require (x ∈ points) .invalidInterpolationArguments
  let others := points.filter fun y => y ≠ x
  let num := others.foldl (fun num y => num * y) 1
  let den := others.foldl (fun den y => den * (y - x)) 1
  require (den ≠ 0) .unreachable
  pure (num * den⁻¹)

/-- A participant with an old share shares its part of the old secret, a newcomer zero. -/
def linearized (intersection : ParticipantList) (me : Participant) :
    Option Scalar → Except ProtocolError Scalar
  | some share => do
    let lambda ← computeLagrangeCoefficient
      (intersection.participants.map (scalar Scalar)) (scalar Scalar me)
    pure (lambda * share)
  | none => pure 0

def doReshare (participants : ParticipantList) (me : Participant)
    (threshold : ReconstructionLowerBound) (oldSigningKey : Option Scalar) (oldPublicKey : Element)
    (oldParticipants : ParticipantList) : Except ProtocolError (Keyshare Scalar Element) := do
  let intersection := oldParticipants.intersection participants
  let secret ← linearized intersection me oldSigningKey
  pure ⟨participants, me, threshold, secret, some (oldPublicKey, oldParticipants)⟩

/-- What is run, with the parameters all participants have in common. -/
inductive Task (Element : Type) where
  | keygen (participants : List Participant) (threshold : ReconstructionLowerBound)
  | reshare (oldParticipants : List Participant) (oldThreshold : ReconstructionLowerBound)
      (oldPublicKey : Element) (newParticipants : List Participant)
      (newThreshold : ReconstructionLowerBound)
  | refresh (oldPublicKey : Element) (oldParticipants : List Participant)
      (oldThreshold : ReconstructionLowerBound)

def keygen (participants : List Participant) (me : Participant)
    (threshold : ReconstructionLowerBound) (draws : Draws Scalar) :
    Except StartError (Keyshare Scalar Element) := do
  let participants ← (assertKeyInvariants participants me threshold).mapError .initialization
  pure ⟨participants, me, threshold, draws.secret, none⟩

def reshare (oldParticipants : List Participant) (oldThreshold : ReconstructionLowerBound)
    (oldSigningKey : Option Scalar) (oldPublicKey : Element) (newParticipants : List Participant)
    (newThreshold : ReconstructionLowerBound) (me : Participant) :
    Except StartError (Keyshare Scalar Element) := do
  let (participants, oldParticipants) ← (assertReshareKeysInvariants newParticipants me
    newThreshold oldSigningKey oldThreshold oldParticipants).mapError .initialization
  (doReshare participants me newThreshold oldSigningKey oldPublicKey oldParticipants).mapError
    .protocol

def refresh (oldSigningKey : Option Scalar) (oldPublicKey : Element)
    (oldParticipants : List Participant) (oldThreshold : ReconstructionLowerBound)
    (me : Participant) : Except StartError (Keyshare Scalar Element) := do
  require oldSigningKey.isSome (.initialization (.badParameters
    s!"The participant {describe me} is running refresh without an old share"))
  let (participants, oldParticipants) ← (assertReshareKeysInvariants oldParticipants me
    oldThreshold oldSigningKey oldThreshold oldParticipants).mapError .initialization
  (doReshare participants me oldThreshold oldSigningKey oldPublicKey oldParticipants).mapError
    .protocol

/-- What a participant of its own has: its old share, its random draws and its messages. -/
structure Party (Scalar Element Hash : Type) where
  oldSigningKey : Option Scalar
  draws : Draws Scalar
  received : Received Scalar Element Hash

namespace Task

/-- The arguments a participant calls `do_keyshare` with. -/
def arguments (me : Participant) (party : Party Scalar Element Hash) :
    Task Element → Except StartError (Keyshare Scalar Element)
  | .keygen participants threshold => Dkg.keygen participants me threshold party.draws
  | .reshare oldParticipants oldThreshold oldPublicKey newParticipants newThreshold =>
    Dkg.reshare oldParticipants oldThreshold party.oldSigningKey oldPublicKey newParticipants
      newThreshold me
  | .refresh oldPublicKey oldParticipants oldThreshold =>
    Dkg.refresh party.oldSigningKey oldPublicKey oldParticipants oldThreshold me

def threshold : Task Element → ReconstructionLowerBound
  | .keygen _ threshold => threshold
  | .reshare _ _ _ _ newThreshold => newThreshold
  | .refresh _ _ oldThreshold => oldThreshold

def oldPublicKey : Task Element → Option Element
  | .keygen _ _ => none
  | .reshare _ _ oldPublicKey _ _ => some oldPublicKey
  | .refresh oldPublicKey _ _ => some oldPublicKey

/-- What the protocol returns to a participant, if it is run and returns. -/
def output (suite : Ciphersuite Scalar Element Hash) (task : Task Element) (me : Participant)
    (party : Party Scalar Element Hash) : Option (KeygenOutput Scalar Element) := do
  let arguments ← (task.arguments me party).toOption
  (doKeyshare suite arguments party.draws party.received).toOption

/-- What the broadcast of the commitments returns to a participant. -/
def broadcastCommitments (suite : Ciphersuite Scalar Element Hash) (task : Task Element)
    (me : Participant) (party : Party Scalar Element Hash) :
    Option (ParticipantMap (List Element × Option (Signature Scalar Element))) := do
  let arguments ← (task.arguments me party).toOption
  let committed ← (commitmentRounds suite arguments party.draws party.received).toOption
  pure committed.commitmentsAndProofs

end Task

end Keyshare

/-- What is known of arguments that were accepted. -/
structure KeyInvariants (participants : List Participant) (me : Participant)
    (threshold : ReconstructionLowerBound) (list : ParticipantList) : Prop where
  large : 2 ≤ threshold.value
  fits : threshold.value ≤ participants.length
  made : ParticipantList.new participants = some list
  own : me ∈ list.participants

theorem assertKeyInvariants_ok (done : assertKeyInvariants participants me threshold = .ok list) :
    KeyInvariants participants me threshold list := by
  unfold assertKeyInvariants at done
  simp only [bind_ok_iff, found_eq_ok, require_eq_ok, pure_ok_iff] at done
  obtain ⟨_, _, _, fits, _, large, _, made, _, own, rfl⟩ := done
  exact ⟨large, fits, made, ParticipantList.contains_iff.mp own⟩

theorem assertReshareKeysInvariants_ok
    (done : assertReshareKeysInvariants participants me threshold oldSigningKey oldThreshold
      oldParticipants = .ok (list, oldList)) :
    KeyInvariants participants me threshold list ∧
      ParticipantList.new oldParticipants = some oldList := by
  unfold assertReshareKeysInvariants at done
  simp only [bind_ok_iff, found_eq_ok, require_eq_ok, pure_ok_iff, Prod.mk.injEq] at done
  obtain ⟨_, checked, _, made, _, _, _, _, rfl, rfl⟩ := done
  exact ⟨assertKeyInvariants_ok checked, made⟩

end MpcNetwork.Threshold.Dkg
