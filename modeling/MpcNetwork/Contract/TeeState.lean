import MpcNetwork.Contract.Governance
import MpcNetwork.Lib.Tables
import MpcNetwork.Tee.Verify

/-! # The TEE state of the contract

The contract stores an attestation under the TLS key of the node that it is for, and holds
the lists of images and launchers that nodes may run.  Participants vote on these lists.
Times are in nanoseconds; a deadline that does not fit counts as passed.
-/

namespace MpcNetwork.Contract

open Fallible Ballots
open Tee (MpcDockerImageHash LauncherDockerComposeHash VerifiedAttestation VerificationError)

abbrev LauncherImageHash := Tee.Bytes 32

/-- A key of the curve Ed25519, as the chain writes it: the tag of the curve and the key. -/
def PublicKey.ofEd25519 (key : Tee.Bytes 32) : PublicKey := ⟨0 :: key.toList⟩

def PublicKey.toEd25519 (self : PublicKey) : Option (Tee.Bytes 32) :=
  match self.bytes with
  | 0 :: key => if size : key.length = 32 then some ⟨key, size⟩ else none
  | _ => none

@[simp] theorem PublicKey.toEd25519_ofEd25519 (key : Tee.Bytes 32) :
    (PublicKey.ofEd25519 key).toEd25519 = some key := by
  obtain ⟨bytes, size⟩ := key
  exact dif_pos size

/-- The functions that verify attestations, SHA3-384 and the compiled-in measurements. -/
structure AttestationVerifier (Collateral : Type) where
  externals : Tee.Externals Collateral
  sha3384 : List UInt8 → Tee.Bytes 48
  defaultMeasurements : List Tee.ExpectedMeasurements

variable {Collateral : Type} (verifier : AttestationVerifier Collateral)

/-- The version, the hash of both keys and zeros. -/
def reportDataV1 (tlsPublicKey accountPublicKey : Tee.Bytes 32) : Tee.Bytes 64 :=
  ⟨[0, 1] ++ (verifier.sha3384 (tlsPublicKey.toList ++ accountPublicKey.toList)).toList ++
    List.replicate 14 0, by simp⟩

/-- The index of the last element that satisfies the predicate. -/
def rposition {α : Type} (p : α → Bool) (xs : List α) : Option Nat :=
  (xs.reverse.findIdx? p).map fun fromEnd => xs.length - 1 - fromEnd

structure AllowedMpcDockerImage where
  imageHash : MpcDockerImageHash
  added : Nat
  deriving DecidableEq

/-- A deadline this many seconds later, if its seconds fit into 64 bits. -/
def deadline (added durationSeconds : Nat) : Option Nat :=
  let later := added + durationSeconds * 1000000000
  if later / 1000000000 < UInt64.size then some later else none

/-- Images in the order in which they were allowed. -/
structure AllowedDockerImageHashes where
  allowedTeeProposals : List AllowedMpcDockerImage
  deriving DecidableEq

namespace AllowedDockerImageHashes

def default : AllowedDockerImageHashes := ⟨[]⟩

/-- Everything from the last image on whose grace period is over. -/
def validEntries (self : AllowedDockerImageHashes) (now durationSeconds : Nat) :
    List AllowedMpcDockerImage :=
  let cutoffIndex := (rposition (fun image =>
    match deadline image.added durationSeconds with
    | none => true
    | some gracePeriodDeadline => decide (gracePeriodDeadline < now))
    self.allowedTeeProposals).getD 0
  self.allowedTeeProposals.drop cutoffIndex

def cleanupExpiredHashes (self : AllowedDockerImageHashes) (now durationSeconds : Nat) :
    AllowedDockerImageHashes :=
  ⟨self.validEntries now durationSeconds⟩

/-- An image that is already there is moved to the present. -/
def insert (self : AllowedDockerImageHashes) (codeHash : MpcDockerImageHash)
    (now durationSeconds : Nat) : AllowedDockerImageHashes :=
  let entries := (self.cleanupExpiredHashes now durationSeconds).allowedTeeProposals
  let entries := entries.eraseP fun entry => entry.imageHash = codeHash
  let index := (rposition (fun entry => decide (now < entry.added)) entries).getD entries.length
  ⟨entries.insertIdx index ⟨codeHash, now⟩⟩

def getImageHashes (self : AllowedDockerImageHashes) (now durationSeconds : Nat) :
    List MpcDockerImageHash :=
  (self.validEntries now durationSeconds).map (·.imageHash)

/-- Between two calls a time is stored in whole seconds. -/
def stored (self : AllowedDockerImageHashes) : AllowedDockerImageHashes :=
  ⟨self.allowedTeeProposals.map fun image =>
    ⟨image.imageHash, image.added / 1000000000 * 1000000000⟩⟩

end AllowedDockerImageHashes

structure AllowedLauncherImage where
  launcherHash : LauncherImageHash
  composeHashes : List LauncherDockerComposeHash
  deriving DecidableEq

/-- The compose file of a launcher that starts with the given image. -/
def launcherDockerCompose (launcherImageHash defaultImageDigestHash : String) : String :=
  "version: '3.8'\n\nservices:\n  launcher:\n    image: nearone/mpc-launcher@sha256:" ++
  launcherImageHash ++
  "\n\n    container_name: launcher\n\n    environment:\n      - PLATFORM=TEE\n" ++
  "      - DOCKER_CONTENT_TRUST=1\n      - DEFAULT_IMAGE_DIGEST=sha256:" ++
  defaultImageDigestHash ++
  "\n\n    volumes:\n      - /var/run/docker.sock:/var/run/docker.sock\n" ++
  "      - /var/run/dstack.sock:/var/run/dstack.sock\n      - /tapp:/tapp:ro\n" ++
  "      - shared-volume:/mnt/shared:ro\n\n    security_opt:\n      - no-new-privileges:true\n\n" ++
  "    read_only: true\n\n    tmpfs:\n      - /tmp\n\nvolumes:\n  shared-volume:\n" ++
  "    name: shared-volume\n"

def getDockerComposeHash (launcherImageHash : LauncherImageHash)
    (mpcDockerImageHash : MpcDockerImageHash) : LauncherDockerComposeHash :=
  verifier.externals.sha256 (Hex.utf8 (launcherDockerCompose
    (Hex.encode launcherImageHash.toList) (Hex.encode mpcDockerImageHash.toList)))

structure AllowedLauncherImages where
  entries : List AllowedLauncherImage
  deriving DecidableEq

namespace AllowedLauncherImages

def default : AllowedLauncherImages := ⟨[]⟩

def add (self : AllowedLauncherImages) (launcherHash : LauncherImageHash)
    (currentMpcImageHashes : List MpcDockerImageHash) : Bool × AllowedLauncherImages :=
  if self.entries.any fun entry => entry.launcherHash = launcherHash then (false, self)
  else (true, ⟨self.entries ++
    [⟨launcherHash, currentMpcImageHashes.map (getDockerComposeHash verifier launcherHash)⟩]⟩)

def remove (self : AllowedLauncherImages) (launcherHash : LauncherImageHash) :
    Bool × AllowedLauncherImages :=
  let remaining := self.entries.filter fun entry => entry.launcherHash ≠ launcherHash
  if remaining.length = 0 then (false, self)
  else (decide (remaining.length < self.entries.length), ⟨remaining⟩)

def addMpcImageComposeHashes (self : AllowedLauncherImages) (mpcImageHash : MpcDockerImageHash) :
    AllowedLauncherImages :=
  ⟨self.entries.map fun entry =>
    let composeHash := getDockerComposeHash verifier entry.launcherHash mpcImageHash
    if entry.composeHashes.contains composeHash then entry
    else ⟨entry.launcherHash, entry.composeHashes ++ [composeHash]⟩⟩

def allComposeHashes (self : AllowedLauncherImages) : List LauncherDockerComposeHash :=
  self.entries.flatMap (·.composeHashes)

def launcherHashes (self : AllowedLauncherImages) : List LauncherImageHash :=
  self.entries.map (·.launcherHash)

end AllowedLauncherImages

structure NodeId where
  accountId : AccountId
  tlsPublicKey : PublicKey
  accountPublicKey : Option PublicKey
  deriving DecidableEq

structure NodeAttestation where
  nodeId : NodeId
  verifiedAttestation : VerifiedAttestation
  deriving DecidableEq

inductive LauncherVoteAction where
  | add (launcherHash : LauncherImageHash)
  | remove (launcherHash : LauncherImageHash)
  deriving DecidableEq

inductive TeeQuoteStatus where
  | valid
  /-- With the error, or without one if there is no attestation. -/
  | invalid (error : Option VerificationError)
  deriving DecidableEq

inductive AttestationSubmissionError where
  | invalidAttestation (error : VerificationError)
  | invalidTlsKey
  /-- The panic of an expiry time that does not fit. -/
  | expiryOverflow
  deriving DecidableEq

inductive AttestationCheckError where
  | callerNotParticipant | attestationNotFound | attestationOwnerMismatch | attestationKeyMismatch
  deriving Repr, DecidableEq

/-- Attestations are stored under TLS keys, also those of nodes that do not take part. -/
structure TeeState where
  allowedDockerImageHashes : AllowedDockerImageHashes
  allowedLauncherImages : AllowedLauncherImages
  votes : Box ParticipantId MpcDockerImageHash
  launcherVotes : Box ParticipantId LauncherVoteAction
  storedAttestations : Table PublicKey NodeAttestation

def currentTimeSeconds (now : Nat) : UInt64 := UInt64.ofNat (now / 1000000 / 1000)

namespace TeeState

/-- Each initial participant gets a mock attestation without an account key. -/
def withMockedParticipantAttestations (participants : Participants) : TeeState where
  allowedDockerImageHashes := .default
  allowedLauncherImages := .default
  votes := .empty
  launcherVotes := .empty
  storedAttestations := participants.participants.foldl
    (fun stored entry => stored.insert entry.2.2.signPk
      ⟨⟨entry.1, entry.2.2.signPk, none⟩, .mock .valid⟩) ∅

def getAllowedMpcDockerImageHashes (self : TeeState) (now durationSeconds : Nat) :
    List MpcDockerImageHash :=
  self.allowedDockerImageHashes.getImageHashes now durationSeconds

def getAllowedLauncherComposeHashes (self : TeeState) : List LauncherDockerComposeHash :=
  self.allowedLauncherImages.allComposeHashes

/-- Store the attestation if it verifies.  True when there was none under the TLS key. -/
def addParticipant (self : TeeState) (nodeId : NodeId) (attestation : Tee.Attestation Collateral)
    (now durationSeconds : Nat) : Except AttestationSubmissionError (Bool × TeeState) := do
  let tlsPublicKey ← found .invalidTlsKey nodeId.tlsPublicKey.toEd25519
  -- without a key of the right curve the attestation is for the key of zeros
  let accountPublicKey := (nodeId.accountPublicKey.bind PublicKey.toEd25519).getD
    (List.Vector.replicate 32 0)
  match attestation.verify verifier.externals (reportDataV1 verifier tlsPublicKey accountPublicKey)
      (currentTimeSeconds now) (self.getAllowedMpcDockerImageHashes now durationSeconds)
      self.getAllowedLauncherComposeHashes verifier.defaultMeasurements with
  | none => throw .expiryOverflow
  | some (.error error) => throw (.invalidAttestation error)
  | some (.ok verifiedAttestation) =>
    pure ((self.storedAttestations.lookup nodeId.tlsPublicKey).isNone,
      { self with storedAttestations :=
          self.storedAttestations.insert nodeId.tlsPublicKey ⟨nodeId, verifiedAttestation⟩ })

/-- Only the TLS key of the node decides which attestation is looked at. -/
def reverifyParticipants (self : TeeState) (nodeId : NodeId) (now durationSeconds : Nat) :
    TeeQuoteStatus :=
  match self.storedAttestations.lookup nodeId.tlsPublicKey with
  | none => .invalid none
  | some participantAttestation =>
    match participantAttestation.verifiedAttestation.reVerify (currentTimeSeconds now)
      (self.getAllowedMpcDockerImageHashes now durationSeconds)
      self.getAllowedLauncherComposeHashes with
    | .ok () => .valid
    | .error error => .invalid (some error)

def findNodeIdByTlsKey (self : TeeState) (tlsPublicKey : PublicKey) : Option NodeId :=
  (self.storedAttestations.lookup tlsPublicKey).map (·.nodeId)

/-- Whether the attestation of a participant still verifies. -/
def reverifies (self : TeeState) (now durationSeconds : Nat)
    (entry : AccountId × ParticipantId × ParticipantInfo) : Bool :=
  self.reverifyParticipants ⟨entry.1, entry.2.2.signPk,
    (self.findNodeIdByTlsKey entry.2.2.signPk).bind (·.accountPublicKey)⟩ now durationSeconds =
    .valid

def cleanupExpiredHashes (self : TeeState) (now durationSeconds : Nat) : TeeState :=
  { self with allowedDockerImageHashes :=
      self.allowedDockerImageHashes.cleanupExpiredHashes now durationSeconds }

/-- Drop expired images, then keep the participants whose attestation still verifies. -/
def reverifyAndCleanupParticipants (self : TeeState) (participants : Participants)
    (now durationSeconds : Nat) : TeeValidationResult × TeeState :=
  let self := self.cleanupExpiredHashes now durationSeconds
  let valid := participants.participants.filter (self.reverifies now durationSeconds)
  (if valid.length ≠ participants.len then .remaining ⟨participants.nextId, valid⟩ else .full, self)

def vote (self : TeeState) (codeHash : MpcDockerImageHash) (participant : ParticipantId) :
    Nat × TeeState :=
  let votes := self.votes.recast participant codeHash
  (votes.count codeHash, { self with votes := votes })

def whitelistTeeProposal (self : TeeState) (teeProposal : MpcDockerImageHash)
    (now durationSeconds : Nat) : TeeState :=
  { self with
    votes := .empty
    allowedLauncherImages := self.allowedLauncherImages.addMpcImageComposeHashes verifier teeProposal
    allowedDockerImageHashes :=
      self.allowedDockerImageHashes.insert teeProposal now durationSeconds }

def voteLauncher (self : TeeState) (action : LauncherVoteAction) (participant : ParticipantId) :
    Nat × TeeState :=
  let launcherVotes := self.launcherVotes.recast participant action
  (launcherVotes.count action, { self with launcherVotes := launcherVotes })

def addLauncherImage (self : TeeState) (launcherHash : LauncherImageHash)
    (now durationSeconds : Nat) : Bool × TeeState :=
  let (added, images) := self.allowedLauncherImages.add verifier launcherHash
    (self.allowedDockerImageHashes.getImageHashes now durationSeconds)
  (added, { self with launcherVotes := .empty, allowedLauncherImages := images })

def removeLauncherImage (self : TeeState) (launcherHash : LauncherImageHash) : Bool × TeeState :=
  let (removed, images) := self.allowedLauncherImages.remove launcherHash
  (removed, { self with launcherVotes := .empty, allowedLauncherImages := images })

/-- Forget the attestations under TLS keys that no participant has. -/
def cleanNonParticipants (self : TeeState) (participants : Participants) : TeeState :=
  let activeTlsKeys := participants.participants.map fun entry => entry.2.2.signPk
  { self with storedAttestations := self.storedAttestations.revise fun tlsPublicKey attestation =>
                if tlsPublicKey ∈ activeTlsKeys then some attestation else none }

/-- The caller's attestation has to be its own, and for the account key it signs with. -/
def isCallerAnAttestedParticipant (self : TeeState) (signerId : AccountId) (signerPk : PublicKey)
    (participants : Participants) : Except AttestationCheckError Unit := do
  let entry ← found AttestationCheckError.callerNotParticipant
    (participants.participants.find? fun entry => entry.1 = signerId)
  let attestation ← found AttestationCheckError.attestationNotFound
    (self.storedAttestations.lookup entry.2.2.signPk)
  require (attestation.nodeId.accountId = signerId) AttestationCheckError.attestationOwnerMismatch
  require (∀ nodePk ∈ attestation.nodeId.accountPublicKey, nodePk = signerPk)
    AttestationCheckError.attestationKeyMismatch

end TeeState

end MpcNetwork.Contract
