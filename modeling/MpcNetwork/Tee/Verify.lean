import MpcNetwork.Tee.Dstack

/-! # Attestations of MPC nodes

A node's attestation is accepted when the image and the launcher that it names are allowed
and its Dstack attestation verifies.  What is stored of it is checked again later, against
the hashes that are allowed then.
-/

namespace MpcNetwork.Tee

open Fallible

inductive MockAttestation where
  | valid
  | invalid
  | withConstraints (mpcDockerImageHash : Option MpcDockerImageHash)
      (launcherDockerComposeHash : Option LauncherDockerComposeHash)
      (expiryTimestampSeconds : Option UInt64)
  deriving DecidableEq

inductive Attestation (Collateral : Type) where
  | dstack (attestation : DstackAttestation Collateral)
  | mock (attestation : MockAttestation)

structure ValidatedDstackAttestation where
  mpcImageHash : MpcDockerImageHash
  launcherComposeHash : LauncherDockerComposeHash
  expiryTimestampSeconds : UInt64
  deriving DecidableEq

inductive VerifiedAttestation where
  | dstack (attestation : ValidatedDstackAttestation)
  | mock (attestation : MockAttestation)
  deriving DecidableEq

def defaultExpirationDurationSeconds : UInt64 := 60 * 60 * 24 * 7

def verifyMpcHash (imageHash : MpcDockerImageHash) (allowedHashes : List MpcDockerImageHash) :
    Except VerificationError Unit := do
  require (allowedHashes ≠ []) (VerificationError.custom .allowedMpcImageHashesEmpty)
  require (imageHash ∈ allowedHashes)
    (VerificationError.custom (.mpcImageHashNotAllowed imageHash))

def verifyLauncherComposeHash (launcherComposeHash : LauncherDockerComposeHash)
    (allowedHashes : List LauncherDockerComposeHash) : Except VerificationError Unit := do
  require (allowedHashes ≠ []) (VerificationError.custom .allowedLauncherComposeHashesEmpty)
  require (launcherComposeHash ∈ allowedHashes)
    (VerificationError.custom (.launcherComposeHashNotAllowed launcherComposeHash))

def whenSet {α : Type} (check : α → Except VerificationError Unit) :
    Option α → Except VerificationError Unit
  | none => .ok ()
  | some a => check a

def verifyMockAttestation (mockAttestation : MockAttestation)
    (allowedMpcDockerImageHashes : List MpcDockerImageHash)
    (allowedLauncherDockerComposeHashes : List LauncherDockerComposeHash)
    (timestampSeconds : UInt64) : Except VerificationError Unit :=
  match mockAttestation with
  | .valid => .ok ()
  | .invalid => .error .invalidMockAttestation
  | .withConstraints mpcDockerImageHash launcherDockerComposeHash expiryTimestampSeconds => do
    whenSet (fun hash => do
        require (allowedMpcDockerImageHashes ≠ [])
          (VerificationError.custom .allowedMpcImageHashesEmpty)
        require (hash ∈ allowedMpcDockerImageHashes)
          (VerificationError.custom (.mockMpcImageHashNotAllowed (Hex.encode hash.toList))))
      mpcDockerImageHash
    whenSet (fun hash => do
        require (allowedLauncherDockerComposeHashes ≠ [])
          (VerificationError.custom .allowedLauncherComposeHashesEmpty)
        require (hash ∈ allowedLauncherDockerComposeHashes)
          (VerificationError.custom
            (.mockLauncherComposeHashNotAllowed (Hex.encode hash.toList))))
      launcherDockerComposeHash
    whenSet (fun expiry => require (timestampSeconds < expiry)
        (VerificationError.expiredCertificate timestampSeconds expiry))
      expiryTimestampSeconds

variable {Collateral : Type} (env : Externals Collateral)

def extractMpcImageHash (tcbInfo : TcbInfo) : Except VerificationError MpcDockerImageHash := do
  let e ← tcbInfo.getSingleEvent mpcImageHashEvent
  let bytes ← (Hex.decode e.eventPayload).mapError
    fun error => VerificationError.custom (.mpcImageNotHexEncoded error)
  if size : bytes.length = 32 then .ok ⟨bytes, size⟩
  else .error (.custom .mpcImageHashNot32Bytes)

/-- The hash of the docker compose file in the application's JSON. -/
def extractLauncherComposeHash (tcbInfo : TcbInfo) :
    Except VerificationError LauncherDockerComposeHash := do
  let appCompose ← readAppCompose env tcbInfo.appCompose
  .ok (env.sha256 (Hex.utf8 appCompose.dockerComposeFile))

/-- The checks of a Dstack attestation, with the two hashes it vouches for. -/
def DstackAttestation.verifyMpc (attestation : DstackAttestation Collateral)
    (expectedReportData : Bytes 64) (currentTimestampSeconds : UInt64)
    (allowedMpcDockerImageHashes : List MpcDockerImageHash)
    (allowedLauncherDockerComposeHashes : List LauncherDockerComposeHash)
    (acceptedMeasurements : List ExpectedMeasurements) :
    Except VerificationError (MpcDockerImageHash × LauncherDockerComposeHash) := do
  let mpcImageHash ← extractMpcImageHash attestation.tcbInfo
  verifyMpcHash mpcImageHash allowedMpcDockerImageHashes
  let launcherComposeHash ← extractLauncherComposeHash env attestation.tcbInfo
  verifyLauncherComposeHash launcherComposeHash allowedLauncherDockerComposeHashes
  attestation.verify env expectedReportData currentTimestampSeconds acceptedMeasurements
  .ok (mpcImageHash, launcherComposeHash)

/-- `none` is the panic of an expiry time that does not fit. -/
def Attestation.verify (attestation : Attestation Collateral) (expectedReportData : Bytes 64)
    (currentTimestampSeconds : UInt64)
    (allowedMpcDockerImageHashes : List MpcDockerImageHash)
    (allowedLauncherDockerComposeHashes : List LauncherDockerComposeHash)
    (acceptedMeasurements : List ExpectedMeasurements) :
    Option (Except VerificationError VerifiedAttestation) :=
  match attestation with
  | .dstack dstackAttestation =>
    match dstackAttestation.verifyMpc env expectedReportData currentTimestampSeconds
      allowedMpcDockerImageHashes allowedLauncherDockerComposeHashes acceptedMeasurements with
    | .error error => some (.error error)
    | .ok (mpcImageHash, launcherComposeHash) =>
      if currentTimestampSeconds.toNat + defaultExpirationDurationSeconds.toNat <
          UInt64.size then
        some (.ok (.dstack ⟨mpcImageHash, launcherComposeHash,
          currentTimestampSeconds + defaultExpirationDurationSeconds⟩))
      else none
  | .mock mockAttestation => some do
      verifyMockAttestation mockAttestation allowedMpcDockerImageHashes
        allowedLauncherDockerComposeHashes currentTimestampSeconds
      .ok (.mock mockAttestation)

def VerifiedAttestation.reVerify (attestation : VerifiedAttestation) (timestampSeconds : UInt64)
    (allowedMpcDockerImageHashes : List MpcDockerImageHash)
    (allowedLauncherDockerComposeHashes : List LauncherDockerComposeHash) :
    Except VerificationError Unit :=
  match attestation with
  | .dstack ⟨mpcImageHash, launcherComposeHash, expiryTimestampSeconds⟩ => do
    require (¬expiryTimestampSeconds < timestampSeconds)
      (VerificationError.custom (.attestationExpired expiryTimestampSeconds timestampSeconds))
    verifyMpcHash mpcImageHash allowedMpcDockerImageHashes
    verifyLauncherComposeHash launcherComposeHash allowedLauncherDockerComposeHashes
  | .mock mockAttestation =>
    verifyMockAttestation mockAttestation allowedMpcDockerImageHashes
      allowedLauncherDockerComposeHashes timestampSeconds

@[simp] theorem verifyMpcHash_eq_ok :
    verifyMpcHash imageHash allowed = .ok u ↔ imageHash ∈ allowed := by
  simpa [verifyMpcHash] using fun inside => List.ne_nil_of_mem inside

@[simp] theorem verifyLauncherComposeHash_eq_ok {hash : LauncherDockerComposeHash} :
    verifyLauncherComposeHash hash allowed = .ok u ↔ hash ∈ allowed := by
  simpa [verifyLauncherComposeHash] using fun inside => List.ne_nil_of_mem inside

theorem extractMpcImageHash_ok {hash : MpcDockerImageHash}
    (extracted : extractMpcImageHash tcbInfo = .ok hash) :
    ∃ e, tcbInfo.getSingleEvent mpcImageHashEvent = .ok e ∧
      Hex.decode e.eventPayload = .ok hash.toList := by
  simp only [extractMpcImageHash, bind_ok_iff, mapError_eq_ok] at extracted
  obtain ⟨e, single, bytes, decoded, sized⟩ := extracted
  split at sized
  · cases sized
    exact ⟨e, single, decoded⟩
  · cases sized

theorem verify_dstack_ok {attestation : DstackAttestation Collateral}
    (accepted : (Attestation.dstack attestation).verify env expectedReportData now images launchers
      measurements = some (.ok verified)) :
    ∃ v : ValidatedDstackAttestation, verified = .dstack v ∧
      extractMpcImageHash attestation.tcbInfo = .ok v.mpcImageHash ∧
      v.mpcImageHash ∈ images ∧
      extractLauncherComposeHash env attestation.tcbInfo = .ok v.launcherComposeHash ∧
      v.launcherComposeHash ∈ launchers ∧
      attestation.verify env expectedReportData now measurements = .ok () ∧
      v.expiryTimestampSeconds.toNat = now.toNat + defaultExpirationDurationSeconds.toNat := by
  simp only [Attestation.verify] at accepted
  split at accepted
  · cases accepted
  · rename_i image launcher checked
    split at accepted
    · rename_i fits
      cases accepted
      simp only [DstackAttestation.verifyMpc, bind_ok_iff, verifyMpcHash_eq_ok,
        verifyLauncherComposeHash_eq_ok, Except.ok.injEq, Prod.mk.injEq] at checked
      obtain ⟨_, extracted, _, allowed, _, launched, _, launchable, _, verified, rfl, rfl⟩ := checked
      exact ⟨_, rfl, extracted, allowed, launched, launchable, verified,
        (UInt64.toNat_add _ _).trans (Nat.mod_eq_of_lt fits)⟩
    · cases accepted

end MpcNetwork.Tee
