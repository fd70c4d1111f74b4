import MpcNetwork.Contract.Domains
import MpcNetwork.Lib.Jobs
import MpcNetwork.Lib.Tables

/-! # The storage of key shares

A node keeps its key shares in two places.  Shares that were generated or reshared and that the
contract has not accepted yet are files of the temporary storage, one file for each key event,
beside a marker for each key event that was started.  The shares of the keyset in force are one
object of the permanent storage.

Both places are durable, and creating a file, removing one and replacing the permanent object each
happen at once.  The process may stop between any two such writes: the storage carries the number
of writes that still happen, and an operation that comes to its next write after that never
returns.  What a file or the permanent object holds is not checked when it is read, so that any
contents are possible.
-/

namespace MpcNetwork.Node.Keyshares

open Contract (EpochId DomainId AttemptId KeyEventId KeyForDomain Keyset PublicKeyExtended)
open Fallible Jobs Jobs.Job

inductive PublicKey where
  | secp256k1 (bytes : List UInt8)
  | ed25519 (bytes : List UInt8)
  | bls12381 (bytes : List UInt8)
  deriving Repr, DecidableEq

namespace PublicKey

/-- The first byte of a key of the chain is its curve type, 1 for secp256k1. -/
def ofNear (key : Contract.PublicKey) : PublicKey :=
  if key.bytes.head? = some 1 then .secp256k1 key.bytes.tail else .ed25519 key.bytes.tail

def ofExtended : PublicKeyExtended → PublicKey
  | .secp256k1 nearPublicKey => ofNear nearPublicKey
  | .ed25519 nearPublicKeyCompressed _ => ofNear nearPublicKeyCompressed
  | .bls12381 publicKey => .bls12381 publicKey.bytes

end PublicKey

structure Curve where
  Scalar : Type
  Element : Type
  [decidableScalar : DecidableEq Scalar]
  [decidableElement : DecidableEq Element]

attribute [instance] Curve.decidableScalar Curve.decidableElement

/-- The encodings of the curves in use. Infinity of secp256k1 is not a public key. -/
structure Curves where
  secp256k1 : Curve
  ed25519 : Curve
  bls12381 : Curve
  encodeSecp256k1 : secp256k1.Element → Option (List UInt8)
  encodeEd25519 : ed25519.Element → List UInt8
  encodeBls12381 : bls12381.Element → List UInt8

structure KeygenOutput (curve : Curve) where
  privateShare : curve.Scalar
  publicKey : curve.Element
  deriving DecidableEq

inductive KeyshareData (curves : Curves) where
  | secp256k1 (data : KeygenOutput curves.secp256k1)
  | ed25519 (data : KeygenOutput curves.ed25519)
  | bls12381 (data : KeygenOutput curves.bls12381)
  | v2Secp256k1 (data : KeygenOutput curves.secp256k1)
  deriving DecidableEq

/-- A share of one epoch, one domain and one attempt. -/
structure Keyshare (curves : Curves) where
  keyId : KeyEventId
  data : KeyshareData curves
  deriving DecidableEq

/-- The name of a foreign file may still have the form of one of ours and give an epoch. -/
inductive FileName where
  | keyshare (keyId : KeyEventId)
  | started (keyId : KeyEventId)
  | foreign (name : String) (epochId : Option EpochId)
  deriving Repr, DecidableEq

/-- Why an operation fails.  The last three say where another failure came up. -/
inductive KeyshareError where
  | invalidPoint
  | incorrectKeyId (keyId expected : KeyEventId)
  | incorrectPublicKey (publicKey : PublicKey) (expected : PublicKeyExtended)
  | inconsistentKeyIds (keyIds : List KeyEventId)
  | keysharesEmpty
  | inconsistentEpochId (keyshares epochId : EpochId)
  | malformedPermanent
  | existingNewer (existing new : EpochId)
  | existingHasMoreDomains (existing new : Nat)
  | keysetNotExtended (epochId : EpochId)
  | differentDomainId (existing new : KeyEventId)
  | differentKeyId (existing new : KeyEventId)
  | differentPublicKey (existing new : KeyEventId)
  | fileExists (file : FileName)
  | malformedTemporary (file : FileName)
  | unexpectedKeyId (keyId : KeyEventId)
  | invalidFilename (file : FileName)
  | permanentNewer (permanent epochId : EpochId)
  | permanentNotOlder (permanent epochId : EpochId)
  | moreDomainsThanExpected (epochId : EpochId) (existing expected : Nat)
  | missingTemporaryKeyshare (keyId : KeyEventId)
  | backupNotExact
  | missingKeyshare (keyId : KeyEventId)
  | mismatchedShares (keyIds : List KeyEventId)
  | checkingExisting (cause : KeyshareError)
  | existingPermanent (epochId : EpochId) (index : Nat) (cause : KeyshareError)
  | loadedFromTemporary (keyId : KeyEventId) (cause : KeyshareError)
  deriving Repr, DecidableEq

def keyIdOf (epochId : EpochId) (key : KeyForDomain) : KeyEventId :=
  ⟨epochId, key.domainId, key.attempt⟩

variable {curves : Curves}

namespace Keyshare

def publicKey (self : Keyshare curves) : Except KeyshareError PublicKey :=
  match self.data with
  | .secp256k1 data | .v2Secp256k1 data => do
    pure (.secp256k1 (← found .invalidPoint (curves.encodeSecp256k1 data.publicKey)))
  | .ed25519 data => pure (.ed25519 (curves.encodeEd25519 data.publicKey))
  | .bls12381 data => pure (.bls12381 (curves.encodeBls12381 data.publicKey))

def checkConsistency (self : Keyshare curves) (epochId : EpochId) (key : KeyForDomain) :
    Except KeyshareError Unit := do
  require (self.keyId = keyIdOf epochId key) (.incorrectKeyId self.keyId (keyIdOf epochId key))
  let publicKey ← self.publicKey
  require (publicKey = .ofExtended key.key) (.incorrectPublicKey publicKey key.key)

/-- The share is one of the key: it comes from its key event and has its public key. -/
structure Matches (share : Keyshare curves) (epochId : EpochId) (key : KeyForDomain) : Prop where
  keyId : share.keyId = keyIdOf epochId key
  publicKey : share.publicKey = .ok (.ofExtended key.key)

theorem checkConsistency_eq_ok {self : Keyshare curves} :
    self.checkConsistency epochId key = .ok () ↔ self.Matches epochId key := by
  simp only [checkConsistency, bind_ok_iff, require_eq_ok]
  constructor
  · rintro ⟨_, sameId, _, isKey, rfl⟩
    exact ⟨sameId, isKey⟩
  · rintro ⟨sameId, isKey⟩
    exact ⟨(), sameId, _, isKey, rfl⟩

end Keyshare

/-- The object of the permanent storage, with the shares in the order of the keyset. -/
structure PermanentKeyshareData (curves : Curves) where
  epochId : EpochId
  keyshares : List (Keyshare curves)
  deriving DecidableEq

/-- The object of a node from before there were domains. -/
structure LegacyRootKeyshareData (curves : Curves) where
  epoch : EpochId
  privateShare : curves.secp256k1.Scalar
  publicKey : curves.secp256k1.Element

inductive Stored (curves : Curves) where
  | current (data : PermanentKeyshareData curves)
  | legacy (data : LegacyRootKeyshareData curves)
  | malformed

inductive Contents (curves : Curves) where
  | keyshare (share : Keyshare curves)
  | malformed

structure KeyshareStorage (curves : Curves) where
  temporary : Table FileName (Contents curves)
  permanent : Option (Stored curves)
  writesLeft : Nat

/-- The right to store the share of one key event. -/
structure PendingKeyshareStorageHandle where
  keyId : KeyEventId
  deriving Repr, DecidableEq

abbrev StorageJob (curves : Curves) := Job KeyshareError (KeyshareStorage curves)

def inspect {α : Type} (look : KeyshareStorage curves → Except KeyshareError α) :
    StorageJob curves α := do
  ofExcept (← read look)

def write (change : KeyshareStorage curves → KeyshareStorage curves) : StorageJob curves Unit := do
  if (← read (·.writesLeft)) = 0 then wait
  else update fun s => { change s with writesLeft := s.writesLeft - 1 }

section

variable {α β : Type} {s : KeyshareStorage curves} {R : KeyshareStorage curves → Prop}
  {look : KeyshareStorage curves → Except KeyshareError α}
  {change : KeyshareStorage curves → KeyshareStorage curves}

theorem inspect_eq_ok : inspect look s = (.ok a, t) ↔ look s = .ok a ∧ s = t := by
  simp only [inspect, bind_eq_ok, read_eq_ok, ofExcept_eq_ok]
  constructor
  · rintro ⟨_, _, ⟨rfl, rfl⟩, looked, rfl⟩
    exact ⟨looked, rfl⟩
  · rintro ⟨looked, rfl⟩
    exact ⟨_, _, ⟨rfl, rfl⟩, looked, rfl⟩

theorem inspect_bind_ends {next : α → StorageJob curves β} (start : R s)
    (rest : ∀ a, look s = .ok a → R (next a s).2) : R ((inspect look >>= next) s).2 := by
  refine bind_ends ?_ ?_
  · change R (ofExcept (look s) s).2
    cases look s <;> exact start
  · intro a t looked
    obtain ⟨isLook, rfl⟩ := inspect_eq_ok.mp looked
    exact rest a isLook

theorem write_eq : write change s = if s.writesLeft = 0 then (.error .pending, s)
    else (.ok (), { change s with writesLeft := s.writesLeft - 1 }) := by
  change (if s.writesLeft = 0 then wait else update _ : StorageJob curves Unit) s = _
  split <;> rfl

theorem write_ends (start : R s) (done : R { change s with writesLeft := s.writesLeft - 1 }) :
    R (write change s).2 := by
  rw [write_eq]
  split
  · exact start
  · exact done

end

namespace PermanentKeyshareData

def new (epochId : EpochId) (keyshares : List (Keyshare curves)) :
    Except KeyshareError (PermanentKeyshareData curves) := do
  require (keyshares.IsChain fun a b =>
      a.keyId.epochId = b.keyId.epochId ∧ a.keyId.domainId.value < b.keyId.domainId.value)
    (.inconsistentKeyIds (keyshares.map (·.keyId)))
  let first ← found .keysharesEmpty keyshares.head?
  require (first.keyId.epochId = epochId) (.inconsistentEpochId first.keyId.epochId epochId)
  pure ⟨epochId, keyshares⟩

def fromLegacy (legacy : LegacyRootKeyshareData curves) : PermanentKeyshareData curves :=
  ⟨legacy.epoch, [⟨⟨legacy.epoch, ⟨0⟩, ⟨0⟩⟩, .secp256k1 ⟨legacy.privateShare, legacy.publicKey⟩⟩]⟩

def checkReplacement (isSameEpochId : Bool) (existing new : Keyshare curves) :
    Except KeyshareError Unit := do
  require (existing.keyId.domainId = new.keyId.domainId)
    (.differentDomainId existing.keyId new.keyId)
  require (¬ (isSameEpochId ∧ existing.keyId ≠ new.keyId)) (.differentKeyId existing.keyId new.keyId)
  let existingKey ← existing.publicKey
  let newKey ← new.publicKey
  require (existingKey = newKey) (.differentPublicKey existing.keyId new.keyId)

/-- The checks of `store` against the object that is there. -/
def checkOverwrite (existing new : PermanentKeyshareData curves) : Except KeyshareError Unit := do
  require (¬ existing.epochId.value > new.epochId.value)
    (.existingNewer existing.epochId new.epochId)
  require (¬ existing.keyshares.length > new.keyshares.length)
    (.existingHasMoreDomains existing.keyshares.length new.keyshares.length)
  let isSameEpochId : Bool := existing.epochId.value = new.epochId.value
  require (¬ (isSameEpochId ∧ existing.keyshares.length ≥ new.keyshares.length))
    (.keysetNotExtended existing.epochId)
  (existing.keyshares.zip new.keyshares).forM fun pair =>
    checkReplacement isSameEpochId pair.1 pair.2

end PermanentKeyshareData

namespace KeyshareStorage

open PermanentKeyshareData (checkOverwrite)

def loadPermanent (s : KeyshareStorage curves) :
    Except KeyshareError (Option (PermanentKeyshareData curves)) :=
  match s.permanent with
  | none => .ok none
  | some (.current data) => .ok (some data)
  | some _ => .error .malformedPermanent

def storeUnchecked (keyshareData : PermanentKeyshareData curves) : StorageJob curves Unit :=
  write fun s => { s with permanent := some (.current keyshareData) }

def storePermanent (keyshareData : PermanentKeyshareData curves) : StorageJob curves Unit := do
  let existing ← inspect fun s => s.loadPermanent.mapError .checkingExisting
  ofExcept (existing.elim (.ok ()) fun existing => checkOverwrite existing keyshareData)
  storeUnchecked keyshareData

/-- Start-up turns an object of the old form into one of the new form. -/
def migratePermanent : StorageJob curves Unit := do
  match ← read (·.permanent) with
  | none | some (.current _) => pure ()
  | some (.legacy legacy) => storeUnchecked (.fromLegacy legacy)
  | some .malformed => fail .malformedPermanent

def createNew (file : FileName) : StorageJob curves Unit := do
  inspect fun s => require (s.temporary.lookup file).isNone (.fileExists file)
  write fun s => { s with temporary := s.temporary.insert file .malformed }

def startGeneratingKeyshare (keyId : KeyEventId) :
    StorageJob curves PendingKeyshareStorageHandle := do
  createNew (.started keyId)
  pure ⟨keyId⟩

def loadKeyshare (s : KeyshareStorage curves) (keyId : KeyEventId) :
    Except KeyshareError (Option (Keyshare curves)) :=
  match s.temporary.lookup (.keyshare keyId) with
  | none => .ok none
  | some .malformed => .error (.malformedTemporary (.keyshare keyId))
  | some (.keyshare share) => do
    require (share.keyId = keyId) (.unexpectedKeyId share.keyId)
    pure (some share)

def getEpochIdFromFilename : FileName → Except KeyshareError EpochId
  | .keyshare keyId | .started keyId => .ok keyId.epochId
  | .foreign name epochId => found (.invalidFilename (.foreign name epochId)) epochId

/-- Remove what is older than the epoch, shares and markers alike. -/
def deleteKeysharesPriorToEpochId (epochId : EpochId) : StorageJob curves Unit := do
  let files ← read (·.temporary.keys)
  files.forM fun file => do
    let existingEpochId ← ofExcept (getEpochIdFromFilename file)
    if existingEpochId.value < epochId.value then
      write fun s => { s with temporary := s.temporary.erase file }
    else pure ()

theorem maintains_deleteKeysharesPriorToEpochId {I : KeyshareStorage curves → Prop}
    (kept : ∀ s file fileEpochId, getEpochIdFromFilename file = .ok fileEpochId →
      fileEpochId.value < epochId.value → I s →
      I { s with temporary := s.temporary.erase file, writesLeft := s.writesLeft - 1 }) :
    Maintains I (deleteKeysharesPriorToEpochId epochId) := by
  refine maintains_read.bind fun files => maintains_forM fun file _ => ?_
  intro s holds
  refine ofExcept_bind_ends holds ?_
  intro fileEpochId isEpoch
  split
  · rename_i older
    exact write_ends holds (kept s file fileEpochId isEpoch older holds)
  · exact holds

/-- Store the share.  A file that was created and not filled yet cannot be read. -/
def commitKeyshare (handle : PendingKeyshareStorageHandle) (keyshare : Keyshare curves) :
    StorageJob curves Unit := do
  ofExcept (require (keyshare.keyId = handle.keyId) (.unexpectedKeyId keyshare.keyId))
  createNew (.keyshare handle.keyId)
  write fun s => { s with
    temporary := s.temporary.insert (.keyshare handle.keyId) (.keyshare keyshare) }

/-- There are no more shares than keys, and each share is one of the key at its place. -/
def verifyExistingKeysharesArePrefixOfKeyset (existingKeyshares : List (Keyshare curves))
    (epochId : EpochId) (expectedKeys : List KeyForDomain) : Except KeyshareError Unit := do
  require (¬ existingKeyshares.length > expectedKeys.length)
    (.moreDomainsThanExpected epochId existingKeyshares.length expectedKeys.length)
  (existingKeyshares.zip expectedKeys).zipIdx.forM fun entry =>
    (entry.1.1.checkConsistency epochId entry.1.2).mapError (.existingPermanent epochId entry.2)

def loadKeyshareFromTemporary (s : KeyshareStorage curves) (epochId : EpochId)
    (key : KeyForDomain) : Except KeyshareError (Keyshare curves) := do
  let keyId := keyIdOf epochId key
  let keyshare ← found (.missingTemporaryKeyshare keyId) (← s.loadKeyshare keyId)
  (keyshare.checkConsistency epochId key).mapError (.loadedFromTemporary keyId)
  pure keyshare

/-- How many of the keys are in the permanent storage. -/
def numPermanentKeysSameEpoch (permanent : Option (PermanentKeyshareData curves))
    (epochId : EpochId) (alreadyGeneratedKeys : List KeyForDomain) : Except KeyshareError Nat :=
  match permanent with
  | none => .ok 0
  | some permanent =>
    if permanent.epochId = epochId then do
      verifyExistingKeysharesArePrefixOfKeyset permanent.keyshares epochId alreadyGeneratedKeys
      pure permanent.keyshares.length
    else if permanent.epochId.value > epochId.value then
      .error (.permanentNewer permanent.epochId epochId)
    else .ok 0

def startGeneratingKey (alreadyGeneratedKeys : List KeyForDomain) (keyIdToGenerate : KeyEventId) :
    StorageJob curves PendingKeyshareStorageHandle := do
  let permanent ← inspect loadPermanent
  let epochId := keyIdToGenerate.epochId
  let count ← ofExcept (numPermanentKeysSameEpoch permanent epochId alreadyGeneratedKeys)
  inspect fun s => (alreadyGeneratedKeys.drop count).forM fun key => do
    let _ ← s.loadKeyshareFromTemporary epochId key
  startGeneratingKeyshare keyIdToGenerate

def startResharingKey (alreadyResharedKeys : List KeyForDomain) (keyIdToGenerate : KeyEventId) :
    StorageJob curves PendingKeyshareStorageHandle := do
  let permanent ← inspect loadPermanent
  let epochId := keyIdToGenerate.epochId
  ofExcept (permanent.elim (.ok ()) fun permanent =>
    require (¬ permanent.epochId.value ≥ epochId.value)
      (.permanentNotOlder permanent.epochId epochId))
  inspect fun s => alreadyResharedKeys.forM fun key => do
    let _ ← s.loadKeyshareFromTemporary epochId key
  startGeneratingKeyshare keyIdToGenerate

def loadPrefixFromPermanent (s : KeyshareStorage curves) (keyset : Keyset) :
    Except KeyshareError (List (Keyshare curves)) := do
  let existingKeyshares := match ← s.loadPermanent with
    | some permanent => if permanent.epochId = keyset.epochId then permanent.keyshares else []
    | none => []
  verifyExistingKeysharesArePrefixOfKeyset existingKeyshares keyset.epochId keyset.domains
  pure existingKeyshares

/-- The loop that completes the shares of a keyset, key after key. -/
def complete (load : KeyEventId → Except KeyshareError (Keyshare curves)) (keyset : Keyset)
    (existingKeyshares : List (Keyshare curves)) : Except KeyshareError (List (Keyshare curves)) :=
  (keyset.domains.drop existingKeyshares.length).foldlM (fun newKeyshares key => do
    let keyshare ← load (keyIdOf keyset.epochId key)
    pure (newKeyshares ++ [keyshare])) existingKeyshares

inductive LoadedKeyset (curves : Curves) where
  | permanent (keyshares : List (Keyshare curves))
  | permanentAndTemporary (keyshares : List (Keyshare curves))

/-- This does not look at the public keys of the shares in the temporary storage. -/
def loadKeysharesFromPermanentOrTemporary (s : KeyshareStorage curves) (keyset : Keyset) :
    Except KeyshareError (LoadedKeyset curves) := do
  let existingKeyshares ← s.loadPrefixFromPermanent keyset
  if existingKeyshares.length = keyset.domains.length then
    pure (.permanent existingKeyshares)
  else do
    let newKeyshares ← complete (fun keyId => do
      found (.missingTemporaryKeyshare keyId) (← s.loadKeyshare keyId)) keyset existingKeyshares
    pure (.permanentAndTemporary newKeyshares)

def storeNewPermanentKeysetDataDeleteTemporary (epochId : EpochId)
    (keyshares : List (Keyshare curves)) : StorageJob curves Unit := do
  let newPermanentKeyshare ← ofExcept (PermanentKeyshareData.new epochId keyshares)
  storePermanent newPermanentKeyshare
  deleteKeysharesPriorToEpochId epochId

def updatePermanentKeyshares (keyset : Keyset) : StorageJob curves (List (Keyshare curves)) := do
  match ← inspect fun s => s.loadKeysharesFromPermanentOrTemporary keyset with
  | .permanent keyshares => pure keyshares
  | .permanentAndTemporary keyshares => do
    storeNewPermanentKeysetDataDeleteTemporary keyset.epochId keyshares
    pure keyshares

def getKeyshares (s : KeyshareStorage curves) (keyset : Keyset) :
    Except KeyshareError (List (Keyshare curves)) := do
  match ← s.loadKeysharesFromPermanentOrTemporary keyset with
  | .permanent keyshares | .permanentAndTemporary keyshares => pure keyshares

/-- The keyset that `import_backup` puts together, before it is compared with the backup. -/
def constructKeyset (s : KeyshareStorage curves) (backup : List (Keyshare curves))
    (contractKeyset : Keyset) : Except KeyshareError (List (Keyshare curves)) := do
  verifyExistingKeysharesArePrefixOfKeyset backup contractKeyset.epochId contractKeyset.domains
  require (backup.length = contractKeyset.domains.length) .backupNotExact
  let existingKeyshares ← s.loadPrefixFromPermanent contractKeyset
  complete (fun keyId => do
    found (.missingKeyshare keyId)
      ((← s.loadKeyshare keyId).or (backup.find? fun share => share.keyId = keyId)))
    contractKeyset existingKeyshares

def importBackup (backup : List (Keyshare curves)) (contractKeyset : Keyset) :
    StorageJob curves Unit := do
  let newKeyshares ← inspect fun s => s.constructKeyset backup contractKeyset
  let pairs := newKeyshares.zip backup
  ofExcept (require (∀ pair ∈ pairs, pair.1 = pair.2)
    (.mismatchedShares ((pairs.filter fun pair => pair.1 ≠ pair.2).map (·.1.keyId))))
  storeNewPermanentKeysetDataDeleteTemporary contractKeyset.epochId newKeyshares

end KeyshareStorage

end MpcNetwork.Node.Keyshares
