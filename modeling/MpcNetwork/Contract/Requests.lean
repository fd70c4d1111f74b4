import Mathlib.Logic.Function.Basic
import MpcNetwork.Lib.BigEndian
import MpcNetwork.Contract.ProtocolState

/-! # Requests, responses and the contract's state

A user's request is stored under its content, next to the data id of the promise that
waits for the response.  The cryptography of the host and of third-party crates is a
parameter.
-/

namespace MpcNetwork.Contract

open Fallible

/-- The id the runtime gives to a yielded promise. -/
structure CryptoHash where
  bytes : List UInt8
  deriving Repr, DecidableEq

structure Tweak where
  bytes : List UInt8
  deriving Repr, DecidableEq

/-- Bytes with a statically known range of lengths. -/
structure Bytes (minLen maxLen : Nat) where
  bytes : List UInt8
  longEnough : minLen ≤ bytes.length
  shortEnough : bytes.length ≤ maxLen
  deriving DecidableEq

def ecdsaPayloadSizeBytes : Nat := 32
def eddsaPayloadSizeLowerBoundBytes : Nat := 32
def eddsaPayloadSizeUpperBoundBytes : Nat := 1232

inductive Payload where
  | ecdsa (bytes : Bytes ecdsaPayloadSizeBytes ecdsaPayloadSizeBytes)
  | eddsa (bytes : Bytes eddsaPayloadSizeLowerBoundBytes eddsaPayloadSizeUpperBoundBytes)
  deriving DecidableEq

namespace Payload

def asEcdsa : Payload → Option (List UInt8)
  | ecdsa bytes => some bytes.bytes
  | eddsa _ => none

def asEddsa : Payload → Option (List UInt8)
  | ecdsa _ => none
  | eddsa bytes => some bytes.bytes

end Payload

structure SignatureRequest where
  tweak : Tweak
  payload : Payload
  domainId : DomainId
  deriving DecidableEq

structure SignRequestArgs where
  path : String
  payloadV2 : Option Payload
  deprecatedPayload : Option (Bytes ecdsaPayloadSizeBytes ecdsaPayloadSizeBytes)
  domainId : Option DomainId
  deprecatedKeyVersion : Option UInt32

structure SignRequest where
  payload : Payload
  path : String
  domainId : DomainId

/-- Exactly one of the two payload fields and one of the two domain fields is given. -/
def SignRequest.tryFrom (args : SignRequestArgs) : Except Error SignRequest := do
  let payload ← match args.payloadV2, args.deprecatedPayload with
    | some payload, none => pure payload
    | none, some payload => pure (.ecdsa payload)
    | _, _ => throw (.invalidParameters .malformedPayload)
  let domainId ← match args.domainId, args.deprecatedKeyVersion with
    | some domainId, none => pure domainId
    | none, some keyVersion => pure ⟨keyVersion.toNat⟩
    | _, _ => throw (.invalidParameters .invalidDomainId)
  pure ⟨payload, args.path, domainId⟩

structure CKDRequestArgs where
  derivationPath : String
  appPublicKey : PublicKey
  domainId : DomainId

structure CKDRequest where
  appPublicKey : PublicKey
  appId : List UInt8
  domainId : DomainId
  deriving Repr, DecidableEq

structure CKDResponse where
  bigY : PublicKey
  bigC : PublicKey
  deriving Repr, DecidableEq

inductive ForeignChain where
  | abstract | ethereum | solana | bitcoin | starknet
  deriving Repr, DecidableEq

/-- Transaction id, finality and extractors; the contract only compares them. -/
structure RpcQuery where
  encoded : List UInt8
  deriving Repr, DecidableEq

inductive ForeignChainRpcRequest where
  | abstract (query : RpcQuery)
  | ethereum (query : RpcQuery)
  | solana (query : RpcQuery)
  | bitcoin (query : RpcQuery)
  | starknet (query : RpcQuery)
  deriving Repr, DecidableEq

def ForeignChainRpcRequest.chain : ForeignChainRpcRequest → ForeignChain
  | abstract _ => .abstract
  | ethereum _ => .ethereum
  | solana _ => .solana
  | bitcoin _ => .bitcoin
  | starknet _ => .starknet

/-- The arguments of the method have the same fields. -/
structure VerifyForeignTransactionRequest where
  request : ForeignChainRpcRequest
  domainId : DomainId
  payloadVersion : Nat
  deriving Repr, DecidableEq

structure K256Signature where
  bigR : List UInt8
  s : List UInt8
  recoveryId : UInt8
  deriving Repr, DecidableEq

inductive SignatureResponse where
  | secp256k1 (signature : K256Signature)
  | ed25519 (signature : List UInt8)
  deriving Repr, DecidableEq

structure VerifyForeignTransactionResponse where
  payloadHash : List UInt8
  signature : SignatureResponse
  deriving Repr, DecidableEq

structure Crypto where
  sha3 : List UInt8 → List UInt8
  /-- the key a signature recovers to, refusing malleable signatures -/
  ecrecover : List UInt8 → K256Signature → Option PublicKey
  ed25519Verify : List UInt8 → List UInt8 → PublicKey → Bool
  onSecp256k1 : PublicKey → Bool
  /-- the sum of a key and a multiple of the generator, unless it is the identity -/
  secp256k1AddBase : PublicKey → Nat → Option PublicKey
  ed25519AddBase : EdwardsPoint → List UInt8 → EdwardsPoint
  compress : EdwardsPoint → PublicKey

def secp256k1Order : Nat :=
  0xFFFFFFFFFFFFFFFFFFFFFFFFFFFFFFFEBAAEDCE6AF48A03BBFD25E8CD0364141

/-- A scalar is the big endian number of its bytes, if it is below the group order. -/
def scalarFromRepr (bytes : List UInt8) : Option Nat :=
  let value := BigEndian.ofBeBytes bytes
  if value < secp256k1Order then some value else none

namespace Crypto

variable (crypto : Crypto)

def deriveFromPath (derivationPrefix : String) (predecessorId : AccountId) (path : String) :
    List UInt8 :=
  crypto.sha3 (derivationPrefix ++ predecessorId.name ++ "," ++ path).toUTF8.toList

def deriveTweak (predecessorId : AccountId) (path : String) : Tweak :=
  ⟨crypto.deriveFromPath "near-mpc-recovery v0.1.0 epsilon derivation:" predecessorId path⟩

def deriveAppId (predecessorId : AccountId) (derivationPath : String) : List UInt8 :=
  crypto.deriveFromPath "near-mpc v0.1.0 app_id derivation:" predecessorId derivationPath

def deriveKeySecp256k1 (publicKey : PublicKey) (tweak : Tweak) : Except Error PublicKey := do
  let scalar ← found (.respond .tweakNotOnCurve) (scalarFromRepr tweak.bytes)
  found (.respond .tweakNotOnCurve) (crypto.secp256k1AddBase publicKey scalar)

def derivePublicKeyEdwardsPointEd25519 (point : EdwardsPoint) (tweak : Tweak) : EdwardsPoint :=
  crypto.ed25519AddBase point tweak.bytes

def verifyEcdsaSignature (signature : K256Signature) (message : List UInt8)
    (publicKey : PublicKey) : Bool :=
  crypto.ecrecover message signature = some publicKey

def verifyEddsaSignature (signature message : List UInt8) (publicKey : PublicKey) : Bool :=
  crypto.ed25519Verify signature message publicKey

end Crypto

structure Config where
  keyEventTimeoutBlocks : Nat
  signCallGasAttachmentRequirementTeraGas : Nat
  ckdCallGasAttachmentRequirementTeraGas : Nat

/-- Pending requests by content, with the promise that waits for the response. -/
abbrev LookupMap (K : Type) := K → Option CryptoHash

structure MpcContract where
  protocolState : ProtocolContractState
  pendingSignatureRequests : LookupMap SignatureRequest
  pendingCkdRequests : LookupMap CKDRequest
  pendingVerifyForeignTxRequests : LookupMap VerifyForeignTransactionRequest
  foreignChainPolicy : List ForeignChain
  config : Config
  acceptRequests : Bool

namespace MpcContract

variable (crypto : Crypto)

def minimumSignRequestDeposit : Nat := 1

def minimumCkdRequestDeposit : Nat := 1

/-- The request as the argument of the callback, and what goes back of the deposit. -/
structure Yielded (R : Type) where
  request : R
  refund : Nat

/-- The registered domain, if its purpose is the one the method needs. -/
def domainFor (self : MpcContract) (domainId : DomainId) (purpose : DomainPurpose) :
    Except Error DomainConfig := do
  let domains ← self.protocolState.domainRegistry
  let domainConfig ← found (.invalidParameters (.domainNotFound domainId))
    (domains.getDomainByDomainId domainId)
  require (domainConfig.purpose = purpose)
    (.invalidParameters (.wrongDomainPurpose domainConfig.id purpose domainConfig.purpose))
  pure domainConfig

/-- The gas and deposit checks; the result is the refund. -/
def payment (env : Env) (gasTera minimumDeposit : Nat) : Except Error Nat := do
  require (gasTera * 10 ^ 12 ≤ env.prepaidGas) (.invalidParameters .insufficientGas)
  require (minimumDeposit ≤ env.attachedDeposit) (.invalidParameters .insufficientDeposit)
  pure (env.attachedDeposit - minimumDeposit)

/-- The nodes would fail on such a payload in the same way. -/
def checkPayload (payload : Payload) : SignatureScheme → Except Error Unit
  | .secp256k1 | .v2Secp256k1 => do
    let hash ← found .panic payload.asEcdsa
    require (scalarFromRepr hash).isSome .panic
  | .ed25519 => do
    require payload.asEddsa.isSome .panic
  | .bls12381 => throw (.invalidParameters .invalidDomainId)

def addSignatureRequest (self : MpcContract) (request : SignatureRequest) (dataId : CryptoHash) :
    MpcContract :=
  { self with
    pendingSignatureRequests :=
      Function.update self.pendingSignatureRequests request (some dataId) }

def addCkdRequest (self : MpcContract) (request : CKDRequest) (dataId : CryptoHash) :
    MpcContract :=
  { self with pendingCkdRequests := Function.update self.pendingCkdRequests request (some dataId) }

def addVerifyForeignTxRequest (self : MpcContract) (request : VerifyForeignTransactionRequest)
    (dataId : CryptoHash) : MpcContract :=
  { self with
    pendingVerifyForeignTxRequests :=
      Function.update self.pendingVerifyForeignTxRequests request (some dataId) }

/-- `dataId` is what the runtime puts into the register when the promise is yielded. -/
def sign (env : Env) (self : MpcContract) (args : SignRequestArgs) (dataId : CryptoHash) :
    Except Error (Yielded SignatureRequest × MpcContract) := do
  let request ← SignRequest.tryFrom args
  let domainConfig ← self.domainFor request.domainId .sign
  checkPayload request.payload domainConfig.scheme
  let refund ← payment env self.config.signCallGasAttachmentRequirementTeraGas
    minimumSignRequestDeposit
  let tweak := crypto.deriveTweak env.predecessorAccountId request.path
  let request : SignatureRequest := ⟨tweak, request.payload, request.domainId⟩
  require self.acceptRequests .teeValidationFailed
  pure (⟨request, refund⟩, self.addSignatureRequest request dataId)

def requestAppPrivateKey (env : Env) (self : MpcContract) (args : CKDRequestArgs)
    (dataId : CryptoHash) : Except Error (Yielded CKDRequest × MpcContract) := do
  let _ ← self.domainFor args.domainId .ckd
  let refund ← payment env self.config.ckdCallGasAttachmentRequirementTeraGas
    minimumCkdRequestDeposit
  require self.acceptRequests .teeValidationFailed
  let appId := crypto.deriveAppId env.predecessorAccountId args.derivationPath
  let request : CKDRequest := ⟨args.appPublicKey, appId, args.domainId⟩
  pure (⟨request, refund⟩, self.addCkdRequest request dataId)

def verifyForeignTransaction (env : Env) (self : MpcContract)
    (request : VerifyForeignTransactionRequest) (dataId : CryptoHash) :
    Except Error (Yielded VerifyForeignTransactionRequest × MpcContract) := do
  let _ ← self.domainFor request.domainId .foreignTx
  require (request.request.chain ∈ self.foreignChainPolicy) (.invalidParameters .chainNotInPolicy)
  let refund ← payment env self.config.signCallGasAttachmentRequirementTeraGas
    minimumSignRequestDeposit
  require self.acceptRequests .teeValidationFailed
  pure (⟨request, refund⟩, self.addVerifyForeignTxRequest request dataId)

def assertCallerIsSigner (env : Env) : Except Error Unit :=
  require (env.signerAccountId = env.predecessorAccountId) .panic

def assertCallerIsAttestedParticipantAndProtocolActive (env : Env) (self : MpcContract) :
    Except Error Unit := do
  let participants ← self.protocolState.activeParticipants
  assertCallerIsSigner env
  require (env.isCallerAnAttestedParticipant participants) .panic

/-- The protocol holds keys and accepts responses. -/
def acceptsResponses (self : MpcContract) : Except Error Unit := do
  require self.protocolState.isRunningOrResharing (.invalidState .protocolStateNotRunning)
  require self.acceptRequests .teeValidationFailed

/-- Whether the response signs the request's payload under the key derived for it. -/
def signatureIsValid (request : SignatureRequest) :
    SignatureResponse → PublicKeyExtended → Except Error Bool
  | .secp256k1 signature, .secp256k1 nearPublicKey => do
    require (crypto.onSecp256k1 nearPublicKey) .panic
    let expectedPublicKey ← crypto.deriveKeySecp256k1 nearPublicKey request.tweak
    let payloadHash ← found .panic request.payload.asEcdsa
    pure (crypto.verifyEcdsaSignature signature payloadHash expectedPublicKey)
  | .ed25519 signature, .ed25519 _ edwardsPoint => do
    let derived := crypto.derivePublicKeyEdwardsPointEd25519 edwardsPoint request.tweak
    let message ← found .panic request.payload.asEddsa
    pure (crypto.verifyEddsaSignature signature message (crypto.compress derived))
  | _, _ => throw (.respond .signatureSchemeMismatch)

/-- Everything that is checked of a response before the request is looked up. -/
def checkResponse (env : Env) (self : MpcContract) (request : SignatureRequest)
    (response : SignatureResponse) : Except Error Unit := do
  assertCallerIsSigner env
  self.assertCallerIsAttestedParticipantAndProtocolActive env
  self.acceptsResponses
  let publicKey ← self.protocolState.publicKey request.domainId
  let valid ← signatureIsValid crypto request response publicKey
  require valid (.respond .invalidSignature)

/-- The result is the data id that is resumed with the response. -/
def respond (env : Env) (self : MpcContract) (request : SignatureRequest)
    (response : SignatureResponse) : Except Error (CryptoHash × MpcContract) := do
  self.checkResponse crypto env request response
  let dataId ← found (.invalidParameters .requestNotFound) (self.pendingSignatureRequests request)
  pure (dataId, { self with
    pendingSignatureRequests := Function.update self.pendingSignatureRequests request none })

/-- A confidential key cannot be checked by the contract. -/
def respondCkd (env : Env) (self : MpcContract) (request : CKDRequest) (_response : CKDResponse) :
    Except Error (CryptoHash × MpcContract) := do
  assertCallerIsSigner env
  self.acceptsResponses
  self.assertCallerIsAttestedParticipantAndProtocolActive env
  let dataId ← found (.invalidParameters .requestNotFound) (self.pendingCkdRequests request)
  pure (dataId, { self with
    pendingCkdRequests := Function.update self.pendingCkdRequests request none })

def foreignSignatureIsValid (response : VerifyForeignTransactionResponse) :
    PublicKeyExtended → Except Error Bool
  | .secp256k1 nearPublicKey =>
    match response.signature with
    | .secp256k1 signature =>
      pure (crypto.verifyEcdsaSignature signature response.payloadHash nearPublicKey)
    | .ed25519 _ => throw (.respond .signatureSchemeMismatch)
  | _ => throw (.respond .signatureSchemeMismatch)

def respondVerifyForeignTx (env : Env) (self : MpcContract)
    (request : VerifyForeignTransactionRequest) (response : VerifyForeignTransactionResponse) :
    Except Error (CryptoHash × MpcContract) := do
  assertCallerIsSigner env
  self.assertCallerIsAttestedParticipantAndProtocolActive env
  self.acceptsResponses
  let publicKey ← self.protocolState.publicKey request.domainId
  let valid ← foreignSignatureIsValid crypto response publicKey
  require valid (.respond .invalidSignature)
  let dataId ← found (.invalidParameters .requestNotFound)
    (self.pendingVerifyForeignTxRequests request)
  pure (dataId, { self with
    pendingVerifyForeignTxRequests :=
      Function.update self.pendingVerifyForeignTxRequests request none })

/-! ## Callbacks of the yielded promises

A callback gets the response the promise was resumed with, or nothing after a timeout.  Its
own result is the response, or nothing when the original transaction fails. -/

def returnSignatureAndCleanStateOnSuccess (self : MpcContract) (request : SignatureRequest) :
    Option SignatureResponse → Option SignatureResponse × MpcContract
  | some signature => (some signature, self)
  | none => (none, { self with
      pendingSignatureRequests := Function.update self.pendingSignatureRequests request none })

def returnCkAndCleanStateOnSuccess (self : MpcContract) (request : CKDRequest) :
    Option CKDResponse → Option CKDResponse × MpcContract
  | some ck => (some ck, self)
  | none => (none, { self with
      pendingCkdRequests := Function.update self.pendingCkdRequests request none })

def returnVerifyForeignTxAndCleanStateOnSuccess (self : MpcContract)
    (request : VerifyForeignTransactionRequest) :
    Option VerifyForeignTransactionResponse →
      Option VerifyForeignTransactionResponse × MpcContract
  | some response => (some response, self)
  | none => (none, { self with
      pendingVerifyForeignTxRequests :=
        Function.update self.pendingVerifyForeignTxRequests request none })

end MpcContract

end MpcNetwork.Contract
