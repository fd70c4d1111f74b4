import Mathlib.Data.Vector.Basic
import MpcNetwork.Lib.BigEndian
import MpcNetwork.Lib.HashChains
import MpcNetwork.Lib.Hex

/-! # Dstack attestations

A Dstack attestation is a TDX quote with the log of the events that its virtual machine
measured.  Verification has the quote checked, replays the log into the third runtime
register of the quote, and compares the other measurements with the accepted ones.
Hash functions, the check of the quote and the JSON reader are parameters.
-/

namespace MpcNetwork.Tee

open Fallible HashChains

abbrev Bytes (n : Nat) := List.Vector UInt8 n

abbrev MpcDockerImageHash := Bytes 32
abbrev LauncherDockerComposeHash := Bytes 32

/-- What a `Custom` error says. -/
inductive CustomError where
  /-- "The attestation expired at t = .., time_now = .." -/
  | attestationExpired (expiryTimestamp timestamp : UInt64)
  /-- "provided mpc image is not hex encoded: .." -/
  | mpcImageNotHexEncoded (error : Hex.FromHexError)
  /-- "The provided MPC image hash is not 32 bytes" -/
  | mpcImageHashNot32Bytes
  /-- "the allowed mpc image hashes list is empty" -/
  | allowedMpcImageHashesEmpty
  /-- "MPC image hash .. is not in the allowed hashes list" -/
  | mpcImageHashNotAllowed (hash : MpcDockerImageHash)
  /-- "the allowed mpc launcher compose hashes list is empty" -/
  | allowedLauncherComposeHashesEmpty
  /-- "MPC launcher compose hash .. is not in the allowed hashes list" -/
  | launcherComposeHashNotAllowed (hash : LauncherDockerComposeHash)
  /-- "MPC image hash .. is not in the allowed hashes list", with the hash in hexadecimal -/
  | mockMpcImageHashNotAllowed (hash : String)
  /-- "launcher compose hash .. is not in the allowed hashes list", likewise -/
  | mockLauncherComposeHashNotAllowed (hash : String)
  deriving DecidableEq

inductive VerificationError where
  | dcapVerification (reason : String)
  | reportNotTd10
  | tcbStatusNotUpToDate (status : String)
  | nonEmptyAdvisoryIds (advisoryIds : String)
  | wrongHash (name found expected : String)
  | invalidEventType (eventType : UInt32)
  | eventDecoding (digest : String)
  | appComposeParsing (reason : String)
  | missingEvent (eventName : String)
  | duplicateEvent (eventName : String)
  | invalidAppComposeConfig (appCompose : String)
  | appComposeEventPayloadWrongSize (size : Nat)
  | appComposeEventPayloadNotHex (payload : String)
  | expiredCertificate (attestationTime expiryTime : UInt64)
  | invalidMockAttestation
  | custom (error : CustomError)
  deriving DecidableEq

def expectedQuoteStatus : String := "UpToDate"

def dstackEventType : UInt32 := 134217729

def composeHashEvent : String := "compose-hash"
def keyProviderEvent : String := "key-provider"
def mpcImageHashEvent : String := "mpc-image-digest"

def rtmr3Index : UInt32 := 3

structure EventLog where
  imr : UInt32
  eventType : UInt32
  digest : Bytes 48
  event : String
  eventPayload : String
  deriving DecidableEq

structure TcbInfo where
  mrtd : Bytes 48
  rtmr0 : Bytes 48
  rtmr1 : Bytes 48
  rtmr2 : Bytes 48
  rtmr3 : Bytes 48
  composeHash : Bytes 32
  appCompose : String
  eventLog : List EventLog
  deriving DecidableEq

/-- The part of the application's JSON that is looked at. -/
structure AppCompose where
  manifestVersion : UInt32
  runner : String
  dockerComposeFile : String
  kmsEnabled : Bool
  gatewayEnabled : Option Bool
  publicLogs : Bool
  publicSysinfo : Bool
  localKeyProviderEnabled : Bool
  allowedEnvs : List String
  noInstanceId : Bool
  preLaunchScript : Option String
  deriving DecidableEq

structure Measurements where
  mrtd : Bytes 48
  rtmr0 : Bytes 48
  rtmr1 : Bytes 48
  rtmr2 : Bytes 48
  deriving DecidableEq

structure ExpectedMeasurements where
  rtmrs : Measurements
  keyProviderEventDigest : Bytes 48
  deriving DecidableEq

structure TDReport10 where
  mrTd : Bytes 48
  rtMr0 : Bytes 48
  rtMr1 : Bytes 48
  rtMr2 : Bytes 48
  rtMr3 : Bytes 48
  reportData : Bytes 64
  deriving DecidableEq

/-- What the check of a quote finds; the report is there when it is of the TD 1.0 kind. -/
structure VerifiedReport where
  status : String
  advisoryIds : List String
  asTd10 : Option TDReport10
  deriving DecidableEq

structure DstackAttestation (Collateral : Type) where
  quote : List UInt8
  collateral : Collateral
  tcbInfo : TcbInfo

/-- The hash functions, the check of quotes and the JSON reader. -/
structure Externals (Collateral : Type) where
  sha256 : List UInt8 → Bytes 32
  sha384 : List UInt8 → Bytes 48
  dcapVerify : List UInt8 → Collateral → UInt64 → Except String VerifiedReport
  parseAppCompose : String → Except String AppCompose

def compareHashes (name : String) (found expected : List UInt8) :
    Except VerificationError Unit :=
  require (found = expected) (.wrongHash name (Hex.encode found) (Hex.encode expected))

def compareHexHashes (name found expected : String) : Except VerificationError Unit :=
  require (found = expected) (.wrongHash name found expected)

def TcbInfo.getSingleEvent (tcbInfo : TcbInfo) (eventName : String) :
    Except VerificationError EventLog :=
  match tcbInfo.eventLog.filter (fun e => e.event == eventName && e.imr == rtmr3Index) with
  | [] => .error (.missingEvent eventName)
  | [e] => .ok e
  | _ => .error (.duplicateEvent eventName)

variable {Collateral : Type} (env : Externals Collateral)

/-- The type stands in the byte order of the machine, here little-endian. -/
def eventPreimage (eventType : UInt32) (event : String) (payload : List UInt8) : List UInt8 :=
  (BigEndian.toBeBytes 4 eventType.toNat).reverse ++ 58 :: Hex.utf8 event ++ 58 :: payload

def eventDigest (eventType : UInt32) (event : String) (payload : List UInt8) : Bytes 48 :=
  env.sha384 (eventPreimage eventType event payload)

/-- A register's value after it is extended by a digest. -/
def extendRegister (register digest : Bytes 48) : Bytes 48 :=
  env.sha384 (register.toList ++ digest.toList)

def startRegister : Bytes 48 := List.Vector.replicate 48 0

/-- One event of the replay: its digest is checked and extends the register. -/
def replayEvent (digest : Bytes 48) (e : EventLog) : Except VerificationError (Bytes 48) := do
  require (e.eventType = dstackEventType) (VerificationError.invalidEventType e.eventType)
  match Hex.decode e.eventPayload with
  | .error _ => .error (.eventDecoding (Hex.encode e.digest.toList))
  | .ok payloadBytes => do
    compareHashes "event_digest" e.digest.toList
      (eventDigest env e.eventType e.event payloadBytes).toList
    .ok (extendRegister env digest e.digest)

def verifyEventLogRtmr3 (eventLog : List EventLog) (expectedDigest : Bytes 48) :
    Except VerificationError Unit := do
  let digest ← (eventLog.filter fun e => e.imr == rtmr3Index).foldlM (replayEvent env)
    startRegister
  compareHashes "event_log" digest.toList expectedDigest.toList

def validateAppComposePayload (expectedEventPayloadHex appCompose : String) :
    Except VerificationError Unit :=
  match Hex.decode expectedEventPayloadHex with
  | .error _ => .error (.appComposeEventPayloadNotHex expectedEventPayloadHex)
  | .ok bytes => do
    require (bytes.length = 32) (.appComposeEventPayloadWrongSize bytes.length)
    compareHashes "app_compose_payload" (env.sha256 (Hex.utf8 appCompose)).toList bytes

def verifyTcbStatus (report : VerifiedReport) : Except VerificationError Unit := do
  require (report.status = expectedQuoteStatus) (VerificationError.tcbStatusNotUpToDate report.status)
  require (report.advisoryIds = [])
    (VerificationError.nonEmptyAdvisoryIds (", ".intercalate report.advisoryIds))

def verifyReportData (expected : Bytes 64) (actual : TDReport10) :
    Except VerificationError Unit :=
  compareHashes "report_data" actual.reportData.toList expected.toList

def verifyStaticRtmrs (reportData : TDReport10) (tcbInfo : TcbInfo)
    (expected : ExpectedMeasurements) : Except VerificationError Unit := do
  compareHashes "rtmr0_report_data" reportData.rtMr0.toList expected.rtmrs.rtmr0.toList
  compareHashes "rtmr1_report_data" reportData.rtMr1.toList expected.rtmrs.rtmr1.toList
  compareHashes "rtmr2_report_data" reportData.rtMr2.toList expected.rtmrs.rtmr2.toList
  compareHashes "mrtd_report_data" reportData.mrTd.toList expected.rtmrs.mrtd.toList
  compareHashes "rtmr0_tcb_info" tcbInfo.rtmr0.toList expected.rtmrs.rtmr0.toList
  compareHashes "rtmr1_tcb_info" tcbInfo.rtmr1.toList expected.rtmrs.rtmr1.toList
  compareHashes "rtmr2_tcb_info" tcbInfo.rtmr2.toList expected.rtmrs.rtmr2.toList
  compareHashes "mtrd_tcb_info" tcbInfo.mrtd.toList expected.rtmrs.mrtd.toList

def verifyKeyProviderDigest (tcbInfo : TcbInfo) (expectedDigest : Bytes 48) :
    Except VerificationError Unit := do
  let e ← tcbInfo.getSingleEvent keyProviderEvent
  compareHashes "key_provider" e.digest.toList expectedDigest.toList

/-- One accepted set of measurements has to match; why the others do not is not reported. -/
def verifyAnyMeasurements (reportData : TDReport10) (tcbInfo : TcbInfo)
    (acceptedMeasurements : List ExpectedMeasurements) : Except VerificationError Unit :=
  require (∃ expected ∈ acceptedMeasurements,
      verifyStaticRtmrs reportData tcbInfo expected = .ok () ∧
        verifyKeyProviderDigest tcbInfo expected.keyProviderEventDigest = .ok ())
    (.wrongHash "expected_measurements" "none matched"
      "one of the embedded TCB info sets (prod or dev)")

def verifyRtmr3 (reportData : TDReport10) (tcbInfo : TcbInfo) :
    Except VerificationError Unit := do
  compareHashes "rtmr3" tcbInfo.rtmr3.toList reportData.rtMr3.toList
  verifyEventLogRtmr3 env tcbInfo.eventLog reportData.rtMr3

def validateAppComposeConfig (appCompose : AppCompose) : Bool :=
  appCompose.manifestVersion == 2
    && appCompose.runner == "docker-compose"
    && !appCompose.kmsEnabled
    && appCompose.gatewayEnabled == some false
    && appCompose.publicLogs
    && appCompose.publicSysinfo
    && appCompose.localKeyProviderEnabled
    && appCompose.allowedEnvs.isEmpty
    && appCompose.noInstanceId
    && appCompose.preLaunchScript.isNone

/-- The application's JSON, or the error of the reader. -/
def readAppCompose (text : String) : Except VerificationError AppCompose :=
  (env.parseAppCompose text).mapError .appComposeParsing

def verifyAppCompose (tcbInfo : TcbInfo) : Except VerificationError Unit := do
  let appCompose ← readAppCompose env tcbInfo.appCompose
  require (validateAppComposeConfig appCompose)
    (VerificationError.invalidAppComposeConfig tcbInfo.appCompose)
  let e ← tcbInfo.getSingleEvent composeHashEvent
  compareHexHashes "app_compose_event_hash" e.eventPayload (Hex.encode tcbInfo.composeHash.toList)
  validateAppComposePayload env e.eventPayload tcbInfo.appCompose

def DstackAttestation.verify (attestation : DstackAttestation Collateral)
    (expectedReportData : Bytes 64) (timestampSeconds : UInt64)
    (acceptedMeasurements : List ExpectedMeasurements) : Except VerificationError Unit := do
  let report ← (env.dcapVerify attestation.quote attestation.collateral timestampSeconds).mapError
    VerificationError.dcapVerification
  let reportData ← found VerificationError.reportNotTd10 report.asTd10
  verifyTcbStatus report
  verifyReportData expectedReportData reportData
  verifyRtmr3 env reportData attestation.tcbInfo
  verifyAppCompose env attestation.tcbInfo
  verifyAnyMeasurements reportData attestation.tcbInfo acceptedMeasurements

end MpcNetwork.Tee
