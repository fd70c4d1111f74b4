import MpcNetwork.Tee.Verify

/-! # What the measured register says about an attestation

The third runtime register of a quote is a hash chain over the digests of the logged events,
so two logs that replay into the same register have the same digests.  A digest is taken of
the event's name, a colon and the payload, with nothing to say where the name ends.  The same
digest is therefore also that of an event whose name goes on after a colon, and a log can be
rewritten into another one with other events under the names that are looked up.
-/

namespace MpcNetwork.Tee

open Fallible HashChains List

variable {Collateral : Type} (env : Externals Collateral)

def TcbInfo.measured (tcbInfo : TcbInfo) : List EventLog :=
  tcbInfo.eventLog.filter fun e => e.imr == rtmr3Index

/-- The payload reads as these bytes, and the digest is that of the event. -/
structure EventLog.Digested (e : EventLog) (payload : List UInt8) : Prop where
  eventType : e.eventType = dstackEventType
  decoded : Hex.decode e.eventPayload = .ok payload
  digest : e.digest = eventDigest env dstackEventType e.event payload

/-- A register holds the chain over the digests of a log. -/
structure Measures (tcbInfo : TcbInfo) (register : Bytes 48) : Prop where
  events : ∀ e ∈ tcbInfo.measured, ∃ payload, e.Digested env payload
  chained : chain (extendRegister env) startRegister (tcbInfo.measured.map EventLog.digest) =
    register

variable {env}

variable {name : String}

@[simp] theorem compareHashes_eq_ok : compareHashes name a b = .ok u ↔ a = b :=
  require_eq_ok

variable {register : Bytes 48} {e : EventLog}

theorem replayEvent_ok (replayed : replayEvent env register e = .ok register') :
    (∃ payload, e.Digested env payload) ∧ register' = extendRegister env register e.digest := by
  simp only [replayEvent, bind_ok_iff, require_eq_ok] at replayed
  obtain ⟨_, typed, rest⟩ := replayed
  split at rest
  · cases rest
  · rename_i payload decoded
    simp only [bind_ok_iff, compareHashes_eq_ok, Except.ok.injEq] at rest
    obtain ⟨_, digest, rfl⟩ := rest
    exact ⟨⟨payload, typed, decoded, Vector.eq _ _ (typed ▸ digest)⟩, rfl⟩

theorem replay_ok {events : List EventLog}
    (replayed : events.foldlM (replayEvent env) register = .ok last) :
    (∀ e ∈ events, ∃ payload, e.Digested env payload) ∧
      chain (extendRegister env) register (events.map EventLog.digest) = last := by
  induction events generalizing register with
  | nil =>
    simp only [foldlM_nil, pure_ok_iff] at replayed
    exact ⟨fun _ absent => absurd absent not_mem_nil, replayed⟩
  | cons e events ih =>
    simp only [foldlM_cons, bind_ok_iff] at replayed
    obtain ⟨next, first, rest⟩ := replayed
    obtain ⟨digested, rfl⟩ := replayEvent_ok first
    obtain ⟨others, chained⟩ := ih rest
    exact ⟨forall_mem_cons.mpr ⟨digested, others⟩, chained⟩

variable {tcbInfo : TcbInfo}

theorem verifyEventLogRtmr3_ok
    (verified : verifyEventLogRtmr3 env tcbInfo.eventLog register = .ok u) :
    Measures env tcbInfo register := by
  simp only [verifyEventLogRtmr3, bind_ok_iff, compareHashes_eq_ok] at verified
  obtain ⟨last, replayed, same⟩ := verified
  obtain ⟨events, chained⟩ := replay_ok replayed
  exact ⟨events, chained.trans (Vector.eq _ _ same)⟩

structure TcbInfo.Single (tcbInfo : TcbInfo) (name : String) (e : EventLog) : Prop where
  measured : e ∈ tcbInfo.measured
  named : e.event = name
  only : ∀ e' ∈ tcbInfo.measured, e'.event = name → e' = e

theorem getSingleEvent_ok (single : tcbInfo.getSingleEvent name = .ok e) :
    tcbInfo.Single name e := by
  simp only [TcbInfo.getSingleEvent] at single
  split at single
  · cases single
  · rename_i e' filtered
    cases single
    have member : ∀ e', e' ∈ tcbInfo.measured ∧ e'.event = name ↔ e' = e := fun e' => by
      have inside := mem_singleton (a := e') (b := e)
      rw [← filtered] at inside
      simpa [TcbInfo.measured, and_assoc, and_comm] using inside
    obtain ⟨measured, named⟩ := (member e).mpr rfl
    exact ⟨measured, named, fun e' inside same => (member e').mp ⟨inside, same⟩⟩
  · cases single

theorem verifyAppCompose_ok (verified : verifyAppCompose env tcbInfo = .ok u) :
    tcbInfo.composeHash = env.sha256 (Hex.utf8 tcbInfo.appCompose) ∧
      ∃ e, tcbInfo.getSingleEvent composeHashEvent = .ok e ∧
        Hex.decode e.eventPayload = .ok tcbInfo.composeHash.toList := by
  simp only [verifyAppCompose, bind_ok_iff, compareHexHashes, require_eq_ok] at verified
  obtain ⟨_, _, _, _, e, single, _, sameText, payload⟩ := verified
  have decoded : Hex.decode e.eventPayload = .ok tcbInfo.composeHash.toList :=
    sameText ▸ Hex.decode_encode _
  simp only [validateAppComposePayload, decoded, bind_ok_iff, compareHashes_eq_ok] at payload
  obtain ⟨_, _, same⟩ := payload
  exact ⟨Vector.eq _ _ same.symm, e, single, decoded⟩

/-- The digests that extend the register, each with the value it extends. -/
def TcbInfo.links (env : Externals Collateral) (tcbInfo : TcbInfo) : List (Bytes 48 × Bytes 48) :=
  HashChains.links (extendRegister env) startRegister (tcbInfo.measured.map EventLog.digest)

/-- Everything that is hashed with SHA-384 to verify the log. -/
def TcbInfo.sha384Inputs (env : Externals Collateral) (tcbInfo : TcbInfo) : List (List UInt8) :=
  tcbInfo.measured.filterMap (fun e =>
      (Hex.decode e.eventPayload).toOption.map (eventPreimage e.eventType e.event)) ++
    (tcbInfo.links env).map fun link => link.1.toList ++ link.2.toList

/-- Everything that is hashed with SHA-256: the application's JSON and its compose file. -/
def TcbInfo.sha256Inputs (env : Externals Collateral) (tcbInfo : TcbInfo) : List (List UInt8) :=
  Hex.utf8 tcbInfo.appCompose ::
    (env.parseAppCompose tcbInfo.appCompose).toOption.toList.map fun appCompose =>
      Hex.utf8 appCompose.dockerComposeFile

/-- No two hashed inputs collide, and no value of the chains is the one they start from. -/
structure CollisionFree (env : Externals Collateral) (s t : TcbInfo) : Prop where
  sha256 : Set.InjOn env.sha256
    {input | input ∈ s.sha256Inputs env ∨ input ∈ t.sha256Inputs env}
  sha384 : Set.InjOn env.sha384
    {input | input ∈ s.sha384Inputs env ∨ input ∈ t.sha384Inputs env}
  nonzero : ∀ link, link ∈ s.links env ∨ link ∈ t.links env →
    extendRegister env link.1 link.2 ≠ startRegister

variable {s t : TcbInfo}

theorem CollisionFree.symm (hashing : CollisionFree env s t) :
    CollisionFree env t s where
  sha256 := hashing.sha256.mono fun _ => Or.symm
  sha384 := hashing.sha384.mono fun _ => Or.symm
  nonzero link used := hashing.nonzero link used.symm

theorem mem_sha384Inputs_of_link (used : link ∈ tcbInfo.links env) :
    link.1.toList ++ link.2.toList ∈ tcbInfo.sha384Inputs env :=
  mem_append_right _ (mem_map_of_mem used)

variable {payload : List UInt8}

theorem mem_sha384Inputs_of_event (measured : e ∈ tcbInfo.measured)
    (digested : e.Digested env payload) :
    eventPreimage dstackEventType e.event payload ∈ tcbInfo.sha384Inputs env := by
  refine mem_append_left _ (mem_filterMap.mpr ⟨e, measured, ?_⟩)
  simp only [digested.decoded, digested.eventType, Except.toOption, Option.map_some]

/-- The two chains meet no collision: a pair of digests can be told from its bytes. -/
theorem CollisionFree.sound (hashing : CollisionFree env s t) :
    Sound (extendRegister env) startRegister (s.measured.map EventLog.digest)
      (t.measured.map EventLog.digest) where
  collisionFree := fun link used link' used' same => by
    have bytes := hashing.sha384 (used.imp mem_sha384Inputs_of_link mem_sha384Inputs_of_link)
      (used'.imp mem_sha384Inputs_of_link mem_sha384Inputs_of_link) same
    obtain ⟨register, digest⟩ := append_inj bytes (by simp)
    exact Prod.ext (Vector.eq _ _ register) (Vector.eq _ _ digest)
  fresh := hashing.nonzero

theorem digests_eq (hashing : CollisionFree env s t) (measures : Measures env s register)
    (measures' : Measures env t register) :
    s.measured.map EventLog.digest = t.measured.map EventLog.digest :=
  items_eq_of_chain_eq hashing.sound (measures.chained.trans measures'.chained.symm)

/-- The event's name goes on after this name and a colon. -/
def EventLog.Prolongs (e : EventLog) (name : String) : Prop :=
  Hex.utf8 (name ++ ":") <+: Hex.utf8 e.event

instance (e : EventLog) (name : String) : Decidable (e.Prolongs name) :=
  inferInstanceAs (Decidable (_ <+: _))

def TcbInfo.Plain (tcbInfo : TcbInfo) (name : String) : Prop :=
  ∀ e ∈ tcbInfo.measured, ¬e.Prolongs name

instance (tcbInfo : TcbInfo) (name : String) : Decidable (tcbInfo.Plain name) :=
  inferInstanceAs (Decidable (∀ e ∈ tcbInfo.measured, ¬e.Prolongs name))

/-- The preimage of an event of a plain name has only one reading in a plain log. -/
theorem payload_eq_of_preimage_eq (clean : 58 ∉ Hex.utf8 name) (plain : tcbInfo.Plain name)
    (measured : e ∈ tcbInfo.measured) (same : eventPreimage dstackEventType name payload =
      eventPreimage dstackEventType e.event payload') : e.event = name ∧ payload' = payload := by
  simp only [eventPreimage, append_assoc, append_cancel_left_eq, cons_append,
    cons.injEq, true_and] at same
  rcases delimited_readings clean same with ⟨sameName, samePayload⟩ | longer
  · exact ⟨Hex.utf8_injective sameName, samePayload⟩
  · rw [show [58] = Hex.utf8 ":" from rfl, ← Hex.utf8_append] at longer
    exact absurd longer (plain e measured)

/-- Two logs of one register agree on a name that no event of one of them prolongs. -/
theorem payload_eq_of_plain (hashing : CollisionFree env s t) (measures : Measures env s register)
    (measures' : Measures env t register) (clean : 58 ∉ Hex.utf8 name) (plain : t.Plain name)
    (single : s.Single name e) (decoded : Hex.decode e.eventPayload = .ok payload)
    (single' : t.Single name e') (decoded' : Hex.decode e'.eventPayload = .ok payload') :
    payload' = payload := by
  have inside : e.digest ∈ t.measured.map EventLog.digest :=
    digests_eq hashing measures measures' ▸ mem_map_of_mem single.measured
  obtain ⟨other, measured, sameDigest⟩ := mem_map.mp inside
  obtain ⟨p, digested⟩ := measures.events e single.measured
  obtain ⟨p', digested'⟩ := measures'.events other measured
  have samePreimage := hashing.sha384 (.inl (mem_sha384Inputs_of_event single.measured digested))
    (.inr (mem_sha384Inputs_of_event measured digested'))
    (digested.digest.symm.trans (sameDigest.symm.trans digested'.digest))
  rw [single.named] at samePreimage
  obtain ⟨named, rfl⟩ := payload_eq_of_preimage_eq clean plain measured samePreimage
  obtain rfl := single'.only other measured named
  have first := digested.decoded.symm.trans decoded
  have second := digested'.decoded.symm.trans decoded'
  exact Except.ok.inj (second.symm.trans first)

/-- One of the two logs has no event whose name prolongs the given one. -/
def ReadOneWay (name : String) (s t : TcbInfo) : Prop := s.Plain name ∨ t.Plain name

instance (name : String) (s t : TcbInfo) : Decidable (ReadOneWay name s t) :=
  inferInstanceAs (Decidable (_ ∨ _))

theorem payload_eq (hashing : CollisionFree env s t) (measures : Measures env s register)
    (measures' : Measures env t register) (clean : 58 ∉ Hex.utf8 name)
    (oneWay : ReadOneWay name s t) (single : s.Single name e)
    (decoded : Hex.decode e.eventPayload = .ok payload) (single' : t.Single name e')
    (decoded' : Hex.decode e'.eventPayload = .ok payload') : payload = payload' := by
  rcases oneWay with plain | plain
  · exact payload_eq_of_plain hashing.symm measures' measures clean plain single' decoded'
      single decoded
  · exact (payload_eq_of_plain hashing measures measures' clean plain single decoded
      single' decoded').symm

structure Check where
  expectedReportData : Bytes 64
  currentTimestampSeconds : UInt64
  allowedMpcDockerImageHashes : List MpcDockerImageHash
  allowedLauncherDockerComposeHashes : List LauncherDockerComposeHash
  acceptedMeasurements : List ExpectedMeasurements

/-- The attestation is accepted, with what is stored of it. -/
def Accepts (env : Externals Collateral) (check : Check)
    (attestation : DstackAttestation Collateral) (v : ValidatedDstackAttestation) : Prop :=
  (Attestation.dstack attestation).verify env check.expectedReportData
    check.currentTimestampSeconds check.allowedMpcDockerImageHashes
    check.allowedLauncherDockerComposeHashes check.acceptedMeasurements = some (.ok (.dstack v))

instance (env : Externals Collateral) (check : Check)
    (attestation : DstackAttestation Collateral) (v : ValidatedDstackAttestation) :
    Decidable (Accepts env check attestation v) :=
  inferInstanceAs (Decidable (_ = _))

def DstackAttestation.rtMr3 (env : Externals Collateral) (timestampSeconds : UInt64)
    (attestation : DstackAttestation Collateral) : Option (Bytes 48) := do
  let report ← (env.dcapVerify attestation.quote attestation.collateral timestampSeconds).toOption
  return (← report.asTd10).rtMr3

/-- The log in a register names the image, and the application's JSON with the launcher. -/
structure Vouches (env : Externals Collateral) (tcbInfo : TcbInfo) (register : Bytes 48)
    (v : ValidatedDstackAttestation) : Prop where
  measures : Measures env tcbInfo register
  image : ∃ e, tcbInfo.Single mpcImageHashEvent e ∧
    Hex.decode e.eventPayload = .ok v.mpcImageHash.toList
  compose : ∃ e, tcbInfo.Single composeHashEvent e ∧
    Hex.decode e.eventPayload = .ok (env.sha256 (Hex.utf8 tcbInfo.appCompose)).toList
  launcher : extractLauncherComposeHash env tcbInfo = .ok v.launcherComposeHash

variable {v : ValidatedDstackAttestation}

theorem Accepts.vouches (accepted : Accepts env check attestation v) :
    ∃ register, attestation.rtMr3 env check.currentTimestampSeconds = some register ∧
      Vouches env attestation.tcbInfo register v := by
  obtain ⟨_, same, extracted, _, launcher, _, verified, _⟩ := verify_dstack_ok env accepted
  cases same
  simp only [DstackAttestation.verify, bind_ok_iff, mapError_eq_ok, found_eq_ok, verifyRtmr3]
    at verified
  obtain ⟨report, checked, td10, asTd10, _, _, _, _, _, ⟨_, _, replayed⟩, _, composed, _⟩ := verified
  obtain ⟨imageEvent, imageSingle, imageDecoded⟩ := extractMpcImageHash_ok extracted
  obtain ⟨composeHash, composeEvent, composeSingle, composeDecoded⟩ := verifyAppCompose_ok composed
  refine ⟨td10.rtMr3, ?_, verifyEventLogRtmr3_ok replayed,
    ⟨imageEvent, getSingleEvent_ok imageSingle, imageDecoded⟩,
    ⟨composeEvent, getSingleEvent_ok composeSingle, composeHash ▸ composeDecoded⟩, launcher⟩
  simp [DstackAttestation.rtMr3, checked, asTd10, Except.toOption]

theorem Vouches.image_eq (hashing : CollisionFree env s t) (vouches : Vouches env s register v)
    (vouches' : Vouches env t register w) (oneWay : ReadOneWay mpcImageHashEvent s t) :
    v.mpcImageHash = w.mpcImageHash := by
  obtain ⟨e, single, decoded⟩ := vouches.image
  obtain ⟨e', single', decoded'⟩ := vouches'.image
  exact Vector.eq _ _ (payload_eq hashing vouches.measures vouches'.measures
    (by decide +kernel) oneWay single decoded single' decoded')

theorem Vouches.launcher_eq (hashing : CollisionFree env s t) (vouches : Vouches env s register v)
    (vouches' : Vouches env t register w) (oneWay : ReadOneWay composeHashEvent s t) :
    v.launcherComposeHash = w.launcherComposeHash := by
  obtain ⟨e, single, decoded⟩ := vouches.compose
  obtain ⟨e', single', decoded'⟩ := vouches'.compose
  have sameHash := Vector.eq _ _ (payload_eq hashing vouches.measures vouches'.measures
    (by decide +kernel) oneWay single decoded single' decoded')
  have sameText : s.appCompose = t.appCompose := Hex.utf8_injective
    (hashing.sha256 (.inl mem_cons_self) (.inr mem_cons_self) sameHash)
  have launcher := vouches.launcher
  rw [extractLauncherComposeHash, sameText] at launcher
  exact Except.ok.inj (launcher.symm.trans vouches'.launcher)

/-- Two accepted attestations of one register name the same image and launcher, if each of the two
    looked-up names has only one reading. -/
theorem register_determines_hashes {a b : DstackAttestation Collateral} {checkA checkB : Check}
    {v w : ValidatedDstackAttestation} (hashing : CollisionFree env a.tcbInfo b.tcbInfo)
    (acceptedA : Accepts env checkA a v) (acceptedB : Accepts env checkB b w)
    (sameRegister : a.rtMr3 env checkA.currentTimestampSeconds =
      b.rtMr3 env checkB.currentTimestampSeconds)
    (image : ReadOneWay mpcImageHashEvent a.tcbInfo b.tcbInfo)
    (compose : ReadOneWay composeHashEvent a.tcbInfo b.tcbInfo) :
    v.mpcImageHash = w.mpcImageHash ∧ v.launcherComposeHash = w.launcherComposeHash := by
  obtain ⟨register, registerA, vouchesA⟩ := acceptedA.vouches
  obtain ⟨register', registerB, vouchesB⟩ := acceptedB.vouches
  have same : register = register' := Option.some.inj (by rw [← registerA, ← registerB, sameRegister])
  subst same
  exact ⟨vouchesA.image_eq hashing vouchesB image, vouchesA.launcher_eq hashing vouchesB compose⟩

/-! ## A log that can be read in two ways

The hashes below are the SHA-2 values of the inputs they stand for. -/

private def bytes32 (value : Nat) : Bytes 32 :=
  ⟨BigEndian.toBeBytes 32 value, BigEndian.length_toBeBytes 32 value⟩

private def bytes48 (value : Nat) : Bytes 48 :=
  ⟨BigEndian.toBeBytes 48 value, BigEndian.length_toBeBytes 48 value⟩

/-- Two image hashes that start with the byte of a colon. -/
private def firstImage : MpcDockerImageHash :=
  bytes32 0x3a11111111111111111111111111111111111111111111111111111111111111

private def secondImage : MpcDockerImageHash :=
  bytes32 0x3a22222222222222222222222222222222222222222222222222222222222222

private def composeText : String :=
  "\x7b\"manifest_version\":2,\"name\":\"\",\"runner\":\"docker-compose\"," ++
  "\"docker_compose_file\":\"\",\"kms_enabled\":false,\"gateway_enabled\":false," ++
  "\"public_logs\":true,\"public_sysinfo\":true,\"local_key_provider_enabled\":true," ++
  "\"allowed_envs\":[],\"no_instance_id\":true\x7d"

private def composeRecord : AppCompose :=
  ⟨2, "docker-compose", "", false, some false, true, true, true, [], true, none⟩

private def composeTextHash : Bytes 32 :=
  bytes32 0xf6ed2ef54fa511dc31e6bd4ac96321e2725b244914561e1664f10bf8b0fbad09

private def emptyFileHash : LauncherDockerComposeHash :=
  bytes32 0xe3b0c44298fc1c149afbf4c8996fb92427ae41e4649b934ca495991b7852b855

private def firstImageDigest : Bytes 48 := bytes48
  0x4f61d58294a55d9905f2720f07fc844e3b6cad7a2ac957fc6d9476bfd9c4ae1a108a84e3b6a7991004805286e6fbce78

private def secondImageDigest : Bytes 48 := bytes48
  0x4698124c17e77c263bd206bf77dfa0ef541a245611304f0497f396040855ae5f2c82d270911ae2cdcd0e638e392c7a86

private def composeDigest : Bytes 48 := bytes48
  0x4ddd66f92ee7e921895f00473bf62fe99eb0c4b2df106188fc210bc8d4a6e43908aaf77b151e427e0ca807645b690234

private def keyProviderDigest : Bytes 48 := bytes48
  0x8dbe91243c6400fc969bcd2b999045cd716f2c74facb4e46337da9e2a85d1d52f721ca6acaf26ca6d1d01835b8d852af

private def afterFirst : Bytes 48 := bytes48
  0x6933ed89f6df4ce1f7b4dc380a196a3e136f2e9b3efbcbbe5ff86a7f1fb1a1b061e643778262573bd08dd576bc2f2503

private def afterSecond : Bytes 48 := bytes48
  0x0d994f17919ef90507ae219168a29fbc2ab3c4090d16e0b702d28f80ffbafc50bfacdf57042679627092710f06057862

private def afterCompose : Bytes 48 := bytes48
  0x4e685a7e9ab6140fa2a12c9b5b59e2f464e01cfbce05fdf93414b7b8cb0f8b2935bdcc045ff513a5b680f56350a54e29

private def twoImagesRegister : Bytes 48 := bytes48
  0x41baddb3e0760dce9d4c8646109264edc52f2ac4ced7974157e105cce4458ac8ea297ae8fa8fd037839c90c0e83ecf06

private def afterFirstCompose : Bytes 48 := bytes48
  0xed22472b7a0f71d872d95cab5b7338d726a2da6844de85b8c3bd48a1c8feec970ba115c5924eb9d727e5518104c80b87

private def oneImageRegister : Bytes 48 := bytes48
  0x3c352eddfc19496a575e497d51d51c4ab41ed526f83dc46b717d2bbe511ab5cb983bb90b82147f3f4bc4104a64556c60

private def sha384Values : List (List UInt8 × Bytes 48) :=
  [(eventPreimage dstackEventType mpcImageHashEvent firstImage.toList, firstImageDigest),
   (eventPreimage dstackEventType mpcImageHashEvent secondImage.toList, secondImageDigest),
   (eventPreimage dstackEventType composeHashEvent composeTextHash.toList, composeDigest),
   (eventPreimage dstackEventType keyProviderEvent [], keyProviderDigest),
   (startRegister.toList ++ firstImageDigest.toList, afterFirst),
   (afterFirst.toList ++ secondImageDigest.toList, afterSecond),
   (afterSecond.toList ++ composeDigest.toList, afterCompose),
   (afterCompose.toList ++ keyProviderDigest.toList, twoImagesRegister),
   (afterFirst.toList ++ composeDigest.toList, afterFirstCompose),
   (afterFirstCompose.toList ++ keyProviderDigest.toList, oneImageRegister)]

private def sha256Values : List (List UInt8 × Bytes 32) :=
  [(Hex.utf8 composeText, composeTextHash), (Hex.utf8 "", emptyFileHash)]

/-- A quote is its register, on a platform that is up to date. -/
private def recordedExternals : Externals Unit where
  sha256 input := (sha256Values.lookup input).getD (bytes32 1)
  sha384 input := (sha384Values.lookup input).getD (bytes48 1)
  dcapVerify quote _ _ := .ok ⟨"UpToDate", [], some ⟨bytes48 0, bytes48 0, bytes48 0, bytes48 0,
    if quote = twoImagesRegister.toList then twoImagesRegister else oneImageRegister,
    List.Vector.replicate 64 0⟩⟩
  parseAppCompose text :=
    if text = composeText then .ok composeRecord else .error "expected value at line 1 column 1"

/-- Everything that is hashed for an attestation has its value above. -/
private structure Recorded (tcbInfo : TcbInfo) : Prop where
  sha256 : ∀ input ∈ tcbInfo.sha256Inputs recordedExternals, input ∈ sha256Values.map Prod.fst
  sha384 : ∀ input ∈ tcbInfo.sha384Inputs recordedExternals, input ∈ sha384Values.map Prod.fst

private theorem Recorded.collisionFree (first : Recorded s) (second : Recorded t) :
    CollisionFree recordedExternals s t := by
  have injective256 : ∀ x ∈ sha256Values.map Prod.fst, ∀ y ∈ sha256Values.map Prod.fst,
      recordedExternals.sha256 x = recordedExternals.sha256 y → x = y := by decide +kernel
  have injective384 : ∀ x ∈ sha384Values.map Prod.fst, ∀ y ∈ sha384Values.map Prod.fst,
      recordedExternals.sha384 x = recordedExternals.sha384 y → x = y := by decide +kernel
  have nonzero : ∀ x ∈ sha384Values.map Prod.fst, recordedExternals.sha384 x ≠ startRegister := by
    decide +kernel
  exact ⟨fun x used y used' => injective256 x (used.elim (first.sha256 x) (second.sha256 x)) y
      (used'.elim (first.sha256 y) (second.sha256 y)),
    fun x used y used' => injective384 x (used.elim (first.sha384 x) (second.sha384 x)) y
      (used'.elim (first.sha384 y) (second.sha384 y)),
    fun _ used => nonzero _ (used.elim (first.sha384 _ ∘ mem_sha384Inputs_of_link)
      (second.sha384 _ ∘ mem_sha384Inputs_of_link))⟩

private def logged (name payload : String) (digest : Bytes 48) : EventLog :=
  ⟨rtmr3Index, dstackEventType, digest, name, payload⟩

private def attested (register : Bytes 48) (images : List EventLog) : DstackAttestation Unit where
  quote := register.toList
  collateral := ()
  tcbInfo := ⟨bytes48 0, bytes48 0, bytes48 0, bytes48 0, register, composeTextHash, composeText,
    images ++ [logged composeHashEvent (Hex.encode composeTextHash.toList) composeDigest,
      logged keyProviderEvent "" keyProviderDigest]⟩

private def bothImagesAllowed : Check where
  expectedReportData := List.Vector.replicate 64 0
  currentTimestampSeconds := 1000
  allowedMpcDockerImageHashes := [firstImage, secondImage]
  allowedLauncherDockerComposeHashes := [emptyFileHash]
  acceptedMeasurements := [⟨⟨bytes48 0, bytes48 0, bytes48 0, bytes48 0⟩, keyProviderDigest⟩]

private def vouchedFor (image : MpcDockerImageHash) : ValidatedDstackAttestation :=
  ⟨image, emptyFileHash, 605800⟩

/-- The first image is logged under the name, the second one behind the name and a colon. -/
private def firstNamed : DstackAttestation Unit :=
  attested twoImagesRegister
    [logged mpcImageHashEvent (Hex.encode firstImage.toList) firstImageDigest,
     logged "mpc-image-digest:" (Hex.encode secondImage.tail.toList) secondImageDigest]

private def secondNamed : DstackAttestation Unit :=
  attested twoImagesRegister
    [logged "mpc-image-digest:" (Hex.encode firstImage.tail.toList) firstImageDigest,
     logged mpcImageHashEvent (Hex.encode secondImage.toList) secondImageDigest]

/-- One register, two accepted readings of its log, two images. -/
theorem one_register_two_images :
    CollisionFree recordedExternals firstNamed.tcbInfo secondNamed.tcbInfo ∧
      Accepts recordedExternals bothImagesAllowed firstNamed (vouchedFor firstImage) ∧
      Accepts recordedExternals bothImagesAllowed secondNamed (vouchedFor secondImage) ∧
      firstNamed.rtMr3 recordedExternals 1000 = secondNamed.rtMr3 recordedExternals 1000 ∧
      (vouchedFor firstImage).mpcImageHash ≠ (vouchedFor secondImage).mpcImageHash := by
  have first : Recorded firstNamed.tcbInfo := ⟨by decide +kernel, by decide +kernel⟩
  have second : Recorded secondNamed.tcbInfo := ⟨by decide +kernel, by decide +kernel⟩
  exact ⟨first.collisionFree second, by decide +kernel, by decide +kernel, by decide +kernel,
    by decide +kernel⟩

/-- The image's hash is logged in either case of the digits. -/
private def namedAs (payload : String) : DstackAttestation Unit :=
  attested oneImageRegister [logged mpcImageHashEvent payload firstImageDigest]

private def upperCase : DstackAttestation Unit :=
  namedAs "3A11111111111111111111111111111111111111111111111111111111111111"

private def lowerCase : DstackAttestation Unit := namedAs (Hex.encode firstImage.toList)

theorem register_determines_hashes_oneImage :
    CollisionFree recordedExternals upperCase.tcbInfo lowerCase.tcbInfo ∧
      ∃ v w : ValidatedDstackAttestation, Accepts recordedExternals bothImagesAllowed upperCase v ∧
        Accepts recordedExternals bothImagesAllowed lowerCase w ∧
        v.mpcImageHash = w.mpcImageHash ∧ v.launcherComposeHash = w.launcherComposeHash := by
  have first : Recorded upperCase.tcbInfo := ⟨by decide +kernel, by decide +kernel⟩
  have second : Recorded lowerCase.tcbInfo := ⟨by decide +kernel, by decide +kernel⟩
  have hashing := first.collisionFree second
  have upper : Accepts recordedExternals bothImagesAllowed upperCase (vouchedFor firstImage) := by
    decide +kernel
  have lower : Accepts recordedExternals bothImagesAllowed lowerCase (vouchedFor firstImage) := by
    decide +kernel
  exact ⟨hashing, _, _, upper, lower, register_determines_hashes hashing upper lower
    (by decide +kernel) (by decide +kernel) (by decide +kernel)⟩

end MpcNetwork.Tee
