import MpcNetwork.Contract.Requests
import MpcNetwork.Node.Assets.Storage
import MpcNetwork.Node.Network.Outsiders
import MpcNetwork.Threshold.RobustEcdsa

/-! # What the two ECDSA providers share

A provider keeps a key share and a presignature store for each domain.  Signing is the same
for both schemes up to the checks the library makes on its arguments: the participants are
those of the channel, and the list of them is unwrapped before the library has looked at it.
The curve and the protocols of the library are parameters.
-/

namespace MpcNetwork.Node.Providers

open Assets BigEndian Fallible Jobs Jobs.Job Network Threshold
open Threshold.RobustEcdsa (Scalar secp256k1Order)

/-- The scalar with these 32 big-endian bytes, if they are below the order. -/
def scalarFromRepr (bytes : List UInt8) : Option Scalar :=
  if below : ofBeBytes bytes < secp256k1Order then some ⟨⟨ofBeBytes bytes, below⟩⟩ else none

structure RerandomizationArguments (VerifyingKey : Type) where
  publicKey : VerifyingKey
  tweak : Scalar
  msgHash : List UInt8
  participants : ParticipantList
  entropy : List UInt8

structure Scheme where
  VerifyingKey : Type
  KeygenOutput : Type
  PresignOutput : Type
  RerandomizedPresignOutput : Type
  SignatureOption : Type
  PresignState : Type
  SignState : Type
  publicKey : KeygenOutput → VerifyingKey
  deriveVerifyingKey : Scalar → VerifyingKey → VerifyingKey
  presigning : Protocol PresignState PresignOutput
  signing : Protocol SignState SignatureOption
  rerandomizePresign : PresignOutput → RerandomizationArguments VerifyingKey →
    Except ProtocolError RerandomizedPresignOutput
  doSign : ParticipantList → (coordinator me : Participant) → VerifyingKey →
    RerandomizedPresignOutput → Scalar → SignState
  parties_doSign : ∀ {l coordinator me key presignature msgHash},
    signing.parties (doSign l coordinator me key presignature msgHash) = l.participants

structure PresignOutputWithParticipants (scheme : Scheme) where
  presignature : scheme.PresignOutput
  participants : List ParticipantId

structure PerDomainData (scheme : Scheme) where
  keyshare : scheme.KeygenOutput
  presignatureStore : DistributedAssetStorage (PresignOutputWithParticipants scheme)

/-- The stores of a provider; a scheme without triples has no use for the second field. -/
structure Stores (scheme : Scheme) (TripleStore : Type) where
  perDomainData : Table DomainId (PerDomainData scheme)
  tripleStore : TripleStore

/-- The parts of an indexed request that a signer reads. -/
structure SignatureRequest where
  payload : Contract.Payload
  tweak : Contract.Tweak
  entropy : List UInt8
  domain : DomainId

/-- The channel's participants as the library names them. -/
def csParticipants (channel : NetworkTaskChannel) : List Participant :=
  channel.participants.map ParticipantId.participant

section Stores

variable {scheme : Scheme} {X : Type}

def domainData (domainId : DomainId) : Task (Stores scheme X) (PerDomainData scheme) := do
  let data ← read fun s => s.stores.perDomainData.lookup domainId
  ofExcept (found (.noKeyshare domainId) data)

def putDomainData (domainId : DomainId) (data : PerDomainData scheme) :
    Task (Stores scheme X) Unit :=
  update fun s => { s with
    stores := { s.stores with perDomainData := s.stores.perDomainData.insert domainId data } }

def takePresignature (domainId : DomainId) (id : UniqueId) :
    Task (Stores scheme X) scheme.PresignOutput := do
  let data ← domainData domainId
  let (store, value) ← ofExcept
    ((data.presignatureStore.takeUnowned id).mapError fun _ => .unownedNotFound id)
  putDomainData domainId { data with presignatureStore := store }
  pure value.presignature

def addPresignature (channel : NetworkTaskChannel) (domainId : DomainId) (id : UniqueId)
    (presignature : scheme.PresignOutput) : Task (Stores scheme X) Unit := do
  let data ← domainData domainId
  let store := data.presignatureStore.addUnowned id ⟨presignature, channel.participants⟩
  putDomainData domainId { data with presignatureStore := store }

end Stores

section Signing

variable (scheme : Scheme) {X : Type} (transport : Transport) (channel : NetworkTaskChannel)

/-- The library's checks, given the participants, the coordinator, this node and the hash. -/
abbrev SignChecks := List Participant → Participant → Participant → Scalar →
  Except InitializationError ParticipantList

def signComputation (sign : SignChecks) (keygenOut : scheme.KeygenOutput)
    (presignOut : scheme.PresignOutput) (msgHash : List UInt8) (request : SignatureRequest) :
    Task (Stores scheme X) (scheme.SignatureOption × scheme.VerifyingKey) := do
  let noPoint := Error.anyhow "Couldn't construct k256 point"
  let tweak ← ofExcept (found noPoint (scalarFromRepr request.tweak.bytes))
  let msgHashScalar ← ofExcept (found noPoint (scalarFromRepr msgHash))
  let publicKey := scheme.publicKey keygenOut
  let derivedPublicKey := scheme.deriveVerifyingKey tweak publicKey
  let participants ← unwrap (ParticipantList.new (csParticipants channel))
  let rerandomizedPresignature ← ofExcept
    ((scheme.rerandomizePresign presignOut
      ⟨publicKey, tweak, msgHash, participants, request.entropy⟩).mapError .protocol)
  let leader := channel.leader.participant
  let me := channel.myParticipantId.participant
  let participants ← ofExcept
    ((sign (csParticipants channel) leader me msgHashScalar).mapError .initialization)
  let signature ← channel.runProtocol transport scheme.signing
    (scheme.doSign participants leader me derivedPublicKey rerandomizedPresignature msgHashScalar)
  pure (signature, derivedPublicKey)

/-- A follower looks the presignature up first, which may fail. -/
def followerSignComputation (sign : SignChecks) (keygenOut : scheme.KeygenOutput)
    (presignatureId : UniqueId) (msgHash : List UInt8) (request : SignatureRequest) :
    Task (Stores scheme X) Unit := do
  let presignOut ← takePresignature request.domain presignatureId
  let _ ← signComputation scheme transport channel sign keygenOut presignOut msgHash request
  pure ()

end Signing

section Computes

variable {scheme : Scheme} {X : Type} {channel : NetworkTaskChannel}

theorem computes_domainData :
    channel.Computes transport
      (domainData domainId : Task (Stores scheme X) (PerDomainData scheme)) :=
  .bind (.read fun stores : Stores scheme X => stores.perDomainData.lookup domainId) fun _ => .ofExcept _

theorem computes_putDomainData :
    channel.Computes transport (putDomainData domainId data : Task (Stores scheme X) Unit) :=
  .update fun stores : Stores scheme X =>
    { stores with perDomainData := stores.perDomainData.insert domainId data }

theorem computes_addPresignature {id : UniqueId} :
    channel.Computes transport
      (addPresignature channel domainId id presignature : Task (Stores scheme X) Unit) :=
  computes_domainData.bind fun _ => computes_putDomainData

theorem computes_followerSignComputation :
    channel.Computes transport (followerSignComputation scheme transport channel sign keygenOut
      presignatureId msgHash request : Task (Stores scheme X) Unit) := by
  have taking : channel.Computes transport (takePresignature request.domain presignatureId :
      Task (Stores scheme X) scheme.PresignOutput) := by
    refine computes_domainData.bind fun data => ?_
    refine .bind (.ofExcept _) fun taken => ?_
    exact computes_putDomainData.bind fun _ => .pure _
  refine taking.bind fun presignOut => ?_
  refine .bind ?_ fun _ => .pure ()
  refine .bind (.ofExcept _) fun tweak => ?_
  refine .bind (.ofExcept _) fun hash => ?_
  refine .bind (.unwrap _) fun participants => ?_
  refine .bind (.ofExcept _) fun presignature => ?_
  refine .bind (.ofExcept _) fun participants => ?_
  exact .bind (.runProtocol _ _) fun signature => .pure _

end Computes

/-- The presignature with this id is in the store of the domain. -/
def PerDomainData.holds {scheme : Scheme} (data : PerDomainData scheme) (id : UniqueId) : Prop :=
  ∃ value, data.presignatureStore.db.get (data.presignatureStore.key id) = some value

/-- Connections, the request, the key share, the presignature, and scalars in range. -/
def SignReady {scheme : Scheme} {X : Type}
    (signRequestStore : RequestHash → Except Error SignatureRequest) (transport : Transport)
    (channel : NetworkTaskChannel) (state : TaskState (Stores scheme X)) (id : RequestHash)
    (presignatureId : UniqueId) : Prop :=
  channel.Connected transport ∧
    ∃ request data msgHash, signRequestStore id = .ok request ∧
      state.stores.perDomainData.lookup request.domain = some data ∧
      request.payload.asEcdsa = some msgHash ∧ data.holds presignatureId ∧
      (∃ tweak, scalarFromRepr request.tweak.bytes = some tweak) ∧
      ∃ hash, scalarFromRepr msgHash = some hash

section Panics

variable {scheme : Scheme} {X : Type} {channel : NetworkTaskChannel}

theorem nodup_csParticipants : (csParticipants channel).Nodup ↔ channel.participants.Nodup := by
  refine List.nodup_map_iff ?_
  intro a b same
  cases a
  cases b
  cases same
  rfl

variable {T : Type}

theorem among_new {σ : Type} {protocol : Protocol σ T} {s : σ}
    (made : ParticipantList.new (csParticipants channel) = some l)
    (parties : protocol.parties s = l.participants) :
    Protocol.Among protocol channel.participants s := by
  intro participant party
  rw [parties, ParticipantList.mem_of_new made] at party
  obtain ⟨id, listed, rfl⟩ := List.mem_map.mp party
  exact listed

variable {state : TaskState (Stores scheme X)}

theorem panics_signComputation_iff {sign : SignChecks} {keygenOut : scheme.KeygenOutput}
    {msgHash : List UInt8}
    (wired : channel.Wired transport.transportSender) (members : channel.FromMembers state)
    (listed : ∀ {coordinator me hash l}, sign (csParticipants channel) coordinator me hash = .ok l →
      ParticipantList.new (csParticipants channel) = some l) :
    (signComputation scheme transport channel sign keygenOut presignOut msgHash request).Panics
        state ↔
      (∃ tweak, scalarFromRepr request.tweak.bytes = some tweak) ∧
        (∃ hash, scalarFromRepr msgHash = some hash) ∧ ¬ channel.participants.Nodup := by
  have rest : ∀ {tweak hash rerandomized l}
      (_ : sign (csParticipants channel) channel.leader.participant
        channel.myParticipantId.participant hash = .ok l),
      ¬ (channel.runProtocol transport scheme.signing (scheme.doSign l channel.leader.participant
        channel.myParticipantId.participant
        (scheme.deriveVerifyingKey tweak (scheme.publicKey keygenOut)) rerandomized hash)).Panics
          state := by
    intro tweak hash rerandomized l checked
    refine (NetworkTaskChannel.safe_runProtocol wired ?_ state members).1
    exact among_new (listed checked) scheme.parties_doSign
  unfold signComputation
  simp only [panics_ofExcept_bind, found_eq_ok, mapError_eq_ok, panics_unwrap_bind,
    ParticipantList.new_eq_none_iff, nodup_csParticipants]
  constructor
  · rintro ⟨tweak, tweaked, hash, hashed, repeated | ⟨_, _, _, _, _, checked, panics⟩⟩
    · exact ⟨⟨tweak, tweaked⟩, ⟨hash, hashed⟩, repeated⟩
    · rw [panics_bind_iff] at panics
      rcases panics with panics | ⟨_, _, _, panics⟩
      · exact absurd panics (rest checked)
      · exact absurd panics not_panics_pure
  · rintro ⟨⟨tweak, tweaked⟩, ⟨hash, hashed⟩, repeated⟩
    exact ⟨tweak, tweaked, hash, hashed, Or.inl repeated⟩

variable {domainId : DomainId}

theorem panics_domainData_bind :
    (domainData domainId >>= next).Panics state ↔
      ∃ data, state.stores.perDomainData.lookup domainId = some data ∧ (next data).Panics state := by
  simp [domainData, panics_bind_iff, bind_eq_ok]

variable {id : UniqueId}

theorem safe_addPresignature :
    Safe (fun _ : TaskState (Stores scheme X) => True)
      (addPresignature channel domainId id presignature) fun _ _ => True := by
  have looked : Safe (fun _ : TaskState (Stores scheme X) => True) (domainData domainId)
      fun _ _ => True :=
    safe_read.bind fun _ => safe_ofExcept.weaken (fun _ _ => trivial) fun _ _ _ => trivial
  refine looked.bind ?_
  intro data
  exact safe_update fun _ _ => trivial

theorem not_panics_takePresignature :
    ¬ (takePresignature domainId id : Task (Stores scheme X) _).Panics state := by
  unfold takePresignature
  rw [panics_domainData_bind]
  rintro ⟨data, _, panics⟩
  rw [panics_ofExcept_bind] at panics
  obtain ⟨⟨store, value⟩, _, panics⟩ := panics
  simp [putDomainData, panics_update_bind] at panics

theorem exists_takePresignature_iff :
    (∃ presignature after, takePresignature domainId id state = (.ok presignature, after)) ↔
      ∃ data, state.stores.perDomainData.lookup domainId = some data ∧ data.holds id := by
  simp only [takePresignature, domainData, putDomainData, bind_eq_ok, read_eq_ok, ofExcept_eq_ok,
    found_eq_ok, mapError_eq_ok, update_eq_ok, pure_eq_ok, PerDomainData.holds]
  constructor
  · rintro ⟨_, _, data, _, ⟨_, _, ⟨rfl, rfl⟩, there, rfl⟩, ⟨store, value⟩, _, ⟨taken, rfl⟩, _⟩
    exact ⟨data, there, value, (DistributedAssetStorage.takeUnowned_eq_ok.mp taken).1⟩
  · rintro ⟨data, there, value, stored⟩
    have taken := DistributedAssetStorage.takeUnowned_eq_ok.mpr ⟨stored, rfl⟩
    exact ⟨_, _, data, state, ⟨_, state, ⟨rfl, rfl⟩, there, rfl⟩, (_, value), state, ⟨taken, rfl⟩,
      (), _, rfl, rfl, rfl⟩

theorem keeps_takePresignature :
    Keeps TaskState.incoming (takePresignature domainId id : Task (Stores scheme X) _) := by
  have looked : Keeps TaskState.incoming (domainData domainId : Task (Stores scheme X) _) :=
    keeps_read.bind fun _ => keeps_ofExcept
  refine looked.bind ?_
  intro data
  refine keeps_ofExcept.bind ?_
  intro taken
  refine Keeps.bind ?_ fun _ => keeps_pure
  exact keeps_update fun _ => rfl

theorem panics_followerSignComputation_iff (wired : channel.Wired transport.transportSender)
    (members : channel.FromMembers state)
    (listed : ∀ {coordinator me hash l}, sign (csParticipants channel) coordinator me hash = .ok l →
      ParticipantList.new (csParticipants channel) = some l) :
    (followerSignComputation scheme transport channel sign keygenOut presignatureId msgHash
        request).Panics state ↔
      (∃ data, state.stores.perDomainData.lookup request.domain = some data ∧
        data.holds presignatureId) ∧
      (∃ tweak, scalarFromRepr request.tweak.bytes = some tweak) ∧
      (∃ hash, scalarFromRepr msgHash = some hash) ∧ ¬ channel.participants.Nodup := by
  unfold followerSignComputation
  rw [panics_bind_iff, ← exists_takePresignature_iff]
  have signing : ∀ {presignOut after},
      takePresignature request.domain presignatureId state = (.ok presignOut, after) →
        channel.FromMembers after := by
    intro presignOut after taken
    have same := keeps_takePresignature.after taken
    intro sender channelId data later
    exact members sender channelId data (same ▸ later)
  constructor
  · rintro (panics | ⟨presignOut, after, taken, panics⟩)
    · exact absurd panics not_panics_takePresignature
    · rw [panics_bind_iff] at panics
      rcases panics with panics | ⟨_, _, _, panics⟩
      · exact ⟨⟨presignOut, after, taken⟩,
          (panics_signComputation_iff wired (signing taken) listed).mp panics⟩
      · exact absurd panics not_panics_pure
  · rintro ⟨⟨presignOut, after, taken⟩, ready⟩
    refine Or.inr ⟨presignOut, after, taken, ?_⟩
    rw [panics_bind_iff]
    exact Or.inl ((panics_signComputation_iff wired (signing taken) listed).mpr ready)

end Panics

end MpcNetwork.Node.Providers
