import MpcNetwork.Node.Providers.Signing
import MpcNetwork.Threshold.OtBasedEcdsa

/-! # The ECDSA provider as a follower

What the node does with a channel that somebody else opened for an OT-based ECDSA task:
generate triples, presign, or sign.
-/

namespace MpcNetwork.Node.Providers

open Assets Fallible Jobs Jobs.Job Network Threshold
open Threshold.OtBasedEcdsa (ReconstructionLowerBound)

/-- The library's OT-based scheme.  A generation of `n` triples returns `n` triples. -/
structure OtBasedEcdsaScheme extends Scheme where
  TripleGenerationOutput : Type
  tripleThreshold : TripleGenerationOutput → ReconstructionLowerBound
  GenerationState : Type
  generating : Nat → Protocol GenerationState (List TripleGenerationOutput)
  doGenerationMany : (numTriples bufferCapacity : Nat) → ParticipantList → (me : Participant) →
    ReconstructionLowerBound → GenerationState
  doPresign : ParticipantList → (me : Participant) →
    (triple0 triple1 : TripleGenerationOutput) → KeygenOutput → ReconstructionLowerBound →
    PresignState
  length_generating : ∀ {n s t triples},
    (generating n).poke s = .ok (.returned triples, t) → triples.length = n
  parties_doGenerationMany : ∀ {n capacity l me threshold},
    (generating n).parties (doGenerationMany n capacity l me threshold) = l.participants
  parties_doPresign : ∀ {l me triple0 triple1 key threshold},
    presigning.parties (doPresign l me triple0 triple1 key threshold) = l.participants

abbrev OtBasedEcdsaScheme.PairedTriple (scheme : OtBasedEcdsaScheme) :=
  scheme.TripleGenerationOutput × scheme.TripleGenerationOutput

abbrev EcdsaStores (scheme : OtBasedEcdsaScheme) :=
  Stores scheme.toScheme (DistributedAssetStorage scheme.PairedTriple)

def supportedTripleGenerationBatchSize : Nat := 64

/-- What stays the same while the node runs. The request store gives up after the timeout. -/
structure EcdsaSignatureProvider where
  threshold : Nat
  signRequestStore : RequestHash → Except Error SignatureRequest

/-- The first with the second, the third with the fourth and so on. -/
def pairs {α : Type} : List α → List (α × α)
  | a :: b :: rest => (a, b) :: pairs rest
  | _ => []

section Computations

variable (scheme : OtBasedEcdsaScheme) (transport : Transport) (channel : NetworkTaskChannel)

def manyTripleGenerationComputation (n : Nat) (threshold : ReconstructionLowerBound) :
    Task (EcdsaStores scheme) (List scheme.PairedTriple) := do
  if n % 2 ≠ 0 then panic
  else do
    let me := channel.myParticipantId.participant
    let (capacity, participants) ← ofExcept
      ((OtBasedEcdsa.generateTripleMany n (csParticipants channel) threshold).mapError
        .initialization)
    let triples ← channel.runProtocol transport (scheme.generating n)
      (scheme.doGenerationMany n capacity participants me threshold)
    if triples.length ≠ n then panic else pure (pairs triples)

/-- A follower is done once the triples are in the store. -/
def followerManyTripleGenerationComputation (n : Nat) (threshold : ReconstructionLowerBound)
    (start : UniqueId) : Task (EcdsaStores scheme) Unit := do
  let triples ← manyTripleGenerationComputation scheme transport channel n threshold
  triples.zipIdx.forM fun triple => do
    let id ← ofExcept ((start.addToCounter (UInt32.ofNat triple.2)).mapError .anyhow)
    update fun s => { s with
      stores := { s.stores with tripleStore := s.stores.tripleStore.addUnowned id triple.1 } }

def takeTriples (id : UniqueId) : Task (EcdsaStores scheme) scheme.PairedTriple := do
  let store ← read fun s => s.stores.tripleStore
  let (store, triples) ← ofExcept ((store.takeUnowned id).mapError fun _ => .unownedNotFound id)
  update fun s => { s with stores := { s.stores with tripleStore := store } }
  pure triples

def presignComputation (threshold : ReconstructionLowerBound) (triples : scheme.PairedTriple)
    (keygenOut : scheme.KeygenOutput) : Task (EcdsaStores scheme) scheme.PresignOutput := do
  let me := channel.myParticipantId.participant
  let participants ← ofExcept
    ((OtBasedEcdsa.presign (csParticipants channel) me threshold
      (scheme.tripleThreshold triples.1) (scheme.tripleThreshold triples.2)).mapError
      .initialization)
  channel.runProtocol transport scheme.presigning
    (scheme.doPresign participants me triples.1 triples.2 keygenOut threshold)

/-- A follower reads the triples and is done once the presignature is stored. -/
def followerPresignComputation (threshold : ReconstructionLowerBound)
    (keygenOut : scheme.KeygenOutput) (pairedTripleId : UniqueId) (domainId : DomainId)
    (id : UniqueId) : Task (EcdsaStores scheme) Unit := do
  let triples ← takeTriples scheme pairedTripleId
  let presignature ← presignComputation scheme transport channel threshold triples keygenOut
  addPresignature channel domainId id presignature

end Computations

variable {id pairedTripleId : UniqueId} {domainId : DomainId}

variable {start : UniqueId}

section Computes

variable {scheme : OtBasedEcdsaScheme} {transport : Transport} {channel : NetworkTaskChannel}

theorem computes_followerManyTripleGenerationComputation :
    channel.Computes transport
      (followerManyTripleGenerationComputation scheme transport channel n threshold start) := by
  have generating : channel.Computes transport
      (manyTripleGenerationComputation scheme transport channel n threshold) := by
    unfold manyTripleGenerationComputation
    split
    · exact .panic
    · refine .bind (.ofExcept _) fun checked => ?_
      refine .bind (.runProtocol _ _) fun triples => ?_
      split
      · exact .panic
      · exact .pure _
  refine generating.bind fun triples => ?_
  refine .forM fun triple _ => ?_
  refine .bind (.ofExcept _) fun id => ?_
  exact .update fun stores : EcdsaStores scheme =>
    { stores with tripleStore := stores.tripleStore.addUnowned id triple.1 }

theorem computes_followerPresignComputation :
    channel.Computes transport (followerPresignComputation scheme transport channel threshold
      keygenOut pairedTripleId domainId id) := by
  have taking : channel.Computes transport (takeTriples scheme pairedTripleId) := by
    refine .bind (.read fun stores : EcdsaStores scheme => stores.tripleStore) fun store => ?_
    refine .bind (.ofExcept _) fun taken => ?_
    refine .bind (.update fun stores : EcdsaStores scheme =>
      { stores with tripleStore := taken.1 }) fun _ => ?_
    exact .pure _
  refine taking.bind fun triples => ?_
  refine .bind ?_ fun presignature => computes_addPresignature
  exact .bind (.ofExcept _) fun participants => .runProtocol _ _

end Computes

namespace EcdsaSignatureProvider

variable (scheme : OtBasedEcdsaScheme) (self : EcdsaSignatureProvider) (transport : Transport)
  (channel : NetworkTaskChannel)

def runTripleGenerationFollower (start : UniqueId) (count : UInt32) :
    Task (EcdsaStores scheme) Unit :=
  if count.toNat ≠ supportedTripleGenerationBatchSize then
    fail (.anyhow "Unsupported batch size for triple generation")
  else
    channel.performLeaderCentricComputation transport
      (followerManyTripleGenerationComputation scheme transport channel
        supportedTripleGenerationBatchSize ⟨self.threshold⟩ start) true

def runPresignatureGenerationFollower (id : UniqueId) (domainId : DomainId)
    (pairedTripleId : UniqueId) : Task (EcdsaStores scheme) Unit := do
  let data ← domainData domainId
  channel.performLeaderCentricComputation transport
    (followerPresignComputation scheme transport channel ⟨self.threshold⟩ data.keyshare
      pairedTripleId domainId id) true

/-- The library's checks, which do not look at the hash. -/
def signChecks : SignChecks := fun participants coordinator me _ =>
  OtBasedEcdsa.sign participants coordinator ⟨self.threshold⟩ me

def makeSignatureFollowerGivenRequest (presignatureId : UniqueId) (request : SignatureRequest) :
    Task (EcdsaStores scheme) Unit := do
  let data ← domainData request.domain
  let msgHash ← ofExcept
    (found (.anyhow "Payload is not an ECDSA payload") request.payload.asEcdsa)
  channel.performLeaderCentricComputation transport
    (followerSignComputation scheme.toScheme transport channel self.signChecks data.keyshare
      presignatureId msgHash request) false

def makeSignatureFollower (id : RequestHash) (presignatureId : UniqueId) :
    Task (EcdsaStores scheme) Unit := do
  let request ← ofExcept (self.signRequestStore id)
  self.makeSignatureFollowerGivenRequest scheme transport channel presignatureId request

def processChannel : Task (EcdsaStores scheme) Unit :=
  match channel.taskId with
  | .ecdsaTaskId (.keyGeneration _) =>
    fail (.anyhow "Key generation rejected in normal node operation")
  | .ecdsaTaskId (.keyResharing _) =>
    fail (.anyhow "Key resharing rejected in normal node operation")
  | .ecdsaTaskId (.manyTriples start count) =>
    self.runTripleGenerationFollower scheme transport channel start count
  | .ecdsaTaskId (.presignature id domainId pairedTripleId) =>
    self.runPresignatureGenerationFollower scheme transport channel id domainId pairedTripleId
  | .ecdsaTaskId (.signature id presignatureId) =>
    self.makeSignatureFollower scheme transport channel id presignatureId
  | taskId => fail (.unexpectedTaskId taskId)

end EcdsaSignatureProvider

section Panics

variable {scheme : OtBasedEcdsaScheme} {transport : Transport} {channel : NetworkTaskChannel}
  (wired : channel.Wired transport.transportSender)

include wired

theorem safe_manyTripleGenerationComputation
    (even : n % 2 = 0) :
    Safe (fun s : TaskState (EcdsaStores scheme) => channel.FromMembers s)
      (manyTripleGenerationComputation scheme transport channel n threshold) fun _ _ => True := by
  unfold manyTripleGenerationComputation
  rw [if_neg (not_not.mpr even)]
  refine safe_ofExcept.bind ?_
  rintro ⟨capacity, participants⟩
  refine safe_of_fact ?_
  intro checked
  have made := OtBasedEcdsa.generateTripleMany_ok (mapError_eq_ok.mp checked)
  refine (NetworkTaskChannel.safe_runProtocol wired
    (among_new made scheme.parties_doGenerationMany)).bind ?_
  intro triples
  refine Safe.before (P := fun _ => triples.length = n) ?_ ?_
  · split
    · rename_i wrong
      intro s right
      exact absurd right wrong
    · exact safe_pure fun _ _ => trivial
  · rintro _ ⟨_, _, returned⟩
    exact scheme.length_generating returned

theorem safe_followerManyTripleGenerationComputation (even : n % 2 = 0) :
    Safe (fun s : TaskState (EcdsaStores scheme) => channel.FromMembers s)
      (followerManyTripleGenerationComputation scheme transport channel n threshold start)
      fun _ _ => True := by
  refine (safe_manyTripleGenerationComputation wired even).bind ?_
  intro triples
  refine safe_forM ?_
  intro triple _
  exact safe_ofExcept.bind fun _ => safe_update fun _ _ => trivial

theorem safe_followerPresignComputation :
    Safe (fun s : TaskState (EcdsaStores scheme) => channel.FromMembers s)
      (followerPresignComputation scheme transport channel threshold keygenOut pairedTripleId
        domainId id) fun _ _ => True := by
  have taking : Safe (fun s : TaskState (EcdsaStores scheme) => channel.FromMembers s)
      (takeTriples scheme pairedTripleId) fun _ s => channel.FromMembers s := by
    refine safe_read.bind ?_
    intro store
    refine safe_ofExcept.bind ?_
    rintro ⟨left, triples⟩
    exact safe_update_bind (fun s => channel.FromMembers s) (fun _ holds => holds.1.1)
      (safe_pure fun _ holds => holds)
  have presigning : ∀ triples, Safe (fun s : TaskState (EcdsaStores scheme) => channel.FromMembers s)
      (presignComputation scheme transport channel threshold triples keygenOut)
      fun _ _ => True := by
    intro triples
    refine safe_ofExcept.bind ?_
    intro participants
    refine safe_of_fact ?_
    intro checked
    have made := OtBasedEcdsa.presign_ok (mapError_eq_ok.mp checked)
    exact (NetworkTaskChannel.safe_runProtocol wired
      (among_new made scheme.parties_doPresign)).weaken (fun _ holds => holds) fun _ _ _ => trivial
  refine taking.bind ?_
  intro triples
  exact (presigning triples).bind fun _ => safe_addPresignature

namespace EcdsaSignatureProvider

variable {self : EcdsaSignatureProvider} {state : TaskState (EcdsaStores scheme)}
  (follows : channel.isLeader = false) (members : channel.FromMembers state)

include follows members

theorem not_panics_runTripleGenerationFollower :
    ¬ (self.runTripleGenerationFollower scheme transport channel start count).Panics state := by
  unfold runTripleGenerationFollower
  split
  · exact not_panics_fail
  · rw [NetworkTaskChannel.panics_performLeaderCentricComputation_iff wired follows]
    intro panics
    exact (safe_followerManyTripleGenerationComputation wired rfl state members).1 panics.2

theorem not_panics_runPresignatureGenerationFollower :
    ¬ (self.runPresignatureGenerationFollower scheme transport channel id domainId
        pairedTripleId).Panics state := by
  unfold runPresignatureGenerationFollower
  rw [panics_domainData_bind]
  rintro ⟨data, _, panics⟩
  rw [NetworkTaskChannel.panics_performLeaderCentricComputation_iff wired follows] at panics
  exact (safe_followerPresignComputation wired state members).1 panics.2

theorem panics_makeSignatureFollower_iff {id : RequestHash} :
    (self.makeSignatureFollower scheme transport channel id presignatureId).Panics state ↔
      SignReady self.signRequestStore transport channel state id presignatureId ∧
        ¬ channel.participants.Nodup := by
  have listed : ∀ {coordinator me hash l},
      self.signChecks (csParticipants channel) coordinator me hash = .ok l →
        ParticipantList.new (csParticipants channel) = some l := OtBasedEcdsa.sign_ok
  unfold makeSignatureFollower makeSignatureFollowerGivenRequest
  simp only [panics_ofExcept_bind, panics_domainData_bind, found_eq_ok,
    NetworkTaskChannel.panics_performLeaderCentricComputation_iff wired follows,
    panics_followerSignComputation_iff wired members listed]
  constructor
  · rintro ⟨request, asked, data, there, msgHash, payload, connected, ⟨same, again, held⟩, tweaked,
      hashed, repeated⟩
    cases there.symm.trans again
    exact ⟨⟨connected, request, data, msgHash, asked, there, payload, held, tweaked, hashed⟩,
      repeated⟩
  · rintro ⟨⟨connected, request, data, msgHash, asked, there, payload, held, tweaked, hashed⟩,
      repeated⟩
    exact ⟨request, asked, data, there, msgHash, payload, connected, ⟨data, there, held⟩, tweaked,
      hashed, repeated⟩

/-- Only a signature on a list with a repeated id makes the provider panic. -/
theorem panics_processChannel_iff :
    (self.processChannel scheme transport channel).Panics state ↔
      ∃ id presignatureId, channel.taskId = .ecdsaTaskId (.signature id presignatureId) ∧
        SignReady self.signRequestStore transport channel state id presignatureId ∧
        ¬ channel.participants.Nodup := by
  unfold processChannel
  split
  · rename_i task
    simp [task]
  · rename_i task
    simp [task]
  · rename_i task
    simp [task, not_panics_runTripleGenerationFollower wired follows members]
  · rename_i task
    simp [task, not_panics_runPresignatureGenerationFollower wired follows members]
  · rename_i id presignatureId task
    rw [panics_makeSignatureFollower_iff wired follows members]
    simp [task]
  · rename_i other
    simp only [not_panics_fail, false_iff]
    rintro ⟨id, presignatureId, task, _⟩
    exact other id presignatureId task

end EcdsaSignatureProvider

end Panics

end MpcNetwork.Node.Providers
