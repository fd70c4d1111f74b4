import MpcNetwork.Node.Providers.Signing

/-! # The robust ECDSA provider as a follower

What the node does with a channel that somebody else opened for a robust ECDSA task.  There
are no triples; the number of malicious parties is worked out anew for every task.
-/

namespace MpcNetwork.Node.Providers

open Fallible Jobs Jobs.Job Network Threshold
open Threshold.RobustEcdsa (MaxMalicious translateThreshold)

structure RobustEcdsaScheme extends Scheme where
  doPresign : ParticipantList → (me : Participant) → KeygenOutput → MaxMalicious → PresignState
  parties_doPresign : ∀ {l me key maxMalicious},
    presigning.parties (doPresign l me key maxMalicious) = l.participants

abbrev RobustEcdsaStores (scheme : RobustEcdsaScheme) := Stores scheme.toScheme Unit

structure RobustEcdsaSignatureProvider where
  threshold : UInt64
  numberOfParticipants : UInt64
  signRequestStore : RequestHash → Except Error SignatureRequest

section Computations

variable (scheme : RobustEcdsaScheme) (transport : Transport) (channel : NetworkTaskChannel)

def robustPresignComputation (maxMalicious : MaxMalicious) (keygenOut : scheme.KeygenOutput) :
    Task (RobustEcdsaStores scheme) scheme.PresignOutput := do
  let me := channel.myParticipantId.participant
  let participants ← ofExcept
    ((RobustEcdsa.presign (csParticipants channel) me maxMalicious).mapError .initialization)
  channel.runProtocol transport scheme.presigning
    (scheme.doPresign participants me keygenOut maxMalicious)

def robustFollowerPresignComputation (maxMalicious : MaxMalicious)
    (keygenOut : scheme.KeygenOutput) (domainId : DomainId) (id : UniqueId) :
    Task (RobustEcdsaStores scheme) Unit := do
  let presignature ← robustPresignComputation scheme transport channel maxMalicious keygenOut
  addPresignature channel domainId id presignature

end Computations

namespace RobustEcdsaSignatureProvider

variable (scheme : RobustEcdsaScheme) (self : RobustEcdsaSignatureProvider)
  (transport : Transport) (channel : NetworkTaskChannel)

def robustEcdsaThreshold : Task (RobustEcdsaStores scheme) MaxMalicious :=
  ofExcept ((translateThreshold self.threshold self.numberOfParticipants).mapError .anyhow)

def runPresignatureGenerationFollower (id : UniqueId) (domainId : DomainId) :
    Task (RobustEcdsaStores scheme) Unit := do
  let data ← domainData domainId
  let maxMalicious ← self.robustEcdsaThreshold scheme
  channel.performLeaderCentricComputation transport
    (robustFollowerPresignComputation scheme transport channel maxMalicious data.keyshare domainId
      id) true

def signChecks (maxMalicious : MaxMalicious) : SignChecks := fun participants coordinator me hash =>
  RobustEcdsa.sign participants coordinator maxMalicious me hash

def makeSignatureFollower (id : RequestHash) (presignatureId : UniqueId) :
    Task (RobustEcdsaStores scheme) Unit := do
  let request ← ofExcept (self.signRequestStore id)
  let data ← domainData request.domain
  let maxMalicious ← self.robustEcdsaThreshold scheme
  let msgHash ← ofExcept
    (found (.anyhow "Payload is not an ECDSA payload") request.payload.asEcdsa)
  channel.performLeaderCentricComputation transport
    (followerSignComputation scheme.toScheme transport channel (signChecks maxMalicious)
      data.keyshare presignatureId msgHash request) false

def processChannel : Task (RobustEcdsaStores scheme) Unit :=
  match channel.taskId with
  | .robustEcdsaTaskId (.keyGeneration _) =>
    fail (.anyhow "Key generation rejected in normal node operation")
  | .robustEcdsaTaskId (.keyResharing _) =>
    fail (.anyhow "Key resharing rejected in normal node operation")
  | .robustEcdsaTaskId (.presignature id domainId) =>
    self.runPresignatureGenerationFollower scheme transport channel id domainId
  | .robustEcdsaTaskId (.signature id presignatureId) =>
    self.makeSignatureFollower scheme transport channel id presignatureId
  | taskId => fail (.unexpectedTaskId taskId)

end RobustEcdsaSignatureProvider

section Panics

variable {scheme : RobustEcdsaScheme} {transport : Transport} {channel : NetworkTaskChannel}
  (wired : channel.Wired transport.transportSender)

include wired in
theorem safe_robustFollowerPresignComputation {domainId : DomainId} {id : UniqueId} :
    Safe (fun s : TaskState (RobustEcdsaStores scheme) => channel.FromMembers s)
      (robustFollowerPresignComputation scheme transport channel maxMalicious keygenOut domainId id)
      fun _ _ => True := by
  have presigning : Safe (fun s : TaskState (RobustEcdsaStores scheme) => channel.FromMembers s)
      (robustPresignComputation scheme transport channel maxMalicious keygenOut)
      fun _ _ => True := by
    refine safe_ofExcept.bind ?_
    intro participants
    refine safe_of_fact ?_
    intro checked
    have made := RobustEcdsa.presign_ok (mapError_eq_ok.mp checked)
    exact (NetworkTaskChannel.safe_runProtocol wired
      (among_new made scheme.parties_doPresign)).weaken (fun _ holds => holds) fun _ _ _ => trivial
  exact presigning.bind fun _ => safe_addPresignature

namespace RobustEcdsaSignatureProvider

variable {self : RobustEcdsaSignatureProvider}

theorem panics_robustEcdsaThreshold_bind {T : Type}
    {next : MaxMalicious → Task (RobustEcdsaStores scheme) T} :
    (self.robustEcdsaThreshold scheme >>= next).Panics state ↔
      ∃ maxMalicious, translateThreshold self.threshold self.numberOfParticipants =
        .ok maxMalicious ∧ (next maxMalicious).Panics state := by
  simp only [robustEcdsaThreshold, panics_ofExcept_bind, mapError_eq_ok]

variable {state : TaskState (RobustEcdsaStores scheme)} (follows : channel.isLeader = false)
  (members : channel.FromMembers state)

include wired follows members

theorem not_panics_runPresignatureGenerationFollower {id : UniqueId} {domainId : DomainId} :
    ¬ (self.runPresignatureGenerationFollower scheme transport channel id domainId).Panics
        state := by
  unfold runPresignatureGenerationFollower
  rw [panics_domainData_bind]
  rintro ⟨data, _, panics⟩
  rw [panics_robustEcdsaThreshold_bind] at panics
  obtain ⟨maxMalicious, _, panics⟩ := panics
  rw [NetworkTaskChannel.panics_performLeaderCentricComputation_iff wired follows] at panics
  exact (safe_robustFollowerPresignComputation wired state members).1 panics.2

theorem panics_makeSignatureFollower_iff {id : RequestHash} {presignatureId : UniqueId} :
    (self.makeSignatureFollower scheme transport channel id presignatureId).Panics state ↔
      (∃ maxMalicious, translateThreshold self.threshold self.numberOfParticipants =
        .ok maxMalicious) ∧
      SignReady self.signRequestStore transport channel state id presignatureId ∧
        ¬ channel.participants.Nodup := by
  have listed : ∀ maxMalicious {coordinator me hash l},
      signChecks maxMalicious (csParticipants channel) coordinator me hash = .ok l →
        ParticipantList.new (csParticipants channel) = some l := fun _ => RobustEcdsa.sign_ok
  unfold makeSignatureFollower
  simp only [panics_ofExcept_bind, panics_domainData_bind, found_eq_ok,
    panics_robustEcdsaThreshold_bind,
    NetworkTaskChannel.panics_performLeaderCentricComputation_iff wired follows,
    panics_followerSignComputation_iff wired members (listed _)]
  constructor
  · rintro ⟨request, asked, data, there, maxMalicious, translated, msgHash, payload, connected,
      ⟨same, again, held⟩, tweaked, hashed, repeated⟩
    cases there.symm.trans again
    exact ⟨⟨maxMalicious, translated⟩,
      ⟨connected, request, data, msgHash, asked, there, payload, held, tweaked, hashed⟩, repeated⟩
  · rintro ⟨⟨maxMalicious, translated⟩,
      ⟨connected, request, data, msgHash, asked, there, payload, held, tweaked, hashed⟩, repeated⟩
    exact ⟨request, asked, data, there, maxMalicious, translated, msgHash, payload, connected,
      ⟨data, there, held⟩, tweaked, hashed, repeated⟩

/-- Only a signature on a list with a repeated id makes the provider panic. -/
theorem panics_processChannel_iff :
    (self.processChannel scheme transport channel).Panics state ↔
      ∃ id presignatureId, channel.taskId = .robustEcdsaTaskId (.signature id presignatureId) ∧
        (∃ maxMalicious, translateThreshold self.threshold self.numberOfParticipants =
          .ok maxMalicious) ∧
        SignReady self.signRequestStore transport channel state id presignatureId ∧
        ¬ channel.participants.Nodup := by
  unfold processChannel
  split
  · rename_i task
    simp [task]
  · rename_i task
    simp [task]
  · rename_i task
    simp [task, not_panics_runPresignatureGenerationFollower wired follows members]
  · rename_i id presignatureId task
    rw [panics_makeSignatureFollower_iff wired follows members]
    simp [task]
  · rename_i other
    simp only [not_panics_fail, false_iff]
    rintro ⟨id, presignatureId, task, _⟩
    exact other id presignatureId task

end RobustEcdsaSignatureProvider

end Panics

end MpcNetwork.Node.Providers
