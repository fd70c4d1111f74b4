import MpcNetwork.Node.Providers.Ecdsa
import MpcNetwork.Node.Providers.RobustEcdsa

/-! # What a peer's message can do to the node

The release profile aborts the process on a panic.  A peer's message is followed from the
receive loop into the computation of the channel it opens, and the messages that make either
panic are told apart from the rest: a Start that lists somebody unknown, a Start of a
signature that lists somebody twice, and a computation message from outside the channel's
list.
-/

namespace MpcNetwork.Node.Providers

open Assets Jobs Jobs.Job Network Threshold
open MeshNetworkClient (runReceiveMessage runReceiveMessagesLoop)
open Threshold.RobustEcdsa (translateThreshold)

/-- A protocol that says something and then waits for the others. -/
private def speakThenWait (T : Type) : Protocol (List Participant × Bool) T where
  poke s := if s.2 then .ok (.wait, s) else .ok (.sendMany [1], (s.1, true))
  message s _ _ := .ok s
  parties := Prod.fst
  backlog s := if s.2 then 0 else 1
  backlog_many := by
    rintro ⟨parties, spoken⟩ t data step
    cases spoken <;> cases step
    simp
  backlog_private := by
    rintro ⟨parties, spoken⟩ t recipient data step
    cases spoken <;> cases step
  private_to := by
    rintro ⟨parties, spoken⟩ t recipient data step
    cases spoken <;> cases step
  parties_poke := by
    rintro ⟨parties, spoken⟩ t action step
    cases spoken <;> cases step <;> rfl
  parties_message := by
    rintro s t sender data step
    cases step
    rfl

private def talkative : Scheme where
  VerifyingKey := Unit
  KeygenOutput := Unit
  PresignOutput := Unit
  RerandomizedPresignOutput := Unit
  SignatureOption := Unit
  PresignState := List Participant × Bool
  SignState := List Participant × Bool
  publicKey _ := ()
  deriveVerifyingKey _ _ := ()
  presigning := speakThenWait Unit
  signing := speakThenWait Unit
  rerandomizePresign _ _ := .ok ()
  doSign l _ _ _ _ _ := (l.participants, false)
  parties_doSign := rfl

private def talkativeOt : OtBasedEcdsaScheme where
  toScheme := talkative
  TripleGenerationOutput := Unit
  tripleThreshold _ := ⟨3⟩
  GenerationState := List Participant × Bool
  generating _ := speakThenWait (List Unit)
  doGenerationMany _ _ l _ _ := (l.participants, false)
  doPresign l _ _ _ _ _ := (l.participants, false)
  length_generating := by
    rintro n ⟨parties, spoken⟩ t triples step
    cases spoken <;> cases step
  parties_doGenerationMany := rfl
  parties_doPresign := rfl

private def talkativeRobust : RobustEcdsaScheme where
  toScheme := talkative
  doPresign l _ _ _ := (l.participants, false)
  parties_doPresign := rfl

private def fiveIds : List ParticipantId := [⟨0⟩, ⟨1⟩, ⟨2⟩, ⟨3⟩, ⟨4⟩]

private def freshClient : MeshNetworkClient where
  transportSender := .new ⟨0⟩ fiveIds
  channels := .new
  indexerHeights := fiveIds.foldl (fun heights id => heights.insert id 0) ∅
  tracked := by decide
  newChannels := []
  newChannelReceiverAlive := true

private def allConnected : Transport where
  transportSender := .new ⟨0⟩ fiveIds
  waitForConnection _ _ := .established
  sendMpcMessage _ _ _ := .ok ()
  describe _ := ""

private def onlyChannel : ChannelId := ⟨⟨1⟩⟩

private def startOf (taskId : MpcTaskId) (participants : List ParticipantId) : PeerMessage :=
  .mpc ⟨⟨1⟩, ⟨onlyChannel, .start ⟨taskId, participants⟩⟩⟩

/-- The channel that a sequence of messages opens first. -/
private def openedBy (messages : List PeerMessage) : Option NetworkTaskChannel :=
  (runReceiveMessagesLoop messages freshClient).2.newChannels.head?

private def waitingAfter (messages : List PeerMessage) : List ChannelEvent :=
  ((runReceiveMessagesLoop messages freshClient).2.channels.senders.lookup onlyChannel).elim []
    fun pipe => pipe.messages.map .received

private def anyRequest : SignatureRequest where
  payload := .ecdsa ⟨List.replicate 32 2, by decide, by decide⟩
  tweak := ⟨List.replicate 32 1⟩
  entropy := List.replicate 32 1
  domain := ⟨0⟩

private def onePresignature : DistributedAssetStorage (PresignOutputWithParticipants talkative) where
  db := Db.empty.put (makeKey (some ⟨0⟩) ⟨5⟩) ⟨(), [⟨0⟩, ⟨1⟩, ⟨2⟩]⟩
  domainId := some ⟨0⟩
  myParticipantId := ⟨0⟩
  ownedQueue := .new 0 (fun _ _ => true) []
  lastId := none

private def noTriples : DistributedAssetStorage talkativeOt.PairedTriple where
  db := .empty
  domainId := none
  myParticipantId := ⟨0⟩
  ownedQueue := .new 0 (fun _ _ => true) []
  lastId := none

private def holding {X : Type} (incoming : List ChannelEvent) (tripleStore : X) :
    TaskState (Stores talkative X) where
  incoming := incoming
  successfulParticipants := []
  sent := []
  stores := ⟨(∅ : Table DomainId _).insert ⟨0⟩ ⟨(), onePresignature⟩, tripleStore⟩

private def ecdsaOfFive : EcdsaSignatureProvider := ⟨3, fun _ => .ok anyRequest⟩

private def robustOfFive : RobustEcdsaSignatureProvider := ⟨5, 5, fun _ => .ok anyRequest⟩

/-- A batch of triples with participants 1 and 3, and a message on it from participant 2. -/
private def outsiderSpeaks : List PeerMessage :=
  [startOf (.ecdsaTaskId (.manyTriples ⟨64⟩ 64)) [⟨0⟩, ⟨1⟩, ⟨3⟩],
    .mpc ⟨⟨2⟩, ⟨onlyChannel, .computation [[1]]⟩⟩]

private def plainStart : PeerMessage :=
  startOf (.ecdsaTaskId (.signature ⟨[]⟩ ⟨5⟩)) [⟨0⟩, ⟨1⟩, ⟨2⟩]

end MpcNetwork.Node.Providers
