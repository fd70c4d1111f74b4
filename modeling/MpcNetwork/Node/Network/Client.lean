import MpcNetwork.Contract.Domains
import MpcNetwork.Lib.Jobs
import MpcNetwork.Lib.Lru
import MpcNetwork.Lib.Tables
import MpcNetwork.Node.Primitives
import MpcNetwork.Threshold.Protocol

/-! # The network client

Messages of authenticated peers arrive one at a time.  A message for a channel nobody has
started yet is buffered in the channel's pipe; the first Start turns the pipe into a channel
and hands it to the task it names.  The participant list of a channel is the one its Start
message carries, whoever sent it.
-/

namespace MpcNetwork.Node.Network

open Jobs Jobs.Job

structure ChannelId where
  id : UniqueId
  deriving Repr, DecidableEq

structure RequestHash where
  bytes : List UInt8
  deriving Repr, DecidableEq

inductive EcdsaTaskId where
  | keyGeneration (keyEvent : Contract.KeyEventId)
  | keyResharing (keyEvent : Contract.KeyEventId)
  | manyTriples (start : UniqueId) (count : UInt32)
  | presignature (id : UniqueId) (domainId : DomainId) (pairedTripleId : UniqueId)
  | signature (id : RequestHash) (presignatureId : UniqueId)
  deriving Repr, DecidableEq

inductive RobustEcdsaTaskId where
  | keyGeneration (keyEvent : Contract.KeyEventId)
  | keyResharing (keyEvent : Contract.KeyEventId)
  | presignature (id : UniqueId) (domainId : DomainId)
  | signature (id : RequestHash) (presignatureId : UniqueId)
  deriving Repr, DecidableEq

inductive EddsaTaskId where
  | keyGeneration (keyEvent : Contract.KeyEventId)
  | keyResharing (keyEvent : Contract.KeyEventId)
  | signature (id : RequestHash)
  deriving Repr, DecidableEq

inductive CkdTaskId where
  | keyGeneration (keyEvent : Contract.KeyEventId)
  | keyResharing (keyEvent : Contract.KeyEventId)
  | ckd (id : RequestHash)
  deriving Repr, DecidableEq

inductive MpcTaskId where
  | ecdsaTaskId (task : EcdsaTaskId)
  | eddsaTaskId (task : EddsaTaskId)
  | ckdTaskId (task : CkdTaskId)
  | robustEcdsaTaskId (task : RobustEcdsaTaskId)
  | verifyForeignTxTaskId (id : RequestHash) (presignatureId : UniqueId)
  deriving Repr, DecidableEq

structure MpcStartMessage where
  taskId : MpcTaskId
  participants : List ParticipantId
  deriving Repr, DecidableEq

inductive MpcMessageKind where
  | start (start : MpcStartMessage)
  | computation (data : List Threshold.MessageData)
  | abort (error : String)
  | success
  deriving Repr, DecidableEq

structure MpcMessage where
  channelId : ChannelId
  kind : MpcMessageKind
  deriving Repr, DecidableEq

/-- A message with the peer whose connection it came in on. -/
structure MpcPeerMessage where
  sender : ParticipantId
  message : MpcMessage
  deriving Repr, DecidableEq

inductive PeerMessage where
  | mpc (message : MpcPeerMessage)
  | indexerHeight (sender : ParticipantId) (height : UInt64)
  deriving Repr, DecidableEq

def PeerMessage.sender : PeerMessage → ParticipantId
  | mpc message => message.sender
  | indexerHeight sender _ => sender

/-- The errors of the network code and of the computations on its channels. -/
inductive Error where
  | anyhow (text : String)
  | unexpectedStart (start : MpcStartMessage)
  | unexpectedTaskId (taskId : MpcTaskId)
  | noKeyshare (domainId : DomainId)
  | unownedNotFound (id : UniqueId)
  | initialization (error : Threshold.InitializationError)
  | protocol (error : Threshold.ProtocolError)
  | message (error : Threshold.MessageError)
  deriving Repr, DecidableEq

structure ConnectionVersion where
  outgoing : Nat
  incoming : Nat
  deriving Repr, DecidableEq

/-- The sending side of the TLS mesh, with the version of each other participant. -/
structure TlsMeshSender where
  myId : ParticipantId
  participants : List ParticipantId
  connectivities : Table ParticipantId ConnectionVersion
  reaches : ∀ id, id ∈ connectivities ↔ id ∈ participants ∧ id ≠ myId

namespace TlsMeshSender

/-- Start with no connection to anybody, so that each version is the first one to come. -/
def new (myId : ParticipantId) (participants : List ParticipantId) : TlsMeshSender where
  myId := myId
  participants := participants
  connectivities :=
    (participants.filter fun id => id ≠ myId).foldl (fun table id => table.insert id ⟨1, 1⟩) ∅
  reaches := by
    intro id
    have gathered : ∀ (ids : List ParticipantId) (table : Table ParticipantId ConnectionVersion),
        id ∈ ids.foldl (fun table id => table.insert id ⟨1, 1⟩) table ↔ id ∈ ids ∨ id ∈ table := by
      intro ids
      induction ids with
      | nil => simp
      | cons first ids ih =>
        intro table
        rw [List.foldl_cons, ih, AList.mem_insert, List.mem_cons]
        tauto
    rw [gathered]
    simp

def connectivity {σ : Type} (self : TlsMeshSender) (participantId : ParticipantId) :
    Job Error σ ConnectionVersion :=
  unwrap (self.connectivities.lookup participantId)

end TlsMeshSender

/-- What was sent and not yet received, and whether anybody can still receive it. -/
structure Pipe where
  messages : List MpcPeerMessage
  receiverAlive : Bool
  deriving Repr, DecidableEq

namespace Pipe

def new : Pipe := ⟨[], true⟩

def send (self : Pipe) (message : MpcPeerMessage) : Except Error Pipe :=
  if self.receiverAlive then .ok { self with messages := self.messages ++ [message] }
  else .error (.anyhow "channel closed")

end Pipe

/-- The receiving end of the pipe stored under this channel id. -/
structure IncompleteNetworkTaskChannel where
  receiver : ChannelId
  deriving Repr, DecidableEq

structure NetworkTaskChannel where
  channelId : ChannelId
  taskId : MpcTaskId
  leader : ParticipantId
  myParticipantId : ParticipantId
  participants : List ParticipantId
  connectionVersions : Table ParticipantId ConnectionVersion
  receiver : ChannelId

namespace NetworkTaskChannel

def isLeader (self : NetworkTaskChannel) : Bool := self.myParticipantId = self.leader

end NetworkTaskChannel

def lruCapacity : Nat := 10000

structure NetworkTaskChannelManager where
  senders : Table ChannelId Pipe
  channelsWaitingForStart : Lru ChannelId IncompleteNetworkTaskChannel

def NetworkTaskChannelManager.new : NetworkTaskChannelManager := ⟨∅, .empty lruCapacity⟩

/-- The client, with the heights it tracks and the new channels nobody has picked up yet. -/
structure MeshNetworkClient where
  transportSender : TlsMeshSender
  channels : NetworkTaskChannelManager
  indexerHeights : Table ParticipantId UInt64
  tracked : ∀ id ∈ transportSender.participants, id ∈ indexerHeights
  newChannels : List NetworkTaskChannel
  newChannelReceiverAlive : Bool

inductive SenderOrNewChannel where
  | sender (channelId : ChannelId)
  | newChannel (channel : NetworkTaskChannel)

/-- Make the pipe of a channel id. A displaced channel without a Start loses its pipe. -/
def NetworkTaskChannelManager.register (self : NetworkTaskChannelManager) (channelId : ChannelId) :
    NetworkTaskChannelManager :=
  if channelId ∈ self.senders then self
  else
    let senders := self.senders.insert channelId .new
    let (displaced, waiting) := self.channelsWaitingForStart.push channelId ⟨channelId⟩
    match displaced with
    | some (k, _) => if k ≠ channelId then ⟨senders.erase k, waiting⟩ else ⟨senders, waiting⟩
    | none => ⟨senders, waiting⟩

def MpcMessageKind.startMessage : MpcMessageKind → Option MpcStartMessage
  | start message => some message
  | _ => none

/-- The versions of the connections to the given participants. -/
def TlsMeshSender.connectionVersions {σ : Type} (self : TlsMeshSender) :
    List ParticipantId → Job Error σ (Table ParticipantId ConnectionVersion)
  | [] => pure ∅
  | id :: ids => do
    let version ← self.connectivity id
    let versions ← self.connectionVersions ids
    pure (versions.insert id version)

namespace MeshNetworkClient

def senderFor (channelId : ChannelId) (start : Option MpcStartMessage)
    (originator : ParticipantId) : Job Error MeshNetworkClient SenderOrNewChannel := do
  update fun self => { self with channels := self.channels.register channelId }
  match start with
  | none => pure (.sender channelId)
  | some start => do
    let waiting ← read fun self => self.channels.channelsWaitingForStart.pop channelId
    match waiting.1 with
    -- a second Start, or one that came too late, is delivered like any message
    | none => pure (.sender channelId)
    | some incompleteChannel => do
      update fun self => { self with
        channels := { self.channels with channelsWaitingForStart := waiting.2 } }
      let transportSender ← read transportSender
      let connectionVersions ← transportSender.connectionVersions
        (start.participants.filter fun id => id ≠ transportSender.myId)
      pure (.newChannel
        { channelId := channelId
          taskId := start.taskId
          leader := originator
          myParticipantId := transportSender.myId
          participants := start.participants
          connectionVersions := connectionVersions
          receiver := incompleteChannel.receiver })

/-- Put the message into the pipe of its channel. -/
def deliver (channelId : ChannelId) (message : MpcPeerMessage) :
    Job Error MeshNetworkClient Unit := do
  let pipe ← read fun self => self.channels.senders.lookup channelId
  match pipe with
  | none => fail (.anyhow "channel closed")
  | some pipe => do
    let pipe ← ofExcept (pipe.send message)
    update fun self => { self with
      channels := { self.channels with senders := self.channels.senders.insert channelId pipe } }

/-- Hand a new channel over, or drop it with its pipe if nobody takes channels any more. -/
def announce (channel : NetworkTaskChannel) : Job Error MeshNetworkClient Unit := do
  let alive ← read newChannelReceiverAlive
  if alive then update fun self => { self with newChannels := self.newChannels ++ [channel] }
  else do
    update fun self => { self with
      channels := { self.channels with senders := self.channels.senders.erase channel.channelId } }
    fail (.anyhow "channel closed")

/-- Heights never go down; the entry of the participant is unwrapped. -/
def setHeight (participant : ParticipantId) (height : UInt64) :
    Job Error MeshNetworkClient Unit := do
  let entry ← read fun self => self.indexerHeights.lookup participant
  let current ← unwrap entry
  if current < height then
    update fun self => { self with
      indexerHeights := self.indexerHeights.insert participant height
      tracked := fun id inside => (AList.mem_insert _).mpr (Or.inr (self.tracked id inside)) }
  else pure ()

def handOn (message : MpcPeerMessage) : SenderOrNewChannel → Job Error MeshNetworkClient Unit
  | .sender channelId => deliver channelId message
  | .newChannel channel => announce channel

def runReceiveMessage : PeerMessage → Job Error MeshNetworkClient Unit
  | .mpc message => do
    let start := message.message.kind.startMessage
    let outcome ← senderFor message.message.channelId start message.sender
    handOn message outcome
  | .indexerHeight sender height => setHeight sender height

def runReceiveMessagesLoop (messages : List PeerMessage) : Job Error MeshNetworkClient Unit :=
  messages.forM fun message => (runReceiveMessage message).ignoreFailure

end MeshNetworkClient

namespace TlsMeshSender

variable {σ : Type} {self : TlsMeshSender}

/-- The lookups are unwrapped one by one, so any unknown id is enough. -/
theorem panics_connectionVersions_iff :
    (self.connectionVersions ids : Job Error σ _).Panics s ↔
      ∃ id ∈ ids, id ∉ self.connectivities := by
  induction ids with
  | nil =>
    rw [connectionVersions]
    simp
  | cons id ids ih =>
    rw [connectionVersions, connectivity, panics_unwrap_bind, List.exists_mem_cons_iff]
    rw [AList.lookup_eq_none]
    by_cases known : id ∈ self.connectivities
    · obtain ⟨version, there⟩ := Option.isSome_iff_exists.mp (AList.lookup_isSome.mpr known)
      simp only [known, not_true_eq_false, false_or, there, Option.some.injEq,
        exists_eq_left', panics_bind_iff, ih, not_panics_pure, and_false, exists_false, or_false]
    · simp [known]

theorem connectionVersions_ok
    (gathered : (self.connectionVersions ids : Job Error σ _) s = (.ok versions, t)) :
    s = t ∧ (∀ id ∈ ids, id ∈ self.connectivities) ∧ ∀ id, id ∈ versions ↔ id ∈ ids := by
  induction ids generalizing versions t with
  | nil =>
    obtain ⟨rfl, rfl⟩ := pure_eq_ok.mp gathered
    simp
  | cons first ids ih =>
    simp only [connectionVersions, connectivity, bind_eq_ok, unwrap_eq_ok, pure_eq_ok] at gathered
    obtain ⟨version, _, ⟨there, rfl⟩, others, _, rest, rfl, rfl⟩ := gathered
    obtain ⟨unchanged, known, covered⟩ := ih rest
    have firstKnown : first ∈ self.connectivities :=
      AList.lookup_isSome.mp (Option.isSome_iff_exists.mpr ⟨version, there⟩)
    refine ⟨unchanged, ?_, ?_⟩
    · intro id inside
      rcases List.mem_cons.mp inside with rfl | later
      · exact firstKnown
      · exact known id later
    · intro id
      rw [AList.mem_insert, covered, List.mem_cons]

end TlsMeshSender

/-- Nothing has come for the id yet, or only messages that wait for the Start. -/
def NetworkTaskChannelManager.opens (self : NetworkTaskChannelManager) (channelId : ChannelId) :
    Prop :=
  channelId ∉ self.senders ∨ self.channelsWaitingForStart.contains channelId = true

theorem NetworkTaskChannelManager.contains_register (self : NetworkTaskChannelManager)
    (channelId : ChannelId) :
    (self.register channelId).channelsWaitingForStart.contains channelId = true ↔
      self.opens channelId := by
  unfold opens register
  split
  · rename_i live
    simp [live]
  · rename_i vacant
    have pushed := self.channelsWaitingForStart.contains_push channelId ⟨channelId⟩
    simp only [vacant, not_false_eq_true, true_or, iff_true]
    split
    · split <;> exact pushed
    · exact pushed

variable {γ : Type}

namespace MeshNetworkClient

variable {client : MeshNetworkClient}

theorem panics_senderFor_iff :
    (senderFor channelId start originator).Panics client ↔
      ∃ message, start = some message ∧ client.channels.opens channelId ∧
        ∃ id ∈ message.participants,
          id ≠ client.transportSender.myId ∧ id ∉ client.transportSender.participants := by
  unfold senderFor
  rw [panics_update_bind]
  cases start with
  | none => simp
  | some start =>
    have waiting := (client.channels.register channelId).channelsWaitingForStart.pop_isSome_iff
      channelId
    rw [client.channels.contains_register] at waiting
    simp only [panics_read_bind, Option.some.injEq, exists_eq_left']
    split
    · rename_i absent
      rw [absent] at waiting
      simp [← waiting]
    · rename_i incompleteChannel present
      rw [present] at waiting
      rw [panics_update_bind, panics_read_bind, panics_bind_iff,
        TlsMeshSender.panics_connectionVersions_iff]
      simp only [not_panics_pure, and_false, exists_false, or_false, ← waiting,
        Option.isSome_some, true_and, List.mem_filter, decide_eq_true_eq,
        client.transportSender.reaches]
      constructor
      · rintro ⟨id, ⟨listed, other⟩, unknown⟩
        exact ⟨id, listed, other, fun known => unknown ⟨known, other⟩⟩
      · rintro ⟨id, listed, other, unknown⟩
        exact ⟨id, ⟨listed, other⟩, fun known => unknown known.1⟩

theorem not_panics_deliver : ¬ (deliver channelId message).Panics client := by
  rw [deliver, panics_read_bind]
  split
  · exact not_panics_fail
  · rw [panics_ofExcept_bind]
    simp

theorem not_panics_announce : ¬ (announce channel).Panics client := by
  rw [announce, panics_read_bind]
  split
  · exact not_panics_update
  · rw [panics_update_bind]
    exact not_panics_fail

theorem not_panics_setHeight (known : participant ∈ client.transportSender.participants) :
    ¬ (setHeight participant height).Panics client := by
  have there := AList.lookup_isSome.mpr (client.tracked participant known)
  obtain ⟨current, found⟩ := Option.isSome_iff_exists.mp there
  rw [setHeight, panics_read_bind, panics_unwrap_bind, found]
  rintro (absurd | ⟨_, _, panics⟩)
  · cases absurd
  · split at panics
    · exact not_panics_update panics
    · exact not_panics_pure panics

/-- Only a Start that opens a channel and lists somebody unknown makes the loop panic. -/
theorem panics_runReceiveMessage_iff
    (authentic : message.sender ∈ client.transportSender.participants) :
    (runReceiveMessage message).Panics client ↔
      ∃ sender channelId start, message = .mpc ⟨sender, ⟨channelId, .start start⟩⟩ ∧
        client.channels.opens channelId ∧
        ∃ id ∈ start.participants,
          id ≠ client.transportSender.myId ∧ id ∉ client.transportSender.participants := by
  cases message with
  | indexerHeight sender height =>
    have calm : ¬ (setHeight sender height).Panics client := not_panics_setHeight authentic
    simpa [runReceiveMessage] using calm
  | mpc message =>
    obtain ⟨sender, channelId, kind⟩ := message
    have calm : ∀ outcome after, ¬ (handOn ⟨sender, channelId, kind⟩ outcome).Panics after := by
      intro outcome after
      cases outcome with
      | sender channelId => exact not_panics_deliver
      | newChannel channel => exact not_panics_announce
    simp only [runReceiveMessage, panics_bind_iff, calm, and_false, exists_false, or_false,
      panics_senderFor_iff]
    cases kind <;> simp [MpcMessageKind.startMessage]

theorem keeps_connectionVersions {transport : TlsMeshSender} :
    Keeps view (transport.connectionVersions ids : Job Error MeshNetworkClient _) := by
  induction ids with
  | nil => exact keeps_pure
  | cons id ids ih =>
    rw [TlsMeshSender.connectionVersions, TlsMeshSender.connectivity]
    exact keeps_unwrap.bind fun _ => ih.bind fun _ => keeps_pure

theorem keeps_senderFor (view : MeshNetworkClient → γ)
    (apart : ∀ client channels, view { client with channels := channels } = view client) :
    Keeps view (senderFor channelId start originator) := by
  unfold senderFor
  refine (keeps_update fun _ => apart _ _).bind ?_
  intro _
  cases start with
  | none => exact keeps_pure
  | some start =>
    refine keeps_read.bind ?_
    intro waiting
    split
    · exact keeps_pure
    · refine (keeps_update fun _ => apart _ _).bind ?_
      intro _
      refine keeps_read.bind ?_
      intro transport
      exact keeps_connectionVersions.bind fun _ => keeps_pure

theorem keeps_deliver (view : MeshNetworkClient → γ)
    (apart : ∀ client channels, view { client with channels := channels } = view client) :
    Keeps view (deliver channelId message) := by
  refine keeps_read.bind ?_
  intro pipe
  cases pipe with
  | none => exact keeps_fail
  | some pipe => exact keeps_ofExcept.bind fun _ => keeps_update fun _ => apart _ _

theorem keeps_setHeight (view : MeshNetworkClient → γ)
    (apart : ∀ client heights tracked, view { client with
      indexerHeights := heights
      tracked := tracked } = view client) : Keeps view (setHeight participant height) := by
  refine keeps_read.bind ?_
  intro entry
  refine keeps_unwrap.bind ?_
  intro current
  split
  · exact keeps_update fun _ => apart _ _ _
  · exact keeps_pure

end MeshNetworkClient

/-- The channel is this node's, with a connection version for each other known participant. -/
structure NetworkTaskChannel.Wired (transport : TlsMeshSender) (channel : NetworkTaskChannel) :
    Prop where
  mine : channel.myParticipantId = transport.myId
  known : ∀ id ∈ channel.connectionVersions, id ∈ transport.connectivities
  covered : ∀ id ∈ channel.participants, id ≠ channel.myParticipantId →
    id ∈ channel.connectionVersions

namespace MeshNetworkClient

variable {channel : NetworkTaskChannel}

theorem senderFor_newChannel
    (opened : senderFor channelId start originator client = (.ok (.newChannel channel), after)) :
    ∃ message, start = some message ∧ channel.taskId = message.taskId ∧
      channel.participants = message.participants ∧ channel.leader = originator ∧
      channel.Wired client.transportSender := by
  unfold senderFor at opened
  cases start with
  | none => simp [bind_eq_ok] at opened
  | some start =>
    obtain ⟨_, _, registered, opened⟩ := bind_eq_ok.mp opened
    obtain ⟨waiting, _, looked, opened⟩ := bind_eq_ok.mp opened
    rcases waiting with ⟨none | incompleteChannel, left⟩
    · simp at opened
    · simp only [bind_eq_ok, update_eq_ok, read_eq_ok, pure_eq_ok] at registered looked opened
      obtain ⟨_, _, rfl, transport, _, ⟨rfl, rfl⟩, versions, _, gathered, made, _⟩ := opened
      obtain ⟨_, known, covered⟩ := TlsMeshSender.connectionVersions_ok gathered
      obtain ⟨_, rfl⟩ := looked
      subst registered
      cases made
      refine ⟨start, rfl, rfl, rfl, rfl, ⟨rfl, ?_, ?_⟩⟩
      · intro id versioned
        exact known id ((covered id).mp versioned)
      · intro id listed other
        exact (covered id).mpr (List.mem_filter.mpr ⟨listed, decide_eq_true other⟩)

/-- The channel has the task, the list and, as its leader, the sender of its Start. -/
theorem opened_channel (done : runReceiveMessage message client = (.ok (), after))
    (opened : after.newChannels = client.newChannels ++ [channel]) :
    ∃ sender channelId start, message = .mpc ⟨sender, ⟨channelId, .start start⟩⟩ ∧
      channel.taskId = start.taskId ∧ channel.participants = start.participants ∧
      channel.leader = sender ∧ channel.Wired client.transportSender := by
  have longer : after.newChannels ≠ client.newChannels := by
    rw [opened]
    simp
  cases message with
  | indexerHeight sender height =>
    refine absurd ?_ longer
    exact (keeps_setHeight newChannels fun _ _ _ => rfl).after done
  | mpc message =>
    obtain ⟨sender, channelId, kind⟩ := message
    obtain ⟨outcome, between, looked, handed⟩ := bind_eq_ok.mp done
    have early := (keeps_senderFor newChannels fun _ _ => rfl).after looked
    cases outcome with
    | sender channelId =>
      have late := (keeps_deliver newChannels fun _ _ => rfl).after handed
      exact absurd (late.trans early) longer
    | newChannel made =>
      obtain ⟨start, kindly, task, list, leads, wired⟩ := senderFor_newChannel looked
      obtain ⟨alive, _, asked, announced⟩ := bind_eq_ok.mp handed
      obtain ⟨_, rfl⟩ := read_eq_ok.mp asked
      cases alive with
      | false => simp [bind_eq_ok] at announced
      | true =>
        simp only [if_true, update_eq_ok] at announced
        have same : made = channel := by
          have both := opened
          rw [← announced, early] at both
          simpa using both
        subst same
        cases kind with
        | start given =>
          cases kindly
          exact ⟨sender, channelId, start, rfl, task, list, leads, wired⟩
        | computation data => cases kindly
        | abort error => cases kindly
        | success => cases kindly

end MeshNetworkClient

end MpcNetwork.Node.Network
