import MpcNetwork.Lib.Runs
import MpcNetwork.Node.Network.Computation

/-! # Channels get their messages

Every channel id with a pipe either waits for its Start or belongs to one channel that is alive.
As long as the waiting room is not full, a channel gets every message for its id exactly once and
in the order of arrival, also those that came before its Start.  The room is for the latest.
-/

namespace MpcNetwork.Node.Network

open List hiding after
open Fallible Jobs Jobs.Job Runs

namespace NetworkTaskChannelManager

def close (self : NetworkTaskChannelManager) (channelId : ChannelId) : NetworkTaskChannelManager :=
  { self with senders := self.senders.erase channelId }

end NetworkTaskChannelManager

namespace MeshNetworkClient

/-- The messages that start the task with the other participants. -/
def startMessages (transport : Transport) (channel : NetworkTaskChannel)
    (start : MpcStartMessage) : Task Unit Unit :=
  start.participants.forM fun participant =>
    if participant = channel.myParticipantId then pure ()
    else channel.sendRaw transport participant ⟨channel.channelId, .start start⟩

/-- Where a message cannot be sent, the channel is dropped. -/
def sendStarts (transport : Transport) (channel : NetworkTaskChannel) (start : MpcStartMessage) :
    Job Error MeshNetworkClient (NetworkTaskChannel × List (ParticipantId × MpcMessage)) :=
  match startMessages transport channel start ⟨[], [], [], ()⟩ with
  | (.ok _, task) => pure (channel, task.sent)
  | (.error (.failed error), _) => do
    update fun self => { self with channels := self.channels.close channel.channelId }
    fail error
  | (.error .panicked, _) => panic
  | (.error .pending, _) => wait

def newChannelForTask (transport : Transport) (channelId : ChannelId) (taskId : MpcTaskId)
    (participants : List ParticipantId) :
    Job Error MeshNetworkClient (NetworkTaskChannel × List (ParticipantId × MpcMessage)) := do
  let start : MpcStartMessage := ⟨taskId, participants⟩
  let myParticipantId ← read fun self => self.transportSender.myId
  match ← senderFor channelId (some start) myParticipantId with
  | .newChannel channel => sendStarts transport channel start
  | .sender _ => fail (.anyhow "Channel already exists")

end MeshNetworkClient

/-- The client, the id its channels are counted from, and the channels not yet dropped. -/
structure NetworkNode where
  client : MeshNetworkClient
  lastId : UniqueId
  alive : List NetworkTaskChannel

namespace NetworkNode

inductive Input where
  | incoming (message : PeerMessage)
  | newChannelForTask (transport : Transport) (now : UInt64) (taskId : MpcTaskId)
      (participants : List ParticipantId)
  | receive (channelId : ChannelId)
  | drop (channelId : ChannelId)

inductive Note where
  | opened (channelId : ChannelId)
  | closed (channelId : ChannelId)
  | received (channelId : ChannelId) (message : MpcPeerMessage)
  | quiet
  deriving DecidableEq

/-- A channel that could not be handed over is dropped at once. -/
def noteFor (client : MeshNetworkClient) (channelId : ChannelId) : Note :=
  if client.newChannels.any (·.channelId = channelId) then .opened channelId
  else if channelId ∈ client.channels.senders then .quiet
  else .closed channelId

def incoming (self : NetworkNode) (message : PeerMessage) : Option (NetworkNode × Note) :=
  match MeshNetworkClient.runReceiveMessage message self.client with
  | (.error .panicked, _) | (.error .pending, _) => none
  | (_, client) =>
    let note := match message with
      | .mpc message => noteFor client message.message.channelId
      | .indexerHeight _ _ => .quiet
    some ({ self with
      client := { client with newChannels := [] }
      alive := self.alive ++ client.newChannels }, note)

def newChannelForTask (self : NetworkNode) (transport : Transport) (now : UInt64)
    (taskId : MpcTaskId) (participants : List ParticipantId) : Option (NetworkNode × Note) := do
  let lastId ← self.lastId.pickNewAfter now
  let channelId : ChannelId := ⟨lastId⟩
  match MeshNetworkClient.newChannelForTask transport channelId taskId participants self.client with
  | (.ok (channel, _), client) =>
    some (⟨client, lastId, self.alive ++ [channel]⟩, .opened channelId)
  | (.error (.failed _), client) =>
    some ({ self with client, lastId }, noteFor client channelId)
  | _ => none

/-- The task that holds the channel takes the next message out of its pipe. -/
def receive (self : NetworkNode) (channelId : ChannelId) : Option (NetworkNode × Note) := do
  let channel ← self.alive.find? fun channel => channel.channelId = channelId
  let pipe ← self.client.channels.senders.lookup channel.receiver
  match pipe.messages with
  | [] => none
  | message :: messages =>
    let senders := self.client.channels.senders.insert channel.receiver { pipe with messages }
    some ({ self with client := { self.client with
      channels := { self.client.channels with senders } } }, .received channelId message)

def drop (self : NetworkNode) (channelId : ChannelId) : Option (NetworkNode × Note) := do
  let channel ← self.alive.find? fun channel => channel.channelId = channelId
  some ({ self with
    client := { self.client with channels := self.client.channels.close channel.channelId }
    alive := self.alive.filter fun channel => channel.channelId ≠ channelId }, .closed channelId)

/-- One atomic step. A panic ends the process; without a message the task waits. -/
def act (self : NetworkNode) : Input → Option (NetworkNode × Note)
  | .incoming message => self.incoming message
  | .newChannelForTask transport now taskId participants =>
    self.newChannelForTask transport now taskId participants
  | .receive channelId => self.receive channelId
  | .drop channelId => self.drop channelId

structure Initial (s : NetworkNode) : Prop where
  channels : s.client.channels = .new
  newChannels : s.client.newChannels = []
  alive : s.alive = []

end NetworkNode

/-- A pipe belongs to a channel that waits for its Start or to one that is alive. -/
structure Split (channels : NetworkTaskChannelManager) (live : List ChannelId) : Prop where
  covered : ∀ c, c ∈ channels.senders ↔ c ∈ channels.channelsWaitingForStart.keys ∨ c ∈ live
  disjoint : ∀ c ∈ channels.channelsWaitingForStart.keys, c ∉ live
  waitingOnce : channels.channelsWaitingForStart.keys.Nodup
  liveOnce : live.Nodup
  capacity : channels.channelsWaitingForStart.capacity = lruCapacity
  receivers : ∀ entry ∈ channels.channelsWaitingForStart.entries, entry.2.receiver = entry.1
  receiving : ∀ c pipe, channels.senders.lookup c = some pipe → pipe.receiverAlive = true

/-- There is room for another channel without a Start. -/
def NetworkTaskChannelManager.Roomy (channels : NetworkTaskChannelManager) : Prop :=
  channels.channelsWaitingForStart.entries.length < lruCapacity

instance (channels : NetworkTaskChannelManager) : Decidable channels.Roomy :=
  Nat.decLt _ _

/-- What was sent on a channel and not received yet. -/
def NetworkTaskChannelManager.content (channels : NetworkTaskChannelManager) (c : ChannelId) :
    List MpcPeerMessage :=
  (channels.senders.lookup c).elim [] Pipe.messages

def NetworkTaskChannelManager.start (channels : NetworkTaskChannelManager) (c : ChannelId) :
    NetworkTaskChannelManager :=
  { channels with channelsWaitingForStart := (channels.channelsWaitingForStart.pop c).2 }

def NetworkTaskChannelManager.put (channels : NetworkTaskChannelManager) (c : ChannelId)
    (pipe : Pipe) : NetworkTaskChannelManager :=
  { channels with senders := channels.senders.insert c pipe }

section

variable {channels : NetworkTaskChannelManager} {c : ChannelId}

/-- What a message does to the waiting room before it is delivered. -/
inductive Registers (channels : NetworkTaskChannelManager) (c : ChannelId) :
    NetworkTaskChannelManager → Prop where
  | known (present : c ∈ channels.senders) : Registers channels c channels
  | added (absent : c ∉ channels.senders) : Registers channels c
      ⟨channels.senders.insert c .new, { channels.channelsWaitingForStart with
        entries := (c, ⟨c⟩) :: channels.channelsWaitingForStart.entries }⟩
  | displaced (absent : c ∉ channels.senders) (full : ¬ channels.Roomy)
      (front : List (ChannelId × IncompleteNetworkTaskChannel))
      (oldest : ChannelId × IncompleteNetworkTaskChannel)
      (isOldest : channels.channelsWaitingForStart.entries = front ++ [oldest]) :
      Registers channels c
        ⟨(channels.senders.insert c .new).erase oldest.1, { channels.channelsWaitingForStart with
          entries := (c, ⟨c⟩) :: front }⟩

section

variable (split : Split channels live)

include split

theorem Split.registers (c : ChannelId) :
    Registers channels c (channels.register c) := by
  unfold NetworkTaskChannelManager.register
  split
  · rename_i present
    exact .known present
  · rename_i absent
    have isNew : c ∉ channels.channelsWaitingForStart.keys :=
      fun waits => absent ((split.covered c).mpr (.inl waits))
    obtain ⟨_, pushed⟩ | ⟨full, pushed⟩ := channels.channelsWaitingForStart.push_new ⟨c⟩ isNew
    · rw [pushed]
      exact .added absent
    · have crowded : ¬ channels.Roomy := by
        rw [split.capacity] at full
        exact Nat.not_lt.mpr full
      have nonempty : channels.channelsWaitingForStart.entries ≠ [] := by
        intro empty
        rw [empty, split.capacity] at full
        cases full
      obtain ⟨front, oldest, isOldest⟩ := eq_nil_or_concat _ |>.resolve_left nonempty
      rw [concat_eq_append] at isOldest
      have other : oldest.1 ≠ c := by
        rintro rfl
        refine isNew (mem_map_of_mem ?_)
        rw [isOldest]
        exact mem_append_right _ (mem_singleton_self _)
      rw [pushed, isOldest, getLast?_append, dropLast_concat]
      simp only [getLast?_singleton, Option.some_or, ne_eq, other, not_false_eq_true, if_true]
      exact .displaced absent crowded front oldest isOldest

theorem Split.add (absent : c ∉ channels.senders) :
    Split ⟨channels.senders.insert c .new, { channels.channelsWaitingForStart with
      entries := (c, ⟨c⟩) :: channels.channelsWaitingForStart.entries }⟩ live := by
  have unknown := absent
  rw [split.covered, not_or] at unknown
  obtain ⟨notWaiting, notLive⟩ := unknown
  refine ⟨?_, ?_, ?_, split.liveOnce, split.capacity, ?_, ?_⟩
  · intro a
    simp only [AList.mem_insert, Lru.keys, map_cons, mem_cons, split.covered a, or_assoc]
  · exact forall_mem_cons.mpr ⟨notLive, split.disjoint⟩
  · exact nodup_cons.mpr ⟨notWaiting, split.waitingOnce⟩
  · exact forall_mem_cons.mpr ⟨rfl, split.receivers⟩
  · intro a pipe found
    rw [Table.lookup_insert_eq] at found
    split at found
    · cases found
      rfl
    · exact split.receiving a pipe found

theorem Split.evict (isOldest : channels.channelsWaitingForStart.entries = front ++ [oldest]) :
    Split ⟨channels.senders.erase oldest.1,
      { channels.channelsWaitingForStart with entries := front }⟩ live := by
  have keys : channels.channelsWaitingForStart.keys = front.map Prod.fst ++ [oldest.1] := by
    simp [Lru.keys, isOldest]
  have once := split.waitingOnce
  rw [keys, ← concat_eq_append, nodup_concat] at once
  have notLive : oldest.1 ∉ live := split.disjoint _ (by simp [keys])
  refine ⟨?_, ?_, once.2, split.liveOnce, split.capacity, ?_, ?_⟩
  · intro a
    rw [AList.mem_erase, split.covered, keys, mem_append, mem_singleton]
    change _ ↔ a ∈ front.map Prod.fst ∨ a ∈ live
    constructor
    · rintro ⟨other, (isFront | isOldest) | isLive⟩
      · exact .inl isFront
      · exact absurd isOldest other
      · exact .inr isLive
    · rintro (isFront | isLive)
      · exact ⟨fun same => once.1 (same ▸ isFront), .inl (.inl isFront)⟩
      · exact ⟨fun same => notLive (same ▸ isLive), .inr isLive⟩
  · intro a isFront
    exact split.disjoint a (by rw [keys]; exact mem_append_left _ isFront)
  · intro entry isFront
    exact split.receivers entry (by rw [isOldest]; exact mem_append_left _ isFront)
  · intro a pipe found
    simp only [Table.lookup_erase_eq] at found
    split at found
    · cases found
    · exact split.receiving a pipe found

theorem Split.register (c : ChannelId) :
    Split (channels.register c) live := by
  have registers := split.registers c
  generalize channels.register c = after at registers
  cases registers with
  | known => exact split
  | added absent => exact split.add absent
  | displaced absent full front oldest isOldest =>
    refine (split.add absent).evict ?_
    simp [isOldest]

theorem Split.mem_register (c : ChannelId) :
    c ∈ (channels.register c).senders := by
  have registers := split.registers c
  generalize channels.register c = after at registers
  cases registers with
  | known present => exact present
  | added => exact (AList.mem_insert _).mpr (.inl rfl)
  | displaced absent full front oldest isOldest =>
    refine AList.mem_erase.mpr ⟨?_, (AList.mem_insert _).mpr (.inl rfl)⟩
    rintro rfl
    refine absent ((split.covered _).mpr (.inl ?_))
    simp [Lru.keys, isOldest]

/-- With room for another channel no pipe is lost. -/
theorem Split.content_register (roomy : channels.Roomy)
    (c a : ChannelId) : (channels.register c).content a = channels.content a := by
  have registers := split.registers c
  generalize channels.register c = after at registers
  cases registers with
  | known => rfl
  | added absent =>
    simp only [NetworkTaskChannelManager.content, Table.lookup_insert_eq]
    split
    · rename_i same
      rw [same, AList.lookup_eq_none.mpr absent]
      rfl
    · rfl
  | displaced absent full => exact absurd roomy full

theorem Split.start (waits : c ∈ channels.channelsWaitingForStart.keys) :
    Split (channels.start c) (live ++ [c]) := by
  have keys : (channels.start c).channelsWaitingForStart.keys =
      channels.channelsWaitingForStart.keys.filter fun a => a ≠ c :=
    channels.channelsWaitingForStart.keys_pop c
  refine ⟨?_, ?_, ?_, ?_, split.capacity, ?_, split.receiving⟩
  · intro a
    rw [keys, mem_append, mem_singleton]
    change a ∈ channels.senders ↔ _
    rw [split.covered]
    by_cases same : a = c
    · simp [same, waits]
    · simp [same]
  · intro a isWaiting
    rw [keys, mem_filter, decide_eq_true_eq] at isWaiting
    rw [mem_append, mem_singleton, not_or]
    exact ⟨split.disjoint a isWaiting.1, isWaiting.2⟩
  · rw [keys]
    exact split.waitingOnce.filter _
  · rw [← concat_eq_append]
    exact (nodup_concat _ _).mpr ⟨split.disjoint c waits, split.liveOnce⟩
  · intro entry inside
    exact split.receivers entry (mem_of_mem_filter inside)

theorem Split.close (isLive : c ∈ live) :
    Split (channels.close c) (live.filter fun a => a ≠ c) := by
  have notWaiting : c ∉ channels.channelsWaitingForStart.keys :=
    fun waits => split.disjoint c waits isLive
  refine ⟨?_, ?_, split.waitingOnce, split.liveOnce.filter _, split.capacity, split.receivers, ?_⟩
  · intro a
    rw [NetworkTaskChannelManager.close, AList.mem_erase, split.covered, mem_filter,
      decide_eq_true_eq]
    by_cases same : a = c
    · simp [same, notWaiting]
    · simp [same]
  · intro a isWaiting isKept
    exact split.disjoint a isWaiting (mem_of_mem_filter isKept)
  · intro a pipe found
    simp only [NetworkTaskChannelManager.close, Table.lookup_erase_eq] at found
    split at found
    · cases found
    · exact split.receiving a pipe found

/-- A channel that is opened and dropped in one step leaves the others as they were. -/
theorem Split.abort (waits : c ∈ channels.channelsWaitingForStart.keys) :
    Split ((channels.start c).close c) live := by
  have closed := (split.start waits).close (mem_append_right _ (mem_singleton_self c))
  have others : (live ++ [c]).filter (fun a => a ≠ c) = live := by
    rw [filter_append]
    have kept : live.filter (fun a => a ≠ c) = live := by
      rw [filter_eq_self]
      intro a isLive
      exact decide_eq_true fun same => split.disjoint c waits (same ▸ isLive)
    rw [kept]
    simp
  rwa [others] at closed

theorem Split.put (present : c ∈ channels.senders) (alive : pipe.receiverAlive = true) :
    Split (channels.put c pipe) live := by
  refine ⟨?_, split.disjoint, split.waitingOnce, split.liveOnce, split.capacity, split.receivers,
    ?_⟩
  · intro a
    rw [NetworkTaskChannelManager.put, AList.mem_insert, ← split.covered]
    constructor
    · rintro (rfl | known)
      · exact present
      · exact known
    · exact .inr
  · intro a other found
    simp only [NetworkTaskChannelManager.put, Table.lookup_insert_eq] at found
    split at found
    · cases found
      exact alive
    · exact split.receiving a other found

end

theorem content_put (channels : NetworkTaskChannelManager) (c : ChannelId) (pipe : Pipe)
    (a : ChannelId) :
    (channels.put c pipe).content a = if a = c then pipe.messages else channels.content a := by
  simp only [NetworkTaskChannelManager.content, NetworkTaskChannelManager.put,
    Table.lookup_insert_eq]
  split <;> rfl

theorem content_close (channels : NetworkTaskChannelManager) (c a : ChannelId) :
    (channels.close c).content a = if a = c then [] else channels.content a := by
  simp only [NetworkTaskChannelManager.content, NetworkTaskChannelManager.close,
    Table.lookup_erase_eq]
  split <;> rfl

end

theorem TlsMeshSender.connectionVersions_ends {σ : Type} (self : TlsMeshSender)
    (ids : List ParticipantId) (s : σ) :
    (self.connectionVersions ids : Job Error σ _) s = (.error .panicked, s) ∨
      ∃ versions, (self.connectionVersions ids : Job Error σ _) s = (.ok versions, s) := by
  induction ids with
  | nil => exact .inr ⟨∅, rfl⟩
  | cons id ids ih =>
    rw [connectionVersions, connectivity]
    cases self.connectivities.lookup id with
    | none => exact .inl rfl
    | some version =>
      have known : (unwrap (some version) : Job Error σ _) s = (.ok version, s) := rfl
      rw [bind_of_ok known]
      obtain panicked | ⟨versions, done⟩ := ih
      · exact .inl (bind_of_error panicked)
      · exact .inr ⟨versions.insert id version, bind_of_ok done⟩

namespace MeshNetworkClient

variable {c : ChannelId} {start : Option MpcStartMessage}

/-- The pipe that a message goes to, or the channel that a Start opens. -/
inductive Finds (registered : NetworkTaskChannelManager) (c : ChannelId)
    (start : Option MpcStartMessage) :
    Except (Stop Error) SenderOrNewChannel → NetworkTaskChannelManager → Prop where
  | sender : Finds registered c start (.ok (.sender c)) registered
  | newChannel (message : MpcStartMessage) (isStart : start = some message)
      (waits : c ∈ registered.channelsWaitingForStart.keys) (channel : NetworkTaskChannel)
      (sameId : channel.channelId = c)
      (receives : (c, ⟨channel.receiver⟩) ∈ registered.channelsWaitingForStart.entries) :
      Finds registered c start (.ok (.newChannel channel)) (registered.start c)
  | panicked (channels : NetworkTaskChannelManager) :
      Finds registered c start (.error .panicked) channels

theorem senderFor_finds (ran : senderFor c start originator client = (result, after)) :
    Finds (client.channels.register c) c start result after.channels ∧
      after.newChannels = client.newChannels := by
  refine ⟨?_, (keeps_senderFor newChannels fun _ _ => rfl).after ran⟩
  cases start with
  | none =>
    cases ran
    exact .sender
  | some start =>
    rw [senderFor, update_bind, read_bind] at ran
    cases popped : ((client.channels.register c).channelsWaitingForStart.pop c).1 with
    | none =>
      simp only [popped] at ran
      cases ran
      exact .sender
    | some incomplete =>
      simp only [popped, update_bind, read_bind] at ran
      have waits := (client.channels.register c).channelsWaitingForStart.pop_isSome_iff c
      rw [popped, Lru.contains_iff] at waits
      obtain panicked | ⟨versions, gathered⟩ :=
        client.transportSender.connectionVersions_ends
          (start.participants.filter fun id => id ≠ client.transportSender.myId)
          { client with channels := { client.channels.register c with
            channelsWaitingForStart :=
              ((client.channels.register c).channelsWaitingForStart.pop c).2 } }
      · rw [bind_of_error panicked] at ran
        cases ran
        exact .panicked _
      · rw [bind_of_ok gathered] at ran
        cases ran
        obtain ⟨⟨k, v⟩, found, rfl⟩ := Option.map_eq_some_iff.mp popped
        have isEntry := find?_some found
        cases of_decide_eq_true isEntry
        exact .newChannel start rfl (waits.mp rfl) _ rfl (mem_of_find?_eq_some found)

theorem kind_eq_start {kind : MpcMessageKind} (isStart : kind.startMessage = some message) :
    kind = .start message := by
  cases kind with
  | start given =>
    cases isStart
    rfl
  | _ => cases isStart

/-- What a message of the mesh does to the channels. -/
inductive Arrives (registered : NetworkTaskChannelManager) (newChannels : List NetworkTaskChannel)
    (c : ChannelId) (message : MpcPeerMessage) :
    Except (Stop Error) Unit → NetworkTaskChannelManager → List NetworkTaskChannel → Prop where
  | delivered (pipe : Pipe) (found : registered.senders.lookup c = some pipe) :
      Arrives registered newChannels c message (.ok ())
        (registered.put c { pipe with messages := pipe.messages ++ [message] }) newChannels
  | opened (start : MpcStartMessage) (isStart : message.message.kind = .start start)
      (waits : c ∈ registered.channelsWaitingForStart.keys) (channel : NetworkTaskChannel)
      (sameId : channel.channelId = c) (sameReceiver : channel.receiver = c) :
      Arrives registered newChannels c message (.ok ()) (registered.start c)
        (newChannels ++ [channel])
  | closed (start : MpcStartMessage) (isStart : message.message.kind = .start start)
      (error : Error) (waits : c ∈ registered.channelsWaitingForStart.keys) :
      Arrives registered newChannels c message (.error (.failed error))
        ((registered.start c).close c) newChannels
  | panicked (channels : NetworkTaskChannelManager) (others : List NetworkTaskChannel) :
      Arrives registered newChannels c message (.error .panicked) channels others

theorem runReceiveMessage_arrives (split : Split client.channels live)
    (ran : runReceiveMessage (.mpc message) client = (result, after)) :
    Arrives (client.channels.register message.message.channelId) client.newChannels
      message.message.channelId message result after.channels after.newChannels := by
  obtain ⟨sender, c, kind⟩ := message
  rcases looked : senderFor c kind.startMessage sender client with ⟨stop | outcome, between⟩
  · obtain ⟨finds, _⟩ := senderFor_finds looked
    have stopped : (.error stop, between) = (result, after) := by
      rw [← ran]
      exact (bind_of_error looked).symm
    cases stopped
    cases finds
    exact .panicked _ _
  · obtain ⟨finds, sameNew⟩ := senderFor_finds looked
    have handed : handOn ⟨sender, c, kind⟩ outcome between = (result, after) := by
      rw [← ran]
      exact (bind_of_ok looked).symm
    generalize isBetween : between.channels = channels at finds
    cases finds with
    | sender =>
      obtain ⟨pipe, found⟩ := Option.isSome_iff_exists.mp
        (AList.lookup_isSome.mpr (split.mem_register c))
      have isAlive := (split.register c).receiving c pipe found
      have sends : ∀ message, pipe.send message =
          .ok { pipe with messages := pipe.messages ++ [message] } := by
        intro message
        rw [Pipe.send, if_pos isAlive]
      rw [handOn, deliver, read_bind, isBetween, found] at handed
      simp only [sends] at handed
      cases handed
      rw [← isBetween] at found ⊢
      rw [← sameNew]
      exact .delivered pipe found
    | newChannel start isStart waits channel sameId receives =>
      have sameReceiver := (split.register c).receivers _ receives
      rw [handOn, announce, read_bind] at handed
      rw [← sameNew]
      split at handed
      · cases handed
        change Arrives _ _ _ _ _ between.channels _
        rw [isBetween]
        exact .opened start (kind_eq_start isStart) waits channel sameId sameReceiver
      · cases handed
        change Arrives _ _ _ _ _ (between.channels.close channel.channelId) _
        rw [isBetween, sameId]
        exact .closed start (kind_eq_start isStart) _ waits

/-- What a channel of one's own does to the channels. -/
inductive Creates (registered : NetworkTaskChannelManager) (c : ChannelId) :
    Except (Stop Error) (NetworkTaskChannel × List (ParticipantId × MpcMessage)) →
      NetworkTaskChannelManager → Prop where
  | opened (waits : c ∈ registered.channelsWaitingForStart.keys) (channel : NetworkTaskChannel)
      (sent : List (ParticipantId × MpcMessage)) (sameId : channel.channelId = c)
      (sameReceiver : channel.receiver = c) :
      Creates registered c (.ok (channel, sent)) (registered.start c)
  | closed (error : Error) (waits : c ∈ registered.channelsWaitingForStart.keys) :
      Creates registered c (.error (.failed error)) ((registered.start c).close c)
  | refused (error : Error) : Creates registered c (.error (.failed error)) registered
  | stopped (stop : Stop Error) (final : ∀ error, stop ≠ .failed error)
      (channels : NetworkTaskChannelManager) : Creates registered c (.error stop) channels

theorem newChannelForTask_creates (split : Split client.channels live)
    (ran : newChannelForTask transport c taskId participants client = (result, after)) :
    Creates (client.channels.register c) c result after.channels ∧
      after.newChannels = client.newChannels := by
  rw [newChannelForTask, read_bind] at ran
  rcases looked : senderFor c (some ⟨taskId, participants⟩) client.transportSender.myId client with
    ⟨stop | outcome, between⟩
  · obtain ⟨finds, sameNew⟩ := senderFor_finds looked
    rw [bind_of_error looked] at ran
    cases ran
    cases finds
    exact ⟨.stopped _ (by simp) _, sameNew⟩
  · obtain ⟨finds, sameNew⟩ := senderFor_finds looked
    rw [bind_of_ok looked] at ran
    generalize isBetween : between.channels = channels at finds
    cases finds with
    | sender =>
      cases ran
      rw [isBetween]
      exact ⟨.refused _, sameNew⟩
    | newChannel start isStart waits channel sameId receives =>
      have sameReceiver := (split.register c).receivers _ receives
      rcases outcome : startMessages transport channel ⟨taskId, participants⟩ ⟨[], [], [], ()⟩
        with ⟨(error | _ | _) | _, task⟩ <;> simp only [sendStarts, outcome] at ran <;> cases ran
      · refine ⟨?_, sameNew⟩
        change Creates _ _ _ (between.channels.close channel.channelId)
        rw [isBetween, sameId]
        exact .closed error waits
      · exact ⟨.stopped _ (by simp) _, sameNew⟩
      · exact ⟨.stopped _ (by simp) _, sameNew⟩
      · rw [isBetween]
        exact ⟨.opened waits channel _ sameId sameReceiver, sameNew⟩

end MeshNetworkClient

namespace NetworkNode

/-- The message for the channel that comes in, unless it is a Start. -/
def arrival (c : ChannelId) : Input → Option MpcPeerMessage
  | .incoming (.mpc message) =>
    if message.message.channelId = c ∧ message.message.kind.startMessage = none then some message
    else none
  | _ => none

def reception (c : ChannelId) : Note → Option MpcPeerMessage
  | .received d message => if d = c then some message else none
  | _ => none

/-- The messages that the events since the channel was last closed give. -/
def sinceClosed (c : ChannelId) (pick : Input × Note → Option MpcPeerMessage)
    (es : List (Input × Note)) : List MpcPeerMessage :=
  es.foldl (fun picked e => if e.2 = .closed c then [] else picked ++ (pick e).toList) []

/-- What has come for a channel, in the order of arrival. -/
def arrived (c : ChannelId) (es : List (Input × Note)) : List MpcPeerMessage :=
  sinceClosed c (fun e => arrival c e.1) es

def taken (c : ChannelId) (es : List (Input × Note)) : List MpcPeerMessage :=
  sinceClosed c (fun e => reception c e.2) es

theorem sinceClosed_snoc (c : ChannelId) (pick : Input × Note → Option MpcPeerMessage)
    (es : List (Input × Note)) (e : Input × Note) :
    sinceClosed c pick (es ++ [e]) =
      if e.2 = .closed c then [] else sinceClosed c pick es ++ (pick e).toList := by
  rw [sinceClosed, foldl_append]
  rfl

/-- Every pipe is as the split says, and nothing is left to be handed over. -/
structure Sound (s : NetworkNode) : Prop where
  split : Split s.client.channels (s.alive.map NetworkTaskChannel.channelId)
  idle : s.client.newChannels = []
  receivers : ∀ channel ∈ s.alive, channel.receiver = channel.channelId

inductive Step (s : NetworkNode) :
    Input → Note → NetworkTaskChannelManager → List NetworkTaskChannel → Prop where
  | height (sender : ParticipantId) (height : UInt64) :
      Step s (.incoming (.indexerHeight sender height)) .quiet s.client.channels s.alive
  | delivered (message : MpcPeerMessage) (c : ChannelId)
      (isFor : message.message.channelId = c) (pipe : Pipe)
      (found : (s.client.channels.register c).senders.lookup c = some pipe) :
      Step s (.incoming (.mpc message)) .quiet
        ((s.client.channels.register c).put c { pipe with messages := pipe.messages ++ [message] })
        s.alive
  | opened (input : Input) (silent : ∀ d, arrival d input = none) (c : ChannelId)
      (waits : c ∈ (s.client.channels.register c).channelsWaitingForStart.keys)
      (channel : NetworkTaskChannel) (sameId : channel.channelId = c)
      (sameReceiver : channel.receiver = c) :
      Step s input (.opened c) ((s.client.channels.register c).start c) (s.alive ++ [channel])
  | aborted (input : Input) (silent : ∀ d, arrival d input = none) (c : ChannelId)
      (waits : c ∈ (s.client.channels.register c).channelsWaitingForStart.keys) :
      Step s input (.closed c) (((s.client.channels.register c).start c).close c) s.alive
  | refused (input : Input) (silent : ∀ d, arrival d input = none) (c : ChannelId) :
      Step s input .quiet (s.client.channels.register c) s.alive
  | received (c : ChannelId) (pipe : Pipe) (message : MpcPeerMessage)
      (messages : List MpcPeerMessage) (found : s.client.channels.senders.lookup c = some pipe)
      (next : pipe.messages = message :: messages) :
      Step s (.receive c) (.received c message)
        (s.client.channels.put c { pipe with messages := messages }) s.alive
  | dropped (c : ChannelId) (isLive : c ∈ s.alive.map NetworkTaskChannel.channelId) :
      Step s (.drop c) (.closed c) (s.client.channels.close c)
        (s.alive.filter fun channel => channel.channelId ≠ c)

variable {s : NetworkNode}

theorem noteFor_quiet {client : MeshNetworkClient} (idle : client.newChannels = [])
    (present : c ∈ client.channels.senders) : noteFor client c = .quiet := by
  simp [noteFor, idle, present]

theorem noteFor_closed {client : MeshNetworkClient} (idle : client.newChannels = [])
    (absent : c ∉ client.channels.senders) : noteFor client c = .closed c := by
  simp [noteFor, idle, absent]

theorem not_mem_close (channels : NetworkTaskChannelManager) (c : ChannelId) :
    c ∉ (channels.close c).senders := by
  simp [NetworkTaskChannelManager.close]

theorem incoming_step (sound : Sound s) (acted : s.incoming (.mpc message) = some (t, note)) :
    Step s (.incoming (.mpc message)) note t.client.channels t.alive ∧
      t.client.newChannels = [] := by
  rcases ran : MeshNetworkClient.runReceiveMessage (.mpc message) s.client with ⟨result, after⟩
  have arrives := MeshNetworkClient.runReceiveMessage_arrives sound.split ran
  simp only [incoming, ran] at acted
  generalize isAfter : after.channels = channels at arrives
  generalize areNew : after.newChannels = newChannels at arrives
  rw [sound.idle] at arrives
  cases arrives with
  | delivered pipe found =>
    cases acted
    rw [noteFor_quiet areNew (by rw [isAfter]; exact (AList.mem_insert _).mpr (.inl rfl))]
    simp only [areNew, append_nil, isAfter, and_true]
    exact .delivered message _ rfl pipe found
  | opened start isStart waits channel sameId sameReceiver =>
    cases acted
    have isOpened : noteFor after message.message.channelId =
        .opened message.message.channelId := by
      simp [noteFor, areNew, sameId]
    rw [isOpened]
    simp only [areNew, nil_append, isAfter, and_true]
    refine .opened _ ?_ _ waits channel sameId sameReceiver
    intro d
    simp [arrival, isStart, MpcMessageKind.startMessage]
  | closed start isStart error waits =>
    cases acted
    rw [noteFor_closed areNew (by rw [isAfter]; exact not_mem_close _ _)]
    simp only [areNew, append_nil, isAfter, and_true]
    refine .aborted _ ?_ _ waits
    intro d
    simp [arrival, isStart, MpcMessageKind.startMessage]
  | panicked => cases acted

theorem act_step (sound : Sound s) (acted : s.act input = some (t, note)) :
    Step s input note t.client.channels t.alive ∧ t.client.newChannels = [] := by
  cases input with
  | incoming message =>
    cases message with
    | mpc message => exact incoming_step sound acted
    | indexerHeight sender height =>
      rcases ran : MeshNetworkClient.runReceiveMessage (.indexerHeight sender height) s.client
        with ⟨result, after⟩
      have sameChannels :=
        (MeshNetworkClient.keeps_setHeight MeshNetworkClient.channels fun _ _ _ => rfl).after ran
      have sameNew :=
        (MeshNetworkClient.keeps_setHeight MeshNetworkClient.newChannels
          fun _ _ _ => rfl).after ran
      simp only [act, incoming, ran] at acted
      have step := Step.height (s := s) sender height
      rw [← sameChannels] at step
      rw [sound.idle] at sameNew
      rcases result with (error | _ | _) | _ <;> cases acted <;>
        simpa only [sameNew, append_nil, and_true] using step
  | newChannelForTask transport now taskId participants =>
    simp only [act, newChannelForTask, bind_some_iff] at acted
    obtain ⟨lastId, _, acted⟩ := acted
    rcases ran : MeshNetworkClient.newChannelForTask transport ⟨lastId⟩ taskId participants
      s.client with ⟨result, after⟩
    obtain ⟨creates, sameNew⟩ := MeshNetworkClient.newChannelForTask_creates sound.split ran
    rw [sound.idle] at sameNew
    rw [ran] at acted
    generalize isAfter : after.channels = channels at creates
    cases creates with
    | opened waits channel sent sameId sameReceiver =>
      cases acted
      simp only [isAfter, sameNew, and_true]
      exact .opened _ (fun _ => rfl) _ waits channel sameId sameReceiver
    | closed error waits =>
      cases acted
      rw [noteFor_closed sameNew (by rw [isAfter]; exact not_mem_close _ _)]
      simp only [isAfter, sameNew, and_true]
      exact .aborted _ (fun _ => rfl) _ waits
    | refused error =>
      cases acted
      rw [noteFor_quiet sameNew (by rw [isAfter]; exact sound.split.mem_register _)]
      simp only [isAfter, sameNew, and_true]
      exact .refused _ (fun _ => rfl) _
    | stopped stop final =>
      cases stop with
      | failed error => exact absurd rfl (final error)
      | panicked => cases acted
      | pending => cases acted
  | receive c =>
    simp only [act, receive, bind_some_iff] at acted
    obtain ⟨channel, isAlive, pipe, found, done⟩ := acted
    have isEntry := find?_some isAlive
    cases of_decide_eq_true isEntry
    rw [sound.receivers channel (mem_of_find?_eq_some isAlive)] at found done
    split at done
    · cases done
    · rename_i message messages next
      cases done
      exact ⟨.received _ pipe message messages found next, sound.idle⟩
  | drop c =>
    simp only [act, drop, bind_some_iff] at acted
    obtain ⟨channel, isAlive, done⟩ := acted
    have isEntry := find?_some isAlive
    cases of_decide_eq_true isEntry
    cases done
    exact ⟨.dropped _ (mem_map_of_mem (mem_of_find?_eq_some isAlive)), sound.idle⟩

theorem Step.sound (sound : Sound s) (step : Step s input note t.client.channels t.alive)
    (idle : t.client.newChannels = []) : Sound t := by
  refine ⟨?_, idle, ?_⟩
  · generalize t.client.channels = channels at step
    generalize t.alive = alive at step
    cases step with
    | height => exact sound.split
    | delivered message c isFor pipe found =>
      exact (sound.split.register c).put (sound.split.mem_register c)
        ((sound.split.register c).receiving c pipe found)
    | opened _ _ c waits channel sameId =>
      rw [map_append, map_singleton, sameId]
      exact (sound.split.register c).start waits
    | aborted _ _ c waits => exact (sound.split.register c).abort waits
    | refused _ _ c => exact sound.split.register c
    | received c pipe message messages found =>
      exact sound.split.put (AList.lookup_isSome.mp (by simp [found]))
        (sound.split.receiving c pipe found)
    | dropped c isLive =>
      have closed := sound.split.close isLive
      rwa [filter_map] at closed
  · generalize t.client.channels = channels at step
    generalize t.alive = alive at step
    cases step with
    | opened _ _ c _ channel sameId sameReceiver =>
      intro other isAlive
      obtain old | isNew := mem_append.mp isAlive
      · exact sound.receivers other old
      · cases mem_singleton.mp isNew
        exact sameReceiver.trans sameId.symm
    | dropped c =>
      intro other isAlive
      exact sound.receivers other (mem_of_mem_filter isAlive)
    | _ => exact sound.receivers

/-- Every message that arrived was taken or is still in its pipe. -/
def Delivered (es : List (Input × Note)) (s : NetworkNode) : Prop :=
  ∀ c, (taken c es ++ s.client.channels.content c).filter
    (fun message => message.message.kind.startMessage = none) = arrived c es

theorem content_of_lookup {channels : NetworkTaskChannelManager}
    (found : channels.senders.lookup c = some pipe) : channels.content c = pipe.messages := by
  rw [NetworkTaskChannelManager.content, found]
  rfl

variable {es : List (Input × Note)}

theorem Step.delivers (sound : Sound s) (roomy : s.client.channels.Roomy)
    (step : Step s input note t.client.channels t.alive) (delivered : Delivered es s) :
    Delivered (es ++ [(input, note)]) t := by
  intro c
  have before := delivered c
  have registered := fun d => sound.split.content_register roomy d c
  rw [taken, arrived, sinceClosed_snoc, sinceClosed_snoc, ← taken, ← arrived]
  generalize t.client.channels = channels at step
  generalize t.alive = alive at step
  cases step with
  | height => simpa [reception, arrival] using before
  | delivered message d isFor pipe found =>
    simp only [reduceCtorEq, if_false, reception, Option.toList_none, append_nil]
    rw [content_put]
    by_cases same : c = d
    · subst same
      rw [if_pos rfl, ← content_of_lookup found, registered c, ← append_assoc,
        filter_append, before, arrival]
      by_cases isStart : message.message.kind.startMessage = none <;> simp [isFor, isStart]
    · rw [if_neg same, registered d, before, arrival, isFor]
      simp [Ne.symm same]
  | opened _ silent d =>
    simp only [silent, reception, reduceCtorEq, if_false, Option.toList_none, append_nil]
    rw [← before, ← registered d]
    rfl
  | aborted _ silent d =>
    rw [content_close]
    by_cases same : c = d
    · simp [same]
    · have open' : Note.closed d ≠ .closed c := fun eq => same (Note.closed.inj eq).symm
      simp only [silent, reception, open', same, if_false, Option.toList_none, append_nil]
      rw [← before, ← registered d]
      rfl
  | refused _ silent d =>
    simp only [silent, reception, reduceCtorEq, if_false, Option.toList_none, append_nil]
    rw [← before, ← registered d]
  | received d pipe message messages found next =>
    simp only [reduceCtorEq, if_false, arrival, Option.toList_none, append_nil]
    rw [content_put, reception]
    by_cases same : c = d
    · subst same
      rw [if_pos rfl, if_pos rfl, ← before, content_of_lookup found, next, Option.toList_some,
        append_assoc, singleton_append]
    · rw [if_neg same, if_neg (Ne.symm same), Option.toList_none, append_nil, before]
  | dropped d =>
    rw [content_close]
    by_cases same : c = d
    · simp [same]
    · have open' : Note.closed d ≠ .closed c := fun eq => same (Note.closed.inj eq).symm
      simpa only [arrival, reception, open', same, if_false, Option.toList_none, append_nil]
        using before

variable {start : NetworkNode}

theorem Initial.sound (initial : start.Initial) : Sound start := by
  refine ⟨?_, initial.newChannels, ?_⟩
  · rw [initial.channels, initial.alive]
    refine ⟨?_, ?_, .nil, .nil, rfl, ?_, ?_⟩
    · intro c
      simp [NetworkTaskChannelManager.new, Lru.keys, Lru.empty]
    · intro c waits
      cases waits
    · intro entry waits
      cases waits
    · intro c pipe found
      cases found
  · rw [initial.alive]
    intro channel isAlive
    cases isAlive

theorem sound_run (initial : start.Initial) (run : Run (Acts act) start es s) : Sound s := by
  refine run.invariant (fun _ s => Sound s) initial.sound ?_
  intro _ s e t _ sound acts
  obtain ⟨step, idle⟩ := act_step sound acts
  exact step.sound sound idle

theorem delivered_run (initial : start.Initial)
    (run : Run (Guarded (fun s _ => s.client.channels.Roomy) (Acts act)) start es s) :
    Delivered es s := by
  refine run.invariant Delivered ?_ ?_
  · intro c
    rw [initial.channels]
    rfl
  · rintro es s ⟨input, note⟩ t before delivered ⟨roomy, acts⟩
    have sound := sound_run initial before.unguarded
    exact (act_step sound acts).1.delivers sound roomy delivered

/-- Pipes are those of the channels that wait for a Start and of those alive. With room for every
    channel without a Start, what a task has taken and what is in its pipe is what has come for its
    id since its last closing, in order and without Starts. -/
theorem channels_get_their_messages (initial : start.Initial) :
    (∀ es s, Run (Acts act) start es s →
      (∀ c, c ∈ s.client.channels.senders ↔
        c ∈ s.client.channels.channelsWaitingForStart.keys ∨
          c ∈ s.alive.map NetworkTaskChannel.channelId) ∧
      (∀ c ∈ s.client.channels.channelsWaitingForStart.keys,
        c ∉ s.alive.map NetworkTaskChannel.channelId) ∧
      s.client.channels.channelsWaitingForStart.keys.Nodup ∧
      (s.alive.map NetworkTaskChannel.channelId).Nodup) ∧
    ∀ es s, Run (Guarded (fun s _ => s.client.channels.Roomy) (Acts act)) start es s →
      ∀ channel ∈ s.alive, ∃ pipe,
        s.client.channels.senders.lookup channel.receiver = some pipe ∧
        (taken channel.channelId es ++ pipe.messages).filter
            (fun message => message.message.kind.startMessage = none) =
          arrived channel.channelId es := by
  refine ⟨?_, ?_⟩
  · intro es s run
    obtain ⟨covered, disjoint, waitingOnce, liveOnce, _⟩ := (sound_run initial run).split
    exact ⟨covered, disjoint, waitingOnce, liveOnce⟩
  · intro es s run channel isAlive
    have sound := sound_run initial run.unguarded
    have present : channel.channelId ∈ s.client.channels.senders :=
      (sound.split.covered _).mpr (.inr (mem_map_of_mem isAlive))
    obtain ⟨pipe, found⟩ := Option.isSome_iff_exists.mp (AList.lookup_isSome.mpr present)
    rw [sound.receivers channel isAlive]
    refine ⟨pipe, found, ?_⟩
    rw [← content_of_lookup found]
    exact delivered_run initial run channel.channelId

private def bothIds : List ParticipantId := [⟨0⟩, ⟨1⟩]

private def idleNode : NetworkNode where
  client :=
    { transportSender := .new ⟨0⟩ bothIds
      channels := .new
      indexerHeights := bothIds.foldl (fun heights id => heights.insert id 0) ∅
      tracked := by decide
      newChannels := []
      newChannelReceiverAlive := true }
  lastId := ⟨0⟩
  alive := []

private def earlyChannel : ChannelId := ⟨⟨77⟩⟩

private def share (n : UInt8) : MpcPeerMessage := ⟨⟨1⟩, earlyChannel, .computation [[n]]⟩

/-- A message, the Start it should have waited for, a second Start and another message. -/
private def earlyMessage : List Input :=
  [.incoming (.mpc (share 1)),
    .incoming (.mpc ⟨⟨1⟩, earlyChannel, .start ⟨.eddsaTaskId (.signature ⟨[]⟩), bothIds⟩⟩),
    .incoming (.mpc ⟨⟨1⟩, earlyChannel, .start ⟨.eddsaTaskId (.signature ⟨[]⟩), bothIds⟩⟩),
    .incoming (.mpc (share 2)), .receive earlyChannel]

/-- The early message was delivered first. -/
theorem channels_get_early_messages :
    ∃ es s, Run (Acts act) idleNode es s ∧ es.map Prod.fst = earlyMessage ∧
      arrived earlyChannel es = [share 1, share 2] ∧ taken earlyChannel es = [share 1] ∧
      (∀ c, c ∈ s.client.channels.senders ↔
        c ∈ s.client.channels.channelsWaitingForStart.keys ∨
          c ∈ s.alive.map NetworkTaskChannel.channelId) ∧
      ∃ channel ∈ s.alive, ∃ pipe,
        s.client.channels.senders.lookup channel.receiver = some pipe ∧
        (taken channel.channelId es ++ pipe.messages).filter
            (fun message => message.message.kind.startMessage = none) =
          arrived channel.channelId es := by
  have ended : (replay (restrict (fun s _ => decide s.client.channels.Roomy) act) idleNode
      earlyMessage).map (fun r => (r.1.alive.map NetworkTaskChannel.channelId,
        arrived earlyChannel r.2, taken earlyChannel r.2)) =
      some ([earlyChannel], [share 1, share 2], [share 1]) := by
    decide +kernel
  obtain ⟨⟨s, es⟩, ran, result⟩ := Option.map_eq_some_iff.mp ended
  simp only [Prod.mk.injEq] at result
  obtain ⟨living, came, given⟩ := result
  have run : Run (Guarded (fun s _ => s.client.channels.Roomy) (Acts act)) idleNode es s :=
    (run_of_replay ran).of_restrict.mono fun _ _ _ step => ⟨of_decide_eq_true step.1, step.2⟩
  have initial : idleNode.Initial := ⟨rfl, rfl, rfl⟩
  have holds := channels_get_their_messages initial
  obtain ⟨channel, isAlive, _⟩ : ∃ channel ∈ s.alive, channel.channelId = earlyChannel := by
    refine mem_map.mp ?_
    rw [living]
    exact mem_singleton_self _
  exact ⟨es, s, run.unguarded, inputs_of_replay ran, came, given,
    (holds.1 es s run.unguarded).1, channel, isAlive, holds.2 es s run channel isAlive⟩

end NetworkNode

def NetworkTaskChannelManager.waiting (self : NetworkTaskChannelManager) : List ChannelId :=
  self.channelsWaitingForStart.keys

theorem Split.waiting_register (split : Split channels live)
    (bounded : channels.waiting.length ≤ lruCapacity) (c : ChannelId) :
    (channels.register c).waiting = channels.waiting ∨
      (channels.register c).waiting = (c :: channels.waiting).take lruCapacity := by
  unfold NetworkTaskChannelManager.register
  split
  · exact .inl rfl
  · rename_i absent
    have isNew : c ∉ channels.waiting := fun waits => absent ((split.covered c).mpr (.inl waits))
    have pushed := channels.channelsWaitingForStart.keys_push_new ⟨c⟩ isNew
      (by rwa [split.capacity]) (by rw [split.capacity]; decide)
    rw [split.capacity] at pushed
    refine .inr (Eq.trans ?_ pushed)
    dsimp only
    split
    · split <;> rfl
    · rfl

namespace NetworkNode

/-- The channel may come up in front, and leaves the queue when it is opened or given up. -/
def Queues (before : List ChannelId) (note : Note) (after : List ChannelId) : Prop :=
  ∃ c queue, (queue = before ∨ queue = (c :: before).take lruCapacity) ∧
    (after = queue ∨ (after = queue.filter fun a => a ≠ c) ∧ (note = .opened c ∨ note = .closed c))

theorem Step.queues (sound : Sound s) (bounded : s.client.channels.waiting.length ≤ lruCapacity)
    (step : Step s input note channels living) :
    Queues s.client.channels.waiting note channels.waiting := by
  have registered := sound.split.waiting_register bounded
  cases step with
  | height | received | dropped => exact ⟨⟨⟨0⟩⟩, _, .inl rfl, .inl rfl⟩
  | delivered _ c | refused _ _ c => exact ⟨c, _, registered c, .inl rfl⟩
  | opened _ _ c => exact ⟨c, _, registered c, .inr ⟨Lru.keys_pop _ c, .inl rfl⟩⟩
  | aborted _ _ c => exact ⟨c, _, registered c, .inr ⟨Lru.keys_pop _ c, .inr rfl⟩⟩

theorem Queues.bounded (queues : Queues before note after) (few : before.length ≤ lruCapacity) :
    after.length ≤ lruCapacity := by
  obtain ⟨c, queue, isQueue, isAfter⟩ := queues
  have short : queue.length ≤ lruCapacity := by
    rcases isQueue with rfl | rfl
    · exact few
    · exact length_take_le _ _
  rcases isAfter with rfl | ⟨rfl, _⟩
  · exact short
  · exact (length_filter_le _ _).trans short

/-- Each step moves a channel back by at most one place. -/
theorem Queues.take (queues : Queues before note after) (waits : c ∈ before.take n)
    (room : n < lruCapacity) (notOpened : note ≠ .opened c) (notClosed : note ≠ .closed c) :
    c ∈ after.take (n + 1) := by
  obtain ⟨d, queue, isQueue, isAfter⟩ := queues
  have inQueue : c ∈ queue.take (n + 1) := by
    rcases isQueue with rfl | rfl
    · exact take_subset_take_left _ n.le_succ waits
    · rw [take_take, Nat.min_eq_left room, take_succ_cons]
      exact mem_cons_of_mem d waits
  rcases isAfter with rfl | ⟨rfl, noted⟩
  · exact inQueue
  · have other : c ≠ d := by
      rintro rfl
      exact noted.elim notOpened notClosed
    have part := IsPrefix.filter (fun a => a ≠ d) <| take_prefix (n + 1) queue
    have kept : c ∈ (queue.take (n + 1)).filter fun a => a ≠ d :=
      mem_filter.mpr ⟨inQueue, by simpa using other⟩
    rw [prefix_iff_eq_take.mp part] at kept
    refine take_subset_take_left _ ?_ kept
    exact (length_filter_le _ _).trans (length_take_le _ _)

theorem waiting_run (initial : Initial start) (run : Run (Acts act) start es s) :
    s.client.channels.waiting.length ≤ lruCapacity := by
  refine run.invariant (fun _ s => s.client.channels.waiting.length ≤ lruCapacity) ?_ ?_
  · rw [initial.channels]
    exact Nat.zero_le _
  · intro _ s e t early bounded acts
    have sound := sound_run initial early
    exact ((act_step sound acts).1.queues sound bounded).bounded bounded

/-- Whatever peers send, the node has pipes for its channels and for `lruCapacity` more. -/
theorem pipes_bounded {start s : NetworkNode} {es : List (Input × Note)} (initial : Initial start)
    (run : Run (Acts act) start es s) :
    s.client.channels.waiting.length ≤ lruCapacity ∧
      s.client.channels.senders.keys.length ≤ lruCapacity + s.alive.length := by
  have bounded := waiting_run initial run
  have split := (sound_run initial run).split
  have part : s.client.channels.senders.keys ⊆
      s.client.channels.waiting ++ s.alive.map NetworkTaskChannel.channelId := by
    intro c inside
    exact mem_append.mpr ((split.covered c).mp inside)
  have few := (subperm_of_subset s.client.channels.senders.nodupKeys part).length_le
  rw [length_append, length_map] at few
  exact ⟨bounded, few.trans (Nat.add_le_add_right bounded _)⟩

theorem pipes_bounded_early : ∃ es s, Run (Acts act) idleNode es s ∧
    es.map Prod.fst = earlyMessage ∧ s.alive.length = 1 ∧
      s.client.channels.senders.keys.length ≤ lruCapacity + 1 := by
  obtain ⟨es, s, run, same, one⟩ := exists_run act idleNode earlyMessage
    (fun _ s => s.alive.length = 1) (by decide +kernel)
  exact ⟨es, s, run, same, one, one ▸ (pipes_bounded ⟨rfl, rfl, rfl⟩ run).2⟩

/-- A channel that waits for its Start gives way to later ones only: it keeps its pipe for as many
    steps as there is room, whatever peers send. -/
theorem waiting_channel_kept {start s t : NetworkNode} {es fs : List (Input × Note)}
    {c : ChannelId} (initial : Initial start) (early : Run (Acts act) start es s)
    (waits : c ∈ s.client.channels.waiting.take n) (later : Run (Acts act) s fs t)
    (room : n + fs.length ≤ lruCapacity)
    (untouched : ∀ e ∈ fs, e.2 ≠ .opened c ∧ e.2 ≠ .closed c) :
    c ∈ t.client.channels.waiting.take (n + fs.length) ∧ c ∈ t.client.channels.senders := by
  have queued : c ∈ t.client.channels.waiting.take (n + fs.length) := by
    induction later with
    | nil => exact waits
    | snoc before acts ih =>
      rw [length_append, length_singleton, ← Nat.add_assoc] at room ⊢
      have reached := early.trans before
      have sound := sound_run initial reached
      have queues := (act_step sound acts).1.queues sound (waiting_run initial reached)
      obtain ⟨notOpened, notClosed⟩ := untouched _ (mem_append_right _ (mem_singleton_self _))
      refine queues.take (ih (by omega) ?_) room notOpened notClosed
      exact fun e inside => untouched e (mem_append_left _ inside)
  have split := (sound_run initial (early.trans later)).split
  exact ⟨queued, (split.covered c).mpr (.inl (mem_of_mem_take queued))⟩

/-- A message for another channel comes in before the Start. -/
theorem early_channel_kept : ∃ es s e t, Run (Acts act) idleNode es s ∧ Acts act s e t ∧
    earlyChannel ∈ s.client.channels.waiting ∧ earlyChannel ∈ t.client.channels.senders := by
  obtain ⟨es, s, note, t, run, _, acts, waits, rfl⟩ := exists_run_then act idleNode
    [.incoming (.mpc (share 1))] (.incoming (.mpc ⟨⟨1⟩, ⟨⟨78⟩⟩, .success⟩))
    (fun _ s note _ => earlyChannel ∈ s.client.channels.waiting.take 1 ∧ note = .quiet)
    (by decide +kernel)
  refine ⟨es, s, _, t, run, acts, mem_of_mem_take waits, ?_⟩
  exact (waiting_channel_kept ⟨rfl, rfl, rfl⟩ run waits (.snoc .nil acts) (by decide) (by simp)).2

end NetworkNode

end MpcNetwork.Node.Network
