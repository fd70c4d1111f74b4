import MpcNetwork.Lib.BigEndian
import MpcNetwork.Lib.Futures
import MpcNetwork.Lib.Hex
import MpcNetwork.Threshold.Protocol

/-! # Channels between the parties of a protocol

Messages are sorted by a header that names a channel and a waitpoint in it.  What a party does on
its channels is a future over these queues; the encoding of what it sends and receives is a
parameter.
-/

namespace MpcNetwork.Threshold

open Futures BigEndian

def Participant.bytes (self : Participant) : List UInt8 := (toBeBytes 4 self.id.toNat).reverse

def nearChannelTagsDomain : List UInt8 := Hex.utf8 "Near threshold signatures channel tags"

structure ChannelTag where
  bytes : List UInt8
  deriving Repr, DecidableEq

namespace ChannelTag

variable (sha256 : List UInt8 → List UInt8)

def size : Nat := 32

def rootShared : ChannelTag := ⟨sha256 (nearChannelTagsDomain ++ Hex.utf8 "root shared")⟩

/-- The order of the two participants does not matter. -/
def rootPrivate (p0 p1 : Participant) : ChannelTag :=
  let first := if p0.id ≤ p1.id then p0 else p1
  let second := if p0.id ≤ p1.id then p1 else p0
  ⟨sha256 (nearChannelTagsDomain ++ Hex.utf8 "root private" ++ Hex.utf8 "p0" ++ first.bytes ++
    Hex.utf8 "p1" ++ second.bytes)⟩

end ChannelTag

abbrev Waitpoint := UInt64

structure MessageHeader where
  channel : ChannelTag
  waitpoint : Waitpoint
  deriving Repr, DecidableEq

namespace MessageHeader

def len : Nat := ChannelTag.size + 8

def new (channel : ChannelTag) : MessageHeader := ⟨channel, 0⟩

def toBytes (self : MessageHeader) : List UInt8 :=
  self.channel.bytes ++ (toBeBytes 8 self.waitpoint.toNat).reverse

def fromBytes (bytes : List UInt8) : Option MessageHeader :=
  if bytes.length < len then none
  else
    let wait := (bytes.take len).drop ChannelTag.size
    some ⟨⟨bytes.take ChannelTag.size⟩, UInt64.ofNat (ofBeBytes wait.reverse)⟩

def withWaitpoint (self : MessageHeader) (waitpoint : Waitpoint) : MessageHeader :=
  { self with waitpoint }

end MessageHeader

inductive Message where
  | many (data : MessageData)
  | privateTo (recipient : Participant) (data : MessageData)
  deriving Repr, DecidableEq

abbrev Task (α : Type) := Future MessageHeader (Participant × MessageData) Message α

abbrev Letters := Mail MessageHeader (Participant × MessageData) Message

structure Comms where
  maxEntries : Nat
  mail : Letters

namespace Comms

def withBufferCapacity (maxEntries : Nat) : Comms := ⟨maxEntries, ⟨∅, ∅, []⟩⟩

/-- A new header is refused when the buffer is full. -/
def push (self : Comms) (header : MessageHeader) (sender : Participant) (message : MessageData) :
    Except MessageError Comms :=
  let queues := self.mail.queues
  match queues.lookup header with
  | some messages =>
    .ok { self with mail.queues := queues.insert header (messages ++ [(sender, message)]) }
  | none =>
    if queues.keys.length < self.maxEntries then
      .ok { self with mail.queues := queues.insert header [(sender, message)] }
    else .error (.bufferFull self.maxEntries)

def pushMessage (self : Comms) (sender : Participant) (message : MessageData) :
    Except MessageError Comms :=
  if message.length < MessageHeader.len then
    .error (.tooShort message.length MessageHeader.len)
  else
    match MessageHeader.fromBytes message with
    | none => .error .invalidHeader
    | some header => self.push header sender message

theorem push_ok {self : Comms} (pushed : self.push header sender data = .ok after) :
    after.mail.locked = self.mail.locked ∧
      ∀ other, after.mail.messages other =
        self.mail.messages other ++ if other = header then [(sender, data)] else [] := by
  unfold push at pushed
  simp only at pushed
  split at pushed
  · rename_i earlier there
    cases pushed
    refine ⟨rfl, fun other => ?_⟩
    simp only [Mail.messages, Table.lookup_insert_eq]
    split
    · rename_i same
      subst same
      simp [there]
    · simp
  · rename_i nothing
    split at pushed
    · cases pushed
      refine ⟨rfl, fun other => ?_⟩
      simp only [Mail.messages, Table.lookup_insert_eq]
      split
      · rename_i same
        subst same
        simp [nothing]
      · simp
    · cases pushed

theorem pushMessage_ok {self : Comms} (pushed : self.pushMessage sender data = .ok after) :
    ∃ header, MessageHeader.fromBytes data = some header ∧
      self.push header sender data = .ok after := by
  unfold pushMessage at pushed
  split at pushed
  · cases pushed
  · split at pushed
    · cases pushed
    · rename_i header isHeader
      exact ⟨header, isHeader, pushed⟩

variable {T : Type}

/-- What is sent under a header. -/
def encodeWithTag (header : MessageHeader) (data : MessageData) : MessageData :=
  header.toBytes ++ data

def decoded (decode : MessageData → Except String T) (data : MessageData) :
    Except ProtocolError T :=
  if data.length < MessageHeader.len then
    .error (.deserializationError "Failed to deserialize message data")
  else (decode (data.drop MessageHeader.len)).mapError .other

def recv (header : MessageHeader) (decode : MessageData → Except String T) :
    Task (Except ProtocolError (Participant × T)) :=
  .bind (.next header) fun received =>
    .pure ((decoded decode received.2).map fun value => (received.1, value))

section RoundTrip

variable {header : MessageHeader} (sized : header.channel.bytes.length = ChannelTag.size)
  (data : MessageData)

include sized

theorem length_toBytes : header.toBytes.length = MessageHeader.len := by
  simp [MessageHeader.toBytes, MessageHeader.len, sized]

theorem fromBytes_encodeWithTag :
    MessageHeader.fromBytes (encodeWithTag header data) = some header := by
  have fits : header.waitpoint.toNat < 256 ^ 8 := header.waitpoint.toNat_lt
  have length := length_toBytes sized
  have tag : (header.toBytes ++ data).take ChannelTag.size = header.channel.bytes := by
    rw [MessageHeader.toBytes, List.append_assoc, ← sized, List.take_left]
  have wait : ((header.toBytes ++ data).take MessageHeader.len).drop ChannelTag.size =
      (toBeBytes 8 header.waitpoint.toNat).reverse := by
    rw [← length, List.take_left, MessageHeader.toBytes, ← sized, List.drop_left]
  rw [encodeWithTag, MessageHeader.fromBytes, if_neg (by rw [List.length_append]; omega), tag, wait]
  simp only [List.reverse_reverse, ofBeBytes_toBeBytes fits, UInt64.ofNat_toNat]

theorem decoded_encodeWithTag (decode : MessageData → Except String T) :
    decoded decode (encodeWithTag header data) = (decode data).mapError .other := by
  have length := length_toBytes sized
  rw [encodeWithTag, decoded, if_neg (by rw [List.length_append]; omega), ← length, List.drop_left]

end RoundTrip

/-- Messages arrive one after another. -/
def pushAll (self : Comms) (sent : List (Participant × MessageHeader × MessageData)) :
    Except MessageError Comms :=
  sent.foldlM (fun comms m => comms.pushMessage m.1 (encodeWithTag m.2.1 m.2.2)) self

/-- However messages under different headers are mixed, what is decoded under a header is what was
    sent under it, in the order of arrival. -/
theorem sent_messages_decoded {self after : Comms}
    {sent : List (Participant × MessageHeader × MessageData)}
    (sized : ∀ m ∈ sent, m.2.1.channel.bytes.length = ChannelTag.size)
    (pushed : self.pushAll sent = .ok after) (decode : MessageData → Except String T)
    (header : MessageHeader) :
    (after.mail.messages header).map (fun m => (m.1, decoded decode m.2)) =
      (self.mail.messages header).map (fun m => (m.1, decoded decode m.2)) ++
        (sent.filter fun m => m.2.1 = header).map fun m =>
          (m.1, (decode m.2.2).mapError .other) := by
  induction sent generalizing self with
  | nil =>
    cases pushed
    simp
  | cons m sent ih =>
    obtain ⟨sizedFirst, sizedRest⟩ := List.forall_mem_cons.mp sized
    rw [pushAll, List.foldlM_cons] at pushed
    cases first : self.pushMessage m.1 (encodeWithTag m.2.1 m.2.2) with
    | error err => simp [first] at pushed
    | ok next =>
      obtain ⟨_, isHeader, put⟩ := pushMessage_ok first
      cases (fromBytes_encodeWithTag sizedFirst m.2.2).symm.trans isHeader
      rw [first] at pushed
      rw [ih sizedRest pushed, (push_ok put).2 header]
      by_cases same : m.2.1 = header
      · simp [same, decoded_encodeWithTag (same ▸ sizedFirst)]
      · simp [same, Ne.symm same]

private def tagged (n : UInt8) : MessageHeader := ⟨⟨.replicate 32 n⟩, 0⟩

private def mixed : List (Participant × MessageHeader × MessageData) :=
  [(⟨1⟩, tagged 1, [7]), (⟨2⟩, tagged 2, [8]), (⟨1⟩, tagged 1, [9])]

theorem mixed_messages_decoded : ∃ after, (withBufferCapacity 2).pushAll mixed = .ok after ∧
    (after.mail.messages (tagged 1)).map (fun m => (m.1, decoded .ok m.2)) =
      [(⟨1⟩, .ok [7]), (⟨1⟩, .ok [9])] :=
  ⟨_, rfl, @sent_messages_decoded _ (withBufferCapacity 2) _ mixed (by decide) rfl .ok (tagged 1)⟩

end Comms

structure SharedChannel where
  header : MessageHeader

namespace SharedChannel

variable {T : Type} (self : SharedChannel)

def new (sha256 : List UInt8 → List UInt8) : SharedChannel := ⟨.new (.rootShared sha256)⟩

def recv (waitpoint : Waitpoint) (decode : MessageData → Except String T) :
    Task (Except ProtocolError (Participant × T)) :=
  Comms.recv (self.header.withWaitpoint waitpoint) decode

end SharedChannel

structure PrivateChannel where
  header : MessageHeader
  peer : Participant

namespace PrivateChannel

variable {T : Type} (self : PrivateChannel)

def new (sha256 : List UInt8 → List UInt8) (me peer : Participant) : PrivateChannel :=
  ⟨.new (.rootPrivate sha256 me peer), peer⟩

/-- A message of somebody else is skipped, and the task gives way before it looks again. -/
def received : Except ProtocolError (Participant × T) →
    Task (Unit ⊕ Except ProtocolError T)
  | .error err => .pure (.inr (.error err))
  | .ok (sender, data) =>
    if sender ≠ self.peer then .bind .yieldNow fun _ => .pure (.inl ())
    else .pure (.inr (.ok data))

def recv (waitpoint : Waitpoint) (decode : MessageData → Except String T) :
    Task (Except ProtocolError T) :=
  .loop (fun _ => .bind (Comms.recv (self.header.withWaitpoint waitpoint) decode) self.received) ()

end PrivateChannel

end MpcNetwork.Threshold
