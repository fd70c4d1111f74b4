import MpcNetwork.Lib.BigEndian

/-! # Identifiers shared by the node's subsystems

Participant ids are 32-bit.  A unique id packs a participant id, a timestamp in
seconds and a counter into 128 bits, and its big-endian bytes are the database
key of an asset.
-/

namespace MpcNetwork.Node

open BigEndian

structure ParticipantId where
  raw : UInt32
  deriving Repr, DecidableEq

structure DomainId where
  id : UInt64
  deriving Repr, DecidableEq

structure UniqueId where
  id : BitVec 128
  deriving Repr, DecidableEq

namespace UniqueId

/-- Participant in the top 32 bits, then 64 bits of timestamp, then the counter. -/
def new (participantId : ParticipantId) (timestamp : UInt64) (counter : UInt32) : UniqueId :=
  ⟨(participantId.raw.toBitVec.setWidth 128 <<< 96) ||| (timestamp.toBitVec.setWidth 128 <<< 32) |||
    counter.toBitVec.setWidth 128⟩

def participantId (u : UniqueId) : ParticipantId :=
  ⟨⟨(u.id >>> 96).setWidth 32⟩⟩

def timestamp (u : UniqueId) : UInt64 :=
  ⟨(u.id >>> 32).setWidth 64⟩

def counter (u : UniqueId) : UInt32 :=
  ⟨u.id.setWidth 32⟩

def generate (participantId : ParticipantId) (now : UInt64) : UniqueId := new participantId now 0

/-- A new id after this one, by the clock or by the counter, which must not overflow. -/
def pickNewAfter (u : UniqueId) (now : UInt64) : Option UniqueId :=
  if u.timestamp < now then some (new u.participantId now 0)
  else if u.counter.toNat + 1 < 2 ^ 32 then
    some (new u.participantId u.timestamp (u.counter + 1))
  else none

/-- The id that many places further on, for a batch of assets. -/
def addToCounter (u : UniqueId) (delta : UInt32) : Except String UniqueId :=
  if u.counter.toNat + delta.toNat < 2 ^ 32 then
    .ok (new u.participantId u.timestamp (u.counter + delta))
  else .error "Counter overflow"

theorem toNat_participantId (u : UniqueId) : u.participantId.raw.toNat = u.id.toNat / 2 ^ 96 := by
  have fits := u.id.isLt
  simp only [participantId, UInt32.toNat, BitVec.toNat_setWidth, BitVec.toNat_ushiftRight,
    Nat.shiftRight_eq_div_pow]
  omega

theorem toNat_timestamp (u : UniqueId) : u.timestamp.toNat = u.id.toNat / 2 ^ 32 % 2 ^ 64 := by
  simp only [timestamp, UInt64.toNat, BitVec.toNat_setWidth, BitVec.toNat_ushiftRight,
    Nat.shiftRight_eq_div_pow]

theorem toNat_counter (u : UniqueId) : u.counter.toNat = u.id.toNat % 2 ^ 32 := by
  simp only [counter, UInt32.toNat, BitVec.toNat_setWidth]

section

variable (p : ParticipantId) (timestamp : UInt64) (counter : UInt32)

theorem toNat_new :
    (new p timestamp counter).id.toNat =
      p.raw.toNat * 2 ^ 96 + timestamp.toNat * 2 ^ 32 + counter.toNat := by
  have hp := p.raw.toNat_lt
  have ht := timestamp.toNat_lt
  have hc := counter.toNat_lt
  have low : timestamp.toNat * 2 ^ 32 + counter.toNat < 2 ^ 96 := by omega
  have high : p.raw.toNat * 2 ^ 96 < 2 ^ 128 := by
    have := Nat.mul_lt_mul_of_pos_right hp (by decide : 0 < 2 ^ 96)
    omega
  have middle : timestamp.toNat * 2 ^ 32 < 2 ^ 128 := 
    (Nat.le_add_right _ _).trans_lt (low.trans (by decide))
  have small : p.raw.toNat < 2 ^ 128 ∧ timestamp.toNat < 2 ^ 128 ∧ counter.toNat < 2 ^ 128 := by
    omega
  simp only [new, BitVec.toNat_or, BitVec.toNat_shiftLeft, BitVec.toNat_setWidth,
    UInt32.toNat_toBitVec, UInt64.toNat_toBitVec, Nat.mod_eq_of_lt small.1,
    Nat.mod_eq_of_lt small.2.1, Nat.mod_eq_of_lt small.2.2, Nat.shiftLeft_eq,
    Nat.mod_eq_of_lt high, Nat.mod_eq_of_lt middle]
  rw [Nat.or_assoc, ← Nat.shiftLeft_eq timestamp.toNat, ← Nat.shiftLeft_add_eq_or_of_lt hc,
    Nat.shiftLeft_eq, ← Nat.shiftLeft_eq, ← Nat.shiftLeft_add_eq_or_of_lt low, Nat.shiftLeft_eq,
    Nat.add_assoc]

@[simp] theorem participantId_new :
    (new p timestamp counter).participantId = p := by
  have number := toNat_participantId (new p timestamp counter)
  have ht := timestamp.toNat_lt
  have hc := counter.toNat_lt
  rw [toNat_new] at number
  have same : (new p timestamp counter).participantId.raw = p.raw :=
    UInt32.toNat_inj.mp (by omega)
  exact congrArg ParticipantId.mk same

@[simp] theorem timestamp_new :
    (new p timestamp counter).timestamp = timestamp := by
  have number := toNat_timestamp (new p timestamp counter)
  have ht := timestamp.toNat_lt
  have hc := counter.toNat_lt
  rw [toNat_new] at number
  exact UInt64.toNat_inj.mp (by omega)

@[simp] theorem counter_new :
    (new p timestamp counter).counter = counter := by
  have number := toNat_counter (new p timestamp counter)
  have hc := counter.toNat_lt
  rw [toNat_new] at number
  exact UInt32.toNat_inj.mp (by omega)

end

theorem toNat_id (u : UniqueId) : u.id.toNat =
    u.participantId.raw.toNat * 2 ^ 96 + u.timestamp.toNat * 2 ^ 32 + u.counter.toNat := by
  rw [toNat_participantId, toNat_timestamp, toNat_counter]
  omega

theorem participantId_addToCounter {u : UniqueId} (added : u.addToCounter delta = .ok v) :
    v.participantId = u.participantId := by
  unfold addToCounter at added
  split at added
  · cases added
    exact participantId_new _ _ _
  · cases added

/-- The prefix shared by the keys of all ids of one participant. -/
def prefixForParticipantId (p : ParticipantId) : List UInt8 :=
  toBeBytes 4 p.raw.toNat

/-- The borsh encoding: big-endian, so that key order is numeric order. -/
def serialize (u : UniqueId) : List UInt8 :=
  toBeBytes 16 u.id.toNat

def tryFromSlice (bytes : List UInt8) : Option UniqueId :=
  if bytes.length = 16 then some ⟨BitVec.ofNat 128 (ofBeBytes bytes)⟩ else none

@[simp] theorem length_serialize (u : UniqueId) : u.serialize.length = 16 :=
  length_toBeBytes 16 _

theorem serialize_eq (u : UniqueId) :
    ∃ rest, u.serialize = prefixForParticipantId u.participantId ++ rest := by
  have fits : u.id.toNat < 256 ^ (4 + 12) := u.id.isLt
  have owner : u.participantId.raw.toNat = u.id.toNat / 256 ^ 12 := u.toNat_participantId
  exact ⟨_, by rw [serialize, toBeBytes_add fits, prefixForParticipantId, owner]⟩

theorem tryFromSlice_serialize (u : UniqueId) : tryFromSlice u.serialize = some u := by
  have fits : u.id.toNat < 256 ^ 16 := u.id.isLt
  rw [tryFromSlice, if_pos (length_serialize u)]
  simp only [serialize, ofBeBytes_toBeBytes fits, BitVec.ofNat_toNat, BitVec.setWidth_eq]

theorem serialize_of_tryFromSlice (decoded : tryFromSlice bytes = some u) :
    u.serialize = bytes := by
  unfold tryFromSlice at decoded
  split at decoded
  · rename_i len
    obtain rfl := Option.some.inj decoded
    have fits : ofBeBytes bytes < 2 ^ 128 := by simpa [len] using ofBeBytes_lt bytes
    simp only [serialize, BitVec.toNat_ofNat, Nat.mod_eq_of_lt fits]
    simpa only [len] using toBeBytes_ofBeBytes bytes
  · cases decoded

theorem serialize_injective {u v : UniqueId} (same : u.serialize = v.serialize) : u = v := by
  have both := tryFromSlice_serialize u
  rw [same, tryFromSlice_serialize v] at both
  exact (Option.some.inj both).symm

end UniqueId

end MpcNetwork.Node
