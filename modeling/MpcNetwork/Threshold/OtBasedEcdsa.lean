import MpcNetwork.Lib.Fallible
import MpcNetwork.Threshold.Participants

/-! # Parameters of OT-based ECDSA

The checks the library makes on its arguments before it starts to generate triples, to
presign or to sign.
-/

namespace MpcNetwork.Threshold.OtBasedEcdsa

open Fallible

structure ReconstructionLowerBound where
  value : Nat
  deriving Repr, DecidableEq

structure PresignOutput (Point Scalar : Type) where
  bigR : Point
  k : Scalar
  sigma : Scalar

/-- That the list contains this node is not checked. -/
def validateTripleInputs (participants : List Participant) (threshold : ReconstructionLowerBound) :
    Except InitializationError ParticipantList := do
  require (2 ≤ participants.length) (.notEnoughParticipants participants.length)
  require (threshold.value ≤ participants.length)
    (.thresholdTooLarge threshold.value participants.length)
  require (2 ≤ threshold.value) (.thresholdTooSmall threshold.value 2)
  found .duplicateParticipants (ParticipantList.new participants)

/-- How many messages may wait for the generation to read them. -/
def tripleGenerationMaxIncomingBufferEntries (numParticipants numTriples : Nat) :
    Except InitializationError Nat := do
  require (1 ≤ numParticipants) (.badParameters "num_participants must be > 0")
  let entries := 131 * numTriples * (numParticipants - 1) + 7
  require (131 * numTriples < 2 ^ 64 ∧ entries < 2 ^ 64) (.badParameters "buffer size overflow")
  pure entries

/-- The checks of `generate_triple_many`, with the capacity of the buffer. -/
def generateTripleMany (numTriples : Nat) (participants : List Participant)
    (threshold : ReconstructionLowerBound) :
    Except InitializationError (Nat × ParticipantList) := do
  let participants ← validateTripleInputs participants threshold
  let capacity ← tripleGenerationMaxIncomingBufferEntries participants.len numTriples
  pure (capacity, participants)

/-- The checks of `presign`; the triples enter with the threshold each was made for. -/
def presign (participants : List Participant) (me : Participant)
    (threshold threshold0 threshold1 : ReconstructionLowerBound) :
    Except InitializationError ParticipantList := do
  require (2 ≤ participants.length) (.notEnoughParticipants participants.length)
  require (threshold.value ≤ participants.length)
    (.thresholdTooLarge threshold.value participants.length)
  require (threshold = threshold0 ∧ threshold = threshold1)
    (.badParameters "New threshold must match the threshold of both triples")
  let participants ← found .duplicateParticipants (ParticipantList.new participants)
  require (participants.contains me) (.missingParticipant "self" me)
  pure participants

/-- The checks `sign` makes before the protocol starts. -/
def sign (participants : List Participant) (coordinator : Participant)
    (threshold : ReconstructionLowerBound) (me : Participant) :
    Except InitializationError ParticipantList := do
  require (2 ≤ participants.length) (.notEnoughParticipants participants.length)
  let participants ← found .duplicateParticipants (ParticipantList.new participants)
  require (participants.contains me) (.missingParticipant "self" me)
  require (participants.contains coordinator) (.missingParticipant "coordinator" coordinator)
  require (threshold.value ≤ participants.len)
    (.notEnoughParticipantsForThreshold participants.len threshold.value)
  pure participants

/-! ## Who takes part

Whatever else is checked, the protocol runs among the listed participants. -/

theorem generateTripleMany_ok
    (checked : generateTripleMany numTriples participants threshold = .ok (capacity, l)) :
    ParticipantList.new participants = some l := by
  simp only [generateTripleMany, validateTripleInputs, bind_ok_iff, require_eq_ok, found_eq_ok,
    pure_ok_iff, Prod.mk.injEq] at checked
  obtain ⟨_, ⟨_, _, _, _, _, _, made⟩, _, _, _, rfl⟩ := checked
  exact made

theorem presign_ok (checked : presign participants me threshold threshold0 threshold1 = .ok l) :
    ParticipantList.new participants = some l := by
  simp only [presign, bind_ok_iff, require_eq_ok, found_eq_ok, pure_ok_iff] at checked
  obtain ⟨_, _, _, _, _, _, _, made, _, _, rfl⟩ := checked
  exact made

theorem sign_ok (checked : sign participants coordinator threshold me = .ok l) :
    ParticipantList.new participants = some l := by
  simp only [sign, bind_ok_iff, require_eq_ok, found_eq_ok, pure_ok_iff] at checked
  obtain ⟨_, _, _, made, _, _, _, _, _, _, rfl⟩ := checked
  exact made

end MpcNetwork.Threshold.OtBasedEcdsa
