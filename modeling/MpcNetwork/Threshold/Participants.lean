import Mathlib.Algebra.Ring.Nat
import Mathlib.Data.List.Nodup
import Mathlib.Data.List.Sort

/-! # Participants of a threshold protocol

The library addresses parties by 32-bit numbers and keeps a protocol's parties as a
sorted list without repetition, so that everybody agrees on each party's index.
-/

namespace MpcNetwork.Threshold

structure Participant where
  id : UInt32
  deriving Repr, DecidableEq

inductive InitializationError where
  | badParameters (text : String)
  | duplicateParticipants
  | missingParticipant (role : String) (participant : Participant)
  | notEnoughParticipants (participants : Nat)
  | notEnoughParticipantsForThreshold (participants threshold : Nat)
  | notEnoughParticipantsForNewThreshold (threshold participants : Nat)
  | thresholdTooSmall (threshold min : Nat)
  | thresholdTooLarge (threshold max : Nat)
  deriving Repr, DecidableEq

/-- No repetition. The index map of the source is the position in the list. -/
structure ParticipantList where
  participants : List Participant
  distinct : participants.Nodup
  deriving DecidableEq

namespace ParticipantList

/-- Sort, and refuse a list that names a party twice. -/
def new (participants : List Participant) : Option ParticipantList :=
  let sorted := participants.insertionSort fun a b => a.id ≤ b.id
  if distinct : sorted.Nodup then some ⟨sorted, distinct⟩ else none

def len (l : ParticipantList) : Nat := l.participants.length

def contains (l : ParticipantList) (p : Participant) : Bool := l.participants.contains p

def others (l : ParticipantList) (me : Participant) : List Participant :=
  l.participants.filter fun p => p ≠ me

def index (l : ParticipantList) (p : Participant) : Option Nat := l.participants.idxOf? p

def intersection (l others : ParticipantList) : ParticipantList where
  participants := l.participants.filter others.contains
  distinct := l.distinct.filter _

@[simp] theorem contains_iff {l : ParticipantList} : l.contains p = true ↔ p ∈ l.participants :=
  List.contains_iff_mem

/-- The list is accepted exactly when nobody is named twice, and then only reordered. -/
theorem new_eq_some {participants : List Participant} (distinct : participants.Nodup) :
    ∃ l, new participants = some l ∧ l.participants.Perm participants := by
  have sorted := List.perm_insertionSort (fun a b : Participant => a.id ≤ b.id) participants
  refine ⟨⟨_, sorted.nodup_iff.mpr distinct⟩, ?_, sorted⟩
  exact dif_pos (sorted.nodup_iff.mpr distinct)

theorem new_eq_none_iff {participants : List Participant} :
    new participants = none ↔ ¬ participants.Nodup := by
  have sorted := List.perm_insertionSort (fun a b : Participant => a.id ≤ b.id) participants
  simp only [new, dite_eq_right_iff, reduceCtorEq, imp_false, sorted.nodup_iff]

theorem perm_of_new {participants : List Participant}
    (made : new participants = some l) : l.participants.Perm participants := by
  simp only [new, Option.dite_none_right_eq_some, Option.some.injEq] at made
  obtain ⟨_, rfl⟩ := made
  exact List.perm_insertionSort _ _

theorem mem_of_new {participants : List Participant}
    (made : new participants = some l) : p ∈ l.participants ↔ p ∈ participants :=
  (perm_of_new made).mem_iff

end ParticipantList

end MpcNetwork.Threshold
