import MpcNetwork.Threshold.Interpolation

/-! # Shares and rounds among honest participants

The coefficients that `lagrange` gives to the participants of a list add the values of a polynomial
at their ids up to its value at zero.  In a round among honest participants everybody gets one
message of everybody else, in any order.
-/

namespace MpcNetwork.Threshold

open Dkg (computeLagrangeCoefficient scalar)
open EchoBroadcast Fallible Jobs List

/-- No two ids are the same scalar. -/
def Separates (Scalar : Type) [Field Scalar] : Prop :=
  ∀ n : Nat, 0 < n → n < 2 ^ 32 → (n : Scalar) ≠ 0

section Coefficients

variable {Scalar : Type} [Field Scalar]

theorem Separates.injective (separates : Separates Scalar) :
    Function.Injective (scalar Scalar) := by
  have apart : ∀ p q : Participant, p.id.toNat < q.id.toNat → scalar Scalar p ≠ scalar Scalar q := by
    intro p q below same
    have := q.id.toNat_lt
    refine separates (q.id.toNat - p.id.toNat) (by omega) (by omega) ?_
    rw [Nat.cast_sub below.le, sub_eq_zero]
    simpa [scalar] using same.symm
  intro p q same
  rcases Nat.lt_trichotomy p.id.toNat q.id.toNat with below | equal | above
  · exact absurd same (apart p q below)
  · cases p
    cases q
    exact congrArg Participant.mk (UInt32.toNat_inj.mp equal)
  · exact absurd same.symm (apart q p above)

/-- The coefficient of a participant for the value at zero. -/
noncomputable def ParticipantList.lambda (l : ParticipantList) (p : Participant) : Scalar :=
  (Lagrange.basis l.participants.toFinset (scalar Scalar) p).eval 0

variable [DecidableEq Scalar] {l : ParticipantList} {p : Participant}

def ParticipantList.lagrange (l : ParticipantList) (p : Participant) :
    Except ProtocolError Scalar :=
  computeLagrangeCoefficient (l.participants.map (scalar Scalar)) (scalar Scalar p)

theorem lagrange_eq_lambda (separates : Separates Scalar) (several : 2 ≤ l.len)
    (inside : p ∈ l.participants) : l.lagrange p = .ok (l.lambda p : Scalar) :=
  computeLagrangeCoefficientAt_eq l.distinct separates.injective several inside none

omit [DecidableEq Scalar] in
/-- The values of a polynomial add up to its value at zero. -/
theorem sum_lambda (separates : Separates Scalar)
    (low : f ∈ Polynomial.degreeLT Scalar l.len) :
    (l.participants.map fun p => l.lambda p * f.eval (scalar Scalar p)).sum = f.eval 0 :=
  sum_basisAt l.distinct separates.injective low

omit [DecidableEq Scalar] in
theorem sum_lambda_smul (separates : Separates Scalar)
    (low : f ∈ Polynomial.degreeLT Scalar l.len) {M : Type} [AddCommGroup M] [Module Scalar M]
    (g : M) : (l.participants.map fun p => (l.lambda p * f.eval (scalar Scalar p)) • g).sum =
      f.eval 0 • g := by
  rw [← sum_lambda separates low, sum_smul, map_map]
  rfl

theorem pairDistinct : ([⟨0⟩, ⟨1⟩] : List Participant).Nodup := by decide

/-- Two participants for the instances of the results about honest runs. -/
def signerPair : ParticipantList := ⟨[⟨0⟩, ⟨1⟩], pairDistinct⟩

theorem rational_separates : Separates ℚ :=
  fun _ positive _ => Nat.cast_ne_zero.mpr positive.ne'

end Coefficients

section Rounds

variable {T : Type} {l : ParticipantList} {order : List Participant}

/-- What honest participants have sent, in the order of its arrival. -/
def sentBy (order : List Participant) (message : Participant → T) :
    List (Participant × Except String T) :=
  order.map fun q => (q, .ok (message q))

theorem gather_sentBy (once : order.Nodup)
    (missing : ∀ q ∈ order, q ∈ l.participants ∧ q ∉ seen.seen)
    (rest : seen.seen.length + order.length = l.len) :
    gather l seen messages (sentBy order message) =
      .ok (messages ++ order.map fun q => (q, message q)) := by
  induction order generalizing seen messages with
  | nil =>
    have isFull : seen.full l := decide_eq_true rest
    rw [sentBy, map_nil, gather, if_pos isFull, map_nil, append_nil]
  | cons q order ih =>
    rw [length_cons] at rest
    obtain ⟨unique, once⟩ := nodup_cons.mp once
    obtain ⟨⟨inside, isNew⟩, missing⟩ := forall_mem_cons.mp missing
    have notFull : ¬ seen.full l := by
      simp only [ParticipantCounter.full, decide_eq_true_eq]
      omega
    have put : seen.put l q = (⟨q :: seen.seen⟩, true) := by
      simp [ParticipantCounter.put, inside, isNew]
    rw [sentBy, map_cons, gather, if_neg notFull]
    simp only [put, if_true]
    refine (ih once ?_ ?_).trans (by simp)
    · intro p there
      obtain ⟨known, unseen⟩ := missing p there
      refine ⟨known, ?_⟩
      rw [mem_cons, not_or]
      refine ⟨?_, unseen⟩
      rintro rfl
      exact unique there
    · simp only [length_cons]
      omega

theorem ParticipantList.perm_others (inside : me ∈ l.participants) :
    (me :: l.others me).Perm l.participants := by
  have same : l.others me = l.participants.erase me := by
    rw [l.distinct.erase_eq_filter]
    exact filter_congr fun q _ => by by_cases same : q = me <;> simp [same]
  rw [same]
  exact (perm_cons_erase inside).symm

/-- Everybody's message is gathered, in whatever order they come. -/
theorem recvFromOthers_sentBy (inside : me ∈ l.participants)
    (all : order.Perm (l.others me)) :
    recvFromOthers l me (sentBy order message) = .ok (order.map fun q => (q, message q)) := by
  have put : ParticipantCounter.new.put l me = (⟨[me]⟩, true) := by
    simp [ParticipantCounter.put, ParticipantCounter.new, inside]
  rw [recvFromOthers, put]
  refine gather_sentBy (all.nodup_iff.mpr (l.distinct.filter _)) ?_ ?_
  · intro q there
    have other := all.mem_iff.mp there
    simpa [ParticipantList.others] using other
  · have whole := (l.perm_others inside).length_eq
    rw [length_cons] at whole
    rw [all.length_eq, ParticipantList.len, ← whole]
    exact Nat.add_comm 1 _

theorem foldl_messages {M : Type} [AddCommMonoid M] (own : M) (f : Participant → M) :
    (order.map fun q => (q, f q)).foldl (fun sum message => sum + message.2) own =
      own + (order.map f).sum := by
  induction order generalizing own with
  | nil => simp
  | cons q order ih =>
    rw [map_cons, foldl_cons, ih, map_cons, sum_cons, add_assoc]

theorem sum_order {M : Type} [AddCommMonoid M] (f : Participant → M) (inside : me ∈ l.participants)
    (all : order.Perm (l.others me)) : f me + (order.map f).sum = (l.participants.map f).sum := by
  rw [(all.map f).sum_eq, ← sum_cons, ← map_cons]
  exact ((l.perm_others inside).map f).sum_eq

end Rounds

end MpcNetwork.Threshold
