import Mathlib.Algebra.Algebra.Bilinear
import Mathlib.Algebra.Field.ZMod
import Mathlib.LinearAlgebra.SesquilinearForm.Basic
import MpcNetwork.Threshold.Shares

/-! # Confidential key derivation

Everybody adds its share of `msk · H(pk, app_id)`, masked for the app.  In the publicly verifiable
protocol the coordinator does not check the contributions, but one equation of pairings about their
sum.  Together with the equation that ties the two keys of the app to one secret it leaves a single
value that the sum can unmask to.
-/

namespace MpcNetwork.Threshold.Ckd

open Dkg hiding Polynomial
open Fallible Jobs

/-- Two cyclic groups and a pairing into an additive one. The hash and the checks are arbitrary. -/
structure PairingSuite (Scalar G1 G2 Target : Type) [Field Scalar] [AddCommGroup G1]
    [Module Scalar G1] [AddCommGroup G2] [Module Scalar G2] [AddCommGroup Target]
    [Module Scalar Target] where
  generatorG1 : G1
  generatorG2 : G2
  pairing : G1 →ₗ[Scalar] G2 →ₗ[Scalar] Target
  nondegenerate : pairing.Nondegenerate
  generatesG1 : ∀ p : G1, ∃ a : Scalar, p = a • generatorG1
  generatesG2 : ∀ q : G2, ∃ a : Scalar, q = a • generatorG2
  checkValidPointG1 : G1 → Bool
  checkValidPointG2 : G2 → Bool
  toCompressed : G2 → List UInt8
  hashToCurve : List UInt8 → G1

structure CKDOutput (G1 : Type) where
  bigY : G1
  bigC : G1
  deriving DecidableEq

structure PublicVerificationKey (G1 G2 : Type) where
  pk1 : G1
  pk2 : G2

variable {Scalar G1 G2 Target : Type} [Field Scalar] [AddCommGroup G1] [Module Scalar G1]
  [AddCommGroup G2] [Module Scalar G2] [AddCommGroup Target] [Module Scalar Target]

def CKDOutput.unmask (self : CKDOutput G1) (secretScalar : Scalar) : G1 :=
  self.bigC - secretScalar • self.bigY

namespace PairingSuite

variable (suite : PairingSuite Scalar G1 G2 Target)

def hashAppIdWithPk (pk : G2) (appId : List UInt8) : G1 :=
  suite.hashToCurve (suite.toCompressed pk ++ appId)

/-- The share, masked with `y` that is drawn at random. -/
def computeSignatureShare [DecidableEq Scalar] (participants : ParticipantList) (me : Participant)
    (keyPair : KeygenOutput Scalar G2) (hashPoint appPk : G1) (y : Scalar) :
    Except ProtocolError (CKDOutput G1) := do
  let bigY := y • suite.generatorG1
  let bigS := keyPair.privateShare • hashPoint
  let bigC := bigS + y • appPk
  let lambda : Scalar ← participants.lagrange me
  pure ⟨lambda • bigY, lambda • bigC⟩

def addOutputs (own : CKDOutput G1) (outputs : List (Participant × CKDOutput G1)) : CKDOutput G1 :=
  outputs.foldl (fun sum message =>
    ⟨sum.bigY + message.2.bigY, sum.bigC + message.2.bigC⟩) own

def multiMillerLoop [DecidableEq Target] (points : List (G1 × G2)) : Bool :=
  (points.map fun point => suite.pairing point.1 point.2).sum = 0

variable [DecidableEq Target]

def aggregatedOutputCheck (output : CKDOutput G1) (appPk : PublicVerificationKey G1 G2)
    (publicKey : G2) (hashPoint : G1) : Bool :=
  suite.checkValidPointG1 output.bigC && suite.checkValidPointG1 output.bigY &&
    suite.multiMillerLoop [(output.bigC, -suite.generatorG2), (output.bigY, appPk.pk2),
      (hashPoint, publicKey)]

def appPublicKeyCheck (appPk : PublicVerificationKey G1 G2) : Bool :=
  suite.checkValidPointG1 appPk.pk1 && suite.checkValidPointG2 appPk.pk2 &&
    suite.multiMillerLoop [(appPk.pk1, -suite.generatorG2), (suite.generatorG1, appPk.pk2)]

variable [DecidableEq Scalar]

def doCkdParticipant (participants : ParticipantList) (me : Participant)
    (keyPair : KeygenOutput Scalar G2) (appId : List UInt8) (appPk : PublicVerificationKey G1 G2)
    (y : Scalar) : Except (Stop ProtocolError) (Option (CKDOutput G1)) := do
  let hashPoint := suite.hashAppIdWithPk keyPair.publicKey appId
  let _ ← failing (suite.computeSignatureShare participants me keyPair hashPoint appPk.pk1 y)
  pure none

def doCkdCoordinator (participants : ParticipantList) (me : Participant)
    (keyPair : KeygenOutput Scalar G2) (appId : List UInt8) (appPk : PublicVerificationKey G1 G2)
    (y : Scalar) (received : List (Participant × Except String (CKDOutput G1))) :
    Except (Stop ProtocolError) (Option (CKDOutput G1)) := do
  let hashPoint := suite.hashAppIdWithPk keyPair.publicKey appId
  let own ← failing (suite.computeSignatureShare participants me keyPair hashPoint appPk.pk1 y)
  let outputs ← recvFromOthers participants me received
  let ckdOutput := addOutputs own outputs
  failing (require (suite.aggregatedOutputCheck ckdOutput appPk keyPair.publicKey hashPoint)
    (.assertionFailed "CKD output failed to verify"))
  pure (some ckdOutput)

/-- The protocol that is started, run on what is received. -/
def ckd (participants : List Participant) (coordinator me : Participant)
    (keyPair : KeygenOutput Scalar G2) (appId : List UInt8) (appPk : PublicVerificationKey G1 G2)
    (y : Scalar) (received : List (Participant × Except String (CKDOutput G1))) :
    Except InitializationError (Except (Stop ProtocolError) (Option (CKDOutput G1))) := do
  require (2 ≤ participants.length) (.notEnoughParticipants participants.length)
  let participants ← found .duplicateParticipants (ParticipantList.new participants)
  require (participants.contains me) (.missingParticipant "self" me)
  require (participants.contains coordinator) (.missingParticipant "coordinator" coordinator)
  require (suite.appPublicKeyCheck appPk) (.badParameters "app_pk verification failed")
  pure (if me = coordinator
    then suite.doCkdCoordinator participants me keyPair appId appPk y received
    else suite.doCkdParticipant participants me keyPair appId appPk y)

variable {output : CKDOutput G1} {appPk : PublicVerificationKey G1 G2}

omit [DecidableEq Target] [DecidableEq Scalar] in
theorem eq_of_pairing_generatorG2
    (same : suite.pairing p suite.generatorG2 = suite.pairing p' suite.generatorG2) : p = p' := by
  refine sub_eq_zero.mp (suite.nondegenerate.1 _ fun q => ?_)
  obtain ⟨a, rfl⟩ := suite.generatesG2 q
  rw [map_smul, map_sub, LinearMap.sub_apply, same, sub_self, smul_zero]

omit [DecidableEq Target] [DecidableEq Scalar] in
theorem eq_of_pairing_generatorG1
    (same : suite.pairing suite.generatorG1 q = suite.pairing suite.generatorG1 q') : q = q' := by
  refine sub_eq_zero.mp (suite.nondegenerate.2 _ fun p => ?_)
  obtain ⟨a, rfl⟩ := suite.generatesG1 p
  rw [map_smul, LinearMap.smul_apply, map_sub, same, sub_self, smul_zero]

variable {suite}

omit [DecidableEq Scalar] in
/-- Both keys of the app belong to one secret. -/
theorem pk2_of_appPublicKeyCheck {a : Scalar} (checked : suite.appPublicKeyCheck appPk)
    (secret : appPk.pk1 = a • suite.generatorG1) : appPk.pk2 = a • suite.generatorG2 := by
  simp only [appPublicKeyCheck, multiMillerLoop, Bool.and_eq_true, decide_eq_true_eq, List.map_cons,
    List.map_nil, List.sum_cons, List.sum_nil, map_neg, add_zero, neg_add_eq_zero] at checked
  refine suite.eq_of_pairing_generatorG1 ?_
  rw [← checked.2, secret, map_smul, LinearMap.smul_apply, map_smul]

omit [DecidableEq Scalar] in
theorem unmask_of_aggregatedOutputCheck {a msk : Scalar}
    (checked : suite.aggregatedOutputCheck output appPk publicKey hashPoint)
    (app : appPk.pk2 = a • suite.generatorG2) (master : publicKey = msk • suite.generatorG2) :
    output.unmask a = msk • hashPoint := by
  simp only [aggregatedOutputCheck, multiMillerLoop, Bool.and_eq_true, decide_eq_true_eq,
    List.map_cons, List.map_nil, List.sum_cons, List.sum_nil, map_neg, add_zero, neg_add_eq_zero,
    app, master] at checked
  refine suite.eq_of_pairing_generatorG2 ?_
  rw [CKDOutput.unmask, map_sub, LinearMap.sub_apply, checked.2]
  simp only [map_smul, LinearMap.smul_apply, add_sub_cancel_left]

theorem doCkdCoordinator_ok
    (done : suite.doCkdCoordinator participants me keyPair appId appPk y received =
      .ok (some output)) :
    suite.aggregatedOutputCheck output appPk keyPair.publicKey
      (suite.hashAppIdWithPk keyPair.publicKey appId) := by
  simp only [doCkdCoordinator, failing, bind_ok_iff, mapError_eq_ok, require_eq_ok, pure_ok_iff,
    Option.some.injEq] at done
  obtain ⟨_, _, _, _, _, checked, rfl⟩ := done
  exact checked

/-- Whatever the others send, an output of the coordinator unmasks to the derived key. -/
theorem ckd_output_unmasks (suite : PairingSuite Scalar G1 G2 Target)
    {participants : List Participant} {coordinator me : Participant}
    {keyPair : KeygenOutput Scalar G2} {appId : List UInt8} {appPk : PublicVerificationKey G1 G2}
    {y a msk : Scalar} {received : List (Participant × Except String (CKDOutput G1))}
    {output : CKDOutput G1} (app : appPk.pk1 = a • suite.generatorG1)
    (master : keyPair.publicKey = msk • suite.generatorG2)
    (done : suite.ckd participants coordinator me keyPair appId appPk y received =
      .ok (.ok (some output))) :
    output.unmask a = msk • suite.hashAppIdWithPk keyPair.publicKey appId := by
  simp only [ckd, bind_ok_iff, require_eq_ok, found_eq_ok, pure_ok_iff] at done
  obtain ⟨_, _, list, _, _, _, _, _, _, checked, done⟩ := done
  split at done
  · exact unmask_of_aggregatedOutputCheck (doCkdCoordinator_ok done)
      (pk2_of_appPublicKeyCheck checked app) master
  · simp only [doCkdParticipant, bind_ok_iff, pure_ok_iff] at done
    obtain ⟨_, _, ⟨⟩⟩ := done

private instance primeSeven : Fact (Nat.Prime 7) := ⟨by decide⟩

private theorem product_nondegenerate {K : Type} [Field K] : (LinearMap.mul K K).Nondegenerate := by
  refine ⟨fun p zero => ?_, fun q zero => ?_⟩
  · simpa using zero 1
  · simpa using zero 1

private theorem product_generates {K : Type} [Field K] (p : K) : ∃ a : K, p = a • (1 : K) :=
  ⟨p, (mul_one p).symm⟩

/-- The pairing is the product, and everything is hashed to 3. -/
private def productSuite : PairingSuite (ZMod 7) (ZMod 7) (ZMod 7) (ZMod 7) where
  generatorG1 := 1
  generatorG2 := 1
  pairing := LinearMap.mul (ZMod 7) (ZMod 7)
  nondegenerate := product_nondegenerate
  generatesG1 := product_generates
  generatesG2 := product_generates
  checkValidPointG1 _ := true
  checkValidPointG2 _ := true
  toCompressed _ := []
  hashToCurve _ := (3 : ℕ)

/-- The key 2 is shared by the polynomial 2 + x, and the secret of the app is 5. -/
theorem ckd_output_unmasks_two :
    let output : CKDOutput (ZMod 7) := ⟨0, 6⟩
    productSuite.ckd [⟨0⟩, ⟨1⟩] ⟨0⟩ ⟨0⟩ ⟨3, 2⟩ [] ⟨5, 5⟩ 1 [(⟨1⟩, .ok ⟨5, 6⟩)] =
        .ok (.ok (some output)) ∧
      output.unmask (5 : ZMod 7) = (2 : ZMod 7) • productSuite.hashAppIdWithPk 2 [] := by
  have done : productSuite.ckd [⟨0⟩, ⟨1⟩] ⟨0⟩ ⟨0⟩ ⟨3, 2⟩ [] ⟨5, 5⟩ 1 [(⟨1⟩, .ok ⟨5, 6⟩)] =
    .ok (.ok (some ⟨0, 6⟩)) := by decide +kernel
  exact ⟨done, ckd_output_unmasks productSuite (by decide) (by decide) done⟩

end PairingSuite

namespace Plain

variable [DecidableEq Scalar] (suite : PairingSuite Scalar G1 G2 Target)

def computeSignatureShare (participants : ParticipantList) (me : Participant)
    (keyPair : KeygenOutput Scalar G2) (appId : List UInt8) (appPk : G1) (y : Scalar) :
    Except ProtocolError (CKDOutput G1) :=
  suite.computeSignatureShare participants me keyPair
    (suite.hashAppIdWithPk keyPair.publicKey appId) appPk y

def doCkdParticipant (participants : ParticipantList) (me : Participant)
    (keyPair : KeygenOutput Scalar G2) (appId : List UInt8) (appPk : G1) (y : Scalar) :
    Except (Stop ProtocolError) (Option (CKDOutput G1)) := do
  let _ ← failing (computeSignatureShare suite participants me keyPair appId appPk y)
  pure none

def doCkdCoordinator (participants : ParticipantList) (me : Participant)
    (keyPair : KeygenOutput Scalar G2) (appId : List UInt8) (appPk : G1) (y : Scalar)
    (received : List (Participant × Except String (CKDOutput G1))) :
    Except (Stop ProtocolError) (Option (CKDOutput G1)) := do
  let own ← failing (computeSignatureShare suite participants me keyPair appId appPk y)
  let outputs ← recvFromOthers participants me received
  pure (some (PairingSuite.addOutputs own outputs))

/-- The protocol in which nobody checks the keys of the app or the output. -/
def ckd (participants : List Participant) (coordinator me : Participant)
    (keyPair : KeygenOutput Scalar G2) (appId : List UInt8) (appPk : G1) (y : Scalar)
    (received : List (Participant × Except String (CKDOutput G1))) :
    Except InitializationError (Except (Stop ProtocolError) (Option (CKDOutput G1))) := do
  require (2 ≤ participants.length) (.notEnoughParticipants participants.length)
  let participants ← found .duplicateParticipants (ParticipantList.new participants)
  require (participants.contains me) (.missingParticipant "self" me)
  require (participants.contains coordinator) (.missingParticipant "coordinator" coordinator)
  pure (if me = coordinator
    then doCkdCoordinator suite participants me keyPair appId appPk y received
    else doCkdParticipant suite participants me keyPair appId appPk y)

omit [DecidableEq Scalar] in
theorem unmask_addOutputs (a : Scalar) (own : CKDOutput G1)
    (outputs : List (Participant × CKDOutput G1)) :
    (PairingSuite.addOutputs own outputs).unmask a =
      own.unmask a + (outputs.map fun message => message.2.unmask a).sum := by
  induction outputs generalizing own with
  | nil => simp [PairingSuite.addOutputs]
  | cons message outputs ih =>
    refine (ih _).trans ?_
    rw [List.map_cons, List.sum_cons, ← add_assoc]
    simp only [CKDOutput.unmask, smul_add]
    abel_nf

/-- What the participants of `l` send, given their key shares `x`. -/
noncomputable def sharesOf (l : ParticipantList) (hashPoint appPk : G1) (x y : Participant → Scalar)
    (p : Participant) : CKDOutput G1 :=
  let lambda : Scalar := l.lambda p
  ⟨lambda • y p • suite.generatorG1, lambda • (x p • hashPoint + y p • appPk)⟩

omit [DecidableEq Scalar] in
theorem unmask_sharesOf (l : ParticipantList) (hashPoint : G1) (x y : Participant → Scalar)
    (a : Scalar) (p : Participant) :
    (sharesOf suite l hashPoint (a • suite.generatorG1) x y p).unmask a =
      (l.lambda p * x p) • hashPoint := by
  simp only [sharesOf, CKDOutput.unmask]
  module

variable {l : ParticipantList} {coordinator : Participant}

theorem ckd_eq
    (made : ParticipantList.new participants = some l) (several : 2 ≤ l.len)
    (inside : coordinator ∈ l.participants) (isMember : me ∈ l.participants) :
    ckd suite participants coordinator me keyPair appId appPk y received = .ok (if me = coordinator
      then doCkdCoordinator suite l me keyPair appId appPk y received
      else doCkdParticipant suite l me keyPair appId appPk y) := by
  have length := (ParticipantList.perm_of_new made).length_eq
  simp only [ckd, bind_ok_iff, require_eq_ok, found_eq_ok, pure_ok_iff,
    ParticipantList.contains_iff]
  exact ⟨(), several.trans_eq length, l, made, (), isMember, (), inside, rfl⟩

/-- The key is shared by `f`.  Everybody draws some `y`, and the shares come in some order. -/
theorem honest_ckd_unmasks (separates : Separates Scalar) {f : Polynomial Scalar} {threshold : Nat}
    (shared : f ∈ Polynomial.degreeLT Scalar threshold) (several : 2 ≤ threshold)
    {participants : List Participant} (made : ParticipantList.new participants = some l)
    (enough : threshold ≤ l.len) (inside : coordinator ∈ l.participants) (appId : List UInt8)
    (a : Scalar) (y : Participant → Scalar) {order : List Participant}
    (all : order.Perm (l.others coordinator)) :
    let keyPair p := ⟨f.eval (scalar Scalar p), f.eval 0 • suite.generatorG2⟩
    let run me := ckd suite participants coordinator me (keyPair me) appId
      (a • suite.generatorG1) (y me)
    ∃ share, (∀ p ∈ l.participants, computeSignatureShare suite l p (keyPair p) appId
        (a • suite.generatorG1) (y p) = .ok (share p)) ∧
      (∀ p ∈ l.participants, p ≠ coordinator → ∀ received, run p received = .ok (.ok none)) ∧
      ∃ output, run coordinator (sentBy order share) = .ok (.ok (some output)) ∧
        output.unmask a = f.eval 0 •
          suite.hashAppIdWithPk (f.eval 0 • suite.generatorG2) appId := by
  intro keyPair run
  let share := sharesOf suite l (suite.hashAppIdWithPk (f.eval 0 • suite.generatorG2) appId)
    (a • suite.generatorG1) (fun p => f.eval (scalar Scalar p)) y
  have several := several.trans enough
  have shares : ∀ p ∈ l.participants, computeSignatureShare suite l p (keyPair p) appId
      (a • suite.generatorG1) (y p) = .ok (share p) := fun p isMember =>
    bind_ok_iff.mpr ⟨_, lagrange_eq_lambda separates several isMember, rfl⟩
  have done : run coordinator (sentBy order share) = .ok (.ok (some
      (PairingSuite.addOutputs (share coordinator) (order.map fun q => (q, share q))))) := by
    refine (ckd_eq suite made several inside inside).trans ?_
    rw [if_pos rfl, doCkdCoordinator, shares _ inside, recvFromOthers_sentBy inside all]
    rfl
  refine ⟨share, shares, ?_, _, done, ?_⟩
  · intro p isMember other received
    refine (ckd_eq suite made several inside isMember).trans ?_
    rw [if_neg other, doCkdParticipant, shares p isMember]
    rfl
  · rw [unmask_addOutputs, List.map_map]
    refine (sum_order (fun p => (share p).unmask a) inside all).trans ?_
    simp only [share, unmask_sharesOf]
    exact sum_lambda_smul separates (Polynomial.degreeLT_mono enough shared) _

private def rationalPairing : PairingSuite ℚ ℚ ℚ ℚ where
  generatorG1 := 1
  generatorG2 := 1
  pairing := LinearMap.mul ℚ ℚ
  nondegenerate := PairingSuite.product_nondegenerate
  generatesG1 := PairingSuite.product_generates
  generatesG2 := PairingSuite.product_generates
  checkValidPointG1 _ := true
  checkValidPointG2 _ := true
  toCompressed _ := []
  hashToCurve _ := 1

/-- The key 0 is shared by the polynomial `x`. -/
theorem honest_ckd_unmasks_two : ∃ share, ∃ output : CKDOutput ℚ,
    ckd rationalPairing [⟨0⟩, ⟨1⟩] ⟨0⟩ ⟨0⟩
      ⟨Polynomial.X.eval (scalar ℚ ⟨0⟩), Polynomial.X.eval (0 : ℚ) • 1⟩ [] ((5 : ℚ) • 1) 1
      (sentBy [⟨1⟩] share) = .ok (.ok (some output)) ∧
    output.unmask (5 : ℚ) = Polynomial.X.eval (0 : ℚ) • 1 := by
  have shared : (Polynomial.X : Polynomial ℚ) ∈ Polynomial.degreeLT ℚ 2 := by
    rw [Polynomial.mem_degreeLT, Polynomial.degree_X]
    decide
  have made : ParticipantList.new [⟨0⟩, ⟨1⟩] = some signerPair := by decide
  have inside : (⟨0⟩ : Participant) ∈ signerPair.participants := by decide
  obtain ⟨share, _, _, output, done, unmasked⟩ := honest_ckd_unmasks rationalPairing
    rational_separates shared (le_refl 2) made (by decide) inside [] 5 (fun _ => 1) (.refl _)
  exact ⟨share, output, done, unmasked⟩

end Plain

end MpcNetwork.Threshold.Ckd
