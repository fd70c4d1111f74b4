import MpcNetwork.Threshold.Shares

/-! # ECDSA signatures

What both schemes of the library have in common: the curve, the check of a signature with a
normalised `s`, and the arguments that a presignature is rerandomised with.
-/

namespace MpcNetwork.Threshold.Ecdsa

structure RerandomizationArguments (Scalar Element : Type) where
  pk : Element
  tweak : Scalar
  msgHash : List UInt8
  bigR : Element
  participants : ParticipantList
  entropy : List UInt8

/-- A point has the `x` of its negative, and a scalar or its negative is not high. -/
structure Suite (Scalar Element : Type) [Field Scalar] [AddCommGroup Element]
    [Module Scalar Element] where
  generator : Element
  generator_ne_zero : generator ≠ 0
  xCoordinate : Element → Scalar
  xCoordinate_neg : ∀ point, xCoordinate (-point) = xCoordinate point
  isHigh : Scalar → Bool
  isHigh_neg : ∀ s, isHigh s → isHigh (-s) = false
  deriveRandomness : RerandomizationArguments Scalar Element → Except ProtocolError Scalar

structure Signature (Scalar Element : Type) where
  bigR : Element
  s : Scalar
  deriving DecidableEq

namespace Suite

variable {Scalar Element : Type} [Field Scalar] [AddCommGroup Element] [Module Scalar Element]
  (suite : Suite Scalar Element)

def normalize (s : Scalar) : Scalar := if suite.isHigh s then -s else s

theorem isHigh_normalize (s : Scalar) : suite.isHigh (suite.normalize s) = false := by
  unfold normalize
  split
  · rename_i high
    exact suite.isHigh_neg s high
  · rename_i low
    exact Bool.eq_false_iff.mpr low

theorem normalize_ne_zero (nonzero : s ≠ 0) : suite.normalize s ≠ 0 := by
  unfold normalize
  split
  · exact neg_ne_zero.mpr nonzero
  · exact nonzero

theorem eq_of_smul_generator {a b : Scalar} (same : a • suite.generator = b • suite.generator) :
    a = b :=
  smul_left_injective Scalar suite.generator_ne_zero same

variable [DecidableEq Scalar]

def verify (signature : Signature Scalar Element) (publicKey : Element) (msgHash : Scalar) : Bool :=
  let r := suite.xCoordinate signature.bigR
  if r = 0 ∨ signature.s = 0 then false
  else if suite.isHigh signature.s then false
  else
    let sInv := signature.s⁻¹
    let reproduced := (msgHash * sInv) • suite.generator + (r * sInv) • publicKey
    suite.xCoordinate reproduced = r

/-- The equation of ECDSA, whatever the sign of `s` after the normalisation. -/
theorem verify_normalize (nonzero : s ≠ 0)
    (onCurve : suite.xCoordinate bigR ≠ 0)
    (equation : s • bigR = msgHash • suite.generator + suite.xCoordinate bigR • publicKey) :
    suite.verify ⟨bigR, suite.normalize s⟩ publicKey msgHash := by
  have reproduced : ∀ sInv : Scalar, (msgHash * sInv) • suite.generator +
      (suite.xCoordinate bigR * sInv) • publicKey = (sInv * s) • bigR := by
    intro sInv
    rw [mul_smul sInv, equation, smul_add, smul_smul, smul_smul, mul_comm sInv, mul_comm sInv]
  simp only [verify, reproduced, onCurve, suite.normalize_ne_zero nonzero, suite.isHigh_normalize,
    or_self, if_false, Bool.false_eq_true, decide_eq_true_eq]
  unfold normalize
  split
  · rw [inv_neg, neg_mul, inv_mul_cancel₀ nonzero, neg_one_smul, suite.xCoordinate_neg]
  · rw [inv_mul_cancel₀ nonzero, one_smul]

end Suite

end MpcNetwork.Threshold.Ecdsa
