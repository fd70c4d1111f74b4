import Mathlib.LinearAlgebra.Lagrange
import MpcNetwork.Threshold.Dkg

/-! # Lagrange coefficients in a batch

All coefficients for one point come out of two inversions of whole lists, and each of these out of
the inversion of one product.  For points that are distinct they are the values of the basis
polynomials, so that they combine the values of a polynomial, or its multiples of a group element,
to the value at the point.
-/

namespace MpcNetwork.Threshold

open Dkg (computeLagrangeCoefficient)
open Fallible List

section Definitions

variable {Scalar : Type} [Field Scalar] [DecidableEq Scalar]

/-- Walking back, the inverse of all values loses one value after the other; times the product of
    the values before, it is the inverse of the next. -/
def batchInvert (values : List Scalar) : Except ProtocolError (List Scalar) := do
  require (values ≠ []) .invalidInterpolationArguments
  let products := (values.scanl (· * ·) 1).tail
  let acc := values.foldl (· * ·) 1
  require (acc ≠ 0) .invalidInterpolationArguments
  let (invLast, inverted) := (products.zip values.tail).foldr
    (fun step state => (state.1 * step.2, step.1 * state.1 :: state.2)) (acc⁻¹, [])
  pure (invLast :: inverted)

/-- Without a point the coefficient is the one for zero. -/
def computeLagrangeCoefficientAt (points : List Scalar) (y : Scalar) :
    Option Scalar → Except ProtocolError Scalar
  | none => computeLagrangeCoefficient points y
  | some x => do
    require (1 < points.length) .invalidInterpolationArguments
    require (y ∈ points) .invalidInterpolationArguments
    let others := points.filter fun z => z ≠ y
    let num := others.foldl (fun num z => num * (x - z)) 1
    let den := others.foldl (fun den z => den * (y - z)) 1
    require (den ≠ 0) .unreachable
    pure (num * den⁻¹)

end Definitions

section Inversion

variable {Scalar : Type} [Field Scalar] [DecidableEq Scalar] {values : List Scalar}

omit [DecidableEq Scalar] in
/-- Walking back over `values`, which come after others with the product `start`. -/
theorem foldr_inverses (nonzero : start ≠ 0) (invertible : 0 ∉ values) :
    ((values.scanl (· * ·) start).zip values).foldr
      (fun step state => (state.1 * step.2, step.1 * state.1 :: state.2))
      ((start * values.prod)⁻¹, []) = (start⁻¹, values.map (·⁻¹)) := by
  induction values generalizing start with
  | nil => simp
  | cons v values ih =>
    obtain ⟨first, invertible⟩ := not_or.mp (mem_cons.not.mp invertible)
    have first := Ne.symm first
    rw [scanl_cons, zip_cons_cons, foldr_cons, prod_cons, ← mul_assoc,
      ih (mul_ne_zero nonzero first) invertible, map_cons]
    simp only [mul_inv, Prod.mk.injEq, cons.injEq, and_true]
    exact ⟨inv_mul_cancel_right₀ first _, mul_inv_cancel_left₀ nonzero _⟩

theorem batchInvert_of_ne_zero (nonempty : values ≠ []) (invertible : 0 ∉ values) :
    batchInvert values = .ok (values.map (·⁻¹)) := by
  have product : values.foldl (· * ·) 1 = values.prod := prod_eq_foldl.symm
  simp only [batchInvert, bind_ok_iff, require_eq_ok, pure_ok_iff, product, ne_eq,
    prod_eq_zero_iff]
  refine ⟨(), nonempty, (), invertible, ?_⟩
  obtain ⟨v, values, rfl⟩ := exists_cons_of_ne_nil nonempty
  obtain ⟨first, invertible⟩ := not_or.mp (mem_cons.not.mp invertible)
  rw [scanl_cons, tail_cons, tail_cons, prod_cons, one_mul,
    foldr_inverses (Ne.symm first) invertible, map_cons]

/-- It fails for no values and for a zero, and else inverts every value. -/
theorem batchInvert_inverts (values : List Scalar) : batchInvert values =
    if values = [] ∨ 0 ∈ values then .error .invalidInterpolationArguments
    else .ok (values.map (·⁻¹)) := by
  split
  · rename_i bad
    rcases bad with rfl | zero
    · rfl
    · have product : values.foldl (· * ·) 1 = 0 := by
        rw [← prod_eq_foldl, prod_eq_zero_iff]
        exact zero
      have nonempty : values ≠ [] := ne_nil_of_mem zero
      simp [batchInvert, require, nonempty, product]
      rfl
  · rename_i good
    obtain ⟨nonempty, invertible⟩ := not_or.mp good
    exact batchInvert_of_ne_zero nonempty invertible

end Inversion

section Coefficients

variable {ι Scalar : Type} [DecidableEq ι] [Field Scalar] {nodes : List ι} {v : ι → Scalar}
  {x : Scalar} {i : ι}

/-- The value at `x` of the polynomial that is 1 at the node `i` and 0 at the others. -/
noncomputable def basisAt (nodes : List ι) (v : ι → Scalar) (x : Scalar) (i : ι) : Scalar :=
  (Lagrange.basis nodes.toFinset v i).eval x

theorem basisAt_eq_prod (distinct : nodes.Nodup) : basisAt nodes v x i =
    ((nodes.erase i).map fun j => x - v j).prod *
      ((nodes.erase i).map fun j => v i - v j).prod⁻¹ := by
  have others : nodes.toFinset.erase i = (nodes.erase i).toFinset := by
    ext j
    simp [distinct.mem_erase_iff]
  rw [basisAt, Lagrange.basis, Polynomial.eval_prod, others,
    prod_toFinset _ (distinct.erase i), prod_inv, map_map, ← prod_map_mul]
  simp [Lagrange.basisDivisor, mul_comm]

/-- The values of a polynomial at the nodes give the one at `x`. -/
theorem sum_basisAt (distinct : nodes.Nodup) (injective : Function.Injective v)
    (low : f ∈ Polynomial.degreeLT Scalar nodes.length) :
    (nodes.map fun i => basisAt nodes v x i * f.eval (v i)).sum = f.eval x := by
  rw [← sum_toFinset _ distinct]
  have low : f.degree < nodes.toFinset.card := by
    rw [toFinset_card_of_nodup distinct]
    exact Polynomial.mem_degreeLT.mp low
  conv_rhs => rw [Lagrange.eq_interpolate injective.injOn low]
  simp only [Lagrange.interpolate_apply, Polynomial.eval_finsetSum, Polynomial.eval_mul,
    Polynomial.eval_C, basisAt, mul_comm]

theorem differences_ne_zero (distinct : nodes.Nodup) (injective : Function.Injective v) :
    ((nodes.erase i).map fun j => v i - v j).prod ≠ 0 := by
  simp [prod_eq_zero_iff, distinct.mem_erase_iff, sub_eq_zero, injective.eq_iff]

variable [DecidableEq Scalar]

omit [DecidableEq Scalar] in
theorem foldl_factors {α : Type} (f : α → Scalar) (l : List α) :
    l.foldl (fun product a => product * f a) 1 = (l.map f).prod := by
  rw [prod_eq_foldl, foldl_map]

theorem computeLagrangeCoefficientAt_eq (distinct : nodes.Nodup) (injective : Function.Injective v)
    (several : 2 ≤ nodes.length) (inside : i ∈ nodes) (point : Option Scalar) :
    computeLagrangeCoefficientAt (nodes.map v) (v i) point =
      .ok (basisAt nodes v (point.getD 0) i) := by
  have others : ((nodes.map v).filter fun z => z ≠ v i) = (nodes.erase i).map v := by
    rw [map_erase injective, (distinct.map injective).erase_eq_filter]
    exact filter_congr fun z _ => by by_cases same : z = v i <;> simp [same]
  have nonzero := differences_ne_zero (i := i) distinct injective
  cases point with
  | none =>
    have product : ((nodes.erase i).map v).foldl (fun num y => num * y) 1 =
      ((nodes.erase i).map v).prod := prod_eq_foldl.symm
    simp only [computeLagrangeCoefficientAt, computeLagrangeCoefficient, bind_ok_iff, require_eq_ok,
      pure_ok_iff, others, product, foldl_factors, length_map, map_map, Function.comp_def]
    refine ⟨(), several, (), mem_map_of_mem inside, (), ?_, ?_⟩
    · simp [prod_eq_zero_iff, distinct.mem_erase_iff, sub_eq_zero, injective.eq_iff]
    · rw [basisAt_eq_prod distinct, prod_inv, prod_inv, map_map, map_map,
        ← prod_map_mul, ← prod_map_mul]
      refine congrArg prod (map_congr_left fun j _ => ?_)
      simp only [Function.comp_apply, Option.getD_none]
      rw [zero_sub, ← neg_sub (v j), inv_neg, neg_mul_neg]
  | some x =>
    simp only [computeLagrangeCoefficientAt, bind_ok_iff, require_eq_ok, pure_ok_iff, others,
      foldl_factors, length_map, map_map, Function.comp_def]
    exact ⟨(), several, (), mem_map_of_mem inside, (), nonzero, (basisAt_eq_prod distinct).symm⟩

end Coefficients

end MpcNetwork.Threshold
