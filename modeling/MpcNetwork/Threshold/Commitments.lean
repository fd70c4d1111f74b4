import Mathlib.Algebra.Field.Rat
import Mathlib.Algebra.Module.Torsion.Field
import MpcNetwork.Threshold.Dkg

/-! # Commitments to polynomials

A commitment is added to another and evaluated without knowing the polynomial.  The coefficients of
a sum are as many as the longer list has, less those at the end that cancel; the polynomial itself
loses the same ones, since only zero times the generator is the identity.
-/

namespace MpcNetwork.Threshold.Dkg

open Fallible List

section Definitions

variable {C : Type}

/-- Coefficients beyond the end of one list are those of the other. -/
def addCoefficients [Add C] : List C → List C → List C
  | a :: as, b :: bs => (a + b) :: addCoefficients as bs
  | as, [] => as
  | [], bs => bs

/-- `PolynomialCommitment::add`. -/
def Polynomial.add [AddMonoid C] [DecidableEq C] (self rhs : Polynomial C) :
    Except ProtocolError (Polynomial C) :=
  Polynomial.new (addCoefficients self.coefficients rhs.coefficients)

/-- `PolynomialCommitment::eval_at_point`. -/
def evalCommitmentAtPoint {Scalar : Type} [AddMonoid C] [SMul Scalar C] [DecidableEq C]
    (coefficients : List C) (point : Scalar) : Except ProtocolError C := do
  require (coefficients ≠ []) .emptyOrZeroCoefficients
  pure (coefficients.reverse.foldl (fun out c => point • out + c) 0)

/-- `extend_with_zero` and `extend_with_identity`. -/
def Polynomial.extendWithZero [Zero C] [DecidableEq C] (self : Polynomial C) :
    Except ProtocolError (Polynomial C) :=
  Polynomial.new (0 :: self.coefficients)

/-- `set_nonzero_constant` and `set_non_identity_constant`. -/
def setConstant [Zero C] [DecidableEq C] (v : C) : List C → Except ProtocolError (List C)
  | [] => .error .emptyOrZeroCoefficients
  | _ :: rest => do
    require (¬ (v = 0 ∧ rest = [])) .emptyOrZeroCoefficients
    pure (v :: rest)

end Definitions

section Trimming

variable {C : Type} [Zero C] [DecidableEq C]

theorem new_eq_ok {polynomial : Polynomial C} :
    Polynomial.new coefficients = .ok polynomial ↔
      polynomial.coefficients = coefficients.rdropWhile fun c => c = 0 := by
  obtain ⟨kept, nonempty, leading⟩ := polynomial
  unfold Polynomial.new
  split
  · rw [Except.ok.injEq, Polynomial.mk.injEq, eq_comm]
  · rename_i none
    rw [not_not] at none
    simp [none, nonempty]

theorem rdropWhile_coefficients (polynomial : Polynomial C) :
    (polynomial.coefficients.rdropWhile fun c => c = 0) = polynomial.coefficients :=
  rdropWhile_eq_self_iff.mpr fun _ => by simpa using polynomial.leading

theorem exists_new {l : List C} (kept : (l.rdropWhile fun c => c = 0) ≠ []) :
    ∃ p, Polynomial.new l = .ok p :=
  ⟨_, dif_pos kept⟩

/-- Another constant before the coefficients is not trimmed. -/
theorem exists_new_cons (c : C) (polynomial : Polynomial C) :
    ∃ p, Polynomial.new (c :: polynomial.coefficients) = .ok p ∧
      p.coefficients = c :: polynomial.coefficients := by
  have kept : ((c :: polynomial.coefficients).rdropWhile fun c => c = 0) =
      c :: polynomial.coefficients := by
    refine rdropWhile_eq_self_iff.mpr fun _ => ?_
    simpa [getLast_cons polynomial.nonempty] using polynomial.leading
  obtain ⟨p, made⟩ := exists_new (kept ▸ cons_ne_nil _ _)
  exact ⟨p, made, (new_eq_ok.mp made).trans kept⟩

theorem setConstant_cons (v c : C) (polynomial : Polynomial C) :
    setConstant v (c :: polynomial.coefficients) = .ok (v :: polynomial.coefficients) := by
  simp [setConstant, polynomial.nonempty, require]

/-- Trimming keeps what does not depend on a zero at the end. -/
theorem trim_invariant {T : Type} {f : List C → T} (drop : ∀ l, f (l ++ [0]) = f l) (l : List C) :
    f (l.rdropWhile fun c => c = 0) = f l := by
  induction l using reverseRecOn with
  | nil => rfl
  | append_singleton l c ih =>
    rw [rdropWhile_concat]
    split
    · rename_i zero
      rw [ih, of_decide_eq_true zero, drop]
    · rfl

theorem getD_trim (l : List C) (i : Nat) :
    (l.rdropWhile fun c => c = 0).getD i 0 = l.getD i 0 := by
  refine trim_invariant (f := fun l => l.getD i 0) (fun l => ?_) l
  induction l generalizing i with
  | nil => cases i <;> rfl
  | cons c l ih => cases i with
    | zero => rfl
    | succ i => exact ih i

end Trimming

section Homomorphism

variable {Scalar Element : Type} [Field Scalar] [DecidableEq Scalar] [AddCommGroup Element]
  [DecidableEq Element] [Module Scalar Element] {generator : Element}

omit [DecidableEq Scalar] in
theorem eval_trim (x : Scalar) (l : List Element) :
    Feldman.eval x (l.rdropWhile fun c => c = 0) = Feldman.eval x l := by
  refine trim_invariant (f := Feldman.eval x) (fun l => ?_) l
  induction l with
  | nil => simp [Feldman.eval]
  | cons c l ih => rw [cons_append, Feldman.eval, ih, Feldman.eval]

theorem evalAtPoint_eq_ok {x value : Scalar} :
    evalAtPoint coefficients x = .ok value ↔
      coefficients ≠ [] ∧ Feldman.eval x coefficients = value := by
  cases coefficients with
  | nil => by_cases zero : x = 0 <;> simp [evalAtPoint, evalAtZero, found, zero]
  | cons c rest =>
    unfold evalAtPoint
    split
    · rename_i zero
      rw [zero, Feldman.eval_zero]
      simp [evalAtZero]
    · have horner := Feldman.foldl_horner x (c :: rest)
      simp only [smul_eq_mul, mul_comm x] at horner
      rw [if_neg (cons_ne_nil c rest), horner]
      simp

theorem trim_commit (nonzero : generator ≠ 0) (l : List Scalar) :
    ((l.map fun c => c • generator).rdropWhile fun c => c = 0) =
      (l.rdropWhile fun c => c = 0).map fun c => c • generator := by
  simp only [rdropWhile, ← map_reverse, dropWhile_map, Function.comp_def,
    smul_eq_zero, nonzero, or_false]

/-- The commitment has the multiples of the coefficients. -/
theorem commitPolynomial_eq_ok (nonzero : generator ≠ 0) {p : Polynomial Scalar}
    {c : Polynomial Element} : commitPolynomial generator p.coefficients = .ok c ↔
      c.coefficients = p.coefficients.map fun c => c • generator := by
  rw [commitPolynomial, new_eq_ok, trim_commit nonzero, rdropWhile_coefficients]

theorem exists_commitment (nonzero : generator ≠ 0) (p : Polynomial Scalar) :
    ∃ c, commitPolynomial generator p.coefficients = .ok c := by
  refine exists_new ?_
  rw [trim_commit nonzero, rdropWhile_coefficients]
  exact map_eq_nil_iff.not.mpr p.nonempty

omit [DecidableEq Scalar] [DecidableEq Element] in
theorem addCoefficients_commit (as bs : List Scalar) :
    addCoefficients (as.map fun c => c • generator) (bs.map fun c => c • generator) =
      (addCoefficients as bs).map fun c => c • generator := by
  fun_induction addCoefficients as bs with
  | case1 a as b bs ih => simp only [map_cons, addCoefficients, ih, add_smul]
  | case2 as => cases as <;> rfl
  | case3 bs => cases bs <;> rfl

theorem getD_addCoefficients {C : Type} [AddMonoid C] (as bs : List C) (i : Nat) :
    (addCoefficients as bs).getD i 0 = as.getD i 0 + bs.getD i 0 := by
  fun_induction addCoefficients as bs generalizing i with
  | case1 a as b bs ih => cases i with
    | zero => rfl
    | succ i => exact ih i
  | case2 as => simp
  | case3 bs => simp

/-- The polynomials may have been given with zeros at the end. -/
theorem commitments_homomorphic (nonzero : generator ≠ 0) {ps qs : List Scalar}
    {p q : Polynomial Scalar} (isP : Polynomial.new ps = .ok p) (isQ : Polynomial.new qs = .ok q) :
    ∃ c d, commitPolynomial generator p.coefficients = .ok c ∧
      commitPolynomial generator q.coefficients = .ok d ∧
      (∀ x, evalAtPoint p.coefficients x = .ok (Feldman.eval x ps) ∧
        evalCommitmentAtPoint c.coefficients x = .ok (Feldman.eval x ps • generator)) ∧
      (∀ sum, c.add d = .ok sum → ∃ r : Polynomial Scalar,
        (∀ i, r.coefficients.getD i 0 = ps.getD i 0 + qs.getD i 0) ∧
        commitPolynomial generator r.coefficients = .ok sum) ∧
      ∀ v, ∃ longer extended, p.extendWithZero = .ok longer ∧ c.extendWithZero = .ok extended ∧
        setConstant v longer.coefficients = .ok (v :: p.coefficients) ∧
        ∃ changed, setConstant (v • generator) extended.coefficients = .ok changed.coefficients ∧
          commitPolynomial generator (v :: p.coefficients) = .ok changed := by
  obtain ⟨c, isC⟩ := exists_commitment nonzero p
  obtain ⟨d, isD⟩ := exists_commitment nonzero q
  refine ⟨c, d, isC, isD, ?_, ?_, ?_⟩
  · intro x
    have value : Feldman.eval x p.coefficients = Feldman.eval x ps := by
      rw [new_eq_ok.mp isP, eval_trim]
    rw [evalAtPoint_eq_ok, evalCommitmentAtPoint, Feldman.foldl_horner,
      (commitPolynomial_eq_ok nonzero).mp isC, Feldman.eval_commit, value]
    simp [p.nonempty, pure, Except.pure]
  · intro sum added
    rw [Polynomial.add, (commitPolynomial_eq_ok nonzero).mp isC,
      (commitPolynomial_eq_ok nonzero).mp isD, addCoefficients_commit, new_eq_ok,
      trim_commit nonzero] at added
    obtain ⟨r, isR⟩ : ∃ r, Polynomial.new (addCoefficients p.coefficients q.coefficients) = .ok r := by
      refine exists_new fun none => sum.nonempty ?_
      rw [added, none, map_nil]
    refine ⟨r, fun i => ?_, ?_⟩
    · rw [new_eq_ok.mp isR, getD_trim, getD_addCoefficients, new_eq_ok.mp isP, new_eq_ok.mp isQ,
        getD_trim, getD_trim]
    · rw [commitPolynomial_eq_ok nonzero, added, new_eq_ok.mp isR]
  · intro v
    obtain ⟨longer, isLonger, coefficients⟩ := exists_new_cons 0 p
    obtain ⟨extended, isExtended, committed⟩ := exists_new_cons 0 c
    obtain ⟨changed, isChanged, all⟩ := exists_new_cons (v • generator) c
    refine ⟨longer, extended, isLonger, isExtended, ?_, changed, ?_, ?_⟩
    · rw [coefficients, setConstant_cons]
    · rw [committed, setConstant_cons, all]
    · rw [commitPolynomial, map_cons, ← (commitPolynomial_eq_ok nonzero).mp isC, isChanged]

private theorem one_kept : ([1] : List ℚ).getLast (cons_ne_nil 1 []) ≠ 0 := one_ne_zero

/-- The polynomial `1`, given with a zero at the end. -/
theorem commitments_homomorphic_one : ∃ c : Polynomial ℚ, ∀ x : ℚ,
    evalCommitmentAtPoint c.coefficients x = .ok (Feldman.eval x ([1, 0] : List ℚ) • (1 : ℚ)) := by
  have isOne : Polynomial.new ([1, 0] : List ℚ) = .ok ⟨[1], cons_ne_nil 1 [], one_kept⟩ := by
    rw [new_eq_ok]
    decide
  obtain ⟨c, _, _, _, evaluated, _⟩ := commitments_homomorphic (one_ne_zero (α := ℚ)) isOne isOne
  exact ⟨c, fun x => (evaluated x).2⟩

end Homomorphism

end MpcNetwork.Threshold.Dkg
