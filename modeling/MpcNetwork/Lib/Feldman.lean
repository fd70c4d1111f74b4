import Mathlib.Algebra.Module.Basic
import Mathlib.Algebra.BigOperators.Group.List.Basic

/-! # Polynomials in the exponent

A polynomial is the list of its coefficients, the constant first.  The coefficients are scalars
or, for a commitment, elements of a module over them; a commitment to a polynomial is the
polynomial times the generator, coefficient by coefficient.
-/

namespace MpcNetwork.Feldman

open List

variable {F M : Type} [CommSemiring F] [AddCommMonoid M] [Module F M]

def eval (x : F) : List M → M
  | [] => 0
  | c :: cs => c + x • eval x cs

theorem eval_commit (x : F) (g : M) (cs : List F) :
    eval x (cs.map fun c => c • g) = eval x cs • g := by
  induction cs with
  | nil => simp [eval]
  | cons c cs ih => simp only [map_cons, eval, ih, add_smul, smul_eq_mul, mul_smul]

theorem eval_zero (cs : List M) : eval (0 : F) cs = cs.headD 0 := by
  cases cs <;> simp [eval]

theorem eval_replicate_zero (x : F) (n : Nat) : eval x (replicate n (0 : M)) = 0 := by
  induction n with
  | zero => rfl
  | succ n ih => simp [replicate_succ, eval, ih]

theorem eval_zipWith_add (x : F) {as bs : List M} (same : as.length = bs.length) :
    eval x (zipWith (· + ·) as bs) = eval x as + eval x bs := by
  induction as generalizing bs with
  | nil =>
    cases bs with
    | nil => simp [eval]
    | cons b bs => simp at same
  | cons a as ih =>
    cases bs with
    | nil => simp at same
    | cons b bs =>
      have rest := ih (by simpa using same)
      simp only [zipWith_cons_cons, eval, rest, smul_add]
      exact add_add_add_comm a b _ _

theorem length_foldl_add {cs : List (List M)} (lengths : ∀ c ∈ cs, c.length = n)
    (first : start.length = n) :
    (cs.foldl (zipWith (· + ·)) start).length = n := by
  induction cs generalizing start with
  | nil => exact first
  | cons c cs ih =>
    obtain ⟨length, lengths⟩ := forall_mem_cons.mp lengths
    exact ih lengths (by rw [length_zipWith, first, length, Nat.min_self])

theorem eval_foldl_add (x : F) {cs : List (List M)} (lengths : ∀ c ∈ cs, c.length = n)
    (first : start.length = n) :
    eval x (cs.foldl (zipWith (· + ·)) start) = eval x start + (cs.map (eval x)).sum := by
  induction cs generalizing start with
  | nil => simp
  | cons c cs ih =>
    obtain ⟨length, lengths⟩ := forall_mem_cons.mp lengths
    have same : start.length = c.length := first.trans length.symm
    rw [foldl_cons, ih lengths (by rw [length_zipWith, ← same, Nat.min_self, first]),
      eval_zipWith_add x same, map_cons, sum_cons, add_assoc]

theorem foldl_powers (x p : F) (sum : M) (cs : List M) :
    (cs.foldl (fun acc c => (x * acc.1, acc.2 + acc.1 • c)) (p, sum)).2 = sum + p • eval x cs := by
  induction cs generalizing p sum with
  | nil => simp [eval]
  | cons c cs ih =>
    rw [foldl_cons, ih, eval, smul_add, smul_smul, add_assoc, mul_comm x p]

theorem foldl_horner (x : F) (cs : List M) :
    cs.reverse.foldl (fun value c => x • value + c) 0 = eval x cs := by
  rw [foldl_reverse]
  induction cs with
  | nil => rfl
  | cons c cs ih => rw [foldr_cons, ih, eval, add_comm]

end MpcNetwork.Feldman
