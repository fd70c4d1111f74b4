import Mathlib.Data.List.Basic
import Mathlib.Tactic.Ring

/-! # Big-endian byte strings and their lexicographic order

Fixed-width big-endian encodings turn the numeric order into the order of an
ordered key-value store.  The last results are what a prefix scan relies on: a key
that starts with a prefix is visited, and one that is long enough and lies between
two consecutive prefixes starts with the lower one.
-/

namespace MpcNetwork.BigEndian

/-- The `w` low bytes of `x`, most significant first. -/
def toBeBytes : Nat → Nat → List UInt8
  | 0, _ => []
  | w + 1, x => UInt8.ofNat (x / 256 ^ w) :: toBeBytes w (x % 256 ^ w)

/-- The number a byte string denotes, most significant byte first. -/
def ofBeBytes : List UInt8 → Nat
  | [] => 0
  | b :: bs => b.toNat * 256 ^ bs.length + ofBeBytes bs

@[simp] theorem length_toBeBytes (w x : Nat) : (toBeBytes w x).length = w := by
  induction w generalizing x with
  | zero => rfl
  | succ w ih => simp only [toBeBytes, List.length_cons, ih]

theorem ofBeBytes_lt (bs : List UInt8) : ofBeBytes bs < 256 ^ bs.length := by
  induction bs with
  | nil => simp [ofBeBytes]
  | cons b bs ih =>
    have digit : b.toNat + 1 ≤ 256 := b.toNat_lt
    calc
      ofBeBytes (b :: bs) < b.toNat * 256 ^ bs.length + 256 ^ bs.length :=
        Nat.add_lt_add_left ih _
      _ = (b.toNat + 1) * 256 ^ bs.length := by ring
      _ ≤ 256 * 256 ^ bs.length := Nat.mul_le_mul_right _ digit
      _ = 256 ^ (b :: bs).length := by rw [List.length_cons]; ring

theorem ofBeBytes_toBeBytes (fits : x < 256 ^ w) :
    ofBeBytes (toBeBytes w x) = x := by
  induction w generalizing x with
  | zero =>
    have zero : x = 0 := by simpa using fits
    subst zero
    rfl
  | succ w ih =>
    have positive : 0 < 256 ^ w := Nat.pow_pos (by decide)
    have digit : x / 256 ^ w < 256 := by
      rw [Nat.div_lt_iff_lt_mul positive]
      simpa only [Nat.pow_succ, Nat.mul_comm] using fits
    simp only [toBeBytes, ofBeBytes, length_toBeBytes, ih (Nat.mod_lt x positive)]
    rw [UInt8.toNat_ofNat_of_lt' digit]
    exact Nat.div_add_mod' x (256 ^ w)

theorem toBeBytes_ofBeBytes (bs : List UInt8) : toBeBytes bs.length (ofBeBytes bs) = bs := by
  induction bs with
  | nil => rfl
  | cons b bs ih =>
    have positive : 0 < 256 ^ bs.length := Nat.pow_pos (by decide)
    have small := ofBeBytes_lt bs
    simp only [List.length_cons, toBeBytes, ofBeBytes]
    rw [Nat.mul_comm, Nat.mul_add_div positive, Nat.mul_add_mod, Nat.mod_eq_of_lt small,
      Nat.div_eq_of_lt small, Nat.add_zero, ih, UInt8.ofNat_toNat]

theorem toBeBytes_injective (hx : x < 256 ^ w) (hy : y < 256 ^ w)
    (same : toBeBytes w x = toBeBytes w y) : x = y := by
  rw [← ofBeBytes_toBeBytes hx, ← ofBeBytes_toBeBytes hy, same]

theorem toBeBytes_add (fits : x < 256 ^ (a + b)) :
    toBeBytes (a + b) x = toBeBytes a (x / 256 ^ b) ++ toBeBytes b (x % 256 ^ b) := by
  induction a generalizing x with
  | zero =>
    rw [Nat.zero_add] at fits ⊢
    rw [Nat.mod_eq_of_lt fits]
    rfl
  | succ a ih =>
    have positive : 0 < 256 ^ (a + b) := Nat.pow_pos (by decide)
    rw [Nat.succ_add, toBeBytes, toBeBytes, ih (Nat.mod_lt x positive), Nat.pow_add,
      Nat.mod_mul_left_div_self, Nat.mod_mul_left_mod, Nat.div_div_eq_div_mul, Nat.mul_comm]
    rfl

theorem lt_iff_ofBeBytes_lt (len : as.length = bs.length) :
    as < bs ↔ ofBeBytes as < ofBeBytes bs := by
  induction as generalizing bs with
  | nil =>
    cases bs with
    | nil => simp [ofBeBytes]
    | cons b bs => simp at len
  | cons a as ih =>
    cases bs with
    | nil => simp at len
    | cons b bs =>
      have len' : as.length = bs.length := by simpa using len
      have ha := ofBeBytes_lt as
      have hb := ofBeBytes_lt bs
      rw [List.cons_lt_cons_iff, ih len']
      simp only [ofBeBytes, len'] at ha hb ⊢
      rw [UInt8.lt_iff_toNat_lt, ← UInt8.toNat_inj]
      constructor
      · rintro (less | ⟨same, less⟩)
        · have := Nat.mul_le_mul_right (256 ^ bs.length) less
          rw [Nat.succ_mul] at this
          omega
        · rw [same]
          omega
      · intro less
        by_cases same : a.toNat = b.toNat
        · rw [same] at less
          exact .inr ⟨same, by omega⟩
        · refine .inl (Nat.lt_of_le_of_ne ?_ same)
          by_contra more
          have := Nat.mul_le_mul_right (256 ^ bs.length) (Nat.not_le.mp more)
          rw [Nat.succ_mul] at this
          omega

theorem append_lt_iff (len : as.length = bs.length) (rest : List UInt8) :
    as ++ rest < bs ↔ as < bs := by
  induction as generalizing bs with
  | nil =>
    cases bs with
    | nil => simp
    | cons b bs => simp at len
  | cons a as ih =>
    cases bs with
    | nil => simp at len
    | cons b bs => simp only [List.cons_append, List.cons_lt_cons_iff, ih (by simpa using len)]

theorem append_lt_append_left_iff (pre : List UInt8) :
    pre ++ as < pre ++ bs ↔ as < bs := by
  induction pre with
  | nil => rfl
  | cons c pre ih =>
    simp only [List.cons_append, List.cons_lt_cons_iff, ih, UInt8.lt_irrefl, false_or, true_and]

/-- A key of that width lies between two consecutive numbers just if it has the lower one. -/
theorem between_iff (fits : p + 1 < 256 ^ w) (short : q < 256 ^ w)
    (pre rest : List UInt8) :
    (pre ++ toBeBytes w p ≤ pre ++ (toBeBytes w q ++ rest) ∧
      pre ++ (toBeBytes w q ++ rest) < pre ++ toBeBytes w (p + 1)) ↔ q = p := by
  have len : ∀ x, (toBeBytes w q).length = (toBeBytes w x).length := by simp
  rw [← List.not_lt, append_lt_append_left_iff, append_lt_append_left_iff, append_lt_iff (len p),
    append_lt_iff (len _), lt_iff_ofBeBytes_lt (len p), lt_iff_ofBeBytes_lt (len _),
    ofBeBytes_toBeBytes short, ofBeBytes_toBeBytes fits, ofBeBytes_toBeBytes (by omega)]
  omega

/-- A long enough key between two consecutive prefixes starts with the lower. -/
theorem prefix_of_between (fits : p + 1 < 256 ^ w) (pre : List UInt8) :
    ∀ key : List UInt8, pre.length + w ≤ key.length →
      pre ++ toBeBytes w p ≤ key → key < pre ++ toBeBytes w (p + 1) →
      ∃ rest, key = pre ++ toBeBytes w p ++ rest := by
  induction pre with
  | nil =>
    intro key long above below
    simp only [List.nil_append, List.length_nil, Nat.zero_add] at long above below ⊢
    have len : ∀ x, (key.take w).length = (toBeBytes w x).length := by
      intro x
      simp only [List.length_take, length_toBeBytes, Nat.min_eq_left long]
    rw [← List.take_append_drop w key] at above below
    rw [← List.not_lt, append_lt_iff (len p), lt_iff_ofBeBytes_lt (len p),
      ofBeBytes_toBeBytes (by omega)] at above
    rw [append_lt_iff (len _), lt_iff_ofBeBytes_lt (len _), ofBeBytes_toBeBytes fits] at below
    have value : ofBeBytes (key.take w) = p := by omega
    have head : toBeBytes w p = key.take w := by
      have := toBeBytes_ofBeBytes (key.take w)
      rwa [value, List.length_take, Nat.min_eq_left long] at this
    exact ⟨key.drop w, by rw [head, List.take_append_drop]⟩
  | cons c pre ih =>
    intro key long above below
    cases key with
    | nil => simp at long
    | cons d key =>
      simp only [List.cons_append, List.cons_lt_cons_iff, ← List.not_lt] at above below
      have same : d = c := by
        rcases below with less | ⟨same, _⟩
        · exact absurd (.inl less) above
        · exact same
      subst same
      obtain ⟨rest, rfl⟩ := ih key (by simp at long; omega)
        (by rw [← List.not_lt]; exact fun less => above (.inr ⟨rfl, less⟩))
        (by
          rcases below with less | ⟨_, less⟩
          · exact absurd less (UInt8.lt_irrefl d)
          · exact less)
      exact ⟨rest, rfl⟩

end MpcNetwork.BigEndian
