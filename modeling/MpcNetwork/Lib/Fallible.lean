import Mathlib.Data.List.Forall2
import Mathlib.Logic.Basic

/-! # Fallible code

Checks and lookups in the exception monad, each with the one equivalence that says
when it succeeds.  A successful computation is taken apart with these and never by
unfolding the monad.
-/

namespace MpcNetwork.Fallible

open List

variable {ε α β : Type}

def require (condition : Prop) [Decidable condition] (error : ε) : Except ε Unit :=
  if condition then .ok () else .error error

def found (error : ε) : Option α → Except ε α
  | some a => .ok a
  | none => .error error

/-- Any failure becomes the given error, as `expect` turns one into a panic. -/
def expect (error : ε) : Except ε α → Except ε α
  | .ok a => .ok a
  | .error _ => .error error

@[simp] theorem require_eq_ok {condition : Prop} [Decidable condition] {error : ε} {u : Unit} :
    require condition error = .ok u ↔ condition := by
  unfold require
  split <;> simp_all

@[simp] theorem found_eq_ok {error : ε} {o : Option α} {a : α} :
    found error o = .ok a ↔ o = some a := by
  cases o <;> simp [found]

@[simp] theorem expect_eq_ok {error : ε} {x : Except ε α} {a : α} :
    expect error x = .ok a ↔ x = .ok a := by
  cases x <;> simp [expect]

@[simp] theorem mapError_eq_ok {ε' : Type} {describe : ε → ε'} {x : Except ε α} {a : α} :
    x.mapError describe = .ok a ↔ x = .ok a := by
  cases x with
  | error e => constructor <;> intro done <;> cases done
  | ok b => constructor <;> intro done <;> cases done <;> rfl

@[simp] theorem toOption_eq_some {x : Except ε α} {a : α} :
    x.toOption = some a ↔ x = .ok a := by
  cases x <;> simp [Except.toOption]

@[simp] theorem bind_ok_iff {first : Except ε α} {rest : α → Except ε β} {b : β} :
    (first >>= rest) = .ok b ↔ ∃ a, first = .ok a ∧ rest a = .ok b := by
  rcases first with failed | a
  · exact ⟨nofun, fun ⟨_, absurd, _⟩ => nomatch absurd⟩
  · exact ⟨fun done => ⟨a, rfl, done⟩, fun ⟨_, same, done⟩ => Except.ok.inj same ▸ done⟩

@[simp] theorem pure_ok_iff {a b : α} : (pure a : Except ε α) = .ok b ↔ a = b :=
  Except.ok.injEq a b ▸ Iff.rfl

theorem bind_some_iff {first : Option α} {rest : α → Option β} {b : β} :
    (first >>= rest) = some b ↔ ∃ a, first = some a ∧ rest a = some b :=
  Option.bind_eq_some_iff

theorem forM_ok_iff {check : α → Except ε Unit} {xs : List α} :
    xs.forM check = .ok () ↔ ∀ x ∈ xs, check x = .ok () := by
  induction xs with
  | nil => simp [pure, Except.pure]
  | cons x xs ih =>
    change (check x >>= fun _ => xs.forM check) = .ok () ↔ _
    rw [bind_ok_iff, forall_mem_cons, ih]
    constructor
    · rintro ⟨⟨⟩, first, rest⟩
      exact ⟨first, rest⟩
    · rintro ⟨first, rest⟩
      exact ⟨(), first, rest⟩

theorem foldlM_push_ok_iff {f : α → Except ε β} {xs : List α} {ys result : List β} :
    xs.foldlM (fun pushed x => do
      let y ← f x
      pure (pushed ++ [y])) ys = .ok result ↔
      ∃ rest, result = ys ++ rest ∧ Forall₂ (fun x y => f x = .ok y) xs rest := by
  induction xs generalizing ys with
  | nil =>
    rw [foldlM_nil, pure_ok_iff]
    simp [eq_comm]
  | cons x xs ih =>
    simp only [foldlM_cons, bind_ok_iff, pure_ok_iff, ih, forall₂_cons_left_iff]
    constructor
    · rintro ⟨_, ⟨y, given, rfl⟩, rest, rfl, others⟩
      exact ⟨y :: rest, by simp, y, rest, given, others, rfl⟩
    · rintro ⟨_, rfl, y, rest, given, others, rfl⟩
      exact ⟨_, ⟨y, given, rfl⟩, rest, by simp, others⟩

theorem require_ne_error {condition : Prop} [Decidable condition] {error e : ε}
    (other : error ≠ e) : require condition error ≠ .error e := by
  unfold require
  split <;> simp_all

theorem found_ne_error {error e : ε} {o : Option α} (other : error ≠ e) :
    found error o ≠ .error e := by
  cases o <;> simp_all [found]

theorem pure_ne_error {a : α} {e : ε} : (pure a : Except ε α) ≠ .error e := nofun

theorem bind_ne_error {first : Except ε α} {rest : α → Except ε β} {e : ε}
    (safe : first ≠ .error e) (safeRest : ∀ a, first = .ok a → rest a ≠ .error e) :
    (first >>= rest) ≠ .error e := by
  rcases first with failed | a
  · intro failure
    cases failure
    exact safe rfl
  · exact safeRest a rfl

/-- A fold whose steps all succeed, as long as they keep an invariant, succeeds. -/
theorem foldlM_invariant {α β : Type} {f : β → α → Option β} {xs : List α} (Inv : β → Prop)
    (each : ∀ x ∈ xs, ∀ acc, Inv acc → ∃ next, f acc x = some next ∧ Inv next) {acc : β}
    (init : Inv acc) : ∃ result, xs.foldlM f acc = some result ∧ Inv result := by
  induction xs generalizing acc with
  | nil => exact ⟨acc, rfl, init⟩
  | cons x xs ih =>
    obtain ⟨next, taken, kept⟩ := each x (by simp) acc init
    obtain ⟨result, rest, holds⟩ :=
      ih (fun y inside => each y (mem_cons_of_mem x inside)) kept
    exact ⟨result, by simp [taken, rest], holds⟩

theorem foldlM_eq_some {α β : Type} {f : β → α → Option β} {xs : List α}
    (each : ∀ x ∈ xs, ∀ acc, ∃ next, f acc x = some next) (acc : β) :
    ∃ result, xs.foldlM f acc = some result := by
  obtain ⟨result, done, _⟩ := foldlM_invariant (fun _ => True)
    (fun x inside acc _ => (each x inside acc).imp fun _ taken => ⟨taken, trivial⟩)
    (trivial : (fun _ => True) acc)
  exact ⟨result, done⟩

private theorem filterAuxM_eq_some_iff {α : Type} {test : α → Option Bool} {xs kept ys : List α} :
    xs.filterAuxM test kept = some ys ↔
      (∀ x ∈ xs, test x ≠ none) ∧ ys = (xs.filter fun x => test x = some true).reverse ++ kept := by
  induction xs generalizing kept with
  | nil => simp [filterAuxM, eq_comm]
  | cons x xs ih =>
    simp only [filterAuxM, Option.bind_eq_bind, Option.bind_eq_some_iff, ih,
      forall_mem_cons]
    cases tested : test x with
    | none => simp
    | some passes => cases passes <;> simp [tested]

theorem filterM_eq_some_iff {α : Type} {test : α → Option Bool} {xs ys : List α} :
    xs.filterM test = some ys ↔
      (∀ x ∈ xs, test x ≠ none) ∧ ys = xs.filter fun x => test x = some true := by
  simp only [filterM, Option.bind_eq_bind, Option.bind_eq_some_iff, filterAuxM_eq_some_iff,
    append_nil]
  constructor
  · rintro ⟨_, ⟨answers, rfl⟩, same⟩
    cases same
    exact ⟨answers, reverse_reverse _⟩
  · rintro ⟨answers, rfl⟩
    exact ⟨_, ⟨answers, rfl⟩, by simp⟩

end MpcNetwork.Fallible
