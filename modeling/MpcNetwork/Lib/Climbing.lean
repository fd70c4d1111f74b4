import Mathlib.Data.Finset.Card
import Mathlib.Data.List.Chain
import Mathlib.Logic.Relation

/-! # Climbing to ancestors

A relation that takes every element to at most one parent, with a rank that falls on the way,
orders the ancestors of an element by their rank.
-/

namespace MpcNetwork.Climbing

open Relation

variable {α : Type} {up : α → α → Prop} {rank : α → Nat} {a b c : α}

theorem rank_le (falls : ∀ c p, up c p → rank p < rank c) (climb : ReflTransGen up c a) :
    rank a ≤ rank c := by
  induction climb with
  | refl => exact Nat.le_refl _
  | tail _ last ih =>
    have lower := falls _ _ last
    omega

theorem eq_of_rank_le (falls : ∀ c p, up c p → rank p < rank c) (climb : ReflTransGen up c a)
    (high : rank c ≤ rank a) : c = a := by
  obtain same | ⟨p, first, rest⟩ := ReflTransGen.cases_head climb
  · exact same
  · have above := rank_le falls rest
    have lower := falls _ _ first
    omega

theorem climb_of_rank_le (unique : Relator.RightUnique up) (falls : ∀ c p, up c p → rank p < rank c)
    (first : ReflTransGen up c a) (second : ReflTransGen up c b) (low : rank b ≤ rank a) :
    ReflTransGen up a b := by
  obtain climb | climb := ReflTransGen.total_of_right_unique unique first second
  · exact climb
  · rw [eq_of_rank_le falls climb low]

/-- Without a cycle, the number of strict ancestors among finitely many elements is a rank. -/
theorem exists_rank (acyclic : ∀ a, ¬ TransGen up a a) (keys : Finset α) :
    ∃ rank : α → Nat, (∀ c p, p ∈ keys → up c p → rank p < rank c) ∧
      ∀ c ∈ keys, rank c < keys.card := by
  classical
  refine ⟨fun a => (keys.filter fun k => TransGen up a k).card, ?_, ?_⟩
  · intro c p inside step
    apply Finset.card_lt_card
    refine (Finset.ssubset_iff_of_subset ?_).mpr ⟨p, ?_, ?_⟩
    · intro k above
      rw [Finset.mem_filter] at above ⊢
      exact ⟨above.1, .head step above.2⟩
    · exact Finset.mem_filter.mpr ⟨inside, .single step⟩
    · intro itself
      exact acyclic p (Finset.mem_filter.mp itself).2
  · intro c inside
    apply Finset.card_lt_card
    refine (Finset.ssubset_iff_of_subset (Finset.filter_subset _ _)).mpr ⟨c, inside, ?_⟩
    intro itself
    exact acyclic c (Finset.mem_filter.mp itself).2

theorem mem_path_iff (unique : Relator.RightUnique up) (falls : ∀ c p, up c p → rank p < rank c)
    (linked : (a :: path).IsChain up)
    (isLast : (a :: path).getLast? = some last) :
    b ∈ a :: path ↔ ReflTransGen up a b ∧ ReflTransGen up b last := by
  induction path generalizing a b with
  | nil =>
    cases isLast
    rw [List.mem_singleton]
    constructor
    · rintro rfl
      exact ⟨.refl, .refl⟩
    · rintro ⟨down, back⟩
      exact (eq_of_rank_le falls down (rank_le falls back)).symm
  | cons p path ih =>
    rw [List.isChain_cons_cons] at linked
    rw [List.getLast?_cons_cons] at isLast
    have throughout : ReflTransGen up p last := ((ih linked.2 isLast).mp List.mem_cons_self).2
    rw [List.mem_cons, ih linked.2 isLast]
    constructor
    · rintro (rfl | ⟨down, back⟩)
      · exact ⟨.refl, .head linked.1 throughout⟩
      · exact ⟨.head linked.1 down, back⟩
    · rintro ⟨down, back⟩
      obtain rfl | ⟨q, first, climb⟩ := ReflTransGen.cases_head down
      · exact .inl rfl
      · rw [unique first linked.1] at climb
        exact .inr ⟨climb, back⟩

theorem nodup_path (falls : ∀ c p, up c p → rank p < rank c) {path : List α}
    (linked : path.IsChain up) : path.Nodup := by
  let _ : IsTrans α fun c p => rank p < rank c := ⟨fun _ _ _ first second => second.trans first⟩
  have ranks := List.isChain_iff_pairwise.mp (linked.imp falls)
  refine ranks.imp fun {c p} lower same => ?_
  subst same
  exact Nat.lt_irrefl _ lower

end MpcNetwork.Climbing
