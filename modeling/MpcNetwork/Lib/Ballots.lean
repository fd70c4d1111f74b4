import Mathlib.Data.Finset.Card

/-! # Ballots and quorums

A ballot box holds one vote for each of a number of distinct voters.  The voters for
a value form a finite set, and two sets that are large enough share a voter outside
any given small set.
-/

namespace MpcNetwork.Ballots

open List

variable {ι V : Type} [DecidableEq ι] [DecidableEq V]

structure Box (ι V : Type) where
  votes : List (ι × V)
  distinct : (votes.map Prod.fst).Nodup

namespace Box

def empty : Box ι V where
  votes := []
  distinct := .nil

def cast (b : Box ι V) (voter : ι) (value : V) (fresh : voter ∉ b.votes.map Prod.fst) :
    Box ι V where
  votes := (voter, value) :: b.votes
  distinct := List.nodup_cons.mpr ⟨fresh, b.distinct⟩

/-- A voter replaces the vote it may have cast before. -/
def recast (b : Box ι V) (voter : ι) (value : V) : Box ι V where
  votes := (voter, value) :: b.votes.filter fun vote => vote.1 ≠ voter
  distinct := by
    have part := (b.distinct.sublist (List.filter_sublist.map Prod.fst) :
      ((b.votes.filter fun vote => vote.1 ≠ voter).map Prod.fst).Nodup)
    exact List.nodup_cons.mpr ⟨by simp, part⟩

def among (b : Box ι V) (voters : ι → Bool) : Box ι V where
  votes := b.votes.filter fun vote => voters vote.1
  distinct := b.distinct.sublist (List.filter_sublist.map Prod.fst)

def count (b : Box ι V) (value : V) : Nat := (b.votes.map Prod.snd).count value

def supporters (b : Box ι V) (value : V) : Finset ι :=
  ((b.votes.filter fun vote => vote.2 = value).map Prod.fst).toFinset

def opponents (b : Box ι V) (value : V) : Finset ι :=
  ((b.votes.filter fun vote => vote.2 ≠ value).map Prod.fst).toFinset

theorem mem_supporters {b : Box ι V} :
    voter ∈ b.supporters value ↔ (voter, value) ∈ b.votes := by
  simp [supporters]

theorem mem_opponents {b : Box ι V} :
    voter ∈ b.opponents value ↔ ∃ other, other ≠ value ∧ (voter, other) ∈ b.votes := by
  simp only [opponents, mem_toFinset, mem_map, mem_filter, decide_eq_true_eq]
  constructor
  · rintro ⟨⟨p, other⟩, ⟨inside, different⟩, rfl⟩
    exact ⟨other, different, inside⟩
  · intro ⟨other, different, inside⟩
    exact ⟨(voter, other), ⟨inside, different⟩, rfl⟩

omit [DecidableEq V] in
private theorem card_filtered (b : Box ι V) (keep : ι × V → Bool) :
    ((b.votes.filter keep).map Prod.fst).toFinset.card = b.votes.countP keep := by
  have part : ((b.votes.filter keep).map Prod.fst).Sublist (b.votes.map Prod.fst) :=
    filter_sublist.map Prod.fst
  rw [toFinset_card_of_nodup (b.distinct.sublist part), length_map, countP_eq_length_filter]

theorem card_supporters (b : Box ι V) (value : V) : (b.supporters value).card = b.count value := by
  rw [supporters, card_filtered, count, List.count, List.countP_map]
  rfl

theorem card_opponents (b : Box ι V) (value : V) :
    (b.opponents value).card + b.count value = b.votes.length := by
  have split := length_eq_countP_add_countP (fun vote : ι × V => decide (vote.2 = value)) (l := b.votes)
  rw [← card_supporters, supporters, opponents, card_filtered, card_filtered]
  simp only [decide_eq_true_eq, decide_not] at split ⊢
  omega

omit [DecidableEq V] in
theorem mem_recast {b : Box ι V} :
    (p, v) ∈ (b.recast voter value).votes ↔
      (p = voter ∧ v = value) ∨ (p ≠ voter ∧ (p, v) ∈ b.votes) := by
  simp only [recast, mem_cons, Prod.mk.injEq, mem_filter, decide_eq_true_eq]
  tauto

omit [DecidableEq ι] [DecidableEq V] in
theorem mem_among {b : Box ι V} :
    (p, v) ∈ (b.among voters).votes ↔ (p, v) ∈ b.votes ∧ voters p = true := by
  simp only [among, mem_filter]

/-- If only `everyone` votes for a value and there are as many votes for it, everyone has. -/
theorem unanimous {b : Box ι V} {everyone : List ι}
    (inside : ∀ p, (p, value) ∈ b.votes → p ∈ everyone)
    (complete : everyone.length ≤ b.count value) :
    ∀ p ∈ everyone, (p, value) ∈ b.votes := by
  have part : b.supporters value ⊆ everyone.toFinset := by
    intro p supports
    exact mem_toFinset.mpr (inside p (mem_supporters.mp supports))
  have enough : everyone.toFinset.card ≤ (b.supporters value).card := by
    rw [card_supporters]
    exact Nat.le_trans (toFinset_card_le everyone) complete
  have all := Finset.eq_of_subset_of_card_le part enough
  intro p member
  rw [← mem_supporters, all]
  exact mem_toFinset.mpr member

end Box

/-- A set larger than the bad one has a member outside it. -/
theorem exists_outside {bad S : Finset ι} (large : bad.card < S.card) : ∃ p ∈ S, p ∉ bad := by
  by_contra none
  push Not at none
  exact absurd (Finset.card_le_card none) (Nat.not_le.mpr large)

/-- Two sets that together exceed `everyone` by more than the bad ones share a good member. -/
theorem exists_common_outside {everyone bad S S' : Finset ι} (inside : S ⊆ everyone)
    (inside' : S' ⊆ everyone) (large : everyone.card + bad.card < S.card + S'.card) :
    ∃ p, p ∈ S ∧ p ∈ S' ∧ p ∉ bad := by
  have union : (S ∪ S').card ≤ everyone.card := Finset.card_le_card (Finset.union_subset inside inside')
  have both := Finset.card_union_add_card_inter S S'
  have shared : bad.card < (S ∩ S').card := by omega
  obtain ⟨p, common, good⟩ := exists_outside shared
  exact ⟨p, (Finset.mem_inter.mp common).1, (Finset.mem_inter.mp common).2, good⟩

end MpcNetwork.Ballots
