import Mathlib.Data.List.Nodup
import Mathlib.Data.List.Perm.Subperm
import Mathlib.Data.Set.Basic
import Mathlib.Order.BooleanAlgebra.Set
import MpcNetwork.Lib.Runs

/-! # An inventory of single-use items

A shelf holds items in memory and a ledger records, persistently, which items are
stored.  Items are handed out from the shelf or by name from the ledger, and the
shelf may be dropped and filled again from the ledger.  As long as nothing is taken
by name that is on the shelf, and every item is stored under a fresh name, no item
is handed out twice.
-/

namespace MpcNetwork.Inventory

open Runs List

variable {ι : Type}

structure View (ι : Type) where
  shelf : List ι
  ledger : Set ι

inductive Move (ι : Type) where
  | store (item : ι)
  | hand (item : ι)
  | idle
  deriving DecidableEq

def Move.stored : Move ι → Option ι
  | store item => some item
  | _ => none

def Move.handed : Move ι → Option ι
  | hand item => some item
  | _ => none

theorem filterMap_sublist_filterMap {α β : Type} {f g : α → Option β}
    (narrower : ∀ a, f a = none ∨ f a = g a) (l : List α) :
    (l.filterMap f).Sublist (l.filterMap g) := by
  induction l with
  | nil => exact .refl _
  | cons a l ih =>
    simp only [filterMap_cons]
    rcases narrower a with nothing | same
    · rw [nothing]
      cases g a with
      | none => exact ih
      | some b => exact ih.cons b
    · rw [same]
      cases g a with
      | none => exact ih
      | some b => exact ih.cons_cons b

/-- What a store may do to the two places in one move. -/
inductive Moves : View ι → Move ι → View ι → Prop where
  | storeOnShelf : w.shelf.Perm (item :: v.shelf) → w.ledger = insert item v.ledger →
      Moves v (.store item) w
  | storeByName : w.shelf = v.shelf → w.ledger = insert item v.ledger → Moves v (.store item) w
  | handFromShelf : v.shelf.Perm (item :: w.shelf) → w.ledger = v.ledger \ {item} →
      Moves v (.hand item) w
  | handByName : item ∈ v.ledger → item ∉ v.shelf → w.shelf = v.shelf →
      w.ledger = v.ledger \ {item} → Moves v (.hand item) w
  | discard : v.shelf.Perm (removed ++ kept) → w.shelf.Subperm kept →
      w.ledger = v.ledger \ {item | item ∈ removed} → Moves v .idle w
  | reload : w.shelf.Nodup → (∀ item ∈ w.shelf, item ∈ v.ledger) → w.ledger = v.ledger →
      Moves v .idle w

variable {v w : View ι}

theorem Moves.keep (shelf : v.shelf.Perm w.shelf) (ledger : w.ledger = v.ledger) :
    Moves v .idle w := by
  have nothing : v.shelf.Perm ([] ++ w.shelf) := shelf
  exact .discard nothing (.refl _) (by simp [ledger])

structure Consistent (v : View ι) : Prop where
  distinct : v.shelf.Nodup
  recorded : ∀ item ∈ v.shelf, item ∈ v.ledger

theorem Consistent.step (consistent : Consistent v) (moved : Moves v m w)
    (unused : ∀ item, m = .store item → item ∉ v.shelf) : Consistent w := by
  obtain ⟨distinct, recorded⟩ := consistent
  cases moved with
  | storeOnShelf shelf ledger =>
    refine ⟨shelf.nodup_iff.mpr (nodup_cons.mpr ⟨unused _ rfl, distinct⟩), ?_⟩
    intro other on
    rw [ledger]
    exact (mem_cons.mp (shelf.mem_iff.mp on)).imp_right (recorded other)
  | storeByName shelf ledger =>
    refine ⟨shelf ▸ distinct, ?_⟩
    rw [shelf, ledger]
    exact fun other on => .inr (recorded other on)
  | handFromShelf shelf ledger =>
    obtain ⟨off, rest⟩ := nodup_cons.mp (shelf.nodup_iff.mp distinct)
    refine ⟨rest, ?_⟩
    intro other on
    rw [ledger]
    refine ⟨recorded other (shelf.mem_iff.mpr (mem_cons_of_mem _ on)), ?_⟩
    rintro rfl
    exact off on
  | handByName present off shelf ledger =>
    refine ⟨shelf ▸ distinct, ?_⟩
    rw [shelf, ledger]
    intro other on
    refine ⟨recorded other on, ?_⟩
    rintro rfl
    exact off on
  | discard shelf kept ledger =>
    have split := nodup_append.mp (shelf.nodup_iff.mp distinct)
    constructor
    · obtain ⟨listed, perm, sub⟩ := kept
      exact perm.nodup_iff.mp (split.2.1.sublist sub)
    · intro other on
      have stays := kept.subset on
      rw [ledger]
      exact ⟨recorded other (shelf.mem_iff.mpr (mem_append_right _ stays)),
        fun out => split.2.2 _ out _ stays rfl⟩
  | reload shelf stored ledger => exact ⟨shelf, ledger ▸ stored⟩

theorem Moves.ledger_subset (moved : Moves v m w) (inside : item ∈ w.ledger) :
    m = .store item ∨ item ∈ v.ledger := by
  cases moved with
  | storeOnShelf _ ledger | storeByName _ ledger =>
    rw [ledger] at inside
    rcases inside with rfl | old
    · exact .inl rfl
    · exact .inr old
  | handFromShelf _ ledger | handByName _ _ _ ledger | discard _ _ ledger =>
    rw [ledger] at inside
    exact .inr inside.1
  | reload _ _ ledger => exact .inr (ledger ▸ inside)

/-- The shelf lists just the stored items that are owned, each once. -/
structure Complete (owned : Set ι) (v : View ι) : Prop extends Consistent v where
  own : ∀ item ∈ v.shelf, item ∈ owned
  listed : ∀ item ∈ v.ledger, item ∈ owned → item ∈ v.shelf

theorem Complete.step (complete : Complete owned v) (moved : Moves v m w)
    (unused : ∀ item, m = .store item → item ∉ v.shelf)
    (placed : ∀ item, m = .store item → item ∈ owned → item ∈ w.shelf)
    (own : ∀ item ∈ w.shelf, item ∈ owned)
    (kept : ∀ item ∈ v.shelf, item ∈ w.ledger → item ∈ w.shelf) : Complete owned w where
  toConsistent := complete.toConsistent.step moved unused
  own := own
  listed := by
    intro item inside isOwned
    rcases moved.ledger_subset inside with stored | old
    · exact placed item stored isOwned
    · exact kept item (complete.listed item old isOwned) inside

theorem Complete.shrink (complete : Complete owned v) (gone : List ι)
    (moved : Moves v m w) (nothing : m.stored = none) (shelf : v.shelf.Perm (gone ++ w.shelf))
    (struck : ∀ item ∈ gone, item ∉ w.ledger) : Complete owned w := by
  have stores : ∀ item, m ≠ .store item := by
    rintro item rfl
    cases nothing
  refine complete.step moved ?_ ?_ ?_ ?_
  · exact fun item stored => absurd stored (stores item)
  · exact fun item stored => absurd stored (stores item)
  · exact fun item on => complete.own item (shelf.mem_iff.mpr (mem_append_right _ on))
  · intro item on inside
    rcases mem_append.mp (shelf.mem_iff.mp on) with out | stays
    · exact absurd inside (struck item out)
    · exact stays

def stores (ms : List (Move ι)) : List ι := ms.filterMap Move.stored

def hands (ms : List (Move ι)) : List ι := ms.filterMap Move.handed

/-- No name is stored twice or was in the ledger to begin with. -/
structure Fresh (v : View ι) (ms : List (Move ι)) : Prop where
  distinct : (stores ms).Nodup
  unseen : ∀ item ∈ stores ms, item ∉ v.ledger

/-- What has been handed out is gone from the ledger and will not come back. -/
structure SingleUse (start : View ι) (ms : List (Move ι)) (v : View ι) : Prop where
  consistent : Consistent v
  gone : ∀ item ∈ hands ms, item ∉ v.ledger
  once : (hands ms).Nodup
  ledgerKnown : ∀ item ∈ v.ledger, item ∈ start.ledger ∨ item ∈ stores ms
  handedKnown : ∀ item ∈ hands ms, item ∈ start.ledger ∨ item ∈ stores ms

theorem Fresh.before (fresh : Fresh v (ms ++ [m])) : Fresh v ms where
  distinct := by
    have both := fresh.distinct
    rw [stores, filterMap_append] at both
    exact (nodup_append.mp both).1
  unseen := fun item inside => fresh.unseen item (by
    rw [stores, filterMap_append]
    exact mem_append_left _ inside)

variable {start : View ι}

theorem SingleUse.unseen (single : SingleUse start ms v)
    (fresh : Fresh start (ms ++ [.store item])) : item ∉ v.ledger ∧ item ∉ hands ms := by
  have stored : stores (ms ++ [.store item]) = stores ms ++ [item] := filterMap_append
  have new : item ∉ start.ledger ∧ item ∉ stores ms := by
    refine ⟨fresh.unseen item (stored ▸ mem_append_right _ (mem_singleton_self _)), ?_⟩
    have distinct := fresh.distinct
    rw [stored, nodup_append] at distinct
    exact fun inside => distinct.2.2 _ inside _ (mem_singleton_self _) rfl
  exact ⟨fun inside => (single.ledgerKnown _ inside).elim new.1 new.2,
    fun inside => (single.handedKnown _ inside).elim new.1 new.2⟩

theorem SingleUse.store (single : SingleUse start ms v)
    (fresh : Fresh start (ms ++ [.store item])) (consistent : Consistent w)
    (ledger : w.ledger = insert item v.ledger) : SingleUse start (ms ++ [.store item]) w := by
  have stored : stores (ms ++ [.store item]) = stores ms ++ [item] := filterMap_append
  have handed : hands (ms ++ [.store item]) = hands ms := by
    rw [hands, filterMap_append]
    exact append_nil _
  obtain ⟨unstored, unhanded⟩ := single.unseen fresh
  refine { consistent, gone := ?_, once := handed ▸ single.once, ledgerKnown := ?_, handedKnown := ?_ }
  · rw [handed, ledger]
    rintro other inside (rfl | kept)
    · exact unhanded inside
    · exact single.gone other inside kept
  · rw [stored, ledger]
    rintro other (rfl | kept)
    · exact .inr (mem_append_right _ (mem_singleton_self _))
    · exact (single.ledgerKnown other kept).imp_right (mem_append_left _)
  · rw [handed, stored]
    exact fun other inside => (single.handedKnown other inside).imp_right (mem_append_left _)

theorem SingleUse.hand (single : SingleUse start ms v) (present : item ∈ v.ledger)
    (consistent : Consistent w) (ledger : w.ledger = v.ledger \ {item}) :
    SingleUse start (ms ++ [.hand item]) w := by
  have stored : stores (ms ++ [.hand item]) = stores ms := by
    rw [stores, filterMap_append]
    exact append_nil _
  have handed : hands (ms ++ [.hand item]) = hands ms ++ [item] := filterMap_append
  refine { consistent, gone := ?_, once := ?_, ledgerKnown := ?_, handedKnown := ?_ }
  · rw [handed, ledger]
    rintro other inside ⟨kept, different⟩
    rcases mem_append.mp inside with earlier | now
    · exact single.gone other earlier kept
    · exact different (mem_singleton.mp now)
  · rw [handed, nodup_append]
    refine ⟨single.once, nodup_singleton _, ?_⟩
    rintro other earlier _ now rfl
    obtain rfl := mem_singleton.mp now
    exact single.gone other earlier present
  · rw [stored, ledger]
    exact fun other kept => single.ledgerKnown other kept.1
  · rw [stored, handed]
    intro other inside
    rcases mem_append.mp inside with earlier | now
    · exact single.handedKnown other earlier
    · obtain rfl := mem_singleton.mp now
      exact single.ledgerKnown other present

theorem SingleUse.idle (single : SingleUse start ms v) (consistent : Consistent w)
    (ledger : w.ledger ⊆ v.ledger) : SingleUse start (ms ++ [.idle]) w := by
  have stored : stores (ms ++ [.idle]) = stores ms := by
    rw [stores, filterMap_append]
    exact append_nil _
  have handed : hands (ms ++ [.idle]) = hands ms := by
    rw [hands, filterMap_append]
    exact append_nil _
  refine { consistent, once := handed ▸ single.once, gone := ?_, ledgerKnown := ?_, handedKnown := ?_ }
  · rw [handed]
    exact fun other inside kept => single.gone other inside (ledger kept)
  · rw [stored]
    exact fun other kept => single.ledgerKnown other (ledger kept)
  · rw [stored, handed]
    exact single.handedKnown

theorem SingleUse.step (single : SingleUse start ms v) (moved : Moves v m w)
    (fresh : Fresh start (ms ++ [m])) : SingleUse start (ms ++ [m]) w := by
  have unused : ∀ item, m = .store item → item ∉ v.shelf := by
    rintro item rfl on
    exact (single.unseen fresh).1 (single.consistent.recorded item on)
  have consistent := single.consistent.step moved unused
  cases moved with
  | storeOnShelf _ ledger | storeByName _ ledger => exact single.store fresh consistent ledger
  | handFromShelf shelf ledger =>
    rename_i item
    have present := single.consistent.recorded item (shelf.mem_iff.mpr mem_cons_self)
    exact single.hand present consistent ledger
  | handByName present _ _ ledger => exact single.hand present consistent ledger
  | discard _ _ ledger => exact single.idle consistent (ledger ▸ Set.sdiff_subset)
  | reload _ _ ledger => exact single.idle consistent ledger.subset

/-- Over a whole run that stores under fresh names, no item is handed out twice. -/
theorem SingleUse.run (consistent : Consistent start) (run : Run Moves start ms v)
    (fresh : Fresh start ms) : SingleUse start ms v := by
  refine run.invariant (fun ms v => Fresh start ms → SingleUse start ms v) ?_ ?_ fresh
  · exact fun _ =>
      { consistent, gone := by simp [hands], once := by simp [hands], handedKnown := by simp [hands]
        ledgerKnown := fun _ inside => .inl inside }
  · exact fun ms v m w _ single moved fresh => (single fresh.before).step moved fresh

end MpcNetwork.Inventory
