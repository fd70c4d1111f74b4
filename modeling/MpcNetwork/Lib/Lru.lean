import Mathlib.Data.List.Basic

/-! # Caches with a bound on their size

A cache keeps its entries in the order of their last use and gives up the oldest one when
there is no room for a new key.
-/

namespace MpcNetwork

structure Lru (κ ν : Type) where
  capacity : Nat
  entries : List (κ × ν)

namespace Lru

variable {κ ν : Type} [DecidableEq κ]

def empty (capacity : Nat) : Lru κ ν := ⟨capacity, []⟩

def contains (cache : Lru κ ν) (k : κ) : Bool := cache.entries.any fun entry => entry.1 = k

/-- The result is what was displaced: the former entry of the key, or the oldest when full. -/
def push (cache : Lru κ ν) (k : κ) (v : ν) : Option (κ × ν) × Lru κ ν :=
  match cache.entries.find? fun entry => entry.1 = k with
  | some former =>
    (some former, { cache with entries := (k, v) :: cache.entries.filter fun entry => entry.1 ≠ k })
  | none =>
    if cache.entries.length < cache.capacity then
      (none, { cache with entries := (k, v) :: cache.entries })
    else (cache.entries.getLast?, { cache with entries := (k, v) :: cache.entries.dropLast })

def pop (cache : Lru κ ν) (k : κ) : Option ν × Lru κ ν :=
  ((cache.entries.find? fun entry => entry.1 = k).map Prod.snd,
    { cache with entries := cache.entries.filter fun entry => entry.1 ≠ k })

theorem pop_isSome_iff (cache : Lru κ ν) (k : κ) :
    (cache.pop k).1.isSome ↔ cache.contains k = true := by
  simp [pop, contains]

def keys (cache : Lru κ ν) : List κ := cache.entries.map Prod.fst

theorem contains_iff (cache : Lru κ ν) (k : κ) : cache.contains k = true ↔ k ∈ cache.keys := by
  simp [contains, keys]

theorem keys_pop (cache : Lru κ ν) (k : κ) :
    (cache.pop k).2.keys = cache.keys.filter fun a => a ≠ k := by
  simp [pop, keys, List.filter_map, Function.comp_def]

/-- A new key comes first, and displaces the oldest one if there is no room. -/
theorem push_new (cache : Lru κ ν) (v : ν) (isNew : k ∉ cache.keys) :
    (cache.entries.length < cache.capacity ∧
      cache.push k v = (none, { cache with entries := (k, v) :: cache.entries })) ∨
    (cache.capacity ≤ cache.entries.length ∧
      cache.push k v = (cache.entries.getLast?,
        { cache with entries := (k, v) :: cache.entries.dropLast })) := by
  have absent : cache.entries.find? (fun entry => entry.1 = k) = none := by
    simp only [List.find?_eq_none, decide_eq_true_eq]
    intro entry inside same
    exact isNew (List.mem_map.mpr ⟨entry, inside, same⟩)
  unfold push
  rw [absent]
  simp only
  split
  · rename_i room
    exact .inl ⟨room, rfl⟩
  · rename_i full
    exact .inr ⟨Nat.le_of_not_lt full, rfl⟩

theorem keys_push_new (cache : Lru κ ν) (v : ν) (isNew : k ∉ cache.keys)
    (bounded : cache.keys.length ≤ cache.capacity) (positive : 0 < cache.capacity) :
    (cache.push k v).2.keys = (k :: cache.keys).take cache.capacity := by
  have length : cache.keys.length = cache.entries.length := List.length_map _
  obtain ⟨n, capacity⟩ := Nat.exists_eq_add_one.mpr positive
  rcases cache.push_new v isNew with ⟨room, pushed⟩ | ⟨full, pushed⟩
  · rw [pushed, List.take_of_length_le (by rw [List.length_cons]; omega)]
    rfl
  · have last : cache.entries.length - 1 = n := by omega
    rw [pushed, capacity, List.take_succ_cons]
    simp only [keys, List.map_cons, List.dropLast_eq_take, last, List.map_take]

theorem contains_push (cache : Lru κ ν) (k : κ) (v : ν) :
    (cache.push k v).2.contains k = true := by
  unfold push contains
  split
  · simp
  · split <;> simp

end Lru

end MpcNetwork
