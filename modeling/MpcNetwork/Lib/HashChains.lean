import Mathlib.Data.List.Induction
import Mathlib.Data.Set.Function

/-! # Hash chains over delimited records

A register is extended by one item after another, each time by compressing its value with
the item.  If no two of the compressed pairs collide and no value falls back to the start,
the last value determines the items.  An item is itself often a digest of a record written
as a name, a separator and a body.  Such a record can be read in two ways only when one of
the names goes on after the separator.
-/

namespace MpcNetwork.HashChains

open List

variable {σ δ : Type}

/-- The value of a register after it was extended by every item. -/
def chain (extend : σ → δ → σ) (start : σ) (items : List δ) : σ := items.foldl extend start

/-- The pairs of value and item that a chain compresses, in order. -/
def links (extend : σ → δ → σ) : σ → List δ → List (σ × δ)
  | _, [] => []
  | value, item :: rest => (value, item) :: links extend (extend value item) rest

/-- Two chains from one start meet no collision and never return to the start. -/
structure Sound (extend : σ → δ → σ) (start : σ) (xs ys : List δ) : Prop where
  collisionFree : Set.InjOn (Function.uncurry extend)
    {link | link ∈ links extend start xs ∨ link ∈ links extend start ys}
  fresh : ∀ link, link ∈ links extend start xs ∨ link ∈ links extend start ys →
    extend link.1 link.2 ≠ start

variable {extend : σ → δ → σ} {start : σ} {xs ys : List δ}

@[simp] theorem chain_concat (items : List δ) (item : δ) :
    chain extend start (items ++ [item]) = extend (chain extend start items) item := by
  simp only [chain, foldl_append, foldl_cons, foldl_nil]

@[simp] theorem links_concat (items : List δ) (item : δ) :
    links extend start (items ++ [item]) =
      links extend start items ++ [(chain extend start items, item)] := by
  induction items generalizing start with
  | nil => rfl
  | cons head rest ih => simp only [cons_append, links, ih, chain, foldl_cons]

theorem mem_links_concat (items : List δ) (item : δ) :
    (chain extend start items, item) ∈ links extend start (items ++ [item]) := by
  simp

theorem Sound.shorten {x y : δ} (sound : Sound extend start (xs ++ [x]) (ys ++ [y])) :
    Sound extend start xs ys where
  collisionFree := sound.collisionFree.mono fun _ link => by
    simp only [links_concat, mem_append, Set.mem_ofPred_eq]
    exact link.imp .inl .inl
  fresh link used := sound.fresh link (by
    simp only [links_concat, mem_append]
    exact used.imp .inl .inl)

/-- The value reached determines what the register was extended by. -/
theorem items_eq_of_chain_eq (sound : Sound extend start xs ys)
    (same : chain extend start xs = chain extend start ys) : xs = ys := by
  induction xs using reverseRecOn generalizing ys with
  | nil =>
    cases ys using reverseRecOn with
    | nil => rfl
    | append_singleton ys y =>
      rw [chain_concat] at same
      exact absurd same.symm (sound.fresh _ (.inr (mem_links_concat ys y)))
  | append_singleton xs x ih =>
    cases ys using reverseRecOn with
    | nil =>
      rw [chain_concat] at same
      exact absurd same (sound.fresh _ (.inl (mem_links_concat xs x)))
    | append_singleton ys y =>
      rw [chain_concat, chain_concat] at same
      obtain ⟨sameValue, rfl⟩ := Prod.mk.inj (sound.collisionFree
        (.inl (mem_links_concat xs x)) (.inr (mem_links_concat ys y)) same)
      rw [ih sound.shorten sameValue]

/-- A record without a separator in its name is read otherwise only under a longer name. -/
theorem delimited_readings {α : Type} {separator : α} {name name' body body' : List α}
    (clean : separator ∉ name)
    (same : name ++ separator :: body = name' ++ separator :: body') :
    (name' = name ∧ body' = body) ∨ name ++ [separator] <+: name' := by
  induction name generalizing name' with
  | nil =>
    cases name' with
    | nil => exact .inl ⟨rfl, (cons.inj same).2.symm⟩
    | cons c name' =>
      obtain ⟨rfl, _⟩ := cons.inj same
      exact .inr ⟨name', rfl⟩
  | cons c name ih =>
    cases name' with
    | nil =>
      obtain ⟨rfl, _⟩ := cons.inj same
      exact absurd mem_cons_self clean
    | cons c' name' =>
      obtain ⟨rfl, rest⟩ := cons.inj same
      rcases ih (fun inside => clean (mem_cons_of_mem _ inside)) rest with
        ⟨rfl, rfl⟩ | longer
      · exact .inl ⟨rfl, rfl⟩
      · exact .inr (cons_prefix_cons.mpr ⟨rfl, longer⟩)

end MpcNetwork.HashChains
