import Mathlib.Order.Basic
import MpcNetwork.Lib.Runs

/-! # Clocks

A clock is a function of the state that never goes back.  When the rank of everything a step
emits lies between the clock before and the clock after it, the emissions of a whole run are
strictly increasing, and so nothing is emitted twice.
-/

namespace MpcNetwork.Clocks

open Runs List

variable {σ ε α β : Type} [Preorder α] {clock : σ → α} {rank : β → α}

/-- One step under a clock: time passes, and an emission falls into the time that passed. -/
structure Ticks (clock : σ → α) (rank : β → α) (emission : Option β) (s t : σ) : Prop where
  forward : clock s ≤ clock t
  after : ∀ b ∈ emission, clock s ≤ rank b
  before : ∀ b ∈ emission, rank b < clock t

theorem Ticks.silent (forward : clock s ≤ clock t) : Ticks clock rank none s t where
  forward := forward
  after := nofun
  before := nofun

theorem Ticks.emits (after : clock s ≤ rank b) (before : rank b < clock t) :
    Ticks clock rank (some b) s t where
  forward := le_trans after (le_of_lt before)
  after := by
    intro c same
    cases same
    exact after
  before := by
    intro c same
    cases same
    exact before

variable {step : σ → ε → σ → Prop} {start : σ} {emit : ε → Option β}

theorem increasing (clock : σ → α) (rank : β → α)
    (ticks : ∀ es s e t, Run step start es s → step s e t → Ticks clock rank (emit e) s t)
    (run : Run step start es s) :
    (es.filterMap emit).Pairwise (fun b c => rank b < rank c) ∧
      ∀ b ∈ es.filterMap emit, rank b < clock s := by
  induction run with
  | nil => exact ⟨.nil, nofun⟩
  | @snoc es s e t before taken ih =>
    obtain ⟨sorted, below⟩ := ih
    have tick := ticks _ _ _ _ before taken
    have belowAfter : ∀ b ∈ es.filterMap emit, rank b < clock t :=
      fun b inside => lt_of_lt_of_le (below b inside) tick.forward
    rw [filterMap_append]
    cases emitted : emit e with
    | none =>
      have nothing : [e].filterMap emit = [] := by simp [emitted]
      rw [nothing, append_nil]
      exact ⟨sorted, belowAfter⟩
    | some b =>
      have one : [e].filterMap emit = [b] := by simp [emitted]
      rw [one]
      constructor
      · apply pairwise_append.mpr
        refine ⟨sorted, pairwise_singleton _ _, ?_⟩
        intro c inside d isLast
        rw [mem_singleton.mp isLast]
        exact lt_of_lt_of_le (below c inside) (tick.after b emitted)
      · intro c inside
        rcases mem_append.mp inside with early | isLast
        · exact belowAfter c early
        · rw [mem_singleton.mp isLast]
          exact tick.before b emitted

theorem nodup (clock : σ → α) (rank : β → α)
    (ticks : ∀ es s e t, Run step start es s → step s e t → Ticks clock rank (emit e) s t)
    (run : Run step start es s) : (es.filterMap emit).Nodup := by
  apply (increasing clock rank ticks run).1.imp
  intro b c earlier same
  rw [same] at earlier
  exact lt_irrefl _ earlier

end MpcNetwork.Clocks
