import Mathlib.Data.List.Nodup
import Mathlib.Logic.Function.Basic
import MpcNetwork.Lib.Runs

/-! # Tickets stored under keys

A table keeps at most one ticket under each key.  Issuing a ticket under a key replaces the
one that was there, redeeming takes a ticket out under the key it is stored under, and keys
may be cleared at any time.  When no ticket is issued twice, none is redeemed twice.
-/

namespace MpcNetwork.Tickets

open List hiding after
open Runs

variable {κ ι : Type} [DecidableEq κ]

abbrev Table (κ ι : Type) := κ → Option ι

inductive Move (κ ι : Type) where
  | issue (key : κ) (ticket : ι)
  | redeem (key : κ) (ticket : ι)
  | idle

inductive Moves : Table κ ι → Move κ ι → Table κ ι → Prop where
  | issue : Moves table (.issue key ticket) (Function.update table key (some ticket))
  | redeem : table key = some ticket →
      Moves table (.redeem key ticket) (Function.update table key none)
  | idle : (∀ key, after key = table key ∨ after key = none) → Moves table .idle after

def Move.issues : Move κ ι → Option (κ × ι)
  | issue key ticket => some (key, ticket)
  | _ => none

def Move.redeems : Move κ ι → Option (κ × ι)
  | redeem key ticket => some (key, ticket)
  | _ => none

def issued (ms : List (Move κ ι)) : List (κ × ι) := ms.filterMap Move.issues

def redeemed (ms : List (Move κ ι)) : List (κ × ι) := ms.filterMap Move.redeems

/-- What is in the table was issued and not redeemed; what was redeemed was issued. -/
structure Accounted (ms : List (Move κ ι)) (table : Table κ ι) : Prop where
  held : ∀ key ticket, table key = some ticket → (key, ticket) ∈ issued ms
  unused : ∀ key ticket, table key = some ticket → ticket ∉ (redeemed ms).map Prod.snd
  once : ((redeemed ms).map Prod.snd).Nodup
  known : ∀ entry ∈ redeemed ms, entry ∈ issued ms

def Distinct (ms : List (Move κ ι)) : Prop := ((issued ms).map Prod.snd).Nodup

variable {ms : List (Move κ ι)}

omit [DecidableEq κ] in
theorem Distinct.before (distinct : Distinct (ms ++ [m])) : Distinct ms := by
  rw [Distinct, issued, filterMap_append, map_append] at distinct
  exact (nodup_append.mp distinct).1

omit [DecidableEq κ] in
theorem Distinct.key_unique (distinct : Distinct ms) (first : (key, ticket) ∈ issued ms)
    (second : (other, ticket) ∈ issued ms) : key = other := by
  have same := inj_on_of_nodup_map distinct first second rfl
  exact congrArg Prod.fst same

variable {key : κ} {ticket : ι}

omit [DecidableEq κ] in
private theorem entry_nodup (distinct : Distinct (ms ++ [.issue key ticket])) :
    ticket ∉ (issued ms).map Prod.snd := by
  have both : issued (ms ++ [.issue key ticket]) = issued ms ++ [(key, ticket)] :=
    filterMap_append
  rw [Distinct, both, map_append, nodup_append] at distinct
  intro inside
  exact distinct.2.2 ticket inside ticket (mem_singleton_self _) rfl

variable {table : Table κ ι}

theorem Accounted.issue (accounted : Accounted ms table)
    (distinct : Distinct (ms ++ [.issue key ticket])) :
    Accounted (ms ++ [.issue key ticket]) (Function.update table key (some ticket)) := by
  have more : issued (ms ++ [.issue key ticket]) = issued ms ++ [(key, ticket)] :=
    filterMap_append
  have same : redeemed (ms ++ [.issue key ticket]) = redeemed ms := by
    rw [redeemed, filterMap_append]
    exact append_nil _
  constructor
  · intro other held present
    rw [more, mem_append, mem_singleton]
    by_cases here : other = key
    · subst here
      rw [Function.update_self] at present
      cases present
      exact .inr rfl
    · rw [Function.update_of_ne here] at present
      exact .inl (accounted.held other held present)
  · intro other held present
    rw [same]
    by_cases here : other = key
    · subst here
      rw [Function.update_self] at present
      cases present
      intro inside
      obtain ⟨entry, wasRedeemed, rfl⟩ := mem_map.mp inside
      exact entry_nodup distinct (mem_map_of_mem (accounted.known entry wasRedeemed))
    · rw [Function.update_of_ne here] at present
      exact accounted.unused other held present
  · rw [same]
    exact accounted.once
  · intro entry inside
    rw [same] at inside
    rw [more]
    exact mem_append_left _ (accounted.known entry inside)

theorem Accounted.redeem (accounted : Accounted ms table) (distinct : Distinct ms)
    (present : table key = some ticket) :
    Accounted (ms ++ [.redeem key ticket]) (Function.update table key none) := by
  have same : issued (ms ++ [.redeem key ticket]) = issued ms := by
    rw [issued, filterMap_append]
    exact append_nil _
  have more : redeemed (ms ++ [.redeem key ticket]) = redeemed ms ++ [(key, ticket)] :=
    filterMap_append
  have elsewhere : ∀ other held, Function.update table key none other = some held →
      other ≠ key ∧ table other = some held := by
    intro other held here
    by_cases sameKey : other = key
    · subst sameKey
      rw [Function.update_self] at here
      cases here
    · rw [Function.update_of_ne sameKey] at here
      exact ⟨sameKey, here⟩
  constructor
  · intro other held here
    rw [same]
    exact accounted.held other held (elsewhere other held here).2
  · intro other held here inside
    obtain ⟨different, still⟩ := elsewhere other held here
    rw [more, map_append, mem_append] at inside
    rcases inside with earlier | now
    · exact accounted.unused other held still earlier
    · cases mem_singleton.mp now
      exact different (distinct.key_unique (accounted.held other _ still)
        (accounted.held key _ present))
  · rw [more, map_append, nodup_append]
    refine ⟨accounted.once, nodup_singleton _, ?_⟩
    intro earlier inside now isNow
    cases mem_singleton.mp isNow
    intro again
    rw [again] at inside
    exact accounted.unused key ticket present inside
  · intro entry inside
    rw [same]
    rw [more, mem_append] at inside
    rcases inside with earlier | now
    · exact accounted.known entry earlier
    · rw [mem_singleton.mp now]
      exact accounted.held key ticket present

omit [DecidableEq κ] in
theorem Accounted.idle (accounted : Accounted ms table)
    (fewer : ∀ key, after key = table key ∨ after key = none) :
    Accounted (ms ++ [.idle]) after := by
  have sameIssued : issued (ms ++ [.idle]) = issued ms := by
    rw [issued, filterMap_append]
    exact append_nil _
  have sameRedeemed : redeemed (ms ++ [.idle]) = redeemed ms := by
    rw [redeemed, filterMap_append]
    exact append_nil _
  have still : ∀ key ticket, after key = some ticket → table key = some ticket := by
    intro key ticket present
    rcases fewer key with same | empty
    · rwa [same] at present
    · rw [empty] at present
      cases present
  constructor
  · intro key ticket present
    rw [sameIssued]
    exact accounted.held key ticket (still key ticket present)
  · intro key ticket present
    rw [sameRedeemed]
    exact accounted.unused key ticket (still key ticket present)
  · rw [sameRedeemed]
    exact accounted.once
  · rw [sameRedeemed, sameIssued]
    exact accounted.known

theorem Accounted.step (accounted : Accounted ms table)
    (moved : Moves table m after) (distinct : Distinct (ms ++ [m])) :
    Accounted (ms ++ [m]) after := by
  cases moved with
  | issue => exact accounted.issue distinct
  | redeem present => exact accounted.redeem distinct.before present
  | idle fewer => exact accounted.idle fewer

theorem Accounted.run (run : Run Moves (fun _ => none) ms table) (distinct : Distinct ms) :
    Accounted ms table := by
  apply run.invariant (fun ms table => Distinct ms → Accounted ms table) _ _ distinct
  · intro _
    exact ⟨nofun, nofun, .nil, nofun⟩
  · intro ms table m after _ accounted moved distinct
    exact (accounted distinct.before).step moved distinct

end MpcNetwork.Tickets
