import Mathlib.Data.List.Perm.Subperm
import MpcNetwork.Lib.Fallible
import MpcNetwork.Node.Primitives

/-! # The cold queue and the double queue of owned assets

Assets owned by this node wait in two queues.  New ones enter the hot queue.  An
asset that was looked at and kept is in the cold queue, where two barriers split
it into a part known to satisfy the current condition, an unknown part and a part
known not to satisfy it.

The clock and the fetcher of the condition value are outside the queue, so every
operation takes the readings it makes of them.  A `none` result is a panic.
-/

namespace MpcNetwork.Node.Assets

open Fallible

abbrev Instant := Nat

/-- What one operation reads: the clock, the clock when it refreshes, and the fetched value. -/
structure Reading (C : Type) where
  now : Instant
  fetchedAt : Instant
  value : C
  deriving Repr

structure ColdQueue (T C : Type) where
  coldReady : Nat
  coldAvailable : Nat
  coldQueue : List (UniqueId × T)
  lastConditionValue : C
  condition : C → T → Bool
  nextFetchDue : Instant

inductive ColdQueueTakeResult (T : Type) where
  | taken (entry : UniqueId × T)
  | notTakenButSomeMayBeAvailable
  | notTakenAndNoneAvailable
  deriving Repr, DecidableEq

inductive ColdQueueDiscardResult (T : Type) where
  | discarded (entry : UniqueId × T)
  | notDiscardedButSomeMayBeAvailable
  | notDiscardedAndNoneAvailable
  deriving Repr, DecidableEq

inductive ColdQueueAddIfSatisfiedResult (T : Type) where
  | conditionNotSatisfied (value : T)
  | enqueued
  deriving Repr, DecidableEq

inductive ColdQueueAddIfNotSatisfiedResult (T : Type) where
  | conditionSatisfied (value : T)
  | enqueued
  deriving Repr, DecidableEq

def conditionRefreshInterval : Nat := 1000000000

namespace ColdQueue

variable {T C : Type}

def new (now : Instant) (condition : C → T → Bool) (default : C) : ColdQueue T C where
  coldReady := 0
  coldAvailable := 0
  coldQueue := []
  lastConditionValue := default
  condition := condition
  nextFetchDue := now

variable [DecidableEq C]

/-- Fetch the condition value; when it changed, forget what is known of every entry. -/
def updateConditionValue (q : ColdQueue T C) (r : Reading C) : ColdQueue T C :=
  let q := { q with nextFetchDue := r.fetchedAt + conditionRefreshInterval }
  if r.value ≠ q.lastConditionValue then
    { q with
      lastConditionValue := r.value
      coldReady := 0
      coldAvailable := q.coldQueue.length }
  else q

def updateConditionValueIfDue (q : ColdQueue T C) (r : Reading C) : ColdQueue T C :=
  if r.now < q.nextFetchDue then q else q.updateConditionValue r

/-- The front is handed over when it satisfies the condition, or moves to the back. -/
def take (q : ColdQueue T C) (r : Reading C) : Option (ColdQueue T C × ColdQueueTakeResult T) :=
  let q := q.updateConditionValueIfDue r
  if q.coldAvailable = 0 then
    some (q, .notTakenAndNoneAvailable)
  else
    match q.coldQueue with
    | [] => none
    | entry :: rest =>
      let q := { q with coldQueue := rest, coldAvailable := q.coldAvailable - 1 }
      if q.coldReady > 0 then
        some ({ q with coldReady := q.coldReady - 1 }, .taken entry)
      else if q.condition q.lastConditionValue entry.2 then
        some (q, .taken entry)
      else
        some ({ q with coldQueue := rest ++ [entry] }, .notTakenButSomeMayBeAvailable)

/-- The back is dropped, or moves to the front if it is unknown and satisfies the condition. -/
def discard (q : ColdQueue T C) (r : Reading C) :
    Option (ColdQueue T C × ColdQueueDiscardResult T) :=
  let q := q.updateConditionValueIfDue r
  if q.coldReady = q.coldQueue.length then
    some (q, .notDiscardedAndNoneAvailable)
  else
    match q.coldQueue.getLast? with
    | none => none
    | some entry =>
      let rest := q.coldQueue.dropLast
      let unknown := q.coldAvailable > rest.length
      let available := if unknown then q.coldAvailable - 1 else q.coldAvailable
      let conditionSatisfied :=
        if unknown then q.condition q.lastConditionValue entry.2 else false
      if !conditionSatisfied then
        some ({ q with coldQueue := rest, coldAvailable := available }, .discarded entry)
      else
        some
          ({ q with
              coldQueue := entry :: rest
              coldReady := q.coldReady + 1
              coldAvailable := available + 1 },
            .notDiscardedButSomeMayBeAvailable)

def addIfConditionSatisfied (q : ColdQueue T C) (id : UniqueId) (value : T) (r : Reading C) :
    ColdQueue T C × ColdQueueAddIfSatisfiedResult T :=
  let q := q.updateConditionValueIfDue r
  if q.condition q.lastConditionValue value then
    ({ q with
        coldQueue := (id, value) :: q.coldQueue
        coldReady := q.coldReady + 1
        coldAvailable := q.coldAvailable + 1 },
      .enqueued)
  else (q, .conditionNotSatisfied value)

def addIfConditionNotSatisfied (q : ColdQueue T C) (id : UniqueId) (value : T) (r : Reading C) :
    ColdQueue T C × ColdQueueAddIfNotSatisfiedResult T :=
  let q := q.updateConditionValueIfDue r
  if q.condition q.lastConditionValue value then (q, .conditionSatisfied value)
  else ({ q with coldQueue := q.coldQueue ++ [(id, value)] }, .enqueued)

end ColdQueue

/-- The entry a `take` hands over, if any. -/
def ColdQueueTakeResult.given {T : Type} : ColdQueueTakeResult T → List (UniqueId × T)
  | taken entry => [entry]
  | _ => []

/-- The entry a `discard` drops, if any. -/
def ColdQueueDiscardResult.dropped {T : Type} : ColdQueueDiscardResult T → List (UniqueId × T)
  | discarded entry => [entry]
  | _ => []

/-! ## What the cold queue conserves

Every operation keeps the entries up to order, apart from the one it hands over,
drops or adds. -/

namespace ColdQueue

variable {T C : Type} [DecidableEq C] {q : ColdQueue T C}

@[simp] theorem coldQueue_updateConditionValue :
    (q.updateConditionValue r).coldQueue = q.coldQueue := by
  simp only [updateConditionValue]
  split <;> rfl

@[simp] theorem coldQueue_updateConditionValueIfDue :
    (q.updateConditionValueIfDue r).coldQueue = q.coldQueue := by
  unfold updateConditionValueIfDue
  split
  · rfl
  · exact coldQueue_updateConditionValue

theorem take_conserves (ran : q.take r = some (next, result)) :
    q.coldQueue.Perm (result.given ++ next.coldQueue) := by
  rw [← coldQueue_updateConditionValueIfDue (r := r)]
  simp only [take] at ran
  generalize q.updateConditionValueIfDue r = fetched at ran ⊢
  split at ran
  · cases ran
    exact .refl _
  · split at ran
    · cases ran
    · rename_i entry rest front
      rw [front]
      split at ran
      · cases ran
        exact .refl _
      · split at ran
        · cases ran
          exact .refl _
        · cases ran
          exact (List.perm_append_singleton entry rest).symm

theorem discard_conserves (ran : q.discard r = some (next, result)) :
    q.coldQueue.Perm (result.dropped ++ next.coldQueue) := by
  rw [← coldQueue_updateConditionValueIfDue (r := r)]
  simp only [discard] at ran
  generalize q.updateConditionValueIfDue r = fetched at ran ⊢
  split at ran
  · cases ran
    exact .refl _
  · split at ran
    · cases ran
    · rename_i entry back
      have rotated : fetched.coldQueue.Perm (entry :: fetched.coldQueue.dropLast) := by
        have split := List.perm_append_singleton entry fetched.coldQueue.dropLast
        rwa [List.dropLast_append_getLast? entry back] at split
      split_ifs at ran <;> cases ran <;> exact rotated

theorem addIfConditionNotSatisfied_conserves {id : UniqueId}
    (ran : q.addIfConditionNotSatisfied id value r = (next, result)) :
    (result = .conditionSatisfied value ∧ next.coldQueue = q.coldQueue) ∨
      (result = .enqueued ∧ next.coldQueue = q.coldQueue ++ [(id, value)]) := by
  simp only [addIfConditionNotSatisfied] at ran
  split at ran <;> cases ran
  · exact .inl ⟨rfl, coldQueue_updateConditionValueIfDue⟩
  · exact .inr ⟨rfl, by simp only [coldQueue_updateConditionValueIfDue]⟩

theorem addIfConditionSatisfied_conserves (id : UniqueId) (value : T) :
    (q.addIfConditionSatisfied id value r).1.coldQueue = q.coldQueue ∨
      (q.addIfConditionSatisfied id value r).1.coldQueue = (id, value) :: q.coldQueue := by
  simp only [addIfConditionSatisfied]
  split
  · exact .inr (by simp only [coldQueue_updateConditionValueIfDue])
  · exact .inl coldQueue_updateConditionValueIfDue

end ColdQueue

structure DoubleQueue (T C : Type) where
  hot : List (UniqueId × T)
  cold : ColdQueue T C

/-- When the cold queue has nothing: the timer fires, or a hot element is received. -/
inductive Wake (C : Type) where
  | slept
  | received (reading : Reading C)
  deriving Repr

/-- The environment of one turn of the `take_owned` loop. -/
structure Poll (C : Type) where
  reading : Reading C
  wake : Wake C
  deriving Repr

namespace DoubleQueue

variable {T C : Type}

def new (now : Instant) (condition : C → T → Bool) (default : C) : DoubleQueue T C where
  hot := []
  cold := .new now condition default

def addOwned (q : DoubleQueue T C) (id : UniqueId) (value : T) : DoubleQueue T C :=
  { q with hot := q.hot ++ [(id, value)] }

variable [DecidableEq C]

/-- `take_owned` for as many turns as there are polls; `none` while it is still pending. -/
def takeOwnedLoop : List (Poll C) → DoubleQueue T C → Option (DoubleQueue T C × Option (UniqueId × T))
  | [], q => some (q, none)
  | poll :: polls, q => do
    let (cold, taken) ← q.cold.take poll.reading
    let q := { q with cold := cold }
    match taken with
    | .taken result => some (q, some result)
    | .notTakenButSomeMayBeAvailable => takeOwnedLoop polls q
    | .notTakenAndNoneAvailable =>
      match poll.wake, q.hot with
      | .slept, _ => takeOwnedLoop polls q
      | .received _, [] => some (q, none)
      | .received reading, (id, value) :: hot =>
        let (cold, added) := q.cold.addIfConditionNotSatisfied id value reading
        let q := { q with hot := hot, cold := cold }
        match added with
        | .conditionSatisfied value => some (q, some (id, value))
        | .enqueued => takeOwnedLoop polls q

/-- The condition is always fetched before the first turn. -/
def takeOwned (q : DoubleQueue T C) (first : Reading C) (polls : List (Poll C)) :
    Option (DoubleQueue T C × Option (UniqueId × T)) :=
  takeOwnedLoop polls { q with cold := q.cold.updateConditionValue first }

/-- The first loop of `maybe_discard_owned`: the removed ids and how many are left to process. -/
def discardCold (readings : Nat → Reading C) :
    Nat → DoubleQueue T C → Option (DoubleQueue T C × List UniqueId × Nat)
  | 0, q => some (q, [], 0)
  | n + 1, q => do
    let (cold, discarded) ← q.cold.discard (readings n)
    let q := { q with cold := cold }
    match discarded with
    | .discarded (id, _) =>
      let (q, removed, left) ← discardCold readings n q
      some (q, id :: removed, left)
    | .notDiscardedButSomeMayBeAvailable => discardCold readings n q
    | .notDiscardedAndNoneAvailable => some (q, [], n + 1)

/-- The second loop. A hot element that does not satisfy the condition is dropped. -/
def processHot (readings : Nat → Reading C) : Nat → DoubleQueue T C → DoubleQueue T C
  | 0, q => q
  | n + 1, q =>
    match q.hot with
    | [] => q
    | (id, value) :: hot =>
      let cold := (q.cold.addIfConditionSatisfied id value (readings n)).1
      processHot readings n { q with hot := hot, cold := cold }

def maybeDiscardOwned (q : DoubleQueue T C) (numElementsToProcess : Nat) (first : Reading C)
    (coldReadings hotReadings : Nat → Reading C) : Option (DoubleQueue T C × List UniqueId) := do
  let q := { q with cold := q.cold.updateConditionValue first }
  let (q, removed, left) ← discardCold coldReadings numElementsToProcess q
  some (processHot hotReadings left q, removed)

end DoubleQueue

namespace DoubleQueue

variable {T C : Type}

def held (q : DoubleQueue T C) : List (UniqueId × T) :=
  q.hot ++ q.cold.coldQueue

def heldIds (q : DoubleQueue T C) : List UniqueId :=
  q.held.map Prod.fst

theorem heldIds_addOwned (q : DoubleQueue T C) (id : UniqueId) (value : T) :
    (q.addOwned id value).heldIds.Perm (id :: q.heldIds) := by
  have moved : (q.addOwned id value).held.Perm ((id, value) :: q.held) := by
    simp only [held, addOwned, List.append_assoc, List.singleton_append]
    exact List.perm_middle
  exact moved.map Prod.fst

variable [DecidableEq C] {q : DoubleQueue T C}

theorem takeOwnedLoop_conserves (ran : takeOwnedLoop polls q = some (next, result)) :
    q.held.Perm (result.toList ++ next.held) := by
  induction polls generalizing q with
  | nil =>
    cases ran
    exact .refl _
  | cons poll polls ih =>
    simp only [takeOwnedLoop, bind_some_iff] at ran
    obtain ⟨⟨cold, taken⟩, took, ran⟩ := ran
    have cooled := ColdQueue.take_conserves took
    cases taken with
    | taken entry =>
      cases ran
      exact (cooled.append_left q.hot).trans List.perm_middle
    | notTakenButSomeMayBeAvailable => exact (cooled.append_left q.hot).trans (ih ran)
    | notTakenAndNoneAvailable =>
      have same : q.held.Perm (q.hot ++ cold.coldQueue) := cooled.append_left q.hot
      dsimp only at ran
      split at ran
      · exact same.trans (ih ran)
      · cases ran
        exact same
      · rename_i reading id value hot _ front
        rw [front] at same
        cases added : cold.addIfConditionNotSatisfied id value reading with
        | mk after outcome =>
          rw [added] at ran
          rcases ColdQueue.addIfConditionNotSatisfied_conserves added with
            ⟨rfl, kept⟩ | ⟨rfl, kept⟩
          · cases ran
            rw [held, held, kept]
            exact same
          · refine same.trans (.trans ?_ (ih ran))
            simp only [held, kept, ← List.append_assoc, List.cons_append]
            exact (List.perm_append_singleton _ _).symm

theorem takeOwned_conserves (ran : takeOwned q first polls = some (next, result)) :
    q.held.Perm (result.toList ++ next.held) := by
  simpa only [held, ColdQueue.coldQueue_updateConditionValue] using takeOwnedLoop_conserves ran

theorem discardCold_conserves (ran : discardCold readings n q = some (next, removed, left)) :
    q.heldIds.Perm (removed ++ next.heldIds) := by
  induction n generalizing q removed with
  | zero =>
    cases ran
    exact .refl _
  | succ n ih =>
    simp only [discardCold, bind_some_iff] at ran
    obtain ⟨⟨cold, discarded⟩, dropped, ran⟩ := ran
    have cooled := (ColdQueue.discard_conserves dropped).append_left q.hot
    cases discarded with
    | discarded entry =>
      simp only [bind_some_iff] at ran
      obtain ⟨⟨after, rest, count⟩, later, ran⟩ := ran
      cases ran
      have first := (cooled.trans List.perm_middle).map Prod.fst
      exact first.trans ((ih later).cons entry.1)
    | notDiscardedButSomeMayBeAvailable => exact (cooled.map Prod.fst).trans (ih ran)
    | notDiscardedAndNoneAvailable =>
      cases ran
      exact cooled.map Prod.fst

/-- The hot loop only forgets: what it holds afterwards it held before. -/
theorem processHot_forgets : (processHot readings n q).heldIds.Subperm q.heldIds := by
  induction n generalizing q with
  | zero => exact List.Subperm.refl _
  | succ n ih =>
    unfold processHot
    split
    · exact List.Subperm.refl _
    · rename_i id value hot front
      refine ih.trans ?_
      have whole : q.heldIds = id :: (hot ++ q.cold.coldQueue).map Prod.fst := by
        simp only [heldIds, held, front, List.cons_append, List.map_cons]
      rw [whole]
      rcases ColdQueue.addIfConditionSatisfied_conserves (q := q.cold) (r := readings n) id value
        with kept | kept
      · simp only [heldIds, held, kept]
        exact (List.sublist_cons_self _ _).subperm
      · simp only [heldIds, held, kept]
        exact (List.perm_middle.map Prod.fst).subperm

theorem maybeDiscardOwned_conserves
    (ran : maybeDiscardOwned q n first coldReadings hotReadings = some (next, removed)) :
    ∃ kept, q.heldIds.Perm (removed ++ kept) ∧ next.heldIds.Subperm kept := by
  simp only [maybeDiscardOwned, bind_some_iff] at ran
  obtain ⟨⟨after, gone, left⟩, dropped, ran⟩ := ran
  cases ran
  refine ⟨after.heldIds, ?_, processHot_forgets⟩
  simpa only [heldIds, held, ColdQueue.coldQueue_updateConditionValue]
    using discardCold_conserves dropped

end DoubleQueue

end MpcNetwork.Node.Assets
