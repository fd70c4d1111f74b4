import MpcNetwork.Lib.Inventory
import MpcNetwork.Node.Assets.Storage

/-! # How often an asset is handed out

A run is a sequence of calls on one node's storage, restarts included.  The ids of
`take_unowned` come from other nodes' messages and are not restricted.  The
storage is an inventory in the sense of `MpcNetwork.Inventory`: the double queue is
its shelf and the database its ledger.
-/

namespace MpcNetwork.Node.Assets

open Runs Inventory

/-- A call together with everything it reads from the clock and the liveness query. -/
inductive Call (T : Type) where
  | addOwned (id : UniqueId) (value : T)
  | addUnowned (id : UniqueId) (value : T)
  | takeOwned (first : Reading (List ParticipantId)) (polls : List (Poll (List ParticipantId)))
  | resumeTakeOwned (polls : List (Poll (List ParticipantId)))
  | takeUnowned (id : UniqueId)
  | maybeDiscardOwned (numAssetsToProcess : Nat) (first : Reading (List ParticipantId))
      (coldReadings hotReadings : Nat → Reading (List ParticipantId))
  | restart (now : Instant)

abbrev Event (T : Type) := Call T × Option (UniqueId × T)

namespace DistributedAssetStorage

variable {T : Type}

/-- Run one call to its end.  A restart keeps the database and builds the storage anew. -/
def perform (s : DistributedAssetStorage T) :
    Call T → Option (DistributedAssetStorage T × Option (UniqueId × T))
  | .addOwned id value => some (s.addOwned id value, none)
  | .addUnowned id value => some (s.addUnowned id value, none)
  | .takeOwned first polls => s.takeOwned first polls
  | .resumeTakeOwned polls => s.resumeTakeOwned polls
  | .takeUnowned id =>
    match s.takeUnowned id with
    | .ok (next, value) => some (next, some (id, value))
    | .error _ => some (s, none)
  | .maybeDiscardOwned n first coldReadings hotReadings =>
    (s.maybeDiscardOwned n first coldReadings hotReadings).map (·, none)
  | .restart now =>
    match new now s.db s.domainId s.myParticipantId s.ownedQueue.cold.condition with
    | .ok next => some (next, none)
    | .error _ => none

end DistributedAssetStorage

def Call.added {T : Type} : Call T → Option UniqueId
  | addOwned id _ | addUnowned id _ => some id
  | _ => none

def handedOut {T : Type} (es : List (Event T)) : List UniqueId :=
  es.filterMap fun e => e.2.map Prod.fst

/-- The ids stored by the add calls of a history, in order. -/
def addedIds {T : Type} (es : List (Event T)) : List UniqueId :=
  es.filterMap fun e => e.1.added

/-- Each add call uses an id of its own, one the database did not have at first. -/
structure FreshAdds {T : Type} (s : DistributedAssetStorage T) (es : List (Event T)) : Prop where
  distinct : (addedIds es).Nodup
  unstored : ∀ id ∈ addedIds es, s.db.get (s.key id) = none

/-- `take_unowned` is not called for an id that waits in our own queue. -/
def TakesOthers {T : Type} (s : DistributedAssetStorage T) (e : Event T) : Prop :=
  ∀ id, e.1 = .takeUnowned id → id ∉ s.ownedQueue.heldIds

def Event.move {T : Type} : Event T → Move UniqueId
  | (_, some (id, _)) => .hand id
  | (call, none) => call.added.elim .idle .store

theorem Event.handed_move {T : Type} (e : Event T) : e.move.handed = e.2.map Prod.fst := by
  obtain ⟨call, _ | asset⟩ := e
  · cases added : call.added <;> simp [Event.move, Move.handed, added]
  · rfl

theorem hands_move {T : Type} (es : List (Event T)) : hands (es.map Event.move) = handedOut es := by
  rw [hands, handedOut, List.filterMap_map]
  exact List.filterMap_congr fun e _ => e.handed_move

theorem Event.stored_move {T : Type} (e : Event T) :
    e.move.stored = none ∨ e.move.stored = e.1.added := by
  obtain ⟨call, _ | asset⟩ := e
  · cases added : call.added <;> simp [Event.move, Move.stored, added]
  · exact .inl rfl

theorem stores_move_sublist {T : Type} (es : List (Event T)) :
    (stores (es.map Event.move)).Sublist (addedIds es) := by
  rw [stores, addedIds, List.filterMap_map]
  exact filterMap_sublist_filterMap Event.stored_move es

theorem FreshAdds.moves {T : Type} {s : DistributedAssetStorage T} {es : List (Event T)}
    (fresh : FreshAdds s es) :
    (stores (es.map Event.move)).Nodup ∧
      ∀ id ∈ stores (es.map Event.move), s.db.get (s.key id) = none :=
  ⟨fresh.distinct.sublist (stores_move_sublist es),
    fun id inside => fresh.unstored id ((stores_move_sublist es).subset inside)⟩

namespace DistributedAssetStorage

variable {T : Type} {s : DistributedAssetStorage T} {domainId : Option DomainId}

def view (s : DistributedAssetStorage T) : View UniqueId where
  shelf := s.ownedQueue.heldIds
  ledger := {id | s.db.get (s.key id) ≠ none}

theorem key_injective (s : DistributedAssetStorage T) (same : s.key a = s.key b) : a = b :=
  makeKey_injective same

theorem ledger_put (s : DistributedAssetStorage T) (id : UniqueId) (value : T) :
    {other | (s.db.put (s.key id) value).get (s.key other) ≠ none} = insert id s.view.ledger := by
  ext other
  by_cases same : other = id
  · simp [Db.get_put, same]
  · have apart : s.key other ≠ s.key id := fun keys => same (s.key_injective keys)
    simp [Db.get_put, apart, same, view]

theorem ledger_delete (s : DistributedAssetStorage T) (id : UniqueId) :
    {other | (s.db.delete (s.key id)).get (s.key other) ≠ none} = s.view.ledger \ {id} := by
  ext other
  by_cases same : other = id
  · simp [Db.get_delete, same]
  · have apart : s.key other ≠ s.key id := fun keys => same (s.key_injective keys)
    simp [Db.get_delete, apart, same, view]

theorem ledger_deleteAll (s : DistributedAssetStorage T) (removed : List UniqueId) (db : Db T) :
    {other | (removed.foldl (fun db id => db.delete (s.key id)) db).get (s.key other) ≠ none} =
      {other | db.get (s.key other) ≠ none} \ {other | other ∈ removed} := by
  induction removed generalizing db with
  | nil => simp
  | cons id removed ih =>
    rw [List.foldl_cons, ih, show {other | (db.delete (s.key id)).get (s.key other) ≠ none} =
      {other | db.get (s.key other) ≠ none} \ {id} from ledger_delete { s with db := db } id]
    ext other
    simp only [Set.mem_sdiff, Set.mem_ofPred_eq, Set.mem_singleton_iff, List.mem_cons]
    tauto

theorem consistent_new {db : Db T} (created : new now db domainId p condition = .ok s) :
    Consistent s.view := by
  obtain ⟨rfl, rfl, start, stop, range, keys, _⟩ := new_ok created
  constructor
  · have distinct := s.db.nodup_keys_iterRange start stop
    rw [← keys] at distinct
    exact distinct.of_map _
  · intro id held
    have listed : makeKey s.domainId id ∈ (s.db.iterRange start stop).map Prod.fst :=
      keys ▸ List.mem_map_of_mem held
    obtain ⟨⟨key, value⟩, inside, rfl⟩ := List.mem_map.mp listed
    have found := (Db.mem_iterRange.mp inside).1
    simp only [view, Set.mem_ofPred_eq, key]
    rw [found]
    exact Option.some_ne_none value

theorem moves_finishTakeOwned
    (adds : call.added = none) (conserved : s.ownedQueue.held.Perm (result.toList ++ queue.held))
    (finished : s.finishTakeOwned (queue, result) = (next, handed)) :
    Moves s.view (Event.move (call, handed)) next.view := by
  cases result with
  | none =>
    cases finished
    simp only [Event.move, adds, Option.elim_none]
    exact .keep (conserved.map Prod.fst) rfl
  | some asset =>
    cases finished
    exact .handFromShelf (conserved.map Prod.fst) (s.ledger_delete asset.1)

/-- Calls are moves of the inventory, if `take_unowned` stays away from our own queue. -/
theorem moves_step (s : DistributedAssetStorage T) (e : Event T) (next : DistributedAssetStorage T)
    (step : Guarded TakesOthers (Acts perform) s e next) : Moves s.view e.move next.view := by
  obtain ⟨others, acted⟩ := step
  obtain ⟨call, handed⟩ := e
  simp only [Acts] at acted
  cases call with
  | addOwned id value =>
    cases acted
    exact .storeOnShelf (s.ownedQueue.heldIds_addOwned id value) (s.ledger_put id value)
  | addUnowned id value =>
    cases acted
    exact .storeByName rfl (s.ledger_put id value)
  | takeOwned first polls =>
    obtain ⟨⟨queue, result⟩, took, finished⟩ := Option.map_eq_some_iff.mp acted
    exact moves_finishTakeOwned rfl (DoubleQueue.takeOwned_conserves took) finished
  | resumeTakeOwned polls =>
    obtain ⟨⟨queue, result⟩, took, finished⟩ := Option.map_eq_some_iff.mp acted
    exact moves_finishTakeOwned rfl (DoubleQueue.takeOwnedLoop_conserves took) finished
  | takeUnowned id =>
    simp only [perform, takeUnowned] at acted
    cases found : s.db.get (s.key id) with
    | none =>
      rw [found] at acted
      cases acted
      exact .keep (.refl _) rfl
    | some value =>
      rw [found] at acted
      cases acted
      have stored : id ∈ s.view.ledger := by simp [view, found]
      exact .handByName stored (others id rfl) rfl (s.ledger_delete id)
  | maybeDiscardOwned n first coldReadings hotReadings =>
    obtain ⟨after, ran, same⟩ := Option.map_eq_some_iff.mp acted
    cases same
    simp only [maybeDiscardOwned, Fallible.bind_some_iff] at ran
    obtain ⟨⟨queue, removed⟩, processed, done⟩ := ran
    cases done
    obtain ⟨kept, shelf, rest⟩ := DoubleQueue.maybeDiscardOwned_conserves processed
    exact .discard shelf rest (s.ledger_deleteAll removed s.db)
  | restart now =>
    simp only [perform] at acted
    split at acted
    · rename_i created
      cases acted
      obtain ⟨distinct, recorded⟩ := consistent_new created
      obtain ⟨db, domain, _⟩ := new_ok created
      have same : next.view.ledger = s.view.ledger := by simp only [view, key, db, domain]
      exact .reload distinct (same ▸ recorded) same
    · cases acted

end DistributedAssetStorage

open DistributedAssetStorage

/-- Every asset is handed out at most once, as long as ids are fresh and no `take_unowned` names an
    asset that waits in our own queue. -/
theorem handed_out_once {T : Type} {now : Instant} {db : Db T} {domainId : Option DomainId}
    {me : ParticipantId} {condition : List ParticipantId → T → Bool}
    {s t : DistributedAssetStorage T} {es : List (Event T)}
    (created : new now db domainId me condition = .ok s)
    (run : Run (Guarded TakesOthers (Acts perform)) s es t) (fresh : FreshAdds s es) :
    (handedOut es).Nodup := by
  have moves : Run Moves s.view (es.map Event.move) t.view := run.simulate _ _ moves_step
  have names : Fresh s.view (es.map Event.move) := by
    refine ⟨fresh.moves.1, fun id inside stored => ?_⟩
    exact stored (fresh.moves.2 id inside)
  exact hands_move es ▸ (SingleUse.run (consistent_new created) moves names).once

private def onlyAsset : UniqueId := ⟨1⟩

private def everyoneAlive : Reading (List ParticipantId) := ⟨0, 0, [⟨0⟩]⟩

private def receiveOnce : List (Poll (List ParticipantId)) := [⟨everyoneAlive, .received everyoneAlive⟩]

private def emptyStorage : DistributedAssetStorage Nat where
  db := .empty
  domainId := none
  myParticipantId := ⟨0⟩
  ownedQueue := .new 0 (fun _ _ => true) []
  lastId := none

private theorem emptyStorage_created :
    new 0 Db.empty none ⟨0⟩ (fun _ _ => true) = .ok emptyStorage :=
  rfl

/-- Adding an own asset and taking it hands it out, once. -/
theorem handed_out_once_owned :
    ∃ s es t, new 0 Db.empty none ⟨0⟩ (fun _ (_ : Nat) => true) = .ok s ∧
      Run (Guarded TakesOthers (Acts perform)) s es t ∧ FreshAdds s es ∧
      handedOut es = [onlyAsset] ∧ (handedOut es).Nodup := by
  obtain ⟨es, t, ran, inputs, added, handed⟩ := exists_run perform emptyStorage
    [.addOwned onlyAsset 7, .takeOwned everyoneAlive receiveOnce]
    (fun es _ => addedIds es = [onlyAsset] ∧ handedOut es = [onlyAsset]) (by decide +kernel)
  have run : Run (Guarded TakesOthers (Acts perform)) emptyStorage es t := by
    refine ran.guarded fun e inside s id call => ?_
    have made : e.1 ∈ es.map Prod.fst := List.mem_map_of_mem inside
    rw [inputs, call] at made
    simp at made
  have fresh : FreshAdds emptyStorage es := by
    refine ⟨?_, fun _ _ => rfl⟩
    rw [added]
    decide
  exact ⟨_, es, t, emptyStorage_created, run, fresh, handed,
    handed_out_once emptyStorage_created run fresh⟩

/-- A peer names our own asset: `take_unowned` hands it out, and `take_owned` again. -/
theorem own_asset_handed_out_twice :
    ∃ s es t, new 0 Db.empty none ⟨0⟩ (fun _ (_ : Nat) => true) = .ok s ∧
      Run (Acts perform) s es t ∧ FreshAdds s es ∧ ¬ (handedOut es).Nodup := by
  obtain ⟨es, t, run, _, added, handed⟩ := exists_run perform emptyStorage
    [.addOwned onlyAsset 7, .takeUnowned onlyAsset, .takeOwned everyoneAlive receiveOnce]
    (fun es _ => (addedIds es).Nodup ∧ ¬ (handedOut es).Nodup) (by decide +kernel)
  exact ⟨emptyStorage, es, t, emptyStorage_created, run, ⟨added, fun _ _ => rfl⟩, handed⟩

end MpcNetwork.Node.Assets
