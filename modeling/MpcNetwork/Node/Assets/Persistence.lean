import MpcNetwork.Node.Assets.SingleUse

/-! # What is stored and what is held

Between two calls the double queue should hold just the assets of this node that the database
has.  Start-up, `take_owned` and the cold loop of `maybe_discard_owned` see to that.  The hot loop
does not: an asset that fails the condition there is dropped from memory, and stays in the
database until the next start brings it back.
-/

namespace MpcNetwork.Node.Assets

open Fallible Inventory Runs

namespace ColdQueue

variable {T C : Type} [DecidableEq C] {q : ColdQueue T C} {r : Reading C} {P : C → Prop}

theorem lastConditionValue_updateConditionValue :
    (q.updateConditionValue r).lastConditionValue = r.value := by
  simp only [updateConditionValue]
  split
  · rfl
  · rename_i same
    exact (not_not.mp same).symm

@[simp] theorem condition_updateConditionValue :
    (q.updateConditionValue r).condition = q.condition := by
  simp only [updateConditionValue]
  split <;> rfl

@[simp] theorem condition_updateConditionValueIfDue :
    (q.updateConditionValueIfDue r).condition = q.condition := by
  unfold updateConditionValueIfDue
  split
  · rfl
  · exact condition_updateConditionValue

theorem updateConditionValueIfDue_reads (old : P q.lastConditionValue) (new : P r.value) :
    P (q.updateConditionValueIfDue r).lastConditionValue := by
  unfold updateConditionValueIfDue
  split
  · exact old
  · rw [lastConditionValue_updateConditionValue]
    exact new

theorem discard_reads (ran : q.discard r = some (next, result)) (old : P q.lastConditionValue)
    (new : P r.value) : next.condition = q.condition ∧ P next.lastConditionValue := by
  have reads := updateConditionValueIfDue_reads old new
  have same := condition_updateConditionValueIfDue (q := q) (r := r)
  simp only [discard] at ran
  generalize q.updateConditionValueIfDue r = fetched at ran reads same
  split at ran
  · cases ran
    exact ⟨same, reads⟩
  · split at ran
    · cases ran
    · split_ifs at ran <;> cases ran <;> exact ⟨same, reads⟩

end ColdQueue

namespace DoubleQueue

variable {T C : Type} [DecidableEq C] {q : DoubleQueue T C}

theorem discardCold_reads {P : C → Prop}
    (ran : discardCold readings n q = some (next, removed, left))
    (old : P q.cold.lastConditionValue) (new : ∀ i < n, P (readings i).value) :
    left ≤ n ∧ next.hot = q.hot ∧ next.cold.condition = q.cold.condition ∧
      P next.cold.lastConditionValue := by
  induction n generalizing q removed with
  | zero =>
    cases ran
    exact ⟨le_rfl, rfl, rfl, old⟩
  | succ n ih =>
    simp only [discardCold, bind_some_iff] at ran
    obtain ⟨⟨cold, discarded⟩, dropped, ran⟩ := ran
    obtain ⟨same, reads⟩ := ColdQueue.discard_reads dropped old (new n (Nat.lt_succ_self n))
    have later : ∀ i < n, P (readings i).value := fun i below => new i (Nat.lt_succ_of_lt below)
    cases discarded with
    | discarded entry =>
      simp only [bind_some_iff] at ran
      obtain ⟨⟨after, rest, count⟩, ran, done⟩ := ran
      cases done
      obtain ⟨fewer, hot, condition, value⟩ := ih ran reads later
      exact ⟨Nat.le_succ_of_le fewer, hot, condition.trans same, value⟩
    | notDiscardedButSomeMayBeAvailable =>
      obtain ⟨fewer, hot, condition, value⟩ := ih ran reads later
      exact ⟨Nat.le_succ_of_le fewer, hot, condition.trans same, value⟩
    | notDiscardedAndNoneAvailable =>
      cases ran
      exact ⟨le_rfl, rfl, same, reads⟩

/-- The hot loop forgets nothing if what it looks at satisfies the condition. -/
theorem processHot_conserves
    (old : ∀ entry ∈ q.hot.take n, q.cold.condition q.cold.lastConditionValue entry.2)
    (new : ∀ i < n, ∀ entry ∈ q.hot.take n, q.cold.condition (readings i).value entry.2) :
    (processHot readings n q).heldIds.Perm q.heldIds := by
  induction n generalizing q with
  | zero => exact .refl _
  | succ n ih =>
    unfold processHot
    split
    · exact .refl _
    · rename_i id value hot front
      rw [front, List.take_succ_cons] at old new
      have same := ColdQueue.condition_updateConditionValueIfDue (q := q.cold) (r := readings n)
      have reads := ColdQueue.updateConditionValueIfDue_reads
        (P := fun c => ∀ entry ∈ (id, value) :: hot.take n, q.cold.condition c entry.2) old
        (new n (Nat.lt_succ_self n))
      have satisfied := reads (id, value) List.mem_cons_self
      rw [← same] at satisfied
      simp only [ColdQueue.addIfConditionSatisfied, satisfied, if_true]
      refine (ih ?_ ?_).trans ?_
      · intro entry inside
        rw [same]
        exact reads entry (List.mem_cons_of_mem _ inside)
      · intro i below entry inside
        rw [same]
        exact new i (Nat.lt_succ_of_lt below) entry (List.mem_cons_of_mem _ inside)
      · simp only [heldIds, held, front, ColdQueue.coldQueue_updateConditionValueIfDue]
        exact List.perm_middle.map Prod.fst

/-- Every asset that the hot loop may look at satisfies the condition, whatever the call reads. -/
def HotSatisfied (q : DoubleQueue T C) (n : Nat) (first : Reading C)
    (coldReadings hotReadings : Nat → Reading C) : Prop :=
  ∀ entry ∈ q.hot.take n, q.cold.condition first.value entry.2 ∧
    ∀ i < n, q.cold.condition (coldReadings i).value entry.2 ∧
      q.cold.condition (hotReadings i).value entry.2

theorem maybeDiscardOwned_exact
    (ran : maybeDiscardOwned q n first coldReadings hotReadings = some (next, removed))
    (satisfied : q.HotSatisfied n first coldReadings hotReadings) :
    q.heldIds.Perm (removed ++ next.heldIds) := by
  simp only [maybeDiscardOwned, bind_some_iff] at ran
  obtain ⟨⟨after, gone, left⟩, dropped, ran⟩ := ran
  cases ran
  have shrunk := discardCold_conserves dropped
  obtain ⟨fewer, hot, condition, old⟩ := discardCold_reads
    (P := fun c => ∀ entry ∈ q.hot.take n, q.cold.condition c entry.2) dropped
    (by
      rw [ColdQueue.lastConditionValue_updateConditionValue]
      exact fun entry inside => (satisfied entry inside).1)
    fun i below entry inside => ((satisfied entry inside).2 i below).1
  dsimp only at hot
  rw [ColdQueue.condition_updateConditionValue] at condition
  have kept : (processHot hotReadings left after).heldIds.Perm after.heldIds := by
    refine processHot_conserves ?_ ?_
    · intro entry inside
      rw [hot] at inside
      rw [condition]
      exact old entry (List.take_subset_take_left _ fewer inside)
    · intro i below entry inside
      rw [hot] at inside
      rw [condition]
      exact ((satisfied entry (List.take_subset_take_left _ fewer inside)).2 i (by omega)).2
  simp only [heldIds, held, ColdQueue.coldQueue_updateConditionValue] at shrunk kept ⊢
  exact shrunk.trans (kept.symm.append_left _)

end DoubleQueue

namespace DistributedAssetStorage

variable {T : Type} {s : DistributedAssetStorage T}

def owned (s : DistributedAssetStorage T) : Set UniqueId :=
  {id | id.participantId = s.myParticipantId}

/-- Own assets have unused ids, the rest is of others, and the hot loop's elements satisfy the
    condition. -/
def KeepsOwned (s : DistributedAssetStorage T) (e : Event T) : Prop :=
  match e.1 with
  | .addOwned id _ => id ∈ s.owned ∧ id ∉ s.ownedQueue.heldIds
  | .addUnowned id _ | .takeUnowned id => id ∉ s.owned
  | .maybeDiscardOwned n first coldReadings hotReadings =>
    s.ownedQueue.HotSatisfied n first coldReadings hotReadings
  | .takeOwned .. | .resumeTakeOwned .. | .restart _ => True

theorem complete_new {db : Db T} {domainId : Option DomainId}
    (created : new now db domainId p condition = .ok s) : Complete s.owned s.view := by
  have owner := myParticipantId_new created
  have consistent := consistent_new created
  obtain ⟨rfl, rfl, start, stop, range, keys, _⟩ := new_ok created
  have inRange : ∀ id, makeKey s.domainId id ∈ (s.db.iterRange start stop).map Prod.fst ↔
      s.db.get (s.key id) ≠ none ∧ id ∈ s.owned := by
    intro id
    rw [owned, owner, Set.mem_ofPred_eq, ← key_in_range_iff range, Option.ne_none_iff_exists']
    simp only [List.mem_map, Prod.exists, exists_and_right, exists_eq_right, Db.mem_iterRange, key]
  refine ⟨consistent, ?_, ?_⟩
  · intro id held
    exact ((inRange id).mp (keys ▸ List.mem_map_of_mem held)).2
  · intro id stored own
    have listed := (inRange id).mpr ⟨stored, own⟩
    rw [← keys] at listed
    obtain ⟨other, held, same⟩ := List.mem_map.mp listed
    exact makeKey_injective same ▸ held

theorem perform_identity (acted : s.perform call = some (next, handed)) :
    next.myParticipantId = s.myParticipantId ∧ next.domainId = s.domainId := by
  have finish : ∀ taken : DoubleQueue T (List ParticipantId) × Option (UniqueId × T),
      (s.finishTakeOwned taken).1.myParticipantId = s.myParticipantId ∧
        (s.finishTakeOwned taken).1.domainId = s.domainId := by
    rintro ⟨queue, _ | asset⟩ <;> exact ⟨rfl, rfl⟩
  cases call with
  | addOwned | addUnowned =>
    cases acted
    exact ⟨rfl, rfl⟩
  | takeOwned | resumeTakeOwned =>
    obtain ⟨taken, _, finished⟩ := Option.map_eq_some_iff.mp acted
    have same := finish taken
    rwa [finished] at same
  | takeUnowned id =>
    simp only [perform, takeUnowned] at acted
    cases found : s.db.get (s.key id) <;> rw [found] at acted <;> cases acted <;>
      exact ⟨rfl, rfl⟩
  | maybeDiscardOwned n first coldReadings hotReadings =>
    obtain ⟨after, ran, same⟩ := Option.map_eq_some_iff.mp acted
    cases same
    simp only [maybeDiscardOwned, bind_some_iff] at ran
    obtain ⟨_, _, done⟩ := ran
    cases done
    exact ⟨rfl, rfl⟩
  | restart now =>
    simp only [perform] at acted
    split at acted
    · rename_i created
      cases acted
      exact ⟨myParticipantId_new created, (new_ok created).2.1⟩
    · cases acted

theorem complete_finishTakeOwned (call : Call T)
    (complete : Complete s.owned s.view) (adds : call.added = none)
    (conserved : s.ownedQueue.held.Perm (result.toList ++ queue.held))
    (finished : s.finishTakeOwned (queue, result) = (next, handed)) :
    Complete s.owned next.view := by
  have moved := moves_finishTakeOwned adds conserved finished
  have shelf := conserved.map Prod.fst
  cases result with
  | none =>
    cases finished
    refine complete.shrink [] moved ?_ shelf (by simp)
    simp only [Event.move, adds, Option.elim_none, Move.stored]
  | some asset =>
    cases finished
    refine complete.shrink [asset.1] moved rfl shelf ?_
    intro id gone
    obtain rfl := List.mem_singleton.mp gone
    simp [view, key, Db.get_delete]

theorem complete_step (complete : Complete s.owned s.view) (keeps : s.KeepsOwned e)
    (acted : Acts perform s e next) : Complete next.owned next.view := by
  obtain ⟨call, handed⟩ := e
  have others : TakesOthers s (call, handed) := by
    rintro id rfl held
    exact keeps (complete.own id held)
  have moved := moves_step s (call, handed) next ⟨others, acted⟩
  have same : next.owned = s.owned := by
    rw [owned, owned, (perform_identity acted).1]
  rw [same]
  simp only [Acts] at acted
  cases call with
  | addOwned id value =>
    cases acted
    have shelf := s.ownedQueue.heldIds_addOwned id value
    refine complete.step moved ?_ ?_ ?_ ?_
    · rintro _ ⟨⟩
      exact keeps.2
    · rintro _ ⟨⟩ _
      exact shelf.mem_iff.mpr List.mem_cons_self
    · intro other on
      rcases List.mem_cons.mp (shelf.mem_iff.mp on) with rfl | old
      · exact keeps.1
      · exact complete.own other old
    · exact fun other on _ => shelf.mem_iff.mpr (List.mem_cons_of_mem _ on)
  | addUnowned id value =>
    cases acted
    refine complete.step moved ?_ ?_ complete.own fun _ on _ => on
    · rintro _ ⟨⟩
      exact fun on => keeps (complete.own id on)
    · rintro _ ⟨⟩ own
      exact absurd own keeps
  | takeOwned first polls =>
    obtain ⟨⟨queue, result⟩, took, finished⟩ := Option.map_eq_some_iff.mp acted
    exact complete_finishTakeOwned (.takeOwned first polls) complete rfl
      (DoubleQueue.takeOwned_conserves took) finished
  | resumeTakeOwned polls =>
    obtain ⟨⟨queue, result⟩, took, finished⟩ := Option.map_eq_some_iff.mp acted
    exact complete_finishTakeOwned (.resumeTakeOwned polls) complete rfl
      (DoubleQueue.takeOwnedLoop_conserves took) finished
  | takeUnowned id =>
    have shelf : s.view.shelf = next.view.shelf ∧
        (Event.move (.takeUnowned id, handed)).stored = none := by
      simp only [perform, takeUnowned] at acted
      cases found : s.db.get (s.key id) <;> rw [found] at acted <;> cases acted <;>
        exact ⟨rfl, rfl⟩
    exact complete.shrink [] moved shelf.2 (.of_eq shelf.1) (by simp)
  | maybeDiscardOwned n first coldReadings hotReadings =>
    obtain ⟨after, ran, done⟩ := Option.map_eq_some_iff.mp acted
    cases done
    simp only [maybeDiscardOwned, bind_some_iff] at ran
    obtain ⟨⟨queue, removed⟩, processed, done⟩ := ran
    cases done
    refine complete.shrink removed moved rfl
      (DoubleQueue.maybeDiscardOwned_exact processed keeps) ?_
    intro id gone stored
    rw [view] at stored
    have left := s.ledger_deleteAll removed s.db ▸ stored
    exact left.2 gone
  | restart now =>
    simp only [perform] at acted
    split at acted
    · rename_i created
      cases acted
      exact same ▸ complete_new created
    · cases acted

end DistributedAssetStorage

open DistributedAssetStorage

/-- The queues hold just the assets of this node that the database has. -/
theorem owned_stored_iff_held {T : Type} {now : Instant} {db : Db T} {domainId : Option DomainId}
    {me : ParticipantId} {condition : List ParticipantId → T → Bool}
    {s t : DistributedAssetStorage T} {es : List (Event T)}
    (created : new now db domainId me condition = .ok s)
    (run : Run (Guarded KeepsOwned (Acts perform)) s es t) (id : UniqueId) :
    (id.participantId = me ∧ t.db.get (makeKey domainId id) ≠ none) ↔
      id ∈ t.ownedQueue.heldIds := by
  obtain ⟨rfl, rfl, complete⟩ :
      t.myParticipantId = me ∧ t.domainId = domainId ∧ Complete t.owned t.view := by
    refine run.invariant (fun _ t =>
      t.myParticipantId = me ∧ t.domainId = domainId ∧ Complete t.owned t.view) ?_ ?_
    · exact ⟨myParticipantId_new created, (new_ok created).2.1, complete_new created⟩
    · rintro es u e w _ ⟨owner, domain, complete⟩ ⟨keeps, acted⟩
      obtain ⟨sameOwner, sameDomain⟩ := perform_identity acted
      exact ⟨sameOwner.trans owner, sameDomain.trans domain, complete_step complete keeps acted⟩
  exact ⟨fun stored => complete.listed id stored.2 stored.1,
    fun held => ⟨complete.own id held, complete.recorded id held⟩⟩

/-- An asset is usable while all its participants are alive. -/
private def allAlive (alive asset : List ParticipantId) : Bool := asset.all (· ∈ alive)

private def ownAsset : UniqueId := .new ⟨0⟩ 1 0

private def noAssets : DistributedAssetStorage (List ParticipantId) where
  db := .empty
  domainId := none
  myParticipantId := ⟨0⟩
  ownedQueue := .new 0 allAlive []
  lastId := none

private def aliveAre (alive : List ParticipantId) : Reading (List ParticipantId) := ⟨0, 0, alive⟩

/-- The asset of participants 0 and 1 is produced, node 1 goes offline, the asset is discarded. -/
private def produceAndDiscard : List (Call (List ParticipantId)) :=
  [.addOwned ownAsset [⟨0⟩, ⟨1⟩],
    .maybeDiscardOwned 1 (aliveAre [⟨0⟩]) (fun _ => aliveAre [⟨0⟩]) fun _ => aliveAre [⟨0⟩]]

/-- The asset is gone from memory and still stored. -/
theorem discarded_asset_stays_stored :
    ∃ s es t, new 0 Db.empty none ⟨0⟩ allAlive = .ok s ∧ Run (Acts perform) s es t ∧
      ownAsset.participantId = ⟨0⟩ ∧ t.db.get (makeKey none ownAsset) = some [⟨0⟩, ⟨1⟩] ∧
      t.ownedQueue.heldIds = [] := by
  obtain ⟨es, t, run, _, stored, held⟩ := exists_run perform noAssets produceAndDiscard
    (fun _ t => t.db.get (makeKey none ownAsset) = some [⟨0⟩, ⟨1⟩] ∧ t.ownedQueue.heldIds = [])
    (by decide +kernel)
  exact ⟨noAssets, es, t, rfl, run, by decide, stored, held⟩

private def bothOnline : Nat → Reading (List ParticipantId) := fun _ => aliveAre [⟨0⟩, ⟨1⟩]

private def produced : DistributedAssetStorage (List ParticipantId) :=
  noAssets.addOwned ownAsset [⟨0⟩, ⟨1⟩]

/-- The asset has been looked at and found usable. -/
private def lookedAt : DistributedAssetStorage (List ParticipantId) :=
  { produced with
    ownedQueue := ⟨[], ⟨1, 1, [(ownAsset, [⟨0⟩, ⟨1⟩])], [⟨0⟩, ⟨1⟩], allAlive, 1000000000⟩⟩ }

private def restarted : DistributedAssetStorage (List ParticipantId) :=
  { produced with
    ownedQueue := ⟨[(ownAsset, [⟨0⟩, ⟨1⟩])], .new 1 allAlive []⟩
    lastId := some ownAsset }

/-- The asset is produced, kept while both participants are alive, and survives a restart. -/
theorem owned_stored_iff_held_restarted :
    ∃ es, new 0 Db.empty none ⟨0⟩ allAlive = .ok noAssets ∧
      Run (Guarded KeepsOwned (Acts perform)) noAssets es restarted ∧ es.length = 3 ∧
      ownAsset ∈ restarted.ownedQueue.heldIds := by
  have produce : Guarded KeepsOwned (Acts perform) noAssets
      (.addOwned ownAsset [⟨0⟩, ⟨1⟩], none) produced := ⟨⟨rfl, by decide⟩, rfl⟩
  have usable : produced.ownedQueue.HotSatisfied 1 (bothOnline 0) bothOnline bothOnline := by
    unfold DoubleQueue.HotSatisfied
    decide
  have look : Guarded KeepsOwned (Acts perform) produced
      (.maybeDiscardOwned 1 (bothOnline 0) bothOnline bothOnline, none) lookedAt := ⟨usable, rfl⟩
  have restart : Guarded KeepsOwned (Acts perform) lookedAt (.restart 1, none) restarted :=
    ⟨trivial, rfl⟩
  have run := ((Run.nil.snoc produce).snoc look).snoc restart
  have created : new 0 Db.empty none ⟨0⟩ allAlive = .ok noAssets := rfl
  refine ⟨_, created, run, rfl, ?_⟩
  refine (owned_stored_iff_held created run ownAsset).mp ⟨rfl, ?_⟩
  decide +kernel

end MpcNetwork.Node.Assets
