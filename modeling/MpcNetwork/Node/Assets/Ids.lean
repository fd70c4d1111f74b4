import MpcNetwork.Lib.Runs
import MpcNetwork.Node.Assets.Storage

/-! # Ids that are reserved for new assets

The storage remembers the last id that it has given out.  The next one is taken from the clock if it
has moved on, and from the counter otherwise, so ids increase whatever the clock reads, until the
counter of a second is used up.
-/

namespace MpcNetwork.Node

namespace UniqueId

theorem pickNewAfter_some {u : UniqueId} (picked : u.pickNewAfter now = some v) :
    v.participantId = u.participantId ∧ u.id.toNat < v.id.toNat := by
  unfold pickNewAfter at picked
  have hc := u.counter.toNat_lt
  split at picked
  · rename_i later
    cases picked
    rw [UInt64.lt_iff_toNat_lt] at later
    refine ⟨participantId_new _ _ _, ?_⟩
    rw [toNat_new, u.toNat_id]
    omega
  · split at picked
    · rename_i room
      cases picked
      refine ⟨participantId_new _ _ _, ?_⟩
      have next : (u.counter + 1).toNat = u.counter.toNat + 1 := by
        rw [UInt32.toNat_add]
        exact Nat.mod_eq_of_lt room
      rw [toNat_new, u.toNat_id, next]
      omega
    · cases picked

theorem addToCounter_eq_some_iff {u : UniqueId} :
    (u.addToCounter delta).toOption = some v ↔
      u.counter.toNat + delta.toNat < 2 ^ 32 ∧
        new u.participantId u.timestamp (u.counter + delta) = v := by
  unfold addToCounter
  split <;> simp_all [Except.toOption]

theorem toNat_addToCounter {u : UniqueId} (added : (u.addToCounter delta).toOption = some v) :
    v.participantId = u.participantId ∧ v.timestamp = u.timestamp ∧
      v.counter.toNat = u.counter.toNat + delta.toNat ∧ v.id.toNat = u.id.toNat + delta.toNat := by
  obtain ⟨room, rfl⟩ := addToCounter_eq_some_iff.mp added
  have sum : (u.counter + delta).toNat = u.counter.toNat + delta.toNat := by
    rw [UInt32.toNat_add]
    exact Nat.mod_eq_of_lt room
  refine ⟨participantId_new _ _ _, timestamp_new _ _ _, by rw [counter_new, sum], ?_⟩
  rw [toNat_new, u.toNat_id, sum]
  omega

end UniqueId

namespace Assets.DistributedAssetStorage

open Runs

variable {T : Type} {s t : DistributedAssetStorage T} {now : UInt64} {count : UInt32}
  {start : UniqueId}

/-- A clock reading and how many ids are asked for. -/
abbrev Draw := UInt64 × UInt32

def reserve (s : DistributedAssetStorage T) (draw : Draw) :
    Option (DistributedAssetStorage T × UniqueId) :=
  s.generateAndReserveIdRange draw.1 draw.2

/-- The last id is one of this node. -/
def OwnLastId (s : DistributedAssetStorage T) : Prop :=
  ∀ u, s.lastId = some u → u.participantId = s.myParticipantId

theorem generateAndReserveIdRange_eq_some_iff :
    s.generateAndReserveIdRange now count = some (t, start) ↔
      0 < count ∧ s.pickStart now = some start ∧ ∃ last,
        (start.addToCounter (count - 1)).toOption = some last ∧
          { s with lastId := some last } = t := by
  unfold generateAndReserveIdRange
  by_cases positive : 0 < count <;>
    simp [positive, guard, Option.bind_eq_some_iff, failure]

theorem pickStart_some (picked : s.pickStart now = some start) (own : s.OwnLastId) :
    start.participantId = s.myParticipantId ∧
      ∀ u, s.lastId = some u → u.id.toNat < start.id.toNat := by
  unfold pickStart at picked
  split at picked
  · rename_i u there
    obtain ⟨owner, later⟩ := UniqueId.pickNewAfter_some picked
    refine ⟨owner.trans (own u there), ?_⟩
    rintro v same
    cases there.symm.trans same
    exact later
  · rename_i nothing
    cases picked
    exact ⟨UniqueId.participantId_new _ _ _, by simp [nothing]⟩

/-- The ids of a range follow one another, and all are this participant's. -/
def Consecutive (p : ParticipantId) (start : UniqueId) (count : UInt32) : Prop :=
  ∀ k < count, ∃ id, start.addToCounter k = .ok id ∧ id.participantId = p ∧
    id.id.toNat = start.id.toNat + k.toNat

theorem generateAndReserveIdRange_some (own : s.OwnLastId)
    (done : s.generateAndReserveIdRange now count = some (t, start)) :
    Consecutive s.myParticipantId start count ∧
      (∀ u, s.lastId = some u → u.id.toNat < start.id.toNat) ∧
      ∃ last, t = { s with lastId := some last } ∧ t.OwnLastId ∧
        last.id.toNat + 1 = start.id.toNat + count.toNat := by
  obtain ⟨positive, picked, last, added, rfl⟩ := generateAndReserveIdRange_eq_some_iff.mp done
  obtain ⟨owner, later⟩ := pickStart_some picked own
  obtain ⟨sameOwner, _, _, above⟩ := UniqueId.toNat_addToCounter added
  have one : (count - 1).toNat = count.toNat - 1 := UInt32.toNat_sub_of_le _ _ positive
  have more : 0 < count.toNat := positive
  refine ⟨fun k inside => ?_, later, last, rfl, ?_, by omega⟩
  · have room := (UniqueId.addToCounter_eq_some_iff.mp added).1
    have inside : k.toNat < count.toNat := inside
    have here : start.counter.toNat + k.toNat < 2 ^ 32 := by omega
    obtain ⟨ownerHere, _, _, number⟩ := UniqueId.toNat_addToCounter
      (UniqueId.addToCounter_eq_some_iff.mpr ⟨here, rfl⟩)
    exact ⟨_, if_pos here, ownerHere.trans owner, number⟩
  · rintro u same
    cases same
    exact sameOwner.trans owner

/-- The ranges that are drawn one after the other. -/
structure Increasing (s : DistributedAssetStorage T) (ranges : List (Draw × UniqueId)) : Prop where
  own : ∀ range ∈ ranges, Consecutive s.myParticipantId range.2 range.1.2
  above : ∀ u, s.lastId = some u → ∀ range ∈ ranges, u.id.toNat < range.2.id.toNat
  apart : ranges.Pairwise fun earlier later =>
    earlier.2.id.toNat + earlier.1.2.toNat ≤ later.2.id.toNat

theorem increasing_of_replay (own : s.OwnLastId)
    (done : replay reserve s draws = some (t, ranges)) : s.Increasing ranges := by
  induction draws generalizing s ranges with
  | nil =>
    cases done
    exact ⟨by simp, by simp, .nil⟩
  | cons draw draws ih =>
    simp only [replay, Fallible.bind_some_iff] at done
    obtain ⟨⟨next, start⟩, reserved, ⟨_, later⟩, rest, same⟩ := done
    cases same
    obtain ⟨owner, above, last, rfl, ownNext, length⟩ := generateAndReserveIdRange_some own reserved
    have increasing := ih ownNext rest
    have afterRange : ∀ range ∈ later, start.id.toNat + draw.2.toNat ≤ range.2.id.toNat := by
      intro range inside
      have := increasing.above last rfl range inside
      omega
    refine ⟨?_, ?_, List.pairwise_cons.mpr ⟨afterRange, increasing.apart⟩⟩
    · rw [List.forall_mem_cons]
      exact ⟨owner, increasing.own⟩
    · intro u there
      rw [List.forall_mem_cons]
      refine ⟨above u there, fun range inside => ?_⟩
      have := above u there
      have := afterRange range inside
      omega

/-- The second of the ids that are drawn: the clock is not followed back. -/
def second (last : Option UInt64) (now : UInt64) : UInt64 :=
  match last with
  | some timestamp => if timestamp < now then now else timestamp
  | none => now

/-- How many ids the draws take from a second. -/
def drawnIn (sec : UInt64) : Option UInt64 → List Draw → Nat
  | _, [] => 0
  | last, (now, count) :: draws =>
    (if second last now = sec then count.toNat else 0) + drawnIn sec (some (second last now)) draws

/-- How many ids of a second are used up at start-up. -/
def usedIn (s : DistributedAssetStorage T) (sec : UInt64) : Nat :=
  match s.lastId with
  | some u => if u.timestamp = sec then u.counter.toNat + 1 else 0
  | none => 0

def lastSecond (s : DistributedAssetStorage T) : Option UInt64 := s.lastId.map UniqueId.timestamp

/-- A draw succeeds if its second has enough ids left, and uses them up. -/
theorem generateAndReserveIdRange_total (positive : 0 < count)
    (room : s.usedIn (second s.lastSecond now) + count.toNat < 2 ^ 32) :
    ∃ t start, s.generateAndReserveIdRange now count = some (t, start) ∧
      t.lastSecond = some (second s.lastSecond now) ∧
      ∀ sec, t.usedIn sec ≤
        s.usedIn sec + if second s.lastSecond now = sec then count.toNat else 0 := by
  have one : (count - 1).toNat = count.toNat - 1 := UInt32.toNat_sub_of_le _ _ positive
  have more : 0 < count.toNat := positive
  have picks : ∃ start, s.pickStart now = some start ∧
      start.timestamp = second s.lastSecond now ∧
      start.counter.toNat = s.usedIn (second s.lastSecond now) := by
    unfold pickStart lastSecond usedIn second at *
    cases there : s.lastId with
    | none => exact ⟨_, rfl, UniqueId.timestamp_new _ _ _, by simp [UniqueId.generate]⟩
    | some u =>
      simp only [there, Option.map_some] at room ⊢
      by_cases later : u.timestamp < now
      · have other : u.timestamp ≠ now := fun same => by simp [same] at later
        exact ⟨_, if_pos later, by simp [later], by simp [later, other]⟩
      · simp only [if_neg later, if_true] at room
        have next : (u.counter + 1).toNat = u.counter.toNat + 1 := by
          rw [UInt32.toNat_add]
          exact Nat.mod_eq_of_lt (by simp; omega)
        refine ⟨_, (if_neg later).trans (if_pos (by omega)), by simp [later], ?_⟩
        simp [later, next]
  obtain ⟨start, picked, timestamp, counter⟩ := picks
  obtain ⟨last, added⟩ : ∃ last, (start.addToCounter (count - 1)).toOption = some last :=
    ⟨_, UniqueId.addToCounter_eq_some_iff.mpr ⟨by omega, rfl⟩⟩
  obtain ⟨_, sameTime, sum, _⟩ := UniqueId.toNat_addToCounter added
  refine ⟨_, start, generateAndReserveIdRange_eq_some_iff.mpr ⟨positive, picked, last, added, rfl⟩,
    ?_, ?_⟩
  · simp [lastSecond, sameTime, timestamp]
  · intro sec
    by_cases same : second s.lastSecond now = sec
    · subst same
      simp only [usedIn, sameTime, timestamp, if_true, sum, counter]
      simp only [usedIn] at *
      omega
    · simp [usedIn, sameTime, timestamp, same]

theorem replay_reserve_total (positive : ∀ draw ∈ draws, 0 < draw.2)
    (room : ∀ sec, s.usedIn sec + drawnIn sec s.lastSecond draws < 2 ^ 32) :
    ∃ t ranges, replay reserve s draws = some (t, ranges) := by
  induction draws generalizing s with
  | nil => exact ⟨s, [], rfl⟩
  | cons draw draws ih =>
    obtain ⟨now, count⟩ := draw
    have here := room (second s.lastSecond now)
    simp only [drawnIn, if_true] at here
    have enough : s.usedIn (second s.lastSecond now) + count.toNat < 2 ^ 32 := by omega
    obtain ⟨next, start, reserved, lastSecond, used⟩ :=
      generateAndReserveIdRange_total (positive _ List.mem_cons_self) enough
    have roomNext : ∀ sec, next.usedIn sec + drawnIn sec next.lastSecond draws < 2 ^ 32 := by
      intro sec
      have := room sec
      have := used sec
      rw [lastSecond]
      simp only [drawnIn] at *
      omega
    obtain ⟨t, ranges, done⟩ := ih (fun draw inside => positive draw (List.mem_cons_of_mem _ inside))
      roomNext
    refine ⟨t, ((now, count), start) :: ranges, ?_⟩
    simp [replay, reserve, reserved, done]

theorem loaded_le_lastId {db : Db T} {domainId : Option DomainId}
    (created : new clock db domainId p condition = .ok s) :
    s.OwnLastId ∧ ∀ id ∈ s.ownedQueue.heldIds,
      ∃ u, s.lastId = some u ∧ id.id.toNat ≤ u.id.toNat := by
  have owner := myParticipantId_new created
  obtain ⟨_, _, start, stop, range, keys, last⟩ := new_ok created
  refine ⟨fun u there => ?_, fun id held => ?_⟩
  · rw [there, Option.map_some, eq_comm, List.getLast?_eq_some_iff] at last
    obtain ⟨rest, listed⟩ := last
    obtain ⟨⟨_, value⟩, inside, rfl⟩ := List.mem_map.mp
      (listed ▸ List.mem_append_right rest List.mem_cons_self)
    rw [owner]
    exact (key_in_range_iff range).mp (Db.mem_iterRange.mp inside).2
  · have listed : makeKey domainId id ∈ (db.iterRange start stop).map Prod.fst :=
      keys ▸ List.mem_map_of_mem held
    have present := List.ne_nil_of_mem listed
    rw [List.getLast?_eq_some_getLast present, Option.map_eq_some_iff] at last
    obtain ⟨u, there, lastKey⟩ := last
    have sorted := (db.sorted_keys_iterRange start stop).rel_getLast listed
    rw [← lastKey, ← List.not_lt, makeKey_lt_iff, Nat.not_lt] at sorted
    exact ⟨u, there, sorted⟩

/-- As long as no second runs out of ids, drawn ranges come one after the other. Keys keep ids apart
    and in order, and start-up scans exactly the ids of the participant and the domain. -/
theorem ids_increase_and_keys_sort (T : Type) :
    (∀ (clock : Instant) (db : Db T) (domainId : Option DomainId) (p : ParticipantId)
      (condition : List ParticipantId → T → Bool) (s : DistributedAssetStorage T)
      (draws : List Draw),
      new clock db domainId p condition = .ok s → (∀ draw ∈ draws, 0 < draw.2) →
      (∀ sec, s.usedIn sec + drawnIn sec s.lastSecond draws < 2 ^ 32) →
      ∃ t ranges, replay reserve s draws = some (t, ranges) ∧ ranges.map Prod.fst = draws ∧
        (∀ range ∈ ranges, Consecutive p range.2 range.1.2 ∧
          ∀ id ∈ s.ownedQueue.heldIds, id.id.toNat < range.2.id.toNat) ∧
        ranges.Pairwise fun earlier later =>
          earlier.2.id.toNat + earlier.1.2.toNat ≤ later.2.id.toNat) ∧
    (∀ (domainId : Option DomainId) (a b : UniqueId),
      (makeKey domainId a = makeKey domainId b → a = b) ∧
      (makeKey domainId a < makeKey domainId b ↔ a.id.toNat < b.id.toNat) ∧
      decodeKey (makeKey domainId a) domainId = .ok a) ∧
    ∀ (db : Db T) (domainId : Option DomainId) (p : ParticipantId), p.raw.toNat < 2 ^ 32 - 1 →
      ∃ start stop, makePrefixRange p domainId = .ok (start, stop) ∧
        ∀ (e : Option DomainId) (id : UniqueId), e.isSome = domainId.isSome →
          (makeKey e id ∈ (db.iterRange start stop).map Prod.fst ↔
            (db.get (makeKey e id)).isSome ∧ e = domainId ∧ id.participantId = p) := by
  refine ⟨?_, ?_, ?_⟩
  · intro clock db domainId p condition s draws created positive room
    obtain ⟨t, ranges, done⟩ := replay_reserve_total positive room
    obtain ⟨own, loaded⟩ := loaded_le_lastId created
    have increasing := increasing_of_replay own done
    refine ⟨t, ranges, done, inputs_of_replay done, fun range inside => ⟨?_, ?_⟩, increasing.apart⟩
    · rw [← myParticipantId_new created]
      exact increasing.own range inside
    · intro id held
      obtain ⟨u, there, below⟩ := loaded id held
      exact below.trans_lt (increasing.above u there range inside)
  · intro domainId a b
    exact ⟨makeKey_injective, makeKey_lt_iff domainId a b, decodeKey_makeKey domainId a⟩
  · intro db domainId p small
    have range : makePrefixRange p domainId = .ok _ := if_pos (by omega)
    refine ⟨_, _, range, fun e id alike => ?_⟩
    rw [← stored_key_in_range_iff alike range, Option.isSome_iff_exists]
    simp only [List.mem_map, Prod.exists, exists_and_right, exists_eq_right, Db.mem_iterRange]

/-- The clock goes back after the first draw. -/
private def backwards : List Draw := [(5, 2), (3, 1), (6, 1)]

private def unstored : DistributedAssetStorage Unit where
  db := .empty
  domainId := none
  myParticipantId := ⟨1⟩
  ownedQueue := .new 0 (fun _ _ => true) []
  lastId := none

theorem ids_increase_backwards :
    ∃ t ranges, replay reserve unstored backwards = some (t, ranges) ∧
      ranges.map Prod.fst = backwards ∧ (∀ range ∈ ranges, Consecutive ⟨1⟩ range.2 range.1.2 ∧
        ∀ id ∈ unstored.ownedQueue.heldIds, id.id.toNat < range.2.id.toNat) ∧
      ranges.Pairwise fun earlier later =>
        earlier.2.id.toNat + earlier.1.2.toNat ≤ later.2.id.toNat := by
  refine (ids_increase_and_keys_sort Unit).1 0 .empty none ⟨1⟩ (fun _ _ => true) unstored backwards
    rfl (by simp [backwards]) fun sec => ?_
  have fifth : second none 5 = 5 ∧ second (some 5) 3 = 5 ∧ second (some 5) 6 = 6 := by decide
  simp only [usedIn, lastSecond, unstored, backwards, drawnIn, Option.map_none, fifth]
  split_ifs <;> decide

end Assets.DistributedAssetStorage

end MpcNetwork.Node
