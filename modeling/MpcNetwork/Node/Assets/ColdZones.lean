import MpcNetwork.Node.Assets.Persistence

/-! # The zones of the cold queue

The two barriers of the cold queue split it into entries known to satisfy the condition value in
force, entries of which nothing is known, and entries known not to satisfy it.  Every operation
keeps the zones, and with a fixed condition taking uses up the first two zones and discarding the
last two.
-/

namespace MpcNetwork.Node.Assets

open Runs List

namespace ColdQueue

variable {T C : Type}

def Satisfies (q : ColdQueue T C) (entry : UniqueId × T) : Prop :=
  q.condition q.lastConditionValue entry.2 = true

/-- The queue is made of three zones, with the barriers between them. -/
structure Zones (q : ColdQueue T C) (ready unknown rejected : List (UniqueId × T)) : Prop where
  entries : q.coldQueue = ready ++ unknown ++ rejected
  coldReady : q.coldReady = ready.length
  coldAvailable : q.coldAvailable = ready.length + unknown.length
  satisfied : ∀ entry ∈ ready, q.Satisfies entry
  refused : ∀ entry ∈ rejected, ¬ q.Satisfies entry

def Zoned (q : ColdQueue T C) : Prop := ∃ ready unknown rejected, q.Zones ready unknown rejected

structure Barriers (q : ColdQueue T C) : Prop where
  ready_le : q.coldReady ≤ q.coldAvailable
  available_le : q.coldAvailable ≤ q.coldQueue.length
  below : ∀ i entry, q.coldQueue[i]? = some entry → i < q.coldReady → q.Satisfies entry
  beyond : ∀ i entry, q.coldQueue[i]? = some entry → q.coldAvailable ≤ i → ¬ q.Satisfies entry

variable {q next : ColdQueue T C}

theorem Zones.barriers (zones : q.Zones ready unknown rejected) : q.Barriers where
  ready_le := by
    rw [zones.coldReady, zones.coldAvailable]
    exact Nat.le_add_right _ _
  available_le := by
    rw [zones.coldAvailable, zones.entries, length_append, length_append]
    exact Nat.le_add_right _ _
  below := by
    intro i entry found low
    rw [zones.coldReady] at low
    rw [zones.entries, append_assoc, getElem?_append_left low] at found
    exact zones.satisfied entry (mem_of_getElem? found)
  beyond := by
    intro i entry found high
    rw [zones.coldAvailable, ← length_append] at high
    rw [zones.entries, getElem?_append_right high] at found
    exact zones.refused entry (mem_of_getElem? found)

theorem zoned_new (now : Instant) (condition : C → T → Bool) (default : C) :
    (new now condition default).Zoned :=
  ⟨[], [], [], rfl, rfl, rfl, by simp, by simp⟩

variable [DecidableEq C]

theorem Zoned.updateConditionValue (zoned : q.Zoned) : (q.updateConditionValue r).Zoned := by
  obtain ⟨ready, unknown, rejected, zones⟩ := zoned
  simp only [ColdQueue.updateConditionValue]
  split
  · exact ⟨[], q.coldQueue, [], by simp, rfl, by simp, by simp, by simp⟩
  · exact ⟨ready, unknown, rejected, { zones with }⟩

theorem Zoned.updateConditionValueIfDue (zoned : q.Zoned) :
    (q.updateConditionValueIfDue r).Zoned := by
  unfold ColdQueue.updateConditionValueIfDue
  split
  · exact zoned
  · exact zoned.updateConditionValue

theorem updateConditionValueIfDue_same (same : r.value = q.lastConditionValue) :
    ∃ due, q.updateConditionValueIfDue r = { q with nextFetchDue := due } := by
  unfold ColdQueue.updateConditionValueIfDue
  split
  · exact ⟨q.nextFetchDue, rfl⟩
  · refine ⟨r.fetchedAt + conditionRefreshInterval, ?_⟩
    simp only [ColdQueue.updateConditionValue, if_neg (not_not.mpr same)]

/-- The condition and its value are the same in both queues. -/
def SameCondition (q next : ColdQueue T C) : Prop :=
  next.condition = q.condition ∧ next.lastConditionValue = q.lastConditionValue

omit [DecidableEq C] in
theorem SameCondition.satisfies_iff (same : q.SameCondition next) :
    next.Satisfies entry ↔ q.Satisfies entry := by
  rw [Satisfies, Satisfies, same.1, same.2]

/-- A call of `take` with the condition value fetched. -/
inductive Takes (q : ColdQueue T C) : ColdQueueTakeResult T → ColdQueue T C → Prop where
  | nothing : q.coldAvailable = 0 → Takes q .notTakenAndNoneAvailable q
  | front (result : ColdQueueTakeResult T) (next : ColdQueue T C) :
      result ≠ .notTakenAndNoneAvailable → (∀ entry ∈ result.given, q.Satisfies entry) →
      q.SameCondition next → next.coldAvailable + 1 = q.coldAvailable → Takes q result next

theorem take_takes (zoned : q.Zoned) (r : Reading C) :
    ∃ next result, q.take r = some (next, result) ∧ next.Zoned ∧
      Takes (q.updateConditionValueIfDue r) result next := by
  obtain ⟨ready, unknown, rejected, zones⟩ := zoned.updateConditionValueIfDue (r := r)
  simp only [take]
  generalize q.updateConditionValueIfDue r = fetched at zones ⊢
  have counted := zones.coldAvailable
  cases ready with
  | cons entry ready =>
    refine ⟨{ fetched with
        coldQueue := ready ++ unknown ++ rejected
        coldAvailable := fetched.coldAvailable - 1
        coldReady := fetched.coldReady - 1 }, .taken entry, ?_, ⟨ready, unknown, rejected, ?_⟩, ?_⟩
    · simp [zones.entries, zones.coldReady, counted]
    · refine ⟨rfl, by simp [zones.coldReady], ?_, ?_, zones.refused⟩
      · simp only [counted, length_cons]
        omega
      · exact fun other isReady => zones.satisfied other (.tail _ isReady)
    · refine .front _ _ (by simp) ?_ ⟨rfl, rfl⟩ ?_
      · simpa [ColdQueueTakeResult.given] using zones.satisfied entry (.head _)
      · simp only [counted, length_cons]
        omega
  | nil =>
    cases unknown with
    | nil =>
      have none : fetched.coldAvailable = 0 := counted
      exact ⟨fetched, _, if_pos none, ⟨[], [], rejected, zones⟩, .nothing none⟩
    | cons entry unknown =>
      by_cases holds : fetched.Satisfies entry
      · refine ⟨{ fetched with
            coldQueue := unknown ++ rejected
            coldAvailable := fetched.coldAvailable - 1 }, .taken entry, ?_,
          ⟨[], unknown, rejected, ?_⟩, ?_⟩
        · have accepted : fetched.condition fetched.lastConditionValue entry.2 := holds
          simp [zones.entries, zones.coldReady, counted, accepted]
        · exact ⟨rfl, zones.coldReady, by simp [counted], by simp, zones.refused⟩
        · refine .front _ _ (by simp) ?_ ⟨rfl, rfl⟩ (by simp [counted])
          simpa [ColdQueueTakeResult.given] using holds
      · refine ⟨{ fetched with
            coldQueue := unknown ++ rejected ++ [entry]
            coldAvailable := fetched.coldAvailable - 1 }, .notTakenButSomeMayBeAvailable, ?_,
          ⟨[], unknown, rejected ++ [entry], ?_⟩, ?_⟩
        · have refused : fetched.condition fetched.lastConditionValue entry.2 = false :=
            Bool.eq_false_iff.mpr holds
          simp [zones.entries, zones.coldReady, counted, refused]
        · refine ⟨by simp, zones.coldReady, by simp [counted], by simp, fun other isRejected => ?_⟩
          rw [mem_append, mem_singleton] at isRejected
          obtain before | rfl := isRejected
          · exact zones.refused other before
          · exact holds
        · exact .front _ _ (by simp) (by simp [ColdQueueTakeResult.given]) ⟨rfl, rfl⟩
            (by simp [counted])

/-- A call of `discard` with the condition value fetched. -/
inductive Discards (q : ColdQueue T C) : ColdQueueDiscardResult T → ColdQueue T C → Prop where
  | nothing : q.coldReady = q.coldQueue.length → Discards q .notDiscardedAndNoneAvailable q
  | back (result : ColdQueueDiscardResult T) (next : ColdQueue T C) :
      result ≠ .notDiscardedAndNoneAvailable → (∀ entry ∈ result.dropped, ¬ q.Satisfies entry) →
      q.SameCondition next →
      next.coldQueue.length + q.coldReady + 1 = q.coldQueue.length + next.coldReady →
      Discards q result next

theorem discard_discards (zoned : q.Zoned) (r : Reading C) :
    ∃ next result, q.discard r = some (next, result) ∧ next.Zoned ∧
      Discards (q.updateConditionValueIfDue r) result next := by
  obtain ⟨ready, unknown, rejected, zones⟩ := zoned.updateConditionValueIfDue (r := r)
  simp only [discard]
  generalize q.updateConditionValueIfDue r = fetched at zones ⊢
  have counted := zones.coldAvailable
  have isReady := zones.coldReady
  obtain rfl | ⟨rejected, entry, rfl⟩ := eq_nil_or_concat rejected
  · obtain rfl | ⟨unknown, entry, rfl⟩ := eq_nil_or_concat unknown
    · have none : fetched.coldReady = fetched.coldQueue.length := by simp [zones.entries, isReady]
      exact ⟨fetched, _, if_pos none, ⟨ready, [], [], zones⟩, .nothing none⟩
    · have entries : fetched.coldQueue = ready ++ unknown ++ [entry] := by simp [zones.entries]
      have more : ¬ fetched.coldReady = fetched.coldQueue.length := by simp [isReady, entries]
      have notSeen : fetched.coldAvailable > (ready ++ unknown).length := by simp [counted]
      rw [if_neg more, entries, getLast?_concat, dropLast_concat]
      simp only [if_pos notSeen]
      by_cases holds : fetched.Satisfies entry
      · refine ⟨{ fetched with
            coldQueue := entry :: (ready ++ unknown)
            coldReady := fetched.coldReady + 1
            coldAvailable := fetched.coldAvailable - 1 + 1 }, .notDiscardedButSomeMayBeAvailable, ?_,
          ⟨entry :: ready, unknown, [], ?_⟩, ?_⟩
        · have accepted : fetched.condition fetched.lastConditionValue entry.2 = true := holds
          simp [accepted]
        · refine ⟨by simp, by simp [isReady], ?_, fun other inFront => ?_, by simp⟩
          · simp only [counted, concat_eq_append, length_append, length_cons,
              length_nil]
            omega
          · obtain _ | ⟨_, before⟩ := inFront
            · exact holds
            · exact zones.satisfied other before
        · refine .back _ _ (by simp) (by simp [ColdQueueDiscardResult.dropped]) ⟨rfl, rfl⟩ ?_
          simp only [entries, length_append, length_cons, length_nil]
          omega
      · refine ⟨{ fetched with
            coldQueue := ready ++ unknown
            coldAvailable := fetched.coldAvailable - 1 }, .discarded entry, ?_,
          ⟨ready, unknown, [], ?_⟩, ?_⟩
        · have refused : fetched.condition fetched.lastConditionValue entry.2 = false :=
            Bool.eq_false_iff.mpr holds
          simp [refused]
        · exact ⟨by simp, isReady, by simp [counted, ← Nat.add_assoc], zones.satisfied, by simp⟩
        · refine .back _ _ (by simp) (by simpa [ColdQueueDiscardResult.dropped] using holds)
            ⟨rfl, rfl⟩ ?_
          simp only [entries, length_append, length_cons, length_nil]
          omega
  · have entries : fetched.coldQueue = ready ++ unknown ++ rejected ++ [entry] := by
      simp [zones.entries]
    have more : ¬ fetched.coldReady = fetched.coldQueue.length := by simp [isReady, entries]
    have seen : ¬ fetched.coldAvailable > (ready ++ unknown ++ rejected).length := by
      simp [counted]
    rw [if_neg more, entries, getLast?_concat, dropLast_concat]
    refine ⟨{ fetched with coldQueue := ready ++ unknown ++ rejected }, .discarded entry, ?_,
      ⟨ready, unknown, rejected, ?_⟩, ?_⟩
    · simp only [if_neg seen]
      rfl
    · refine ⟨rfl, isReady, counted, zones.satisfied, fun other before => ?_⟩
      exact zones.refused other (by simp [before])
    · refine .back _ _ (by simp) ?_ ⟨rfl, rfl⟩ ?_
      · simpa [ColdQueueDiscardResult.dropped] using zones.refused entry (by simp)
      · simp only [entries, length_append, length_cons, length_nil]
        omega

theorem Zoned.addIfConditionSatisfied (zoned : q.Zoned) (id : UniqueId) (value : T) :
    (q.addIfConditionSatisfied id value r).1.Zoned := by
  obtain ⟨ready, unknown, rejected, zones⟩ := zoned.updateConditionValueIfDue (r := r)
  simp only [ColdQueue.addIfConditionSatisfied]
  generalize q.updateConditionValueIfDue r = fetched at zones ⊢
  split
  · rename_i holds
    refine ⟨(id, value) :: ready, unknown, rejected, ?_, ?_, ?_, fun entry inFront => ?_,
      zones.refused⟩
    · simp [zones.entries]
    · simp [zones.coldReady]
    · simp only [zones.coldAvailable, length_cons]
      omega
    · obtain _ | ⟨_, before⟩ := inFront
      · exact holds
      · exact zones.satisfied entry before
  · exact ⟨ready, unknown, rejected, zones⟩

theorem Zoned.addIfConditionNotSatisfied (zoned : q.Zoned) (id : UniqueId) (value : T) :
    (q.addIfConditionNotSatisfied id value r).1.Zoned := by
  obtain ⟨ready, unknown, rejected, zones⟩ := zoned.updateConditionValueIfDue (r := r)
  simp only [ColdQueue.addIfConditionNotSatisfied]
  generalize q.updateConditionValueIfDue r = fetched at zones ⊢
  split
  · exact ⟨ready, unknown, rejected, zones⟩
  · rename_i refused
    refine ⟨ready, unknown, rejected ++ [(id, value)], ?_, zones.coldReady, zones.coldAvailable,
      zones.satisfied, fun entry inBack => ?_⟩
    · simp [zones.entries]
    · rw [mem_append, mem_singleton] at inBack
      obtain before | rfl := inBack
      · exact zones.refused entry before
      · exact refused

end ColdQueue

inductive ColdQueueCall (T C : Type) where
  | updateConditionValue (reading : Reading C)
  | take (reading : Reading C)
  | discard (reading : Reading C)
  | addIfConditionSatisfied (id : UniqueId) (value : T) (reading : Reading C)
  | addIfConditionNotSatisfied (id : UniqueId) (value : T) (reading : Reading C)

inductive ColdQueueNote (T : Type) where
  | updated
  | take (result : ColdQueueTakeResult T)
  | discard (result : ColdQueueDiscardResult T)
  | addIfSatisfied (result : ColdQueueAddIfSatisfiedResult T)
  | addIfNotSatisfied (result : ColdQueueAddIfNotSatisfiedResult T)

def ColdQueueNote.removed {T : Type} : ColdQueueNote T → List (UniqueId × T)
  | .take result => result.given
  | .discard result => result.dropped
  | _ => []

def ColdQueueCall.added {T C : Type} : ColdQueueCall T C → ColdQueueNote T → List (UniqueId × T)
  | .addIfConditionSatisfied id value _, .addIfSatisfied .enqueued => [(id, value)]
  | .addIfConditionNotSatisfied id value _, .addIfNotSatisfied .enqueued => [(id, value)]
  | _, _ => []

namespace ColdQueue

variable {T C : Type} [DecidableEq C] {q next : ColdQueue T C}

/-- `none` is a panic. -/
def act (q : ColdQueue T C) : ColdQueueCall T C → Option (ColdQueue T C × ColdQueueNote T)
  | .updateConditionValue reading => some (q.updateConditionValue reading, .updated)
  | .take reading => (q.take reading).map fun r => (r.1, .take r.2)
  | .discard reading => (q.discard reading).map fun r => (r.1, .discard r.2)
  | .addIfConditionSatisfied id value reading =>
    let r := q.addIfConditionSatisfied id value reading
    some (r.1, .addIfSatisfied r.2)
  | .addIfConditionNotSatisfied id value reading =>
    let r := q.addIfConditionNotSatisfied id value reading
    some (r.1, .addIfNotSatisfied r.2)

structure Correct (q : ColdQueue T C) (call : ColdQueueCall T C) (note : ColdQueueNote T)
    (next : ColdQueue T C) : Prop where
  sameFunction : next.condition = q.condition
  conserved : (call.added note ++ q.coldQueue).Perm (note.removed ++ next.coldQueue)
  taken : ∀ entry, note = .take (.taken entry) → next.Satisfies entry
  discarded : ∀ entry, note = .discard (.discarded entry) → ¬ next.Satisfies entry
  noneToTake : note = .take .notTakenAndNoneAvailable →
    ∀ entry ∈ next.coldQueue, ¬ next.Satisfies entry
  noneToDiscard : note = .discard .notDiscardedAndNoneAvailable →
    ∀ entry ∈ next.coldQueue, next.Satisfies entry

theorem Correct.take (zoned : next.Zoned)
    (ran : q.take r = some (next, result))
    (takes : Takes (q.updateConditionValueIfDue r) result next) :
    Correct q (.take r) (.take result) next where
  sameFunction := by
    cases takes with
    | nothing => exact condition_updateConditionValueIfDue
    | front _ _ _ _ same => exact same.1.trans condition_updateConditionValueIfDue
  conserved := take_conserves ran
  taken := by
    rintro entry ⟨⟩
    cases takes with
    | front _ _ _ given same _ => exact same.satisfies_iff.mpr (given entry (.head _))
  discarded := by simp
  noneToTake := by
    rintro ⟨⟩ entry inside
    obtain ⟨i, found⟩ := mem_iff_getElem?.mp inside
    obtain ⟨_, _, _, zones⟩ := zoned
    cases takes with
    | nothing none => exact zones.barriers.beyond i entry found (none ▸ Nat.zero_le i)
    | front _ _ more => exact absurd rfl more
  noneToDiscard := by simp

theorem Correct.discard (zoned : next.Zoned)
    (ran : q.discard r = some (next, result))
    (discards : Discards (q.updateConditionValueIfDue r) result next) :
    Correct q (.discard r) (.discard result) next where
  sameFunction := by
    cases discards with
    | nothing => exact condition_updateConditionValueIfDue
    | back _ _ _ _ same => exact same.1.trans condition_updateConditionValueIfDue
  conserved := discard_conserves ran
  taken := by simp
  discarded := by
    rintro entry ⟨⟩
    cases discards with
    | back _ _ _ dropped same _ => exact mt same.satisfies_iff.mp (dropped entry (.head _))
  noneToTake := by simp
  noneToDiscard := by
    rintro ⟨⟩ entry inside
    obtain ⟨i, found⟩ := mem_iff_getElem?.mp inside
    obtain ⟨_, _, _, zones⟩ := zoned
    cases discards with
    | nothing all =>
      refine zones.barriers.below i entry found ?_
      rw [all]
      exact (List.getElem?_eq_some_iff.mp found).1
    | back _ _ more => exact absurd rfl more

theorem Zoned.step (zoned : q.Zoned) (call : ColdQueueCall T C) :
    ∃ next note, q.act call = some (next, note) ∧ next.Zoned ∧ Correct q call note next := by
  cases call with
  | updateConditionValue r =>
    refine ⟨_, _, rfl, zoned.updateConditionValue, condition_updateConditionValue, ?_, ?_, ?_,
      ?_, ?_⟩
    · simp [ColdQueueCall.added, ColdQueueNote.removed]
    all_goals simp
  | take r =>
    obtain ⟨next, result, ran, zoned', takes⟩ := take_takes zoned r
    exact ⟨next, .take result, by simp [act, ran], zoned', .take zoned' ran takes⟩
  | discard r =>
    obtain ⟨next, result, ran, zoned', discards⟩ := discard_discards zoned r
    exact ⟨next, .discard result, by simp [act, ran], zoned', .discard zoned' ran discards⟩
  | addIfConditionSatisfied id value r =>
    refine ⟨_, _, rfl, zoned.addIfConditionSatisfied id value, ?_, ?_, ?_, ?_, ?_, ?_⟩
    · simp only [ColdQueue.addIfConditionSatisfied]
      split <;> exact condition_updateConditionValueIfDue
    · simp only [ColdQueue.addIfConditionSatisfied]
      split <;> simp [ColdQueueCall.added, ColdQueueNote.removed]
    all_goals simp
  | addIfConditionNotSatisfied id value r =>
    refine ⟨_, _, rfl, zoned.addIfConditionNotSatisfied id value, ?_, ?_, ?_, ?_, ?_, ?_⟩
    · simp only [ColdQueue.addIfConditionNotSatisfied]
      split <;> exact condition_updateConditionValueIfDue
    · simp only [ColdQueue.addIfConditionNotSatisfied]
      split
      · simp [ColdQueueCall.added, ColdQueueNote.removed]
      · simp only [ColdQueueCall.added, ColdQueueNote.removed, nil_append,
          coldQueue_updateConditionValueIfDue]
        exact perm_append_comm
    all_goals simp

/-- The queue is in its zones and the value in force is the given one. -/
def Fixed (value : C) (q : ColdQueue T C) : Prop := q.Zoned ∧ q.lastConditionValue = value

theorem Fixed.take (fixed : q.Fixed value) (same : r.value = value) :
    ∃ next result, q.take r = some (next, result) ∧ next.Fixed value ∧
      next.coldAvailable = q.coldAvailable - 1 ∧
      (q.coldAvailable = 0 → result = .notTakenAndNoneAvailable) := by
  obtain ⟨zoned, rfl⟩ := fixed
  obtain ⟨next, result, ran, zoned', takes⟩ := take_takes zoned r
  obtain ⟨due, fetched⟩ := updateConditionValueIfDue_same same
  rw [fetched] at takes
  refine ⟨next, result, ran, ?_⟩
  cases takes with
  | nothing none =>
    have empty : q.coldAvailable = 0 := none
    exact ⟨⟨zoned', rfl⟩, by simp [empty], fun _ => rfl⟩
  | front _ _ _ _ unchanged counted =>
    have positive : next.coldAvailable + 1 = q.coldAvailable := counted
    exact ⟨⟨zoned', unchanged.2⟩, by omega, by omega⟩

theorem Fixed.discard (fixed : q.Fixed value)
    (same : r.value = value) :
    ∃ next result, q.discard r = some (next, result) ∧ next.Fixed value ∧
      next.coldQueue.length - next.coldReady = q.coldQueue.length - q.coldReady - 1 ∧
      (q.coldQueue.length - q.coldReady = 0 → result = .notDiscardedAndNoneAvailable) := by
  obtain ⟨zoned, rfl⟩ := fixed
  obtain ⟨next, result, ran, zoned', discards⟩ := discard_discards zoned r
  obtain ⟨due, fetched⟩ := updateConditionValueIfDue_same same
  rw [fetched] at discards
  refine ⟨next, result, ran, ?_⟩
  cases discards with
  | nothing all =>
    have full : q.coldReady = q.coldQueue.length := all
    exact ⟨⟨zoned', rfl⟩, by simp [full], fun _ => rfl⟩
  | back _ _ _ _ unchanged counted =>
    have fewer : next.coldQueue.length + q.coldReady + 1 =
      q.coldQueue.length + next.coldReady := counted
    obtain ⟨_, _, _, zones⟩ := zoned'
    have low := zones.barriers.ready_le.trans zones.barriers.available_le
    exact ⟨⟨⟨_, _, _, zones⟩, unchanged.2⟩, by omega, by omega⟩

theorem Fixed.takes {readings : List (Reading C)} (fixed : q.Fixed value)
    (same : ∀ r ∈ readings, r.value = value) (enough : q.coldQueue.length ≤ readings.length) :
    ∃ t es, replay act q (readings.map .take) = some (t, es) ∧ t.Fixed value ∧
      t.coldAvailable = 0 := by
  have keep : ∀ q : ColdQueue T C, q.Fixed value → ∀ call ∈ readings.map ColdQueueCall.take,
      ∃ next note, q.act call = some (next, note) ∧ next.Fixed value ∧
        next.coldAvailable = q.coldAvailable - 1 := by
    intro q fixed call isCall
    obtain ⟨r, isReading, rfl⟩ := mem_map.mp isCall
    obtain ⟨next, result, ran, fixed', counted, _⟩ := fixed.take (same r isReading)
    exact ⟨next, .take result, by simp [act, ran], fixed', counted⟩
  obtain ⟨t, es, ran, fixed', counted⟩ := replay_countdown (Fixed value) coldAvailable fixed keep
  obtain ⟨⟨_, _, _, zones⟩, _⟩ := fixed
  have few := zones.barriers.available_le
  rw [length_map] at counted
  exact ⟨t, es, ran, fixed', by omega⟩

theorem Fixed.discards {readings : List (Reading C)} (fixed : q.Fixed value)
    (same : ∀ r ∈ readings, r.value = value) (enough : q.coldQueue.length ≤ readings.length) :
    ∃ t es, replay act q (readings.map .discard) = some (t, es) ∧ t.Fixed value ∧
      t.coldQueue.length - t.coldReady = 0 := by
  have keep : ∀ q : ColdQueue T C, q.Fixed value → ∀ call ∈ readings.map ColdQueueCall.discard,
      ∃ next note, q.act call = some (next, note) ∧ next.Fixed value ∧
        next.coldQueue.length - next.coldReady = q.coldQueue.length - q.coldReady - 1 := by
    intro q fixed call isCall
    obtain ⟨r, isReading, rfl⟩ := mem_map.mp isCall
    obtain ⟨next, result, ran, fixed', counted, _⟩ := fixed.discard (same r isReading)
    exact ⟨next, .discard result, by simp [act, ran], fixed', counted⟩
  obtain ⟨t, es, ran, fixed', counted⟩ :=
    replay_countdown (Fixed value) (fun q => q.coldQueue.length - q.coldReady) fixed keep
  rw [length_map] at counted
  exact ⟨t, es, ran, fixed', by omega⟩

/-- The barriers tell the truth, every further call moves entries as it should, and with a fixed
    condition as many calls as there are entries leave none for the next. -/
theorem cold_queue_correct (now : Instant) (condition : C → T → Bool) (default : C)
    (calls : List (ColdQueueCall T C)) :
    ∃ q es, replay act (new now condition default) calls = some (q, es) ∧
      q.condition = condition ∧ q.Barriers ∧
      (∀ call, ∃ next note, q.act call = some (next, note) ∧ Correct q call note next) ∧
      ∀ readings reading, q.coldQueue.length ≤ readings.length →
        (∀ r ∈ reading :: readings, r.value = q.lastConditionValue) →
        (∃ t fs next, replay act q (readings.map .take) = some (t, fs) ∧
          t.act (.take reading) = some (next, .take .notTakenAndNoneAvailable) ∧
          ∀ entry ∈ next.coldQueue, ¬ next.Satisfies entry) ∧
        ∃ t fs next, replay act q (readings.map .discard) = some (t, fs) ∧
          t.act (.discard reading) = some (next, .discard .notDiscardedAndNoneAvailable) ∧
          ∀ entry ∈ next.coldQueue, next.Satisfies entry := by
  have keep : ∀ (es : List (ColdQueueCall T C × ColdQueueNote T)) (q : ColdQueue T C) call,
      q.Zoned ∧ q.condition = condition → ∃ next note, q.act call = some (next, note) ∧
        next.Zoned ∧ next.condition = condition := by
    rintro _ q call ⟨zoned, isCondition⟩
    obtain ⟨next, note, acted, zoned', correct⟩ := zoned.step call
    exact ⟨next, note, acted, zoned', correct.sameFunction.trans isCondition⟩
  obtain ⟨q, es, ran, zoned, isCondition⟩ := @replay_total _ _ _ _ _ keep _ []
    ⟨zoned_new now condition default, rfl⟩ calls
  refine ⟨q, es, ran, isCondition, ?_, fun call => ?_, fun readings reading enough same => ?_⟩
  · obtain ⟨_, _, _, zones⟩ := zoned
    exact zones.barriers
  · obtain ⟨next, note, acted, _, correct⟩ := zoned.step call
    exact ⟨next, note, acted, correct⟩
  · have fixed : q.Fixed q.lastConditionValue := ⟨zoned, rfl⟩
    have last := same reading mem_cons_self
    have rest := fun r isReading => same r (mem_cons_of_mem _ isReading)
    constructor
    · obtain ⟨t, fs, took, fixed', none⟩ := fixed.takes rest enough
      obtain ⟨next, result, ran, _, _, nothing⟩ := fixed'.take last
      cases nothing none
      obtain ⟨_, _, acted, _, correct⟩ := fixed'.1.step (.take reading)
      simp only [act, ran, Option.map_some, Option.some.injEq, Prod.mk.injEq] at acted
      obtain ⟨rfl, rfl⟩ := acted
      exact ⟨t, fs, next, took, by simp [act, ran], correct.noneToTake rfl⟩
    · obtain ⟨t, fs, dropped, fixed', all⟩ := fixed.discards rest enough
      obtain ⟨next, result, ran, _, _, nothing⟩ := fixed'.discard last
      cases nothing all
      obtain ⟨_, _, acted, _, correct⟩ := fixed'.1.step (.discard reading)
      simp only [act, ran, Option.map_some, Option.some.injEq, Prod.mk.injEq] at acted
      obtain ⟨rfl, rfl⟩ := acted
      exact ⟨t, fs, next, dropped, by simp [act, ran], correct.noneToDiscard rfl⟩

end ColdQueue

end MpcNetwork.Node.Assets
