import MpcNetwork.Lib.Ballots
import MpcNetwork.Threshold.EchoBroadcast.Protocol

/-! # What one vote does to its session

`EffectSpec` says once what handling a vote can do.  The counters of a session are
then the counts of a ballot box: one vote for each participant that was counted.
-/

namespace MpcNetwork.Threshold.EchoBroadcast

open Ballots

variable {T : Type} [DecidableEq T]

namespace CounterList

theorem get_insertOrIncreaseCounter (c : CounterList T) (item other : T) :
    (c.insertOrIncreaseCounter item).get other =
      if other = item then some ((c.get item).getD 0 + 1) else c.get other := by
  obtain ⟨list⟩ := c
  simp only [insertOrIncreaseCounter, get]
  induction list with
  | nil =>
    by_cases same : other = item
    · simp [bump, same]
    · simp [bump, same, Ne.symm same]
  | cons entry rest ih =>
    obtain ⟨e, count⟩ := entry
    simp only [bump]
    by_cases found : e = item
    · subst found
      by_cases same : other = e
      · simp [same]
      · simp [same, Ne.symm same]
    · simp only [if_neg found, List.find?_cons]
      by_cases here : e = other
      · subst here
        simp [found]
      · simpa [here, found] using ih

theorem getSumCounters_insertOrIncreaseCounter (c : CounterList T) (item : T) :
    (c.insertOrIncreaseCounter item).getSumCounters = c.getSumCounters + 1 := by
  obtain ⟨list⟩ := c
  simp only [insertOrIncreaseCounter, getSumCounters]
  induction list with
  | nil => rfl
  | cons entry rest ih =>
    obtain ⟨e, count⟩ := entry
    simp only [bump]
    split
    · simp only [List.map_cons, List.sum_cons]
      omega
    · simp only [List.map_cons, List.sum_cons, ih]
      omega

theorem mem_of_get {c : CounterList T} (found : c.get item = some count) :
    (item, count) ∈ c.list := by
  obtain ⟨entry, first, rfl⟩ := Option.map_eq_some_iff.mp found
  have same : entry.1 = item := by simpa using List.find?_some first
  exact same ▸ List.mem_of_find?_eq_some first

end CounterList

structure Counts (c : CounterList T) (b : Box Participant T) : Prop where
  each : ∀ v, (c.get v).getD 0 = b.count v
  total : c.getSumCounters = b.votes.length

theorem Counts.get_eq {b : Box Participant T} (counts : Counts c b)
    (found : c.get v = some count) : b.count v = count := by
  rw [← counts.each v, found]
  rfl

theorem Counts.cast (counts : Counts c b) (fresh : p ∉ b.votes.map Prod.fst) (v : T) :
    Counts (c.insertOrIncreaseCounter v) (b.cast p v fresh) where
  each := by
    intro other
    have before := counts.each other
    simp only [Box.count, Box.cast, List.map_cons, List.count_cons] at before ⊢
    rw [CounterList.get_insertOrIncreaseCounter]
    by_cases same : other = v
    · subst same
      simp [before]
    · simp [same, Ne.symm same, before]
  total := by
    rw [CounterList.getSumCounters_insertOrIncreaseCounter, counts.total]
    rfl

/-- One vote for each of a number of participants seen, and every vote was really cast. -/
def Tallied (said : Participant → T → Prop) (seen : ParticipantCounter) (c : CounterList T) : Prop :=
  ∃ b : Box Participant T, Counts c b ∧
    ∀ vote ∈ b.votes, vote.1 ∈ seen.seen ∧ said vote.1 vote.2

theorem tallied_new (said : Participant → T → Prop) : Tallied said .new .new :=
  ⟨.empty, ⟨fun _ => rfl, rfl⟩, by simp [Box.empty]⟩

/-- How one vote changes a counter and its marks. -/
inductive Counted (sender : Participant) (v : Option T) (seen seen' : ParticipantCounter)
    (c c' : CounterList T) : Prop where
  | unchanged : (∀ p ∈ seen.seen, p ∈ seen'.seen) → c' = c → Counted sender v seen seen' c c'
  | counted : v = some value → sender ∉ seen.seen → seen'.seen = sender :: seen.seen →
      c' = c.insertOrIncreaseCounter value → Counted sender v seen seen' c c'

theorem Tallied.mono {said said' : Participant → T → Prop} (more : ∀ p v, said p v → said' p v)
    (tallied : Tallied said seen c) : Tallied said' seen c := by
  obtain ⟨b, counts, cast⟩ := tallied
  exact ⟨b, counts, fun vote inside => ⟨(cast vote inside).1, more _ _ (cast vote inside).2⟩⟩

theorem Tallied.step {said : Participant → T → Prop} (tallied : Tallied said seen c)
    (counted : Counted sender v seen seen' c c') (cast : ∀ value, v = some value → said sender value) :
    Tallied said seen' c' := by
  obtain ⟨b, counts, before⟩ := tallied
  cases counted with
  | unchanged kept same =>
    subst same
    exact ⟨b, counts, fun vote inside => ⟨kept _ (before vote inside).1, (before vote inside).2⟩⟩
  | counted value unseen marked same =>
    subst same
    have fresh : sender ∉ b.votes.map Prod.fst := by
      intro voted
      obtain ⟨vote, inside, rfl⟩ := List.mem_map.mp voted
      exact unseen (before vote inside).1
    refine ⟨b.cast sender _ fresh, counts.cast fresh _, ?_⟩
    intro vote inside
    rw [marked]
    rcases List.mem_cons.mp inside with rfl | earlier
    · exact ⟨List.mem_cons_self, cast _ value⟩
    · exact ⟨List.mem_cons_of_mem _ (before vote earlier).1, (before vote earlier).2⟩

def MessageType.echoed : MessageType T → Option T
  | echo data => some data
  | _ => none

def MessageType.readied : MessageType T → Option T
  | ready data => some data
  | _ => none

/-- Everything that handling a vote can do to its session. -/
structure EffectSpec (participants : ParticipantList) (s : BroadcastProtocolState T)
    (sender : Participant) (sid : Nat) (vote : MessageType T) (e : Effect T) : Prop where
  echo : Counted sender vote.echoed s.seenEcho e.session.seenEcho s.dataEcho e.session.dataEcho
  ready : Counted sender vote.readied s.seenReady e.session.seenReady s.dataReady
    e.session.dataReady
  finishSend : s.finishSend = true → e.session.finishSend = true
  noSend : ∀ v, e.announce ≠ some (.send v)
  echoes : ∀ v, e.announce = some (.echo v) → vote = .send v ∧ s.finishSend = false ∧
    e.session.finishSend = true ∧ participants.index sender = some sid
  readies : ∀ v, e.announce = some (.ready v) →
    (∃ count, e.session.dataEcho.get v = some count ∧
      (echoReadyThresholds participants.len).1 < count) ∨
    ∃ count, e.session.dataReady.get v = some count ∧
      (echoReadyThresholds participants.len).2 < count
  outputs : ∀ v, e.outcome = .output v → ∃ count, e.session.dataReady.get v = some count ∧
    2 * (echoReadyThresholds participants.len).2 < count
  finishReady : e.session.finishReady = true → s.finishReady = true ∨ ∃ v, e.outcome = .output v
  blames : ∀ j, e.outcome = .fail (.maliciousSender j) → j = sid ∧
    isEnough participants.len (echoReadyThresholds participants.len).1 e.session.dataEcho = false ∧
    ∃ v count, e.session.dataEcho.get v = some count
  noDiffer : ∀ j, e.outcome ≠ .fail (.outputDiffers j)

theorem put_cases (c : ParticipantCounter) (participants : ParticipantList) (p : Participant) :
    c.put participants p = (c, false) ∨
      (p ∉ c.seen ∧ c.put participants p = (⟨p :: c.seen⟩, true)) := by
  unfold ParticipantCounter.put
  split
  · rename_i both
    simp only [Bool.and_eq_true, Bool.not_eq_true', ← Bool.not_eq_true, List.contains_iff_mem] at both
    have unseen := both.2
    exact .inr ⟨unseen, rfl⟩
  · exact .inl rfl

theorem quiet_spec {vote : MessageType T}
    (echo : Counted sender vote.echoed s.seenEcho session.seenEcho s.dataEcho session.dataEcho)
    (ready : Counted sender vote.readied s.seenReady session.seenReady s.dataReady
      session.dataReady) (sends : session.finishSend = s.finishSend)
    (readies : session.finishReady = s.finishReady)
    (quiet : outcome = .proceed ∨ outcome = .fail .invalidIndex ∨ outcome = .fail .missingElement) :
    EffectSpec participants s sender sid vote ⟨session, none, outcome⟩ where
  echo := echo
  ready := ready
  finishSend := sends.trans
  noSend := by simp
  echoes := by simp
  readies := by simp
  outputs := by rcases quiet with rfl | rfl | rfl <;> simp
  finishReady := fun done => .inl (readies.symm.trans done)
  blames := by rcases quiet with rfl | rfl | rfl <;> simp
  noDiffer := by rcases quiet with rfl | rfl | rfl <;> simp

section

variable (participants : ParticipantList) (s : BroadcastProtocolState T) (sender : Participant)
  (sid : Nat)

theorem skip_spec (vote : MessageType T) :
    EffectSpec participants s sender sid vote (skip s) :=
  quiet_spec (.unchanged (fun _ => id) rfl) (.unchanged (fun _ => id) rfl) rfl rfl (.inl rfl)

theorem onSend_spec (data : T) :
    EffectSpec participants s sender sid (.send data) (onSend participants s sender sid data) := by
  unfold onSend
  split
  · exact skip_spec ..
  · rename_i first
    split
    · exact quiet_spec (.unchanged (fun _ => id) rfl) (.unchanged (fun _ => id) rfl) rfl rfl
        (.inr (.inl rfl))
    · rename_i index found
      split
      · exact skip_spec ..
      · rename_i same
        have owner : participants.index sender = some sid := by rw [found, not_not.mp same]
        exact {
          echo := .unchanged (fun _ => id) rfl
          ready := .unchanged (fun _ => id) rfl
          finishSend := fun _ => rfl
          noSend := by simp
          echoes := by simp [owner, first]
          readies := by simp
          outputs := by simp
          finishReady := .inl
          blames := by simp
          noDiffer := by simp }

theorem onEcho_spec (data : T) :
    EffectSpec participants s sender sid (.echo data) (onEcho participants s sender sid data) := by
  unfold onEcho
  have kept : Counted sender (MessageType.echo data).readied s.seenReady s.seenReady s.dataReady
    s.dataReady := .unchanged (fun _ => id) rfl
  rcases put_cases s.seenEcho participants sender with refused | ⟨unseen, inserted⟩
  · simp only [refused, Bool.not_false, Bool.true_or, if_true]
    exact skip_spec ..
  · simp only [inserted, Bool.not_true, Bool.false_or]
    split
    · exact quiet_spec (.unchanged (fun _ => List.mem_cons_of_mem _) rfl) kept rfl rfl (.inl rfl)
    · have counted : Counted sender (MessageType.echo data).echoed s.seenEcho
          ⟨sender :: s.seenEcho.seen⟩ s.dataEcho (s.dataEcho.insertOrIncreaseCounter data) :=
        .counted rfl unseen rfl rfl
      split
      · exact quiet_spec counted kept rfl rfl (.inr (.inr rfl))
      · rename_i count found
        split
        · rename_i enough
          exact {
            echo := counted
            ready := kept
            finishSend := id
            noSend := by simp
            echoes := by simp
            readies := by
              intro v announced
              obtain rfl : data = v := by simpa using announced
              exact .inl ⟨count, found, enough⟩
            outputs := by simp
            finishReady := .inl
            blames := by simp
            noDiffer := by simp }
        · split
          · rename_i hopeless
            simp only [Bool.and_eq_true, Bool.not_eq_true'] at hopeless
            exact {
              echo := counted
              ready := kept
              finishSend := id
              noSend := by simp
              echoes := by simp
              readies := by simp
              outputs := by simp
              finishReady := .inl
              blames := by
                intro j blamed
                obtain rfl : sid = j := by simpa using blamed
                exact ⟨rfl, hopeless.2, data, count, found⟩
              noDiffer := by simp }
          · exact quiet_spec counted kept rfl rfl (.inl rfl)

theorem onReady_spec (data : T) :
    EffectSpec participants s sender sid (.ready data) (onReady participants s sender data) := by
  unfold onReady
  have kept : Counted sender (MessageType.ready data).echoed s.seenEcho s.seenEcho s.dataEcho
    s.dataEcho := .unchanged (fun _ => id) rfl
  rcases put_cases s.seenReady participants sender with refused | ⟨unseen, inserted⟩
  · simp only [refused, Bool.not_false, Bool.true_or, if_true]
    exact skip_spec ..
  · simp only [inserted, Bool.not_true, Bool.false_or]
    split
    · exact quiet_spec kept (.unchanged (fun _ => List.mem_cons_of_mem _) rfl) rfl rfl (.inl rfl)
    · have counted : Counted sender (MessageType.ready data).readied s.seenReady
          ⟨sender :: s.seenReady.seen⟩ s.dataReady (s.dataReady.insertOrIncreaseCounter data) :=
        .counted rfl unseen rfl rfl
      split
      · exact quiet_spec kept counted rfl rfl (.inr (.inr rfl))
      · rename_i count found
        generalize amplifies : (decide (count > (echoReadyThresholds participants.len).2) &&
          !s.finishAmplification) = amplify
        have above : amplify = true → (echoReadyThresholds participants.len).2 < count := by
          intro yes
          simp only [yes, Bool.and_eq_true, decide_eq_true_eq] at amplifies
          exact amplifies.1
        have readies : ∀ v, (if amplify = true then some (MessageType.ready data) else none) =
            some (.ready v) → ∃ c, (s.dataReady.insertOrIncreaseCounter data).get v = some c ∧
              (echoReadyThresholds participants.len).2 < c := by
          intro v announced
          cases amplify with
          | false => simp at announced
          | true =>
            obtain rfl : data = v := by simpa using announced
            exact ⟨count, found, above rfl⟩
        split
        · rename_i output
          cases amplify <;> exact {
            echo := kept
            ready := counted
            finishSend := fun _ => rfl
            noSend := by simp
            echoes := by simp
            readies := fun v announced => .inr (readies v announced)
            outputs := by
              intro v same
              obtain rfl : data = v := by simpa using same
              exact ⟨count, found, output⟩
            finishReady := fun _ => .inr ⟨data, rfl⟩
            blames := by simp
            noDiffer := by simp }
        · cases amplify <;> exact {
            echo := kept
            ready := counted
            finishSend := id
            noSend := by simp
            echoes := by simp
            readies := fun v announced => .inr (readies v announced)
            outputs := by simp
            finishReady := .inl
            blames := by simp
            noDiffer := by simp }

theorem onVote_spec (vote : MessageType T) :
    EffectSpec participants s sender sid vote (onVote participants s sender sid vote) := by
  cases vote with
  | send data => exact onSend_spec participants s sender sid data
  | echo data => exact onEcho_spec participants s sender sid data
  | ready data => exact onReady_spec participants s sender sid data

end

/-- More participants than the threshold leaves over voted against each value. -/
theorem opponents_of_not_isEnough {b : Box Participant T} (counts : Counts c b)
    (hopeless : isEnough n echoT c = false) (slot : c.get u = some k) (v : T) :
    n ≤ echoT + (b.opponents v).card := by
  have split := b.card_opponents v
  have every : ∀ entry ∈ c.list, entry.2 + (n - c.getSumCounters) ≤ echoT := by
    simpa [isEnough] using hopeless
  rw [counts.total] at every
  cases found : c.get v with
  | some count =>
    have few := every _ (CounterList.mem_of_get found)
    have same := counts.get_eq found
    dsimp only at few
    omega
  | none =>
    have none : b.count v = 0 := by
      rw [← counts.each v, found]
      rfl
    have few := every _ (CounterList.mem_of_get slot)
    omega

end MpcNetwork.Threshold.EchoBroadcast
