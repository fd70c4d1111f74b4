import MpcNetwork.Threshold.EchoBroadcast.Safety

/-! # How often a participant echoes and gets ready

A participant echoes at most once in a session.  There are two ways to a ready vote, from the echo
threshold and by amplification, each with a flag of its own, and neither looks at the flag of the
other.  So the ready votes of a participant are one for each of the two thresholds it has exceeded.
-/

namespace MpcNetwork.Threshold.EchoBroadcast

open Runs

variable {T : Type} [DecidableEq T]

namespace CounterList

/-- Some value has more votes than the threshold. -/
def exceeds (c : CounterList T) (threshold : Nat) : Bool :=
  c.list.any fun entry => threshold < entry.2

theorem get_insert_isSome (c : CounterList T) (item : T) :
    ((c.insertOrIncreaseCounter item).get item).isSome := by
  obtain ⟨list⟩ := c
  induction list with
  | nil => simp [insertOrIncreaseCounter, bump, get]
  | cons entry rest ih =>
    obtain ⟨value, count⟩ := entry
    by_cases same : value = item
    · simp [insertOrIncreaseCounter, bump, get, same]
    · simpa [insertOrIncreaseCounter, bump, get, same] using ih

/-- Only the value that was counted can have come over the threshold. -/
theorem exceeds_insert {c : CounterList T}
    (found : (c.insertOrIncreaseCounter item).get item = some count) (threshold : Nat) :
    (c.insertOrIncreaseCounter item).exceeds threshold = true ↔
      c.exceeds threshold = true ∨ threshold < count := by
  obtain ⟨list⟩ := c
  induction list with
  | nil =>
    obtain rfl : 1 = count := by simpa [insertOrIncreaseCounter, bump, get] using found
    simp [insertOrIncreaseCounter, bump, exceeds]
  | cons entry rest ih =>
    obtain ⟨value, votes⟩ := entry
    by_cases same : value = item
    · obtain rfl : votes + 1 = count := by
        simpa [insertOrIncreaseCounter, bump, get, same] using found
      simp only [insertOrIncreaseCounter, bump, exceeds, same, if_true, List.any_cons,
        Bool.or_eq_true, decide_eq_true_eq]
      have grown : threshold < votes → threshold < votes + 1 := Nat.lt_succ_of_lt
      tauto
    · have later := ih (by simpa [insertOrIncreaseCounter, bump, get, same] using found)
      simp only [insertOrIncreaseCounter, exceeds] at later
      simp only [insertOrIncreaseCounter, bump, exceeds, same, if_false, List.any_cons,
        Bool.or_eq_true, later, or_assoc]

end CounterList

/-- What the thresholds that were exceeded have left behind in a session. -/
structure Flagged (participants : ParticipantList) (s : BroadcastProtocolState T) : Prop where
  echo : s.dataEcho.exceeds (echoReadyThresholds participants.len).1 = true → s.finishEcho = true
  ready : s.finishAmplification = s.dataReady.exceeds (echoReadyThresholds participants.len).2

def thresholdsExceeded (participants : ParticipantList) (s : BroadcastProtocolState T) : Nat :=
  (s.dataEcho.exceeds (echoReadyThresholds participants.len).1).toNat +
    (s.dataReady.exceeds (echoReadyThresholds participants.len).2).toNat

/-- A vote that is announced is paid for by the flag of an echo or by a threshold. -/
structure Announces (participants : ParticipantList) (s : BroadcastProtocolState T)
    (e : Effect T) : Prop where
  flagged : Flagged participants e.session
  echoes : (e.announce.any fun vote => vote.echoed.isSome).toNat + s.finishSend.toNat ≤
    e.session.finishSend.toNat
  readies : (e.announce.any fun vote => vote.readied.isSome).toNat +
    thresholdsExceeded participants s = thresholdsExceeded participants e.session

variable {participants : ParticipantList} {s : BroadcastProtocolState T} {sid : Nat}

section

variable (flagged : Flagged participants s)

include flagged

omit [DecidableEq T] in
theorem Flagged.unchanged
    (sends : session.finishSend = s.finishSend) (echoes : session.dataEcho = s.dataEcho)
    (readies : session.dataReady = s.dataReady) (finished : session.finishEcho = s.finishEcho)
    (amplified : session.finishAmplification = s.finishAmplification) :
    Announces participants s ⟨session, none, outcome⟩ where
  flagged := ⟨by rw [echoes, finished]; exact flagged.echo,
    by rw [amplified, readies]; exact flagged.ready⟩
  echoes := by simp [sends]
  readies := by simp [thresholdsExceeded, echoes, readies]

omit [DecidableEq T] in
theorem onSend_announces :
    Announces participants s (onSend participants s sender sid data) := by
  unfold onSend
  split
  · exact flagged.unchanged rfl rfl rfl rfl rfl
  · rename_i unsent
    split
    · exact flagged.unchanged rfl rfl rfl rfl rfl
    · split
      · exact flagged.unchanged rfl rfl rfl rfl rfl
      · exact {
          flagged := ⟨flagged.echo, flagged.ready⟩
          echoes := by simp [MessageType.echoed, unsent]
          readies := by simp [MessageType.readied, thresholdsExceeded] }

theorem onEcho_announces :
    Announces participants s (onEcho participants s sender sid data) := by
  unfold onEcho
  simp only
  split
  · exact flagged.unchanged rfl rfl rfl rfl rfl
  · rename_i counted
    simp only [Bool.or_eq_true, Bool.not_eq_true', not_or, Bool.not_eq_true] at counted
    have below : s.dataEcho.exceeds (echoReadyThresholds participants.len).1 = false := by
      cases exceeded : s.dataEcho.exceeds (echoReadyThresholds participants.len).1 with
      | false => rfl
      | true => exact (flagged.echo exceeded).symm.trans counted.2
    obtain ⟨count, found⟩ := Option.isSome_iff_exists.mp (s.dataEcho.get_insert_isSome data)
    have exceeds := CounterList.exceeds_insert found (echoReadyThresholds participants.len).1
    simp only [found]
    split
    · rename_i exceeded
      have now := exceeds.mpr (.inr exceeded)
      exact {
        flagged := ⟨fun _ => rfl, flagged.ready⟩
        echoes := by simp [MessageType.echoed]
        readies := by simp [MessageType.readied, thresholdsExceeded, now, below] }
    · rename_i under
      have still : (s.dataEcho.insertOrIncreaseCounter data).exceeds
          (echoReadyThresholds participants.len).1 = false := by
        rw [← Bool.not_eq_true, exceeds, below]
        simpa using under
      have silent : ∀ outcome : Outcome T, Announces participants s
          ⟨{ s with
            seenEcho := (s.seenEcho.put participants sender).1
            dataEcho := s.dataEcho.insertOrIncreaseCounter data }, none, outcome⟩ := fun outcome => {
        flagged := ⟨by simp [still], flagged.ready⟩
        echoes := by simp
        readies := by simp [thresholdsExceeded, still, below] }
      split
      · exact silent _
      · exact silent _

theorem onReady_announces :
    Announces participants s (onReady participants s sender data) := by
  unfold onReady
  simp only
  split
  · exact flagged.unchanged rfl rfl rfl rfl rfl
  · obtain ⟨count, found⟩ := Option.isSome_iff_exists.mp (s.dataReady.get_insert_isSome data)
    have exceeds := CounterList.exceeds_insert found (echoReadyThresholds participants.len).2
    have finished := Bool.toNat_le s.finishSend
    simp only [found]
    by_cases fires : (echoReadyThresholds participants.len).2 < count ∧ s.finishAmplification = false
    · have before : s.dataReady.exceeds (echoReadyThresholds participants.len).2 = false :=
        flagged.ready.symm.trans fires.2
      have now := exceeds.mpr (.inr fires.1)
      simp only [fires.2, gt_iff_lt, fires.1, decide_true, Bool.not_false, Bool.and_self, if_true]
      split
      · exact {
          flagged := ⟨fun _ => rfl, now.symm⟩
          echoes := by simpa [MessageType.echoed] using finished
          readies := by simp [MessageType.readied, thresholdsExceeded, now, before]; omega }
      · exact {
          flagged := ⟨flagged.echo, now.symm⟩
          echoes := by simp [MessageType.echoed]
          readies := by simp [MessageType.readied, thresholdsExceeded, now, before]; omega }
    · have quiet : (decide ((echoReadyThresholds participants.len).2 < count) &&
          !s.finishAmplification) = false := by
        simpa using fires
      have same : (s.dataReady.insertOrIncreaseCounter data).exceeds
          (echoReadyThresholds participants.len).2 = s.finishAmplification := by
        rw [Bool.eq_iff_iff, exceeds, ← flagged.ready]
        simp only [not_and, Bool.not_eq_false] at fires
        tauto
      simp only [gt_iff_lt, quiet, Bool.false_eq_true, if_false]
      split
      · exact {
          flagged := ⟨fun _ => rfl, same.symm⟩
          echoes := by simpa using finished
          readies := by simp [thresholdsExceeded, same, flagged.ready] }
      · exact {
          flagged := ⟨flagged.echo, same.symm⟩
          echoes := by simp
          readies := by simp [thresholdsExceeded, same, flagged.ready] }

theorem onVote_announces (vote : MessageType T) :
    Announces participants s (onVote participants s sender sid vote) := by
  cases vote with
  | send data => exact onSend_announces flagged
  | echo data => exact onEcho_announces flagged
  | ready data => exact onReady_announces flagged

end

/-- How many votes of a kind a participant has sent in a session. -/
def System.sent (s : System T) (p : Participant) (sid : Nat) (kind : MessageType T → Option T) :
    Nat :=
  s.posted.countP fun post => post.1 = p ∧ post.2.1 = sid ∧ (kind post.2.2).isSome

def System.echoesSent (s : System T) (p : Participant) (sid : Nat) : Nat :=
  s.sent p sid MessageType.echoed

def System.readiesSent (s : System T) (p : Participant) (sid : Nat) : Nat :=
  s.sent p sid MessageType.readied

/-- The votes sent are the flags and thresholds of the sessions. -/
structure Accounted (cfg : Config T) (s : System T) (p : Participant) (sid : Nat) : Prop where
  flagged : Flagged cfg.participants ((s.node p).state sid)
  echoes : s.echoesSent p sid ≤ ((s.node p).state sid).finishSend.toNat
  readies : s.readiesSent p sid = thresholdsExceeded cfg.participants ((s.node p).state sid)

omit [DecidableEq T] in
theorem sent_moved (s : System T) (p q : Participant) (next : Node T) (i sid : Nat)
    (announce : Option (MessageType T)) (kind : MessageType T → Option T) :
    (moved s p next sid announce).sent q i kind = s.sent q i kind +
      if p = q ∧ sid = i then (announce.any fun vote => (kind vote).isSome).toNat else 0 := by
  cases announce with
  | none => simp [System.sent, moved]
  | some vote =>
    simp only [System.sent, moved, Option.map_some, Option.toList_some, List.countP_append,
      List.countP_singleton, Option.any_some]
    by_cases here : p = q ∧ sid = i
    · obtain ⟨rfl, rfl⟩ := here
      cases (kind vote).isSome <;> simp
    · rw [if_neg here, if_neg]
      simpa using fun first second => absurd ⟨first, second⟩ here

theorem sent_initial (cfg : Config T) (p : Participant) (sid : Nat)
    (noSend : ∀ value, kind (.send value) = none) : cfg.initial.sent p sid kind = 0 := by
  refine List.countP_eq_zero.mpr ?_
  rintro ⟨q, i, vote⟩ posted
  obtain ⟨_, rfl⟩ := posted_initial posted
  simp [noSend]

theorem accounted_initial (cfg : Config T) (p : Participant) (sid : Nat) :
    Accounted cfg cfg.initial p sid where
  flagged := ⟨by simp [Config.initial, BroadcastProtocolState.new, CounterList.new,
    CounterList.exceeds], rfl⟩
  echoes := (sent_initial cfg p sid fun _ => rfl).le.trans (Nat.zero_le _)
  readies := sent_initial cfg p sid fun _ => rfl

omit [DecidableEq T] in
theorem state_moved {s : System T} {e : Effect T}
    (state : next.state = Function.update (s.node p).state sid e.session) :
    ((moved s p next sid e.announce).node q).state i =
      if p = q ∧ sid = i then e.session else (s.node q).state i := by
  by_cases here : p = q
  · subst here
    by_cases same : sid = i
    · subst same
      simp [moved, state]
    · simp [moved, state, same, Function.update_of_ne (Ne.symm same)]
  · simp [moved, here, Function.update_of_ne (Ne.symm here)]

omit [DecidableEq T] in
/-- The session of a vote pays for what is announced, and the others stay as they are. -/
theorem Accounted.moved {s : System T} (inv : ∀ p sid, Accounted cfg s p sid)
    (state : next.state = Function.update (s.node p).state sid e.session)
    (announces : Announces cfg.participants ((s.node p).state sid) e) (q : Participant) (i : Nat) :
    Accounted cfg (moved s p next sid e.announce) q i := by
  have session : ((EchoBroadcast.moved s p next sid e.announce).node q).state i =
      if p = q ∧ sid = i then e.session else (s.node q).state i := state_moved state
  have echoes := sent_moved s p q next i sid e.announce MessageType.echoed
  have readies := sent_moved s p q next i sid e.announce MessageType.readied
  by_cases here : p = q ∧ sid = i
  · rw [if_pos here] at session echoes readies
    obtain ⟨rfl, rfl⟩ := here
    have before := inv p sid
    refine ⟨session ▸ announces.flagged, ?_, ?_⟩
    · have paid := announces.echoes
      have sofar := before.echoes
      unfold System.echoesSent at sofar ⊢
      rw [session, echoes]
      omega
    · have paid := announces.readies
      have sofar := before.readies
      unfold System.readiesSent at sofar ⊢
      rw [session, readies]
      omega
  · rw [if_neg here] at session echoes readies
    have before := inv q i
    refine ⟨session ▸ before.flagged, ?_, ?_⟩
    · rw [session, System.echoesSent, echoes]
      exact before.echoes
    · rw [session, System.readiesSent, readies]
      exact before.readies

theorem Accounted.handle {s : System T} (inv : ∀ p sid, Accounted cfg s p sid)
    (p sender : Participant) (sid : Nat) (vote : MessageType T) (q : Participant) (i : Nat) :
    Accounted cfg (cfg.handle s p sender sid vote) q i := by
  by_cases inside : sid < cfg.participants.len
  · rw [handle_inside inside]
    have iter := iterate_spec cfg.participants p (cfg.input p) (s.node p) sender sid vote inside
    exact .moved inv iter.state (onVote_announces (inv p sid).flagged vote) q i
  · rw [handle_outside inside]
    have quiet : Announces cfg.participants ((s.node p).state sid)
        ⟨(s.node p).state sid, none, .proceed⟩ :=
      (inv p sid).flagged.unchanged rfl rfl rfl rfl rfl
    exact .moved inv (Function.update_eq_self sid _).symm quiet q i

theorem handle_of_acts {cfg : Config T} {s t : System T}
    (acted : Acts cfg.step s e t) :
    ∃ p sender sid vote, t = cfg.handle s p sender sid vote := by
  obtain ⟨event, ⟨⟩⟩ := e
  cases event with
  | receive m =>
    simp only [Acts, Config.step] at acted
    split at acted
    · cases acted
      exact ⟨_, _, _, _, rfl⟩
    · cases acted
  | simulate p =>
    simp only [Acts, Config.step] at acted
    split at acted
    · split at acted
      · cases acted
        exact ⟨_, _, _, _, rfl⟩
      · cases acted
    · cases acted

theorem Accounted.run {cfg : Config T} {s : System T}
    (run : Run (Acts cfg.step) cfg.initial es s) (p : Participant) (sid : Nat) :
    Accounted cfg s p sid := by
  refine run.invariant (fun _ s => ∀ p sid, Accounted cfg s p sid) (accounted_initial cfg) ?_ p sid
  intro es s e t _ inv acted
  obtain ⟨p, sender, sid, vote, rfl⟩ := handle_of_acts acted
  exact Accounted.handle inv p sender sid vote

/-- A participant echoes at most once in a session, and sends at most one ready vote exactly as long
    as it has not exceeded both the echo and the ready threshold there. -/
theorem announces_once {cfg : Config T} {es : History T} {s : System T}
    (run : Run (Acts cfg.step) cfg.initial es s) (p : Participant) (sid : Nat) :
    s.echoesSent p sid ≤ 1 ∧
      (s.readiesSent p sid ≤ 1 ↔
        ¬ (((s.node p).state sid).dataEcho.exceeds cfg.echoT = true ∧
          ((s.node p).state sid).dataReady.exceeds cfg.readyT = true)) := by
  have accounted := Accounted.run run p sid
  refine ⟨accounted.echoes.trans (Bool.toNat_le _), ?_⟩
  rw [accounted.readies, thresholdsExceeded, Config.echoT, Config.readyT]
  cases ((s.node p).state sid).dataEcho.exceeds (echoReadyThresholds cfg.participants.len).1 <;>
    cases ((s.node p).state sid).dataReady.exceeds (echoReadyThresholds cfg.participants.len).2 <;>
    simp

private theorem fourDistinct : ([⟨0⟩, ⟨1⟩, ⟨2⟩, ⟨3⟩] : List Participant).Nodup := by decide

private def fourHonest : Config Nat where
  participants := ⟨[⟨0⟩, ⟨1⟩, ⟨2⟩, ⟨3⟩], fourDistinct⟩
  byzantine := ∅
  input p := 10 + p.id.toNat

/-- Participants 0, 1 and 2 echo the value of participant 0, and 0 and 1 get ready. -/
private def firstReadies : List (Event Nat) :=
  [.simulate ⟨0⟩, .simulate ⟨0⟩,
    .simulate ⟨1⟩, .simulate ⟨1⟩, .receive ⟨⟨0⟩, ⟨1⟩, 0, .send 10⟩, .simulate ⟨1⟩,
    .simulate ⟨2⟩, .simulate ⟨2⟩, .receive ⟨⟨0⟩, ⟨2⟩, 0, .send 10⟩, .simulate ⟨2⟩,
    .receive ⟨⟨1⟩, ⟨0⟩, 0, .echo 10⟩, .receive ⟨⟨2⟩, ⟨0⟩, 0, .echo 10⟩, .simulate ⟨0⟩,
    .receive ⟨⟨0⟩, ⟨1⟩, 0, .echo 10⟩, .receive ⟨⟨2⟩, ⟨1⟩, 0, .echo 10⟩, .simulate ⟨1⟩]

theorem announces_once_of_four :
    ∃ es s, Run (Acts fourHonest.step) fourHonest.initial es s ∧ s.echoesSent ⟨0⟩ 0 = 1 ∧
      s.readiesSent ⟨0⟩ 0 = 1 ∧
      ¬ (((s.node ⟨0⟩).state 0).dataEcho.exceeds fourHonest.echoT = true ∧
        ((s.node ⟨0⟩).state 0).dataReady.exceeds fourHonest.readyT = true) := by
  obtain ⟨es, s, run, _, echoes, readies⟩ := exists_run fourHonest.step fourHonest.initial
    firstReadies (fun _ s => s.echoesSent ⟨0⟩ 0 = 1 ∧ s.readiesSent ⟨0⟩ 0 = 1) (by decide +kernel)
  obtain ⟨_, once⟩ := announces_once run ⟨0⟩ 0
  exact ⟨es, s, run, echoes, readies, once.mp readies.le⟩

/-- The ready vote of participant 1 makes participant 0 get ready once more. -/
theorem gets_ready_twice :
    ((replay fourHonest.step fourHonest.initial
      (firstReadies ++ [.receive ⟨⟨1⟩, ⟨0⟩, 0, .ready 10⟩])).map fun r =>
        (r.1.readiesSent ⟨0⟩ 0, decide (fourHonest.Honest ⟨0⟩))) = some (2, true) := by
  decide +kernel

end MpcNetwork.Threshold.EchoBroadcast
