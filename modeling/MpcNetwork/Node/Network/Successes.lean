import Mathlib.Data.List.Perm.Subperm
import MpcNetwork.Node.Network.RunProtocol

/-! # Waiting for followers

A leader counts who has reported success and goes on once it has counted as many as there are
followers.  It counts whoever sent Success on the channel: a peer that is not on the list is
counted in the place of a follower that has said nothing.
-/

namespace MpcNetwork.Node.Network

open Jobs Jobs.Job Threshold List

def ChannelEvent.successFrom : ChannelEvent → Option ParticipantId
  | .received ⟨sender, ⟨_, .success⟩⟩ => some sender
  | _ => none

def successes (events : List ChannelEvent) : List ParticipantId :=
  events.filterMap ChannelEvent.successFrom

/-- What is still to come is the end of them, and who is counted has sent Success. -/
structure Heard {S : Type} (events : List ChannelEvent) (s : TaskState S) : Prop where
  rest : s.incoming <:+ events
  counted : ∀ id ∈ s.successfulParticipants, id ∈ successes events
  once : s.successfulParticipants.Nodup

theorem undisturbed_heard {S : Type} (events : List ChannelEvent) :
    NetworkTaskChannel.Undisturbed (Heard (S := S) events) := by
  have shorter : ∀ (s : TaskState S) event pending, s.incoming = event :: pending →
      Heard events s → pending <:+ events ∧ event ∈ events := by
    intro s event pending isPending heard
    have rest := heard.rest
    rw [isPending] at rest
    exact ⟨(suffix_cons event pending).trans rest, rest.subset mem_cons_self⟩
  refine ⟨?_, ?_, ?_⟩
  · intro s sent heard
    exact ⟨heard.rest, heard.counted, heard.once⟩
  · intro s event pending isPending heard
    exact ⟨(shorter s event pending isPending heard).1, heard.counted, heard.once⟩
  · intro s channelId sender pending isPending heard
    obtain ⟨rest, received⟩ := shorter s _ pending isPending heard
    refine ⟨rest, ?_, heard.once.insert⟩
    intro id inside
    rcases mem_insert_iff.mp inside with rfl | earlier
    · exact mem_filterMap.mpr ⟨_, received, rfl⟩
    · exact heard.counted id earlier

/-- The computation hears of the channel through `receive` only. -/
def Listens {S T : Type} (compute : Task S T) : Prop := ∀ events, Maintains (Heard events) compute

theorem listens_runProtocol {S T σ : Type} {self : NetworkTaskChannel}
    {protocol : Protocol σ T} {s : σ} :
    Listens (self.runProtocol transport protocol s : Task S T) :=
  fun events => (undisturbed_heard events).runProtocol

namespace NetworkTaskChannel

variable {S T : Type} {transport : Transport} {self : NetworkTaskChannel}

variable {s t : TaskState S}

theorem enough_of_waitForFollowersToSucceed
    (returned : self.waitForFollowersToSucceed transport s = (.ok (), t)) :
    self.participants.length - 1 ≤ t.successfulParticipants.length := by
  unfold waitForFollowersToSucceed at returned
  split at returned
  · simp at returned
  · rw [bind_eq_ok] at returned
    obtain ⟨pending, u, _, turning⟩ := returned
    obtain ⟨_, v, last⟩ := turns_eq_ok turning
    split at last
    · simp at last
    · rw [bind_eq_ok] at last
      obtain ⟨counted, w, looked, last⟩ := last
      obtain ⟨rfl, rfl⟩ := read_eq_ok.mp looked
      split at last
      · rw [bind_eq_ok] at last
        obtain ⟨_, _, _, last⟩ := last
        simp at last
      · rename_i enough
        obtain ⟨_, rfl⟩ := pure_eq_ok.mp last
        exact Nat.not_lt.mp enough

variable {compute : Task S T} {result : T}

/-- As many successes as followers, all of them counted once, after a computation that
    listens. -/
theorem heard_performLeaderCentricComputation (leads : self.isLeader = true)
    (listens : Listens compute) (fresh : s.successfulParticipants = [])
    (returned : self.performLeaderCentricComputation transport compute true s = (.ok result, t)) :
    Heard s.incoming t ∧ self.participants.length - 1 ≤ t.successfulParticipants.length := by
  have start : Heard s.incoming s := ⟨suffix_rfl, by simp [fresh], by simp [fresh]⟩
  unfold performLeaderCentricComputation at returned
  simp only [leads, if_true, Bool.and_self, Bool.not_true, Bool.false_and, Bool.false_eq_true,
    if_false, bind_eq_ok, pure_eq_ok, onFailure_eq_ok] at returned
  obtain ⟨_, _, computed, _, _, waited, _, rfl⟩ := returned
  have heard := (listens s.incoming).after start computed
  exact ⟨(undisturbed_heard s.incoming).waitForFollowersToSucceed.after heard waited,
    enough_of_waitForFollowersToSucceed waited⟩

/-- If only followers report success, all have. A repeated entry only makes the leader wait. -/
theorem successes_of_performLeaderCentricComputation (leads : self.isLeader = true)
    (listed : self.myParticipantId ∈ self.participants) (listens : Listens compute)
    (fresh : s.successfulParticipants = [])
    (members : ∀ id ∈ successes s.incoming, id ∈ self.participants ∧ id ≠ self.myParticipantId)
    (returned : self.performLeaderCentricComputation transport compute true s = (.ok result, t)) :
    ∀ id ∈ self.participants, id ≠ self.myParticipantId → id ∈ successes s.incoming := by
  obtain ⟨heard, enough⟩ := heard_performLeaderCentricComputation leads listens fresh returned
  intro id member other
  apply heard.counted
  have part : t.successfulParticipants ⊆ self.participants.erase self.myParticipantId := by
    intro counted inside
    obtain ⟨member, other⟩ := members counted (heard.counted counted inside)
    exact (mem_erase_of_ne other).mpr member
  have all := (subperm_of_subset heard.once part).perm_of_length_le (by
    rw [length_erase_of_mem listed]
    exact enough)
  exact all.mem_iff.mpr ((mem_erase_of_ne other).mpr member)

def success (channelId : ChannelId) (sender : ParticipantId) : ChannelEvent :=
  .received ⟨sender, ⟨channelId, .success⟩⟩

@[simp] theorem successes_map_success (channelId : ChannelId) (senders : List ParticipantId) :
    successes (senders.map (success channelId)) = senders := by
  rw [successes, filterMap_map]
  exact filterMap_some

variable {channelId : ChannelId} {senders : List ParticipantId}

/-- Turns that take in one Success each go on until there are enough. -/
private theorem turns_success {turn : Unit → Task S (Unit ⊕ Unit)} (enough : Nat)
    (takes : ∀ s sender pending, s.successfulParticipants.length < enough →
      s.incoming = success channelId sender :: pending →
      turn () s = (.ok (.inl ()), { s with
        incoming := pending
        successfulParticipants := s.successfulParticipants.insert sender }))
    (stops : ∀ s, enough ≤ s.successfulParticipants.length → turn () s = (.ok (.inr ()), s))
    (pending : s.incoming = senders.map (success channelId))
    (distinct : (s.successfulParticipants ++ senders).Nodup)
    (reached : enough = (s.successfulParticipants ++ senders).length) :
    ∃ t, turns turn (senders.length + 1) () s = (.ok (), t) := by
  induction senders generalizing s with
  | nil =>
    refine ⟨s, ?_⟩
    rw [turns, bind_of_ok (stops s (by simp [reached]))]
    rfl
  | cons sender senders ih =>
    have fewer : s.successfulParticipants.length < enough := by
      simp only [reached, length_append, length_cons]
      omega
    have fresh : sender ∉ s.successfulParticipants := by
      intro inside
      exact (nodup_append'.mp distinct).2.2 inside (by simp)
    rw [length_cons, turns, bind_of_ok (takes s sender _ fewer pending)]
    apply ih rfl
    · rw [insert_of_not_mem fresh]
      simpa using (perm_middle.nodup_iff).mp distinct
    · rw [insert_of_not_mem fresh, reached]
      simp only [length_append, length_cons]
      omega

theorem waitForFollowersToSucceed_success (leads : self.isLeader = true)
    (nonempty : self.participants ≠ []) (pending : s.incoming = senders.map (success channelId))
    (fresh : s.successfulParticipants = []) (distinct : senders.Nodup)
    (reached : self.participants.length - 1 = senders.length) :
    ∃ t, self.waitForFollowersToSucceed transport s = (.ok (), t) := by
  have ready : ¬ self.isLeader = false := by simp [leads]
  unfold waitForFollowersToSucceed
  rw [if_neg ready, bind_of_ok (read_eq_ok.mpr ⟨rfl, rfl⟩), pending, length_map]
  refine turns_success (self.participants.length - 1) ?_ ?_ pending ?_ ?_
  · intro s sender pending fewer isPending
    have received : self.receiveOne transport s = (.ok none, { s with
        incoming := pending
        successfulParticipants := s.successfulParticipants.insert sender }) := by
      have awaited : self.receiveRaw transport s =
          (.ok ⟨sender, ⟨channelId, .success⟩⟩, { s with incoming := pending }) := by
        rw [receiveRaw, bind_of_ok (read_eq_ok.mpr ⟨rfl, rfl⟩), isPending]
        rfl
      rw [receiveOne, bind_of_ok awaited]
      simp only [leads, if_true]
      rfl
    rw [if_neg nonempty, bind_of_ok (read_eq_ok.mpr ⟨rfl, rfl⟩), if_pos fewer,
      bind_of_ok received]
    rfl
  · intro s many
    rw [if_neg nonempty, bind_of_ok (read_eq_ok.mpr ⟨rfl, rfl⟩), if_neg (Nat.not_lt.mpr many)]
    rfl
  · simpa [fresh] using distinct
  · simpa [fresh] using reached

theorem performLeaderCentricComputation_success (leads : self.isLeader = true)
    (nonempty : self.participants ≠ []) (computed : compute s = (.ok result, s))
    (pending : s.incoming = senders.map (success channelId))
    (fresh : s.successfulParticipants = []) (distinct : senders.Nodup)
    (reached : self.participants.length - 1 = senders.length) :
    ∃ t, self.performLeaderCentricComputation transport compute true s = (.ok result, t) := by
  have waits : ∃ t, self.waitForFollowersToSucceed transport s = (.ok (), t) :=
    waitForFollowersToSucceed_success leads nonempty pending fresh distinct reached
  obtain ⟨t, waited⟩ := waits
  refine ⟨t, ?_⟩
  unfold performLeaderCentricComputation
  simp only [leads, if_true, Bool.and_self, Bool.not_true, Bool.false_and, Bool.false_eq_true,
    if_false, bind_eq_ok, pure_eq_ok, onFailure_eq_ok]
  exact ⟨result, s, computed, (), t, waited, rfl, rfl⟩

/-- A leader that has nothing to compute and to whom these peers report success. -/
def reported (channelId : ChannelId) (senders : List ParticipantId) : TaskState Unit where
  incoming := senders.map (success channelId)
  successfulParticipants := []
  sent := []
  stores := ()

/-- With messages from these peers, a leader that returns has heard of every follower. -/
def WaitsForAll (transport : Transport) (self : NetworkTaskChannel)
    (reaching : ParticipantId → Prop) : Prop :=
  ∀ (S T : Type) (compute : Task S T) (s t : TaskState S) (result : T), Listens compute →
    s.successfulParticipants = [] → (∀ id ∈ successes s.incoming, reaching id) →
    self.performLeaderCentricComputation transport compute true s = (.ok result, t) →
    ∀ id ∈ self.participants, id ≠ self.myParticipantId → id ∈ successes s.incoming

/-- A leader is sure to have heard of all its connected followers exactly if no other peer can send
    Success on its channel. -/
theorem waits_for_all_iff {reaching : ParticipantId → Prop} (leads : self.isLeader = true)
    (listed : self.myParticipantId ∈ self.participants) (distinct : self.participants.Nodup)
    (follower : ∃ id ∈ self.participants, id ≠ self.myParticipantId)
    (reaches : ∀ id ∈ self.participants, id ≠ self.myParticipantId → reaching id) :
    self.WaitsForAll transport reaching ↔
      ∀ id, reaching id → id ∈ self.participants ∧ id ≠ self.myParticipantId := by
  constructor
  · intro waits outsider outside
    by_contra unlisted
    obtain ⟨missing, member, other⟩ := follower
    have others := distinct.erase self.myParticipantId
    have follows : ∀ id ∈ self.participants.erase self.myParticipantId,
        id ∈ self.participants ∧ id ≠ self.myParticipantId := by
      intro id inside
      obtain ⟨different, inList⟩ := distinct.mem_erase_iff.mp inside
      exact ⟨inList, different⟩
    have isFollower : missing ∈ self.participants.erase self.myParticipantId :=
      distinct.mem_erase_iff.mpr ⟨other, member⟩
    have replaced : outsider ∉ (self.participants.erase self.myParticipantId).erase missing :=
      fun inside => unlisted (follows outsider (mem_of_mem_erase inside))
    have absent : missing ∉ outsider ::
        (self.participants.erase self.myParticipantId).erase missing := by
      intro inside
      rcases mem_cons.mp inside with rfl | later
      · exact unlisted ⟨member, other⟩
      · exact (others.mem_erase_iff.mp later).1 rfl
    have reached : self.participants.length - 1 = (outsider ::
        (self.participants.erase self.myParticipantId).erase missing).length := by
      have positive := length_pos_of_mem isFollower
      rw [length_erase_of_mem listed] at positive
      rw [length_cons, length_erase_of_mem isFollower, length_erase_of_mem listed]
      omega
    have returns : ∃ t, self.performLeaderCentricComputation transport (pure ()) true
        (reported self.channelId _) = (.ok (), t) :=
      performLeaderCentricComputation_success leads (ne_nil_of_mem listed) rfl rfl rfl
        (nodup_cons.mpr ⟨replaced, others.erase missing⟩) reached
    obtain ⟨t, returned⟩ := returns
    have heard := waits Unit Unit (pure ()) _ t () (fun _ => maintains_pure) rfl ?_ returned missing
      member other
    · simp only [reported, successes_map_success] at heard
      exact absent heard
    · intro id inside
      simp only [reported, successes_map_success] at inside
      rcases mem_cons.mp inside with rfl | later
      · exact outside
      · obtain ⟨inList, different⟩ := follows id (mem_of_mem_erase later)
        exact reaches id inList different
  · intro members S T compute s t result listens fresh sent returned
    exact successes_of_performLeaderCentricComputation leads listed listens fresh
      (fun id inside => members id (sent id inside)) returned

private def quietTransport : Transport where
  transportSender := .new ⟨0⟩ [⟨0⟩, ⟨1⟩, ⟨2⟩, ⟨3⟩]
  waitForConnection _ _ := .established
  sendMpcMessage _ _ _ := .ok ()
  describe _ := ""

/-- Participant 0 generates triples with participants 1 and 2. -/
private def ledByZero : NetworkTaskChannel where
  channelId := ⟨⟨6⟩⟩
  taskId := .ecdsaTaskId (.manyTriples ⟨64⟩ 64)
  leader := ⟨0⟩
  myParticipantId := ⟨0⟩
  participants := [⟨0⟩, ⟨1⟩, ⟨2⟩]
  connectionVersions := ∅
  receiver := ⟨⟨6⟩⟩

theorem waits_for_all_followers :
    ledByZero.WaitsForAll quietTransport (fun id => id = ⟨1⟩ ∨ id = ⟨2⟩) := by
  refine (waits_for_all_iff rfl (by decide) (by decide) ⟨⟨1⟩, by decide, by decide⟩ ?_).mpr ?_
  · decide
  · rintro id (rfl | rfl)
    · decide
    · decide

/-- Participant 3 is counted in the place of participant 2, who has said nothing. -/
theorem outsider_counted_as_follower :
    ∃ t, ledByZero.performLeaderCentricComputation quietTransport (pure ()) true
        (reported ledByZero.channelId [⟨1⟩, ⟨3⟩]) = (.ok (), t) ∧
      ⟨2⟩ ∈ ledByZero.participants ∧ ⟨2⟩ ≠ ledByZero.myParticipantId ∧
      ⟨2⟩ ∉ successes (reported ledByZero.channelId [⟨1⟩, ⟨3⟩]).incoming :=
  ⟨_, rfl, by decide, by decide, by decide⟩

end NetworkTaskChannel

end MpcNetwork.Node.Network
