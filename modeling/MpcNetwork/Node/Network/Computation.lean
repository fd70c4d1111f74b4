import MpcNetwork.Node.Network.Client

/-! # Computations on a channel

A task that owns a channel waits for connections, drives a protocol with the messages of
its channel and tells its leader how it went.  Everything the task waits for is a list of
events; where the list ends, the task is left waiting.
-/

namespace MpcNetwork.Node.Network

open Fallible Jobs Jobs.Job Threshold

/-- What comes up while a task waits on its channel. -/
inductive ChannelEvent where
  | received (message : MpcPeerMessage)
  /-- A second went by; these connections have been interrupted. -/
  | timer (interrupted : List ParticipantId)
  | closed
  /-- The time given to the whole computation is over. -/
  | timeout
  deriving Repr, DecidableEq

inductive Connecting where
  | established
  | failed (error : String)
  | timedOut
  | waiting
  deriving Repr, DecidableEq

/-- The transport together with what it answers while the task runs. -/
structure Transport where
  transportSender : TlsMeshSender
  waitForConnection : ParticipantId → ConnectionVersion → Connecting
  sendMpcMessage : ParticipantId → ConnectionVersion → MpcMessage → Except String Unit
  /-- How an error reads in an Abort message. -/
  describe : Error → String

/-- The events still to come, who reported success, what was sent, and the node's stores. -/
structure TaskState (S : Type) where
  incoming : List ChannelEvent
  successfulParticipants : List ParticipantId
  sent : List (ParticipantId × MpcMessage)
  stores : S

abbrev Task (S : Type) := Job Error (TaskState S)

structure TaskChannelComputationData where
  sender : ParticipantId
  data : List MessageData

namespace NetworkTaskChannel

variable {S : Type} (transport : Transport) (self : NetworkTaskChannel)

def sendRaw (recipientId : ParticipantId) (message : MpcMessage) : Task S Unit := do
  let version ← ofExcept (found (.anyhow "No connection version for recipient")
    (self.connectionVersions.lookup recipientId))
  let _ ← ofExcept (found (.anyhow "Recipient not found")
    (transport.transportSender.connectivities.lookup recipientId))
  ofExcept ((transport.sendMpcMessage recipientId version message).mapError fun _ =>
    .anyhow s!"Cannot send MPC message to recipient {recipientId.raw}")
  update fun s => { s with sent := s.sent ++ [(recipientId, message)] }

def send (recipientId : ParticipantId) (data : List MessageData) : Task S Unit :=
  self.sendRaw transport recipientId ⟨self.channelId, .computation data⟩

def communicateSuccess : Task S Unit :=
  if self.isLeader then fail (.anyhow "Only followers can communicate success")
  else self.sendRaw transport self.leader ⟨self.channelId, .success⟩

/-- A leader aborts everybody, a follower its leader; that this can fail is ignored. -/
def communicateFailure (err : Error) : Task S Unit :=
  let abort := ⟨self.channelId, .abort (transport.describe err)⟩
  if self.isLeader then
    self.participants.forM fun participant =>
      if participant = self.myParticipantId then pure ()
      else (self.sendRaw transport participant abort).ignoreFailure
  else (self.sendRaw transport self.leader abort).ignoreFailure

/-- The check of the connections, which stops at the first interrupted one. -/
def anyInterrupted (interrupted : List ParticipantId) : List ParticipantId → Task S Bool
  | [] => pure false
  | id :: ids => do
    let _ ← transport.transportSender.connectivity id
    if id ∈ interrupted then pure true else anyInterrupted interrupted ids

def awaitMessage : List ChannelEvent → Task S MpcPeerMessage
  | [] => wait
  | .received message :: events => do
    update fun s => { s with incoming := events }
    pure message
  | .timer interrupted :: events => do
    update fun s => { s with incoming := events }
    let broken ← anyInterrupted transport interrupted self.connectionVersions.keys
    if broken then
      fail (.anyhow "Computation cannot succeed as not all participants are alive anymore")
    else awaitMessage events
  | .closed :: _ => fail (.anyhow "Channel closed")
  | .timeout :: _ => fail (.anyhow "Timeout")

def receiveRaw : Task S MpcPeerMessage := do
  let events ← read TaskState.incoming
  self.awaitMessage transport events

/-- One message, which may or may not be one of the computation. -/
def receiveOne : Task S (Option TaskChannelComputationData) := do
  let message ← self.receiveRaw transport
  match message.message.kind with
  | .computation data => pure (some ⟨message.sender, data⟩)
  | .abort err =>
    if self.isLeader then
      fail (.anyhow s!"Aborted by participant {message.sender.raw}: {err}")
    else fail (.anyhow s!"Aborted by leader: {err}")
  | .success =>
    if self.isLeader then do
      update fun s => { s with
        successfulParticipants := s.successfulParticipants.insert message.sender }
      pure none
    else
      fail (.anyhow "Received unexpected Success message when we are not the leader")
  | .start start => fail (.unexpectedStart start)

/-- Each turn uses up an event, so the turns never run out before the events do. -/
def receive : Task S TaskChannelComputationData := do
  let events ← read TaskState.incoming
  let turn := fun _ : Unit => do
    let received ← self.receiveOne transport
    pure (received.elim (.inl ()) .inr)
  turns turn (events.length + 1) ()

/-- One is subtracted from the number of participants, which an empty list does not have. -/
def waitForFollowersToSucceed : Task S Unit := do
  if self.isLeader = false then
    fail (.anyhow "Only the leader can wait for others to succeed")
  else do
    let events ← read TaskState.incoming
    let turn := fun _ : Unit => do
      if self.participants = [] then panic
      else do
        let successes ← read fun s => s.successfulParticipants.length
        if successes < self.participants.length - 1 then do
          let _ ← self.receiveOne transport
          pure (.inl ())
        else pure (.inr ())
    turns turn (events.length + 1) ()

/-- A follower waits until it has been connected to every listed participant. -/
def initializeAllParticipantsConnections : Task S Unit :=
  self.participants.forM fun participant =>
    if participant = self.myParticipantId then pure ()
    else do
      let _ ← transport.transportSender.connectivity participant
      let version ← unwrap (self.connectionVersions.lookup participant)
      match transport.waitForConnection participant version with
      | .established => pure ()
      | .failed err => fail (.anyhow err)
      | .timedOut => do
        self.communicateFailure transport (.anyhow "Timeout")
        fail (.anyhow "Timeout")
      | .waiting => wait

/-- The frame of every computation: connect, compute, and let the leader know. -/
def performLeaderCentricComputation {T : Type} (compute : Task S T) (leaderWaitsForSuccess : Bool) :
    Task S T := do
  if self.isLeader then pure () else self.initializeAllParticipantsConnections transport
  let result ← compute.onFailure (self.communicateFailure transport)
  if leaderWaitsForSuccess && self.isLeader then
    (self.waitForFollowersToSucceed transport).onFailure (self.communicateFailure transport)
  else pure ()
  if !self.isLeader && leaderWaitsForSuccess then self.communicateSuccess transport else pure ()
  pure result

variable {transport : Transport} {self : NetworkTaskChannel}

/-- Every computation message still to come is from a listed participant. -/
def FromMembers (self : NetworkTaskChannel) (s : TaskState S) : Prop :=
  ∀ sender channelId data,
    ChannelEvent.received ⟨sender, ⟨channelId, .computation data⟩⟩ ∈ s.incoming →
      sender ∈ self.participants

theorem safe_sendRaw {I : TaskState S → Prop} (kept : ∀ s sent, I s → I { s with sent := sent }) :
    Safe I (self.sendRaw transport recipientId message) fun _ => I := by
  refine safe_ofExcept.bind ?_
  intro version
  refine safe_ofExcept.bind ?_
  intro _
  refine safe_ofExcept.bind ?_
  intro _
  refine safe_update ?_
  intro s holds
  exact kept s _ holds.1.1.1

theorem safe_communicateFailure (err : Error) :
    Safe (fun _ : TaskState S => True) (self.communicateFailure transport err)
      fun _ _ => True := by
  have calm : ∀ recipientId message, Safe (fun _ : TaskState S => True)
      (self.sendRaw transport recipientId message).ignoreFailure fun _ _ => True := by
    intro recipientId message
    refine safe_ignoreFailure ?_ fun _ _ => trivial
    intro s _
    have sent : Safe (fun _ : TaskState S => True) (self.sendRaw transport recipientId message)
      fun _ _ => True := safe_sendRaw fun _ _ _ => trivial
    exact (sent s trivial).1
  unfold communicateFailure
  split
  · refine safe_forM ?_
    intro participant _
    split
    · exact safe_pure fun _ _ => trivial
    · exact calm _ _
  · exact calm _ _

theorem safe_communicateSuccess :
    Safe (fun _ : TaskState S => True) (self.communicateSuccess transport) fun _ _ => True := by
  unfold communicateSuccess
  split
  · exact safe_fail
  · exact safe_sendRaw fun _ _ _ => trivial

theorem safe_connectivity {id : ParticipantId}
    (known : id ∈ transport.transportSender.connectivities) :
    Safe I (transport.transportSender.connectivity id) fun _ => I :=
  (safe_unwrap (AList.lookup_isSome.mpr known)).weaken (fun _ holds => holds) fun _ _ holds => holds.1

theorem safe_anyInterrupted
    (known : ∀ id ∈ ids, id ∈ transport.transportSender.connectivities) :
    Safe I (anyInterrupted transport interrupted ids) fun _ => I := by
  induction ids with
  | nil => exact safe_pure fun _ holds => holds
  | cons id ids ih =>
    refine (safe_connectivity (known id (by simp))).bind ?_
    intro _
    split
    · exact safe_pure fun _ holds => holds
    · exact ih fun other inside => known other (List.mem_cons_of_mem id inside)

section

variable (wired : self.Wired transport.transportSender)

include wired

theorem safe_awaitMessage (events : List ChannelEvent) :
    Safe (fun s : TaskState S => self.FromMembers s ∧ s.incoming = events)
      (self.awaitMessage transport events)
      fun message s => self.FromMembers s ∧
        ∀ data, message.message.kind = .computation data → message.sender ∈ self.participants := by
  induction events with
  | nil => exact safe_wait
  | cons event events ih =>
    have shorter : ∀ s : TaskState S, self.FromMembers s ∧ s.incoming = event :: events →
        self.FromMembers { s with incoming := events } := by
      rintro s ⟨members, same⟩ sender channelId data later
      exact members sender channelId data (same ▸ List.mem_cons_of_mem event later)
    cases event with
    | received message =>
      obtain ⟨sender, channelId, kind⟩ := message
      unfold awaitMessage
      refine safe_update_bind (fun s => self.FromMembers s ∧
        ∀ data, kind = .computation data → sender ∈ self.participants) ?_
        (safe_pure fun _ holds => holds)
      rintro s ⟨members, same⟩
      refine ⟨shorter s ⟨members, same⟩, ?_⟩
      rintro data rfl
      exact members sender channelId data (same ▸ List.mem_cons_self)
    | timer interrupted =>
      unfold awaitMessage
      refine safe_update_bind (fun s => self.FromMembers s ∧ s.incoming = events)
        (fun s holds => ⟨shorter s holds, rfl⟩) ?_
      have known : ∀ id ∈ self.connectionVersions.keys,
          id ∈ transport.transportSender.connectivities :=
        fun id versioned => wired.known id (AList.mem_keys.mpr versioned)
      refine (safe_anyInterrupted known).bind ?_
      intro broken
      split
      · exact safe_fail
      · exact ih
    | closed => exact safe_fail
    | timeout => exact safe_fail

theorem safe_receiveOne :
    Safe (fun s : TaskState S => self.FromMembers s) (self.receiveOne transport)
      fun received s => self.FromMembers s ∧
        ∀ data, received = some data → data.sender ∈ self.participants := by
  have raw : Safe (fun s : TaskState S => self.FromMembers s) (self.receiveRaw transport)
      fun message s => self.FromMembers s ∧
        ∀ data, message.message.kind = .computation data → message.sender ∈ self.participants := by
    refine safe_read.bind ?_
    intro events
    exact (safe_awaitMessage wired events).before fun s holds => ⟨holds.1, holds.2.symm⟩
  refine raw.bind ?_
  intro message
  split
  · rename_i data same
    refine safe_pure ?_
    rintro s ⟨members, member⟩
    refine ⟨members, ?_⟩
    intro taken offered
    cases offered
    exact member data same
  · split <;> exact safe_fail
  · split
    · refine safe_update_bind (fun s => self.FromMembers s) (fun _ holds => holds.1) ?_
      refine safe_pure ?_
      intro s members
      simpa using members
    · exact safe_fail
  · exact safe_fail

theorem safe_receive :
    Safe (fun s : TaskState S => self.FromMembers s) (self.receive transport)
      fun data s => self.FromMembers s ∧ data.sender ∈ self.participants := by
  refine safe_read.bind ?_
  intro events
  refine Safe.before (P := self.FromMembers) ?_ fun _ holds => holds.1
  refine safe_turns (I := fun _ s => self.FromMembers s) ?_ _ ()
  intro _
  refine (safe_receiveOne wired).bind ?_
  intro received
  refine safe_pure ?_
  rintro s ⟨members, member⟩
  cases received with
  | none => exact members
  | some data => exact ⟨members, member data rfl⟩

theorem safe_initializeAllParticipantsConnections :
    Safe I (self.initializeAllParticipantsConnections transport) fun _ => I := by
  refine safe_forM ?_
  intro participant listed
  split
  · exact safe_pure fun _ holds => holds
  · rename_i other
    have versioned := wired.covered participant listed other
    refine (safe_connectivity (wired.known participant versioned)).bind ?_
    intro _
    refine (safe_unwrap (AList.lookup_isSome.mpr versioned)).bind ?_
    intro version
    split
    · exact safe_pure fun _ holds => holds.1
    · exact safe_fail
    · exact ((safe_communicateFailure _).before fun _ _ => trivial).bind fun _ => safe_fail
    · exact safe_wait

end

/-- Every other listed participant is connected, in the version the channel was made with. -/
def Connected (transport : Transport) (self : NetworkTaskChannel) : Prop :=
  ∀ id ∈ self.participants, id ≠ self.myParticipantId →
    ∃ version, self.connectionVersions.lookup id = some version ∧
      transport.waitForConnection id version = .established

theorem initializeAllParticipantsConnections_eq_ok (wired : self.Wired transport.transportSender) :
    self.initializeAllParticipantsConnections transport s = (.ok (), t) ↔
      self.Connected transport ∧ s = t := by
  refine forM_eq_ok ?_
  intro id listed s t
  split
  · rename_i mine
    simp [mine]
  · rename_i other
    have versioned := wired.covered id listed other
    obtain ⟨current, reached⟩ := Option.isSome_iff_exists.mp
      (AList.lookup_isSome.mpr (wired.known id versioned))
    obtain ⟨version, found⟩ := Option.isSome_iff_exists.mp (AList.lookup_isSome.mpr versioned)
    simp only [TlsMeshSender.connectivity, reached, found, bind_eq_ok, unwrap_eq_ok,
      Option.some.injEq, ne_eq, other, not_false_eq_true, forall_const, exists_eq_left']
    cases waited : transport.waitForConnection id version with
    | established => simp [waited]
    | failed error => simp [waited]
    | timedOut => simp [waited, bind_eq_ok]
    | waiting => simp [waited]

/-- Once everybody is connected, a follower's frame has only the computation's panics. -/
theorem panics_performLeaderCentricComputation_iff {T : Type} {compute : Task S T}
    (wired : self.Wired transport.transportSender) (follows : self.isLeader = false) :
    (self.performLeaderCentricComputation transport compute leaderWaitsForSuccess).Panics s ↔
      self.Connected transport ∧ compute.Panics s := by
  unfold performLeaderCentricComputation
  simp only [follows, Bool.false_eq_true, if_false, Bool.and_false, Bool.not_false, Bool.true_and]
  have connecting : ¬ (self.initializeAllParticipantsConnections transport).Panics s :=
    (safe_initializeAllParticipantsConnections (I := fun _ => True) wired s trivial).1
  have computing : (compute.onFailure (self.communicateFailure transport)).Panics s ↔
      compute.Panics s := panics_onFailure_iff fun e t => (safe_communicateFailure e t trivial).1
  have reporting : ∀ (result : T) (t : TaskState S),
      ¬ (if leaderWaitsForSuccess then
          self.communicateSuccess transport >>= fun _ => pure result
        else pure result : Task S T).Panics t := by
    intro result t
    split
    · rw [panics_bind_iff]
      rintro (panics | ⟨_, _, _, panics⟩)
      · exact (safe_communicateSuccess t trivial).1 panics
      · exact not_panics_pure panics
    · exact not_panics_pure
  simp only [panics_bind_iff, connecting, false_or, reporting, and_false, exists_false,
    or_false]
  constructor
  · rintro ⟨_, t, ready, panics⟩
    obtain ⟨connected, rfl⟩ := (initializeAllParticipantsConnections_eq_ok wired).mp ready
    exact ⟨connected, computing.mp panics⟩
  · rintro ⟨connected, panics⟩
    exact ⟨(), s, (initializeAllParticipantsConnections_eq_ok wired).mpr ⟨connected, rfl⟩,
      computing.mpr panics⟩

/-! ## What a task maintains

An invariant of the task's state that sending, taking in an event and counting a Success keep is
kept by everything a task does with its channel. -/

structure Undisturbed (I : TaskState S → Prop) : Prop where
  sends : ∀ s sent, I s → I { s with sent := sent }
  takes : ∀ s event pending, s.incoming = event :: pending → I s → I { s with incoming := pending }
  counts : ∀ s channelId sender pending,
    s.incoming = .received ⟨sender, ⟨channelId, .success⟩⟩ :: pending → I s →
      I { s with
        incoming := pending
        successfulParticipants := s.successfulParticipants.insert sender }

namespace Undisturbed

theorem sendRaw (undisturbed : Undisturbed I) :
    Maintains I (self.sendRaw transport recipientId message) := by
  refine maintains_ofExcept.bind fun _ => ?_
  refine maintains_ofExcept.bind fun _ => ?_
  refine maintains_ofExcept.bind fun _ => ?_
  exact maintains_update fun s holds => undisturbed.sends s _ holds

theorem communicateFailure (undisturbed : Undisturbed I) :
    Maintains I (self.communicateFailure transport err) := by
  unfold NetworkTaskChannel.communicateFailure
  dsimp only
  split
  · refine maintains_forM fun participant _ => ?_
    split
    · exact maintains_pure
    · exact undisturbed.sendRaw.ignoreFailure
  · exact undisturbed.sendRaw.ignoreFailure

end Undisturbed

theorem keeps_anyInterrupted :
    Keeps id (anyInterrupted transport interrupted ids : Task S Bool) := by
  induction ids with
  | nil => exact keeps_pure
  | cons id ids ih =>
    refine keeps_unwrap.bind fun _ => ?_
    split
    · exact keeps_pure
    · exact ih

/-- Where a message is returned, it was the first event of a state with the invariant. -/
theorem Undisturbed.awaitMessage (undisturbed : Undisturbed I)
    (pending : List ChannelEvent) (holds : I s) (isPending : s.incoming = pending) :
    I (self.awaitMessage transport pending s).2 ∧
      ∀ message t, self.awaitMessage transport pending s = (.ok message, t) →
        ∃ u, I u ∧ u.incoming = .received message :: t.incoming ∧
          t = { u with incoming := t.incoming } := by
  induction pending generalizing s with
  | nil => exact ⟨holds, by simp [NetworkTaskChannel.awaitMessage]⟩
  | cons event pending ih =>
    have next := undisturbed.takes s event pending isPending holds
    cases event with
    | received message =>
      refine ⟨next, ?_⟩
      intro other t returned
      cases returned
      exact ⟨s, holds, isPending, rfl⟩
    | timer interrupted =>
      unfold NetworkTaskChannel.awaitMessage
      rw [bind_of_ok (a := ()) (update_eq_ok.mpr rfl)]
      rcases looked : anyInterrupted transport interrupted self.connectionVersions.keys
        { s with incoming := pending } with ⟨stop | broken, t⟩
      · have same := keeps_anyInterrupted.after looked
        cases same
        rw [bind_of_error looked]
        exact ⟨next, by simp⟩
      · have same := keeps_anyInterrupted.after looked
        cases same
        rw [bind_of_ok looked]
        split
        · exact ⟨next, by simp⟩
        · exact ih next rfl
    | closed => exact ⟨holds, by simp [NetworkTaskChannel.awaitMessage]⟩
    | timeout => exact ⟨holds, by simp [NetworkTaskChannel.awaitMessage]⟩

namespace Undisturbed

theorem receiveOne (undisturbed : Undisturbed I) : Maintains I (self.receiveOne transport) := by
  have raw : Maintains I (self.receiveRaw transport) :=
    fun s holds => (undisturbed.awaitMessage s.incoming holds rfl).1
  refine raw.bind_of ?_
  intro message s t holds returned kept
  obtain ⟨u, before, first, same⟩ :=
    (undisturbed.awaitMessage s.incoming holds rfl).2 message t returned
  obtain ⟨sender, channelId, kind⟩ := message
  cases kind with
  | computation | start => exact kept
  | abort =>
    dsimp only
    split <;> exact kept
  | success =>
    dsimp only
    split
    · rw [same]
      exact undisturbed.counts u channelId sender t.incoming first before
    · exact kept

theorem receive (undisturbed : Undisturbed I) : Maintains I (self.receive transport) := by
  refine maintains_read.bind fun pending => ?_
  refine maintains_turns (fun _ => ?_) _ _
  exact undisturbed.receiveOne.bind fun _ => maintains_pure

theorem waitForFollowersToSucceed (undisturbed : Undisturbed I) :
    Maintains I (self.waitForFollowersToSucceed transport) := by
  unfold NetworkTaskChannel.waitForFollowersToSucceed
  split
  · exact maintains_fail
  · refine maintains_read.bind fun pending => ?_
    refine maintains_turns (fun _ => ?_) _ _
    split
    · exact maintains_panic
    · refine maintains_read.bind fun counted => ?_
      split
      · exact undisturbed.receiveOne.bind fun _ => maintains_pure
      · exact maintains_pure

theorem initializeAllParticipantsConnections (undisturbed : Undisturbed I) :
    Maintains I (self.initializeAllParticipantsConnections transport) := by
  refine maintains_forM fun participant _ => ?_
  split
  · exact maintains_pure
  · refine maintains_unwrap.bind fun _ => ?_
    refine maintains_unwrap.bind fun version => ?_
    split
    · exact maintains_pure
    · exact maintains_fail
    · exact undisturbed.communicateFailure.bind fun _ => maintains_fail
    · exact maintains_wait

theorem performLeaderCentricComputation (undisturbed : Undisturbed I) {T : Type}
    {compute : Task S T} (computes : Maintains I compute) :
    Maintains I
      (self.performLeaderCentricComputation transport compute leaderWaitsForSuccess) := by
  have succeeds : Maintains I (self.communicateSuccess transport) := by
    unfold communicateSuccess
    split
    · exact maintains_fail
    · exact undisturbed.sendRaw
  have reports : ∀ result : T, Maintains I
      (if !self.isLeader && leaderWaitsForSuccess then
        self.communicateSuccess transport >>= fun _ => pure result
      else pure result) := by
    intro result
    split
    · exact succeeds.bind fun _ => maintains_pure
    · exact maintains_pure
  have finishes : Maintains I (do
      let result ← compute.onFailure (self.communicateFailure transport)
      if leaderWaitsForSuccess && self.isLeader then
        (self.waitForFollowersToSucceed transport).onFailure (self.communicateFailure transport)
      else pure ()
      if !self.isLeader && leaderWaitsForSuccess then self.communicateSuccess transport
      else pure ()
      pure result) := by
    refine (computes.onFailure fun _ => undisturbed.communicateFailure).bind fun result => ?_
    dsimp only
    split
    · exact (undisturbed.waitForFollowersToSucceed.onFailure fun _ =>
        undisturbed.communicateFailure).bind fun _ => reports result
    · exact reports result
  unfold NetworkTaskChannel.performLeaderCentricComputation
  dsimp only
  split
  · exact finishes
  · exact undisturbed.initializeAllParticipantsConnections.bind fun _ => finishes

end Undisturbed

end NetworkTaskChannel

end MpcNetwork.Node.Network
