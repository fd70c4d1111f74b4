import MpcNetwork.Lib.Views
import MpcNetwork.Node.Network.Successes

/-! # Messages of peers that are not on the list

A channel takes in whatever peers of the network send on its id.  A message of a peer that is not
on the participant list ends the computation, makes the driver panic or is counted as a follower's
success; only a Success that nobody waits for is without effect.
-/

namespace MpcNetwork.Node.Network

open Jobs Jobs.Job Threshold List

def onStores {S T : Type} (job : Job Error S T) : Task S T :=
  within TaskState.stores (fun stores s => { s with stores }) job

namespace NetworkTaskChannel

variable {S T : Type}

/-- The computations of a channel work on the stores and run protocols. -/
inductive Computes (transport : Transport) (self : NetworkTaskChannel) :
    {T : Type} → Task S T → Prop where
  | onStores {T : Type} (job : Job Error S T) : Computes transport self (Network.onStores job)
  | runProtocol {σ T : Type} (protocol : Protocol σ T) (s : σ) :
      Computes transport self (self.runProtocol transport protocol s)
  | bind {T U : Type} {job : Task S T} {next : T → Task S U} (first : Computes transport self job)
      (rest : ∀ result, Computes transport self (next result)) :
      Computes transport self (job >>= next)

namespace Computes

variable {self : NetworkTaskChannel}

theorem pure (result : T) : self.Computes transport (Pure.pure result : Task S T) :=
  .onStores (Pure.pure result)

theorem panic : self.Computes transport (Job.panic : Task S T) := .onStores Job.panic

theorem read (f : S → T) : self.Computes transport (Job.read fun s : TaskState S => f s.stores) :=
  .onStores (Job.read f)

theorem update (f : S → S) :
    self.Computes transport (Job.update fun s : TaskState S => { s with stores := f s.stores }) :=
  .onStores (Job.update f)

theorem ofExcept (result : Except Error T) :
    self.Computes transport (Job.ofExcept result : Task S T) := by
  cases result with
  | error error => exact .onStores (fail error)
  | ok result => exact .pure result

theorem unwrap (result : Option T) : self.Computes transport (Job.unwrap result : Task S T) := by
  cases result with
  | none => exact .panic
  | some result => exact .pure result

theorem forM {α : Type} {xs : List α} {body : α → Task S PUnit}
    (each : ∀ x ∈ xs, self.Computes transport (body x)) :
    self.Computes transport (xs.forM body) := by
  induction xs with
  | nil => exact .pure PUnit.unit
  | cons x xs ih =>
    refine .bind (each x mem_cons_self) fun _ => ?_
    exact ih fun y inside => each y (mem_cons_of_mem x inside)

end Computes

/-- Everything but the messages of peers that are not listed. -/
def hears (self : NetworkTaskChannel) : ChannelEvent → Bool
  | .received message => message.sender ∈ self.participants
  | _ => true

/-- A task that begins with these events to come. -/
def beginning (events : List ChannelEvent) (stores : S) : TaskState S := ⟨events, [], [], stores⟩

def outcome (job : Task S T) (s : TaskState S) :
    Except (Stop Error) T × List (ParticipantId × MpcMessage) :=
  ((job s).1, (job s).2.sent)

/-- What a computation comes to depends only on the messages of the listed peers. -/
def Insulated (self : NetworkTaskChannel) (transportSender : TlsMeshSender)
    (leaderWaitsForSuccess : Bool) (outside : MpcPeerMessage → Prop) : Prop :=
  ∀ (transport : Transport) (S T : Type) (compute : Task S T) (stores : S)
    (first second : List ChannelEvent), transport.transportSender = transportSender →
    self.Computes transport compute → first.filter self.hears = second.filter self.hears →
    (∀ message, .received message ∈ first ++ second → message.sender ∉ self.participants →
      outside message) →
    outcome (self.performLeaderCentricComputation transport compute leaderWaitsForSuccess)
        (beginning first stores) =
      outcome (self.performLeaderCentricComputation transport compute leaderWaitsForSuccess)
        (beginning second stores)

section Overlooks

variable {transport : Transport} {self : NetworkTaskChannel}

/-- Leave out what peers that are not listed have sent. -/
def members (self : NetworkTaskChannel) (s : TaskState S) : TaskState S :=
  { s with
    incoming := s.incoming.filter self.hears
    successfulParticipants := s.successfulParticipants.filter fun id => id ∈ self.participants }

def OnlySuccess (self : NetworkTaskChannel) (s : TaskState S) : Prop :=
  ∀ message, .received message ∈ s.incoming → message.sender ∉ self.participants →
    message.message.kind = .success

theorem OnlySuccess.rest {rest : List ChannelEvent}
    (holds : self.OnlySuccess s) (pending : s.incoming = event :: rest) :
    self.OnlySuccess { s with incoming := rest } := by
  intro message inside
  refine holds message ?_
  rw [pending]
  exact mem_cons_of_mem event inside

theorem overlooks_sendRaw :
    Overlooks self.OnlySuccess self.members
      (self.sendRaw transport recipientId message : Task S Unit) := by
  refine overlooks_ofExcept.bind fun _ => ?_
  refine overlooks_ofExcept.bind fun _ => ?_
  refine overlooks_ofExcept.bind fun _ => ?_
  exact overlooks_update (fun _ holds => holds) fun _ _ => rfl

theorem overlooks_communicateFailure :
    Overlooks self.OnlySuccess self.members (self.communicateFailure transport err : Task S Unit) := by
  unfold communicateFailure
  dsimp only
  split
  · refine overlooks_forM fun participant _ => ?_
    split
    · exact overlooks_pure
    · exact overlooks_sendRaw.ignoreFailure
  · exact overlooks_sendRaw.ignoreFailure

/-- A Success is counted; whose it is matters only if they are listed. -/
theorem filter_insert_outsider {ids counted : List ParticipantId} {id : ParticipantId}
    (unlisted : id ∉ ids) :
    (counted.insert id).filter (fun id => id ∈ ids) = counted.filter fun id => id ∈ ids := by
  by_cases known : id ∈ counted
  · rw [insert_of_mem known]
  · rw [insert_of_not_mem known, filter_cons_of_neg]
    simpa using unlisted

theorem filter_insert_member {ids counted : List ParticipantId} {id : ParticipantId}
    (listed : id ∈ ids) :
    (counted.insert id).filter (fun id => id ∈ ids) =
      (counted.filter fun id => id ∈ ids).insert id := by
  by_cases known : id ∈ counted
  · rw [insert_of_mem known, insert_of_mem (mem_filter.mpr ⟨known, by simpa⟩)]
  · have unknown : id ∉ counted.filter fun id => id ∈ ids :=
      fun inside => known (mem_filter.mp inside).1
    rw [insert_of_not_mem known, insert_of_not_mem unknown, filter_cons_of_pos]
    simpa using listed

theorem overlooks_anyInterrupted :
    Overlooks self.OnlySuccess self.members
      (anyInterrupted transport interrupted ids : Task S Bool) := by
  induction ids with
  | nil => exact overlooks_pure
  | cons id ids ih =>
    refine overlooks_unwrap.bind fun _ => ?_
    split
    · exact overlooks_pure
    · exact ih

theorem receiveRaw_received (pending : s.incoming = .received message :: rest) :
    self.receiveRaw transport s = (.ok message, { s with incoming := rest }) := by
  change self.awaitMessage transport s.incoming s = _
  rw [pending]
  rfl

theorem receiveRaw_timer (pending : s.incoming = .timer interrupted :: rest) :
    self.receiveRaw transport s = (do
      let broken ← anyInterrupted transport interrupted self.connectionVersions.keys
      if broken then
        fail (.anyhow "Computation cannot succeed as not all participants are alive anymore")
      else self.receiveRaw transport : Task S MpcPeerMessage) { s with incoming := rest } := by
  change self.awaitMessage transport s.incoming s = _
  rw [pending, awaitMessage, update_bind]
  rcases looked : anyInterrupted transport interrupted self.connectionVersions.keys
    { s with incoming := rest } with ⟨stop | broken, t⟩
  · rw [bind_of_error looked, bind_of_error looked]
  · have same := keeps_anyInterrupted.after looked
    cases same
    rw [bind_of_ok looked, bind_of_ok looked]
    cases broken <;> rfl

/-- The next message is one of an unlisted peer; from the view it is the one after it. -/
structure Passes (transport : Transport) (channel : NetworkTaskChannel) (s : TaskState S)
    (message : MpcPeerMessage) (t : TaskState S) : Prop where
  received : channel.receiveRaw transport s = (.ok message, t)
  unlisted : message.sender ∉ channel.participants
  success : message.message.kind = .success
  kept : channel.OnlySuccess t
  idle : channel.receiveRaw transport (channel.members s) = channel.receiveRaw transport (channel.members t)
  fewer : (channel.members t).incoming.length ≤ (channel.members s).incoming.length

/-- The next message is one of a listed peer, or there is none, with and without the others. -/
structure Agrees (transport : Transport) (channel : NetworkTaskChannel) (s : TaskState S) : Prop where
  overlooks : OverlooksAt channel.OnlySuccess channel.members (channel.receiveRaw transport) s
  listed : ∀ message t, channel.receiveRaw transport s = (.ok message, t) →
    message.sender ∈ channel.participants

theorem Agrees.of_stopped
    (stopped : self.receiveRaw transport s = (.error stop, t))
    (seen : self.receiveRaw transport (self.members s) = (.error stop, self.members t))
    (kept : self.OnlySuccess t) : self.Agrees transport s := by
  refine ⟨⟨?_, ?_⟩, ?_⟩
  · rw [stopped]
    exact kept
  · rw [stopped, seen]
  · rw [stopped]
    simp

theorem Agrees.of_ended {s : TaskState S}
    (holds : self.OnlySuccess s) (pending : s.incoming = events)
    (ends : ∀ s : TaskState S, self.awaitMessage transport events s = (.error stop, s))
    (endsSeen : ∀ s : TaskState S,
      self.awaitMessage transport (events.filter self.hears) s = (.error stop, s)) :
    self.Agrees transport s := by
  have stopped : self.receiveRaw transport s = (.error stop, s) := by
    change self.awaitMessage transport s.incoming s = _
    rw [pending, ends]
  have seen : self.receiveRaw transport (self.members s) = (.error stop, self.members s) := by
    change self.awaitMessage transport (s.incoming.filter self.hears) _ = _
    rw [pending, endsSeen]
  exact .of_stopped stopped seen holds

theorem Agrees.of_same (agrees : self.Agrees transport t)
    (whole : self.receiveRaw transport s = self.receiveRaw transport t)
    (part : self.receiveRaw transport (self.members s) =
      self.receiveRaw transport (self.members t)) : self.Agrees transport s := by
  refine ⟨?_, ?_⟩
  · unfold OverlooksAt
    rw [whole, part]
    exact agrees.overlooks
  · rw [whole]
    exact agrees.listed

theorem Passes.of_same
    (passes : self.Passes transport t message u)
    (whole : self.receiveRaw transport s = self.receiveRaw transport t)
    (part : self.receiveRaw transport (self.members s) =
      self.receiveRaw transport (self.members t))
    (fewer : (self.members t).incoming.length ≤ (self.members s).incoming.length) :
    self.Passes transport s message u where
  received := whole.trans passes.received
  unlisted := passes.unlisted
  success := passes.success
  kept := passes.kept
  idle := part.trans passes.idle
  fewer := passes.fewer.trans fewer

/-- The next message is the same without the unlisted peers, or it is their Success. -/
theorem receiveRaw_members (events : List ChannelEvent) {s : TaskState S}
    (pending : s.incoming = events) (holds : self.OnlySuccess s) :
    self.Agrees transport s ∨ ∃ message t, self.Passes transport s message t := by
  induction events generalizing s with
  | nil => exact .inl (.of_ended holds pending (fun _ => rfl) fun _ => rfl)
  | cons event events ih =>
    have after := holds.rest pending
    cases event with
    | received message =>
      have received : self.receiveRaw transport s = (.ok message, { s with incoming := events }) :=
        receiveRaw_received pending
      by_cases listed : message.sender ∈ self.participants
      · refine .inl ⟨⟨?_, ?_⟩, ?_⟩
        · rw [received]
          exact after
        · rw [received]
          refine receiveRaw_received ?_
          change s.incoming.filter _ = _
          rw [pending, filter_cons_of_pos (by simpa [hears] using listed)]
        · intro other t same
          cases received.symm.trans same
          exact listed
      · have skipped : self.members s = self.members { s with incoming := events } := by
          unfold members
          rw [pending, filter_cons_of_neg (by simpa [hears] using listed)]
        refine .inr ⟨message, _, received, listed, ?_, after, ?_, ?_⟩
        · refine holds message ?_ listed
          rw [pending]
          exact mem_cons_self
        · rw [skipped]
        · rw [skipped]
    | timer interrupted =>
      have seen : (self.members s).incoming = .timer interrupted :: events.filter self.hears := by
        change s.incoming.filter _ = _
        rw [pending, filter_cons_of_pos rfl]
      have whole : self.receiveRaw transport s = _ := receiveRaw_timer pending
      have part : self.receiveRaw transport (self.members s) = _ := receiveRaw_timer seen
      have overlooks : OverlooksAt self.OnlySuccess self.members (anyInterrupted transport
        interrupted self.connectionVersions.keys) _ := overlooks_anyInterrupted _ after
      have looks := overlooks.2
      rcases looked : anyInterrupted transport interrupted self.connectionVersions.keys
        { s with incoming := events } with ⟨stop | broken, t⟩
      all_goals
        have same := keeps_anyInterrupted.after looked
        cases same
        rw [looked] at looks
      · have whole := whole.trans (bind_of_error looked)
        have part := part.trans (bind_of_error looks)
        exact .inl (.of_stopped whole part after)
      · have whole := whole.trans (bind_of_ok looked)
        have part := part.trans (bind_of_ok looks)
        cases broken with
        | true => exact .inl (.of_stopped whole part after)
        | false =>
          rcases ih rfl after with agrees | ⟨message, t, passes⟩
          · exact .inl (agrees.of_same whole part)
          · refine .inr ⟨message, t, passes.of_same whole part ?_⟩
            rw [seen]
            exact Nat.le_succ _
    | closed => exact .inl (.of_ended holds pending (fun _ => rfl) fun _ => rfl)
    | timeout => exact .inl (.of_ended holds pending (fun _ => rfl) fun _ => rfl)

theorem receiveOne_members (leads : self.isLeader = true) {s : TaskState S}
    (agrees : self.Agrees transport s) :
    OverlooksAt self.OnlySuccess self.members (self.receiveOne transport) s := by
  refine agrees.overlooks.bind ?_
  intro message t returned kept
  have listed := agrees.listed message t returned
  obtain ⟨sender, channelId, kind⟩ := message
  cases kind with
  | computation data => exact ⟨kept, rfl⟩
  | start start => exact ⟨kept, rfl⟩
  | abort err =>
    dsimp only
    split <;> exact ⟨kept, rfl⟩
  | success =>
    dsimp only
    rw [if_pos leads]
    have counted : self.members { t with
          successfulParticipants := t.successfulParticipants.insert sender } =
        { self.members t with
          successfulParticipants := (self.members t).successfulParticipants.insert sender } := by
      simp only [members, filter_insert_member listed]
    exact ⟨kept, congrArg (Prod.mk _) counted.symm⟩

theorem receiveOne_passes (leads : self.isLeader = true)
    (passes : self.Passes transport s message t) :
    self.receiveOne transport s = (.ok none, { t with
      successfulParticipants := t.successfulParticipants.insert message.sender }) := by
  have success := passes.success
  rw [receiveOne, bind_of_ok passes.received]
  simp only [success, leads, if_true]
  rfl

theorem receiveOne_idle
    (passes : self.Passes transport s message t) :
    self.receiveOne transport (self.members s) = self.receiveOne transport (self.members t) := by
  rw [receiveOne]
  change Job.bind _ _ _ = Job.bind _ _ _
  rw [Job.bind, Job.bind, passes.idle]

theorem undisturbed_fewer (n : Nat) :
    Undisturbed fun s : TaskState S => s.incoming.length ≤ n := by
  have shorter : ∀ (s : TaskState S) event pending, s.incoming = event :: pending →
      s.incoming.length ≤ n → pending.length ≤ n := by
    intro s event pending isPending few
    rw [isPending, length_cons] at few
    omega
  exact ⟨fun _ _ few => few, shorter, fun s _ _ pending => shorter s _ pending⟩

theorem shorter_of_receiveOne
    (returned : self.receiveOne transport s = (.ok received, t)) :
    t.incoming.length < s.incoming.length := by
  rw [receiveOne, bind_eq_ok] at returned
  obtain ⟨message, u, raw, handled⟩ := returned
  obtain ⟨v, few, first, _⟩ := ((undisturbed_fewer s.incoming.length).awaitMessage s.incoming
    (le_refl _) rfl).2 message u raw
  have shorter : u.incoming.length < s.incoming.length := by
    rw [first] at few
    exact few
  obtain ⟨sender, channelId, kind⟩ := message
  cases kind with
  | computation data =>
    obtain ⟨_, rfl⟩ := pure_eq_ok.mp handled
    exact shorter
  | start start => simp at handled
  | abort err =>
    dsimp only at handled
    split at handled <;> simp at handled
  | success =>
    dsimp only at handled
    split at handled
    · rw [update_bind, pure_eq_ok] at handled
      rw [← handled.2]
      exact shorter
    · simp at handled

theorem overlooks_receive (leads : self.isLeader = true) :
    Overlooks self.OnlySuccess self.members
      (self.receive transport : Task S TaskChannelComputationData) := by
  refine overlooks_turns (fun s : TaskState S => s.incoming.length) ?_ ?_ ()
  · intro _ s _ t turned
    obtain ⟨received, u, returned, rest⟩ := bind_eq_ok.mp turned
    obtain ⟨_, rfl⟩ := pure_eq_ok.mp rest
    exact shorter_of_receiveOne returned
  · intro _ s holds
    have next : self.Agrees transport s ∨ ∃ message t, self.Passes transport s message t :=
      receiveRaw_members s.incoming rfl holds
    rcases next with agrees | ⟨message, t, passes⟩
    · exact .inl ((receiveOne_members leads agrees).bind fun _ u _ kept => overlooks_pure u kept)
    · have uncounted : self.members { t with
          successfulParticipants := t.successfulParticipants.insert message.sender } =
          self.members t := by
        simp only [members, filter_insert_outsider passes.unlisted]
      refine .inr ⟨_, bind_of_ok (receiveOne_passes leads passes), passes.kept, ?_, ?_⟩
      · rw [uncounted]
        change Job.bind _ _ _ = Job.bind _ _ _
        rw [Job.bind, Job.bind, receiveOne_idle passes]
      · rw [uncounted]
        exact passes.fewer

theorem shorter_of_receive {s t : TaskState S}
    (returned : self.receive transport s = (.ok data, t)) :
    t.incoming.length < s.incoming.length := by
  refine turns_lt (fun s : TaskState S => s.incoming.length) ?_ returned
  intro _ s _ t turned
  obtain ⟨received, u, taken, rest⟩ := bind_eq_ok.mp turned
  obtain ⟨_, rfl⟩ := pure_eq_ok.mp rest
  exact shorter_of_receiveOne taken

theorem overlooks_sendBatch :
    Overlooks self.OnlySuccess self.members
      (self.sendBatch transport messages : Task S Unit) := by
  unfold sendBatch
  split
  · exact overlooks_pure
  · exact overlooks_unwrap.bind fun _ => overlooks_sendRaw

theorem shorter_of_protocolTurn {σ : Type} {protocol : Protocol σ T} {s t : σ}
    {state after : TaskState S}
    (turned : self.protocolTurn transport protocol s state = (.ok (.inl t), after)) :
    after.incoming.length < state.incoming.length := by
  unfold protocolTurn at turned
  obtain ⟨⟨outbox, done, u⟩, _, poked, turned⟩ := bind_eq_ok.mp turned
  obtain ⟨_, rfl⟩ := ofExcept_eq_ok.mp poked
  obtain ⟨_, sent, sends, turned⟩ := bind_eq_ok.mp turned
  have sending : Maintains (fun t : TaskState S => t.incoming.length ≤ state.incoming.length)
      (outbox.entries.forM (self.sendBatch transport)) :=
    maintains_forM fun _ _ => (undisturbed_fewer _).sendBatch
  have few := sending.after (le_refl _) sends
  cases done with
  | some result => simp at turned
  | none =>
    obtain ⟨received, v, taken, turned⟩ := bind_eq_ok.mp turned
    have shorter := shorter_of_receive taken
    obtain ⟨next, w, absorbed, last⟩ := bind_eq_ok.mp turned
    have absorbing : Maintains (fun t : TaskState S => t.incoming.length ≤ v.incoming.length)
        (self.absorb protocol u received) :=
      maintains_unwrap.bind fun _ => maintains_ofExcept
    have same := absorbing.after (le_refl _) absorbed
    obtain ⟨_, rfl⟩ := pure_eq_ok.mp last
    omega

theorem overlooks_runProtocol (leads : self.isLeader = true) {σ : Type} {protocol : Protocol σ T}
    {s : σ} : Overlooks self.OnlySuccess self.members
      (self.runProtocol transport protocol s : Task S T) := by
  refine overlooks_turns (fun s : TaskState S => s.incoming.length) ?_ ?_ s
  · intro _ state _ after turned
    exact shorter_of_protocolTurn turned
  · intro s state holds
    refine .inl ((overlooks_ofExcept.bind fun poked => ?_) state holds)
    obtain ⟨outbox, done, t⟩ := poked
    refine (overlooks_forM fun messages _ => overlooks_sendBatch).bind fun _ => ?_
    cases done with
    | some result => exact overlooks_pure
    | none =>
      refine (overlooks_receive leads).bind fun received => ?_
      refine Overlooks.bind ?_ fun _ => overlooks_pure
      exact overlooks_unwrap.bind fun _ => overlooks_ofExcept

theorem overlooks_onStores : Overlooks self.OnlySuccess self.members (onStores job) :=
  fun _ holds => ⟨holds, rfl⟩

theorem Computes.overlooks (leads : self.isLeader = true) {compute : Task S T}
    (computes : self.Computes transport compute) :
    Overlooks self.OnlySuccess self.members compute := by
  induction computes with
  | onStores job => exact overlooks_onStores
  | runProtocol protocol s => exact overlooks_runProtocol leads
  | bind _ _ first rest => exact first.bind rest

theorem overlooks_waitForFollowersToSucceed (alone : self.participants.length ≤ 1) :
    Overlooks self.OnlySuccess self.members
      (self.waitForFollowersToSucceed transport : Task S Unit) := by
  have nobody : self.participants.length - 1 = 0 := by omega
  unfold waitForFollowersToSucceed
  simp only [nobody, Nat.not_lt_zero, if_false]
  split
  · exact overlooks_fail
  · refine overlooks_turns (fun s : TaskState S => s.incoming.length) ?_ ?_ ()
    · intro _ s _ t turned
      split at turned
      · simp at turned
      · simp [bind_eq_ok] at turned
    · intro _ s holds
      left
      split
      · exact overlooks_panic s holds
      · exact ⟨holds, rfl⟩

theorem overlooks_performLeaderCentricComputation (leads : self.isLeader = true)
    (computes : Overlooks self.OnlySuccess self.members compute)
    (nobody : leaderWaitsForSuccess = false ∨ self.participants.length ≤ 1) :
    Overlooks self.OnlySuccess self.members
      (self.performLeaderCentricComputation transport compute leaderWaitsForSuccess) := by
  unfold performLeaderCentricComputation
  simp only [leads, if_true, Bool.and_true, Bool.not_true, Bool.false_and, Bool.false_eq_true,
    if_false]
  refine (computes.onFailure fun _ => overlooks_communicateFailure).bind fun result => ?_
  split
  · rename_i waits
    have alone := nobody.resolve_left (by simp [waits])
    exact ((overlooks_waitForFollowersToSucceed alone).onFailure fun _ =>
      overlooks_communicateFailure).bind fun _ => overlooks_pure
  · exact overlooks_pure

end Overlooks

section Insulated

variable {self : NetworkTaskChannel}

/-- A message that makes no difference, whatever is computed. -/
def Harmless (self : NetworkTaskChannel) (leaderWaitsForSuccess : Bool)
    (message : MpcPeerMessage) : Prop :=
  message.message.kind = .success ∧ self.isLeader = true ∧
    (leaderWaitsForSuccess = false ∨ self.participants.length ≤ 1)

theorem insulated_of_harmless
    (harmless : ∀ message, outside message → message.sender ∉ self.participants →
      self.Harmless leaderWaitsForSuccess message) :
    self.Insulated transportSender leaderWaitsForSuccess outside := by
  intro transport S T compute stores first second _ computes alike reaches
  by_cases quiet : ∃ message, .received message ∈ first ++ second ∧
      message.sender ∉ self.participants
  · obtain ⟨message, received, unlisted⟩ := quiet
    obtain ⟨_, leads, nobody⟩ := harmless message (reaches message received unlisted) unlisted
    have overlooks : Overlooks self.OnlySuccess self.members
        (self.performLeaderCentricComputation transport compute leaderWaitsForSuccess) :=
      overlooks_performLeaderCentricComputation leads (computes.overlooks leads) nobody
    have only : ∀ events, events ⊆ first ++ second → self.OnlySuccess (beginning events stores) := by
      intro events part message received unlisted
      exact (harmless message (reaches message (part received) unlisted) unlisted).1
    have same := overlooks.same (only first (subset_append_left _ _))
      (only second (subset_append_right _ _)) (by simp only [members, beginning, alike])
    have sent := congrArg TaskState.sent same.2
    exact Prod.ext same.1 sent
  · have heard : ∀ events, events ⊆ first ++ second → events.filter self.hears = events := by
      intro events part
      refine filter_eq_self.mpr fun event inside => ?_
      cases event with
      | received message =>
        by_contra deaf
        exact quiet ⟨message, part inside, by simpa [hears] using deaf⟩
      | timer | closed | timeout => rfl
    rw [heard first (subset_append_left _ _), heard second (subset_append_right _ _)]
      at alike
    rw [alike]

/-- Nobody fails to send, and everybody is connected. -/
def reliable (transportSender : TlsMeshSender) : Transport where
  transportSender := transportSender
  waitForConnection _ _ := .established
  sendMpcMessage _ _ _ := .ok ()
  describe _ := ""

/-- A protocol that sends nothing: it waits for a message, or it is done. -/
def silent (done : Option Unit) : Protocol Unit Unit where
  poke _ := .ok (done.elim .wait .returned, ())
  message _ _ _ := .ok ()
  parties _ := []
  backlog _ := 0
  backlog_many := by cases done <;> simp
  backlog_private := by cases done <;> simp
  private_to := by cases done <;> simp
  parties_poke _ := rfl
  parties_message _ := rfl

theorem runProtocol_silent_waits :
    self.runProtocol transport (silent none) () (beginning [] stores) =
      (.error .pending, beginning [] stores) := rfl

theorem protocolTurn_silent :
    self.protocolTurn transport (silent none) () s = (do
      let received ← self.receive transport
      let s ← self.absorb (silent none) () received
      pure (.inl s) : Task S (Unit ⊕ Unit)) s := rfl

theorem runProtocol_silent_stops (stopped : self.receive transport s = (.error stop, t)) :
    self.runProtocol transport (silent none) () s = (.error stop, t) := by
  rw [runProtocol, read_bind, turns, bind_of_error]
  rw [protocolTurn_silent, bind_of_error stopped]

theorem receive_stops (stopped : self.receiveOne transport s = (.error stop, t)) :
    self.receive transport s = (.error stop, t) := by
  rw [receive, read_bind, turns, bind_of_error]
  rw [bind_of_error stopped]

theorem receive_returns (returned : self.receiveOne transport s = (.ok (some data), t)) :
    self.receive transport s = (.ok data, t) := by
  rw [receive, read_bind, turns]
  refine (bind_of_ok (a := .inr data) (t := t) ?_).trans rfl
  exact bind_of_ok returned

theorem sendRaw_ignored (s : TaskState S) :
    ∃ t, (self.sendRaw transport recipientId message).ignoreFailure s = (.ok (), t) := by
  unfold sendRaw
  generalize Fallible.found _ (self.connectionVersions.lookup recipientId) = version
  generalize Fallible.found _ (transport.transportSender.connectivities.lookup recipientId) = known
  rcases version with _ | version
  · exact ⟨s, rfl⟩
  · rcases known with _ | _
    · exact ⟨s, rfl⟩
    · have ended : ∀ posted : Except Error Unit, ∃ t, (Job.ofExcept posted >>= fun _ =>
          update fun s => { s with sent := s.sent ++ [(recipientId, message)] } :
            Task S Unit).ignoreFailure s = (.ok (), t) := by
        rintro (_ | _)
        · exact ⟨s, rfl⟩
        · exact ⟨_, rfl⟩
      exact ended ((transport.sendMpcMessage recipientId version message).mapError _)

theorem communicateFailure_returns (transport : Transport) (err : Error) (s : TaskState S) :
    ∃ t, self.communicateFailure transport err s = (.ok (), t) := by
  unfold communicateFailure
  split
  · generalize self.participants = ids
    induction ids generalizing s with
    | nil => exact ⟨s, rfl⟩
    | cons id ids ih =>
      have first : ∃ t, (if id = self.myParticipantId then pure ()
          else (self.sendRaw transport id ⟨self.channelId, .abort (transport.describe err)⟩
            ).ignoreFailure : Task S Unit) s = (.ok (), t) := by
        split
        · exact ⟨s, rfl⟩
        · exact sendRaw_ignored s
      obtain ⟨t, sent⟩ := first
      obtain ⟨u, rest⟩ := ih t
      exact ⟨u, (bind_of_ok sent).trans rest⟩
  · exact sendRaw_ignored s

theorem performLeaderCentricComputation_stops (wired : self.Wired transportSender)
    (stopped : compute s = (.error stop, t)) :
    (self.performLeaderCentricComputation (reliable transportSender) compute
      leaderWaitsForSuccess s).1 = .error stop := by
  have connected : self.initializeAllParticipantsConnections (reliable transportSender) s =
      (.ok (), s) := by
    refine (initializeAllParticipantsConnections_eq_ok wired).mpr ⟨?_, rfl⟩
    intro id listed other
    obtain ⟨version, found⟩ := Option.isSome_iff_exists.mp
      (AList.lookup_isSome.mpr (wired.covered id listed other))
    exact ⟨version, found, rfl⟩
  have handled : ∃ u, compute.onFailure (self.communicateFailure (reliable transportSender)) s =
      (.error stop, u) := by
    unfold onFailure
    rw [stopped]
    cases stop with
    | failed error =>
      obtain ⟨u, cleaned⟩ := self.communicateFailure_returns (reliable transportSender) error t
      exact ⟨u, by simp only [cleaned]⟩
    | panicked => exact ⟨t, rfl⟩
    | pending => exact ⟨t, rfl⟩
  obtain ⟨u, handled⟩ := handled
  have begun : self.performLeaderCentricComputation (reliable transportSender) compute
      leaderWaitsForSuccess s = (.error stop, u) := by
    unfold performLeaderCentricComputation
    split
    · exact bind_of_error handled
    · exact (bind_of_ok connected).trans (bind_of_error handled)
  rw [begun]

/-- A message that stops a computation which would have gone on waiting. -/
theorem runProtocol_silent_outsider (transport : Transport) (stores : S)
    (unlisted : message.sender ∉ self.participants)
    (taken : message.message.kind = .success → self.isLeader = false) :
    ∃ stop t, stop ≠ .pending ∧ self.runProtocol transport (silent none) ()
      (beginning [.received message] stores) = (.error stop, t) := by
  have received : self.receiveRaw transport (beginning [.received message] stores) =
      (.ok message, beginning [] stores) := receiveRaw_received rfl
  obtain ⟨sender, channelId, kind⟩ := message
  cases kind with
  | computation data =>
    have one : self.receiveOne transport
        (beginning [.received ⟨sender, ⟨channelId, .computation data⟩⟩] stores) =
        (.ok (some ⟨sender, data⟩), beginning [] stores) := bind_of_ok received
    have all : self.receive transport
        (beginning [.received ⟨sender, ⟨channelId, .computation data⟩⟩] stores) =
        (.ok ⟨sender, data⟩, beginning [] stores) := receive_returns one
    have panics : (self.absorb (silent none) () ⟨sender, data⟩ : Task S Unit)
        (beginning [] stores) = (.error .panicked, beginning [] stores) := by
      refine bind_of_error ?_
      unfold counters
      rw [if_neg unlisted]
      rfl
    refine ⟨.panicked, beginning [] stores, by simp, ?_⟩
    rw [runProtocol, read_bind, turns, bind_of_error]
    rw [protocolTurn_silent, bind_of_ok all, bind_of_error panics]
  | start start =>
    exact ⟨_, _, by simp, runProtocol_silent_stops (receive_stops (bind_of_ok received))⟩
  | abort err =>
    have one : ∃ error, self.receiveOne transport
        (beginning [.received ⟨sender, ⟨channelId, .abort err⟩⟩] stores) =
        (.error (.failed error), beginning [] stores) := by
      rw [receiveOne, bind_of_ok received]
      dsimp only
      split <;> exact ⟨_, rfl⟩
    obtain ⟨error, one⟩ := one
    exact ⟨_, _, by simp, runProtocol_silent_stops (receive_stops one)⟩
  | success =>
    have one : self.receiveOne transport
        (beginning [.received ⟨sender, ⟨channelId, .success⟩⟩] stores) =
        (.error (.failed (.anyhow
          "Received unexpected Success message when we are not the leader")),
          beginning [] stores) := by
      rw [receiveOne, bind_of_ok received]
      dsimp only
      rw [if_neg (by simp [taken rfl])]
      rfl
    exact ⟨_, _, by simp, runProtocol_silent_stops (receive_stops one)⟩

/-- With one follower too few, an outsider makes up the number. -/
theorem counted_outsider {members : List ParticipantId} (transport : Transport)
    (channelId : ChannelId) (leads : self.isLeader = true)
    (many : self.participants.length = members.length + 2) (once : members.Nodup)
    (unlisted : sender ∉ members) :
    outcome (self.performLeaderCentricComputation transport
        (self.runProtocol transport (silent (some ())) ()) true)
        (beginning (members.map (success channelId)) ()) ≠
      outcome (self.performLeaderCentricComputation transport
        (self.runProtocol transport (silent (some ())) ()) true)
        (beginning ((members ++ [sender]).map (success channelId)) ()) := by
  intro same
  have nonempty : self.participants ≠ [] := ne_nil_of_length_pos (by omega)
  have enlarged : (members ++ [sender]).Nodup := by
    rw [← concat_eq_append]
    exact (nodup_concat _ _).mpr ⟨unlisted, once⟩
  have late : ∃ t, self.performLeaderCentricComputation transport
      (self.runProtocol transport (silent (some ())) ()) true
      (beginning ((members ++ [sender]).map (success channelId)) ()) = (.ok (), t) :=
    performLeaderCentricComputation_success leads nonempty rfl rfl rfl enlarged (by simp [many])
  obtain ⟨t, returned⟩ := late
  have early : ∃ u, self.performLeaderCentricComputation transport
      (self.runProtocol transport (silent (some ())) ()) true
      (beginning (members.map (success channelId)) ()) = (.ok (), u) := by
    have results := congrArg Prod.fst same
    unfold outcome at results
    rw [returned] at results
    exact ⟨_, Prod.ext results rfl⟩
  obtain ⟨u, early⟩ := early
  obtain ⟨heard, enough⟩ :=
    heard_performLeaderCentricComputation leads listens_runProtocol rfl early
  have counted : u.successfulParticipants ⊆ members := by
    intro id inside
    have reported := heard.counted id inside
    rwa [beginning, successes_map_success] at reported
  have few := (subperm_of_subset heard.once counted).length_le
  omega

theorem harmless_of_insulated
    (wired : self.Wired transportSender) (distinct : self.participants.Nodup)
    (insulated : self.Insulated transportSender leaderWaitsForSuccess outside)
    (reaches : outside message) (unlisted : message.sender ∉ self.participants) :
    self.Harmless leaderWaitsForSuccess message := by
  by_contra harmful
  by_cases counts : message.message.kind = .success ∧ self.isLeader = true
  · obtain ⟨success, leads⟩ := counts
    obtain ⟨sender, channelId, kind⟩ := message
    cases success
    have waits : leaderWaitsForSuccess = true := by
      by_contra quiet
      exact harmful ⟨rfl, leads, .inl (by simpa using quiet)⟩
    have many : ¬ self.participants.length ≤ 1 := fun few => harmful ⟨rfl, leads, .inr few⟩
    subst waits
    let members := self.participants.take (self.participants.length - 2)
    have part : members ⊆ self.participants := take_subset _ _
    have length : self.participants.length = members.length + 2 := by
      simp only [members, length_take]
      omega
    refine counted_outsider (reliable transportSender) channelId leads length
      (distinct.sublist (take_sublist _ _)) (fun inside => unlisted (part inside)) ?_
    refine insulated (reliable transportSender) Unit Unit _ () _ _ rfl (.runProtocol _ _) ?_ ?_
    · rw [map_append, filter_append, map_singleton, filter_cons_of_neg,
        filter_nil, append_nil]
      simpa [hears, NetworkTaskChannel.success] using unlisted
    · intro other received foreign
      rw [← map_append, mem_map] at received
      obtain ⟨id, inside, same⟩ := received
      cases same
      rcases mem_append.mp inside with early | late
      · exact absurd (part early) foreign
      · rcases mem_append.mp late with early | last
        · exact absurd (part early) foreign
        · cases mem_singleton.mp last
          exact reaches
  · have taken : message.message.kind = .success → self.isLeader = false := by
      intro success
      by_contra leads
      exact counts ⟨success, by simpa using leads⟩
    obtain ⟨stop, t, stops, stopped⟩ :=
      runProtocol_silent_outsider (reliable transportSender) () unlisted taken
    have same := insulated (reliable transportSender) Unit Unit
      (self.runProtocol (reliable transportSender) (silent none) ()) () []
      [.received message] rfl (.runProtocol _ _) ?_ ?_
    · have results := congrArg Prod.fst same
      unfold outcome at results
      dsimp only at results
      rw [performLeaderCentricComputation_stops wired stopped,
        performLeaderCentricComputation_stops wired runProtocol_silent_waits] at results
      cases results
      exact stops rfl
    · rw [filter_cons_of_neg]
      simpa [hears] using unlisted
    · intro other received _
      cases mem_singleton.mp received
      exact reaches

/-- Computations are up to the listed participants exactly if the others send nothing but Success,
    to a leader that does not wait for it or has no followers. -/
theorem insulated_iff {transportSender : TlsMeshSender} {leaderWaitsForSuccess : Bool}
    {outside : MpcPeerMessage → Prop} (wired : self.Wired transportSender)
    (distinct : self.participants.Nodup) :
    self.Insulated transportSender leaderWaitsForSuccess outside ↔
      ∀ message, outside message → message.sender ∉ self.participants →
        self.Harmless leaderWaitsForSuccess message := by
  constructor
  · intro insulated message reaches unlisted
    exact harmless_of_insulated wired distinct insulated reaches unlisted
  · exact insulated_of_harmless

end Insulated

private def meshOfThree : TlsMeshSender := .new ⟨0⟩ [⟨0⟩, ⟨1⟩, ⟨2⟩]

/-- Participant 0 on a channel with participant 1. -/
private def withOne (leader : ParticipantId) : NetworkTaskChannel where
  channelId := ⟨⟨8⟩⟩
  taskId := .eddsaTaskId (.signature ⟨[]⟩)
  leader := leader
  myParticipantId := ⟨0⟩
  participants := [⟨0⟩, ⟨1⟩]
  connectionVersions := AList.insert ⟨1⟩ ⟨1, 1⟩ ∅
  receiver := ⟨⟨8⟩⟩

/-- A leader that signs does not wait for successes. -/
theorem insulated_while_signing :
    (withOne ⟨0⟩).Insulated meshOfThree false fun message => message.message.kind = .success := by
  refine (insulated_iff ⟨rfl, ?_, ?_⟩ (by decide)).mpr ?_
  · decide
  · decide
  · intro message success _
    exact ⟨success, rfl, .inl rfl⟩

private def oneMessage : Protocol Bool Unit where
  poke done := .ok (if done then .returned () else .wait, done)
  message _ _ _ := .ok true
  parties _ := []
  backlog _ := 0
  backlog_many := by
    intro done
    cases done <;> simp
  backlog_private := by
    intro done
    cases done <;> simp
  private_to := by
    intro done
    cases done <;> simp
  parties_poke _ := rfl
  parties_message _ := rfl

private def fromPeer (sender : ParticipantId) (kind : MpcMessageKind) : MpcPeerMessage :=
  ⟨sender, ⟨⟨⟨8⟩⟩, kind⟩⟩

private def unstarted : MeshNetworkClient where
  transportSender := meshOfThree
  channels := .new
  indexerHeights := meshOfThree.participants.foldl (fun heights id => heights.insert id 0) ∅
  tracked := by decide
  newChannels := []
  newChannelReceiverAlive := true

/-- Participant 2 aborts a computation of participants 0 and 1 by a message in their pipe. -/
theorem outsider_stops_computation :
    let begins := fromPeer ⟨1⟩ (.start ⟨.eddsaTaskId (.signature ⟨[]⟩), [⟨0⟩, ⟨1⟩]⟩)
    let share := fromPeer ⟨1⟩ (.computation [[7]])
    let abort := fromPeer ⟨2⟩ (.abort "no")
    let reached := (MeshNetworkClient.runReceiveMessagesLoop
      [.mpc begins, .mpc abort, .mpc share] unstarted).2
    let computes := outcome ((withOne ⟨1⟩).performLeaderCentricComputation (reliable meshOfThree)
      ((withOne ⟨1⟩).runProtocol (reliable meshOfThree) oneMessage false) false)
    (reached.newChannels.map fun channel => (channel.leader, channel.participants)) =
        [(⟨1⟩, [⟨0⟩, ⟨1⟩])] ∧
      (reached.channels.senders.lookup ⟨⟨8⟩⟩).map Pipe.messages = some [abort, share] ∧
      ([abort, share].map ChannelEvent.received).filter (withOne ⟨1⟩).hears =
        ([share].map ChannelEvent.received).filter (withOne ⟨1⟩).hears ∧
      computes (beginning ([share].map .received) ()) = (.ok (), []) ∧
      computes (beginning ([abort, share].map .received) ()) =
        (.error (.failed (.anyhow "Aborted by leader: no")), [(⟨1⟩, ⟨⟨⟨8⟩⟩, .abort ""⟩)]) := by
  decide +kernel

end NetworkTaskChannel

end MpcNetwork.Node.Network
