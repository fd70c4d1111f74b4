import MpcNetwork.Node.Network.Computation

/-! # Driving a protocol over a channel

The driver pokes the protocol until it waits or returns, sends what it asked for in one batch
per recipient, and hands it the next message of the channel.  Its message counters have an
entry for each listed participant and unwrap the lookup.
-/

namespace MpcNetwork.Node

open Threshold

def ParticipantId.participant (id : ParticipantId) : Participant := ⟨id.raw⟩

def ParticipantId.ofParticipant (participant : Participant) : ParticipantId := ⟨participant.id⟩

namespace Network

open Jobs Jobs.Job

/-- The messages to send, collected by recipient. -/
abbrev Outbox := Table ParticipantId (List MessageData)

def Outbox.push (outbox : Outbox) (recipient : ParticipantId) (data : MessageData) : Outbox :=
  outbox.insert recipient ((outbox.lookup recipient).getD [] ++ [data])

variable {S σ T : Type}

def pokeAll (protocol : Protocol σ T) (others : List ParticipantId) :
    Nat → σ → Outbox → Except Error (Outbox × Option T × σ)
  | 0, s, outbox => .ok (outbox, none, s)
  | n + 1, s, outbox =>
    match protocol.poke s with
    | .error err => .error (.protocol err)
    | .ok (.wait, t) => .ok (outbox, none, t)
    | .ok (.sendMany data, t) =>
      pokeAll protocol others n t (others.foldl (fun outbox id => outbox.push id data) outbox)
    | .ok (.sendPrivate recipient data, t) =>
      pokeAll protocol others n t (outbox.push (.ofParticipant recipient) data)
    | .ok (.returned result, t) => .ok (outbox, some result, t)

namespace NetworkTaskChannel

variable (transport : Transport) (self : NetworkTaskChannel)

/-- The entry of a participant in the message counters; the queues have the same keys. -/
def counters (participant : ParticipantId) : Task S Unit :=
  unwrap (if participant ∈ self.participants then some () else none)

def sendBatch (messages : Sigma fun _ : ParticipantId => List MessageData) : Task S Unit :=
  if messages.2 = [] then pure ()
  else do
    self.counters messages.1
    self.send transport messages.1 messages.2

/-- Count a message that came in and tell the protocol. -/
def absorb (protocol : Protocol σ T) (s : σ) (received : TaskChannelComputationData) :
    Task S σ := do
  self.counters received.sender
  ofExcept (received.data.foldlM (fun s data =>
    (protocol.message s received.sender.participant data).mapError .message) s)

def protocolTurn (protocol : Protocol σ T) (s : σ) : Task S (σ ⊕ T) := do
  let others := self.participants.filter fun id => id ≠ self.myParticipantId
  let (outbox, done, s) ← ofExcept (pokeAll protocol others (protocol.backlog s + 1) s ∅)
  outbox.entries.forM (self.sendBatch transport)
  match done with
  | some result => pure (.inr result)
  | none => do
    let received ← self.receive transport
    let s ← self.absorb protocol s received
    pure (.inl s)

def runProtocol (protocol : Protocol σ T) (s : σ) : Task S T := do
  let events ← read TaskState.incoming
  turns (self.protocolTurn transport protocol) (events.length + 1) s

end NetworkTaskChannel

def Outbox.Within (outbox : Outbox) (ids : List ParticipantId) : Prop := ∀ id ∈ outbox, id ∈ ids

theorem Outbox.Within.push {outbox : Outbox} (within : outbox.Within ids)
    (listed : recipient ∈ ids) : (outbox.push recipient data).Within ids := by
  intro id inside
  rcases (AList.mem_insert _).mp inside with rfl | earlier
  · exact listed
  · exact within id earlier

theorem Outbox.Within.pushMany {outbox : Outbox} {ids others : List ParticipantId}
    (within : outbox.Within ids) (listed : ∀ id ∈ others, id ∈ ids) :
    (others.foldl (fun outbox id => outbox.push id data) outbox).Within ids := by
  induction others generalizing outbox with
  | nil => exact within
  | cons first others ih =>
    rw [List.foldl_cons]
    refine ih (within.push (listed first (by simp))) ?_
    intro id later
    exact listed id (List.mem_cons_of_mem first later)

def Protocol.Among (protocol : Protocol σ T) (ids : List ParticipantId) (s : σ) : Prop :=
  ∀ participant ∈ protocol.parties s, ParticipantId.ofParticipant participant ∈ ids

theorem pokeAll_ok {protocol : Protocol σ T} {ids others : List ParticipantId}
    (listed : ∀ id ∈ others, id ∈ ids)
    (among : Protocol.Among protocol ids s) (within : outbox.Within ids)
    (poked : pokeAll protocol others n s outbox = .ok (outbox', done, t)) :
    outbox'.Within ids ∧ Protocol.Among protocol ids t ∧
      ∀ result, done = some result → ∃ u v, protocol.poke u = .ok (.returned result, v) := by
  induction n generalizing s outbox with
  | zero =>
    cases poked
    exact ⟨within, among, by simp⟩
  | succ n ih =>
    have stays : ∀ {action t}, protocol.poke s = .ok (action, t) →
        Protocol.Among protocol ids t := by
      intro action t step participant party
      exact among participant (protocol.parties_poke step ▸ party)
    unfold pokeAll at poked
    split at poked
    · cases poked
    · rename_i step
      cases poked
      exact ⟨within, stays step, by simp⟩
    · rename_i data t step
      exact ih (stays step) (within.pushMany listed) poked
    · rename_i recipient data t step
      have party := among recipient (protocol.private_to step)
      exact ih (stays step) (within.push party) poked
    · rename_i result t step
      cases poked
      refine ⟨within, stays step, ?_⟩
      intro same given
      cases given
      exact ⟨_, _, step⟩

theorem Protocol.Among.message {data : List MessageData} (among : Protocol.Among protocol ids s)
    (told : data.foldlM (fun s data => (protocol.message s sender data).mapError Error.message) s =
      .ok t) : Protocol.Among protocol ids t := by
  induction data generalizing s with
  | nil =>
    cases told
    exact among
  | cons first data ih =>
    rw [List.foldlM_cons, Fallible.bind_ok_iff] at told
    obtain ⟨u, step, rest⟩ := told
    rw [Fallible.mapError_eq_ok] at step
    refine ih ?_ rest
    intro participant party
    exact among participant (protocol.parties_message step ▸ party)

namespace NetworkTaskChannel

variable {transport : Transport} {self : NetworkTaskChannel}

variable {protocol : Protocol σ T}

/-- A message that is taken in makes the driver panic exactly when its sender is not
    listed. -/
theorem panics_absorb_iff :
    (self.absorb protocol s received).Panics state ↔ received.sender ∉ self.participants := by
  rw [absorb, panics_bind_iff]
  by_cases listed : received.sender ∈ self.participants
  · simp [counters, listed]
  · simp [counters, listed]

theorem safe_counters (listed : participant ∈ self.participants) :
    Safe I (self.counters participant) fun _ => I := by
  have present : (if participant ∈ self.participants then some () else none).isSome := by
    simp [listed]
  exact (safe_unwrap present).weaken (fun _ holds => holds) fun _ _ holds => holds.1

theorem safe_sendBatch (listed : messages.1 ∈ self.participants) :
    Safe (fun s : TaskState S => self.FromMembers s) (self.sendBatch transport messages)
      fun _ s => self.FromMembers s := by
  unfold sendBatch
  split
  · exact safe_pure fun _ holds => holds
  · refine (safe_counters listed).bind ?_
    intro _
    exact safe_sendRaw fun _ _ holds => holds

theorem safe_protocolTurn (wired : self.Wired transport.transportSender) (s : σ) :
    Safe (fun state : TaskState S =>
        self.FromMembers state ∧ Protocol.Among protocol self.participants s)
      (self.protocolTurn transport protocol s)
      fun outcome state => outcome.elim
        (fun s => self.FromMembers state ∧ Protocol.Among protocol self.participants s)
        fun result => ∃ u v, protocol.poke u = .ok (.returned result, v) := by
  have others : ∀ id ∈ self.participants.filter fun id => id ≠ self.myParticipantId,
      id ∈ self.participants := fun id inside => (List.mem_filter.mp inside).1
  have nobody : (∅ : Outbox).Within self.participants := by
    intro id inside
    cases inside
  refine safe_ofExcept.bind ?_
  rintro ⟨outbox, done, t⟩
  refine safe_of_fact ?_
  intro poked
  refine safe_of_fact ?_
  intro before
  obtain ⟨within, among, returned⟩ := pokeAll_ok others before nobody poked
  have sending : Safe (fun state : TaskState S => self.FromMembers state)
      (outbox.entries.forM (self.sendBatch transport)) fun _ state => self.FromMembers state := by
    refine safe_forM ?_
    intro messages queued
    exact safe_sendBatch (within _ (List.mem_keys_of_mem queued))
  refine sending.bind ?_
  intro _
  cases done with
  | some result => exact safe_pure fun _ _ => returned result rfl
  | none =>
    refine (safe_receive wired).bind ?_
    intro received
    refine safe_of_fact ?_
    intro listed
    refine Safe.bind (Q := fun t state =>
      self.FromMembers state ∧ Protocol.Among protocol self.participants t) ?_ ?_
    · refine (safe_counters listed).bind ?_
      intro _
      refine safe_ofExcept.weaken (fun _ holds => holds) ?_
      rintro u state ⟨members, told⟩
      exact ⟨members, among.message told⟩
    · intro u
      exact safe_pure fun _ holds => holds

theorem safe_runProtocol (wired : self.Wired transport.transportSender)
    (among : Protocol.Among protocol self.participants s) :
    Safe (fun state : TaskState S => self.FromMembers state)
      (self.runProtocol transport protocol s)
      fun result _ => ∃ u v, protocol.poke u = .ok (.returned result, v) := by
  refine safe_read.bind ?_
  intro events
  refine (safe_turns (safe_protocolTurn wired) (events.length + 1) s).before ?_
  intro state holds
  exact ⟨holds.1, among⟩

theorem Undisturbed.sendBatch (undisturbed : Undisturbed I) :
    Maintains I (self.sendBatch transport messages) := by
  unfold NetworkTaskChannel.sendBatch
  split
  · exact maintains_pure
  · exact maintains_unwrap.bind fun _ => undisturbed.sendRaw

theorem Undisturbed.runProtocol (undisturbed : Undisturbed I) :
    Maintains I (self.runProtocol transport protocol s) := by
  refine maintains_read.bind fun pending => ?_
  refine maintains_turns (fun s => ?_) _ _
  refine maintains_ofExcept.bind fun poked => ?_
  obtain ⟨outbox, done, t⟩ := poked
  refine (maintains_forM fun _ _ => undisturbed.sendBatch).bind fun _ => ?_
  cases done with
  | some result => exact maintains_pure
  | none =>
    refine undisturbed.receive.bind fun received => ?_
    refine Maintains.bind ?_ fun _ => maintains_pure
    exact maintains_unwrap.bind fun _ => maintains_ofExcept

end NetworkTaskChannel

end Network

end MpcNetwork.Node
