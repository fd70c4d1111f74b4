import MpcNetwork.Threshold.Comms

/-! # Running a task as a protocol

Poking a protocol polls its task once, so `wait` should mean that nothing more can be done with the
messages at hand.  It does, as long as nobody else writes to the private channels of the task and no
two parts of the task receive at the same place.  A message of somebody else makes a private channel
give way, and the driver then waits although the right message may be there already.
-/

namespace MpcNetwork.Threshold

open Futures Table

structure ProtocolExecutor (T : Type) where
  comms : Comms
  fut : Option (Task (Except ProtocolError T))
  result : Option (Except ProtocolError T)

inductive ProtocolCall where
  | message (sender : Participant) (data : MessageData)
  | poke (turns : Nat)

namespace ProtocolExecutor

variable {T : Type}

def new (comms : Comms) (fut : Task (Except ProtocolError T)) : ProtocolExecutor T :=
  ⟨comms, some fut, none⟩

/-- Messages to send and then a result are handed out before anything else is done. -/
def handOut (self : ProtocolExecutor T) :
    Option (Except ProtocolError (Action T) × ProtocolExecutor T) :=
  match self.comms.mail.outputs, self.result with
  | .many data :: rest, _ => some (.ok (.sendMany data), { self with comms.mail.outputs := rest })
  | .privateTo recipient data :: rest, _ =>
    some (.ok (.sendPrivate recipient data), { self with comms.mail.outputs := rest })
  | [], some result => some (result.map .returned, { self with result := none })
  | [], none => none

def polled (self : ProtocolExecutor T) (mail : Letters) :
    Polled MessageHeader (Participant × MessageData) Message (Except ProtocolError T) →
      ProtocolExecutor T
  | .ready result => ⟨{ self.comms with mail }, none, some result⟩
  | .pending fut => ⟨{ self.comms with mail }, some fut, self.result⟩

/-- `none` is a poll that does not end within the given number of turns. -/
def poke (turns : Nat) (self : ProtocolExecutor T) :
    Option (Except ProtocolError (Action T) × ProtocolExecutor T) :=
  match self.handOut, self.fut with
  | some answer, _ => some answer
  | none, none => some (.ok .wait, self)
  | none, some fut => do
    let (outcome, mail) ← poll turns fut self.comms.mail
    let self := self.polled mail outcome
    some (self.handOut.getD (.ok .wait, self))

def message (self : ProtocolExecutor T) (sender : Participant) (data : MessageData) :
    Except MessageError (ProtocolExecutor T) :=
  match self.comms.pushMessage sender data with
  | .ok comms => .ok { self with comms }
  | .error err => .error err

def call (self : ProtocolExecutor T) : ProtocolCall → Option (ProtocolExecutor T)
  | .message sender data => some ((self.message sender data).toOption.getD self)
  | .poke turns => (self.poke turns).map Prod.snd

def after (self : ProtocolExecutor T) : List ProtocolCall → Option (ProtocolExecutor T)
  | [] => some self
  | call :: calls => do (← self.call call).after calls

end ProtocolExecutor

/-- The task sends, and receives under headers of `Q`, parts that run at the same time under
    different ones. The peer of a private channel is the one listed for its headers. -/
inductive OnChannels (peers : MessageHeader → Option Participant) :
    (MessageHeader → Prop) → {α : Type} → Task α → Prop where
  | pure {Q : MessageHeader → Prop} {α : Type} (value : α) : OnChannels peers Q (.pure value)
  | bind {Q : MessageHeader → Prop} {α β : Type} {first : Task α} {rest : α → Task β} :
      OnChannels peers Q first → (∀ value, OnChannels peers Q (rest value)) →
      OnChannels peers Q (.bind first rest)
  | loop {Q : MessageHeader → Prop} {α β : Type} {body : α → Task (α ⊕ β)} (value : α) :
      (∀ value, OnChannels peers Q (body value)) → OnChannels peers Q (.loop body value)
  | tryJoin {Q Q₁ Q₂ : MessageHeader → Prop} {ε α β : Type} {first : Task (Except ε α)}
      {second : Task (Except ε β)} :
      OnChannels peers Q₁ first → OnChannels peers Q₂ second →
      (∀ header, Q₁ header → ¬ Q₂ header) → (∀ header, Q₁ header ∨ Q₂ header → Q header) →
      OnChannels peers Q (.tryJoin first second)
  | send {Q : MessageHeader → Prop} (message : Message) : OnChannels peers Q (.emit message)
  | sharedRecv {Q : MessageHeader → Prop} {T : Type} (channel : SharedChannel)
      (waitpoint : Waitpoint) (decode : MessageData → Except String T) :
      Q (channel.header.withWaitpoint waitpoint) →
      OnChannels peers Q (channel.recv waitpoint decode)
  | privateRecv {Q : MessageHeader → Prop} {T : Type} (channel : PrivateChannel)
      (waitpoint : Waitpoint) (decode : MessageData → Except String T) :
      Q (channel.header.withWaitpoint waitpoint) →
      peers (channel.header.withWaitpoint waitpoint) = some channel.peer →
      OnChannels peers Q (channel.recv waitpoint decode)

/-- A message under the header of a private channel is from its peer. -/
def Addressed (peers : MessageHeader → Option Participant) (header : MessageHeader)
    (message : Participant × MessageData) : Prop :=
  ∀ peer, peers header = some peer → message.1 = peer

namespace OnChannels

variable {α : Type}

theorem held_eq_empty (onChannels : OnChannels peers Q task) : task.held = ∅ := by
  induction onChannels with
  | pure | loop | send | sharedRecv | privateRecv => rfl
  | bind _ _ ih => exact ih
  | tryJoin _ _ _ _ ih ih' => rw [Future.held, ih, ih', Finset.empty_union]

theorem calm (onChannels : OnChannels peers Q task) :
    Calm (Addressed peers) task Q fun _ => True := by
  induction onChannels with
  | pure | send => trivial
  | bind isFirst isRest ih ih' =>
    exact ⟨fun _ => True, ih, fun value => ⟨(isRest value).held_eq_empty, fun _ => ih' value⟩⟩
  | loop value isBody ih =>
    refine ⟨fun _ => True, trivial, fun value => ⟨(isBody value).held_eq_empty, fun _ => ?_⟩⟩
    exact (ih value).mono fun result _ => by cases result <;> trivial
  | tryJoin _ _ apart into ih ih' =>
    exact ⟨_, _, ih, ih', apart, into, fun _ => trivial⟩
  | sharedRecv channel waitpoint decode mine =>
    exact ⟨fun _ => True, ⟨mine, fun _ _ => trivial⟩, fun _ => ⟨rfl, fun _ => trivial⟩⟩
  | privateRecv channel waitpoint decode mine isPeer =>
    refine ⟨fun _ => True, trivial, fun _ => ⟨rfl, fun _ => ?_⟩⟩
    refine ⟨fun received => ∀ sender data, received = .ok (sender, data) → sender = channel.peer,
      ?_, fun received => ?_⟩
    · refine ⟨Addressed peers _, ⟨mine, fun _ addressed => addressed⟩, fun message =>
        ⟨rfl, fun addressed sender data same => ?_⟩⟩
      cases result : Comms.decoded decode message.2 with
      | error err =>
        rw [result] at same
        cases same
      | ok value =>
        rw [result] at same
        cases same
        exact addressed channel.peer isPeer
    · cases received with
      | error err => exact ⟨rfl, fun _ => trivial⟩
      | ok pair =>
        obtain ⟨sender, data⟩ := pair
        simp only [PrivateChannel.received]
        split
        · rename_i stray
          exact ⟨rfl, fun fromPeer => absurd (fromPeer sender data rfl) stray⟩
        · exact ⟨rfl, fun _ => trivial⟩

end OnChannels

namespace ProtocolExecutor

section Invariant

variable {T : Type} {peers : MessageHeader → Option Participant} {Q : MessageHeader → Prop}
  {s t : ProtocolExecutor T} {turns : Nat}

/-- The task that is left waits calmly and its queues hold messages of peers only. -/
def Orderly (peers : MessageHeader → Option Participant) (Q : MessageHeader → Prop)
    (s : ProtocolExecutor T) : Prop :=
  ∀ fut, s.fut = some fut → Calm (Addressed peers) fut Q (fun _ => True) ∧
    Served (Addressed peers) Q fut.held s.comms.mail

theorem orderly_new {fut : Task (Except ProtocolError T)}
    (onChannels : OnChannels peers Q fut) :
    (new (.withBufferCapacity maxEntries) fut).Orderly peers Q := by
  rintro _ ⟨⟩
  refine ⟨onChannels.calm, fun header _ => ?_, fun header messages _ found => ?_⟩
  · rw [onChannels.held_eq_empty]
    rfl
  · cases found

theorem Orderly.message (orderly : s.Orderly peers Q)
    (addressed : ∀ header, MessageHeader.fromBytes data = some header →
      Addressed peers header (sender, data))
    (done : s.message sender data = .ok t) : t.Orderly peers Q := by
  unfold ProtocolExecutor.message at done
  split at done
  · rename_i comms pushed
    cases done
    intro fut isFut
    obtain ⟨calm, served⟩ := orderly fut isFut
    obtain ⟨header, isHeader, taken⟩ := Comms.pushMessage_ok pushed
    obtain ⟨locked, queues⟩ := Comms.push_ok taken
    refine ⟨calm, ?_, ?_⟩
    · intro other mine
      rw [← served.locks other mine, locked]
    · intro other messages mine found message inside
      have joined : message ∈ comms.mail.messages other := by simpa [Mail.messages, found] using inside
      rw [queues other, List.mem_append] at joined
      obtain before | new := joined
      · cases there : s.comms.mail.queues.lookup other with
        | none => simp [Mail.messages, there] at before
        | some earlier =>
          refine served.allowed other earlier mine there message ?_
          simpa [Mail.messages, there] using before
      · split at new
        · rename_i same
          subst same
          cases List.mem_singleton.mp new
          exact addressed other isHeader
        · cases new
  · cases done

variable {answer : Except ProtocolError (Action T)}

theorem handOut_keeps (handed : s.handOut = some (answer, t)) :
    t.fut = s.fut ∧ t.comms.mail.queues = s.comms.mail.queues ∧
      t.comms.mail.locked = s.comms.mail.locked ∧ answer ≠ .ok .wait := by
  unfold handOut at handed
  split at handed
  · cases handed
    exact ⟨rfl, rfl, rfl, by simp⟩
  · cases handed
    exact ⟨rfl, rfl, rfl, by simp⟩
  · rename_i result _ _
    cases handed
    refine ⟨rfl, rfl, rfl, ?_⟩
    cases result <;> simp [Except.map]
  · cases handed

theorem Orderly.handOut (orderly : s.Orderly peers Q) (handed : s.handOut = some (answer, t)) :
    t.Orderly peers Q := by
  obtain ⟨sameTask, queues, locked, _⟩ := handOut_keeps handed
  intro fut isFut
  obtain ⟨calm, served⟩ := orderly fut (sameTask ▸ isFut)
  exact ⟨calm, served.alike fun header _ => ⟨by rw [queues], by rw [locked]⟩⟩

theorem handOut_isSome {result : Except ProtocolError T} (isResult : s.result = some result) :
    s.handOut ≠ none := by
  unfold handOut
  split <;> simp_all

inductive Pokes (turns : Nat) (s : ProtocolExecutor T) :
    Except ProtocolError (Action T) → ProtocolExecutor T → Prop where
  | handed {answer : Except ProtocolError (Action T)} {t : ProtocolExecutor T} :
      s.handOut = some (answer, t) → Pokes turns s answer t
  | ended : s.handOut = none → s.fut = none → Pokes turns s (.ok .wait) s
  | polled {fut : Task (Except ProtocolError T)} {mail : Letters}
      {outcome : Polled MessageHeader (Participant × MessageData) Message (Except ProtocolError T)}
      {answer : Except ProtocolError (Action T)} {t : ProtocolExecutor T} :
      s.handOut = none → s.fut = some fut → poll turns fut s.comms.mail = some (outcome, mail) →
      (s.polled mail outcome).handOut.getD (.ok .wait, s.polled mail outcome) = (answer, t) →
      Pokes turns s answer t

theorem pokes_of_poke (poked : s.poke turns = some (answer, t)) : Pokes turns s answer t := by
  unfold poke at poked
  split at poked
  · rename_i handed
    cases poked
    exact .handed handed
  · rename_i nothing ended
    cases poked
    exact .ended nothing ended
  · rename_i fut nothing isFut
    simp only [Option.bind_eq_bind, Option.bind_eq_some_iff, Option.some.injEq] at poked
    obtain ⟨⟨outcome, mail⟩, polled, answered⟩ := poked
    exact .polled nothing isFut polled answered

section

variable (orderly : s.Orderly peers Q)

include orderly

theorem Orderly.polled {fut : Task (Except ProtocolError T)} (isFut : s.fut = some fut)
    (ran : poll turns fut s.comms.mail = some (outcome, mail)) :
    (s.polled mail outcome).Orderly peers Q := by
  obtain ⟨calm, served⟩ := orderly fut isFut
  obtain ⟨_, result⟩ := calm.poll turns _ _ _ served ran
  cases outcome with
  | ready result =>
    rintro _ ⟨⟩
  | pending rest =>
    rintro _ ⟨⟩
    exact ⟨result.1, result.2.1⟩

theorem Orderly.poke (poked : s.poke turns = some (answer, t)) :
    t.Orderly peers Q := by
  cases pokes_of_poke poked with
  | handed handed => exact orderly.handOut handed
  | ended => exact orderly
  | @polled _ mail outcome _ _ _ isFut ran answered =>
    have orderly' := orderly.polled isFut ran
    cases handed : (s.polled mail outcome).handOut with
    | none =>
      rw [handed] at answered
      cases answered
      exact orderly'
    | some handout =>
      rw [handed] at answered
      cases answered
      exact orderly'.handOut handed

theorem Orderly.call {call : ProtocolCall}
    (addressed : ∀ sender data, call = .message sender data → ∀ header,
      MessageHeader.fromBytes data = some header → Addressed peers header (sender, data))
    (called : s.call call = some t) : t.Orderly peers Q := by
  cases call with
  | message sender data =>
    cases done : s.message sender data with
    | error err =>
      simp only [ProtocolExecutor.call, done] at called
      cases called
      exact orderly
    | ok u =>
      simp only [ProtocolExecutor.call, done] at called
      cases called
      exact orderly.message (addressed sender data rfl) done
  | poke turns =>
    obtain ⟨⟨answer, u⟩, poked, rfl⟩ := Option.map_eq_some_iff.mp called
    exact orderly.poke poked

theorem Orderly.after {calls : List ProtocolCall}
    (addressed : ∀ sender data, .message sender data ∈ calls → ∀ header,
      MessageHeader.fromBytes data = some header → Addressed peers header (sender, data))
    (reached : s.after calls = some t) : t.Orderly peers Q := by
  induction calls generalizing s with
  | nil =>
    cases reached
    exact orderly
  | cons call calls ih =>
    simp only [ProtocolExecutor.after, Option.bind_eq_bind, Option.bind_eq_some_iff] at reached
    obtain ⟨u, called, rest⟩ := reached
    refine ih (orderly.call (fun sender data isCall => ?_) called) ?_ rest
    · exact addressed sender data (isCall ▸ List.mem_cons_self)
    · exact fun sender data later => addressed sender data (List.mem_cons_of_mem _ later)

theorem Orderly.waits (poked : s.poke turns = some (.ok .wait, t)) :
    (∃ enough, ∀ n ≥ enough, t.poke n = some (.ok .wait, t)) ∧
      ∀ fut, t.fut = some fut → Blocked t.comms.mail fut := by
  cases pokes_of_poke poked with
  | handed handed => exact absurd rfl (handOut_keeps handed).2.2.2
  | ended nothing ended =>
    refine ⟨⟨0, fun n _ => by simp [ProtocolExecutor.poke, nothing, ended]⟩, ?_⟩
    simp [ended]
  | @polled fut mail outcome _ _ nothing isFut ran answered =>
    obtain ⟨calm, served⟩ := orderly fut isFut
    obtain ⟨_, result⟩ := calm.poll turns _ _ _ served ran
    cases handed : (s.polled mail outcome).handOut with
    | some handout =>
      rw [handed] at answered
      cases answered
      exact absurd rfl (handOut_keeps handed).2.2.2
    | none =>
      rw [handed] at answered
      cases answered
      cases outcome with
      | ready result => exact absurd handed (handOut_isSome rfl)
      | pending rest =>
        obtain ⟨_, _, blocked⟩ := result
        obtain ⟨enough, again⟩ := blocked.poll
        refine ⟨⟨enough, fun n isEnough => ?_⟩, ?_⟩
        · have same := again n isEnough
          simp_all [ProtocolExecutor.poke, ProtocolExecutor.polled]
        · rintro _ ⟨⟩
          exact blocked

end

end Invariant

variable {T : Type}

/-- If only its peer writes to a private channel and concurrent parts receive under different
    headers, a protocol that waits does so until another message arrives: every part has returned or
    waits for a message of an empty queue. -/
theorem wait_is_final (peers : MessageHeader → Option Participant) (Q : MessageHeader → Prop)
    (maxEntries turns : Nat) (fut : Task (Except ProtocolError T))
    (calls : List ProtocolCall) (s t : ProtocolExecutor T) (onChannels : OnChannels peers Q fut)
    (addressed : ∀ sender data, .message sender data ∈ calls → ∀ header,
      MessageHeader.fromBytes data = some header → Addressed peers header (sender, data))
    (reached : (new (.withBufferCapacity maxEntries) fut).after calls = some s)
    (poked : s.poke turns = some (.ok .wait, t)) :
    (∃ enough, ∀ n ≥ enough, t.poke n = some (.ok .wait, t)) ∧
      ∀ rest, t.fut = some rest → Blocked t.comms.mail rest :=
  ((orderly_new onChannels).after addressed reached).waits poked

private def privateDigest (_ : List UInt8) : List UInt8 :=
  [245, 105, 128, 34, 164, 168, 47, 106, 167, 188, 157, 156, 78, 163, 77, 195, 184, 53, 200, 12,
    184, 252, 63, 114, 14, 115, 162, 22, 187, 45, 39, 22]

private def sharedDigest (_ : List UInt8) : List UInt8 :=
  [68, 1, 3, 169, 34, 181, 92, 99, 108, 72, 192, 57, 220, 114, 149, 95, 131, 115, 111, 200, 159,
    207, 143, 2, 81, 105, 255, 60, 126, 81, 4, 58]

private def smallNumber : MessageData → Except String UInt8
  | [number] => if number < 128 then .ok number else .error "invalid type"
  | _ => .error "IO error while reading marker: failed to fill whole buffer"

private def fromFirst : PrivateChannel := .new privateDigest ⟨0⟩ ⟨1⟩

private def everyone : SharedChannel := .new sharedDigest

private def wire (header : MessageHeader) (number : UInt8) : MessageData :=
  header.toBytes ++ [number]

/-- Two tasks, the first of which comes late to the waitpoint at which the second waits. -/
private def meetingLate : Task (Except ProtocolError (UInt8 × UInt8)) :=
  .bind (.tryJoin (.bind (everyone.recv 0 smallNumber) fun _ => everyone.recv 1 smallNumber)
      (everyone.recv 1 smallNumber)) fun both =>
    .pure (both.map fun received => (received.1.2, received.2.2))

/-- The answers of two pokes in a row, after some calls. -/
private def pokedTwice (fut : Task (Except ProtocolError T)) (calls : List ProtocolCall) :
    Option (Except ProtocolError (Action T) × Except ProtocolError (Action T)) :=
  ((new (.withBufferCapacity 8) fut).after calls).bind fun s =>
    (s.poke 20).bind fun first =>
      (first.2.poke 20).map fun second => (first.1, second.1)

/-- The peer's first message is there, the second is still to come. -/
private def twoReceives : Task (Except ProtocolError UInt8) :=
  .bind (fromFirst.recv 0 smallNumber) fun _ => fromFirst.recv 1 smallNumber

theorem wait_is_final_of_peer :
    ∃ s t, (new (.withBufferCapacity 8) twoReceives).after
        [.message ⟨1⟩ (wire fromFirst.header 5)] = some s ∧
      s.poke 20 = some (.ok .wait, t) ∧
      (∃ enough, ∀ n ≥ enough, t.poke n = some (.ok .wait, t)) ∧
        ∀ rest, t.fut = some rest → Blocked t.comms.mail rest := by
  have waits : (((new (.withBufferCapacity 8) twoReceives).after
      [.message ⟨1⟩ (wire fromFirst.header 5)]).bind (poke 20)).map Prod.fst = some (.ok .wait) := by
    decide +kernel
  simp only [Option.map_eq_some_iff, Option.bind_eq_some_iff, Prod.exists] at waits
  obtain ⟨_, t, ⟨s, reached, poked⟩, rfl⟩ := waits
  refine ⟨s, t, reached, poked, wait_is_final (fun _ => some ⟨1⟩) (fun _ => True) 8 20 twoReceives _
    s t ?_ ?_ reached poked⟩
  · exact .bind (.privateRecv fromFirst 0 smallNumber trivial rfl) fun _ =>
      .privateRecv fromFirst 1 smallNumber trivial rfl
  · intro sender data listed header _ peer isPeer
    cases isPeer
    cases List.mem_singleton.mp listed
    rfl

theorem wait_leaves_message :
    (pokedTwice (fromFirst.recv 0 smallNumber)
        [.message ⟨2⟩ (wire fromFirst.header 6), .message ⟨1⟩ (wire fromFirst.header 5)] =
      some (.ok .wait, .ok (.returned 5))) ∧
    pokedTwice meetingLate
        [.poke 20, .message ⟨1⟩ (wire (everyone.header.withWaitpoint 0) 5),
          .message ⟨1⟩ (wire (everyone.header.withWaitpoint 1) 6),
          .message ⟨2⟩ (wire (everyone.header.withWaitpoint 1) 7)] =
      some (.ok .wait, .ok (.returned (7, 6))) := by
  decide +kernel

end ProtocolExecutor

end MpcNetwork.Threshold
