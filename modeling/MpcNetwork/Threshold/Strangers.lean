import MpcNetwork.Threshold.Comms
import MpcNetwork.Threshold.Rounds

/-! # Receives and the messages of others

A private channel has a peer, and a gather and a broadcast have participants; messages of anyone
else under the same header should not matter.  They do not as long as they decode, for a private
channel and a gather, and are no send votes, for a broadcast.  The first two decode a message before
they look at its sender and fail when they cannot.  A broadcast skips what it cannot decode, but
looks up the sender of a send vote and fails when it is not in the list.

A receive is a function of the messages under its header, in the order in which they are taken.
-/

namespace MpcNetwork.Threshold

open EchoBroadcast Jobs

variable {T : Type}

/-- The loop of `PrivateChannel::recv`. -/
def PrivateChannel.recvAmong (self : PrivateChannel) (decode : MessageData → Except String T) :
    List (Participant × MessageData) → Except (Stop ProtocolError) T
  | [] => .error .pending
  | (sender, data) :: rest =>
    match Comms.decoded decode data with
    | .error err => .error (.failed err)
    | .ok value => if sender ≠ self.peer then self.recvAmong decode rest else .ok value

def payloads (decode : MessageData → Except String T)
    (messages : List (Participant × MessageData)) : List (Participant × Except String T) :=
  messages.map fun message => (message.1, decode (message.2.drop MessageHeader.len))

/-- The votes among the messages; the loop of a broadcast goes on after any other. -/
def votes (decode : MessageData → Except String (Nat × MessageType T))
    (messages : List (Participant × MessageData)) : List (Participant × Nat × MessageType T) :=
  messages.filterMap fun message =>
    (Comms.decoded decode message.2).toOption.map fun vote => (message.1, vote)

def decodes (decode : MessageData → Except String T) (data : MessageData) : Bool :=
  (Comms.decoded decode data).toBool

/-- The message is no send vote of one of the sessions. -/
def noSendVote (participants : ParticipantList)
    (decode : MessageData → Except String (Nat × MessageType T)) (data : MessageData) : Bool :=
  match Comms.decoded decode data with
  | .ok (sid, .send _) => decide (participants.len ≤ sid)
  | _ => true

/-- The same messages of the expected senders in the same order, and only harmless ones of others. -/
structure Agree (expected : Participant → Bool) (harmless : MessageData → Bool)
    (messages messages' : List (Participant × MessageData)) : Prop where
  same : messages.filter (expected ·.1) = messages'.filter (expected ·.1)
  harmless : ∀ message ∈ messages ++ messages',
    expected message.1 = false → harmless message.2 = true

/-- What does not depend on harmless messages of others is the same for lists that agree. -/
theorem Agree.eq_of_filter {harmless : MessageData → Bool}
    (agree : Agree expected harmless messages messages') {α : Type}
    (receive : List (Participant × MessageData) → α)
    (skips : ∀ messages : List (Participant × MessageData),
      (∀ message ∈ messages, expected message.1 = false → harmless message.2 = true) →
        receive (messages.filter (expected ·.1)) = receive messages) :
    receive messages = receive messages' := by
  have first := skips messages fun message inside =>
    agree.harmless message (List.mem_append_left _ inside)
  have second := skips messages' fun message inside =>
    agree.harmless message (List.mem_append_right _ inside)
  rw [← first, agree.same, second]

theorem PrivateChannel.recvAmong_filter (self : PrivateChannel)
    (decode : MessageData → Except String T) (messages : List (Participant × MessageData))
    (harmless : ∀ message ∈ messages,
      decide (message.1 = self.peer) = false → decodes decode message.2 = true) :
    self.recvAmong decode (messages.filter fun message => decide (message.1 = self.peer)) =
      self.recvAmong decode messages := by
  induction messages with
  | nil => rfl
  | cons first rest ih =>
    obtain ⟨sender, data⟩ := first
    have ih := ih fun message inside => harmless message (List.mem_cons_of_mem _ inside)
    by_cases isPeer : sender = self.peer
    · rw [List.filter_cons_of_pos (by simpa using isPeer)]
      simp only [recvAmong, isPeer, ne_eq, not_true_eq_false, if_false]
    · have isDecoded := harmless (sender, data) List.mem_cons_self (by simpa using isPeer)
      rw [List.filter_cons_of_neg (by simpa using isPeer), ih, recvAmong]
      unfold decodes at isDecoded
      cases there : Comms.decoded decode data with
      | error err => simp [there, Except.toBool] at isDecoded
      | ok value => simp [isPeer]

theorem decode_of_decodes (isDecoded : decodes decode data = true) :
    ∃ value, decode (data.drop MessageHeader.len) = .ok value := by
  unfold decodes Comms.decoded at isDecoded
  split at isDecoded
  · simp [Except.toBool] at isDecoded
  · cases there : decode (data.drop MessageHeader.len) with
    | error text => simp [there, Except.mapError, Except.toBool] at isDecoded
    | ok value => exact ⟨value, rfl⟩

theorem EchoBroadcast.ParticipantCounter.put_outsider
    (outside : participants.contains sender = false) (counter : ParticipantCounter) :
    counter.put participants sender = (counter, false) := by
  simp [ParticipantCounter.put, outside]

theorem gather_filter (participants : ParticipantList) (decode : MessageData → Except String T)
    (messages : List (Participant × MessageData))
    (harmless : ∀ message ∈ messages,
      participants.contains message.1 = false → decodes decode message.2 = true)
    (seen : ParticipantCounter) (taken : List (Participant × T)) :
    gather participants seen taken
        (payloads decode (messages.filter (participants.contains ·.1))) =
      gather participants seen taken (payloads decode messages) := by
  induction messages generalizing seen taken with
  | nil => rfl
  | cons first rest ih =>
    obtain ⟨sender, data⟩ := first
    have ih := ih fun message inside => harmless message (List.mem_cons_of_mem _ inside)
    cases isMember : participants.contains sender with
    | true =>
      rw [List.filter_cons_of_pos (by simpa using isMember)]
      unfold gather
      simp only [payloads, List.map_cons] at ih ⊢
      cases decode (data.drop MessageHeader.len) with
      | error text => rfl
      | ok value => simp only [ih]
    | false =>
      obtain ⟨value, isDecoded⟩ :=
        decode_of_decodes (harmless (sender, data) List.mem_cons_self isMember)
      rw [List.filter_cons_of_neg (by simp [isMember]), ih]
      conv_rhs => unfold gather
      simp only [payloads, List.map_cons, isDecoded,
        ParticipantCounter.put_outsider isMember, Bool.false_eq_true, if_false]
      split
      · rename_i isFull
        unfold gather
        rw [if_pos isFull]
      · rfl

section Broadcast

variable {participants : ParticipantList} {me : Participant} {input : T}

/-- A broadcast takes no notice of the vote if its sender is an outsider. -/
def Harmless (participants : ParticipantList) (vote : Participant × Nat × MessageType T) : Prop :=
  participants.contains vote.1 = false →
    ∀ value, vote.2.2 = .send value → participants.len ≤ vote.2.1

theorem harmless_votes (harmless : ∀ message ∈ messages, participants.contains message.1 = false →
      noSendVote participants decode message.2 = true) :
    ∀ vote ∈ votes decode messages, Harmless participants vote := by
  rintro ⟨sender, sid, vote⟩ inside outside value rfl
  obtain ⟨⟨_, data⟩, there, isVote⟩ := List.mem_filterMap.mp inside
  cases isDecoded : Comms.decoded decode data with
  | error err => simp [isDecoded, Except.toOption] at isVote
  | ok decoded =>
    simp only [isDecoded, Except.toOption, Option.map_some, Option.some.injEq,
      Prod.mk.injEq] at isVote
    obtain ⟨rfl, rfl⟩ := isVote
    simpa [noSendVote, isDecoded] using harmless _ there outside

theorem votes_filter (decode : MessageData → Except String (Nat × MessageType T))
    (messages : List (Participant × MessageData)) :
    votes decode (messages.filter (participants.contains ·.1)) =
      (votes decode messages).filter (participants.contains ·.1) := by
  induction messages with
  | nil => rfl
  | cons first rest ih =>
    obtain ⟨sender, data⟩ := first
    unfold votes at ih ⊢
    cases isMember : participants.contains sender <;>
      cases isDecoded : (Comms.decoded decode data).toOption <;>
        simp [isMember, isDecoded, ih]

variable [DecidableEq T]

variable {vote : MessageType T} {sender : Participant} {sid : Nat}

theorem onVote_outsider (outside : participants.contains sender = false)
    (noSend : ∀ value, vote ≠ .send value) :
    onVote participants session sender sid vote = skip session := by
  cases vote with
  | send value => exact absurd rfl (noSend value)
  | echo value => simp [onVote, onEcho, ParticipantCounter.put_outsider outside]
  | ready value => simp [onVote, onReady, ParticipantCounter.put_outsider outside]

theorem iterate_outsider (outside : participants.contains sender = false)
    (nothing : node.simulated = none)
    (noSend : ∀ value, vote = .send value → participants.len ≤ sid) :
    (iterate participants me input node sender sid vote).1 = node := by
  obtain ⟨state, voteOutput, simulated, result⟩ := node
  obtain rfl : simulated = none := nothing
  by_cases inside : sid < participants.len
  · have other : ∀ value, vote ≠ .send value := by
      intro value isSend
      have := noSend value isSend
      omega
    simp only [iterate, if_pos inside, onVote_outsider outside other, skip,
      Function.update_eq_self, Option.map_none]
  · simp only [iterate, if_neg inside]

/-- The loop ends with the result after some number of turns. -/
def Ends (participants : ParticipantList) (me : Participant) (input : T) (node : Node T)
    (received : List (Participant × Nat × MessageType T))
    (result : Except BroadcastError (List (Option T))) : Prop :=
  ∃ turns, (receiveAll participants me input turns node received).result = some result

variable {received : List (Participant × Nat × MessageType T)}
  {result : Except BroadcastError (List (Option T))}

theorem Ends.ofResult (done : node.result = some result) :
    Ends participants me input node received result := ⟨0, done⟩

theorem Ends.simulated (running : node.result = none) (own : node.simulated = some (sid, vote))
    (ends : Ends participants me input (iterate participants me input node me sid vote).1 received
      result) : Ends participants me input node received result := by
  obtain ⟨turns, done⟩ := ends
  exact ⟨turns + 1, by simpa [receiveAll, running, own] using done⟩

theorem Ends.taken (running : node.result = none) (nothing : node.simulated = none)
    (ends : Ends participants me input (iterate participants me input node sender sid vote).1
      received result) :
    Ends participants me input node ((sender, sid, vote) :: received) result := by
  obtain ⟨turns, done⟩ := ends
  exact ⟨turns + 1, by simpa [receiveAll, running, nothing] using done⟩

theorem ends_filter_of_receiveAll (harmless : ∀ vote ∈ received, Harmless participants vote)
    (done : (receiveAll participants me input turns node received).result = some result) :
    Ends participants me input node (received.filter (participants.contains ·.1)) result := by
  induction turns generalizing node received with
  | zero => exact .ofResult done
  | succ turns ih =>
    cases running : node.result with
    | some early =>
      simp only [receiveAll, running, Option.isSome_some, if_true] at done
      exact .ofResult (running.trans done)
    | none =>
      cases nothing : node.simulated with
      | some own =>
        obtain ⟨sid, vote⟩ := own
        simp only [receiveAll, running, nothing, Option.isSome_none, Bool.false_eq_true,
          if_false] at done
        exact .simulated running nothing (ih harmless done)
      | none =>
        simp only [receiveAll, running, nothing, Option.isSome_none, Bool.false_eq_true,
          if_false] at done
        cases received with
        | nil => exact .ofResult done
        | cons first rest =>
          obtain ⟨sender, sid, vote⟩ := first
          have ends := ih (fun vote inside => harmless vote (List.mem_cons_of_mem _ inside))
            done
          cases isMember : participants.contains sender with
          | true =>
            rw [List.filter_cons_of_pos (by simpa using isMember)]
            exact .taken running nothing ends
          | false =>
            rw [List.filter_cons_of_neg (by simp [isMember])]
            rwa [iterate_outsider isMember nothing
              (harmless _ List.mem_cons_self isMember)] at ends

theorem ends_of_receiveAll_filter (harmless : ∀ vote ∈ received, Harmless participants vote)
    (done : (receiveAll participants me input turns node
      (received.filter (participants.contains ·.1))).result = some result) :
    Ends participants me input node received result := by
  induction turns generalizing node received with
  | zero => exact .ofResult done
  | succ turns ih =>
    cases running : node.result with
    | some early =>
      simp only [receiveAll, running, Option.isSome_some, if_true] at done
      exact .ofResult (running.trans done)
    | none =>
      cases nothing : node.simulated with
      | some own =>
        obtain ⟨sid, vote⟩ := own
        simp only [receiveAll, running, nothing, Option.isSome_none, Bool.false_eq_true,
          if_false] at done
        exact .simulated running nothing (ih harmless done)
      | none =>
        -- Votes of outsiders are taken one by one until the next vote that counts.
        induction received with
        | nil => simp [receiveAll, running, nothing] at done
        | cons first rest skipped =>
          obtain ⟨sender, sid, vote⟩ := first
          have harmless' := fun vote inside =>
            harmless vote (List.mem_cons_of_mem _ inside)
          refine .taken running nothing ?_
          cases isMember : participants.contains sender with
          | true =>
            rw [List.filter_cons_of_pos (by simpa using isMember)] at done
            simp only [receiveAll, running, nothing, Option.isSome_none,
              Bool.false_eq_true, if_false] at done
            exact ih harmless' done
          | false =>
            rw [List.filter_cons_of_neg (by simp [isMember])] at done
            rw [iterate_outsider isMember nothing
              (harmless _ List.mem_cons_self isMember)]
            exact skipped harmless' done

/-- What a broadcast comes to after some number of turns. -/
def Broadcasts (participants : ParticipantList) (me : Participant) (input : T)
    (received : List (Participant × Nat × MessageType T))
    (result : Except ProtocolError (ParticipantMap T)) : Prop :=
  ∃ turns, doBroadcast participants me input ⟨turns, received⟩ = result.mapError .failed

theorem Broadcasts.mono
    {result : Except ProtocolError (ParticipantMap T)}
    (ends : ∀ turns result, (receiveAll participants me input turns
        (startBroadcast participants me input) received).result = some result →
      Ends participants me input (startBroadcast participants me input) received' result)
    (broadcasts : Broadcasts participants me input received result) :
    Broadcasts participants me input received' result := by
  obtain ⟨turns, done⟩ := broadcasts
  unfold doBroadcast at done
  split at done
  · rename_i isMember
    cases outcome : (receiveAll participants me input turns
        (startBroadcast participants me input) received).result with
    | none => cases result <;> simp [outcome, Except.mapError] at done
    | some outputs =>
      obtain ⟨turns', outcome'⟩ := ends turns outputs outcome
      refine ⟨turns', ?_⟩
      rw [← done, doBroadcast, if_pos isMember]
      simp only [outcome, outcome']
  · rename_i isOutsider
    exact ⟨turns, by rw [← done, doBroadcast, if_neg isOutsider]⟩

theorem broadcasts_filter (messages : List (Participant × MessageData))
    (harmless : ∀ message ∈ messages, participants.contains message.1 = false →
      noSendVote participants decode message.2 = true) :
    Broadcasts participants me input
        (votes decode (messages.filter (participants.contains ·.1))) =
      Broadcasts participants me input (votes decode messages) := by
  have isHarmless := harmless_votes harmless
  funext result
  rw [votes_filter]
  exact propext ⟨.mono fun _ _ => ends_of_receiveAll_filter isHarmless,
    .mono fun _ _ => ends_filter_of_receiveAll isHarmless⟩

end Broadcast

/-- Messages of others that decode do not matter to private receives and gathers, and those that are
    no send votes do not matter to a broadcast. -/
theorem receives_ignore_others (messages messages' : List (Participant × MessageData)) :
    (∀ (T : Type) (channel : PrivateChannel) (decode : MessageData → Except String T),
      Agree (fun sender => decide (sender = channel.peer)) (decodes decode) messages messages' →
        channel.recvAmong decode messages = channel.recvAmong decode messages') ∧
    (∀ (T : Type) (participants : ParticipantList) (me : Participant)
      (decode : MessageData → Except String T),
      Agree participants.contains (decodes decode) messages messages' →
        recvFromOthers participants me (payloads decode messages) =
          recvFromOthers participants me (payloads decode messages')) ∧
    ∀ (T : Type) [DecidableEq T] (participants : ParticipantList) (me : Participant) (input : T)
      (decode : MessageData → Except String (Nat × MessageType T)),
      Agree participants.contains (noSendVote participants decode) messages messages' →
        ∀ result, Broadcasts participants me input (votes decode messages) result ↔
          Broadcasts participants me input (votes decode messages') result := by
  refine ⟨?_, ?_, ?_⟩
  · intro T channel decode agree
    exact agree.eq_of_filter _ (channel.recvAmong_filter decode)
  · intro T participants me decode agree
    exact agree.eq_of_filter (fun messages =>
      recvFromOthers participants me (payloads decode messages))
      fun messages harmless => gather_filter participants decode messages harmless _ _
  · intro T _ participants me input decode agree result
    exact iff_of_eq (congrFun (agree.eq_of_filter (fun messages =>
      Broadcasts participants me input (votes decode messages)) broadcasts_filter) result)

private def peerDigest (_ : List UInt8) : List UInt8 :=
  [245, 105, 128, 34, 164, 168, 47, 106, 167, 188, 157, 156, 78, 163, 77, 195, 184, 53, 200, 12,
    184, 252, 63, 114, 14, 115, 162, 22, 187, 45, 39, 22]

private def groupDigest (_ : List UInt8) : List UInt8 :=
  [68, 1, 3, 169, 34, 181, 92, 99, 108, 72, 192, 57, 220, 114, 149, 95, 131, 115, 111, 200, 159,
    207, 143, 2, 81, 105, 255, 60, 126, 81, 4, 58]

private def peerChannel : PrivateChannel := .new peerDigest ⟨0⟩ ⟨1⟩

private def groupChannel : SharedChannel := .new groupDigest

private theorem twoDistinct : ([⟨0⟩, ⟨1⟩] : List Participant).Nodup := by decide

private def twoMembers : ParticipantList := ⟨[⟨0⟩, ⟨1⟩], twoDistinct⟩

private def emptyBuffer : String := "IO error while reading marker: failed to fill whole buffer"

private def oneByte : MessageData → Except String UInt8
  | [number] => if number < 128 then .ok number else .error emptyBuffer
  | _ => .error emptyBuffer

private def nameOf : MessageType UInt8 → List UInt8
  | .send _ => [164, 83, 101, 110, 100]
  | .echo _ => [164, 69, 99, 104, 111]
  | .ready _ => [165, 82, 101, 97, 100, 121]

private def valueOf : MessageType UInt8 → UInt8
  | .send value | .echo value | .ready value => value

private def encodeVote (message : Nat × MessageType UInt8) : Option MessageData :=
  some ([146, UInt8.ofNat message.1, 129] ++ nameOf message.2 ++ [valueOf message.2])

private def decodeVote (data : MessageData) : Except String (Nat × MessageType UInt8) :=
  let sid := data.getD 1 0
  let value := data.getLastD 0
  if encodeVote (sid.toNat, .send value) = some data then .ok (sid.toNat, .send value)
  else if encodeVote (sid.toNat, .echo value) = some data then .ok (sid.toNat, .echo value)
  else if encodeVote (sid.toNat, .ready value) = some data then .ok (sid.toNat, .ready value)
  else .error emptyBuffer

private def bothValues : ParticipantMap UInt8 := ⟨twoMembers, [some 5, some 6], rfl⟩

private def underHeader (header : MessageHeader) (messages : List (Participant × MessageData)) :
    List (Participant × MessageData) :=
  messages.map fun message => (message.1, header.toBytes ++ message.2)

/-- The message of participant 1 after those of the stranger. -/
private def toPeer (others : List (Participant × MessageData)) : List (Participant × MessageData) :=
  underHeader peerChannel.header (others ++ [(⟨1⟩, [5])])

private def toGroup (others : List (Participant × MessageData)) : List (Participant × MessageData) :=
  underHeader groupChannel.header (others ++ [(⟨1⟩, [5])])

/-- The vote of participant 1 after those of the stranger. -/
private def toBroadcast (others : List (Participant × MessageData)) :
    List (Participant × MessageData) :=
  underHeader groupChannel.header (others ++ [(⟨1⟩, [146, 1, 129, 164, 83, 101, 110, 100, 6])])

private def strayEcho : List (Participant × MessageData) :=
  [(⟨2⟩, []), (⟨2⟩, [146, 1, 129, 164, 69, 99, 104, 111, 9])]

theorem receives_ignore_stranger :
    peerChannel.recvAmong oneByte (toPeer [(⟨2⟩, [7])]) = .ok 5 ∧
    recvFromOthers twoMembers ⟨0⟩ (payloads oneByte (toGroup [(⟨2⟩, [7])])) = .ok [(⟨1⟩, 5)] ∧
    Broadcasts twoMembers ⟨0⟩ 5 (votes decodeVote (toBroadcast strayEcho)) (.ok bothValues) := by
  refine ⟨?_, ?_, ?_⟩
  · have same := (receives_ignore_others (toPeer [(⟨2⟩, [7])]) (toPeer [])).1 UInt8 peerChannel oneByte
      ⟨by decide +kernel, by decide +kernel⟩
    rw [same]
    decide +kernel
  · have same := (receives_ignore_others (toGroup [(⟨2⟩, [7])]) (toGroup [])).2.1 UInt8 twoMembers ⟨0⟩
      oneByte ⟨by decide +kernel, by decide +kernel⟩
    rw [same]
    decide +kernel
  · have same := (receives_ignore_others (toBroadcast strayEcho) (toBroadcast [])).2.2 UInt8 twoMembers ⟨0⟩
      5 decodeVote ⟨by decide +kernel, by decide +kernel⟩
    exact (same _).mpr ⟨7, by decide +kernel⟩

theorem receives_fail_for_others :
    peerChannel.recvAmong oneByte (toPeer []) = .ok 5 ∧
    peerChannel.recvAmong oneByte (toPeer [(⟨2⟩, [])]) = .error (.failed (.other emptyBuffer)) ∧
    recvFromOthers twoMembers ⟨0⟩ (payloads oneByte (toGroup [])) = .ok [(⟨1⟩, 5)] ∧
    recvFromOthers twoMembers ⟨0⟩ (payloads oneByte (toGroup [(⟨2⟩, [])])) =
      .error (.failed (.other emptyBuffer)) ∧
    doBroadcast twoMembers ⟨0⟩ 5 ⟨7, votes decodeVote (toBroadcast [])⟩ = .ok bothValues ∧
    doBroadcast twoMembers ⟨0⟩ 5 ⟨7, votes decodeVote
      (toBroadcast [(⟨2⟩, [146, 1, 129, 164, 83, 101, 110, 100, 9])])⟩ =
        .error (.failed .invalidIndex) := by
  refine ⟨?_, ?_, ?_, ?_, ?_, ?_⟩ <;> decide +kernel

end MpcNetwork.Threshold
