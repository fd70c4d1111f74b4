import Mathlib.Data.List.Perm.Basic
import MpcNetwork.Lib.Fallible
import MpcNetwork.Lib.Jobs
import MpcNetwork.Threshold.EchoBroadcast.Safety
import MpcNetwork.Threshold.Protocol

/-! # Rounds of a protocol

What one participant does in a round: it gathers one message from everybody else, or takes
part in an echo broadcast.  The messages that have come so far are a list, and a participant
that has used them up is pending.
-/

namespace MpcNetwork.Threshold

open EchoBroadcast Fallible Jobs

namespace ParticipantList

variable {l : ParticipantList}

theorem index_isSome_iff : (l.index p).isSome ↔ p ∈ l.participants := by
  rw [index, List.isSome_idxOf?]

theorem lt_of_index (here : l.index p = some i) : i < l.len := by
  obtain ⟨inside, _⟩ := List.findIdx?_eq_some_iff_getElem.mp here
  exact inside

theorem index_getElem (inside : i < l.participants.length) :
    l.index l.participants[i] = some i := by
  obtain ⟨j, there⟩ := Option.isSome_iff_exists.mp
    (index_isSome_iff.mpr (List.getElem_mem inside))
  obtain ⟨inside', same, _⟩ := List.findIdx?_eq_some_iff_getElem.mp there
  rw [there, (l.distinct.getElem_inj_iff).mp (eq_of_beq same)]

end ParticipantList

structure ParticipantMap (T : Type) where
  participants : ParticipantList
  data : List (Option T)
  complete : data.length = participants.len
  deriving DecidableEq

namespace ParticipantMap

variable {T : Type}

def new (participants : ParticipantList) : ParticipantMap T where
  participants := participants
  data := List.replicate participants.len none
  complete := List.length_replicate

/-- The value of a participant, if it is known and there. -/
def get (map : ParticipantMap T) (p : Participant) : Option T :=
  (map.participants.index p).bind fun i => map.data[i]?.join

/-- A participant that is unknown or has a value already is ignored. -/
def put (map : ParticipantMap T) (p : Participant) (value : T) : ParticipantMap T :=
  match map.participants.index p with
  | none => map
  | some i =>
    match map.data[i]? with
    | some none => { map with
        data := map.data.set i (some value)
        complete := by rw [List.length_set, map.complete] }
    | _ => map

def index (map : ParticipantMap T) (p : Participant) : Except ProtocolError T := do
  let i ← found .invalidIndex (map.participants.index p)
  let value ← found .invalidIndex map.data[i]?
  found (.other "No data found") value

/-- The values in the order of the participants, if all are there. -/
def toRefsOrNone (map : ParticipantMap T) : Option (List T) := map.data.mapM id

theorem get_of_index {map : ParticipantMap T} (done : map.index p = .ok value) :
    map.get p = some value := by
  unfold index at done
  simp only [bind_ok_iff, found_eq_ok] at done
  obtain ⟨i, here, _, there, rfl⟩ := done
  rw [get, here, Option.bind_some, there, Option.join_some]

theorem get_new (participants : ParticipantList) (p : Participant) :
    (new participants : ParticipantMap T).get p = none := by
  unfold get new
  cases here : participants.index p with
  | none => rfl
  | some i => simp [ParticipantList.lt_of_index here]

@[simp] theorem participants_put (map : ParticipantMap T) (p : Participant) (value : T) :
    (map.put p value).participants = map.participants := by
  unfold put
  split
  · rfl
  · split <;> rfl

theorem get_put (map : ParticipantMap T) (value : T) (inside : p ∈ map.participants.participants)
    (fresh : map.get p = none) (q : Participant) :
    (map.put p value).get q = if q = p then some value else map.get q := by
  obtain ⟨i, here⟩ := Option.isSome_iff_exists.mp (ParticipantList.index_isSome_iff.mpr inside)
  have bound : i < map.data.length := map.complete.symm ▸ ParticipantList.lt_of_index here
  have free : map.data[i]? = some none := by
    rw [get, here, Option.bind_some, List.getElem?_eq_getElem bound, Option.join_some] at fresh
    rw [List.getElem?_eq_getElem bound, fresh]
  simp only [put, here, free, get]
  by_cases same : q = p
  · subst same
    rw [if_pos rfl, here, Option.bind_some, List.getElem?_set_self bound, Option.join_some]
  · rw [if_neg same]
    cases there : map.participants.index q with
    | none => rfl
    | some j =>
      have apart : i ≠ j := by
        rintro rfl
        exact same (index_injective there here)
      rw [Option.bind_some, Option.bind_some, List.getElem?_set_ne apart]

theorem toRefsOrNone_eq {map : ParticipantMap T}
    (full : ∀ p ∈ map.participants.participants, map.get p = some (value p)) :
    map.toRefsOrNone = some (map.participants.participants.map value) := by
  have entries : map.data = map.participants.participants.map fun p => some (value p) := by
    apply List.ext_getElem
    · rw [List.length_map, map.complete, ParticipantList.len]
    · intro i bound bound'
      rw [List.length_map] at bound'
      have there := full _ (List.getElem_mem bound')
      rw [get, ParticipantList.index_getElem bound', Option.bind_some,
        List.getElem?_eq_getElem bound, Option.join_some] at there
      rw [there, List.getElem_map]
  rw [toRefsOrNone, entries]
  induction map.participants.participants with
  | nil => rfl
  | cons p ps ih => simp [ih]

end ParticipantMap

namespace EchoBroadcast.ParticipantCounter

def full (c : ParticipantCounter) (participants : ParticipantList) : Bool :=
  c.seen.length = participants.len

end EchoBroadcast.ParticipantCounter

section Gather

variable {T : Type}

/-- The loop of `recv_from_others`.  A message that cannot be decoded ends it. -/
def gather (participants : ParticipantList) : ParticipantCounter → List (Participant × T) →
    List (Participant × Except String T) → Except (Stop ProtocolError) (List (Participant × T))
  | seen, messages, received =>
    if seen.full participants then .ok messages
    else
      match received with
      | [] => .error .pending
      | (_, .error text) :: _ => .error (.failed (.other text))
      | (sender, .ok message) :: rest =>
        let put := seen.put participants sender
        gather participants put.1
          (if put.2 then messages ++ [(sender, message)] else messages) rest

def recvFromOthers (participants : ParticipantList) (me : Participant)
    (received : List (Participant × Except String T)) :
    Except (Stop ProtocolError) (List (Participant × T)) :=
  gather participants (ParticipantCounter.new.put participants me).1 [] received

/-- The counted participants are the senders of the messages and `me`. -/
structure Gathered (participants : ParticipantList) (me : Participant) (seen : ParticipantCounter)
    (messages : List (Participant × T)) : Prop where
  counted : seen.seen.Perm (me :: messages.map Prod.fst)
  distinct : seen.seen.Nodup
  known : ∀ p ∈ seen.seen, p ∈ participants.participants

theorem gather_ok (gathered : Gathered participants me seen messages)
    (done : gather participants seen messages received = .ok result) :
    ∃ all : ParticipantCounter, all.full participants ∧ Gathered participants me all result := by
  induction received generalizing seen messages with
  | nil =>
    unfold gather at done
    split at done
    · rename_i isFull
      cases done
      exact ⟨seen, isFull, gathered⟩
    · cases done
  | cons first rest ih =>
    obtain ⟨sender, decoded⟩ := first
    unfold gather at done
    split at done
    · rename_i isFull
      cases done
      exact ⟨seen, isFull, gathered⟩
    · cases decoded with
      | error text => cases done
      | ok message =>
        apply ih _ done
        unfold ParticipantCounter.put
        split
        · rename_i isNew
          simp only [Bool.and_eq_true, Bool.not_eq_true', ParticipantList.contains_iff,
            List.contains_eq_mem, decide_eq_false_iff_not] at isNew
          refine ⟨?_, List.nodup_cons.mpr ⟨isNew.2, gathered.distinct⟩, ?_⟩
          · simp only [if_true, List.map_append, List.map_cons, List.map_nil]
            refine (gathered.counted.cons sender).trans ?_
            rw [← List.cons_append]
            exact (List.perm_append_singleton _ _).symm
          · intro p inside
            rcases List.mem_cons.mp inside with rfl | earlier
            · exact isNew.1
            · exact gathered.known p earlier
        · exact gathered

theorem recvFromOthers_ok {messages : List (Participant × T)}
    (member : me ∈ participants.participants)
    (done : recvFromOthers participants me received = .ok messages) :
    participants.participants.Perm (me :: messages.map Prod.fst) := by
  have start : Gathered participants me (ParticipantCounter.new.put participants me).1
      ([] : List (Participant × T)) := by
    have isNew : participants.contains me && !ParticipantCounter.new.seen.contains me := by
      simp [ParticipantCounter.new, member]
    simp only [ParticipantCounter.put, isNew, if_true]
    exact ⟨by simp [ParticipantCounter.new], by simp [ParticipantCounter.new],
      by simpa [ParticipantCounter.new] using member⟩
  obtain ⟨all, isFull, gathered⟩ := gather_ok start done
  have everybody : all.seen.Perm participants.participants := by
    refine (gathered.distinct.subperm gathered.known).perm_of_length_le ?_
    exact (of_decide_eq_true isFull : all.seen.length = participants.len).ge
  exact everybody.symm.trans gathered.counted

end Gather

def EchoBroadcast.BroadcastError.toProtocolError : BroadcastError → ProtocolError
  | .invalidIndex => .invalidIndex
  | .missingElement => .other BroadcastError.missingElement.text
  | .maliciousSender sid => .assertionFailed (BroadcastError.maliciousSender sid).text
  | .outputDiffers sid => .assertionFailed (BroadcastError.outputDiffers sid).text

section Broadcast

variable {T : Type} [DecidableEq T]

/-- The votes that have come, in their order, and for how many turns the loop has run. -/
structure Votes (T : Type) where
  turns : Nat
  received : List (Participant × Nat × MessageType T)

def startBroadcast (participants : ParticipantList) (me : Participant) (input : T) : Node T where
  state := fun _ => .new
  voteOutput := fun _ => none
  simulated := (participants.index me).map fun sid => (sid, .send input)
  result := none

/-- `reliable_broadcast_receive_all` for so many turns, without votes that do not decode. -/
def receiveAll (participants : ParticipantList) (me : Participant) (input : T) :
    Nat → Node T → List (Participant × Nat × MessageType T) → Node T
  | 0, node, _ => node
  | turns + 1, node, received =>
    if node.result.isSome then node
    else
      match node.simulated, received with
      | some (sid, vote), _ =>
        receiveAll participants me input turns
          (iterate participants me input node me sid vote).1 received
      | none, [] => node
      | none, (sender, sid, vote) :: rest =>
        receiveAll participants me input turns
          (iterate participants me input node sender sid vote).1 rest

def doBroadcast (participants : ParticipantList) (me : Participant) (input : T) (votes : Votes T) :
    Except (Stop ProtocolError) (ParticipantMap T) :=
  if participants.contains me then
    match (receiveAll participants me input votes.turns (startBroadcast participants me input)
        votes.received).result with
    | none => .error .pending
    | some (.error error) => .error (.failed error.toProtocolError)
    | some (.ok outputs) =>
      .ok ⟨participants, (List.range participants.len).map fun sid => outputs[sid]?.join, by simp⟩
  else .error (.failed .invalidIndex)

/-- What a participant has of its own session is what it sent. -/
structure OwnOutput (participants : ParticipantList) (me : Participant) (input : T)
    (node : Node T) : Prop where
  finished : ∀ sid, (node.state sid).finishReady = true → node.voteOutput sid ≠ none
  own : (∃ error, node.result = some (.error error)) ∨
    ∀ sid value, participants.index me = some sid → node.voteOutput sid = some value →
      value = input
  returned : ∀ outputs, node.result = some (.ok outputs) →
    outputs = (List.range participants.len).map node.voteOutput ∧
      ∀ sid < participants.len, (node.state sid).finishReady = true

variable {participants : ParticipantList} {me : Participant} {input : T} {node : Node T}

theorem iterate_differs (inside : sid < participants.len) (own : participants.index me = some sid)
    (output : (onVote participants (node.state sid) sender sid vote).outcome = .output value)
    (differs : value ≠ input) :
    (iterate participants me input node sender sid vote).1.result =
      some (.error (.outputDiffers sid)) := by
  simp only [iterate, if_pos inside, output, deliver, own, differs, ne_eq, not_false_eq_true,
    and_self, if_true]

theorem OwnOutput.iterate (holds : OwnOutput participants me input node)
    (running : node.result = none) (sender : Participant) (sid : Nat) (vote : MessageType T) :
    OwnOutput participants me input (iterate participants me input node sender sid vote).1 := by
  by_cases inside : sid < participants.len
  · have spec := onVote_spec participants (node.state sid) sender sid vote
    have iter := iterate_spec participants me input node sender sid vote inside
    refine ⟨?_, ?_, ?_⟩
    · intro i finished
      rw [iter.state] at finished
      by_cases same : i = sid
      · subst same
        rw [Function.update_self] at finished
        rcases spec.finishReady finished with before | ⟨value, now⟩
        · exact iter.keeps i (holds.finished i before)
        · exact iter.filled value now
      · rw [Function.update_of_ne same] at finished
        exact iter.keeps i (holds.finished i finished)
    · by_cases differs : ∃ value, (onVote participants (node.state sid) sender sid vote).outcome =
          .output value ∧ participants.index me = some sid ∧ value ≠ input
      · obtain ⟨value, output, own, differs⟩ := differs
        exact .inl ⟨_, iterate_differs inside own output differs⟩
      · refine .inr ?_
        intro i value own there
        rcases iter.output i value there with before | ⟨rfl, now⟩
        · rcases holds.own with ⟨error, failed⟩ | same
          · rw [running] at failed
            cases failed
          · exact same i value own before
        · by_contra other
          exact differs ⟨value, now, own, other⟩
    · intro outputs returned
      rcases iter.result with same | ⟨error, _, now⟩ | ⟨value, output, own, differs⟩ | ⟨now, done⟩
      · rw [same, running] at returned
        cases returned
      · rw [now] at returned
        cases returned
      · rw [iterate_differs inside own output differs] at returned
        cases returned
      · rw [now] at returned
        cases returned
        exact ⟨rfl, done⟩
  · have unchanged : (EchoBroadcast.iterate participants me input node sender sid vote).1 =
        { node with simulated := none } := by
      simp only [EchoBroadcast.iterate, if_neg inside]
    rw [unchanged]
    exact ⟨holds.finished, holds.own, holds.returned⟩

theorem OwnOutput.receiveAll (turns : Nat) (holds : OwnOutput participants me input node)
    (received : List (Participant × Nat × MessageType T)) :
    OwnOutput participants me input (receiveAll participants me input turns node received) := by
  induction turns generalizing node received with
  | zero => exact holds
  | succ turns ih =>
    unfold Threshold.receiveAll
    split
    · exact holds
    · rename_i running
      rw [Bool.not_eq_true, Option.isSome_eq_false_iff, Option.isNone_iff_eq_none] at running
      split
      · exact ih (holds.iterate running _ _ _) _
      · exact holds
      · exact ih (holds.iterate running _ _ _) _

theorem doBroadcast_ok (done : doBroadcast participants me input votes = .ok map) :
    me ∈ participants.participants ∧ map.participants = participants ∧
      map.get me = some input := by
  unfold doBroadcast at done
  split at done
  · rename_i member
    have start : OwnOutput participants me input (startBroadcast participants me input) := by
      refine ⟨?_, .inr ?_, ?_⟩ <;> simp [startBroadcast, BroadcastProtocolState.new]
    have ended := start.receiveAll votes.turns votes.received
    split at done
    · cases done
    · cases done
    · rename_i outputs result
      cases done
      refine ⟨ParticipantList.contains_iff.mp member, rfl, ?_⟩
      obtain ⟨rfl, finished⟩ := ended.returned outputs result
      obtain ⟨sid, own⟩ := Option.isSome_iff_exists.mp
        (ParticipantList.index_isSome_iff.mpr (ParticipantList.contains_iff.mp member))
      have inside := ParticipantList.lt_of_index own
      obtain ⟨value, there⟩ :=
        Option.ne_none_iff_exists'.mp (ended.finished sid (finished sid inside))
      rcases ended.own with ⟨error, failed⟩ | same
      · rw [failed] at result
        cases result
      · simp only [ParticipantMap.get, own, Option.bind_some, List.getElem?_map,
          List.getElem?_range inside, Option.map_some, there, Option.join_some]
        rw [same sid value own there]
  · cases done

end Broadcast

end MpcNetwork.Threshold
