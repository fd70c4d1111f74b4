import Mathlib.Data.Finset.Card
import MpcNetwork.Lib.Runs
import MpcNetwork.Threshold.Participants

/-! # Echo broadcast

Every participant broadcasts one value, so there is one session per participant,
numbered by the participant's index.  A session has three kinds of votes.  A vote a
participant sends goes to all others, and the participant then handles it as its own
before it receives anything else: the loop's simulated vote.

One transition is one iteration of that loop in one honest participant.
-/

namespace MpcNetwork.Threshold.EchoBroadcast

open Runs

inductive MessageType (T : Type) where
  | send (data : T)
  | echo (data : T)
  | ready (data : T)
  deriving Repr, DecidableEq

/-- Counts of the distinct values seen, in the order of their first appearance. -/
structure CounterList (T : Type) where
  list : List (T × Nat)
  deriving Repr, DecidableEq

namespace CounterList

variable {T : Type} [DecidableEq T]

def new : CounterList T := ⟨[]⟩

def bump (item : T) : List (T × Nat) → List (T × Nat)
  | [] => [(item, 1)]
  | (e, count) :: rest => if e = item then (e, count + 1) :: rest else (e, count) :: bump item rest

def insertOrIncreaseCounter (c : CounterList T) (item : T) : CounterList T := ⟨bump item c.list⟩

def get (c : CounterList T) (item : T) : Option Nat :=
  (c.list.find? fun entry => entry.1 = item).map Prod.snd

def getSumCounters (c : CounterList T) : Nat := (c.list.map Prod.snd).sum

end CounterList

structure ParticipantCounter where
  seen : List Participant
  deriving Repr, DecidableEq

namespace ParticipantCounter

def new : ParticipantCounter := ⟨[]⟩

/-- Only a participant of the list that was not counted before is inserted. -/
def put (c : ParticipantCounter) (participants : ParticipantList) (p : Participant) :
    ParticipantCounter × Bool :=
  if participants.contains p && !c.seen.contains p then (⟨p :: c.seen⟩, true) else (c, false)

end ParticipantCounter

def echoReadyThresholds (n : Nat) : Nat × Nat :=
  if n ≤ 3 then (0, 0)
  else
    let broadcastThreshold := (n - 1) / 3
    let echoThreshold := (n + broadcastThreshold) / 2
    (echoThreshold, broadcastThreshold)

inductive BroadcastError where
  | invalidIndex
  | missingElement
  | maliciousSender (sid : Nat)
  | outputDiffers (sid : Nat)
  deriving Repr, DecidableEq

def BroadcastError.text : BroadcastError → String
  | invalidIndex => "The index you are looking for is invalid"
  | missingElement => "Missing element in CounterList"
  | maliciousSender sid =>
    s!"The original sender in session {sid} is malicious! Could not collect enough echo votes to meet the threshold"
  | outputDiffers _ =>
    "Too many malicious parties, way above the assumed threshold:
                          The message output after the broadcast protocol is not the same as
                          the one originally sent by me"

/-- The session in which a participant gives up, for the errors that blame one. -/
def BroadcastError.session : BroadcastError → Option Nat
  | maliciousSender sid | outputDiffers sid => some sid
  | _ => none

structure BroadcastProtocolState (T : Type) where
  dataEcho : CounterList T
  dataReady : CounterList T
  seenEcho : ParticipantCounter
  seenReady : ParticipantCounter
  finishSend : Bool
  finishEcho : Bool
  finishAmplification : Bool
  finishReady : Bool
  deriving Repr, DecidableEq

def BroadcastProtocolState.new {T : Type} : BroadcastProtocolState T where
  dataEcho := .new
  dataReady := .new
  seenEcho := .new
  seenReady := .new
  finishSend := false
  finishEcho := false
  finishAmplification := false
  finishReady := false

/-- What handling a vote leads to besides the new session state. -/
inductive Outcome (T : Type) where
  | proceed
  | fail (error : BroadcastError)
  | output (data : T)
  deriving Repr, DecidableEq

/-- An announced vote is sent to everybody else and becomes the next simulated vote. -/
structure Effect (T : Type) where
  session : BroadcastProtocolState T
  announce : Option (MessageType T)
  outcome : Outcome T
  deriving Repr, DecidableEq

def skip {T : Type} (session : BroadcastProtocolState T) : Effect T := ⟨session, none, .proceed⟩

section Handlers

variable {T : Type} [DecidableEq T]

/-- A send counts when it is the first one and comes from the session's own participant. -/
def onSend (participants : ParticipantList) (s : BroadcastProtocolState T) (sender : Participant)
    (sid : Nat) (data : T) : Effect T :=
  if s.finishSend then skip s
  else
    match participants.index sender with
    | none => ⟨s, none, .fail .invalidIndex⟩
    | some index =>
      if sid ≠ index then skip s
      else ⟨{ s with finishSend := true }, some (.echo data), .proceed⟩

/-- Whether some value can still exceed the echo threshold with the votes outstanding. -/
def isEnough (n echoT : Nat) (c : CounterList T) : Bool :=
  let nonReceivedEchoCnt := n - c.getSumCounters
  c.list.any fun entry => entry.2 + nonReceivedEchoCnt > echoT

def onEcho (participants : ParticipantList) (s : BroadcastProtocolState T) (sender : Participant)
    (sid : Nat) (data : T) : Effect T :=
  let n := participants.len
  let echoT := (echoReadyThresholds n).1
  let put := s.seenEcho.put participants sender
  let s := { s with seenEcho := put.1 }
  if !put.2 || s.finishEcho then skip s
  else
    let s := { s with dataEcho := s.dataEcho.insertOrIncreaseCounter data }
    match s.dataEcho.get data with
    | none => ⟨s, none, .fail .missingElement⟩
    | some count =>
      if count > echoT then ⟨{ s with finishEcho := true }, some (.ready data), .proceed⟩
      else if !s.finishAmplification && !isEnough n echoT s.dataEcho then
        ⟨s, none, .fail (.maliciousSender sid)⟩
      else skip s

def onReady (participants : ParticipantList) (s : BroadcastProtocolState T) (sender : Participant)
    (data : T) : Effect T :=
  let readyT := (echoReadyThresholds participants.len).2
  let put := s.seenReady.put participants sender
  let s := { s with seenReady := put.1 }
  if !put.2 || s.finishReady then skip s
  else
    let s := { s with dataReady := s.dataReady.insertOrIncreaseCounter data }
    match s.dataReady.get data with
    | none => ⟨s, none, .fail .missingElement⟩
    | some count =>
      let amplify := count > readyT && !s.finishAmplification
      let s := if amplify then { s with finishAmplification := true } else s
      let announce := if amplify then some (.ready data) else none
      if count > 2 * readyT then
        ⟨{ s with finishSend := true, finishEcho := true, finishReady := true }, announce,
          .output data⟩
      else ⟨s, announce, .proceed⟩

def onVote (participants : ParticipantList) (s : BroadcastProtocolState T) (sender : Participant)
    (sid : Nat) : MessageType T → Effect T
  | .send data => onSend participants s sender sid data
  | .echo data => onEcho participants s sender sid data
  | .ready data => onReady participants s sender data

end Handlers

/-- A participant inside `do_broadcast`.  `state` and `voteOutput` are indexed by session. -/
structure Node (T : Type) where
  state : Nat → BroadcastProtocolState T
  voteOutput : Nat → Option T
  simulated : Option (Nat × MessageType T)
  result : Option (Except BroadcastError (List (Option T)))

section Iteration

variable {T : Type} [DecidableEq T]

/-- The end of an iteration in which the session gave its output. -/
def deliver (participants : ParticipantList) (me : Participant) (input : T) (node : Node T)
    (sid : Nat) (data : T) : Node T :=
  -- a slot of the output map that is already filled keeps its value
  let output := (node.voteOutput sid).getD data
  let node := { node with voteOutput := Function.update node.voteOutput sid (some output) }
  if participants.index me = some sid ∧ data ≠ input then
    { node with result := some (.error (.outputDiffers sid)) }
  else if (List.range participants.len).all fun i => (node.state i).finishReady then
    { node with result := some (.ok ((List.range participants.len).map node.voteOutput)) }
  else node

/-- One iteration of the loop on a vote, and the vote it announces. -/
def iterate (participants : ParticipantList) (me : Participant) (input : T) (node : Node T)
    (sender : Participant) (sid : Nat) (vote : MessageType T) :
    Node T × Option (Nat × MessageType T) :=
  if sid < participants.len then
    let effect := onVote participants (node.state sid) sender sid vote
    let announced := effect.announce.map (sid, ·)
    let node :=
      { node with state := Function.update node.state sid effect.session, simulated := announced }
    match effect.outcome with
    | .proceed => (node, announced)
    | .fail error => ({ node with result := some (.error error) }, announced)
    | .output data => (deliver participants me input node sid data, announced)
  else ({ node with simulated := none }, none)

end Iteration

/-- Who takes part, who is Byzantine and what everybody broadcasts. -/
structure Config (T : Type) where
  participants : ParticipantList
  byzantine : Finset Participant
  input : Participant → T

structure Message (T : Type) where
  sender : Participant
  receiver : Participant
  sid : Nat
  vote : MessageType T
  deriving Repr, DecidableEq

/-- Every participant with its state, and all votes honest participants have sent. -/
structure System (T : Type) where
  node : Participant → Node T
  posted : List (Participant × Nat × MessageType T)

inductive Event (T : Type) where
  | receive (m : Message T)
  | simulate (p : Participant)
  deriving Repr, DecidableEq

namespace Config

variable {T : Type} [DecidableEq T]

def Honest (cfg : Config T) (p : Participant) : Prop :=
  p ∈ cfg.participants.participants ∧ p ∉ cfg.byzantine

instance (cfg : Config T) (p : Participant) : Decidable (cfg.Honest p) :=
  inferInstanceAs (Decidable (_ ∧ _))

/-- The vote of `reliable_broadcast_send`. -/
def sendVote (cfg : Config T) (p : Participant) : Option (Nat × MessageType T) :=
  (cfg.participants.index p).map fun sid => (sid, .send (cfg.input p))

/-- Everybody has sent its value and is about to handle it itself. -/
def initial (cfg : Config T) : System T where
  node p :=
    { state := fun _ => .new, voteOutput := fun _ => none, simulated := cfg.sendVote p,
      result := none }
  posted := (cfg.participants.participants.filter fun p => p ∉ cfg.byzantine).filterMap fun p =>
    (cfg.sendVote p).map (p, ·)

/-- Let `p` handle a vote. -/
def handle (cfg : Config T) (s : System T) (p sender : Participant) (sid : Nat)
    (vote : MessageType T) : System T :=
  let (node, announced) :=
    iterate cfg.participants p (cfg.input p) (s.node p) sender sid vote
  { node := Function.update s.node p node
    posted := s.posted ++ (announced.map (p, ·)).toList }

/-- A message of an honest sender was sent by it, one of a Byzantine sender is arbitrary. -/
def Authentic (cfg : Config T) (s : System T) (m : Message T) : Prop :=
  m.sender ∈ cfg.participants.participants ∧ m.sender ≠ m.receiver ∧
    (m.sender ∈ cfg.byzantine ∨ (m.sender, m.sid, m.vote) ∈ s.posted)

instance (cfg : Config T) (s : System T) (m : Message T) : Decidable (cfg.Authentic s m) :=
  inferInstanceAs (Decidable (_ ∧ _ ∧ (_ ∨ _)))

/-- A simulated vote is handled before anything is received. -/
def step (cfg : Config T) (s : System T) : Event T → Option (System T × Unit)
  | .receive m =>
    if cfg.Honest m.receiver ∧ cfg.Authentic s m ∧ (s.node m.receiver).result.isNone ∧
        (s.node m.receiver).simulated.isNone then
      some (cfg.handle s m.receiver m.sender m.sid m.vote, ())
    else none
  | .simulate p =>
    if cfg.Honest p ∧ (s.node p).result.isNone then
      match (s.node p).simulated with
      | some (sid, vote) => some (cfg.handle s p p sid vote, ())
      | none => none
    else none

end Config

end MpcNetwork.Threshold.EchoBroadcast
