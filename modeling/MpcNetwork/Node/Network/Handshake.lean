import MpcNetwork.Node.Network.Connectivity

/-! # The handshake of a connection

The dialer and the listener exchange their protocol versions, the id that the dialer gives to the
connection and the smallest id that the listener expects.  Both compare the two ids in the same way.
The listener compares the id once more when it sets the connection.  The comparisons agree except
behind a connection with the greatest id of all: the next id is then taken to be zero.
-/

namespace MpcNetwork.Node.Network

open BigEndian Runs

/-- What one side of a byte stream does.  A read waits until all its bytes are there. -/
inductive Script (R : Type) where
  | done (result : R)
  | write (bytes : List UInt8) (next : Script R)
  | read (count : Nat) (next : List UInt8 → Script R)

/-- How far a side has come with the bytes that it was sent. -/
structure Progress (R : Type) where
  written : List UInt8
  result : Option R
  unread : List UInt8

namespace Script

variable {A B R : Type}

def run : Script R → List UInt8 → Progress R
  | .done result, input => ⟨[], some result, input⟩
  | .write bytes next, input =>
    let progress := next.run input
    { progress with written := bytes ++ progress.written }
  | .read count next, input =>
    if input.length < count then ⟨[], none, input⟩
    else (next (input.take count)).run (input.drop count)

/-- What both sides have written when each has been sent, turn after turn, what the other wrote. -/
def exchange (first : Script A) (second : Script B) : Nat → List UInt8 × List UInt8
  | 0 => ([], [])
  | turns + 1 =>
    let sent := exchange first second turns
    ((first.run sent.2).written, (second.run sent.1).written)

/-- Both sides come to an end, and each has read exactly what the other wrote. -/
def Conclude (first : Script A) (second : Script B) (a : A) (b : B) : Prop :=
  ∃ turns, let sent := exchange first second turns
    first.run sent.2 = ⟨sent.1, some a, []⟩ ∧ second.run sent.1 = ⟨sent.2, some b, []⟩

end Script

inductive CommunicationProtocols where
  | unsupported
  | dec2025
  | jan2026
  | unknown (version : UInt32)
  deriving Repr, DecidableEq

namespace CommunicationProtocols

def fromU32 (version : UInt32) : CommunicationProtocols :=
  if version < 7 then .unsupported
  else if version = 7 then .dec2025
  else if version = 8 then .jan2026
  else .unknown version

def toU32 : CommunicationProtocols → UInt32
  | .unsupported => 0
  | .dec2025 => 7
  | .jan2026 => 8
  | .unknown version => version

end CommunicationProtocols

def currentProtocolVersion : CommunicationProtocols := .jan2026

def magicByte : UInt8 := 0xcc

def minExpectedConnectionId : UInt32 := 0

structure ConnectionInfo where
  peerProtocolVersion : CommunicationProtocols
  senderConnectionId : UInt32
  minExpectedConnectionId : UInt32
  deriving Repr, DecidableEq

def ConnectionInfo.isAccepted (self : ConnectionInfo) : Bool :=
  self.minExpectedConnectionId ≤ self.senderConnectionId

inductive HandshakeOutcome where
  | unsupported (peerVersion : CommunicationProtocols)
  | dec2025 (accepted : Bool)
  | jan2026 (info : ConnectionInfo)
  deriving Repr, DecidableEq

def putU32 (value : UInt32) : List UInt8 := toBeBytes 4 value.toNat

def getU32 (bytes : List UInt8) : UInt32 := UInt32.ofNat (ofBeBytes bytes)

def magicByteAndProtocolVersion : List UInt8 := magicByte :: putU32 currentProtocolVersion.toU32

def readMagicByteAndProtocolVersion
    (next : UInt32 → Script (Except String HandshakeOutcome)) :
    Script (Except String HandshakeOutcome) :=
  .read 1 fun first =>
    if first ≠ [magicByte] then .done (.error "Invalid magic byte in handshake")
    else .read 4 fun version => next (getU32 version)

def p2pHandshakeDialer (senderConnectionId : UInt32) : Script (Except String HandshakeOutcome) :=
  .write magicByteAndProtocolVersion <| readMagicByteAndProtocolVersion fun version =>
    let peer := CommunicationProtocols.fromU32 version
    let exchangeIds := .write (putU32 senderConnectionId) <| .read 4 fun bytes =>
      .done (.ok (.jan2026 ⟨peer, senderConnectionId, getU32 bytes⟩))
    match peer with
    | .unsupported => .done (.ok (.unsupported peer))
    | .dec2025 => .done (.ok (.dec2025 true))
    | .jan2026 => exchangeIds
    | .unknown _ => exchangeIds

def p2pHandshakeListener (minExpected : UInt32) : Script (Except String HandshakeOutcome) :=
  readMagicByteAndProtocolVersion fun version =>
    let peer := CommunicationProtocols.fromU32 version
    let exchangeIds := .write (magicByteAndProtocolVersion ++ putU32 minExpected) <|
      .read 4 fun bytes => .done (.ok (.jan2026 ⟨peer, getU32 bytes, minExpected⟩))
    match peer with
    | .unsupported => .done (.ok (.unsupported peer))
    | .dec2025 =>
      if minExpected = minExpectedConnectionId then
        .write magicByteAndProtocolVersion (.done (.ok (.dec2025 true)))
      else .done (.ok (.dec2025 false))
    | .jan2026 => exchangeIds
    | .unknown _ => exchangeIds

theorem getU32_putU32 (value : UInt32) : getU32 (putU32 value) = value := by
  rw [getU32, putU32, ofBeBytes_toBeBytes value.toNat_lt, UInt32.ofNat_toNat]

theorem length_putU32 (value : UInt32) : (putU32 value).length = 4 := length_toBeBytes 4 _

@[simp] theorem Script.run_done {R : Type} (result : R) (input : List UInt8) :
    (Script.done result).run input = ⟨[], some result, input⟩ := rfl

@[simp] theorem Script.run_write {R : Type} (bytes : List UInt8) (next : Script R)
    (input : List UInt8) : (Script.write bytes next).run input =
      ⟨bytes ++ (next.run input).written, (next.run input).result, (next.run input).unread⟩ := rfl

theorem Script.run_read {R : Type} {next : List UInt8 → Script R} (whole : bytes.length = count) :
    (Script.read count next).run (bytes ++ rest) = (next bytes).run rest := by
  subst whole
  simp [Script.run]

theorem run_readMagicByteAndProtocolVersion
    (next : UInt32 → Script (Except String HandshakeOutcome)) (rest : List UInt8) :
    (readMagicByteAndProtocolVersion next).run (magicByteAndProtocolVersion ++ rest) =
      (next currentProtocolVersion.toU32).run rest := by
  have split : magicByteAndProtocolVersion ++ rest =
      [magicByte] ++ (putU32 currentProtocolVersion.toU32 ++ rest) := rfl
  rw [readMagicByteAndProtocolVersion, split, Script.run_read (by rfl), if_neg (by simp),
    Script.run_read (length_putU32 _), getU32_putU32]

theorem Script.run_read_u32 {R : Type} (next : List UInt8 → Script R) (value : UInt32) :
    (Script.read 4 next).run (putU32 value) = (next (putU32 value)).run [] := by
  rw [← Script.run_read (length_putU32 value), List.append_nil]

theorem Script.run_read_nil {R : Type} (next : List UInt8 → Script R) :
    (Script.read 4 next).run [] = ⟨[], none, []⟩ := rfl

section Exchange

variable (senderConnectionId minExpected : UInt32)

theorem dialer_run_nil : (p2pHandshakeDialer senderConnectionId).run [] =
    ⟨magicByteAndProtocolVersion, none, []⟩ := by
  simp [p2pHandshakeDialer, readMagicByteAndProtocolVersion, Script.run]

theorem dialer_run : (p2pHandshakeDialer senderConnectionId).run
      (magicByteAndProtocolVersion ++ putU32 minExpected) =
    ⟨magicByteAndProtocolVersion ++ putU32 senderConnectionId,
      some (.ok (.jan2026 ⟨currentProtocolVersion, senderConnectionId, minExpected⟩)), []⟩ := by
  have here : CommunicationProtocols.fromU32 currentProtocolVersion.toU32 =
    currentProtocolVersion := by decide
  simp only [p2pHandshakeDialer, Script.run_write, run_readMagicByteAndProtocolVersion, here]
  simp only [currentProtocolVersion, Script.run_write, Script.run_read_u32, Script.run_done,
    getU32_putU32, List.append_nil]

theorem listener_run_nil : (p2pHandshakeListener minExpected).run [] = ⟨[], none, []⟩ := by
  simp [p2pHandshakeListener, readMagicByteAndProtocolVersion, Script.run]

theorem listener_run (rest : List UInt8) : (p2pHandshakeListener minExpected).run
      (magicByteAndProtocolVersion ++ rest) =
    (Script.write (magicByteAndProtocolVersion ++ putU32 minExpected) <| .read 4 fun bytes =>
      .done (.ok (.jan2026 ⟨currentProtocolVersion, getU32 bytes, minExpected⟩))).run rest := by
  have here : CommunicationProtocols.fromU32 currentProtocolVersion.toU32 =
    currentProtocolVersion := by decide
  rw [p2pHandshakeListener, run_readMagicByteAndProtocolVersion, here]
  rfl

theorem handshake_concludes :
    (p2pHandshakeDialer senderConnectionId).Conclude (p2pHandshakeListener minExpected)
      (.ok (.jan2026 ⟨currentProtocolVersion, senderConnectionId, minExpected⟩))
      (.ok (.jan2026 ⟨currentProtocolVersion, senderConnectionId, minExpected⟩)) := by
  have first := listener_run minExpected []
  have last := listener_run minExpected (putU32 senderConnectionId)
  simp only [List.append_nil, Script.run_write, Script.run_read_nil, Script.run_read_u32,
    Script.run_done, getU32_putU32] at first last
  have sent : Script.exchange (p2pHandshakeDialer senderConnectionId)
      (p2pHandshakeListener minExpected) 3 =
      (magicByteAndProtocolVersion ++ putU32 senderConnectionId,
        magicByteAndProtocolVersion ++ putU32 minExpected) := by
    simp only [Script.exchange, dialer_run_nil, listener_run_nil, first, dialer_run]
  refine ⟨3, ?_⟩
  rw [sent]
  exact ⟨dialer_run _ _, last⟩

end Exchange

namespace Connections

/-- What the listener asks for: the id after that of the connection it has. -/
def minExpected (self : Connections) : UInt32 :=
  match self.node.incoming.senderConnectionId self.droppedIncoming with
  | some existingConnectionId => existingConnectionId + 1
  | none => minExpectedConnectionId

variable {s t : Connections} {es : List (Change × Bool)}

theorem incoming_of_run (run : Run (Acts act) s es t) (noneSet : es.filterMap incomingSet = []) :
    t.node.incoming = s.node.incoming ∧ s.droppedIncoming ⊆ t.droppedIncoming := by
  revert noneSet
  refine run.invariant (fun es t => es.filterMap incomingSet = [] →
    t.node.incoming = s.node.incoming ∧ s.droppedIncoming ⊆ t.droppedIncoming) ?_ ?_
  · intro _
    exact ⟨rfl, List.Subset.refl _⟩
  · intro es t e u _ kept acts noneSet
    rw [List.filterMap_append, List.append_eq_nil_iff] at noneSet
    obtain ⟨same, part⟩ := kept noneSet.1
    have unset : incomingSet e = none := by simpa using noneSet.2
    have step := (act_steps acts).2
    rw [unset] at step
    generalize isLater : u.incoming = later at step
    cases step with
    | stay =>
      obtain ⟨current, _, dropped⟩ := Direction.mk.inj isLater
      exact ⟨current.trans same, dropped ▸ part⟩
    | drop conn =>
      obtain ⟨current, _, dropped⟩ := Direction.mk.inj isLater
      exact ⟨current.trans same, dropped ▸ List.subset_cons_of_subset _ part⟩

theorem existing_of_run (run : Run (Acts act) s es t) (noneSet : es.filterMap incomingSet = [])
    (live : t.node.incoming.senderConnectionId t.droppedIncoming = some existing) :
    s.node.incoming.senderConnectionId s.droppedIncoming = some existing := by
  obtain ⟨same, part⟩ := incoming_of_run run noneSet
  rw [same] at live
  obtain ⟨conn, upgraded, isId⟩ := Option.map_eq_some_iff.mp live
  obtain ⟨there, kept⟩ := Option.filter_eq_some_iff.mp upgraded
  refine Option.map_eq_some_iff.mpr ⟨conn, Option.filter_eq_some_iff.mpr ⟨there, ?_⟩, isId⟩
  simp only [decide_eq_true_eq] at kept ⊢
  exact fun gone => kept (part gone)

theorem setIncomingConnection_ok_iff :
    (∃ node, s.node.setIncomingConnection s.droppedIncoming conn = .ok node) ↔
      s.node.shouldReplace s.droppedIncoming conn := by
  unfold NodeConnectivity.setIncomingConnection
  split <;> simp_all

/-- The next id is greater, unless there is none. -/
theorem succ_le_iff_lt {existing id : UInt32} (next : existing + 1 ≤ id) :
    existing < id ↔ existing ≠ 0xffffffff := by
  rw [UInt32.le_iff_toNat_le, UInt32.toNat_add] at next
  rw [UInt32.lt_iff_toNat_lt, ne_eq, ← UInt32.toNat_inj]
  have := existing.toNat_lt
  have := id.toNat_lt
  simp only [UInt32.toNat_ofNat] at *
  omega

theorem replaced_by_greater
    (acts : s.act change = some (t, isSet))
    (live : s.node.incoming.senderConnectionId s.droppedIncoming = some existing) :
    t.node.incoming = s.node.incoming ∨
      ∃ conn, t.node.incoming.connection = some conn ∧ existing < conn.senderConnectionId := by
  cases change with
  | setIncoming conn =>
    simp only [act, Option.ite_none_left_eq_some, NodeConnectivity.setIncomingConnection] at acts
    obtain ⟨_, acts⟩ := acts
    by_cases replaces : s.node.shouldReplace s.droppedIncoming conn
    · rw [if_pos replaces] at acts
      cases acts
      rw [NodeConnectivity.shouldReplace, live] at replaces
      exact .inr ⟨conn, rfl, of_decide_eq_true replaces⟩
    · rw [if_neg replaces] at acts
      cases acts
      exact .inl rfl
  | setOutgoing conn =>
    simp only [act, Option.ite_none_left_eq_some] at acts
    obtain ⟨_, acts⟩ := acts
    cases acts
    exact .inl rfl
  | dropOutgoing conn | dropIncoming conn =>
    cases acts
    exact .inl rfl

/-- Both sides come to the same verdict. An accepted connection is set exactly if none with the
    greatest id is there, and only one with a greater id replaces a connection. -/
theorem handshake_agrees (senderConnectionId : UInt32) (s : Connections) :
    let info : ConnectionInfo := ⟨currentProtocolVersion, senderConnectionId, s.minExpected⟩
    (p2pHandshakeDialer senderConnectionId).Conclude (p2pHandshakeListener s.minExpected)
      (.ok (.jan2026 info)) (.ok (.jan2026 info)) ∧
    (∀ es t conn, Run (Acts act) s es t → es.filterMap incomingSet = [] →
      conn.senderConnectionId = senderConnectionId → info.isAccepted →
      ((∃ node, t.node.setIncomingConnection t.droppedIncoming conn = .ok node) ↔
        t.node.incoming.senderConnectionId t.droppedIncoming ≠ some 0xffffffff)) ∧
    ∀ change t isSet existing, s.act change = some (t, isSet) →
      s.node.incoming.senderConnectionId s.droppedIncoming = some existing →
      t.node.incoming = s.node.incoming ∨
        ∃ conn, t.node.incoming.connection = some conn ∧ existing < conn.senderConnectionId := by
  refine ⟨handshake_concludes _ _, ?_, fun _ _ _ _ => replaced_by_greater⟩
  intro es t conn run noneSet isId accepted
  rw [setIncomingConnection_ok_iff, NodeConnectivity.shouldReplace]
  cases live : t.node.incoming.senderConnectionId t.droppedIncoming with
  | none => simp
  | some existing =>
    have before := existing_of_run run noneSet live
    simp only [ConnectionInfo.isAccepted, minExpected, before, decide_eq_true_eq] at accepted
    rw [isId, ne_eq, Option.some.injEq]
    exact (decide_eq_true_iff).trans (succ_le_iff_lt accepted)

/-- The peer's connection has the given id. -/
private def connectedWith (id : UInt32) : Connections :=
  ⟨⟨⟨none, 0⟩, ⟨some ⟨1, id⟩, 1⟩, 0, 1⟩, [], []⟩

theorem handshake_agrees_on_next :
    (⟨currentProtocolVersion, 8, (connectedWith 7).minExpected⟩ : ConnectionInfo).isAccepted ∧
      ∃ node, (connectedWith 7).node.setIncomingConnection [] ⟨2, 8⟩ = .ok node := by
  have accepted : (⟨currentProtocolVersion, 8, (connectedWith 7).minExpected⟩ :
    ConnectionInfo).isAccepted := by decide
  obtain ⟨_, sets, _⟩ := handshake_agrees 8 (connectedWith 7)
  exact ⟨accepted, (sets [] _ ⟨2, 8⟩ .nil rfl rfl accepted).mpr (by decide)⟩

/-- Behind the greatest id the listener asks for none, and an accepted connection is refused. -/
theorem accepted_but_refused :
    let info : ConnectionInfo := ⟨currentProtocolVersion, 0, (connectedWith 0xffffffff).minExpected⟩
    Run (Acts act) new [(.setIncoming ⟨1, 0xffffffff⟩, true)] (connectedWith 0xffffffff) ∧
    (p2pHandshakeDialer 0).Conclude (p2pHandshakeListener (connectedWith 0xffffffff).minExpected)
      (.ok (.jan2026 info)) (.ok (.jan2026 info)) ∧
    info.isAccepted ∧
    ∀ node, (connectedWith 0xffffffff).node.setIncomingConnection [] ⟨2, 0⟩ ≠ .ok node := by
  refine ⟨.snoc .nil rfl, handshake_concludes _ _, by decide, ?_⟩
  rintro node ⟨⟩

end Connections

end MpcNetwork.Node.Network
