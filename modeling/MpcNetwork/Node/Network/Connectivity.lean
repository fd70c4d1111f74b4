import MpcNetwork.Lib.Runs
import MpcNetwork.Node.Network.Client

/-! # Connections to another node and their versions

A node keeps a weak pointer to its latest connection in each direction and counts them.  A
connection that is gone counts as the next one already, so the version that a node reports does not
change when the next connection is made, and changes when a connection is lost or replaced.
-/

namespace MpcNetwork.Node.Network

open Runs

/-- A connection object; two connections are never the same object. -/
structure OutgoingConnection where
  object : Nat
  deriving Repr, DecidableEq

structure IncomingConnection where
  object : Nat
  senderConnectionId : UInt32
  deriving Repr, DecidableEq

/-- The weak pointer names the object; whether it can be followed depends on what is dropped. -/
structure ConnectionWithVersion (C : Type) where
  connection : Option C
  version : Nat
  deriving Repr, DecidableEq

namespace ConnectionWithVersion

variable {C : Type} [DecidableEq C]

def upgrade (self : ConnectionWithVersion C) (dropped : List C) : Option C :=
  self.connection.filter fun conn => conn ∉ dropped

def isConnected (self : ConnectionWithVersion C) (dropped : List C) : Bool :=
  (self.upgrade dropped).isSome

/-- The method `version`. -/
def nextVersion (self : ConnectionWithVersion C) (dropped : List C) : Nat :=
  if self.isConnected dropped then self.version else self.version + 1

end ConnectionWithVersion

def ConnectionWithVersion.senderConnectionId (self : ConnectionWithVersion IncomingConnection)
    (dropped : List IncomingConnection) : Option UInt32 :=
  (self.upgrade dropped).map IncomingConnection.senderConnectionId

structure NodeConnectivity where
  outgoing : ConnectionWithVersion OutgoingConnection
  incoming : ConnectionWithVersion IncomingConnection
  outgoingVersion : Nat
  incomingVersion : Nat

namespace NodeConnectivity

def new : NodeConnectivity := ⟨⟨none, 0⟩, ⟨none, 0⟩, 0, 0⟩

def setOutgoingConnection (self : NodeConnectivity) (conn : OutgoingConnection) :
    NodeConnectivity :=
  { self with
    outgoing := ⟨some conn, self.outgoingVersion + 1⟩
    outgoingVersion := self.outgoingVersion + 1 }

/-- Only a connection with a greater id replaces one that is not dropped. -/
def shouldReplace (self : NodeConnectivity) (dropped : List IncomingConnection)
    (conn : IncomingConnection) : Bool :=
  match self.incoming.senderConnectionId dropped with
  | none => true
  | some existingId => existingId < conn.senderConnectionId

def setIncomingConnection (self : NodeConnectivity) (dropped : List IncomingConnection)
    (conn : IncomingConnection) : Except String NodeConnectivity :=
  if self.shouldReplace dropped conn then
    .ok { self with
      incoming := ⟨some conn, self.incomingVersion + 1⟩
      incomingVersion := self.incomingVersion + 1 }
  else .error "can't replace existing connection of higher value"

end NodeConnectivity

/-- The connectivity record together with the connection objects that are gone. -/
structure Connections where
  node : NodeConnectivity
  droppedOutgoing : List OutgoingConnection
  droppedIncoming : List IncomingConnection

namespace Connections

def new : Connections := ⟨.new, [], []⟩

def connectionVersion (self : Connections) : ConnectionVersion where
  outgoing := self.node.outgoing.nextVersion self.droppedOutgoing
  incoming := self.node.incoming.nextVersion self.droppedIncoming

def wasConnectionInterrupted (self : Connections) (version : ConnectionVersion) : Bool :=
  self.node.outgoing.nextVersion self.droppedOutgoing ≠ version.outgoing ∨
    self.node.incoming.nextVersion self.droppedIncoming ≠ version.incoming

inductive Change where
  | setOutgoing (conn : OutgoingConnection)
  | setIncoming (conn : IncomingConnection)
  | dropOutgoing (conn : OutgoingConnection)
  | dropIncoming (conn : IncomingConnection)

/-- Who sets a connection holds it, so it is not dropped.  The result tells whether it was set. -/
def act (self : Connections) : Change → Option (Connections × Bool)
  | .setOutgoing conn =>
    if conn ∈ self.droppedOutgoing then none
    else some ({ self with node := self.node.setOutgoingConnection conn }, true)
  | .setIncoming conn =>
    if conn ∈ self.droppedIncoming then none
    else
      match self.node.setIncomingConnection self.droppedIncoming conn with
      | .ok node => some ({ self with node }, true)
      | .error _ => some (self, false)
  | .dropOutgoing conn =>
    some ({ self with droppedOutgoing := conn :: self.droppedOutgoing }, false)
  | .dropIncoming conn =>
    some ({ self with droppedIncoming := conn :: self.droppedIncoming }, false)

end Connections

/-- What one direction consists of. -/
structure Direction (C : Type) where
  current : ConnectionWithVersion C
  counter : Nat
  dropped : List C

namespace Direction

variable {C : Type} [DecidableEq C] {d e : Direction C}

def isLive (d : Direction C) : Bool := d.current.isConnected d.dropped

def version (d : Direction C) : Nat := d.current.nextVersion d.dropped

/-- What happens to a direction, and which connection is set. -/
inductive Step (d : Direction C) : Option C → Direction C → Prop where
  | stay : Step d none d
  | drop (conn : C) : Step d none { d with dropped := conn :: d.dropped }
  | set (conn : C) (live : conn ∉ d.dropped) :
      Step d (some conn) ⟨⟨some conn, d.counter + 1⟩, d.counter + 1, d.dropped⟩

/-- What the versions of an earlier and of a later moment tell about what happened in between. -/
structure Follows (d : Direction C) (sets : List C) (e : Direction C) : Prop where
  mono : d.version ≤ e.version
  live : d.isLive → d.version = e.version → e.current = d.current ∧ e.isLive
  pending : ¬ d.isLive → d.version = e.version →
    (¬ e.isLive ∧ sets = []) ∨ ∃ conn, sets = [conn] ∧ e.current.connection = some conn ∧ e.isLive

theorem version_eq (d : Direction C) :
    d.version = if d.isLive then d.current.version else d.current.version + 1 := rfl

theorem isLive_set (live : conn ∉ d.dropped) :
    (⟨⟨some conn, n⟩, n, d.dropped⟩ : Direction C).isLive := by
  simp [isLive, ConnectionWithVersion.isConnected, ConnectionWithVersion.upgrade, live]

theorem isLive_of_drop (live : ({ d with dropped := conn :: d.dropped }).isLive) : d.isLive := by
  unfold isLive ConnectionWithVersion.isConnected ConnectionWithVersion.upgrade at live ⊢
  cases there : d.current.connection with
  | none => simp [there] at live
  | some c => simp_all

/-- A step that leaves the version changes nothing that counts, or sets a connection that was due. -/
theorem Step.cases {set : Option C} (counted : e.counter = e.current.version)
    (step : e.Step set f) : f.counter = f.current.version ∧
      ((f.version = e.version ∧ f.current = e.current ∧ f.isLive = e.isLive ∧ set = none) ∨
        (f.version = e.version ∧ ¬ e.isLive ∧ f.isLive ∧ f.current.connection = set ∧
          set.isSome) ∨
        f.version = e.version + 1) := by
  cases step with
  | stay => exact ⟨counted, .inl ⟨rfl, rfl, rfl, rfl⟩⟩
  | set conn isNew =>
    have liveNow : (⟨⟨some conn, e.counter + 1⟩, e.counter + 1, e.dropped⟩ : Direction C).isLive :=
      isLive_set isNew
    refine ⟨rfl, .inr ?_⟩
    rw [version_eq e, version_eq, if_pos liveNow, counted]
    by_cases alive : e.isLive
    · exact .inr (by rw [if_pos alive])
    · exact .inl ⟨by rw [if_neg alive], alive, counted ▸ liveNow, rfl, rfl⟩
  | drop conn =>
    refine ⟨counted, ?_⟩
    rw [version_eq e, version_eq]
    by_cases liveNow : ({ e with dropped := conn :: e.dropped }).isLive
    · have alive := isLive_of_drop liveNow
      exact .inl ⟨by rw [if_pos liveNow, if_pos alive], rfl, liveNow.trans alive.symm, rfl⟩
    · by_cases alive : e.isLive
      · exact .inr (.inr (by rw [if_neg liveNow, if_pos alive]))
      · rw [Bool.not_eq_true] at liveNow alive
        exact .inl ⟨by rw [liveNow, alive], rfl, liveNow.trans alive.symm, rfl⟩

theorem Follows.refl (d : Direction C) : d.Follows [] d where
  mono := le_rfl
  live := fun live _ => ⟨rfl, live⟩
  pending := fun dead _ => .inl ⟨dead, rfl⟩

theorem Follows.step {set : Option C} (follows : d.Follows sets e)
    (counted : e.counter = e.current.version) (step : e.Step set f) :
    d.Follows (sets ++ set.toList) f := by
  obtain ⟨mono, live, pending⟩ := follows
  rcases (step.cases counted).2 with
    ⟨same, current, alike, rfl⟩ | ⟨same, due, now, isSet, hasSet⟩ | next
  · rw [← same] at mono live pending
    rw [← current, ← alike] at live pending
    rw [Option.toList_none, List.append_nil]
    exact ⟨mono, live, pending⟩
  · rw [← same] at mono live pending
    obtain ⟨conn, rfl⟩ := Option.isSome_iff_exists.mp hasSet
    refine ⟨mono, fun wasLive equal => absurd (live wasLive equal).2 due, fun wasDead equal => ?_⟩
    rcases pending wasDead equal with ⟨_, rfl⟩ | ⟨_, _, _, alive⟩
    · exact .inr ⟨conn, rfl, isSet, now⟩
    · exact absurd alive due
  · refine ⟨by omega, ?_, ?_⟩ <;>
      · intro _ equal
        omega

theorem not_mem_dropped (current : d.current.connection = some conn) (live : d.isLive) :
    conn ∉ d.dropped := by
  simpa [isLive, ConnectionWithVersion.isConnected, ConnectionWithVersion.upgrade, current,
    Option.filter_some] using live

end Direction

namespace Connections

variable {s : Connections}

def outgoing (s : Connections) : Direction OutgoingConnection :=
  ⟨s.node.outgoing, s.node.outgoingVersion, s.droppedOutgoing⟩

def incoming (s : Connections) : Direction IncomingConnection :=
  ⟨s.node.incoming, s.node.incomingVersion, s.droppedIncoming⟩

/-- The connection that is set in the direction. -/
def outgoingSet : Change × Bool → Option OutgoingConnection
  | (.setOutgoing conn, true) => some conn
  | _ => none

def incomingSet : Change × Bool → Option IncomingConnection
  | (.setIncoming conn, true) => some conn
  | _ => none

theorem act_steps (acts : s.act change = some (t, isSet)) :
    s.outgoing.Step (outgoingSet (change, isSet)) t.outgoing ∧
      s.incoming.Step (incomingSet (change, isSet)) t.incoming := by
  cases change with
  | setOutgoing conn =>
    simp only [act, Option.ite_none_left_eq_some, Option.some.injEq, Prod.mk.injEq] at acts
    obtain ⟨live, rfl, rfl⟩ := acts
    exact ⟨.set conn live, .stay⟩
  | setIncoming conn =>
    simp only [act, Option.ite_none_left_eq_some] at acts
    obtain ⟨live, acts⟩ := acts
    unfold NodeConnectivity.setIncomingConnection at acts
    split at acts
    · rename_i node set
      obtain ⟨rfl, rfl⟩ := Prod.mk.inj (Option.some.inj acts)
      split at set
      · cases set
        exact ⟨.stay, .set conn live⟩
      · cases set
    · obtain ⟨rfl, rfl⟩ := Prod.mk.inj (Option.some.inj acts)
      exact ⟨.stay, .stay⟩
  | dropOutgoing conn =>
    cases acts
    exact ⟨.drop conn, .stay⟩
  | dropIncoming conn =>
    cases acts
    exact ⟨.stay, .drop conn⟩

/-- The counters count the connections. -/
def Counted (s : Connections) : Prop :=
  s.outgoing.counter = s.outgoing.current.version ∧ s.incoming.counter = s.incoming.current.version

theorem Counted.run (counted : s.Counted) (run : Run (Acts act) s es t) : t.Counted := by
  refine run.invariant (fun _ t => t.Counted) counted ?_
  intro _ _ _ _ _ counted acts
  obtain ⟨out, inc⟩ := act_steps acts
  exact ⟨(out.cases counted.1).1, (inc.cases counted.2).1⟩

theorem follows_run (counted : s.Counted) (run : Run (Acts act) s es t) :
    s.outgoing.Follows (es.filterMap outgoingSet) t.outgoing ∧
      s.incoming.Follows (es.filterMap incomingSet) t.incoming := by
  refine run.invariant (fun es t => s.outgoing.Follows (es.filterMap outgoingSet) t.outgoing ∧
    s.incoming.Follows (es.filterMap incomingSet) t.incoming) ⟨.refl _, .refl _⟩ ?_
  intro es t e u run follows acts
  obtain ⟨out, inc⟩ := act_steps acts
  have countedHere := counted.run run
  have single : ∀ {C : Type} (set : Change × Bool → Option C), [e].filterMap set = (set e).toList := by
    intro C set
    cases isSet : set e <;> simp [isSet]
  rw [List.filterMap_append, List.filterMap_append, single, single]
  exact ⟨follows.1.step countedHere.1 out, follows.2.step countedHere.2 inc⟩

/-- One that is still current says of a direction that was live that its connection has been there
    all the time, and of any other that at most one connection was made since. -/
theorem interruption_detected (earlier : Run (Acts act) new es s) (since : Run (Acts act) s fs t) :
    s.connectionVersion.outgoing ≤ t.connectionVersion.outgoing ∧
    s.connectionVersion.incoming ≤ t.connectionVersion.incoming ∧
    (t.wasConnectionInterrupted s.connectionVersion = false →
      (s.outgoing.isLive → ∀ gs hs u, fs = gs ++ hs → Run (Acts act) s gs u →
        Run (Acts act) u hs t → u.outgoing.current = s.outgoing.current ∧ u.outgoing.isLive) ∧
      (s.incoming.isLive → ∀ gs hs u, fs = gs ++ hs → Run (Acts act) s gs u →
        Run (Acts act) u hs t → u.incoming.current = s.incoming.current ∧ u.incoming.isLive) ∧
      (¬ s.outgoing.isLive → fs.filterMap outgoingSet = [] ∨
        ∃ conn, fs.filterMap outgoingSet = [conn] ∧ conn ∉ t.droppedOutgoing) ∧
      (¬ s.incoming.isLive → fs.filterMap incomingSet = [] ∨
        ∃ conn, fs.filterMap incomingSet = [conn] ∧ conn ∉ t.droppedIncoming)) := by
  have counted : s.Counted := Counted.run ⟨rfl, rfl⟩ earlier
  obtain ⟨out, inc⟩ := follows_run counted since
  refine ⟨out.mono, inc.mono, fun same => ?_⟩
  simp only [wasConnectionInterrupted, ne_eq, decide_eq_false_iff_not, not_or, not_not] at same
  change t.outgoing.version = s.outgoing.version ∧ t.incoming.version = s.incoming.version at same
  refine ⟨fun live gs hs u _ first second => ?_, fun live gs hs u _ first second => ?_,
    fun dead => ?_, fun dead => ?_⟩
  · have here := (follows_run counted first).1
    have later := (follows_run (counted.run first) second).1.mono
    exact here.live live (le_antisymm here.mono (later.trans same.1.le))
  · have here := (follows_run counted first).2
    have later := (follows_run (counted.run first) second).2.mono
    exact here.live live (le_antisymm here.mono (later.trans same.2.le))
  · rcases out.pending dead same.1.symm with ⟨_, nothing⟩ | ⟨conn, only, current, live⟩
    · exact .inl nothing
    · exact .inr ⟨conn, only, Direction.not_mem_dropped current live⟩
  · rcases inc.pending dead same.2.symm with ⟨_, nothing⟩ | ⟨conn, only, current, live⟩
    · exact .inl nothing
    · exact .inr ⟨conn, only, Direction.not_mem_dropped current live⟩

/-- The outgoing connection is there, and the incoming one comes later. -/
theorem interruption_detected_once :
    ∃ s t : Connections,
      t.wasConnectionInterrupted s.connectionVersion = false ∧ t.outgoing.current = s.outgoing.current ∧
        ∃ conn, t.incoming.current.connection = some conn ∧ conn ∉ t.droppedIncoming := by
  let s : Connections := ⟨⟨⟨some ⟨1⟩, 1⟩, ⟨none, 0⟩, 1, 0⟩, [], []⟩
  let t : Connections := ⟨⟨⟨some ⟨1⟩, 1⟩, ⟨some ⟨2, 7⟩, 1⟩, 1, 1⟩, [], []⟩
  have earlier : Run (Acts act) new [(.setOutgoing ⟨1⟩, true)] s := .snoc .nil rfl
  have since : Run (Acts act) s [(.setIncoming ⟨2, 7⟩, true)] t := .snoc .nil rfl
  have kept : t.wasConnectionInterrupted s.connectionVersion = false := by decide
  obtain ⟨_, _, same⟩ := interruption_detected earlier since
  obtain ⟨live, _, _, once⟩ := same kept
  refine ⟨s, t, kept, (live (by decide) _ [] t (List.append_nil _).symm since .nil).1, ?_⟩
  rcases once (by decide) with nothing | ⟨conn, only, there⟩
  · simp [incomingSet] at nothing
  · obtain rfl : ⟨2, 7⟩ = conn := by simpa [incomingSet] using only
    exact ⟨_, rfl, there⟩

end Connections

end MpcNetwork.Node.Network
