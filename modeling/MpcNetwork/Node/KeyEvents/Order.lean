import MpcNetwork.Contract.Acceptance
import MpcNetwork.Contract.Epochs
import MpcNetwork.Node.KeyEvents.Resharing

/-! # The order in which nodes see key events

A node compares the key event that it sees with the id that a computation is for.  The comparison
is one of positions: an id that was not started yet comes before the attempt under this id, and
that comes before the next id.  As long as the contract works on keys, neither its calls nor the
blocks that pass take the position back.
-/

namespace MpcNetwork.Node.KeyEvents

open Contract Runs

variable {id : KeyEventId}

theorem order_eq_iff : id.order = other.order ↔ id = other := by
  obtain ⟨⟨epoch⟩, ⟨domain⟩, ⟨attempt⟩⟩ := id
  obtain ⟨⟨otherEpoch⟩, ⟨otherDomain⟩, ⟨otherAttempt⟩⟩ := other
  simp [KeyEventId.order]

abbrev Position := (ℕ ×ₗ ℕ ×ₗ ℕ) ×ₗ Bool

def attemptAt (id : KeyEventId) : Position := toLex (id.order, true)

def waitingFor (id : KeyEventId) : Position := toLex (id.order, false)

theorem waitingFor_le_attemptAt (id : KeyEventId) : waitingFor id ≤ attemptAt id := by
  simp [waitingFor, attemptAt, Prod.Lex.toLex_le_toLex]

theorem attemptAt_le_waitingFor (earlier : id.order < other.order) :
    attemptAt id ≤ waitingFor other := by
  simp [waitingFor, attemptAt, Prod.Lex.toLex_le_toLex, earlier]

theorem waitingFor_mono (earlier : id.order ≤ other.order) : waitingFor id ≤ waitingFor other := by
  rw [waitingFor, waitingFor, Prod.Lex.toLex_le_toLex]
  rcases earlier.lt_or_eq with less | same
  · exact .inl less
  · exact .inr ⟨same, le_refl _⟩

namespace ContractKeyEventInstance

variable {self : ContractKeyEventInstance}

def position (self : ContractKeyEventInstance) : Position :=
  if self.started then attemptAt self.id else waitingFor self.id

theorem compare_cases :
    (self.id.order < expected.order ∧
      self.compareToExpectedKeyEventId expected = .remoteBehind) ∨
    (expected.order < self.id.order ∧
      self.compareToExpectedKeyEventId expected = .remoteAhead) ∨
    (self.id = expected ∧ self.compareToExpectedKeyEventId expected =
      if self.started then .remoteMatches else .remoteBehind) := by
  unfold compareToExpectedKeyEventId
  dsimp only
  split
  · rename_i less
    refine .inl ⟨?_, rfl⟩
    simp only [Ordering.then_eq_lt, Nat.compare_eq_lt, Nat.compare_eq_eq] at less
    rw [KeyEventId.order_lt_iff]
    omega
  · rename_i greater
    refine .inr (.inl ⟨?_, rfl⟩)
    simp only [Ordering.then_eq_gt, Nat.compare_eq_gt, Nat.compare_eq_eq] at greater
    rw [KeyEventId.order_lt_iff]
    omega
  · rename_i equal
    refine .inr (.inr ⟨?_, rfl⟩)
    simp only [Ordering.then_eq_eq, Nat.compare_eq_eq] at equal
    rw [← order_eq_iff]
    simp only [KeyEventId.order, equal]

theorem compare_position :
    (self.position < attemptAt expected ∧
      self.compareToExpectedKeyEventId expected = .remoteBehind) ∨
    (self.position = attemptAt expected ∧
      self.compareToExpectedKeyEventId expected = .remoteMatches) ∨
    (attemptAt expected < self.position ∧
      self.compareToExpectedKeyEventId expected = .remoteAhead) := by
  rcases @compare_cases self expected with ⟨less, isBehind⟩ | ⟨greater, isAhead⟩ | ⟨same, answer⟩
  · refine .inl ⟨?_, isBehind⟩
    unfold position
    split <;> simp [attemptAt, waitingFor, Prod.Lex.toLex_lt_toLex, less]
  · refine .inr (.inr ⟨?_, isAhead⟩)
    unfold position
    split <;> simp [attemptAt, waitingFor, Prod.Lex.toLex_lt_toLex, greater]
  · rw [position, same, answer]
    split
    · exact .inr (.inl ⟨rfl, rfl⟩)
    · refine .inl ⟨?_, rfl⟩
      simp [attemptAt, waitingFor, Prod.Lex.toLex_lt_toLex]

theorem remoteAhead_iff : self.compareToExpectedKeyEventId expected = .remoteAhead ↔
    attemptAt expected < self.position := by
  rcases @compare_position self expected with ⟨less, answer⟩ | ⟨same, answer⟩ | ⟨greater, answer⟩
  · simp [answer, less.le]
  · simp [answer, same]
  · simp [answer, greater]

theorem remoteMatches_iff : self.compareToExpectedKeyEventId expected = .remoteMatches ↔
    self.position = attemptAt expected := by
  rcases @compare_position self expected with ⟨less, answer⟩ | ⟨same, answer⟩ | ⟨greater, answer⟩
  · simp [answer, less.ne]
  · simp [answer, same]
  · simp [answer, greater.ne']

theorem remoteBehind_iff : self.compareToExpectedKeyEventId expected = .remoteBehind ↔
    self.position < attemptAt expected := by
  rcases @compare_position self expected with ⟨less, answer⟩ | ⟨same, answer⟩ | ⟨greater, answer⟩
  · simp [answer, less]
  · simp [answer, same]
  · simp [answer, greater.le]

end ContractKeyEventInstance

/-- The attempt counter is past the attempt that is there. -/
def Numbered (event : KeyEvent) : Prop :=
  ∀ inst ∈ event.inst, inst.attemptId.value < event.nextAttemptId.value

def positionOf (event : KeyEvent) (height : Nat) : Position :=
  match event.inst.filter fun inst => height < inst.expiresOn with
  | some inst => attemptAt (event.attemptId inst)
  | none => waitingFor event.expectedKeyEventId

variable {ceremony : Ceremony}

section

variable {event : KeyEvent} {height later : Nat}

theorem position_convertKeyEventToInstance (completedDomains : List KeyForDomain) :
    (convertKeyEventToInstance event height completedDomains).position =
      positionOf event height := by
  rw [convertKeyEventToInstance, positionOf]
  cases event.inst.filter fun inst => height < inst.expiresOn <;> rfl

theorem positionOf_of_none (ended : event.inst = none) :
    positionOf event height = waitingFor event.expectedKeyEventId := by
  simp [positionOf, ended]

theorem positionOf_of_some (ongoing : event.inst = some inst) :
    positionOf event height = if height < inst.expiresOn then attemptAt (event.attemptId inst)
      else waitingFor event.expectedKeyEventId := by
  rw [positionOf, ongoing]
  by_cases inTime : height < inst.expiresOn <;> simp [Option.filter, inTime]

theorem positionOf_le_waitingFor (numbered : Numbered event) :
    positionOf event height ≤ waitingFor event.expectedKeyEventId := by
  cases ongoing : event.inst with
  | none => rw [positionOf_of_none ongoing]
  | some inst =>
    rw [positionOf_of_some ongoing]
    split
    · apply attemptAt_le_waitingFor
      rw [KeyEventId.order_lt_iff]
      exact .inr ⟨rfl, .inr ⟨rfl, numbered inst ongoing⟩⟩
    · exact le_refl _

theorem positionOf_mono (numbered : Numbered event) (passed : height ≤ later) :
    positionOf event height ≤ positionOf event later := by
  cases ongoing : event.inst with
  | none => rw [positionOf_of_none ongoing, positionOf_of_none ongoing]
  | some inst =>
    by_cases inTime : later < inst.expiresOn
    · have before : height < inst.expiresOn := lt_of_le_of_lt passed inTime
      rw [positionOf_of_some ongoing, positionOf_of_some ongoing, if_pos inTime, if_pos before]
    · have expired := @positionOf_of_some event later inst ongoing
      rw [if_neg inTime] at expired
      rw [expired]
      exact positionOf_le_waitingFor numbered

theorem numbered_of_attempts (attempts : event.Attempts env timeoutBlocks ceremony call after)
    (numbered : Numbered event) : Numbered after := by
  cases attempts with
  | untouched => exact numbered
  | started =>
    rintro _ ⟨⟩
    exact Nat.lt_succ_self _
  | voted inst candidate publicKey casts =>
    rintro _ ⟨⟩
    exact numbered inst casts.ongoing
  | ended => rintro _ ⟨⟩

theorem positionOf_le_of_attempts
    (attempts : event.Attempts env timeoutBlocks ceremony call after) (numbered : Numbered event) :
    positionOf event env.blockHeight ≤ positionOf after env.blockHeight := by
  have le := @positionOf_le_waitingFor event env.blockHeight numbered
  cases attempts with
  | untouched => exact le_refl _
  | started =>
    refine le.trans ?_
    rw [positionOf_of_some rfl, if_pos]
    · exact waitingFor_le_attemptAt _
    · simp only [KeyEventInstance.new]
      omega
  | voted inst candidate publicKey casts =>
    apply le_of_eq
    rw [positionOf_of_some casts.ongoing, positionOf_of_some rfl]
    rfl
  | ended =>
    refine le.trans ?_
    rw [positionOf_of_none rfl]
    exact le_refl _

end

def keyEventInstance (s : ProtocolContractState) (height : Nat) :
    Option ContractKeyEventInstance :=
  match s with
  | .initializing state =>
    some (convertKeyEventToInstance state.generatingKey height state.generatedKeys)
  | .resharing state =>
    some (convertKeyEventToInstance state.resharingKey height state.resharedKeys)
  | _ => none

theorem keyEventInstance_eq_some (isSeen : keyEventInstance s height = some seen) :
    ∃ ceremony event, s.ceremony = some (ceremony, event) ∧
      seen = convertKeyEventToInstance event height s.acceptedKeys := by
  cases s with
  | initializing state => exact ⟨_, _, rfl, (Option.some.inj isSeen).symm⟩
  | resharing state => exact ⟨_, _, rfl, (Option.some.inj isSeen).symm⟩
  | notInitialized | running => cases isSeen

/-- The key event that the contract works on has a counter past its attempt. -/
def StateNumbered (s : ProtocolContractState) : Prop :=
  ∀ working ∈ s.ceremony, Numbered working.2

variable {event : KeyEvent}

section

theorem numbered_of_fresh (fresh : ∀ next ∈ t.ceremony, next.2.inst = none) : StateNumbered t := by
  intro working isWorking inst isInst
  rw [fresh working isWorking] at isInst
  cases isInst

theorem stateNumbered_step (step : ProtocolContractState.CeremonyStep env timeoutBlocks s call t)
    (numbered : StateNumbered s) : StateNumbered t := by
  cases step with
  | attempts ceremony event after before now attempts sameKeys =>
    intro working isWorking
    rw [now] at isWorking
    cases isWorking
    exact numbered_of_attempts attempts (numbered _ before)
  | accepted _ _ _ _ _ _ fresh => exact numbered_of_fresh fresh
  | turned fresh => exact numbered_of_fresh fresh

theorem positionOf_step (step : ProtocolContractState.CeremonyStep env timeoutBlocks s call t)
    (transition : Transition env call s started epoch t) (aligned : s.Aligned)
    (numbered : StateNumbered s) (before : s.ceremony = some (ceremony, event))
    (now : t.ceremony = some (later, after)) :
    positionOf event env.blockHeight ≤ positionOf after env.blockHeight := by
  have fromFresh (fresh : ∀ next ∈ t.ceremony, next.2.inst = none) :
      positionOf event env.blockHeight ≤ positionOf after env.blockHeight := by
    have keeps : KeepsCancelledEpoch env call s := by
      rintro state domains rfl
      cases before
    have forward := (transition.frontier_ticks aligned keeps).forward
    have frontiers : s.frontier = event.expectedKeyEventId ∧
        t.frontier = after.expectedKeyEventId := by
      constructor
      · cases s <;> cases before <;> rfl
      · cases t <;> cases now <;> rfl
    rw [frontiers.1, frontiers.2] at forward
    calc positionOf event env.blockHeight
        ≤ waitingFor event.expectedKeyEventId := positionOf_le_waitingFor (numbered _ before)
      _ ≤ waitingFor after.expectedKeyEventId := waitingFor_mono forward
      _ = positionOf after env.blockHeight := (positionOf_of_none (fresh _ now)).symm
  cases step with
  | attempts _ _ _ isBefore isNow attempts =>
    rw [before] at isBefore
    rw [now] at isNow
    cases isBefore
    cases isNow
    exact positionOf_le_of_attempts attempts (numbered _ before)
  | accepted _ _ _ _ _ _ fresh => exact fromFresh fresh
  | turned fresh => exact fromFresh fresh

end

/-- What a step does to the key that the contract works on. -/
inductive Step (height : Nat) (s : ProtocolContractState) : ProtocolContractState → Prop where
  | kept : Step height s s
  | migrated (aligned : s.Aligned → t.Aligned) (idle : t.ceremony = none) : Step height s t
  | called (env : Env) (timeoutBlocks : Nat) (call : Call) (started : Option KeyEventId)
      (epoch : Option EpochId) (now : env.blockHeight = height)
      (step : s.CeremonyStep env timeoutBlocks call t)
      (transition : Transition env call s started epoch t) : Step height s t

theorem step_of_phase {Collateral : Type} {d : Deployment}
    {method : Method Collateral}
    (phase : d.PhaseStep host method note t) :
    Step host.blockHeight d.contract.protocolState t := by
  have aligned := phase.aligned
  cases phase with
  | governed call next contract done =>
    exact .called _ _ _ _ _ rfl (ProtocolContractState.perform_ceremonyStep done)
      (perform_transition done)
  | migrated => exact .migrated aligned rfl
  | kept => exact .kept

namespace Step

theorem aligned (step : Step height s t) (aligned : s.Aligned) : t.Aligned := by
  cases step with
  | kept => exact aligned
  | migrated keeps => exact keeps aligned
  | called env timeoutBlocks call started epoch now step transition =>
    exact transition.aligned aligned

theorem numbered (step : Step height s t) (numbered : StateNumbered s) : StateNumbered t := by
  cases step with
  | kept => exact numbered
  | migrated _ idle =>
    intro working isWorking
    rw [idle] at isWorking
    cases isWorking
  | called env timeoutBlocks call started epoch now step transition =>
    exact stateNumbered_step step numbered

theorem position_le (step : Step height s t) (aligned : s.Aligned) (numbered : StateNumbered s)
    (before : s.ceremony = some (ceremony, event)) (now : t.ceremony = some (later, after)) :
    positionOf event height ≤ positionOf after height := by
  cases step with
  | kept =>
    rw [before] at now
    cases now
    exact le_refl _
  | migrated _ idle =>
    rw [idle] at now
    cases now
  | called env timeoutBlocks call started epoch isNow step transition =>
    rw [← isNow]
    exact positionOf_step step transition aligned numbered before now

end Step

structure Chain where
  deployment : Deployment
  blockHeight : Nat

inductive ChainInput (Collateral : Type) where
  | call (host : Host) (method : Method Collateral)
  | block (height : Nat)

namespace Chain

variable {Collateral : Type} (verifier : AttestationVerifier Collateral)

/-- Calls and blocks come at heights that do not decrease. -/
def act (self : Chain) : ChainInput Collateral → Option (Chain × MethodNote)
  | .call host method => do
    if self.blockHeight ≤ host.blockHeight then
      let (deployment, note) ← self.deployment.act verifier (host, method)
      some (⟨deployment, host.blockHeight⟩, note)
    else none
  | .block height =>
    if self.blockHeight ≤ height then some (⟨self.deployment, height⟩, .quiet) else none

def protocolState (self : Chain) : ProtocolContractState := self.deployment.contract.protocolState

def keyEvent (self : Chain) : Option ContractKeyEventInstance :=
  keyEventInstance self.protocolState self.blockHeight

/-- The attempt under the id is there and has not expired. -/
def Ongoing (self : Chain) (id : KeyEventId) : Prop :=
  ∃ ceremony event inst, self.protocolState.ceremony = some (ceremony, event) ∧
    event.inst = some inst ∧ event.attemptId inst = id ∧ self.blockHeight < inst.expiresOn

/-- A step after which the contract still works on a key. -/
def Working (s : Chain) (e : ChainInput Collateral × MethodNote) (t : Chain) : Prop :=
  Acts (act verifier) s e t ∧ t.protocolState.ceremony.isSome

variable {verifier} {s t : Chain} {es fs : List (ChainInput Collateral × MethodNote)}

theorem act_step (acts : Acts (act verifier) s e t) :
    s.blockHeight ≤ t.blockHeight ∧ Step t.blockHeight s.protocolState t.protocolState := by
  obtain ⟨input, note⟩ := e
  cases input with
  | call host method =>
    simp only [Acts, act] at acts
    split at acts
    · rename_i passed
      obtain ⟨⟨deployment, result⟩, called, isNow⟩ := Option.bind_eq_some_iff.mp acts
      cases isNow
      have acted : Acts (Deployment.act verifier) s.deployment ((host, method), result)
        deployment := called
      exact ⟨passed, step_of_phase (Deployment.acts_phase verifier acted)⟩
    · cases acts
  | block height =>
    simp only [Acts, act] at acts
    split at acts
    · rename_i passed
      cases acts
      exact ⟨passed, .kept⟩
    · cases acts

/-- What holds of a contract that calls have brought about. -/
structure Sound (s : Chain) : Prop where
  aligned : s.protocolState.Aligned
  numbered : StateNumbered s.protocolState

theorem Sound.step (sound : s.Sound) (acts : Acts (act verifier) s e t) : t.Sound := by
  have step := (act_step acts).2
  exact ⟨step.aligned sound.aligned, step.numbered sound.numbered⟩

theorem Sound.run (sound : s.Sound) (run : Run (Acts (act verifier)) s es t) : t.Sound :=
  run.invariant (fun _ t => t.Sound) sound fun _ _ _ _ _ sound acts => sound.step acts

theorem sound_of_initial (initial : start.Initial) (height : Nat) :
    (Chain.mk start height).Sound := by
  refine ⟨initial.aligned, ?_⟩
  obtain ⟨_, _, _, _, _, running, _⟩ := initial.running
  intro working isWorking
  rw [protocolState, running] at isWorking
  cases isWorking

theorem position_run (sound : s.Sound) (run : Run (Working verifier) s fs t)
    (before : s.protocolState.ceremony = some (ceremony, event)) :
    t.Sound ∧ ∃ later after, t.protocolState.ceremony = some (later, after) ∧
      positionOf event s.blockHeight ≤ positionOf after t.blockHeight := by
  refine run.invariant (fun _ t => t.Sound ∧ ∃ later after,
    t.protocolState.ceremony = some (later, after) ∧
      positionOf event s.blockHeight ≤ positionOf after t.blockHeight) ?_ ?_
  · exact ⟨sound, ceremony, event, before, le_refl _⟩
  · rintro _ u e v _ ⟨soundHere, later, here, isHere, reached⟩ ⟨acts, works⟩
    obtain ⟨passed, step⟩ := act_step acts
    obtain ⟨⟨next, after⟩, isAfter⟩ := Option.isSome_iff_exists.mp works
    refine ⟨soundHere.step acts, next, after, isAfter, ?_⟩
    calc positionOf event s.blockHeight
        ≤ positionOf here u.blockHeight := reached
      _ ≤ positionOf here v.blockHeight := positionOf_mono (soundHere.numbered _ isHere) passed
      _ ≤ positionOf after v.blockHeight :=
          step.position_le soundHere.aligned soundHere.numbered isHere isAfter

theorem matches_iff_ongoing (isSeen : s.keyEvent = some seen) :
    seen.compareToExpectedKeyEventId id = .remoteMatches ↔ s.Ongoing id := by
  obtain ⟨ceremony, event, working, rfl⟩ := keyEventInstance_eq_some isSeen
  rw [ContractKeyEventInstance.remoteMatches_iff, position_convertKeyEventToInstance]
  constructor
  · intro same
    cases ongoing : event.inst with
    | none =>
      rw [positionOf_of_none ongoing] at same
      simp [waitingFor, attemptAt] at same
    | some inst =>
      rw [positionOf_of_some ongoing] at same
      split at same
      · rename_i inTime
        have sameId : event.attemptId inst = id := by
          simpa [attemptAt, order_eq_iff] using same
        exact ⟨ceremony, event, inst, working, ongoing, sameId, inTime⟩
      · simp [waitingFor, attemptAt] at same
  · rintro ⟨_, _, inst, isWorking, ongoing, rfl, inTime⟩
    rw [working] at isWorking
    cases isWorking
    rw [positionOf_of_some ongoing, if_pos inTime]

private def keygenPair : ThresholdParameters := ⟨Sample.participants 2 [(0, 0), (1, 1)], 2⟩

private def keygenId (attempt : Nat) : KeyEventId := ⟨⟨0⟩, ⟨0⟩, ⟨attempt⟩⟩

/-- A domain is added and the leader starts the first attempt at its key. -/
private def keygenCalls : List (ChainInput Unit) :=
  [0, 1].map (fun n =>
    .call (Sample.host n) (.govern (.voteAddDomains [⟨⟨0⟩, .secp256k1, .sign⟩]))) ++
    [.call (Sample.host 0) (.govern (.startKeygenInstance (keygenId 0)))]

private def keygenSeen (attempt : Nat) (started : Bool) : ContractKeyEventInstance :=
  ⟨keygenId attempt, ⟨⟨0⟩, .secp256k1, .sign⟩, started, []⟩

end Chain

end MpcNetwork.Node.KeyEvents
