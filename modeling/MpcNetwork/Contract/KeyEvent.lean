import MpcNetwork.Contract.Domains

/-! # Key events

A key event generates or reshares the key of one domain under one epoch.  It goes through
attempts: the leader starts one, every participant of the key event votes for it or one of
them aborts it, and an attempt that is not finished in time counts as gone.
-/

namespace MpcNetwork.Contract

open Fallible

/-- One attempt at generating or resharing a key. -/
structure KeyEventInstance where
  attemptId : AttemptId
  startedIn : Nat
  expiresOn : Nat
  completed : Finset ParticipantId
  publicKey : Option PublicKeyExtended

inductive VoteSuccessResult where
  | voted (count : Nat)
  | publicKeyDisagreement

namespace KeyEventInstance

def new (env : Env) (attemptId : AttemptId) (timeoutBlocks : Nat) : KeyEventInstance where
  attemptId := attemptId
  startedIn := env.blockHeight
  expiresOn := env.blockHeight + 1 + timeoutBlocks
  completed := ∅
  publicKey := none

def active (env : Env) (self : KeyEventInstance) : Bool := env.blockHeight < self.expiresOn

/-- The key is compared first: a second vote for another key is a disagreement. -/
def voteSuccess (self : KeyEventInstance) (candidate : ParticipantId)
    (publicKey : PublicKeyExtended) : Except Error (VoteSuccessResult × KeyEventInstance) := do
  if self.publicKey.any fun existing => existing ≠ publicKey then
    pure (.publicKeyDisagreement, self)
  else do
    require (candidate ∉ self.completed) (.vote .voteAlreadySubmitted)
    let completed := insert candidate self.completed
    pure (.voted completed.card,
      { self with completed := completed, publicKey := some publicKey })

end KeyEventInstance

structure KeyEvent where
  epochId : EpochId
  domain : DomainConfig
  parameters : ThresholdParameters
  inst : Option KeyEventInstance
  nextAttemptId : AttemptId

namespace KeyEvent

def new (epochId : EpochId) (domain : DomainConfig) (proposedParameters : ThresholdParameters) :
    KeyEvent where
  epochId := epochId
  domain := domain
  parameters := proposedParameters
  inst := none
  nextAttemptId := ⟨0⟩

def cleanupIfTimedOut (env : Env) (self : KeyEvent) : KeyEvent :=
  { self with inst := self.inst.filter fun inst => inst.active env }

def leader (self : KeyEvent) : Option (AccountId × ParticipantId × ParticipantInfo) :=
  self.parameters.participants.participants.foldl
    (fun lowest entry =>
      match lowest with
      | none => some entry
      | some best => if entry.2.1.id < best.2.1.id then some entry else some best)
    none

def verifyLeader (env : Env) (self : KeyEvent) : Except Error Unit := do
  let lowest ← found .panic self.leader
  require (lowest.1 = env.signerAccountId) (.vote .voterNotLeader)

/-- The id the next attempt has to be started under. -/
def expectedKeyEventId (self : KeyEvent) : KeyEventId :=
  ⟨self.epochId, self.domain.id, self.nextAttemptId⟩

def start (env : Env) (self : KeyEvent) (keyEventId : KeyEventId) (timeoutBlocks : Nat) :
    Except Error KeyEvent := do
  let self := self.cleanupIfTimedOut env
  require (self.inst.isNone) (.keyEvent .activeKeyEvent)
  require (keyEventId = self.expectedKeyEventId) (.keyEvent .keyEventIdMismatch)
  self.verifyLeader env
  pure { self with
    inst := some (.new env self.nextAttemptId timeoutBlocks)
    nextAttemptId := self.nextAttemptId.next }

/-- The voting participant and the attempt it votes in. -/
def verifyVote (env : Env) (self : KeyEvent) (keyEventId : KeyEventId) :
    Except Error (ParticipantId × KeyEventInstance) := do
  let candidate ← authenticatedParticipantId env self.parameters.participants
  let inst ← found (.keyEvent .noActiveKeyEvent) (self.cleanupIfTimedOut env).inst
  require (keyEventId = ⟨self.epochId, self.domain.id, inst.attemptId⟩)
    (.keyEvent .keyEventIdMismatch)
  pure (candidate, inst)

def voteSuccess (env : Env) (self : KeyEvent) (keyEventId : KeyEventId)
    (publicKey : PublicKeyExtended) : Except Error (Bool × KeyEvent) := do
  let (candidate, inst) ← self.verifyVote env keyEventId
  match ← inst.voteSuccess candidate publicKey with
  | (.voted count, inst) =>
    pure (decide (count = self.parameters.participants.len), { self with inst := some inst })
  | (.publicKeyDisagreement, _) => pure (false, { self with inst := none })

def voteAbort (env : Env) (self : KeyEvent) (keyEventId : KeyEventId) : Except Error KeyEvent := do
  let (candidate, inst) ← self.verifyVote env keyEventId
  require (candidate ∉ inst.completed) (.vote .voteAlreadySubmitted)
  pure { self with inst := none }

theorem start_ok {self : KeyEvent} (done : self.start env keyEventId timeoutBlocks = .ok event) :
    keyEventId = self.expectedKeyEventId ∧
      event.epochId = self.epochId ∧ event.domain = self.domain ∧
      event.parameters = self.parameters ∧ event.nextAttemptId = self.nextAttemptId.next := by
  simp only [start, bind_ok_iff, require_eq_ok, pure_ok_iff] at done
  obtain ⟨_, _, _, sameId, _, _, rfl⟩ := done
  exact ⟨sameId, rfl, rfl, rfl, rfl⟩

theorem voteSuccess_ok {self : KeyEvent}
    (done : self.voteSuccess env keyEventId publicKey = .ok (complete, event)) :
    keyEventId.epochId = self.epochId ∧ keyEventId.domainId = self.domain.id ∧
      ∃ inst, event = { self with inst := inst } := by
  simp only [voteSuccess, verifyVote, bind_ok_iff, require_eq_ok, pure_ok_iff] at done
  obtain ⟨⟨candidate, inst⟩, ⟨_, _, attempt, _, _, sameId, _⟩, ⟨outcome, updated⟩, _, result⟩ := done
  rw [sameId]
  refine ⟨rfl, rfl, ?_⟩
  cases outcome with
  | voted count =>
    simp only [pure_ok_iff, Prod.mk.injEq] at result
    exact ⟨_, result.2.symm⟩
  | publicKeyDisagreement =>
    simp only [pure_ok_iff, Prod.mk.injEq] at result
    exact ⟨_, result.2.symm⟩

theorem voteAbort_ok {self : KeyEvent} (done : self.voteAbort env keyEventId = .ok event) :
    event = { self with inst := none } := by
  simp only [voteAbort, bind_ok_iff, require_eq_ok, pure_ok_iff] at done
  obtain ⟨_, _, _, _, same⟩ := done
  exact same.symm

end KeyEvent

end MpcNetwork.Contract
