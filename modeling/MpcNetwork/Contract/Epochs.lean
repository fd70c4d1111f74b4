import Mathlib.Data.Prod.Lex
import MpcNetwork.Contract.Alignment
import MpcNetwork.Lib.Clocks

/-! # Epochs and key event ids are used once

A key share is stored under the epoch, the domain and the attempt of the key event that
produced it, so none of these triples may be started twice.  The protocol state determines
the lowest id that can still be started; this frontier is a clock.
-/

namespace MpcNetwork.Contract

open Fallible Runs Clocks

/-- Ids are ordered by epoch, then domain, then attempt. -/
def KeyEventId.order (id : KeyEventId) : ℕ ×ₗ ℕ ×ₗ ℕ :=
  toLex (id.epochId.value, toLex (id.domainId.value, id.attemptId.value))

variable {id other : KeyEventId}

theorem KeyEventId.order_lt_iff :
    id.order < other.order ↔ id.epochId.value < other.epochId.value ∨
      id.epochId.value = other.epochId.value ∧ (id.domainId.value < other.domainId.value ∨
        id.domainId.value = other.domainId.value ∧ id.attemptId.value < other.attemptId.value) := by
  simp [order, Prod.Lex.toLex_lt_toLex]

theorem KeyEventId.order_le_iff :
    id.order ≤ other.order ↔ id.epochId.value < other.epochId.value ∨
      id.epochId.value = other.epochId.value ∧ (id.domainId.value < other.domainId.value ∨
        id.domainId.value = other.domainId.value ∧ id.attemptId.value ≤ other.attemptId.value) := by
  simp [order, Prod.Lex.toLex_le_toLex]

variable {self : RunningContractState}

namespace RunningContractState

/-- The epoch of a cancelled resharing, to be skipped. Without a domain no resharing follows. -/
def rememberedEpoch (self : RunningContractState) : Option EpochId :=
  if self.domains.domains = [] then none else self.previouslyCancelledResharingEpochId

theorem rememberedEpoch_of_empty (empty : self.domains.getDomainByIndex 0 = none) :
    self.rememberedEpoch = none := by
  have none : self.domains.domains = [] := by
    simpa [DomainRegistry.getDomainByIndex] using empty
  simp [rememberedEpoch, none]

theorem rememberedEpoch_of_first (isFirst : self.domains.getDomainByIndex 0 = some first) :
    self.rememberedEpoch = self.previouslyCancelledResharingEpochId := by
  have present : self.domains.domains ≠ [] := List.ne_nil_of_mem (List.mem_of_getElem? isFirst)
  simp [rememberedEpoch, present]

theorem rememberedEpoch_of_none (nothing : self.previouslyCancelledResharingEpochId = none) :
    self.rememberedEpoch = none := by
  simp [rememberedEpoch, nothing]

end RunningContractState

variable {state : RunningContractState}

variable {registry : DomainRegistry}

namespace ProtocolContractState

def nextEpoch : ProtocolContractState → Nat
  | notInitialized => 0
  | running state => (state.rememberedEpoch.getD state.keyset.epochId).value + 1
  | initializing state => state.epochId.value + 1
  | resharing state => state.prospectiveEpochId.value + 1

def frontier : ProtocolContractState → KeyEventId
  | notInitialized => ⟨⟨0⟩, ⟨0⟩, ⟨0⟩⟩
  | running state =>
    match state.rememberedEpoch with
    | some cancelled => ⟨cancelled.next, ⟨0⟩, ⟨0⟩⟩
    | none => ⟨state.keyset.epochId, ⟨state.domains.nextDomainId⟩, ⟨0⟩⟩
  | initializing state => state.generatingKey.expectedKeyEventId
  | resharing state => state.resharingKey.expectedKeyEventId

@[simp] theorem nextEpoch_new :
    (running (.new registry keyset parameters votes)).nextEpoch = keyset.epochId.value + 1 := by
  rw [nextEpoch, RunningContractState.rememberedEpoch_of_none rfl]
  rfl

theorem frontier_of_none (nothing : state.rememberedEpoch = none) :
    (running state).frontier = ⟨state.keyset.epochId, ⟨state.domains.nextDomainId⟩, ⟨0⟩⟩ := by
  simp [frontier, nothing]

theorem frontier_of_some (remembered : state.rememberedEpoch = some cancelled) :
    (running state).frontier = ⟨cancelled.next, ⟨0⟩, ⟨0⟩⟩ := by
  simp [frontier, remembered]

@[simp] theorem frontier_new :
    (running (.new registry keyset parameters votes)).frontier =
      ⟨keyset.epochId, ⟨registry.nextDomainId⟩, ⟨0⟩⟩ :=
  frontier_of_none (RunningContractState.rememberedEpoch_of_none rfl)

def Populated : ProtocolContractState → Prop
  | resharing state => state.previousRunningState.domains.domains ≠ []
  | _ => True

end ProtocolContractState

open ProtocolContractState

theorem Transition.populated (transition : Transition env call s started epoch t) (populated : s.Populated) :
    t.Populated := by
  cases transition with
  | resharingStarted state proposal first isFirst =>
    exact List.ne_nil_of_mem (List.mem_of_getElem? isFirst)
  | resharingMoved => exact populated
  | resharingReplaced => exact populated
  | keyReshared => exact populated
  | _ => trivial

/-- The call completes no vote on new domains while a cancelled epoch has to be remembered. -/
def KeepsCancelledEpoch (env : Env) (call : Call) (s : ProtocolContractState) : Prop :=
  ∀ state domains, s = running state → call = .voteAddDomains domains →
    CompletesAddDomains env state domains → state.previouslyCancelledResharingEpochId = none

theorem RunningContractState.prospectiveEpochId_eq
    (isFirst : state.domains.getDomainByIndex 0 = some first) :
    state.prospectiveEpochId.value = (running state).nextEpoch := by
  simp [prospectiveEpochId, nextEpoch, rememberedEpoch_of_first isFirst]

theorem Transition.epoch_ticks (transition : Transition env call s started epoch t)
    (populated : s.Populated) (keeps : KeepsCancelledEpoch env call s) :
    Ticks nextEpoch EpochId.value epoch s t := by
  cases transition with
  | voted state => exact .silent (le_refl _)
  | resharingStarted state proposal first isFirst =>
    apply Ticks.emits
    · exact (RunningContractState.prospectiveEpochId_eq isFirst).ge
    · exact Nat.lt_succ_self _
  | parametersReplaced state proposal empty =>
    apply Ticks.silent
    rw [nextEpoch_new]
    simp [nextEpoch, RunningContractState.rememberedEpoch_of_empty empty]
  | keygenStarted state first later registry added asked complete =>
    apply Ticks.silent
    have nothing := keeps state _ rfl asked complete
    simp [nextEpoch, RunningContractState.rememberedEpoch_of_none nothing]
  | keygenMoved state => exact .silent (le_refl _)
  | keyGenerated state => exact .silent (le_refl _)
  | keygenFinished state =>
    apply Ticks.silent
    rw [nextEpoch_new]
    exact le_refl _
  | keygenCancelled state =>
    apply Ticks.silent
    rw [nextEpoch_new]
    exact le_refl _
  | resharingMoved state event votes requests moved =>
    apply Ticks.silent
    simp [nextEpoch, ResharingContractState.prospectiveEpochId, moved.same.1]
  | resharingReplaced state =>
    apply Ticks.emits
    · exact le_refl _
    · exact Nat.lt_succ_self _
  | keyReshared state => exact .silent (le_refl _)
  | resharingFinished state =>
    apply Ticks.silent
    rw [nextEpoch_new]
    exact le_refl _
  | resharingCancelled state =>
    apply Ticks.silent
    have present : state.previousRunningState.domains.domains ≠ [] := populated
    simp [nextEpoch, RunningContractState.rememberedEpoch, present]

theorem Covers.id_lt (covers : Covers keys registry.domains next)
    (isAfter : registry.getDomainByIndex (keys.length + 1) = some after) :
    next.id.value < after.id.value := by
  obtain ⟨inside, rfl⟩ := List.getElem?_eq_some_iff.mp covers.isNext
  obtain ⟨insideAfter, rfl⟩ := List.getElem?_eq_some_iff.mp isAfter
  exact List.pairwise_iff_getElem.mp registry.increasing _ _ inside insideAfter (Nat.lt_succ_self _)

variable {event : KeyEvent}

/-- An attempt is started under the lowest id that is left, and uses it up. -/
theorem KeyEvent.Moves.ticks (moved : event.Moves starting after) :
    Ticks (fun event => event.expectedKeyEventId.order) KeyEventId.order starting event after := by
  cases moved with
  | kept inst => exact .silent (le_refl _)
  | started inst =>
    apply Ticks.emits
    · exact le_refl _
    · rw [KeyEventId.order_lt_iff]
      simp [expectedKeyEventId]

/-- The id expected by a key event is below everything a later phase can start. -/
theorem Covers.order_le (covers : Covers keys registry.domains event.domain) :
    event.expectedKeyEventId.order ≤
      (KeyEventId.mk event.epochId ⟨registry.nextDomainId⟩ ⟨0⟩).order := by
  rw [KeyEventId.order_le_iff]
  exact .inr ⟨rfl, .inl (registry.below _ covers.next_mem)⟩

theorem Covers.order_le_advance (covers : Covers keys registry.domains event.domain)
    (isAfter : registry.getDomainByIndex (keys.length + 1) = some after)
    (parameters : ThresholdParameters) :
    event.expectedKeyEventId.order ≤
      (KeyEvent.new event.epochId after parameters).expectedKeyEventId.order := by
  rw [KeyEventId.order_le_iff]
  exact .inr ⟨rfl, .inl (covers.id_lt isAfter)⟩

theorem KeyEventId.order_le_of_epoch (later : id.epochId.value < other.epochId.value) :
    id.order ≤ other.order := by
  rw [order_le_iff]
  exact .inl later

theorem Transition.frontier_ticks (transition : Transition env call s started epoch t)
    (aligned : s.Aligned) (keeps : KeepsCancelledEpoch env call s) :
    Ticks (fun s => s.frontier.order) KeyEventId.order started s t := by
  cases transition with
  | voted state => exact .silent (le_refl _)
  | resharingStarted state proposal first isFirst =>
    apply Ticks.silent
    have later := RunningContractState.prospectiveEpochId_eq isFirst
    cases remembered : state.rememberedEpoch with
    | none =>
      rw [frontier_of_none remembered]
      apply KeyEventId.order_le_of_epoch
      simp only [nextEpoch, remembered, Option.getD_none] at later
      exact later.ge
    | some cancelled =>
      rw [frontier_of_some remembered, KeyEventId.order_le_iff]
      simp only [nextEpoch, remembered, Option.getD_some] at later
      simp only [ProtocolContractState.frontier, KeyEvent.expectedKeyEventId, KeyEvent.new, EpochId.value_next]
      omega
  | parametersReplaced state proposal empty =>
    apply Ticks.silent
    rw [frontier_of_none (RunningContractState.rememberedEpoch_of_empty empty), frontier_new]
    exact KeyEventId.order_le_of_epoch (Nat.lt_succ_self _)
  | keygenStarted state first later registry added asked complete =>
    apply Ticks.silent
    obtain ⟨_, _, firstId⟩ := DomainRegistry.addDomains_ok added
    have nothing := keeps state _ rfl asked complete
    rw [frontier_of_none (RunningContractState.rememberedEpoch_of_none nothing),
      KeyEventId.order_le_iff]
    exact .inr ⟨rfl, .inr ⟨(firstId first rfl).symm, le_refl _⟩⟩
  | keygenMoved state event cancelVotes moved =>
    have ticks := moved.ticks
    exact ⟨ticks.forward, ticks.after, ticks.before⟩
  | keyGenerated state key attempt next isNext =>
    apply Ticks.silent
    rw [ProtocolContractState.frontier, ProtocolContractState.frontier, ← aligned.1]
    exact aligned.2.order_le_advance isNext _
  | keygenFinished state =>
    apply Ticks.silent
    rw [frontier_new, ← aligned.1]
    exact aligned.2.order_le
  | keygenCancelled state =>
    apply Ticks.silent
    rw [frontier_new, ← aligned.1]
    exact aligned.2.order_le
  | resharingMoved state event votes requests moved =>
    have ticks := moved.ticks
    exact ⟨ticks.forward, ticks.after, ticks.before⟩
  | resharingReplaced state =>
    exact .silent (KeyEventId.order_le_of_epoch (Nat.lt_succ_self _))
  | keyReshared state previousKey attempt next _ isNext =>
    apply Ticks.silent
    exact aligned.2.order_le_advance isNext _
  | resharingFinished state =>
    apply Ticks.silent
    rw [frontier_new]
    exact aligned.2.order_le
  | resharingCancelled state =>
    apply Ticks.silent
    have present := List.ne_nil_of_mem aligned.2.next_mem
    have remembered : RunningContractState.rememberedEpoch { state.previousRunningState with
        previouslyCancelledResharingEpochId := some state.prospectiveEpochId } =
        some state.prospectiveEpochId := by
      simp [RunningContractState.rememberedEpoch, present]
    rw [frontier_of_some remembered]
    exact KeyEventId.order_le_of_epoch (Nat.lt_succ_self _)

/-- The epochs of the resharings started along a run. -/
def resharingEpochs (es : List CallEvent) : List EpochId :=
  es.filterMap fun event => event.2.bind resharingEpoch

def startedKeyEvents (es : List CallEvent) : List KeyEventId :=
  es.filterMap fun event => event.1.2.starts

/-- The calls of the contract that keep the cancelled epoch. -/
def KeepingCalls : MpcContract → CallEvent → MpcContract → Prop :=
  Guarded (fun self event => KeepsCancelledEpoch event.1.1 event.1.2 self.protocolState) (Acts act)

theorem populated_run (populated : start.protocolState.Populated)
    (run : Run (Acts act) start es contract) : contract.protocolState.Populated := by
  apply run.invariant (fun _ contract => contract.protocolState.Populated) populated
  intro _ _ _ _ _ ih acts
  exact (acts_transition acts).populated ih

private def alice : AccountId := ⟨"alice.near"⟩

private def bob : AccountId := ⟨"bob.near"⟩

private def aliceAndBob : ThresholdParameters where
  participants :=
    { nextId := ⟨2⟩
      participants := [(alice, ⟨0⟩, ⟨"alice", ⟨[1]⟩⟩), (bob, ⟨1⟩, ⟨"bob", ⟨[2]⟩⟩)] }
  threshold := 2

private def signingDomain (id : Nat) : DomainConfig := ⟨⟨id⟩, .secp256k1, .sign⟩

private def oneDomain : RunningContractState :=
  .new ⟨[signingDomain 0], 1, by decide, by decide⟩
    ⟨⟨0⟩, [⟨⟨0⟩, .secp256k1 ⟨[7]⟩, ⟨0⟩⟩]⟩ aliceAndBob .default

private def oneDomainContract : MpcContract := .fresh oneDomain ⟨30, 15, 15⟩

private def calledBy (account : AccountId) : Env where
  signerAccountId := account
  predecessorAccountId := account
  blockHeight := 100
  prepaidGas := 0
  attachedDeposit := 0
  isCallerAnAttestedParticipant := fun _ => true
  reverifyParticipant := fun _ => true

private def byBoth (call : Call) : List (Env × Call) := [(calledBy alice, call), (calledBy bob, call)]

private def firstAttempt : KeyEventId := ⟨⟨1⟩, ⟨0⟩, ⟨0⟩⟩

/-- Both vote to reshare onto the same parameters, and the leader starts an attempt. -/
private def reshare : List (Env × Call) :=
  byBoth (.voteNewParameters ⟨1⟩ aliceAndBob) ++
    [(calledBy alice, .startReshareInstance firstAttempt)]

/-- The resharing is cancelled, and then the key generation for another domain. -/
private def cancelBoth : List (Env × Call) :=
  byBoth .voteCancelResharing ++ byBoth (.voteAddDomains [signingDomain 1]) ++
    byBoth (.voteCancelKeygen 2)

end MpcNetwork.Contract
