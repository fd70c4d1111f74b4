import MpcNetwork.Contract.Parameters
import MpcNetwork.Lib.Clocks

/-! # Updates of the contract

Participants propose new code or a new configuration and vote on the proposals.  A proposal is
carried out in the call that brings it to the threshold, and all proposals and votes are dropped
with it.  Votes of accounts that are no longer participants may stay recorded and do not count.
-/

namespace MpcNetwork.Contract

open Fallible Runs

@[ext] structure UpdateId where
  value : Nat
  deriving Repr, DecidableEq

/-- The next id, and the counter after it.  The counter has 64 bits and is checked. -/
def UpdateId.generate (self : UpdateId) : Except Error (UpdateId × UpdateId) := do
  require (self.value + 1 < 2 ^ 64) .panic
  pure (self, ⟨self.value + 1⟩)

/-- The part of the contract's configuration that a modelled method reads. -/
structure FullConfig where
  config : Config
  teeUpgradeDeadlineDurationSeconds : Nat
  contractUpgradeDepositTeraGas : Nat

inductive Update where
  | contract (code : List UInt8)
  | config (config : FullConfig)

structure ProposeUpdateArgs where
  code : Option (List UInt8)
  config : Option FullConfig

inductive UpdateError where
  | method (error : MethodError)
  | dataConversion (message : String)
  | insufficientDeposit (attached required : Nat)
  | updateNotFound
  deriving Repr, DecidableEq

def ProposeUpdateArgs.tryInto : ProposeUpdateArgs → Except UpdateError Update
  | ⟨some code, none⟩ => pure (.contract code)
  | ⟨none, some config⟩ => pure (.config config)
  | ⟨some _, some _⟩ =>
    throw (.dataConversion "Code and config updates are not allowed at the same time")
  | ⟨none, none⟩ =>
    throw (.dataConversion "Expected either code or config update, received none of them")

/-- The sizes of the compiled types, the length of a configuration and the price of a byte. -/
structure Storage where
  sizeOfUpdateEntry : Nat
  sizeOfAccountId : Nat
  configLen : FullConfig → Nat
  storageByteCost : Nat

structure UpdateEntry where
  update : Update
  bytesUsed : Nat

/-- What the contract sends itself to carry an update out. -/
inductive UpdatePromise where
  | deployAndMigrate (code : List UInt8) (gas : Nat)
  | updateConfig (config : FullConfig) (gas : Nat)

/-- Gas has 64 bits, and the multiplication is checked. -/
def gasFromTgas (teraGas : Nat) : Except Error Nat := do
  require (teraGas * 10 ^ 12 < 2 ^ 64) .panic
  pure (teraGas * 10 ^ 12)

/-- A new configuration is set with the gas it names itself. -/
def Update.promise (gas : Nat) : Update → Except Error UpdatePromise
  | .contract code => pure (.deployAndMigrate code gas)
  | .config newConfig => do
    let newConfigGasValue ← gasFromTgas newConfig.contractUpgradeDepositTeraGas
    pure (.updateConfig newConfig newConfigGasValue)

/-- A participant has one vote, for one proposal. -/
structure ProposedUpdates where
  voteByParticipant : Table AccountId UpdateId
  entries : Table UpdateId UpdateEntry
  id : UpdateId

namespace ProposedUpdates

def default : ProposedUpdates := ⟨∅, ∅, ⟨0⟩⟩

def bytesUsed (storage : Storage) (update : Update) : Nat :=
  storage.sizeOfUpdateEntry + 128 * storage.sizeOfAccountId +
    match update with
    | .contract code => code.length
    | .config config => storage.configLen config

def requiredDeposit (storage : Storage) (update : Update) : Nat :=
  min (storage.storageByteCost * bytesUsed storage update) (2 ^ 128 - 1)

def propose (self : ProposedUpdates) (storage : Storage) (update : Update) :
    Except Error (UpdateId × ProposedUpdates) := do
  let (id, next) ← self.id.generate
  let entry : UpdateEntry := ⟨update, bytesUsed storage update⟩
  pure (id, { self with entries := self.entries.insert id entry, id := next })

def removeVote (self : ProposedUpdates) (voter : AccountId) : ProposedUpdates :=
  { self with voteByParticipant := self.voteByParticipant.erase voter }

/-- The vote replaces an earlier one of the voter. -/
def vote (self : ProposedUpdates) (id : UpdateId) (voter : AccountId) : Option ProposedUpdates :=
  let removed := self.removeVote voter
  if (removed.entries.lookup id).isNone then none
  else some { removed with voteByParticipant := removed.voteByParticipant.insert voter id }

/-- The other proposals are dropped, as they may no longer be valid. -/
def doUpdate (self : ProposedUpdates) (id : UpdateId) (gas : Nat) :
    Except Error (Option (UpdatePromise × ProposedUpdates)) :=
  match self.entries.lookup id with
  | some entry => do
    let promise ← entry.update.promise gas
    pure (some (promise, ⟨∅, ∅, self.id⟩))
  | none => pure none

def removeVotes (self : ProposedUpdates) (accountsToRemove : List AccountId) : ProposedUpdates :=
  accountsToRemove.foldl removeVote self

def removeNonParticipantVotes (self : ProposedUpdates) (participants : Participants) :
    ProposedUpdates :=
  self.removeVotes (self.voteByParticipant.keys.filter fun voter =>
    !participants.isParticipantGivenAccountId voter)

/-- How many of the participants have the proposal as their vote. -/
def validVotesCount (self : ProposedUpdates) (participants : Participants) (id : UpdateId) : Nat :=
  (participants.participants.filter fun entry =>
    (self.voteByParticipant.lookup entry.1).any (· = id)).length

end ProposedUpdates

structure UpdatableContract where
  deployment : Deployment
  proposedUpdates : ProposedUpdates
  contractUpgradeDepositTeraGas : Nat

inductive UpdateMethod (Collateral : Type) where
  | deployment (method : Method Collateral)
  | proposeUpdate (args : ProposeUpdateArgs)
  | voteUpdate (id : UpdateId)
  | removeUpdateVote
  | removeNonParticipantUpdateVotes
  | updateConfig (config : FullConfig)

/-- What a method did besides changing the state. -/
inductive UpdateNote where
  | deployment (note : MethodNote)
  | proposed (id : UpdateId) (refund : Nat)
  | executed (id : UpdateId) (promise : UpdatePromise)
  | quiet

namespace UpdatableContract

def panic {α : Type} : Except UpdateError α := throw (.method (.contract .panic))

def voterOrPanic (self : UpdatableContract) (host : Host) : Except UpdateError AccountId :=
  (self.deployment.contract.voterOrPanic (self.deployment.env host)).mapError fun error =>
    .method (.contract error)

/-- What is attached beyond the price of the storage goes back to the proposer. -/
def proposeUpdate (self : UpdatableContract) (host : Host) (storage : Storage)
    (args : ProposeUpdateArgs) : Except UpdateError ((UpdateId × Nat) × UpdatableContract) := do
  let _ ← self.voterOrPanic host
  let update ← args.tryInto
  let required := ProposedUpdates.requiredDeposit storage update
  require (required ≤ host.attachedDeposit) (.insufficientDeposit host.attachedDeposit required)
  let (id, proposedUpdates) ← (self.proposedUpdates.propose storage update).mapError fun error =>
    UpdateError.method (.contract error)
  pure ((id, host.attachedDeposit - required), { self with proposedUpdates := proposedUpdates })

/-- The promise that carries the update out, once enough current participants voted for it. -/
def voteUpdate (self : UpdatableContract) (host : Host) (id : UpdateId) :
    Except UpdateError (Option UpdatePromise × UpdatableContract) :=
  match self.deployment.contract.protocolState with
  | .running runningState => do
    let threshold ← self.deployment.contract.protocolState.threshold.mapError fun error =>
      UpdateError.method (.contract error)
    let voter ← self.voterOrPanic host
    let voted ← found .updateNotFound (self.proposedUpdates.vote id voter)
    if voted.validVotesCount runningState.parameters.participants id < threshold then
      pure (none, { self with proposedUpdates := voted })
    else do
      let updateGasDeposit ← (gasFromTgas self.contractUpgradeDepositTeraGas).mapError
        fun error => UpdateError.method (.contract error)
      let done ← (voted.doUpdate id updateGasDeposit).mapError fun error =>
        UpdateError.method (.contract error)
      let (promise, cleared) ← found .updateNotFound done
      pure (some promise, { self with proposedUpdates := cleared })
  | _ => panic

def removeUpdateVote (self : UpdatableContract) (host : Host) :
    Except UpdateError UpdatableContract :=
  match self.deployment.contract.protocolState with
  | .running _ => do
    let voter ← self.voterOrPanic host
    pure { self with proposedUpdates := self.proposedUpdates.removeVote voter }
  | _ => panic

def removeNonParticipantUpdateVotes (self : UpdatableContract) :
    Except UpdateError UpdatableContract :=
  match self.deployment.contract.protocolState with
  | .running state => pure { self with
      proposedUpdates :=
        self.proposedUpdates.removeNonParticipantVotes state.parameters.participants }
  | _ => throw (.method (.contract (.invalidState .protocolStateNotRunning)))

/-- Only the contract itself sets its configuration. -/
def updateConfig (self : UpdatableContract) (host : Host) (config : FullConfig) :
    Except UpdateError UpdatableContract := do
  (Deployment.assertPrivate host).mapError UpdateError.method
  pure { self with
    deployment := { self.deployment with
      contract := { self.deployment.contract with config := config.config }
      teeUpgradeDeadlineDurationSeconds := config.teeUpgradeDeadlineDurationSeconds }
    contractUpgradeDepositTeraGas := config.contractUpgradeDepositTeraGas }

variable {Collateral : Type} (verifier : AttestationVerifier Collateral) (storage : Storage)

def invoke (self : UpdatableContract) (host : Host) :
    UpdateMethod Collateral → Except UpdateError (UpdateNote × UpdatableContract)
  | .deployment method => do
    let (note, deployment) ←
      (self.deployment.invoke verifier host method).mapError UpdateError.method
    pure (.deployment note, { self with deployment := deployment.persisted })
  | .proposeUpdate args => do
    let ((id, refund), self) ← self.proposeUpdate host storage args
    pure (.proposed id refund, self)
  | .voteUpdate id => do
    let (promise, self) ← self.voteUpdate host id
    pure (promise.elim .quiet (.executed id), self)
  | .removeUpdateVote => do pure (.quiet, ← self.removeUpdateVote host)
  | .removeNonParticipantUpdateVotes => do pure (.quiet, ← self.removeNonParticipantUpdateVotes)
  | .updateConfig config => do pure (.quiet, ← self.updateConfig host config)

/-- A call as a step; a failed call is rolled back and is no step. -/
def act (self : UpdatableContract) (call : Host × UpdateMethod Collateral) :
    Option (UpdatableContract × UpdateNote) :=
  match self.invoke verifier storage call.1 call.2 with
  | .ok (note, after) => some (after, note)
  | .error _ => none

/-- A contract as `init` or `init_running` leaves it. -/
structure Initial (s : UpdatableContract) : Prop where
  deployment : s.deployment.Initial
  proposedUpdates : s.proposedUpdates = .default

end UpdatableContract

namespace ProposedUpdates

variable {self : ProposedUpdates} {id : UpdateId} {voter : AccountId}

def Consistent (self : ProposedUpdates) : Prop :=
  ∀ voter id, self.voteByParticipant.lookup voter = some id →
    ∃ entry, self.entries.lookup id = some entry

theorem vote_some (done : self.vote id voter = some voted) :
    (∃ entry, self.entries.lookup id = some entry) ∧ voted.entries = self.entries ∧
      voted.id = self.id ∧
      ∀ a, voted.voteByParticipant.lookup a =
        if a = voter then some id else self.voteByParticipant.lookup a := by
  simp only [vote] at done
  split at done
  · cases done
  · rename_i present
    cases done
    refine ⟨Option.ne_none_iff_exists'.mp (by simpa [removeVote] using present), rfl, rfl, ?_⟩
    intro a
    simp only [removeVote, Table.lookup_insert_eq, Table.lookup_erase_eq]
    split <;> rfl

theorem doUpdate_some (done : self.doUpdate id gas = .ok (some (promise, cleared))) :
    cleared = ⟨∅, ∅, self.id⟩ := by
  unfold doUpdate at done
  split at done
  · simp only [bind_ok_iff, pure_ok_iff, Option.some.injEq, Prod.mk.injEq] at done
    obtain ⟨_, _, _, rfl⟩ := done
    rfl
  · cases done

theorem removeVotes_eq (self : ProposedUpdates) (accounts : List AccountId) :
    self.removeVotes accounts =
      { self with voteByParticipant := self.voteByParticipant.eraseAll accounts } := by
  induction accounts generalizing self with
  | nil => rfl
  | cons account accounts ih =>
    change (self.removeVote account).removeVotes accounts = _
    rw [ih]
    rfl

theorem Consistent.removeVotes (consistent : self.Consistent) (accounts : List AccountId) :
    (self.removeVotes accounts).Consistent := by
  intro voter id isVote
  rw [removeVotes_eq] at isVote ⊢
  rw [Table.lookup_eraseAll] at isVote
  split at isVote
  · cases isVote
  · exact consistent voter id isVote

theorem Consistent.vote (consistent : self.Consistent) (done : self.vote id voter = some voted) :
    voted.Consistent := by
  obtain ⟨present, sameEntries, _, votes⟩ := vote_some done
  intro a other isVote
  rw [votes] at isVote
  rw [sameEntries]
  split at isVote
  · cases isVote
    exact present
  · exact consistent a other isVote

theorem Consistent.insert (consistent : self.Consistent) (id next : UpdateId)
    (entry : UpdateEntry) :
    Consistent { self with entries := self.entries.insert id entry, id := next } := by
  intro voter other isVote
  obtain ⟨old, present⟩ := consistent voter other isVote
  simp only [Table.lookup_insert_eq]
  split
  · exact ⟨entry, rfl⟩
  · exact ⟨old, present⟩

theorem consistent_cleared (id : UpdateId) : Consistent ⟨∅, ∅, id⟩ := by
  intro voter other isVote
  cases isVote

theorem counted_voters (self : ProposedUpdates)
    (valid : participants.Valid) (id : UpdateId) :
    ∃ voters : Finset AccountId, voters.card = self.validVotesCount participants id ∧
      ∀ voter ∈ voters, participants.isParticipantGivenAccountId voter ∧
        self.voteByParticipant.lookup voter = some id := by
  let counted := participants.participants.filter fun entry =>
    (self.voteByParticipant.lookup entry.1).any (· = id)
  have distinct : (counted.map fun entry => entry.1).Nodup := by
    have all := valid.distinctAccounts
    rw [participants.holders_accounts] at all
    exact all.sublist (List.filter_sublist.map _)
  refine ⟨(counted.map fun entry => entry.1).toFinset, ?_, ?_⟩
  · rw [List.toFinset_card_of_nodup distinct, List.length_map]
    rfl
  · intro voter inside
    simp only [List.mem_toFinset, List.mem_map, counted, List.mem_filter] at inside
    obtain ⟨entry, ⟨isEntry, isVote⟩, rfl⟩ := inside
    obtain ⟨vote, recorded, same⟩ := (Option.any_eq_true ..).mp isVote
    refine ⟨Participants.isParticipant_of_mem isEntry, ?_⟩
    rw [recorded, of_decide_eq_true same]

end ProposedUpdates

namespace UpdatableContract

variable {Collateral : Type} {verifier : AttestationVerifier Collateral} {storage : Storage}

/-- The vote of the signer brings the update to the threshold. -/
def Decides (self : UpdatableContract) (host : Host) (id : UpdateId) : Prop :=
  ∃ state voted, self.deployment.contract.protocolState = .running state ∧
    self.proposedUpdates.vote id host.signerAccountId = some voted ∧
    state.parameters.threshold ≤ voted.validVotesCount state.parameters.participants id

inductive Step (self : UpdatableContract) (host : Host) :
    UpdateMethod Collateral → UpdateNote → ProposedUpdates → Prop where
  | other (method : Method Collateral) (note : MethodNote) :
      Step self host (.deployment method) (.deployment note) self.proposedUpdates
  | proposed (args : ProposeUpdateArgs) (entry : UpdateEntry) (refund : Nat) :
      Step self host (.proposeUpdate args) (.proposed self.proposedUpdates.id refund)
        { self.proposedUpdates with
          entries := self.proposedUpdates.entries.insert self.proposedUpdates.id entry
          id := ⟨self.proposedUpdates.id.value + 1⟩ }
  | voted (id : UpdateId) (voted : ProposedUpdates)
      (done : self.proposedUpdates.vote id host.signerAccountId = some voted) :
      Step self host (.voteUpdate id) .quiet voted
  | executed (id : UpdateId) (promise : UpdatePromise) (decides : self.Decides host id) :
      Step self host (.voteUpdate id) (.executed id promise) ⟨∅, ∅, self.proposedUpdates.id⟩
  | withdrawn (method : UpdateMethod Collateral) (accounts : List AccountId) :
      Step self host method .quiet (self.proposedUpdates.removeVotes accounts)

section

variable {self after : UpdatableContract} {host : Host}

theorem voterOrPanic_ok (done : self.voterOrPanic host = .ok voter) :
    voter = host.signerAccountId := by
  simp only [voterOrPanic, mapError_eq_ok, MpcContract.voterOrPanic, MpcContract.voterAccount,
    bind_ok_iff, expect_eq_ok, pure_ok_iff] at done
  obtain ⟨_, _, _, _, _, _, rfl⟩ := done
  rfl

theorem proposeUpdate_step {id : UpdateId}
    (done : self.proposeUpdate host storage args = .ok ((id, refund), after)) :
    after.deployment = self.deployment ∧
      @Step Collateral self host (.proposeUpdate args) (.proposed id refund)
        after.proposedUpdates := by
  simp only [proposeUpdate, ProposedUpdates.propose, UpdateId.generate, bind_ok_iff,
    mapError_eq_ok, pure_ok_iff, Prod.mk.injEq] at done
  obtain ⟨_, _, update, _, _, _, _, ⟨_, ⟨_, _, rfl⟩, rfl⟩, ⟨rfl, rfl⟩, rfl⟩ := done
  exact ⟨rfl, .proposed args _ _⟩

theorem voteUpdate_step {id : UpdateId}
    (done : self.voteUpdate host id = .ok (promise, after)) :
    after.deployment = self.deployment ∧
      @Step Collateral self host (.voteUpdate id)
        (promise.elim .quiet (.executed id)) after.proposedUpdates := by
  unfold voteUpdate at done
  split at done
  · rename_i state isRunning
    simp only [bind_ok_iff, mapError_eq_ok, found_eq_ok] at done
    obtain ⟨threshold, isThreshold, voter, isVoter, voted, isVoted, done⟩ := done
    cases voterOrPanic_ok isVoter
    rw [isRunning] at isThreshold
    cases isThreshold
    split at done
    · cases done
      exact ⟨rfl, .voted id voted isVoted⟩
    · rename_i enough
      simp only [bind_ok_iff, mapError_eq_ok, found_eq_ok, pure_ok_iff, Prod.mk.injEq] at done
      obtain ⟨_, _, _, executes, ⟨_, _⟩, rfl, rfl, rfl⟩ := done
      have decides : self.Decides host id :=
        ⟨state, voted, isRunning, isVoted, Nat.le_of_not_lt enough⟩
      have sameId := (ProposedUpdates.vote_some isVoted).2.2.1
      cases ProposedUpdates.doUpdate_some executes
      rw [sameId]
      exact ⟨rfl, .executed id _ decides⟩
  · cases done

theorem invoke_step (done : self.invoke verifier storage host method = .ok (note, after)) :
    self.Step host method note after.proposedUpdates ∧
      (after.deployment.seats = self.deployment.seats ∨
        ∃ event, Acts (Deployment.act verifier) self.deployment event after.deployment) := by
  cases method with
  | deployment method =>
    simp only [invoke, bind_ok_iff, mapError_eq_ok, pure_ok_iff, Prod.mk.injEq] at done
    obtain ⟨⟨deeper, deployment⟩, invoked, rfl, rfl⟩ := done
    refine ⟨.other method deeper, .inr ⟨((host, method), deeper), ?_⟩⟩
    simp only [Acts, Deployment.act, invoked]
  | proposeUpdate args =>
    simp only [invoke, bind_ok_iff, pure_ok_iff, Prod.mk.injEq] at done
    obtain ⟨⟨⟨_, _⟩, _⟩, proposed, rfl, rfl⟩ := done
    obtain ⟨same, step⟩ := proposeUpdate_step proposed
    exact ⟨step, .inl (by rw [same])⟩
  | voteUpdate id =>
    simp only [invoke, bind_ok_iff, pure_ok_iff, Prod.mk.injEq] at done
    obtain ⟨⟨_, _⟩, voted, rfl, rfl⟩ := done
    obtain ⟨same, step⟩ := voteUpdate_step voted
    exact ⟨step, .inl (by rw [same])⟩
  | removeUpdateVote =>
    simp only [invoke, removeUpdateVote, bind_ok_iff, pure_ok_iff, Prod.mk.injEq] at done
    obtain ⟨_, removed, rfl, rfl⟩ := done
    split at removed
    · simp only [bind_ok_iff, pure_ok_iff] at removed
      obtain ⟨voter, _, rfl⟩ := removed
      exact ⟨.withdrawn _ [voter], .inl rfl⟩
    · cases removed
  | removeNonParticipantUpdateVotes =>
    simp only [invoke, removeNonParticipantUpdateVotes, bind_ok_iff, pure_ok_iff,
      Prod.mk.injEq] at done
    obtain ⟨_, removed, rfl, rfl⟩ := done
    split at removed
    · cases removed
      exact ⟨.withdrawn _ _, .inl rfl⟩
    · cases removed
  | updateConfig config =>
    simp only [invoke, updateConfig, bind_ok_iff, pure_ok_iff, Prod.mk.injEq] at done
    obtain ⟨_, ⟨_, _, rfl⟩, rfl, rfl⟩ := done
    exact ⟨.withdrawn _ [], .inl rfl⟩

end

abbrev UpdateEvent (Collateral : Type) := (Host × UpdateMethod Collateral) × UpdateNote

variable {start s t : UpdatableContract} {es : List (UpdateEvent Collateral)}
  {event : UpdateEvent Collateral}

theorem acts_step (acts : Acts (act verifier storage) s event t) :
    s.Step event.1.1 event.1.2 event.2 t.proposedUpdates ∧
      (t.deployment.seats = s.deployment.seats ∨
        ∃ event, Acts (Deployment.act verifier) s.deployment event t.deployment) := by
  obtain ⟨⟨host, method⟩, note⟩ := event
  unfold Acts act at acts
  split at acts
  · rename_i invoked
    cases acts
    exact invoke_step invoked
  · cases acts

theorem Step.consistent (step : s.Step host method note after)
    (consistent : s.proposedUpdates.Consistent) : after.Consistent := by
  cases step with
  | other => exact consistent
  | proposed _ entry => exact consistent.insert _ _ entry
  | voted _ _ done => exact consistent.vote done
  | executed => exact ProposedUpdates.consistent_cleared _
  | withdrawn _ accounts => exact consistent.removeVotes accounts

def proposedId (event : UpdateEvent Collateral) : Option UpdateId :=
  match event.2 with
  | .proposed id _ => some id
  | _ => none

theorem Step.ticks (step : s.Step host method note t.proposedUpdates) :
    Clocks.Ticks (fun s : UpdatableContract => s.proposedUpdates.id.value) UpdateId.value
      (proposedId ((host, method), note)) s t := by
  generalize isAfter : t.proposedUpdates = after at step
  cases step with
  | other => exact .silent (by simp [isAfter])
  | proposed => exact .emits le_rfl (by simp [isAfter])
  | voted _ _ done => exact .silent (by simp [isAfter, (ProposedUpdates.vote_some done).2.2.1])
  | executed => exact .silent (by simp [isAfter])
  | withdrawn _ accounts => exact .silent (by simp [isAfter, ProposedUpdates.removeVotes_eq])

theorem sound_run (initial : start.Initial) (run : Run (Acts (act verifier storage)) start es s) :
    s.deployment.seats.Sound := by
  refine run.invariant (fun _ s => s.deployment.seats.Sound) initial.deployment.sound ?_
  intro _ _ _ _ _ sound acts
  rcases (acts_step acts).2 with same | ⟨event, inner⟩
  · rwa [same]
  · exact ((Deployment.acts_seats verifier inner).sound sound).1

theorem consistent_run (initial : start.Initial)
    (run : Run (Acts (act verifier storage)) start es s) : s.proposedUpdates.Consistent := by
  refine run.invariant (fun _ s => s.proposedUpdates.Consistent) ?_ ?_
  · rw [initial.proposedUpdates]
    exact ProposedUpdates.consistent_cleared _
  · intro _ _ _ _ _ consistent acts
    exact (acts_step acts).1.consistent consistent

/-- An update is carried out only by a vote that brings it to the threshold of current participants,
    and takes all proposals and votes with it; one vote an account, and ids are not reused. -/
theorem update_executed_by_quorum (initial : start.Initial)
    (run : Run (Acts (act verifier storage)) start es s) :
    (s.proposedUpdates.voteByParticipant.keys.Nodup ∧
      ∀ voter id, s.proposedUpdates.voteByParticipant.lookup voter = some id →
        ∃ entry, s.proposedUpdates.entries.lookup id = some entry) ∧
    (es.filterMap proposedId).Nodup ∧
    ∀ host method id promise t,
      Acts (act verifier storage) s ((host, method), .executed id promise) t →
        method = .voteUpdate id ∧
        (t.proposedUpdates.voteByParticipant = ∅ ∧ t.proposedUpdates.entries = ∅) ∧
        ∃ state, s.deployment.contract.protocolState = .running state ∧
          ∃ voters : Finset AccountId, state.parameters.threshold ≤ voters.card ∧
            ∀ voter ∈ voters,
              state.parameters.participants.isParticipantGivenAccountId voter ∧
              (voter = host.signerAccountId ∨
                s.proposedUpdates.voteByParticipant.lookup voter = some id) := by
  refine ⟨⟨AList.keys_nodup _, consistent_run initial run⟩, ?_, ?_⟩
  · refine Clocks.nodup (fun s => s.proposedUpdates.id.value) UpdateId.value ?_ run
    intro _ _ _ _ _ acts
    exact (acts_step acts).1.ticks
  · intro host method id promise t acts
    have step := (acts_step acts).1
    generalize isAfter : t.proposedUpdates = after at step
    cases step with
    | executed _ _ decides =>
      obtain ⟨state, voted, isRunning, isVoted, enough⟩ := decides
      have sound := sound_run initial run
      rw [Deployment.seats, isRunning] at sound
      obtain ⟨voters, card, each⟩ := voted.counted_voters sound.governing.participants id
      refine ⟨rfl, ⟨rfl, rfl⟩, state, isRunning, voters, card ▸ enough, ?_⟩
      intro voter inside
      obtain ⟨isParticipant, isVote⟩ := each voter inside
      refine ⟨isParticipant, ?_⟩
      rw [(ProposedUpdates.vote_some isVoted).2.2.2] at isVote
      split at isVote
      · rename_i same
        exact .inl same
      · exact .inr isVote

private def updatingPair : UpdatableContract :=
  ⟨Sample.start ⟨Sample.participants 2 [(0, 0), (1, 1)], 2⟩, .default, 50⟩

private def smallStorage : Storage := ⟨160, 24, fun _ => 300, 10 ^ 19⟩

private def payingHost (n : Nat) : Host := { Sample.host n with attachedDeposit := 10 ^ 24 }

/-- The first node proposes two updates and votes for the second. -/
private def updateProposed : List (Host × UpdateMethod Unit) :=
  [(payingHost 0, .proposeUpdate ⟨some [1, 2, 3], none⟩),
    (payingHost 0, .proposeUpdate ⟨some [4, 5], none⟩),
    (payingHost 0, .voteUpdate ⟨1⟩)]

private def isExecuted : UpdateNote → Bool
  | .executed id (.deployAndMigrate code gas) => id = ⟨1⟩ ∧ code = [4, 5] ∧ gas = 50 * 10 ^ 12
  | _ => false

private theorem executed_of_isExecuted (isSo : isExecuted note = true) :
    ∃ promise, note = .executed ⟨1⟩ promise := by
  unfold isExecuted at isSo
  split at isSo
  · rename_i id code gas
    simp only [Bool.decide_and, Bool.and_eq_true, decide_eq_true_eq] at isSo
    obtain ⟨rfl, _⟩ := isSo
    exact ⟨_, rfl⟩
  · cases isSo

/-- The second node's vote carries the update out. -/
theorem update_executed_by_quorum_of_two :
    ∃ es s promise t, Run (Acts (act Sample.verifier smallStorage)) updatingPair es s ∧
      Acts (act Sample.verifier smallStorage) s
        ((payingHost 1, .voteUpdate ⟨1⟩), .executed ⟨1⟩ promise) t ∧
      (es.filterMap proposedId).Nodup ∧ t.proposedUpdates.entries = ∅ ∧
      ∃ voters : Finset AccountId, 2 ≤ voters.card ∧
        ∀ voter ∈ voters, voter = (payingHost 1).signerAccountId ∨
          s.proposedUpdates.voteByParticipant.lookup voter = some ⟨1⟩ := by
  obtain ⟨es, s, note, t, run, _, acted, isSo, threshold⟩ := exists_run_then
    (act Sample.verifier smallStorage) updatingPair updateProposed
    (payingHost 1, .voteUpdate ⟨1⟩) (fun _ s note _ => isExecuted note ∧
      s.deployment.contract.protocolState.threshold.toOption = some 2) (by decide +kernel)
  obtain ⟨promise, rfl⟩ := executed_of_isExecuted isSo
  have initial : updatingPair.Initial := ⟨Sample.start_initial _ rfl, rfl⟩
  obtain ⟨_, distinct, decided⟩ := update_executed_by_quorum initial run
  obtain ⟨_, ⟨_, cleared⟩, state, isRunning, voters, enough, each⟩ := decided _ _ _ _ _ acted
  rw [isRunning] at threshold
  have isTwo : state.parameters.threshold = 2 := Option.some.inj threshold
  rw [isTwo] at enough
  exact ⟨es, s, promise, t, run, acted, distinct, cleared, voters, enough,
    fun voter inside => (each voter inside).2⟩

end UpdatableContract

end MpcNetwork.Contract
