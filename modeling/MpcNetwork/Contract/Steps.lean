import MpcNetwork.Contract.Council

/-! # Steps of a deployment

`Deployment.Step` lists once what a successful call does to the contract, the TEE state and
the migrations.  For the seats this leaves three ways: a governing call, a concluded migration
or nothing.
-/

namespace MpcNetwork.Contract

open Fallible Runs
open Tee (MpcDockerImageHash)

theorem TeeState.addParticipant_ok {Collateral : Type} {verifier : AttestationVerifier Collateral}
    {self teeState : TeeState} {attestation : Tee.Attestation Collateral}
    (done : self.addParticipant verifier nodeId attestation now durationSeconds =
      .ok (isNew, teeState)) :
    ∃ verified, teeState = { self with
      storedAttestations := self.storedAttestations.insert nodeId.tlsPublicKey
        ⟨nodeId, verified⟩ } := by
  simp only [addParticipant, bind_ok_iff] at done
  obtain ⟨_, _, rest⟩ := done
  split at rest
  · cases rest
  · cases rest
  · rename_i verified _
    cases rest
    exact ⟨verified, rfl⟩

/-- Whether the method changes the migrations and nothing else. -/
def Method.setsMigrations {Collateral : Type} : Method Collateral → Bool
  | registerBackupService _ | startNodeMigration _ | cleanupOrphanedNodeMigrations => true
  | _ => false

namespace Deployment

variable {Collateral : Type} (verifier : AttestationVerifier Collateral)

def seats (self : Deployment) : Seats := self.contract.protocolState.seats

/-- The signer has the given id under the parameters in force. -/
structure TeeVoter (d : Deployment) (host : Host) (parameters : ThresholdParameters)
    (participant : ParticipantId) : Prop where
  inForce : d.contract.protocolState.thresholdParameters = some parameters
  voter : authenticatedParticipantId (d.env host) parameters.participants = .ok participant

/-- The destination's attestation verifies, and the signer has the destination's information. -/
structure Migrates (d : Deployment) (host : Host) (state : RunningContractState)
    (destination : DestinationNodeInfo) (participants : Participants) : Prop where
  isRunning : d.contract.protocolState = .running state
  member : state.parameters.participants.isParticipantGivenAccountId host.signerAccountId = true
  announced : d.nodeMigrations.ongoingMigrations.lookup host.signerAccountId = some destination
  sameKey : destination.signerAccountPk = host.signerAccountPk
  verifies : d.teeState.reverifyParticipants ⟨host.signerAccountId,
    destination.destinationNodeInfo.signPk, some destination.signerAccountPk⟩ host.blockTimestamp
    d.teeUpgradeDeadlineDurationSeconds = .valid
  updated : state.parameters.participants.updateInfo host.signerAccountId
    destination.destinationNodeInfo = .ok participants

inductive Step (self : Deployment) (host : Host) :
    Method Collateral → MethodNote → Deployment → Prop where
  | governed (call : Call) (next : Option ProtocolContractState) (contract : MpcContract)
      (done : perform ((self.beforeCall host call).env host) self.contract call =
        .ok (next, contract)) :
      Step self host (.govern call) (.wentTo next)
        { self.beforeCall host call with contract := contract }
  | attested (attestation : Tee.Attestation Collateral) (tlsPublicKey : Tee.Bytes 32)
      (isNew : Bool) (teeState : TeeState)
      (accepted : self.teeState.addParticipant verifier ⟨host.signerAccountId,
        .ofEd25519 tlsPublicKey, some host.signerAccountPk⟩ attestation host.blockTimestamp
        self.teeUpgradeDeadlineDurationSeconds = .ok (isNew, teeState)) :
      Step self host (.submitParticipantInfo attestation tlsPublicKey) .quiet
        { self with teeState := teeState }
  | imageVoted (codeHash : MpcDockerImageHash) (parameters : ThresholdParameters)
      (participant : ParticipantId) (voter : self.TeeVoter host parameters participant)
      (few : (self.teeState.vote codeHash participant).1 < parameters.threshold) :
      Step self host (.voteCodeHash codeHash) .quiet
        { self with teeState := (self.teeState.vote codeHash participant).2 }
  | imageAllowed (codeHash : MpcDockerImageHash) (parameters : ThresholdParameters)
      (participant : ParticipantId) (voter : self.TeeVoter host parameters participant)
      (enough : parameters.threshold ≤ (self.teeState.vote codeHash participant).1) :
      Step self host (.voteCodeHash codeHash) (.whitelisted codeHash)
        { self with
          teeState := (self.teeState.vote codeHash participant).2.whitelistTeeProposal verifier
            codeHash host.blockTimestamp self.teeUpgradeDeadlineDurationSeconds }
  | launcherVoted (method : Method Collateral) (action : LauncherVoteAction)
      (parameters : ThresholdParameters) (participant : ParticipantId)
      (asked : method = match action with
        | .add launcherHash => .voteAddLauncherHash launcherHash
        | .remove launcherHash => .voteRemoveLauncherHash launcherHash)
      (voter : self.TeeVoter host parameters participant) :
      Step self host method .quiet
        { self with teeState := (self.teeState.voteLauncher action participant).2 }
  | launcherAdded (launcherHash : LauncherImageHash) (parameters : ThresholdParameters)
      (participant : ParticipantId) (added : Bool) (teeState : TeeState)
      (voter : self.TeeVoter host parameters participant)
      (enough : parameters.threshold ≤
        (self.teeState.voteLauncher (.add launcherHash) participant).1)
      (result : (self.teeState.voteLauncher (.add launcherHash) participant).2.addLauncherImage
        verifier launcherHash host.blockTimestamp self.teeUpgradeDeadlineDurationSeconds =
        (added, teeState)) :
      Step self host (.voteAddLauncherHash launcherHash)
        (if added then .launcherAdded launcherHash else .quiet) { self with teeState := teeState }
  | launcherRemoved (launcherHash : LauncherImageHash) (parameters : ThresholdParameters)
      (participant : ParticipantId) (removed : Bool) (teeState : TeeState)
      (voter : self.TeeVoter host parameters participant)
      (enough : parameters.participants.len ≤
        (self.teeState.voteLauncher (.remove launcherHash) participant).1)
      (result : (self.teeState.voteLauncher (.remove launcherHash) participant).2.removeLauncherImage
        launcherHash = (removed, teeState)) :
      Step self host (.voteRemoveLauncherHash launcherHash)
        (if removed then .launcherRemoved launcherHash else .quiet)
        { self with teeState := teeState }
  | migrationsSet (method : Method Collateral) (nodeMigrations : NodeMigrations)
      (asked : method.setsMigrations = true) :
      Step self host method .quiet { self with nodeMigrations := nodeMigrations }
  | migrated (keyset : Keyset) (state : RunningContractState) (destination : DestinationNodeInfo)
      (participants : Participants) (nodeMigrations : NodeMigrations)
      (migrates : self.Migrates host state destination participants) :
      Step self host (.concludeNodeMigration keyset) .quiet { self with
        contract := { self.contract with protocolState := .running { state with
          parameters := ⟨participants, state.parameters.threshold⟩ } }
        nodeMigrations := nodeMigrations }
  | cleaned (state : RunningContractState)
      (isRunning : self.contract.protocolState = .running state) :
      Step self host .cleanTeeStatus .quiet { self with
        teeState := self.teeState.cleanNonParticipants state.parameters.participants }

section

variable {verifier} {self : Deployment} {host : Host}

@[simp] theorem beforeCall_contract (call : Call) :
    (self.beforeCall host call).contract = self.contract := by
  unfold beforeCall
  split <;> rfl

theorem beforeCall_teeState (self : Deployment) (host : Host) (call : Call) :
    ∃ images, (self.beforeCall host call).teeState =
        { self.teeState with allowedDockerImageHashes := images } ∧
      images.allowedTeeProposals.Sublist self.teeState.allowedDockerImageHashes.allowedTeeProposals := by
  unfold beforeCall
  split
  · exact ⟨_, rfl, List.drop_sublist _ _⟩
  · exact ⟨_, rfl, .refl _⟩

theorem govern_step (done : self.govern host call = .ok (next, after)) :
    Step verifier self host (.govern call) (.wentTo next) after := by
  simp only [govern, beforeCall_contract, bind_ok_iff, mapError_eq_ok, pure_ok_iff,
    Prod.mk.injEq] at done
  obtain ⟨⟨_, contract⟩, performed, rfl, rfl⟩ := done
  exact .governed call _ contract performed

theorem submitParticipantInfo_step
    (done : self.submitParticipantInfo verifier host attestation tlsPublicKey = .ok after) :
    Step verifier self host (.submitParticipantInfo attestation tlsPublicKey) .quiet after := by
  simp only [submitParticipantInfo, bind_ok_iff, mapError_eq_ok] at done
  obtain ⟨_, _, ⟨isNew, teeState⟩, accepted, rest⟩ := done
  suffices same : { self with teeState := teeState } = after by
    rw [← same]
    exact .attested attestation tlsPublicKey isNew teeState accepted
  split at rest
  · simp only [bind_ok_iff, pure_ok_iff] at rest
    obtain ⟨_, _, _, _, same⟩ := rest
    exact same
  · exact pure_ok_iff.mp rest

theorem teeVoter_ok (done : self.teeVoter host = .ok (parameters, participant)) :
    self.TeeVoter host parameters participant := by
  simp only [teeVoter, bind_ok_iff, mapError_eq_ok, found_eq_ok, pure_ok_iff,
    Prod.mk.injEq] at done
  obtain ⟨_, _, _, inForce, _, voter, rfl, rfl⟩ := done
  exact ⟨inForce, voter⟩

theorem TeeVoter.threshold (voter : self.TeeVoter host parameters participant) :
    self.contract.protocolState.threshold = .ok parameters.threshold := by
  simp only [ProtocolContractState.threshold, voter.inForce]
  rfl

theorem voteCodeHash_step (done : self.voteCodeHash verifier host codeHash = .ok (allowed, after)) :
    Step verifier self host (.voteCodeHash codeHash)
      (if allowed then .whitelisted codeHash else .quiet) after := by
  simp only [voteCodeHash, bind_ok_iff, mapError_eq_ok] at done
  obtain ⟨⟨parameters, participant⟩, authenticated, threshold, isThreshold, rest⟩ := done
  have voter := teeVoter_ok authenticated
  cases voter.threshold.symm.trans isThreshold
  split at rest
  · rename_i enough
    cases rest
    exact .imageAllowed codeHash parameters participant voter enough
  · rename_i few
    cases rest
    exact .imageVoted codeHash parameters participant voter (Nat.lt_of_not_le few)

theorem voteAddLauncherHash_step
    (done : self.voteAddLauncherHash verifier host launcherHash = .ok (added, after)) :
    Step verifier self host (.voteAddLauncherHash launcherHash)
      (if added then .launcherAdded launcherHash else .quiet) after := by
  simp only [voteAddLauncherHash, bind_ok_iff, mapError_eq_ok] at done
  obtain ⟨⟨parameters, participant⟩, authenticated, threshold, isThreshold, rest⟩ := done
  have voter := teeVoter_ok authenticated
  cases voter.threshold.symm.trans isThreshold
  split at rest
  · rename_i enough
    cases rest
    exact .launcherAdded launcherHash parameters participant _ _ voter enough rfl
  · cases rest
    exact .launcherVoted _ (.add launcherHash) parameters participant rfl voter

theorem voteRemoveLauncherHash_step
    (done : self.voteRemoveLauncherHash host launcherHash = .ok (removed, after)) :
    Step verifier self host (.voteRemoveLauncherHash launcherHash)
      (if removed then .launcherRemoved launcherHash else .quiet) after := by
  simp only [voteRemoveLauncherHash, bind_ok_iff] at done
  obtain ⟨⟨parameters, participant⟩, authenticated, rest⟩ := done
  have voter := teeVoter_ok authenticated
  split at rest
  · rename_i enough
    cases rest
    exact .launcherRemoved launcherHash parameters participant _ _ voter enough rfl
  · cases rest
    exact .launcherVoted _ (.remove launcherHash) parameters participant rfl voter

theorem runningParticipant_ok (done : self.runningParticipant host = .ok state) :
    self.contract.protocolState = .running state ∧
      state.parameters.participants.isParticipantGivenAccountId host.signerAccountId = true := by
  simp only [runningParticipant, bind_ok_iff] at done
  obtain ⟨_, _, rest⟩ := done
  split at rest
  · rename_i phase
    simp only [bind_ok_iff, require_eq_ok, pure_ok_iff] at rest
    obtain ⟨_, member, rfl⟩ := rest
    exact ⟨phase, member⟩
  · cases rest

theorem concludeNodeMigration_step (done : self.concludeNodeMigration host keyset = .ok after) :
    Step verifier self host (.concludeNodeMigration keyset) .quiet after := by
  simp only [concludeNodeMigration, NodeMigrations.removeMigration, bind_ok_iff, require_eq_ok,
    found_eq_ok, mapError_eq_ok, pure_ok_iff] at done
  obtain ⟨state, running, _, _, destination, announced, _, sameKey, _, verifies, participants,
    updated, rfl⟩ := done
  obtain ⟨isRunning, member⟩ := runningParticipant_ok running
  exact .migrated keyset state destination participants _
    ⟨isRunning, member, announced, sameKey, verifies, updated⟩

theorem cleanTeeStatus_step (done : self.cleanTeeStatus host = .ok after) :
    Step verifier self host .cleanTeeStatus .quiet after := by
  simp only [cleanTeeStatus, bind_ok_iff] at done
  obtain ⟨_, _, rest⟩ := done
  split at rest
  · rename_i state phase
    cases rest
    exact .cleaned state phase
  · cases rest

end

variable {self : Deployment}

theorem invoke_step (done : self.invoke verifier host method = .ok (note, after)) :
    Step verifier self host method note after := by
  cases method <;> simp only [invoke, bind_ok_iff, pure_ok_iff, Prod.mk.injEq] at done
  case govern call =>
      obtain ⟨⟨next, _⟩, governed, rfl, rfl⟩ := done
      exact govern_step governed
  case submitParticipantInfo attestation tlsPublicKey =>
      obtain ⟨_, submitted, rfl, rfl⟩ := done
      exact submitParticipantInfo_step submitted
  case voteCodeHash codeHash =>
      obtain ⟨⟨allowed, _⟩, voted, rfl, rfl⟩ := done
      exact voteCodeHash_step voted
  case voteAddLauncherHash launcherHash =>
      obtain ⟨⟨added, _⟩, voted, rfl, rfl⟩ := done
      exact voteAddLauncherHash_step voted
  case voteRemoveLauncherHash launcherHash =>
      obtain ⟨⟨removed, _⟩, voted, rfl, rfl⟩ := done
      exact voteRemoveLauncherHash_step voted
  case registerBackupService info =>
      simp only [registerBackupService, bind_ok_iff, pure_ok_iff] at done
      obtain ⟨_, ⟨_, _, _, _, _, _, rfl⟩, rfl, rfl⟩ := done
      exact .migrationsSet _ _ rfl
  case startNodeMigration info =>
      simp only [startNodeMigration, bind_ok_iff, pure_ok_iff] at done
      obtain ⟨_, ⟨_, _, rfl⟩, rfl, rfl⟩ := done
      exact .migrationsSet _ _ rfl
  case concludeNodeMigration keyset =>
      obtain ⟨_, concluded, rfl, rfl⟩ := done
      exact concludeNodeMigration_step concluded
  case cleanTeeStatus =>
      obtain ⟨_, cleaned, rfl, rfl⟩ := done
      exact cleanTeeStatus_step cleaned
  case cleanupOrphanedNodeMigrations =>
      simp only [cleanupOrphanedNodeMigrations, bind_ok_iff, pure_ok_iff] at done
      obtain ⟨_, ⟨_, _, _, _, rfl⟩, rfl, rfl⟩ := done
      exact .migrationsSet _ _ rfl

theorem acts_step (acts : Acts (act verifier) self event after) :
    ∃ settled, Step verifier self event.1.1 event.1.2 event.2 settled ∧
      after = settled.persisted := by
  unfold Acts act at acts
  split at acts
  · rename_i done
    cases acts
    exact ⟨_, invoke_step verifier done, rfl⟩
  · cases acts

inductive PhaseStep (self : Deployment) (host : Host) :
    Method Collateral → MethodNote → ProtocolContractState → Prop where
  | governed (call : Call) (next : Option ProtocolContractState) (contract : MpcContract)
      (done : perform ((self.beforeCall host call).env host) self.contract call =
        .ok (next, contract)) :
      PhaseStep self host (.govern call) (.wentTo next) contract.protocolState
  | migrated (keyset : Keyset) (state : RunningContractState) (destination : DestinationNodeInfo)
      (participants : Participants)
      (migrates : self.Migrates host state destination participants) :
      PhaseStep self host (.concludeNodeMigration keyset) .quiet (.running { state with
        parameters := ⟨participants, state.parameters.threshold⟩ })
  | kept (method : Method Collateral) (note : MethodNote) (other : ∀ call, method ≠ .govern call) :
      PhaseStep self host method note self.contract.protocolState

theorem acts_phase (acts : Acts (act verifier) self event after) :
    self.PhaseStep event.1.1 event.1.2 event.2 after.contract.protocolState := by
  obtain ⟨⟨host, method⟩, note⟩ := event
  obtain ⟨settled, step, rfl⟩ := acts_step verifier acts
  cases step with
  | governed call next contract done => exact .governed call next contract done
  | migrated keyset state destination participants _ migrates =>
    exact .migrated keyset state destination participants migrates
  | launcherVoted _ action =>
    refine .kept _ _ fun call same => ?_
    cases action <;> simp_all
  | migrationsSet _ _ asked =>
    refine .kept _ _ fun call same => ?_
    rw [same] at asked
    cases asked
  | _ => exact .kept _ _ (by simp)

inductive SeatsStep (self : Deployment) (host : Host) : Method Collateral → Seats → Prop where
  | governed (call : Call)
      (moves : self.seats.Moves ((self.beforeCall host call).env host) call s) :
      SeatsStep self host (.govern call) s
  | migrated (keyset : Keyset) (state : RunningContractState) (destination : DestinationNodeInfo)
      (participants : Participants)
      (migrates : self.Migrates host state destination participants) :
      SeatsStep self host (.concludeNodeMigration keyset) { self.seats with
        governing := ⟨participants, self.seats.governing.threshold⟩ }
  | kept (method : Method Collateral) (other : ∀ call, method ≠ .govern call) :
      SeatsStep self host method self.seats

theorem PhaseStep.seatsStep {method : Method Collateral}
    (phase : self.PhaseStep host method note state) :
    self.SeatsStep host method state.seats := by
  cases phase with
  | governed call next contract done => exact .governed call (perform_moves done)
  | migrated keyset state destination participants migrates =>
    have moved := @SeatsStep.migrated Collateral _ _ keyset state destination participants migrates
    simp only [Deployment.seats, migrates.isRunning] at moved
    exact moved
  | kept _ _ other => exact .kept _ other

theorem acts_seats (acts : Acts (act verifier) self event after) :
    self.SeatsStep event.1.1 event.1.2 after.seats :=
  (acts_phase verifier acts).seatsStep

/-- A deployment as `init` or `init_running` leaves it. -/
inductive Initial : Deployment → Prop where
  | init {parameters : ThresholdParameters} {config : Config} {durationSeconds : Nat}
      (done : init parameters config durationSeconds = .ok d) : Initial d
  | initRunning {domains : List DomainConfig} {nextDomainId : Nat} {keyset : Keyset}
      {parameters : ThresholdParameters} {config : Config} {durationSeconds : Nat}
      (done : initRunning domains nextDomainId keyset parameters config durationSeconds = .ok d) :
      Initial d

theorem Initial.running (initial : Initial d) :
    ∃ (domains : DomainRegistry) (keyset : Keyset) (parameters : ThresholdParameters),
      parameters.validate = .ok () ∧
      domains.domains.map (fun domain => domain.id) =
        keyset.domains.map (fun key => key.domainId) ∧
      d.contract.protocolState = .running (.new domains keyset parameters .default) ∧
      d.teeState = .withMockedParticipantAttestations parameters.participants := by
  cases initial with
  | init done =>
    rename_i parameters _ _
    simp only [Deployment.init, MpcContract.init, bind_ok_iff, pure_ok_iff] at done
    obtain ⟨_, ⟨_, valid, rfl⟩, rfl⟩ := done
    exact ⟨.default, ⟨⟨0⟩, []⟩, parameters, valid, rfl, rfl, rfl⟩
  | initRunning done =>
    rename_i _ _ keyset parameters _ _
    simp only [Deployment.initRunning, MpcContract.initRunning, bind_ok_iff, require_eq_ok,
      pure_ok_iff] at done
    obtain ⟨_, ⟨_, valid, registry, _, _, same, rfl⟩, rfl⟩ := done
    exact ⟨registry, keyset, parameters, valid, same, rfl, rfl⟩

end Deployment

theorem Participants.updateInfo_ok {self participants : Participants}
    (done : self.updateInfo accountId newInfo = .ok participants) :
    participants.nextId = self.nextId ∧
      ∃ front id info back, self.participants = front ++ (accountId, id, info) :: back ∧
        participants.participants = front ++ (accountId, id, newInfo) :: back ∧
        ∀ entry ∈ front, entry.1 ≠ accountId := by
  unfold updateInfo at done
  split at done
  · rename_i index isIndex
    cases done
    obtain ⟨inside, found, earlier⟩ := List.findIdx?_eq_some_iff_getElem.mp isIndex
    refine ⟨rfl, self.participants.take index, self.participants[index].2.1,
      self.participants[index].2.2, self.participants.drop (index + 1), ?_, ?_, ?_⟩
    · rw [← of_decide_eq_true found]
      simp
    · rw [← of_decide_eq_true found]
      simp [List.modify_eq_take_cons_drop inside]
    · intro entry early
      obtain ⟨i, before, rfl⟩ := List.mem_take_iff_getElem.mp early
      simpa using earlier i (by omega)
  · cases done

/-! ## A small network

Nodes with mock attestations, for runs on fixed inputs.  No quote is ever looked at in them. -/

namespace Sample

def account : Nat → AccountId
  | 0 => ⟨"alice.near"⟩
  | 1 => ⟨"bob.near"⟩
  | 2 => ⟨"carol.near"⟩
  | _ => ⟨"dave.near"⟩

def tlsKey (n : Nat) : Tee.Bytes 32 := .replicate 32 (.ofNat n)

def accountKey (n : Nat) : PublicKey := .ofEd25519 (.replicate 32 (.ofNat (100 + n)))

def info (n : Nat) : ParticipantInfo := ⟨"https://node", .ofEd25519 (tlsKey n)⟩

/-- Node `n` calls the contract directly and pays for its storage. -/
def host (n : Nat) : Host where
  currentAccountId := ⟨"mpc.near"⟩
  signerAccountId := account n
  signerAccountPk := accountKey n
  predecessorAccountId := account n
  blockHeight := 100
  blockTimestamp := 5000000000
  prepaidGas := 0
  attachedDeposit := 10
  storageCost := some 10

def verifier : AttestationVerifier Unit where
  externals :=
    { sha256 := fun _ => .replicate 32 0
      sha384 := fun _ => .replicate 48 0
      dcapVerify := fun _ _ _ => .error "no quote"
      parseAppCompose := fun _ => .error "no compose file" }
  sha3384 := fun _ => .replicate 48 0
  defaultMeasurements := []

def participants (nextId : UInt32) (nodes : List (Nat × UInt32)) : Participants where
  nextId := ⟨nextId⟩
  participants := nodes.map fun (n, id) => (account n, ⟨id⟩, info n)

/-- A contract that was just initialised, without domains. -/
def start (parameters : ThresholdParameters) : Deployment :=
  .deploy (.fresh (.new .default ⟨⟨0⟩, []⟩ parameters .default) ⟨30, 15, 15⟩)
    parameters.participants 1000

theorem start_initial (parameters : ThresholdParameters) (valid : parameters.validate = .ok ()) :
    (start parameters).Initial := by
  have done : Deployment.init parameters ⟨30, 15, 15⟩ 1000 = .ok (start parameters) := by
    simp only [Deployment.init, MpcContract.init, valid]
    rfl
  exact .init done

def rootKey : PublicKeyExtended := .secp256k1 ⟨[7]⟩

def startWithKey (parameters : ThresholdParameters) : Deployment :=
  .deploy (.fresh (.new (DomainRegistry.default.addDomain .secp256k1 .sign).2
    ⟨⟨0⟩, [⟨⟨0⟩, rootKey, ⟨0⟩⟩]⟩ parameters .default) ⟨30, 15, 15⟩) parameters.participants 1000

theorem startWithKey_initial (parameters : ThresholdParameters)
    (valid : parameters.validate = .ok ()) : (startWithKey parameters).Initial := by
  have done : Deployment.initRunning [⟨⟨0⟩, .secp256k1, .sign⟩] 1 ⟨⟨0⟩, [⟨⟨0⟩, rootKey, ⟨0⟩⟩]⟩
      parameters ⟨30, 15, 15⟩ 1000 = .ok (startWithKey parameters) := by
    simp only [Deployment.initRunning, MpcContract.initRunning, valid]
    rfl
  exact .initRunning done

/-- The nodes make the same call one after another. -/
def byAll (nodes : List Nat) (method : Method Unit) : List (Host × Method Unit) :=
  nodes.map fun n => (host n, method)

def attest (n : Nat) : Host × Method Unit :=
  (host n, .submitParticipantInfo (.mock .valid) (tlsKey n))

end Sample

end MpcNetwork.Contract
