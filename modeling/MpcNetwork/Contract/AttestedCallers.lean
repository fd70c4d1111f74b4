import MpcNetwork.Contract.TlsIdentities

/-! # Attested callers

The TEE check of the participants looks up attestations by TLS key.  The check of a caller
also asks whose attestation it is and which account key it names.  The two agree as long as
no one replaces the attestation under the TLS key of a participant.
-/

namespace MpcNetwork.Contract

open Fallible Runs

def Seats.entries (s : Seats) : List (AccountId × ParticipantId × ParticipantInfo) :=
  s.governing.participants.participants ++
    (s.proposed.map fun proposal => proposal.participants.participants).getD []

theorem Seats.Moves.entries {s : Seats} (moves : s.Moves env call t) (inside : entry ∈ t.entries) :
    entry ∈ s.entries ∨ ∃ vote ∈ call.newParameters, entry ∈ vote.2.participants.participants := by
  have brought : ∀ {proposal}, s.Brings env call proposal →
      entry ∈ proposal.participants.participants →
      entry ∈ s.entries ∨ ∃ vote ∈ call.newParameters, entry ∈ vote.2.participants.participants := by
    intro proposal brings member
    cases brings with
    | carried carries =>
      exact .inr ⟨(s.epoch, proposal), by simp [carries.asked, Call.newParameters], member⟩
    | expelled expels =>
      exact .inl (List.mem_append_left _ (expels.remaining.subset member))
  cases moves with
  | kept | reset | cast => exact .inl inside
  | proposed proposal brings =>
    rcases List.mem_append.mp inside with old | new
    · exact .inl (List.mem_append_left _ old)
    · exact brought brings new
  | replaced proposal epoch brings =>
    exact brought brings (by simpa [Seats.entries] using inside)
  | adopted proposal isProposed =>
    refine .inl (List.mem_append_right _ ?_)
    rw [isProposed]
    simpa [Seats.entries] using inside
  | dropped => exact .inl (List.mem_append_left _ (by simpa [Seats.entries] using inside))

namespace Deployment

variable {Collateral : Type} {verifier : AttestationVerifier Collateral}

inductive StoredStep (d : Deployment) (event : MethodEvent Collateral) (d' : Deployment) :
    Prop where
  | submitted (attestation : Tee.Attestation Collateral) (tlsPublicKey : Tee.Bytes 32)
      (verified : Tee.VerifiedAttestation)
      (asked : event.1.2 = .submitParticipantInfo attestation tlsPublicKey)
      (stored : d'.teeState.storedAttestations = d.teeState.storedAttestations.insert
        (.ofEd25519 tlsPublicKey) ⟨⟨event.1.1.signerAccountId, .ofEd25519 tlsPublicKey,
          some event.1.1.signerAccountPk⟩, verified⟩)
      (seats : d'.seats = d.seats)
  | cleaned (asked : event.1.2 = .cleanTeeStatus)
      (part : ∀ key attestation, d'.teeState.storedAttestations.lookup key = some attestation →
        d.teeState.storedAttestations.lookup key = some attestation)
      (seats : d'.seats = d.seats)
  | kept (quiet : ∀ attestation tlsPublicKey,
        event.1.2 ≠ .submitParticipantInfo attestation tlsPublicKey)
      (same : d'.teeState.storedAttestations = d.teeState.storedAttestations)

variable {d d' : Deployment}

theorem acts_stored (acts : Acts (act verifier) d event d') : StoredStep d event d' := by
  obtain ⟨⟨host, method⟩, note⟩ := event
  obtain ⟨settled, step, rfl⟩ := acts_step verifier acts
  cases step with
  | governed call next contract =>
    obtain ⟨_, same, _⟩ := beforeCall_teeState d host call
    refine .kept (by simp) ?_
    simp only [persisted, same]
  | attested attestation tlsPublicKey _ _ accepted =>
    obtain ⟨verified, rfl⟩ := TeeState.addParticipant_ok accepted
    exact .submitted attestation tlsPublicKey verified rfl rfl rfl
  | cleaned state isRunning =>
    refine .cleaned rfl (fun key attestation stored => ?_) rfl
    simp only [persisted, TeeState.cleanNonParticipants, Table.lookup_revise,
      Option.bind_eq_some_iff] at stored
    obtain ⟨_, found, kept⟩ := stored
    split at kept
    · cases kept
      exact found
    · cases kept
  | launcherVoted _ action _ _ asked =>
    refine .kept (fun _ _ same => ?_) rfl
    cases action <;> cases asked <;> cases same
  | launcherAdded _ _ _ _ _ _ _ result =>
    exact .kept (by simp) (congrArg (fun r => r.2.storedAttestations) result).symm
  | launcherRemoved _ _ _ _ _ _ _ result =>
    exact .kept (by simp) (congrArg (fun r => r.2.storedAttestations) result).symm
  | migrationsSet _ _ asked =>
    refine .kept (fun _ _ same => ?_) rfl
    rw [same] at asked
    cases asked
  | imageVoted | imageAllowed | migrated => exact .kept (by simp) rfl

/-- The account key with which an account submits an attestation for a TLS key. -/
def submissionOf (account : AccountId) (tlsKey : PublicKey) (event : MethodEvent Collateral) :
    Option PublicKey :=
  match event.1.2 with
  | .submitParticipantInfo _ tlsPublicKey =>
    if event.1.1.signerAccountId = account ∧ .ofEd25519 tlsPublicKey = tlsKey then
      some event.1.1.signerAccountPk
    else none
  | _ => none

/-- A stored attestation names the account key of its owner's last submission. -/
def NamesLatestKey (es : List (MethodEvent Collateral)) (d : Deployment) : Prop :=
  ∀ tlsKey attestation, d.teeState.storedAttestations.lookup tlsKey = some attestation →
    ∀ accountKey, latest (submissionOf attestation.nodeId.accountId tlsKey) es = some accountKey →
      attestation.nodeId.accountPublicKey = some accountKey

theorem namesLatestKey_run (run : Run (Acts (act verifier)) start es d) : NamesLatestKey es d := by
  refine run.invariant NamesLatestKey (by simp [NamesLatestKey, latest]) ?_
  intro es before event after _ names acts tlsKey attestation found accountKey last
  obtain ⟨⟨host, method⟩, note⟩ := event
  rw [latest_snoc] at last
  cases acts_stored acts with
  | submitted _ tlsPublicKey verified asked stored =>
    cases asked
    rw [stored, Table.lookup_insert_eq] at found
    split at found
    · rename_i sameKey
      cases found
      simp only [submissionOf, sameKey, and_self, if_true, Option.some_or] at last
      exact last
    · rename_i otherKey
      have quiet : ¬ (host.signerAccountId = attestation.nodeId.accountId ∧
          .ofEd25519 tlsPublicKey = tlsKey) := fun both => otherKey both.2.symm
      simp only [submissionOf, quiet, if_false, Option.none_or] at last
      exact names tlsKey attestation found accountKey last
  | cleaned asked part =>
    cases asked
    exact names tlsKey attestation (part _ _ found) accountKey last
  | kept quiet same =>
    have silent : submissionOf attestation.nodeId.accountId tlsKey ((host, method), note) = none := by
      unfold submissionOf
      split
      · rename_i asked
        exact absurd asked (quiet _ _)
      · rfl
    rw [silent] at last
    rw [same] at found
    exact names tlsKey attestation found accountKey last

/-- If there is an attestation under the entry's TLS key, it is that of its account. -/
def owns (self : Deployment) (entry : AccountId × ParticipantId × ParticipantInfo) : Bool :=
  (self.teeState.storedAttestations.lookup entry.2.2.signPk).all fun attestation =>
    attestation.nodeId.accountId = entry.1

def Owned (self : Deployment) : Prop := ∀ entry ∈ self.seats.entries, self.owns entry = true

/-- Whether the attestation under the TLS key that the signer moves to is its own. -/
def ownsDestination (self : Deployment) (host : Host) : Bool :=
  (self.nodeMigrations.ongoingMigrations.lookup host.signerAccountId).all fun destination =>
    (self.teeState.storedAttestations.lookup destination.destinationNodeInfo.signPk).all
      fun attestation => attestation.nodeId.accountId = host.signerAccountId ∧
        ∀ nodePk ∈ attestation.nodeId.accountPublicKey, nodePk = host.signerAccountPk

/-- Nobody attests another participant's TLS key, and whoever comes in or moves has attested. -/
def keepsOwners (self : Deployment) (host : Host) : Method Collateral → Bool
  | .submitParticipantInfo _ tlsPublicKey => self.seats.entries.all fun entry =>
    entry.1 = host.signerAccountId ∨ entry.2.2.signPk ≠ .ofEd25519 tlsPublicKey
  | .concludeNodeMigration _ => self.ownsDestination host
  | .govern (.voteNewParameters _ proposal) =>
    proposal.participants.participants.all self.owns
  | _ => true

/-- Steps by calls that leave attestations with their owners. -/
def OwnerKeepingSteps (verifier : AttestationVerifier Collateral) :
    Deployment → MethodEvent Collateral → Deployment → Prop :=
  Guarded (fun d event => d.keepsOwners event.1.1 event.1.2) (Acts (act verifier))

variable {entry : AccountId × ParticipantId × ParticipantInfo}

theorem owns_iff {self : Deployment} :
    self.owns entry = true ↔ ∀ attestation,
      self.teeState.storedAttestations.lookup entry.2.2.signPk = some attestation →
        attestation.nodeId.accountId = entry.1 := by
  simp [owns, Option.all_eq_true]

theorem owns_of_stored
    (part : ∀ key attestation, d'.teeState.storedAttestations.lookup key = some attestation →
      d.teeState.storedAttestations.lookup key = some attestation) (owns : d.owns entry = true) :
    d'.owns entry = true := by
  rw [owns_iff] at owns ⊢
  exact fun attestation stored => owns attestation (part _ _ stored)

/-- An entry was there before, is voted for, or is that of the signer after its migration. -/
theorem SeatsStep.entries {self : Deployment} (step : self.SeatsStep host method after)
    (owned : self.Owned) (keeps : self.keepsOwners host method = true)
    (inside : entry ∈ after.entries) : self.owns entry = true := by
  cases step with
  | kept => exact owned entry inside
  | governed call moves =>
    rcases moves.entries inside with old | ⟨vote, isVote, member⟩
    · exact owned entry old
    · cases call with
      | voteNewParameters =>
        cases isVote
        exact List.all_eq_true.mp keeps entry member
      | _ => cases isVote
  | migrated keyset state destination participants migrates =>
    obtain ⟨_, front, id, info, back, old, new, _⟩ := Participants.updateInfo_ok migrates.updated
    obtain ⟨governing, settled⟩ := migrates.seats
    simp only [Seats.entries, settled, new, Option.map_none, Option.getD_none, List.append_nil,
      List.mem_append, List.mem_cons] at inside
    rcases inside with early | rfl | late
    · apply owned entry
      simp [Seats.entries, governing, old, early]
    · rw [owns_iff]
      intro attestation stored
      simp only [keepsOwners, ownsDestination, migrates.announced, stored, Option.all_some,
        decide_eq_true_eq] at keeps
      exact keeps.1
    · apply owned entry
      simp [Seats.entries, governing, old, late]

theorem owned_step (owned : d.Owned) (taken : OwnerKeepingSteps verifier d event d') :
    d'.Owned := by
  obtain ⟨⟨host, method⟩, note⟩ := event
  intro entry inside
  have keeps := taken.1
  cases acts_stored taken.2 with
  | submitted attestation tlsPublicKey verified asked stored seats =>
    cases asked
    rw [seats] at inside
    have before := owns_iff.mp (owned entry inside)
    rw [owns_iff]
    intro other found
    rw [stored, Table.lookup_insert_eq] at found
    split at found
    · rename_i sameKey
      cases found
      have free := List.all_eq_true.mp keeps entry inside
      simp only [decide_eq_true_eq] at free
      exact (free.resolve_right fun different => different sameKey).symm
    · exact before other found
  | cleaned asked part seats =>
    rw [seats] at inside
    exact owns_of_stored part (owned entry inside)
  | kept quiet same =>
    have owns := (acts_seats verifier taken.2).entries owned keeps inside
    refine owns_of_stored (fun key attestation found => ?_) owns
    rwa [same] at found

theorem owned_run (owned : start.Owned)
    (run : Run (OwnerKeepingSteps verifier) start es d) : d.Owned :=
  run.invariant (fun _ d => d.Owned) owned fun _ _ _ _ _ owned taken => owned_step owned taken

/-- Initial participants with distinct TLS keys own their mock attestations. -/
theorem Initial.owned (initial : Initial d)
    (distinct : d.seats.governing.participants.tlsKeys.Nodup) : d.Owned := by
  obtain ⟨_, _, parameters, _, _, running, tee⟩ := initial.running
  have governing : d.seats.governing = parameters := by
    simp only [seats, running]
    rfl
  have settled : d.seats.proposed = none := by
    simp only [seats, running]
    rfl
  rw [governing] at distinct
  intro entry inside
  simp only [Seats.entries, settled, governing, Option.map_none, Option.getD_none,
    List.append_nil] at inside
  rw [owns_iff, tee, TeeState.withMockedParticipantAttestations]
  intro attestation found
  rw [Table.lookup_foldl_insert] at found
  simp only [AList.lookup_empty, Option.or_none, Option.map_eq_some_iff] at found
  obtain ⟨other, isOther, rfl⟩ := found
  have member := List.mem_reverse.mp (List.mem_of_find?_eq_some isOther)
  have sameKey : other.2.2.signPk = entry.2.2.signPk := by simpa using List.find?_some isOther
  rw [List.inj_on_of_nodup_map distinct member inside sameKey]

end Deployment

namespace TeeState

variable {self : TeeState}

theorem isCallerAnAttestedParticipant_iff :
    self.isCallerAnAttestedParticipant signerId signerPk participants = .ok () ↔
      ∃ entry attestation, participants.participants.find? (fun entry => entry.1 = signerId) =
          some entry ∧
        self.storedAttestations.lookup entry.2.2.signPk = some attestation ∧
        attestation.nodeId.accountId = signerId ∧
        ∀ nodePk ∈ attestation.nodeId.accountPublicKey, nodePk = signerPk := by
  simp only [isCallerAnAttestedParticipant, bind_ok_iff, found_eq_ok, require_eq_ok]
  constructor
  · rintro ⟨entry, isEntry, attestation, stored, _, owner, key⟩
    exact ⟨entry, attestation, isEntry, stored, owner, key⟩
  · rintro ⟨entry, attestation, isEntry, stored, owner, key⟩
    exact ⟨entry, isEntry, attestation, stored, (), owner, key⟩

theorem stored_of_valid (valid : self.reverifyParticipants nodeId now durationSeconds = .valid) :
    ∃ attestation, self.storedAttestations.lookup nodeId.tlsPublicKey = some attestation := by
  unfold reverifyParticipants at valid
  split at valid
  · cases valid
  · exact ⟨_, ‹_›⟩

/-- A full result means that there is an attestation for each participant. -/
theorem stored_of_full
    (full : (self.reverifyAndCleanupParticipants participants now durationSeconds).1 = .full)
    (member : entry ∈ participants.participants) :
    ∃ attestation, self.storedAttestations.lookup entry.2.2.signPk = some attestation := by
  simp only [reverifyAndCleanupParticipants] at full
  split at full
  · cases full
  · rename_i all
    have every := List.length_filter_eq_length_iff.mp (not_ne_iff.mp all) entry member
    simp only [reverifies, decide_eq_true_eq] at every
    exact stored_of_valid every

end TeeState

theorem Participants.Valid.find {ps : Participants} (valid : ps.Valid)
    (member : entry ∈ ps.participants) :
    ps.participants.find? (fun other => other.1 = entry.1) = some entry := by
  have distinct := valid.distinctAccounts
  rw [holders, List.map_map] at distinct
  cases isOther : ps.participants.find? fun other => other.1 = entry.1 with
  | none =>
    have absent := List.find?_eq_none.mp isOther entry member
    simp at absent
  | some other =>
    have sameAccount : other.1 = entry.1 := by simpa using List.find?_some isOther
    rw [List.inj_on_of_nodup_map distinct (List.mem_of_find?_eq_some isOther) member sameAccount]

namespace Deployment

variable {Collateral : Type} {verifier : AttestationVerifier Collateral}

/-- After a migration the caller passes exactly if the attestation it moved to is its own. -/
theorem Migrates.attested_iff {d : Deployment}
    (migrates : d.Migrates host state destination participants) :
    d.teeState.isCallerAnAttestedParticipant host.signerAccountId host.signerAccountPk participants =
      .ok () ↔ d.ownsDestination host = true := by
  obtain ⟨_, front, id, info, back, _, new, others⟩ := Participants.updateInfo_ok migrates.updated
  obtain ⟨attestation, stored⟩ := TeeState.stored_of_valid migrates.verifies
  have entry : participants.participants.find? (fun entry => entry.1 = host.signerAccountId) =
      some (host.signerAccountId, id, destination.destinationNodeInfo) := by
    have skipped : front.find? (fun entry => entry.1 = host.signerAccountId) = none := by
      simpa [List.find?_eq_none] using others
    simp [new, List.find?_append, skipped]
  simp only [TeeState.isCallerAnAttestedParticipant_iff, entry, Option.some.injEq, ownsDestination,
    migrates.announced, Option.all_some, stored, decide_eq_true_eq]
  constructor
  · rintro ⟨_, _, rfl, isStored, owner, key⟩
    cases stored.symm.trans isStored
    exact ⟨owner, key⟩
  · rintro ⟨owner, key⟩
    exact ⟨_, attestation, rfl, stored, owner, key⟩

/-- As long as attestations are left with their owners, participants pass the caller check; after a
    migration exactly if the attestation moved to is the caller's own. -/
theorem attested_callers_pass {start d : Deployment} {es : List (MethodEvent Collateral)}
    (initial : Initial start) (distinct : start.seats.governing.participants.tlsKeys.Nodup)
    (run : Run (OwnerKeepingSteps verifier) start es d) :
    (∀ now after, d.teeState.reverifyAndCleanupParticipants d.seats.governing.participants now
          d.teeUpgradeDeadlineDurationSeconds = (.full, after) →
        ∀ entry ∈ d.seats.governing.participants.participants, ∀ accountKey,
          latest (submissionOf entry.1 entry.2.2.signPk) es = some accountKey →
            after.isCallerAnAttestedParticipant entry.1 accountKey d.seats.governing.participants =
              .ok ()) ∧
      ∀ host keyset note d',
        Acts (act verifier) d ((host, .concludeNodeMigration keyset), note) d' →
          (d'.teeState.isCallerAnAttestedParticipant host.signerAccountId host.signerAccountPk
              d'.seats.governing.participants = .ok () ↔ d.ownsDestination host = true) := by
  constructor
  · intro now after full entry member accountKey last
    obtain ⟨attestation, stored⟩ := TeeState.stored_of_full (congrArg Prod.fst full) member
    have owned := owned_run (initial.owned distinct) run entry (List.mem_append_left _ member)
    have owner := owns_iff.mp owned attestation stored
    have named := namesLatestKey_run run.unguarded _ attestation stored accountKey (owner ▸ last)
    have valid := (valid_run initial run.unguarded).governing
    rw [TeeState.isCallerAnAttestedParticipant_iff]
    refine ⟨entry, attestation, valid.find member, ?_, owner, ?_⟩
    · cases congrArg Prod.snd full
      exact stored
    · simp [named]
  · intro host keyset note d' acts
    obtain ⟨settled, step, rfl⟩ := acts_step verifier acts
    cases step with
    | migrated _ state destination participants _ migrates => exact migrates.attested_iff
    | launcherVoted _ action _ _ asked => cases action <;> cases asked
    | migrationsSet _ _ asked => cases asked

private def threeAttested : ThresholdParameters :=
  ⟨Sample.participants 3 [(0, 0), (1, 1), (2, 2)], 2⟩

/-- Whether the TEE check of the participants in force succeeds for all. -/
private def isFull (d : Deployment) : Bool :=
  match (d.teeState.reverifyAndCleanupParticipants d.seats.governing.participants 5000000000
    d.teeUpgradeDeadlineDurationSeconds).1 with
  | .full => true
  | .remaining _ => false

private theorem full_of_isFull (full : isFull d = true) :
    ∃ after, d.teeState.reverifyAndCleanupParticipants d.seats.governing.participants 5000000000
      d.teeUpgradeDeadlineDurationSeconds = (.full, after) := by
  unfold isFull at full
  split at full
  · rename_i isFull
    exact ⟨_, Prod.ext isFull rfl⟩
  · cases full

/-- Node 0 replaces its mock attestation by its own. -/
theorem attested_callers_pass_once :
    ∃ es d after, Run (OwnerKeepingSteps Sample.verifier) (Sample.start threeAttested) es d ∧
      d.teeState.reverifyAndCleanupParticipants d.seats.governing.participants 5000000000
        d.teeUpgradeDeadlineDurationSeconds = (.full, after) ∧
      after.isCallerAnAttestedParticipant (Sample.account 0) (Sample.accountKey 0)
        d.seats.governing.participants = .ok () := by
  obtain ⟨es, d, ran, _, isFull, member, last⟩ := exists_run
    (restrict (fun d call => d.keepsOwners call.1 call.2) (act Sample.verifier))
    (Sample.start threeAttested) [Sample.attest 0] (fun es d => isFull d ∧
      (Sample.account 0, ⟨0⟩, Sample.info 0) ∈ d.seats.governing.participants.participants ∧
      latest (submissionOf (Sample.account 0) (.ofEd25519 (Sample.tlsKey 0))) es =
        some (Sample.accountKey 0)) (by decide +kernel)
  obtain ⟨after, full⟩ := full_of_isFull isFull
  have run : Run (OwnerKeepingSteps Sample.verifier) _ es d := ran.of_restrict
  obtain ⟨pass, _⟩ := attested_callers_pass (Sample.start_initial threeAttested rfl)
    (by decide +kernel) run
  exact ⟨es, d, after, run, full, pass _ after full _ member (Sample.accountKey 0) last⟩

/-- Node 3, which does not take part, submits an attestation for the TLS key of node 0. -/
private def overwrite : List (Host × Method Unit) :=
  [Sample.attest 0, (Sample.host 3, .submitParticipantInfo (.mock .valid) (Sample.tlsKey 0))]

/-- Node 1 moves to the TLS key that node 3 has attested. -/
private def moveToForeignKey : List (Host × Method Unit) :=
  [Sample.attest 3, (Sample.host 1, .startNodeMigration ⟨Sample.accountKey 1, Sample.info 3⟩)]

/-- A stranger's attestation for its TLS key shuts a participant out, and so does a migration to a
    TLS key that someone else has attested. -/
theorem attested_participant_shut_out :
    (∃ start es d after, Initial start ∧ start.seats.governing.participants.tlsKeys.Nodup ∧
      Run (Acts (act Sample.verifier)) start es d ∧
      d.teeState.reverifyAndCleanupParticipants d.seats.governing.participants 5000000000
        d.teeUpgradeDeadlineDurationSeconds = (.full, after) ∧
      (Sample.account 0, ⟨0⟩, Sample.info 0) ∈ d.seats.governing.participants.participants ∧
      latest (submissionOf (Sample.account 0) (Sample.info 0).signPk) es =
        some (Sample.accountKey 0) ∧
      after.isCallerAnAttestedParticipant (Sample.account 0) (Sample.accountKey 0)
        d.seats.governing.participants ≠ .ok ()) ∧
    ∃ start es d keyset note d', Initial start ∧
      start.seats.governing.participants.tlsKeys.Nodup ∧
      Run (Acts (act Sample.verifier)) start es d ∧
      Acts (act Sample.verifier) d ((Sample.host 1, .concludeNodeMigration keyset), note) d' ∧
      d'.teeState.isCallerAnAttestedParticipant (Sample.account 1) (Sample.accountKey 1)
        d'.seats.governing.participants ≠ .ok () := by
  have initial := Sample.start_initial threeAttested rfl
  have distinct : (Sample.start threeAttested).seats.governing.participants.tlsKeys.Nodup := by
    decide +kernel
  constructor
  · obtain ⟨es, d, run, _, isFull, member, last, refused⟩ := exists_run (act Sample.verifier)
      (Sample.start threeAttested) overwrite (fun es d => isFull d ∧
        (Sample.account 0, ⟨0⟩, Sample.info 0) ∈ d.seats.governing.participants.participants ∧
        latest (submissionOf (Sample.account 0) (Sample.info 0).signPk) es =
          some (Sample.accountKey 0) ∧
        (d.teeState.isCallerAnAttestedParticipant (Sample.account 0) (Sample.accountKey 0)
          d.seats.governing.participants).isOk = false) (by decide +kernel)
    obtain ⟨after, full⟩ := full_of_isFull isFull
    refine ⟨_, es, d, after, initial, distinct, run, full, member, last, ?_⟩
    intro passes
    cases congrArg Prod.snd full
    change d.teeState.isCallerAnAttestedParticipant _ _ _ = .ok () at passes
    rw [passes] at refused
    cases refused
  · obtain ⟨es, d, note, d', run, _, acted, refused⟩ := exists_run_then (act Sample.verifier)
      (Sample.start threeAttested) moveToForeignKey
      (Sample.host 1, .concludeNodeMigration ⟨⟨0⟩, []⟩) (fun _ _ _ d' =>
        (d'.teeState.isCallerAnAttestedParticipant (Sample.account 1) (Sample.accountKey 1)
          d'.seats.governing.participants).isOk = false) (by decide +kernel)
    refine ⟨_, es, d, _, note, d', initial, distinct, run, acted, ?_⟩
    intro passes
    rw [passes] at refused
    cases refused

end Deployment

end MpcNetwork.Contract
