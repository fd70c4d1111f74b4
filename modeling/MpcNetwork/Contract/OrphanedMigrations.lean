import MpcNetwork.Contract.Steps

/-! # Cleaning up after accounts that left

Backup services and migrations are stored by account.  The clean-up goes over the accounts that
have a backup service and drops everything about those who have left.  It never looks at an
account that has a migration and no backup service.
-/

namespace MpcNetwork.Contract

open Fallible Runs

/-- The account is a participant or is about to become one. -/
def ProtocolContractState.Participates (state : ProtocolContractState) (accountId : AccountId) :
    Prop :=
  state.isExistingOrProspectiveParticipant accountId = .ok true

namespace NodeMigrations

/-- What is stored about the account, as the source gives it. -/
def getForAccount (self : NodeMigrations) (accountId : AccountId) :
    Option BackupServiceInfo × Option DestinationNodeInfo :=
  (self.backupServicesInfo.lookup accountId, self.ongoingMigrations.lookup accountId)

theorem getForAccount_removeAccountData (self : NodeMigrations) (removed accountId : AccountId) :
    (self.removeAccountData removed).getForAccount accountId =
      if accountId = removed then (none, none) else self.getForAccount accountId := by
  unfold getForAccount removeAccountData
  simp only [Table.lookup_erase_eq]
  split <;> rfl

theorem getForAccount_eq_none_iff {self : NodeMigrations} :
    self.getForAccount accountId = (none, none) ↔
      accountId ∉ self.backupServicesInfo ∧ accountId ∉ self.ongoingMigrations := by
  simp only [getForAccount, Prod.mk.injEq, AList.lookup_eq_none]

end NodeMigrations

namespace Deployment

variable {d after : Deployment} {host : Host}

theorem foldlM_removeAccountData_ok {state : ProtocolContractState} {accounts : List AccountId}
    {migrations : NodeMigrations} (done : accounts.foldlM (fun migrations accountId => do
      let stays ← (state.isExistingOrProspectiveParticipant accountId).mapError MethodError.contract
      pure (if stays then migrations else migrations.removeAccountData accountId)) migrations =
      .ok result) (accountId : AccountId) :
    (accountId ∈ accounts → ¬ state.Participates accountId →
      result.getForAccount accountId = (none, none)) ∧
    (accountId ∉ accounts ∨ state.Participates accountId →
      result.getForAccount accountId = migrations.getForAccount accountId) := by
  induction accounts generalizing migrations with
  | nil =>
    cases done
    simp
  | cons first accounts ih =>
    simp only [List.foldlM_cons, bind_ok_iff, mapError_eq_ok, pure_ok_iff] at done
    obtain ⟨_, ⟨stays, asked, rfl⟩, rest⟩ := done
    obtain ⟨dropped, kept⟩ := ih rest
    by_cases isFirst : accountId = first
    · subst isFirst
      cases stays with
      | true =>
        refine ⟨fun _ left => absurd asked left, fun _ => ?_⟩
        rw [kept (.inr asked), if_pos rfl]
      | false =>
        have left : ¬ state.Participates accountId := by
          intro participates
          cases asked.symm.trans participates
        refine ⟨fun _ _ => ?_, by simp [left]⟩
        by_cases again : accountId ∈ accounts
        · exact dropped again left
        · rw [kept (.inl again), if_neg (by simp),
            NodeMigrations.getForAccount_removeAccountData, if_pos rfl]
    · have other : NodeMigrations.getForAccount
          (if stays = true then migrations else migrations.removeAccountData first) accountId =
            migrations.getForAccount accountId := by
        split
        · rfl
        · rw [NodeMigrations.getForAccount_removeAccountData, if_neg isFirst]
      rw [List.mem_cons, ← other]
      simpa only [isFirst, false_or] using ⟨dropped, kept⟩

theorem cleanupOrphanedNodeMigrations_ok
    (done : d.cleanupOrphanedNodeMigrations host = .ok after) :
    after.contract = d.contract ∧ ∀ accountId,
      (accountId ∈ d.nodeMigrations.backupServicesInfo →
        ¬ d.contract.protocolState.Participates accountId →
        after.nodeMigrations.getForAccount accountId = (none, none)) ∧
      (accountId ∉ d.nodeMigrations.backupServicesInfo ∨
        d.contract.protocolState.Participates accountId →
        after.nodeMigrations.getForAccount accountId =
          d.nodeMigrations.getForAccount accountId) := by
  simp only [cleanupOrphanedNodeMigrations, bind_ok_iff, pure_ok_iff] at done
  obtain ⟨_, _, migrations, cleaned, rfl⟩ := done
  exact ⟨rfl, fun accountId => foldlM_removeAccountData_ok cleaned accountId⟩

/-- The clean-up changes nothing about present and prospective participants. It leaves nothing else
    exactly when every account with a migration is one of them or has a backup service. -/
theorem cleanup_complete_iff (done : d.cleanupOrphanedNodeMigrations host = .ok after) :
    (∀ accountId, d.contract.protocolState.Participates accountId →
      after.nodeMigrations.getForAccount accountId = d.nodeMigrations.getForAccount accountId) ∧
    ((∀ accountId, after.nodeMigrations.getForAccount accountId ≠ (none, none) →
        after.contract.protocolState.Participates accountId) ↔
      ∀ accountId ∈ d.nodeMigrations.ongoingMigrations,
        d.contract.protocolState.Participates accountId ∨
          accountId ∈ d.nodeMigrations.backupServicesInfo) := by
  obtain ⟨sameContract, cleaned⟩ := cleanupOrphanedNodeMigrations_ok done
  rw [sameContract]
  refine ⟨fun accountId stays => (cleaned accountId).2 (.inr stays), ?_, ?_⟩
  · intro complete accountId migrates
    by_contra neither
    obtain ⟨left, noService⟩ := not_or.mp neither
    refine left (complete accountId ?_)
    rw [(cleaned accountId).2 (.inl noService), ne_eq, NodeMigrations.getForAccount_eq_none_iff]
    exact fun nothing => nothing.2 migrates
  · intro covered accountId stored
    by_contra left
    by_cases hasService : accountId ∈ d.nodeMigrations.backupServicesInfo
    · exact stored ((cleaned accountId).1 hasService left)
    · rw [(cleaned accountId).2 (.inl hasService), ne_eq,
        NodeMigrations.getForAccount_eq_none_iff] at stored
      refine stored ⟨hasService, fun migrates => ?_⟩
      rcases covered accountId migrates with participates | service
      · exact left participates
      · exact hasService service

private def threeMembers : ThresholdParameters :=
  ⟨Sample.participants 3 [(0, 0), (1, 1), (2, 2)], 2⟩

private def withoutCarol : ThresholdParameters := ⟨Sample.participants 3 [(0, 0), (1, 1)], 2⟩

private def selfCall : Host :=
  { Sample.host 0 with predecessorAccountId := (Sample.host 0).currentAccountId }

private def carolMoves : Host × Method Unit :=
  (Sample.host 2, .startNodeMigration ⟨Sample.accountKey 3, Sample.info 3⟩)

private def carolRegisters : Host × Method Unit :=
  (Sample.host 2, .registerBackupService ⟨Sample.tlsKey 9⟩)

private def carolLeaves : List (Host × Method Unit) :=
  Sample.byAll [0, 1] (.govern (.voteNewParameters ⟨1⟩ withoutCarol))

/-- The third node has a backup service, announces a migration and is voted out. -/
theorem cleanup_with_backup_service :
    ∃ es d after, Run (Acts (act Sample.verifier)) (Sample.start threeMembers) es d ∧
      es.map Prod.fst = carolRegisters :: carolMoves :: carolLeaves ∧
      d.cleanupOrphanedNodeMigrations selfCall = .ok after ∧
      d.nodeMigrations.getForAccount (Sample.account 2) =
        (some ⟨Sample.tlsKey 9⟩, some ⟨Sample.accountKey 3, Sample.info 3⟩) ∧
      ∀ accountId, after.nodeMigrations.getForAccount accountId ≠ (none, none) →
        after.contract.protocolState.Participates accountId := by
  have ran : ((replay (act Sample.verifier) (Sample.start threeMembers)
      (carolRegisters :: carolMoves :: carolLeaves)).bind fun r =>
        (r.1.cleanupOrphanedNodeMigrations selfCall).toOption.map fun _ =>
          (r.1.nodeMigrations.getForAccount (Sample.account 2),
            r.1.nodeMigrations.ongoingMigrations.keys)) =
      some ((some ⟨Sample.tlsKey 9⟩, some ⟨Sample.accountKey 3, Sample.info 3⟩),
        [Sample.account 2]) := by
    decide +kernel
  obtain ⟨⟨d, es⟩, done, shown⟩ := Option.bind_eq_some_iff.mp ran
  obtain ⟨after, cleaned, shown⟩ := Option.map_eq_some_iff.mp shown
  obtain ⟨stored, migrating⟩ := Prod.mk.inj shown
  have succeeded := toOption_eq_some.mp cleaned
  refine ⟨es, d, after, run_of_replay done, inputs_of_replay done, succeeded, stored,
    (cleanup_complete_iff succeeded).2.mpr ?_⟩
  intro accountId migrates
  rw [AList.mem_keys, migrating, List.mem_singleton] at migrates
  subst migrates
  have service : d.nodeMigrations.backupServicesInfo.lookup (Sample.account 2) = some _ :=
    congrArg Prod.fst stored
  exact .inr (AList.lookup_isSome.mp (by simp [service]))

/-- Without a backup service the migration of the third node stays. -/
theorem migration_of_departed_stays :
    ∃ es d after, Run (Acts (act Sample.verifier)) (Sample.start threeMembers) es d ∧
      es.map Prod.fst = carolMoves :: carolLeaves ∧
      d.cleanupOrphanedNodeMigrations selfCall = .ok after ∧
      after.contract.protocolState.isExistingOrProspectiveParticipant (Sample.account 2) =
        .ok false ∧
      after.nodeMigrations.getForAccount (Sample.account 2) =
        (none, some ⟨Sample.accountKey 3, Sample.info 3⟩) := by
  have ran : ((replay (act Sample.verifier) (Sample.start threeMembers)
      (carolMoves :: carolLeaves)).bind fun r =>
        (r.1.cleanupOrphanedNodeMigrations selfCall).toOption.map fun after =>
          ((after.contract.protocolState.isExistingOrProspectiveParticipant
            (Sample.account 2)).toOption,
            after.nodeMigrations.getForAccount (Sample.account 2))) =
      some (some false, none, some ⟨Sample.accountKey 3, Sample.info 3⟩) := by
    decide +kernel
  obtain ⟨⟨d, es⟩, done, shown⟩ := Option.bind_eq_some_iff.mp ran
  obtain ⟨after, cleaned, shown⟩ := Option.map_eq_some_iff.mp shown
  obtain ⟨left, stored⟩ := Prod.mk.inj shown
  exact ⟨es, d, after, run_of_replay done, inputs_of_replay done, toOption_eq_some.mp cleaned,
    toOption_eq_some.mp left, stored⟩

end Deployment

end MpcNetwork.Contract
