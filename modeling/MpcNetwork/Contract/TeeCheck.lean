import MpcNetwork.Contract.Parameters

/-! # The TEE check of a running contract

`verify_tee` leaves out the participants whose attestation does not verify any more.  Leaving
participants out of valid parameters gives a proposal that passes every check as long as
`threshold` of them remain: the bound of 60 % falls with the number of participants, the ids stay
below `next_id` and nobody is new.  So the check fails for no other reason than its caller.
-/

namespace MpcNetwork.Contract

open Fallible Runs

namespace Participants

variable {ps : Participants} {kept : List (AccountId × ParticipantId × ParticipantInfo)}

/-- The participants that are left, under the same next id. -/
def leaving (ps : Participants) (kept : List (AccountId × ParticipantId × ParticipantInfo)) :
    Participants :=
  ⟨ps.nextId, kept⟩

theorem Valid.leaving (valid : ps.Valid) (part : kept.Sublist ps.participants) :
    (ps.leaving kept).Valid := by
  have holders : (ps.leaving kept).holders.Sublist ps.holders := part.map _
  exact {
    lower := fun holder inside => valid.lower holder (holders.subset inside)
    distinctIds := valid.distinctIds.sublist (holders.map _)
    distinctAccounts := valid.distinctAccounts.sublist (holders.map _) }

/-- The lookup of the source finds the entry of the account itself. -/
theorem Valid.find_last (valid : ps.Valid) (inside : entry ∈ ps.participants) :
    (ps.participants.reverse.find? fun known => known.1 = entry.1) = some entry := by
  have accounts := valid.distinctAccounts
  rw [holders_accounts] at accounts
  cases known : ps.participants.reverse.find? fun known => known.1 = entry.1 with
  | none =>
    have absent := List.find?_eq_none.mp known entry (List.mem_reverse.mpr inside)
    simp at absent
  | some other =>
    have member := List.mem_reverse.mp (List.mem_of_find?_eq_some known)
    have sameAccount : other.1 = entry.1 := by simpa using List.find?_some known
    rw [List.inj_on_of_nodup_map accounts member inside sameAccount]

end Participants

namespace ThresholdParameters

variable {parameters : ThresholdParameters}
  {kept : List (AccountId × ParticipantId × ParticipantInfo)}

def leaving (parameters : ThresholdParameters)
    (kept : List (AccountId × ParticipantId × ParticipantInfo)) : ThresholdParameters :=
  ⟨parameters.participants.leaving kept, parameters.threshold⟩

theorem Valid.leaving (valid : parameters.Valid)
    (part : kept.Sublist parameters.participants.participants)
    (enough : parameters.threshold ≤ kept.length) : (parameters.leaving kept).Valid where
  participants := valid.participants.leaving part
  atLeastTwo := valid.atLeastTwo
  atMostAll := enough
  sixtyPercent := by
    have fewer : (parameters.leaving kept).participants.len ≤ parameters.participants.len :=
      part.length_le
    exact (Nat.mul_le_mul_left 3 fewer).trans valid.sixtyPercent

theorem Valid.new (valid : parameters.Valid) :
    ThresholdParameters.new parameters.participants parameters.threshold = .ok parameters := by
  obtain ⟨_, two, most, sixty⟩ := valid
  have rounded : (3 * parameters.participants.len + 4) / 5 ≤ parameters.threshold := by omega
  simp only [ThresholdParameters.new, validateThreshold, bind_ok_iff, require_eq_ok, pure_ok_iff]
  exact ⟨(), ⟨(), most, (), two, rounded⟩, trivial⟩

theorem foldlM_addCandidate_old (valid : old.Valid)
    (known : ∀ entry ∈ kept, entry ∈ old.participants) :
    kept.foldlM (addCandidate old) start =
      .ok { start with nOld := start.nOld + kept.length } := by
  induction kept generalizing start with
  | nil => rfl
  | cons entry kept ih =>
    obtain ⟨first, rest⟩ := List.forall_mem_cons.mp known
    have added : addCandidate old start entry = .ok { start with nOld := start.nOld + 1 } := by
      simp only [addCandidate, valid.find_last first, bind_ok_iff, require_eq_ok, pure_ok_iff]
      exact ⟨(), trivial, (), trivial, trivial⟩
    rw [List.foldlM_cons, bind_ok_iff]
    refine ⟨_, added, ?_⟩
    rw [ih rest, List.length_cons, Nat.add_assoc, Nat.add_comm 1]

theorem Valid.validateIncomingProposal_leaving (valid : parameters.Valid)
    (part : kept.Sublist parameters.participants.participants)
    (enough : parameters.threshold ≤ kept.length) :
    parameters.validateIncomingProposal (parameters.leaving kept) = .ok () := by
  have counted : kept.foldlM (addCandidate parameters.participants) ⟨4294967295, 0, 0⟩ =
      .ok ⟨4294967295, 0, 0 + kept.length⟩ :=
    foldlM_addCandidate_old valid.participants fun entry inside => part.subset inside
  rw [Nat.zero_add] at counted
  have nobodyNew : (parameters.leaving kept).participants.len - kept.length = 0 := Nat.sub_self _
  simp only [validateIncomingProposal, bind_ok_iff, require_eq_ok]
  refine ⟨(), validate_eq_ok_iff.mpr (valid.leaving part enough), _, counted, (), enough, ?_⟩
  rw [nobodyNew, if_neg (Nat.lt_irrefl 0)]
  rfl

end ThresholdParameters

namespace RunningContractState

variable (state : RunningContractState)

theorem transition_resharing (first : state.domains.getDomainByIndex 0 = some firstDomain)
    (proposal : ThresholdParameters) :
    ∃ resharing, state.transitionToResharingNoChecks proposal = (some resharing, state) ∧
      resharing.previousRunningState.parameters = state.parameters ∧
      resharing.resharingKey.parameters = proposal := by
  rw [transitionToResharingNoChecks, first]
  exact ⟨_, rfl, rfl, rfl⟩

theorem transition_directly (first : state.domains.getDomainByIndex 0 = none)
    (proposal : ThresholdParameters) :
    ∃ after, state.transitionToResharingNoChecks proposal = (none, after) ∧
      after.parameters = proposal := by
  rw [transitionToResharingNoChecks, first]
  exact ⟨_, rfl, rfl⟩

end RunningContractState

namespace MpcContract

variable {self : MpcContract} {state : RunningContractState} {env : Env}

/-- The participants whose stored attestation verifies. -/
def verified (env : Env) (participants : Participants) :
    List (AccountId × ParticipantId × ParticipantInfo) :=
  participants.participants.filter env.reverifyParticipant

theorem reverifyAndCleanupParticipants_full
    (all : ∀ entry ∈ participants.participants, env.reverifyParticipant entry = true) :
    reverifyAndCleanupParticipants env participants = .full := by
  simp [reverifyAndCleanupParticipants, List.filter_eq_self.mpr all, Participants.len]

theorem reverifyAndCleanupParticipants_leaving
    (notAll : ¬ ∀ entry ∈ participants.participants, env.reverifyParticipant entry = true) :
    reverifyAndCleanupParticipants env participants =
      .remaining (participants.leaving (verified env participants)) := by
  have fewer : (participants.participants.filter env.reverifyParticipant).length ≠
      participants.len := by
    intro same
    exact notAll (List.filter_eq_self.mp (List.filter_sublist.eq_of_length same))
  simp only [reverifyAndCleanupParticipants, fewer, ne_eq, not_false_eq_true, if_true]
  rfl

theorem verifyTee_full (isRunning : self.protocolState = .running state)
    (voter : self.voterOrPanic env = .ok account)
    (all : ∀ entry ∈ state.parameters.participants.participants,
      env.reverifyParticipant entry = true) :
    self.verifyTee env = .ok (true, none, { self with acceptRequests := true }) := by
  simp only [verifyTee, bind_ok_iff]
  refine ⟨account, voter, ?_⟩
  simp only [isRunning, reverifyAndCleanupParticipants_full all]
  rfl

theorem verifyTee_few (isRunning : self.protocolState = .running state)
    (voter : self.voterOrPanic env = .ok account)
    (notAll : ¬ ∀ entry ∈ state.parameters.participants.participants,
      env.reverifyParticipant entry = true)
    (few : (verified env state.parameters.participants).length < state.parameters.threshold) :
    self.verifyTee env = .ok (false, none, { self with acceptRequests := false }) := by
  simp only [verifyTee, bind_ok_iff]
  refine ⟨account, voter, ?_⟩
  simp only [isRunning, reverifyAndCleanupParticipants_leaving notAll]
  exact if_pos few

/-- The reduced proposal passes every check. -/
theorem verifyTee_leaving (isRunning : self.protocolState = .running state)
    (valid : state.parameters.Valid) (voter : self.voterOrPanic env = .ok account)
    (notAll : ¬ ∀ entry ∈ state.parameters.participants.participants,
      env.reverifyParticipant entry = true)
    (enough : state.parameters.threshold ≤ (verified env state.parameters.participants).length)
    (goesTo : state.transitionToResharingNoChecks
      (state.parameters.leaving (verified env state.parameters.participants)) = (next, after)) :
    self.verifyTee env = .ok (true, next.map .resharing,
      { self with
        acceptRequests := true
        protocolState := (next.map .resharing).getD (.running after) }) := by
  have part : (verified env state.parameters.participants).Sublist
      state.parameters.participants.participants := List.filter_sublist
  have new := (valid.leaving part enough).new
  have remain : ¬ (state.parameters.participants.leaving
      (verified env state.parameters.participants)).len < state.parameters.threshold :=
    Nat.not_lt.mpr enough
  simp only [verifyTee, bind_ok_iff]
  refine ⟨account, voter, ?_⟩
  simp only [isRunning, reverifyAndCleanupParticipants_leaving notAll]
  rw [if_neg remain]
  simp only [bind_ok_iff, expect_eq_ok]
  refine ⟨_, new, (), valid.validateIncomingProposal_leaving part enough, ?_⟩
  rw [goesTo]
  rfl

end MpcContract

namespace Deployment

open MpcContract

variable {Collateral : Type} {verifier : AttestationVerifier Collateral}

/-- In every reachable running state the TEE check fails only if its caller may not make it. It
    changes nothing but the acceptance of requests if all participants verify or fewer than
    `threshold` do, and else goes over to those who do. -/
theorem verifyTee_is_safe {start d : Deployment} {es : List (MethodEvent Collateral)}
    {state : RunningContractState} (initial : Initial start)
    (run : Run (Acts (act verifier)) start es d)
    (isRunning : d.contract.protocolState = .running state) (env : Env) :
    (∀ error, d.contract.verifyTee env = .error error →
      d.contract.voterOrPanic env = .error error) ∧
    ∀ account, d.contract.voterOrPanic env = .ok account →
      ((∀ entry ∈ state.parameters.participants.participants,
          env.reverifyParticipant entry = true) →
        d.contract.verifyTee env = .ok (true, none, { d.contract with acceptRequests := true })) ∧
      ((verified env state.parameters.participants).length < state.parameters.threshold →
        d.contract.verifyTee env =
          .ok (false, none, { d.contract with acceptRequests := false })) ∧
      (state.parameters.threshold ≤ (verified env state.parameters.participants).length →
        (∃ entry ∈ state.parameters.participants.participants,
          env.reverifyParticipant entry = false) →
        (∃ firstDomain resharing, state.domains.getDomainByIndex 0 = some firstDomain ∧
          resharing.previousRunningState.parameters = state.parameters ∧
          resharing.resharingKey.parameters =
            state.parameters.leaving (verified env state.parameters.participants) ∧
          d.contract.verifyTee env = .ok (true, some (.resharing resharing),
            { d.contract with acceptRequests := true, protocolState := .resharing resharing })) ∨
        ∃ after, state.domains.getDomainByIndex 0 = none ∧
          after.parameters = state.parameters.leaving (verified env state.parameters.participants) ∧
          d.contract.verifyTee env = .ok (true, none,
            { d.contract with acceptRequests := true, protocolState := .running after })) := by
  have valid : state.parameters.Valid := by
    have sound := (sound_run initial run).governing
    simpa only [seats, isRunning, ProtocolContractState.seats] using sound
  have verifies : ∀ account, d.contract.voterOrPanic env = .ok account →
      ∃ result, d.contract.verifyTee env = .ok result := by
    intro account voter
    by_cases all : ∀ entry ∈ state.parameters.participants.participants,
      env.reverifyParticipant entry = true
    · exact ⟨_, verifyTee_full isRunning voter all⟩
    · rcases Nat.lt_or_ge (verified env state.parameters.participants).length
        state.parameters.threshold with few | enough
      · exact ⟨_, verifyTee_few isRunning voter all few⟩
      · exact ⟨_, verifyTee_leaving isRunning valid voter all enough rfl⟩
  refine ⟨?_, ?_⟩
  · intro error fails
    cases voter : d.contract.voterOrPanic env with
    | error other =>
      simp only [MpcContract.verifyTee, voter] at fails
      cases fails
      rfl
    | ok account =>
      obtain ⟨result, done⟩ := verifies account voter
      rw [done] at fails
      cases fails
  · intro account voter
    refine ⟨verifyTee_full isRunning voter, ?_, ?_⟩
    · intro few
      refine verifyTee_few isRunning voter ?_ few
      intro all
      rw [verified, List.filter_eq_self.mpr all] at few
      exact Nat.not_lt.mpr valid.atMostAll few
    · rintro enough ⟨entry, inside, expired⟩
      have notAll : ¬ ∀ entry ∈ state.parameters.participants.participants,
          env.reverifyParticipant entry = true := by
        intro all
        rw [all entry inside] at expired
        cases expired
      cases first : state.domains.getDomainByIndex 0 with
      | some firstDomain =>
        obtain ⟨resharing, goesTo, previous, proposed⟩ := state.transition_resharing first
          (state.parameters.leaving (verified env state.parameters.participants))
        exact .inl ⟨firstDomain, resharing, rfl, previous, proposed,
          verifyTee_leaving isRunning valid voter notAll enough goesTo⟩
      | none =>
        obtain ⟨after, goesTo, adopted⟩ := state.transition_directly first
          (state.parameters.leaving (verified env state.parameters.participants))
        exact .inr ⟨after, rfl, adopted,
          verifyTee_leaving isRunning valid voter notAll enough goesTo⟩

private def threeChecked : ThresholdParameters :=
  ⟨Sample.participants 3 [(0, 0), (1, 1), (2, 2)], 2⟩

/-- The first node calls, and the attestation of the third has expired. -/
private def thirdExpired : Env :=
  { (Sample.startWithKey threeChecked).env (Sample.host 0) with
    reverifyParticipant := fun entry => entry.1 ≠ Sample.account 2 }

/-- Two of three nodes remain, and the key is reshared to them. -/
theorem verifyTee_of_third_expired :
    ∃ resharing, resharing.resharingKey.parameters =
        ⟨Sample.participants 3 [(0, 0), (1, 1)], 2⟩ ∧
      (Sample.startWithKey threeChecked).contract.verifyTee thirdExpired =
        .ok (true, some (.resharing resharing),
          { (Sample.startWithKey threeChecked).contract with
            acceptRequests := true, protocolState := .resharing resharing }) := by
  have voter : (Sample.startWithKey threeChecked).contract.voterOrPanic thirdExpired =
      .ok (Sample.account 0) := by decide +kernel
  have run : Run (Acts (act Sample.verifier)) (Sample.startWithKey threeChecked) [] _ := .nil
  obtain ⟨_, results⟩ := verifyTee_is_safe (Sample.startWithKey_initial threeChecked rfl) run rfl
    thirdExpired
  obtain ⟨_, _, moved⟩ := results _ voter
  rcases moved (by decide +kernel) (by decide +kernel) with
    ⟨_, resharing, _, _, proposed, verified⟩ | ⟨_, none, _⟩
  · exact ⟨resharing, proposed.trans (by decide +kernel), verified⟩
  · cases none

end Deployment

end MpcNetwork.Contract
