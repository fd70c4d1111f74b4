import MpcNetwork.Contract.Succession

/-! # Who has agreed to a resharing

Votes for new parameters are recorded by account, overwritten by later ones, kept through a
cancelled resharing and forgotten whenever the participants change.  Every recorded vote is
the latest of its voter, named the epoch that is still the next one, and was admitted by the
participants that are still in force.
-/

namespace MpcNetwork.Contract

open Fallible Runs Ballots List

/-- A vote that starts a resharing was the last one missing, and named its epoch. -/
theorem voteNewParameters_reshares
    (done : perform env self (.voteNewParameters prospectiveEpochId proposal) =
      .ok (some (.resharing state), contract)) :
    self.protocolState.seats.Carries env (.voteNewParameters prospectiveEpochId proposal) proposal ∧
      contract.protocolState = .resharing state ∧ state.resharingKey.parameters = proposal ∧
      state.prospectiveEpochId = prospectiveEpochId := by
  obtain ⟨phase, _, _, _, _, _, _⟩ := self
  simp only [perform, MpcContract.voteNewParameters] at done
  split at done
  · simp only [bind_ok_iff, pure_ok_iff, Prod.mk.injEq] at done
    obtain ⟨⟨next, changed⟩, voted, rfl, rfl⟩ := done
    cases phase with
    | running running =>
      simp only [ProtocolContractState.voteNewParameters, RunningContractState.voteNewParameters,
        bind_ok_iff, require_eq_ok, pure_ok_iff, Prod.mk.injEq] at voted
      obtain ⟨_, ⟨_, rfl, ⟨accepted, after⟩, processed, rfl⟩, next, rfl⟩ := voted
      obtain ⟨votes, complete, rfl⟩ := RunningContractState.processNewParametersProposal_votes
        (s := (ProtocolContractState.running running).seats) processed rfl rfl rfl
      cases accepted with
      | false => cases next
      | true =>
        simp only [if_true, RunningContractState.transitionToResharingNoChecks] at next
        split at next
        · cases next
          exact ⟨⟨votes, of_decide_eq_true complete.symm⟩, rfl, rfl, rfl⟩
        · cases next
    | resharing resharing =>
      simp only [ProtocolContractState.voteNewParameters,
        ResharingContractState.voteNewParameters, bind_ok_iff, require_eq_ok, pure_ok_iff,
        Prod.mk.injEq] at voted
      obtain ⟨⟨_, _⟩, ⟨_, rfl, ⟨accepted, after⟩, processed, rest⟩, next, rfl⟩ := voted
      obtain ⟨votes, complete, rfl⟩ := RunningContractState.processNewParametersProposal_votes
        (s := (ProtocolContractState.resharing resharing).seats) processed rfl rfl rfl
      split at rest
      · rename_i isAccepted
        simp only [bind_ok_iff, found_eq_ok, pure_ok_iff, Prod.mk.injEq] at rest
        obtain ⟨first, _, rfl, rfl⟩ := rest
        cases next
        exact ⟨⟨votes, of_decide_eq_true (complete.symm.trans isAccepted)⟩, rfl, rfl, rfl⟩
      · cases rest
        cases next
    | _ => cases voted
  · cases done

namespace Deployment

variable {Collateral : Type} (verifier : AttestationVerifier Collateral)

/-- The vote for new parameters that an account casts with an event. -/
def voteOf (account : AccountId) (event : MethodEvent Collateral) :
    Option (EpochId × ThresholdParameters) :=
  match event.1.2 with
  | .govern call => if event.1.1.signerAccountId = account then call.newParameters else none
  | _ => none

/-- At the end, at least `threshold` of the participants have voted for the proposal last. -/
def Endorsed (es : List (MethodEvent Collateral)) (governing : ThresholdParameters)
    (vote : EpochId × ThresholdParameters) : Prop :=
  ∃ supporters : Finset AccountId, governing.threshold ≤ supporters.card ∧
    ∀ account ∈ supporters, governing.participants.isParticipantGivenAccountId account = true ∧
      latest (voteOf account) es = some vote

/-- The account's latest vote. A newcomer cast it when those in force endorsed the proposal. -/
structure Recorded (start : Deployment) (es : List (MethodEvent Collateral))
    (governing : ThresholdParameters) (account : AccountId)
    (vote : EpochId × ThresholdParameters) : Prop where
  member : vote.2.participants.isParticipantGivenAccountId account = true
  cast : ∃ earlier event later before, es = earlier ++ event :: later ∧
    Run (Acts (act verifier)) start earlier before ∧ voteOf account event = some vote ∧
    (∀ e ∈ later, voteOf account e = none) ∧
    before.seats.governing.participants.holders = governing.participants.holders ∧
    before.seats.governing.threshold = governing.threshold ∧
    (governing.participants.isParticipantGivenAccountId account = true ∨
      Endorsed earlier before.seats.governing vote)

def VotesRecorded (start : Deployment) (es : List (MethodEvent Collateral)) (d : Deployment) :
    Prop :=
  ∀ account proposal, (account, proposal) ∈ d.seats.votes.proposalByAccount.votes →
    Recorded verifier start es d.seats.governing account (d.seats.epoch, proposal)

variable {verifier} {start d : Deployment} {es : List (MethodEvent Collateral)}

namespace Recorded

theorem latest_eq (recorded : Recorded verifier start es governing account vote) :
    latest (voteOf account) es = some vote := by
  obtain ⟨earlier, event, later, _, rfl, _, voted, silent, _⟩ := recorded.cast
  exact latest_of_last voted silent earlier

theorem extend (recorded : Recorded verifier start es governing account vote)
    (silent : voteOf account event = none)
    (sameHolders : governing'.participants.holders = governing.participants.holders)
    (sameThreshold : governing'.threshold = governing.threshold) :
    Recorded verifier start (es ++ [event]) governing' account vote := by
  obtain ⟨earlier, e, later, before, rfl, run, voted, quiet, holders, threshold, admitted⟩ :=
    recorded.cast
  refine ⟨recorded.member, earlier, e, later ++ [event], before, by simp, run, voted, ?_,
    holders.trans sameHolders.symm, threshold.trans sameThreshold.symm, ?_⟩
  · intro e' inside
    rcases mem_append.mp inside with old | new
    · exact quiet e' old
    · rw [mem_singleton.mp new]
      exact silent
  · refine admitted.imp_left fun known => ?_
    rw [Participants.isParticipantGivenAccountId_iff] at known ⊢
    rwa [sameHolders]

end Recorded

variable {host : Host}

theorem voteOf_other {method : Method Collateral}
    (other : ∀ call, method ≠ .govern call) : voteOf account ((host, method), note) = none := by
  unfold voteOf
  split
  · rename_i call isCall
    exact absurd isCall (other call)
  · rfl

variable {call : Call}

theorem voteOf_silent
    (silent : call.newParameters = none ∨ host.signerAccountId ≠ account) :
    voteOf account (((host, .govern call), note) : MethodEvent Collateral) = none := by
  rcases silent with quiet | other
  · simp [voteOf, quiet]
  · simp [voteOf, other]

variable {proposal : ThresholdParameters}

theorem VotesRecorded.endorsed (recorded : VotesRecorded verifier start es d)
    (enough : d.seats.governing.threshold ≤
      d.seats.votes.nVotes proposal d.seats.governing.participants) :
    Endorsed es d.seats.governing (d.seats.epoch, proposal) := by
  refine ⟨(d.seats.votes.proposalByAccount.among
    d.seats.governing.participants.isParticipantGivenAccountId).supporters proposal, ?_, ?_⟩
  · rw [Box.card_supporters]
    exact enough
  · intro account supports
    obtain ⟨voted, isParticipant⟩ := Box.mem_among.mp (Box.mem_supporters.mp supports)
    exact ⟨isParticipant, (recorded account proposal voted).latest_eq⟩

theorem VotesRecorded.vote (recorded : VotesRecorded verifier start es d)
    (run : Run (Acts (act verifier)) start es d) {env : Env} (note : MethodNote)
    (signer : env.signerAccountId = host.signerAccountId)
    (votes : d.seats.Votes env call proposal)
    (inside : (account, other) ∈
      (d.seats.votes.vote proposal env.signerAccountId).2.proposalByAccount.votes) :
    Recorded verifier start (es ++ [((host, .govern call), note)]) d.seats.governing account
      (d.seats.epoch, other) := by
  rcases Box.mem_recast.mp inside with ⟨rfl, rfl⟩ | ⟨otherVoter, old⟩
  · refine ⟨votes.member, es, _, [], d, rfl, run, ?_, forall_mem_nil _, rfl, rfl, ?_⟩
    · simp [voteOf, votes.asked, Call.newParameters, signer]
    · exact votes.admitted.imp_right recorded.endorsed
  · exact (recorded account other old).extend
      (voteOf_silent (.inr (signer ▸ Ne.symm otherVoter))) rfl rfl

theorem VotesRecorded.everyone (recorded : VotesRecorded verifier start es d)
    (run : Run (Acts (act verifier)) start es d) {env : Env}
    (signer : env.signerAccountId = host.signerAccountId)
    (carries : d.seats.Carries env call proposal) (note : MethodNote) :
    ∀ entry ∈ proposal.participants.participants, Recorded verifier start
      (es ++ [((host, .govern call), note)]) d.seats.governing entry.1 (d.seats.epoch, proposal) := by
  have all : ∀ account ∈ proposal.participants.holders.map Prod.fst, (account, proposal) ∈
      (d.seats.votes.vote proposal env.signerAccountId).2.proposalByAccount.votes := by
    apply Box.unanimous
    · intro account voted
      have voter := recorded.vote run note signer carries.toVotes voted
      exact Participants.isParticipantGivenAccountId_iff.mp voter.member
    · simp only [Participants.holders, length_map]
      exact carries.complete.le
  intro entry inside
  apply recorded.vote run note signer carries.toVotes
  apply all
  simp only [Participants.holders, map_map, mem_map]
  exact ⟨entry, inside, rfl⟩

theorem votesRecorded_run (initial : Initial start) (run : Run (Acts (act verifier)) start es d) :
    VotesRecorded verifier start es d := by
  refine run.invariant (VotesRecorded verifier start) ?_ ?_
  · intro account proposal voted
    obtain ⟨_, _, _, _, _, running, _⟩ := initial.running
    simp only [seats, running] at voted
    cases voted
  · intro es before event after early recorded acts account proposal voted
    obtain ⟨⟨host, method⟩, note⟩ := event
    have step := acts_seats verifier acts
    unfold VotesRecorded at recorded
    generalize after.seats = seats at step voted ⊢
    cases step with
    | governed call moves =>
      cases moves with
      | kept silent | dropped silent =>
        exact (recorded account proposal voted).extend (voteOf_silent (.inl silent)) rfl rfl
      | cast _ votes => exact VotesRecorded.vote recorded early note rfl votes voted
      | reset | proposed | replaced | adopted => cases voted
    | migrated keyset state destination participants migrates =>
      obtain ⟨_, sameHolders⟩ := Participants.updateInfo_holders migrates.updated
      rw [← migrates.seats.1] at sameHolders
      exact (recorded account proposal voted).extend (voteOf_other (by simp)) sameHolders rfl
    | kept _ other => exact (recorded account proposal voted).extend (voteOf_other other) rfl rfl

/-- A resharing starts only if all proposed participants voted last for the proposal and its epoch,
    enough of them are participants, and newcomers voted when enough participants already had. -/
theorem resharing_quorum {d' : Deployment} {event : MethodEvent Collateral}
    {prospectiveEpochId : EpochId} {proposal : ThresholdParameters}
    {state : ResharingContractState} (initial : Initial start)
    (run : Run (Acts (act verifier)) start es d) (acts : Acts (act verifier) d event d')
    (asked : event.1.2 = .govern (.voteNewParameters prospectiveEpochId proposal))
    (reshares : event.2 = .wentTo (some (.resharing state))) :
    (d'.contract.protocolState = .resharing state ∧ state.resharingKey.parameters = proposal ∧
        state.prospectiveEpochId = prospectiveEpochId) ∧
      (∀ entry ∈ proposal.participants.participants,
        latest (voteOf entry.1) (es ++ [event]) = some (prospectiveEpochId, proposal)) ∧
      d.seats.governing.threshold ≤ proposal.participants.participants.countP
        (fun entry => d.seats.governing.participants.isParticipantGivenAccountId entry.1) ∧
      ∀ entry ∈ proposal.participants.participants,
        d.seats.governing.participants.isParticipantGivenAccountId entry.1 = false →
        ∃ earlier vote later before, es ++ [event] = earlier ++ vote :: later ∧
          Run (Acts (act verifier)) start earlier before ∧
          voteOf entry.1 vote = some (prospectiveEpochId, proposal) ∧
          (∀ e ∈ later, voteOf entry.1 e = none) ∧
          Endorsed earlier before.seats.governing (prospectiveEpochId, proposal) := by
  obtain ⟨⟨host, method⟩, note⟩ := event
  cases asked
  cases reshares
  have phase := acts_phase verifier acts
  generalize d'.contract.protocolState = after at phase ⊢
  cases phase with
  | kept _ _ other => exact absurd rfl (other _)
  | governed call next contract done =>
    obtain ⟨carries, goesOver, isProposal, isEpoch⟩ := voteNewParameters_reshares done
    have epoch : d.seats.epoch = prospectiveEpochId := by
      have asked := carries.asked
      cases asked
      rfl
    have everyone := (votesRecorded_run initial run).everyone run rfl carries
      (.wentTo (some (.resharing state)))
    rw [epoch] at everyone
    refine ⟨⟨goesOver, isProposal, isEpoch⟩, ?_, ?_, ?_⟩
    · intro entry inside
      exact (everyone entry inside).latest_eq
    · exact (ThresholdParameters.validateIncomingProposal_ok carries.valid).2.enough_accounts
    · intro entry inside newcomer
      obtain ⟨earlier, vote, later, before, split, early, voted, silent, _, _, admitted⟩ :=
        (everyone entry inside).cast
      refine ⟨earlier, vote, later, before, split, early, voted, silent, ?_⟩
      exact admitted.resolve_left (by simp [newcomer])

private def twoVoters : ThresholdParameters := ⟨Sample.participants 2 [(0, 0), (1, 1)], 2⟩

private def withThirdVoter : ThresholdParameters :=
  ⟨Sample.participants 3 [(0, 0), (1, 1), (2, 2)], 2⟩

/-- The vote for a third node that node 0 casts during a resharing outlives the cancellation. -/
private def votesAcrossCancellation : List (Host × Method Unit) :=
  Sample.attest 2 :: Sample.byAll [0, 1] (.govern (.voteNewParameters ⟨1⟩ twoVoters)) ++
    Sample.byAll [0] (.govern (.voteNewParameters ⟨2⟩ withThirdVoter)) ++
    Sample.byAll [0, 1] (.govern .voteCancelResharing) ++
    Sample.byAll [1] (.govern (.voteNewParameters ⟨2⟩ withThirdVoter))

private def isResharing : MethodNote → Bool
  | .wentTo (some (.resharing _)) => true
  | _ => false

theorem resharing_quorum_after_cancellation :
    ∃ es d event d' state, Run (Acts (act Sample.verifier)) (Sample.startWithKey twoVoters) es d ∧
      Acts (act Sample.verifier) d event d' ∧ event.2 = .wentTo (some (.resharing state)) ∧
      state.prospectiveEpochId = ⟨2⟩ ∧
      ∀ n ∈ [0, 1, 2], latest (voteOf (Sample.account n)) (es ++ [event]) =
        some (⟨2⟩, withThirdVoter) := by
  obtain ⟨es, d, note, d', run, _, acts, goesOver⟩ := exists_run_then (act Sample.verifier)
    (Sample.startWithKey twoVoters) votesAcrossCancellation
    (Sample.host 2, .govern (.voteNewParameters ⟨2⟩ withThirdVoter))
    (fun _ _ note _ => isResharing note) (by decide +kernel)
  unfold isResharing at goesOver
  split at goesOver
  · rename_i state
    obtain ⟨⟨_, _, epoch⟩, latestVotes, _⟩ := resharing_quorum
      (Sample.startWithKey_initial twoVoters rfl) run acts rfl rfl
    refine ⟨es, d, _, d', state, run, acts, rfl, epoch, ?_⟩
    intro n inside
    simp only [mem_cons, not_mem_nil, or_false] at inside
    rcases inside with rfl | rfl | rfl
    · exact latestVotes (Sample.account 0, ⟨0⟩, Sample.info 0) (by decide)
    · exact latestVotes (Sample.account 1, ⟨1⟩, Sample.info 1) (by decide)
    · exact latestVotes (Sample.account 2, ⟨2⟩, Sample.info 2) (by decide)
  · cases goesOver

end Deployment

end MpcNetwork.Contract
