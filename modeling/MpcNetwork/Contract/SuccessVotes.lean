import MpcNetwork.Contract.Acceptance

/-! # Recorded success votes

A participant votes once in an attempt.  An abort by someone whose vote is recorded is always
rejected.  A second success vote is rejected as long as it names the recorded key; with any other
key it counts as a disagreement, and the attempt is dropped with all its votes.
-/

namespace MpcNetwork.Contract

open Fallible Runs

inductive KeyEventCall where
  | start (keyEventId : KeyEventId) (timeoutBlocks : Nat)
  | voteSuccess (keyEventId : KeyEventId) (publicKey : PublicKeyExtended)
  | voteAbort (keyEventId : KeyEventId)

theorem KeyEventInstance.voteSuccess_again {inst : KeyEventInstance}
    {publicKey : PublicKeyExtended} (recorded : candidate ∈ inst.completed)
    (sameKey : inst.publicKey = some publicKey) :
    inst.voteSuccess candidate publicKey = .error (.vote .voteAlreadySubmitted) := by
  unfold voteSuccess
  simp only [sameKey, Option.any_some, ne_eq, not_true_eq_false, decide_false, Bool.false_eq_true,
    if_false, require, recorded]
  rfl

namespace KeyEvent

/-- Starting and aborting an attempt complete none. -/
def perform (env : Env) (self : KeyEvent) : KeyEventCall → Except Error (Bool × KeyEvent)
  | .start keyEventId timeoutBlocks => do
    pure (false, ← self.start env keyEventId timeoutBlocks)
  | .voteSuccess keyEventId publicKey => self.voteSuccess env keyEventId publicKey
  | .voteAbort keyEventId => do pure (false, ← self.voteAbort env keyEventId)

def act (self : KeyEvent) (input : Env × KeyEventCall) : Option (KeyEvent × Except Error Bool) :=
  match self.perform input.1 input.2 with
  | .ok (complete, after) => some (after, .ok complete)
  | .error error => some (self, .error error)

def Rejects (self : KeyEvent) (env : Env) (call : KeyEventCall) : Prop :=
  ∃ error, self.act (env, call) = some (self, .error error)

variable {env : Env} {event s t : KeyEvent} {publicKey : PublicKeyExtended}
  {candidate : ParticipantId} {inst : KeyEventInstance}

theorem rejects_iff : event.Rejects env call ↔ ∀ result, event.perform env call ≠ .ok result := by
  unfold Rejects act
  cases performed : event.perform env call with
  | error error => simp
  | ok result => simp

theorem verifyVote_eq_ok_iff : event.verifyVote env keyEventId = .ok (candidate, inst) ↔
    authenticatedParticipantId env event.parameters.participants = .ok candidate ∧
      event.inst = some inst ∧ inst.active env = true ∧ keyEventId = event.attemptId inst := by
  simp only [verifyVote, cleanupIfTimedOut, bind_ok_iff, found_eq_ok, Option.filter_eq_some_iff,
    require_eq_ok, pure_ok_iff]
  constructor
  · rintro ⟨_, voter, _, ⟨ongoing, active⟩, _, sameId, same⟩
    cases same
    exact ⟨voter, ongoing, active, sameId⟩
  · rintro ⟨voter, ongoing, active, sameId⟩
    exact ⟨candidate, voter, inst, ⟨ongoing, active⟩, (), sameId, rfl⟩

inductive AttemptStep (event : KeyEvent) : KeyEvent → Prop where
  | kept : AttemptStep event event
  | started (env : Env) (timeoutBlocks : Nat) : AttemptStep event
      { event with
        inst := some (.new env event.nextAttemptId timeoutBlocks)
        nextAttemptId := event.nextAttemptId.next }
  | voted (inst : KeyEventInstance) (candidate : ParticipantId) (publicKey : PublicKeyExtended)
      (ongoing : event.inst = some inst) :
      AttemptStep event { event with inst := some (inst.withVote candidate publicKey) }
  | dropped : AttemptStep event { event with inst := none }

theorem perform_step (done : event.perform env call = .ok (complete, after)) :
    AttemptStep event after := by
  cases call with
  | start keyEventId timeoutBlocks =>
    simp only [perform, start, bind_ok_iff, require_eq_ok, pure_ok_iff, Prod.mk.injEq] at done
    obtain ⟨_, ⟨_, _, _, _, _, _, rfl⟩, _, rfl⟩ := done
    exact .started env timeoutBlocks
  | voteSuccess keyEventId publicKey =>
    rcases voteSuccess_casts done with ⟨inst, candidate, casts, _, _, rfl⟩ | ⟨_, rfl⟩
    · exact .voted inst candidate publicKey casts.ongoing
    · exact .dropped
  | voteAbort keyEventId =>
    simp only [perform, bind_ok_iff, pure_ok_iff, Prod.mk.injEq] at done
    obtain ⟨_, aborted, _, rfl⟩ := done
    rw [voteAbort_ok aborted]
    exact .dropped

theorem acts_step (acts : Acts act s e t) : AttemptStep s t := by
  obtain ⟨input, output⟩ := e
  unfold Acts act at acts
  split at acts
  · rename_i complete after done
    cases acts
    exact perform_step done
  · cases acts
    exact .kept

structure SameEvent (s t : KeyEvent) : Prop where
  epochId : t.epochId = s.epochId
  domain : t.domain = s.domain
  parameters : t.parameters = s.parameters

theorem AttemptStep.same (step : AttemptStep s t) : SameEvent s t := by
  cases step <;> exact ⟨rfl, rfl, rfl⟩

/-- Attempts are numbered in order, and a recorded vote is one for the recorded key. -/
structure Counted (event : KeyEvent) : Prop where
  earlier : ∀ inst ∈ event.inst, inst.attemptId.value < event.nextAttemptId.value
  keyed : ∀ inst ∈ event.inst, inst.completed.Nonempty → ∃ key, inst.publicKey = some key

theorem AttemptStep.counted (step : AttemptStep s t) (counted : Counted s) : Counted t := by
  cases step with
  | kept => exact counted
  | started env timeoutBlocks =>
    constructor
    · rintro inst ⟨⟩
      exact Nat.lt_succ_self _
    · rintro inst ⟨⟩ voted
      exact absurd voted Finset.not_nonempty_empty
  | voted inst candidate publicKey ongoing =>
    constructor
    · rintro inst ⟨⟩
      exact counted.earlier inst ongoing
    · rintro inst ⟨⟩ _
      exact ⟨publicKey, rfl⟩
  | dropped => exact ⟨by simp, by simp⟩

/-- From now on the participant has voted in the attempt as long as it lasts. -/
structure VotedIn (candidate : ParticipantId) (attempt : AttemptId) (event : KeyEvent) : Prop where
  earlier : attempt.value < event.nextAttemptId.value
  recorded : ∀ inst ∈ event.inst, inst.attemptId = attempt → candidate ∈ inst.completed

theorem AttemptStep.votedIn (step : AttemptStep s t) (voted : VotedIn candidate attempt s) :
    VotedIn candidate attempt t := by
  cases step with
  | kept => exact voted
  | started env timeoutBlocks =>
    constructor
    · exact Nat.lt_succ_of_lt voted.earlier
    · rintro inst ⟨⟩ same
      have differs := voted.earlier
      rw [← same] at differs
      exact absurd differs (Nat.lt_irrefl _)
  | voted inst other publicKey ongoing =>
    constructor
    · exact voted.earlier
    · rintro inst ⟨⟩ same
      exact Finset.mem_insert_of_mem (voted.recorded inst ongoing same)
  | dropped => exact ⟨voted.earlier, by simp⟩

variable {es fs : List ((Env × KeyEventCall) × Except Error Bool)} {epochId : EpochId}
  {domain : DomainConfig} {parameters : ThresholdParameters}

theorem same_run (run : Run (Acts act) s es t) : SameEvent s t := by
  refine run.invariant (fun _ t => SameEvent s t) ⟨rfl, rfl, rfl⟩ ?_
  rintro _ t _ u _ ⟨epoch, domain, parameters⟩ acts
  have next := (acts_step acts).same
  exact ⟨next.epochId.trans epoch, next.domain.trans domain, next.parameters.trans parameters⟩

theorem counted_run (run : Run (Acts act) (.new epochId domain parameters) es s) : Counted s := by
  refine run.invariant (fun _ s => Counted s) ⟨by simp [new], by simp [new]⟩ ?_
  intro _ _ _ _ _ counted acts
  exact (acts_step acts).counted counted

theorem votedIn_run (run : Run (Acts act) s es t) (voted : VotedIn candidate attempt s) :
    VotedIn candidate attempt t := by
  refine run.invariant (fun _ t => VotedIn candidate attempt t) voted ?_
  intro _ _ _ _ _ voted acts
  exact (acts_step acts).votedIn voted

theorem VotedIn.rejects_voteAbort (voted : VotedIn candidate keyEventId.attemptId event)
    (caller : authenticatedParticipantId env event.parameters.participants = .ok candidate) :
    event.Rejects env (.voteAbort keyEventId) := by
  rw [rejects_iff]
  rintro ⟨_, after⟩ done
  simp only [perform, voteAbort, bind_ok_iff, require_eq_ok, pure_ok_iff] at done
  obtain ⟨_, ⟨⟨voter, inst⟩, verified, _, unvoted, _⟩, _⟩ := done
  obtain ⟨isVoter, ongoing, _, sameId⟩ := verifyVote_eq_ok_iff.mp verified
  cases caller.symm.trans isVoter
  exact unvoted (voted.recorded inst ongoing (congrArg KeyEventId.attemptId sameId).symm)

/-- A vote for another key than the recorded one drops the attempt, whoever casts it. -/
theorem voteSuccess_disagrees (verified : event.verifyVote env keyEventId = .ok (candidate, inst))
    (recorded : inst.publicKey = some existing) (differs : existing ≠ publicKey) :
    event.voteSuccess env keyEventId publicKey = .ok (false, { event with inst := none }) := by
  have disagrees : inst.voteSuccess candidate publicKey = .ok (.publicKeyDisagreement, inst) := by
    unfold KeyEventInstance.voteSuccess
    simp [recorded, differs, pure, Except.pure]
  simp only [voteSuccess, bind_ok_iff]
  exact ⟨_, verified, _, disagrees, rfl⟩

/-- A second success vote is rejected unless it is in time and for another key. -/
theorem VotedIn.rejects_voteSuccess_iff (voted : VotedIn candidate keyEventId.attemptId event)
    (counted : Counted event) (sameEpoch : keyEventId.epochId = event.epochId)
    (sameDomain : keyEventId.domainId = event.domain.id)
    (caller : authenticatedParticipantId env event.parameters.participants = .ok candidate) :
    event.Rejects env (.voteSuccess keyEventId publicKey) ↔
      ∀ inst ∈ event.inst, inst.attemptId = keyEventId.attemptId → inst.active env = true →
        inst.publicKey = some publicKey := by
  rw [rejects_iff]
  constructor
  · intro rejected inst ongoing sameAttempt active
    have sameId : keyEventId = event.attemptId inst := by
      rw [attemptId, ← sameEpoch, ← sameDomain, sameAttempt]
    obtain ⟨existing, recorded⟩ :=
      counted.keyed inst ongoing ⟨candidate, voted.recorded inst ongoing sameAttempt⟩
    by_contra differs
    have verified := verifyVote_eq_ok_iff.mpr ⟨caller, ongoing, active, sameId⟩
    refine rejected _ (voteSuccess_disagrees verified recorded ?_)
    rintro rfl
    exact differs recorded
  · rintro sameKey ⟨complete, after⟩ done
    simp only [perform, voteSuccess, bind_ok_iff] at done
    obtain ⟨⟨voter, inst⟩, verified, answer, counted, _⟩ := done
    obtain ⟨isVoter, ongoing, active, sameId⟩ := verifyVote_eq_ok_iff.mp verified
    cases caller.symm.trans isVoter
    have sameAttempt := (congrArg KeyEventId.attemptId sameId).symm
    rw [KeyEventInstance.voteSuccess_again (voted.recorded inst ongoing sameAttempt)
      (sameKey inst ongoing sameAttempt active)] at counted
    cases counted

/-- Once a success vote is recorded, calls of its participant to abort the attempt are rejected. A
    success vote is rejected exactly when the attempt is over or the vote names the recorded key. -/
theorem recorded_vote_stable_iff (run : Run (Acts act) (.new epochId domain parameters) es s)
    (ongoing : s.inst = some inst) (recorded : candidate ∈ inst.completed)
    (later : Run (Acts act) s fs t)
    (caller : authenticatedParticipantId env parameters.participants = .ok candidate)
    (publicKey : PublicKeyExtended) :
    t.Rejects env (.voteAbort ⟨epochId, domain.id, inst.attemptId⟩) ∧
      (t.Rejects env (.voteSuccess ⟨epochId, domain.id, inst.attemptId⟩ publicKey) ↔
        ∀ current ∈ t.inst, current.attemptId = inst.attemptId → current.active env = true →
          current.publicKey = some publicKey) := by
  have counted := counted_run run
  have votedBefore : VotedIn candidate inst.attemptId s := by
    refine ⟨counted.earlier inst ongoing, ?_⟩
    intro other isOther _
    cases ongoing.symm.trans isOther
    exact recorded
  have voted := votedIn_run later votedBefore
  have same := same_run (run.trans later)
  have sameParameters : t.parameters = parameters := same.parameters
  have sameDomain : t.domain = domain := same.domain
  rw [← sameParameters] at caller
  exact ⟨voted.rejects_voteAbort caller, voted.rejects_voteSuccess_iff
    (counted_run (run.trans later)) same.epochId.symm (by rw [sameDomain]) caller⟩

private def keygenDomain : DomainConfig := ⟨⟨0⟩, .secp256k1, .sign⟩

private def twoCandidates : ThresholdParameters := ⟨Sample.participants 2 [(0, 0), (1, 1)], 2⟩

private def firstKeygenAttempt : KeyEventId := ⟨⟨0⟩, ⟨0⟩, ⟨0⟩⟩

private def calledByNode (n : Nat) : Env := (Sample.start twoCandidates).env (Sample.host n)

/-- The leader starts an attempt and votes in it. -/
private def leaderVotes : List (Env × KeyEventCall) :=
  [(calledByNode 0, .start firstKeygenAttempt 30),
    (calledByNode 0, .voteSuccess firstKeygenAttempt Sample.rootKey)]

private theorem leaderVotes_recorded :
    ∃ es s inst, Run (Acts act) (.new ⟨0⟩ keygenDomain twoCandidates) es s ∧
      es.map Prod.fst = leaderVotes ∧ s.inst = some inst ∧ inst.completed = {⟨0⟩} ∧
      inst.attemptId = ⟨0⟩ ∧ inst.expiresOn = 131 ∧ inst.publicKey = some Sample.rootKey := by
  obtain ⟨es, s, run, inputs, recorded⟩ := exists_run act (.new ⟨0⟩ keygenDomain twoCandidates)
    leaderVotes (fun _ s => s.inst.map (fun inst =>
      (inst.completed, inst.attemptId, inst.expiresOn, inst.publicKey)) =
        some ({⟨0⟩}, ⟨0⟩, 131, some Sample.rootKey)) (by decide +kernel)
  obtain ⟨inst, ongoing, fields⟩ := Option.map_eq_some_iff.mp recorded
  simp only [Prod.mk.injEq] at fields
  exact ⟨es, s, inst, run, inputs, ongoing, fields⟩

/-- A second vote of the leader for the same key is rejected, also after other calls. -/
theorem second_vote_for_recorded_key :
    ∃ es s inst, Run (Acts act) (.new ⟨0⟩ keygenDomain twoCandidates) es s ∧
      s.inst = some inst ∧ ⟨0⟩ ∈ inst.completed ∧
      s.Rejects (calledByNode 0) (.voteAbort ⟨⟨0⟩, keygenDomain.id, inst.attemptId⟩) ∧
      s.Rejects (calledByNode 0)
        (.voteSuccess ⟨⟨0⟩, keygenDomain.id, inst.attemptId⟩ Sample.rootKey) := by
  obtain ⟨es, s, inst, run, _, ongoing, completed, _, _, recordedKey⟩ := leaderVotes_recorded
  have recorded : (⟨0⟩ : ParticipantId) ∈ inst.completed := by simp [completed]
  have caller : authenticatedParticipantId (calledByNode 0) twoCandidates.participants =
      .ok ⟨0⟩ := by decide +kernel
  obtain ⟨abort, success⟩ :=
    recorded_vote_stable_iff run ongoing recorded Run.nil caller Sample.rootKey
  refine ⟨es, s, inst, run, ongoing, recorded, abort, success.mpr ?_⟩
  intro current isCurrent _ _
  cases ongoing.symm.trans isCurrent
  exact recordedKey

/-- A second vote of the leader for another key is accepted and drops the attempt. -/
theorem second_vote_drops_attempt :
    ∃ es s inst, Run (Acts act) (.new ⟨0⟩ keygenDomain twoCandidates) es s ∧
      es.map Prod.fst = leaderVotes ∧ s.inst = some inst ∧ inst.completed = {⟨0⟩} ∧
      authenticatedParticipantId (calledByNode 0) s.parameters.participants = .ok ⟨0⟩ ∧
      s.act (calledByNode 0, .voteSuccess firstKeygenAttempt (.secp256k1 ⟨[8]⟩)) =
        some ({ s with inst := none }, .ok false) := by
  obtain ⟨es, s, inst, run, inputs, ongoing, completed, attempt, expires, recordedKey⟩ :=
    leaderVotes_recorded
  have same := same_run run
  have caller : authenticatedParticipantId (calledByNode 0) s.parameters.participants =
      .ok ⟨0⟩ := by
    rw [same.parameters]
    decide +kernel
  have active : inst.active (calledByNode 0) = true := by
    rw [KeyEventInstance.active, expires]
    decide
  have sameId : firstKeygenAttempt = s.attemptId inst := by
    rw [KeyEvent.attemptId, same.epochId, same.domain, attempt]
    rfl
  have verified := verifyVote_eq_ok_iff.mpr ⟨caller, ongoing, active, sameId⟩
  have dropped : s.voteSuccess (calledByNode 0) firstKeygenAttempt (.secp256k1 ⟨[8]⟩) =
      .ok (false, { s with inst := none }) :=
    voteSuccess_disagrees verified recordedKey (by decide)
  refine ⟨es, s, inst, run, inputs, ongoing, completed, caller, ?_⟩
  simp only [act, perform, dropped]

end KeyEvent

end MpcNetwork.Contract
