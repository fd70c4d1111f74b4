import Mathlib.Algebra.Field.ZMod
import Mathlib.Algebra.Polynomial.Degree.SmallDegree
import Mathlib.Algebra.Polynomial.Eval.Degree
import MpcNetwork.Contract.Steps
import MpcNetwork.Node.KeyEvents.Resharing

/-! # When a resharing keeps the key

The contract accepts a resharing when every proposed participant has voted for the key event, but a
vote does not say on which channel a node has got its share.  A follower does not compare the list
of its channel with the proposed participants, so the honest members may end up in several sessions
of one key event, each with shares of its own polynomial.  This cannot happen when the leader is
honest, or when any two lists that are taken up for the key event have an honest member in common,
provided that no channel is taken up for two key events.
-/

namespace MpcNetwork.Node.KeyEvents

open Contract (AccountId DomainConfig Env EpochId KeyEventId KeyForDomain Participants
  ResharingContractState SignatureScheme ThresholdParameters)
open Fallible Jobs Jobs.Job Keyshares Keyshares.KeyshareStorage Network Runs Sessions Threshold
open Threshold.OtBasedEcdsa (ReconstructionLowerBound)

variable {curves : Curves}

variable {channel : NetworkTaskChannel}

/-- The thresholds are not raised, and a list that is long enough has `newThreshold` members. -/
theorem thresholds_ok (done : thresholds scheme newThreshold oldParticipants channel =
      .ok (threshold, oldThreshold)) :
    threshold.value ≤ newThreshold.value ∧
      (threshold.value ≤ channel.participants.length → newThreshold.value < 2 ^ 64 →
        newThreshold.value ≤ channel.participants.length) := by
  unfold thresholds at done
  split at done
  · simp only [translated, bind_ok_iff, mapError_eq_ok, pure_ok_iff, Prod.mk.injEq] at done
    obtain ⟨_, ⟨maxMalicious, translates, rfl⟩, _, _, rfl, rfl⟩ := done
    obtain ⟨signers, five, half⟩ := RobustEcdsa.translateThreshold_ok translates
    rw [UInt64.toNat_ofNat'] at five half
    refine ⟨?_, ?_⟩
    · have := Nat.mod_le newThreshold.value (2 ^ 64)
      simp only
      omega
    · intro _ small
      unfold RobustEcdsa.getNumberOfSigners at signers
      split at signers
      · rename_i enough
        rw [UInt64.le_iff_toNat_le, UInt64.toNat_ofNat', UInt64.toNat_ofNat',
          Nat.mod_eq_of_lt small] at enough
        exact enough.trans (Nat.mod_le _ _)
      · cases signers
  · cases done
    exact ⟨Nat.le_refl _, fun enough _ => enough⟩

/-- What is known of a session that a node joins. -/
structure Prepared [CurveGroups curves] (channel : NetworkTaskChannel) (keyId : KeyEventId)
    (args : ResharingArgs curves) (session : ReshareSession curves) : Prop where
  channelId : session.channelId = channel.channelId
  members : ∀ id, id ∈ session.members ↔ id ∈ channel.participants
  distinct : session.members.Nodup
  own : channel.myParticipantId ∈ session.members
  threshold : 2 ≤ session.threshold.value ∧ session.threshold.value ≤ args.newThreshold.value
  large : args.newThreshold.value < 2 ^ 64 → args.newThreshold.value ≤ session.members.length
  key : ∃ key, args.previousKeyset.publicKey keyId.domainId = .ok key ∧
    schemeKey session.scheme (.ofExtended key) = .ok session.publicKey

variable {session : ReshareSession curves}

theorem mem_members {id : ParticipantId} :
    id ∈ session.members ↔ id.participant ∈ session.participants.participants := by
  unfold ReshareSession.members
  rw [List.mem_map]
  constructor
  · rintro ⟨_, inside, rfl⟩
    exact inside
  · intro inside
    exact ⟨_, inside, rfl⟩

variable {computation : ResharingComputation curves}

theorem concludeComputation_ok
    (returned : concludeComputation computation output s = (.ok share, t)) :
    output.publicKey = computation.session.publicKey ∧
      share = ⟨computation.keyId, .ofOutput computation.session.scheme output⟩ := by
  simp only [concludeComputation, bind_eq_ok, ofExcept_eq_ok, require_eq_ok, mapFailure_eq_ok,
    pure_eq_ok] at returned
  obtain ⟨_, _, ⟨sameKey, rfl⟩, _, _, _, rfl, rfl⟩ := returned
  exact ⟨sameKey, rfl⟩

variable {keyId : KeyEventId}

theorem maintains_concludeComputation :
    Maintains (Spent keyId : KeyshareStorage curves → Prop)
      (concludeComputation computation output) := by
  refine maintains_ofExcept.bind fun _ => ?_
  exact maintains_commitKeyshare.mapFailure.bind fun _ => maintains_pure

structure SameResharing (origin state : ResharingContractState) : Prop where
  keyset : state.previousRunningState.keyset = origin.previousRunningState.keyset
  parameters : state.resharingKey.parameters = origin.resharingKey.parameters

variable {state : ResharingContractState}

theorem sameResharing_of_perform (done : Contract.perform env self call = .ok (next, contract))
    (before : self.protocolState = .resharing state)
    (after : contract.protocolState = .resharing later)
    (sameEpoch : later.prospectiveEpochId = state.prospectiveEpochId) :
    SameResharing state later := by
  have transition := Contract.perform_transition done
  rw [before, after] at transition
  generalize call.starts = started at transition
  generalize next.bind _ = epoch at transition
  cases transition with
  | resharingMoved _ event _ _ moved =>
    cases moved <;> exact ⟨rfl, rfl⟩
  | resharingReplaced _ proposal first =>
    have := congrArg EpochId.value sameEpoch
    simp [ResharingContractState.prospectiveEpochId, Contract.KeyEvent.new] at this
  | keyReshared => exact ⟨rfl, rfl⟩

structure ResharingJob.Serves (job : ResharingJob curves) (state : ResharingContractState) :
    Prop where
  participants : job.participants = memberIds state.resharingKey.parameters.participants
  previousKeyset : job.args.previousKeyset = state.previousRunningState.keyset
  newThreshold : job.args.newThreshold = ⟨state.resharingKey.parameters.threshold⟩

variable {job : ResharingJob curves} {origin : ResharingContractState}

theorem ResharingJob.Serves.same (serves : job.Serves state) (same : SameResharing origin state) :
    job.Serves origin := by
  obtain ⟨participants, previousKeyset, newThreshold⟩ := serves
  rw [same.parameters] at participants newThreshold
  rw [same.keyset] at previousKeyset
  exact ⟨participants, previousKeyset, newThreshold⟩

def Committed (es : List (Action × Result curves)) (me : ParticipantId) (share : Keyshare curves) :
    Prop :=
  ∃ action, (action, .committed me share) ∈ es

def Voted (es : List (Action × Result curves)) (account : AccountId) (keyId : KeyEventId) : Prop :=
  ∃ env, env.signerAccountId = account ∧ (.call env (.voteReshared keyId), .called) ∈ es

variable {honest : ParticipantId → Bool} {node : ResharingNode curves}

section

variable {es : List (Action × Result curves)} {me : ParticipantId} {share : Keyshare curves}
  {keyId : KeyEventId}

theorem Committed.later (committed : Committed es me share) (e : Action × Result curves) :
    Committed (es ++ [e]) me share := by
  obtain ⟨action, inside⟩ := committed
  exact ⟨action, List.mem_append_left _ inside⟩

theorem committed_snoc (committed : Committed (es ++ [(action, result)]) me share) :
    Committed es me share ∨ result = .committed me share := by
  obtain ⟨earlier, inside⟩ := committed
  rcases List.mem_append.mp inside with old | last
  · exact .inl ⟨earlier, old⟩
  · exact .inr (Prod.mk.inj (List.mem_singleton.mp last)).2.symm

theorem voted_snoc (voted : Voted (es ++ [(action, result)]) account keyId) :
    Voted es account keyId ∨
      result = .called ∧ ∃ env, env.signerAccountId = account ∧
        action = .call env (.voteReshared keyId) := by
  obtain ⟨env, signer, inside⟩ := voted
  rcases List.mem_append.mp inside with old | last
  · exact .inl ⟨env, signer, old⟩
  · obtain ⟨isCall, isCalled⟩ := Prod.mk.inj (List.mem_singleton.mp last)
    exact .inr ⟨isCalled.symm, env, signer, isCall.symm⟩

/-- It works for this resharing, on sessions it joined, and voted only for committed shares. -/
structure NodeTracked (honest : ParticipantId → Bool) (origin : ResharingContractState)
    (es : List (Action × Result curves))
    (joined : List (Joined ParticipantId KeyEventId (ReshareSession curves)))
    (me : ParticipantId) (node : ResharingNode curves) : Prop where
  job : ∀ job, node.job = some job → honest me ∧ job.Serves origin
  spent : ∀ j ∈ joined, j.party = me → Spent j.topic node.storage
  running : ∀ c ∈ node.computations, ⟨me, c.keyId, c.session⟩ ∈ joined
  sent : ∀ keyId, .voteReshared keyId ∈ node.sent →
    ∃ share, Committed es me share ∧ share.keyId = keyId

theorem NodeTracked.later (tracked : NodeTracked honest origin es joined me node)
    (e : Action × Result curves) : NodeTracked honest origin (es ++ [e]) joined me node := by
  refine { tracked with sent := ?_ }
  intro keyId sent
  obtain ⟨share, committed, sameId⟩ := tracked.sent keyId sent
  exact ⟨share, committed.later e, sameId⟩

end

variable {writes : Nat}

namespace ResharingSystem

variable {honest : ParticipantId → Bool} {epochId : EpochId} {s : ResharingSystem curves}
  {me : ParticipantId}

/-- A step of a node that neither joins a session nor commits a share. -/
structure Works (honest : ParticipantId → Bool) (epochId : EpochId) (s : ResharingSystem curves)
    (me : ParticipantId) (node : ResharingNode curves) : Prop where
  spent : ∀ keyId, Spent keyId (s.nodes me).storage → Spent keyId node.storage
  computations : ∀ c ∈ node.computations, c ∈ (s.nodes me).computations
  sent : ∀ keyId, .voteReshared keyId ∈ node.sent → .voteReshared keyId ∈ (s.nodes me).sent
  job : ∀ job, node.job = some job →
    (∃ state, s.resharing epochId = some state ∧ honest me ∧ job.Serves state) ∨
      ∃ old, (s.nodes me).job = some old ∧ job.participants = old.participants ∧
        job.args = old.args

theorem works_stopped
    (works : s.Works honest epochId me node) :
    s.Works honest epochId me (node.stopped keyId stop) := by
  cases stop with
  | failed error =>
    refine ⟨works.spent, works.computations, ?_, works.job⟩
    intro other inside
    cases inside with
    | tail _ earlier => exact works.sent other earlier
  | panicked | pending => exact ⟨works.spent, by rintro _ ⟨⟩, works.sent, by rintro _ ⟨⟩⟩

theorem works_storage
    (spent : ∀ keyId, Spent keyId (s.nodes me).storage → Spent keyId storage)
    (kept : ∀ c ∈ computations, c ∈ (s.nodes me).computations) :
    s.Works honest epochId me { s.nodes me with
      storage := storage, computations := computations } :=
  ⟨spent, kept, fun _ inside => inside, fun job isJob => .inr ⟨job, isJob, rfl, rfl⟩⟩

theorem resharing_eq_some :
    s.resharing epochId = some state ↔
      s.contract.protocolState = .resharing state ∧ state.prospectiveEpochId = epochId := by
  unfold resharing
  split
  · rename_i other isResharing
    rw [isResharing]
    split
    · rename_i sameEpoch
      constructor
      · rintro ⟨⟩
        exact ⟨rfl, sameEpoch⟩
      · rintro ⟨⟨⟩, _⟩
        rfl
    · rename_i otherEpoch
      constructor
      · rintro ⟨⟩
      · rintro ⟨⟨⟩, sameEpoch⟩
        exact absurd sameEpoch otherEpoch
  · rename_i notResharing
    constructor
    · rintro ⟨⟩
    · rintro ⟨isResharing, _⟩
      exact absurd isResharing (notResharing state)

theorem forall_update {Q : ParticipantId → ResharingNode curves → Prop} (changed : Q me node)
    (others : ∀ id, id ≠ me → Q id (s.nodes id)) (id : ParticipantId) :
    Q id (Function.update s.nodes me node id) := by
  rw [Function.update_apply]
  split
  · rename_i same
    exact same ▸ changed
  · rename_i other
    exact others id other

theorem spent_after {ε α : Type} {job : Job ε (KeyshareStorage curves) α}
    {result : Except (Stop ε) α}
    (maintains : Maintains (Spent keyId) job) (spent : Spent keyId storage)
    (ran : job { storage with writesLeft := writes } = (result, after)) : Spent keyId after :=
  maintains.after (s := { storage with writesLeft := writes }) spent ran

end ResharingSystem

def leaderIsHonest (honest : ParticipantId → Bool) (participants : List ParticipantId) : Bool :=
  participants.any fun id => honest id && isLeaderForKeyEvent id participants

def separates (s : ResharingSystem curves) : Action → Bool
  | .takeUp _ channel _ => s.joined.all fun j =>
    j.session.channelId = channel.channelId → resharingTask channel.taskId = some j.topic
  | _ => true

/-- Any two lists that are taken up for one key event have an honest member in common. -/
def overlaps (honest : ParticipantId → Bool) (s : ResharingSystem curves) : Action → Bool
  | .takeUp _ channel _ => s.joined.all fun j => resharingTask channel.taskId = some j.topic →
      ∃ id ∈ channel.participants, honest id ∧ id ∈ j.session.members
  | _ => true

/-- The channel is of no other key event, and its leader is honest or its list overlaps. -/
def careful (honest : ParticipantId → Bool) (participants : List ParticipantId)
    (s : ResharingSystem curves) (action : Action) : Bool :=
  separates s action && (leaderIsHonest honest participants || overlaps honest s action)

theorem careful_iff :
    careful honest participants s action ↔ separates s action ∧
      (leaderIsHonest honest participants ∨ overlaps honest s action) := by
  rw [careful, Bool.and_eq_true, Bool.or_eq_true]

variable [CurveGroups curves]

theorem prepareSession_ok (done : prepareSession channel keyId domain args = .ok session) :
    Prepared channel keyId args session := by
  simp only [prepareSession, runKeyResharingClient, KeyResharingComputation.compute, bind_ok_iff,
    mapError_eq_ok, pure_ok_iff] at done
  obtain ⟨_, _, key, isKey, publicKey, parsed, _, _, _, ⟨⟨threshold, oldThreshold⟩, chosen, rfl⟩,
    ⟨list, oldList⟩, checked, rfl⟩ := done
  obtain ⟨⟨large, fits, made, own⟩, _⟩ := Dkg.assertReshareKeysInvariants_ok checked
  obtain ⟨lower, enough⟩ := thresholds_ok chosen
  have listed : ∀ id : ParticipantId, id.participant ∈ list.participants ↔
      id ∈ channel.participants := by
    intro id
    rw [ParticipantList.mem_of_new made, List.mem_map]
    constructor
    · rintro ⟨⟨raw⟩, inside, same⟩
      cases same
      exact inside
    · intro inside
      exact ⟨id, inside, rfl⟩
  have length : list.participants.length = channel.participants.length := by
    have distinct : (channel.participants.map ParticipantId.participant).Nodup := by
      by_contra repeated
      rw [ParticipantList.new_eq_none_iff.mpr repeated] at made
      cases made
    obtain ⟨_, again, same⟩ := ParticipantList.new_eq_some distinct
    cases made.symm.trans again
    rw [same.length_eq, List.length_map]
  refine ⟨rfl, ?_, ?_, mem_members.mpr own, ⟨large, lower⟩, ?_, key, isKey, parsed⟩
  · intro id
    rw [mem_members]
    exact listed id
  · refine list.distinct.map ?_
    rintro ⟨_⟩ ⟨_⟩ same
    cases same
    rfl
  · intro small
    rw [ReshareSession.members, List.length_map, length]
    exact enough (by simpa using fits) small

section

theorem startComputation_ok
    (returned : startComputation channel keys keyId domain args s = (.ok computation, t)) :
    computation.keyId = keyId ∧ Prepared channel keyId args computation.session ∧
      ¬ Spent keyId s ∧ Spent keyId t := by
  simp only [startComputation, bind_eq_ok, ofExcept_eq_ok, mapFailure_eq_ok,
    pure_eq_ok] at returned
  obtain ⟨_, _, ⟨_, rfl⟩, handle, _, started, session, _, ⟨prepared, rfl⟩, rfl, rfl⟩ := returned
  obtain ⟨_, unspent, spent⟩ := startResharingKey_ok started
  exact ⟨rfl, prepareSession_ok prepared, unspent, spent⟩

theorem maintains_startComputation :
    Maintains (Spent other : KeyshareStorage curves → Prop)
      (startComputation channel keys keyId domain args) := by
  refine maintains_ofExcept.bind fun _ => ?_
  refine maintains_startResharingKey.mapFailure.bind fun handle => ?_
  exact maintains_ofExcept.bind fun _ => maintains_pure

end

namespace ResharingSystem

variable {protocol : ReshareProtocol curves} {honest : ParticipantId → Bool} {epochId : EpochId}
  {s : ResharingSystem curves} {me : ParticipantId} {action : Action}

inductive Moves (protocol : ReshareProtocol curves) (honest : ParticipantId → Bool)
    (epochId : EpochId) (s : ResharingSystem curves) :
    Action → Result curves → ResharingSystem curves → Prop where
  | called {env : Env} {call : Contract.Call} {state : ResharingContractState}
      {next : Option Contract.ProtocolContractState} {contract : Contract.MpcContract}
      (resharing : s.resharing epochId = some state)
      (may : s.mayCall honest state.resharingKey.parameters.participants env call)
      (performed : Contract.perform env s.contract call = .ok (next, contract)) :
      Moves protocol honest epochId s (.call env call) .called { s with contract := contract }
  | refused {env : Env} {call : Contract.Call} :
      Moves protocol honest epochId s (.call env call) .refused s
  | worked {action : Action} {me : ParticipantId} {node : ResharingNode curves}
      (works : s.Works honest epochId me node) :
      Moves protocol honest epochId s action .worked (s.setNode me node)
  | joined {me : ParticipantId} {channel : NetworkTaskChannel} {writes : Nat} {keyId : KeyEventId}
      {job : ResharingJob curves} {computation : ResharingComputation curves}
      {storage : KeyshareStorage curves} (isJob : (s.nodes me).job = some job)
      (task : resharingTask channel.taskId = some keyId) (takes : job.Takes me channel keyId)
      (started : startComputation channel job.keyEvent.completedDomains keyId job.keyEvent.domain
        job.args { (s.nodes me).storage with writesLeft := writes } = (.ok computation, storage)) :
      Moves protocol honest epochId s (.takeUp me channel writes) .worked
        (s.join me ((s.nodes me).started storage computation) ⟨me, keyId, computation.session⟩)
  | committed {me : ParticipantId} {index writes : Nat} {computation : ResharingComputation curves}
      {share : Keyshare curves} {storage : KeyshareStorage curves}
      (running : computation ∈ (s.nodes me).computations)
      (attended : Attended ReshareSession.members honest s.joined computation.session)
      (concluded : concludeComputation computation
        (protocol.output computation.keyId computation.session me)
        { (s.nodes me).storage with writesLeft := writes } = (.ok share, storage)) :
      Moves protocol honest epochId s (.finish me index true writes) (.committed me share)
        (s.setNode me ({ s.nodes me with
          computations := (s.nodes me).computations.eraseIdx index }.reshared storage
            computation.keyId))

theorem act_moves (done : act protocol honest epochId s action = some (t, result)) :
    Moves protocol honest epochId s action result t := by
  cases action with
  | call env call =>
    simp only [act, ResharingSystem.call, bind_some_iff] at done
    obtain ⟨state, resharing, done⟩ := done
    split at done
    · rename_i may
      split at done
      · rename_i next contract performed
        cases done
        exact .called resharing may performed
      · cases done
        exact .refused
    · cases done
  | observe me blockHeight =>
    simp only [act, observe, bind_some_iff] at done
    obtain ⟨job, isJob, done⟩ := done
    split at done
    · cases done
      refine .worked ⟨fun _ spent => spent, fun _ inside => inside, fun _ inside => inside, ?_⟩
      rintro _ ⟨⟩
      exact .inr ⟨job, isJob, rfl, rfl⟩
    · cases done
      exact .worked ⟨fun _ spent => spent, by simp, fun _ inside => inside, by simp⟩
  | startJob me blockHeight writes =>
    simp only [act, startJob, bind_some_iff] at done
    obtain ⟨state, resharing, entry, _, done⟩ := done
    split at done
    · rename_i isHonest
      cases done
      refine .worked ⟨?_, by rintro _ ⟨⟩, fun _ inside => inside, ?_⟩
      · exact fun keyId spent => spent_after maintains_updatePermanentKeyshares spent rfl
      · intro job isJob
        refine .inl ⟨state, resharing, isHonest, ?_⟩
        simp only at isJob
        split at isJob
        · cases isJob
          exact ⟨rfl, rfl, rfl⟩
        · split at isJob <;> cases isJob
          exact ⟨rfl, rfl, rfl⟩
        · cases isJob
    · cases done
  | takeUp me channel writes =>
    simp only [act, takeUp, bind_some_iff] at done
    obtain ⟨job, isJob, keyId, task, done⟩ := done
    split at done
    · rename_i takes
      split at done
      · rename_i computation storage started
        cases done
        exact .joined isJob task takes started
      · rename_i stop storage ran
        cases done
        refine .worked (works_stopped (works_storage ?_ fun _ inside => inside))
        exact fun other spent => spent_after maintains_startComputation spent ran
    · cases done
  | finish me index succeeds writes =>
    simp only [act, finish, bind_some_iff] at done
    obtain ⟨computation, found, done⟩ := done
    have fewer : ∀ c ∈ (s.nodes me).computations.eraseIdx index, c ∈ (s.nodes me).computations :=
      fun c inside => List.mem_of_mem_eraseIdx inside
    split at done
    · rename_i succeeds
      split at done
      · rename_i attended
        split at done
        · rename_i share storage concluded
          cases succeeds
          cases done
          exact .committed (List.mem_of_getElem? found) attended concluded
        · rename_i stop storage ran
          cases done
          refine .worked (works_stopped (works_storage ?_ fewer))
          exact fun other spent => spent_after maintains_concludeComputation spent ran
      · cases done
    · cases done
      exact .worked (works_stopped (works_storage (fun _ spent => spent) fewer))
  | expire me index =>
    cases done
    exact .worked (works_storage (fun _ spent => spent)
      fun c inside => List.mem_of_mem_eraseIdx inside)

end ResharingSystem

/-- Who joins a session and what the session is for. -/
structure Founded (honest : ParticipantId → Bool) (origin : ResharingContractState)
    (j : Joined ParticipantId KeyEventId (ReshareSession curves)) : Prop where
  isHonest : honest j.party
  own : j.party ∈ j.session.members
  members : ∀ id ∈ j.session.members, id ∈ memberIds origin.resharingKey.parameters.participants
  distinct : j.session.members.Nodup
  leads : isLeaderForKeyEvent j.party (memberIds origin.resharingKey.parameters.participants) →
    ∀ id ∈ memberIds origin.resharingKey.parameters.participants, id ∈ j.session.members
  threshold : 2 ≤ j.session.threshold.value ∧
    j.session.threshold.value ≤ origin.resharingKey.parameters.threshold
  large : origin.resharingKey.parameters.threshold < 2 ^ 64 →
    origin.resharingKey.parameters.threshold ≤ j.session.members.length
  key : ∃ key, origin.previousRunningState.keyset.publicKey j.topic.domainId = .ok key ∧
    schemeKey j.session.scheme (.ofExtended key) = .ok j.session.publicKey

theorem founded_of_prepared (isHonest : honest me) (serves : job.Serves origin)
    (takes : job.Takes me channel keyId) (prepared : Prepared channel keyId job.args session) :
    Founded honest origin ⟨me, keyId, session⟩ := by
  obtain ⟨rfl, accepts, _⟩ := takes
  obtain ⟨participants, previousKeyset, newThreshold⟩ := serves
  have threshold := prepared.threshold
  have large := prepared.large
  have key := prepared.key
  rw [newThreshold] at threshold large
  rw [previousKeyset] at key
  refine ⟨isHonest, prepared.own, ?_, prepared.distinct, ?_, threshold, large, key⟩
  · intro id isMember
    have listed := (prepared.members id).mp isMember
    rw [← participants]
    split at accepts
    · rwa [accepts.2.2] at listed
    · exact accepts id listed
  · intro leads id isMember
    rw [← participants] at leads isMember
    rw [if_pos leads] at accepts
    refine (prepared.members id).mpr ?_
    rwa [accepts.2.2]

/-- Shares come out of sessions that everybody has joined, and votes come after shares. -/
structure Tracked (protocol : ReshareProtocol curves) (honest : ParticipantId → Bool)
    (origin : ResharingContractState) (es : List (Action × Result curves))
    (s : ResharingSystem curves) : Prop where
  contract : ∀ state, s.resharing origin.prospectiveEpochId = some state →
    SameResharing origin state
  nodes : ∀ me, NodeTracked honest origin es s.joined me (s.nodes me)
  once : Once s.joined
  founded : ∀ j ∈ s.joined, Founded honest origin j
  committed : ∀ me share, Committed es me share → ∃ session,
    ⟨me, share.keyId, session⟩ ∈ s.joined ∧
    Attended ReshareSession.members honest s.joined session ∧
    (protocol.output share.keyId session me).publicKey = session.publicKey ∧
    share.data = .ofOutput session.scheme (protocol.output share.keyId session me)
  voted : ∀ entry ∈ origin.resharingKey.parameters.participants.participants,
    honest ⟨entry.2.1.id⟩ → ∀ keyId, Voted es entry.1 keyId →
      ∃ share, Committed es ⟨entry.2.1.id⟩ share ∧ share.keyId = keyId

section

open ResharingSystem

variable {protocol : ReshareProtocol curves} {honest : ParticipantId → Bool}
  {origin : ResharingContractState} {es : List (Action × Result curves)}
  {s t : ResharingSystem curves} {keyId : KeyEventId}

section

variable (tracked : Tracked protocol honest origin es s)

include tracked

/-- What is noted of an event must be true of the system already. -/
theorem Tracked.noted (commits : ∀ me share, result = .committed me share → ∃ session,
      ⟨me, share.keyId, session⟩ ∈ s.joined ∧
      Attended ReshareSession.members honest s.joined session ∧
      (protocol.output share.keyId session me).publicKey = session.publicKey ∧
      share.data = .ofOutput session.scheme (protocol.output share.keyId session me))
    (votes : ∀ entry ∈ origin.resharingKey.parameters.participants.participants,
      honest ⟨entry.2.1.id⟩ → ∀ env keyId, env.signerAccountId = entry.1 →
        action = .call env (.voteReshared keyId) → result = .called →
          .voteReshared keyId ∈ (s.nodes ⟨entry.2.1.id⟩).sent) :
    Tracked protocol honest origin (es ++ [(action, result)]) s := by
  refine { tracked with nodes := fun me => (tracked.nodes me).later _, committed := ?_, voted := ?_ }
  · intro me share committed
    rcases committed_snoc committed with earlier | isNow
    · exact tracked.committed me share earlier
    · exact commits me share isNow
  · intro entry isMember isHonest keyId voted
    have earlier : ∃ share, Committed es ⟨entry.2.1.id⟩ share ∧ share.keyId = keyId := by
      rcases voted_snoc voted with before | ⟨isCalled, env, signer, isVote⟩
      · exact tracked.voted entry isMember isHonest keyId before
      · exact (tracked.nodes _).sent keyId
          (votes entry isMember isHonest env keyId signer isVote isCalled)
    obtain ⟨share, committed, sameId⟩ := earlier
    exact ⟨share, committed.later _, sameId⟩

theorem Tracked.worked (works : s.Works honest origin.prospectiveEpochId me node) :
    NodeTracked honest origin es s.joined me node := by
  have before := tracked.nodes me
  refine ⟨?_, ?_, ?_, ?_⟩
  · intro job isJob
    rcases works.job job isJob with
      ⟨state, resharing, isHonest, serves⟩ | ⟨old, isOld, same, sameArgs⟩
    · exact ⟨isHonest, serves.same (tracked.contract state resharing)⟩
    · obtain ⟨isHonest, serves⟩ := before.job old isOld
      exact ⟨isHonest, same ▸ serves.participants, sameArgs ▸ serves.previousKeyset,
        sameArgs ▸ serves.newThreshold⟩
  · exact fun j inside isMe => works.spent j.topic (before.spent j inside isMe)
  · exact fun c inside => before.running c (works.computations c inside)
  · exact fun keyId sent => before.sent keyId (works.sent keyId sent)

theorem Tracked.setNode (changed : NodeTracked honest origin es s.joined me node) :
    Tracked protocol honest origin es (s.setNode me node) := by
  refine { tracked with contract := tracked.contract, nodes := ?_ }
  exact forall_update (Q := NodeTracked honest origin es s.joined) changed
    fun id _ => tracked.nodes id

theorem Tracked.joins {channel : NetworkTaskChannel} (isJob : (s.nodes me).job = some job)
    (takes : job.Takes me channel keyId)
    (started : startComputation channel job.keyEvent.completedDomains keyId job.keyEvent.domain
      job.args { (s.nodes me).storage with writesLeft := writes } = (.ok computation, storage)) :
    Tracked protocol honest origin es (s.join me ((s.nodes me).started storage computation)
      ⟨me, keyId, computation.session⟩) := by
  have before := tracked.nodes me
  obtain ⟨isHonest, serves⟩ := before.job job isJob
  obtain ⟨rfl, prepared, unspent, spent⟩ := startComputation_ok started
  have founded := founded_of_prepared isHonest serves takes prepared
  refine { tracked with
    contract := tracked.contract, nodes := ?_, once := ?_, founded := ?_, committed := ?_ }
  · refine forall_update (Q := NodeTracked honest origin es _) ?_ ?_
    · refine ⟨before.job, ?_, ?_, before.sent⟩
      · refine List.forall_mem_cons.mpr ⟨fun _ => spent, ?_⟩
        intro j inside isMe
        exact spent_after maintains_startComputation (before.spent j inside isMe) started
      · refine List.forall_mem_cons.mpr ⟨List.mem_cons_self, ?_⟩
        exact fun c inside => List.mem_cons_of_mem _ (before.running c inside)
    · intro id other
      have same := tracked.nodes id
      refine ⟨same.job, ?_, ?_, same.sent⟩
      · exact List.forall_mem_cons.mpr ⟨fun isMe => absurd isMe.symm other, same.spent⟩
      · exact fun c inside => List.mem_cons_of_mem _ (same.running c inside)
  · refine tracked.once.cons ?_
    intro j inside sameParty sameTopic
    have used := before.spent j inside sameParty.symm
    rw [← sameTopic] at used
    exact unspent used
  · exact List.forall_mem_cons.mpr ⟨founded, tracked.founded⟩
  · intro id share committed
    obtain ⟨session, inside, attended, rest⟩ := tracked.committed id share committed
    exact ⟨session, List.mem_cons_of_mem _ inside,
      attended.mono fun j inside => List.mem_cons_of_mem _ inside, rest⟩

/-- The vote of an honest member comes after its share. -/
theorem Tracked.calls {call : Contract.Call} {contract : Contract.MpcContract}
    (resharing : s.resharing origin.prospectiveEpochId = some state)
    (may : s.mayCall honest state.resharingKey.parameters.participants env call)
    (performed : Contract.perform env s.contract call = .ok (next, contract)) :
    Tracked protocol honest origin (es ++ [(.call env call, .called)])
      { s with contract := contract } := by
  have same := tracked.contract state resharing
  have noted : Tracked protocol honest origin (es ++ [(.call env call, .called)]) s := by
    refine tracked.noted (by simp) ?_
    rintro entry isMember isHonest voter keyId signer isVote _
    cases isVote
    rw [same.parameters] at may
    have allowed := List.all_eq_true.mp may entry isMember
    simp only [decide_eq_true_eq] at allowed
    exact allowed signer.symm isHonest
  refine { noted with contract := ?_ }
  intro later still
  obtain ⟨before, epoch⟩ := resharing_eq_some.mp resharing
  obtain ⟨after, laterEpoch⟩ := resharing_eq_some.mp still
  have kept := sameResharing_of_perform performed before after (laterEpoch.trans epoch.symm)
  exact ⟨kept.keyset.trans same.keyset, kept.parameters.trans same.parameters⟩

theorem Tracked.commits (running : computation ∈ (s.nodes me).computations)
    (attended : Attended ReshareSession.members honest s.joined computation.session)
    (concluded : concludeComputation computation
      (protocol.output computation.keyId computation.session me)
      { (s.nodes me).storage with writesLeft := writes } = (.ok share, storage)) :
    Tracked protocol honest origin (es ++ [(action, .committed me share)])
      (s.setNode me ({ s.nodes me with
        computations := (s.nodes me).computations.eraseIdx index }.reshared storage
          computation.keyId)) := by
  obtain ⟨sameKey, isShare⟩ := concludeComputation_ok concluded
  have before := tracked.nodes me
  have noted : Tracked protocol honest origin (es ++ [(action, .committed me share)]) s := by
    refine tracked.noted ?_ (by simp)
    rintro _ _ ⟨⟩
    subst isShare
    exact ⟨computation.session, before.running computation running, attended, sameKey, rfl⟩
  refine noted.setNode ⟨before.job, ?_, ?_, ?_⟩
  · intro j inside isMe
    exact spent_after maintains_concludeComputation (before.spent j inside isMe) concluded
  · exact fun c inside => before.running c (List.mem_of_mem_eraseIdx inside)
  · intro keyId sent
    rcases List.mem_cons.mp sent with isNow | earlier
    · cases isNow
      exact ⟨share, ⟨action, by simp⟩, congrArg Keyshare.keyId isShare⟩
    · exact (before.later _).sent keyId earlier

theorem tracked_step
    (done : Acts (act protocol honest origin.prospectiveEpochId) s (action, result) t) :
    Tracked protocol honest origin (es ++ [(action, result)]) t := by
  cases act_moves done with
  | called resharing may performed => exact tracked.calls resharing may performed
  | refused => exact tracked.noted (by simp) (by simp)
  | worked works => exact (tracked.setNode (tracked.worked works)).noted (by simp) (by simp)
  | joined isJob _ takes started =>
    exact (tracked.joins isJob takes started).noted (by simp) (by simp)
  | committed running attended concluded => exact tracked.commits running attended concluded

end

/-- The committed shares are evaluations at the ids of one polynomial below the proposed threshold,
    with the secret of the domain's key at zero. -/
def OnOnePolynomial (honest : ParticipantId → Bool) (origin : ResharingContractState)
    (es : List (Action × Result curves)) (keyId : KeyEventId) : Prop :=
  ∃ key scheme publicKey, ∃ f : Polynomial (curves.ofScheme scheme).Scalar,
    origin.previousRunningState.keyset.publicKey keyId.domainId = .ok key ∧
    schemeKey scheme (.ofExtended key) = .ok publicKey ∧
    f.degree < origin.resharingKey.parameters.threshold ∧
    f.eval 0 • CurveGroup.generator = publicKey ∧
    ∀ id ∈ memberIds origin.resharingKey.parameters.participants, honest id →
      ∀ share, Committed es id share → share.keyId = keyId →
        share.data = .ofOutput scheme ⟨f.eval (Dkg.scalar _ id.participant), publicKey⟩

/-- If everybody has voted, everybody is in the leader's session, or the sessions are one. -/
theorem Tracked.onOnePolynomial (tracked : Tracked protocol honest origin es s)
    (separate : Separate s.joined)
    (meets : leaderIsHonest honest (memberIds origin.resharingKey.parameters.participants) ∨
      Overlapping ReshareSession.members honest s.joined)
    (someHonest : ∃ id ∈ memberIds origin.resharingKey.parameters.participants, honest id)
    (voted : ∀ entry ∈ origin.resharingKey.parameters.participants.participants,
      Voted es entry.1 keyId) : OnOnePolynomial honest origin es keyId := by
  have committed : ∀ id ∈ memberIds origin.resharingKey.parameters.participants, honest id →
      ∃ share, Committed es id share ∧ share.keyId = keyId := by
    intro id isMember isHonest
    obtain ⟨entry, inside, rfl⟩ := List.mem_map.mp isMember
    exact tracked.voted entry inside isHonest keyId (voted entry inside)
  obtain ⟨first, isMember, isHonest, leads⟩ : ∃ id ∈
      memberIds origin.resharingKey.parameters.participants, honest id ∧
        (isLeaderForKeyEvent id (memberIds origin.resharingKey.parameters.participants) ∨
          Overlapping ReshareSession.members honest s.joined) := by
    rcases meets with leads | overlapping
    · obtain ⟨id, isMember, both⟩ := List.any_eq_true.mp leads
      rw [Bool.and_eq_true] at both
      exact ⟨id, isMember, both.1, .inl both.2⟩
    · obtain ⟨id, isMember, isHonest⟩ := someHonest
      exact ⟨id, isMember, isHonest, .inr overlapping⟩
  obtain ⟨firstShare, firstCommitted, rfl⟩ := committed first isMember isHonest
  obtain ⟨session, joined, attended, _⟩ := tracked.committed first firstShare firstCommitted
  have founded := tracked.founded _ joined
  have together : ∀ id ∈ memberIds origin.resharingKey.parameters.participants, honest id →
      ∀ other, ⟨id, firstShare.keyId, other⟩ ∈ s.joined →
        Attended ReshareSession.members honest s.joined other → session = other := by
    intro id isMember isHonest other alsoJoined alsoAttended
    rcases leads with leads | overlapping
    · exact session_of_member tracked.once separate joined alsoJoined rfl attended isHonest
        (founded.leads leads id isMember)
    · exact session_of_common tracked.once separate overlapping joined alsoJoined rfl attended
        alsoAttended
  obtain ⟨key, isKey, parsed⟩ := founded.key
  obtain ⟨f, degree, atZero, evaluates⟩ :=
    protocol.shares firstShare.keyId session founded.threshold.1
  refine ⟨key, session.scheme, session.publicKey, f, isKey, parsed, ?_, atZero, ?_⟩
  · exact degree.trans_le (Nat.cast_le.mpr founded.threshold.2)
  · intro id isMember isHonest share isCommitted sameId
    obtain ⟨other, alsoJoined, alsoAttended, sameKey, data⟩ :=
      tracked.committed id share isCommitted
    rw [sameId] at alsoJoined sameKey data
    obtain rfl := together id isMember isHonest other alsoJoined alsoAttended
    have value := evaluates id _ ⟨(tracked.founded _ alsoJoined).own, rfl⟩
    rw [data, ← value, ← sameKey]

/-- No node has done anything yet. What the nodes have stored is arbitrary. -/
structure ResharingSystem.Begins (s : ResharingSystem curves) (origin : ResharingContractState) :
    Prop where
  contract : s.contract.protocolState = .resharing origin
  nodes : ∀ id, (s.nodes id).job = none ∧ (s.nodes id).computations = [] ∧ (s.nodes id).sent = []
  joined : s.joined = []

theorem ResharingSystem.Begins.tracked (begins : s.Begins origin) :
    Tracked protocol honest origin [] s := by
  refine ⟨?_, ?_, ?_, ?_, ?_, ?_⟩
  · intro state resharing
    have same := (resharing_eq_some.mp resharing).1
    rw [begins.contract] at same
    cases same
    exact ⟨rfl, rfl⟩
  · intro me
    obtain ⟨noJob, noComputations, nothingSent⟩ := begins.nodes me
    refine ⟨?_, ?_, ?_, ?_⟩
    · rw [noJob]
      rintro _ ⟨⟩
    · rw [begins.joined]
      rintro _ ⟨⟩
    · rw [noComputations]
      rintro _ ⟨⟩
    · rw [nothingSent]
      rintro _ ⟨⟩
  · rw [begins.joined]
    rintro _ ⟨⟩
  · rw [begins.joined]
    rintro _ ⟨⟩
  · rintro me share ⟨_, ⟨⟩⟩
  · rintro entry _ _ keyId ⟨_, _, ⟨⟩⟩

theorem tracked_run (begins : s.Begins origin)
    (run : Run (Acts (act protocol honest origin.prospectiveEpochId)) s es t) :
    Tracked protocol honest origin es t :=
  run.invariant (Tracked protocol honest origin) begins.tracked
    fun _ _ _ _ _ tracked done => tracked_step tracked done

theorem joined_of_act (done : act protocol honest epochId s action = some (t, result)) :
    t.joined = s.joined ∨ ∃ me channel writes keyId, ∃ job : ResharingJob curves, ∃ session,
      action = .takeUp me channel writes ∧ resharingTask channel.taskId = some keyId ∧
      (s.nodes me).job = some job ∧ Prepared channel keyId job.args session ∧
      t.joined = ⟨me, keyId, session⟩ :: s.joined := by
  cases act_moves done with
  | called | refused | worked | committed => exact .inl rfl
  | @joined me channel writes keyId job computation storage isJob task _ started =>
    obtain ⟨rfl, prepared, _⟩ := startComputation_ok started
    exact .inr ⟨me, channel, writes, _, job, _, rfl, task, isJob, prepared, rfl⟩

theorem separate_run (begins : s.Begins origin)
    (run : Run (Guarded (fun s e => separates s e.1)
      (Acts (act protocol honest origin.prospectiveEpochId))) s es t) : Separate t.joined := by
  refine run.invariant (fun _ s => Separate s.joined) ?_ ?_
  · rw [begins.joined]
    rintro _ ⟨⟩
  · rintro _ s ⟨action, result⟩ t _ separate ⟨allowed, done⟩
    rcases joined_of_act done with same |
      ⟨me, channel, writes, keyId, job, session, rfl, task, _, prepared, added⟩
    · rwa [same]
    · rw [added]
      refine separate.cons ?_
      intro j inside sameSession
      have apart := of_decide_eq_true (List.all_eq_true.mp allowed j inside)
      have own := apart (by rw [sameSession]; exact prepared.channelId)
      exact Option.some.inj (own.symm.trans task)

theorem overlapping_run (begins : s.Begins origin)
    (run : Run (Guarded (fun s e => overlaps honest s e.1)
      (Acts (act protocol honest origin.prospectiveEpochId))) s es t) :
    Overlapping ReshareSession.members honest t.joined := by
  refine run.invariant (fun _ s => Overlapping ReshareSession.members honest s.joined) ?_ ?_
  · rw [begins.joined]
    rintro _ ⟨⟩
  · rintro _ s ⟨action, result⟩ t before overlapping ⟨allowed, done⟩
    have tracked := tracked_run begins (before.unguarded.snoc done)
    rcases joined_of_act done with same |
      ⟨me, channel, writes, keyId, job, session, rfl, task, _, prepared, added⟩
    · rwa [same]
    · have founded := tracked.founded ⟨me, keyId, session⟩ (added ▸ List.mem_cons_self)
      rw [added]
      refine overlapping.cons ⟨founded.isHonest, founded.own⟩ ?_
      rintro j inside rfl
      have meets := of_decide_eq_true (List.all_eq_true.mp allowed j inside)
      obtain ⟨id, listed, isHonest, isMember⟩ := meets task
      exact ⟨id, isHonest, isMember, (prepared.members id).mpr listed⟩

/-- Valid parameters with fewer malicious members than the threshold leave an honest one. -/
theorem exists_honest {parameters : ThresholdParameters} (valid : parameters.validate = .ok ())
    (few : ((memberIds parameters.participants).filter fun id => !honest id).length <
      min k parameters.threshold) : ∃ id ∈ memberIds parameters.participants, honest id := by
  by_contra none
  have all : (memberIds parameters.participants).filter (fun id => !honest id) =
      memberIds parameters.participants := by
    refine List.filter_eq_self.mpr fun id isMember => ?_
    simp only [Bool.not_eq_true', Bool.eq_false_iff]
    exact fun isHonest => none ⟨id, isMember, isHonest⟩
  simp only [ThresholdParameters.validate, ThresholdParameters.validateThreshold, bind_ok_iff,
    require_eq_ok] at valid
  obtain ⟨_, ⟨_, fits, _⟩, _⟩ := valid
  rw [all, memberIds, List.length_map] at few
  exact absurd (few.trans_le (min_le_right _ _)) (Nat.not_lt.mpr fits)

/-- If channels are taken up with care, the honest members that have all voted for a key event hold
    shares of the old secret on one polynomial. -/
theorem reshared_shares_on_one_polynomial (begins : s.Begins origin)
    (valid : origin.resharingKey.parameters.validate = .ok ())
    (few : ((memberIds origin.resharingKey.parameters.participants).filter
      fun id => !honest id).length < min origin.previousRunningState.parameters.threshold
        origin.resharingKey.parameters.threshold)
    (run : Run (Guarded
      (fun s e => careful honest (memberIds origin.resharingKey.parameters.participants) s e.1)
      (Acts (act protocol honest origin.prospectiveEpochId))) s es t)
    (voted : ∀ entry ∈ origin.resharingKey.parameters.participants.participants,
      Voted es entry.1 keyId) : OnOnePolynomial honest origin es keyId := by
  have separate : Separate t.joined := by
    refine separate_run begins (run.mono fun s e t taken => ⟨?_, taken.2⟩)
    exact (careful_iff.mp taken.1).1
  have meets : leaderIsHonest honest (memberIds origin.resharingKey.parameters.participants) ∨
      Overlapping ReshareSession.members honest t.joined := by
    by_cases leads : leaderIsHonest honest (memberIds origin.resharingKey.parameters.participants)
    · exact .inl leads
    · refine .inr (overlapping_run begins (run.mono fun s e t taken => ⟨?_, taken.2⟩))
      exact (careful_iff.mp taken.1).2.resolve_left leads
  have someHonest := exists_honest valid few
  exact (tracked_run begins run.unguarded).onOnePolynomial separate meets someHonest voted

end

/-! ## A resharing over a small field

The scalars and the elements are the residues modulo 101, and a secret is its own public key. -/

private def residueCurve : Curve := ⟨ZMod 101, ZMod 101⟩

private def residueCurves : Curves where
  secp256k1 := residueCurve
  ed25519 := residueCurve
  bls12381 := residueCurve
  encodeSecp256k1 := fun residue : ZMod 101 => some [.ofNat residue.val]
  encodeEd25519 := fun residue : ZMod 101 => [.ofNat residue.val]
  encodeBls12381 := fun residue : ZMod 101 => [.ofNat residue.val]

private theorem prime_hundredOne : Nat.Prime 101 := by decide +kernel

private instance residueGroup : CurveGroup residueCurve :=
  haveI : Fact (Nat.Prime 101) := ⟨prime_hundredOne⟩
  { field := inferInstanceAs (Field (ZMod 101))
    group := inferInstanceAs (AddCommGroup (ZMod 101))
    module := inferInstanceAs (Module (ZMod 101) (ZMod 101))
    generator := (1 : ZMod 101)
    decode := fun bytes => bytes.head?.map fun byte => (byte.toNat : ZMod 101) }

private instance : CurveGroups residueCurves := ⟨residueGroup, residueGroup, residueGroup⟩

private def residueShare (slope secret : residueCurve.Scalar) (id : ParticipantId) :
    KeygenOutput residueCurve :=
  ⟨slope * Dkg.scalar _ id.participant + secret, secret⟩

private def schemeShare (slope : ZMod 101) : (scheme : SignatureScheme) →
    (residueCurves.ofScheme scheme).Element → ParticipantId →
    KeygenOutput (residueCurves.ofScheme scheme)
  | .secp256k1, secret, id | .v2Secp256k1, secret, id | .ed25519, secret, id
  | .bls12381, secret, id => residueShare slope secret id

private theorem residueShare_shares (slope secret : residueCurve.Scalar) (large : 2 ≤ threshold)
    {among : ParticipantId → Prop} :
    @SharesSecret residueCurve _ secret threshold fun id share =>
      among id ∧ (residueShare slope secret id).privateShare = share := by
  refine ⟨.C slope * .X + .C secret, ?_, ?_, ?_⟩
  · exact Polynomial.degree_linear_le.trans_lt (by exact_mod_cast large)
  · simp only [Polynomial.eval_add, Polynomial.eval_mul, Polynomial.eval_C, Polynomial.eval_X,
      mul_zero, zero_add]
    exact mul_one (M := ZMod 101) secret
  · rintro id _ ⟨_, rfl⟩
    simp only [Polynomial.eval_add, Polynomial.eval_mul, Polynomial.eval_C, Polynomial.eval_X]
    rfl

private def lines (slope : ChannelId → ZMod 101) : ReshareProtocol residueCurves where
  output := fun _ session id =>
    schemeShare (slope session.channelId) session.scheme session.publicKey id
  shares := by
    rintro keyId ⟨channelId, scheme, participants, threshold, oldParticipants, publicKey⟩ large
    cases scheme <;> exact residueShare_shares _ _ large

private def accountOf (n : Nat) : AccountId :=
  if n < 4 then Contract.Sample.account n else ⟨"erin.near"⟩

/-- The participants with the ids below `n`. -/
private def firstMembers (n threshold : Nat) : ThresholdParameters where
  participants :=
    ⟨⟨.ofNat n⟩, (List.range n).map fun i => (accountOf i, ⟨.ofNat i⟩, Contract.Sample.info i)⟩
  threshold := threshold

private def runningWith (parameters : ThresholdParameters) : Contract.RunningContractState :=
  .new (Contract.DomainRegistry.default.addDomain .secp256k1 .sign).2
    ⟨⟨0⟩, [⟨⟨0⟩, .secp256k1 ⟨[1, 3]⟩, ⟨0⟩⟩]⟩ parameters .default

private def refreshing (parameters : ThresholdParameters) : ResharingContractState where
  previousRunningState := runningWith parameters
  resharedKeys := []
  resharingKey := .new ⟨1⟩ ⟨⟨0⟩, .secp256k1, .sign⟩ parameters
  cancellationRequests := ∅

private def oldSecret : ZMod 101 := (3 : Nat)

/-- The shares of the old key are on a line without slope. -/
private def beforeRefresh (parameters : ThresholdParameters) : ResharingSystem residueCurves where
  contract := { Contract.MpcContract.fresh (runningWith parameters) ⟨30, 15, 15⟩ with
    protocolState := .resharing (refreshing parameters) }
  nodes := fun _ =>
    { storage :=
        ⟨∅, some (.current ⟨⟨0⟩, [⟨⟨⟨0⟩, ⟨0⟩, ⟨0⟩⟩, .secp256k1 ⟨oldSecret, oldSecret⟩⟩]⟩), 0⟩
      job := none
      computations := []
      sent := [] }
  joined := []

private theorem beforeRefresh_begins (parameters : ThresholdParameters) :
    (beforeRefresh parameters).Begins (refreshing parameters) :=
  ⟨rfl, fun _ => ⟨rfl, rfl, rfl⟩, rfl⟩

private def refreshId : KeyEventId := ⟨⟨1⟩, ⟨0⟩, ⟨0⟩⟩

private def signedBy (n : Nat) : Env where
  signerAccountId := accountOf n
  predecessorAccountId := accountOf n
  blockHeight := 100
  prepaidGas := 0
  attachedDeposit := 0
  isCallerAnAttestedParticipant := fun _ => true
  reverifyParticipant := fun _ => true

private def refreshChannel (number : Nat) (members : List Nat) (me : Nat) :
    NetworkTaskChannel where
  channelId := ⟨⟨.ofNat 128 number⟩⟩
  taskId := .ecdsaTaskId (.keyResharing refreshId)
  leader := ⟨0⟩
  myParticipantId := ⟨.ofNat me⟩
  participants := members.map fun n => ⟨.ofNat n⟩
  connectionVersions := ∅
  receiver := ⟨⟨.ofNat 128 number⟩⟩

/-- The leader starts the key event, and every honest member takes up the channel it is sent. -/
private def refreshCalls (all : List Nat) (honest : List (Nat × Nat × List Nat)) : List Action :=
  [.call (signedBy 0) (.startReshareInstance refreshId)] ++
    honest.map (fun h => .startJob ⟨.ofNat h.1⟩ 100 5) ++
    honest.map (fun h => .takeUp ⟨.ofNat h.1⟩ (refreshChannel h.2.1 h.2.2 h.1) 5) ++
    honest.map (fun h => .finish ⟨.ofNat h.1⟩ 0 true 5) ++
    all.map fun n => .call (signedBy n) (.voteReshared refreshId)

/-- The members 1 and 2 are on one channel, 3 and 4 on another. -/
private def splitSessions : List Action :=
  refreshCalls [0, 1, 2, 3, 4]
    [(1, 1, [0, 1, 2]), (2, 1, [0, 1, 2]), (3, 2, [0, 3, 4]), (4, 2, [0, 3, 4])]

private def slopes (channelId : ChannelId) : residueCurve.Scalar :=
  if channelId = ⟨⟨1⟩⟩ then (0 : ZMod 101) else (1 : ZMod 101)

private def notLeader (id : ParticipantId) : Bool := id ≠ ⟨0⟩

private def committedShare (n share : Nat) : Result residueCurves :=
  .committed ⟨.ofNat n⟩ ⟨refreshId, .secp256k1 ⟨(share : ZMod 101), oldSecret⟩⟩

private def splitResults : List (Result residueCurves) :=
  [.called] ++ .replicate 8 .worked ++
    [committedShare 1 3, committedShare 2 3, committedShare 3 7, committedShare 4 8] ++
    .replicate 5 .called

private def inForce (contract : Contract.MpcContract) : Option EpochId :=
  match contract.protocolState with
  | .running state => some state.keyset.epochId
  | _ => none

/-- Four points in a row of a polynomial below degree three. -/
private theorem third_difference {K : Type} [Field K] {f : Polynomial K} {a b c d : K}
    (small : f.degree < 3) (atTwo : a = f.eval 2) (atThree : b = f.eval 3) (atFour : c = f.eval 4)
    (atFive : d = f.eval 5) : d - 3 * c + 3 * b - a = 0 := by
  have few : f.natDegree < 3 := by
    by_cases isZero : f = 0
    · simp [isZero]
    · exact (Polynomial.natDegree_lt_iff_degree_lt isZero).mpr small
  simp only [atTwo, atThree, atFour, atFive, Polynomial.eval_eq_sum_range' few,
    Finset.sum_range_succ, Finset.sum_range_zero]
  ring

/-- The malicious leader starts two channels for one key event, with two honest members on each. The
    contract takes over the key, but the shares are on two lines. -/
theorem split_sessions_reshared :
    ∃ es t, (beforeRefresh (firstMembers 5 3)).Begins (refreshing (firstMembers 5 3)) ∧
      Run (Acts (ResharingSystem.act (lines slopes) notLeader ⟨1⟩))
        (beforeRefresh (firstMembers 5 3)) es t ∧ es.map Prod.fst = splitSessions ∧
      (firstMembers 5 3).validate = .ok () ∧
      (firstMembers 5 3).validateIncomingProposal (firstMembers 5 3) = .ok () ∧
      ((memberIds (firstMembers 5 3).participants).filter fun id => !notLeader id).length < 3 ∧
      (∀ entry ∈ (firstMembers 5 3).participants.participants, Voted es entry.1 refreshId) ∧
      inForce t.contract = some ⟨1⟩ ∧
      ¬ OnOnePolynomial notLeader (refreshing (firstMembers 5 3)) es refreshId := by
  have ran : ((replay (ResharingSystem.act (lines slopes) notLeader ⟨1⟩)
      (beforeRefresh (firstMembers 5 3)) splitSessions).map
        fun r => (r.2.map Prod.snd, inForce r.1.contract)) = some (splitResults, some ⟨1⟩) := by
    decide +kernel
  obtain ⟨⟨t, es⟩, done, shown⟩ := Option.map_eq_some_iff.mp ran
  obtain ⟨results, accepted⟩ := Prod.mk.inj shown
  have inputs := inputs_of_replay done
  obtain rfl : es = splitSessions.zip splitResults := List.zip_of_prod inputs results
  refine ⟨_, t, beforeRefresh_begins _, run_of_replay done, inputs, by decide +kernel,
    by decide +kernel, by decide +kernel, ?_, accepted, ?_⟩
  · intro entry inside
    obtain ⟨n, below, rfl⟩ := List.mem_map.mp inside
    have isVote : (splitSessions.zip splitResults)[13 + n]? =
        some (.call (signedBy n) (.voteReshared refreshId), .called) := by
      rw [List.mem_range] at below
      interval_cases n <;> rfl
    exact ⟨signedBy n, rfl, List.mem_of_getElem? isVote⟩
  · rintro ⟨key, scheme, publicKey, f, _, _, small, _, shares⟩
    have first := shares ⟨1⟩ (by decide +kernel) rfl _
      ⟨_, List.mem_of_getElem? (i := 9) rfl⟩ rfl
    have second := shares ⟨2⟩ (by decide +kernel) rfl _
      ⟨_, List.mem_of_getElem? (i := 10) rfl⟩ rfl
    have third := shares ⟨3⟩ (by decide +kernel) rfl _
      ⟨_, List.mem_of_getElem? (i := 11) rfl⟩ rfl
    have fourth := shares ⟨4⟩ (by decide +kernel) rfl _
      ⟨_, List.mem_of_getElem? (i := 12) rfl⟩ rfl
    cases scheme with
    | secp256k1 =>
      have two := (KeygenOutput.mk.inj (KeyshareData.secp256k1.inj first)).1
      have three := (KeygenOutput.mk.inj (KeyshareData.secp256k1.inj second)).1
      have four := (KeygenOutput.mk.inj (KeyshareData.secp256k1.inj third)).1
      have five := (KeygenOutput.mk.inj (KeyshareData.secp256k1.inj fourth)).1
      have total := third_difference small two three four five
      exact absurd total (by decide +kernel)
    | v2Secp256k1 | ed25519 | bls12381 => simp [KeyshareData.ofOutput] at first

private def notLast (id : ParticipantId) : Bool := id ≠ ⟨2⟩

private def oneSession : List Action :=
  refreshCalls [0, 1, 2] [(0, 1, [0, 1, 2]), (1, 1, [0, 1, 2])]

private def oneSessionResults : List (Result residueCurves) :=
  [.called] ++ .replicate 4 .worked ++ [committedShare 0 3, committedShare 1 3] ++
    .replicate 3 .called

theorem reshared_shares_of_three :
    ∃ es t, Run (Guarded
        (fun s e => careful notLast (memberIds (firstMembers 3 2).participants) s e.1)
        (Acts (ResharingSystem.act (lines slopes) notLast ⟨1⟩)))
        (beforeRefresh (firstMembers 3 2)) es t ∧ es.map Prod.snd = oneSessionResults ∧
      OnOnePolynomial notLast (refreshing (firstMembers 3 2)) es refreshId := by
  have ran : ((replay (restrict (careful notLast (memberIds (firstMembers 3 2).participants))
      (ResharingSystem.act (lines slopes) notLast ⟨1⟩))
      (beforeRefresh (firstMembers 3 2)) oneSession).map fun r => r.2.map Prod.snd) =
        some oneSessionResults := by
    decide +kernel
  obtain ⟨⟨t, es⟩, done, results⟩ := Option.map_eq_some_iff.mp ran
  obtain rfl : es = oneSession.zip oneSessionResults :=
    List.zip_of_prod (inputs_of_replay done) results
  have run := (run_of_replay done).of_restrict
  refine ⟨_, t, run, results, ?_⟩
  refine reshared_shares_on_one_polynomial (beforeRefresh_begins _) (by decide +kernel)
    (by decide +kernel) run ?_
  intro entry inside
  obtain ⟨n, below, rfl⟩ := List.mem_map.mp inside
  have isVote : (oneSession.zip oneSessionResults)[7 + n]? =
      some (.call (signedBy n) (.voteReshared refreshId), .called) := by
    rw [List.mem_range] at below
    interval_cases n <;> rfl
  exact ⟨signedBy n, rfl, List.mem_of_getElem? isVote⟩

end MpcNetwork.Node.KeyEvents
