import MpcNetwork.Contract.Succession

/-! # Who has agreed to an image or a launcher

Votes on images and launchers are recorded by participant id.  They are forgotten when a vote
succeeds, but not when the participants change: a count may include votes of former
participants.
-/

namespace MpcNetwork.Contract

open Fallible Runs Ballots List
open Tee (MpcDockerImageHash)

variable {launcherHash : LauncherImageHash}

theorem TeeState.addLauncherImage_ok {Collateral : Type}
    {verifier : AttestationVerifier Collateral} {self teeState : TeeState}
    {now durationSeconds : Nat} {added : Bool}
    (done : self.addLauncherImage verifier launcherHash now durationSeconds = (added, teeState)) :
    ∃ images, teeState = { self with launcherVotes := .empty, allowedLauncherImages := images } ∧
      self.allowedLauncherImages.launcherHashes ⊆ images.launcherHashes ∧
      images.launcherHashes ⊆ launcherHash :: self.allowedLauncherImages.launcherHashes := by
  simp only [addLauncherImage, Prod.mk.injEq] at done
  obtain ⟨_, rfl⟩ := done
  refine ⟨_, rfl, ?_⟩
  unfold AllowedLauncherImages.add
  split
  · exact ⟨Subset.refl _, subset_cons_self _ _⟩
  · simp only [AllowedLauncherImages.launcherHashes, map_append, map_singleton]
    grind

theorem TeeState.removeLauncherImage_ok {self teeState : TeeState} {removed : Bool}
    (done : self.removeLauncherImage launcherHash = (removed, teeState)) :
    ∃ images, teeState = { self with launcherVotes := .empty, allowedLauncherImages := images } ∧
      images.launcherHashes ⊆ self.allowedLauncherImages.launcherHashes ∧
      self.allowedLauncherImages.launcherHashes ⊆ launcherHash :: images.launcherHashes := by
  simp only [removeLauncherImage, Prod.mk.injEq] at done
  obtain ⟨_, rfl⟩ := done
  refine ⟨_, rfl, ?_⟩
  simp only [AllowedLauncherImages.remove]
  split
  · exact ⟨Subset.refl _, subset_cons_self _ _⟩
  · simp only [AllowedLauncherImages.launcherHashes]
    constructor
    · exact (filter_sublist.map _).subset
    · intro launcher inside
      obtain ⟨entry, member, rfl⟩ := mem_map.mp inside
      grind

variable {parameters : ThresholdParameters}

theorem ProtocolContractState.governing_of_thresholdParameters {state : ProtocolContractState}
    (inForce : state.thresholdParameters = some parameters) :
    state.seats.governing = parameters := by
  cases state <;> cases inForce <;> rfl

variable {participant : ParticipantId}

theorem authenticatedParticipantId_ok
    (done : authenticatedParticipantId env participants = .ok participant) :
    (env.signerAccountId, participant) ∈ participants.holders := by
  simp only [authenticatedParticipantId, bind_ok_iff, found_eq_ok, pure_ok_iff] at done
  obtain ⟨entry, isEntry, rfl⟩ := done
  have account : entry.1 = env.signerAccountId := by simpa using find?_some isEntry
  exact mem_map.mpr ⟨entry, mem_of_find?_eq_some isEntry, by rw [account]⟩

theorem Participants.Valid.unique_id {ps : Participants} (valid : ps.Valid) {a : AccountId}
    {id id' : ParticipantId} (first : (a, id) ∈ ps.holders) (second : (a, id') ∈ ps.holders) :
    id = id' :=
  congrArg Prod.snd (inj_on_of_nodup_map valid.distinctAccounts first second rfl)

namespace Deployment

variable {Collateral V : Type}

/-- A box of votes with the vote that an account casts with an event. -/
structure Poll (Collateral V : Type) where
  ballots : Deployment → Box ParticipantId V
  castOf : AccountId → MethodEvent Collateral → Option V

def codeHashPoll : Poll Collateral MpcDockerImageHash where
  ballots := fun d => d.teeState.votes
  castOf := fun account event =>
    match event.1.2 with
    | .voteCodeHash codeHash =>
      if event.1.1.signerAccountId = account then some codeHash else none
    | _ => none

def launcherPoll : Poll Collateral LauncherVoteAction where
  ballots := fun d => d.teeState.launcherVotes
  castOf := fun account event =>
    match event.1.2 with
    | .voteAddLauncherHash launcherHash =>
      if event.1.1.signerAccountId = account then some (.add launcherHash) else none
    | .voteRemoveLauncherHash launcherHash =>
      if event.1.1.signerAccountId = account then some (.remove launcherHash) else none
    | _ => none

namespace Poll

variable (poll : Poll Collateral V)

/-- All recorded votes are those of participants in force. -/
def Current (d : Deployment) : Prop :=
  ∀ vote ∈ (poll.ballots d).votes,
    d.seats.governing.participants.isParticipantGivenParticipantId vote.1 = true

/-- What a step does to a poll: nothing but forget votes, or record the signer's vote. -/
inductive Moves (d : Deployment) (event : MethodEvent Collateral) (d' : Deployment) : Prop where
  | silent (quiet : ∀ account, poll.castOf account event = none)
      (part : ∀ vote ∈ (poll.ballots d').votes, vote ∈ (poll.ballots d).votes)
  | voted (parameters : ThresholdParameters) (participant : ParticipantId) (value : V)
      (voter : d.TeeVoter event.1.1 parameters participant) (current : poll.Current d)
      (cast : ∀ account, poll.castOf account event =
        if event.1.1.signerAccountId = account then some value else none)
      (part : ∀ vote ∈ (poll.ballots d').votes,
        vote ∈ ((poll.ballots d).recast participant value).votes)

/-- Every recorded vote is the latest of the account that had the id when it voted. -/
def Recorded (es : List (MethodEvent Collateral)) (d : Deployment) : Prop :=
  ∀ id value, (id, value) ∈ (poll.ballots d).votes →
    ∃ (account : AccountId) (voters : Participants), (account, id) ∈ voters.holders ∧ voters.Valid ∧
      voters.Precedes d.seats.governing.participants ∧
      latest (poll.castOf account) es = some value

variable {poll}

theorem Recorded.recast [DecidableEq V] (recorded : poll.Recorded es d) (valid : d.seats.Valid)
    {value : V} (voter : d.TeeVoter event.1.1 parameters participant) (current : poll.Current d)
    (cast : ∀ account, poll.castOf account event =
      if event.1.1.signerAccountId = account then some value else none) {id : ParticipantId}
    {value' : V} (inside : (id, value') ∈ ((poll.ballots d).recast participant value).votes) :
    ∃ account, (account, id) ∈ d.seats.governing.participants.holders ∧
      latest (poll.castOf account) (es ++ [event]) = some value' := by
  have governing := ProtocolContractState.governing_of_thresholdParameters voter.inForce
  have signer : (event.1.1.signerAccountId, participant) ∈ d.seats.governing.participants.holders := by
    unfold seats
    rw [governing]
    exact authenticatedParticipantId_ok voter.voter
  rcases Box.mem_recast.mp inside with ⟨rfl, rfl⟩ | ⟨otherId, old⟩
  · refine ⟨_, signer, ?_⟩
    rw [latest_snoc, cast, if_pos rfl]
    rfl
  · obtain ⟨account, voters, holds, validVoters, precedes, voted⟩ := recorded id value' old
    have isCurrent := current (id, value') old
    simp only [Participants.isParticipantGivenParticipantId, any_eq_true,
      decide_eq_true_eq] at isCurrent
    obtain ⟨entry, member, sameId⟩ := isCurrent
    have now : (entry.1, id) ∈ d.seats.governing.participants.holders :=
      mem_map.mpr ⟨entry, member, by rw [sameId]⟩
    have same := precedes.same_holder validVoters holds now
    have other : event.1.1.signerAccountId ≠ account := by
      intro isSigner
      rw [isSigner, same] at signer
      exact otherId (valid.governing.unique_id now signer)
    refine ⟨account, same ▸ now, ?_⟩
    rw [latest_snoc, cast, if_neg other]
    exact voted

theorem Moves.recorded [DecidableEq V] (moves : poll.Moves d event d')
    (recorded : poll.Recorded es d) (valid : d.seats.Valid)
    (precedes : d.seats.governing.participants.Precedes d'.seats.governing.participants) :
    poll.Recorded (es ++ [event]) d' := by
  intro id value voted
  cases moves with
  | silent quiet part =>
    obtain ⟨account, voters, holds, validVoters, before, latestVote⟩ :=
      recorded id value (part _ voted)
    refine ⟨account, voters, holds, validVoters, before.trans precedes, ?_⟩
    rw [latest_snoc, quiet]
    exact latestVote
  | voted parameters participant value' voter current cast part =>
    obtain ⟨account, holds, latestVote⟩ :=
      recorded.recast valid voter current cast (part _ voted)
    exact ⟨account, _, holds, valid.governing, precedes, latestVote⟩

theorem Recorded.quorum [DecidableEq V] (recorded : poll.Recorded es d) (valid : d.seats.Valid)
    (voter : d.TeeVoter event.1.1 parameters participant) (current : poll.Current d)
    (cast : ∀ account, poll.castOf account event =
      if event.1.1.signerAccountId = account then some value else none) :
    ((poll.ballots d).recast participant value).count value ≤
      d.seats.governing.participants.participants.countP fun entry =>
        latest (poll.castOf entry.1) (es ++ [event]) = some value := by
  have part : ((poll.ballots d).recast participant value).supporters value ⊆
      ((d.seats.governing.participants.participants.filter fun entry =>
        latest (poll.castOf entry.1) (es ++ [event]) = some value).map (·.2.1)).toFinset := by
    intro id supports
    obtain ⟨account, holds, latestVote⟩ :=
      recorded.recast valid voter current cast (Box.mem_supporters.mp supports)
    obtain ⟨entry, member, same⟩ := mem_map.mp holds
    obtain ⟨rfl, rfl⟩ := Prod.mk.inj same
    simp only [mem_toFinset, mem_map, mem_filter, decide_eq_true_eq]
    exact ⟨entry, ⟨member, latestVote⟩, rfl⟩
  rw [← Box.card_supporters, countP_eq_length_filter]
  calc (((poll.ballots d).recast participant value).supporters value).card
      ≤ _ := Finset.card_le_card part
    _ ≤ _ := toFinset_card_le _
    _ = _ := length_map _

end Poll

variable {verifier : AttestationVerifier Collateral} {start d d' : Deployment}
  {es : List (MethodEvent Collateral)} {event : MethodEvent Collateral}

/-- Votes are cast only while recorded votes are of participants, and `next_id` is not lowered. -/
def keepsVoters (self : Deployment) : Method Collateral → Bool
  | .voteCodeHash _ => self.teeState.votes.votes.all fun vote =>
    self.seats.governing.participants.isParticipantGivenParticipantId vote.1
  | .voteAddLauncherHash _ | .voteRemoveLauncherHash _ =>
    self.teeState.launcherVotes.votes.all fun vote =>
      self.seats.governing.participants.isParticipantGivenParticipantId vote.1
  | method => self.keepsNextId method

/-- Steps by calls that count votes of participants in force only. -/
def VoterKeepingSteps (verifier : AttestationVerifier Collateral) :
    Deployment → MethodEvent Collateral → Deployment → Prop :=
  Guarded (fun d event => d.keepsVoters event.1.2) (Acts (act verifier))

theorem keepsNextId_of_keepsVoters (keeps : d.keepsVoters method = true) :
    d.keepsNextId method = true := by
  cases method with
  | voteCodeHash | voteAddLauncherHash | voteRemoveLauncherHash => rfl
  | _ => exact keeps

theorem VoterKeepingSteps.run (run : Run (VoterKeepingSteps verifier) start es d) :
    Run (KeepingSteps verifier) start es d :=
  run.mono fun _ _ _ taken => ⟨keepsNextId_of_keepsVoters taken.1, taken.2⟩

theorem codeHashPoll_moves (acts : Acts (act verifier) d event d')
    (keeps : d.keepsVoters event.1.2 = true) : codeHashPoll.Moves d event d' := by
  obtain ⟨⟨host, method⟩, note⟩ := event
  obtain ⟨settled, step, rfl⟩ := acts_step verifier acts
  cases step with
  | imageVoted codeHash parameters participant voter =>
    exact .voted parameters participant codeHash voter (all_eq_true.mp keeps)
      (fun _ => rfl) fun _ => id
  | imageAllowed codeHash parameters participant voter =>
    exact .voted parameters participant codeHash voter (all_eq_true.mp keeps)
      (fun _ => rfl) (nil_subset _)
  | governed call next contract =>
    obtain ⟨images, same, _⟩ := beforeCall_teeState d host call
    refine .silent (fun _ => rfl) ?_
    simp only [codeHashPoll, persisted, same]
    exact fun _ => id
  | attested _ _ _ _ accepted =>
    obtain ⟨_, rfl⟩ := TeeState.addParticipant_ok accepted
    exact .silent (fun _ => rfl) fun _ => id
  | launcherVoted _ action _ _ asked =>
    refine .silent (fun account => ?_) fun _ => id
    cases action <;> cases asked <;> rfl
  | launcherAdded _ _ _ _ _ _ _ result =>
    obtain ⟨_, rfl, _⟩ := TeeState.addLauncherImage_ok result
    exact .silent (fun _ => rfl) fun _ => id
  | launcherRemoved _ _ _ _ _ _ _ result =>
    obtain ⟨_, rfl, _⟩ := TeeState.removeLauncherImage_ok result
    exact .silent (fun _ => rfl) fun _ => id
  | migrationsSet _ _ asked =>
    refine .silent (fun account => ?_) fun _ => id
    cases method <;> cases asked <;> rfl
  | migrated | cleaned => exact .silent (fun _ => rfl) fun _ => id

theorem launcherPoll_moves (acts : Acts (act verifier) d event d')
    (keeps : d.keepsVoters event.1.2 = true) : launcherPoll.Moves d event d' := by
  obtain ⟨⟨host, method⟩, note⟩ := event
  obtain ⟨settled, step, rfl⟩ := acts_step verifier acts
  cases step with
  | launcherVoted _ action parameters participant asked voter =>
    cases action with
    | add launcherHash | remove launcherHash =>
      cases asked
      exact .voted parameters participant _ voter (all_eq_true.mp keeps)
        (fun _ => rfl) fun _ => id
  | launcherAdded launcherHash parameters participant _ _ voter _ result =>
    obtain ⟨_, rfl, _⟩ := TeeState.addLauncherImage_ok result
    exact .voted parameters participant (.add launcherHash) voter (all_eq_true.mp keeps)
      (fun _ => rfl) (nil_subset _)
  | launcherRemoved launcherHash parameters participant _ _ voter _ result =>
    obtain ⟨_, rfl, _⟩ := TeeState.removeLauncherImage_ok result
    exact .voted parameters participant (.remove launcherHash) voter (all_eq_true.mp keeps)
      (fun _ => rfl) (nil_subset _)
  | governed call next contract =>
    obtain ⟨images, same, _⟩ := beforeCall_teeState d host call
    refine .silent (fun _ => rfl) ?_
    simp only [launcherPoll, persisted, same]
    exact fun _ => id
  | attested _ _ _ _ accepted =>
    obtain ⟨_, rfl⟩ := TeeState.addParticipant_ok accepted
    exact .silent (fun _ => rfl) fun _ => id
  | migrationsSet _ _ asked =>
    refine .silent (fun account => ?_) fun _ => id
    cases method <;> cases asked <;> rfl
  | imageVoted | imageAllowed | migrated | cleaned => exact .silent (fun _ => rfl) fun _ => id

theorem Poll.recorded_run [DecidableEq V] {poll : Poll Collateral V} (initial : Initial start)
    (empty : (poll.ballots start).votes = [])
    (moves : ∀ d event d', VoterKeepingSteps verifier d event d' → poll.Moves d event d')
    (run : Run (VoterKeepingSteps verifier) start es d) : poll.Recorded es d := by
  refine run.invariant poll.Recorded ?_ ?_
  · intro id value voted
    rw [empty] at voted
    cases voted
  · intro es before event after early recorded taken
    have valid := valid_run initial early.unguarded
    have ordered := (precedes_run initial.ordered (VoterKeepingSteps.run early)).1
    have precedes := ((acts_seats verifier taken.2).precedes ordered
      (keepsNextId_of_keepsVoters taken.1)).2
    exact (moves before event after taken).recorded recorded valid precedes

def images (self : Deployment) : List MpcDockerImageHash :=
  self.teeState.allowedDockerImageHashes.allowedTeeProposals.map (·.imageHash)

def launchers (self : Deployment) : List LauncherImageHash :=
  self.teeState.allowedLauncherImages.launcherHashes

@[simp] theorem images_persisted (self : Deployment) : self.persisted.images = self.images := by
  simp [images, persisted, AllowedDockerImageHashes.stored, Function.comp_def]

theorem images_of_same {self : Deployment}
    (same : self.teeState.allowedDockerImageHashes = d.teeState.allowedDockerImageHashes) :
    self.persisted.images ⊆ d.images := by
  rw [images_persisted, images, images, same]
  exact Subset.refl _

/-- What a step does to the lists of images and launchers. -/
inductive ListsMove (d : Deployment) (event : MethodEvent Collateral) (d' : Deployment) :
    Prop where
  | kept (noted : ∀ codeHash, event.2 ≠ .whitelisted codeHash) (images : d'.images ⊆ d.images)
      (launchers : d'.launchers = d.launchers)
  | imageAllowed (codeHash : MpcDockerImageHash) (parameters : ThresholdParameters)
      (participant : ParticipantId) (asked : event.1.2 = .voteCodeHash codeHash)
      (noted : event.2 = .whitelisted codeHash)
      (voter : d.TeeVoter event.1.1 parameters participant)
      (enough : parameters.threshold ≤ (d.teeState.votes.recast participant codeHash).count codeHash)
      (images : d'.images ⊆ codeHash :: d.images) (launchers : d'.launchers = d.launchers)
  | launcherAdded (launcherHash : LauncherImageHash) (parameters : ThresholdParameters)
      (participant : ParticipantId) (asked : event.1.2 = .voteAddLauncherHash launcherHash)
      (noted : ∀ codeHash, event.2 ≠ .whitelisted codeHash)
      (voter : d.TeeVoter event.1.1 parameters participant)
      (enough : parameters.threshold ≤
        (d.teeState.launcherVotes.recast participant (.add launcherHash)).count (.add launcherHash))
      (images : d'.images ⊆ d.images) (kept : d.launchers ⊆ d'.launchers)
      (launchers : d'.launchers ⊆ launcherHash :: d.launchers)
  | launcherRemoved (launcherHash : LauncherImageHash) (parameters : ThresholdParameters)
      (participant : ParticipantId) (asked : event.1.2 = .voteRemoveLauncherHash launcherHash)
      (noted : ∀ codeHash, event.2 ≠ .whitelisted codeHash)
      (voter : d.TeeVoter event.1.1 parameters participant)
      (enough : parameters.participants.len ≤
        (d.teeState.launcherVotes.recast participant (.remove launcherHash)).count
          (.remove launcherHash))
      (images : d'.images ⊆ d.images) (kept : d'.launchers ⊆ d.launchers)
      (launchers : d.launchers ⊆ launcherHash :: d'.launchers)

theorem insert_images (allowed : AllowedDockerImageHashes) (codeHash : MpcDockerImageHash)
    (now durationSeconds : Nat) :
    (allowed.insert codeHash now durationSeconds).allowedTeeProposals.map (·.imageHash) ⊆
      codeHash :: allowed.allowedTeeProposals.map (·.imageHash) := by
  intro other inside
  obtain ⟨image, member, rfl⟩ := mem_map.mp inside
  simp only [AllowedDockerImageHashes.insert] at member
  rcases eq_or_mem_of_mem_insertIdx member with rfl | old
  · exact mem_cons_self
  · have valid := mem_of_mem_eraseP old
    exact mem_cons_of_mem _ (mem_map_of_mem (mem_of_mem_drop valid))

theorem launcherHashes_addMpcImageComposeHashes (allowed : AllowedLauncherImages)
    (codeHash : MpcDockerImageHash) :
    (allowed.addMpcImageComposeHashes verifier codeHash).launcherHashes = allowed.launcherHashes := by
  simp only [AllowedLauncherImages.addMpcImageComposeHashes, AllowedLauncherImages.launcherHashes,
    map_map]
  apply map_congr_left
  intro entry _
  simp only [Function.comp_apply]
  split <;> rfl

theorem acts_lists (acts : Acts (act verifier) d event d') : ListsMove d event d' := by
  obtain ⟨⟨host, method⟩, note⟩ := event
  obtain ⟨settled, step, rfl⟩ := acts_step verifier acts
  cases step with
  | governed call next contract =>
    obtain ⟨allowed, same, part⟩ := beforeCall_teeState d host call
    refine .kept (by simp) ?_ ?_
    · rw [images_persisted]
      simp only [images, same]
      exact (part.map _).subset
    · simp only [launchers, persisted, same]
  | attested _ _ _ _ accepted =>
    obtain ⟨_, rfl⟩ := TeeState.addParticipant_ok accepted
    exact .kept (by simp) (images_of_same rfl) rfl
  | imageAllowed codeHash parameters participant voter enough =>
    refine .imageAllowed codeHash parameters participant rfl rfl voter enough ?_ ?_
    · rw [images_persisted]
      exact insert_images _ _ _ _
    · exact launcherHashes_addMpcImageComposeHashes _ _
  | launcherAdded launcherHash parameters participant added _ voter enough result =>
    obtain ⟨_, rfl, grown, part⟩ := TeeState.addLauncherImage_ok result
    refine .launcherAdded launcherHash parameters participant rfl ?_ voter enough
      (images_of_same rfl) grown part
    intro codeHash same
    cases added <;> cases same
  | launcherRemoved launcherHash parameters participant removed _ voter enough result =>
    obtain ⟨_, rfl, shrunk, part⟩ := TeeState.removeLauncherImage_ok result
    refine .launcherRemoved launcherHash parameters participant rfl ?_ voter enough
      (images_of_same rfl) shrunk part
    intro codeHash same
    cases removed <;> cases same
  | imageVoted | launcherVoted | migrationsSet | migrated | cleaned =>
    exact .kept (by simp) (images_of_same rfl) rfl

theorem TeeVoter.governing (voter : d.TeeVoter host parameters participant) :
    d.seats.governing = parameters :=
  ProtocolContractState.governing_of_thresholdParameters voter.inForce

theorem image_quorum (recorded : codeHashPoll.Recorded es d) (valid : d.seats.Valid)
    (taken : VoterKeepingSteps verifier d event d')
    (allowed : event.2 = .whitelisted codeHash ∨ (codeHash ∈ d'.images ∧ codeHash ∉ d.images)) :
    d.seats.governing.threshold ≤ d.seats.governing.participants.participants.countP fun entry =>
      latest (codeHashPoll.castOf entry.1) (es ++ [event]) = some codeHash := by
  obtain ⟨⟨host, method⟩, note⟩ := event
  have keeps := taken.1
  cases acts_lists taken.2 with
  | imageAllowed codeHash' parameters participant asked noted voter enough images =>
    have same : codeHash = codeHash' := by
      rcases allowed with isNoted | ⟨now, before⟩
      · cases noted.symm.trans isNoted
        rfl
      · exact (mem_cons.mp (images now)).resolve_right before
    cases asked
    rw [same]
    have quorum := recorded.quorum valid voter (all_eq_true.mp keeps) fun _ => rfl
    exact Nat.le_trans (voter.governing ▸ enough) quorum
  | kept noted images | launcherAdded _ _ _ _ noted _ _ images
  | launcherRemoved _ _ _ _ noted _ _ images =>
    rcases allowed with isNoted | ⟨now, before⟩
    · exact absurd isNoted (noted codeHash)
    · exact absurd (images now) before

theorem launcher_quorum (recorded : launcherPoll.Recorded es d) (valid : d.seats.Valid)
    (taken : VoterKeepingSteps verifier d event d') (now : launcherHash ∈ d'.launchers)
    (before : launcherHash ∉ d.launchers) :
    d.seats.governing.threshold ≤ d.seats.governing.participants.participants.countP fun entry =>
      latest (launcherPoll.castOf entry.1) (es ++ [event]) = some (.add launcherHash) := by
  obtain ⟨⟨host, method⟩, note⟩ := event
  have keeps := taken.1
  cases acts_lists taken.2 with
  | launcherAdded added parameters participant asked _ voter enough _ _ launchers =>
    cases asked
    rw [(mem_cons.mp (launchers now)).resolve_right before]
    have quorum := recorded.quorum valid voter (all_eq_true.mp keeps) fun _ => rfl
    exact Nat.le_trans (voter.governing ▸ enough) quorum
  | kept _ _ launchers | imageAllowed _ _ _ _ _ _ _ _ launchers =>
    exact absurd (launchers ▸ now) before
  | launcherRemoved _ _ _ _ _ _ _ _ kept => exact absurd (kept now) before

theorem removal_unanimous (recorded : launcherPoll.Recorded es d) (valid : d.seats.Valid)
    (taken : VoterKeepingSteps verifier d event d') (before : launcherHash ∈ d.launchers)
    (now : launcherHash ∉ d'.launchers) :
    ∀ entry ∈ d.seats.governing.participants.participants,
      latest (launcherPoll.castOf entry.1) (es ++ [event]) = some (.remove launcherHash) := by
  obtain ⟨⟨host, method⟩, note⟩ := event
  have keeps := taken.1
  cases acts_lists taken.2 with
  | launcherRemoved removed parameters participant asked _ voter enough _ _ launchers =>
    cases asked
    rw [(mem_cons.mp (launchers before)).resolve_right now]
    have quorum := recorded.quorum valid voter (all_eq_true.mp keeps) fun _ => rfl
    have all := Nat.le_trans (voter.governing ▸ enough) quorum
    have everyone := countP_eq_length.mp (Nat.le_antisymm countP_le_length all)
    intro entry member
    simpa using everyone entry member
  | kept _ _ launchers | imageAllowed _ _ _ _ _ _ _ _ launchers =>
    exact absurd (launchers ▸ before) now
  | launcherAdded _ _ _ _ _ _ _ _ kept => exact absurd (kept before) now

/-- As long as only participants have recorded votes when one is cast, an image or a launcher is
    allowed by `threshold` participants in force, and a launcher removed by all of them. -/
theorem whitelisting_quorum (initial : Initial start)
    (run : Run (VoterKeepingSteps verifier) start es d)
    (taken : VoterKeepingSteps verifier d event d') :
    (∀ codeHash, event.2 = .whitelisted codeHash ∨ (codeHash ∈ d'.images ∧ codeHash ∉ d.images) →
        d.seats.governing.threshold ≤ d.seats.governing.participants.participants.countP fun entry =>
          latest (codeHashPoll.castOf entry.1) (es ++ [event]) = some codeHash) ∧
      (∀ launcherHash, launcherHash ∈ d'.launchers → launcherHash ∉ d.launchers →
        d.seats.governing.threshold ≤ d.seats.governing.participants.participants.countP fun entry =>
          latest (launcherPoll.castOf entry.1) (es ++ [event]) = some (.add launcherHash)) ∧
      ∀ launcherHash, launcherHash ∈ d.launchers → launcherHash ∉ d'.launchers →
        ∀ entry ∈ d.seats.governing.participants.participants,
          latest (launcherPoll.castOf entry.1) (es ++ [event]) = some (.remove launcherHash) := by
  have valid := valid_run initial run.unguarded
  obtain ⟨_, _, _, _, _, _, tee⟩ := initial.running
  have codeHashes : codeHashPoll.Recorded es d := by
    refine Poll.recorded_run initial ?_ (fun _ _ _ taken => codeHashPoll_moves taken.2 taken.1) run
    simp only [codeHashPoll, tee]
    rfl
  have launcherHashes : launcherPoll.Recorded es d := by
    refine Poll.recorded_run initial ?_ (fun _ _ _ taken => launcherPoll_moves taken.2 taken.1) run
    simp only [launcherPoll, tee]
    rfl
  refine ⟨?_, ?_, ?_⟩
  · intro codeHash allowed
    exact image_quorum codeHashes valid taken allowed
  · intro launcherHash now before
    exact launcher_quorum launcherHashes valid taken now before
  · intro launcherHash before now
    exact removal_unanimous launcherHashes valid taken before now

private def newImage : MpcDockerImageHash := .replicate 32 9

private def pairInForce : ThresholdParameters := ⟨Sample.participants 2 [(0, 0), (1, 1)], 2⟩

theorem whitelisting_quorum_two :
    ∃ es d event d', Run (VoterKeepingSteps Sample.verifier) (Sample.start pairInForce) es d ∧
      VoterKeepingSteps Sample.verifier d event d' ∧ newImage ∈ d'.images ∧ newImage ∉ d.images ∧
      d.seats.governing.threshold ≤ d.seats.governing.participants.participants.countP fun entry =>
        latest (codeHashPoll.castOf entry.1) (es ++ [event]) = some newImage := by
  obtain ⟨es, d, ran, _, reached⟩ := exists_run
    (restrict (fun d call => d.keepsVoters call.2) (act Sample.verifier))
    (Sample.start pairInForce) (Sample.byAll [0] (.voteCodeHash newImage)) (fun _ d =>
      d.keepsVoters (Method.voteCodeHash newImage : Method Unit) ∧ newImage ∉ d.images ∧
      (act Sample.verifier d (Sample.host 1, .voteCodeHash newImage)).any
        fun r => newImage ∈ r.1.images) (by decide +kernel)
  obtain ⟨keeps, before, allowed⟩ := reached
  obtain ⟨⟨d', note⟩, acted, now⟩ := (Option.any_eq_true _ _).mp allowed
  have run : Run (VoterKeepingSteps Sample.verifier) _ es d := ran.of_restrict
  have taken : VoterKeepingSteps Sample.verifier d ((Sample.host 1, .voteCodeHash newImage), note) d' :=
    ⟨keeps, acted⟩
  have isNow := of_decide_eq_true now
  obtain ⟨quorum, _⟩ := whitelisting_quorum (Sample.start_initial pairInForce rfl) run taken
  exact ⟨es, d, _, d', run, taken, isNow, before, quorum newImage (.inr ⟨isNow, before⟩)⟩

private def threeInForce : ThresholdParameters :=
  ⟨Sample.participants 3 [(0, 0), (1, 1), (2, 2)], 2⟩

/-- Node 2 votes for an image and is then removed. -/
private def voteAndLeave : List (Host × Method Unit) :=
  Sample.byAll [2] (.voteCodeHash newImage) ++ Sample.byAll [0, 1]
    (.govern (.voteNewParameters ⟨1⟩ ⟨Sample.participants 3 [(0, 0), (1, 1)], 2⟩))

/-- One vote of a participant in force and that of a former one allow an image. -/
theorem former_participant_whitelists :
    ∃ start es d event d', Initial start ∧ Run (Acts (act Sample.verifier)) start es d ∧
      Acts (act Sample.verifier) d event d' ∧ newImage ∈ d'.images ∧ newImage ∉ d.images ∧
      d.seats.governing.participants.participants.countP (fun entry =>
        latest (codeHashPoll.castOf entry.1) (es ++ [event]) = some newImage) <
          d.seats.governing.threshold := by
  obtain ⟨es, d, note, d', run, _, acts, shown⟩ := exists_run_then (act Sample.verifier)
    (Sample.start threeInForce) voteAndLeave (Sample.host 0, .voteCodeHash newImage)
    (fun es d note d' => newImage ∈ d'.images ∧ newImage ∉ d.images ∧
      d.seats.governing.participants.participants.countP (fun entry =>
        latest (codeHashPoll.castOf entry.1)
          (es ++ [((Sample.host 0, .voteCodeHash newImage), note)]) = some newImage) <
        d.seats.governing.threshold) (by decide +kernel)
  exact ⟨_, es, d, _, d', Sample.start_initial threeInForce rfl, run, acts, shown⟩

end Deployment

end MpcNetwork.Contract
