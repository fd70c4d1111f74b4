import MpcNetwork.Node.Providers.Ecdsa
import MpcNetwork.Node.Providers.RobustEcdsa

/-! # Whose assets a follower touches

The ids of the assets that a follower takes and writes come from the Start message of its leader.
The follower neither asks whether they are the leader's nor whether the ones it writes are free,
so a leader can have it use up or overwrite assets of anybody, its own ones included.
-/

namespace MpcNetwork.Node

open Assets

namespace Assets.DistributedAssetStorage

variable {T : Type}

def stored (s : DistributedAssetStorage T) (id : UniqueId) : Option T := s.db.get (s.key id)

theorem stored_addUnowned (s : DistributedAssetStorage T) (id other : UniqueId) (value : T) :
    (s.addUnowned id value).stored other = if other = id then some value else s.stored other := by
  have sameKey : s.key other = s.key id ↔ other = id := ⟨makeKey_injective, fun same => by rw [same]⟩
  simp only [stored, addUnowned, key, Db.get_put] at sameKey ⊢
  simp only [sameKey]

theorem stored_takeUnowned {s next : DistributedAssetStorage T} {id : UniqueId}
    (taken : s.takeUnowned id = .ok (next, value)) :
    next.domainId = s.domainId ∧ s.stored id = some value ∧
      ∀ other, next.stored other = if other = id then none else s.stored other := by
  obtain ⟨there, rfl⟩ := takeUnowned_eq_ok.mp taken
  refine ⟨rfl, there, fun other => ?_⟩
  have sameKey : s.key other = s.key id ↔ other = id := ⟨makeKey_injective, fun same => by rw [same]⟩
  simp only [stored, key, Db.get_delete] at sameKey ⊢
  simp only [sameKey]

/-- Only assets of the leader have been touched, and no asset has become another one. -/
structure OnlyOf (leader : ParticipantId) (before after : DistributedAssetStorage T) : Prop where
  domainId : after.domainId = before.domainId
  foreign : ∀ id, id.participantId ≠ leader → after.stored id = before.stored id
  kept : ∀ id value, before.stored id = some value →
    after.stored id = some value ∨ after.stored id = none

variable {leader : ParticipantId} {before after : DistributedAssetStorage T}

theorem OnlyOf.refl (leader : ParticipantId) (s : DistributedAssetStorage T) : s.OnlyOf leader s :=
  ⟨rfl, fun _ _ => rfl, fun _ _ there => .inl there⟩

theorem OnlyOf.addUnowned (only : before.OnlyOf leader after) {id : UniqueId}
    (own : id.participantId = leader) (free : before.stored id = none) :
    before.OnlyOf leader (after.addUnowned id value) where
  domainId := only.domainId
  foreign := by
    intro other foreign
    rw [stored_addUnowned, if_neg]
    · exact only.foreign other foreign
    · rintro rfl
      exact foreign own
  kept := by
    intro other old there
    rw [stored_addUnowned, if_neg]
    · exact only.kept other old there
    · rintro rfl
      rw [free] at there
      cases there

theorem OnlyOf.takeUnowned (only : before.OnlyOf leader after) {id : UniqueId}
    (taken : after.takeUnowned id = .ok (next, value))
    (own : before.stored id ≠ none → id.participantId = leader) : before.OnlyOf leader next := by
  obtain ⟨sameDomain, there, each⟩ := stored_takeUnowned taken
  have isOwn : id.participantId = leader := by
    by_contra foreign
    refine foreign (own ?_)
    rw [← only.foreign id foreign, there]
    simp
  refine ⟨sameDomain.trans only.domainId, ?_, ?_⟩
  · intro other foreign
    rw [each, if_neg]
    · exact only.foreign other foreign
    · rintro rfl
      exact foreign isOwn
  · intro other old was
    rw [each]
    split
    · exact .inr rfl
    · exact only.kept other old was

end Assets.DistributedAssetStorage

namespace Providers

open Fallible Jobs Jobs.Job Network Network.NetworkTaskChannel Threshold
open Threshold.OtBasedEcdsa (ReconstructionLowerBound)

/-- Only the leader's assets were touched. What that means for triples is a parameter. -/
structure Stores.OnlyOf {scheme : Scheme} {X : Type} (triples : X → X → Prop)
    (leader : ParticipantId) (before after : Stores scheme X) : Prop where
  presignatures : ∀ domainId,
    Option.Rel (fun old new => old.presignatureStore.OnlyOf leader new.presignatureStore)
      (before.perDomainData.lookup domainId) (after.perDomainData.lookup domainId)
  triples : triples before.tripleStore after.tripleStore

theorem Stores.OnlyOf.refl {X : Type} {triples : X → X → Prop}
    {leader : ParticipantId} {stores : Stores scheme X}
    (same : triples stores.tripleStore stores.tripleStore) : stores.OnlyOf triples leader stores where
  presignatures := by
    intro domainId
    cases stores.perDomainData.lookup domainId with
    | none => exact .none
    | some data => exact .some (.refl leader _)
  triples := same

section Steps

variable {scheme : Scheme} {X : Type} {triples : X → X → Prop} {leader : ParticipantId}
  {before after : Stores scheme X} {transport : Transport} {channel : NetworkTaskChannel}
  {domainId : DomainId} {id : UniqueId}

theorem undisturbed_onlyOf : Undisturbed (fun s : TaskState (Stores scheme X) =>
    before.OnlyOf triples leader s.stores) :=
  ⟨fun _ _ holds => holds, fun _ _ _ _ holds => holds, fun _ _ _ _ _ holds => holds⟩

theorem domainData_eq_ok :
    domainData domainId s = (.ok data, t) ↔
      s.stores.perDomainData.lookup domainId = some data ∧ s = t := by
  simp [domainData, bind_eq_ok]

theorem maintains_domainData :
    Maintains I (domainData domainId) :=
  maintains_read.bind fun _ => maintains_ofExcept

/-- The entry of a domain is replaced, with only the leader's assets touched. -/
theorem Stores.OnlyOf.put (only : before.OnlyOf triples leader after)
    (touched : ∀ old, before.perDomainData.lookup domainId = some old →
      old.presignatureStore.OnlyOf leader data.presignatureStore)
    (there : before.perDomainData.lookup domainId ≠ none) :
    before.OnlyOf triples leader
      { after with perDomainData := after.perDomainData.insert domainId data } where
  presignatures := by
    intro other
    by_cases same : other = domainId
    · subst same
      obtain ⟨old, isOld⟩ := Option.ne_none_iff_exists'.mp there
      rw [AList.lookup_insert, isOld]
      exact .some (touched old isOld)
    · rw [AList.lookup_insert_ne same]
      exact only.presignatures other
  triples := only.triples

theorem Stores.OnlyOf.before_of_after (only : before.OnlyOf triples leader after)
    (there : after.perDomainData.lookup domainId = some data) :
    ∃ old, before.perDomainData.lookup domainId = some old ∧
      old.presignatureStore.OnlyOf leader data.presignatureStore := by
  have related := only.presignatures domainId
  rw [there] at related
  generalize before.perDomainData.lookup domainId = found at related
  cases related with
  | some touched => exact ⟨_, rfl, touched⟩

theorem maintains_takePresignature
    (own : ∀ data, before.perDomainData.lookup domainId = some data →
      data.presignatureStore.stored id ≠ none → id.participantId = leader) :
    Maintains (fun s => before.OnlyOf triples leader s.stores)
      (takePresignature domainId id : Task (Stores scheme X) _) := by
  refine maintains_domainData.bind_of ?_
  intro data s t _ looked kept
  obtain ⟨there, rfl⟩ := domainData_eq_ok.mp looked
  cases taken : data.presignatureStore.takeUnowned id with
  | error e => exact kept
  | ok result =>
    obtain ⟨store, value⟩ := result
    obtain ⟨old, isOld, touched⟩ := kept.before_of_after there
    have replaced : before.OnlyOf triples leader { s.stores with
        perDomainData := s.stores.perDomainData.insert domainId
          { data with presignatureStore := store } } := by
      refine kept.put ?_ (by simp [isOld])
      intro same isSame
      cases isOld.symm.trans isSame
      exact touched.takeUnowned taken (own old isOld)
    exact replaced

theorem maintains_addPresignature (own : id.participantId = leader)
    (free : ∀ data, before.perDomainData.lookup domainId = some data →
      data.presignatureStore.stored id = none) :
    Maintains (fun s => before.OnlyOf triples leader s.stores)
      (addPresignature channel domainId id presignature : Task (Stores scheme X) _) := by
  refine maintains_domainData.bind_of ?_
  intro data s t _ looked kept
  obtain ⟨there, rfl⟩ := domainData_eq_ok.mp looked
  obtain ⟨old, isOld, touched⟩ := kept.before_of_after there
  refine kept.put ?_ (by simp [isOld])
  intro same isSame
  cases isOld.symm.trans isSame
  exact touched.addUnowned own (free old isOld)

theorem maintains_followerSignComputation
    (own : ∀ data, before.perDomainData.lookup request.domain = some data →
      data.presignatureStore.stored id ≠ none → id.participantId = leader) :
    Maintains (fun s => before.OnlyOf triples leader s.stores)
      (followerSignComputation scheme transport channel sign keygenOut id msgHash request :
        Task (Stores scheme X) Unit) := by
  refine (maintains_takePresignature own).bind fun presignOut => ?_
  refine Maintains.bind ?_ fun _ => maintains_pure
  refine maintains_ofExcept.bind fun tweak => ?_
  refine maintains_ofExcept.bind fun hash => ?_
  refine maintains_unwrap.bind fun participants => ?_
  refine maintains_ofExcept.bind fun rerandomized => ?_
  refine maintains_ofExcept.bind fun checked => ?_
  exact undisturbed_onlyOf.runProtocol.bind fun _ => maintains_pure

end Steps

theorem length_pairs {α : Type} : ∀ l : List α, (pairs l).length = l.length / 2
  | [] => by simp [pairs]
  | [_] => by simp [pairs]
  | a :: b :: rest => by
    rw [pairs, List.length_cons, length_pairs rest]
    simp only [List.length_cons]
    omega

section Ecdsa

variable {scheme : OtBasedEcdsaScheme} {channel : NetworkTaskChannel} {leader : ParticipantId}
  {before : EcdsaStores scheme}

/-- Only assets of the leader have been touched in the stores of the OT-based scheme. -/
abbrev EcdsaStores.OnlyOf (leader : ParticipantId) (before after : EcdsaStores scheme) : Prop :=
  Stores.OnlyOf (DistributedAssetStorage.OnlyOf leader) leader before after

theorem length_manyTripleGenerationComputation
    (generated : manyTripleGenerationComputation scheme transport channel n threshold s =
      (.ok triples, t)) : triples.length = n / 2 := by
  unfold manyTripleGenerationComputation at generated
  split at generated
  · simp at generated
  · simp only [bind_eq_ok] at generated
    obtain ⟨_, _, _, generated, _, _, last⟩ := generated
    split at last
    · simp at last
    · rename_i right
      obtain ⟨rfl, rfl⟩ := pure_eq_ok.mp last
      rw [length_pairs, not_not.mp right]

theorem maintains_manyTripleGenerationComputation
    (undisturbed : Undisturbed I) :
    Maintains I (manyTripleGenerationComputation scheme transport channel n threshold) := by
  unfold manyTripleGenerationComputation
  split
  · exact maintains_panic
  · refine maintains_ofExcept.bind fun checked => ?_
    refine undisturbed.runProtocol.bind fun triples => ?_
    split
    · exact maintains_panic
    · exact maintains_pure

theorem maintains_followerManyTripleGenerationComputation {start : UniqueId}
    (own : start.participantId = leader)
    (free : ∀ i < n / 2, ∀ id, start.addToCounter (.ofNat i) = .ok id →
      before.tripleStore.stored id = none) :
    Maintains (fun s => EcdsaStores.OnlyOf leader before s.stores)
      (followerManyTripleGenerationComputation scheme transport channel n threshold start) := by
  refine (maintains_manyTripleGenerationComputation undisturbed_onlyOf).bind_of ?_
  intro triples s t _ generated kept
  have many := length_manyTripleGenerationComputation generated
  refine maintains_forM (I := fun s => EcdsaStores.OnlyOf leader before s.stores) ?_ t kept
  intro triple inside
  refine maintains_ofExcept.bind_of ?_
  intro id u v _ returned kept
  obtain ⟨moved, rfl⟩ := ofExcept_eq_ok.mp returned
  have added := mapError_eq_ok.mp moved
  have inRange : triple.2 < n / 2 := by
    have bound := (List.mem_zipIdx inside).2.1
    omega
  refine ⟨kept.presignatures, kept.triples.addUnowned ?_ (free _ inRange id added)⟩
  rw [UniqueId.participantId_addToCounter added]
  exact own

theorem maintains_takeTriples {id : UniqueId}
    (own : before.tripleStore.stored id ≠ none → id.participantId = leader) :
    Maintains (fun s => EcdsaStores.OnlyOf leader before s.stores) (takeTriples scheme id) := by
  refine maintains_read.bind_of ?_
  intro store s t _ looked kept
  obtain ⟨rfl, rfl⟩ := read_eq_ok.mp looked
  cases taken : s.stores.tripleStore.takeUnowned id with
  | error e => exact kept
  | ok result =>
    obtain ⟨store, value⟩ := result
    exact ⟨kept.presignatures, kept.triples.takeUnowned taken own⟩

theorem maintains_followerPresignComputation {id : UniqueId}
    (ownTriple : before.tripleStore.stored pairedTripleId ≠ none →
      pairedTripleId.participantId = leader) (own : id.participantId = leader)
    (free : ∀ data, before.perDomainData.lookup domainId = some data →
      data.presignatureStore.stored id = none) :
    Maintains (fun s => EcdsaStores.OnlyOf leader before s.stores)
      (followerPresignComputation scheme transport channel threshold keygenOut pairedTripleId
        domainId id) := by
  refine (maintains_takeTriples ownTriple).bind fun triples => ?_
  refine Maintains.bind ?_ fun _ => maintains_addPresignature own free
  exact maintains_ofExcept.bind fun _ => undisturbed_onlyOf.runProtocol

end Ecdsa

/-- The assets that the task takes are the leader's; what it writes is the leader's and free. -/
def EcdsaSignatureProvider.NamesOwn {scheme : OtBasedEcdsaScheme} (self : EcdsaSignatureProvider)
    (leader : ParticipantId) (stores : EcdsaStores scheme) : MpcTaskId → Prop
  | .ecdsaTaskId (.manyTriples start _) =>
    start.participantId = leader ∧
      ∀ i < supportedTripleGenerationBatchSize / 2, ∀ id,
        start.addToCounter (.ofNat i) = .ok id → stores.tripleStore.stored id = none
  | .ecdsaTaskId (.presignature id domainId pairedTripleId) =>
    (stores.tripleStore.stored pairedTripleId ≠ none → pairedTripleId.participantId = leader) ∧
      id.participantId = leader ∧
      ∀ data, stores.perDomainData.lookup domainId = some data →
        data.presignatureStore.stored id = none
  | .ecdsaTaskId (.signature id presignatureId) =>
    ∀ request data, self.signRequestStore id = .ok request →
      stores.perDomainData.lookup request.domain = some data →
      data.presignatureStore.stored presignatureId ≠ none →
      presignatureId.participantId = leader
  | _ => True

theorem EcdsaSignatureProvider.onlyOf_processChannel
    {self : EcdsaSignatureProvider}
    {leader : ParticipantId}
    (names : self.NamesOwn leader state.stores channel.taskId) :
    EcdsaStores.OnlyOf leader state.stores
      (self.processChannel scheme transport channel state).2.stores := by
  have start : EcdsaStores.OnlyOf leader state.stores state.stores :=
    .refl (DistributedAssetStorage.OnlyOf.refl leader _)
  suffices maintains : Maintains (fun s => EcdsaStores.OnlyOf leader state.stores s.stores)
      (self.processChannel scheme transport channel) from maintains state start
  unfold processChannel
  split
  · exact maintains_fail
  · exact maintains_fail
  · rename_i task
    rw [task] at names
    obtain ⟨own, free⟩ := names
    unfold runTripleGenerationFollower
    split
    · exact maintains_fail
    · exact undisturbed_onlyOf.performLeaderCentricComputation
        (maintains_followerManyTripleGenerationComputation own free)
  · rename_i task
    rw [task] at names
    obtain ⟨ownTriple, own, free⟩ := names
    refine maintains_domainData.bind fun data => ?_
    exact undisturbed_onlyOf.performLeaderCentricComputation
      (maintains_followerPresignComputation ownTriple own free)
  · rename_i id presignatureId task
    rw [task] at names
    refine maintains_ofExcept.bind_of ?_
    intro request s t _ returned kept
    obtain ⟨asked, rfl⟩ := ofExcept_eq_ok.mp returned
    have signs : Maintains (fun s => EcdsaStores.OnlyOf leader state.stores s.stores)
        (self.makeSignatureFollowerGivenRequest scheme transport channel presignatureId request) := by
      refine maintains_domainData.bind fun data => ?_
      refine maintains_ofExcept.bind fun msgHash => ?_
      exact undisturbed_onlyOf.performLeaderCentricComputation
        (maintains_followerSignComputation fun data => names request data asked)
    exact signs _ kept
  · exact maintains_fail

def RobustEcdsaSignatureProvider.NamesOwn {scheme : RobustEcdsaScheme}
    (self : RobustEcdsaSignatureProvider) (leader : ParticipantId)
    (stores : RobustEcdsaStores scheme) : MpcTaskId → Prop
  | .robustEcdsaTaskId (.presignature id domainId) =>
    id.participantId = leader ∧
      ∀ data, stores.perDomainData.lookup domainId = some data →
        data.presignatureStore.stored id = none
  | .robustEcdsaTaskId (.signature id presignatureId) =>
    ∀ request data, self.signRequestStore id = .ok request →
      stores.perDomainData.lookup request.domain = some data →
      data.presignatureStore.stored presignatureId ≠ none →
      presignatureId.participantId = leader
  | _ => True

/-- Only presignatures of the leader have been touched in the stores of the robust scheme. -/
abbrev RobustEcdsaStores.OnlyOf {scheme : RobustEcdsaScheme} (leader : ParticipantId)
    (before after : RobustEcdsaStores scheme) : Prop :=
  Stores.OnlyOf (fun _ _ => True) leader before after

theorem RobustEcdsaSignatureProvider.onlyOf_processChannel
    {self : RobustEcdsaSignatureProvider}
    {leader : ParticipantId}
    (names : self.NamesOwn leader state.stores channel.taskId) :
    RobustEcdsaStores.OnlyOf leader state.stores
      (self.processChannel scheme transport channel state).2.stores := by
  have start : RobustEcdsaStores.OnlyOf leader state.stores state.stores := .refl trivial
  suffices maintains : Maintains (fun s => RobustEcdsaStores.OnlyOf leader state.stores s.stores)
      (self.processChannel scheme transport channel) from maintains state start
  unfold processChannel
  split
  · exact maintains_fail
  · exact maintains_fail
  · rename_i task
    rw [task] at names
    obtain ⟨own, free⟩ := names
    refine maintains_domainData.bind fun data => ?_
    refine maintains_ofExcept.bind fun maxMalicious => ?_
    refine undisturbed_onlyOf.performLeaderCentricComputation ?_
    refine Maintains.bind ?_ fun _ => maintains_addPresignature own free
    exact maintains_ofExcept.bind fun _ => undisturbed_onlyOf.runProtocol
  · rename_i id presignatureId task
    rw [task] at names
    refine maintains_ofExcept.bind_of ?_
    intro request s t _ returned kept
    obtain ⟨asked, rfl⟩ := ofExcept_eq_ok.mp returned
    have signs : ∀ (maxMalicious : Threshold.RobustEcdsa.MaxMalicious) keyshare msgHash,
        Maintains (fun s => RobustEcdsaStores.OnlyOf leader state.stores s.stores)
          (channel.performLeaderCentricComputation transport (followerSignComputation
            scheme.toScheme transport channel (signChecks maxMalicious) keyshare presignatureId
            msgHash request) false) := fun _ _ _ =>
      undisturbed_onlyOf.performLeaderCentricComputation
        (maintains_followerSignComputation fun data => names request data asked)
    refine Maintains.bind (I := fun s => RobustEcdsaStores.OnlyOf leader state.stores s.stores)
      maintains_domainData (fun data => ?_) _ kept
    refine maintains_ofExcept.bind fun maxMalicious => ?_
    exact maintains_ofExcept.bind fun msgHash => signs maxMalicious _ msgHash
  · exact maintains_fail

open MeshNetworkClient (runReceiveMessage)

private def atOnce {T : Type} (output : T) : Protocol (List Participant) T where
  poke s := .ok (.returned output, s)
  message s _ _ := .ok s
  parties := id
  backlog _ := 0
  backlog_many := by
    intro s t data step
    cases step
  backlog_private := by
    intro s t recipient data step
    cases step
  private_to := by
    intro s t recipient data step
    cases step
  parties_poke := by
    intro s t action step
    cases step
    rfl
  parties_message := by
    intro s t sender data step
    cases step
    rfl

private def quickScheme : Scheme where
  VerifyingKey := Unit
  KeygenOutput := Unit
  PresignOutput := Nat
  RerandomizedPresignOutput := Unit
  SignatureOption := Unit
  PresignState := List Participant
  SignState := List Participant
  publicKey _ := ()
  deriveVerifyingKey _ _ := ()
  presigning := atOnce 1
  signing := atOnce ()
  rerandomizePresign _ _ := .ok ()
  doSign l _ _ _ _ _ := l.participants
  parties_doSign := rfl

private def quickOt : OtBasedEcdsaScheme where
  toScheme := quickScheme
  TripleGenerationOutput := Nat
  tripleThreshold _ := ⟨2⟩
  GenerationState := List Participant
  generating n := atOnce (List.replicate n 1)
  doGenerationMany _ _ l _ _ := l.participants
  doPresign l _ _ _ _ _ := l.participants
  length_generating := by
    intro n s t triples step
    cases step
    exact List.length_replicate
  parties_doGenerationMany := rfl
  parties_doPresign := rfl

private def quickRobust : RobustEcdsaScheme where
  toScheme := quickScheme
  doPresign l _ _ _ := l.participants
  parties_doPresign := rfl

private def threeIds : List ParticipantId := [⟨0⟩, ⟨1⟩, ⟨2⟩]

private def clientOfThree : MeshNetworkClient where
  transportSender := .new ⟨0⟩ threeIds
  channels := .new
  indexerHeights := threeIds.foldl (fun heights id => heights.insert id 0) ∅
  tracked := by decide
  newChannels := []
  newChannelReceiverAlive := true

private def reachable : Transport where
  transportSender := .new ⟨0⟩ threeIds
  waitForConnection _ _ := .established
  sendMpcMessage _ _ _ := .ok ()
  describe _ := ""

private def startBy (leader : ParticipantId) (task : EcdsaTaskId) : PeerMessage :=
  .mpc ⟨leader, ⟨⟨⟨9⟩⟩, .start ⟨.ecdsaTaskId task, threeIds⟩⟩⟩

private def assetOf (participant : ParticipantId) : UniqueId := .new participant 1 0

private def pairOf (n : Nat) : quickOt.PairedTriple := (n, n)

/-- Node 0 has a pair of triples of its own and one of participant 2. -/
private def twoPairs : DistributedAssetStorage quickOt.PairedTriple where
  db := (Db.empty.put (makeKey none (assetOf ⟨0⟩)) (pairOf 7)).put
    (makeKey none (assetOf ⟨2⟩)) (pairOf 8)
  domainId := none
  myParticipantId := ⟨0⟩
  ownedQueue := .new 0 (fun _ _ => true) []
  lastId := none

private def noPresignature : DistributedAssetStorage (PresignOutputWithParticipants quickScheme) where
  db := .empty
  domainId := some ⟨0⟩
  myParticipantId := ⟨0⟩
  ownedQueue := .new 0 (fun _ _ => true) []
  lastId := none

private def withPairs : TaskState (EcdsaStores quickOt) where
  incoming := []
  successfulParticipants := []
  sent := []
  stores := ⟨(∅ : Table DomainId _).insert ⟨0⟩ ⟨(), noPresignature⟩, twoPairs⟩

private def ecdsaOfThree : EcdsaSignatureProvider := ⟨2, fun _ => .error (.anyhow "Timeout")⟩

private def robustOfThree : RobustEcdsaSignatureProvider :=
  ⟨2, 3, fun _ => .error (.anyhow "Timeout")⟩

/-- The pair under the id before node 0 has followed anyone. -/
private def pairBefore (id : UniqueId) : Option (Nat × Nat) :=
  withPairs.stores.tripleStore.stored id

/-- The pair under the id after node 0 has followed the message. -/
private def pairAfter (message : PeerMessage) (id : UniqueId) : Option (Option (Nat × Nat)) :=
  (runReceiveMessage message clientOfThree).2.newChannels.head?.map fun channel =>
    (ecdsaOfThree.processChannel quickOt reachable channel withPairs).2.stores.tripleStore.stored id

end Providers

end MpcNetwork.Node
