import MpcNetwork.Contract.Succession

/-! # TLS identities

A node knows its peers by their TLS keys.  Neither a vote for new parameters nor the end of a
migration checks that a TLS key is not that of another participant.
-/

namespace MpcNetwork.Contract

open List hiding after
open Fallible Runs

theorem PublicKey.toEd25519_eq_some {key : PublicKey} {bytes : Tee.Bytes 32} :
    key.toEd25519 = some bytes ↔ key = .ofEd25519 bytes := by
  constructor
  · intro read
    unfold toEd25519 at read
    split at read
    · rename_i bytes' isKey
      split at read
      · cases read
        exact congrArg PublicKey.mk isKey
      · cases read
    · cases read
  · intro same
    rw [same, toEd25519_ofEd25519]

/-- A peer as a node reads it from the contract, unless the key or the address does not parse. -/
def convertParticipantInfo (parses : ParticipantInfo → Bool)
    (entry : AccountId × ParticipantId × ParticipantInfo) :
    Option (ParticipantId × Tee.Bytes 32) := do
  guard (parses entry.2.2)
  let p2pPublicKey ← entry.2.2.signPk.toEd25519
  pure (entry.2.1, p2pPublicKey)

def convertParticipantInfos (parses : ParticipantInfo → Bool) (participants : Participants) :
    Option (List (ParticipantId × Tee.Bytes 32)) :=
  participants.participants.mapM (convertParticipantInfo parses)

/-- The map of `new_tls_mesh_network`; a later peer with the same key replaces an earlier
    one. -/
def participantIdentities (me : ParticipantId) (peers : List (ParticipantId × Tee.Bytes 32)) :
    Table (Tee.Bytes 32) ParticipantId :=
  peers.foldl (fun keyToParticipantId peer =>
    if peer.1 ≠ me then keyToParticipantId.insert peer.2 peer.1 else keyToParticipantId) ∅

/-- The participant that a connection with the given key is attributed to. -/
def verifyPeerIdentity (identities : Table (Tee.Bytes 32) ParticipantId)
    (publicKey : Tee.Bytes 32) : Option ParticipantId :=
  identities.lookup publicKey

theorem convertParticipantInfo_ok {parses : ParticipantInfo → Bool}
    {entry : AccountId × ParticipantId × ParticipantInfo}
    (done : convertParticipantInfo parses entry = some peer) :
    (entry.2.1, entry.2.2.signPk) = (peer.1, .ofEd25519 peer.2) := by
  simp only [convertParticipantInfo, bind_some_iff, Option.pure_def,
    PublicKey.toEd25519_eq_some, Option.some.injEq] at done
  obtain ⟨_, _, key, isKey, rfl⟩ := done
  rw [isKey]

theorem mapM_convertParticipantInfo_ok
    {entries : List (AccountId × ParticipantId × ParticipantInfo)}
    (done : entries.mapM (convertParticipantInfo parses) = some peers) :
    entries.map (fun entry => (entry.2.1, entry.2.2.signPk)) =
      peers.map fun peer => (peer.1, .ofEd25519 peer.2) := by
  induction entries generalizing peers with
  | nil =>
    cases done
    rfl
  | cons entry entries ih =>
    simp only [mapM_cons, bind_some_iff, Option.pure_def,
      Option.some.injEq] at done
    obtain ⟨peer, isPeer, rest, isRest, rfl⟩ := done
    rw [map_cons, map_cons, ih isRest, convertParticipantInfo_ok isPeer]

theorem verifyPeerIdentity_iff
    (distinct : (peers.map Prod.snd).Nodup) {me id : ParticipantId} :
    verifyPeerIdentity (participantIdentities me peers) key = some id ↔
      id ≠ me ∧ (id, key) ∈ peers := by
  have others : participantIdentities me peers = (peers.filter fun peer => peer.1 ≠ me).foldl
      (fun identities peer => identities.insert peer.2 peer.1) ∅ := by
    rw [foldl_filter]
    simp only [decide_eq_true_eq, participantIdentities]
  rw [verifyPeerIdentity, others, Table.lookup_foldl_insert]
  simp only [AList.lookup_empty, Option.or_none, Option.map_eq_some_iff]
  constructor
  · rintro ⟨peer, isPeer, rfl⟩
    have inside := mem_reverse.mp (mem_of_find?_eq_some isPeer)
    have sameKey : peer.2 = key := by simpa using find?_some isPeer
    obtain ⟨isKnown, other⟩ := mem_filter.mp inside
    exact ⟨by simpa using other, sameKey ▸ isKnown⟩
  · intro known
    obtain ⟨other, isKnown⟩ := known
    cases isPeer : (peers.filter fun peer => peer.1 ≠ me).reverse.find? fun peer => peer.2 = key with
    | none =>
      have absent := find?_eq_none.mp isPeer (id, key)
      simp [isKnown, other] at absent
    | some peer =>
      have inside := mem_reverse.mp (mem_of_find?_eq_some isPeer)
      have sameKey : peer.2 = key := by simpa using find?_some isPeer
      have same := inj_on_of_nodup_map distinct (mem_filter.mp inside).1 isKnown sameKey
      exact ⟨peer, rfl, congrArg Prod.fst same⟩

namespace Participants

def tlsKeys (self : Participants) : List PublicKey :=
  self.participants.map fun entry => entry.2.2.signPk

/-- A node attributes a connection to a participant exactly if it is the one with that key. -/
def IdentifiedByTls (self : Participants) : Prop :=
  ∀ parses me peers, convertParticipantInfos parses self = some peers → ∀ key id,
    verifyPeerIdentity (participantIdentities me peers) key = some id ↔
      id ≠ me ∧ ∃ entry ∈ self.participants, entry.2.1 = id ∧ entry.2.2.signPk = .ofEd25519 key

theorem identifiedByTls {self : Participants} (distinct : self.tlsKeys.Nodup) :
    self.IdentifiedByTls := by
  intro parses me peers converted key id
  have same := mapM_convertParticipantInfo_ok converted
  have keys : self.tlsKeys = (peers.map Prod.snd).map PublicKey.ofEd25519 := by
    have second := congrArg (map Prod.snd) same
    simpa only [map_map, Function.comp_def, tlsKeys] using second
  rw [keys] at distinct
  have inside : (id, key) ∈ peers ↔
      (id, PublicKey.ofEd25519 key) ∈ peers.map fun peer => (peer.1, .ofEd25519 peer.2) := by
    simp only [mem_map, Prod.mk.injEq, Prod.exists]
    constructor
    · intro isPeer
      exact ⟨id, key, isPeer, rfl, rfl⟩
    · rintro ⟨_, key', isPeer, rfl, sameKey⟩
      have read := congrArg PublicKey.toEd25519 sameKey
      simp only [PublicKey.toEd25519_ofEd25519, Option.some.injEq] at read
      exact read ▸ isPeer
  rw [verifyPeerIdentity_iff (Nodup.of_map _ distinct), inside, ← same]
  simp only [mem_map, Prod.mk.injEq]

end Participants

namespace Seats

/-- The participants in force and the proposed ones have distinct TLS keys. -/
structure DistinctTlsKeys (s : Seats) : Prop where
  governing : s.governing.participants.tlsKeys.Nodup
  proposed : ∀ proposal ∈ s.proposed, proposal.participants.tlsKeys.Nodup

variable {s : Seats} {proposal : ThresholdParameters}

theorem Brings.tlsKeys (brings : s.Brings env call proposal) (distinct : s.DistinctTlsKeys)
    (voted : ∀ vote ∈ call.newParameters, vote.2.participants.tlsKeys.Nodup) :
    proposal.participants.tlsKeys.Nodup := by
  cases brings with
  | carried carries => exact voted (s.epoch, proposal) (by simp [carries.asked, Call.newParameters])
  | expelled expels => exact distinct.governing.sublist (expels.remaining.map _)

theorem Moves.tlsKeys (moves : s.Moves env call t) (distinct : s.DistinctTlsKeys)
    (voted : ∀ vote ∈ call.newParameters, vote.2.participants.tlsKeys.Nodup) :
    t.DistinctTlsKeys := by
  cases moves with
  | kept | reset | cast => exact ⟨distinct.governing, distinct.proposed⟩
  | proposed proposal brings =>
    refine ⟨distinct.governing, ?_⟩
    rintro _ ⟨⟩
    exact brings.tlsKeys distinct voted
  | replaced proposal epoch brings => exact ⟨brings.tlsKeys distinct voted, by simp⟩
  | adopted proposal isProposed => exact ⟨distinct.proposed proposal isProposed, by simp⟩
  | dropped => exact ⟨distinct.governing, by simp⟩

end Seats

theorem Participants.updateInfo_tlsKeys {self participants : Participants}
    (done : self.updateInfo accountId newInfo = .ok participants)
    (valid : self.Valid) (distinct : self.tlsKeys.Nodup)
    (free : ∀ entry ∈ self.participants, entry.1 ≠ accountId → entry.2.2.signPk ≠ newInfo.signPk) :
    participants.tlsKeys.Nodup := by
  obtain ⟨_, front, id, info, back, old, new, _⟩ := updateInfo_ok done
  have accounts := valid.distinctAccounts
  simp only [holders, old, map_map, map_append, map_cons, Function.comp_apply,
    nodup_middle, nodup_cons, mem_append, mem_map] at accounts
  simp only [tlsKeys, old, new, map_append, map_cons, nodup_middle,
    nodup_cons] at distinct ⊢
  refine ⟨?_, distinct.2⟩
  intro taken
  rw [← map_append, mem_map] at taken
  obtain ⟨entry, inside, sameKey⟩ := taken
  have member : entry ∈ self.participants := by
    rw [old]
    grind
  refine free entry member ?_ sameKey
  intro sameAccount
  apply accounts.1
  grind

namespace Deployment

variable {Collateral : Type} {verifier : AttestationVerifier Collateral}

/-- The call votes for no repeated TLS key and ends no migration to another's TLS key. -/
def keepsTlsKeys (self : Deployment) (host : Host) : Method Collateral → Bool
  | .govern (.voteNewParameters _ proposal) => proposal.participants.tlsKeys.Nodup
  | .concludeNodeMigration _ =>
    (self.nodeMigrations.ongoingMigrations.lookup host.signerAccountId).all fun destination =>
      self.seats.governing.participants.participants.all fun entry =>
        entry.1 = host.signerAccountId ∨
          entry.2.2.signPk ≠ destination.destinationNodeInfo.signPk
  | _ => true

def TlsKeepingSteps (verifier : AttestationVerifier Collateral) :
    Deployment → MethodEvent Collateral → Deployment → Prop :=
  Guarded (fun d event => d.keepsTlsKeys event.1.1 event.1.2) (Acts (act verifier))

theorem SeatsStep.tlsKeys {self : Deployment} (step : self.SeatsStep host method after)
    (valid : self.seats.Valid)
    (distinct : self.seats.DistinctTlsKeys) (keeps : self.keepsTlsKeys host method) :
    after.DistinctTlsKeys := by
  cases step with
  | governed call moves =>
    refine moves.tlsKeys distinct ?_
    intro vote isVote
    cases call with
    | voteNewParameters =>
      cases isVote
      exact of_decide_eq_true keeps
    | _ => cases isVote
  | migrated keyset state destination participants migrates =>
    refine ⟨?_, distinct.proposed⟩
    have updated := migrates.updated
    rw [← migrates.seats.1] at updated
    apply Participants.updateInfo_tlsKeys updated valid.governing distinct.governing
    simp only [keepsTlsKeys, migrates.announced, Option.all_some, all_eq_true,
      decide_eq_true_eq] at keeps
    intro entry inside other
    exact (keeps entry inside).resolve_left other
  | kept => exact distinct

theorem tlsKeys_run (initial : Initial start) (distinct : start.seats.DistinctTlsKeys)
    (run : Run (TlsKeepingSteps verifier) start es d) : d.seats.DistinctTlsKeys := by
  refine run.invariant (fun _ d => d.seats.DistinctTlsKeys) distinct ?_
  intro es before event after early distinct step
  obtain ⟨keeps, acts⟩ := step
  have stays := valid_run initial early.unguarded
  exact (acts_seats verifier acts).tlsKeys stays distinct keeps

/-- As long as calls keep TLS keys apart, nodes attribute connections to the participant with the
    key. -/
theorem tls_identities_unique {start d : Deployment} {es : List (MethodEvent Collateral)}
    (initial : Initial start) (distinct : start.seats.governing.participants.tlsKeys.Nodup)
    (run : Run (TlsKeepingSteps verifier) start es d) :
    (d.seats.governing.participants.tlsKeys.Nodup ∧
        d.seats.governing.participants.IdentifiedByTls) ∧
      ∀ proposal ∈ d.seats.proposed, proposal.participants.tlsKeys.Nodup ∧
        proposal.participants.IdentifiedByTls := by
  have startKeys : start.seats.DistinctTlsKeys := by
    refine ⟨distinct, ?_⟩
    obtain ⟨_, _, _, _, _, running, _⟩ := initial.running
    simp [seats, running, ProtocolContractState.seats]
  have keys := tlsKeys_run initial startKeys run
  refine ⟨⟨keys.governing, Participants.identifiedByTls keys.governing⟩, ?_⟩
  intro proposal isProposed
  have proposedKeys := keys.proposed proposal isProposed
  exact ⟨proposedKeys, Participants.identifiedByTls proposedKeys⟩

private def threeNodes : ThresholdParameters := ⟨Sample.participants 3 [(0, 0), (1, 1), (2, 2)], 2⟩

/-- Node 1 moves to the TLS key of node `n`. -/
private def moveTo (n : Nat) : List (Host × Method Unit) :=
  [(Sample.host 1, .startNodeMigration ⟨Sample.accountKey 1, Sample.info n⟩),
    (Sample.host 1, .concludeNodeMigration ⟨⟨0⟩, []⟩)]

/-- Node 1 attests a key that no one has and moves to it. -/
theorem tls_identities_unique_migration :
    ∃ es d, Run (TlsKeepingSteps Sample.verifier) (Sample.start threeNodes) es d ∧
      d.seats.governing.participants.tlsKeys = [0, 3, 2].map (.ofEd25519 ∘ Sample.tlsKey) ∧
      d.seats.governing.participants.tlsKeys.Nodup ∧
      d.seats.governing.participants.IdentifiedByTls := by
  obtain ⟨es, d, ran, _, keys⟩ := exists_run
    (restrict (fun d call => d.keepsTlsKeys call.1 call.2) (act Sample.verifier))
    (Sample.start threeNodes)
    ((Sample.host 1, .submitParticipantInfo (.mock .valid) (Sample.tlsKey 3)) :: moveTo 3)
    (fun _ d => d.seats.governing.participants.tlsKeys =
      [0, 3, 2].map (.ofEd25519 ∘ Sample.tlsKey)) (by decide +kernel)
  have run : Run (TlsKeepingSteps Sample.verifier) _ es d := ran.of_restrict
  obtain ⟨⟨distinct, identified⟩, _⟩ := tls_identities_unique
    (Sample.start_initial threeNodes rfl) (by decide +kernel) run
  exact ⟨es, d, run, keys, distinct, identified⟩

private def afterMove : Participants where
  nextId := ⟨3⟩
  participants := [(Sample.account 0, ⟨0⟩, Sample.info 0), (Sample.account 1, ⟨1⟩, Sample.info 0),
    (Sample.account 2, ⟨2⟩, Sample.info 2)]

private def withSameKey : ThresholdParameters where
  participants :=
    { nextId := ⟨4⟩
      participants := threeNodes.participants.participants ++
        [(Sample.account 3, ⟨3⟩, Sample.info 0)] }
  threshold := 3

/-- A participant moves to the TLS key of another one, or a newcomer is accepted with one. -/
theorem tls_key_taken :
    (∃ start es d, Initial start ∧ start.seats.governing.participants.tlsKeys.Nodup ∧
      Run (Acts (act Sample.verifier)) start es d ∧
      (Sample.account 0, ⟨0⟩, Sample.info 0) ∈ d.seats.governing.participants.participants ∧
      ∃ peers, convertParticipantInfos (fun _ => true) d.seats.governing.participants = some peers ∧
        verifyPeerIdentity (participantIdentities ⟨2⟩ peers) (Sample.tlsKey 0) = some ⟨1⟩) ∧
    ∃ start es d, Initial start ∧ start.seats.governing.participants.tlsKeys.Nodup ∧
      Run (Acts (act Sample.verifier)) start es d ∧ d.seats.governing = withSameKey ∧
      ¬ withSameKey.participants.tlsKeys.Nodup := by
  have initial := Sample.start_initial threeNodes rfl
  have startKeys : (Sample.start threeNodes).seats.governing.participants.tlsKeys.Nodup := by
    decide +kernel
  constructor
  · obtain ⟨es, d, run, _, governing⟩ := exists_run (act Sample.verifier)
      (Sample.start threeNodes) (moveTo 0)
      (fun _ d => d.seats.governing.participants = afterMove) (by decide +kernel)
    refine ⟨_, es, d, initial, startKeys, run, ?_⟩
    rw [governing]
    exact ⟨by decide +kernel, [(⟨0⟩, Sample.tlsKey 0), (⟨1⟩, Sample.tlsKey 0), (⟨2⟩, Sample.tlsKey 2)],
      by decide +kernel, by decide +kernel⟩
  · obtain ⟨es, d, run, _, governing⟩ := exists_run (act Sample.verifier)
      (Sample.start threeNodes)
      (Sample.byAll [0, 1, 2, 3] (.govern (.voteNewParameters ⟨1⟩ withSameKey)))
      (fun _ d => d.seats.governing = withSameKey) (by decide +kernel)
    exact ⟨_, es, d, initial, startKeys, run, governing, by decide +kernel⟩

end Deployment

end MpcNetwork.Contract
