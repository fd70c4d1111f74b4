import MpcNetwork.Contract.Primitives
import MpcNetwork.Lib.Jobs
import MpcNetwork.Node.Assets.Storage
import MpcNetwork.Threshold.OtBasedEcdsa
import MpcNetwork.Threshold.RobustEcdsa

/-! # Clean-up of stale assets

Before it goes into the running state a node compares the stored epoch data with the current
one and deletes the assets that cannot be used any more.  The two ECDSA schemes share the
column of presignatures.  A presignature is stored as a JSON object, so whether an entry can
be read depends on which fields are there.  The database itself does not fail.
-/

namespace MpcNetwork.Node.Assets.Cleanup

open BigEndian Fallible Jobs Jobs.Job Threshold
open Contract (EpochId SignatureScheme)

structure ParticipantInfo where
  id : ParticipantId
  address : String
  port : UInt16
  p2pPublicKey : List UInt8
  nearAccountId : String
  deriving Repr, DecidableEq

structure ParticipantsConfig where
  threshold : UInt64
  participants : List ParticipantInfo
  deriving Repr, DecidableEq

def ParticipantsConfig.getInfo (config : ParticipantsConfig) (id : ParticipantId) :
    Option ParticipantInfo :=
  config.participants.find? fun info => info.id = id

structure EpochData where
  epochId : EpochId
  participants : ParticipantsConfig
  deriving Repr, DecidableEq

/-- The JSON of the epoch data, the eight bytes of earlier versions, or something else. -/
inductive StoredEpochData where
  | current (epochData : EpochData)
  | legacy (epochId : EpochId)
  | malformed
  deriving Repr, DecidableEq

/-- One triple, of which only the participants are looked at here. -/
structure TripleGenerationOutput (Share : Type) where
  share : Share
  participants : List ParticipantId

abbrev PairedTriple (Share : Type) := TripleGenerationOutput Share × TripleGenerationOutput Share

def participantsFromTriples (triple0 triple1 : TripleGenerationOutput Share) :
    List ParticipantId :=
  triple0.participants.filter fun p => triple1.participants.contains p

structure PresignOutputWithParticipants (Output : Type) where
  presignature : Output
  participants : List ParticipantId

/-- The JSON object of a presignature: point, scalars by name, and participants. -/
structure StoredPresignature (Point Scalar : Type) where
  bigR : Point
  scalars : List (String × Scalar)
  participants : List ParticipantId

inductive CleanupError where
  | malformedEpochData
  | missingField (name : String)
  deriving Repr, DecidableEq

section Presignatures

variable {Point Scalar : Type}

def serializeOtBased
    (value : PresignOutputWithParticipants (OtBasedEcdsa.PresignOutput Point Scalar)) :
    StoredPresignature Point Scalar where
  bigR := value.presignature.bigR
  scalars := [("k", value.presignature.k), ("sigma", value.presignature.sigma)]
  participants := value.participants

def serializeRobust
    (value : PresignOutputWithParticipants (RobustEcdsa.PresignOutput Point Scalar)) :
    StoredPresignature Point Scalar where
  bigR := value.presignature.bigR
  scalars := [("c", value.presignature.c), ("e", value.presignature.e),
    ("alpha", value.presignature.alpha), ("beta", value.presignature.beta)]
  participants := value.participants

def StoredPresignature.field (stored : StoredPresignature Point Scalar) (name : String) :
    Except CleanupError Scalar :=
  found (.missingField name) (stored.scalars.lookup name)

/-- Read an entry as a presignature of the OT-based scheme.  Further fields are ignored. -/
def deserializeOtBased (stored : StoredPresignature Point Scalar) : Except CleanupError
    (PresignOutputWithParticipants (OtBasedEcdsa.PresignOutput Point Scalar)) := do
  let k ← stored.field "k"
  let sigma ← stored.field "sigma"
  pure ⟨⟨stored.bigR, k, sigma⟩, stored.participants⟩

end Presignatures

def isSubsetOfActiveParticipants (participants activeParticipants : List ParticipantId) : Bool :=
  participants.all fun p => activeParticipants.contains p

/-- The columns of the database that the clean-up works on. -/
structure AssetDb (Share Point Scalar : Type) where
  triples : Db (PairedTriple Share)
  presignatures : Db (StoredPresignature Point Scalar)
  epochData : Option StoredEpochData

inductive EpochDataWrapper where
  | legacy (epochId : EpochId)
  | current (epochData : EpochData)

def getEpochData : Option StoredEpochData → Except CleanupError (Option EpochDataWrapper)
  | none => .ok none
  | some (.current epochData) => .ok (some (.current epochData))
  | some (.legacy epochId) => .ok (some (.legacy epochId))
  | some .malformed => .error .malformedEpochData

inductive AssetCleanup where
  | keep
  | deleteAll
  | keepOnly (persistentParticipants : List ParticipantId)
  deriving Repr, DecidableEq

/-- The participants of the current epoch data that are new or kept their key. -/
def persistentParticipants (previous current : ParticipantsConfig) : List ParticipantId :=
  current.participants.filterMap fun info =>
    match previous.getInfo info.id with
    | none => some info.id
    | some before => if info.p2pPublicKey = before.p2pPublicKey then some before.id else none

def cleanupBehavior (previous current : EpochData) : AssetCleanup :=
  if previous.epochId ≠ current.epochId then .deleteAll
  else
    let persistent := persistentParticipants previous.participants current.participants
    if persistent.length ≠ current.participants.participants.length then .keepOnly persistent
    else .keep

def cleanupBehaviorDuringUpdate (previous current : EpochId) : AssetCleanup :=
  if previous ≠ current then .deleteAll else .keep

/-- Delete the assets with a participant that is not in the list, unless one is unreadable. -/
def cleanDb {V T : Type} (deserialize : V → Except CleanupError T)
    (participants : T → List ParticipantId) (persistent : List ParticipantId)
    (myParticipantId : ParticipantId) (domainId : Option DomainId) :
    Job CleanupError (Db V) Unit := do
  let (start, stop) ← unwrap (makePrefixRange myParticipantId domainId).toOption
  let items ← read fun db => db.iterRange start stop
  let batch ← ofExcept (items.foldlM (fun batch item => do
    let value ← deserialize item.2
    pure (if isSubsetOfActiveParticipants (participants value) persistent then batch
      else batch ++ [item.1])) [])
  update fun db => batch.foldl Db.delete db

section Clean

variable {Share Point Scalar : Type}

def cleanTriples (persistent : List ParticipantId) (myParticipantId : ParticipantId) :
    Job CleanupError (AssetDb Share Point Scalar) Unit :=
  within (fun db => db.triples) (fun triples db => { db with triples })
    (cleanDb (fun pair => .ok pair) (fun pair => participantsFromTriples pair.1 pair.2) persistent
      myParticipantId none)

/-- Every presignature is read as one of the OT-based scheme. -/
def cleanPresignatures (persistent : List ParticipantId) (myParticipantId : ParticipantId)
    (domainId : DomainId) : Job CleanupError (AssetDb Share Point Scalar) Unit :=
  within (fun db => db.presignatures) (fun presignatures db => { db with presignatures })
    (cleanDb deserializeOtBased (fun value => value.participants) persistent myParticipantId
      (some domainId))

def applyCleanup (myParticipantId : ParticipantId) (ecdsaDomainIds : List DomainId) :
    AssetCleanup → Job CleanupError (AssetDb Share Point Scalar) Unit
  | .keep => pure ()
  | .deleteAll => update fun db => { db with triples := .empty, presignatures := .empty }
  | .keepOnly persistent => do
    cleanTriples persistent myParticipantId
    ecdsaDomainIds.forM (cleanPresignatures persistent myParticipantId)

def assetCleanup (current : EpochData) : Option EpochDataWrapper → AssetCleanup
  | none => .keep
  | some (.legacy previous) => cleanupBehaviorDuringUpdate previous current.epochId
  | some (.current previous) => cleanupBehavior previous current

def deleteStaleTriplesAndPresignatures (current : EpochData) (myParticipantId : ParticipantId)
    (ecdsaDomainIds : List DomainId) : Job CleanupError (AssetDb Share Point Scalar) Unit := do
  let previous ← ofExcept (getEpochData (← read fun db => db.epochData))
  applyCleanup myParticipantId ecdsaDomainIds (assetCleanup current previous)
  update fun db => { db with epochData := some (.current current) }

end Clean

theorem get_deleteAll {V : Type} (keys : List (List UInt8)) (db : Db V) (key : List UInt8) :
    (keys.foldl Db.delete db).get key = if key ∈ keys then none else db.get key := by
  induction keys generalizing db with
  | nil => simp
  | cons first keys ih =>
    rw [List.foldl_cons, ih, Db.get_delete]
    by_cases same : key = first <;> simp [same]

theorem get_empty {V : Type} (key : List UInt8) : (Db.empty : Db V).get key = none := rfl

section Scan

variable {V T : Type} {deserialize : V → Except CleanupError T}
  {participants : T → List ParticipantId} {persistent : List ParticipantId}

/-- The asset is read and all its participants are in the list. -/
def keeps (deserialize : V → Except CleanupError T) (participants : T → List ParticipantId)
    (persistent : List ParticipantId) (stored : V) : Bool :=
  match deserialize stored with
  | .ok value => isSubsetOfActiveParticipants (participants value) persistent
  | .error _ => false

theorem batch_eq_ok {items : List (List UInt8 × V)} :
    items.foldlM (fun batch item => do
      let value ← deserialize item.2
      pure (if isSubsetOfActiveParticipants (participants value) persistent then batch
        else batch ++ [item.1])) batch = .ok result ↔
      (∀ item ∈ items, ∃ value, deserialize item.2 = .ok value) ∧
        result = batch ++
          (items.filter fun item => !keeps deserialize participants persistent item.2).map
            Prod.fst := by
  induction items generalizing batch with
  | nil =>
    rw [List.foldlM_nil, pure_ok_iff]
    simp [eq_comm]
  | cons item items ih =>
    rw [List.foldlM_cons, bind_ok_iff]
    simp only [bind_ok_iff, pure_ok_iff, ih, List.forall_mem_cons]
    cases taken : deserialize item.2 with
    | error e => simp
    | ok value =>
      by_cases kept : isSubsetOfActiveParticipants (participants value) persistent
      · simp [keeps, taken, kept]
      · simp [keeps, taken, kept, List.append_assoc]

def cleaned (deserialize : V → Except CleanupError T) (participants : T → List ParticipantId)
    (persistent : List ParticipantId) (start stop : List UInt8) (db : Db V) : Db V :=
  (((db.iterRange start stop).filter fun item =>
    !keeps deserialize participants persistent item.2).map Prod.fst).foldl Db.delete db

theorem get_cleaned (start stop key : List UInt8) (db : Db V) :
    (cleaned deserialize participants persistent start stop db).get key =
      if start ≤ key ∧ key < stop then
        (db.get key).filter (keeps deserialize participants persistent)
      else db.get key := by
  have listed : key ∈ ((db.iterRange start stop).filter fun item =>
      !keeps deserialize participants persistent item.2).map Prod.fst ↔
      ∃ stored, (db.get key = some stored ∧ start ≤ key ∧ key < stop) ∧
        keeps deserialize participants persistent stored = false := by
    simp only [List.mem_map, List.mem_filter, Prod.exists, Db.mem_iterRange, Bool.not_eq_true',
      exists_eq_right, exists_and_right]
  rw [cleaned, get_deleteAll]
  by_cases inside : start ≤ key ∧ key < stop
  · rw [if_pos inside]
    cases there : db.get key with
    | none => simp
    | some stored =>
      cases kept : keeps deserialize participants persistent stored <;>
        simp [listed, there, inside, kept, Option.filter]
  · rw [if_neg inside, if_neg]
    rintro isListed
    obtain ⟨_, ⟨_, within⟩, _⟩ := listed.mp isListed
    exact inside within

theorem cleanDb_eq_ok :
    cleanDb deserialize participants persistent p domainId db = (.ok (), after) ↔
      ∃ start stop, makePrefixRange p domainId = .ok (start, stop) ∧
        (∀ key stored, db.get key = some stored → start ≤ key ∧ key < stop →
          ∃ value, deserialize stored = .ok value) ∧
        cleaned deserialize participants persistent start stop db = after := by
  unfold cleanDb
  simp only [bind_eq_ok, unwrap_eq_ok, toOption_eq_some, read_eq_ok, ofExcept_eq_ok,
    update_eq_ok, batch_eq_ok, List.nil_append]
  constructor
  · rintro ⟨⟨start, stop⟩, _, ⟨range, rfl⟩, _, _, ⟨rfl, rfl⟩, _, _, ⟨⟨readable, rfl⟩, rfl⟩, rfl⟩
    refine ⟨start, stop, range, ?_, rfl⟩
    intro key stored there inside
    exact readable (key, stored) (Db.mem_iterRange.mpr ⟨there, inside⟩)
  · rintro ⟨start, stop, range, readable, rfl⟩
    refine ⟨(start, stop), db, ⟨range, rfl⟩, _, db, ⟨rfl, rfl⟩, _, db, ⟨⟨?_, rfl⟩, rfl⟩, rfl⟩
    rintro ⟨key, stored⟩ listed
    obtain ⟨there, inside⟩ := Db.mem_iterRange.mp listed
    exact readable key stored there inside

end Scan

section Loop

variable {Share Point Scalar : Type} {persistent : List ParticipantId} {me : ParticipantId}

/-- The participants of a presignature of either scheme are stored in the same place. -/
def keepsPresignature (persistent : List ParticipantId)
    (stored : StoredPresignature Point Scalar) : Bool :=
  keeps deserializeOtBased (fun value => value.participants) persistent stored

def cleanedTriples (persistent : List ParticipantId) (start stop : List UInt8)
    (triples : Db (PairedTriple Share)) : Db (PairedTriple Share) :=
  cleaned (fun pair => .ok pair) (fun pair => participantsFromTriples pair.1 pair.2) persistent
    start stop triples

variable {db after : AssetDb Share Point Scalar}

theorem cleanTriples_eq_ok :
    cleanTriples persistent me db = (.ok (), after) ↔
      ∃ start stop, makePrefixRange me none = .ok (start, stop) ∧
        { db with triples := cleanedTriples persistent start stop db.triples } = after := by
  unfold cleanTriples
  simp only [within_eq_ok, cleanDb_eq_ok]
  constructor
  · rintro ⟨_, ⟨start, stop, range, _, rfl⟩, rfl⟩
    exact ⟨start, stop, range, rfl⟩
  · rintro ⟨start, stop, range, rfl⟩
    exact ⟨_, ⟨start, stop, range, fun _ pair _ _ => ⟨pair, rfl⟩, rfl⟩, rfl⟩

/-- Only this node's presignatures in the domains that are not kept were deleted. -/
structure PresignaturesCleaned (persistent : List ParticipantId) (me : ParticipantId)
    (domainIds : List DomainId) (db after : AssetDb Share Point Scalar) : Prop where
  triples : after.triples = db.triples
  epochData : after.epochData = db.epochData
  get : ∀ d id, after.presignatures.get (makeKey (some d) id) =
    if d ∈ domainIds ∧ id.participantId = me then
      (db.presignatures.get (makeKey (some d) id)).filter (keepsPresignature persistent)
    else db.presignatures.get (makeKey (some d) id)

/-- All keys of the column belong to an id of a domain. -/
def KeyedByDomain (db : Db V) : Prop :=
  ∀ key stored, db.get key = some stored → ∃ d id, key = makeKey (some d) id

/-- Those presignatures of this node in the domain can be read. -/
def ReadableIn (db : AssetDb Share Point Scalar) (me : ParticipantId) (d : DomainId) : Prop :=
  ∀ id stored, id.participantId = me → db.presignatures.get (makeKey (some d) id) = some stored →
    ∃ value, deserializeOtBased stored = .ok value

variable {d : DomainId}

theorem cleanPresignatures_ok (done : cleanPresignatures persistent me d db = (.ok (), after)) :
    PresignaturesCleaned persistent me [d] db after ∧ ReadableIn db me d := by
  unfold cleanPresignatures at done
  obtain ⟨_, scanned, rfl⟩ := within_eq_ok.mp done
  obtain ⟨start, stop, range, readable, rfl⟩ := cleanDb_eq_ok.mp scanned
  refine ⟨⟨rfl, rfl, ?_⟩, ?_⟩
  · intro e id
    have alike : (some e).isSome = (some d).isSome := rfl
    simp only [get_cleaned, stored_key_in_range_iff alike range, Option.some.injEq,
      List.mem_singleton]
    rfl
  · intro id stored own there
    exact readable _ stored there ((stored_key_in_range_iff rfl range).mpr ⟨rfl, own⟩)

theorem cleanPresignatures_returns (persistent : List ParticipantId)
    (range : makePrefixRange me (some d) = .ok (start, stop))
    (keyed : KeyedByDomain db.presignatures) (readable : ReadableIn db me d) :
    ∃ after, cleanPresignatures persistent me d db = (.ok (), after) ∧
      KeyedByDomain after.presignatures := by
  refine ⟨_, within_eq_ok.mpr ⟨_, cleanDb_eq_ok.mpr ⟨start, stop, range, ?_, rfl⟩, rfl⟩, ?_⟩
  · intro key stored there inside
    obtain ⟨e, id, rfl⟩ := keyed key stored there
    obtain ⟨⟨⟩, own⟩ := (stored_key_in_range_iff (by simp) range).mp inside
    exact readable id stored own there
  · intro key stored there
    rw [get_cleaned] at there
    split at there
    · exact keyed key stored (Option.filter_eq_some_iff.mp there).1
    · exact keyed key stored there

theorem ReadableIn.of_cleaned (cleanedOne : PresignaturesCleaned persistent me [e] db after)
    (readable : ReadableIn db me d) : ReadableIn after me d := by
  intro id stored own there
  rw [cleanedOne.get] at there
  split at there
  · exact readable id stored own (Option.filter_eq_some_iff.mp there).1
  · exact readable id stored own there

variable {ds : List DomainId}

theorem PresignaturesCleaned.cons (first : PresignaturesCleaned persistent me [d] db middle)
    (rest : PresignaturesCleaned persistent me ds middle after) :
    PresignaturesCleaned persistent me (d :: ds) db after where
  triples := rest.triples.trans first.triples
  epochData := rest.epochData.trans first.epochData
  get := by
    intro e id
    rw [rest.get, first.get]
    by_cases own : id.participantId = me
    · by_cases isFirst : e = d
      · by_cases again : e ∈ ds <;> simp [own, isFirst, Option.filter_filter, isFirst ▸ again]
      · by_cases again : e ∈ ds <;> simp [own, isFirst, again]
    · simp [own]

theorem forM_cleanPresignatures_ok
    (done : ds.forM (cleanPresignatures persistent me) db = (.ok (), after)) :
    PresignaturesCleaned persistent me ds db after ∧ ∀ d ∈ ds, ReadableIn db me d := by
  induction ds generalizing db with
  | nil =>
    change (pure () : Job CleanupError _ Unit) db = _ at done
    obtain ⟨-, rfl⟩ := pure_eq_ok.mp done
    exact ⟨⟨rfl, rfl, by simp⟩, by simp⟩
  | cons d ds ih =>
    change (cleanPresignatures persistent me d >>= fun _ =>
      ds.forM (cleanPresignatures persistent me)) db = _ at done
    obtain ⟨⟨⟩, middle, first, rest⟩ := bind_eq_ok.mp done
    obtain ⟨cleanedFirst, readableFirst⟩ := cleanPresignatures_ok first
    obtain ⟨cleanedRest, readableRest⟩ := ih rest
    refine ⟨cleanedFirst.cons cleanedRest, List.forall_mem_cons.mpr ⟨readableFirst, ?_⟩⟩
    intro e later id stored own there
    by_cases isFirst : e = d
    · subst isFirst
      exact readableFirst id stored own there
    · apply readableRest e later id stored own
      rw [cleanedFirst.get, if_neg (by simp [isFirst]), there]

theorem forM_cleanPresignatures_returns (persistent : List ParticipantId)
    (db : AssetDb Share Point Scalar)
    (ranges : ∀ d ∈ ds, ∃ start stop, makePrefixRange me (some d) = .ok (start, stop))
    (keyed : KeyedByDomain db.presignatures) (readable : ∀ d ∈ ds, ReadableIn db me d) :
    ∃ after, ds.forM (cleanPresignatures persistent me) db = (.ok (), after) := by
  induction ds generalizing db with
  | nil => exact ⟨db, rfl⟩
  | cons d ds ih =>
    obtain ⟨⟨start, stop, range⟩, otherRanges⟩ := List.forall_mem_cons.mp ranges
    obtain ⟨readableFirst, readableRest⟩ := List.forall_mem_cons.mp readable
    obtain ⟨middle, first, stillKeyed⟩ := cleanPresignatures_returns persistent range keyed
      readableFirst
    have cleanedFirst := (cleanPresignatures_ok first).1
    obtain ⟨after, rest⟩ := ih middle otherRanges stillKeyed fun e later =>
      (readableRest e later).of_cleaned cleanedFirst
    exact ⟨after, bind_eq_ok.mpr ⟨(), middle, first, rest⟩⟩

end Loop

namespace ParticipantsConfig

/-- The participant is in the current list with the key of the previous list, if it was there. -/
def keptKey (previous current : ParticipantsConfig) (p : ParticipantId) : Bool :=
  current.participants.any fun info =>
    info.id = p && (previous.getInfo p).all fun before => info.p2pPublicKey = before.p2pPublicKey

/-- Some participant has another key than before. -/
def KeysChanged (previous current : ParticipantsConfig) : Prop :=
  ∃ info ∈ current.participants, ∃ before, previous.getInfo info.id = some before ∧
    info.p2pPublicKey ≠ before.p2pPublicKey

theorem id_of_getInfo {config : ParticipantsConfig} (there : config.getInfo p = some info) :
    info.id = p := by
  simpa using List.find?_some there

end ParticipantsConfig

open ParticipantsConfig

theorem mem_persistentParticipants :
    p ∈ persistentParticipants previous current ↔ previous.keptKey current p := by
  simp only [persistentParticipants, keptKey, List.mem_filterMap, List.any_eq_true,
    Bool.and_eq_true, decide_eq_true_eq]
  refine exists_congr fun info => and_congr_right fun _ => ?_
  cases known : previous.getInfo info.id with
  | none =>
    simp only [Option.some.injEq]
    constructor
    · rintro rfl
      simp [known]
    · exact fun kept => kept.1
  | some before =>
    have same := id_of_getInfo known
    simp only [Option.ite_none_right_eq_some, Option.some.injEq, same]
    constructor
    · rintro ⟨key, rfl⟩
      simp [known, key]
    · rintro ⟨rfl, key⟩
      simpa [known] using key

theorem length_persistentParticipants_ne_iff :
    (persistentParticipants previous current).length ≠ current.participants.length ↔
      previous.KeysChanged current := by
  rw [persistentParticipants, Ne, List.filterMap_length_eq_length]
  simp only [KeysChanged, not_forall, exists_prop]
  refine exists_congr fun info => and_congr_right fun _ => ?_
  cases previous.getInfo info.id with
  | none => simp
  | some before => by_cases key : info.p2pPublicKey = before.p2pPublicKey <;> simp [key]

theorem isSubset_persistent_iff
    {participants : List ParticipantId} :
    isSubsetOfActiveParticipants participants (persistentParticipants previous current) =
      participants.all (previous.keptKey current) := by
  rw [Bool.eq_iff_iff, isSubsetOfActiveParticipants, List.all_eq_true, List.all_eq_true]
  simp only [List.contains_iff_mem, mem_persistentParticipants]

section Whole

variable {Share Point Scalar : Type}

/-- The entries come from this node's stores: triples of a pair were generated together, and a
    presignature is of the scheme of its domain. -/
structure WrittenByStores (schemes : DomainId → SignatureScheme) (domainIds : List DomainId)
    (db : AssetDb Share Point Scalar) : Prop where
  triples : ∀ key pair, db.triples.get key = some pair →
    (∃ id, key = makeKey none id) ∧ pair.1.participants = pair.2.participants
  presignatures : ∀ key stored, db.presignatures.get key = some stored →
    ∃ d ∈ domainIds, (∃ id, key = makeKey (some d) id) ∧
      ((schemes d = .secp256k1 ∧ ∃ value, stored = serializeOtBased value) ∨
        (schemes d = .v2Secp256k1 ∧ ∃ value, stored = serializeRobust value))

def storedEpoch : Option StoredEpochData → Option EpochId
  | some (.current previous) => some previous.epochId
  | some (.legacy epochId) => some epochId
  | _ => none

structure CleanedUp (current : EpochData) (me : ParticipantId) (before : AssetDb Share Point Scalar)
    (ended : Except (Stop CleanupError) Unit × AssetDb Share Point Scalar) : Prop where
  returned : ended.1 = .ok ()
  otherEpoch : ∀ epochId, storedEpoch before.epochData = some epochId → epochId ≠ current.epochId →
    ∀ key, ended.2.triples.get key = none ∧ ended.2.presignatures.get key = none
  changedKeys : ∀ previous, before.epochData = some (.current previous) →
    previous.epochId = current.epochId → previous.participants.KeysChanged current.participants →
    (∀ id, ended.2.triples.get (makeKey none id) =
      (before.triples.get (makeKey none id)).filter fun pair =>
        id.participantId ≠ me || (pair.1.participants ++ pair.2.participants).all
          (previous.participants.keptKey current.participants)) ∧
    ∀ d id, ended.2.presignatures.get (makeKey (some d) id) =
      (before.presignatures.get (makeKey (some d) id)).filter fun stored =>
        id.participantId ≠ me || stored.participants.all
          (previous.participants.keptKey current.participants)
  epochData : ended.2.epochData = some (.current current)

/-- The epoch data can be read; and where keys changed, this node has a range of keys and no
    presignature of the robust scheme of its own. -/
def CanCleanUp (schemes : DomainId → SignatureScheme) (current : EpochData) (me : ParticipantId)
    (before : AssetDb Share Point Scalar) : Prop :=
  before.epochData ≠ some .malformed ∧
    ∀ previous, before.epochData = some (.current previous) →
      previous.epochId = current.epochId → previous.participants.KeysChanged current.participants →
      me.raw.toNat + 1 < 2 ^ 32 ∧
        ∀ d id, schemes d = .v2Secp256k1 → id.participantId = me →
          before.presignatures.get (makeKey (some d) id) = none

variable {me : ParticipantId} {ds : List DomainId} {db : AssetDb Share Point Scalar}

theorem keepOnly_ok (done : applyCleanup me ds (.keepOnly persistent) db = (.ok (), after)) :
    ∃ start stop, makePrefixRange me none = .ok (start, stop) ∧
      after.triples = cleanedTriples persistent start stop db.triples ∧
      (∀ d id, after.presignatures.get (makeKey (some d) id) =
        if d ∈ ds ∧ id.participantId = me then
          (db.presignatures.get (makeKey (some d) id)).filter (keepsPresignature persistent)
        else db.presignatures.get (makeKey (some d) id)) ∧
      ∀ d ∈ ds, ReadableIn db me d := by
  unfold applyCleanup at done
  obtain ⟨⟨⟩, middle, first, rest⟩ := bind_eq_ok.mp done
  obtain ⟨start, stop, range, rfl⟩ := cleanTriples_eq_ok.mp first
  obtain ⟨cleanedRest, readable⟩ := forM_cleanPresignatures_ok rest
  exact ⟨start, stop, range, cleanedRest.triples, cleanedRest.get, readable⟩

theorem keepOnly_returns (persistent : List ParticipantId) (fits : me.raw.toNat + 1 < 2 ^ 32)
    (keyed : KeyedByDomain db.presignatures) (readable : ∀ d ∈ ds, ReadableIn db me d) :
    ∃ after, applyCleanup me ds (.keepOnly persistent) db = (.ok (), after) := by
  have ranges : ∀ domainId, ∃ start stop, makePrefixRange me domainId = .ok (start, stop) := by
    intro domainId
    exact ⟨_, _, if_pos fits⟩
  obtain ⟨start, stop, range⟩ := ranges none
  have first := cleanTriples_eq_ok.mpr ⟨start, stop, range, Eq.refl
    { db with triples := cleanedTriples persistent start stop db.triples }⟩
  have rest := forM_cleanPresignatures_returns persistent
    { db with triples := cleanedTriples persistent start stop db.triples }
    (fun d _ => ranges (some d)) keyed readable
  exact rest.imp fun after done => bind_eq_ok.mpr ⟨(), _, first, done⟩

theorem keepsPresignature_of_readable (readable : deserializeOtBased stored = .ok value) :
    keepsPresignature persistent stored =
      isSubsetOfActiveParticipants stored.participants persistent := by
  have same : value.participants = stored.participants := by
    unfold deserializeOtBased at readable
    simp only [bind_ok_iff, pure_ok_iff] at readable
    obtain ⟨_, _, _, _, rfl⟩ := readable
    rfl
  rw [keepsPresignature, keeps, readable]
  simp only [same]

variable {current : EpochData}

theorem deleteStale_eq_ok :
    deleteStaleTriplesAndPresignatures current me ds db = (.ok (), after) ↔
      ∃ previous, getEpochData db.epochData = .ok previous ∧
        ∃ middle, applyCleanup me ds (assetCleanup current previous) db = (.ok (), middle) ∧
          { middle with epochData := some (.current current) } = after := by
  unfold deleteStaleTriplesAndPresignatures
  simp only [bind_eq_ok, read_eq_ok, ofExcept_eq_ok, update_eq_ok]
  constructor
  · rintro ⟨_, _, ⟨rfl, rfl⟩, previous, _, ⟨known, rfl⟩, ⟨⟩, middle, applied, rfl⟩
    exact ⟨previous, known, middle, applied, rfl⟩
  · rintro ⟨previous, known, middle, applied, rfl⟩
    exact ⟨_, db, ⟨rfl, rfl⟩, previous, db, ⟨known, rfl⟩, (), middle, applied, rfl⟩

/-- With keys changed within the epoch, only the assets of those who kept theirs stay. -/
theorem assetCleanup_changedKeys
    (sameEpoch : previous.epochId = current.epochId)
    (changed : previous.participants.KeysChanged current.participants) :
    assetCleanup current (some (.current previous)) =
      .keepOnly (persistentParticipants previous.participants current.participants) := by
  simp [assetCleanup, cleanupBehavior, sameEpoch, length_persistentParticipants_ne_iff.mpr changed]

section Written

variable {schemes : DomainId → SignatureScheme} {ds : List DomainId} {me : ParticipantId}
  {db : AssetDb Share Point Scalar}

theorem WrittenByStores.keyed (written : WrittenByStores schemes ds db) :
    KeyedByDomain db.presignatures := by
  intro key stored there
  obtain ⟨d, _, ⟨id, rfl⟩, _⟩ := written.presignatures key stored there
  exact ⟨d, id, rfl⟩

theorem WrittenByStores.scheme (written : WrittenByStores schemes ds db)
    {id : UniqueId} (there : db.presignatures.get (makeKey (some d) id) = some stored) :
    d ∈ ds ∧ ((schemes d = .secp256k1 ∧ ∃ value, stored = serializeOtBased value) ∨
      (schemes d = .v2Secp256k1 ∧ ∃ value, stored = serializeRobust value)) := by
  obtain ⟨e, listed, ⟨id', same⟩, kind⟩ := written.presignatures _ _ there
  obtain ⟨⟨⟩, rfl⟩ := makeKey_inj (by simp) same
  exact ⟨listed, kind⟩

/-- This node can read all its presignatures exactly if none is of the robust scheme. -/
theorem WrittenByStores.readable_iff (written : WrittenByStores schemes ds db) :
    (∀ d ∈ ds, ReadableIn db me d) ↔
      ∀ d id, schemes d = .v2Secp256k1 → id.participantId = me →
        db.presignatures.get (makeKey (some d) id) = none := by
  constructor
  · intro readable d id robust own
    rw [Option.eq_none_iff_forall_not_mem]
    intro stored there
    obtain ⟨listed, ⟨otBased, _⟩ | ⟨_, value, rfl⟩⟩ := written.scheme there
    · rw [robust] at otBased
      cases otBased
    · obtain ⟨_, unread⟩ := readable d listed id _ own there
      cases unread
  · intro absent d _ id stored own there
    obtain ⟨_, ⟨_, value, rfl⟩ | ⟨robust, _⟩⟩ := written.scheme there
    · exact ⟨value, rfl⟩
    · rw [absent d id robust own] at there
      cases there

variable {previous current : ParticipantsConfig}

theorem get_cleanedTriples (written : WrittenByStores schemes ds db)
    (range : makePrefixRange me none = .ok (start, stop)) (id : UniqueId) :
    (cleanedTriples (persistentParticipants previous current) start stop db.triples).get
        (makeKey none id) =
      (db.triples.get (makeKey none id)).filter fun pair =>
        id.participantId ≠ me ||
          (pair.1.participants ++ pair.2.participants).all (previous.keptKey current) := by
  rw [cleanedTriples, get_cleaned]
  simp only [key_in_range_iff range]
  cases there : db.triples.get (makeKey none id) with
  | none => simp
  | some pair =>
    have generated := (written.triples _ _ there).2
    have both : participantsFromTriples pair.1 pair.2 = pair.2.participants := by
      simp [participantsFromTriples, generated]
    by_cases own : id.participantId = me
    · simp [own, keeps, both, isSubset_persistent_iff, generated, Option.filter]
    · simp [own, Option.filter]

theorem get_cleanedPresignatures (written : WrittenByStores schemes ds db)
    (readable : ∀ d ∈ ds, ReadableIn db me d) (d : DomainId) (id : UniqueId) :
    (if d ∈ ds ∧ id.participantId = me then
        (db.presignatures.get (makeKey (some d) id)).filter
          (keepsPresignature (persistentParticipants previous current))
      else db.presignatures.get (makeKey (some d) id)) =
      (db.presignatures.get (makeKey (some d) id)).filter fun stored =>
        id.participantId ≠ me || stored.participants.all (previous.keptKey current) := by
  cases there : db.presignatures.get (makeKey (some d) id) with
  | none => simp
  | some stored =>
    by_cases own : id.participantId = me
    · have listed := (written.scheme there).1
      obtain ⟨value, taken⟩ := readable d listed id stored own there
      simp [own, listed, keepsPresignature_of_readable taken, isSubset_persistent_iff,
        Option.filter]
    · simp [own, Option.filter]

end Written

theorem assetCleanup_cases (known : getEpochData stored = .ok previous) (current : EpochData) :
    (assetCleanup current previous = .keep ∧
        (∀ epochId, storedEpoch stored = some epochId → epochId = current.epochId) ∧
        ∀ data, stored = some (.current data) →
          ¬ data.participants.KeysChanged current.participants) ∨
      (assetCleanup current previous = .deleteAll ∧
        ∀ epochId, storedEpoch stored = some epochId → epochId ≠ current.epochId) ∨
      ∃ data, stored = some (.current data) ∧ previous = some (.current data) ∧
        data.epochId = current.epochId ∧
        data.participants.KeysChanged current.participants := by
  rcases stored with _ | data | epochId | _
  · cases known
    exact .inl ⟨rfl, by simp [storedEpoch], by simp⟩
  · cases known
    by_cases sameEpoch : data.epochId = current.epochId
    · by_cases changed : data.participants.KeysChanged current.participants
      · exact .inr (.inr ⟨data, rfl, rfl, sameEpoch, changed⟩)
      · have same := not_not.mp (mt length_persistentParticipants_ne_iff.mp changed)
        refine .inl ⟨?_, ?_, ?_⟩
        · simp [assetCleanup, cleanupBehavior, sameEpoch, same]
        · simp [storedEpoch, sameEpoch]
        · simpa using changed
    · refine .inr (.inl ⟨?_, ?_⟩)
      · simp [assetCleanup, cleanupBehavior, sameEpoch]
      · simpa [storedEpoch] using sameEpoch
  · cases known
    by_cases sameEpoch : epochId = current.epochId
    · exact .inl ⟨by simp [assetCleanup, cleanupBehaviorDuringUpdate, sameEpoch],
        by simp [storedEpoch, sameEpoch], by simp⟩
    · refine .inr (.inl ⟨?_, ?_⟩)
      · simp [assetCleanup, cleanupBehaviorDuringUpdate, sameEpoch]
      · simpa [storedEpoch] using sameEpoch
  · cases known

/-- The clean-up works exactly when the epoch data can be read and, where keys changed, this node
    has no presignature of the robust scheme, which is read as one of the OT-based scheme. -/
theorem cleaned_up_iff_no_own_robust {schemes : DomainId → SignatureScheme}
    {ds : List DomainId} {before : AssetDb Share Point Scalar} (current : EpochData)
    (me : ParticipantId) (written : WrittenByStores schemes ds before) :
    CleanedUp current me before (deleteStaleTriplesAndPresignatures current me ds before) ↔
      CanCleanUp schemes current me before := by
  constructor
  · intro cleanedUp
    obtain ⟨previous, known, middle, applied, -⟩ := deleteStale_eq_ok.mp
      (Prod.ext cleanedUp.returned rfl : deleteStaleTriplesAndPresignatures current me ds before =
        (.ok (), (deleteStaleTriplesAndPresignatures current me ds before).2))
    constructor
    · intro malformed
      rw [malformed] at known
      cases known
    · intro previous' stored sameEpoch changed
      rw [stored] at known
      cases known
      rw [assetCleanup_changedKeys sameEpoch changed] at applied
      obtain ⟨start, stop, range, _, _, readable⟩ := keepOnly_ok applied
      refine ⟨?_, written.readable_iff.mp readable⟩
      by_contra large
      rw [makePrefixRange, if_neg large] at range
      cases range
  · rintro ⟨wellFormed, able⟩
    obtain ⟨previous, known⟩ : ∃ previous, getEpochData before.epochData = .ok previous := by
      rcases stored : before.epochData with _ | data | epochId | _
      · exact ⟨_, rfl⟩
      · exact ⟨_, rfl⟩
      · exact ⟨_, rfl⟩
      · exact absurd stored wellFormed
    obtain ⟨behavior, sameEpoch, unchanged⟩ | ⟨behavior, otherEpoch⟩ |
      ⟨data, stored, rfl, sameEpoch, changed⟩ := assetCleanup_cases known current
    · have applied : applyCleanup me ds (assetCleanup current previous) before = (.ok (), before) := by
        rw [behavior]
        rfl
      rw [deleteStale_eq_ok.mpr ⟨previous, known, before, applied, rfl⟩]
      refine ⟨rfl, ?_, ?_, rfl⟩
      · intro epochId there other
        exact absurd (sameEpoch epochId there) other
      · intro data stored _ changed
        exact absurd changed (unchanged data stored)
    · have applied : applyCleanup me ds (assetCleanup current previous) before =
          (.ok (), { before with triples := .empty, presignatures := .empty }) := by
        rw [behavior]
        rfl
      rw [deleteStale_eq_ok.mpr ⟨previous, known, _, applied, rfl⟩]
      refine ⟨rfl, ?_, ?_, rfl⟩
      · intro _ _ _ key
        exact ⟨get_empty key, get_empty key⟩
      · intro data stored sameEpoch
        exact absurd sameEpoch (otherEpoch data.epochId (by rw [stored]; rfl))
    · obtain ⟨fits, absent⟩ := able data stored sameEpoch changed
      have readable := written.readable_iff.mpr absent
      obtain ⟨middle, applied⟩ := keepOnly_returns
        (persistentParticipants data.participants current.participants) fits written.keyed readable
      obtain ⟨start, stop, range, triples, presignatures, _⟩ := keepOnly_ok applied
      rw [← assetCleanup_changedKeys sameEpoch changed] at applied
      rw [deleteStale_eq_ok.mpr ⟨_, known, middle, applied, rfl⟩]
      refine ⟨rfl, ?_, ?_, rfl⟩
      · intro epochId there other
        rw [stored] at there
        cases there
        exact absurd sameEpoch other
      · intro data' stored' _ _
        rw [stored] at stored'
        cases stored'
        refine ⟨fun id => ?_, fun d id => ?_⟩
        · rw [triples, get_cleanedTriples written range]
        · rw [presignatures, get_cleanedPresignatures written readable]

private def node (n : UInt32) (key : UInt8) : ParticipantInfo where
  id := ⟨n⟩
  address := "mpc-node"
  port := 24567
  p2pPublicKey := [key]
  nearAccountId := "node.near"

private def fiveNodes (lastKey : UInt8) : ParticipantsConfig where
  threshold := 5
  participants := [node 0 0, node 1 1, node 2 2, node 3 3, node 4 lastKey]

private def robustOfAll :
    PresignOutputWithParticipants (RobustEcdsa.PresignOutput Unit Nat) where
  presignature := ⟨(), 1, 2, 3, 4⟩
  participants := [⟨0⟩, ⟨1⟩, ⟨2⟩, ⟨3⟩, ⟨4⟩]

private def otBasedOfAll :
    PresignOutputWithParticipants (OtBasedEcdsa.PresignOutput Unit Nat) where
  presignature := ⟨(), 1, 2⟩
  participants := [⟨0⟩, ⟨1⟩, ⟨2⟩, ⟨3⟩, ⟨4⟩]

private def onlyDomain : DomainId := ⟨0⟩

private def ownPresignature : List UInt8 := makeKey (some onlyDomain) (UniqueId.new ⟨0⟩ 7 0)

private def storing (stored : StoredPresignature Unit Nat) : AssetDb Unit Unit Nat where
  triples := .empty
  presignatures := Db.empty.put ownPresignature stored
  epochData := some (.current ⟨⟨3⟩, fiveNodes 4⟩)

private theorem get_storing {stored found : StoredPresignature Unit Nat}
    (there : (storing stored).presignatures.get key = some found) :
    key = ownPresignature ∧ found = stored := by
  rw [storing, Db.get_put] at there
  split at there
  · rename_i same
    exact ⟨same, (Option.some.inj there).symm⟩
  · cases there

/-- Node four changed its key, and node zero has a robust presignature: the clean-up fails at every
    start. -/
theorem own_robust_presignature_stops_cleanup :
    WrittenByStores (fun _ => .v2Secp256k1) [onlyDomain] (storing (serializeRobust robustOfAll)) ∧
      (fiveNodes 4).KeysChanged (fiveNodes 9) ∧
      (deleteStaleTriplesAndPresignatures ⟨⟨3⟩, fiveNodes 9⟩ ⟨0⟩ [onlyDomain]
        (storing (serializeRobust robustOfAll))).1 = .error (.failed (.missingField "k")) ∧
      ¬ CleanedUp ⟨⟨3⟩, fiveNodes 9⟩ ⟨0⟩ (storing (serializeRobust robustOfAll))
        (deleteStaleTriplesAndPresignatures ⟨⟨3⟩, fiveNodes 9⟩ ⟨0⟩ [onlyDomain]
          (storing (serializeRobust robustOfAll))) := by
  have failed : (deleteStaleTriplesAndPresignatures ⟨⟨3⟩, fiveNodes 9⟩ ⟨0⟩ [onlyDomain]
      (storing (serializeRobust robustOfAll))).1 = .error (.failed (.missingField "k")) := by
    decide +kernel
  refine ⟨⟨?_, ?_⟩, ⟨node 4 9, by decide, node 4 4, by decide, by decide⟩, failed, ?_⟩
  · intro key pair there
    cases there
  · intro key found there
    obtain ⟨rfl, rfl⟩ := get_storing there
    exact ⟨onlyDomain, by simp, ⟨_, rfl⟩, .inr ⟨rfl, robustOfAll, rfl⟩⟩
  · intro cleanedUp
    have returned := cleanedUp.returned
    rw [failed] at returned
    cases returned

theorem cleaned_up_iff_no_own_robust_otBased :
    WrittenByStores (fun _ => .secp256k1) [onlyDomain] (storing (serializeOtBased otBasedOfAll)) ∧
      CleanedUp ⟨⟨3⟩, fiveNodes 9⟩ ⟨0⟩ (storing (serializeOtBased otBasedOfAll))
        (deleteStaleTriplesAndPresignatures ⟨⟨3⟩, fiveNodes 9⟩ ⟨0⟩ [onlyDomain]
          (storing (serializeOtBased otBasedOfAll))) := by
  have written : WrittenByStores (fun _ => .secp256k1) [onlyDomain]
      (storing (serializeOtBased otBasedOfAll)) := by
    refine ⟨?_, ?_⟩
    · intro key pair there
      cases there
    · intro key found there
      obtain ⟨rfl, rfl⟩ := get_storing there
      exact ⟨onlyDomain, by simp, ⟨_, rfl⟩, .inl ⟨rfl, otBasedOfAll, rfl⟩⟩
  refine ⟨written, (cleaned_up_iff_no_own_robust _ _ written).mpr ⟨by simp [storing], ?_⟩⟩
  intro _ _ _ _
  exact ⟨by decide, fun _ _ robust => by cases robust⟩

end Whole

end MpcNetwork.Node.Assets.Cleanup
