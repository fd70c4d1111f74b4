import Mathlib.Data.List.AList
import Mathlib.Data.List.Sort
import MpcNetwork.Lib.Fallible
import MpcNetwork.Node.Assets.Queues

/-! # The distributed asset storage of one node

One column of the key-value database holds the assets, owned and unowned alike.
The owned ones are also in the double queue, which a restart fills again from the
database.  Values are stored as they are: serialising and encrypting them and
reading them back is taken to be the identity.
-/

namespace MpcNetwork.Node.Assets

open BigEndian List

structure Db (T : Type) where
  column : AList fun _ : List UInt8 => T

namespace Db

variable {T : Type}

def empty : Db T := ⟨∅⟩

def get (db : Db T) (key : List UInt8) : Option T := db.column.lookup key

def put (db : Db T) (key : List UInt8) (value : T) : Db T := ⟨db.column.insert key value⟩

def delete (db : Db T) (key : List UInt8) : Db T := ⟨db.column.erase key⟩

/-- The entries with `start ≤ key < stop`, in the order of their keys. -/
def iterRange (db : Db T) (start stop : List UInt8) : List (List UInt8 × T) :=
  ((db.column.entries.map fun entry => (entry.1, entry.2)).filter
    fun entry => start ≤ entry.1 ∧ entry.1 < stop).insertionSort fun a b => a.1 ≤ b.1

theorem get_put (db : Db T) (key other : List UInt8) (value : T) :
    (db.put key value).get other = if other = key then some value else db.get other := by
  by_cases same : other = key
  · subst same
    rw [if_pos rfl]
    exact AList.lookup_insert db.column
  · rw [if_neg same]
    exact AList.lookup_insert_ne same

theorem get_delete (db : Db T) (key other : List UInt8) :
    (db.delete key).get other = if other = key then none else db.get other := by
  by_cases same : other = key
  · subst same
    rw [if_pos rfl]
    exact AList.lookup_erase other db.column
  · rw [if_neg same]
    exact AList.lookup_erase_ne same

theorem mem_iterRange {db : Db T} :
    (key, value) ∈ db.iterRange start stop ↔
      db.get key = some value ∧ start ≤ key ∧ key < stop := by
  simp only [iterRange, mem_insertionSort, mem_filter, mem_map, decide_eq_true_eq,
    get]
  refine and_congr_left fun _ => ⟨?_, fun found => ⟨⟨key, value⟩, AList.mem_lookup_iff.mp found, rfl⟩⟩
  rintro ⟨⟨k, v⟩, inside, same⟩
  cases same
  exact AList.mem_lookup_iff.mpr inside

theorem nodup_keys_iterRange (db : Db T) (start stop : List UInt8) :
    ((db.iterRange start stop).map Prod.fst).Nodup := by
  have distinct : ((db.column.entries.map fun entry => (entry.1, entry.2)).map Prod.fst).Nodup := by
    rw [map_map]
    exact db.column.nodupKeys
  have sorted := (perm_insertionSort (fun a b : List UInt8 × T => a.1 ≤ b.1)
    ((db.column.entries.map fun entry => (entry.1, entry.2)).filter
      fun entry => start ≤ entry.1 ∧ entry.1 < stop)).map Prod.fst
  exact sorted.nodup_iff.mpr (distinct.sublist (filter_sublist.map Prod.fst))

theorem sorted_keys_iterRange (db : Db T) (start stop : List UInt8) :
    ((db.iterRange start stop).map Prod.fst).Pairwise (· ≤ ·) := by
  have total : Std.Total fun a b : List UInt8 × T => a.1 ≤ b.1 := 
    ⟨fun a b => List.le_total a.1 b.1⟩
  have trans : IsTrans (List UInt8 × T) fun a b => a.1 ≤ b.1 := ⟨fun _ _ _ => List.le_trans⟩
  exact pairwise_map.mpr (pairwise_insertionSort _ _)

end Db

/-- Why an operation of the storage gives no result.  The first two are panics. -/
inductive StorageError where
  | participantIdOverflow
  | keyTooShort
  | malformedKey
  | unownedNotFound (id : UniqueId)
  deriving Repr, DecidableEq

structure DistributedAssetStorage (T : Type) where
  db : Db T
  domainId : Option DomainId
  myParticipantId : ParticipantId
  ownedQueue : DoubleQueue T (List ParticipantId)
  lastId : Option UniqueId

/-- The bytes of the domain id that every key of the storage starts with. -/
def domainBytes : Option DomainId → List UInt8
  | none => []
  | some domainId => toBeBytes 8 domainId.id.toNat

def makePrefixRange (participantId : ParticipantId) (domainId : Option DomainId) :
    Except StorageError (List UInt8 × List UInt8) :=
  if participantId.raw.toNat + 1 < 2 ^ 32 then
    .ok (domainBytes domainId ++ UniqueId.prefixForParticipantId participantId,
      domainBytes domainId ++ UniqueId.prefixForParticipantId ⟨participantId.raw + 1⟩)
  else .error .participantIdOverflow

def makeKey (domainId : Option DomainId) (id : UniqueId) : List UInt8 :=
  domainBytes domainId ++ id.serialize

def decodeKey (key : List UInt8) (domainId : Option DomainId) : Except StorageError UniqueId := do
  let key ←
    if domainId.isSome then
      if key.length < 8 then .error .keyTooShort else .ok (key.drop 8)
    else .ok key
  match UniqueId.tryFromSlice key with
  | some id => .ok id
  | none => .error .malformedKey

namespace DistributedAssetStorage

variable {T : Type}

/-- One turn of the start-up scan: decode the key, queue the asset, remember its id. -/
def load (domainId : Option DomainId)
    (loaded : DoubleQueue T (List ParticipantId) × Option UniqueId) (item : List UInt8 × T) :
    Except StorageError (DoubleQueue T (List ParticipantId) × Option UniqueId) := do
  let id ← decodeKey item.1 domainId
  .ok (loaded.1.addOwned id item.2, some id)

def new (now : Instant) (db : Db T) (domainId : Option DomainId) (myParticipantId : ParticipantId)
    (condition : List ParticipantId → T → Bool) :
    Except StorageError (DistributedAssetStorage T) := do
  let (start, stop) ← makePrefixRange myParticipantId domainId
  let (ownedQueue, lastId) ←
    (db.iterRange start stop).foldlM (load domainId) (.new now condition [], none)
  .ok { db, domainId, myParticipantId, ownedQueue, lastId }

def key (s : DistributedAssetStorage T) (id : UniqueId) : List UInt8 :=
  makeKey s.domainId id

/-- The first id of the next range; `none` is a panic here and below. -/
def pickStart (s : DistributedAssetStorage T) (now : UInt64) : Option UniqueId :=
  match s.lastId with
  | some lastId => lastId.pickNewAfter now
  | none => some (.generate s.myParticipantId now)

def generateAndReserveIdRange (s : DistributedAssetStorage T) (now : UInt64) (count : UInt32) :
    Option (DistributedAssetStorage T × UniqueId) := do
  guard (0 < count)
  let start ← s.pickStart now
  let last ← (start.addToCounter (count - 1)).toOption
  some ({ s with lastId := some last }, start)

/-- What `take_owned` does once the queue has given an asset: delete it and return it. -/
def finishTakeOwned (s : DistributedAssetStorage T) :
    DoubleQueue T (List ParticipantId) × Option (UniqueId × T) →
      DistributedAssetStorage T × Option (UniqueId × T)
  | (queue, none) => ({ s with ownedQueue := queue }, none)
  | (queue, some (id, asset)) =>
    ({ s with ownedQueue := queue, db := s.db.delete (s.key id) }, some (id, asset))

/-- Call `take_owned` and let it run for as many turns as there are polls. -/
def takeOwned (s : DistributedAssetStorage T) (first : Reading (List ParticipantId))
    (polls : List (Poll (List ParticipantId))) :
    Option (DistributedAssetStorage T × Option (UniqueId × T)) :=
  (s.ownedQueue.takeOwned first polls).map s.finishTakeOwned

/-- Let an earlier `take_owned` that is still pending run on. -/
def resumeTakeOwned (s : DistributedAssetStorage T) (polls : List (Poll (List ParticipantId))) :
    Option (DistributedAssetStorage T × Option (UniqueId × T)) :=
  (DoubleQueue.takeOwnedLoop polls s.ownedQueue).map s.finishTakeOwned

def addOwned (s : DistributedAssetStorage T) (id : UniqueId) (value : T) :
    DistributedAssetStorage T :=
  { s with db := s.db.put (s.key id) value, ownedQueue := s.ownedQueue.addOwned id value }

def maybeDiscardOwned (s : DistributedAssetStorage T) (numAssetsToProcess : Nat)
    (first : Reading (List ParticipantId))
    (coldReadings hotReadings : Nat → Reading (List ParticipantId)) :
    Option (DistributedAssetStorage T) := do
  let (queue, removedColdIds) ←
    s.ownedQueue.maybeDiscardOwned numAssetsToProcess first coldReadings hotReadings
  some
    { s with
      ownedQueue := queue
      db := removedColdIds.foldl (fun db id => db.delete (s.key id)) s.db }

def addUnowned (s : DistributedAssetStorage T) (id : UniqueId) (value : T) :
    DistributedAssetStorage T :=
  { s with db := s.db.put (s.key id) value }

/-- The database alone decides: whether the id is one of our own is not looked at. -/
def takeUnowned (s : DistributedAssetStorage T) (id : UniqueId) :
    Except StorageError (DistributedAssetStorage T × T) :=
  match s.db.get (s.key id) with
  | none => .error (.unownedNotFound id)
  | some value => .ok ({ s with db := s.db.delete (s.key id) }, value)

theorem takeUnowned_eq_ok {s next : DistributedAssetStorage T} {id : UniqueId} :
    s.takeUnowned id = .ok (next, value) ↔
      s.db.get (s.key id) = some value ∧ { s with db := s.db.delete (s.key id) } = next := by
  unfold takeUnowned
  cases s.db.get (s.key id) with
  | none => simp
  | some stored => simp [and_comm]

end DistributedAssetStorage

@[simp] theorem length_domainBytes_some (d : DomainId) : (domainBytes (some d)).length = 8 :=
  length_toBeBytes 8 _

theorem makeKey_inj (alike : e.isSome = d.isSome)
    (same : makeKey e a = makeKey d b) : e = d ∧ a = b := by
  have sameLength : (domainBytes e).length = (domainBytes d).length := by
    cases d <;> cases e <;> simp at alike ⊢
  obtain ⟨domains, ids⟩ := append_inj same sameLength
  refine ⟨?_, UniqueId.serialize_injective ids⟩
  cases d with
  | none => simpa using alike
  | some d =>
    obtain ⟨e, rfl⟩ := Option.isSome_iff_exists.mp alike
    have sameId := toBeBytes_injective e.id.toNat_lt d.id.toNat_lt domains
    rw [UInt64.toNat_inj] at sameId
    exact congrArg (some <| DomainId.mk ·) sameId

theorem makeKey_injective (same : makeKey domainId a = makeKey domainId b) : a = b :=
  (makeKey_inj rfl same).2

theorem makeKey_lt_iff (domainId : Option DomainId) (a b : UniqueId) :
    makeKey domainId a < makeKey domainId b ↔ a.id.toNat < b.id.toNat := by
  rw [makeKey, makeKey, append_lt_append_left_iff, lt_iff_ofBeBytes_lt (by simp),
    UniqueId.serialize, UniqueId.serialize, ofBeBytes_toBeBytes a.id.isLt,
    ofBeBytes_toBeBytes b.id.isLt]

theorem decodeKey_makeKey (domainId : Option DomainId) (id : UniqueId) :
    decodeKey (makeKey domainId id) domainId = .ok id := by
  cases domainId with
  | none => simp [decodeKey, makeKey, domainBytes, UniqueId.tryFromSlice_serialize, bind, Except.bind]
  | some d =>
    have rest : (makeKey (some d) id).drop 8 = id.serialize := by
      rw [makeKey, ← length_domainBytes_some d, drop_left]
    have long : ¬ (makeKey (some d) id).length < 8 := by simp [makeKey]
    simp only [decodeKey, Option.isSome_some, if_true, if_neg long, rest,
      UniqueId.tryFromSlice_serialize, bind, Except.bind]

theorem decodeKey_ok {id : UniqueId} (decoded : decodeKey key domainId = .ok id) :
    id.serialize = key.drop (domainBytes domainId).length ∧
      key.length = (domainBytes domainId).length + 16 := by
  have parsed : ∀ rest : List UInt8,
      (match UniqueId.tryFromSlice rest with
        | some id => Except.ok id
        | none => .error StorageError.malformedKey) = .ok id →
      id.serialize = rest ∧ rest.length = 16 := by
    intro rest matched
    split at matched
    · rename_i accepted
      cases matched
      have bytes := UniqueId.serialize_of_tryFromSlice accepted
      exact ⟨bytes, bytes ▸ UniqueId.length_serialize id⟩
    · cases matched
  cases domainId with
  | none => simpa only [domainBytes, length_nil, drop_zero, Nat.zero_add] using parsed key decoded
  | some d =>
    simp only [decodeKey, Option.isSome_some, if_true] at decoded
    split at decoded
    · cases decoded
    · have ⟨bytes, length⟩ := parsed (key.drop 8) decoded
      rw [length_drop] at length
      rw [length_domainBytes_some]
      exact ⟨bytes, by omega⟩

/-- A key of the scanned range that decodes at all is the key of the id it decodes to. -/
theorem makeKey_of_decodeKey {id : UniqueId}
    (range : makePrefixRange p domainId = .ok (start, stop))
    (above : start ≤ key) (below : key < stop) (decoded : decodeKey key domainId = .ok id) :
    makeKey domainId id = key := by
  obtain ⟨bytes, length⟩ := decodeKey_ok decoded
  unfold makePrefixRange at range
  split at range
  · rename_i fits
    cases range
    have next : (p.raw + 1).toNat = p.raw.toNat + 1 := by
      rw [UInt32.toNat_add]
      exact Nat.mod_eq_of_lt fits
    rw [UniqueId.prefixForParticipantId, next] at below
    obtain ⟨rest, rfl⟩ := prefix_of_between fits (domainBytes domainId) key (by omega) above below
    rw [makeKey, bytes, append_assoc, drop_left]
  · cases range

/-- The scanned range has the keys of the participant's ids in the domain and no other keys. -/
theorem stored_key_in_range_iff {id : UniqueId}
    (alike : e.isSome = d.isSome) (range : makePrefixRange p d = .ok (start, stop)) :
    (start ≤ makeKey e id ∧ makeKey e id < stop) ↔ e = d ∧ id.participantId = p := by
  unfold makePrefixRange at range
  split at range
  · rename_i fits
    cases range
    have next : (p.raw + 1).toNat = p.raw.toNat + 1 := by
      rw [UInt32.toNat_add]
      exact Nat.mod_eq_of_lt fits
    have own : ∀ q : ParticipantId, q.raw.toNat = p.raw.toNat ↔ q = p := by
      intro q
      rw [UInt32.toNat_inj]
      exact ⟨fun same => congrArg ParticipantId.mk same, fun same => congrArg ParticipantId.raw same⟩
    have sameDomain : (domainBytes d ++ UniqueId.prefixForParticipantId p ≤ makeKey e id ∧
        makeKey e id < domainBytes d ++ UniqueId.prefixForParticipantId ⟨p.raw + 1⟩) → e = d := by
      rintro ⟨above, below⟩
      rw [UniqueId.prefixForParticipantId, next] at below
      have sameLength : (domainBytes e).length = (domainBytes d).length := by
        cases d <;> cases e <;> simp at alike ⊢
      obtain ⟨rest, bytes⟩ := prefix_of_between fits (domainBytes d) (makeKey e id)
        (by simp [makeKey, sameLength]) above below
      rw [makeKey, append_assoc] at bytes
      have domains := (append_inj bytes sameLength).1
      exact (makeKey_inj alike (by rw [makeKey, makeKey, domains] : makeKey e id = makeKey d id)).1
    refine ⟨fun inside => ?_, ?_⟩
    · obtain rfl := sameDomain inside
      obtain ⟨rest, bytes⟩ := id.serialize_eq
      simp only [makeKey, bytes, UniqueId.prefixForParticipantId, next] at inside
      rw [between_iff fits id.participantId.raw.toNat_lt, own] at inside
      exact ⟨rfl, inside⟩
    · rintro ⟨rfl, rfl⟩
      obtain ⟨rest, bytes⟩ := id.serialize_eq
      simp only [makeKey, bytes, UniqueId.prefixForParticipantId, next]
      exact (between_iff fits id.participantId.raw.toNat_lt _ _).mpr rfl
  · cases range

theorem key_in_range_iff {id : UniqueId} (range : makePrefixRange p domainId = .ok (start, stop)) :
    (start ≤ makeKey domainId id ∧ makeKey domainId id < stop) ↔ id.participantId = p := by
  rw [stored_key_in_range_iff rfl range, and_iff_right rfl]

namespace DistributedAssetStorage

variable {T : Type} {domainId : Option DomainId}

theorem foldlM_load {items : List (List UInt8 × T)}
    (keyed : ∀ item ∈ items, ∀ id, decodeKey item.1 domainId = .ok id → makeKey domainId id = item.1)
    (ran : items.foldlM (load domainId) loaded = .ok result) :
    result.1.cold = loaded.1.cold ∧
      result.1.hot.map (makeKey domainId ·.1) =
        loaded.1.hot.map (makeKey domainId ·.1) ++ items.map Prod.fst ∧
      result.2.map (makeKey domainId) =
        (items.map Prod.fst).getLast?.or (loaded.2.map (makeKey domainId)) := by
  induction items generalizing loaded with
  | nil =>
    cases ran
    exact ⟨rfl, by simp only [map_nil, append_nil], rfl⟩
  | cons item items ih =>
    cases decoded : decodeKey item.1 domainId with
    | error e => simp only [foldlM_cons, load, decoded, bind, Except.bind, reduceCtorEq] at ran
    | ok id =>
      simp only [foldlM_cons, load, decoded, bind, Except.bind] at ran
      obtain ⟨cold, hot, last⟩ := ih (fun _ inside => keyed _ (mem_cons_of_mem _ inside)) ran
      have here := keyed item mem_cons_self id decoded
      refine ⟨cold, ?_, ?_⟩
      · rw [hot]
        simp only [DoubleQueue.addOwned, map_append, map_cons, map_nil, here,
          append_assoc, singleton_append]
      · rw [last, map_cons, getLast?_cons, Option.map_some, here]
        cases (items.map Prod.fst).getLast? <;> rfl

theorem myParticipantId_new {db : Db T} (created : new now db domainId p condition = .ok s) :
    s.myParticipantId = p := by
  simp only [new, Fallible.bind_ok_iff] at created
  obtain ⟨_, _, _, _, done⟩ := created
  cases done
  rfl

theorem new_ok {db : Db T} (created : new now db domainId p condition = .ok s) :
    s.db = db ∧ s.domainId = domainId ∧
      ∃ start stop, makePrefixRange p domainId = .ok (start, stop) ∧
        s.ownedQueue.heldIds.map (makeKey domainId) = (db.iterRange start stop).map Prod.fst ∧
        s.lastId.map (makeKey domainId) = ((db.iterRange start stop).map Prod.fst).getLast? := by
  unfold new at created
  cases range : makePrefixRange p domainId with
  | error e => simp only [range, bind, Except.bind, reduceCtorEq] at created
  | ok bounds =>
    obtain ⟨start, stop⟩ := bounds
    simp only [range, bind, Except.bind] at created
    split at created
    · cases created
    · rename_i loaded ran
      cases created
      refine ⟨rfl, rfl, start, stop, rfl, ?_⟩
      have keyed : ∀ item ∈ db.iterRange start stop, ∀ id,
          decodeKey item.1 domainId = .ok id → makeKey domainId id = item.1 := by
        intro item inside id decoded
        obtain ⟨_, above, below⟩ := Db.mem_iterRange.mp inside
        exact makeKey_of_decodeKey range above below decoded
      obtain ⟨cold, hot, last⟩ := foldlM_load keyed ran
      refine ⟨?_, by simpa using last⟩
      simpa only [DoubleQueue.heldIds, DoubleQueue.held, cold, DoubleQueue.new, ColdQueue.new,
        append_nil, map_map, Function.comp_def, map_nil, nil_append] using hot

end DistributedAssetStorage

end MpcNetwork.Node.Assets
