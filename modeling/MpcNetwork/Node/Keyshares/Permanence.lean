import MpcNetwork.Lib.Runs
import MpcNetwork.Node.Keyshares.Storage

/-! # What the permanent storage comes to hold

The shares for a keyset are those of the permanent storage, as far as they go, and then those of
the temporary storage.  The former are compared with the keyset, the latter only by the name of
their file, so that a share with another public key is taken for one of the keyset.

What is stored permanently is replaced only by something that continues it.
-/

namespace MpcNetwork.Node.Keyshares

open List hiding keys
open Contract (EpochId KeyEventId KeyForDomain Keyset)
open Fallible Jobs Jobs.Job Runs

variable {curves : Curves}

namespace KeyshareStorage

variable {s : KeyshareStorage curves} {keyset : Keyset} {shares : List (Keyshare curves)}

private theorem zip_take {α β : Type} (as : List α) (bs : List β) :
    as.zip (bs.take as.length) = as.zip bs := by
  induction as generalizing bs with
  | nil => rfl
  | cons a as ih =>
    cases bs with
    | nil => rfl
    | cons b bs => simp only [length_cons, take_succ_cons, zip_cons_cons, ih]

theorem verifyExistingKeysharesArePrefixOfKeyset_eq_ok {existing : List (Keyshare curves)} :
    verifyExistingKeysharesArePrefixOfKeyset existing epochId expected = .ok () ↔
      Forall₂ (·.Matches epochId ·) existing (expected.take existing.length) := by
  simp only [verifyExistingKeysharesArePrefixOfKeyset, bind_ok_iff, require_eq_ok, forM_ok_iff,
    mapError_eq_ok, Keyshare.checkConsistency_eq_ok, forall₂_iff_zip, length_take]
  rw [zip_take]
  constructor
  · rintro ⟨_, fewer, each⟩
    refine ⟨by omega, fun {share key} inside => ?_⟩
    obtain ⟨index, here⟩ := mem_iff_getElem?.mp inside
    exact each ((share, key), index) (mk_mem_zipIdx_iff_getElem?.mpr here)
  · rintro ⟨length, each⟩
    refine ⟨(), by omega, fun entry inside => ?_⟩
    exact each (fst_mem_of_mem_zipIdx inside)

/-- The shares of the epoch in the permanent storage. -/
def permanentKeyshares (s : KeyshareStorage curves) (epochId : EpochId) : List (Keyshare curves) :=
  match s.permanent with
  | some (.current data) => if data.epochId = epochId then data.keyshares else []
  | _ => []

theorem loadPrefixFromPermanent_ok (loaded : s.loadPrefixFromPermanent keyset = .ok existing) :
    existing = s.permanentKeyshares keyset.epochId ∧
      Forall₂ (·.Matches keyset.epochId ·) existing
        (keyset.domains.take existing.length) := by
  simp only [loadPrefixFromPermanent, bind_ok_iff, pure_ok_iff] at loaded
  obtain ⟨permanent, read, _, verified, rfl⟩ := loaded
  refine ⟨?_, verifyExistingKeysharesArePrefixOfKeyset_eq_ok.mp verified⟩
  unfold loadPermanent at read
  unfold permanentKeyshares
  split at read <;> cases read <;> simp_all

theorem loadKeyshare_eq_some :
    s.loadKeyshare keyId = .ok (some share) ↔
      s.temporary.lookup (.keyshare keyId) = some (.keyshare share) ∧ share.keyId = keyId := by
  unfold loadKeyshare
  split
  · simp_all
  · simp_all
  · rename_i other found
    simp only [bind_ok_iff, require_eq_ok, pure_ok_iff, found]
    constructor
    · rintro ⟨_, sameId, same⟩
      cases same
      exact ⟨rfl, sameId⟩
    · rintro ⟨same, sameId⟩
      cases same
      exact ⟨(), sameId, rfl⟩

/-- The share in the temporary storage that a loop over the keys picks up. -/
def InTemporary (s : KeyshareStorage curves) (epochId : EpochId) (key : KeyForDomain)
    (share : Keyshare curves) : Prop :=
  s.temporary.lookup (.keyshare (keyIdOf epochId key)) = some (.keyshare share) ∧
    share.keyId = keyIdOf epochId key

theorem getKeyshares_ok (returned : s.getKeyshares keyset = .ok shares) :
    ∃ existing rest, existing = s.permanentKeyshares keyset.epochId ∧ shares = existing ++ rest ∧
      Forall₂ (·.Matches keyset.epochId ·) existing (keyset.domains.take existing.length) ∧
      Forall₂ (s.InTemporary keyset.epochId) (keyset.domains.drop existing.length) rest := by
  simp only [getKeyshares, loadKeysharesFromPermanentOrTemporary, bind_ok_iff] at returned
  obtain ⟨loaded, ⟨existing, hasPrefix, rest⟩, done⟩ := returned
  obtain ⟨isExisting, agree⟩ := loadPrefixFromPermanent_ok hasPrefix
  split at rest
  · rename_i all
    cases rest
    cases done
    refine ⟨shares, [], isExisting, by simp, agree, ?_⟩
    rw [all, drop_length]
    exact .nil
  · simp only [bind_ok_iff, pure_ok_iff, complete, foldlM_push_ok_iff, found_eq_ok] at rest
    obtain ⟨_, ⟨rest, rfl, each⟩, rfl⟩ := rest
    cases done
    refine ⟨existing, rest, isExisting, rfl, agree, each.imp ?_⟩
    rintro key share ⟨_, loaded, rfl⟩
    exact loadKeyshare_eq_some.mp loaded

theorem getKeyshares_of_updatePermanentKeyshares
    (returned : updatePermanentKeyshares keyset s = (.ok shares, t)) :
    s.getKeyshares keyset = .ok shares := by
  rw [updatePermanentKeyshares, bind_eq_ok] at returned
  obtain ⟨loaded, u, looked, rest⟩ := returned
  obtain ⟨isLoaded, rfl⟩ := inspect_eq_ok.mp looked
  rw [getKeyshares, isLoaded]
  cases loaded with
  | permanent keyshares =>
    obtain ⟨rfl, _⟩ := pure_eq_ok.mp rest
    rfl
  | permanentAndTemporary keyshares =>
    rw [bind_eq_ok] at rest
    obtain ⟨_, _, _, done⟩ := rest
    obtain ⟨rfl, _⟩ := pure_eq_ok.mp done
    rfl

/-- A temporary share under a key event of the keyset has the keyset's public key. -/
def TemporaryAgrees (s : KeyshareStorage curves) (keyset : Keyset) : Prop :=
  ∀ key ∈ keyset.domains.drop (s.permanentKeyshares keyset.epochId).length, ∀ share,
    s.temporary.lookup (.keyshare (keyIdOf keyset.epochId key)) = some (.keyshare share) →
    share.publicKey = .ok (.ofExtended key.key)

theorem matches_iff_agrees (loaded : Forall₂ (s.InTemporary epochId) keys shares) :
    Forall₂ (·.Matches epochId ·) shares keys ↔
      ∀ key ∈ keys, ∀ share,
        s.temporary.lookup (.keyshare (keyIdOf epochId key)) = some (.keyshare share) →
        share.publicKey = .ok (.ofExtended key.key) := by
  induction loaded with
  | nil => simp
  | cons first _ ih =>
    obtain ⟨here, sameId⟩ := first
    rw [forall₂_cons, ih, forall_mem_cons]
    refine and_congr_left fun _ => ⟨?_, fun agrees => ⟨sameId, agrees _ here⟩⟩
    intro isKey share found
    rw [here] at found
    cases found
    exact isKey.publicKey

/-- The shares returned are those of the keyset in its order, just if the temporary storage agrees
    with the keyset about the public keys. -/
theorem keyshares_match_iff
    (returned : s.getKeyshares keyset = .ok shares ∨
      (updatePermanentKeyshares keyset s).1 = .ok shares) :
    List.Forall₂ (·.Matches keyset.epochId ·) shares keyset.domains ↔
      s.TemporaryAgrees keyset := by
  have loaded : s.getKeyshares keyset = .ok shares := by
    rcases returned with got | updated
    · exact got
    · exact getKeyshares_of_updatePermanentKeyshares (Prod.ext updated rfl)
  obtain ⟨_, rest, rfl, rfl, agree, others⟩ := getKeyshares_ok loaded
  rw [TemporaryAgrees, ← matches_iff_agrees others]
  constructor
  · intro all
    have later := forall₂_drop (s.permanentKeyshares keyset.epochId).length all
    rwa [drop_left] at later
  · intro later
    have both := rel_append agree later
    dsimp only at both
    rwa [take_append_drop] at both

/-- A keyset with one key, whose public key is the byte 5. -/
private def oneKey : Keyset := ⟨⟨1⟩, [⟨⟨0⟩, .secp256k1 ⟨[1, 5]⟩, ⟨0⟩⟩]⟩

private def byteCurve : Curve := ⟨Nat, UInt8⟩

private def byteCurves : Curves where
  secp256k1 := byteCurve
  ed25519 := byteCurve
  bls12381 := byteCurve
  encodeSecp256k1 := fun byte => some [byte]
  encodeEd25519 := fun byte => [byte]
  encodeBls12381 := fun byte => [byte]

/-- A share of epoch `epochId` with the given byte for its public key. -/
private def shareOf (epochId : Nat) (publicKey : UInt8) : Keyshare byteCurves :=
  ⟨⟨⟨epochId⟩, ⟨0⟩, ⟨0⟩⟩, .secp256k1 ⟨(3 : Nat), publicKey⟩⟩

private def committed (share : Keyshare byteCurves) : KeyshareStorage byteCurves where
  temporary := (∅ : Table FileName (Contents byteCurves)).insert
    (.keyshare share.keyId) (.keyshare share)
  permanent := none
  writesLeft := 5

/-- A share with the public key 7 is returned, and stored permanently, for the public key 5. -/
theorem foreign_public_key_returned :
    (committed (shareOf 1 7)).getKeyshares oneKey = .ok [shareOf 1 7] ∧
      (updatePermanentKeyshares oneKey (committed (shareOf 1 7))).1 = .ok [shareOf 1 7] ∧
      (updatePermanentKeyshares oneKey (committed (shareOf 1 7))).2.permanent =
        some (.current ⟨⟨1⟩, [shareOf 1 7]⟩) ∧
      (shareOf 1 7).publicKey = .ok (.secp256k1 [7]) ∧
      oneKey.domains.map (fun key => PublicKey.ofExtended key.key) = [.secp256k1 [5]] :=
  ⟨rfl, rfl, rfl, rfl, rfl⟩

/-- The share that was generated for the keyset is returned. -/
theorem keyshares_match_iff_generated :
    (updatePermanentKeyshares oneKey (committed (shareOf 1 5))).1 = .ok [shareOf 1 5] ∧
      List.Forall₂ (·.Matches oneKey.epochId ·) [shareOf 1 5] oneKey.domains := by
  have returned :
      (updatePermanentKeyshares oneKey (committed (shareOf 1 5))).1 = .ok [shareOf 1 5] := rfl
  refine ⟨returned, (keyshares_match_iff (.inr returned)).mpr ?_⟩
  intro key inside share found
  cases mem_singleton.mp inside
  cases found
  rfl

end KeyshareStorage

namespace PermanentKeyshareData

/-- The epoch is not older, in the same epoch there are more shares after the same ones, and every
    domain is at its place with its public key. -/
structure ExtendedBy (old new : PermanentKeyshareData curves) : Prop where
  epoch : old.epochId.value ≤ new.epochId.value
  sameEpoch : old.epochId = new.epochId → old.keyshares <+: new.keyshares
  kept : ∀ (i : Nat) (share : Keyshare curves), old.keyshares[i]? = some share →
    ∃ later : Keyshare curves, new.keyshares[i]? = some later ∧
      later.keyId.domainId = share.keyId.domainId ∧ later.publicKey = share.publicKey

theorem ExtendedBy.refl (data : PermanentKeyshareData curves) : data.ExtendedBy data :=
  ⟨Nat.le_refl _, fun _ => prefix_rfl, fun _ share here => ⟨share, here, rfl, rfl⟩⟩

theorem ExtendedBy.trans {a : PermanentKeyshareData curves} (first : a.ExtendedBy b)
    (second : b.ExtendedBy c) : a.ExtendedBy c where
  epoch := first.epoch.trans second.epoch
  sameEpoch := by
    intro same
    have low := first.epoch
    have high := second.epoch
    have middle : a.epochId = b.epochId := by
      rw [← same] at high
      exact EpochId.ext (Nat.le_antisymm low high)
    exact (first.sameEpoch middle).trans (second.sameEpoch (middle ▸ same))
  kept := by
    intro i share here
    obtain ⟨later, there, sameDomain, sameKey⟩ := first.kept i share here
    obtain ⟨last, found, lastDomain, lastKey⟩ := second.kept i later there
    exact ⟨last, found, lastDomain.trans sameDomain, lastKey.trans sameKey⟩

theorem checkReplacement_ok {existing new : Keyshare curves}
    (allowed : checkReplacement same existing new = .ok ()) :
    new.keyId.domainId = existing.keyId.domainId ∧ new.publicKey = existing.publicKey := by
  simp only [checkReplacement, bind_ok_iff, require_eq_ok] at allowed
  obtain ⟨_, sameDomain, _, _, _, oldKey, _, newKey, rfl⟩ := allowed
  exact ⟨sameDomain.symm, newKey.trans oldKey.symm⟩

theorem extendedBy_of_checkOverwrite {existing new : PermanentKeyshareData curves}
    (allowed : checkOverwrite existing new = .ok ())
    (grown : existing.epochId = new.epochId → existing.keyshares <+: new.keyshares) :
    existing.ExtendedBy new := by
  simp only [checkOverwrite, bind_ok_iff, require_eq_ok, forM_ok_iff] at allowed
  obtain ⟨_, notNewer, _, notMore, _, _, each⟩ := allowed
  refine ⟨by omega, grown, ?_⟩
  intro i share here
  obtain ⟨inside, _⟩ := List.getElem?_eq_some_iff.mp here
  obtain ⟨later, there⟩ : ∃ later, new.keyshares[i]? = some later :=
    ⟨_, getElem?_eq_getElem (by omega)⟩
  refine ⟨later, there, ?_⟩
  have pair : (existing.keyshares.zip new.keyshares)[i]? = some (share, later) :=
    getElem?_zip_eq_some.mpr ⟨here, there⟩
  exact checkReplacement_ok (each _ (mem_of_getElem? pair))

end PermanentKeyshareData

namespace KeyshareStorage

variable {s : KeyshareStorage curves} {old data : PermanentKeyshareData curves}

/-- The permanent object is there and may come after the old one. -/
def Grown (old : PermanentKeyshareData curves) (s : KeyshareStorage curves) : Prop :=
  ∃ data, s.permanent = some (.current data) ∧ old.ExtendedBy data

theorem grown_storePermanent (current : s.permanent = some (.current old))
    (grown : old.epochId = data.epochId → old.keyshares <+: data.keyshares) :
    Grown old (storePermanent data s).2 := by
  have start : Grown old s := ⟨old, current, .refl old⟩
  refine inspect_bind_ends start ?_
  intro existing loaded
  simp only [loadPermanent, current, mapError_eq_ok] at loaded
  cases loaded
  refine ofExcept_bind_ends start ?_
  intro _ allowed
  exact write_ends start ⟨data, rfl, PermanentKeyshareData.extendedBy_of_checkOverwrite allowed grown⟩

theorem eq_of_new (made : PermanentKeyshareData.new epochId keyshares = .ok data) :
    data = ⟨epochId, keyshares⟩ := by
  simp only [PermanentKeyshareData.new, bind_ok_iff, pure_ok_iff] at made
  obtain ⟨_, _, _, _, _, _, rfl⟩ := made
  rfl

theorem grown_storeNewPermanentKeysetDataDeleteTemporary
    (current : s.permanent = some (.current old))
    (grown : s.permanentKeyshares epochId <+: keyshares) :
    Grown old (storeNewPermanentKeysetDataDeleteTemporary epochId keyshares s).2 := by
  have start : Grown old s := ⟨old, current, .refl old⟩
  refine ofExcept_bind_ends start ?_
  intro data made
  obtain rfl := eq_of_new made
  have stored : Grown old (storePermanent ⟨epochId, keyshares⟩ s).2 := by
    refine grown_storePermanent current ?_
    rintro rfl
    simpa [permanentKeyshares, current] using grown
  refine bind_ends stored ?_
  intro _ t returned
  rw [returned] at stored
  refine maintains_deleteKeysharesPriorToEpochId ?_ t stored
  exact fun _ _ _ _ _ grown => grown

theorem grown_updatePermanentKeyshares (current : s.permanent = some (.current old)) :
    Grown old (updatePermanentKeyshares keyset s).2 := by
  have start : Grown old s := ⟨old, current, .refl old⟩
  refine inspect_bind_ends start ?_
  intro loaded isLoaded
  cases loaded with
  | permanent keyshares => exact start
  | permanentAndTemporary keyshares =>
    have got : s.getKeyshares keyset = .ok keyshares := by
      rw [getKeyshares, isLoaded]
      rfl
    obtain ⟨_, rest, rfl, rfl, _⟩ := getKeyshares_ok got
    have stored := grown_storeNewPermanentKeysetDataDeleteTemporary current
      (prefix_append (s.permanentKeyshares keyset.epochId) rest)
    refine bind_ends stored ?_
    intro _ t returned
    rw [returned] at stored
    exact stored

theorem grown_importBackup (current : s.permanent = some (.current old)) :
    Grown old (importBackup backup keyset s).2 := by
  have start : Grown old s := ⟨old, current, .refl old⟩
  refine inspect_bind_ends start ?_
  intro keyshares constructed
  refine ofExcept_bind_ends start ?_
  intro _ _
  simp only [constructKeyset, bind_ok_iff, complete, foldlM_push_ok_iff] at constructed
  obtain ⟨_, _, _, _, existing, loaded, rest, rfl, _⟩ := constructed
  obtain ⟨rfl, _⟩ := loadPrefixFromPermanent_ok loaded
  exact grown_storeNewPermanentKeysetDataDeleteTemporary current (prefix_append _ _)

end KeyshareStorage

/-- A call that may replace the permanent object. -/
inductive PermanentCall (curves : Curves) where
  | updatePermanentKeyshares (keyset : Keyset)
  | importBackup (backup : List (Keyshare curves)) (contractKeyset : Keyset)

open KeyshareStorage

/-- A call finds these files in the temporary storage and makes at most so many writes. -/
def PermanentCall.perform (s : KeyshareStorage curves)
    (input : PermanentCall curves × Table FileName (Contents curves) × Nat) :
    Option (KeyshareStorage curves × Unit) :=
  let s := { s with temporary := input.2.1, writesLeft := input.2.2 }
  match input.1 with
  | updatePermanentKeyshares keyset =>
    some ((KeyshareStorage.updatePermanentKeyshares keyset s).2, ())
  | importBackup backup contractKeyset =>
    some ((KeyshareStorage.importBackup backup contractKeyset s).2, ())

/-- Whatever the calls are, the permanent storage after them extends the one before. -/
theorem permanent_storage_grows {s t : KeyshareStorage curves}
    {es : List ((PermanentCall curves × Table FileName (Contents curves) × Nat) × Unit)}
    {old : PermanentKeyshareData curves} (run : Run (Acts PermanentCall.perform) s es t)
    (stored : s.permanent = some (.current old)) :
    ∃ new, t.permanent = some (.current new) ∧ old.ExtendedBy new := by
  refine run.invariant (fun _ t => Grown old t) ⟨old, stored, .refl old⟩ ?_
  rintro es u ⟨⟨call, files, writes⟩, _⟩ w _ ⟨data, current, extended⟩ acted
  have next : Grown data w := by
    cases call with
    | updatePermanentKeyshares keyset =>
      cases acted
      exact grown_updatePermanentKeyshares current
    | importBackup backup keyset =>
      cases acted
      exact grown_importBackup current
  obtain ⟨new, isNew, further⟩ := next
  exact ⟨new, isNew, extended.trans further⟩

/-- A backup of the next epoch is imported, then the keyset of that epoch is asked for. -/
private def importAndUpdate :
    List (PermanentCall byteCurves × Table FileName (Contents byteCurves) × Nat) :=
  [(.importBackup [shareOf 2 5] ⟨⟨2⟩, oneKey.domains⟩, ∅, 4),
    (.updatePermanentKeyshares ⟨⟨2⟩, oneKey.domains⟩, ∅, 4)]

theorem permanent_storage_grows_imported :
    ∃ es, ∃ s t : KeyshareStorage byteCurves, ∃ new : PermanentKeyshareData byteCurves,
      Run (Acts PermanentCall.perform) s es t ∧ es.map Prod.fst = importAndUpdate ∧
      s.permanent = some (.current ⟨⟨1⟩, [shareOf 1 5]⟩) ∧ t.permanent = some (.current new) ∧
      new = ⟨⟨2⟩, [shareOf 2 5]⟩ ∧
      PermanentKeyshareData.ExtendedBy ⟨⟨1⟩, [shareOf 1 5]⟩ new := by
  have ran : replay PermanentCall.perform ⟨∅, some (.current ⟨⟨1⟩, [shareOf 1 5]⟩), 0⟩
      importAndUpdate = some (_, importAndUpdate.map fun call => (call, ())) := rfl
  obtain ⟨new, isNew, extended⟩ := permanent_storage_grows (run_of_replay ran) rfl
  exact ⟨_, _, _, new, run_of_replay ran, rfl, rfl, isNew, by cases isNew; rfl, extended⟩

end MpcNetwork.Node.Keyshares
