import Mathlib.Data.List.Perm.Subperm
import MpcNetwork.Node.Keyshares.Permanence

/-! # One handle for each key event

A share of a key event is generated under a handle, and a handle is given out when the marker of
the key event is created.  Markers of old epochs are deleted, but only after the permanent storage
has come to a newer epoch, and from then on no handle is given out for an older one.  A process
that stops at any write and starts again finds the markers it has left.
-/

namespace MpcNetwork.Node.Keyshares

open Contract (EpochId KeyEventId KeyForDomain Keyset)
open Fallible Jobs Jobs.Job Runs

variable {curves : Curves}

variable {other : KeyEventId}

namespace KeyshareStorage

variable {s : KeyshareStorage curves} {keyId : KeyEventId}

/-- Its marker is there, or the permanent storage has come to a newer epoch. -/
def Spent (keyId : KeyEventId) (s : KeyshareStorage curves) : Prop :=
  s.temporary.lookup (.started keyId) ≠ none ∨
    ∃ data, s.permanent = some (.current data) ∧ keyId.epochId.value < data.epochId.value

theorem createNew_eq_ok :
    createNew file s = (.ok (), t) ↔
      s.temporary.lookup file = none ∧ s.writesLeft ≠ 0 ∧
        { s with
          temporary := s.temporary.insert file .malformed
          writesLeft := s.writesLeft - 1 } = t := by
  rw [createNew, bind_eq_ok]
  simp only [inspect_eq_ok, require_eq_ok, Option.isNone_iff_eq_none, write_eq]
  constructor
  · rintro ⟨_, _, ⟨absent, rfl⟩, wrote⟩
    split at wrote
    · cases wrote
    · rename_i running
      cases wrote
      exact ⟨absent, running, rfl⟩
  · rintro ⟨absent, running, rfl⟩
    exact ⟨(), s, ⟨absent, rfl⟩, by rw [if_neg running]⟩

theorem startGeneratingKeyshare_eq_ok :
    startGeneratingKeyshare keyId s = (.ok handle, t) ↔
      handle = ⟨keyId⟩ ∧ createNew (.started keyId) s = (.ok (), t) := by
  rw [startGeneratingKeyshare, bind_eq_ok]
  simp only [pure_eq_ok]
  constructor
  · rintro ⟨_, _, created, rfl, rfl⟩
    exact ⟨rfl, created⟩
  · rintro ⟨rfl, created⟩
    exact ⟨(), t, created, rfl, rfl⟩

theorem spent_of_started (started : startGeneratingKeyshare keyId s = (.ok handle, t))
    (notNewer : ∀ data, s.permanent = some (.current data) →
      data.epochId.value ≤ keyId.epochId.value) :
    handle = ⟨keyId⟩ ∧ ¬ Spent keyId s ∧ Spent keyId t := by
  obtain ⟨rfl, created⟩ := startGeneratingKeyshare_eq_ok.mp started
  obtain ⟨absent, _, rfl⟩ := createNew_eq_ok.mp created
  refine ⟨rfl, ?_, .inl ?_⟩
  · rintro (marked | ⟨data, current, newer⟩)
    · exact marked absent
    · have := notNewer data current
      omega
  · simp [AList.lookup_insert]

theorem loadPermanent_eq_ok {permanent : Option (PermanentKeyshareData curves)} :
    s.loadPermanent = .ok permanent ↔ s.permanent = permanent.map .current := by
  unfold loadPermanent
  split <;> rename_i stored <;> cases permanent <;> simp_all

theorem startGeneratingKey_ok (returned : startGeneratingKey keys keyId s = (.ok handle, t)) :
    handle = ⟨keyId⟩ ∧ ¬ Spent keyId s ∧ Spent keyId t := by
  rw [startGeneratingKey] at returned
  simp only [bind_eq_ok, inspect_eq_ok, ofExcept_eq_ok] at returned
  obtain ⟨permanent, _, ⟨loaded, rfl⟩, count, _, ⟨counted, rfl⟩, _, _, ⟨_, rfl⟩, started⟩ := returned
  refine spent_of_started started ?_
  intro data current
  rw [loadPermanent_eq_ok, current] at loaded
  obtain ⟨_, rfl, same⟩ := Option.map_eq_some_iff.mp loaded.symm
  cases same
  simp only [numPermanentKeysSameEpoch] at counted
  split at counted
  · rename_i same
    exact same ▸ Nat.le_refl _
  · split at counted
    · cases counted
    · rename_i older
      omega

theorem startResharingKey_ok (returned : startResharingKey keys keyId s = (.ok handle, t)) :
    handle = ⟨keyId⟩ ∧ ¬ Spent keyId s ∧ Spent keyId t := by
  rw [startResharingKey] at returned
  simp only [bind_eq_ok, inspect_eq_ok, ofExcept_eq_ok] at returned
  obtain ⟨permanent, _, ⟨loaded, rfl⟩, _, _, ⟨older, rfl⟩, _, _, ⟨_, rfl⟩, started⟩ := returned
  refine spent_of_started started ?_
  intro data current
  rw [loadPermanent_eq_ok, current] at loaded
  obtain ⟨_, rfl, same⟩ := Option.map_eq_some_iff.mp loaded.symm
  cases same
  have := require_eq_ok.mp older
  omega

theorem maintains_inspect {α : Type}
    {look : KeyshareStorage curves → Except KeyshareError α} : Maintains I (inspect look) :=
  maintains_read.bind fun _ => maintains_ofExcept

theorem Spent.insert {n : Nat} (spent : Spent keyId s) :
    Spent keyId { s with temporary := s.temporary.insert file contents, writesLeft := n } := by
  rcases spent with marked | newer
  · refine .inl ?_
    rw [Table.lookup_insert_eq]
    split
    · simp
    · exact marked
  · exact .inr newer

theorem maintains_createNew :
    Maintains (Spent keyId : KeyshareStorage curves → Prop) (createNew file) :=
  maintains_inspect.bind fun _ _ spent => write_ends spent spent.insert

theorem maintains_startGeneratingKeyshare :
    Maintains (Spent keyId : KeyshareStorage curves → Prop) (startGeneratingKeyshare other) :=
  maintains_createNew.bind fun _ => maintains_pure

theorem maintains_startGeneratingKey :
    Maintains (Spent keyId : KeyshareStorage curves → Prop) (startGeneratingKey keys other) := by
  refine maintains_inspect.bind fun permanent => ?_
  refine maintains_ofExcept.bind fun count => ?_
  exact maintains_inspect.bind fun _ => maintains_startGeneratingKeyshare

theorem maintains_startResharingKey :
    Maintains (Spent keyId : KeyshareStorage curves → Prop) (startResharingKey keys other) := by
  refine maintains_inspect.bind fun permanent => ?_
  refine maintains_ofExcept.bind fun _ => ?_
  exact maintains_inspect.bind fun _ => maintains_startGeneratingKeyshare

theorem maintains_commitKeyshare : Maintains (Spent keyId) (commitKeyshare handle share) := by
  refine maintains_ofExcept.bind fun _ => ?_
  exact maintains_createNew.bind fun _ _ spent => write_ends spent spent.insert

theorem maintains_storePermanent : Maintains (Spent keyId) (storePermanent data) := by
  intro s spent
  refine inspect_bind_ends spent ?_
  intro existing loaded
  rw [mapError_eq_ok, loadPermanent_eq_ok] at loaded
  refine ofExcept_bind_ends spent ?_
  intro _ allowed
  refine write_ends spent ?_
  rcases spent with marked | ⟨old, current, newer⟩
  · exact .inl marked
  · rw [current] at loaded
    obtain ⟨_, rfl, same⟩ := Option.map_eq_some_iff.mp loaded.symm
    cases same
    simp only [Option.elim_some, PermanentKeyshareData.checkOverwrite, bind_ok_iff,
      require_eq_ok] at allowed
    obtain ⟨_, notNewer, _⟩ := allowed
    exact .inr ⟨data, rfl, by omega⟩

theorem storePermanent_ok (returned : storePermanent data s = (.ok (), t)) :
    t.permanent = some (.current data) := by
  rw [storePermanent] at returned
  simp only [bind_eq_ok, inspect_eq_ok, ofExcept_eq_ok, storeUnchecked, write_eq] at returned
  obtain ⟨_, _, ⟨_, rfl⟩, _, _, ⟨_, rfl⟩, wrote⟩ := returned
  split at wrote
  · cases wrote
  · cases wrote
    rfl

/-- The markers that are deleted belong to epochs before the stored one. -/
theorem maintains_storeNewPermanentKeysetDataDeleteTemporary :
    Maintains (Spent keyId) (storeNewPermanentKeysetDataDeleteTemporary epochId keyshares) := by
  intro s spent
  refine ofExcept_bind_ends spent ?_
  intro data made
  obtain rfl := eq_of_new made
  refine bind_ends (maintains_storePermanent s spent) ?_
  intro _ t returned
  have start : Spent keyId t ∧ t.permanent = some (.current ⟨epochId, keyshares⟩) :=
    ⟨maintains_storePermanent.after spent returned, storePermanent_ok returned⟩
  refine (maintains_deleteKeysharesPriorToEpochId (I := fun t => Spent keyId t ∧
    t.permanent = some (.current ⟨epochId, keyshares⟩)) ?_ t start).1
  rintro u file fileEpochId isEpoch older ⟨spent, current⟩
  refine ⟨?_, current⟩
  by_cases isMarker : file = .started keyId
  · subst isMarker
    cases isEpoch
    exact .inr ⟨_, current, older⟩
  · rcases spent with marked | newer
    · refine .inl ?_
      rw [Table.lookup_erase_eq, if_neg (Ne.symm isMarker)]
      exact marked
    · exact .inr newer

theorem maintains_updatePermanentKeyshares {keyset : Keyset} :
    Maintains (Spent keyId : KeyshareStorage curves → Prop) (updatePermanentKeyshares keyset) := by
  refine maintains_inspect.bind fun loaded => ?_
  cases loaded with
  | permanent keyshares => exact maintains_pure
  | permanentAndTemporary keyshares =>
    exact maintains_storeNewPermanentKeysetDataDeleteTemporary.bind fun _ => maintains_pure

theorem maintains_importBackup {backup : List (Keyshare curves)} {keyset : Keyset} :
    Maintains (Spent keyId) (importBackup backup keyset) := by
  refine maintains_inspect.bind fun keyshares => ?_
  exact maintains_ofExcept.bind fun _ => maintains_storeNewPermanentKeysetDataDeleteTemporary

theorem maintains_migratePermanent :
    Maintains (Spent keyId : KeyshareStorage curves → Prop) migratePermanent := by
  intro s spent
  refine bind_ends spent ?_
  intro stored t read
  obtain ⟨isStored, rfl⟩ := read_eq_ok.mp read
  cases stored with
  | none => exact spent
  | some stored =>
    cases stored with
    | current | malformed => exact spent
    | legacy legacy =>
      refine write_ends spent ?_
      rcases spent with marked | ⟨data, current, _⟩
      · exact .inl marked
      · rw [isStored] at current
        cases current

end KeyshareStorage

/-- A node between two operations: what is stored and the handles it has in memory. -/
structure KeyshareNode (curves : Curves) where
  storage : KeyshareStorage curves
  handles : List PendingKeyshareStorageHandle

inductive KeyshareCall (curves : Curves) where
  | startGeneratingKey (alreadyGeneratedKeys : List KeyForDomain) (keyIdToGenerate : KeyEventId)
  | startResharingKey (alreadyResharedKeys : List KeyForDomain) (keyIdToGenerate : KeyEventId)
  | commitKeyshare (handle : PendingKeyshareStorageHandle) (keyshare : Keyshare curves)
  | updatePermanentKeyshares (keyset : Keyset)
  | importBackup (backup : List (Keyshare curves)) (contractKeyset : Keyset)
  | restart

inductive Outcome where
  | granted (keyId : KeyEventId)
  | committed (keyId : KeyEventId)
  | other
  deriving Repr, DecidableEq

variable {node after : KeyshareNode curves}

namespace KeyshareNode

open KeyshareStorage

/-- The node after a start, with the handle if there is one. -/
def afterStart (node : KeyshareNode curves) :
    Except (Stop KeyshareError) PendingKeyshareStorageHandle × KeyshareStorage curves →
      KeyshareNode curves × Outcome
  | (.ok handle, storage) => (⟨storage, handle :: node.handles⟩, .granted handle.keyId)
  | (.error _, storage) => (⟨storage, node.handles⟩, .other)

/-- One operation with at most so many writes. A commit uses its handle up, a restart all. -/
def perform (node : KeyshareNode curves) (input : KeyshareCall curves × Nat) :
    Option (KeyshareNode curves × Outcome) :=
  let s := { node.storage with writesLeft := input.2 }
  match input.1 with
  | .startGeneratingKey keys keyId => some (node.afterStart (startGeneratingKey keys keyId s))
  | .startResharingKey keys keyId => some (node.afterStart (startResharingKey keys keyId s))
  | .commitKeyshare handle keyshare =>
    if handle ∈ node.handles then
      match commitKeyshare handle keyshare s with
      | (.ok _, t) => some (⟨t, node.handles.erase handle⟩, .committed handle.keyId)
      | (.error _, t) => some (⟨t, node.handles.erase handle⟩, .other)
    else none
  | .updatePermanentKeyshares keyset =>
    some (⟨(updatePermanentKeyshares keyset s).2, node.handles⟩, .other)
  | .importBackup backup contractKeyset =>
    some (⟨(importBackup backup contractKeyset s).2, node.handles⟩, .other)
  | .restart => some (⟨(migratePermanent s).2, []⟩, .other)

inductive Moves (node after : KeyshareNode curves) : Outcome → Prop where
  | granted (keyId : KeyEventId) : ¬ Spent keyId node.storage → Spent keyId after.storage →
      after.handles = ⟨keyId⟩ :: node.handles → Moves node after (.granted keyId)
  | committed (handle : PendingKeyshareStorageHandle) : handle ∈ node.handles →
      after.handles = node.handles.erase handle → Moves node after (.committed handle.keyId)
  | other : after.handles.Sublist node.handles → Moves node after .other

theorem storage_afterStart (node : KeyshareNode curves)
    (result : Except (Stop KeyshareError) PendingKeyshareStorageHandle × KeyshareStorage curves) :
    (node.afterStart result).1.storage = result.2 := by
  obtain ⟨_ | handle, t⟩ := result <;> rfl

theorem moves_afterStart
    {job : StorageJob curves PendingKeyshareStorageHandle}
    (ok : ∀ handle s t, job s = (.ok handle, t) → handle = ⟨keyId⟩ ∧ ¬ Spent keyId s ∧ Spent keyId t)
    (done : node.afterStart (job { node.storage with writesLeft := writes }) = (after, outcome)) :
    Moves node after outcome := by
  rcases started : job { node.storage with writesLeft := writes } with ⟨_ | handle, t⟩
  · rw [started] at done
    cases done
    exact .other (List.Sublist.refl _)
  · rw [started] at done
    cases done
    obtain ⟨rfl, unspent, spent⟩ := ok handle _ t started
    exact .granted keyId unspent spent rfl

theorem moves_perform {input : KeyshareCall curves × Nat}
    (done : node.perform input = some (after, outcome)) : Moves node after outcome := by
  obtain ⟨call, writes⟩ := input
  cases call with
  | startGeneratingKey keys keyId =>
    have started := Option.some.inj done
    exact moves_afterStart (fun _ _ _ => startGeneratingKey_ok) started
  | startResharingKey keys keyId =>
    have started := Option.some.inj done
    exact moves_afterStart (fun _ _ _ => startResharingKey_ok) started
  | commitKeyshare handle keyshare =>
    simp only [perform] at done
    split at done
    · rename_i isOpen
      split at done <;> cases done
      · exact .committed handle isOpen rfl
      · exact .other List.erase_sublist
    · cases done
  | updatePermanentKeyshares | importBackup =>
    cases done
    exact .other (List.Sublist.refl _)
  | restart =>
    cases done
    exact .other (List.nil_sublist _)

theorem spent_perform (spent : Spent keyId node.storage)
    (done : node.perform input = some (after, outcome)) : Spent keyId after.storage := by
  obtain ⟨call, writes⟩ := input
  have start : Spent keyId { node.storage with writesLeft := writes } := spent
  cases call with
  | startGeneratingKey keys other =>
    have started := Option.some.inj done
    have same := storage_afterStart node
      (startGeneratingKey keys other { node.storage with writesLeft := writes })
    rw [started] at same
    exact same ▸ maintains_startGeneratingKey _ start
  | startResharingKey keys other =>
    have started := Option.some.inj done
    have same := storage_afterStart node
      (startResharingKey keys other { node.storage with writesLeft := writes })
    rw [started] at same
    exact same ▸ maintains_startResharingKey _ start
  | commitKeyshare handle keyshare =>
    simp only [perform] at done
    split at done
    · split at done <;> rename_i ran <;> cases done
      · exact maintains_commitKeyshare.after start ran
      · exact maintains_commitKeyshare.after start ran
    · cases done
  | updatePermanentKeyshares keyset =>
    cases done
    exact maintains_updatePermanentKeyshares _ start
  | importBackup backup keyset =>
    cases done
    exact maintains_importBackup _ start
  | restart =>
    cases done
    exact maintains_migratePermanent _ start

end KeyshareNode

/-- An operation with the writes it makes at most, and what came of it. -/
abbrev KeyshareEvent (curves : Curves) := (KeyshareCall curves × Nat) × Outcome

/-- The key events for which handles were given out, in order. -/
def grantedIds (es : List (KeyshareEvent curves)) : List KeyEventId :=
  es.filterMap fun e => match e.2 with
    | .granted keyId => some keyId
    | _ => none

/-- The key events for which shares were committed, in order. -/
def committedIds (es : List (KeyshareEvent curves)) : List KeyEventId :=
  es.filterMap fun e => match e.2 with
    | .committed keyId => some keyId
    | _ => none

namespace KeyshareNode

open KeyshareStorage

/-- What was given out is spent; commits and the handles that are left are among it. -/
structure Accounted (es : List (KeyshareEvent curves)) (node : KeyshareNode curves) : Prop where
  spent : ∀ keyId ∈ grantedIds es, Spent keyId node.storage
  once : (grantedIds es).Nodup
  used : (committedIds es ++ node.handles.map (·.keyId)).Subperm (grantedIds es)

theorem accounted_step (accounted : Accounted es node) (done : Acts perform node e after) :
    Accounted (es ++ [e]) after := by
  obtain ⟨input, outcome⟩ := e
  have kept : ∀ keyId ∈ grantedIds es, Spent keyId after.storage :=
    fun keyId inside => spent_perform (accounted.spent keyId inside) done
  have split : ∀ f : KeyshareEvent curves → Option KeyEventId,
      (es ++ [(input, outcome)]).filterMap f = es.filterMap f ++ (f (input, outcome)).toList := by
    intro f
    rw [List.filterMap_append]
    cases given : f (input, outcome) <;> simp [given]
  cases moves_perform done with
  | granted keyId unspent spent handles =>
    have isNew : keyId ∉ grantedIds es := fun inside => unspent (accounted.spent keyId inside)
    have granted : grantedIds (es ++ [(input, .granted keyId)]) = grantedIds es ++ [keyId] :=
      split _
    have committed : committedIds (es ++ [(input, .granted keyId)]) = committedIds es :=
      (split _).trans (List.append_nil _)
    refine ⟨?_, ?_, ?_⟩
    · rw [granted]
      intro other inside
      rcases List.mem_append.mp inside with earlier | now
      · exact kept other earlier
      · cases List.mem_singleton.mp now
        exact spent
    · rw [granted]
      exact accounted.once.append (List.nodup_singleton _) (by simpa using isNew)
    · rw [granted, committed, handles]
      have more := (List.subperm_cons keyId).mpr accounted.used
      refine (List.perm_middle.subperm.trans more).trans ?_
      exact (List.perm_append_singleton keyId (grantedIds es)).symm.subperm
  | committed handle isOpen handles =>
    have granted : grantedIds (es ++ [(input, .committed handle.keyId)]) = grantedIds es :=
      (split _).trans (List.append_nil _)
    have committed : committedIds (es ++ [(input, .committed handle.keyId)]) =
        committedIds es ++ [handle.keyId] := split _
    refine ⟨granted ▸ kept, granted ▸ accounted.once, ?_⟩
    rw [granted, committed, handles, List.append_assoc]
    have moved := (List.perm_cons_erase isOpen).symm.map (·.keyId)
    exact (moved.append_left (committedIds es)).subperm.trans accounted.used
  | other handles =>
    have granted : grantedIds (es ++ [(input, .other)]) = grantedIds es :=
      (split _).trans (List.append_nil _)
    have committed : committedIds (es ++ [(input, .other)]) = committedIds es :=
      (split _).trans (List.append_nil _)
    refine ⟨granted ▸ kept, granted ▸ accounted.once, ?_⟩
    rw [granted, committed]
    have fewer := (handles.map (·.keyId)).append_left (committedIds es)
    exact fewer.subperm.trans accounted.used

end KeyshareNode

open KeyshareNode

/-- Wherever operations stop, no key event is given a handle or committed twice. -/
theorem one_handle_per_key_event {storage : KeyshareStorage curves}
    {es : List (KeyshareEvent curves)} {node : KeyshareNode curves}
    (run : Run (Acts perform) ⟨storage, []⟩ es node) :
    (grantedIds es).Nodup ∧ (committedIds es).Nodup := by
  have accounted : Accounted es node := by
    refine run.invariant Accounted ⟨?_, .nil, List.Subperm.refl _⟩ ?_
    · simp [grantedIds]
    · exact fun es node e after _ accounted done => accounted_step accounted done
  refine ⟨accounted.once, ?_⟩
  obtain ⟨listed, same, sub⟩ := accounted.used
  have distinct := same.nodup_iff.mp (accounted.once.sublist sub)
  exact (List.nodup_append.mp distinct).1

private def unitCurve : Curve := ⟨Unit, UInt8⟩

private def unitCurves : Curves where
  secp256k1 := unitCurve
  ed25519 := unitCurve
  bls12381 := unitCurve
  encodeSecp256k1 := fun byte => some [byte]
  encodeEd25519 := fun byte => [byte]
  encodeBls12381 := fun byte => [byte]

private def firstKey : KeyEventId := ⟨⟨1⟩, ⟨0⟩, ⟨0⟩⟩

private def secondKey : KeyEventId := ⟨⟨2⟩, ⟨0⟩, ⟨0⟩⟩

private def unitShare (keyId : KeyEventId) : Keyshare unitCurves := ⟨keyId, .ed25519 ⟨(), (9 : UInt8)⟩⟩

/-- A key is generated and reshared, and the process stops twice in between. -/
private def stopAndRetry : List (KeyshareCall unitCurves × Nat) :=
  [(.startGeneratingKey [] firstKey, 1),
    (.commitKeyshare ⟨firstKey⟩ (unitShare firstKey), 2),
    (.startResharingKey [] secondKey, 1),
    (.restart, 0),
    (.startResharingKey [] secondKey, 1),
    (.importBackup [unitShare secondKey] ⟨⟨2⟩, [⟨⟨0⟩, .ed25519 ⟨[0, 9]⟩ ⟨0, 0⟩, ⟨0⟩⟩]⟩, 1),
    (.restart, 0),
    (.startGeneratingKey [] firstKey, 1)]

theorem one_handle_per_key_event_retried :
    ∃ es, ∃ node : KeyshareNode unitCurves,
      Run (Acts perform) ⟨⟨∅, none, 0⟩, []⟩ es node ∧ es.map Prod.fst = stopAndRetry ∧
      (grantedIds es = [firstKey, secondKey] ∧ committedIds es = [firstKey]) ∧
      (grantedIds es).Nodup ∧ (committedIds es).Nodup := by
  obtain ⟨es, node, run, inputs, shown⟩ := exists_run perform
    (⟨⟨∅, none, 0⟩, []⟩ : KeyshareNode unitCurves) stopAndRetry (fun es _ =>
      grantedIds es = [firstKey, secondKey] ∧ committedIds es = [firstKey]) (by decide +kernel)
  exact ⟨es, node, run, inputs, shown, one_handle_per_key_event run⟩

end MpcNetwork.Node.Keyshares
