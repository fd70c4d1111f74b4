import MpcNetwork.Contract.LauncherCoverage
import MpcNetwork.Contract.Whitelist

/-! # The list of allowed images over time

Images are inserted and expired images are dropped while block times do not go back and the
deadline for upgrades stays the same.  The list then holds the images that were inserted last, in
the order of their last insertions.  An image is allowed until the grace period of a later one is
over, whether or not expired images have been dropped.
-/

namespace MpcNetwork.Contract

open Runs List
open Tee (MpcDockerImageHash)

section

variable {α β : Type} {p : α → Bool} {x : α} {xs : List α}

/-- From the last element on that satisfies the predicate, the whole list if none does. -/
def fromLast (p : α → Bool) : List α → List α
  | [] => []
  | x :: xs => if xs.any p then fromLast p xs else x :: xs

theorem rposition_cons : rposition p (x :: xs) =
    ((rposition p xs).map (· + 1)).or (if p x then some 0 else none) := by
  unfold rposition
  rw [reverse_cons, findIdx?_append]
  cases found : xs.reverse.findIdx? p with
  | none => cases holds : p x <;> simp [holds]
  | some i =>
    obtain ⟨inside, _⟩ := findIdx?_eq_some_iff_getElem.mp found
    rw [length_reverse] at inside
    simp only [Option.some_or, Option.map_some, length_cons, Option.some.injEq]
    omega

theorem rposition_eq_none_iff : rposition p xs = none ↔ ∀ x ∈ xs, p x = false := by
  simp [rposition]

theorem drop_rposition : xs.drop ((rposition p xs).getD 0) = fromLast p xs := by
  induction xs with
  | nil => rfl
  | cons x xs ih =>
    rw [rposition_cons, fromLast]
    cases found : rposition p xs with
    | none =>
      have never : xs.any p = false := by
        simpa using rposition_eq_none_iff.mp found
      simp only [never, Bool.false_eq_true, if_false]
      cases p x <;> rfl
    | some i =>
      have some : xs.any p = true := by
        by_contra never
        rw [rposition_eq_none_iff.mpr (by simpa using never)] at found
        cases found
      rw [if_pos some, ← ih, found]
      rfl

theorem fromLast_of_any (holds : ys.any p) : fromLast p (xs ++ ys) = fromLast p ys := by
  induction xs with
  | nil => rfl
  | cons x xs ih =>
    rw [cons_append, fromLast, any_append, holds, Bool.or_true, if_pos rfl, ih]

theorem fromLast_cons_of_not_any (never : ∀ y ∈ ys, p y = false) :
    fromLast p (x :: ys) = x :: ys := by
  rw [fromLast, if_neg]
  simpa using never

theorem fromLast_cases (p : α → Bool) (xs : List α) :
    (∃ older last newer, xs = older ++ last :: newer ∧ p last ∧ (∀ x ∈ newer, p x = false) ∧
      fromLast p xs = last :: newer) ∨
    (∀ x ∈ xs, p x = false) ∧ fromLast p xs = xs := by
  induction xs with
  | nil => exact .inr ⟨by simp, rfl⟩
  | cons x xs ih =>
    rcases ih with ⟨older, last, newer, rfl, holds, never, isSuffix⟩ | ⟨never, _⟩
    · refine .inl ⟨x :: older, last, newer, rfl, holds, never, ?_⟩
      rw [fromLast, if_pos (by simp [holds]), isSuffix]
    · have whole : fromLast p (x :: xs) = x :: xs := fromLast_cons_of_not_any never
      cases first : p x with
      | true => exact .inl ⟨[], x, xs, rfl, first, never, whole⟩
      | false => exact .inr ⟨forall_mem_cons.mpr ⟨first, never⟩, whole⟩

theorem fromLast_ne_nil (nonempty : xs ≠ []) : fromLast p xs ≠ [] := by
  rcases fromLast_cases p xs with ⟨_, _, _, _, _, _, isSuffix⟩ | ⟨_, isWhole⟩
  · rw [isSuffix]
    exact cons_ne_nil _ _
  · rwa [isWhole]

/-- Cutting with a stronger predicate first makes no difference. -/
theorem fromLast_map_fromLast (weaker : ∀ b ∈ xs, p b → q (f b)) :
    fromLast q ((fromLast p xs).map f) = fromLast q (xs.map f) := by
  rcases fromLast_cases p xs with ⟨older, last, newer, rfl, holds, _, isSuffix⟩ | ⟨_, isWhole⟩
  · rw [isSuffix, map_append]
    refine (fromLast_of_any ?_).symm
    simp [weaker last (by simp) holds]
  · rw [isWhole]

theorem fromLast_fromLast (weaker : ∀ x ∈ xs, p x → q x) :
    fromLast q (fromLast p xs) = fromLast q xs := by
  simpa only [map_id] using fromLast_map_fromLast (f := id) weaker

end

def AllowedDockerImageHashes.get (self : AllowedDockerImageHashes) (now durationSeconds : Nat) :
    List AllowedMpcDockerImage :=
  self.validEntries now durationSeconds

def AllowedMpcDockerImage.graceOver (image : AllowedMpcDockerImage)
    (now durationSeconds : Nat) : Bool :=
  (deadline image.added durationSeconds).all fun gracePeriodDeadline => gracePeriodDeadline < now

namespace AllowedMpcDockerImage

variable {image : AllowedMpcDockerImage}

theorem graceOver_iff : image.graceOver now durationSeconds ↔
    ∀ d ∈ deadline image.added durationSeconds, d < now := by
  cases end' : deadline image.added durationSeconds <;> simp [graceOver, end']

theorem graceOver_later (passed : now ≤ later) (isOver : image.graceOver now durationSeconds) :
    image.graceOver later durationSeconds := by
  rw [graceOver_iff] at isOver ⊢
  exact fun d isDeadline => Nat.lt_of_lt_of_le (isOver d isDeadline) passed

/-- Storing an image shortens its grace period by less than a second. -/
theorem graceOver_stored (isOver : image.graceOver now durationSeconds) :
    graceOver ⟨image.imageHash, image.added / 1000000000 * 1000000000⟩ now durationSeconds := by
  rw [graceOver_iff] at isOver ⊢
  intro d isDeadline
  obtain ⟨e, isLater, le⟩ := deadline_stored d isDeadline
  exact Nat.lt_of_le_of_lt le (isOver e isLater)

end AllowedMpcDockerImage

namespace AllowedDockerImageHashes

open AllowedMpcDockerImage

variable {self : AllowedDockerImageHashes}

theorem validEntries_eq : self.validEntries now durationSeconds =
    fromLast (fun image => image.graceOver now durationSeconds) self.allowedTeeProposals := by
  rw [← drop_rposition, validEntries]
  congr 4
  funext image
  unfold AllowedMpcDockerImage.graceOver
  cases deadline image.added durationSeconds <;> rfl

/-- As long as no entry lies in the future, a new image comes last. -/
theorem insert_of_past (past : ∀ entry ∈ self.allowedTeeProposals, entry.added ≤ now) :
    (self.insert codeHash now durationSeconds).allowedTeeProposals =
      ((self.validEntries now durationSeconds).eraseP fun entry => entry.imageHash = codeHash) ++
        [⟨codeHash, now⟩] := by
  unfold insert cleanupExpiredHashes
  dsimp only
  rw [rposition_eq_none_iff.mpr, Option.getD_none, insertIdx_length_self]
  intro entry inside
  have before := past entry (validEntries_subset (mem_of_mem_eraseP inside))
  simpa using before

theorem validEntries_cleanup (passed : now ≤ later) :
    (self.cleanupExpiredHashes now durationSeconds).validEntries later durationSeconds =
      self.validEntries later durationSeconds := by
  simp only [cleanupExpiredHashes, validEntries_eq]
  exact fromLast_fromLast fun image _ isOver => graceOver_later passed isOver

theorem validEntries_cleanup_stored (passed : now ≤ later) :
    (self.cleanupExpiredHashes now durationSeconds).stored.validEntries later durationSeconds =
      self.stored.validEntries later durationSeconds := by
  simp only [cleanupExpiredHashes, stored, validEntries_eq]
  exact fromLast_map_fromLast fun image _ isOver => graceOver_stored (graceOver_later passed isOver)

end AllowedDockerImageHashes

/-- Reading leaves the list as it is.  It is stored at the end of a transaction. -/
inductive ImageOperation where
  | insert (codeHash : MpcDockerImageHash)
  | cleanupExpiredHashes
  | getImageHashes
  | store
  deriving DecidableEq

structure ImageCall where
  operation : ImageOperation
  now : Nat
  deriving DecidableEq

def ImageOperation.inserted : ImageOperation → Option MpcDockerImageHash
  | .insert codeHash => some codeHash
  | _ => none

/-- The inserted images, each at the place of its last insertion. -/
def lastInsertions (calls : List ImageCall) : List MpcDockerImageHash :=
  calls.foldl (fun order call =>
    match call.operation.inserted with
    | none => order
    | some codeHash => order.filter (fun other => other ≠ codeHash) ++ [codeHash]) []

theorem lastInsertions_snoc_insert : lastInsertions (calls ++ [⟨.insert codeHash, now⟩]) =
      (lastInsertions calls).filter (fun other => other ≠ codeHash) ++ [codeHash] := by
  simp only [lastInsertions, foldl_append, foldl_cons, foldl_nil,
    ImageOperation.inserted]

theorem lastInsertions_snoc_other (other : call.operation.inserted = none) :
    lastInsertions (calls ++ [call]) = lastInsertions calls := by
  simp only [lastInsertions, foldl_append, foldl_cons, foldl_nil, other]

structure ImageTimeline where
  images : AllowedDockerImageHashes
  now : Nat
  deriving DecidableEq

namespace ImageTimeline

section

variable (durationSeconds : Nat)

def perform (self : ImageTimeline) (call : ImageCall) : ImageTimeline where
  images :=
    match call.operation with
    | .insert codeHash => self.images.insert codeHash call.now durationSeconds
    | .cleanupExpiredHashes => self.images.cleanupExpiredHashes call.now durationSeconds
    | .getImageHashes => self.images
    | .store => self.images.stored
  now := call.now

def allowed (self : ImageTimeline) : List MpcDockerImageHash :=
  self.images.getImageHashes self.now durationSeconds

/-- Block times do not go back.  After a call the images are those that are allowed then. -/
def act (self : ImageTimeline) (call : ImageCall) :
    Option (ImageTimeline × List MpcDockerImageHash) :=
  if self.now ≤ call.now then
    let next := self.perform durationSeconds call
    some (next, next.allowed durationSeconds)
  else none

end

variable {durationSeconds start : Nat} {s t : ImageTimeline} {calls : List ImageCall}

theorem of_acts (acts : Acts (act durationSeconds) s (call, output) t) :
    s.now ≤ call.now ∧ t = s.perform durationSeconds call := by
  unfold Acts act at acts
  split at acts
  · rename_i passed
    obtain ⟨rfl, _⟩ := Prod.mk.inj (Option.some.inj acts)
    exact ⟨passed, rfl⟩
  · cases acts

/-- What holds of the list after any sequence of calls. -/
structure Orderly (calls : List ImageCall) (s : ImageTimeline) : Prop where
  past : ∀ entry ∈ s.images.allowedTeeProposals, entry.added ≤ s.now
  sorted : s.images.allowedTeeProposals.Pairwise fun older newer => older.added ≤ newer.added
  latest : s.images.allowedTeeProposals.map (·.imageHash) <:+ lastInsertions calls
  distinct : (lastInsertions calls).Nodup
  kept : lastInsertions calls ≠ [] → s.images.allowedTeeProposals ≠ []

namespace Orderly

section

variable (orderly : Orderly calls s)

include orderly

theorem hashes_distinct :
    (s.images.allowedTeeProposals.map (·.imageHash)).Nodup :=
  orderly.distinct.sublist orderly.latest.sublist

theorem pass (passed : s.now ≤ blockTime) :
    Orderly calls ⟨s.images, blockTime⟩ :=
  { orderly with past := fun entry inside => (orderly.past entry inside).trans passed }

theorem other (other : call.operation.inserted = none) :
    Orderly (calls ++ [call]) s where
  past := orderly.past
  sorted := orderly.sorted
  latest := by
    rw [lastInsertions_snoc_other other]
    exact orderly.latest
  distinct := by
    rw [lastInsertions_snoc_other other]
    exact orderly.distinct
  kept := by
    rw [lastInsertions_snoc_other other]
    exact orderly.kept

theorem cleanup :
    Orderly calls ⟨s.images.cleanupExpiredHashes blockTime durationSeconds, s.now⟩ := by
  have suffix : s.images.validEntries blockTime durationSeconds <:+ s.images.allowedTeeProposals :=
    drop_suffix _ _
  exact {
    past := fun entry inside => orderly.past entry (suffix.subset inside)
    sorted := orderly.sorted.sublist suffix.sublist
    latest := (suffix.map _).trans orderly.latest
    distinct := orderly.distinct
    kept := by
      intro inserted
      change s.images.validEntries blockTime durationSeconds ≠ []
      rw [AllowedDockerImageHashes.validEntries_eq]
      exact fromLast_ne_nil (orderly.kept inserted) }

theorem store : Orderly calls ⟨s.images.stored, s.now⟩ where
  past := by
    intro entry inside
    obtain ⟨image, listed, rfl⟩ := mem_map.mp inside
    exact (Nat.div_mul_le_self _ _).trans (orderly.past image listed)
  sorted := by
    refine pairwise_map.mpr (orderly.sorted.imp ?_)
    intro older newer le
    exact Nat.mul_le_mul_right _ (Nat.div_le_div_right le)
  latest := by
    have hashes : s.images.stored.allowedTeeProposals.map (·.imageHash) =
        s.images.allowedTeeProposals.map (·.imageHash) := map_map
    exact hashes ▸ orderly.latest
  distinct := orderly.distinct
  kept := by
    intro inserted
    simpa [AllowedDockerImageHashes.stored] using orderly.kept inserted

end

/-- Without the image itself the hashes are those of the other images, in their order. -/
theorem map_eraseP_hash {entries : List AllowedMpcDockerImage}
    (distinct : (entries.map (·.imageHash)).Nodup) :
    (entries.eraseP fun entry => entry.imageHash = codeHash).map (·.imageHash) =
      (entries.map (·.imageHash)).filter fun other => other ≠ codeHash := by
  induction entries with
  | nil => rfl
  | cons entry entries ih =>
    obtain ⟨fresh, distinct⟩ := nodup_cons.mp distinct
    by_cases isOld : entry.imageHash = codeHash
    · subst isOld
      have others : (entries.map (·.imageHash)).filter (fun other => other ≠ entry.imageHash) =
          entries.map (·.imageHash) :=
        filter_eq_self.mpr fun other inside =>
          decide_eq_true (ne_of_mem_of_not_mem inside fresh)
      rw [eraseP_cons_of_pos (by simp), map_cons, filter_cons_of_neg (by simp),
        others]
    · simpa [isOld] using ih distinct

theorem insert (orderly : Orderly calls s) (passed : s.now ≤ blockTime) :
    Orderly (calls ++ [⟨.insert codeHash, blockTime⟩])
      ⟨s.images.insert codeHash blockTime durationSeconds, blockTime⟩ := by
  have cleaned : Orderly calls
      ⟨s.images.cleanupExpiredHashes blockTime durationSeconds, blockTime⟩ :=
    orderly.cleanup.pass passed
  have entries : (s.images.insert codeHash blockTime durationSeconds).allowedTeeProposals = _ :=
    AllowedDockerImageHashes.insert_of_past fun entry inside =>
      (orderly.past entry inside).trans passed
  have others : ∀ entry ∈ (s.images.validEntries blockTime durationSeconds).eraseP
      (fun entry => entry.imageHash = codeHash), entry.added ≤ blockTime :=
    fun entry inside => cleaned.past entry (mem_of_mem_eraseP inside)
  constructor
  · rw [entries]
    exact forall_mem_append.mpr ⟨others, by simp⟩
  · rw [entries]
    exact pairwise_append.mpr
      ⟨cleaned.sorted.sublist eraseP_sublist, by simp, by simpa using others⟩
  · have distinct : ((s.images.validEntries blockTime durationSeconds).map
        (·.imageHash)).Nodup := cleaned.hashes_distinct
    obtain ⟨older, whole⟩ := cleaned.latest
    rw [entries, map_append, map_eraseP_hash distinct, lastInsertions_snoc_insert, ← whole,
      filter_append, append_assoc]
    exact suffix_append _ _
  · rw [lastInsertions_snoc_insert]
    exact nodup_append.mpr ⟨orderly.distinct.filter _, by simp, by simp⟩
  · rw [entries]
    simp

theorem perform (orderly : Orderly calls s) (passed : s.now ≤ call.now) :
    Orderly (calls ++ [call]) (s.perform durationSeconds call) := by
  obtain ⟨operation, blockTime⟩ := call
  cases operation with
  | insert codeHash => exact orderly.insert passed
  | cleanupExpiredHashes => exact (orderly.cleanup.pass passed).other rfl
  | getImageHashes => exact (orderly.pass passed).other rfl
  | store => exact (orderly.store.pass passed).other rfl

theorem of_run (run : Run (Acts (act durationSeconds)) ⟨.default, start⟩ es s) :
    Orderly (es.map Prod.fst) s := by
  refine run.invariant (fun es s => Orderly (es.map Prod.fst) s) ?_ ?_
  · exact {
      past := by simp [AllowedDockerImageHashes.default]
      sorted := .nil
      latest := suffix_refl _
      distinct := .nil
      kept := fun inserted => absurd rfl inserted }
  · rintro es s ⟨call, output⟩ t _ orderly acts
    obtain ⟨passed, rfl⟩ := of_acts acts
    rw [map_append]
    exact orderly.perform passed

end Orderly

theorem allowed_perform (passed : s.now ≤ call.now) (other : call.operation.inserted = none) :
    (s.perform durationSeconds call).allowed durationSeconds ⊆ s.allowed durationSeconds := by
  obtain ⟨operation, blockTime⟩ := call
  have fewer : s.images.getImageHashes blockTime durationSeconds ⊆ s.allowed durationSeconds :=
    AllowedDockerImageHashes.getImageHashes_later passed
  cases operation with
  | insert codeHash => cases other
  | cleanupExpiredHashes =>
    exact Subset.trans AllowedDockerImageHashes.getImageHashes_cleanup fewer
  | getImageHashes => exact fewer
  | store => exact Subset.trans AllowedDockerImageHashes.getImageHashes_stored fewer

theorem allowed_run (run : Run (Acts (act durationSeconds)) s es t)
    (others : ∀ e ∈ es, e.1.operation.inserted = none) :
    t.allowed durationSeconds ⊆ s.allowed durationSeconds := by
  induction run with
  | nil => exact Subset.refl _
  | @snoc es _ e t before acts ih =>
    obtain ⟨earlier, last⟩ := forall_mem_append.mp others
    obtain ⟨passed, rfl⟩ := of_acts acts
    exact Subset.trans (allowed_perform passed (last e (mem_singleton_self e)))
      (ih earlier)

theorem lastInsertions_ne_nil (inserted : ∃ call ∈ calls, call.operation.inserted ≠ none) :
    lastInsertions calls ≠ [] := by
  induction calls using reverseRecOn with
  | nil => simp at inserted
  | append_singleton calls call ih =>
    obtain ⟨operation, blockTime⟩ := call
    cases operation with
    | insert codeHash =>
      rw [lastInsertions_snoc_insert]
      simp
    | _ =>
      rw [lastInsertions_snoc_other rfl]
      exact ih (by simpa [ImageOperation.inserted] using inserted)

/-- The entries are sorted and are the images inserted last; what is read starts at the last one
    whose grace period is over, and until the next insertion no image becomes allowed. -/
theorem allowed_images_over_time {es : List (ImageCall × List MpcDockerImageHash)}
    (run : Run (Acts (act durationSeconds)) ⟨.default, start⟩ es s) :
    (s.images.allowedTeeProposals.Pairwise fun older newer => older.added ≤ newer.added) ∧
    (s.images.allowedTeeProposals.map (·.imageHash)).Nodup ∧
    s.images.allowedTeeProposals.map (·.imageHash) <:+ lastInsertions (es.map Prod.fst) ∧
    ((∃ e ∈ es, e.1.operation.inserted ≠ none) → s.images.allowedTeeProposals ≠ []) ∧
    (∀ now,
      (∃ older last newer, s.images.allowedTeeProposals = older ++ last :: newer ∧
        last.graceOver now durationSeconds ∧
        (∀ image ∈ newer, image.graceOver now durationSeconds = false) ∧
        s.images.get now durationSeconds = last :: newer) ∨
      (∀ image ∈ s.images.allowedTeeProposals, image.graceOver now durationSeconds = false) ∧
        s.images.get now durationSeconds = s.images.allowedTeeProposals) ∧
    (∀ now later, now ≤ later →
      (s.images.cleanupExpiredHashes now durationSeconds).get later durationSeconds =
        s.images.get later durationSeconds ∧
      (s.images.cleanupExpiredHashes now durationSeconds).stored.get later durationSeconds =
        s.images.stored.get later durationSeconds) ∧
    ∀ fs t, Run (Acts (act durationSeconds)) s fs t →
      (∀ e ∈ fs, e.1.operation.inserted = none) →
      t.allowed durationSeconds ⊆ s.allowed durationSeconds := by
  have orderly := Orderly.of_run run
  refine ⟨orderly.sorted, orderly.hashes_distinct, orderly.latest, ?_, ?_, ?_, ?_⟩
  · rintro ⟨e, happened, inserts⟩
    exact orderly.kept
      (lastInsertions_ne_nil ⟨e.1, mem_map_of_mem happened, inserts⟩)
  · intro now
    rw [AllowedDockerImageHashes.get, AllowedDockerImageHashes.validEntries_eq]
    exact fromLast_cases _ _
  · intro now later passed
    exact ⟨AllowedDockerImageHashes.validEntries_cleanup passed,
      AllowedDockerImageHashes.validEntries_cleanup_stored passed⟩
  · intro fs t further others
    exact allowed_run further others

private def repeated (byte : UInt8) : MpcDockerImageHash := .replicate 32 byte

private def insertAgain : List ImageCall :=
  [⟨.insert (repeated 0), 1500000000⟩, ⟨.insert (repeated 1), 2500000000⟩, ⟨.store, 2500000000⟩,
    ⟨.insert (repeated 0), 3500000000⟩, ⟨.cleanupExpiredHashes, 13000000000⟩]

/-- It has moved behind the second, which is over after ten seconds counted from whole seconds. -/
theorem allowed_images_after_second_insertion :
    ∃ es s, Run (Acts (act 10)) ⟨.default, 0⟩ es s ∧ es.map Prod.fst = insertAgain ∧
      s.images.allowedTeeProposals = [⟨repeated 1, 2000000000⟩, ⟨repeated 0, 3500000000⟩] ∧
      (s.images.allowedTeeProposals.map (·.imageHash)).Nodup ∧
      s.images.allowedTeeProposals ≠ [] ∧
      (s.images.cleanupExpiredHashes 14000000000 10).get 14000000000 10 =
        s.images.get 14000000000 10 := by
  obtain ⟨es, s, run, inputs, entries⟩ := exists_run (act 10) ⟨.default, 0⟩ insertAgain
    (fun _ s => s.images.allowedTeeProposals =
      [⟨repeated 1, 2000000000⟩, ⟨repeated 0, 3500000000⟩]) (by decide +kernel)
  have first : (⟨.insert (repeated 0), 1500000000⟩ : ImageCall) ∈ es.map Prod.fst := by
    rw [inputs]
    exact mem_cons_self
  obtain ⟨e, happened, isFirst⟩ := mem_map.mp first
  obtain ⟨_, distinct, _, kept, _, same, _⟩ := allowed_images_over_time run
  have inserts : e.1.operation.inserted ≠ none := by
    simp [isFirst, ImageOperation.inserted]
  exact ⟨es, s, run, inputs, entries, distinct, kept ⟨e, happened, inserts⟩,
    (same _ _ (Nat.le_refl _)).1⟩

end ImageTimeline

end MpcNetwork.Contract
