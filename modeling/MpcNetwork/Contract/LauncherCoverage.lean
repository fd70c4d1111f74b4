import MpcNetwork.Contract.Steps

/-! # Compose hashes cover the allowed images

A launcher may start a node with any allowed image, so its compose hashes have to contain that of
every allowed image.  A launcher gets the hashes of the images that are allowed when it is added,
and one more with each image that is allowed later.  Images expire and are not dropped at once.
An image that has expired is forgotten for good as long as no change of the deadline brings it
back.
-/

namespace MpcNetwork.Contract

open Runs List
open Tee (MpcDockerImageHash)

section

variable {α β : Type}

theorem rposition_mono (weaker : ∀ b ∈ xs, ∀ a, f b = a → p b → q a) :
    (rposition p xs).getD 0 ≤ (rposition q (xs.map f)).getD 0 := by
  unfold rposition
  rw [← map_reverse, findIdx?_map, length_map]
  cases first : xs.reverse.findIdx? p with
  | none => exact Nat.zero_le _
  | some i =>
    obtain ⟨inside, holds, _⟩ := findIdx?_eq_some_iff_getElem.mp first
    have also := weaker _ (mem_reverse.mp (getElem_mem inside)) _ rfl holds
    cases second : xs.reverse.findIdx? (q ∘ f) with
    | none =>
      have never := findIdx?_eq_none_iff.mp second _ (getElem_mem inside)
      rw [Function.comp_apply, also] at never
      cases never
    | some j =>
      obtain ⟨_, _, earliest⟩ := findIdx?_eq_some_iff_getElem.mp second
      have le : j ≤ i := by
        by_contra less
        exact earliest i (Nat.lt_of_not_le less) also
      simp only [Option.map_some, Option.getD_some]
      omega

end

theorem over_mono {now later : Nat} :
    (match limit with
      | none => true
      | some gracePeriodDeadline => decide (gracePeriodDeadline < now)) = true →
    (∀ d ∈ sooner, ∃ e ∈ limit, d ≤ e) → now ≤ later →
    (match sooner with
      | none => true
      | some gracePeriodDeadline => decide (gracePeriodDeadline < later)) = true := by
  intro isOver ends passed
  cases sooner with
  | none => rfl
  | some d =>
    obtain ⟨e, rfl, le⟩ := ends d rfl
    simp only [decide_eq_true_eq] at isOver ⊢
    omega

/-- The end of a grace period depends on the whole seconds of its start. -/
theorem deadline_stored :
    ∀ d ∈ deadline (added / 1000000000 * 1000000000) durationSeconds,
      ∃ e ∈ deadline added durationSeconds, d ≤ e := by
  intro d isDeadline
  simp only [deadline, Option.mem_def, Option.ite_none_right_eq_some, Option.some.injEq]
    at isDeadline ⊢
  obtain ⟨fits, rfl⟩ := isDeadline
  refine ⟨_, ⟨?_, rfl⟩, ?_⟩
  · rw [← Nat.add_mul, Nat.mul_div_cancel _ (by decide)] at fits
    rwa [Nat.add_mul_div_right _ _ (by decide)]
  · exact Nat.add_le_add_right (Nat.div_mul_le_self _ _) _

namespace AllowedDockerImageHashes

variable {self : AllowedDockerImageHashes}

theorem validEntries_subset :
    self.validEntries now durationSeconds ⊆ self.allowedTeeProposals :=
  drop_subset _ _

theorem getImageHashes_later (passed : now ≤ later) :
    self.getImageHashes later durationSeconds ⊆ self.getImageHashes now durationSeconds := by
  apply map_subset
  unfold validEntries
  apply drop_subset_drop_left
  refine (rposition_mono (f := id) ?_).trans_eq (by rw [map_id])
  rintro image _ _ rfl isOver
  exact over_mono isOver (fun d isDeadline => ⟨d, isDeadline, le_refl _⟩) passed

theorem getImageHashes_stored :
    self.stored.getImageHashes now durationSeconds ⊆ self.getImageHashes now durationSeconds := by
  unfold getImageHashes validEntries stored
  dsimp only
  rw [← map_drop, map_map]
  apply map_subset
  apply drop_subset_drop_left
  apply rposition_mono
  intro image _ rounded isRounded isOver
  refine over_mono isOver ?_ (le_refl _)
  rw [← isRounded]
  exact deadline_stored

theorem getImageHashes_cleanup :
    (self.cleanupExpiredHashes now durationSeconds).getImageHashes now' durationSeconds' ⊆
      self.getImageHashes now durationSeconds :=
  map_subset _ validEntries_subset

theorem getImageHashes_insert :
    (self.insert codeHash now durationSeconds).getImageHashes now' durationSeconds' ⊆
      codeHash :: self.getImageHashes now durationSeconds := by
  intro imageHash allowed
  obtain ⟨image, isValid, rfl⟩ := mem_map.mp allowed
  rcases eq_or_mem_of_mem_insertIdx (validEntries_subset isValid) with rfl | old
  · exact mem_cons_self
  · exact mem_cons_of_mem _ (mem_map_of_mem (mem_of_mem_eraseP old))

end AllowedDockerImageHashes

section

variable {Collateral : Type} (verifier : AttestationVerifier Collateral)

namespace AllowedLauncherImages

/-- Every launcher may start with each of the images. -/
def CoverImages (self : AllowedLauncherImages) (images : List MpcDockerImageHash) : Prop :=
  ∀ entry ∈ self.entries, ∀ image ∈ images,
    getDockerComposeHash verifier entry.launcherHash image ∈ entry.composeHashes

variable {verifier} {self : AllowedLauncherImages}

section

variable (covers : self.CoverImages verifier images)

include covers

theorem CoverImages.mono (part : fewer ⊆ images) :
    self.CoverImages verifier fewer :=
  fun entry listed image allowed => covers entry listed image (part allowed)

theorem CoverImages.add :
    (self.add verifier launcherHash images).2.CoverImages verifier images := by
  unfold AllowedLauncherImages.add
  split
  · exact covers
  · intro entry listed image allowed
    rcases mem_append.mp listed with old | isNew
    · exact covers entry old image allowed
    · rw [mem_singleton.mp isNew]
      exact mem_map_of_mem allowed

theorem CoverImages.remove :
    (self.remove launcherHash).2.CoverImages verifier images := by
  unfold AllowedLauncherImages.remove
  dsimp only
  split
  · exact covers
  · exact fun entry listed => covers entry (mem_of_mem_filter listed)

theorem CoverImages.addMpcImage :
    (self.addMpcImageComposeHashes verifier image).CoverImages verifier (image :: images) := by
  intro entry listed other allowed
  obtain ⟨old, wasListed, rfl⟩ := mem_map.mp listed
  have before : other ∈ images →
      getDockerComposeHash verifier old.launcherHash other ∈ old.composeHashes :=
    covers old wasListed other
  dsimp only
  split
  · rename_i there
    rcases mem_cons.mp allowed with rfl | isOld
    · exact contains_iff_mem.mp there
    · exact before isOld
  · rcases mem_cons.mp allowed with rfl | isOld
    · exact mem_append_right _ (mem_singleton_self _)
    · exact mem_append_left _ (before isOld)

end

end AllowedLauncherImages

namespace TeeState

/-- Every launcher covers the images that are allowed at the time. -/
def Covered (self : TeeState) (now durationSeconds : Nat) : Prop :=
  self.allowedLauncherImages.CoverImages verifier
    (self.getAllowedMpcDockerImageHashes now durationSeconds)

/-- Between two calls times are stored in whole seconds. -/
def persisted (self : TeeState) : TeeState :=
  { self with allowedDockerImageHashes := self.allowedDockerImageHashes.stored }

variable {verifier} {self : TeeState}

section

variable (covered : self.Covered verifier now durationSeconds)

include covered

theorem Covered.stays (passed : now ≤ later) : self.Covered verifier later durationSeconds:=
  covered.mono (AllowedDockerImageHashes.getImageHashes_later passed)

theorem Covered.persisted :
    self.persisted.Covered verifier now durationSeconds :=
  covered.mono AllowedDockerImageHashes.getImageHashes_stored

theorem Covered.cleanupExpiredHashes :
    (self.cleanupExpiredHashes now durationSeconds).Covered verifier now durationSeconds :=
  covered.mono AllowedDockerImageHashes.getImageHashes_cleanup

theorem Covered.whitelistTeeProposal (teeProposal : MpcDockerImageHash) :
    (self.whitelistTeeProposal verifier teeProposal now durationSeconds).Covered verifier now
      durationSeconds :=
  covered.addMpcImage.mono AllowedDockerImageHashes.getImageHashes_insert

theorem Covered.addLauncherImage (launcherHash : LauncherImageHash) :
    (self.addLauncherImage verifier launcherHash now durationSeconds).2.Covered verifier now
      durationSeconds :=
  covered.add

theorem Covered.removeLauncherImage (launcherHash : LauncherImageHash) :
    (self.removeLauncherImage launcherHash).2.Covered verifier now durationSeconds :=
  covered.remove

end

end TeeState

end

/-- The TEE state at a time, under the configured deadline. -/
structure TeeTimeline where
  teeState : TeeState
  now : Nat
  teeUpgradeDeadlineDurationSeconds : Nat

inductive TeeAction where
  | whitelistTeeProposal (teeProposal : MpcDockerImageHash)
  | addLauncherImage (launcherHash : LauncherImageHash)
  | removeLauncherImage (launcherHash : LauncherImageHash)
  | cleanupExpiredHashes
  | pass (nanoseconds : Nat)
  | updateConfig (durationSeconds : Nat)

namespace TeeTimeline

section

variable {Collateral : Type} (verifier : AttestationVerifier Collateral)

def allowedImages (self : TeeTimeline) : List MpcDockerImageHash :=
  self.teeState.getAllowedMpcDockerImageHashes self.now self.teeUpgradeDeadlineDurationSeconds

def store (self : TeeTimeline) (teeState : TeeState) : TeeTimeline :=
  { self with teeState := teeState.persisted }

/-- The result is false when a launcher was not added or not removed. -/
def perform (self : TeeTimeline) : TeeAction → TeeTimeline × Bool
  | .whitelistTeeProposal teeProposal => (self.store (self.teeState.whitelistTeeProposal verifier
    teeProposal self.now self.teeUpgradeDeadlineDurationSeconds), true)
  | .addLauncherImage launcherHash =>
    let (added, teeState) := self.teeState.addLauncherImage verifier launcherHash self.now
      self.teeUpgradeDeadlineDurationSeconds
    (self.store teeState, added)
  | .removeLauncherImage launcherHash =>
    let (removed, teeState) := self.teeState.removeLauncherImage launcherHash
    (self.store teeState, removed)
  | .cleanupExpiredHashes => (self.store (self.teeState.cleanupExpiredHashes self.now
      self.teeUpgradeDeadlineDurationSeconds), true)
  | .pass nanoseconds => ({ self with now := self.now + nanoseconds }, true)
  | .updateConfig durationSeconds =>
    ({ self with teeUpgradeDeadlineDurationSeconds := durationSeconds }, true)

def act (self : TeeTimeline) (action : TeeAction) : Option (TeeTimeline × Bool) :=
  some (self.perform verifier action)

/-- A new deadline does not bring back an image that has expired. -/
def keepsExpired (self : TeeTimeline) : TeeAction → Bool
  | .updateConfig durationSeconds =>
    (self.teeState.getAllowedMpcDockerImageHashes self.now durationSeconds).all fun image =>
      self.allowedImages.any fun allowed => allowed = image
  | _ => true

structure Empty (s : TeeTimeline) : Prop where
  images : s.teeState.allowedDockerImageHashes = .default
  launchers : s.teeState.allowedLauncherImages = .default

def Covered (self : TeeTimeline) : Prop :=
  self.teeState.Covered verifier self.now self.teeUpgradeDeadlineDurationSeconds

end

variable {Collateral : Type} {verifier : AttestationVerifier Collateral} {s start : TeeTimeline}

theorem covered_step (covered : s.Covered verifier) (keeps : s.keepsExpired action) :
    (s.perform verifier action).1.Covered verifier := by
  cases action with
  | whitelistTeeProposal teeProposal => exact (covered.whitelistTeeProposal teeProposal).persisted
  | addLauncherImage launcherHash => exact (covered.addLauncherImage launcherHash).persisted
  | removeLauncherImage launcherHash => exact (covered.removeLauncherImage launcherHash).persisted
  | cleanupExpiredHashes => exact covered.cleanupExpiredHashes.persisted
  | pass nanoseconds => exact covered.stays (Nat.le_add_right _ _)
  | updateConfig durationSeconds =>
    refine covered.mono fun image allowed => ?_
    obtain ⟨same, isAllowed, isSame⟩ :=
      any_eq_true.mp (all_eq_true.mp keeps image allowed)
    rwa [← of_decide_eq_true isSame]

/-- Unless the deadline brings an expired image back, every launcher's compose hashes cover every
    allowed image. -/
theorem compose_hashes_cover_images {es : List (TeeAction × Bool)} (empty : start.Empty)
    (run : Run (Guarded (fun s e => s.keepsExpired e.1) (Acts (act verifier))) start es s) :
    ∀ entry ∈ s.teeState.allowedLauncherImages.entries, ∀ image ∈ s.allowedImages,
      getDockerComposeHash verifier entry.launcherHash image ∈ entry.composeHashes := by
  refine run.invariant (fun _ s => s.Covered verifier) ?_ ?_
  · intro entry listed
    rw [empty.launchers] at listed
    cases listed
  · rintro _ s ⟨action, result⟩ t _ covered ⟨keeps, acts⟩
    have next := covered_step covered keeps
    rwa [Option.some.inj acts] at next

private def summingVerifier : AttestationVerifier Unit :=
  { Sample.verifier with
    externals := { Sample.verifier.externals with
      sha256 := fun bytes => .replicate 32 (bytes.foldl (· + ·) 0) } }

private def imageOf (byte : UInt8) : MpcDockerImageHash := .replicate 32 byte

private def noImages : TeeTimeline :=
  ⟨.withMockedParticipantAttestations ⟨⟨0⟩, []⟩, 100000000000, 10⟩

/-- The first image has expired when the launcher is added. -/
private def launcherAfterExpiry : List TeeAction :=
  [.whitelistTeeProposal (imageOf 0), .whitelistTeeProposal (imageOf 1), .pass 20000000000,
    .addLauncherImage (imageOf 2)]

/-- The launcher covers the image that is allowed. -/
theorem compose_hashes_cover_images_expired :
    ∃ es s, Run (Guarded (fun s e => s.keepsExpired e.1) (Acts (act summingVerifier))) noImages es
        s ∧ s.allowedImages = [imageOf 1] ∧
      s.teeState.allowedLauncherImages.entries.map (·.launcherHash) = [imageOf 2] ∧
      ∀ entry ∈ s.teeState.allowedLauncherImages.entries, ∀ image ∈ s.allowedImages,
        getDockerComposeHash summingVerifier entry.launcherHash image ∈ entry.composeHashes := by
  obtain ⟨es, s, ran, _, images, launchers⟩ := exists_run
    (restrict keepsExpired (act summingVerifier)) noImages launcherAfterExpiry (fun _ s =>
      s.allowedImages = [imageOf 1] ∧
      s.teeState.allowedLauncherImages.entries.map (·.launcherHash) = [imageOf 2])
    (by decide +kernel)
  have run := ran.of_restrict
  exact ⟨es, s, run, images, launchers, compose_hashes_cover_images ⟨rfl, rfl⟩ run⟩

/-- A longer deadline brings the first image back, and the launcher does not cover it. -/
theorem expired_image_brought_back :
    ∃ es s, noImages.Empty ∧ Run (Acts (act summingVerifier)) noImages es s ∧
      es.map Prod.fst = launcherAfterExpiry ++ [.updateConfig 100] ∧
      s.allowedImages = [imageOf 0, imageOf 1] ∧
      ∃ entry ∈ s.teeState.allowedLauncherImages.entries, ∃ image ∈ s.allowedImages,
        getDockerComposeHash summingVerifier entry.launcherHash image ∉ entry.composeHashes := by
  obtain ⟨es, s, run, inputs, shown⟩ := exists_run (act summingVerifier) noImages
    (launcherAfterExpiry ++ [.updateConfig 100]) (fun _ s => s.allowedImages = [imageOf 0, imageOf 1] ∧
      ∃ entry ∈ s.teeState.allowedLauncherImages.entries, ∃ image ∈ s.allowedImages,
        getDockerComposeHash summingVerifier entry.launcherHash image ∉ entry.composeHashes)
    (by decide +kernel)
  exact ⟨es, s, ⟨rfl, rfl⟩, run, inputs, shown⟩

end TeeTimeline

end MpcNetwork.Contract
