import MpcNetwork.Threshold.Participants

/-! # Parameters of robust ECDSA

Two views of one number meet here.  The node turns the contract's threshold into a
number of signers and a bound on the malicious ones; the library checks its
arguments before it starts to presign or to sign.  `usize` is 64 bits wide.
-/

namespace MpcNetwork.Threshold.RobustEcdsa

structure MaxMalicious where
  value : UInt64
  deriving Repr, DecidableEq

def secp256k1Order : Nat :=
  0xFFFFFFFFFFFFFFFFFFFFFFFFFFFFFFFEBAAEDCE6AF48A03BBFD25E8CD0364141

structure Scalar where
  value : Fin secp256k1Order
  deriving DecidableEq

def Scalar.isZero (s : Scalar) : Bool := s.value.val = 0

structure PresignOutput (Point Scalar : Type) where
  bigR : Point
  c : Scalar
  e : Scalar
  alpha : Scalar
  beta : Scalar

/-- The signers are as many as the contract's threshold says. -/
def getNumberOfSigners (threshold numberOfParticipants : UInt64) : Except String UInt64 :=
  if threshold ≤ numberOfParticipants then .ok threshold
  else
    .error s!"threshold ({threshold}) exceeds number of participants ({numberOfParticipants})"

def translateThreshold (threshold numberOfParticipants : UInt64) : Except String MaxMalicious := do
  let numberOfSigners ← getNumberOfSigners threshold numberOfParticipants
  if numberOfSigners ≥ 5 then .ok ⟨(numberOfSigners - 1) / 2⟩
  else
    .error "Robust ECDSA requires the threshold to be at least 2, which implies that the number of signers needs to be at least 5"

/-- `v.checked_mul(2).and_then(|v| v.checked_add(1))`. -/
def doublePlusOne (v : UInt64) : Option Nat :=
  if 2 * v.toNat + 1 < 2 ^ 64 then some (2 * v.toNat + 1) else none

/-- The checks `presign` makes before the protocol starts. -/
def presign (participants : List Participant) (me : Participant) (maxMalicious : MaxMalicious) :
    Except InitializationError ParticipantList :=
  if participants.length < 2 then .error (.notEnoughParticipants participants.length)
  else
    match ParticipantList.new participants with
    | none => .error .duplicateParticipants
    | some participants =>
      if !participants.contains me then .error (.missingParticipant "self" me)
      else if maxMalicious.value.toNat > participants.len then
        .error (.badParameters "max_malicious must be less than or equals to participant count")
      else
        match doublePlusOne maxMalicious.value with
        | none => .error (.badParameters "2*max_malicious+1 must be less than usize::MAX")
        | some robustEcdsaThreshold =>
          if robustEcdsaThreshold > participants.len then
            .error (.badParameters
              "2*max_malicious+1 must be less than or equals to participant count")
          else if participants.len ≠ robustEcdsaThreshold then
            .error (.badParameters
              "the number of participants during presigning must be exactly 2*max_malicious+1 to avoid split view attacks")
          else .ok participants

/-- The checks `sign` makes before the protocol starts. -/
def sign (participants : List Participant) (coordinator : Participant)
    (maxMalicious : MaxMalicious) (me : Participant) (msgHash : Scalar) :
    Except InitializationError ParticipantList :=
  if participants.length < 2 then .error (.notEnoughParticipants participants.length)
  else
    match ParticipantList.new participants with
    | none => .error .duplicateParticipants
    | some participants =>
      if !participants.contains me then .error (.missingParticipant "self" me)
      else if !participants.contains coordinator then
        .error (.missingParticipant "coordinator" coordinator)
      else
        match doublePlusOne maxMalicious.value with
        | none => .error (.badParameters "2*threshold+1 must be less than usize::MAX")
        | some robustEcdsaThreshold =>
          if robustEcdsaThreshold > participants.len then
            .error (.badParameters
              "2*max_malicious+1 must be less than or equals to participant count")
          else if participants.len ≠ robustEcdsaThreshold then
            .error (.badParameters
              "the number of participants during signing must be exactly 2*max_malicious+1 to avoid split view attacks")
          else if msgHash.isZero then
            .error (.badParameters
              "msg_hash cannot be 0 to avoid potential split view attacks")
          else .ok participants

variable {m : MaxMalicious}

theorem translateThreshold_ok (translated : translateThreshold t n = .ok m) :
    getNumberOfSigners t n = .ok t ∧ 5 ≤ t.toNat ∧ m.value.toNat = (t.toNat - 1) / 2 := by
  unfold translateThreshold getNumberOfSigners at translated
  unfold getNumberOfSigners
  split at translated
  · rename_i within
    simp only [bind, Except.bind] at translated
    split at translated
    · rename_i enough
      cases translated
      have five : 5 ≤ t.toNat := enough
      refine ⟨if_pos within, five, ?_⟩
      have one : (1 : UInt64) ≤ t := UInt64.le_iff_toNat_le.mpr (by simp; omega)
      rw [UInt64.toNat_div, UInt64.toNat_sub_of_le _ _ one]
      rfl
    · cases translated
  · cases translated

theorem doublePlusOne_translated (translated : translateThreshold t n = .ok m) :
    doublePlusOne m.value = some (2 * ((t.toNat - 1) / 2) + 1) := by
  obtain ⟨_, five, half⟩ := translateThreshold_ok translated
  have small := t.toNat_lt
  rw [doublePlusOne, half, if_pos (by omega)]

variable {participants : List Participant} {me : Participant}

/-- `presign` accepts distinct parties with `me` exactly if there are twice the bound plus one. -/
theorem presign_isOk_iff (several : 2 ≤ participants.length) (distinct : participants.Nodup)
    (mine : me ∈ participants) (fits : m.value.toNat ≤ participants.length)
    (doubled : doublePlusOne m.value = some size) :
    (presign participants me m).isOk = true ↔ participants.length = size := by
  obtain ⟨l, made, perm⟩ := ParticipantList.new_eq_some distinct
  have len : l.len = participants.length := perm.length_eq
  have inside : l.contains me = true := by simpa using perm.mem_iff.mpr mine
  have present : (!l.contains me) = false := by rw [inside]; rfl
  simp only [presign, if_neg (Nat.not_lt.mpr several), made, present, Bool.false_eq_true, if_false,
    len, if_neg (Nat.not_lt.mpr fits), doubled]
  split
  · simp only [Except.isOk, Except.toBool, Bool.false_eq_true, false_iff]
    omega
  · split <;> simp_all [Except.isOk, Except.toBool]

theorem sign_isOk_iff (several : 2 ≤ participants.length)
    (distinct : participants.Nodup) (mine : me ∈ participants)
    (leads : coordinator ∈ participants) (nonzero : msgHash.isZero = false)
    (doubled : doublePlusOne m.value = some size) :
    (sign participants coordinator m me msgHash).isOk = true ↔ participants.length = size := by
  obtain ⟨l, made, perm⟩ := ParticipantList.new_eq_some distinct
  have len : l.len = participants.length := perm.length_eq
  have inside : ∀ p ∈ participants, (!l.contains p) = false := by
    intro p member
    have found : l.contains p = true := by simpa using perm.mem_iff.mpr member
    rw [found]
    rfl
  simp only [sign, if_neg (Nat.not_lt.mpr several), made, inside me mine, inside coordinator leads,
    Bool.false_eq_true, if_false, len, doubled, nonzero]
  split
  · simp only [Except.isOk, Except.toBool, Bool.false_eq_true, false_iff]
    omega
  · split <;> simp_all [Except.isOk, Except.toBool]

theorem presign_ok (checked : presign participants me m = .ok l) :
    ParticipantList.new participants = some l := by
  unfold presign at checked
  split at checked
  · cases checked
  · split at checked
    · cases checked
    · rename_i made
      cases doubled : doublePlusOne m.value with
      | none =>
        simp only [doubled] at checked
        split_ifs at checked
      | some size =>
        simp only [doubled] at checked
        split_ifs at checked
        cases checked
        exact made

theorem sign_ok (checked : sign participants coordinator m me msgHash = .ok l) :
    ParticipantList.new participants = some l := by
  unfold sign at checked
  split at checked
  · cases checked
  · split at checked
    · cases checked
    · rename_i made
      cases doubled : doublePlusOne m.value with
      | none =>
        simp only [doubled] at checked
        split_ifs at checked
      | some size =>
        simp only [doubled] at checked
        split_ifs at checked
        cases checked
        exact made

/-- For every threshold the node can translate and distinct signers of the size it asks for, the
    library starts to presign and to sign exactly when the threshold is odd. -/
theorem signers_accepted_iff_odd {t n : UInt64} {m : MaxMalicious}
    {participants : List Participant} {me coordinator : Participant} {msgHash : Scalar}
    (translated : translateThreshold t n = .ok m)
    (selected : getNumberOfSigners t n = .ok signers) (size : participants.length = signers.toNat)
    (distinct : participants.Nodup) (mine : me ∈ participants)
    (leads : coordinator ∈ participants) (nonzero : msgHash.isZero = false) :
    ((presign participants me m).isOk = true ∧
      (sign participants coordinator m me msgHash).isOk = true) ↔ t.toNat % 2 = 1 := by
  obtain ⟨computed, five, half⟩ := translateThreshold_ok translated
  obtain rfl : t = signers := Except.ok.inj (computed.symm.trans selected)
  have doubled := doublePlusOne_translated translated
  have several : 2 ≤ participants.length := by omega
  have fits : m.value.toNat ≤ participants.length := by omega
  rw [presign_isOk_iff several distinct mine fits doubled,
    sign_isOk_iff several distinct mine leads nonzero doubled]
  omega

private def firstParticipants (count : Nat) : List Participant :=
  (List.range count).map fun i => ⟨UInt32.ofNat i⟩

/-- Threshold five of seven: two malicious parties among five signers. -/
theorem signers_accepted_five :
    (presign (firstParticipants 5) ⟨0⟩ ⟨2⟩).isOk = true ∧
      (sign (firstParticipants 5) ⟨0⟩ ⟨2⟩ ⟨1⟩ ⟨⟨1, by decide⟩⟩).isOk = true :=
  (signers_accepted_iff_odd (t := 5) (n := 7) (m := ⟨2⟩) rfl rfl rfl (by decide) (by decide)
    (by decide) (by decide)).mpr rfl

/-- Threshold six of ten: six signers are selected, and the library wants exactly five. -/
theorem six_signers_refused :
    translateThreshold 6 10 = .ok ⟨2⟩ ∧ getNumberOfSigners 6 10 = .ok 6 ∧
      (firstParticipants 6).Nodup ∧ (firstParticipants 6).length = 6 ∧
      presign (firstParticipants 6) ⟨0⟩ ⟨2⟩ = .error (.badParameters
        "the number of participants during presigning must be exactly 2*max_malicious+1 to avoid split view attacks") ∧
      sign (firstParticipants 6) ⟨0⟩ ⟨2⟩ ⟨1⟩ ⟨⟨1, by decide⟩⟩ = .error (.badParameters
        "the number of participants during signing must be exactly 2*max_malicious+1 to avoid split view attacks") := by
  refine ⟨rfl, rfl, by decide, by decide, ?_, ?_⟩
  · rfl
  · rfl

end MpcNetwork.Threshold.RobustEcdsa
