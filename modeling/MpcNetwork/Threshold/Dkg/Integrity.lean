import Mathlib.Algebra.Field.ZMod
import Mathlib.Tactic.NormNum.Prime
import MpcNetwork.Threshold.Commitments

/-! # Integrity of the distributed key generation

The commitments that were broadcast determine one polynomial in the exponent.  A participant
that returns has checked the commitment of everybody else, but not its own: if the highest
coefficient it drew is zero then its commitment is too short, and only the others notice.
-/

namespace MpcNetwork.Threshold.Dkg

open Fallible Jobs List
open OtBasedEcdsa (ReconstructionLowerBound)

variable {Scalar Element Hash : Type}

@[simp] theorem failing_eq_ok {α : Type} {x : Except ProtocolError α} {a : α} :
    failing x = .ok a ↔ x = .ok a :=
  mapError_eq_ok

namespace Task

/-- The parameters as all participants have them. -/
def participants : Task Element → List Participant
  | .keygen participants _ => participants
  | .reshare _ _ _ newParticipants _ => newParticipants
  | .refresh _ oldParticipants _ => oldParticipants

def oldParticipants : Task Element → Option (List Participant)
  | .keygen _ _ => none
  | .reshare oldParticipants _ _ _ _ => some oldParticipants
  | .refresh _ oldParticipants _ => some oldParticipants

/-- Up to the secret, everybody calls `do_keyshare` with the same arguments. -/
structure Common (task : Task Element) (me : Participant) (arguments : Keyshare Scalar Element) :
    Prop where
  me : arguments.me = me
  participants : ParticipantList.new task.participants = some arguments.participants
  threshold : arguments.threshold = task.threshold
  large : 2 ≤ task.threshold.value
  oldKey : arguments.oldResharePackage.map Prod.fst = task.oldPublicKey
  oldParticipants : arguments.oldResharePackage.map Prod.snd =
    task.oldParticipants.bind ParticipantList.new

end Task

variable {me : Participant} {threshold : ReconstructionLowerBound}
  {arguments : Keyshare Scalar Element}

theorem doReshare_ok [Field Scalar] [DecidableEq Scalar]
    (done : doReshare participants me threshold oldSigningKey oldPublicKey oldParticipants =
      .ok arguments) :
    ∃ secret, arguments =
      ⟨participants, me, threshold, secret, some (oldPublicKey, oldParticipants)⟩ := by
  unfold doReshare at done
  obtain ⟨secret, _, done⟩ := bind_ok_iff.mp done
  exact ⟨secret, (pure_ok_iff.mp done).symm⟩

variable {task : Task Element}

theorem Task.arguments_ok [Field Scalar] [DecidableEq Scalar]
    (done : task.arguments me party = .ok arguments) : task.Common me arguments := by
  cases task with
  | keygen participants threshold =>
    simp only [Task.arguments, Dkg.keygen, bind_ok_iff, mapError_eq_ok, pure_ok_iff] at done
    obtain ⟨_, checked, rfl⟩ := done
    obtain ⟨large, _, made, _⟩ := assertKeyInvariants_ok checked
    exact ⟨rfl, made, rfl, large, rfl, rfl⟩
  | reshare oldParticipants oldThreshold oldPublicKey newParticipants newThreshold =>
    simp only [Task.arguments, Dkg.reshare, bind_ok_iff, mapError_eq_ok] at done
    obtain ⟨⟨list, oldList⟩, checked, prepared⟩ := done
    obtain ⟨⟨large, _, made, _⟩, oldMade⟩ := assertReshareKeysInvariants_ok checked
    obtain ⟨secret, rfl⟩ := doReshare_ok prepared
    exact ⟨rfl, made, rfl, large, rfl, oldMade.symm⟩
  | refresh oldPublicKey oldParticipants oldThreshold =>
    simp only [Task.arguments, Dkg.refresh, bind_ok_iff, mapError_eq_ok] at done
    obtain ⟨_, _, ⟨list, oldList⟩, checked, prepared⟩ := done
    obtain ⟨⟨large, _, made, _⟩, oldMade⟩ := assertReshareKeysInvariants_ok checked
    obtain ⟨secret, rfl⟩ := doReshare_ok prepared
    exact ⟨rfl, made, rfl, large, rfl, oldMade.symm⟩

variable {secret : Scalar}

theorem assertKeyshareInputs_ok [Field Scalar] [DecidableEq Scalar]
    {package : Option (Element × ParticipantList)}
    (done : assertKeyshareInputs me secret package = .ok (oldKey, oldParticipants)) :
    package.map Prod.fst = oldKey ∧ package.map Prod.snd = oldParticipants ∧
      (secret = 0 ↔ ∃ old ∈ oldParticipants, ¬ old.contains me) := by
  rcases package with _ | ⟨key, old⟩
  · simp only [assertKeyshareInputs, bind_ok_iff, require_eq_ok, pure_ok_iff,
      Prod.mk.injEq] at done
    obtain ⟨_, nonzero, rfl, rfl⟩ := done
    exact ⟨rfl, rfl, by simpa using nonzero⟩
  · by_cases zero : secret = 0
    · simp only [assertKeyshareInputs, zero, if_true, bind_ok_iff, require_eq_ok, pure_ok_iff,
        Prod.mk.injEq] at done
      obtain ⟨_, outside, rfl, rfl⟩ := done
      exact ⟨rfl, rfl, by simpa [zero] using outside⟩
    · simp only [assertKeyshareInputs, zero, if_false, bind_ok_iff, require_eq_ok, pure_ok_iff,
        Prod.mk.injEq] at done
      obtain ⟨_, inside, rfl, rfl⟩ := done
      exact ⟨rfl, rfl, by simpa [zero] using inside⟩

variable [AddCommGroup Element]

/-- The length goes with the proof, which only a newcomer to a resharing is without. -/
def Acceptable (threshold : ReconstructionLowerBound) (oldParticipants : Option ParticipantList)
    (p : Participant) : List Element × Option (Signature Scalar Element) → Prop
  | (commitment, none) => (∃ old ∈ oldParticipants, ¬ old.contains p) ∧
      commitment.length = threshold.value - 1
  | (commitment, some _) => (¬ ∃ old ∈ oldParticipants, ¬ old.contains p) ∧
      commitment.length = threshold.value

variable {old : Option ParticipantList}

theorem length_insertIdentity
    {entry : List Element × Option (Signature Scalar Element)} (positive : 1 ≤ threshold.value)
    (acceptable : Acceptable threshold old p entry) :
    (insertIdentityIfMissing threshold entry.1).length = threshold.value := by
  obtain ⟨commitment, _ | proof⟩ := entry
  · obtain ⟨_, length⟩ := acceptable
    simp only [insertIdentityIfMissing, length, if_true, length_cons]
    omega
  · obtain ⟨_, length⟩ := acceptable
    have long : commitment.length ≠ threshold.value - 1 := by omega
    rw [insertIdentityIfMissing, if_neg long]
    exact length

/-- The completed commitment of a participant, as it follows from the broadcast. -/
def fullCommitment (threshold : ReconstructionLowerBound)
    (commitmentsAndProofs : ParticipantMap (List Element × Option (Signature Scalar Element)))
    (p : Participant) : List Element :=
  insertIdentityIfMissing threshold ((commitmentsAndProofs.get p).map Prod.fst |>.getD [])

variable [Field Scalar] [Module Scalar Element]

variable {suite : Ciphersuite Scalar Element Hash}

theorem acceptable_of_verified [DecidableEq Element]
    (verified : verifyProofOfKnowledge suite sessionId separator threshold p old commitment proof =
      .ok ()) : Acceptable threshold old p (commitment, proof) := by
  cases proof with
  | none =>
    simp only [verifyProofOfKnowledge, bind_ok_iff, require_eq_ok] at verified
    obtain ⟨_, newcomer, length⟩ := verified
    exact ⟨newcomer, length⟩
  | some proof =>
    simp only [verifyProofOfKnowledge, bind_ok_iff, require_eq_ok] at verified
    obtain ⟨_, known, _, length, _⟩ := verified
    exact ⟨known, length⟩

variable {coefficients : List Scalar}

theorem generateProof_ok [DecidableEq Element]
    (done : generateProof suite sessionId old me coefficients commitment nonce = .ok proof) :
    proof = none ↔ ∃ list ∈ old, ¬ list.contains me := by
  have newcomer : (∃ list ∈ old, ¬ list.contains me) ↔ ¬ old.all fun list => list.contains me := by
    cases old <;> simp
  rw [newcomer]
  unfold generateProof at done
  split at done
  · rename_i isOld
    simp only [isOld, not_true_eq_false, iff_false]
    cases proven : proofOfKnowledge suite sessionId proofSeparator me coefficients commitment
        nonce with
    | error e => simp [proven, Except.map] at done
    | ok signature =>
      simp only [proven, Except.map, Except.ok.injEq] at done
      simp [← done]
  · rename_i isNew
    cases done
    simpa using isNew

variable {map : ParticipantMap (List Element)}

theorem verifyEach_ok [DecidableEq Element] [DecidableEq Hash]
    {committed : Committed Scalar Element Hash} {ps : List Participant}
    {start : ParticipantMap (List Element)} (distinct : ps.Nodup)
    (known : ∀ p ∈ ps, p ∈ start.participants.participants) (fresh : ∀ p ∈ ps, start.get p = none)
    (done : ps.foldlM (fun map p => do
      let (commitment, proof) ← committed.commitmentsAndProofs.index p
      verifyProofOfKnowledge suite committed.sessionId proofSeparator arguments.threshold p
        committed.oldParticipants commitment proof
      verifyCommitmentHash suite committed.sessionId p commitSeparator commitment
        committed.allHashCommitments
      pure (map.put p (insertIdentityIfMissing arguments.threshold commitment))) start =
        .ok map) :
    map.participants = start.participants ∧ (∀ q ∉ ps, map.get q = start.get q) ∧
      ∀ p ∈ ps, map.get p =
          some (fullCommitment arguments.threshold committed.commitmentsAndProofs p) ∧
        ∃ entry, committed.commitmentsAndProofs.get p = some entry ∧
          Acceptable arguments.threshold committed.oldParticipants p entry := by
  induction ps generalizing start with
  | nil =>
    cases done
    exact ⟨rfl, fun _ _ => rfl, by simp⟩
  | cons p ps ih =>
    simp only [foldlM_cons, bind_ok_iff, pure_ok_iff] at done
    obtain ⟨_, ⟨⟨commitment, proof⟩, indexed, _, verified, _, _, rfl⟩, rest⟩ := done
    obtain ⟨notLater, distinct⟩ := nodup_cons.mp distinct
    obtain ⟨knownFirst, knownRest⟩ := forall_mem_cons.mp known
    obtain ⟨freshFirst, freshRest⟩ := forall_mem_cons.mp fresh
    have there := ParticipantMap.get_of_index indexed
    have after := start.get_put (insertIdentityIfMissing arguments.threshold commitment)
      knownFirst freshFirst
    have stillFresh : ∀ q ∈ ps, (start.put p
        (insertIdentityIfMissing arguments.threshold commitment)).get q = none := by
      intro q later
      have notFirst : q ≠ p := by
        rintro rfl
        exact notLater later
      rw [after, if_neg notFirst, freshRest q later]
    obtain ⟨participants, others, each⟩ := ih distinct (by simpa using knownRest) stillFresh rest
    refine ⟨participants.trans (ParticipantMap.participants_put _ _ _), ?_, ?_⟩
    · intro q outside
      obtain ⟨notFirst, notRest⟩ := not_or.mp (mt mem_cons.mpr outside)
      rw [others q notRest, after, if_neg notFirst]
    · intro q inside
      rcases mem_cons.mp inside with rfl | later
      · refine ⟨?_, (commitment, proof), there, acceptable_of_verified verified⟩
        rw [others q notLater, after, if_pos rfl, fullCommitment, there]
        rfl
      · exact each q later

theorem evaluateVss_eq (x : Scalar) (commitment : List Element) :
    evaluateVss x commitment = Feldman.eval x commitment := by
  rw [evaluateVss, Feldman.foldl_powers, one_smul, zero_add]

variable {sum : List Element}

theorem sumCommitments_ok
    (lengths : ∀ c ∈ commitments, c.length = n) (done : sumCommitments commitments = .ok sum) :
    sum.length = n ∧ ∀ x : Scalar,
      Feldman.eval x sum = (commitments.map (Feldman.eval x)).sum := by
  have folded : ∀ (cs : List (List Element)) (start : List Element),
      cs.foldlM (fun sum commitment => do
        require (sum.length ≤ commitment.length) .incorrectNumberOfCommitments
        pure (zipWith (· + ·) sum commitment)) start = Except.ok (ε := ProtocolError) sum →
      sum = cs.foldl (zipWith (· + ·)) start := by
    intro cs
    induction cs with
    | nil =>
      intro start done
      cases done
      rfl
    | cons c cs ih =>
      intro start done
      simp only [foldlM_cons, bind_ok_iff, pure_ok_iff] at done
      obtain ⟨_, ⟨_, _, rfl⟩, done⟩ := done
      exact ih _ done
  unfold sumCommitments at done
  obtain ⟨first, head, done⟩ := bind_ok_iff.mp done
  have start : (replicate first.length (0 : Element)).length = n := by
    rw [length_replicate]
    exact lengths first (mem_of_mem_head? (found_eq_ok.mp head))
  rw [folded commitments _ done]
  refine ⟨Feldman.length_foldl_add lengths start, fun x => ?_⟩
  rw [Feldman.eval_foldl_add x lengths start, Feldman.eval_replicate_zero, zero_add]

variable [DecidableEq Scalar] [DecidableEq Element]

variable {C : Type}

theorem new_is_initial [Zero C] [DecidableEq C] {coefficients : List C}
    {polynomial : Polynomial C} (made : Polynomial.new coefficients = .ok polynomial) :
    polynomial.coefficients <+: coefficients := by
  rw [new_eq_ok.mp made]
  exact rdropWhile_prefix _ _

theorem generatePolynomial_ok {degree : Nat} {draws : Nat → Scalar}
    {polynomial : Polynomial Scalar}
    (made : generatePolynomial secret degree draws = .ok polynomial) :
    polynomial.coefficients.head? = some secret ∧ polynomial.coefficients.length ≤ degree + 1 := by
  unfold generatePolynomial at made
  obtain ⟨_, _, made⟩ := bind_ok_iff.mp made
  have initial := new_is_initial made
  constructor
  · obtain ⟨first, rest, same⟩ := exists_cons_of_ne_nil polynomial.nonempty
    rw [same] at initial ⊢
    obtain ⟨rfl, _⟩ := cons_prefix_cons.mp initial
    rfl
  · simpa using initial.length_le

/-- A commitment that is as long as it should be is a commitment to the whole polynomial. -/
theorem insertIdentity_own {generator : Element} {commitment : Polynomial Element}
    (made : generateCoefficientCommitment generator coefficients = .ok commitment)
    (constant : coefficients.head? = some secret) (short : coefficients.length ≤ threshold.value)
    (positive : 1 ≤ threshold.value) (full : commitment.coefficients.length =
      if secret = 0 then threshold.value - 1 else threshold.value) :
    insertIdentityIfMissing threshold commitment.coefficients =
      coefficients.map fun c => c • generator := by
  unfold generateCoefficientCommitment at made
  obtain ⟨polynomial, remaining, committed⟩ := bind_ok_iff.mp made
  have whole := (new_is_initial committed).trans ((new_is_initial remaining).map fun c =>
    c • generator)
  obtain ⟨rest, rfl⟩ : ∃ rest, coefficients = secret :: rest := by
    cases coefficients with
    | nil => cases constant
    | cons first rest =>
      cases constant
      exact ⟨rest, rfl⟩
  by_cases zero : secret = 0
  · subst zero
    simp only [head?_cons, if_true, tail_cons] at whole
    rw [if_pos rfl] at full
    have length : (rest.map fun c => c • generator).length ≤ commitment.coefficients.length := by
      rw [full, length_map]
      simp only [length_cons] at short
      omega
    rw [insertIdentityIfMissing, if_pos full, whole.eq_of_length_le length, map_cons,
      zero_smul]
  · rw [if_neg zero] at full
    simp only [head?_cons, Option.some.injEq, zero, if_false] at whole
    have length : ((secret :: rest).map fun c => c • generator).length ≤
        commitment.coefficients.length := by
      rw [full, length_map]
      exact short
    rw [insertIdentityIfMissing, if_neg (by omega), whole.eq_of_length_le length]

theorem coefficients_of_leading [Zero C] [DecidableEq C] {coefficients : List C}
    {polynomial : Polynomial C} (made : Polynomial.new coefficients = .ok polynomial)
    (leading : coefficients.getLast? ≠ some 0) : polynomial.coefficients = coefficients := by
  refine (new_eq_ok.mp made).trans (rdropWhile_eq_self_iff.mpr fun nonempty zero => leading ?_)
  simpa [getLast?_eq_some_getLast nonempty] using zero

theorem getLast?_coefficients [Zero C] (polynomial : Polynomial C) :
    polynomial.coefficients.getLast? ≠ some 0 := by
  rw [getLast?_eq_some_getLast polynomial.nonempty]
  intro zero
  exact polynomial.leading (Option.some.inj zero)

/-- Nothing but a constant that is zero is left out of a commitment. -/
theorem length_commitment {generator : Element} {polynomial : Polynomial Scalar}
    {commitment : Polynomial Element}
    (made : generateCoefficientCommitment generator polynomial.coefficients = .ok commitment) :
    commitment.coefficients.length =
      if polynomial.coefficients.head? = some 0 then polynomial.coefficients.length - 1
      else polynomial.coefficients.length := by
  unfold generateCoefficientCommitment at made
  obtain ⟨remaining, stripped, committed⟩ := bind_ok_iff.mp made
  have last := getLast?_coefficients polynomial
  have whole : remaining.coefficients = if polynomial.coefficients.head? = some 0 then
      polynomial.coefficients.tail else polynomial.coefficients := by
    apply coefficients_of_leading stripped
    split
    · rw [getLast?_tail]
      split <;> simp [last]
    · exact last
  have exact : commitment.coefficients = remaining.coefficients.map fun c => c • generator := by
    apply coefficients_of_leading committed
    rw [getLast?_map, getLast?_eq_some_getLast remaining.nonempty]
    intro zero
    have isZero : remaining.coefficients.getLast remaining.nonempty • generator = 0 :=
      Option.some.inj zero
    have trivial : generator = 0 := by
      rw [← inv_smul_smul₀ remaining.leading generator, isZero, smul_zero]
    obtain ⟨c, _, same⟩ := mem_map.mp ((new_is_initial committed).subset
      (getLast_mem commitment.nonempty))
    exact commitment.leading (by rw [← same, trivial, smul_zero])
  rw [exact, length_map, whole]
  split
  · exact length_tail
  · rfl

variable {suite : Ciphersuite Scalar Element Hash} {arguments : Keyshare Scalar Element}
  {draws : Draws Scalar} {received : Received Scalar Element Hash}
  {committed : Committed Scalar Element Hash}

/-- What a participant has committed to when it goes into round four. -/
structure CommittedTo (suite : Ciphersuite Scalar Element Hash)
    (arguments : Keyshare Scalar Element) (draws : Draws Scalar)
    (committed : Committed Scalar Element Hash) : Prop where
  positive : 1 ≤ arguments.threshold.value
  member : arguments.me ∈ arguments.participants.participants
  oldPackage : arguments.oldResharePackage.map Prod.fst = committed.oldVerificationKey ∧
    arguments.oldResharePackage.map Prod.snd = committed.oldParticipants
  newcomer : arguments.secret = 0 ↔
    ∃ old ∈ committed.oldParticipants, ¬ old.contains arguments.me
  drawn : ∃ polynomial : Polynomial Scalar,
    generatePolynomial arguments.secret (arguments.threshold.value - 1) draws.coefficients =
      .ok polynomial ∧ polynomial.coefficients = committed.secretCoefficients
  commitment : ∃ polynomial : Polynomial Element,
    generateCoefficientCommitment suite.generator committed.secretCoefficients =
      .ok polynomial ∧ polynomial.coefficients = committed.commitment
  participants : committed.commitmentsAndProofs.participants = arguments.participants
  own : ∃ proof, committed.commitmentsAndProofs.get arguments.me =
      some (committed.commitment, proof) ∧
    (proof = none ↔ ∃ old ∈ committed.oldParticipants, ¬ old.contains arguments.me)

theorem commitmentRounds_ok (done : commitmentRounds suite arguments draws received =
    .ok committed) : CommittedTo suite arguments draws committed := by
  unfold commitmentRounds at done
  simp only [bind_ok_iff, failing_eq_ok, require_eq_ok, pure_ok_iff] at done
  obtain ⟨⟨oldKey, old⟩, inputs, sessionIds, _, _, positive, coefficients, generated, commitment,
    made, proof, proven, hash, _, hashes, _, map, broadcast, rfl⟩ := done
  obtain ⟨oldKeys, olds, newcomer⟩ := assertKeyshareInputs_ok inputs
  obtain ⟨member, participants, own⟩ := doBroadcast_ok broadcast
  exact ⟨positive, member, ⟨oldKeys, olds⟩, newcomer, ⟨coefficients, generated, rfl⟩,
    ⟨commitment, made, rfl⟩, participants, proof, own, generateProof_ok proven⟩

theorem addShares_ok {own sum : Scalar}
    (done : addShares suite me map own shares = .ok sum) :
    sum • suite.generator = own • suite.generator +
      (shares.map fun message => Feldman.eval (scalar Scalar me)
        ((map.get message.1).getD [])).sum := by
  unfold addShares at done
  induction shares generalizing own with
  | nil =>
    cases done
    simp
  | cons message shares ih =>
    simp only [foldlM_cons, bind_ok_iff, pure_ok_iff] at done
    obtain ⟨_, ⟨commitment, known, _, valid, rfl⟩, rest⟩ := done
    have there := ParticipantMap.get_of_index known
    have onPolynomial : message.2 • suite.generator =
        Feldman.eval (scalar Scalar me) commitment := by
      unfold validateReceivedShare at valid
      simp only [bind_ok_iff, require_eq_ok] at valid
      obtain ⟨_, _, _, same, _⟩ := valid
      rw [same, evaluateVss_eq]
    rw [ih rest, add_smul, onPolynomial, map_cons, sum_cons, there, Option.getD_some,
      add_assoc]

/-- The commitment that the participant broadcast is one the others accept. -/
def OwnAcceptable (arguments : Keyshare Scalar Element)
    (committed : Committed Scalar Element Hash) : Prop :=
  ∃ entry, committed.commitmentsAndProofs.get arguments.me = some entry ∧
    Acceptable arguments.threshold committed.oldParticipants arguments.me entry

theorem CommittedTo.eval_own (before : CommittedTo suite arguments draws committed)
    (acceptable : OwnAcceptable arguments committed) (x : Scalar) :
    Feldman.eval x (fullCommitment arguments.threshold committed.commitmentsAndProofs
      arguments.me) = Feldman.eval x committed.secretCoefficients • suite.generator := by
  obtain ⟨proof, own, noProof⟩ := before.own
  obtain ⟨entry, same, acceptable⟩ := acceptable
  rw [own] at same
  cases same
  obtain ⟨drawn, generated, coefficients⟩ := before.drawn
  obtain ⟨polynomial, made, commitment⟩ := before.commitment
  obtain ⟨constant, short⟩ := generatePolynomial_ok generated
  have positive := before.positive
  have length : polynomial.coefficients.length = if arguments.secret = 0 then
      arguments.threshold.value - 1 else arguments.threshold.value := by
    rw [commitment]
    cases proof with
    | none => rw [if_pos (before.newcomer.mpr (noProof.mp rfl)), acceptable.2]
    | some proof =>
      have known : ¬ arguments.secret = 0 := by
        intro zero
        cases noProof.mpr (before.newcomer.mp zero)
      rw [if_neg known, acceptable.2]
  rw [coefficients] at constant short
  rw [fullCommitment, own, ← Feldman.eval_commit, ← insertIdentity_own made constant
    (by omega) positive length, commitment]
  rfl

/-- With a highest coefficient that is not zero the commitment is accepted. -/
theorem CommittedTo.ownAcceptable (before : CommittedTo suite arguments draws committed)
    (large : 2 ≤ arguments.threshold.value)
    (leading : draws.coefficients (arguments.threshold.value - 2) ≠ 0) :
    OwnAcceptable arguments committed := by
  obtain ⟨drawn, generated, coefficients⟩ := before.drawn
  obtain ⟨constant, _⟩ := generatePolynomial_ok generated
  have length : drawn.coefficients.length = arguments.threshold.value := by
    obtain ⟨_, _, made⟩ := bind_ok_iff.mp generated
    have last : (arguments.secret :: (range (arguments.threshold.value - 1)).map
        draws.coefficients).getLast? =
          some (draws.coefficients (arguments.threshold.value - 2)) := by
      obtain ⟨n, value⟩ := Nat.exists_eq_add_of_le' large
      simp only [value, Nat.add_sub_cancel, show n + 2 - 1 = n + 1 by omega, range_succ,
        map_append, map_cons, map_nil]
      rw [← cons_append, getLast?_concat]
    rw [coefficients_of_leading made (by rw [last]; simpa using leading), length_cons,
      length_map, length_range]
    omega
  obtain ⟨polynomial, made, commitment⟩ := before.commitment
  rw [← coefficients] at made
  have committedLength := length_commitment made
  rw [constant, length, commitment] at committedLength
  obtain ⟨proof, own, noProof⟩ := before.own
  refine ⟨_, own, ?_⟩
  cases proof with
  | none =>
    have newcomer := noProof.mp rfl
    rw [before.newcomer.mpr newcomer, if_pos rfl] at committedLength
    exact ⟨newcomer, committedLength⟩
  | some proof =>
    have known : ¬ ∃ old ∈ committed.oldParticipants, ¬ old.contains arguments.me := by
      intro newcomer
      cases noProof.mpr newcomer
    rw [if_neg (by simpa [before.newcomer] using known)] at committedLength
    exact ⟨known, committedLength⟩

structure Returned (suite : Ciphersuite Scalar Element Hash) (arguments : Keyshare Scalar Element)
    (draws : Draws Scalar) (committed : Committed Scalar Element Hash) (sum : List Element)
    (out : KeygenOutput Scalar Element) : Prop where
  before : CommittedTo suite arguments draws committed
  added : sumCommitments (arguments.participants.participants.map
    (fullCommitment arguments.threshold committed.commitmentsAndProofs)) = .ok sum
  publicKey : sum.head? = some out.publicKey
  oldKey : ∀ old ∈ committed.oldVerificationKey, old = out.publicKey
  others : ∀ p ∈ arguments.participants.participants, p ≠ arguments.me →
    ∃ entry, committed.commitmentsAndProofs.get p = some entry ∧
      Acceptable arguments.threshold committed.oldParticipants p entry
  share : OwnAcceptable arguments committed → out.privateShare • suite.generator =
    (arguments.participants.participants.map fun p => Feldman.eval (scalar Scalar arguments.me)
      (fullCommitment arguments.threshold committed.commitmentsAndProofs p)).sum

variable {out : KeygenOutput Scalar Element}

section

variable (returned : Returned suite arguments draws committed sum out)

include returned

/-- The public key and the share are points of the sum of all commitments. -/
theorem Returned.on_sum (acceptable : OwnAcceptable arguments committed) :
    sum.length = arguments.threshold.value ∧ out.publicKey = evaluateVss (0 : Scalar) sum ∧
      out.privateShare • suite.generator = evaluateVss (scalar Scalar arguments.me) sum := by
  have lengths : ∀ c ∈ arguments.participants.participants.map
      (fullCommitment arguments.threshold committed.commitmentsAndProofs),
      c.length = arguments.threshold.value := by
    intro c inside
    obtain ⟨p, member, rfl⟩ := mem_map.mp inside
    obtain ⟨entry, there, accepted⟩ : ∃ entry, committed.commitmentsAndProofs.get p = some entry ∧
        Acceptable arguments.threshold committed.oldParticipants p entry := by
      by_cases isMe : p = arguments.me
      · exact isMe ▸ acceptable
      · exact returned.others p member isMe
    rw [fullCommitment, there]
    exact length_insertIdentity returned.before.positive accepted
  obtain ⟨length, evaluated⟩ : sum.length = _ ∧ ∀ x : Scalar, Feldman.eval x sum = _ :=
    sumCommitments_ok lengths returned.added
  refine ⟨length, ?_, ?_⟩
  · rw [evaluateVss_eq, Feldman.eval_zero, headD_eq_head?_getD, returned.publicKey,
      Option.getD_some]
  · rw [evaluateVss_eq, evaluated, returned.share acceptable, map_map]
    rfl

theorem Returned.old_eq (common : task.Common me arguments) :
    committed.oldVerificationKey = task.oldPublicKey ∧
      committed.oldParticipants = task.oldParticipants.bind ParticipantList.new := by
  rw [← common.oldKey, ← common.oldParticipants]
  exact ⟨returned.before.oldPackage.1.symm, returned.before.oldPackage.2.symm⟩

theorem Returned.ownAcceptable (common : task.Common k arguments)
    (common' : task.Common l arguments')
    (returned' : Returned suite arguments' draws' committed' sum' out')
    (same : committed.commitmentsAndProofs = committed'.commitmentsAndProofs) (apart : k ≠ l) :
    OwnAcceptable arguments committed := by
  have lists : arguments.participants = arguments'.participants :=
    Option.some.inj (common.participants.symm.trans common'.participants)
  have member : arguments.me ∈ arguments'.participants.participants :=
    lists ▸ returned.before.member
  obtain ⟨entry, there, accepted⟩ := returned'.others arguments.me member
    (by rwa [common.me, common'.me])
  refine ⟨entry, by rw [same]; exact there, ?_⟩
  rw [common.threshold, (returned.old_eq common).2]
  rwa [common'.threshold, (returned'.old_eq common').2] at accepted

end

variable [DecidableEq Hash]

theorem verifyCommitments_ok (before : CommittedTo suite arguments draws committed)
    (done : verifyCommitments suite arguments committed = .ok map) :
    map.participants = arguments.participants ∧
      (∀ p ∈ arguments.participants.participants, map.get p =
        some (fullCommitment arguments.threshold committed.commitmentsAndProofs p)) ∧
      ∀ p ∈ arguments.participants.participants, p ≠ arguments.me →
        ∃ entry, committed.commitmentsAndProofs.get p = some entry ∧
          Acceptable arguments.threshold committed.oldParticipants p entry := by
  have start := (ParticipantMap.new arguments.participants).get_put
    (insertIdentityIfMissing arguments.threshold committed.commitment) before.member
    (ParticipantMap.get_new _ _)
  have others : ∀ p, p ∈ arguments.participants.others arguments.me ↔
      p ∈ arguments.participants.participants ∧ p ≠ arguments.me := by
    simp [ParticipantList.others]
  unfold verifyCommitments at done
  obtain ⟨participants, kept, each⟩ := verifyEach_ok (arguments.participants.distinct.filter _)
    (fun p inside => by simpa [ParticipantMap.new] using ((others p).mp inside).1)
    (fun p inside => by rw [start, if_neg ((others p).mp inside).2, ParticipantMap.get_new]) done
  refine ⟨participants.trans (ParticipantMap.participants_put _ _ _), ?_, ?_⟩
  · intro p inside
    by_cases isMe : p = arguments.me
    · subst isMe
      obtain ⟨proof, own, _⟩ := before.own
      rw [kept _ (fun inOthers => ((others _).mp inOthers).2 rfl), start, if_pos rfl,
        fullCommitment, own]
      rfl
    · exact (each p ((others p).mpr ⟨inside, isMe⟩)).1
  · intro p inside notMe
    exact (each p ((others p).mpr ⟨inside, notMe⟩)).2

theorem doKeyshare_ok (done : doKeyshare suite arguments draws received = .ok out) :
    ∃ committed sum, commitmentRounds suite arguments draws received = .ok committed ∧
      Returned suite arguments draws committed sum out := by
  unfold doKeyshare at done
  simp only [bind_ok_iff, failing_eq_ok, found_eq_ok, require_eq_ok, pure_ok_iff] at done
  obtain ⟨committed, rounds, map, verified, commitments, all, publicKey, summed, _, oldKey, own,
    evaluated, shares, gathered, privateShare, added, _, _, rfl⟩ := done
  have before := commitmentRounds_ok rounds
  obtain ⟨participants, full, others⟩ := verifyCommitments_ok before verified
  rw [ParticipantMap.toRefsOrNone_eq (participants.symm ▸ full), participants] at all
  cases all
  unfold publicKeyFromCommitments at summed
  obtain ⟨sum, summed, head⟩ := bind_ok_iff.mp summed
  refine ⟨committed, sum, rounds, before, summed, found_eq_ok.mp head, oldKey, others, ?_⟩
  intro acceptable
  have everybody := recvFromOthers_ok before.member gathered
  have each : ∀ message ∈ shares, (map.get message.1).getD [] =
      fullCommitment arguments.threshold committed.commitmentsAndProofs message.1 := by
    intro message inside
    rw [full message.1 (everybody.mem_iff.mpr
      (mem_cons_of_mem _ (mem_map_of_mem inside))), Option.getD_some]
  have rest : (shares.map fun message => Feldman.eval (scalar Scalar arguments.me)
      ((map.get message.1).getD [])) = (shares.map Prod.fst).map fun p =>
        Feldman.eval (scalar Scalar arguments.me)
          (fullCommitment arguments.threshold committed.commitmentsAndProofs p) := by
    rw [map_map]
    exact map_congr_left fun message inside => by rw [each message inside]; rfl
  calc
    privateShare • suite.generator
      = own • suite.generator + (shares.map fun message =>
          Feldman.eval (scalar Scalar arguments.me) ((map.get message.1).getD [])).sum :=
        addShares_ok added
    _ = ((arguments.me :: shares.map Prod.fst).map fun p =>
          Feldman.eval (scalar Scalar arguments.me)
            (fullCommitment arguments.threshold committed.commitmentsAndProofs p)).sum := by
        rw [rest, ← (evalAtPoint_eq_ok.mp evaluated).2, ← before.eval_own acceptable, map_cons,
          sum_cons]
    _ = _ := ((everybody.map _).sum_eq).symm

theorem Task.output_ok (done : task.output suite me party = some out) :
    ∃ arguments committed sum, task.Common me arguments ∧
      task.broadcastCommitments suite me party = some committed.commitmentsAndProofs ∧
      Returned suite arguments party.draws committed sum out := by
  unfold Task.output at done
  simp only [bind_some_iff, toOption_eq_some] at done
  obtain ⟨arguments, started, returned⟩ := done
  obtain ⟨committed, sum, rounds, returned⟩ := doKeyshare_ok returned
  refine ⟨arguments, committed, sum, Task.arguments_ok started, ?_, returned⟩
  simp [Task.broadcastCommitments, started, rounds, Except.toOption]

/-- Whatever the others send: if the honest participants agree on the commitments, all that return
    have the same public key and a share on one polynomial with as many coefficients as the
    threshold. One honest participant alone needs its highest coefficient not to be zero. -/
theorem honest_shares_on_one_polynomial (suite : Ciphersuite Scalar Element Hash)
    (task : Task Element) (honest : Set Participant)
    (party : Participant → Party Scalar Element Hash)
    (agreement : ∀ i ∈ honest, ∀ j ∈ honest, ∀ m m',
      task.broadcastCommitments suite i (party i) = some m →
      task.broadcastCommitments suite j (party j) = some m' → m = m')
    {i : Participant} (isHonest : i ∈ honest)
    (returns : (task.output suite i (party i)).isSome)
    (notAlone : (∃ j ∈ honest, j ≠ i ∧ (task.output suite j (party j)).isSome) ∨
      (party i).draws.coefficients (task.threshold.value - 2) ≠ 0) :
    ∃ commitment : List Element, commitment.length = task.threshold.value ∧
      (∀ key ∈ task.oldPublicKey, key = evaluateVss (0 : Scalar) commitment) ∧
      ∀ k ∈ honest, ∀ out, task.output suite k (party k) = some out →
        out.publicKey = evaluateVss (0 : Scalar) commitment ∧
        out.privateShare • suite.generator = evaluateVss (scalar Scalar k) commitment := by
  obtain ⟨first, returnsFirst⟩ := Option.isSome_iff_exists.mp returns
  obtain ⟨arguments, committed, sum, common, broadcast, returned⟩ := Task.output_ok returnsFirst
  have acceptable : OwnAcceptable arguments committed := by
    rcases notAlone with ⟨j, isHonest', apart, returns'⟩ | leading
    · obtain ⟨second, returnsSecond⟩ := Option.isSome_iff_exists.mp returns'
      obtain ⟨_, _, _, common', broadcast', returned'⟩ := Task.output_ok returnsSecond
      exact returned.ownAcceptable common common' returned'
        (agreement i isHonest j isHonest' _ _ broadcast broadcast') apart.symm
    · rw [← common.threshold] at leading
      exact returned.before.ownAcceptable (common.threshold ▸ common.large) leading
  obtain ⟨length, publicKey, share⟩ := returned.on_sum acceptable
  refine ⟨sum, by rw [length, common.threshold], ?_, ?_⟩
  · intro key old
    rw [← publicKey]
    exact returned.oldKey key (by rwa [(returned.old_eq common).1])
  · intro k isHonest' out returnsOther
    by_cases isFirst : k = i
    · subst isFirst
      obtain rfl := Option.some.inj (returnsFirst.symm.trans returnsOther)
      exact ⟨publicKey, by rw [share, common.me]⟩
    · obtain ⟨arguments', committed', sum', common', broadcast', returned'⟩ :=
        Task.output_ok returnsOther
      have same := agreement k isHonest' i isHonest _ _ broadcast' broadcast
      have lists : arguments'.participants = arguments.participants :=
        Option.some.inj (common'.participants.symm.trans common.participants)
      have sums : sum' = sum := by
        have added := returned'.added
        rw [same, lists, common'.threshold, ← common.threshold, returned.added] at added
        exact (Except.ok.inj added).symm
      obtain ⟨_, publicKey', share'⟩ := returned'.on_sum
        (returned'.ownAcceptable common' common returned same isFirst)
      rw [sums] at publicKey' share'
      exact ⟨publicKey', by rw [share', common'.me]⟩

private instance primeEleven : Fact (Nat.Prime 11) := ⟨by norm_num⟩

private def smallSuite : Ciphersuite (ZMod 11) (ZMod 11) Unit where
  generator := 1
  hdkg _ _ _ _ _ := some 1
  hashSessionIds _ _ := ()
  hashCommitment _ _ _ _ := ()

private def twoOfTwo : Task (ZMod 11) := .keygen [⟨0⟩, ⟨1⟩] ⟨2⟩

private def oneVote (sender : Participant) (sid : Nat) (value : T) : Votes T :=
  ⟨12, [(sender, sid, .send value)]⟩

/-- What a participant draws, and what it receives from the other. -/
private def generating (me : Participant) : Party (ZMod 11) (ZMod 11) Unit :=
  if me = ⟨0⟩ then
    { oldSigningKey := none
      draws := ⟨3, [], fun _ => 2, 1⟩
      received := ⟨oneVote ⟨1⟩ 1 [], [(⟨1⟩, .ok ())], oneVote ⟨1⟩ 1 ([4, 5], some ⟨1, 5⟩),
        [(⟨1⟩, .ok 9)], oneVote ⟨1⟩ 1 (true, ())⟩ }
  else
    { oldSigningKey := none
      draws := ⟨4, [], fun _ => 5, 1⟩
      received := ⟨oneVote ⟨0⟩ 0 [], [(⟨0⟩, .ok ())], oneVote ⟨0⟩ 0 ([3, 2], some ⟨1, 4⟩),
        [(⟨0⟩, .ok 7)], oneVote ⟨0⟩ 0 (true, ())⟩ }

theorem honest_shares_on_one_polynomial_two :
    twoOfTwo.output smallSuite ⟨0⟩ (generating ⟨0⟩) = some ⟨3, 7⟩ ∧
      twoOfTwo.output smallSuite ⟨1⟩ (generating ⟨1⟩) = some ⟨10, 7⟩ ∧
      ∃ commitment : List (ZMod 11), commitment.length = 2 ∧
        (7 : ZMod 11) = evaluateVss (0 : ZMod 11) commitment ∧
        (3 : ZMod 11) • (1 : ZMod 11) = evaluateVss (scalar (ZMod 11) ⟨0⟩) commitment := by
  have first : twoOfTwo.output smallSuite ⟨0⟩ (generating ⟨0⟩) = some ⟨3, 7⟩ := by decide +kernel
  have second : twoOfTwo.output smallSuite ⟨1⟩ (generating ⟨1⟩) = some ⟨10, 7⟩ := by
    decide +kernel
  have same : twoOfTwo.broadcastCommitments smallSuite ⟨0⟩ (generating ⟨0⟩) =
      twoOfTwo.broadcastCommitments smallSuite ⟨1⟩ (generating ⟨1⟩) := by decide +kernel
  have everybody : ∀ p ∈ ({⟨0⟩, ⟨1⟩} : Set Participant),
      twoOfTwo.broadcastCommitments smallSuite p (generating p) =
        twoOfTwo.broadcastCommitments smallSuite ⟨0⟩ (generating ⟨0⟩) := by
    rintro p (rfl | rfl)
    · rfl
    · exact same.symm
  obtain ⟨commitment, length, _, each⟩ := honest_shares_on_one_polynomial smallSuite twoOfTwo
    {⟨0⟩, ⟨1⟩} generating
    (fun i isHonest j isHonest' m m' here there => by
      rw [everybody i isHonest] at here
      rw [everybody j isHonest', here] at there
      exact Option.some.inj there)
    (.inl rfl) (by rw [first]; rfl) (.inl ⟨⟨1⟩, .inr rfl, by decide, by rw [second]; rfl⟩)
  obtain ⟨publicKey, share⟩ := each ⟨0⟩ (.inl rfl) _ first
  exact ⟨first, second, commitment, length, publicKey, share⟩

end MpcNetwork.Threshold.Dkg
