import MpcNetwork.Threshold.Ecdsa

/-! # OT-based ECDSA from shares to signatures

Presigning opens `kd`, `k + a` and `x + b` and checks each of them against public points, so what a
participant gets out of it does not depend on what the others send.  From the values of dealt
polynomials, honest participants come to a signature under the tweaked key.
-/

namespace MpcNetwork.Threshold.OtBasedEcdsa

open Dkg (KeygenOutput failing scalar)
open Ecdsa Fallible Jobs List

structure TripleShare (Scalar : Type) where
  a : Scalar
  b : Scalar
  c : Scalar

structure TriplePub (Element : Type) where
  bigA : Element
  bigB : Element
  bigC : Element

structure PresignArguments (Scalar Element : Type) where
  triple0 : TripleShare Scalar × TriplePub Element
  triple1 : TripleShare Scalar × TriplePub Element
  keygenOut : KeygenOutput Scalar Element

variable {Scalar Element : Type} [Field Scalar] [AddCommGroup Element] [Module Scalar Element]

/-- What is sent in the first round. -/
def kdShare (lambda : Scalar) (args : PresignArguments Scalar Element) : Scalar :=
  lambda * args.triple0.1.c

/-- What is sent in the second round. -/
def openings (lambda : Scalar) (args : PresignArguments Scalar Element) : Scalar × Scalar :=
  (lambda * args.triple0.1.a + lambda * args.triple1.1.a,
    lambda * args.keygenOut.privateShare + lambda * args.triple1.1.b)

section Definitions

variable [DecidableEq Scalar] (suite : Suite Scalar Element)

def addKdShares (own : Scalar) (shares : List (Participant × Scalar)) :
    Except ProtocolError Scalar :=
  shares.foldlM (fun e message => do
    require (message.2 ≠ 0) (.assertionFailed
      "Received zero share of kd, indicating a triple wasn't available.")
    pure (e + message.2)) own

def addOpenings (own : Scalar × Scalar) (messages : List (Participant × Scalar × Scalar)) :
    Scalar × Scalar :=
  messages.foldl (fun sum message => (sum.1 + message.2.1, sum.2 + message.2.2)) own

def doPresign [DecidableEq Element] (participants : ParticipantList) (me : Participant)
    (args : PresignArguments Scalar Element) (shares : List (Participant × Except String Scalar))
    (opened : List (Participant × Except String (Scalar × Scalar))) :
    Except (Stop ProtocolError) (PresignOutput Element Scalar) := do
  let lambda : Scalar ← failing (participants.lagrange me)
  let shares ← recvFromOthers participants me shares
  let e ← failing (addKdShares (kdShare lambda args) shares)
  failing (require (args.triple0.2.bigC = e • suite.generator)
    (.assertionFailed "received incorrect shares of kd"))
  let messages ← recvFromOthers participants me opened
  let (alpha, beta) := addOpenings (openings lambda args) messages
  failing (require (alpha • suite.generator = args.triple0.2.bigA + args.triple1.2.bigA ∧
      beta • suite.generator = args.keygenOut.publicKey + args.triple1.2.bigB)
    (.assertionFailed "received incorrect shares of additive triple phase."))
  failing (require (e ≠ 0) (.assertionFailed "failed to invert kd"))
  pure ⟨e⁻¹ • args.triple0.2.bigB, args.triple0.1.a,
    alpha * args.keygenOut.privateShare - (beta * args.triple1.1.a - args.triple1.1.c)⟩

/-- The rerandomised presignature has the fields of a presignature. -/
def rerandomizePresign [DecidableEq Element] (presignature : PresignOutput Element Scalar)
    (args : RerandomizationArguments Scalar Element) :
    Except ProtocolError (PresignOutput Element Scalar) := do
  require (presignature.bigR = args.bigR) .incompatibleRerandomizationInputs
  let delta ← suite.deriveRandomness args
  require (delta ≠ 0) .zeroScalar
  pure ⟨delta • presignature.bigR, presignature.k * delta⁻¹,
    (presignature.sigma + args.tweak * presignature.k) * delta⁻¹⟩

def signatureShare (lambda : Scalar) (presignature : PresignOutput Element Scalar)
    (msgHash : Scalar) : Scalar :=
  msgHash * (lambda * presignature.k) +
    suite.xCoordinate presignature.bigR * (lambda * presignature.sigma)

def doSignCoordinator (participants : ParticipantList) (me : Participant) (publicKey : Element)
    (presignature : PresignOutput Element Scalar) (msgHash : Scalar)
    (received : List (Participant × Except String Scalar)) :
    Except (Stop ProtocolError) (Option (Signature Scalar Element)) := do
  let lambda : Scalar ← failing (participants.lagrange me)
  let shares ← recvFromOthers participants me received
  let s := shares.foldl (fun s message => s + message.2)
    (signatureShare suite lambda presignature msgHash)
  let signature := ⟨presignature.bigR, suite.normalize s⟩
  failing (require (suite.verify signature publicKey msgHash)
    (.assertionFailed "signature failed to verify"))
  pure (some signature)

end Definitions

/-- The polynomials behind the key shares and two triples, below the threshold. -/
structure Dealt (Scalar : Type) [Field Scalar] where
  threshold : Nat
  x : Polynomial Scalar
  k : Polynomial Scalar
  d : Polynomial Scalar
  e : Polynomial Scalar
  a : Polynomial Scalar
  b : Polynomial Scalar
  c : Polynomial Scalar
  low : ∀ f ∈ [x, k, d, e, a, b, c], f ∈ Polynomial.degreeLT Scalar threshold
  product0 : e.eval 0 = k.eval 0 * d.eval 0
  product1 : c.eval 0 = a.eval 0 * b.eval 0

variable {suite : Suite Scalar Element} {dealt : Dealt Scalar} {participants : ParticipantList}
  {me : Participant}

section Dealt

variable (suite) (dealt)

noncomputable def Dealt.arguments (p : Participant) : PresignArguments Scalar Element where
  triple0 := (⟨dealt.k.eval (scalar Scalar p), dealt.d.eval (scalar Scalar p),
      dealt.e.eval (scalar Scalar p)⟩,
    ⟨dealt.k.eval 0 • suite.generator, dealt.d.eval 0 • suite.generator,
      dealt.e.eval 0 • suite.generator⟩)
  triple1 := (⟨dealt.a.eval (scalar Scalar p), dealt.b.eval (scalar Scalar p),
      dealt.c.eval (scalar Scalar p)⟩,
    ⟨dealt.a.eval 0 • suite.generator, dealt.b.eval 0 • suite.generator,
      dealt.c.eval 0 • suite.generator⟩)
  keygenOut := ⟨dealt.x.eval (scalar Scalar p), dealt.x.eval 0 • suite.generator⟩

/-- The shares of `kx` are the values of this polynomial. -/
noncomputable def Dealt.sigma : Polynomial Scalar :=
  (dealt.k.eval 0 + dealt.a.eval 0) • dealt.x -
    ((dealt.x.eval 0 + dealt.b.eval 0) • dealt.a - dealt.c)

noncomputable def Dealt.presignature (p : Participant) : PresignOutput Element Scalar :=
  ⟨(dealt.k.eval 0)⁻¹ • suite.generator, dealt.k.eval (scalar Scalar p),
    dealt.sigma.eval (scalar Scalar p)⟩

end Dealt

theorem eval_sigma : dealt.sigma.eval 0 = dealt.k.eval 0 * dealt.x.eval 0 := by
  simp only [Dealt.sigma, Polynomial.eval_sub, Polynomial.eval_smul, smul_eq_mul, dealt.product1]
  ring

variable [DecidableEq Scalar] [DecidableEq Element]

/-- The checks leave one output. -/
theorem doPresign_ok
    (done : doPresign suite participants me (dealt.arguments suite me) shares opened = .ok out) :
    out = dealt.presignature suite me := by
  simp only [doPresign, failing, bind_ok_iff, mapError_eq_ok, require_eq_ok, pure_ok_iff] at done
  obtain ⟨lambda, _, _, _, e, _, _, isE, messages, _, _, ⟨isAlpha, isBeta⟩, _, nonzero, rfl⟩ := done
  generalize addOpenings (openings lambda (dealt.arguments suite me)) messages = opened
    at isAlpha isBeta
  simp only [Dealt.arguments, ← add_smul] at isE isAlpha isBeta
  obtain rfl := suite.eq_of_smul_generator isE
  rw [dealt.product0] at nonzero
  have inverse : (dealt.e.eval 0)⁻¹ * dealt.d.eval 0 = (dealt.k.eval 0)⁻¹ := by
    rw [dealt.product0, mul_inv, mul_assoc, inv_mul_cancel₀ (right_ne_zero_of_mul nonzero), mul_one]
  simp only [suite.eq_of_smul_generator isAlpha, suite.eq_of_smul_generator isBeta, Dealt.arguments,
    Dealt.presignature, Dealt.sigma, smul_smul, inverse, Polynomial.eval_sub, Polynomial.eval_smul,
    smul_eq_mul]

/-- Everybody else sends what the protocol says, and it arrives in these orders. -/
noncomputable def presignHonestly (suite : Suite Scalar Element) (dealt : Dealt Scalar)
    (participants : ParticipantList) (me : Participant) (order0 order1 : List Participant) :
    Except (Stop ProtocolError) (PresignOutput Element Scalar) :=
  doPresign suite participants me (dealt.arguments suite me)
    (sentBy order0 fun q => kdShare (participants.lambda q) (dealt.arguments suite q))
    (sentBy order1 fun q => openings (participants.lambda q) (dealt.arguments suite q))

variable {order : List Participant}

omit [DecidableEq Element] in
theorem addKdShares_eq {share : Participant → Scalar}
    (nonzero : ∀ q ∈ order, share q ≠ 0) :
    addKdShares own (order.map fun q => (q, share q)) = .ok (own + (order.map share).sum) := by
  induction order generalizing own with
  | nil => simp [addKdShares, pure, Except.pure]
  | cons q order ih =>
    obtain ⟨first, nonzero⟩ := forall_mem_cons.mp nonzero
    rw [addKdShares, map_cons, foldlM_cons, map_cons, sum_cons, ← add_assoc]
    exact bind_ok_iff.mpr ⟨_, bind_ok_iff.mpr ⟨(), require_eq_ok.mpr first, rfl⟩, ih nonzero⟩

section Honest

variable {presigners signers : ParticipantList}

omit [DecidableEq Scalar] [DecidableEq Element] in
theorem sum_openings (suite : Suite Scalar Element) (separates : Separates Scalar)
    (enough : dealt.threshold ≤ presigners.len) :
    (presigners.participants.map fun q =>
      openings (presigners.lambda q) (dealt.arguments suite q)).sum =
      (dealt.k.eval 0 + dealt.a.eval 0, dealt.x.eval 0 + dealt.b.eval 0) := by
  have low : ∀ f ∈ [dealt.x, dealt.k, dealt.d, dealt.e, dealt.a, dealt.b, dealt.c],
      f ∈ Polynomial.degreeLT Scalar presigners.len :=
    fun f inside => Polynomial.degreeLT_mono enough (dealt.low f inside)
  have alpha := sum_lambda separates (add_mem (low dealt.k (by simp)) (low dealt.a (by simp)))
  have beta := sum_lambda separates (add_mem (low dealt.x (by simp)) (low dealt.b (by simp)))
  simp only [Polynomial.eval_add, mul_add] at alpha beta
  rw [← alpha, ← beta]
  induction presigners.participants with
  | nil => rfl
  | cons q rest ih =>
    simp only [map_cons, sum_cons, ih]
    rfl

/-- An honest run returns, unless a share of `kd` or `kd` itself is zero. -/
theorem presignHonestly_ok (separates : Separates Scalar) (several : 2 ≤ presigners.len)
    (enough : dealt.threshold ≤ presigners.len) (inside : me ∈ presigners.participants)
    {order0 order1 : List Participant} (all0 : order0.Perm (presigners.others me))
    (all1 : order1.Perm (presigners.others me)) (nonzero : dealt.e.eval 0 ≠ 0)
    (shares : ∀ q ∈ presigners.others me,
      kdShare (presigners.lambda q) (dealt.arguments suite q) ≠ 0) :
    presignHonestly suite dealt presigners me order0 order1 = .ok (dealt.presignature suite me) := by
  have low := Polynomial.degreeLT_mono enough (dealt.low dealt.e (by simp))
  have kd := (sum_order _ inside all0).trans (sum_lambda separates low)
  have opened := (sum_order _ inside all1).trans (sum_openings suite separates enough)
  have returns : ∃ out, presignHonestly suite dealt presigners me order0 order1 = .ok out := by
    simp only [presignHonestly, doPresign, failing, bind_ok_iff, mapError_eq_ok, require_eq_ok,
      pure_ok_iff]
    refine ⟨_, _, lagrange_eq_lambda separates several inside, _,
      recvFromOthers_sentBy inside all0, _,
      addKdShares_eq fun q there => shares q (all0.mem_iff.mp there), (), ?_, _,
      recvFromOthers_sentBy inside all1, (), ?_, (), ?_, rfl⟩
    · exact congrArg (· • suite.generator) kd.symm
    · have sums : addOpenings _ _ = _ := (foldl_messages _ _).trans opened
      rw [sums]
      exact ⟨add_smul _ _ _, add_smul _ _ _⟩
    · exact fun zero => nonzero (kd.symm.trans zero)
  obtain ⟨out, returned⟩ := returns
  rw [returned, doPresign_ok returned]

variable (suite) (dealt) in
noncomputable def Dealt.rerandomized (tweak delta : Scalar) (p : Participant) :
    PresignOutput Element Scalar :=
  ⟨delta • (dealt.k.eval 0)⁻¹ • suite.generator, dealt.k.eval (scalar Scalar p) * delta⁻¹,
    (dealt.sigma.eval (scalar Scalar p) + tweak * dealt.k.eval (scalar Scalar p)) * delta⁻¹⟩

omit [DecidableEq Scalar] [DecidableEq Element] in
theorem sum_signatureShares (suite : Suite Scalar Element) (separates : Separates Scalar)
    (enough : dealt.threshold ≤ signers.len) (tweak delta msgHash : Scalar) :
    let r := suite.xCoordinate (delta • (dealt.k.eval 0)⁻¹ • suite.generator)
    (signers.participants.map fun q => signatureShare suite (signers.lambda q)
      (dealt.rerandomized suite tweak delta q) msgHash).sum =
      dealt.k.eval 0 * delta⁻¹ * (msgHash + r * (dealt.x.eval 0 + tweak)) := by
  intro r
  have low : ∀ f ∈ [dealt.x, dealt.k, dealt.d, dealt.e, dealt.a, dealt.b, dealt.c],
      f ∈ Polynomial.degreeLT Scalar signers.len :=
    fun f inside => Polynomial.degreeLT_mono enough (dealt.low f inside)
  have sigma : dealt.sigma ∈ Polynomial.degreeLT Scalar signers.len :=
    sub_mem (Submodule.smul_mem _ _ (low dealt.x (by simp)))
      (sub_mem (Submodule.smul_mem _ _ (low dealt.a (by simp))) (low dealt.c (by simp)))
  have whole := sum_lambda separates (Submodule.smul_mem _ delta⁻¹ (add_mem
    (Submodule.smul_mem _ (msgHash + r * tweak) (low dealt.k (by simp)))
    (Submodule.smul_mem _ r sigma)))
  simp only [Polynomial.eval_smul, Polynomial.eval_add, smul_eq_mul, eval_sigma] at whole
  trans
  · refine Eq.trans (congrArg sum (map_congr_left fun q _ => ?_)) whole
    simp only [signatureShare, Dealt.rerandomized]
    ring
  · ring

/-- If no share of `kd` is zero, honest participants presign and rerandomise, and the signature of
    any of them, as many as the threshold, verifies under the tweaked key. -/
theorem honest_signature_verifies (suite : Suite Scalar Element) (separates : Separates Scalar)
    (dealt : Dealt Scalar) {presigners signers : ParticipantList} {coordinator : Participant}
    {order0 order1 : Participant → List Participant} {order : List Participant}
    {args : RerandomizationArguments Scalar Element} {delta msgHash : Scalar}
    (several : 2 ≤ signers.len) (enough : dealt.threshold ≤ signers.len)
    (part : signers.participants ⊆ presigners.participants)
    (inside : coordinator ∈ signers.participants)
    (all0 : ∀ p ∈ presigners.participants, (order0 p).Perm (presigners.others p))
    (all1 : ∀ p ∈ presigners.participants, (order1 p).Perm (presigners.others p))
    (all : order.Perm (signers.others coordinator)) (kd : dealt.e.eval 0 ≠ 0)
    (shares : ∀ p ∈ presigners.participants,
      kdShare (presigners.lambda p) (dealt.arguments suite p) ≠ 0)
    (nonce : args.bigR = (dealt.k.eval 0)⁻¹ • suite.generator)
    (derived : suite.deriveRandomness args = .ok delta) (deltaNonzero : delta ≠ 0)
    (rNonzero : suite.xCoordinate (delta • args.bigR) ≠ 0)
    (sNonzero : msgHash + suite.xCoordinate (delta • args.bigR) * (dealt.x.eval 0 + args.tweak) ≠ 0) :
    let publicKey := dealt.x.eval 0 • suite.generator + args.tweak • suite.generator
    (∀ p ∈ presigners.participants,
      presignHonestly suite dealt presigners p (order0 p) (order1 p) =
        .ok (dealt.presignature suite p)) ∧
    (∀ p, rerandomizePresign suite (dealt.presignature suite p) args =
      .ok (dealt.rerandomized suite args.tweak delta p)) ∧
    ∃ signature, doSignCoordinator suite signers coordinator publicKey
        (dealt.rerandomized suite args.tweak delta coordinator) msgHash
        (sentBy order fun q => signatureShare suite (signers.lambda q)
          (dealt.rerandomized suite args.tweak delta q) msgHash) = .ok (some signature) ∧
      suite.verify signature publicKey msgHash := by
  have larger : signers.len ≤ presigners.len :=
    (subperm_of_subset signers.distinct part).length_le
  have nonceNonzero : dealt.k.eval 0 ≠ 0 := fun zero => kd (by rw [dealt.product0, zero, zero_mul])
  refine ⟨fun p there => ?_, fun p => ?_, ?_⟩
  · exact presignHonestly_ok separates (several.trans larger) (enough.trans larger) there
      (all0 p there) (all1 p there) kd fun q other => shares q (mem_of_mem_filter other)
  · simp only [rerandomizePresign, bind_ok_iff, require_eq_ok, pure_ok_iff]
    exact ⟨(), nonce.symm, delta, derived, (), deltaNonzero, rfl⟩
  · have sum := (foldl_messages _ _).trans ((sum_order _ inside all).trans
      (sum_signatureShares suite separates enough args.tweak delta msgHash))
    rw [nonce] at rNonzero sNonzero
    have equation : ∀ r : Scalar, (dealt.k.eval 0 * delta⁻¹ * (msgHash +
        r * (dealt.x.eval 0 + args.tweak))) • delta • (dealt.k.eval 0)⁻¹ • suite.generator =
        msgHash • suite.generator +
          r • (dealt.x.eval 0 • suite.generator + args.tweak • suite.generator) := by
      intro r
      simp only [← add_smul, smul_smul]
      congr 1
      field_simp
    have verified := suite.verify_normalize
      (mul_ne_zero (mul_ne_zero nonceNonzero (inv_ne_zero deltaNonzero)) sNonzero) rNonzero
      (equation _)
    refine ⟨_, ?_, verified⟩
    simp only [doSignCoordinator, failing, bind_ok_iff, mapError_eq_ok, require_eq_ok, pure_ok_iff]
    refine ⟨_, lagrange_eq_lambda separates several inside, _, recvFromOthers_sentBy inside all, (),
      ?_, ?_⟩
    · rw [sum]
      exact verified
    · rw [sum]
      rfl

end Honest

/-- Whatever the others send, the nonce is the inverse of the dealt one, and an honest run gives
    nothing else. -/
theorem presign_output_fixed (suite : Suite Scalar Element) (dealt : Dealt Scalar)
    {participants : ParticipantList} {me : Participant} {out : PresignOutput Element Scalar}
    {shares : List (Participant × Except String Scalar)}
    {opened : List (Participant × Except String (Scalar × Scalar))}
    (done : doPresign suite participants me (dealt.arguments suite me) shares opened = .ok out) :
    out.bigR = (dealt.k.eval 0)⁻¹ • suite.generator ∧
      ∀ order0 order1 honest, presignHonestly suite dealt participants me order0 order1 = .ok honest →
        out.k = honest.k ∧ out.sigma = honest.sigma := by
  obtain rfl := doPresign_ok done
  refine ⟨rfl, fun order0 order1 honest returned => ?_⟩
  obtain rfl := doPresign_ok returned
  exact ⟨rfl, rfl⟩

private theorem not_both_negative (s : ℚ) (high : decide (s < 0)) : decide (-s < 0) = false := by
  simp only [decide_eq_true_eq, decide_eq_false_iff_not, not_lt] at high ⊢
  exact neg_nonneg.mpr high.le

/-- The group is the field, a point is as good as its negative, and the negative scalars are high. -/
private def rationalSuite : Suite ℚ ℚ where
  generator := 1
  generator_ne_zero := one_ne_zero
  xCoordinate point := point ^ 2
  xCoordinate_neg := neg_sq
  isHigh s := s < 0
  isHigh_neg := not_both_negative
  deriveRandomness _ := .ok 2

private noncomputable def line (slope constant : ℚ) : Polynomial ℚ :=
  .C slope * .X + .C constant

private theorem eval_line (slope constant x : ℚ) :
    (line slope constant).eval x = slope * x + constant := by
  simp [line]

private theorem lines_low (slope : ℚ) : ∀ f ∈ [line 1 3, line 1 1, line 1 2, line slope 2, line 1 1,
    line 1 1, line 1 1], f ∈ Polynomial.degreeLT ℚ 2 := by
  simp only [forall_mem_cons, not_mem_nil, false_imp_iff, implies_true, and_true,
    Polynomial.mem_degreeLT, line]
  refine ⟨?_, ?_, ?_, ?_, ?_, ?_, ?_⟩ <;> exact Polynomial.degree_linear_lt

private theorem lines_products (slope : ℚ) :
    (line slope 2).eval 0 = (line 1 1).eval 0 * (line 1 2).eval 0 ∧
      (line 1 1).eval 0 = (line 1 1).eval 0 * (line 1 1).eval 0 := by
  simp [eval_line]

private noncomputable def dealtLines (slope : ℚ) : Dealt ℚ :=
  ⟨2, line 1 3, line 1 1, line 1 2, line slope 2, line 1 1, line 1 1, line 1 1, lines_low slope,
    (lines_products slope).1, (lines_products slope).2⟩

private theorem signer_scalars : scalar ℚ ⟨0⟩ = 1 ∧ scalar ℚ ⟨1⟩ = 2 := by
  simp only [scalar, show UInt32.toNat 0 = 0 from rfl, show UInt32.toNat 1 = 1 from rfl]
  norm_num

private theorem lambda_signerPair :
    signerPair.lambda ⟨0⟩ = (2 : ℚ) ∧ signerPair.lambda ⟨1⟩ = (-1 : ℚ) := by
  have others : signerPair.participants.erase ⟨0⟩ = [⟨1⟩] ∧
    signerPair.participants.erase ⟨1⟩ = [⟨0⟩] := by decide
  have lambda : ∀ p, signerPair.lambda p = (_ : ℚ) := fun _ => basisAt_eq_prod pairDistinct
  simp only [lambda, others.1, others.2, map_cons, map_nil, prod_singleton,
    signer_scalars.1, signer_scalars.2]
  norm_num

private theorem kdShares_nonzero : ∀ p ∈ signerPair.participants,
    kdShare (signerPair.lambda p) ((dealtLines 1).arguments rationalSuite p) ≠ 0 := by
  simp only [kdShare, Dealt.arguments, dealtLines, eval_line]
  refine forall_mem_cons.mpr ⟨?_, forall_mem_cons.mpr ⟨?_, forall_mem_nil _⟩⟩
  · rw [lambda_signerPair.1, signer_scalars.1]
    norm_num
  · rw [lambda_signerPair.2, signer_scalars.2]
    norm_num

private theorem pair_presigns :
    presignHonestly rationalSuite (dealtLines 1) signerPair ⟨0⟩ [⟨1⟩] [⟨1⟩] =
      .ok ((dealtLines 1).presignature rationalSuite ⟨0⟩) := by
  refine presignHonestly_ok rational_separates (by decide) (by decide) (by decide) (.refl _)
    (.refl _) ?_ fun q other => kdShares_nonzero q (mem_of_mem_filter other)
  norm_num [dealtLines, eval_line]

theorem presign_output_fixed_two :
    ((dealtLines 1).presignature rationalSuite ⟨0⟩).bigR =
      ((dealtLines 1).k.eval 0)⁻¹ • rationalSuite.generator :=
  (presign_output_fixed rationalSuite (dealtLines 1) pair_presigns).1

private def tweaking : RerandomizationArguments ℚ ℚ := ⟨3, 1, [], 1, signerPair, []⟩

theorem honest_signature_verifies_two : ∃ signature, rationalSuite.verify signature
    ((dealtLines 1).x.eval 0 • rationalSuite.generator +
      tweaking.tweak • rationalSuite.generator) 5 := by
  have nonce : tweaking.bigR = ((dealtLines 1).k.eval 0)⁻¹ • rationalSuite.generator := by
    norm_num [tweaking, dealtLines, eval_line, rationalSuite]
  have r : rationalSuite.xCoordinate ((2 : ℚ) • tweaking.bigR) = 4 := by
    norm_num [tweaking, rationalSuite]
  obtain ⟨_, _, signature, _, verified⟩ := honest_signature_verifies rationalSuite rational_separates
    (dealtLines 1) (by decide : 2 ≤ signerPair.len) (by decide) (Subset.refl _)
    (by decide : (⟨0⟩ : Participant) ∈ signerPair.participants) (fun p _ => .refl (signerPair.others p))
    (fun p _ => .refl (signerPair.others p)) (.refl _) (by norm_num [dealtLines, eval_line])
    kdShares_nonzero nonce rfl two_ne_zero (by rw [r]; norm_num)
    (by rw [r]; norm_num [tweaking, dealtLines, eval_line] : (5 : ℚ) + _ ≠ 0)
  exact ⟨signature, verified⟩

/-- Participant 1's share of `kd` is zero, though neither `kd` nor the nonce is. -/
theorem zero_share_ends_presign :
    (dealtLines (-1)).k.eval 0 ≠ 0 ∧ (dealtLines (-1)).e.eval 0 ≠ 0 ∧
    presignHonestly rationalSuite (dealtLines (-1)) signerPair ⟨0⟩ [⟨1⟩] [⟨1⟩] =
      .error (.failed (.assertionFailed
        "Received zero share of kd, indicating a triple wasn't available.")) := by
  have inside : (⟨0⟩ : Participant) ∈ signerPair.participants := by decide
  have lagrange := lagrange_eq_lambda rational_separates (by decide) inside
  have received : recvFromOthers signerPair ⟨0⟩ (sentBy [⟨1⟩] fun q => kdShare (signerPair.lambda q)
      ((dealtLines (-1)).arguments rationalSuite q)) = .ok _ := recvFromOthers_sentBy inside (.refl _)
  have zero : kdShare (signerPair.lambda ⟨1⟩)
      ((dealtLines (-1)).arguments rationalSuite ⟨1⟩) = 0 := by
    norm_num [kdShare, Dealt.arguments, dealtLines, eval_line, signer_scalars.2]
  refine ⟨?_, ?_, ?_⟩
  · norm_num [dealtLines, eval_line]
  · norm_num [dealtLines, eval_line]
  · simp only [presignHonestly, doPresign, lagrange, received]
    simp [failing, addKdShares, zero, bind, Except.bind, require, Except.mapError]

end MpcNetwork.Threshold.OtBasedEcdsa
