import MpcNetwork.Contract.Runtime
import MpcNetwork.Lib.Tickets

/-! # Pending requests

A data id is a ticket that is stored under the content of a request.  A promise is resumed at
most once and by a response to its own request; the promise of the latest submission of a
request can be reached as long as no older promise of the same request cleans up after it.
-/

namespace MpcNetwork.Contract

open Fallible Runs BigEndian List

/-- The payload is signed under the key derived from the domain's key and the tweak. -/
inductive SignatureVerifies (crypto : Crypto) (request : SignatureRequest) :
    SignatureResponse → PublicKeyExtended → Prop where
  | secp256k1 (signature : K256Signature) (domainKey derived : PublicKey) (hash : List UInt8)
      (derives : crypto.deriveKeySecp256k1 domainKey request.tweak = .ok derived)
      (payload : request.payload.asEcdsa = some hash)
      (recovers : crypto.ecrecover hash signature = some derived) :
      SignatureVerifies crypto request (.secp256k1 signature) (.secp256k1 domainKey)
  | ed25519 (signature message : List UInt8) (compressed : PublicKey) (point : EdwardsPoint)
      (payload : request.payload.asEddsa = some message)
      (verifies : crypto.ed25519Verify signature message (crypto.compress
        (crypto.derivePublicKeyEdwardsPointEd25519 point request.tweak)) = true) :
      SignatureVerifies crypto request (.ed25519 signature) (.ed25519 compressed point)

namespace MpcContract

variable {self : MpcContract} {request : SignatureRequest}

theorem signatureVerifies_of_valid
    (valid : signatureIsValid crypto request response key = .ok true) :
    SignatureVerifies crypto request response key := by
  cases response with
  | secp256k1 signature =>
    cases key with
    | secp256k1 domainKey =>
      simp only [signatureIsValid, bind_ok_iff, require_eq_ok, found_eq_ok, pure_ok_iff,
        Crypto.verifyEcdsaSignature, decide_eq_true_eq] at valid
      obtain ⟨_, _, derived, derives, hash, payload, recovers⟩ := valid
      exact .secp256k1 signature domainKey derived hash derives payload recovers
    | ed25519 => cases valid
    | bls12381 => cases valid
  | ed25519 signature =>
    cases key with
    | ed25519 compressed point =>
      simp only [signatureIsValid, bind_ok_iff, found_eq_ok, pure_ok_iff,
        Crypto.verifyEddsaSignature] at valid
      obtain ⟨message, payload, verifies⟩ := valid
      exact .ed25519 signature message compressed point payload verifies
    | secp256k1 => cases valid
    | bls12381 => cases valid

theorem verifies_of_checkResponse (checked : self.checkResponse crypto env request response = .ok u) :
    ∃ key, self.protocolState.publicKey request.domainId = .ok key ∧
      SignatureVerifies crypto request response key := by
  simp only [checkResponse, bind_ok_iff, require_eq_ok] at checked
  obtain ⟨_, _, _, _, _, _, key, isKey, valid, answered, isTrue⟩ := checked
  rw [isTrue] at answered
  exact ⟨key, isKey, signatureVerifies_of_valid answered⟩

end MpcContract

namespace Runtime

/-- The request a response method is called with. -/
def Action.names : Action → Option Request
  | respond _ request _ => some (.signature request)
  | respondCkd _ request _ => some (.ckd request)
  | respondVerifyForeignTx _ request _ => some (.foreignTx request)
  | _ => none

def Note.move : Note → Tickets.Move Request CryptoHash
  | stored request dataId => .issue request dataId
  | resumed request dataId => .redeem request dataId
  | quiet => .idle

/-- The requests stored along a run, with their data ids. -/
def storedRequests (es : List (Action × Note)) : List (Request × CryptoHash) :=
  Tickets.issued (es.map fun e => e.2.move)

/-- The data ids that are passed to `promise_yield_resume` along a run. -/
def resumedIds (es : List (Action × Note)) : List CryptoHash :=
  (Tickets.redeemed (es.map fun e => e.2.move)).map Prod.snd

variable {crypto : Crypto}

theorem moves_step (acts : Acts (act crypto) s e t) :
    Tickets.Moves s.contract.pending e.2.move t.contract.pending := by
  generalize same : e.2 = note
  have changes := act_changes acts
  rw [same] at changes
  cases changes with
  | stored request dataId contract table =>
    rw [table]
    exact .issue
  | resumed request dataId response contract present table =>
    rw [table]
    exact .redeem present
  | timedOut => exact .idle fun _ => .inl rfl
  | returned => exact .idle fun _ => .inl rfl
  | failed y contract asked isFirst timedOut table =>
    apply Tickets.Moves.idle
    intro request
    rw [table, Function.update_apply]
    split
    · exact .inr rfl
    · exact .inl rfl
  | governed contract table => exact .idle fun request => .inl (congrFun table request)

theorem accounted_run (empty : start.contract.pending = fun _ => none)
    (run : Run (Acts (act crypto)) start es s)
    (distinct : ((storedRequests es).map Prod.snd).Nodup) :
    Tickets.Accounted (es.map fun e => e.2.move) s.contract.pending := by
  have moves := run.simulate (fun s => s.contract.pending) (fun e => e.2.move)
    fun _ _ _ acts => moves_step acts
  rw [empty] at moves
  exact .run moves distinct

/-- Only a response method resumes, and it resumes the promise of its request. -/
theorem names_of_resumed {s : Runtime}
    (done : s.act crypto action = some (t, .resumed request dataId)) :
    action.names = some request ∧ ∀ named, request = .signature named →
      ∃ env response, action = .respond env named response ∧
        s.contract.checkResponse crypto env named response = .ok () := by
  cases action with
  | respond env named response =>
    simp only [act, bind_some_iff, toOption_eq_some] at done
    obtain ⟨_, responded, rest⟩ := done
    cases rest
    refine ⟨rfl, ?_⟩
    intro same isSame
    cases isSame
    simp only [MpcContract.respond, bind_ok_iff] at responded
    obtain ⟨_, checked, _⟩ := responded
    exact ⟨env, response, rfl, checked⟩
  | respondCkd env named response =>
    simp only [act, bind_some_iff, toOption_eq_some] at done
    obtain ⟨_, responded, rest⟩ := done
    cases rest
    exact ⟨rfl, fun _ other => by cases other⟩
  | respondVerifyForeignTx env named response =>
    simp only [act, bind_some_iff, toOption_eq_some] at done
    obtain ⟨_, responded, rest⟩ := done
    cases rest
    exact ⟨rfl, fun _ other => by cases other⟩
  | timeOut other =>
    simp only [act, bind_some_iff] at done
    obtain ⟨_, _, _, _, rest⟩ := done
    cases rest
  | callback other =>
    simp only [act, bind_some_iff] at done
    obtain ⟨_, _, _, _, rest⟩ := done
    cases rest
  | _ =>
    simp only [act, bind_some_iff] at done
    obtain ⟨_, _, rest⟩ := done
    cases rest

/-- Each data id is resumed at most once, by a response to the request under which it was stored
    before; a signature request's only with a signature that verifies in the state of that call. -/
theorem resumed_once {start s : Runtime} {es : List (Action × Note)}
    (empty : start.contract.pending = fun _ => none) (run : Run (Acts (act crypto)) start es s)
    (distinct : ((storedRequests es).map Prod.snd).Nodup) :
    (resumedIds es).Nodup ∧
      ∀ before action request dataId after,
        es = before ++ (action, .resumed request dataId) :: after →
          (request, dataId) ∈ storedRequests before ∧ action.names = some request ∧
            ∀ named, request = .signature named → ∃ u env response key,
              Run (Acts (act crypto)) start before u ∧ action = .respond env named response ∧
                u.contract.protocolState.publicKey named.domainId = .ok key ∧
                  SignatureVerifies crypto named response key := by
  refine ⟨(accounted_run empty run distinct).once, ?_⟩
  intro before action request dataId after whole
  subst whole
  obtain ⟨u, t, early, acts, _⟩ := run.at_event
  obtain ⟨isNamed, responds⟩ := names_of_resumed acts
  have distinctBefore : ((storedRequests before).map Prod.snd).Nodup := by
    rw [storedRequests, map_append, Tickets.issued, filterMap_append,
      map_append] at distinct
    exact (nodup_append.mp distinct).1
  have present : u.contract.pending request = some dataId := by
    have moved : Tickets.Moves u.contract.pending (.redeem request dataId) t.contract.pending :=
      moves_step acts
    generalize t.contract.pending = table at moved
    cases moved with
    | redeem present => exact present
  refine ⟨(accounted_run empty early distinctBefore).held request dataId present, isNamed, ?_⟩
  intro named isSignature
  obtain ⟨env, response, isRespond, checked⟩ := responds named isSignature
  obtain ⟨key, isKey, verifies⟩ := MpcContract.verifies_of_checkResponse checked
  exact ⟨u, env, response, key, early, isRespond, isKey, verifies⟩

end Runtime

private def rootKey : PublicKey :=
  ⟨toBeBytes 32 0x5cbdf0646e5db4eaa398f365f2ea7a0e3d419b7e0330e39ce92bddedcac4f9bc ++
    toBeBytes 32 0x6aebca40ba255960a3178d6d861a54dba813d0b813fde7b5a5082628087264da⟩

/-- The root key plus the tweak times the generator. -/
private def userKey : PublicKey :=
  ⟨toBeBytes 32 0x83589c91a3f6e107e5a507844f4e8542c17efd49dfeac8e0d28fbcbcf8d6bf2a ++
    toBeBytes 32 0x16b300ed29517216cd4acf5aa626e4d7782b7e70938ad0103f21f50c809c1fb9⟩

/-- The hash and the curve operations on the inputs used below. -/
private def recordedCrypto : Crypto where
  sha3 := fun _ => toBeBytes 32 0x40b36f3eb84fb9ed4ca9f4480f9920fa39b3083ba337c07b9a5ee2c9c160ac3a
  ecrecover := fun _ _ => some userKey
  ed25519Verify := fun _ _ _ => false
  onSecp256k1 := fun _ => true
  secp256k1AddBase := fun _ _ => some userKey
  ed25519AddBase := fun point _ => point
  compress := fun _ => ⟨[]⟩

private def userPayload : Bytes ecdsaPayloadSizeBytes ecdsaPayloadSizeBytes :=
  ⟨List.replicate 32 1, by decide, by decide⟩

/-- The signature of the payload under the derived key. -/
private def userSignature : SignatureResponse :=
  .secp256k1
    { bigR := 3 :: toBeBytes 32 0x2f8bde4d1a07209355b4a7250a5c5128e88b84bddc619ab7cba8d569b240efe4
      s := toBeBytes 32 0x4e980a5f5da544f3ee94afe5617996844217fb82f39f6c0c8087ace6b7ecdda4
      recoveryId := 1 }

private def twoNodes : ThresholdParameters where
  participants :=
    { nextId := ⟨2⟩
      participants :=
        [(⟨"node0.near"⟩, ⟨0⟩, ⟨"node0", ⟨[1]⟩⟩), (⟨"node1.near"⟩, ⟨1⟩, ⟨"node1", ⟨[2]⟩⟩)] }
  threshold := 2

private def signingContract : MpcContract :=
  .fresh (.new ⟨[⟨⟨0⟩, .secp256k1, .sign⟩], 1, by decide, by decide⟩
    ⟨⟨0⟩, [⟨⟨0⟩, .secp256k1 rootKey, ⟨0⟩⟩]⟩ twoNodes .default) ⟨30, 15, 15⟩

private def callFrom (account : AccountId) : Env where
  signerAccountId := account
  predecessorAccountId := account
  blockHeight := 100
  prepaidGas := 15 * 10 ^ 12
  attachedDeposit := 1
  isCallerAnAttestedParticipant := fun _ => true
  reverifyParticipant := fun _ => true

private def userRequest : SignatureRequest :=
  ⟨recordedCrypto.deriveTweak ⟨"user.near"⟩ "m", .ecdsa userPayload, ⟨0⟩⟩

namespace Runtime

private def submit (dataId : CryptoHash) : Action :=
  .sign (callFrom ⟨"user.near"⟩) ⟨"m", some (.ecdsa userPayload), none, some ⟨0⟩, none⟩ dataId

private def answer : Action := .respond (callFrom ⟨"node0.near"⟩) userRequest userSignature

theorem resumed_once_answered :
    ∃ es s, Run (Acts (act recordedCrypto)) ⟨signingContract, []⟩ es s ∧
      resumedIds es = [⟨[1]⟩] ∧ (resumedIds es).Nodup := by
  obtain ⟨es, s, run, _, distinct, resumed⟩ := exists_run (act recordedCrypto)
    ⟨signingContract, []⟩ [submit ⟨[1]⟩, answer] (fun es _ =>
      ((storedRequests es).map Prod.snd).Nodup ∧ resumedIds es = [⟨[1]⟩]) (by decide +kernel)
  have empty : signingContract.pending = fun _ => none := by
    funext request
    cases request <;> rfl
  exact ⟨es, s, run, resumed, (resumed_once empty run distinct).1⟩

/-- The promise of the most recent submission of a request. -/
def latest (yields : List Yield) (request : Request) : Option Yield :=
  yields.find? fun y => y.request = request

/-- A promise that still waits after a change of status was not the changed one. -/
theorem latest_mark {yields : List Yield}
    (isLatest : latest (mark yields dataId change) request = some y) (waits : y.status = .waiting)
    (never : ∀ status, change status ≠ .waiting) :
    latest yields request = some y ∧ y.dataId ≠ dataId := by
  rw [latest, mark, find?_map, Option.map_eq_some_iff] at isLatest
  obtain ⟨original, isOriginal, same⟩ := isLatest
  have sameRequest : (fun y : Yield => decide (y.request = request)) ∘
      (fun y : Yield => if y.dataId = dataId then ⟨y.dataId, y.request, change y.status⟩ else y) =
        fun y => decide (y.request = request) := by
    funext y
    simp only [Function.comp]
    split <;> rfl
  rw [sameRequest] at isOriginal
  split at same
  · rw [← same] at waits
    exact absurd waits (never _)
  case isFalse other =>
      rw [← same]
      exact ⟨isOriginal, other⟩

/-- The promise of the latest submission of a request is the one the response will find. -/
def Answerable (s : Runtime) : Prop :=
  ∀ request y, latest s.yields request = some y → y.status = .waiting →
    s.contract.pending request = some y.dataId

/-- The latest submission of the request is the callback's own or has been settled as well. -/
def CleansUpInOrder (s : Runtime) (e : Action × Note) : Prop :=
  ∀ y z, e.1 = .callback y.dataId →
    s.yields.find? (fun other => other.dataId = y.dataId) = some y → y.status = .timedOut →
      latest s.yields y.request = some z → z.status ≠ .waiting

theorem Answerable.step {s t : Runtime} (answerable : s.Answerable)
    (inOrder : CleansUpInOrder s e) (acts : Acts (act crypto) s e t) : t.Answerable := by
  obtain ⟨action, note⟩ := e
  have changes : s.Changes action note t := act_changes acts
  intro request y isLatest waits
  cases changes with
  | stored new dataId contract table =>
    rw [table]
    by_cases same : new = request
    · subst same
      simp only [latest, find?_cons, decide_true, Option.some.injEq] at isLatest
      rw [← isLatest, Function.update_self]
    · rw [Function.update_of_ne (Ne.symm same)]
      apply answerable request y _ waits
      simpa only [latest, find?_cons, same, decide_false] using isLatest
  | resumed named dataId response contract present table =>
    simp only [resume] at isLatest
    obtain ⟨wasLatest, different⟩ := latest_mark isLatest waits (by
      intro status
      split
      · exact nofun
      · assumption)
    have before := answerable request y wasLatest waits
    have other : request ≠ named := by
      intro same
      rw [same, present] at before
      exact different (Option.some.inj before).symm
    rw [table, Function.update_of_ne other]
    exact before
  | timedOut dataId =>
    simp only at isLatest
    obtain ⟨wasLatest, _⟩ := latest_mark isLatest waits fun _ => nofun
    exact answerable request y wasLatest waits
  | returned dataId result =>
    simp only at isLatest
    obtain ⟨wasLatest, _⟩ := latest_mark isLatest waits fun _ => nofun
    exact answerable request y wasLatest waits
  | failed z contract asked isFirst timedOut table =>
    simp only at isLatest
    obtain ⟨wasLatest, _⟩ := latest_mark isLatest waits fun _ => nofun
    have other : request ≠ z.request := by
      intro same
      rw [same] at wasLatest
      exact inOrder z y asked isFirst timedOut wasLatest waits
    rw [table, Function.update_of_ne other]
    exact answerable request y wasLatest waits
  | governed contract table =>
    rw [table]
    exact answerable request y isLatest waits

/-- If timeout callbacks run in order, the pending map leads to the latest submission as long as
    that waits, and a response that passes the checks resumes it. -/
theorem latest_submission_answerable {start s : Runtime} {es : List (Action × Note)}
    {request : SignatureRequest} {y : Yield} (unused : start.yields = [])
    (run : Run (Guarded CleansUpInOrder (Acts (act crypto))) start es s)
    (isLatest : latest s.yields (.signature request) = some y) (waits : y.status = .waiting) :
    s.contract.pendingSignatureRequests request = some y.dataId ∧
      ∀ env response, s.contract.checkResponse crypto env request response = .ok () →
        ∃ t, s.act crypto (.respond env request response) =
            some (t, .resumed (.signature request) y.dataId) ∧
          ⟨y.dataId, .signature request, .resumed (.signature response)⟩ ∈ t.yields := by
  have answerable : s.Answerable := by
    apply run.invariant (fun _ s => s.Answerable)
    · intro request y isLatest
      rw [unused] at isLatest
      cases isLatest
    · intro _ _ _ _ _ ih taken
      exact ih.step taken.1 taken.2
  have present := answerable _ y isLatest waits
  refine ⟨present, ?_⟩
  intro env response checked
  have itsRequest : y.request = .signature request := by simpa using find?_some isLatest
  have responds : s.contract.respond crypto env request response = .ok (y.dataId,
      { s.contract with
        pendingSignatureRequests :=
          Function.update s.contract.pendingSignatureRequests request none }) := by
    simp only [MpcContract.respond, bind_ok_iff, found_eq_ok, pure_ok_iff]
    exact ⟨(), checked, y.dataId, present, rfl⟩
  refine ⟨_, by rw [act, responds]; rfl, ?_⟩
  have inside := mem_of_find?_eq_some isLatest
  apply mem_map.mpr
  exact ⟨y, inside, by simp [itsRequest, waits]⟩

theorem latest_submission_answerable_once :
    ∃ es s, Run (Guarded CleansUpInOrder (Acts (act recordedCrypto))) ⟨signingContract, []⟩ es s ∧
      latest s.yields (.signature userRequest) =
        some ⟨⟨[1]⟩, .signature userRequest, .waiting⟩ ∧
      s.contract.pendingSignatureRequests userRequest = some ⟨[1]⟩ := by
  obtain ⟨es, s, ran, inputs, isLatest⟩ := exists_run (act recordedCrypto) ⟨signingContract, []⟩
    [submit ⟨[1]⟩] (fun _ s => latest s.yields (.signature userRequest) =
      some ⟨⟨[1]⟩, .signature userRequest, .waiting⟩) (by decide +kernel)
  have run : Run (Guarded CleansUpInOrder (Acts (act recordedCrypto))) ⟨signingContract, []⟩ es s := by
    apply ran.guarded
    intro e inside _ y z call
    have made : e.1 ∈ es.map Prod.fst := mem_map_of_mem inside
    rw [inputs, mem_singleton, call] at made
    cases made
  exact ⟨es, s, run, isLatest, (latest_submission_answerable rfl run isLatest rfl).1⟩

/-- When the first of two equal submissions times out, the entry of the second is removed. -/
theorem older_timeout_drops_latest :
    ∃ es s, Run (Acts (act recordedCrypto)) ⟨signingContract, []⟩ es s ∧
      ((storedRequests es).map Prod.snd).Nodup ∧
      latest s.yields (.signature userRequest) =
        some ⟨⟨[2]⟩, .signature userRequest, .waiting⟩ ∧
      s.contract.pendingSignatureRequests userRequest = none := by
  obtain ⟨es, s, run, _, shown⟩ := exists_run (act recordedCrypto) ⟨signingContract, []⟩
    [submit ⟨[1]⟩, submit ⟨[2]⟩, .timeOut ⟨[1]⟩, .callback ⟨[1]⟩] (fun es s =>
      ((storedRequests es).map Prod.snd).Nodup ∧
      latest s.yields (.signature userRequest) =
        some ⟨⟨[2]⟩, .signature userRequest, .waiting⟩ ∧
      s.contract.pendingSignatureRequests userRequest = none) (by decide +kernel)
  exact ⟨es, s, run, shown⟩

end Runtime

end MpcNetwork.Contract
