import MpcNetwork.Contract.Governance
import MpcNetwork.Lib.Runs

/-! # The contract and its yielded promises

A request method yields a promise.  The promise is resumed by a response, or times out, and
its callback runs some time after that.  Calls to the contract come in between in any order.
-/

namespace MpcNetwork.Contract

open Fallible Runs

inductive Request where
  | signature (request : SignatureRequest)
  | ckd (request : CKDRequest)
  | foreignTx (request : VerifyForeignTransactionRequest)
  deriving DecidableEq

inductive Response where
  | signature (response : SignatureResponse)
  | ckd (response : CKDResponse)
  | foreignTx (response : VerifyForeignTransactionResponse)
  deriving DecidableEq

/-- A promise waits, is resumed or times out, and then its callback returns. -/
inductive YieldStatus where
  | waiting
  | resumed (response : Response)
  | timedOut
  | returned (result : Option Response)
  deriving DecidableEq

/-- What the callback of a promise is called with, once it can run. -/
def YieldStatus.delivered : YieldStatus → Option (Option Response)
  | resumed response => some (some response)
  | timedOut => some none
  | _ => none

/-- A yielded promise with the argument of its callback. -/
structure Yield where
  dataId : CryptoHash
  request : Request
  status : YieldStatus
  deriving DecidableEq

/-- The contract with the promises it has yielded, the latest first. -/
structure Runtime where
  contract : MpcContract
  yields : List Yield

namespace Runtime

inductive Action where
  | sign (env : Env) (args : SignRequestArgs) (dataId : CryptoHash)
  | requestAppPrivateKey (env : Env) (args : CKDRequestArgs) (dataId : CryptoHash)
  | verifyForeignTransaction (env : Env) (request : VerifyForeignTransactionRequest)
      (dataId : CryptoHash)
  | respond (env : Env) (request : SignatureRequest) (response : SignatureResponse)
  | respondCkd (env : Env) (request : CKDRequest) (response : CKDResponse)
  | respondVerifyForeignTx (env : Env) (request : VerifyForeignTransactionRequest)
      (response : VerifyForeignTransactionResponse)
  | timeOut (dataId : CryptoHash)
  | callback (dataId : CryptoHash)
  | govern (env : Env) (call : Call)

/-- What an action does with a data id: store it under a request, or resume its promise. -/
inductive Note where
  | stored (request : Request) (dataId : CryptoHash)
  | resumed (request : Request) (dataId : CryptoHash)
  | quiet
  deriving DecidableEq

/-- Change the status of the promise with the data id. -/
def mark (yields : List Yield) (dataId : CryptoHash) (change : YieldStatus → YieldStatus) :
    List Yield :=
  yields.map fun y => if y.dataId = dataId then ⟨y.dataId, y.request, change y.status⟩ else y

/-- Resuming a promise that no longer waits has no effect. -/
def resume (yields : List Yield) (dataId : CryptoHash) (response : Response) : List Yield :=
  mark yields dataId fun status => if status = .waiting then .resumed response else status

/-- Run the callback of a settled promise. A response of another kind fails the callback. -/
def runCallback (contract : MpcContract) (request : Request) :
    Option Response → Option Response × MpcContract
  | none =>
    match request with
    | .signature request => (none, (contract.returnSignatureAndCleanStateOnSuccess request none).2)
    | .ckd request => (none, (contract.returnCkAndCleanStateOnSuccess request none).2)
    | .foreignTx request =>
      (none, (contract.returnVerifyForeignTxAndCleanStateOnSuccess request none).2)
  | some response =>
    match request, response with
    | .signature request, .signature response =>
      let (result, contract) :=
        contract.returnSignatureAndCleanStateOnSuccess request (some response)
      (result.map .signature, contract)
    | .ckd request, .ckd response =>
      let (result, contract) := contract.returnCkAndCleanStateOnSuccess request (some response)
      (result.map .ckd, contract)
    | .foreignTx request, .foreignTx response =>
      let (result, contract) :=
        contract.returnVerifyForeignTxAndCleanStateOnSuccess request (some response)
      (result.map .foreignTx, contract)
    | _, _ => (none, contract)

variable (crypto : Crypto)

/-- One action.  A call that fails is rolled back and is no step. -/
def act (s : Runtime) : Action → Option (Runtime × Note)
  | .sign env args dataId => do
    let (yielded, contract) ← (s.contract.sign crypto env args dataId).toOption
    let request := .signature yielded.request
    pure (⟨contract, ⟨dataId, request, .waiting⟩ :: s.yields⟩, .stored request dataId)
  | .requestAppPrivateKey env args dataId => do
    let (yielded, contract) ← (s.contract.requestAppPrivateKey crypto env args dataId).toOption
    let request := .ckd yielded.request
    pure (⟨contract, ⟨dataId, request, .waiting⟩ :: s.yields⟩, .stored request dataId)
  | .verifyForeignTransaction env request dataId => do
    let (yielded, contract) ← (s.contract.verifyForeignTransaction env request dataId).toOption
    let request := .foreignTx yielded.request
    pure (⟨contract, ⟨dataId, request, .waiting⟩ :: s.yields⟩, .stored request dataId)
  | .respond env request response => do
    let (dataId, contract) ← (s.contract.respond crypto env request response).toOption
    pure (⟨contract, resume s.yields dataId (.signature response)⟩,
      .resumed (.signature request) dataId)
  | .respondCkd env request response => do
    let (dataId, contract) ← (s.contract.respondCkd env request response).toOption
    pure (⟨contract, resume s.yields dataId (.ckd response)⟩, .resumed (.ckd request) dataId)
  | .respondVerifyForeignTx env request response => do
    let (dataId, contract) ← (s.contract.respondVerifyForeignTx crypto env request response).toOption
    pure (⟨contract, resume s.yields dataId (.foreignTx response)⟩,
      .resumed (.foreignTx request) dataId)
  | .timeOut dataId => do
    let y ← s.yields.find? fun y => y.dataId = dataId
    guard (y.status = .waiting)
    pure (⟨s.contract, mark s.yields dataId fun _ => .timedOut⟩, .quiet)
  | .callback dataId => do
    let y ← s.yields.find? fun y => y.dataId = dataId
    let delivered ← y.status.delivered
    let (result, contract) := runCallback s.contract y.request delivered
    pure (⟨contract, mark s.yields dataId fun _ => .returned result⟩, .quiet)
  | .govern env call => do
    let (_, contract) ← (perform env s.contract call).toOption
    pure (⟨contract, s.yields⟩, .quiet)

end Runtime

/-- The three maps of pending requests as one table. -/
def MpcContract.pending (self : MpcContract) : Request → Option CryptoHash
  | .signature request => self.pendingSignatureRequests request
  | .ckd request => self.pendingCkdRequests request
  | .foreignTx request => self.pendingVerifyForeignTxRequests request

namespace MpcContract

variable (self : MpcContract) (dataId : Option CryptoHash)

theorem pending_updateSignature (request : SignatureRequest) :
    pending { self with
        pendingSignatureRequests := Function.update self.pendingSignatureRequests request dataId } =
        Function.update self.pending (.signature request) dataId := by
  funext other
  cases other <;> simp [pending, Function.update_apply]

theorem pending_updateCkd (request : CKDRequest) :
    pending { self with
        pendingCkdRequests := Function.update self.pendingCkdRequests request dataId } =
        Function.update self.pending (.ckd request) dataId := by
  funext other
  cases other <;> simp [pending, Function.update_apply]

theorem pending_updateForeignTx (request : VerifyForeignTransactionRequest) :
    pending { self with
        pendingVerifyForeignTxRequests := Function.update self.pendingVerifyForeignTxRequests request dataId } =
        Function.update self.pending (.foreignTx request) dataId := by
  funext other
  cases other <;> simp [pending, Function.update_apply]

end MpcContract

namespace Runtime

/-- An action stores, resumes, times out, runs a callback or leaves the requests alone. -/
inductive Changes (s : Runtime) (action : Action) : Note → Runtime → Prop where
  | stored (request : Request) (dataId : CryptoHash) (contract : MpcContract)
      (table : contract.pending = Function.update s.contract.pending request (some dataId)) :
      Changes s action (.stored request dataId)
        ⟨contract, ⟨dataId, request, .waiting⟩ :: s.yields⟩
  | resumed (request : Request) (dataId : CryptoHash) (response : Response)
      (contract : MpcContract) (present : s.contract.pending request = some dataId)
      (table : contract.pending = Function.update s.contract.pending request none) :
      Changes s action (.resumed request dataId) ⟨contract, resume s.yields dataId response⟩
  | timedOut (dataId : CryptoHash) :
      Changes s action .quiet ⟨s.contract, mark s.yields dataId fun _ => .timedOut⟩
  | returned (dataId : CryptoHash) (result : Option Response) :
      Changes s action .quiet ⟨s.contract, mark s.yields dataId fun _ => .returned result⟩
  | failed (y : Yield) (contract : MpcContract) (asked : action = .callback y.dataId)
      (isFirst : s.yields.find? (fun other => other.dataId = y.dataId) = some y)
      (timedOut : y.status = .timedOut)
      (table : contract.pending = Function.update s.contract.pending y.request none) :
      Changes s action .quiet ⟨contract, mark s.yields y.dataId fun _ => .returned none⟩
  | governed (contract : MpcContract) (table : contract.pending = s.contract.pending) :
      Changes s action .quiet ⟨contract, s.yields⟩

variable {crypto}

theorem runCallback_some (contract : MpcContract) (request : Request) (response : Response) :
    (runCallback contract request (some response)).2 = contract := by
  cases request <;> cases response <;> rfl

theorem runCallback_none (contract : MpcContract) (request : Request) :
    (runCallback contract request none).1 = none ∧
      (runCallback contract request none).2.pending =
        Function.update contract.pending request none := by
  cases request with
  | signature request => exact ⟨rfl, contract.pending_updateSignature none request⟩
  | ckd request => exact ⟨rfl, contract.pending_updateCkd none request⟩
  | foreignTx request => exact ⟨rfl, contract.pending_updateForeignTx none request⟩

theorem act_changes {s : Runtime} (done : s.act crypto action = some (t, note)) :
    s.Changes action note t := by
  cases action with
  | sign env args dataId =>
    simp only [act, bind_some_iff, toOption_eq_some] at done
    obtain ⟨⟨yielded, contract⟩, signed, rest⟩ := done
    simp only [MpcContract.sign, bind_ok_iff, pure_ok_iff, Prod.mk.injEq] at signed
    obtain ⟨_, _, _, _, _, _, _, _, _, _, rfl, rfl⟩ := signed
    cases rest
    exact .stored _ _ _ (s.contract.pending_updateSignature _ _)
  | requestAppPrivateKey env args dataId =>
    simp only [act, bind_some_iff, toOption_eq_some] at done
    obtain ⟨⟨yielded, contract⟩, requested, rest⟩ := done
    simp only [MpcContract.requestAppPrivateKey, bind_ok_iff, pure_ok_iff,
      Prod.mk.injEq] at requested
    obtain ⟨_, _, _, _, _, _, rfl, rfl⟩ := requested
    cases rest
    exact .stored _ _ _ (s.contract.pending_updateCkd _ _)
  | verifyForeignTransaction env request dataId =>
    simp only [act, bind_some_iff, toOption_eq_some] at done
    obtain ⟨⟨yielded, contract⟩, requested, rest⟩ := done
    simp only [MpcContract.verifyForeignTransaction, bind_ok_iff, pure_ok_iff,
      Prod.mk.injEq] at requested
    obtain ⟨_, _, _, _, _, _, _, _, rfl, rfl⟩ := requested
    cases rest
    exact .stored _ _ _ (s.contract.pending_updateForeignTx _ _)
  | respond env request response =>
    simp only [act, bind_some_iff, toOption_eq_some] at done
    obtain ⟨⟨dataId, contract⟩, responded, rest⟩ := done
    simp only [MpcContract.respond, bind_ok_iff, found_eq_ok, pure_ok_iff,
      Prod.mk.injEq] at responded
    obtain ⟨_, _, _, present, rfl, rfl⟩ := responded
    cases rest
    exact .resumed _ _ _ _ present (s.contract.pending_updateSignature _ _)
  | respondCkd env request response =>
    simp only [act, bind_some_iff, toOption_eq_some] at done
    obtain ⟨⟨dataId, contract⟩, responded, rest⟩ := done
    simp only [MpcContract.respondCkd, bind_ok_iff, found_eq_ok, pure_ok_iff,
      Prod.mk.injEq] at responded
    obtain ⟨_, _, _, _, _, _, _, present, rfl, rfl⟩ := responded
    cases rest
    exact .resumed _ _ _ _ present (s.contract.pending_updateCkd _ _)
  | respondVerifyForeignTx env request response =>
    simp only [act, bind_some_iff, toOption_eq_some] at done
    obtain ⟨⟨dataId, contract⟩, responded, rest⟩ := done
    simp only [MpcContract.respondVerifyForeignTx, bind_ok_iff, found_eq_ok, pure_ok_iff,
      Prod.mk.injEq] at responded
    obtain ⟨_, _, _, _, _, _, _, _, _, _, _, _, _, present, rfl, rfl⟩ := responded
    cases rest
    exact .resumed _ _ _ _ present (s.contract.pending_updateForeignTx _ _)
  | timeOut dataId =>
    simp only [act, bind_some_iff] at done
    obtain ⟨_, _, _, _, rest⟩ := done
    cases rest
    exact .timedOut dataId
  | callback dataId =>
    simp only [act, bind_some_iff] at done
    obtain ⟨y, isFirst, delivered, ready, rest⟩ := done
    cases rest
    have itsId : y.dataId = dataId := by simpa using List.find?_some isFirst
    subst itsId
    cases delivered with
    | some response =>
      rw [runCallback_some]
      exact .returned _ _
    | none =>
      obtain ⟨fails, table⟩ := runCallback_none s.contract y.request
      rw [fails]
      have timedOut : y.status = .timedOut := by
        revert ready
        cases y.status <;> simp [YieldStatus.delivered]
      exact .failed y _ rfl isFirst timedOut table
  | govern env call =>
    simp only [act, bind_some_iff, toOption_eq_some] at done
    obtain ⟨⟨next, contract⟩, performed, rest⟩ := done
    cases rest
    obtain ⟨state, accepts, rfl⟩ := perform_frame performed
    exact .governed _ (by funext request; cases request <;> rfl)

end Runtime

end MpcNetwork.Contract
