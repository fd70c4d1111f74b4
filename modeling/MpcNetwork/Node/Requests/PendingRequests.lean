import Mathlib.Data.List.Sort
import MpcNetwork.Lib.Runs
import MpcNetwork.Node.Requests.RecentBlocksTracker

/-! # The queue of pending requests

Requests enter the queue with the block that contains them, and leave it when a final block
answers them or when their block can no longer matter.  In between the queue hands out
attempts, as long as this node leads the request.  Arithmetic that would overflow, and every
other panic, gives `none`.  Times are in nanoseconds.
-/

namespace MpcNetwork.Node

open BigEndian

abbrev RequestId := CryptoHash

abbrev Instant := Nat

class Request (R : Type) where
  getId : R → RequestId

structure NetworkAPIForRequests where
  aliveParticipants : List ParticipantId
  indexerHeights : Table ParticipantId Nat

def checkEachRequestInterval : Nat := 1000000000
def staleParticipantThreshold : Nat := 10
def requestExpirationBlocks : Nat := 200
def maxLatencyBeforeExpectingTransactionToFinalize : Nat := 10000000000
def maxAttemptsPerRequestAsLeader : Nat := 10

/-- Block data to be buffered until the block is final. -/
structure BufferedBlockData where
  requests : List RequestId
  completedRequests : List RequestId
  deriving Repr, DecidableEq

structure ComputationProgress (A : Type) where
  attempts : Nat
  computedResponse : Option A
  selectedLeader : Option ParticipantId
  lastResponseSubmission : Option Instant
  deriving Repr, DecidableEq

def ComputationProgress.default {A : Type} : ComputationProgress A := ⟨0, none, none, none⟩

/-- The allocation of a progress record, and which of its attempts this one is. -/
structure AttemptRef where
  progress : Nat
  number : Nat
  deriving Repr, DecidableEq

structure GenerationAttempt (R : Type) where
  request : R
  ref : AttemptRef
  deriving Repr, DecidableEq

structure QueuedRequest (R A : Type) where
  request : R
  /-- The block the request was received in. -/
  blockHash : CryptoHash
  blockHeight : Nat
  leaderSelectionOrder : List ParticipantId
  nextCheckDue : Instant
  /-- The record behind the shared pointer, and which allocation it is. -/
  computationProgress : ComputationProgress A
  progress : Nat
  /-- What the weak pointer to the current attempt points at. -/
  activeAttempt : Option AttemptRef
  deriving Repr, DecidableEq

variable {R A : Type} (sha256 : List UInt8 → List UInt8)

def leaderSelectionHash (participantId : ParticipantId) (requestId : RequestId) : Nat :=
  let hash := sha256 ((toBeBytes 4 participantId.raw.toNat).reverse ++ requestId.bytes)
  ofBeBytes (hash.take 8).reverse

/-- A different pseudorandom order for each request. -/
def leaderSelectionOrder (participants : List ParticipantId) (requestId : RequestId) :
    List ParticipantId :=
  let leaderSelectionHashes := participants.map fun p => (leaderSelectionHash sha256 p requestId, p)
  (leaderSelectionHashes.insertionSort fun a b =>
    a.1 < b.1 ∨ a.1 = b.1 ∧ a.2.raw ≤ b.2.raw).map Prod.snd

namespace QueuedRequest

def new [Request R] (now : Instant) (request : R) (blockHash : CryptoHash) (blockHeight : Nat)
    (allParticipants : List ParticipantId) (progress : Nat) : QueuedRequest R A where
  request
  blockHash
  blockHeight
  leaderSelectionOrder := Node.leaderSelectionOrder sha256 allParticipants (Request.getId request)
  nextCheckDue := now
  computationProgress := .default
  progress
  activeAttempt := none

variable (self : QueuedRequest R A)

/-- The first participant in the order that is eligible. -/
def currentLeader (eligibleLeaders : List ParticipantId) : Option ParticipantId :=
  self.leaderSelectionOrder.find? fun candidateLeader => candidateLeader ∈ eligibleLeaders

end QueuedRequest

structure PendingRequests (R A : Type) where
  allParticipants : List ParticipantId
  myParticipantId : ParticipantId
  requests : Table RequestId (QueuedRequest R A)
  recentBlocks : RecentBlocksTracker BufferedBlockData
  /-- The number of progress records allocated so far. -/
  allocated : Nat

namespace PendingRequests

def new (allParticipants : List ParticipantId) (myParticipantId : ParticipantId) :
    PendingRequests R A where
  allParticipants
  myParticipantId
  requests := ∅
  recentBlocks := .new requestExpirationBlocks
  allocated := 0

/-- Remove a completed request.  Its latency in blocks must not be negative. -/
def removeCompleted (finalBlockHeight : Nat) (requests : Table RequestId (QueuedRequest R A))
    (requestId : RequestId) : Option (Table RequestId (QueuedRequest R A)) :=
  match requests.lookup requestId with
  | none => some requests
  | some request =>
    if finalBlockHeight < request.blockHeight then none else some (requests.erase requestId)

def removeAllCompleted (requests : Table RequestId (QueuedRequest R A))
    (newFinalBlocks : List (Nat × BufferedBlockData)) :
    Option (Table RequestId (QueuedRequest R A)) :=
  newFinalBlocks.foldlM (fun requests block =>
    block.2.completedRequests.foldlM (removeCompleted block.1) requests) requests

/-- `entry(request.get_id()).or_insert(QueuedRequest::new(..))`. -/
def orInsert [Request R] (now : Instant) (block : BlockViewLite) (self : PendingRequests R A)
    (request : R) : PendingRequests R A :=
  let queued := QueuedRequest.new sha256 now request block.hash block.height self.allParticipants
    self.allocated
  let requests := match self.requests.lookup (Request.getId request) with
    | some _ => self.requests
    | none => self.requests.insert (Request.getId request) queued
  { self with requests, allocated := self.allocated + 1 }

variable (self : PendingRequests R A)

/-- Gives the final blocks that were reported, or `none` when the block is ignored. -/
def notifyNewBlock [Request R] (now : Instant) (requests : List R)
    (completedRequests : List RequestId) (block : BlockViewLite) :
    Option (PendingRequests R A × Option (List (Nat × BufferedBlockData))) := do
  let data := ⟨requests.map Request.getId, completedRequests⟩
  match ← self.recentBlocks.addBlock block data with
  | .error _ => some (self, none)
  | .ok (recentBlocks, newFinalBlocks) =>
    let remaining ← removeAllCompleted self.requests newFinalBlocks
    let cleaned := { self with recentBlocks, requests := remaining }
    some (requests.foldl (orInsert sha256 now block) cleaned, some newFinalBlocks)

/-- The participants that may lead, and the greatest height of a live indexer. -/
def eligibleLeadersAndMaximumHeight (network : NetworkAPIForRequests) :
    Option (List ParticipantId × Nat) := do
  let height p := (network.indexerHeights.lookup p).getD 0
  let maximumHeight := (network.aliveParticipants.map height).max?.getD 0
  let eligibleLeaders ← self.allParticipants.filterM fun p =>
    if p ∈ network.aliveParticipants then
      if height p + staleParticipantThreshold < UInt64.size then
        some (decide (height p + staleParticipantThreshold ≥ maximumHeight))
      else none
    else some false
  some (eligibleLeaders, maximumHeight)

inductive Verdict (R A : Type) where
  | keep (request : QueuedRequest R A)
  | attempt (request : QueuedRequest R A)
  | discard

/-- Our turn: the attempts are counted, and the last response must have had time to arrive. -/
def attemptAsLeader (now : Instant) (request : QueuedRequest R A) : Verdict R A :=
  let progress := request.computationProgress
  if progress.attempts ≥ maxAttemptsPerRequestAsLeader then .discard
  else if progress.lastResponseSubmission.any
      (now < · + maxLatencyBeforeExpectingTransactionToFinalize) then .keep request
  else .attempt { request with
    computationProgress := { progress with attempts := progress.attempts + 1 }
    activeAttempt := some ⟨request.progress, progress.attempts + 1⟩ }

/-- The request may be answered, by whoever leads it. -/
def consider (now : Instant) (eligibleLeaders : List ParticipantId) (request : QueuedRequest R A) :
    Verdict R A :=
  match request.currentLeader eligibleLeaders with
  | none => .keep request
  | some leader =>
    let request := { request with
      computationProgress := { request.computationProgress with selectedLeader := some leader } }
    if leader = self.myParticipantId then attemptAsLeader now request else .keep request

/-- One round of the loop of `getRequestsToAttempt`; `held` are the attempts not yet dropped. -/
def check (now : Instant) (held : List AttemptRef) (eligibleLeaders : List ParticipantId)
    (request : QueuedRequest R A) : Verdict R A :=
  if request.nextCheckDue > now then .keep request
  else
    let request := { request with nextCheckDue := now + checkEachRequestInterval }
    if request.activeAttempt.any (· ∈ held) then .keep request
    else match self.recentBlocks.classifyBlock request.blockHash request.blockHeight with
      | .recentAndFinal | .optimisticAndCanonical | .unknown =>
        self.consider now eligibleLeaders request
      | .optimisticButNotCanonical => .keep request
      | .notIncluded | .olderThanRecentWindow => .discard

def Verdict.kept : Verdict R A → Option (QueuedRequest R A)
  | .keep request | .attempt request => some request
  | .discard => none

def Verdict.attempted : Verdict R A → Option (GenerationAttempt R)
  | .attempt request => request.activeAttempt.map fun ref => ⟨request.request, ref⟩
  | .keep _ | .discard => none

def getRequestsToAttempt (now : Instant) (network : NetworkAPIForRequests)
    (held : List AttemptRef) : Option (PendingRequests R A × List (GenerationAttempt R)) := do
  let (eligibleLeaders, maximumHeight) ← self.eligibleLeadersAndMaximumHeight network
  let recentBlocks ← self.recentBlocks.notifyMaximumHeightAvailable maximumHeight
  let self := { self with recentBlocks }
  let verdict := self.check now held eligibleLeaders
  some ({ self with requests := self.requests.revise fun _ request => (verdict request).kept },
    self.requests.entries.filterMap fun entry => (verdict entry.2).attempted)

end PendingRequests

/-! ## The queue in its node

The tasks that work on attempts hold them, write to their progress and drop them. -/

structure RequestQueue (R A : Type) where
  pending : PendingRequests R A
  held : List AttemptRef

namespace RequestQueue

inductive Action (R A : Type) where
  | notifyNewBlock (now : Instant) (requests : List R) (completedRequests : List RequestId)
      (block : BlockViewLite)
  | getRequestsToAttempt (now : Instant) (network : NetworkAPIForRequests)
  | computed (ref : AttemptRef) (response : A)
  | submitted (ref : AttemptRef) (now : Instant)
  | dropped (ref : AttemptRef)

inductive Note (R : Type) where
  | added (newFinalBlocks : List (Nat × BufferedBlockData))
  | attempts (handed : List (GenerationAttempt R))
  | quiet
  deriving Repr, DecidableEq

/-- Write to a progress record; a request that left the queue took its record along. -/
def writeProgress (self : RequestQueue R A) (ref : AttemptRef)
    (write : ComputationProgress A → ComputationProgress A) : RequestQueue R A :=
  { self with
    pending := { self.pending with
      requests := self.pending.requests.revise fun _ request =>
        if request.progress = ref.progress then
          some { request with computationProgress := write request.computationProgress }
        else some request } }

def act [Request R] (self : RequestQueue R A) : Action R A → Option (RequestQueue R A × Note R)
  | .notifyNewBlock now requests completedRequests block => do
    let (pending, reported) ←
      self.pending.notifyNewBlock sha256 now requests completedRequests block
    some ({ self with pending }, reported.elim .quiet .added)
  | .getRequestsToAttempt now network => do
    let (pending, handed) ← self.pending.getRequestsToAttempt now network self.held
    some (⟨pending, handed.map GenerationAttempt.ref ++ self.held⟩, .attempts handed)
  | .computed ref response => do
    guard (ref ∈ self.held)
    some (self.writeProgress ref fun progress =>
      { progress with computedResponse := some response }, .quiet)
  | .submitted ref now => do
    guard (ref ∈ self.held)
    some (self.writeProgress ref fun progress =>
      { progress with lastResponseSubmission := some now }, .quiet)
  | .dropped ref =>
    some ({ self with held := self.held.filter (· ≠ ref) }, .quiet)

end RequestQueue

end MpcNetwork.Node
