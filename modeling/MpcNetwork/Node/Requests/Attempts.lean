import MpcNetwork.Lib.Fallible
import MpcNetwork.Node.Requests.Retention

/-! # Attempts are bounded

A queue entry is known by its progress record.  The history tells how many attempts an entry has
had and when its last response was submitted; the entry itself keeps the same two numbers and a
weak pointer to its attempt.  As both agree in every run, an entry never has two attempts at a
time, nor more than the maximum, nor one too soon after a submission.
-/

namespace MpcNetwork.Node

open Fallible Runs Table List

variable {R A : Type} {sha256 : List UInt8 → List UInt8}

inductive CheckBlockResult.Promising : CheckBlockResult → Prop where
  | final : Promising .recentAndFinal
  | canonical : Promising .optimisticAndCanonical
  | unknown : Promising .unknown

namespace QueuedRequest

structure Slot where
  progress : Nat
  activeAttempt : Option AttemptRef
  attempts : Nat
  lastResponseSubmission : Option Instant

def slot (self : QueuedRequest R A) : Slot where
  progress := self.progress
  activeAttempt := self.activeAttempt
  attempts := self.computationProgress.attempts
  lastResponseSubmission := self.computationProgress.lastResponseSubmission

def Slot.started (slot : Slot) : Slot :=
  { slot with
    activeAttempt := some ⟨slot.progress, slot.attempts + 1⟩
    attempts := slot.attempts + 1 }

/-- Neither the request nor the order of its leaders ever changes. -/
structure SameRequest (queued queued' : QueuedRequest R A) : Prop where
  request : queued'.request = queued.request
  leaderSelectionOrder : queued'.leaderSelectionOrder = queued.leaderSelectionOrder

end QueuedRequest

namespace PendingRequests

/-- What has to hold of an entry for an attempt to be started. -/
structure Starts (pending : PendingRequests R A) (now : Instant) (held : List AttemptRef)
    (eligibleLeaders : List ParticipantId) (queued : QueuedRequest R A) : Prop where
  inactive : ∀ ref ∈ queued.activeAttempt, ref ∉ held
  promising : (pending.recentBlocks.classifyBlock queued.blockHash queued.blockHeight).Promising
  leads : queued.currentLeader eligibleLeaders = some pending.myParticipantId
  few : queued.slot.attempts < maxAttemptsPerRequestAsLeader
  settled : ∀ submission ∈ queued.slot.lastResponseSubmission,
    submission + maxLatencyBeforeExpectingTransactionToFinalize ≤ now

inductive Outcome (pending : PendingRequests R A) (now : Instant) (held : List AttemptRef)
    (eligibleLeaders : List ParticipantId) (queued : QueuedRequest R A) : Verdict R A → Prop where
  | keep (queued' : QueuedRequest R A) (same : queued.SameRequest queued')
      (sameSlot : queued'.slot = queued.slot) :
      Outcome pending now held eligibleLeaders queued (.keep queued')
  | attempt (queued' : QueuedRequest R A) (same : queued.SameRequest queued')
      (started : queued'.slot = queued.slot.started)
      (starts : pending.Starts now held eligibleLeaders queued) :
      Outcome pending now held eligibleLeaders queued (.attempt queued')
  | discard : Outcome pending now held eligibleLeaders queued .discard

variable {pending : PendingRequests R A} {now : Instant} {held : List AttemptRef}
  {eligibleLeaders : List ParticipantId} {queued : QueuedRequest R A}

private theorem over_of_not_any {last : Option Instant}
    (settled : ¬ last.any (now < · + interval) = true) : ∀ t ∈ last, t + interval ≤ now := by
  intro t isLast
  cases isLast
  simpa using settled

theorem attemptAsLeader_outcome
    (inactive : ∀ ref ∈ queued.activeAttempt, ref ∉ held)
    (promising :
      (pending.recentBlocks.classifyBlock queued.blockHash queued.blockHeight).Promising)
    (leads : queued.currentLeader eligibleLeaders = some pending.myParticipantId) :
    Outcome pending now held eligibleLeaders queued (attemptAsLeader now queued) := by
  simp only [attemptAsLeader]
  split
  · exact .discard
  · rename_i few
    split
    · exact .keep _ ⟨rfl, rfl⟩ rfl
    · rename_i settled
      exact .attempt _ ⟨rfl, rfl⟩ rfl
        ⟨inactive, promising, leads, Nat.lt_of_not_le few, over_of_not_any settled⟩

theorem Outcome.of_same (outcome : Outcome pending now held eligibleLeaders other verdict)
    (same : queued.SameRequest other) (sameSlot : other.slot = queued.slot)
    (sameHash : other.blockHash = queued.blockHash)
    (sameHeight : other.blockHeight = queued.blockHeight) :
    Outcome pending now held eligibleLeaders queued verdict := by
  cases outcome with
  | keep queued' kept keptSlot =>
    exact .keep queued' ⟨kept.request.trans same.request,
      kept.leaderSelectionOrder.trans same.leaderSelectionOrder⟩ (keptSlot.trans sameSlot)
  | attempt queued' kept started starts =>
    refine .attempt queued' ⟨kept.request.trans same.request,
      kept.leaderSelectionOrder.trans same.leaderSelectionOrder⟩ (sameSlot ▸ started) ?_
    obtain ⟨inactive, promising, leads, few, settled⟩ := starts
    have sameActive : other.activeAttempt = queued.activeAttempt :=
      congrArg QueuedRequest.Slot.activeAttempt sameSlot
    rw [sameHash, sameHeight] at promising
    rw [sameSlot] at few settled
    rw [QueuedRequest.currentLeader, same.leaderSelectionOrder] at leads
    exact ⟨sameActive ▸ inactive, promising, leads, few, settled⟩
  | discard => exact .discard

theorem consider_outcome
    (inactive : ∀ ref ∈ queued.activeAttempt, ref ∉ held)
    (promising :
      (pending.recentBlocks.classifyBlock queued.blockHash queued.blockHeight).Promising) :
    Outcome pending now held eligibleLeaders queued
      (pending.consider now eligibleLeaders queued) := by
  simp only [consider]
  split
  · exact .keep _ ⟨rfl, rfl⟩ rfl
  · rename_i leader leads
    split
    · rename_i isMe
      refine Outcome.of_same (attemptAsLeader_outcome ?_ ?_ ?_) ⟨rfl, rfl⟩ rfl rfl rfl
      · exact inactive
      · exact promising
      · exact isMe ▸ leads
    · exact .keep _ ⟨rfl, rfl⟩ rfl

theorem check_outcome (pending : PendingRequests R A) (now : Instant) (held : List AttemptRef)
    (eligibleLeaders : List ParticipantId) (queued : QueuedRequest R A) :
    Outcome pending now held eligibleLeaders queued
      (pending.check now held eligibleLeaders queued) := by
  simp only [check]
  split
  · exact .keep _ ⟨rfl, rfl⟩ rfl
  split
  · exact .keep _ ⟨rfl, rfl⟩ rfl
  rename_i inactive
  have free : ∀ ref ∈ queued.activeAttempt, ref ∉ held := by
    intro ref isActive isHeld
    have isActive : queued.activeAttempt = some ref := isActive
    simp [isActive, isHeld] at inactive
  split
  · rename_i isFinal
    refine Outcome.of_same (consider_outcome ?_ ?_) ⟨rfl, rfl⟩ rfl rfl rfl
    · exact free
    · simp only [isFinal, CheckBlockResult.Promising.final]
  · rename_i isCanonical
    refine Outcome.of_same (consider_outcome ?_ ?_) ⟨rfl, rfl⟩ rfl rfl rfl
    · exact free
    · simp only [isCanonical, CheckBlockResult.Promising.canonical]
  · rename_i isUnknown
    refine Outcome.of_same (consider_outcome ?_ ?_) ⟨rfl, rfl⟩ rfl rfl rfl
    · exact free
    · simp only [isUnknown, CheckBlockResult.Promising.unknown]
  · exact .keep _ ⟨rfl, rfl⟩ rfl
  · exact .discard
  · exact .discard

theorem Outcome.attempted {attempt : GenerationAttempt R}
    (outcome : Outcome pending now held eligibleLeaders queued verdict)
    (attempted : verdict.attempted = some attempt) :
    pending.Starts now held eligibleLeaders queued ∧
      attempt = ⟨queued.request, ⟨queued.progress, queued.slot.attempts + 1⟩⟩ := by
  cases outcome with
  | keep => cases attempted
  | attempt queued' same started starts =>
    have active : queued'.activeAttempt = some ⟨queued.progress, queued.slot.attempts + 1⟩ :=
      congrArg QueuedRequest.Slot.activeAttempt started
    simp only [Verdict.attempted, active, Option.map_some, Option.some.injEq] at attempted
    exact ⟨starts, by rw [← attempted, same.request]⟩
  | discard => cases attempted

end PendingRequests

namespace NetworkAPIForRequests

def height (self : NetworkAPIForRequests) (p : ParticipantId) : Nat :=
  (self.indexerHeights.lookup p).getD 0

/-- The participant is alive and its indexer is not far behind. -/
def Eligible (self : NetworkAPIForRequests) (p : ParticipantId) : Prop :=
  p ∈ self.aliveParticipants ∧
    (self.aliveParticipants.map self.height).max?.getD 0 ≤
      self.height p + staleParticipantThreshold

end NetworkAPIForRequests

variable {pending : PendingRequests R A} {eligibleLeaders : List ParticipantId}
  {network : NetworkAPIForRequests}

theorem PendingRequests.eligible_iff (done : pending.eligibleLeadersAndMaximumHeight network =
      some (eligibleLeaders, maximumHeight)) :
    p ∈ eligibleLeaders ↔ p ∈ pending.allParticipants ∧ network.Eligible p := by
  simp only [eligibleLeadersAndMaximumHeight, bind_some_iff,
    Option.some.injEq, Prod.mk.injEq, Fallible.filterM_eq_some_iff] at done
  obtain ⟨_, ⟨answers, rfl⟩, rfl, _⟩ := done
  simp only [mem_filter, decide_eq_true_eq]
  refine and_congr_right fun isParticipant => ?_
  have tested := answers p isParticipant
  unfold NetworkAPIForRequests.Eligible
  split
  · rename_i alive
    split
    · simp only [Option.some.injEq, decide_eq_true_eq, alive, true_and]
      rfl
    · rename_i overflow
      simp [alive, overflow] at tested
  · rename_i dead
    simp [dead]

/-- Staleness can be judged if no live height is close to the end of the range. -/
theorem PendingRequests.eligible_total (pending : PendingRequests R A)
    (inRange : ∀ p ∈ network.aliveParticipants,
      network.height p + staleParticipantThreshold < UInt64.size) :
    ∃ eligibleLeaders maximumHeight, pending.eligibleLeadersAndMaximumHeight network =
      some (eligibleLeaders, maximumHeight) := by
  simp only [eligibleLeadersAndMaximumHeight, bind_some_iff,
    Fallible.filterM_eq_some_iff]
  refine ⟨_, _, _, ⟨?_, rfl⟩, rfl⟩
  intro p _
  split
  · rename_i isAlive
    have low : (network.indexerHeights.lookup p).getD 0 + staleParticipantThreshold < UInt64.size :=
      inRange p isAlive
    simp [low]
  · simp

theorem mem_leaderSelectionOrder :
    p ∈ leaderSelectionOrder sha256 participants requestId ↔ p ∈ participants := by
  simp [leaderSelectionOrder, mem_insertionSort]

/-- This node is the first of the participants in the order of the request that is eligible. -/
structure LeadsNow (sha256 : List UInt8 → List UInt8) (participants : List ParticipantId)
    (network : NetworkAPIForRequests) (me : ParticipantId) (requestId : RequestId) : Prop where
  eligible : network.Eligible me
  first : ∃ front back, leaderSelectionOrder sha256 participants requestId = front ++ me :: back ∧
    ∀ p ∈ front, ¬ network.Eligible p

theorem leadsNow_of_currentLeader {queued : QueuedRequest R A}
    (eligible : pending.eligibleLeadersAndMaximumHeight network =
      some (eligibleLeaders, maximumHeight)) (ordered : queued.leaderSelectionOrder =
      leaderSelectionOrder sha256 pending.allParticipants requestId)
    (leads : queued.currentLeader eligibleLeaders = some me) :
    LeadsNow sha256 pending.allParticipants network me requestId := by
  obtain ⟨isEligible, front, back, split, earlier⟩ := find?_eq_some_iff_append.mp leads
  rw [ordered] at split
  refine ⟨((PendingRequests.eligible_iff eligible).mp (of_decide_eq_true isEligible)).2, front, back, split, ?_⟩
  intro p isEarlier pEligible
  have isParticipant : p ∈ pending.allParticipants := by
    rw [← mem_leaderSelectionOrder, split]
    exact mem_append_left _ isEarlier
  have refused := earlier p isEarlier
  simp [(PendingRequests.eligible_iff eligible).mpr ⟨isParticipant, pEligible⟩] at refused

theorem recent_of_promising {tracker : RecentBlocksTracker BufferedBlockData}
    (promising : (tracker.classifyBlock blockHash blockHeight).Promising) :
    tracker.windowStart ≤ blockHeight := by
  unfold RecentBlocksTracker.classifyBlock at promising
  split at promising
  · cases promising
  · rename_i recent
    exact Nat.le_of_not_lt recent

namespace RequestQueue

open PendingRequests

theorem handedOut_append (es fs : List (Action R A × Note R)) :
    handedOut (es ++ fs) = handedOut es ++ handedOut fs := by
  simp [handedOut]

/-- The number of attempts that were started at the entry with the given progress record. -/
def attemptsAt (progress : Nat) (es : List (Action R A × Note R)) : Nat :=
  ((handedOut es).map fun attempt => attempt.ref.progress).count progress

/-- When an action records a submission in the given progress record. -/
def submissionTo (progress : Nat) (e : Action R A × Note R) : Option Instant :=
  match e.1 with
  | .submitted ref now => if ref.progress = progress then some now else none
  | _ => none

def lastSubmission (progress : Nat) (es : List (Action R A × Note R)) : Option Instant :=
  latest (submissionTo progress) es

/-- What the history tells about each progress record. -/
structure Ledger where
  attempts : Nat → Nat
  submission : Nat → Option Instant

namespace Ledger

def of (es : List (Action R A × Note R)) : Ledger :=
  ⟨fun progress => attemptsAt progress es, fun progress => lastSubmission progress es⟩

def start (ledger : Ledger) (started : List Nat) : Ledger :=
  { ledger with attempts := fun progress => ledger.attempts progress + started.count progress }

def submit (ledger : Ledger) (written : Nat) (now : Instant) : Ledger :=
  { ledger with submission := fun progress =>
      if written = progress then some now else ledger.submission progress }

variable {es : List (Action R A × Note R)}

theorem of_quiet (other : ∀ ref now, action ≠ .submitted ref now) (note : Note R)
    (hands : ∀ handed, note ≠ .attempts handed) : of (es ++ [(action, note)]) = of es := by
  have silent : ∀ progress, submissionTo progress (action, note) = none := by
    intro progress
    unfold submissionTo
    split
    · rename_i ref now isSubmitted
      exact absurd isSubmitted (other ref now)
    · rfl
  have nothing : handedOut [(action, note)] = [] := by
    cases note with
    | attempts handed => exact absurd rfl (hands handed)
    | _ => rfl
  have split : handedOut (es ++ [(action, note)]) = handedOut es := by
    rw [handedOut_append, nothing, append_nil]
  simp only [of, attemptsAt, lastSubmission, latest_snoc, silent, split, Option.none_or]

theorem of_started (now : Instant) (network : NetworkAPIForRequests)
    (handed : List (GenerationAttempt R)) :
    of (es ++ [(.getRequestsToAttempt now network, .attempts handed)]) =
      (of es).start (handed.map fun attempt => attempt.ref.progress) := by
  have split : handedOut (es ++ [((.getRequestsToAttempt now network : Action R A),
      .attempts handed)]) = handedOut es ++ handed := by
    simp [handedOut]
  have silent : ∀ progress, submissionTo progress
      ((.getRequestsToAttempt now network : Action R A), Note.attempts handed) = none :=
    fun _ => rfl
  simp only [of, start, attemptsAt, lastSubmission, latest_snoc, silent, split, Option.none_or,
    map_append, count_append]

theorem of_submitted (ref : AttemptRef) (now : Instant) :
    of (es ++ [(.submitted ref now, .quiet)]) = (of es).submit ref.progress now := by
  have split : handedOut (es ++ [((.submitted ref now : Action R A), .quiet)]) = handedOut es := by
    simp [handedOut]
  have written : ∀ progress, submissionTo progress
      ((.submitted ref now : Action R A), (.quiet : Note R)) =
        if ref.progress = progress then some now else none :=
    fun _ => rfl
  simp only [of, submit, attemptsAt, lastSubmission, latest_snoc, written, split, Ledger.mk.injEq,
    true_and]
  funext progress
  split <;> rfl

end Ledger

/-- The attempts that a round of the loop starts. -/
def startedBy (s : RequestQueue R A) (pending : PendingRequests R A) (now : Instant)
    (eligibleLeaders : List ParticipantId) : List (GenerationAttempt R) :=
  s.pending.requests.entries.filterMap fun entry =>
    (pending.check now s.held eligibleLeaders entry.2).attempted

theorem mem_startedBy {s : RequestQueue R A} :
    attempt ∈ s.startedBy pending now eligibleLeaders ↔
    ∃ id queued, s.pending.requests.lookup id = some queued ∧
      (pending.check now s.held eligibleLeaders queued).attempted = some attempt := by
  rw [startedBy, mem_filterMap]
  constructor
  · rintro ⟨⟨id, queued⟩, isEntry, attempted⟩
    exact ⟨id, queued, AList.mem_lookup_iff.mpr isEntry, attempted⟩
  · rintro ⟨id, queued, found, attempted⟩
    exact ⟨⟨id, queued⟩, AList.mem_lookup_iff.mp found, attempted⟩

/-- The progress records of the attempts that a round starts. -/
def startedAt (s : RequestQueue R A) (pending : PendingRequests R A) (now : Instant)
    (eligibleLeaders : List ParticipantId) : List Nat :=
  (s.startedBy pending now eligibleLeaders).map fun attempt => attempt.ref.progress

/-- A slot agrees with the history, and its weak pointer with the attempts that are held. -/
structure Accounted (ledger : Ledger) (held : List AttemptRef) (slot : QueuedRequest.Slot) :
    Prop where
  active : ∀ ref ∈ held, ref.progress = slot.progress → slot.activeAttempt = some ref
  attempts : ledger.attempts slot.progress = slot.attempts
  submission : ledger.submission slot.progress = slot.lastResponseSubmission

variable [Request R]

/-- Entries have their own records and are accounted for, with few attempts behind each. -/
structure Sound (sha256 : List UInt8 → List UInt8) (ledger : Ledger) (s : RequestQueue R A) :
    Prop where
  ordered : ∀ id queued, s.pending.requests.lookup id = some queued →
    Request.getId queued.request = id ∧
      queued.leaderSelectionOrder = leaderSelectionOrder sha256 s.pending.allParticipants id
  accounted : ∀ id queued, s.pending.requests.lookup id = some queued →
    Accounted ledger s.held queued.slot
  allocated : ∀ id queued, s.pending.requests.lookup id = some queued →
    queued.progress < s.pending.allocated
  distinct : ∀ id id' queued queued', s.pending.requests.lookup id = some queued →
    s.pending.requests.lookup id' = some queued' → queued.progress = queued'.progress → id = id'
  heldAllocated : ∀ ref ∈ s.held, ref.progress < s.pending.allocated
  heldOnce : (s.held.map AttemptRef.progress).Nodup
  bounded : ∀ progress, ledger.attempts progress ≤ maxAttemptsPerRequestAsLeader
  fresh : ∀ progress, s.pending.allocated ≤ progress →
    ledger.attempts progress = 0 ∧ ledger.submission progress = none

namespace Sound

variable {ledger : Ledger} {s : RequestQueue R A} {pending pending' : PendingRequests R A}
  {held : List AttemptRef}

theorem carried (sound : Sound sha256 ledger s)
    (sameParticipants : pending'.allParticipants = s.pending.allParticipants)
    (sameAllocated : pending'.allocated = s.pending.allocated)
    (origin : ∀ id queued', pending'.requests.lookup id = some queued' →
      ∃ queued, s.pending.requests.lookup id = some queued ∧ queued.SameRequest queued' ∧
        queued'.progress = queued.progress ∧ Accounted ledger' held' queued'.slot)
    (heldAllocated : ∀ ref ∈ held', ref.progress < s.pending.allocated)
    (heldOnce : (held'.map AttemptRef.progress).Nodup)
    (bounded : ∀ progress, ledger'.attempts progress ≤ maxAttemptsPerRequestAsLeader)
    (fresh : ∀ progress, s.pending.allocated ≤ progress →
      ledger'.attempts progress = 0 ∧ ledger'.submission progress = none) :
    Sound sha256 ledger' ⟨pending', held'⟩ where
  ordered := by
    intro id queued' found
    obtain ⟨queued, before, same, _⟩ := origin id queued' found
    rw [same.request, same.leaderSelectionOrder, sameParticipants]
    exact sound.ordered id queued before
  accounted := by
    intro id queued' found
    obtain ⟨_, _, _, _, accounted⟩ := origin id queued' found
    exact accounted
  allocated := by
    intro id queued' found
    obtain ⟨queued, before, _, sameProgress, _⟩ := origin id queued' found
    rw [sameProgress, sameAllocated]
    exact sound.allocated id queued before
  distinct := by
    intro id id' queued' other' found foundOther same
    obtain ⟨queued, before, _, sameProgress, _⟩ := origin id queued' found
    obtain ⟨other, beforeOther, _, sameOther, _⟩ := origin id' other' foundOther
    exact sound.distinct id id' queued other before beforeOther
      (sameProgress.symm.trans (same.trans sameOther))
  heldAllocated := sameAllocated ▸ heldAllocated
  heldOnce := heldOnce
  bounded := bounded
  fresh := sameAllocated ▸ fresh

theorem kept (sound : Sound sha256 ledger s)
    (sameParticipants : pending'.allParticipants = s.pending.allParticipants)
    (sameAllocated : pending'.allocated = s.pending.allocated)
    (origin : ∀ id queued', pending'.requests.lookup id = some queued' →
      ∃ queued, s.pending.requests.lookup id = some queued ∧ queued.SameRequest queued' ∧
        queued'.slot = queued.slot) :
    Sound sha256 ledger ⟨pending', s.held⟩ := by
  refine sound.carried sameParticipants sameAllocated ?_ sound.heldAllocated sound.heldOnce
    sound.bounded sound.fresh
  intro id queued' found
  obtain ⟨queued, before, same, sameSlot⟩ := origin id queued' found
  refine ⟨queued, before, same, congrArg QueuedRequest.Slot.progress sameSlot, ?_⟩
  rw [sameSlot]
  exact sound.accounted id queued before

theorem dropped (sound : Sound sha256 ledger s) (ref : AttemptRef) :
    Sound sha256 ledger { s with held := s.held.filter (· ≠ ref) } := by
  have sublist : (s.held.filter (· ≠ ref)).Sublist s.held := filter_sublist
  refine sound.carried rfl rfl ?_ (fun other inside => sound.heldAllocated other
    (sublist.subset inside)) (sound.heldOnce.sublist (sublist.map _)) sound.bounded sound.fresh
  intro id queued found
  obtain ⟨active, attempts, submission⟩ := sound.accounted id queued found
  exact ⟨queued, found, ⟨rfl, rfl⟩, rfl,
    fun other inside => active other (sublist.subset inside), attempts, submission⟩

theorem accounted_new (sound : Sound sha256 ledger ⟨pending, held⟩)
    {queued : QueuedRequest R A} (isNew : queued.slot = ⟨pending.allocated, none, 0, none⟩) :
    Accounted ledger held queued.slot := by
  obtain ⟨unstarted, unsubmitted⟩ := sound.fresh pending.allocated le_rfl
  rw [isNew]
  refine ⟨?_, unstarted, unsubmitted⟩
  intro ref isHeld same
  exact absurd (sound.heldAllocated ref isHeld) (Nat.not_lt.mpr (le_of_eq same.symm))

theorem orInsert (sound : Sound sha256 ledger ⟨pending, held⟩) (now : Instant)
    (block : BlockViewLite) (request : R) :
    Sound sha256 ledger ⟨orInsert sha256 now block pending request, held⟩ := by
  have origin : ∀ id queued,
      (PendingRequests.orInsert sha256 now block pending request).requests.lookup id =
          some queued →
        pending.requests.lookup id = some queued ∨
          id = Request.getId request ∧ queued = QueuedRequest.new sha256 now request block.hash
            block.height pending.allParticipants pending.allocated := by
    intro id queued found
    simp only [PendingRequests.orInsert] at found
    split at found
    · exact .inl found
    · rw [lookup_insert_eq] at found
      split at found
      · rename_i same
        cases found
        exact .inr ⟨same, rfl⟩
      · exact .inl found
  refine ⟨?_, ?_, ?_, ?_, ?_, sound.heldOnce, sound.bounded, ?_⟩
  · intro id queued found
    obtain before | ⟨rfl, rfl⟩ := origin id queued found
    · exact sound.ordered id queued before
    · exact ⟨rfl, rfl⟩
  · intro id queued found
    obtain before | ⟨rfl, rfl⟩ := origin id queued found
    · exact sound.accounted id queued before
    · exact sound.accounted_new rfl
  · intro id queued found
    obtain before | ⟨rfl, rfl⟩ := origin id queued found
    · exact Nat.lt_succ_of_lt (sound.allocated id queued before)
    · exact Nat.lt_succ_self _
  · intro id id' queued queued' found found' same
    obtain before | ⟨rfl, rfl⟩ := origin id queued found <;>
      obtain before' | ⟨rfl, rfl⟩ := origin id' queued' found'
    · exact sound.distinct id id' queued queued' before before' same
    · exact absurd same (Nat.ne_of_lt (sound.allocated id queued before))
    · exact absurd same.symm (Nat.ne_of_lt (sound.allocated id' queued' before'))
    · rfl
  · intro ref isHeld
    exact Nat.lt_succ_of_lt (sound.heldAllocated ref isHeld)
  · intro progress later
    exact sound.fresh progress (Nat.le_of_succ_le later)

theorem orInserts (now : Instant) (block : BlockViewLite) (requests : List R)
    (sound : Sound sha256 ledger ⟨pending, held⟩) :
    Sound sha256 ledger
      ⟨requests.foldl (PendingRequests.orInsert sha256 now block) pending, held⟩ := by
  induction requests generalizing pending with
  | nil => exact sound
  | cons request requests ih => exact ih (sound.orInsert now block request)

theorem computed (sound : Sound sha256 ledger s) (ref : AttemptRef) (response : A) :
    Sound sha256 ledger
      (s.writeProgress ref fun progress => { progress with computedResponse := some response }) :=
    by
  refine sound.kept rfl rfl ?_
  intro id queued' found
  simp only [lookup_revise, Option.bind_eq_some_iff] at found
  obtain ⟨_, before, written⟩ := found
  split at written <;> cases written <;> exact ⟨_, before, ⟨rfl, rfl⟩, rfl⟩

theorem submitted (sound : Sound sha256 ledger s) (isHeld : ref ∈ s.held) (now : Instant) :
    Sound sha256 (ledger.submit ref.progress now)
      (s.writeProgress ref fun progress =>
        { progress with lastResponseSubmission := some now }) := by
  refine sound.carried rfl rfl ?_ sound.heldAllocated sound.heldOnce sound.bounded ?_
  · intro id queued' found
    simp only [lookup_revise, Option.bind_eq_some_iff] at found
    obtain ⟨queued, before, written⟩ := found
    obtain ⟨active, attempts, submission⟩ := sound.accounted id queued before
    split at written
    · rename_i same
      cases written
      exact ⟨queued, before, ⟨rfl, rfl⟩, rfl, active, attempts, if_pos same.symm⟩
    · rename_i other
      cases written
      exact ⟨_, before, ⟨rfl, rfl⟩, rfl, active, attempts,
        (if_neg (Ne.symm other)).trans submission⟩
  · intro progress later
    obtain ⟨unstarted, unsubmitted⟩ := sound.fresh progress later
    refine ⟨unstarted, (if_neg fun same => ?_).trans unsubmitted⟩
    exact absurd (sound.heldAllocated ref isHeld) (Nat.not_lt.mpr (same ▸ later))

end Sound

section

variable {s : RequestQueue R A} {ledger : Ledger} {pending : PendingRequests R A} {now : Instant}
  {eligibleLeaders : List ParticipantId} {attempt : GenerationAttempt R} {id : RequestId}
  {queued : QueuedRequest R A}

namespace Sound

theorem attempted_of_progress (sound : Sound sha256 ledger s)
    (found : s.pending.requests.lookup id = some queued)
    (started : attempt ∈ s.startedBy pending now eligibleLeaders)
    (same : attempt.ref.progress = queued.progress) :
    (pending.check now s.held eligibleLeaders queued).attempted = some attempt := by
  obtain ⟨id', queued', found', attempted⟩ := mem_startedBy.mp started
  obtain ⟨_, rfl⟩ := (check_outcome ..).attempted attempted
  cases sound.distinct id' id queued' queued found' found same
  cases found'.symm.trans found
  exact attempted

theorem started_once (sound : Sound sha256 ledger s) :
    (s.startedAt pending now eligibleLeaders).Nodup := by
  rw [startedAt, Nodup, pairwise_map, startedBy, pairwise_filterMap]
  refine (nodupKeys_iff_pairwise.mp s.pending.requests.nodupKeys).imp_of_mem ?_
  intro entry entry' isEntry isEntry' apart attempt attempted attempt' attempted' same
  obtain ⟨_, rfl⟩ := (check_outcome ..).attempted attempted
  obtain ⟨_, rfl⟩ := (check_outcome ..).attempted attempted'
  exact apart (sound.distinct _ _ _ _ (AList.mem_lookup_iff.mpr isEntry)
    (AList.mem_lookup_iff.mpr isEntry') same)

section

variable (sound : Sound sha256 ledger s) (found : s.pending.requests.lookup id = some queued)

include sound found

theorem free_of_starts (starts : pending.Starts now s.held eligibleLeaders queued) :
    ∀ ref ∈ s.held, ref.progress ≠ queued.progress := by
  intro ref isHeld same
  exact starts.inactive ref ((sound.accounted id queued found).active ref isHeld same) isHeld

theorem not_started (skipped : (pending.check now s.held eligibleLeaders queued).attempted = none) :
    queued.progress ∉ s.startedAt pending now eligibleLeaders := by
  intro isStarted
  obtain ⟨attempt, started, same⟩ := mem_map.mp isStarted
  cases skipped.symm.trans (sound.attempted_of_progress found started same)

theorem started_of_attempted
    (attempted : (pending.check now s.held eligibleLeaders queued).attempted = some attempt) :
    (s.startedAt pending now eligibleLeaders).count queued.progress = 1 := by
  refine count_eq_one_of_mem sound.started_once (mem_map.mpr ⟨attempt, ?_, ?_⟩)
  · exact mem_startedBy.mpr ⟨id, queued, found, attempted⟩
  · obtain ⟨_, rfl⟩ := (check_outcome ..).attempted attempted
    rfl

theorem accounted_checked
    (kept : (pending.check now s.held eligibleLeaders queued).kept = some queued') :
    queued.SameRequest queued' ∧ queued'.progress = queued.progress ∧
      Accounted (ledger.start (s.startedAt pending now eligibleLeaders))
        ((s.startedBy pending now eligibleLeaders).map GenerationAttempt.ref ++ s.held)
        queued'.slot := by
  obtain ⟨active, attempts, submission⟩ := sound.accounted id queued found
  have outcome := check_outcome pending now s.held eligibleLeaders queued
  cases isVerdict : pending.check now s.held eligibleLeaders queued with
  | keep queued'' =>
    rw [isVerdict] at outcome kept
    cases kept
    cases outcome with
    | keep _ same sameSlot =>
      have skipped : queued.progress ∉ s.startedAt pending now eligibleLeaders :=
        sound.not_started found (by rw [isVerdict]; rfl)
      refine ⟨same, congrArg QueuedRequest.Slot.progress sameSlot, ?_⟩
      rw [sameSlot]
      refine ⟨?_, ?_, submission⟩
      · intro ref isHeld sameProgress
        obtain isNew | isOld := mem_append.mp isHeld
        · obtain ⟨attempt, started, rfl⟩ := mem_map.mp isNew
          exact absurd (mem_map.mpr ⟨attempt, started, sameProgress⟩) skipped
        · exact active ref isOld sameProgress
      · exact (congrArg _ (count_eq_zero.mpr skipped)).trans attempts
  | attempt queued'' =>
    rw [isVerdict] at outcome kept
    cases kept
    cases outcome with
    | attempt _ same isStarted starts =>
      have attempted : (pending.check now s.held eligibleLeaders queued).attempted =
          some ⟨queued.request, ⟨queued.progress, queued.slot.attempts + 1⟩⟩ := by
        have isActive : queued'.activeAttempt = _ :=
          congrArg QueuedRequest.Slot.activeAttempt isStarted
        rw [isVerdict, Verdict.attempted, isActive, same.request]
        rfl
      refine ⟨same, congrArg QueuedRequest.Slot.progress isStarted, ?_⟩
      rw [isStarted]
      refine ⟨?_, ?_, submission⟩
      · intro ref isHeld sameProgress
        obtain isNew | isOld := mem_append.mp isHeld
        · obtain ⟨other, started, rfl⟩ := mem_map.mp isNew
          cases (sound.attempted_of_progress found started sameProgress).symm.trans attempted
          rfl
        · exact absurd sameProgress (sound.free_of_starts found starts ref isOld)
      · exact congrArg₂ (· + ·) attempts (sound.started_of_attempted found attempted)
  | discard =>
    rw [isVerdict] at kept
    cases kept

end

theorem started (sound : Sound sha256 ledger s)
    (sameParticipants : pending.allParticipants = s.pending.allParticipants)
    (sameAllocated : pending.allocated = s.pending.allocated) :
    Sound sha256 (ledger.start (s.startedAt pending now eligibleLeaders))
      ⟨{ pending with requests := s.pending.requests.revise fun _ request =>
          (pending.check now s.held eligibleLeaders request).kept },
        (s.startedBy pending now eligibleLeaders).map GenerationAttempt.ref ++ s.held⟩ := by
  have origin : ∀ progress ∈ s.startedAt pending now eligibleLeaders,
      ∃ id queued, s.pending.requests.lookup id = some queued ∧ queued.progress = progress ∧
        pending.Starts now s.held eligibleLeaders queued := by
    intro progress isStarted
    obtain ⟨attempt, started, rfl⟩ := mem_map.mp isStarted
    obtain ⟨id, queued, found, attempted⟩ := mem_startedBy.mp started
    obtain ⟨starts, rfl⟩ := (check_outcome ..).attempted attempted
    exact ⟨id, queued, found, rfl, starts⟩
  refine sound.carried sameParticipants sameAllocated ?_ ?_ ?_ ?_ ?_
  · intro id queued' found
    simp only [lookup_revise, Option.bind_eq_some_iff] at found
    obtain ⟨queued, before, kept⟩ := found
    exact ⟨queued, before, sound.accounted_checked before kept⟩
  · intro ref isHeld
    obtain isNew | isOld := mem_append.mp isHeld
    · obtain ⟨attempt, started, rfl⟩ := mem_map.mp isNew
      obtain ⟨id, queued, found, same, _⟩ :=
        origin attempt.ref.progress (mem_map.mpr ⟨attempt, started, rfl⟩)
      rw [← same]
      exact sound.allocated id queued found
    · exact sound.heldAllocated ref isOld
  · rw [map_append, map_map]
    refine nodup_append.mpr ⟨sound.started_once, sound.heldOnce, ?_⟩
    intro progress isStarted other ofHeld same
    obtain ⟨id, queued, found, rfl, starts⟩ := origin progress isStarted
    obtain ⟨ref, isHeld, rfl⟩ := mem_map.mp ofHeld
    exact sound.free_of_starts found starts ref isHeld same.symm
  · intro progress
    by_cases isStarted : progress ∈ s.startedAt pending now eligibleLeaders
    · obtain ⟨id, queued, found, rfl, starts⟩ := origin progress isStarted
      have once : (s.startedAt pending now eligibleLeaders).count queued.progress ≤ 1 :=
        nodup_iff_count_le_one.mp sound.started_once _
      have before := (sound.accounted id queued found).attempts
      have few := starts.few
      rw [← before] at few
      exact (Nat.add_le_add_left once _).trans few
    · exact (congrArg _ (count_eq_zero.mpr isStarted)).trans_le (sound.bounded progress)
  · intro progress later
    obtain ⟨unstarted, unsubmitted⟩ := sound.fresh progress later
    refine ⟨?_, unsubmitted⟩
    have isNot : progress ∉ s.startedAt pending now eligibleLeaders := by
      intro isStarted
      obtain ⟨id, queued, found, rfl, _⟩ := origin progress isStarted
      exact absurd (sound.allocated id queued found) (Nat.not_lt.mpr later)
    exact (congrArg _ (count_eq_zero.mpr isNot)).trans unstarted

end Sound

end

variable {s t : RequestQueue R A} {es : List (Action R A × Note R)} {now : Instant}
  {network : NetworkAPIForRequests}

/-- A call of `get_requests_to_attempt` that returns. -/
structure Attempts (s : RequestQueue R A) (now : Instant) (network : NetworkAPIForRequests)
    (handed : List (GenerationAttempt R)) (t : RequestQueue R A)
    (eligibleLeaders : List ParticipantId) (maximumHeight : Nat)
    (recentBlocks : RecentBlocksTracker BufferedBlockData) : Prop where
  eligible : s.pending.eligibleLeadersAndMaximumHeight network =
    some (eligibleLeaders, maximumHeight)
  notified : s.pending.recentBlocks.notifyMaximumHeightAvailable maximumHeight = some recentBlocks
  isHanded : handed = s.startedBy { s.pending with recentBlocks } now eligibleLeaders
  isAfter : t = ⟨{ s.pending with
      recentBlocks
      requests := s.pending.requests.revise fun _ request =>
        (check { s.pending with recentBlocks } now s.held eligibleLeaders request).kept },
    handed.map GenerationAttempt.ref ++ s.held⟩

theorem act_attempts (acted : s.act sha256 (.getRequestsToAttempt now network) = some (t, note)) :
    ∃ handed eligibleLeaders maximumHeight recentBlocks, note = .attempts handed ∧
      Attempts s now network handed t eligibleLeaders maximumHeight recentBlocks := by
  simp only [act, getRequestsToAttempt, bind_some_iff] at acted
  obtain ⟨⟨pending, handed⟩, ⟨⟨eligible, maximumHeight⟩, isEligible, recentBlocks, notified, rest⟩,
    done⟩ := acted
  cases rest
  cases done
  exact ⟨_, eligible, maximumHeight, recentBlocks, rfl, isEligible, notified, rfl, rfl⟩

theorem sound_step (sound : Sound sha256 (.of es) s)
    (acted : s.act sha256 action = some (t, note)) :
    Sound sha256 (.of (es ++ [(action, note)])) t := by
  cases action with
  | notifyNewBlock now requests completedRequests block =>
    cases moves_act acted with
    | ignored =>
      rw [Ledger.of_quiet (by simp) _ (by simp)]
      exact sound
    | added _ _ _ _ recentBlocks newFinalBlocks remaining _ removed =>
      rw [Ledger.of_quiet (by simp) _ (by simp)]
      refine Sound.orInserts now block requests (sound.kept rfl rfl ?_)
      intro id queued found
      exact ⟨queued, removeAllCompleted_origin removed found, ⟨rfl, rfl⟩, rfl⟩
  | getRequestsToAttempt now network =>
    obtain ⟨handed, eligible, _, recentBlocks, rfl, attempts⟩ := act_attempts acted
    rw [Ledger.of_started, attempts.isAfter, attempts.isHanded]
    exact sound.started rfl rfl
  | computed ref response =>
    cases moves_act acted
    rw [Ledger.of_quiet (by simp) _ (by simp)]
    exact sound.computed ref response
  | submitted ref now =>
    have isHeld : ref ∈ s.held := by
      simp only [act, bind_some_iff, Option.guard_eq_some'] at acted
      obtain ⟨_, isHeld, _⟩ := acted
      exact isHeld
    cases moves_act acted
    rw [Ledger.of_submitted]
    exact sound.submitted isHeld now
  | dropped ref =>
    cases moves_act acted
    rw [Ledger.of_quiet (by simp) _ (by simp)]
    exact sound.dropped ref

variable {allParticipants : List ParticipantId} {myParticipantId : ParticipantId}

theorem sound_run (run : Run (Acts (act sha256)) ⟨.new allParticipants myParticipantId, []⟩ es s) :
    Sound sha256 (.of es) s := by
  refine run.invariant (fun es s => Sound sha256 (.of es) s) ?_ ?_
  · refine ⟨?_, ?_, ?_, ?_, ?_, .nil, ?_, ?_⟩
    · intro id queued found
      cases found
    · intro id queued found
      cases found
    · intro id queued found
      cases found
    · intro id id' queued queued' found
      cases found
    · intro ref isHeld
      cases isHeld
    · intro progress
      exact Nat.zero_le _
    · intro progress _
      exact ⟨rfl, rfl⟩
  · intro es s e t _ sound acted
    exact sound_step sound acted

theorem participants_orInserts (block : BlockViewLite) (requests : List R)
    (pending : PendingRequests R A) :
    (requests.foldl (orInsert sha256 now block) pending).allParticipants =
        pending.allParticipants ∧
      (requests.foldl (orInsert sha256 now block) pending).myParticipantId =
        pending.myParticipantId := by
  induction requests generalizing pending with
  | nil => exact ⟨rfl, rfl⟩
  | cons request requests ih => exact ih (orInsert sha256 now block pending request)

theorem participants_run
    (run : Run (Acts (act sha256)) ⟨.new allParticipants myParticipantId, []⟩ es s) :
    s.pending.allParticipants = allParticipants ∧ s.pending.myParticipantId = myParticipantId := by
  refine run.invariant (fun _ s => s.pending.allParticipants = allParticipants ∧
    s.pending.myParticipantId = myParticipantId) ⟨rfl, rfl⟩ ?_
  intro es s e t _ same acted
  obtain ⟨action, note⟩ := e
  cases action with
  | notifyNewBlock now requests completedRequests block =>
    cases moves_act acted with
    | ignored => exact same
    | added =>
      exact ⟨(participants_orInserts block requests _).1.trans same.1,
        (participants_orInserts block requests _).2.trans same.2⟩
  | getRequestsToAttempt now network =>
    obtain ⟨_, _, _, _, _, attempts⟩ := act_attempts acted
    rw [attempts.isAfter]
    exact same
  | computed | submitted | dropped =>
    cases moves_act acted
    exact same

/-- An entry has at most one attempt not dropped yet and at most the maximum altogether. An attempt
    starts only at an entry that this node leads, whose block is recent and not known to be off the
    chain, and whose last submission is long enough ago. -/
theorem attempts_bounded
    (run : Run (Acts (act sha256)) ⟨.new allParticipants myParticipantId, []⟩ es s) :
    (∀ progress, (s.held.filter (·.progress = progress)).length ≤ 1 ∧
      attemptsAt progress es ≤ maxAttemptsPerRequestAsLeader) ∧
    ∀ now network handed t,
      Acts (act sha256) s (.getRequestsToAttempt now network, .attempts handed) t →
      ∀ attempt ∈ handed, ∃ queued,
        s.pending.requests.lookup (Request.getId attempt.request) = some queued ∧
        queued.progress = attempt.ref.progress ∧
        LeadsNow sha256 allParticipants network myParticipantId
          (Request.getId attempt.request) ∧
        (t.pending.recentBlocks.classifyBlock queued.blockHash queued.blockHeight).Promising ∧
        t.pending.recentBlocks.windowStart ≤ queued.blockHeight ∧
        ∀ submission, lastSubmission attempt.ref.progress es = some submission →
          submission + maxLatencyBeforeExpectingTransactionToFinalize ≤ now := by
  have sound := sound_run run
  obtain ⟨rfl, rfl⟩ := participants_run run
  refine ⟨fun progress => ⟨?_, sound.bounded progress⟩, ?_⟩
  · have once := nodup_iff_count_le_one.mp sound.heldOnce progress
    rwa [count, countP_map, countP_eq_length_filter] at once
  · intro now network handed t acted attempt isHanded
    obtain ⟨_, eligible, maximumHeight, recentBlocks, same, attempts⟩ := act_attempts acted
    cases same
    rw [attempts.isHanded] at isHanded
    obtain ⟨id, queued, found, attempted⟩ := mem_startedBy.mp isHanded
    obtain ⟨starts, rfl⟩ := (check_outcome ..).attempted attempted
    obtain ⟨rfl, ordered⟩ := sound.ordered id queued found
    rw [attempts.isAfter]
    refine ⟨queued, found, rfl, leadsNow_of_currentLeader attempts.eligible ordered starts.leads,
      starts.promising, recent_of_promising starts.promising, ?_⟩
    intro submission isLast
    exact starts.settled submission ((sound.accounted _ queued found).submission.symm.trans isLast)

private def ninthRequest : BareRequest := ⟨⟨9⟩⟩

/-- SHA-256 on the two inputs of the leader selection for this request, which prefers
    participant 0. -/
private def ninthSha256 (input : List UInt8) : List UInt8 :=
  if input = [0, 0, 0, 0] ++ ninthRequest.id.bytes then
    [83, 95, 156, 199, 195, 176, 237, 74, 35, 84, 54, 183, 178, 12, 179, 219,
      234, 211, 239, 60, 56, 233, 240, 62, 196, 73, 230, 210, 225, 19, 225, 195]
  else if input = [1, 0, 0, 0] ++ ninthRequest.id.bytes then
    [154, 67, 241, 239, 189, 108, 234, 223, 212, 63, 99, 40, 218, 199, 176, 197,
      36, 164, 218, 97, 10, 21, 76, 42, 227, 175, 139, 244, 244, 217, 60, 255]
  else []

private def zeroIsStale : NetworkAPIForRequests :=
  ⟨[⟨0⟩, ⟨1⟩], AList.insert ⟨0⟩ 5 (AList.insert ⟨1⟩ 20 ∅)⟩

private def secondOfTwo : RequestQueue BareRequest Unit := ⟨.new [⟨0⟩, ⟨1⟩] ⟨1⟩, []⟩

/-- A response is submitted three seconds in, and five seconds in it is too early to try again. -/
private def submittedOnce : List (Action BareRequest Unit) :=
  [.notifyNewBlock 0 [ninthRequest] [] ⟨⟨1⟩, 1, ⟨0⟩, ⟨0⟩⟩,
    .getRequestsToAttempt 2000000000 zeroIsStale, .submitted ⟨0, 1⟩ 3000000000,
    .dropped ⟨0, 1⟩, .getRequestsToAttempt 5000000000 zeroIsStale]

/-- Participant 1 leads in place of participant 0, and tries again after ten seconds. -/
theorem attempts_bounded_resubmission :
    ∃ es s t, Run (Acts (act ninthSha256)) secondOfTwo es s ∧
      Acts (act ninthSha256) s (.getRequestsToAttempt 13000000000 zeroIsStale,
        .attempts [⟨ninthRequest, ⟨0, 2⟩⟩]) t ∧
      attemptsAt 0 es = 1 ∧ lastSubmission 0 es = some 3000000000 ∧
      LeadsNow ninthSha256 [⟨0⟩, ⟨1⟩] zeroIsStale ⟨1⟩ ninthRequest.id ∧
      (t.held.filter (·.progress = 0)).length ≤ 1 := by
  obtain ⟨es, s, note, t, run, _, acts, counted, submitted, rfl⟩ := exists_run_then
    (act ninthSha256) secondOfTwo submittedOnce (.getRequestsToAttempt 13000000000 zeroIsStale)
    (fun es _ note _ => attemptsAt 0 es = 1 ∧ lastSubmission 0 es = some 3000000000 ∧
      note = .attempts [⟨ninthRequest, ⟨0, 2⟩⟩]) (by decide +kernel)
  obtain ⟨_, _, _, leads, _⟩ :=
    (attempts_bounded run).2 _ _ _ _ acts _ (mem_singleton_self _)
  exact ⟨es, s, t, run, acts, counted, submitted, leads,
    ((attempts_bounded (run.snoc acts)).1 0).1⟩

end RequestQueue

end MpcNetwork.Node
