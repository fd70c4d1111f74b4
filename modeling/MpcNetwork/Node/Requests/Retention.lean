import MpcNetwork.Node.Requests.Finality
import MpcNetwork.Node.Requests.PendingRequests

/-! # Requests on the chain are kept

A request is queued with the block that brought it first.  As long as no block brings a request
that is queued under another block, every unanswered request of a final or canonical block
stays in the queue.  A request that two forks contain is lost with the block that came first.
-/

namespace MpcNetwork.Node

open List hiding after
open Fallible RecentBlocksTracker Runs Table

variable {R A : Type} {sha256 : List UInt8 → List UInt8}

variable {newFinalBlocks : List (Nat × BufferedBlockData)}

variable {queued' : QueuedRequest R A}

namespace PendingRequests

variable {pending : PendingRequests R A} {id : RequestId} {queued : QueuedRequest R A}

variable {requests : Table RequestId (QueuedRequest R A)}

theorem lookup_removeCompleted
    (removed : removeCompleted height requests completed = some requests')
    (other : id ≠ completed) : requests'.lookup id = requests.lookup id := by
  unfold removeCompleted at removed
  split at removed
  · cases removed
    rfl
  · split at removed
    · cases removed
    · cases removed
      rw [lookup_erase_eq, if_neg other]

theorem foldlM_kept {β : Type} {f : Table RequestId (QueuedRequest R A) → β →
      Option (Table RequestId (QueuedRequest R A))} {inputs : List β}
    (done : inputs.foldlM f requests = some requests')
    (each : ∀ x ∈ inputs, ∀ before after, f before x = some after →
      after.lookup id = before.lookup id) : requests'.lookup id = requests.lookup id := by
  induction inputs generalizing requests with
  | nil =>
    cases done
    rfl
  | cons x inputs ih =>
    simp only [foldlM_cons, bind_some_iff] at done
    obtain ⟨middle, first, rest⟩ := done
    rw [ih rest fun y inside => each y (mem_cons_of_mem _ inside)]
    exact each x mem_cons_self _ _ first

/-- An entry is kept, with one attempt more if handed out, or out of attempts or off the chain. -/
inductive Checked (pending : PendingRequests R A) (queued : QueuedRequest R A) :
    Verdict R A → Prop where
  | keep (queued' : QueuedRequest R A) :
      queued'.request = queued.request → queued'.blockHash = queued.blockHash →
      queued'.blockHeight = queued.blockHeight →
      queued'.computationProgress.attempts = queued.computationProgress.attempts →
      Checked pending queued (.keep queued')
  | attempt (queued' : QueuedRequest R A) (ref : AttemptRef) :
      queued'.request = queued.request → queued'.blockHash = queued.blockHash →
      queued'.blockHeight = queued.blockHeight →
      queued'.computationProgress.attempts = queued.computationProgress.attempts + 1 →
      queued'.activeAttempt = some ref → Checked pending queued (.attempt queued')
  | exhausted : maxAttemptsPerRequestAsLeader ≤ queued.computationProgress.attempts →
      Checked pending queued .discard
  | gone : pending.recentBlocks.classifyBlock queued.blockHash queued.blockHeight = .notIncluded ∨
        pending.recentBlocks.classifyBlock queued.blockHash queued.blockHeight =
          .olderThanRecentWindow → Checked pending queued .discard

theorem Checked.due {due : Instant}
    (checked : Checked pending { queued with nextCheckDue := due } verdict) :
    Checked pending queued verdict := by
  cases checked with
  | keep queued' same hashes heights attempts => exact .keep queued' same hashes heights attempts
  | attempt queued' ref same hashes heights attempts active =>
    exact .attempt queued' ref same hashes heights attempts active
  | exhausted many => exact .exhausted many
  | gone givenUp => exact .gone givenUp

theorem Checked.kept (checked : Checked pending queued verdict)
    (kept : verdict.kept = some queued') :
    queued.blockHash = queued'.blockHash ∧ queued.blockHeight = queued'.blockHeight := by
  cases checked with
  | keep _ _ hashes heights =>
    cases kept
    exact ⟨hashes.symm, heights.symm⟩
  | attempt _ _ _ hashes heights =>
    cases kept
    exact ⟨hashes.symm, heights.symm⟩
  | exhausted => cases kept
  | gone => cases kept

theorem checked_consider (pending : PendingRequests R A) (now : Instant)
    (eligibleLeaders : List ParticipantId) (queued : QueuedRequest R A) :
    Checked pending queued (pending.consider now eligibleLeaders queued) := by
  unfold consider
  split
  · exact .keep _ rfl rfl rfl rfl
  simp only
  split
  · simp only [attemptAsLeader]
    split
    · rename_i many
      exact .exhausted many
    split
    · exact .keep _ rfl rfl rfl rfl
    · exact .attempt _ _ rfl rfl rfl rfl rfl
  · exact .keep _ rfl rfl rfl rfl

theorem checked_check (pending : PendingRequests R A) (now : Instant) (held : List AttemptRef)
    (eligibleLeaders : List ParticipantId) (queued : QueuedRequest R A) :
    Checked pending queued (pending.check now held eligibleLeaders queued) := by
  simp only [check]
  split
  · exact .keep queued rfl rfl rfl rfl
  split
  · exact .keep _ rfl rfl rfl rfl
  -- the entry that is considered differs from the queued one in its next check only
  have considered := checked_consider pending now eligibleLeaders
    { queued with nextCheckDue := now + checkEachRequestInterval }
  split
  · exact considered.due
  · exact considered.due
  · exact considered.due
  · exact .keep _ rfl rfl rfl rfl
  · rename_i notIncluded
    exact .gone (.inl notIncluded)
  · rename_i older
    exact .gone (.inr older)

theorem lookup_removeAllCompleted
    (removed : removeAllCompleted requests newFinalBlocks = some requests')
    (unanswered : ∀ block ∈ newFinalBlocks, id ∉ block.2.completedRequests) :
    requests'.lookup id = requests.lookup id := by
  refine foldlM_kept removed fun block isFinal before after done => ?_
  refine foldlM_kept done fun completed isCompleted before after done => ?_
  exact lookup_removeCompleted done fun same => unanswered block isFinal (same ▸ isCompleted)

theorem removeCompleted_origin
    (removed : removeCompleted height requests completed = some requests')
    (found : requests'.lookup id = some queued) : requests.lookup id = some queued := by
  unfold removeCompleted at removed
  split at removed
  · cases removed
    exact found
  · split at removed
    · cases removed
    · cases removed
      rw [lookup_erase_eq] at found
      split at found
      · cases found
      · exact found

theorem foldlM_origin {β : Type} {f : Table RequestId (QueuedRequest R A) → β →
      Option (Table RequestId (QueuedRequest R A))} {inputs : List β}
    (done : inputs.foldlM f requests = some requests')
    (each : ∀ x before after, f before x = some after →
      after.lookup id = some queued → before.lookup id = some queued)
    (found : requests'.lookup id = some queued) : requests.lookup id = some queued := by
  induction inputs generalizing requests with
  | nil =>
    cases done
    exact found
  | cons x inputs ih =>
    simp only [foldlM_cons, bind_some_iff] at done
    obtain ⟨middle, first, rest⟩ := done
    exact each x _ _ first (ih rest)

theorem removeAllCompleted_origin
    (removed : removeAllCompleted requests newFinalBlocks = some requests')
    (found : requests'.lookup id = some queued) : requests.lookup id = some queued := by
  refine foldlM_origin removed (fun block before after done => ?_) found
  exact foldlM_origin done fun completed before after done => removeCompleted_origin done

variable [Request R]

variable {now : Instant} {block : BlockViewLite}

theorem recentBlocks_orInserts (requests : List R) (pending : PendingRequests R A) :
    (requests.foldl (orInsert sha256 now block) pending).recentBlocks = pending.recentBlocks := by
  induction requests generalizing pending with
  | nil => rfl
  | cons request requests ih => rw [foldl_cons, ih]; rfl

theorem lookup_orInserts (requests : List R) (found : pending.requests.lookup id = some queued) :
    (requests.foldl (orInsert sha256 now block) pending).requests.lookup id = some queued := by
  induction requests generalizing pending with
  | nil => exact found
  | cons request requests ih =>
    apply ih
    simp only [orInsert]
    split
    · exact found
    · rename_i absent
      rw [lookup_insert_eq, if_neg fun same => by cases found.symm.trans (same ▸ absent)]
      exact found

theorem orInserts_origin (requests : List R)
    (found : (requests.foldl (orInsert sha256 now block) pending).requests.lookup id = some queued) :
    pending.requests.lookup id = some queued ∨
      id ∈ requests.map Request.getId ∧ queued.blockHash = block.hash ∧
        queued.blockHeight = block.height := by
  induction requests generalizing pending with
  | nil => exact .inl found
  | cons request requests ih =>
    rw [map_cons, mem_cons]
    obtain before | ⟨later, isBlock⟩ := ih found
    · simp only [orInsert] at before
      split at before
      · exact .inl before
      · rw [lookup_insert_eq] at before
        split at before
        · rename_i isId
          cases before
          exact .inr ⟨.inl isId, rfl, rfl⟩
        · exact .inl before
    · exact .inr ⟨.inr later, isBlock⟩

/-- How the entry of a block looks when it was just made. -/
def Enters (block : BlockViewLite) (queued : QueuedRequest R A) : Prop :=
  queued.blockHash = block.hash ∧ queued.blockHeight = block.height ∧
    queued.computationProgress.attempts = 0

theorem lookup_orInserts_new {requests : List R} (absent : pending.requests.lookup id = none)
    (brought : ∃ request ∈ requests, Request.getId request = id) :
    ∃ queued, (requests.foldl (orInsert sha256 now block) pending).requests.lookup id = some queued ∧
      Enters block queued ∧ Request.getId queued.request = id := by
  induction requests generalizing pending with
  | nil => simp at brought
  | cons request requests ih =>
    rw [foldl_cons]
    by_cases here : Request.getId request = id
    · subst here
      have inserted : (orInsert sha256 now block pending request).requests.lookup
          (Request.getId request) = some (QueuedRequest.new sha256 now request block.hash
            block.height pending.allParticipants pending.allocated) := by
        simp [orInsert, absent]
      exact ⟨_, lookup_orInserts requests inserted, ⟨rfl, rfl, rfl⟩, rfl⟩
    · apply ih
      · simp only [orInsert]
        split
        · exact absent
        · rw [lookup_insert_eq, if_neg (Ne.symm here)]
          exact absent
      · obtain ⟨other, inside, isId⟩ := brought
        obtain rfl | later := mem_cons.mp inside
        · exact absurd isId here
        · exact ⟨other, later, isId⟩

end PendingRequests

namespace RequestQueue

open PendingRequests

section History

def givenBlocks (es : List (Action R A × Note R)) : List BlockViewLite :=
  es.filterMap fun e => match e.1 with
    | .notifyNewBlock _ _ _ block => some block
    | _ => none

/-- The requests that a reported final block completes. -/
def answered (es : List (Action R A × Note R)) : List RequestId :=
  es.flatMap fun e => match e.2 with
    | .added newFinalBlocks => newFinalBlocks.flatMap fun block => block.2.completedRequests
    | _ => []

def handedOut (es : List (Action R A × Note R)) : List (GenerationAttempt R) :=
  es.flatMap fun e => match e.2 with
    | .attempts handed => handed
    | _ => []

def attemptsFor [Request R] (id : RequestId) (es : List (Action R A × Note R)) : Nat :=
  (handedOut es).countP fun attempt => Request.getId attempt.request = id

@[simp] theorem givenBlocks_append (es fs : List (Action R A × Note R)) :
    givenBlocks (es ++ fs) = givenBlocks es ++ givenBlocks fs := by
  simp [givenBlocks]

@[simp] theorem answered_append (es fs : List (Action R A × Note R)) :
    answered (es ++ fs) = answered es ++ answered fs := by
  simp [answered]

@[simp] theorem attemptsFor_append [Request R] (id : RequestId) (es fs : List (Action R A × Note R)) :
    attemptsFor id (es ++ fs) = attemptsFor id es + attemptsFor id fs := by
  simp [attemptsFor, handedOut]

theorem attemptsFor_pos [Request R] {id : RequestId} (action : Action R A)
    (inside : attempt ∈ handed)
    (isId : Request.getId attempt.request = id) : 0 < attemptsFor id [(action, .attempts handed)] := by
  simp only [attemptsFor, handedOut, flatMap_cons, flatMap_nil, append_nil,
    countP_pos_iff]
  exact ⟨attempt, inside, decide_eq_true isId⟩

end History

variable [Request R]

/-- No request of the block is queued under another block. -/
def bringsNew (s : RequestQueue R A) : Action R A → Bool
  | .notifyNewBlock _ requests _ block => requests.all fun request =>
    (s.pending.requests.lookup (Request.getId request)).all fun queued =>
      queued.blockHash = block.hash
  | _ => true

/-- The request is queued under a block that is final or canonical. -/
def Kept (s : RequestQueue R A) (id : RequestId) : Prop :=
  ∃ queued, s.pending.requests.lookup id = some queued ∧
    Included (s.pending.recentBlocks.classifyBlock queued.blockHash queued.blockHeight)

inductive Moves (sha256 : List UInt8 → List UInt8) (s : RequestQueue R A) :
    Action R A → Note R → RequestQueue R A → Prop where
  | ignored (now : Instant) (requests : List R) (completedRequests : List RequestId)
      (block : BlockViewLite) (reason : String) :
      s.pending.recentBlocks.addBlock block ⟨requests.map Request.getId, completedRequests⟩ =
        some (.error reason) →
      Moves sha256 s (.notifyNewBlock now requests completedRequests block) .quiet s
  | added (now : Instant) (requests : List R) (completedRequests : List RequestId)
      (block : BlockViewLite) (recentBlocks : RecentBlocksTracker BufferedBlockData)
      (newFinalBlocks : List (Nat × BufferedBlockData))
      (remaining : Table RequestId (QueuedRequest R A)) :
      s.pending.recentBlocks.addBlock block ⟨requests.map Request.getId, completedRequests⟩ =
        some (.ok (recentBlocks, newFinalBlocks)) →
      removeAllCompleted s.pending.requests newFinalBlocks = some remaining →
      Moves sha256 s (.notifyNewBlock now requests completedRequests block) (.added newFinalBlocks)
        ⟨requests.foldl (orInsert sha256 now block)
          { s.pending with recentBlocks, requests := remaining }, s.held⟩
  | attempted (now : Instant) (network : NetworkAPIForRequests) (eligibleLeaders : List ParticipantId)
      (maximumHeight : Nat) (pending : PendingRequests R A) (handed : List (GenerationAttempt R)) :
      s.pending.recentBlocks.notifyMaximumHeightAvailable maximumHeight = some pending.recentBlocks →
      pending.requests = s.pending.requests.revise (fun _ request =>
        (pending.check now s.held eligibleLeaders request).kept) →
      handed = s.pending.requests.entries.filterMap (fun entry =>
        (pending.check now s.held eligibleLeaders entry.2).attempted) →
      Moves sha256 s (.getRequestsToAttempt now network) (.attempts handed)
        ⟨pending, handed.map GenerationAttempt.ref ++ s.held⟩
  | computed (ref : AttemptRef) (response : A) :
      Moves sha256 s (.computed ref response) .quiet
        (s.writeProgress ref fun progress => { progress with computedResponse := some response })
  | submitted (ref : AttemptRef) (now : Instant) :
      Moves sha256 s (.submitted ref now) .quiet
        (s.writeProgress ref fun progress => { progress with lastResponseSubmission := some now })
  | dropped (ref : AttemptRef) :
      Moves sha256 s (.dropped ref) .quiet { s with held := s.held.filter (· ≠ ref) }

variable {chain : Blockchain} {given : List BlockViewLite} {s : RequestQueue R A}
  {es : List (Action R A × Note R)} {b : BlockViewLite} {id : RequestId}

theorem moves_act (acted : s.act sha256 action = some (t, note)) : Moves sha256 s action note t := by
  cases action with
  | notifyNewBlock now requests completedRequests block =>
    simp only [act, notifyNewBlock, bind_some_iff] at acted
    obtain ⟨⟨pending, reported⟩, ⟨result, added, rest⟩, done⟩ := acted
    cases result with
    | error reason =>
      cases rest
      cases done
      exact .ignored now requests completedRequests block reason added
    | ok pair =>
      obtain ⟨recentBlocks, newFinalBlocks⟩ := pair
      simp only [bind_some_iff] at rest
      obtain ⟨remaining, removed, rest⟩ := rest
      cases rest
      cases done
      exact .added now requests completedRequests block recentBlocks newFinalBlocks remaining
        added removed
  | getRequestsToAttempt now network =>
    simp only [act, getRequestsToAttempt, bind_some_iff] at acted
    obtain ⟨⟨pending, handed⟩, ⟨⟨eligible, maximumHeight⟩, _, recentBlocks, notified, rest⟩, done⟩ :=
      acted
    cases rest
    cases done
    exact .attempted now network eligible maximumHeight _ _ notified rfl rfl
  | computed ref response =>
    simp only [act, bind_some_iff] at acted
    obtain ⟨_, _, done⟩ := acted
    cases done
    exact .computed ref response
  | submitted ref now =>
    simp only [act, bind_some_iff] at acted
    obtain ⟨_, _, done⟩ := acted
    cases done
    exact .submitted ref now
  | dropped ref =>
    cases acted
    exact .dropped ref

theorem Moves.tracks (moves : Moves sha256 s action note t)
    (tracks : Tracks given s.pending.recentBlocks)
    (streams : chain.Streams (given ++ givenBlocks [(action, note)])) :
    Tracks (given ++ givenBlocks [(action, note)]) t.pending.recentBlocks ∧
      ∀ b ∈ given, s.pending.recentBlocks.Gone b → t.pending.recentBlocks.Gone b := by
  cases moves with
  | ignored _ _ _ _ _ refused => exact ⟨tracks.refused streams refused, fun _ _ => id⟩
  | added _ _ _ _ _ _ _ added _ =>
    simp only [recentBlocks_orInserts]
    exact tracks.addBlock streams added
  | attempted _ _ _ _ _ _ notified _ _ =>
    simp only [givenBlocks, filterMap_cons, filterMap_nil, append_nil] at streams ⊢
    exact tracks.notify streams notified
  | computed | submitted | dropped =>
    simp only [givenBlocks, filterMap_cons, filterMap_nil, append_nil]
    exact ⟨tracks, fun _ _ => id⟩

/-- The block is gone, or the request was answered or attempted often enough. -/
def Remains (b : BlockViewLite) (id : RequestId) (es : List (Action R A × Note R))
    (s : RequestQueue R A) : Prop :=
  s.pending.recentBlocks.Gone b ∨ id ∈ answered es ∨ maxAttemptsPerRequestAsLeader ≤ attemptsFor id es ∨
    ∃ queued, s.pending.requests.lookup id = some queued ∧ queued.blockHash = b.hash ∧
      queued.blockHeight = b.height ∧ Request.getId queued.request = id ∧
      queued.computationProgress.attempts ≤ attemptsFor id es

omit [Request R] in
theorem lookup_writeProgress (keeps : ∀ progress, (write progress).attempts = progress.attempts)
    (found : s.pending.requests.lookup id = some queued) :
    ∃ queued', (s.writeProgress ref write).pending.requests.lookup id = some queued' ∧
      queued'.blockHash = queued.blockHash ∧ queued'.blockHeight = queued.blockHeight ∧
      queued'.request = queued.request ∧
      queued'.computationProgress.attempts = queued.computationProgress.attempts := by
  simp only [writeProgress, lookup_revise, found, Option.bind_some]
  split
  · exact ⟨_, rfl, rfl, rfl, rfl, keeps _⟩
  · exact ⟨_, rfl, rfl, rfl, rfl, rfl⟩

theorem Moves.remains (moves : Moves sha256 s action note t)
    (gone : s.pending.recentBlocks.Gone b → t.pending.recentBlocks.Gone b)
    (remains : Remains b id es s) : Remains b id (es ++ [(action, note)]) t := by
  obtain old | done | many | ⟨queued, found, hashes, heights, isId, few⟩ := remains
  · exact .inl (gone old)
  · exact .inr (.inl (by simp [done]))
  · exact .inr (.inr (.inl (by rw [attemptsFor_append]; omega)))
  · have written : ∀ (ref : AttemptRef) (write : ComputationProgress A → ComputationProgress A)
        (action : Action R A), (∀ progress, (write progress).attempts = progress.attempts) →
        Remains b id (es ++ [(action, .quiet)]) (s.writeProgress ref write) := by
      intro ref write action keeps
      obtain ⟨queued', found', hashes', heights', same, attempts⟩ := lookup_writeProgress keeps found
      refine .inr (.inr (.inr ⟨queued', found', hashes'.trans hashes, heights'.trans heights,
        same ▸ isId, ?_⟩))
      rw [attemptsFor_append]
      omega
    cases moves with
    | ignored =>
      refine .inr (.inr (.inr ⟨queued, found, hashes, heights, isId, ?_⟩))
      rw [attemptsFor_append]
      omega
    | added now requests _ block recentBlocks newFinalBlocks remaining _ removed =>
      by_cases done : id ∈ newFinalBlocks.flatMap fun block => block.2.completedRequests
      · exact .inr (.inl (by simp [answered, done]))
      · have unanswered : ∀ block ∈ newFinalBlocks, id ∉ block.2.completedRequests := by
          intro block isFinal isDone
          exact done (mem_flatMap.mpr ⟨block, isFinal, isDone⟩)
        have stays := (lookup_removeAllCompleted removed unanswered).trans found
        refine .inr (.inr (.inr ⟨queued, lookup_orInserts requests stays, hashes, heights, isId, ?_⟩))
        rw [attemptsFor_append]
        omega
    | attempted now network eligible maximumHeight pending handed notified requests isHanded =>
      have checked := checked_check pending now s.held eligible queued
      have after : pending.requests.lookup id =
          (pending.check now s.held eligible queued).kept := by
        rw [requests, lookup_revise, found, Option.bind_some]
      generalize verdict : pending.check now s.held eligible queued = looked at checked after
      rw [Remains, attemptsFor_append]
      cases checked with
      | keep queued' same hashes' heights' attempts =>
        exact .inr (.inr (.inr ⟨queued', after, hashes'.trans hashes, heights'.trans heights,
          same ▸ isId, by omega⟩))
      | attempt queued' ref same hashes' heights' attempts active =>
        have inside : ⟨queued'.request, ref⟩ ∈ handed := by
          rw [isHanded, mem_filterMap]
          refine ⟨⟨id, queued⟩, AList.mem_lookup_iff.mp found, ?_⟩
          rw [verdict, Verdict.attempted, active, Option.map_some]
        have one := attemptsFor_pos (.getRequestsToAttempt now network : Action R A) inside
          (same ▸ isId)
        exact .inr (.inr (.inr ⟨queued', after, hashes'.trans hashes, heights'.trans heights,
          same ▸ isId, by omega⟩))
      | exhausted many => exact .inr (.inr (.inl (by omega)))
      | gone givenUp =>
        rw [hashes, heights] at givenUp
        exact .inl (gone_of_classify givenUp)
    | computed ref response => exact written ref _ _ fun _ => rfl
    | submitted ref now => exact written ref _ _ fun _ => rfl
    | dropped ref =>
      refine .inr (.inr (.inr ⟨queued, found, hashes, heights, isId, ?_⟩))
      rw [attemptsFor_append]
      omega

omit [Request R] in
theorem lookup_writeProgress_origin
    (found : (s.writeProgress ref write).pending.requests.lookup id = some queued') :
    ∃ queued, s.pending.requests.lookup id = some queued ∧
      queued.blockHash = queued'.blockHash ∧ queued.blockHeight = queued'.blockHeight := by
  simp only [writeProgress, lookup_revise, Option.bind_eq_some_iff] at found
  obtain ⟨queued, before, rest⟩ := found
  refine ⟨queued, before, ?_⟩
  split at rest <;> cases rest <;> exact ⟨rfl, rfl⟩

theorem Moves.origin (moves : Moves sha256 s action note t)
    (found : t.pending.requests.lookup id = some queued') :
    (∃ queued, s.pending.requests.lookup id = some queued ∧
      queued.blockHash = queued'.blockHash ∧ queued.blockHeight = queued'.blockHeight) ∨
      ∃ block ∈ givenBlocks [(action, note)], queued'.blockHash = block.hash := by
  cases moves with
  | ignored => exact .inl ⟨queued', found, rfl, rfl⟩
  | added now requests _ block recentBlocks newFinalBlocks remaining _ removed =>
    obtain before | ⟨_, isBlock, _⟩ := orInserts_origin requests found
    · exact .inl ⟨queued', removeAllCompleted_origin removed before, rfl, rfl⟩
    · exact .inr ⟨block, by simp [givenBlocks], isBlock⟩
  | attempted now network eligible maximumHeight pending handed notified requests isHanded =>
    rw [requests, lookup_revise, Option.bind_eq_some_iff] at found
    obtain ⟨queued, before, kept⟩ := found
    exact .inl ⟨queued, before, (checked_check pending now s.held eligible queued).kept kept⟩
  | computed => exact .inl (lookup_writeProgress_origin found)
  | submitted => exact .inl (lookup_writeProgress_origin found)
  | dropped => exact .inl ⟨queued', found, rfl, rfl⟩

/-- Every queued request names a block that was given. -/
def NamesGiven (given : List BlockViewLite) (s : RequestQueue R A) : Prop :=
  ∀ id queued, s.pending.requests.lookup id = some queued → ∃ b ∈ given, queued.blockHash = b.hash

variable {allParticipants : List ParticipantId} {myParticipantId : ParticipantId}

theorem tracks_run (run : Run (Acts (act sha256)) ⟨.new allParticipants myParticipantId, []⟩ es s)
    (streams : chain.Streams (givenBlocks es)) :
    Tracks (givenBlocks es) s.pending.recentBlocks ∧ NamesGiven (givenBlocks es) s := by
  revert streams
  apply run.invariant fun es s => chain.Streams (givenBlocks es) →
    Tracks (givenBlocks es) s.pending.recentBlocks ∧ NamesGiven (givenBlocks es) s
  · intro _
    refine ⟨tracks_new requestExpirationBlocks, fun id queued found => ?_⟩
    cases found
  · intro es s e t _ ih acted streams
    obtain ⟨action, note⟩ := e
    rw [givenBlocks_append] at streams ⊢
    obtain ⟨tracks, names⟩ := ih streams.init
    have moves := moves_act acted
    refine ⟨(moves.tracks tracks streams).1, fun id queued found => ?_⟩
    obtain ⟨before, was, same⟩ | ⟨block, isGiven, isBlock⟩ := moves.origin found
    · obtain ⟨b, isB, hashes⟩ := names id before was
      exact ⟨b, mem_append_left _ isB, same.1.symm.trans hashes⟩
    · exact ⟨block, mem_append_right _ isGiven, isBlock⟩

/-- When a block is added, its requests are queued under it, or it has left the window. -/
theorem Moves.enters {requests : List R}
    (moves : Moves sha256 s (.notifyNewBlock now requests completedRequests block)
      (.added newFinalBlocks) t)
    (brings : bringsNew s (.notifyNewBlock now requests completedRequests block))
    (tracks : Tracks given s.pending.recentBlocks) (names : NamesGiven given s)
    (streams : chain.Streams (given ++ [block])) (inside : request ∈ requests) :
    Remains block (Request.getId request) [] t := by
  have gone := (moves.tracks tracks streams).2 block
  cases moves with
  | added _ _ _ _ recentBlocks _ remaining added removed =>
    cases found : remaining.lookup (Request.getId request) with
    | none =>
      have cleaned : AList.lookup (Request.getId request)
          { s.pending with recentBlocks, requests := remaining }.requests = none := found
      obtain ⟨queued, after, ⟨hashes, heights, attempts⟩, isId⟩ :=
        lookup_orInserts_new cleaned ⟨request, inside, rfl⟩
      exact .inr (.inr (.inr ⟨queued, after, hashes, heights, isId, by omega⟩))
    | some queued =>
      -- the request is queued under this block, which was given before and has been pruned
      have before := removeAllCompleted_origin removed found
      have isBlock : queued.blockHash = block.hash := by
        simpa [before] using all_eq_true.mp brings request inside
      obtain ⟨b, isB, hashes⟩ := names _ _ before
      have same := chain.hash_injective (streams.holds (mem_append_left _ isB))
        (streams.holds (by simp)) (hashes.symm.trans isBlock)
      subst same
      refine .inl (gone isB (.inl ?_))
      by_contra recent
      have low := s.pending.recentBlocks.floor_le_windowStart
      obtain ⟨node, held⟩ := tracks.present isB (by omega)
      cases held.symm.trans (addBlock_ok added).1

theorem remains_run
    (run : Run (Acts (act sha256)) start after s)
    (tracks : Tracks (givenBlocks before) start.pending.recentBlocks) (isB : b ∈ givenBlocks before)
    (streams : chain.Streams (givenBlocks (before ++ after))) (remains : Remains b id [] start) :
    Remains b id after s := by
  suffices both : chain.Streams (givenBlocks (before ++ after)) →
      Tracks (givenBlocks (before ++ after)) s.pending.recentBlocks ∧ Remains b id after s from
    (both streams).2
  apply run.invariant fun after s => chain.Streams (givenBlocks (before ++ after)) →
    Tracks (givenBlocks (before ++ after)) s.pending.recentBlocks ∧ Remains b id after s
  · intro _
    rw [append_nil]
    exact ⟨tracks, remains⟩
  · intro es s e t _ ih acted streams
    obtain ⟨action, note⟩ := e
    rw [← append_assoc, givenBlocks_append] at streams ⊢
    obtain ⟨tracks, remains⟩ := ih streams.init
    have moves := moves_act acted
    obtain ⟨tracked, gone⟩ := moves.tracks tracks streams
    refine ⟨tracked, moves.remains (gone b ?_) remains⟩
    rw [givenBlocks_append]
    exact mem_append_left _ isB

/-- If no block brings a request that is queued under another block, a request of a block that is
    final or canonical now is queued under such a block, unless it is completed or used up. -/
theorem included_requests_kept {before after : List (Action R A × Note R)} {now : Instant}
    {requests : List R} {completedRequests : List RequestId} {block : BlockViewLite}
    {newFinalBlocks : List (Nat × BufferedBlockData)} {request : R}
    (run : Run (Guarded (fun s e => bringsNew s e.1) (Acts (act sha256)))
      ⟨.new allParticipants myParticipantId, []⟩
      (before ++ (.notifyNewBlock now requests completedRequests block, .added newFinalBlocks) :: after)
      s)
    (streams : chain.Streams (givenBlocks (before ++
      (.notifyNewBlock now requests completedRequests block, .added newFinalBlocks) :: after)))
    (inside : request ∈ requests)
    (included : Included (s.pending.recentBlocks.classifyBlock block.hash block.height))
    (unanswered : Request.getId request ∉ answered after)
    (few : attemptsFor (Request.getId request) after < maxAttemptsPerRequestAsLeader) :
    Kept s (Request.getId request) := by
  obtain ⟨s₀, s₁, early, ⟨brings, acted⟩, late⟩ := run.at_event
  rw [append_cons] at streams
  have streamed := streams
  rw [givenBlocks_append] at streamed
  have first := streamed.init
  rw [givenBlocks_append] at first
  obtain ⟨tracks, names⟩ := tracks_run early.unguarded first.init
  have moves := moves_act acted
  have enters := moves.enters brings tracks names first inside
  have tracked := (moves.tracks tracks first).1
  rw [← givenBlocks_append] at tracked
  have remains := remains_run late.unguarded tracked (by simp [givenBlocks]) streams enters
  obtain gone | done | many | ⟨queued, found, hashes, heights, _⟩ := remains
  · exact absurd gone (not_gone_of_included included)
  · exact absurd done unanswered
  · omega
  · exact ⟨queued, found, by rwa [hashes, heights]⟩

structure BareRequest where
  id : RequestId
  deriving Repr, DecidableEq

instance : Request BareRequest := ⟨BareRequest.id⟩

private def blockAt (hash height prevHash lastFinalBlock : BitVec 256) : BlockViewLite :=
  ⟨⟨hash⟩, height.toNat, ⟨prevHash⟩, ⟨lastFinalBlock⟩⟩

/-- Blocks 2 and 3 both follow block 1, and block 5 declares block 3 final. -/
private def forkedBlocks : List BlockViewLite :=
  [blockAt 1 1 0 0, blockAt 2 2 1 0, blockAt 3 3 1 0, blockAt 4 4 3 0, blockAt 5 5 4 3]

private def forked : Blockchain where
  Holds b := b ∈ forkedBlocks
  hash_injective {a b} isA isB same := by
    have all : ∀ a ∈ forkedBlocks, ∀ b ∈ forkedBlocks, a.hash = b.hash → a = b := by decide
    exact all a isA b isB same
  height_lt {b p} up := by
    have all : ∀ b ∈ forkedBlocks, ∀ p ∈ forkedBlocks, b.prevHash = p.hash → p.height < b.height := by
      decide
    exact all b up.1 p up.2.1 up.2.2
  final_chain {a b f g} isA isB isF isG first second := by
    have all : ∀ a ∈ forkedBlocks, ∀ b ∈ forkedBlocks, ∀ f ∈ forkedBlocks, ∀ g ∈ forkedBlocks,
        a.lastFinalBlock = f.hash → b.lastFinalBlock = g.hash → f = g := by
      decide +kernel
    rw [all a isA b isB f isF g isG first second]
    exact .inl .refl

private theorem forked_streams : forked.Streams forkedBlocks :=
  Blockchain.streams_of_sorted (fun _ => Iff.rfl) (by decide)

private def forkRequest : BareRequest := ⟨⟨7⟩⟩

/-- SHA-256 on the two inputs of the leader selection for this request. -/
private def leaderSha256 (input : List UInt8) : List UInt8 :=
  if input = [0, 0, 0, 0] ++ forkRequest.id.bytes then
    [228, 44, 10, 5, 123, 40, 69, 16, 2, 120, 47, 15, 31, 47, 220, 133,
      25, 142, 212, 99, 127, 103, 242, 194, 123, 39, 209, 85, 13, 175, 153, 246]
  else if input = [1, 0, 0, 0] ++ forkRequest.id.bytes then
    [247, 110, 253, 66, 81, 250, 179, 167, 184, 147, 145, 221, 191, 90, 230, 237,
      29, 83, 165, 83, 237, 141, 21, 26, 58, 192, 75, 158, 234, 43, 78, 222]
  else []

private def twoParticipants : RequestQueue BareRequest Unit :=
  ⟨.new [⟨0⟩, ⟨1⟩] ⟨0⟩, []⟩

private def bothAlive : NetworkAPIForRequests :=
  ⟨[⟨0⟩, ⟨1⟩], AList.insert ⟨0⟩ 5 (AList.insert ⟨1⟩ 5 ∅)⟩

/-- Participant 0 attempts the request of block 2 once, and the request stays. -/
theorem included_requests_kept_attempted :
    ∃ es s, Run (Acts (act leaderSha256)) twoParticipants es s ∧
      attemptsFor forkRequest.id es = 1 ∧ Kept s forkRequest.id := by
  have ended : ((replay (restrict bringsNew (act leaderSha256)) twoParticipants
      [.notifyNewBlock 0 [] [] (blockAt 1 1 0 0), .notifyNewBlock 1 [forkRequest] [] (blockAt 2 2 1 0),
        .getRequestsToAttempt 2000000000 bothAlive]).map fun r =>
        (r.2.map Prod.snd, r.1.pending.recentBlocks.classifyBlock ⟨2⟩ 2)) =
      some ([.added [], .added [], .attempts [⟨forkRequest, ⟨0, 1⟩⟩]], .optimisticAndCanonical) := by
    decide +kernel
  obtain ⟨⟨s, es⟩, ran, facts⟩ := Option.map_eq_some_iff.mp ended
  obtain ⟨notes, canonical⟩ := Prod.mk.inj facts
  have run := Run.of_restrict (run_of_replay ran)
  obtain rfl := zip_of_prod (inputs_of_replay ran) notes
  refine ⟨_, s, run.unguarded, by decide +kernel, ?_⟩
  have split : Run (Guarded (fun s e => bringsNew s e.1) (Acts (act leaderSha256))) twoParticipants
      ([(.notifyNewBlock 0 [] [] (blockAt 1 1 0 0), .added [])] ++
        (.notifyNewBlock 1 [forkRequest] [] (blockAt 2 2 1 0), .added []) ::
          [(.getRequestsToAttempt 2000000000 bothAlive, .attempts [⟨forkRequest, ⟨0, 1⟩⟩])]) s := run
  have whole : forked.Streams ([blockAt 1 1 0 0, blockAt 2 2 1 0] ++
    [blockAt 3 3 1 0, blockAt 4 4 3 0, blockAt 5 5 4 3]) := forked_streams
  exact included_requests_kept split whole.init (mem_singleton_self _) (.inr canonical)
    (by decide +kernel) (by decide +kernel)

/-- Block 2 of a fork brought the request first, so it is discarded with block 2, unanswered. -/
theorem request_of_final_block_discarded :
    ∃ (chain : Blockchain) (es : List (Action BareRequest Unit × Note BareRequest))
      (s : RequestQueue BareRequest Unit),
      Run (Acts (act leaderSha256)) twoParticipants es s ∧ chain.Streams (givenBlocks es) ∧
      (.notifyNewBlock 2 [forkRequest] [] (blockAt 3 3 1 0), .added []) ∈ es ∧
      s.pending.recentBlocks.classifyBlock ⟨3⟩ 3 = .recentAndFinal ∧
      forkRequest.id ∉ answered es ∧ attemptsFor forkRequest.id es = 0 ∧
      ¬ Kept s forkRequest.id := by
  have ended : ((replay (act leaderSha256) twoParticipants
      [.notifyNewBlock 0 [] [] (blockAt 1 1 0 0), .notifyNewBlock 1 [forkRequest] [] (blockAt 2 2 1 0),
        .notifyNewBlock 2 [forkRequest] [] (blockAt 3 3 1 0), .notifyNewBlock 3 [] [] (blockAt 4 4 3 0),
        .notifyNewBlock 4 [] [] (blockAt 5 5 4 3),
        .getRequestsToAttempt 2000000000 bothAlive]).map fun r =>
        (r.2.map Prod.snd, r.1.pending.recentBlocks.classifyBlock ⟨3⟩ 3,
          r.1.pending.requests.lookup forkRequest.id)) =
      some ([.added [], .added [], .added [], .added [],
        .added [(1, ⟨[], []⟩), (3, ⟨[forkRequest.id], []⟩)], .attempts []],
        .recentAndFinal, none) := by
    decide +kernel
  obtain ⟨⟨s, es⟩, ran, facts⟩ := Option.map_eq_some_iff.mp ended
  obtain ⟨notes, rest⟩ := Prod.mk.inj facts
  obtain ⟨final, absent⟩ := Prod.mk.inj rest
  have run := run_of_replay ran
  obtain rfl := zip_of_prod (inputs_of_replay ran) notes
  refine ⟨forked, _, s, run, forked_streams, ?_, final, by decide +kernel, by decide +kernel, ?_⟩
  · exact .tail _ (.tail _ (.head _))
  · rintro ⟨queued, found, _⟩
    cases found.symm.trans absent

end RequestQueue

end MpcNetwork.Node
