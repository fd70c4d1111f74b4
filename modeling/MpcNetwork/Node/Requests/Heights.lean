import MpcNetwork.Node.Network.Client
import MpcNetwork.Node.Requests.Attempts
import MpcNetwork.Node.Requests.FinalStream

/-! # Arithmetic on block heights

Peers report the heights of their indexers, and the node adds to them as they are.  It also
subtracts the height of the block that brought a request from that of the final block that
answers it.  Arithmetic that leaves 64 bits stops the node.  It does not as long as no reported
height is close to the end of the range and no block that answers a request is lower than one that
brings it.
-/

namespace MpcNetwork.Node

open Runs Table List

namespace Network.MeshNetworkClient

def maxHeightDiff : Nat := 50

/-- The heights of all participants, each as it was reported last. -/
def getIndexerHeights (self : MeshNetworkClient) : Table ParticipantId Nat :=
  self.indexerHeights.mapValues UInt64.toNat

def heightOf (self : MeshNetworkClient) (participant : ParticipantId) : Nat :=
  (self.getIndexerHeights.lookup participant).getD 0

/-- The participants that are connected and not too far behind us, and ourselves. -/
def allAliveParticipantIds (self : MeshNetworkClient) (connected : ParticipantId → Bool) :
    Option (List ParticipantId) := do
  let me := self.transportSender.myId
  let peers ← (self.transportSender.participants.filter fun id => id ≠ me).filterM fun id =>
    if self.heightOf id + maxHeightDiff < UInt64.size then
      some (decide (self.heightOf me ≤ self.heightOf id + maxHeightDiff) && connected id)
    else none
  some ((peers ++ [me]).insertionSort fun a b => a.raw ≤ b.raw)

/-- What the queue of requests asks of the network. -/
def networkApi (self : MeshNetworkClient) (connected : ParticipantId → Bool) :
    Option NetworkAPIForRequests := do
  let aliveParticipants ← self.allAliveParticipantIds connected
  some ⟨aliveParticipants, self.getIndexerHeights⟩

variable {client : MeshNetworkClient}

theorem allAliveParticipantIds_isSome_iff :
    (client.allAliveParticipantIds connected).isSome ↔
      ∀ id ∈ client.transportSender.participants, id ≠ client.transportSender.myId →
        client.heightOf id + maxHeightDiff < UInt64.size := by
  unfold allAliveParticipantIds
  simp only [Option.isSome_iff_exists, Fallible.bind_some_iff,
    Fallible.filterM_eq_some_iff]
  simp only [mem_filter, decide_eq_true_eq]
  constructor
  · rintro ⟨_, _, ⟨answers, _⟩, _⟩ id inside other
    have tested := answers id ⟨inside, other⟩
    by_contra overflow
    simp [overflow] at tested
  · intro low
    refine ⟨_, _, ⟨?_, rfl⟩, rfl⟩
    rintro id ⟨inside, other⟩
    simp [low id inside other]

theorem setHeight_ok (height : UInt64)
    (known : participant ∈ client.transportSender.participants) :
    ∃ after, setHeight participant height client = (.ok (), after) ∧
      after.transportSender = client.transportSender ∧
      ∀ id recorded, after.indexerHeights.lookup id = some recorded →
        client.indexerHeights.lookup id = some recorded ∨ recorded = height := by
  have there := AList.lookup_isSome.mpr (client.tracked participant known)
  obtain ⟨current, found⟩ := Option.isSome_iff_exists.mp there
  have looked : (Jobs.Job.unwrap (some current) : Jobs.Job Error MeshNetworkClient UInt64) client =
      (.ok current, client) := rfl
  rw [setHeight, Jobs.Job.read_bind, found, Jobs.Job.bind_of_ok looked]
  split
  · refine ⟨_, rfl, rfl, fun id recorded after => ?_⟩
    simp only [lookup_insert_eq] at after
    split at after
    · exact .inr (Option.some.inj after).symm
    · exact .inl after
  · exact ⟨client, rfl, rfl, fun id recorded before => .inl before⟩

end Network.MeshNetworkClient

namespace RecentBlocksTracker

open BlockNodes

variable {T : Type} {given : List (BlockViewLite × T)} {block : BlockViewLite} {content : T}

/-- The height and the content of a node are those of one given block. -/
def Recorded (given : List (BlockViewLite × T)) (tracker : RecentBlocksTracker T) : Prop :=
  ∀ hash node content, tracker.hashToNode.lookup hash = some node →
    tracker.nodeToContent.lookup hash = some content →
    ∃ entry ∈ given, entry.1.height = node.height ∧ entry.2 = content

namespace Recorded

variable {self : RecentBlocksTracker T} (recorded : Recorded given self)

include recorded

theorem mono (part : given ⊆ more) : Recorded more self := by
  intro hash node content found stored
  obtain ⟨entry, isGiven, same⟩ := recorded hash node content found stored
  exact ⟨entry, part isGiven, same⟩

theorem of_kept (kept : ∀ hash node', t.hashToNode.lookup hash = some node' →
      (∃ node, self.hashToNode.lookup hash = some node ∧ node'.height = node.height) ∧
      t.nodeToContent.lookup hash = self.nodeToContent.lookup hash) : Recorded given t := by
  intro hash node' content found stored
  obtain ⟨⟨node, before, heights⟩, contents⟩ := kept hash node' found
  rw [heights]
  exact recorded hash node content before (contents ▸ stored)

theorem of_sameLinks (same : SameLinks self.hashToNode t.hashToNode)
    (contents : t.nodeToContent = self.nodeToContent) : Recorded given t := by
  refine recorded.of_kept fun hash node' found => ?_
  obtain ⟨node, before, heights, _⟩ := same.symm.node found
  exact ⟨⟨node, before, heights.symm⟩, by rw [contents]⟩

theorem insertNode (fresh : self.hashToNode.lookup block.hash = none) :
    Recorded (given ++ [(block, content)]) (self.insertNode block content) := by
  intro hash node' stored found isStored
  rw [nodeToContent_insertNode, lookup_insert_eq] at isStored
  by_cases isBlock : hash = block.hash
  · rw [if_pos isBlock] at isStored
    rw [lookup_insertNode fresh, if_pos isBlock] at found
    cases found
    cases isStored
    exact ⟨(block, content), by simp, rfl, rfl⟩
  · rw [if_neg isBlock] at isStored
    obtain ⟨node, before, same, _⟩ := insertNode_origin fresh found isBlock
    obtain ⟨entry, isGiven, heights, contents⟩ := recorded hash node stored before isStored
    exact ⟨entry, mem_append_left _ isGiven, heights.trans (by rw [same]), contents⟩

theorem raised (height : Nat) :
    Recorded given { self with maximumHeightAvailable := height } :=
  recorded

theorem prune (pruned : self.pruneOldBlocks = some t) :
    Recorded given t := by
  obtain ⟨_, kept⟩ := pruneOldBlocks_keeps pruned
  refine recorded.of_kept fun hash node' found => ?_
  obtain ⟨⟨node, before, _, heights⟩, contents⟩ := kept hash node' found
  exact ⟨⟨node, before, heights⟩, contents⟩

theorem addBlock (added : self.addBlock block content = some (.ok (t, reported))) :
    Recorded (given ++ [(block, content)]) t ∧
      ∀ final ∈ reported, ∃ entry ∈ given ++ [(block, content)],
        entry.1.height = final.1 ∧ entry.2 = final.2 := by
  obtain ⟨fresh, finalised, newFinalBlocks, headed, updated, followed, pruned, rfl⟩ :=
    addBlock_ok added
  have contents : finalised.nodeToContent = (self.insertNode block content).nodeToContent := by
    obtain ⟨rfl, _⟩ | ⟨_, _, _, _, _, _, _, rfl⟩ := maybeUpdateFinalHead_ok updated <;> rfl
  have marked : Recorded (given ++ [(block, content)]) finalised :=
    (recorded.insertNode fresh).of_sameLinks (sameLinks_finalise updated) contents
  have coloured : Recorded (given ++ [(block, content)]) headed :=
    marked.of_sameLinks (followHighest_ok followed).nodes.sameLinks (followHighest_frame followed).2
  refine ⟨(coloured.raised _).prune pruned, ?_⟩
  rintro ⟨height, stored⟩ isReported
  simp only [finalBlocks, mem_filterMap, Fallible.bind_some_iff]
    at isReported
  obtain ⟨hash, _, node, found, stored, isStored, same⟩ := isReported
  cases same
  exact marked hash node stored found isStored

theorem notify (notified : self.notifyMaximumHeightAvailable height = some t) : Recorded given t := by
  unfold notifyMaximumHeightAvailable at notified
  split at notified
  · exact (recorded.raised height).prune notified
  · cases notified
    exact recorded

end Recorded

end RecentBlocksTracker

namespace PendingRequests

variable {R A : Type} {requests : Table RequestId (QueuedRequest R A)}

def PartOf (requests left : Table RequestId (QueuedRequest R A)) : Prop :=
  ∀ id queued, left.lookup id = some queued → requests.lookup id = some queued

theorem removeCompleted_total
    {id : RequestId} (part : PartOf requests left)
    (forward : ∀ queued, requests.lookup id = some queued → queued.blockHeight ≤ height) :
    ∃ next, removeCompleted height left id = some next ∧ PartOf requests next := by
  have removes : ∃ next, removeCompleted height left id = some next := by
    unfold removeCompleted
    split
    · exact ⟨_, rfl⟩
    · rename_i queued found
      rw [if_neg (Nat.not_lt.mpr (forward queued (part id queued found)))]
      exact ⟨_, rfl⟩
  obtain ⟨next, removed⟩ := removes
  refine ⟨next, removed, fun other queued found => ?_⟩
  exact part other queued (removeCompleted_origin removed found)

/-- No latency is negative if no final block answers a request of a higher block. -/
theorem removeAllCompleted_total {newFinalBlocks : List (Nat × BufferedBlockData)}
    (forward : ∀ final ∈ newFinalBlocks, ∀ id ∈ final.2.completedRequests, ∀ queued,
      requests.lookup id = some queued → queued.blockHeight ≤ final.1) :
    ∃ remaining, removeAllCompleted requests newFinalBlocks = some remaining := by
  have whole : PartOf requests requests := fun _ _ found => found
  obtain ⟨remaining, removed, _⟩ := Fallible.foldlM_invariant (PartOf requests)
    (fun final isFinal left part => Fallible.foldlM_invariant (PartOf requests)
      (fun id isCompleted left part =>
        removeCompleted_total part (forward final isFinal id isCompleted)) part) whole
  exact ⟨remaining, removed⟩

end PendingRequests

/-- The network client of a node and its queue of requests. -/
structure IndexingNode (R A : Type) where
  client : Network.MeshNetworkClient
  queue : RequestQueue R A

namespace IndexingNode

/-- Our own height is recorded like a peer's. Who is connected may change. -/
inductive Action (R A : Type) where
  | setHeight (participant : ParticipantId) (height : UInt64)
  | allAliveParticipantIds (connected : ParticipantId → Bool)
  | notifyNewBlock (now : Instant) (requests : List R) (completedRequests : List RequestId)
      (block : BlockViewLite)
  | getRequestsToAttempt (now : Instant) (connected : ParticipantId → Bool)
  | writeProgress (ref : AttemptRef) (write : ComputationProgress A → ComputationProgress A)
  | dropAttempt (ref : AttemptRef)

variable {R A : Type} [Request R] (sha256 : List UInt8 → List UInt8)

/-- `none` is a panic, which ends the node. -/
def act (self : IndexingNode R A) : Action R A → Option (IndexingNode R A × RequestQueue.Note R)
  | .setHeight participant height =>
    match Network.MeshNetworkClient.setHeight participant height self.client with
    | (.ok _, client) => some ({ self with client }, .quiet)
    | (.error _, _) => none
  | .allAliveParticipantIds connected => do
    let _ ← self.client.allAliveParticipantIds connected
    some (self, .quiet)
  | .notifyNewBlock now requests completedRequests block => do
    let (queue, note) ←
      self.queue.act sha256 (.notifyNewBlock now requests completedRequests block)
    some ({ self with queue }, note)
  | .getRequestsToAttempt now connected => do
    let network ← self.client.networkApi connected
    let (queue, note) ← self.queue.act sha256 (.getRequestsToAttempt now network)
    some ({ self with queue }, note)
  | .writeProgress ref write =>
    some ({ self with queue := self.queue.writeProgress ref write }, .quiet)
  | .dropAttempt ref =>
    some ({ self with queue :=
      { self.queue with held := self.queue.held.filter fun other => other ≠ ref } }, .quiet)

/-- The block of an action, with what the queue keeps of its content. -/
def Action.given : Action R A → Option (BlockViewLite × BufferedBlockData)
  | .notifyNewBlock _ requests completedRequests block =>
    some (block, ⟨requests.map Request.getId, completedRequests⟩)
  | _ => none

/-- A height that is reported is one of a participant and not close to the end of the range. -/
def Action.Low (participants : List ParticipantId) : Action R A → Prop
  | .setHeight participant height =>
    participant ∈ participants ∧
      height.toNat + Network.MeshNetworkClient.maxHeightDiff < UInt64.size
  | _ => True

/-- No block that answers a request is lower than one that brings it. -/
def AnswersFollow (given : List (BlockViewLite × BufferedBlockData)) : Prop :=
  ∀ bringing ∈ given, ∀ answering ∈ given, ∀ id ∈ bringing.2.requests,
    id ∈ answering.2.completedRequests → bringing.1.height ≤ answering.1.height

theorem AnswersFollow.mono (follow : AnswersFollow more) (part : given ⊆ more) :
    AnswersFollow given :=
  fun bringing isBringing answering isAnswering =>
    follow bringing (part isBringing) answering (part isAnswering)

/-- Recorded heights are low, and what is queued or buffered came with a given block. -/
structure Bounded (participants : List ParticipantId)
    (given : List (BlockViewLite × BufferedBlockData)) (s : IndexingNode R A) : Prop where
  members : s.client.transportSender.participants = participants
  low : ∀ id height, s.client.indexerHeights.lookup id = some height →
    height.toNat + Network.MeshNetworkClient.maxHeightDiff < UInt64.size
  tree : ∃ added, RecentBlocksTracker.Tree added s.queue.pending.recentBlocks ∧
    RecentBlocksTracker.Topped added s.queue.pending.recentBlocks
  recorded : RecentBlocksTracker.Recorded given s.queue.pending.recentBlocks
  queued : ∀ id queued, s.queue.pending.requests.lookup id = some queued →
    ∃ bringing ∈ given, id ∈ bringing.2.requests ∧ bringing.1.height = queued.blockHeight

namespace Bounded

variable {sha256} {s : IndexingNode R A} (bounded : Bounded participants given s)

include bounded

omit [Request R] in
theorem heightOf_low (id : ParticipantId) :
    s.client.heightOf id + Network.MeshNetworkClient.maxHeightDiff < UInt64.size := by
  unfold Network.MeshNetworkClient.heightOf Network.MeshNetworkClient.getIndexerHeights
  rw [lookup_mapValues]
  cases found : s.client.indexerHeights.lookup id with
  | none => decide
  | some height => exact bounded.low id height found

omit [Request R] in
theorem notStale (id : ParticipantId) :
    NetworkAPIForRequests.height ⟨aliveParticipants, s.client.getIndexerHeights⟩ id +
      staleParticipantThreshold < UInt64.size :=
  Nat.lt_of_le_of_lt (Nat.add_le_add_left (by decide) _) (bounded.heightOf_low id)

omit [Request R] in
theorem alive (connected : ParticipantId → Bool) :
    ∃ aliveParticipants, s.client.allAliveParticipantIds connected = some aliveParticipants := by
  rw [← Option.isSome_iff_exists, Network.MeshNetworkClient.allAliveParticipantIds_isSome_iff]
  intro id _ _
  exact bounded.heightOf_low id

theorem setHeight (known : participant ∈ participants)
    (low : height.toNat + Network.MeshNetworkClient.maxHeightDiff < UInt64.size) :
    ∃ t note, s.act sha256 (.setHeight participant height) = some (t, note) ∧
      Bounded participants given t := by
  rw [← bounded.members] at known
  obtain ⟨after, done, sameTransport, heights⟩ :=
    Network.MeshNetworkClient.setHeight_ok height known
  refine ⟨{ s with client := after }, .quiet, by simp only [act, done], ?_⟩
  refine { bounded with members := ?_, low := ?_ }
  · exact (congrArg _ sameTransport).trans bounded.members
  · intro id recorded found
    obtain before | rfl := heights id recorded found
    · exact bounded.low id recorded before
    · exact low

theorem notifyNewBlock (follow : AnswersFollow
      (given ++ [(block, ⟨requests.map Request.getId, completedRequests⟩)])) :
    ∃ t note, s.act sha256 (.notifyNewBlock now requests completedRequests block) =
        some (t, note) ∧
      Bounded participants
        (given ++ [(block, ⟨requests.map Request.getId, completedRequests⟩)]) t := by
  have brought : ∀ id queued, s.queue.pending.requests.lookup id = some queued →
      ∃ bringing ∈ given ++ [(block, ⟨requests.map Request.getId, completedRequests⟩)],
        id ∈ bringing.2.requests ∧ bringing.1.height = queued.blockHeight := by
    intro id queued found
    obtain ⟨bringing, isGiven, brings⟩ := bounded.queued id queued found
    exact ⟨bringing, mem_append_left _ isGiven, brings⟩
  cases known : s.queue.pending.recentBlocks.hashToNode.lookup block.hash with
  | some node =>
    refine ⟨s, .quiet, ?_, ?_⟩
    · simp [act, RequestQueue.act, PendingRequests.notifyNewBlock,
        RecentBlocksTracker.addBlock, known]
    · exact { bounded with
        recorded := bounded.recorded.mono (subset_append_left _ _), queued := brought }
  | none =>
    obtain ⟨added, tree, topped⟩ := bounded.tree
    obtain ⟨recentBlocks, newFinalBlocks, done, tree', topped', _⟩ :=
      tree.addBlock topped known ⟨requests.map Request.getId, completedRequests⟩
    obtain ⟨recorded', reported⟩ := bounded.recorded.addBlock done
    have forward : ∀ final ∈ newFinalBlocks, ∀ id ∈ final.2.completedRequests, ∀ queued,
        s.queue.pending.requests.lookup id = some queued → queued.blockHeight ≤ final.1 := by
      intro final isFinal id isCompleted queued found
      obtain ⟨bringing, isGiven, brings, heights⟩ := brought id queued found
      obtain ⟨answering, isAnswering, sameHeight, content⟩ := reported final isFinal
      rw [← content] at isCompleted
      rw [← heights, ← sameHeight]
      exact follow bringing isGiven answering isAnswering id brings isCompleted
    obtain ⟨remaining, removed⟩ := PendingRequests.removeAllCompleted_total forward
    refine ⟨⟨s.client, ⟨requests.foldl (PendingRequests.orInsert sha256 now block)
      { s.queue.pending with recentBlocks, requests := remaining }, s.queue.held⟩⟩,
      .added newFinalBlocks, ?_, ?_⟩
    · simp [act, RequestQueue.act, PendingRequests.notifyNewBlock, done, removed]
    · refine ⟨bounded.members, bounded.low, ⟨added ++ [block], ?_, ?_⟩, ?_, ?_⟩
      · rw [PendingRequests.recentBlocks_orInserts]
        exact tree'
      · rw [PendingRequests.recentBlocks_orInserts]
        exact topped'
      · rw [PendingRequests.recentBlocks_orInserts]
        exact recorded'
      · intro id queued found
        obtain before | ⟨isNew, _, heights⟩ := PendingRequests.orInserts_origin requests found
        · exact brought id queued (PendingRequests.removeAllCompleted_origin removed before)
        · exact ⟨_, mem_append_right _ (mem_singleton_self _), isNew, heights.symm⟩

theorem getRequestsToAttempt (connected : ParticipantId → Bool) :
    ∃ t note, s.act sha256 (.getRequestsToAttempt now connected) = some (t, note) ∧
      Bounded participants given t := by
  obtain ⟨aliveParticipants, isAlive⟩ := bounded.alive connected
  obtain ⟨eligibleLeaders, maximumHeight, isEligible⟩ := s.queue.pending.eligible_total
    fun p (_ : p ∈ aliveParticipants) => bounded.notStale p
  obtain ⟨added, tree, topped⟩ := bounded.tree
  obtain ⟨recentBlocks, notified, tree', topped', _⟩ := tree.notify topped maximumHeight
  have acts : ∃ queue note, s.queue.act sha256 (.getRequestsToAttempt now
      ⟨aliveParticipants, s.client.getIndexerHeights⟩) = some (queue, note) := by
    simp [RequestQueue.act, PendingRequests.getRequestsToAttempt, isEligible, notified]
  obtain ⟨queue, note, acted⟩ := acts
  refine ⟨{ s with queue }, note, ?_, ?_⟩
  · simp [act, Network.MeshNetworkClient.networkApi, isAlive, acted]
  · obtain ⟨_, _, _, _, _, attempted⟩ := RequestQueue.act_attempts acted
    cases isEligible.symm.trans attempted.eligible
    cases notified.symm.trans attempted.notified
    cases attempted.isAfter
    refine ⟨bounded.members, bounded.low, ⟨added, tree', topped'⟩,
      bounded.recorded.notify notified, ?_⟩
    intro id queued' found
    simp only [lookup_revise, Option.bind_eq_some_iff] at found
    obtain ⟨queued, before, kept⟩ := found
    have same := (PendingRequests.checked_check _ _ _ _ queued).kept kept
    exact same.2 ▸ bounded.queued id queued before

omit [Request R] in
theorem writeProgress (ref : AttemptRef)
    (write : ComputationProgress A → ComputationProgress A) :
    Bounded participants given { s with queue := s.queue.writeProgress ref write } := by
  refine { bounded with queued := ?_ }
  intro id queued' found
  obtain ⟨queued, before, _, heights⟩ := RequestQueue.lookup_writeProgress_origin found
  exact heights ▸ bounded.queued id queued before

theorem step (sha256 : List UInt8 → List UInt8)
    (low : action.Low participants) (follow : AnswersFollow (given ++ action.given.toList)) :
    ∃ t note, s.act sha256 action = some (t, note) ∧
      Bounded participants (given ++ action.given.toList) t := by
  cases action with
  | notifyNewBlock now requests completedRequests block => exact bounded.notifyNewBlock follow
  | setHeight participant height =>
    simp only [Action.given, Option.toList_none, append_nil]
    exact bounded.setHeight low.1 low.2
  | allAliveParticipantIds connected =>
    obtain ⟨aliveParticipants, isAlive⟩ := bounded.alive connected
    simp only [Action.given, Option.toList_none, append_nil]
    exact ⟨s, .quiet, by simp [act, isAlive], bounded⟩
  | getRequestsToAttempt now connected =>
    simp only [Action.given, Option.toList_none, append_nil]
    exact bounded.getRequestsToAttempt connected
  | writeProgress ref write =>
    simp only [Action.given, Option.toList_none, append_nil]
    exact ⟨_, .quiet, rfl, bounded.writeProgress ref write⟩
  | dropAttempt ref =>
    simp only [Action.given, Option.toList_none, append_nil]
    exact ⟨_, .quiet, rfl, { bounded with }⟩

theorem run (sha256 : List UInt8 → List UInt8)
    (low : ∀ action ∈ actions, action.Low participants)
    (follow : AnswersFollow (given ++ actions.filterMap Action.given)) :
    ∃ t es, replay (act sha256) s actions = some (t, es) ∧
      Bounded participants (given ++ actions.filterMap Action.given) t := by
  induction actions generalizing given s bounded with
  | nil => exact ⟨s, [], rfl, by simpa using bounded⟩
  | cons action actions ih =>
    have unfolded : given ++ (action :: actions).filterMap Action.given =
        given ++ action.given.toList ++ actions.filterMap Action.given := by
      rw [append_assoc]
      cases brings : action.given <;> simp [brings]
    rw [unfolded] at follow ⊢
    obtain ⟨t, note, acted, bounded'⟩ := bounded.step sha256 (low action mem_cons_self)
      (follow.mono (subset_append_left _ _))
    obtain ⟨u, es, rest, bounded''⟩ :=
      ih bounded' (fun action later => low action (mem_cons_of_mem _ later)) follow
    exact ⟨u, (action, note) :: es, by simp [replay, acted, rest], bounded''⟩

end Bounded

/-- A node that starts: nobody has reported a height, and no block was given. -/
structure Starts (s : IndexingNode R A) : Prop where
  silent : ∀ id height, s.client.indexerHeights.lookup id = some height → height = 0
  queue : ∃ allParticipants myParticipantId, s.queue = ⟨.new allParticipants myParticipantId, []⟩

omit [Request R] in
theorem Starts.bounded (starts : Starts s) :
    Bounded s.client.transportSender.participants [] s := by
  obtain ⟨client, queue⟩ := s
  obtain ⟨allParticipants, myParticipantId, rfl⟩ := starts.queue
  have sound := RecentBlocksTracker.sound_new (T := BufferedBlockData) requestExpirationBlocks
  refine ⟨rfl, ?_, ⟨[], sound.tree, sound.topped⟩, ?_, ?_⟩
  · intro id height found
    rw [starts.silent id height found]
    decide
  · intro hash node content found
    cases found
  · intro id queued found
    cases found

/-- No arithmetic on heights panics if heights are reported by participants, are not within 50 of
    the end of the range, and no block that answers a request is lower than one that brings it. -/
theorem height_arithmetic_total {s : IndexingNode R A} (starts : Starts s)
    (actions : List (Action R A))
    (low : ∀ action ∈ actions, action.Low s.client.transportSender.participants)
    (follow : AnswersFollow (actions.filterMap Action.given)) :
    ∃ t es, replay (act sha256) s actions = some (t, es) := by
  obtain ⟨t, es, ran, _⟩ := starts.bounded.run sha256 low follow
  exact ⟨t, es, ran⟩

private def twoIds : List ParticipantId := [⟨0⟩, ⟨1⟩]

/-- Participant 0 of two before anything happens. -/
private def firstIndexer : IndexingNode RequestQueue.BareRequest Unit where
  client :=
    { transportSender := .new ⟨0⟩ twoIds
      channels := .new
      indexerHeights := AList.insert ⟨1⟩ 0 (AList.insert ⟨0⟩ 0 ∅)
      tracked := by decide
      newChannels := []
      newChannelReceiverAlive := true }
  queue := ⟨.new twoIds ⟨0⟩, []⟩

private theorem firstIndexer_starts : Starts firstIndexer := by
  refine ⟨fun id height found => ?_, twoIds, ⟨0⟩, rfl⟩
  simp only [firstIndexer, lookup_insert_eq] at found
  split at found
  · exact (Option.some.inj found).symm
  · split at found
    · exact (Option.some.inj found).symm
    · cases found

private def seventhRequest : RequestQueue.BareRequest := ⟨⟨7⟩⟩

/-- SHA-256 on the two inputs of the leader selection for this request. -/
private def seventhSha256 (input : List UInt8) : List UInt8 :=
  if input = [0, 0, 0, 0] ++ seventhRequest.id.bytes then
    [228, 44, 10, 5, 123, 40, 69, 16, 2, 120, 47, 15, 31, 47, 220, 133,
      25, 142, 212, 99, 127, 103, 242, 194, 123, 39, 209, 85, 13, 175, 153, 246]
  else if input = [1, 0, 0, 0] ++ seventhRequest.id.bytes then
    [247, 110, 253, 66, 81, 250, 179, 167, 184, 147, 145, 221, 191, 90, 230, 237,
      29, 83, 165, 83, 237, 141, 21, 26, 58, 192, 75, 158, 234, 43, 78, 222]
  else []

private def plainBlock (hash height prevHash lastFinalBlock : BitVec 256) : BlockViewLite :=
  ⟨⟨hash⟩, height.toNat, ⟨prevHash⟩, ⟨lastFinalBlock⟩⟩

/-- A request is answered one block after the one that brings it. -/
theorem height_arithmetic_of_answered_request :
    ∃ t es, replay (act seventhSha256) firstIndexer
      [.setHeight ⟨1⟩ 3, .allAliveParticipantIds fun _ => true,
        .notifyNewBlock 0 [seventhRequest] [] (plainBlock 1 1 0 0),
        .notifyNewBlock 1 [] [seventhRequest.id] (plainBlock 2 2 1 0),
        .notifyNewBlock 2 [] [] (plainBlock 3 3 2 0),
        .notifyNewBlock 3 [] [] (plainBlock 4 4 3 2),
        .getRequestsToAttempt 2000000000 fun _ => true] = some (t, es) := by
  refine height_arithmetic_total seventhSha256 firstIndexer_starts _ ?_ ?_
  · simp only [forall_mem_cons, Action.Low, and_true, not_mem_nil, false_implies,
      implies_true]
    decide
  · unfold AnswersFollow
    decide

/-- Block 2 is on a fork and brings the request first; block 4 answers it. -/
private def overtakenBlocks : List BlockViewLite :=
  [plainBlock 1 1 0 0, plainBlock 2 9 1 0, plainBlock 3 2 1 0, plainBlock 4 3 3 0,
    plainBlock 5 4 4 0, plainBlock 6 5 5 4]

private def overtaken : Blockchain where
  Holds b := b ∈ overtakenBlocks
  hash_injective {a b} isA isB same := by
    have all : ∀ a ∈ overtakenBlocks, ∀ b ∈ overtakenBlocks, a.hash = b.hash → a = b := by decide
    exact all a isA b isB same
  height_lt {b p} up := by
    have all : ∀ b ∈ overtakenBlocks, ∀ p ∈ overtakenBlocks, b.prevHash = p.hash →
        p.height < b.height := by
      decide
    exact all b up.1 p up.2.1 up.2.2
  final_chain {a b f g} isA isB isF isG first second := by
    have all : ∀ a ∈ overtakenBlocks, ∀ b ∈ overtakenBlocks, ∀ f ∈ overtakenBlocks,
        ∀ g ∈ overtakenBlocks, a.lastFinalBlock = f.hash → b.lastFinalBlock = g.hash → f = g := by
      decide +kernel
    rw [all a isA b isB f isF g isG first second]
    exact .inl .refl

private theorem overtaken_streams : overtaken.Streams overtakenBlocks := by
  refine Blockchain.streams_of_ranked (fun b => b.hash.value.toNat) (fun _ => Iff.rfl) ?_ (by decide)
  rintro block parent ⟨isBlock, isParent, up⟩
  have all : ∀ b ∈ overtakenBlocks, ∀ p ∈ overtakenBlocks, b.prevHash = p.hash →
      p.hash.value.toNat < b.hash.value.toNat := by
    decide
  exact all block isBlock parent isParent up

private def overtakenActions : List (Action RequestQueue.BareRequest Unit) :=
  [.notifyNewBlock 0 [] [] (plainBlock 1 1 0 0),
    .notifyNewBlock 1 [seventhRequest] [] (plainBlock 2 9 1 0),
    .notifyNewBlock 2 [seventhRequest] [] (plainBlock 3 2 1 0),
    .notifyNewBlock 3 [] [seventhRequest.id] (plainBlock 4 3 3 0),
    .notifyNewBlock 4 [] [] (plainBlock 5 4 4 0),
    .notifyNewBlock 5 [] [] (plainBlock 6 5 5 4)]

/-- The node stops on a peer with the greatest height, and when the final block that answers a
    request is lower than the block of a fork that brought it. -/
theorem height_arithmetic_leaves_range :
    replay (act seventhSha256) firstIndexer
        [.setHeight ⟨1⟩ 18446744073709551615, .allAliveParticipantIds fun _ => true] = none ∧
      firstIndexer.queue.pending.eligibleLeadersAndMaximumHeight
        ⟨twoIds, AList.insert ⟨1⟩ 18446744073709551615 ∅⟩ = none ∧
      overtaken.Streams ((overtakenActions.filterMap Action.given).map Prod.fst) ∧
      replay (act seventhSha256) firstIndexer overtakenActions = none := by
  refine ⟨?_, ?_, overtaken_streams, ?_⟩
  all_goals decide +kernel

end IndexingNode

end MpcNetwork.Node
