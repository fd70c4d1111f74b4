import Mathlib.Data.Finset.Max
import Mathlib.Data.Prod.Lex
import MpcNetwork.Node.Requests.Attempts

/-! # Agreement on leaders

Every node selects leaders on its own, from the order of the participants for a request and from
what it sees of the network.  The leader is the eligible participant with the least key, so nodes
that see the same network select the same leader, in whatever order they list the participants.
-/

namespace MpcNetwork.Node

open Runs List

section Order

variable (sha256 : List UInt8 → List UInt8) (requestId : RequestId)

/-- Participants are ordered by hash and then by id. -/
def leaderKey (p : ParticipantId) : ℕ ×ₗ ℕ :=
  toLex (leaderSelectionHash sha256 p requestId, p.raw.toNat)

theorem leaderKey_injective : Function.Injective (leaderKey sha256 requestId) := by
  intro p q same
  have raws : p.raw.toNat = q.raw.toNat := congrArg (fun key => (ofLex key).2) same
  cases p
  cases q
  exact congrArg _ (UInt32.toNat_inj.mp raws)

private theorem precedes_iff {a b : Nat × ParticipantId} :
    (a.1 < b.1 ∨ a.1 = b.1 ∧ a.2.raw ≤ b.2.raw) ↔
      toLex (a.1, a.2.raw.toNat) ≤ toLex (b.1, b.2.raw.toNat) := by
  rw [Prod.Lex.toLex_le_toLex, UInt32.le_iff_toNat_le]

theorem leaderSelectionOrder_sorted (participants : List ParticipantId) :
    (leaderSelectionOrder sha256 participants requestId).Pairwise fun p q =>
      leaderKey sha256 requestId p ≤ leaderKey sha256 requestId q := by
  have total : Std.Total fun a b : Nat × ParticipantId =>
      a.1 < b.1 ∨ a.1 = b.1 ∧ a.2.raw ≤ b.2.raw := by
    refine ⟨fun a b => ?_⟩
    rw [precedes_iff, precedes_iff]
    exact le_total _ _
  have transitive : IsTrans (Nat × ParticipantId) fun a b =>
      a.1 < b.1 ∨ a.1 = b.1 ∧ a.2.raw ≤ b.2.raw := by
    refine ⟨fun a b c => ?_⟩
    simp only [precedes_iff]
    exact le_trans
  rw [leaderSelectionOrder, pairwise_map]
  refine (pairwise_insertionSort _ _).imp_of_mem fun {a b} isA isB before => ?_
  rw [precedes_iff] at before
  simp only [mem_insertionSort, mem_map] at isA isB
  obtain ⟨p, _, rfl⟩ := isA
  obtain ⟨q, _, rfl⟩ := isB
  exact before

end Order

namespace NetworkAPIForRequests

variable {network : NetworkAPIForRequests}

theorem eligible_iff_forall :
    network.Eligible p ↔ p ∈ network.aliveParticipants ∧
      ∀ q ∈ network.aliveParticipants,
        network.height q ≤ network.height p + staleParticipantThreshold := by
  refine and_congr_right fun isAlive => ?_
  cases greatest : (network.aliveParticipants.map network.height).max? with
  | none =>
    rw [max?_eq_none_iff, map_eq_nil_iff] at greatest
    rw [greatest] at isAlive
    cases isAlive
  | some maximumHeight =>
    rw [Option.getD_some, max?_le_iff greatest, forall_mem_map]

theorem exists_eligible (someone : network.aliveParticipants ≠ []) : ∃ p, network.Eligible p := by
  have nonempty := toFinset_nonempty_iff _ |>.mpr someone
  obtain ⟨p, isAlive, highest⟩ :=
    Finset.exists_max_image network.aliveParticipants.toFinset network.height nonempty
  refine ⟨p, eligible_iff_forall.mpr ⟨mem_toFinset.mp isAlive, fun q other => ?_⟩⟩
  exact Nat.le_add_right_of_le (highest q (mem_toFinset.mpr other))

end NetworkAPIForRequests

/-- A queue, the entry of the request in it, and what the node sees of the network. -/
structure LeaderView (sha256 : List UInt8 → List UInt8) (R A : Type) [Request R] where
  pending : PendingRequests R A
  queued : QueuedRequest R A
  network : NetworkAPIForRequests
  ordered : queued.leaderSelectionOrder =
    leaderSelectionOrder sha256 pending.allParticipants (Request.getId queued.request)

namespace LeaderView

variable {sha256 : List UInt8 → List UInt8} {R A : Type} [Request R]

def requestId (view : LeaderView sha256 R A) : RequestId := Request.getId view.queued.request

/-- `none` is a panic. -/
def eligibleLeaders (view : LeaderView sha256 R A) : Option (List ParticipantId) :=
  (view.pending.eligibleLeadersAndMaximumHeight view.network).map Prod.fst

def selectedLeader (view : LeaderView sha256 R A) : Option ParticipantId := do
  view.queued.currentLeader (← view.eligibleLeaders)

/-- Somebody is alive, all who are take part, and heights are not near the end of the range. -/
structure Healthy (view : LeaderView sha256 R A) : Prop where
  someone : view.network.aliveParticipants ≠ []
  inside : view.network.aliveParticipants ⊆ view.pending.allParticipants
  inRange : ∀ p ∈ view.network.aliveParticipants,
    view.network.height p + staleParticipantThreshold < UInt64.size

/-- The participant is the eligible one with the least key. -/
structure Leads (view : LeaderView sha256 R A) (p : ParticipantId) : Prop where
  eligible : view.network.Eligible p
  least : ∀ q, view.network.Eligible q →
    leaderKey sha256 view.requestId p ≤ leaderKey sha256 view.requestId q

variable {view : LeaderView sha256 R A} {p : ParticipantId}

theorem Leads.unique (first : view.Leads p) (second : view.Leads q) : p = q :=
  leaderKey_injective sha256 view.requestId
    (le_antisymm (first.least q second.eligible) (second.least p first.eligible))

theorem Healthy.eligibleLeaders (healthy : view.Healthy) :
    ∃ eligible, view.eligibleLeaders = some eligible ∧
      ∀ p, p ∈ eligible ↔ view.network.Eligible p := by
  obtain ⟨eligible, maximumHeight, done⟩ := view.pending.eligible_total healthy.inRange
  refine ⟨eligible, by rw [LeaderView.eligibleLeaders, done]; rfl, fun p => ?_⟩
  rw [PendingRequests.eligible_iff done]
  exact and_iff_right_of_imp fun isEligible => healthy.inside isEligible.1

theorem Healthy.selects (healthy : view.Healthy) :
    ∃ p, view.selectedLeader = some p ∧ view.Leads p := by
  obtain ⟨eligible, isEligible, mem⟩ := healthy.eligibleLeaders
  obtain ⟨candidate, candidates⟩ := NetworkAPIForRequests.exists_eligible healthy.someone
  have listed : ∀ p, view.network.Eligible p → p ∈ view.queued.leaderSelectionOrder := by
    intro p eligible
    rw [view.ordered, mem_leaderSelectionOrder]
    exact healthy.inside eligible.1
  have found : (view.queued.currentLeader eligible).isSome := by
    rw [QueuedRequest.currentLeader, find?_isSome]
    exact ⟨candidate, listed candidate candidates, decide_eq_true ((mem candidate).mpr candidates)⟩
  obtain ⟨p, selected⟩ := Option.isSome_iff_exists.mp found
  refine ⟨p, by simp [selectedLeader, isEligible, selected], ?_⟩
  obtain ⟨accepted, front, back, split, earlier⟩ := find?_eq_some_iff_append.mp selected
  have sorted := leaderSelectionOrder_sorted sha256 view.requestId view.pending.allParticipants
  have order : leaderSelectionOrder sha256 view.pending.allParticipants view.requestId =
      front ++ p :: back := view.ordered.symm.trans split
  rw [order, pairwise_append, pairwise_cons] at sorted
  refine ⟨(mem p).mp (of_decide_eq_true accepted), fun q eligible => ?_⟩
  have inside := listed q eligible
  rw [split, mem_append, mem_cons] at inside
  obtain isEarlier | rfl | later := inside
  · have refused := earlier q isEarlier
    simp [(mem q).mpr eligible] at refused
  · exact le_rfl
  · exact sorted.2.1.1 q later

theorem Healthy.selectedLeader_iff (healthy : view.Healthy) :
    view.selectedLeader = some p ↔ view.Leads p := by
  obtain ⟨leader, selected, leads⟩ := healthy.selects
  rw [selected, Option.some.injEq]
  constructor
  · rintro rfl
    exact leads
  · exact leads.unique

/-- The same request, the same participants in any order, and the same network. -/
structure Alike (first second : LeaderView sha256 R A) : Prop where
  request : first.requestId = second.requestId
  participants : ∀ p, p ∈ first.pending.allParticipants ↔ p ∈ second.pending.allParticipants
  alive : ∀ p, p ∈ first.network.aliveParticipants ↔ p ∈ second.network.aliveParticipants
  heights : ∀ p, first.network.height p = second.network.height p

variable {first second : LeaderView sha256 R A}

theorem Alike.eligible_iff (alike : Alike first second) :
    first.network.Eligible p ↔ second.network.Eligible p := by
  simp only [NetworkAPIForRequests.eligible_iff_forall, alike.alive, alike.heights]

theorem Alike.leads_iff (alike : Alike first second) : first.Leads p ↔ second.Leads p := by
  constructor
  · intro leads
    refine ⟨alike.eligible_iff.mp leads.eligible, fun q eligible => ?_⟩
    rw [← alike.request]
    exact leads.least q (alike.eligible_iff.mpr eligible)
  · intro leads
    refine ⟨alike.eligible_iff.mpr leads.eligible, fun q eligible => ?_⟩
    rw [alike.request]
    exact leads.least q (alike.eligible_iff.mp eligible)

theorem Alike.healthy (alike : Alike first second) (healthy : first.Healthy) : second.Healthy where
  someone := by
    intro nobody
    obtain ⟨p, isAlive⟩ := exists_mem_of_ne_nil _ healthy.someone
    have stillAlive := (alike.alive p).mp isAlive
    rw [nobody] at stillAlive
    cases stillAlive
  inside p isAlive := (alike.participants p).mp (healthy.inside ((alike.alive p).mpr isAlive))
  inRange p isAlive := by
    rw [← alike.heights]
    exact healthy.inRange p ((alike.alive p).mpr isAlive)

/-- Nodes with a common view agree on a leader, and exactly one participant selects itself. -/
theorem leader_agreement (healthy : first.Healthy) :
    (∀ second, Alike first second →
      ∃ firstEligible secondEligible leader, first.eligibleLeaders = some firstEligible ∧
        second.eligibleLeaders = some secondEligible ∧
        (∀ p, p ∈ firstEligible ↔ p ∈ secondEligible) ∧
        first.selectedLeader = some leader ∧ second.selectedLeader = some leader) ∧
    ∀ views : ParticipantId → LeaderView sha256 R A,
      (∀ p ∈ first.pending.allParticipants,
        (views p).pending.myParticipantId = p ∧ Alike first (views p)) →
      ∃! p, p ∈ first.pending.allParticipants ∧
        (views p).selectedLeader = some (views p).pending.myParticipantId := by
  obtain ⟨leader, selected, leads⟩ := healthy.selects
  constructor
  · intro second alike
    have healthy' := alike.healthy healthy
    obtain ⟨firstEligible, isFirst, mem⟩ := healthy.eligibleLeaders
    obtain ⟨secondEligible, isSecond, mem'⟩ := healthy'.eligibleLeaders
    refine ⟨firstEligible, secondEligible, leader, isFirst, isSecond, fun p => ?_, selected, ?_⟩
    · rw [mem, mem', alike.eligible_iff]
    · exact healthy'.selectedLeader_iff.mpr (alike.leads_iff.mp leads)
  · intro views common
    have selects : ∀ p ∈ first.pending.allParticipants,
        ((views p).selectedLeader = some (views p).pending.myParticipantId ↔ first.Leads p) := by
      intro p isParticipant
      obtain ⟨isMe, alike⟩ := common p isParticipant
      rw [isMe, (alike.healthy healthy).selectedLeader_iff, alike.leads_iff]
    have isParticipant := healthy.inside leads.eligible.1
    refine ⟨leader, ⟨isParticipant, (selects leader isParticipant).mpr leads⟩, ?_⟩
    rintro p ⟨isOther, selectsItself⟩
    exact ((selects p isOther).mp selectsItself).unique leads

private def fifthRequest : RequestQueue.BareRequest := ⟨⟨7⟩⟩

/-- SHA-256 on the two inputs of the leader selection for this request. -/
private def fifthSha256 (input : List UInt8) : List UInt8 :=
  if input = [0, 0, 0, 0] ++ fifthRequest.id.bytes then
    [228, 44, 10, 5, 123, 40, 69, 16, 2, 120, 47, 15, 31, 47, 220, 133,
      25, 142, 212, 99, 127, 103, 242, 194, 123, 39, 209, 85, 13, 175, 153, 246]
  else if input = [1, 0, 0, 0] ++ fifthRequest.id.bytes then
    [247, 110, 253, 66, 81, 250, 179, 167, 184, 147, 145, 221, 191, 90, 230, 237,
      29, 83, 165, 83, 237, 141, 21, 26, 58, 192, 75, 158, 234, 43, 78, 222]
  else []

/-- Participant 1 lists the participants the other way round. -/
private def listOf (p : ParticipantId) : List ParticipantId :=
  if p = ⟨1⟩ then [⟨1⟩, ⟨0⟩] else [⟨0⟩, ⟨1⟩]

private theorem mem_listOf : q ∈ listOf p ↔ q = ⟨0⟩ ∨ q = ⟨1⟩ := by
  unfold listOf
  split <;> simp [or_comm]

private def viewOf (p : ParticipantId) : LeaderView fifthSha256 RequestQueue.BareRequest Unit where
  pending := .new (listOf p) p
  queued := .new fifthSha256 0 fifthRequest ⟨1⟩ 1 (listOf p) 0
  network := ⟨[⟨0⟩, ⟨1⟩], AList.insert ⟨0⟩ 5 (AList.insert ⟨1⟩ 9 ∅)⟩
  ordered := rfl

private theorem viewOf_healthy : (viewOf ⟨0⟩).Healthy where
  someone := by decide
  inside := fun p isAlive => isAlive
  inRange := by decide

private theorem viewOf_alike (p : ParticipantId) : Alike (viewOf ⟨0⟩) (viewOf p) where
  request := rfl
  participants q := by
    simp only [viewOf, PendingRequests.new, mem_listOf]
  alive _ := Iff.rfl
  heights _ := rfl

/-- Both participants of two select participant 0. -/
theorem leader_agreement_of_two :
    (∃ firstEligible secondEligible leader,
      (viewOf ⟨0⟩).eligibleLeaders = some firstEligible ∧
      (viewOf ⟨1⟩).eligibleLeaders = some secondEligible ∧
      (∀ p, p ∈ firstEligible ↔ p ∈ secondEligible) ∧
      (viewOf ⟨0⟩).selectedLeader = some leader ∧ (viewOf ⟨1⟩).selectedLeader = some leader) ∧
    (∃! p, p ∈ (viewOf ⟨0⟩).pending.allParticipants ∧
      (viewOf p).selectedLeader = some (viewOf p).pending.myParticipantId) ∧
    (viewOf ⟨1⟩).selectedLeader = some ⟨0⟩ := by
  obtain ⟨agree, one⟩ := leader_agreement viewOf_healthy
  refine ⟨agree (viewOf ⟨1⟩) (viewOf_alike ⟨1⟩), ?_, by decide +kernel⟩
  exact one viewOf fun p _ => ⟨rfl, viewOf_alike p⟩

end LeaderView

end MpcNetwork.Node
