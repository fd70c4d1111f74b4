import MpcNetwork.Contract.Parameters

/-! # Participant ids over time

Newcomers get the ids from `next_id` on.  A proposal without newcomers may name any `next_id`
above its own ids, also one that is lower than before.
-/

namespace MpcNetwork.Contract

open Fallible Runs

namespace Participants

/-- `after` gives no id below `next_id` to anyone who does not have it already. -/
structure Precedes (before after : Participants) : Prop where
  nextId_le : before.nextId.id ≤ after.nextId.id
  kept : ∀ holder ∈ after.holders, holder.2.id < before.nextId.id → holder ∈ before.holders

theorem Precedes.refl (ps : Participants) : ps.Precedes ps :=
  ⟨UInt32.le_refl _, fun _ inside _ => inside⟩

theorem Precedes.trans {a : Participants} (first : a.Precedes b) (second : b.Precedes c) :
    a.Precedes c where
  nextId_le := UInt32.le_trans first.nextId_le second.nextId_le
  kept := by
    intro holder inside low
    have known := second.kept holder inside (UInt32.lt_of_lt_of_le low first.nextId_le)
    exact first.kept holder known low

theorem Precedes.same_holder {before after : Participants} (precedes : before.Precedes after)
    (valid : before.Valid) {id : ParticipantId} (first : (a, id) ∈ before.holders)
    (second : (b, id) ∈ after.holders) : a = b :=
  valid.unique first (precedes.kept (b, id) second (valid.lower (a, id) first))

end Participants

namespace ThresholdParameters

theorem precedes_of_valid {self : ThresholdParameters}
    (done : self.validateIncomingProposal proposal = .ok ())
    (notLower : self.participants.nextId.id ≤ proposal.participants.nextId.id) :
    self.participants.Precedes proposal.participants := by
  obtain ⟨_, succeeded⟩ := validateIncomingProposal_ok done
  refine ⟨notLower, ?_⟩
  intro holder inside low
  obtain ⟨entry, member, rfl⟩ := List.mem_map.mp inside
  by_cases known : entry ∈ self.participants.participants
  · exact List.mem_map_of_mem known
  · exact absurd low (UInt32.not_lt.mpr (succeeded.nextId_le member known))

end ThresholdParameters

namespace Seats

/-- A proposal that is being reshared to keeps ids with their holders. -/
def Ordered (s : Seats) : Prop :=
  ∀ proposal ∈ s.proposed, s.governing.participants.Precedes proposal.participants

variable {s : Seats} {proposal : ThresholdParameters}

/-- A proposal is followed if it does not lower `next_id`, which a kick-out never does. -/
theorem Brings.precedes (brings : s.Brings env call proposal)
    (keeps : ∀ vote ∈ call.newParameters,
      s.governing.participants.nextId.id ≤ vote.2.participants.nextId.id) :
    s.governing.participants.Precedes proposal.participants := by
  apply ThresholdParameters.precedes_of_valid brings.accepted
  cases brings with
  | carried carries => exact keeps (s.epoch, proposal) (by simp [carries.asked, Call.newParameters])
  | expelled expels => exact expels.sameNextId ▸ UInt32.le_refl _

theorem Moves.precedes (moves : s.Moves env call t) (ordered : s.Ordered)
    (keeps : ∀ vote ∈ call.newParameters,
      s.governing.participants.nextId.id ≤ vote.2.participants.nextId.id) :
    t.Ordered ∧ s.governing.participants.Precedes t.governing.participants := by
  cases moves with
  | kept | reset | cast => exact ⟨ordered, .refl _⟩
  | proposed proposal brings =>
    refine ⟨?_, .refl _⟩
    rintro _ ⟨⟩
    exact brings.precedes keeps
  | replaced proposal epoch brings => exact ⟨by simp [Seats.Ordered], brings.precedes keeps⟩
  | adopted proposal isProposed => exact ⟨by simp [Seats.Ordered], ordered proposal isProposed⟩
  | dropped => exact ⟨by simp [Seats.Ordered], .refl _⟩

end Seats

namespace Deployment

variable {Collateral : Type} {verifier : AttestationVerifier Collateral}

/-- The method is no vote for parameters with a lower `next_id` than those in force. -/
def keepsNextId (self : Deployment) : Method Collateral → Bool
  | .govern (.voteNewParameters _ proposal) =>
    self.seats.governing.participants.nextId.id ≤ proposal.participants.nextId.id
  | _ => true

/-- Steps by calls that keep `next_id`. -/
def KeepingSteps (verifier : AttestationVerifier Collateral) :
    Deployment → MethodEvent Collateral → Deployment → Prop :=
  Guarded (fun d event => d.keepsNextId event.1.2) (Acts (act verifier))

theorem SeatsStep.precedes {self : Deployment} (step : self.SeatsStep host method after)
    (ordered : self.seats.Ordered) (keeps : self.keepsNextId method) :
    after.Ordered ∧ self.seats.governing.participants.Precedes after.governing.participants := by
  cases step with
  | governed call moves =>
    refine moves.precedes ordered ?_
    intro vote isVote
    cases call with
    | voteNewParameters =>
      cases isVote
      exact of_decide_eq_true keeps
    | _ => cases isVote
  | migrated keyset state destination participants migrates =>
    obtain ⟨_, sameNextId, sameHolders⟩ := migrates.reinformed
    refine ⟨by simp [Seats.Ordered, migrates.seats.2], ?_, ?_⟩
    · rw [sameNextId]
      exact UInt32.le_refl _
    · intro holder inside _
      rwa [sameHolders] at inside
  | kept => exact ⟨ordered, .refl _⟩

theorem precedes_run {start : Deployment} (ordered : start.seats.Ordered)
    (run : Run (KeepingSteps verifier) start es d) :
    d.seats.Ordered ∧ start.seats.governing.participants.Precedes d.seats.governing.participants := by
  refine run.invariant (fun _ d => d.seats.Ordered ∧
    start.seats.governing.participants.Precedes d.seats.governing.participants) ⟨ordered, .refl _⟩ ?_
  intro _ before event after _ known step
  obtain ⟨ordered, precedes⟩ := known
  obtain ⟨keeps, acts⟩ := step
  obtain ⟨stays, next⟩ := (acts_seats verifier acts).precedes ordered keeps
  exact ⟨stays, precedes.trans next⟩

theorem Initial.ordered (initial : Initial d) : d.seats.Ordered := by
  obtain ⟨_, _, _, _, _, running, _⟩ := initial.running
  simp [seats, running, ProtocolContractState.seats, Seats.Ordered]

/-- As long as no proposal lowers `next_id`, an id never changes its holder. -/
theorem participant_ids_never_recycled {start d d' : Deployment}
    {es fs : List (MethodEvent Collateral)} (initial : Initial start)
    (early : Run (KeepingSteps verifier) start es d)
    (late : Run (KeepingSteps verifier) d fs d') :
    d.seats.governing.participants.nextId.id ≤ d'.seats.governing.participants.nextId.id ∧
      ∀ a b id, (a, id) ∈ d.seats.governing.participants.holders →
        (b, id) ∈ d'.seats.governing.participants.holders → a = b := by
  have valid := valid_run initial early.unguarded
  obtain ⟨ordered, _⟩ := precedes_run initial.ordered early
  obtain ⟨_, precedes⟩ := precedes_run ordered late
  exact ⟨precedes.nextId_le, fun a b id => precedes.same_holder valid.governing⟩

private def grow : List (Host × Method Unit) :=
  Sample.attest 2 :: Sample.byAll [0, 1, 2] (.govern (.voteNewParameters ⟨1⟩
    ⟨Sample.participants 3 [(0, 0), (1, 1), (2, 2)], 2⟩))

theorem participant_ids_never_recycled_newcomer :
    ∃ es d, Run (KeepingSteps Sample.verifier)
        (Sample.start ⟨Sample.participants 2 [(0, 0), (1, 1)], 2⟩) es d ∧
      d.seats.governing.participants.holders =
        [(Sample.account 0, ⟨0⟩), (Sample.account 1, ⟨1⟩), (Sample.account 2, ⟨2⟩)] ∧
      2 ≤ d.seats.governing.participants.nextId.id ∧
      ∀ a, (a, ⟨1⟩) ∈ d.seats.governing.participants.holders → Sample.account 1 = a := by
  obtain ⟨es, d, ran, _, holders⟩ := exists_run
    (restrict (fun d call => d.keepsNextId call.2) (act Sample.verifier))
    (Sample.start ⟨Sample.participants 2 [(0, 0), (1, 1)], 2⟩) grow
    (fun _ d => d.seats.governing.participants.holders =
      [(Sample.account 0, ⟨0⟩), (Sample.account 1, ⟨1⟩), (Sample.account 2, ⟨2⟩)])
    (by decide +kernel)
  have run : Run (KeepingSteps Sample.verifier) _ es d := ran.of_restrict
  obtain ⟨notLower, sameHolder⟩ := participant_ids_never_recycled
    (Sample.start_initial ⟨Sample.participants 2 [(0, 0), (1, 1)], 2⟩ rfl) .nil run
  refine ⟨es, d, run, holders, notLower, fun a => sameHolder _ a ⟨1⟩ (by decide)⟩

private def firstThree : ThresholdParameters := ⟨Sample.participants 3 [(0, 0), (1, 1), (2, 2)], 2⟩

private def firstTwo : ThresholdParameters := ⟨Sample.participants 2 [(0, 0), (1, 1)], 2⟩

private def withNodeThree : ThresholdParameters := ⟨Sample.participants 3 [(0, 0), (1, 1), (3, 2)], 2⟩

private def shrink : List (Host × Method Unit) :=
  Sample.byAll [0, 1] (.govern (.voteNewParameters ⟨1⟩ firstTwo))

private def regrow : List (Host × Method Unit) :=
  Sample.attest 3 :: Sample.byAll [0, 1, 3] (.govern (.voteNewParameters ⟨2⟩ withNodeThree))

/-- Two nodes drop the third and lower `next_id` with it; the next newcomer gets its id. -/
theorem dropped_participant_id_recycled :
    ∃ start es d fs d', Initial start ∧ Run (Acts (act Sample.verifier)) start es d ∧
      Run (Acts (act Sample.verifier)) d fs d' ∧
      d.seats.governing.participants.nextId.id < start.seats.governing.participants.nextId.id ∧
      (Sample.account 2, ⟨2⟩) ∈ start.seats.governing.participants.holders ∧
      (Sample.account 3, ⟨2⟩) ∈ d'.seats.governing.participants.holders ∧
      Sample.account 2 ≠ Sample.account 3 := by
  have initial := Sample.start_initial firstThree rfl
  obtain ⟨es, d, run, _, nextId, again⟩ := exists_run (act Sample.verifier)
    (Sample.start firstThree) shrink (fun _ d =>
      d.seats.governing.participants.nextId.id < 3 ∧
      (replay (act Sample.verifier) d regrow).any fun r =>
        (Sample.account 3, ⟨2⟩) ∈ r.1.seats.governing.participants.holders) (by decide +kernel)
  obtain ⟨⟨d', fs⟩, late, joined⟩ := (Option.any_eq_true _ _).mp again
  exact ⟨_, es, d, fs, d', initial, run, run_of_replay late, nextId, by decide,
    of_decide_eq_true joined, by decide⟩

end Deployment

end MpcNetwork.Contract
