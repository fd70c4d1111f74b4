import Mathlib.Data.List.Perm.Subperm
import MpcNetwork.Contract.Steps

/-! # Parameters in force

Parameters come into force at initialisation, by a proposal that everyone in it has voted for
and by a TEE check that leaves participants out; a migration changes the information about one
participant.  All of them keep the parameters valid.  A proposal keeps the entries of those who
stay, and newcomers get the ids from `next_id` on.
-/

namespace MpcNetwork.Contract

open Fallible Runs List

variable {participants : Participants}

variable {self : Participants}

namespace Participants

def holders (self : Participants) : List (AccountId × ParticipantId) :=
  self.participants.map fun entry => (entry.1, entry.2.1)

structure Valid (ps : Participants) : Prop where
  lower : ∀ holder ∈ ps.holders, holder.2.id < ps.nextId.id
  distinctIds : (ps.holders.map Prod.snd).Nodup
  distinctAccounts : (ps.holders.map Prod.fst).Nodup

theorem holders_ids (self : Participants) :
    self.holders.map Prod.snd = self.participants.map fun entry => entry.2.1 :=
  map_map

theorem holders_accounts (self : Participants) :
    self.holders.map Prod.fst = self.participants.map fun entry => entry.1 :=
  map_map

private theorem card_eq_length_iff {α : Type} [DecidableEq α] (l : List α) :
    l.toFinset.card = l.length ↔ l.Nodup :=
  Multiset.toFinset_card_eq_card_iff_nodup.trans Multiset.coe_nodup

theorem validate_eq_ok_iff : self.validate = .ok () ↔ self.Valid := by
  have ids := card_eq_length_iff (self.participants.map fun entry => entry.2.1)
  have accounts := card_eq_length_iff (self.participants.map fun entry => entry.1)
  rw [length_map] at ids accounts
  simp only [validate, bind_ok_iff, require_eq_ok, len, ids, accounts]
  constructor
  · rintro ⟨_, lower, _, distinctIds, distinctAccounts⟩
    exact ⟨forall_mem_map.mpr lower, self.holders_ids ▸ distinctIds,
      self.holders_accounts ▸ distinctAccounts⟩
  · rintro ⟨lower, distinctIds, distinctAccounts⟩
    exact ⟨(), forall_mem_map.mp lower, (), self.holders_ids ▸ distinctIds,
      self.holders_accounts ▸ distinctAccounts⟩

theorem Valid.of_holders {ps qs : Participants} (valid : ps.Valid) (sameNextId : qs.nextId = ps.nextId)
    (sameHolders : qs.holders = ps.holders) : qs.Valid where
  lower := by simpa only [sameNextId, sameHolders] using valid.lower
  distinctIds := by simpa only [sameHolders] using valid.distinctIds
  distinctAccounts := by simpa only [sameHolders] using valid.distinctAccounts

theorem Valid.unique {ps : Participants} (valid : ps.Valid) {id : ParticipantId}
    (first : (a, id) ∈ ps.holders) (second : (b, id) ∈ ps.holders) : a = b :=
  congrArg Prod.fst (inj_on_of_nodup_map valid.distinctIds first second rfl)

theorem isParticipantGivenAccountId_iff :
    self.isParticipantGivenAccountId account = true ↔ account ∈ self.holders.map Prod.fst := by
  simp [isParticipantGivenAccountId, holders]

theorem isParticipant_of_mem (inside : entry ∈ self.participants) :
    self.isParticipantGivenAccountId entry.1 = true := by
  simp only [isParticipantGivenAccountId, any_eq_true]
  exact ⟨entry, inside, by simp⟩

theorem updateInfo_holders (done : self.updateInfo accountId newInfo = .ok participants) :
    participants.nextId = self.nextId ∧ participants.holders = self.holders := by
  obtain ⟨sameNextId, front, id, info, back, old, new, _⟩ := updateInfo_ok done
  refine ⟨sameNextId, ?_⟩
  simp only [holders, old, new, map_append, map_cons]

/-- The entries of `after` that are entries of `before`, with the same id and information. -/
def staying (before after : Participants) : List (AccountId × ParticipantId × ParticipantInfo) :=
  after.participants.filter fun entry => entry ∈ before.participants

def newcomers (before after : Participants) : List (AccountId × ParticipantId × ParticipantInfo) :=
  after.participants.filter fun entry => entry ∉ before.participants

theorem length_staying_add_newcomers (before after : Participants) :
    (before.staying after).length + (before.newcomers after).length = after.len := by
  have whole := length_eq_length_filter_add
    (l := after.participants) (fun entry => decide (entry ∈ before.participants))
  simp only [staying, newcomers, len, decide_not]
  exact whole.symm

end Participants

variable {before after : ThresholdParameters}

namespace ThresholdParameters

/-- Valid participants and a threshold of at least two and of 60 % of them, rounded up. -/
structure Valid (parameters : ThresholdParameters) : Prop where
  participants : parameters.participants.Valid
  atLeastTwo : 2 ≤ parameters.threshold
  atMostAll : parameters.threshold ≤ parameters.participants.len
  sixtyPercent : 3 * parameters.participants.len ≤ 5 * parameters.threshold

theorem validate_eq_ok_iff {self : ThresholdParameters} : self.validate = .ok () ↔ self.Valid := by
  simp only [validate, validateThreshold, bind_ok_iff, require_eq_ok,
    Participants.validate_eq_ok_iff]
  constructor
  · rintro ⟨_, ⟨_, most, _, two, sixty⟩, valid⟩
    exact ⟨valid, two, most, by omega⟩
  · rintro ⟨valid, two, most, sixty⟩
    exact ⟨(), ⟨(), most, (), two, by omega⟩, valid⟩

/-- Enough old participants stay as they are, all others are new with ids from `next_id` on. -/
structure SucceededBy (before after : ThresholdParameters) : Prop where
  enough : before.threshold ≤ (before.participants.staying after.participants).length
  unknown : ∀ entry ∈ before.participants.newcomers after.participants,
    before.participants.isParticipantGivenAccountId entry.1 = false
  contiguous : ((before.participants.newcomers after.participants).map
      fun entry => entry.2.1.id.toNat).Perm
    (List.range' before.participants.nextId.id.toNat
      (before.participants.newcomers after.participants).length)

private theorem le_both_of_le_min {a b c : UInt32} (least : a ≤ min b c) : a ≤ b ∧ a ≤ c := by
  have unfolded : min b c = if b ≤ c then b else c := rfl
  rw [unfolded] at least
  split at least
  · rename_i ordered
    exact ⟨least, UInt32.le_trans least ordered⟩
  · rename_i unordered
    exact ⟨UInt32.le_trans least (UInt32.le_of_lt (UInt32.not_le.mp unordered)), least⟩

private theorem both_le_of_max_le {a b c : UInt32} (most : max b c ≤ a) : b ≤ a ∧ c ≤ a := by
  have unfolded : max b c = if b ≤ c then c else b := rfl
  rw [unfolded] at most
  split at most
  · rename_i ordered
    exact ⟨UInt32.le_trans ordered most, most⟩
  · rename_i unordered
    exact ⟨most, UInt32.le_trans (UInt32.le_of_lt (UInt32.not_le.mp unordered)) most⟩

variable {old : Participants} {seen : Candidates}
  {entry : AccountId × ParticipantId × ParticipantInfo}

theorem addCandidate_ok {after : Candidates} (done : addCandidate old seen entry = .ok after) :
    (entry ∈ old.participants ∧ after = { seen with nOld := seen.nOld + 1 }) ∨
      (old.isParticipantGivenAccountId entry.1 = false ∧ after = { seen with
        newMinId := min seen.newMinId entry.2.1.id
        newMaxId := max seen.newMaxId entry.2.1.id }) := by
  unfold addCandidate at done
  split at done
  · rename_i known isKnown
    simp only [bind_ok_iff, require_eq_ok, pure_ok_iff] at done
    obtain ⟨_, sameId, _, sameInfo, rfl⟩ := done
    have sameAccount : known.1 = entry.1 := by simpa using find?_some isKnown
    have same : entry = known := by
      ext1
      · exact sameAccount.symm
      · exact Prod.ext sameId sameInfo
    rw [same]
    exact .inl ⟨mem_reverse.mp (mem_of_find?_eq_some isKnown), rfl⟩
  · rename_i unknown
    simp only [bind_ok_iff, require_eq_ok, pure_ok_iff] at done
    obtain ⟨_, _, rfl⟩ := done
    refine .inr ⟨?_, rfl⟩
    simpa [Participants.isParticipantGivenAccountId] using unknown

/-- A newcomer with an id in the range that the loop has seen. -/
structure Candidates.Newcomer (seen : Candidates) (old : Participants)
    (entry : AccountId × ParticipantId × ParticipantInfo) : Prop where
  unknown : old.isParticipantGivenAccountId entry.1 = false
  least : seen.newMinId ≤ entry.2.1.id
  most : entry.2.1.id ≤ seen.newMaxId

theorem Candidates.Newcomer.not_mem (newcomer : seen.Newcomer old entry) :
    entry ∉ old.participants := by
  intro known
  have isKnown := Participants.isParticipant_of_mem known
  rw [newcomer.unknown] at isKnown
  cases isKnown

theorem foldlM_addCandidate_ok {entries : List (AccountId × ParticipantId × ParticipantInfo)}
    (done : entries.foldlM (addCandidate old) start = .ok seen) :
    seen.nOld = start.nOld + (entries.filter fun entry => entry ∈ old.participants).length ∧
      seen.newMinId ≤ start.newMinId ∧ start.newMaxId ≤ seen.newMaxId ∧
      ∀ entry ∈ entries, entry ∈ old.participants ∨ seen.Newcomer old entry := by
  induction entries generalizing start with
  | nil =>
    cases done
    exact ⟨rfl, UInt32.le_refl _, UInt32.le_refl _, by simp⟩
  | cons entry entries ih =>
    simp only [foldlM_cons, bind_ok_iff] at done
    obtain ⟨next, added, rest⟩ := done
    obtain ⟨counted, least, most, each⟩ := ih rest
    rcases addCandidate_ok added with ⟨known, rfl⟩ | ⟨unknown, rfl⟩
    · refine ⟨?_, least, most, forall_mem_cons.mpr ⟨.inl known, each⟩⟩
      simp only [known, decide_true, filter_cons_of_pos, length_cons] at counted ⊢
      omega
    · obtain ⟨leStart, leId⟩ := le_both_of_le_min least
      obtain ⟨startLe, idLe⟩ := both_le_of_max_le most
      have newcomer : seen.Newcomer old entry := ⟨unknown, leId, idLe⟩
      refine ⟨?_, leStart, startLe, forall_mem_cons.mpr ⟨.inr newcomer, each⟩⟩
      simpa [newcomer.not_mem] using counted

private theorem toNat_injective : Function.Injective fun id : ParticipantId => id.id.toNat := by
  rintro ⟨_⟩ ⟨_⟩ same
  exact congrArg ParticipantId.mk (UInt32.toNat.inj same)

theorem validateIncomingProposal_ok {self : ThresholdParameters}
    (done : self.validateIncomingProposal proposal = .ok ()) :
    proposal.Valid ∧ self.SucceededBy proposal := by
  simp only [validateIncomingProposal, bind_ok_iff, require_eq_ok] at done
  obtain ⟨_, accepted, seen, looped, _, enough, rest⟩ := done
  have valid := validate_eq_ok_iff.mp accepted
  obtain ⟨counted, _, _, each⟩ := foldlM_addCandidate_ok looped
  have nOld : seen.nOld = (self.participants.staying proposal.participants).length := by
    simpa [Participants.staying] using counted
  have nNew : proposal.participants.len - seen.nOld =
      (self.participants.newcomers proposal.participants).length := by
    have both := self.participants.length_staying_add_newcomers proposal.participants
    omega
  rw [nNew] at rest
  have isNew : ∀ entry ∈ self.participants.newcomers proposal.participants,
      seen.Newcomer self.participants entry := by
    intro entry inside
    obtain ⟨member, fresh⟩ := mem_filter.mp inside
    exact (each entry member).resolve_left (of_decide_eq_true fresh)
  refine ⟨valid, nOld ▸ enough, fun entry inside => (isNew entry inside).unknown, ?_⟩
  refine (subperm_of_subset ?_ ?_).perm_of_length_le ?_
  · have ids := valid.participants.distinctIds
    rw [Participants.holders_ids] at ids
    have numbers := ids.map (f := fun id => id.id.toNat) toNat_injective
    rw [map_map] at numbers
    exact numbers.sublist (filter_sublist.map _)
  · intro id inside
    obtain ⟨entry, member, rfl⟩ := mem_map.mp inside
    have some := length_pos_of_mem member
    rw [if_pos some] at rest
    simp only [bind_ok_iff, require_eq_ok] at rest
    obtain ⟨_, span, _, first, _⟩ := rest
    have least := UInt32.le_iff_toNat_le.mp (isNew entry member).least
    have most := UInt32.le_iff_toNat_le.mp (isNew entry member).most
    rw [first] at least span
    rw [mem_range'_1]
    omega
  · simp

/-- Everyone in an accepted proposal who has no old entry gets an id from `next_id` on. -/
theorem SucceededBy.nextId_le (succeeded : before.SucceededBy after)
    (inside : entry ∈ after.participants.participants)
    (fresh : entry ∉ before.participants.participants) :
    before.participants.nextId.id ≤ entry.2.1.id := by
  have newcomer : entry ∈ before.participants.newcomers after.participants :=
    mem_filter.mpr ⟨inside, by simpa using fresh⟩
  have ranged := (succeeded.contiguous.mem_iff).mp (mem_map_of_mem newcomer)
  rw [mem_range'_1] at ranged
  exact UInt32.le_iff_toNat_le.mpr ranged.1

theorem SucceededBy.enough_accounts (succeeded : before.SucceededBy after) :
    before.threshold ≤ after.participants.participants.countP
      (fun entry => before.participants.isParticipantGivenAccountId entry.1) := by
  refine succeeded.enough.trans ?_
  rw [Participants.staying, ← countP_eq_length_filter]
  apply countP_mono_left
  intro entry _ known
  exact Participants.isParticipant_of_mem (of_decide_eq_true known)

end ThresholdParameters

namespace Seats

/-- The participants in force and the proposed ones are valid. -/
structure Valid (s : Seats) : Prop where
  governing : s.governing.participants.Valid
  proposed : ∀ proposal ∈ s.proposed, proposal.participants.Valid

/-- The parameters in force are valid, and so are those reshared to, which continue them. -/
structure Sound (s : Seats) : Prop where
  governing : s.governing.Valid
  proposed : ∀ proposal ∈ s.proposed, proposal.Valid ∧ s.governing.SucceededBy proposal

theorem Sound.valid {s : Seats} (sound : s.Sound) : s.Valid where
  governing := sound.governing.participants
  proposed := fun proposal isProposed => (sound.proposed proposal isProposed).1.participants

variable {s : Seats}

theorem Brings.accepted (brings : s.Brings env call proposal) :
    s.governing.validateIncomingProposal proposal = .ok () := by
  cases brings with
  | carried carries => exact carries.valid
  | expelled expels => exact expels.valid

/-- Every call that brings up a proposal has had it checked against the parameters in force. -/
theorem Moves.sound (moves : s.Moves env call t) (sound : s.Sound) :
    t.Sound ∧ (t.governing = s.governing ∨ s.governing.SucceededBy t.governing) := by
  cases moves with
  | kept | reset | cast => exact ⟨⟨sound.governing, sound.proposed⟩, .inl rfl⟩
  | proposed proposal brings =>
    refine ⟨⟨sound.governing, ?_⟩, .inl rfl⟩
    rintro _ ⟨⟩
    exact ThresholdParameters.validateIncomingProposal_ok brings.accepted
  | replaced proposal epoch brings =>
    obtain ⟨valid, succeeded⟩ :=
      ThresholdParameters.validateIncomingProposal_ok brings.accepted
    exact ⟨⟨valid, by simp⟩, .inr succeeded⟩
  | adopted proposal isProposed =>
    obtain ⟨valid, succeeded⟩ := sound.proposed proposal isProposed
    exact ⟨⟨valid, by simp⟩, .inr succeeded⟩
  | dropped => exact ⟨⟨sound.governing, by simp⟩, .inl rfl⟩

end Seats

variable {d : Deployment}

namespace Deployment

variable {Collateral : Type} {verifier : AttestationVerifier Collateral}

/-- While a migration is concluded no resharing is going on. -/
theorem Migrates.seats (migrates : d.Migrates host state destination participants) :
    d.seats.governing = state.parameters ∧ d.seats.proposed = none := by
  simp only [Deployment.seats, migrates.isRunning, ProtocolContractState.seats, and_self]

theorem Initial.sound (initial : Initial d) : d.seats.Sound := by
  obtain ⟨_, _, parameters, valid, _, running, _⟩ := initial.running
  simp only [seats, running]
  exact ⟨ThresholdParameters.validate_eq_ok_iff.mp valid, by simp [ProtocolContractState.seats]⟩

/-- The information about participants may differ, and nothing else. -/
structure Reinformed (before after : ThresholdParameters) : Prop where
  threshold : after.threshold = before.threshold
  nextId : after.participants.nextId = before.participants.nextId
  holders : after.participants.holders = before.participants.holders

theorem Reinformed.valid (same : Reinformed before after) (valid : before.Valid) : after.Valid := by
  obtain ⟨participants, two, most, sixty⟩ := valid
  have sameLen : after.participants.len = before.participants.len := by
    simpa [Participants.holders, Participants.len] using congrArg length same.holders
  refine ⟨participants.of_holders same.nextId same.holders, ?_, ?_, ?_⟩
  · rwa [same.threshold]
  · rwa [same.threshold, sameLen]
  · rwa [same.threshold, sameLen]

theorem Migrates.reinformed (migrates : d.Migrates host state destination participants) :
    Reinformed d.seats.governing ⟨participants, d.seats.governing.threshold⟩ := by
  obtain ⟨sameNextId, sameHolders⟩ := Participants.updateInfo_holders migrates.updated
  rw [← migrates.seats.1] at sameNextId sameHolders
  exact ⟨rfl, sameNextId, sameHolders⟩

/-- How the parameters in force may change with one call. -/
inductive Continues (before after : ThresholdParameters) : Method Collateral → Prop where
  | same (method : Method Collateral) (unchanged : after = before) : Continues before after method
  | succeeded (call : Call) (succeeded : before.SucceededBy after) :
      Continues before after (.govern call)
  | migrated (keyset : Keyset) (reinformed : Reinformed before after) :
      Continues before after (.concludeNodeMigration keyset)

theorem SeatsStep.sound {self : Deployment} {after : Seats}
    (step : self.SeatsStep host method after) (sound : self.seats.Sound) :
    after.Sound ∧ Continues self.seats.governing after.governing method := by
  cases step with
  | governed call moves =>
    obtain ⟨stays, unchanged | succeeded⟩ := moves.sound sound
    · exact ⟨stays, .same _ unchanged⟩
    · exact ⟨stays, .succeeded call succeeded⟩
  | migrated keyset state destination participants migrates =>
    have reinformed := migrates.reinformed
    refine ⟨⟨reinformed.valid sound.governing, ?_⟩, .migrated keyset reinformed⟩
    simp [migrates.seats.2]
  | kept => exact ⟨sound, .same _ rfl⟩

theorem sound_run (initial : Initial start) (run : Run (Acts (act verifier)) start es d) :
    d.seats.Sound := by
  refine run.invariant (fun _ d => d.seats.Sound) initial.sound ?_
  intro _ _ _ _ _ sound acts
  exact ((acts_seats verifier acts).sound sound).1

theorem valid_run (initial : Initial start) (run : Run (Acts (act verifier)) start es d) :
    d.seats.Valid :=
  (sound_run initial run).valid

/-- The parameters in force and those reshared to always pass `validate`, and continue those that
    were in force before. -/
theorem parameters_stay_valid {start d : Deployment} {es : List (MethodEvent Collateral)}
    (initial : Initial start) (run : Run (Acts (act verifier)) start es d) :
    (d.seats.governing.validate = .ok () ∧ d.seats.governing.Valid) ∧
      (∀ proposal ∈ d.seats.proposed, (proposal.validate = .ok () ∧ proposal.Valid) ∧
        d.seats.governing.SucceededBy proposal) ∧
      ∀ event after, Acts (act verifier) d event after →
        Continues d.seats.governing after.seats.governing event.1.2 := by
  have sound := sound_run initial run
  refine ⟨⟨ThresholdParameters.validate_eq_ok_iff.mpr sound.governing, sound.governing⟩, ?_, ?_⟩
  · intro proposal isProposed
    obtain ⟨valid, succeeded⟩ := sound.proposed proposal isProposed
    exact ⟨⟨ThresholdParameters.validate_eq_ok_iff.mpr valid, valid⟩, succeeded⟩
  · intro event after acts
    exact ((acts_seats verifier acts).sound sound).2

private def pairOfNodes : ThresholdParameters := ⟨Sample.participants 2 [(0, 0), (1, 1)], 2⟩

private def pairAndCarol : ThresholdParameters :=
  ⟨Sample.participants 3 [(0, 0), (1, 1), (2, 2)], 2⟩

private def proposeCarol : List (Host × Method Unit) :=
  Sample.attest 2 :: Sample.byAll [0, 1, 2] (.govern (.voteNewParameters ⟨1⟩ pairAndCarol))

/-- A third node is voted in, and the key is being reshared to the three. -/
theorem parameters_stay_valid_newcomer :
    ∃ es d, Run (Acts (act Sample.verifier)) (Sample.startWithKey pairOfNodes) es d ∧
      d.seats.proposed = some pairAndCarol ∧ d.seats.governing.Valid ∧ pairAndCarol.Valid ∧
      pairOfNodes.SucceededBy pairAndCarol := by
  obtain ⟨es, d, run, _, isGoverning, isProposed⟩ := exists_run (act Sample.verifier)
    (Sample.startWithKey pairOfNodes) proposeCarol (fun _ d =>
      d.seats.governing = pairOfNodes ∧ d.seats.proposed = some pairAndCarol) (by decide +kernel)
  obtain ⟨⟨_, valid⟩, targets, _⟩ := parameters_stay_valid
    (Sample.startWithKey_initial pairOfNodes rfl) run
  obtain ⟨⟨_, targetValid⟩, succeeded⟩ := targets pairAndCarol isProposed
  rw [isGoverning] at succeeded
  exact ⟨es, d, run, isProposed, valid, targetValid, succeeded⟩

end Deployment

end MpcNetwork.Contract
