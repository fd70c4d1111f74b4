import MpcNetwork.Contract.Steps

/-! # Domains and keys over whole runs

Domain ids are given out once.  Keys stay aligned with the registry and, once a running
contract has them, are never lost or replaced.
-/

namespace MpcNetwork.Contract

open List hiding after
open Fallible Runs

namespace Deployment

variable {Collateral : Type}

theorem Initial.aligned (initial : Initial d) : d.contract.protocolState.Aligned := by
  obtain ⟨_, _, _, _, same, running, _⟩ := initial.running
  rw [running]
  exact same.symm

theorem PhaseStep.aligned {self : Deployment} (step : self.PhaseStep host method note after)
    (aligned : self.contract.protocolState.Aligned) : after.Aligned := by
  cases step with
  | governed call next contract done => exact (perform_transition done).aligned aligned
  | migrated keyset state _ _ migrates =>
    rw [migrates.isRunning] at aligned
    exact aligned
  | kept => exact aligned

theorem alignment_run {start : Deployment} (aligned : start.contract.protocolState.Aligned)
    (run : Run (Acts (act verifier)) start es d) : d.contract.protocolState.Aligned := by
  refine run.invariant (fun _ d => d.contract.protocolState.Aligned) aligned ?_
  intro _ _ _ _ _ aligned acts
  exact (acts_phase verifier acts).aligned aligned

end Deployment

theorem authenticatedParticipantId_ne_panic :
    authenticatedParticipantId env participants ≠ .error .panic :=
  bind_ne_error (found_ne_error (by simp)) fun _ _ => pure_ne_error

theorem KeyEvent.voteSuccess_ne_panic {self : KeyEvent} :
    self.voteSuccess env keyEventId publicKey ≠ .error .panic := by
  apply bind_ne_error
  · refine bind_ne_error authenticatedParticipantId_ne_panic fun _ _ => ?_
    refine bind_ne_error (found_ne_error (by simp)) fun _ _ => ?_
    exact bind_ne_error (require_ne_error (by simp)) fun _ _ => pure_ne_error
  · intro _ _
    apply bind_ne_error
    · unfold KeyEventInstance.voteSuccess
      split
      · exact pure_ne_error
      · exact bind_ne_error (require_ne_error (by simp)) fun _ _ => pure_ne_error
    · intro answer _
      obtain ⟨result, _⟩ := answer
      cases result <;> exact pure_ne_error

namespace ThresholdParameters

theorem addCandidate_ne_panic : addCandidate old seen entry ≠ .error .panic := by
  unfold addCandidate
  split
  · refine bind_ne_error (require_ne_error (by simp)) fun _ _ => ?_
    exact bind_ne_error (require_ne_error (by simp)) fun _ _ => pure_ne_error
  · exact bind_ne_error (require_ne_error (by simp)) fun _ _ => pure_ne_error

theorem foldlM_addCandidate_ne_panic
    {entries : List (AccountId × ParticipantId × ParticipantInfo)} :
    entries.foldlM (addCandidate old) seen ≠ .error .panic := by
  induction entries generalizing seen with
  | nil => exact pure_ne_error
  | cons entry entries ih =>
    rw [foldlM_cons]
    exact bind_ne_error addCandidate_ne_panic fun _ _ => ih

theorem validate_ne_panic {self : ThresholdParameters} : self.validate ≠ .error .panic := by
  apply bind_ne_error
  · refine bind_ne_error (require_ne_error (by simp)) fun _ _ => ?_
    exact bind_ne_error (require_ne_error (by simp)) fun _ _ => require_ne_error (by simp)
  · intro _ _
    refine bind_ne_error (require_ne_error (by simp)) fun _ _ => ?_
    exact bind_ne_error (require_ne_error (by simp)) fun _ _ => require_ne_error (by simp)

theorem validateIncomingProposal_ne_panic {self : ThresholdParameters} :
    self.validateIncomingProposal proposal ≠ .error .panic := by
  refine bind_ne_error validate_ne_panic fun _ _ => ?_
  refine bind_ne_error foldlM_addCandidate_ne_panic fun seen _ => ?_
  refine bind_ne_error (require_ne_error (by simp)) fun _ _ => ?_
  dsimp only
  split
  · refine bind_ne_error (require_ne_error (by simp)) fun _ _ => ?_
    exact bind_ne_error (require_ne_error (by simp)) fun _ _ => require_ne_error (by simp)
  · exact pure_ne_error

end ThresholdParameters

theorem RunningContractState.processNewParametersProposal_ne_panic {self : RunningContractState} :
    self.processNewParametersProposal env proposal ≠ .error .panic := by
  refine bind_ne_error ThresholdParameters.validateIncomingProposal_ne_panic fun _ _ => ?_
  refine bind_ne_error (bind_ne_error (require_ne_error (by simp)) fun _ _ => pure_ne_error) ?_
  intro candidate _
  dsimp only
  split
  · exact bind_ne_error (require_ne_error (by simp)) fun _ _ => pure_ne_error
  · exact pure_ne_error

namespace ResharingContractState

section

variable (aligned : (ProtocolContractState.resharing state).Aligned)

include aligned

theorem nextKey :
    ∃ key, state.previousRunningState.keyset.domains[state.resharedKeys.length]? = some key ∧
      key.domainId = state.resharingKey.domain.id := by
  obtain ⟨previous, covers⟩ := aligned
  have ids := congrArg (fun ids => ids[state.resharedKeys.length]?) previous
  simp only [getElem?_map, covers.isNext, Option.map_some, Option.map_eq_some_iff] at ids
  exact ids

/-- The index in `vote_reshared` is in range. -/
theorem voteReshared_ne_panic
    (keyEventId : KeyEventId) : state.voteReshared env keyEventId ≠ .error .panic := by
  obtain ⟨key, isKey, _⟩ := nextKey aligned
  unfold voteReshared
  apply bind_ne_error
  · rw [isKey]
    simp [found]
  · intro previousKey _
    refine bind_ne_error KeyEvent.voteSuccess_ne_panic fun answer _ => ?_
    obtain ⟨complete, event⟩ := answer
    dsimp only
    split
    · split <;> exact pure_ne_error
    · exact pure_ne_error

/-- There is a first domain to unwrap in `vote_new_parameters`. -/
theorem voteNewParameters_ne_panic (prospectiveEpochId : EpochId) (proposal : ThresholdParameters) :
    state.voteNewParameters env prospectiveEpochId proposal ≠ .error .panic := by
  obtain ⟨first, isFirst⟩ : ∃ first, state.previousRunningState.domains.getDomainByIndex 0 =
      some first := by
    cases domains : state.previousRunningState.domains.domains with
    | nil =>
      have member := aligned.2.next_mem
      rw [domains] at member
      cases member
    | cons first later => exact ⟨first, by simp [DomainRegistry.getDomainByIndex, domains]⟩
  unfold voteNewParameters
  refine bind_ne_error (require_ne_error (by simp)) fun _ _ => ?_
  refine bind_ne_error RunningContractState.processNewParametersProposal_ne_panic ?_
  intro answer processed
  obtain ⟨accepted, voted⟩ := answer
  obtain ⟨_, votes, rfl⟩ := RunningContractState.processNewParametersProposal_ok processed
  dsimp only
  split
  · rw [isFirst]
    exact bind_ne_error (by simp [found]) fun _ _ => pure_ne_error
  · exact pure_ne_error

end

end ResharingContractState

def ProtocolContractState.registry : ProtocolContractState → DomainRegistry
  | notInitialized => .default
  | initializing state => state.domains
  | running state => state.domains
  | resharing state => state.previousRunningState.domains

/-- The ids are given out once, are below the counter and include all registered ones. -/
structure GivenOut (ids : List DomainId) (registry : DomainRegistry) : Prop where
  once : ids.Nodup
  lower : ∀ id ∈ ids, id.value < registry.nextDomainId
  complete : ∀ domain ∈ registry.domains, domain.id ∈ ids

theorem DomainRegistry.givenOut (registry : DomainRegistry) :
    GivenOut (registry.domains.map (·.id)) registry where
  once := by
    rw [nodup_iff_pairwise_ne, pairwise_map]
    refine registry.increasing.imp fun lower same => ?_
    rw [same] at lower
    omega
  lower := by
    intro id inside
    obtain ⟨domain, member, rfl⟩ := mem_map.mp inside
    exact registry.below domain member
  complete := fun domain member => mem_map_of_mem member

namespace GivenOut

theorem shrink (given : GivenOut ids registry)
    (sameCounter : after.nextDomainId = registry.nextDomainId)
    (part : after.domains.Sublist registry.domains) : GivenOut ids after where
  once := given.once
  lower := by simpa only [sameCounter] using given.lower
  complete := fun domain member => given.complete domain (part.subset member)

theorem extend (given : GivenOut ids registry) (added : registry.addDomains domains = .ok after) :
    GivenOut (ids ++ domains.map (·.id)) after := by
  obtain ⟨appended, counter, first⟩ := DomainRegistry.addDomains_ok added
  have increasing := after.increasing
  rw [appended, pairwise_append] at increasing
  have fresh : ∀ domain ∈ domains, registry.nextDomainId ≤ domain.id.value := by
    cases domains with
    | nil => simp
    | cons head later =>
      have headId := first head rfl
      have later := (pairwise_cons.mp increasing.2.1).1
      refine forall_mem_cons.mpr ⟨by omega, fun domain member => ?_⟩
      have := later domain member
      omega
  refine ⟨?_, ?_, ?_⟩
  · rw [nodup_append']
    refine ⟨given.once, ?_, ?_⟩
    · rw [nodup_iff_pairwise_ne, pairwise_map]
      refine increasing.2.1.imp fun lower same => ?_
      rw [same] at lower
      omega
    · intro id old new
      obtain ⟨domain, member, rfl⟩ := mem_map.mp new
      have := given.lower domain.id old
      have := fresh domain member
      omega
  · intro id inside
    rcases mem_append.mp inside with old | new
    · have := given.lower id old
      omega
    · obtain ⟨domain, member, rfl⟩ := mem_map.mp new
      apply after.below domain
      rw [appended]
      exact mem_append_right _ member
  · intro domain member
    rw [appended] at member
    rcases mem_append.mp member with old | new
    · exact mem_append_left _ (given.complete domain old)
    · exact mem_append_right _ (mem_map_of_mem new)

end GivenOut

theorem Transition.registry (transition : Transition env call s started epoch t)
    (other : ∀ domains, call ≠ .voteAddDomains domains) :
    t.registry.nextDomainId = s.registry.nextDomainId ∧
      t.registry.domains.Sublist s.registry.domains := by
  cases transition with
  | keygenStarted state first later registry added asked => exact absurd asked (other _)
  | keygenCancelled state => exact ⟨rfl, take_sublist _ _⟩
  | _ => exact ⟨rfl, .refl _⟩

theorem voteAddDomains_registry
    (done : perform env self (.voteAddDomains domains) = .ok (entered, contract)) :
    (entered = none ∧ contract.protocolState.registry = self.protocolState.registry) ∨
      (entered.isSome ∧ self.protocolState.registry.addDomains domains =
        .ok contract.protocolState.registry) := by
  obtain ⟨state, _, _, _, _, _, _⟩ := self
  cases state with
  | running state =>
    simp only [perform, MpcContract.voteAddDomains, ProtocolContractState.voteAddDomains,
      bind_ok_iff, pure_ok_iff, Prod.mk.injEq] at done
    obtain ⟨_, ⟨⟨next, changed⟩, voted, rfl⟩, rfl, rfl⟩ := done
    simp only [RunningContractState.voteAddDomains, bind_ok_iff] at voted
    obtain ⟨_, _, voted⟩ := voted
    split at voted
    · simp at voted
    · simp only [bind_ok_iff] at voted
      obtain ⟨participant, _, voted⟩ := voted
      split at voted
      · simp only [bind_ok_iff, pure_ok_iff, Prod.mk.injEq] at voted
        obtain ⟨registry, added, rfl, rfl⟩ := voted
        exact .inr ⟨rfl, added⟩
      · cases voted
        exact .inl ⟨rfl, rfl⟩
  | _ => cases done

namespace Deployment

variable {Collateral : Type} {verifier : AttestationVerifier Collateral}

/-- The ids that an event gives out: those of the domains whose last vote it is. -/
def allocatedDomains : MethodEvent Collateral → List DomainId
  | ((_, .govern (.voteAddDomains domains)), .wentTo (some _)) => domains.map (·.id)
  | _ => []

theorem PhaseStep.givenOut {self : Deployment} (step : self.PhaseStep host method note after)
    (given : GivenOut ids self.contract.protocolState.registry) :
    GivenOut (ids ++ allocatedDomains ((host, method), note)) after.registry := by
  cases step with
  | governed call next contract done =>
    cases call with
    | voteAddDomains domains =>
      rcases voteAddDomains_registry done with ⟨rfl, same⟩ | ⟨goesOver, added⟩
      · rw [same]
        simpa only [allocatedDomains, append_nil] using given
      · obtain ⟨state, rfl⟩ := Option.isSome_iff_exists.mp goesOver
        exact given.extend added
    | _ =>
      obtain ⟨sameCounter, part⟩ := (perform_transition done).registry (by simp)
      simpa only [allocatedDomains, append_nil] using given.shrink sameCounter part
  | migrated keyset state _ _ migrates =>
    rw [migrates.isRunning] at given
    simp only [allocatedDomains, append_nil]
    exact given
  | kept _ _ other =>
    have quiet : allocatedDomains ((host, method), note) = [] := by
      unfold allocatedDomains
      split
      · rename_i same
        cases same
        exact absurd rfl (other _)
      · rfl
    rw [quiet, append_nil]
    exact given

theorem givenOut_run (run : Run (Acts (act verifier)) start es d) :
    GivenOut (start.contract.protocolState.registry.domains.map (·.id) ++
      es.flatMap allocatedDomains) d.contract.protocolState.registry := by
  refine run.invariant (fun es d => GivenOut (start.contract.protocolState.registry.domains.map
    (·.id) ++ es.flatMap allocatedDomains) d.contract.protocolState.registry) ?_ ?_
  · simpa only [flatMap_nil, append_nil] using DomainRegistry.givenOut _
  · intro es _ event _ _ given acts
    rw [flatMap_append, ← append_assoc, flatMap_singleton]
    exact (acts_phase verifier acts).givenOut given

private def twoHolders : ThresholdParameters := ⟨Sample.participants 2 [(0, 0), (1, 1)], 2⟩

private def ecdsaDomain (id : Nat) : DomainConfig := ⟨⟨id⟩, .secp256k1, .sign⟩

end Deployment

/-- A key for a domain without the attempt it comes from. -/
def KeyForDomain.assigned (key : KeyForDomain) : DomainId × PublicKeyExtended :=
  (key.domainId, key.key)

/-- The keys that the contract answers with, or those it has while it generates more. -/
def ProtocolContractState.keys : ProtocolContractState → List KeyForDomain
  | notInitialized => []
  | initializing state => state.generatedKeys
  | running state => state.keyset.domains
  | resharing state => state.previousRunningState.keyset.domains

def ProtocolContractState.assigned (self : ProtocolContractState) :
    List (DomainId × PublicKeyExtended) :=
  self.keys.map KeyForDomain.assigned

/-- Reshared keys are those that the contract has had. -/
def ProtocolContractState.KeysReshared : ProtocolContractState → Prop
  | resharing state => state.resharedKeys.map KeyForDomain.assigned =
      (state.previousRunningState.keyset.domains.take state.resharedKeys.length).map
        KeyForDomain.assigned
  | _ => True

theorem reshared_with_key (aligned : (ProtocolContractState.resharing state).Aligned)
    (reshared : (ProtocolContractState.resharing state).KeysReshared)
    (isPrevious : state.previousRunningState.keyset.domains[state.resharedKeys.length]? =
      some previousKey) (attempt : AttemptId) :
    (state.resharedKeys ++ [KeyForDomain.mk state.resharingKey.domain.id previousKey.key attempt]).map
        KeyForDomain.assigned =
      (state.previousRunningState.keyset.domains.take (state.resharedKeys.length + 1)).map
        KeyForDomain.assigned := by
  obtain ⟨key, isKey, sameDomain⟩ := ResharingContractState.nextKey aligned
  cases isPrevious.symm.trans isKey
  rw [map_append, reshared, take_add_one, map_append, isPrevious]
  simp [KeyForDomain.assigned, sameDomain]

theorem Transition.keys (transition : Transition env call s started epoch t) (aligned : s.Aligned)
    (reshared : s.KeysReshared) : t.KeysReshared ∧ s.assigned <+: t.assigned := by
  cases transition with
  | voted | keygenStarted | keygenMoved | keygenCancelled => exact ⟨trivial, prefix_refl _⟩
  | resharingStarted | resharingReplaced => exact ⟨rfl, prefix_refl _⟩
  | resharingMoved => exact ⟨reshared, prefix_refl _⟩
  | resharingCancelled => exact ⟨trivial, prefix_refl _⟩
  | parametersReplaced state proposal empty =>
    have none : state.keyset.domains = [] := by
      have length := RunningContractState.Aligned.length aligned
      have := getElem?_eq_none_iff.mp empty
      exact eq_nil_of_length_eq_zero (by omega)
    refine ⟨trivial, ?_⟩
    simp [ProtocolContractState.assigned, ProtocolContractState.keys, none]
  | keyGenerated | keygenFinished =>
    refine ⟨trivial, ?_⟩
    simp [ProtocolContractState.assigned, ProtocolContractState.keys,
      RunningContractState.new]
  | keyReshared state previousKey attempt next isPrevious isNext =>
    refine ⟨?_, prefix_refl _⟩
    have with_key := reshared_with_key aligned reshared isPrevious attempt
    simpa only [ProtocolContractState.KeysReshared, length_append,
      length_singleton] using with_key
  | resharingFinished state previousKey attempt isPrevious last =>
    refine ⟨trivial, ?_⟩
    have with_key := reshared_with_key aligned reshared isPrevious attempt
    have all : state.previousRunningState.keyset.domains.length ≤
        state.resharedKeys.length + 1 := by
      rw [RunningContractState.Aligned.length aligned.1]
      exact getElem?_eq_none_iff.mp last
    rw [take_of_length_le all] at with_key
    simp only [ProtocolContractState.assigned, ProtocolContractState.keys,
      RunningContractState.new, with_key, prefix_refl]

theorem Keyset.publicKey_eq_ok {self : Keyset} :
    self.publicKey domainId = .ok key ↔
      (self.domains.map KeyForDomain.assigned).find? (fun entry => entry.1 = domainId) =
        some (domainId, key) := by
  simp only [publicKey, bind_ok_iff, found_eq_ok, pure_ok_iff, find?_map,
    Option.map_eq_some_iff]
  constructor
  · rintro ⟨entry, isEntry, rfl⟩
    have sameDomain : entry.domainId = domainId := by simpa using find?_some isEntry
    exact ⟨entry, isEntry, by rw [KeyForDomain.assigned, sameDomain]⟩
  · rintro ⟨entry, isEntry, same⟩
    exact ⟨entry, isEntry, congrArg Prod.snd same⟩

namespace Deployment

variable {Collateral : Type} {verifier : AttestationVerifier Collateral}

theorem Initial.keysReshared (initial : Initial d) : d.contract.protocolState.KeysReshared := by
  obtain ⟨_, _, _, _, _, running, _⟩ := initial.running
  rw [running]
  trivial

theorem PhaseStep.keys {self : Deployment} (step : self.PhaseStep host method note after)
    (aligned : self.contract.protocolState.Aligned)
    (reshared : self.contract.protocolState.KeysReshared) :
    after.KeysReshared ∧ self.contract.protocolState.assigned <+: after.assigned := by
  cases step with
  | governed call next contract done => exact (perform_transition done).keys aligned reshared
  | migrated keyset state _ _ migrates =>
    rw [migrates.isRunning]
    exact ⟨trivial, prefix_refl _⟩
  | kept => exact ⟨reshared, prefix_refl _⟩

theorem keys_run {start : Deployment} (aligned : start.contract.protocolState.Aligned)
    (reshared : start.contract.protocolState.KeysReshared)
    (run : Run (Acts (act verifier)) start es d) :
    d.contract.protocolState.KeysReshared ∧
      start.contract.protocolState.assigned <+: d.contract.protocolState.assigned := by
  refine run.invariant (fun _ d => d.contract.protocolState.KeysReshared ∧
    start.contract.protocolState.assigned <+: d.contract.protocolState.assigned)
    ⟨reshared, prefix_refl _⟩ ?_
  intro es before event after early known acts
  obtain ⟨reshared, kept⟩ := known
  obtain ⟨stays, next⟩ :=
    (acts_phase verifier acts).keys (alignment_run aligned early) reshared
  exact ⟨stays, kept.trans next⟩

/-- A running contract keeps the key of a domain, and answers with it whenever it answers. -/
theorem public_keys_permanent {start d d' : Deployment} {es fs : List (MethodEvent Collateral)}
    {state : RunningContractState} {domainId : DomainId} {key : PublicKeyExtended}
    (initial : Initial start) (early : Run (Acts (act verifier)) start es d)
    (isRunning : d.contract.protocolState = .running state)
    (known : state.keyset.publicKey domainId = .ok key)
    (late : Run (Acts (act verifier)) d fs d') :
    (d'.contract.protocolState.isRunningOrResharing = true →
        d'.contract.protocolState.publicKey domainId = .ok key) ∧
      ∃ entry ∈ d'.contract.protocolState.keys, entry.domainId = domainId ∧ entry.key = key := by
  have aligned := alignment_run initial.aligned early
  obtain ⟨reshared, _⟩ := keys_run initial.aligned initial.keysReshared early
  obtain ⟨_, ⟨later, grown⟩⟩ := keys_run aligned reshared late
  have first : d'.contract.protocolState.assigned.find? (fun entry => entry.1 = domainId) =
      some (domainId, key) := by
    have before := Keyset.publicKey_eq_ok.mp known
    rw [isRunning] at grown
    rw [← grown, find?_append]
    exact Option.or_eq_some_iff.mpr (.inl before)
  constructor
  · intro answers
    cases phase : d'.contract.protocolState with
    | running | resharing =>
      rw [phase] at first
      exact Keyset.publicKey_eq_ok.mpr first
    | _ =>
      rw [phase] at answers
      cases answers
  · obtain ⟨entry, member, same⟩ := mem_map.mp (mem_of_find?_eq_some first)
    exact ⟨entry, member, congrArg Prod.fst same, congrArg Prod.snd same⟩

/-- The key is still there when the participants reshare to themselves. -/
theorem public_keys_permanent_resharing :
    ∃ es d, Run (Acts (act Sample.verifier)) (Sample.startWithKey twoHolders) es d ∧
      d.seats.proposed = some twoHolders ∧
      d.contract.protocolState.publicKey ⟨0⟩ = .ok Sample.rootKey := by
  obtain ⟨es, d, run, _, proposed, answers⟩ := exists_run (act Sample.verifier)
    (Sample.startWithKey twoHolders)
    (Sample.byAll [0, 1] (.govern (.voteNewParameters ⟨1⟩ twoHolders))) (fun _ d =>
      d.seats.proposed = some twoHolders ∧ d.contract.protocolState.isRunningOrResharing)
    (by decide +kernel)
  have known : Keyset.publicKey ⟨⟨0⟩, [⟨⟨0⟩, Sample.rootKey, ⟨0⟩⟩]⟩ ⟨0⟩ = .ok Sample.rootKey := rfl
  obtain ⟨answer, _⟩ := public_keys_permanent
    (Sample.startWithKey_initial twoHolders rfl) .nil rfl known run
  exact ⟨es, d, run, proposed, answer answers⟩

end Deployment

end MpcNetwork.Contract
