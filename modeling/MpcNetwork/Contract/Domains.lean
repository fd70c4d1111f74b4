import Mathlib.Data.List.Sort
import MpcNetwork.Contract.Primitives

/-! # Domains and their keys

The registry allocates domain ids from a counter that never goes back, so an id that was
dropped with a cancelled key generation is not given out again.  Its fields are private in
the source; the structure carries what every public constructor establishes.
-/

namespace MpcNetwork.Contract

open Fallible Ballots List

structure DomainConfig where
  id : DomainId
  scheme : SignatureScheme
  purpose : DomainPurpose
  deriving Repr, DecidableEq

def isValidSchemeForPurpose : DomainPurpose → SignatureScheme → Bool
  | .sign, .secp256k1 | .sign, .v2Secp256k1 | .sign, .ed25519 => true
  | .foreignTx, .secp256k1 => true
  | .ckd, .bls12381 => true
  | _, _ => false

/-- Domains in the order of their ids, all below the next id to be given out. -/
structure DomainRegistry where
  domains : List DomainConfig
  nextDomainId : Nat
  increasing : domains.Pairwise fun left right => left.id.value < right.id.value
  below : ∀ domain ∈ domains, domain.id.value < nextDomainId
  deriving DecidableEq

namespace DomainRegistry

def default : DomainRegistry where
  domains := []
  nextDomainId := 0
  increasing := .nil
  below := nofun

def addDomain (self : DomainRegistry) (scheme : SignatureScheme) (purpose : DomainPurpose) :
    DomainId × DomainRegistry where
  fst := ⟨self.nextDomainId⟩
  snd :=
    { domains := self.domains ++ [⟨⟨self.nextDomainId⟩, scheme, purpose⟩]
      nextDomainId := self.nextDomainId + 1
      increasing := by
        apply List.pairwise_append.mpr
        refine ⟨self.increasing, List.pairwise_singleton _ _, ?_⟩
        intro left old right new
        rw [List.mem_singleton.mp new]
        exact self.below left old
      below := by
        intro domain inside
        rcases List.mem_append.mp inside with old | new
        · exact Nat.lt_succ_of_lt (self.below domain old)
        · rw [List.mem_singleton.mp new]
          exact Nat.lt_succ_self _ }

/-- Add the proposed domains, whose ids must be the next ones in order. -/
def addDomains (self : DomainRegistry) : List DomainConfig → Except Error DomainRegistry
  | [] => pure self
  | domain :: domains => do
    let new := self.addDomain domain.scheme domain.purpose
    require (new.1 = domain.id) (.domain (.newDomainIdsNotContiguous new.1))
    new.2.addDomains domains

/-- Keep a prefix of the domains.  The counter stays. -/
def retainDomains (self : DomainRegistry) (numDomains : Nat) : DomainRegistry where
  domains := self.domains.take numDomains
  nextDomainId := self.nextDomainId
  increasing := self.increasing.sublist (List.take_sublist _ _)
  below := fun domain inside => self.below domain (List.mem_of_mem_take inside)

def getDomainByIndex (self : DomainRegistry) (index : Nat) : Option DomainConfig :=
  self.domains[index]?

def getDomainByDomainId (self : DomainRegistry) (id : DomainId) : Option DomainConfig :=
  self.domains.find? fun domain => domain.id = id

/-- Neighbours in order and the last id below the counter are all the source checks. -/
theorem wellFormed_of_neighbours {domains : List DomainConfig} {nextDomainId : Nat}
    (neighbours : domains.IsChain fun left right => left.id.value < right.id.value)
    (last : ∀ domain ∈ domains.getLast?, domain.id.value < nextDomainId) :
    domains.Pairwise (fun left right => left.id.value < right.id.value) ∧
      ∀ domain ∈ domains, domain.id.value < nextDomainId := by
  have increasing : domains.Pairwise fun left right => left.id.value < right.id.value := by
    let _ : IsTrans DomainConfig fun left right => left.id.value < right.id.value :=
      ⟨fun _ _ _ => Nat.lt_trans⟩
    exact isChain_iff_pairwise.mp neighbours
  refine ⟨increasing, ?_⟩
  intro domain inside
  rcases eq_nil_or_concat domains with rfl | ⟨front, largest, rfl⟩
  · cases inside
  · rw [concat_eq_append] at *
    have top : largest.id.value < nextDomainId := last largest (by simp)
    rcases mem_append.mp inside with early | final
    · have lower := (pairwise_append.mp increasing).2.2 domain early largest (by simp)
      exact Nat.lt_trans lower top
    · rw [mem_singleton.mp final]
      exact top

def fromRawValidated (domains : List DomainConfig) (nextDomainId : Nat) :
    Except Error DomainRegistry :=
  if neighbours : domains.IsChain fun left right => left.id.value < right.id.value then
    if last : ∀ domain ∈ domains.getLast?, domain.id.value < nextDomainId then
      have wellFormed := wellFormed_of_neighbours neighbours last
      .ok ⟨domains, nextDomainId, wellFormed.1, wellFormed.2⟩
    else .error (.domain .invalidDomains)
  else .error (.domain .invalidDomains)

theorem addDomains_ok {self registry : DomainRegistry} {domains : List DomainConfig}
    (done : self.addDomains domains = .ok registry) :
    registry.domains = self.domains ++ domains ∧
      registry.nextDomainId = self.nextDomainId + domains.length ∧
      ∀ domain ∈ domains.head?, domain.id.value = self.nextDomainId := by
  induction domains generalizing self with
  | nil =>
    simp only [addDomains, pure_ok_iff] at done
    subst done
    simp
  | cons domain domains ih =>
    simp only [addDomains, bind_ok_iff, require_eq_ok] at done
    obtain ⟨_, sameId, rest⟩ := done
    obtain ⟨appended, counter, _⟩ := ih rest
    obtain ⟨id, scheme, purpose⟩ := domain
    have itsId : id = ⟨self.nextDomainId⟩ := sameId.symm
    subst itsId
    refine ⟨?_, ?_, ?_⟩
    · rw [appended]
      exact append_assoc _ _ _
    · have moved : registry.nextDomainId = self.nextDomainId + 1 + domains.length := counter
      rw [moved, length_cons]
      omega
    · simp

end DomainRegistry

/-- Each proposed participant's latest vote for new parameters. -/
structure ThresholdParametersVotes where
  proposalByAccount : Box AccountId ThresholdParameters

namespace ThresholdParametersVotes

def default : ThresholdParametersVotes := ⟨.empty⟩

/-- Votes for `proposal` cast by members of `participants`. -/
def nVotes (self : ThresholdParametersVotes) (proposal : ThresholdParameters)
    (participants : Participants) : Nat :=
  (self.proposalByAccount.among participants.isParticipantGivenAccountId).count proposal

/-- Record the vote; the result counts all recorded votes for the same proposal. -/
def vote (self : ThresholdParametersVotes) (proposal : ThresholdParameters)
    (participant : AccountId) : Nat × ThresholdParametersVotes :=
  let votes := self.proposalByAccount.recast participant proposal
  (votes.count proposal, ⟨votes⟩)

end ThresholdParametersVotes

/-- Each participant's latest vote for domains to add. -/
structure AddDomainsVotes where
  proposalByAccount : Box ParticipantId (List DomainConfig)

namespace AddDomainsVotes

def default : AddDomainsVotes := ⟨.empty⟩

def vote (self : AddDomainsVotes) (proposal : List DomainConfig) (participant : ParticipantId) :
    Nat × AddDomainsVotes :=
  let votes := self.proposalByAccount.recast participant proposal
  (votes.count proposal, ⟨votes⟩)

def getRemainingVotes (self : AddDomainsVotes) (participants : Participants) : AddDomainsVotes :=
  ⟨self.proposalByAccount.among participants.isParticipantGivenParticipantId⟩

end AddDomainsVotes

/-- Identifies one attempt at generating or resharing a key. -/
@[ext] structure KeyEventId where
  epochId : EpochId
  domainId : DomainId
  attemptId : AttemptId
  deriving Repr, DecidableEq

structure KeyForDomain where
  domainId : DomainId
  key : PublicKeyExtended
  attempt : AttemptId
  deriving Repr, DecidableEq

structure Keyset where
  epochId : EpochId
  domains : List KeyForDomain
  deriving Repr, DecidableEq

def EpochId.next (self : EpochId) : EpochId := ⟨self.value + 1⟩

def AttemptId.next (self : AttemptId) : AttemptId := ⟨self.value + 1⟩

@[simp] theorem EpochId.value_next (e : EpochId) : e.next.value = e.value + 1 := rfl

@[simp] theorem AttemptId.value_next (a : AttemptId) : a.next.value = a.value + 1 := rfl

def Keyset.publicKey (self : Keyset) (domainId : DomainId) : Except Error PublicKeyExtended := do
  let entry ← found (.domain .noSuchDomain) (self.domains.find? fun key => key.domainId = domainId)
  pure entry.key

end MpcNetwork.Contract
