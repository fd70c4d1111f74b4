import MpcNetwork.Contract.KeyHistory
import MpcNetwork.Contract.Parameters

/-! # Accepted keys

A key is accepted with the last success vote in an attempt.  Along a run, the history since the
ongoing attempt was started accounts for every vote that the attempt counts.
-/

namespace MpcNetwork.Contract

open Fallible Runs

/-- Keys are generated and reshared by calls of their own. -/
inductive Ceremony where
  | keygen | resharing

namespace Ceremony

def start : Ceremony → KeyEventId → Call
  | keygen, keyEventId => .startKeygenInstance keyEventId
  | resharing, keyEventId => .startReshareInstance keyEventId

/-- A vote in a resharing is for the key that the domain has. -/
def vote : Ceremony → KeyEventId → PublicKeyExtended → Call
  | keygen, keyEventId, publicKey => .votePk keyEventId publicKey
  | resharing, keyEventId, _ => .voteReshared keyEventId

end Ceremony

/-- Whether the call aborts an attempt or starts another one. -/
def Call.endsAttempt : Call → Bool
  | startKeygenInstance _ | startReshareInstance _ | voteAbortKeyEventInstance _ => true
  | _ => false

theorem Ceremony.vote_endsAttempt (ceremony : Ceremony) (keyEventId : KeyEventId)
    (publicKey : PublicKeyExtended) : (ceremony.vote keyEventId publicKey).endsAttempt = false := by
  cases ceremony <;> rfl

/-- The account is that of the participant with the lowest id. -/
def Participants.IsLowest (self : Participants) (account : AccountId) : Prop :=
  ∃ lowest ∈ self.participants, lowest.1 = account ∧
    ∀ entry ∈ self.participants, lowest.2.1.id ≤ entry.2.1.id

def KeyEventInstance.withVote (inst : KeyEventInstance) (candidate : ParticipantId)
    (publicKey : PublicKeyExtended) : KeyEventInstance :=
  { inst with completed := insert candidate inst.completed, publicKey := some publicKey }

namespace KeyEvent

variable {env : Env} {event after : KeyEvent}

def attemptId (event : KeyEvent) (inst : KeyEventInstance) : KeyEventId :=
  ⟨event.epochId, event.domain.id, inst.attemptId⟩

private theorem foldl_lowest
    {lowest : AccountId × ParticipantId × ParticipantInfo}
    (isLowest : entries.foldl (fun lowest entry =>
      match lowest with
      | none => some entry
      | some best => if entry.2.1.id < best.2.1.id then some entry else some best)
      (some best) = some lowest) :
    lowest ∈ best :: entries ∧ ∀ entry ∈ best :: entries, lowest.2.1.id ≤ entry.2.1.id := by
  induction entries generalizing best with
  | nil =>
    cases isLowest
    simp
  | cons entry entries ih =>
    simp only [List.foldl_cons] at isLowest
    split at isLowest
    · rename_i lower
      obtain ⟨inside, least⟩ := ih isLowest
      refine ⟨List.mem_cons_of_mem _ inside, List.forall_mem_cons.mpr ⟨?_, least⟩⟩
      exact UInt32.le_trans (least entry (by simp)) (UInt32.le_of_lt lower)
    · rename_i notLower
      obtain ⟨inside, least⟩ := ih isLowest
      obtain ⟨leBest, leOthers⟩ := List.forall_mem_cons.mp least
      have leEntry := UInt32.le_trans leBest (UInt32.not_lt.mp notLower)
      refine ⟨?_, List.forall_mem_cons.mpr ⟨leBest,
        List.forall_mem_cons.mpr ⟨leEntry, leOthers⟩⟩⟩
      rcases List.mem_cons.mp inside with rfl | other
      · simp
      · exact List.mem_cons_of_mem _ (List.mem_cons_of_mem _ other)

theorem verifyLeader_ok (done : event.verifyLeader env = .ok ()) :
    event.parameters.participants.IsLowest env.signerAccountId := by
  simp only [verifyLeader, leader, bind_ok_iff, found_eq_ok, require_eq_ok] at done
  obtain ⟨lowest, isLowest, signer⟩ := done
  cases entries : event.parameters.participants.participants with
  | nil =>
    rw [entries] at isLowest
    cases isLowest
  | cons entry later =>
    rw [entries] at isLowest
    obtain ⟨inside, least⟩ := foldl_lowest isLowest
    rw [← entries] at inside least
    exact ⟨lowest, inside, signer, least⟩

/-- The signer votes in the ongoing attempt, in time and for the key that others voted for. -/
structure Casts (env : Env) (event : KeyEvent) (inst : KeyEventInstance)
    (candidate : ParticipantId) (publicKey : PublicKeyExtended) : Prop where
  ongoing : event.inst = some inst
  inTime : env.blockHeight < inst.expiresOn
  voter : authenticatedParticipantId env event.parameters.participants = .ok candidate
  agrees : ∀ existing ∈ inst.publicKey, existing = publicKey

inductive Attempts (env : Env) (timeoutBlocks : Nat) (ceremony : Ceremony) (event : KeyEvent) :
    Call → KeyEvent → Prop where
  | untouched (call : Call) (silent : call.endsAttempt = false) :
      Attempts env timeoutBlocks ceremony event call event
  | started (leads : event.parameters.participants.IsLowest env.signerAccountId) :
      Attempts env timeoutBlocks ceremony event (ceremony.start event.expectedKeyEventId)
        { event with
          inst := some (.new env event.nextAttemptId timeoutBlocks)
          nextAttemptId := event.nextAttemptId.next }
  | voted (inst : KeyEventInstance) (candidate : ParticipantId) (publicKey : PublicKeyExtended)
      (casts : Casts env event inst candidate publicKey) :
      Attempts env timeoutBlocks ceremony event
        (ceremony.vote (event.attemptId inst) publicKey)
        { event with inst := some (inst.withVote candidate publicKey) }
  | ended (call : Call) :
      Attempts env timeoutBlocks ceremony event call { event with inst := none }

theorem start_attempts (ceremony : Ceremony)
    (done : event.start env keyEventId timeoutBlocks = .ok after) :
    Attempts env timeoutBlocks ceremony event (ceremony.start keyEventId) after := by
  simp only [start, bind_ok_iff, require_eq_ok, pure_ok_iff] at done
  obtain ⟨_, _, _, rfl, _, leads, rfl⟩ := done
  exact .started (verifyLeader_ok leads)

/-- A success vote is counted, or it disagrees and ends the attempt. -/
theorem voteSuccess_casts
    (done : event.voteSuccess env keyEventId publicKey = .ok (complete, after)) :
    (∃ inst candidate, Casts env event inst candidate publicKey ∧
      keyEventId = event.attemptId inst ∧
      complete = decide ((inst.withVote candidate publicKey).completed.card =
        event.parameters.participants.len) ∧
      after = { event with inst := some (inst.withVote candidate publicKey) }) ∨
    (complete = false ∧ after = { event with inst := none }) := by
  simp only [voteSuccess, verifyVote, cleanupIfTimedOut, KeyEventInstance.voteSuccess, bind_ok_iff,
    found_eq_ok, Option.filter_eq_some_iff, require_eq_ok, pure_ok_iff] at done
  obtain ⟨⟨candidate, inst⟩, ⟨_, voter, _, ⟨ongoing, active⟩, _, sameId, same⟩, answer, counted,
    result⟩ := done
  cases same
  split at counted
  · cases counted
    cases result
    exact .inr ⟨rfl, rfl⟩
  · rename_i agrees
    simp only [bind_ok_iff, require_eq_ok, pure_ok_iff] at counted
    obtain ⟨_, _, rfl⟩ := counted
    cases result
    refine .inl ⟨inst, candidate, ⟨ongoing, of_decide_eq_true active, voter, ?_⟩, sameId, rfl, rfl⟩
    intro existing isKey
    rw [Option.mem_def.mp isKey] at agrees
    simpa using agrees

theorem voteSuccess_complete
    (done : event.voteSuccess env keyEventId publicKey = .ok (true, after)) :
    ∃ inst candidate, Casts env event inst candidate publicKey ∧
      keyEventId = event.attemptId inst ∧
      (inst.withVote candidate publicKey).completed.card = event.parameters.participants.len ∧
      after = { event with inst := some (inst.withVote candidate publicKey) } := by
  rcases voteSuccess_casts done with ⟨inst, candidate, casts, sameId, complete, same⟩ | ⟨failed, _⟩
  · exact ⟨inst, candidate, casts, sameId, of_decide_eq_true complete.symm, same⟩
  · cases failed

theorem voteSuccess_attempts (timeoutBlocks : Nat) (ceremony : Ceremony)
    (done : event.voteSuccess env keyEventId publicKey = .ok (complete, after)) :
    Attempts env timeoutBlocks ceremony event (ceremony.vote keyEventId publicKey) after := by
  rcases voteSuccess_casts done with ⟨inst, candidate, casts, rfl, _, rfl⟩ | ⟨_, rfl⟩
  · exact .voted inst candidate publicKey casts
  · exact .ended _

end KeyEvent

namespace ProtocolContractState

def ceremony : ProtocolContractState → Option (Ceremony × KeyEvent)
  | initializing state => some (.keygen, state.generatingKey)
  | resharing state => some (.resharing, state.resharingKey)
  | _ => none

/-- The keys accepted so far: those of a running contract, `generated_keys` or `reshared_keys`. -/
def acceptedKeys : ProtocolContractState → List KeyForDomain
  | notInitialized => []
  | initializing state => state.generatedKeys
  | running state => state.keyset.domains
  | resharing state => state.resharedKeys

/-- A cancelled resharing goes back to the keys from before it. -/
def goesBack : ProtocolContractState → ProtocolContractState → Bool
  | resharing _, running after => after.previouslyCancelledResharingEpochId.isSome
  | _, _ => false

structure Enters (key : KeyForDomain) (s t : ProtocolContractState) : Prop where
  new : key ∈ t.acceptedKeys
  old : key ∉ s.acceptedKeys
  forward : s.goesBack t = false

/-- What a call does to the key in work. It enters with the vote that completes the attempt. -/
inductive CeremonyStep (env : Env) (timeoutBlocks : Nat) (s : ProtocolContractState) (call : Call)
    (t : ProtocolContractState) : Prop where
  | attempts (ceremony : Ceremony) (event after : KeyEvent)
      (before : s.ceremony = some (ceremony, event)) (now : t.ceremony = some (ceremony, after))
      (attempts : event.Attempts env timeoutBlocks ceremony call after)
      (sameKeys : t.acceptedKeys = s.acceptedKeys)
  | accepted (ceremony : Ceremony) (event : KeyEvent) (inst : KeyEventInstance)
      (candidate : ParticipantId) (publicKey : PublicKeyExtended)
      (before : s.ceremony = some (ceremony, event))
      (fresh : ∀ next ∈ t.ceremony, next.2.inst = none)
      (asked : call = ceremony.vote (event.attemptId inst) publicKey)
      (casts : event.Casts env inst candidate publicKey)
      (complete : (inst.withVote candidate publicKey).completed.card =
        event.parameters.participants.len)
      (entered : t.acceptedKeys =
        s.acceptedKeys ++ [⟨event.domain.id, publicKey, inst.attemptId⟩])
      (reshares : ∀ state, s = .resharing state →
        ∃ previous, state.previousRunningState.keyset.domains[state.resharedKeys.length]? =
          some previous ∧ previous.key = publicKey)
  | turned (fresh : ∀ next ∈ t.ceremony, next.2.inst = none)
      (nothing : ∀ key, ¬ Enters key s t)

variable {call : Call}

/-- A call of a phase that works on no key starts a phase that has none to accept. -/
theorem ceremonyStep_running (transition : Transition env call (.running state) started epoch t) :
    CeremonyStep env timeoutBlocks (.running state) call t := by
  refine .turned ?_ ?_
  · cases transition <;> simp [ceremony, KeyEvent.new]
  · rintro key ⟨new, old, _⟩
    cases transition with
    | voted | keygenStarted => exact old new
    | resharingStarted | parametersReplaced => cases new

theorem ceremonyStep_votePk {publicKey : PublicKeyExtended}
    (done : state.votePk env keyEventId publicKey = .ok (next, changed)) :
    CeremonyStep env timeoutBlocks (.initializing state) (.votePk keyEventId publicKey)
      ((next.map running).getD (.initializing changed)) := by
  simp only [InitializingContractState.votePk, bind_ok_iff] at done
  obtain ⟨⟨complete, event⟩, voted, rest⟩ := done
  cases complete with
  | false =>
    cases rest
    exact .attempts .keygen _ event rfl rfl (KeyEvent.voteSuccess_attempts _ .keygen voted) rfl
  | true =>
    obtain ⟨inst, candidate, casts, rfl, all, rfl⟩ := KeyEvent.voteSuccess_complete voted
    simp only [if_true] at rest
    split at rest
    · cases rest
      exact .accepted .keygen _ inst candidate publicKey rfl (by rintro _ ⟨⟩; rfl) rfl casts
        all rfl (by simp)
    · cases rest
      exact .accepted .keygen _ inst candidate publicKey rfl (by rintro _ ⟨⟩) rfl casts
        all rfl (by simp)

theorem ceremonyStep_voteReshared
    (done : state.voteReshared env keyEventId = .ok (next, changed)) :
    CeremonyStep env timeoutBlocks (.resharing state) (.voteReshared keyEventId)
      ((next.map running).getD (.resharing changed)) := by
  simp only [ResharingContractState.voteReshared, bind_ok_iff, found_eq_ok] at done
  obtain ⟨previous, isPrevious, ⟨complete, event⟩, voted, rest⟩ := done
  have reshares : ∀ other, ProtocolContractState.resharing state = .resharing other →
      ∃ key, other.previousRunningState.keyset.domains[other.resharedKeys.length]? =
        some key ∧ key.key = previous.key := by
    rintro _ ⟨⟩
    exact ⟨previous, isPrevious, rfl⟩
  cases complete with
  | false =>
    cases rest
    exact .attempts .resharing _ event rfl rfl
      (KeyEvent.voteSuccess_attempts _ .resharing voted) rfl
  | true =>
    obtain ⟨inst, candidate, casts, rfl, all, rfl⟩ := KeyEvent.voteSuccess_complete voted
    simp only [if_true] at rest
    split at rest
    · cases rest
      exact .accepted .resharing _ inst candidate previous.key rfl (by rintro _ ⟨⟩; rfl) rfl
        casts all rfl reshares
    · cases rest
      exact .accepted .resharing _ inst candidate previous.key rfl (by rintro _ ⟨⟩) rfl
        casts all rfl reshares

theorem perform_ceremonyStep
    (done : perform env self call = .ok (next, contract)) :
    CeremonyStep env self.config.keyEventTimeoutBlocks self.protocolState call
      contract.protocolState := by
  have transition := perform_transition done
  obtain ⟨outcome, dispatched, rfl, _, rfl⟩ := perform_dispatched done
  generalize self.protocolState = phase at dispatched transition
  cases dispatched with
  | newParameters | addDomains | teeSwitch | teeExpel => exact ceremonyStep_running transition
  | startKeygen _ started =>
    simp only [InitializingContractState.start, bind_ok_iff, pure_ok_iff] at started
    obtain ⟨event, started, rfl⟩ := started
    exact .attempts .keygen _ event rfl rfl (KeyEvent.start_attempts .keygen started) rfl
  | startReshare _ started =>
    simp only [ResharingContractState.start, bind_ok_iff, pure_ok_iff] at started
    obtain ⟨event, started, rfl⟩ := started
    exact .attempts .resharing _ event rfl rfl (KeyEvent.start_attempts .resharing started) rfl
  | abortKeygen _ aborted =>
    simp only [InitializingContractState.voteAbort, bind_ok_iff, pure_ok_iff] at aborted
    obtain ⟨event, aborted, rfl⟩ := aborted
    rw [KeyEvent.voteAbort_ok aborted]
    exact .attempts .keygen _ _ rfl rfl (.ended _) rfl
  | abortReshare _ aborted =>
    simp only [ResharingContractState.voteAbort, bind_ok_iff, pure_ok_iff] at aborted
    obtain ⟨event, aborted, rfl⟩ := aborted
    rw [KeyEvent.voteAbort_ok aborted]
    exact .attempts .resharing _ _ rfl rfl (.ended _) rfl
  | votePk _ voted => exact ceremonyStep_votePk voted
  | voteReshared _ voted => exact ceremonyStep_voteReshared voted
  | cancelKeygen _ voted =>
    simp only [InitializingContractState.voteCancel, bind_ok_iff] at voted
    obtain ⟨_, _, _, _, rest⟩ := voted
    split at rest
    · cases rest
      exact .turned (by simp [ceremony]) (fun key enters => enters.old enters.new)
    · cases rest
      exact .attempts .keygen _ _ rfl rfl (.untouched _ rfl) rfl
  | cancelResharing _ voted =>
    simp only [ResharingContractState.voteCancelResharing, bind_ok_iff] at voted
    obtain ⟨_, _, rest⟩ := voted
    split at rest
    · cases rest
      exact .turned (by rintro _ ⟨⟩) (fun key enters => by cases enters.forward)
    · cases rest
      exact .attempts .resharing _ _ rfl rfl (.untouched _ rfl) rfl
  | otherParameters _ voted =>
    simp only [ResharingContractState.voteNewParameters, bind_ok_iff] at voted
    obtain ⟨_, _, ⟨accepted, voted⟩, processed, rest⟩ := voted
    obtain ⟨_, votes, rfl⟩ := RunningContractState.processNewParametersProposal_ok processed
    split at rest
    · simp only [bind_ok_iff, found_eq_ok, pure_ok_iff, Prod.mk.injEq] at rest
      obtain ⟨_, _, rfl, rfl⟩ := rest
      exact .turned (by rintro _ ⟨⟩; rfl) (fun key enters => by cases enters.new)
    · cases rest
      exact .attempts .resharing _ _ rfl rfl (.untouched _ rfl) rfl

end ProtocolContractState

theorem Seats.Valid.ceremony {s : ProtocolContractState} (valid : s.seats.Valid)
    {ceremony : Ceremony} (working : s.ceremony = some (ceremony, event)) :
    event.parameters.participants.Valid := by
  cases s with
  | initializing state =>
    cases working
    exact valid.governing
  | resharing state =>
    cases working
    exact valid.proposed _ rfl
  | notInitialized | running => cases working

namespace Deployment

variable {Collateral : Type} {verifier : AttestationVerifier Collateral}

structure Opens (ceremony : Ceremony) (keyEventId : KeyEventId) (participants : Participants)
    (inst : KeyEventInstance) (timeoutBlocks : Nat) (opening : MethodEvent Collateral) :
    Prop where
  asked : opening.1.2 = .govern (ceremony.start keyEventId)
  leads : participants.IsLowest opening.1.1.signerAccountId
  expires : inst.expiresOn = opening.1.1.blockHeight + 1 + timeoutBlocks

/-- The vote of the participant with the given id in the attempt. -/
structure VotesIn (ceremony : Ceremony) (keyEventId : KeyEventId) (participants : Participants)
    (inst : KeyEventInstance) (participant : ParticipantId) (vote : MethodEvent Collateral) :
    Prop where
  voter : (vote.1.1.signerAccountId, participant) ∈ participants.holders
  asked : ∃ publicKey, inst.publicKey = some publicKey ∧
    vote.1.2 = .govern (ceremony.vote keyEventId publicKey)
  inTime : vote.1.1.blockHeight < inst.expiresOn

def Unbroken (events : List (MethodEvent Collateral)) : Prop :=
  ∀ event ∈ events, ∀ call, event.1.2 = .govern call → call.endsAttempt = false

/-- The attempt was started, and since then everyone who is counted has voted. -/
def Accounts (ceremony : Ceremony) (keyEventId : KeyEventId) (participants : Participants)
    (inst : KeyEventInstance) (timeoutBlocks : Nat) (es : List (MethodEvent Collateral)) : Prop :=
  ∃ earlier opening later, es = earlier ++ opening :: later ∧
    Opens ceremony keyEventId participants inst timeoutBlocks opening ∧
    (∀ participant ∈ inst.completed, ∃ vote ∈ later,
      VotesIn ceremony keyEventId participants inst participant vote) ∧
    Unbroken later

section

variable {last : MethodEvent Collateral}

theorem Accounts.silent (accounts : Accounts ceremony keyEventId participants inst timeoutBlocks es)
    (silent : ∀ call, last.1.2 = .govern call → call.endsAttempt = false) :
    Accounts ceremony keyEventId participants inst timeoutBlocks (es ++ [last]) := by
  obtain ⟨earlier, opening, later, rfl, opens, votes, unbroken⟩ := accounts
  refine ⟨earlier, opening, later ++ [last], by simp, opens, ?_, ?_⟩
  · intro participant counted
    obtain ⟨vote, inside, votesIn⟩ := votes participant counted
    exact ⟨vote, List.mem_append_left _ inside, votesIn⟩
  · intro other inside
    rcases List.mem_append.mp inside with old | new
    · exact unbroken other old
    · rw [List.mem_singleton.mp new]
      exact silent

theorem authenticated_holder {env : Env}
    (voter : authenticatedParticipantId env participants = .ok participant) :
    (env.signerAccountId, participant) ∈ participants.holders := by
  simp only [authenticatedParticipantId, bind_ok_iff, found_eq_ok, pure_ok_iff] at voter
  obtain ⟨entry, isEntry, rfl⟩ := voter
  have signer : entry.1 = env.signerAccountId := by simpa using List.find?_some isEntry
  rw [← signer]
  exact List.mem_map_of_mem (f := fun entry => (entry.1, entry.2.1))
    (List.mem_of_find?_eq_some isEntry)

theorem Accounts.voted {d : Deployment} {event : KeyEvent} (note : MethodNote)
    (accounts : Accounts ceremony (event.attemptId inst) event.parameters.participants inst
      timeoutBlocks es) (casts : event.Casts (d.env host) inst candidate publicKey)
    (asked : call = ceremony.vote (event.attemptId inst) publicKey) :
    Accounts ceremony (event.attemptId inst) event.parameters.participants
      (inst.withVote candidate publicKey) timeoutBlocks
      (es ++ [((host, .govern call), note)]) := by
  obtain ⟨earlier, opening, later, rfl, opens, votes, unbroken⟩ := accounts
  refine ⟨earlier, opening, later ++ [((host, .govern call), note)], by simp,
    ⟨opens.asked, opens.leads, opens.expires⟩, ?_, ?_⟩
  · intro participant counted
    rcases Finset.mem_insert.mp counted with rfl | before
    · refine ⟨_, List.mem_append_right _ (List.mem_singleton.mpr rfl), ?_⟩
      exact ⟨authenticated_holder casts.voter, ⟨publicKey, rfl, by rw [asked]⟩, casts.inTime⟩
    · obtain ⟨vote, inside, voter, ⟨key, isKey, named⟩, inTime⟩ := votes participant before
      refine ⟨vote, List.mem_append_left _ inside, voter, ⟨publicKey, rfl, ?_⟩, inTime⟩
      rw [named, casts.agrees key isKey]
  · intro other inside
    rcases List.mem_append.mp inside with old | new
    · exact unbroken other old
    · rw [List.mem_singleton.mp new]
      rintro _ ⟨⟩
      rw [asked]
      exact ceremony.vote_endsAttempt _ _

end

/-- The history accounts for the ongoing attempt. -/
def AttemptRecorded (es : List (MethodEvent Collateral)) (d : Deployment) : Prop :=
  ∀ ceremony event inst, d.contract.protocolState.ceremony = some (ceremony, event) →
    event.inst = some inst →
    Accounts ceremony (event.attemptId inst) event.parameters.participants inst
      d.contract.config.keyEventTimeoutBlocks es

theorem acts_config (acts : Acts (act verifier) self event after) :
    after.contract.config = self.contract.config := by
  obtain ⟨⟨host, method⟩, note⟩ := event
  obtain ⟨settled, step, rfl⟩ := acts_step verifier acts
  cases step with
  | governed call next contract done =>
    obtain ⟨_, _, rfl⟩ := perform_frame done
    rfl
  | _ => rfl

theorem PhaseStep.attemptRecorded
    (step : self.PhaseStep host method note after.contract.protocolState)
    (sameConfig : after.contract.config = self.contract.config)
    (recorded : AttemptRecorded es self) :
    AttemptRecorded (es ++ [((host, method), note)]) after := by
  intro ceremony event inst working ongoing
  rw [sameConfig]
  generalize after.contract.protocolState = state at step working
  cases step with
  | governed call next contract done =>
    cases ProtocolContractState.perform_ceremonyStep done with
    | attempts sameCeremony before _ wasWorking now attempts =>
      obtain ⟨rfl, rfl⟩ := Prod.mk.inj (Option.some.inj (now.symm.trans working))
      cases attempts with
      | untouched _ silent =>
        refine (recorded _ _ inst wasWorking ongoing).silent ?_
        rintro _ ⟨⟩
        exact silent
      | started leads =>
        cases ongoing
        exact ⟨es, _, [], rfl, ⟨rfl, leads, rfl⟩, by simp [KeyEventInstance.new],
          by simp [Unbroken]⟩
      | voted old candidate publicKey casts =>
        cases ongoing
        exact (recorded _ _ old wasWorking casts.ongoing).voted _ casts rfl
      | ended => cases ongoing
    | accepted _ _ _ _ _ _ fresh =>
      rw [fresh _ working] at ongoing
      cases ongoing
    | turned fresh =>
      rw [fresh _ working] at ongoing
      cases ongoing
  | migrated => cases working
  | kept _ _ other =>
    refine (recorded _ _ inst working ongoing).silent ?_
    intro call same
    exact absurd same (other call)

theorem attemptRecorded_run (initial : Initial start) (run : Run (Acts (act verifier)) start es d) :
    AttemptRecorded es d := by
  refine run.invariant (fun es d => AttemptRecorded es d) ?_ ?_
  · intro ceremony event inst working
    obtain ⟨_, _, _, _, _, running, _⟩ := initial.running
    rw [running] at working
    cases working
  · intro es before event after _ recorded acts
    exact (acts_phase verifier acts).attemptRecorded (acts_config acts) recorded

/-- The lowest id starts one attempt, everyone votes for one key in time, and nobody ends it. -/
structure Unanimous (ceremony : Ceremony) (event : KeyEvent) (timeoutBlocks : Nat)
    (key : KeyForDomain) (opening : MethodEvent Collateral)
    (later : List (MethodEvent Collateral)) : Prop where
  domain : key.domainId = event.domain.id
  asked : opening.1.2 = .govern (ceremony.start ⟨event.epochId, key.domainId, key.attempt⟩)
  leads : event.parameters.participants.IsLowest opening.1.1.signerAccountId
  everyone : ∀ entry ∈ event.parameters.participants.participants, ∃ vote ∈ later,
    vote.1.1.signerAccountId = entry.1 ∧
    vote.1.2 = .govern (ceremony.vote ⟨event.epochId, key.domainId, key.attempt⟩ key.key) ∧
    vote.1.1.blockHeight < opening.1.1.blockHeight + 1 + timeoutBlocks
  unbroken : Unbroken later

theorem Accounts.unanimous
    (accounts : Accounts ceremony (event.attemptId inst) event.parameters.participants inst
      timeoutBlocks es) (valid : event.parameters.participants.Valid)
    (complete : inst.completed.card = event.parameters.participants.len)
    (isKey : inst.publicKey = some publicKey) :
    ∃ earlier opening later, es = earlier ++ opening :: later ∧
      Unanimous ceremony event timeoutBlocks ⟨event.domain.id, publicKey, inst.attemptId⟩
        opening later := by
  obtain ⟨earlier, opening, later, split, opens, votes, unbroken⟩ := accounts
  refine ⟨earlier, opening, later, split, rfl, opens.asked, opens.leads, ?_, unbroken⟩
  have counted : inst.completed ⊆ (event.parameters.participants.holders.map Prod.snd).toFinset := by
    intro participant inside
    obtain ⟨vote, _, votesIn⟩ := votes participant inside
    exact List.mem_toFinset.mpr (List.mem_map_of_mem (f := Prod.snd) votesIn.voter)
  have all : inst.completed = (event.parameters.participants.holders.map Prod.snd).toFinset := by
    apply Finset.eq_of_subset_of_card_le counted
    rw [List.toFinset_card_of_nodup valid.distinctIds, complete]
    simp [Participants.holders, Participants.len]
  intro entry inside
  have holder : (entry.1, entry.2.1) ∈ event.parameters.participants.holders :=
    List.mem_map_of_mem (f := fun entry => (entry.1, entry.2.1)) inside
  have hasVoted : entry.2.1 ∈ inst.completed := by
    rw [all, List.mem_toFinset]
    exact List.mem_map_of_mem (f := Prod.snd) holder
  obtain ⟨vote, isLater, voter, ⟨named, isNamed, asked⟩, inTime⟩ := votes entry.2.1 hasVoted
  cases isKey.symm.trans isNamed
  exact ⟨vote, isLater, valid.unique voter holder, asked, opens.expires ▸ inTime⟩

/-- A key needs the votes of all participants in one attempt, and a resharing keeps the key. -/
theorem key_accepted_unanimously {start d after : Deployment} {es : List (MethodEvent Collateral)}
    {last : MethodEvent Collateral} {key : KeyForDomain} (initial : Initial start)
    (run : Run (Acts (act verifier)) start es d) (acts : Acts (act verifier) d last after)
    (enters : d.contract.protocolState.Enters key after.contract.protocolState) :
    ∃ ceremony event, d.contract.protocolState.ceremony = some (ceremony, event) ∧
      (∃ earlier opening later, es ++ [last] = earlier ++ opening :: later ∧
        Unanimous ceremony event d.contract.config.keyEventTimeoutBlocks key opening later) ∧
      ∀ state, d.contract.protocolState = .resharing state →
        ∃ previous ∈ state.previousRunningState.keyset.domains,
          previous.domainId = key.domainId ∧ previous.key = key.key := by
  obtain ⟨⟨host, method⟩, note⟩ := last
  have recorded := attemptRecorded_run initial run
  have valid := valid_run initial run
  have aligned := alignment_run initial.aligned run
  have step := acts_phase verifier acts
  generalize after.contract.protocolState = state at step enters
  cases step with
  | governed call next contract done =>
    cases ProtocolContractState.perform_ceremonyStep done with
    | attempts _ _ _ _ _ _ sameKeys => exact absurd (sameKeys ▸ enters.new) enters.old
    | turned _ nothing => exact absurd enters (nothing key)
    | accepted ceremony event inst candidate publicKey working _ asked casts complete entered
      reshares =>
      have new := enters.new
      rw [entered, List.mem_append, List.mem_singleton] at new
      cases new.resolve_left enters.old
      have accounts : Accounts ceremony (event.attemptId (inst.withVote candidate publicKey))
          event.parameters.participants _ _ _ :=
        (recorded _ _ inst working casts.ongoing).voted (.wentTo next) casts asked
      refine ⟨ceremony, event, working,
        accounts.unanimous (valid.ceremony working) complete rfl, ?_⟩
      intro state isResharing
      obtain ⟨previous, isPrevious, sameKey⟩ := reshares state isResharing
      rw [isResharing] at aligned working
      obtain ⟨_, isNext, sameDomain⟩ := ResharingContractState.nextKey aligned
      cases isPrevious.symm.trans isNext
      cases working
      exact ⟨previous, List.mem_of_getElem? isPrevious, sameDomain, sameKey⟩
  | migrated _ running _ _ migrates =>
    refine absurd ?_ enters.old
    rw [migrates.isRunning]
    exact enters.new
  | kept => exact absurd enters.new enters.old

private def signingPair : ThresholdParameters := ⟨Sample.participants 2 [(0, 0), (1, 1)], 2⟩

private def firstAttemptId : KeyEventId := ⟨⟨0⟩, ⟨0⟩, ⟨0⟩⟩

/-- A domain is added, and all votes for its key are there but one. -/
private def almostGenerated : List (Host × Method Unit) :=
  Sample.byAll [0, 1] (.govern (.voteAddDomains [⟨⟨0⟩, .secp256k1, .sign⟩])) ++
    [(Sample.host 0, .govern (.startKeygenInstance firstAttemptId)),
      (Sample.host 0, .govern (.votePk firstAttemptId Sample.rootKey))]

private def lastVote : Host × Method Unit :=
  (Sample.host 1, .govern (.votePk firstAttemptId Sample.rootKey))

private def generatedKey : KeyForDomain := ⟨⟨0⟩, Sample.rootKey, ⟨0⟩⟩

/-- The second of two participants completes the first attempt. -/
theorem key_accepted_unanimously_generated :
    ∃ es d last after ceremony event, ∃ opening : MethodEvent Unit, ∃ later,
      Run (Acts (act Sample.verifier)) (Sample.start signingPair) es d ∧
      Acts (act Sample.verifier) d last after ∧
      d.contract.protocolState.Enters generatedKey after.contract.protocolState ∧
      Unanimous ceremony event 30 generatedKey opening later := by
  obtain ⟨es, d, note, after, run, _, acts, none, one, forward, timeout⟩ := exists_run_then
    (act Sample.verifier) (Sample.start signingPair) almostGenerated lastVote (fun _ d _ after =>
      d.contract.protocolState.acceptedKeys = [] ∧
      after.contract.protocolState.acceptedKeys = [generatedKey] ∧
      d.contract.protocolState.goesBack after.contract.protocolState = false ∧
      d.contract.config.keyEventTimeoutBlocks = 30) (by decide +kernel)
  have enters : d.contract.protocolState.Enters generatedKey after.contract.protocolState :=
    ⟨by simp [one], by simp [none], forward⟩
  obtain ⟨ceremony, event, _, ⟨_, opening, later, _, unanimous⟩, _⟩ :=
    key_accepted_unanimously (Sample.start_initial signingPair rfl) run acts enters
  rw [timeout] at unanimous
  exact ⟨es, d, _, after, ceremony, event, opening, later, run, acts, enters, unanimous⟩

end Deployment

end MpcNetwork.Contract
