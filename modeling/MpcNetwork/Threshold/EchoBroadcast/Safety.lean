import MpcNetwork.Threshold.EchoBroadcast.Votes

/-! # Agreement, validity and integrity of echo broadcast

Everything rests on echo quorums.  An honest participant that sends a ready vote has
seen one or has believed an honest participant that did, and two quorums of one
session share an honest participant, which echoes one value only.
-/

namespace MpcNetwork.Threshold.EchoBroadcast

open Runs Ballots

variable {T : Type}

abbrev History (T : Type) := List (Event T × Unit)

namespace Config

def echoT (cfg : Config T) : Nat := (echoReadyThresholds cfg.participants.len).1

def readyT (cfg : Config T) : Nat := (echoReadyThresholds cfg.participants.len).2

/-- At most a third of the participants is Byzantine, and nobody among up to three. -/
def FewByzantine (cfg : Config T) : Prop := cfg.byzantine.card ≤ (cfg.participants.len - 1) / 3

instance (cfg : Config T) : Decidable cfg.FewByzantine := inferInstanceAs (Decidable (_ ≤ _))

def everyone (cfg : Config T) : Finset Participant := cfg.participants.participants.toFinset

end Config

/-- An honest participant has sent it to everybody, a Byzantine one to somebody. -/
def Said (cfg : Config T) (es : History T) (s : System T) (q : Participant) (i : Nat)
    (vote : MessageType T) : Prop :=
  q ∈ cfg.participants.participants ∧
    (q ∉ cfg.byzantine ∧ (q, i, vote) ∈ s.posted ∨
      q ∈ cfg.byzantine ∧ ∃ receiver, (Event.receive ⟨q, receiver, i, vote⟩, ()) ∈ es)

/-- More participants than the echo threshold have echoed the value. -/
def EchoQuorum (cfg : Config T) (es : History T) (s : System T) (i : Nat) (v : T) : Prop :=
  ∃ S ⊆ cfg.everyone, cfg.echoT < S.card ∧ ∀ q ∈ S, Said cfg es s q i (.echo v)

/-- What holds of the votes honest participants have sent. -/
structure PostedInv (cfg : Config T) (es : History T) (s : System T) : Prop where
  sends : ∀ p i v, p ∉ cfg.byzantine → (p, i, .send v) ∈ s.posted → v = cfg.input p
  echoOwner : ∀ p i v, (p, i, .echo v) ∈ s.posted → ∃ o, cfg.participants.index o = some i
  echoOnce : ∀ p i v w, (p, i, .echo v) ∈ s.posted → (p, i, .echo w) ∈ s.posted → v = w
  echoHonest : ∀ p i v q, (p, i, .echo v) ∈ s.posted → q ∉ cfg.byzantine →
    cfg.participants.index q = some i → v = cfg.input q
  readies : ∀ p i v, (p, i, .ready v) ∈ s.posted → EchoQuorum cfg es s i v

variable {cfg : Config T} {es : History T} {s : System T}

theorem Said.mono (longer : ∀ e ∈ es, e ∈ es')
    (more : ∀ vote ∈ s.posted, vote ∈ s'.posted) (said : Said cfg es s q i vote) :
    Said cfg es' s' q i vote := by
  obtain ⟨member, ⟨honest, posted⟩ | ⟨faulty, receiver, heard⟩⟩ := said
  · exact ⟨member, .inl ⟨honest, more _ posted⟩⟩
  · exact ⟨member, .inr ⟨faulty, receiver, longer _ heard⟩⟩

theorem EchoQuorum.mono (longer : ∀ e ∈ es, e ∈ es')
    (more : ∀ vote ∈ s.posted, vote ∈ s'.posted) (quorum : EchoQuorum cfg es s i v) :
    EchoQuorum cfg es' s' i v := by
  obtain ⟨S, inside, large, echoed⟩ := quorum
  exact ⟨S, inside, large, fun q member => (echoed q member).mono longer more⟩

theorem card_everyone (cfg : Config T) : cfg.everyone.card = cfg.participants.len :=
  List.toFinset_card_of_nodup cfg.participants.distinct

theorem Config.FewByzantine.readyT (few : cfg.FewByzantine) : cfg.byzantine.card ≤ cfg.readyT := by
  unfold FewByzantine at few
  unfold Config.readyT echoReadyThresholds
  split
  · omega
  · exact few

theorem Config.FewByzantine.echoT (few : cfg.FewByzantine) : cfg.byzantine.card ≤ cfg.echoT := by
  unfold FewByzantine at few
  unfold Config.echoT echoReadyThresholds
  split
  · omega
  · dsimp only
    omega

theorem EchoQuorum.honest (few : cfg.FewByzantine) (quorum : EchoQuorum cfg es s i v) :
    ∃ q, (q, i, .echo v) ∈ s.posted := by
  obtain ⟨S, _, large, echoed⟩ := quorum
  obtain ⟨q, member, honest⟩ := exists_outside (few.echoT.trans_lt large)
  obtain ⟨_, ⟨_, posted⟩ | ⟨faulty, _⟩⟩ := echoed q member
  · exact ⟨q, posted⟩
  · exact absurd faulty honest

theorem PostedInv.valid (posts : PostedInv cfg es s) (few : cfg.FewByzantine)
    (quorum : EchoQuorum cfg es s i v) (honest : q ∉ cfg.byzantine)
    (owner : cfg.participants.index q = some i) : v = cfg.input q := by
  obtain ⟨p, echoed⟩ := quorum.honest few
  exact posts.echoHonest p i v q echoed honest owner

theorem PostedInv.agree (posts : PostedInv cfg es s) (few : cfg.FewByzantine)
    (quorum : EchoQuorum cfg es s i v) (other : EchoQuorum cfg es s i w) : v = w := by
  by_cases small : cfg.participants.len ≤ 3
  · -- nobody is Byzantine, so the session's own participant is honest
    obtain ⟨p, echoed⟩ := quorum.honest few
    obtain ⟨o, owner⟩ := posts.echoOwner p i v echoed
    have nobody : cfg.byzantine = ∅ := by
      unfold Config.FewByzantine at few
      exact Finset.card_eq_zero.mp (by omega)
    have honest : o ∉ cfg.byzantine := by simp [nobody]
    exact (posts.valid few quorum honest owner).trans (posts.valid few other honest owner).symm
  · obtain ⟨S, inside, large, echoed⟩ := quorum
    obtain ⟨S', inside', large', echoed'⟩ := other
    have sizes : cfg.everyone.card + cfg.byzantine.card < S.card + S'.card := by
      unfold Config.FewByzantine at few
      unfold Config.echoT echoReadyThresholds at large large'
      rw [if_neg small] at large large'
      dsimp only at large large'
      rw [card_everyone]
      omega
    obtain ⟨q, member, member', honest⟩ := exists_common_outside inside inside' sizes
    obtain ⟨_, ⟨_, posted⟩ | ⟨faulty, _⟩⟩ := echoed q member
    · obtain ⟨_, ⟨_, posted'⟩ | ⟨faulty, _⟩⟩ := echoed' q member'
      · exact posts.echoOnce q i v w posted posted'
      · exact absurd faulty honest
    · exact absurd faulty honest

variable [DecidableEq T]

structure NodeInv (cfg : Config T) (es : History T) (s : System T) (p : Participant)
    (node : Node T) : Prop where
  echoTallied : ∀ i, Tallied (fun q v => Said cfg es s q i (.echo v)) (node.state i).seenEcho
    (node.state i).dataEcho
  readyTallied : ∀ i, Tallied (fun q v => Said cfg es s q i (.ready v)) (node.state i).seenReady
    (node.state i).dataReady
  unsent : ∀ i, (node.state i).finishSend = false → ∀ v, (p, i, .echo v) ∉ s.posted
  outputs : ∀ i v, node.voteOutput i = some v → EchoQuorum cfg es s i v
  finished : ∀ i, (node.state i).finishReady = true → node.voteOutput i ≠ none
  own : ∀ j vote, node.simulated = some (j, vote) → (p, j, vote) ∈ s.posted
  returned : ∀ m, node.result = some (.ok m) →
    m = (List.range cfg.participants.len).map node.voteOutput ∧
      ∀ i < cfg.participants.len, (node.state i).finishReady = true
  stuck : ∀ i, node.result = some (.error (.maliciousSender i)) →
    isEnough cfg.participants.len cfg.echoT (node.state i).dataEcho = false ∧
      ∃ v k, (node.state i).dataEcho.get v = some k
  sound : ∀ i, node.result ≠ some (.error (.outputDiffers i))

structure Invariant (cfg : Config T) (es : History T) (s : System T) : Prop where
  nodes : ∀ p, cfg.Honest p → NodeInv cfg es s p (s.node p)
  posts : PostedInv cfg es s

variable {node : Node T}

theorem NodeInv.longer (longer : ∀ e ∈ es, e ∈ es') (inv : NodeInv cfg es s p node) :
    NodeInv cfg es' s p node :=
  { inv with
    echoTallied := fun i => (inv.echoTallied i).mono fun _ _ => Said.mono longer fun _ => id
    readyTallied := fun i => (inv.readyTallied i).mono fun _ _ => Said.mono longer fun _ => id
    outputs := fun i v output => (inv.outputs i v output).mono longer fun _ => id }

theorem Invariant.longer (longer : ∀ e ∈ es, e ∈ es') (inv : Invariant cfg es s) :
    Invariant cfg es' s where
  nodes := fun p honest => (inv.nodes p honest).longer longer
  posts := { inv.posts with
    readies := fun p i v posted => (inv.posts.readies p i v posted).mono longer fun _ => id }

theorem echoQuorum_of_tallied (tallied : Tallied (fun q v => Said cfg es s q i (.echo v)) seen c)
    (found : c.get v = some count) (enough : cfg.echoT < count) : EchoQuorum cfg es s i v := by
  obtain ⟨b, counts, cast⟩ := tallied
  have said : ∀ q ∈ b.supporters v, Said cfg es s q i (.echo v) :=
    fun q member => (cast _ (Box.mem_supporters.mp member)).2
  refine ⟨b.supporters v, ?_, ?_, said⟩
  · intro q member
    exact List.mem_toFinset.mpr (said q member).1
  · rw [b.card_supporters, counts.get_eq found]
    exact enough

theorem honest_ready_of_tallied (few : cfg.FewByzantine)
    (tallied : Tallied (fun q v => Said cfg es s q i (.ready v)) seen c)
    (found : c.get v = some count) (enough : cfg.readyT < count) :
    ∃ q, (q, i, .ready v) ∈ s.posted := by
  obtain ⟨b, counts, cast⟩ := tallied
  have large : cfg.byzantine.card < (b.supporters v).card := by
    rw [b.card_supporters, counts.get_eq found]
    exact few.readyT.trans_lt enough
  obtain ⟨q, member, honest⟩ := exists_outside large
  obtain ⟨_, ⟨_, posted⟩ | ⟨faulty, _⟩⟩ := (cast _ (Box.mem_supporters.mp member)).2
  · exact ⟨q, posted⟩
  · exact absurd faulty honest

/-- Everything one iteration does to its participant. -/
structure IterationSpec (participants : ParticipantList) (me : Participant) (input : T)
    (node next : Node T) (sid : Nat) (e : Effect T) : Prop where
  state : next.state = Function.update node.state sid e.session
  simulated : next.simulated = e.announce.map (sid, ·)
  output : ∀ i v, next.voteOutput i = some v →
    node.voteOutput i = some v ∨ (i = sid ∧ e.outcome = .output v)
  keeps : ∀ i, node.voteOutput i ≠ none → next.voteOutput i ≠ none
  filled : ∀ v, e.outcome = .output v → next.voteOutput sid ≠ none
  result : next.result = node.result ∨
    (∃ error, e.outcome = .fail error ∧ next.result = some (.error error)) ∨
    (∃ v, e.outcome = .output v ∧ participants.index me = some sid ∧ v ≠ input) ∨
    (next.result = some (.ok ((List.range participants.len).map next.voteOutput)) ∧
      ∀ i < participants.len, (next.state i).finishReady = true)

theorem iterate_spec (participants : ParticipantList) (me : Participant) (input : T)
    (node : Node T) (sender : Participant) (sid : Nat) (vote : MessageType T)
    (inside : sid < participants.len) :
    IterationSpec participants me input node
      (iterate participants me input node sender sid vote).1 sid
      (onVote participants (node.state sid) sender sid vote) := by
  unfold iterate
  rw [if_pos inside]
  generalize onVote participants (node.state sid) sender sid vote = e
  obtain ⟨session, announce, outcome⟩ := e
  cases outcome with
  | proceed =>
    exact {
      state := rfl
      simulated := rfl
      output := fun _ _ => .inl
      keeps := fun _ => id
      filled := by simp
      result := .inl rfl }
  | fail error =>
    exact {
      state := rfl
      simulated := rfl
      output := fun _ _ => .inl
      keeps := fun _ => id
      filled := by simp
      result := .inr (.inl ⟨error, rfl, rfl⟩) }
  | output data =>
    simp only [deliver]
    have output : ∀ i v, Function.update node.voteOutput sid
        (some ((node.voteOutput sid).getD data)) i = some v →
        node.voteOutput i = some v ∨ (i = sid ∧ Outcome.output data = .output v) := by
      intro i v written
      by_cases same : i = sid
      · subst same
        rw [Function.update_self] at written
        cases before : node.voteOutput i with
        | none => simp_all
        | some u => simp_all
      · rw [Function.update_of_ne same] at written
        exact .inl written
    have keeps : ∀ i, node.voteOutput i ≠ none → Function.update node.voteOutput sid
        (some ((node.voteOutput sid).getD data)) i ≠ none := by
      intro i before
      by_cases same : i = sid
      · subst same
        simp
      · rwa [Function.update_of_ne same]
    have filled : ∀ v, Outcome.output data = .output v → Function.update node.voteOutput sid
        (some ((node.voteOutput sid).getD data)) sid ≠ none := by simp
    split
    · rename_i differs
      exact {
        state := rfl
        simulated := rfl
        output := output
        keeps := keeps
        filled := filled
        result := .inr (.inr (.inl ⟨data, rfl, differs⟩)) }
    · split
      · rename_i done
        simp only [List.all_eq_true, List.mem_range] at done
        exact {
          state := rfl
          simulated := rfl
          output := output
          keeps := keeps
          filled := filled
          result := .inr (.inr (.inr ⟨rfl, done⟩)) }
      · exact {
          state := rfl
          simulated := rfl
          output := output
          keeps := keeps
          filled := filled
          result := .inl rfl }

theorem index_injective {participants : ParticipantList} (here : participants.index p = some i)
    (there : participants.index q = some i) : p = q := by
  obtain ⟨_, first, _⟩ := List.findIdx?_eq_some_iff_getElem.mp here
  obtain ⟨_, second, _⟩ := List.findIdx?_eq_some_iff_getElem.mp there
  exact (beq_iff_eq.mp first).symm.trans (beq_iff_eq.mp second)

theorem iterate_announced (participants : ParticipantList) (me : Participant) (input : T)
    (node : Node T) (sender : Participant) (sid : Nat) (vote : MessageType T)
    (inside : sid < participants.len) :
    (iterate participants me input node sender sid vote).2 =
      (onVote participants (node.state sid) sender sid vote).announce.map (sid, ·) := by
  unfold iterate
  rw [if_pos inside]
  dsimp only
  split <;> rfl

section Step

variable {s : System T} {p : Participant} {sid : Nat} {next : Node T}

/-- The system after `p` has moved to `next` and announced a vote. -/
def moved (s : System T) (p : Participant) (next : Node T) (sid : Nat)
    (announce : Option (MessageType T)) : System T where
  node := Function.update s.node p next
  posted := s.posted ++ ((announce.map (sid, ·)).map (p, ·)).toList

omit [DecidableEq T] in
theorem mem_moved :
    (q, i, v) ∈ (moved s p next sid announce).posted ↔
      (q, i, v) ∈ s.posted ∨ (q = p ∧ i = sid ∧ announce = some v) := by
  cases announce with
  | none => simp [moved]
  | some a =>
    simp only [moved, Option.map_some, Option.toList_some, List.mem_append,
      List.mem_singleton, Prod.mk.injEq, Option.some.injEq, eq_comm]

omit [DecidableEq T] in
theorem mem_moved_of_mem : ∀ v ∈ s.posted, v ∈ (moved s p next sid announce).posted :=
  fun _ => List.mem_append_left _

section

variable {vote : MessageType T} {e : Effect T} (said : Said cfg es s sender sid vote)
  (spec : EffectSpec cfg.participants ((s.node p).state sid) sender sid vote e)
  (iter : IterationSpec cfg.participants p (cfg.input p) (s.node p) next sid e)

include said spec iter

theorem echoTallied_next (inv : NodeInv cfg es s p (s.node p)) (i : Nat) :
    Tallied (fun q v => Said cfg es s q i (.echo v)) (next.state i).seenEcho
      (next.state i).dataEcho := by
  rw [iter.state]
  by_cases same : i = sid
  · subst same
    rw [Function.update_self]
    apply (inv.echoTallied i).step spec.echo
    intro value echoed
    cases vote <;> simp_all [MessageType.echoed]
  · rw [Function.update_of_ne same]
    exact inv.echoTallied i

theorem readyTallied_next (inv : NodeInv cfg es s p (s.node p)) (i : Nat) :
    Tallied (fun q v => Said cfg es s q i (.ready v)) (next.state i).seenReady
      (next.state i).dataReady := by
  rw [iter.state]
  by_cases same : i = sid
  · subst same
    rw [Function.update_self]
    apply (inv.readyTallied i).step spec.ready
    intro value readied
    cases vote <;> simp_all [MessageType.readied]
  · rw [Function.update_of_ne same]
    exact inv.readyTallied i

variable (few : cfg.FewByzantine) (inv : Invariant cfg es s) (honest : cfg.Honest p)

include few inv honest

/-- A ready vote is only announced, and an output only made, for a value with a quorum. -/
theorem echoQuorum_of_ready
    (cause : e.announce = some (.ready v) ∨ e.outcome = .output v) : EchoQuorum cfg es s sid v := by
  have echoes := echoTallied_next said spec iter (inv.nodes p honest) sid
  have readies := readyTallied_next said spec iter (inv.nodes p honest) sid
  rw [iter.state, Function.update_self] at echoes readies
  have believed : (∃ count, e.session.dataReady.get v = some count ∧ cfg.readyT < count) →
      EchoQuorum cfg es s sid v := by
    intro ⟨count, found, enough⟩
    obtain ⟨q, posted⟩ := honest_ready_of_tallied few readies found enough
    exact inv.posts.readies q sid v posted
  rcases cause with announced | output
  · rcases spec.readies v announced with ⟨count, found, enough⟩ | amplified
    · exact echoQuorum_of_tallied echoes found enough
    · exact believed amplified
  · obtain ⟨count, found, enough⟩ := spec.outputs v output
    have more : cfg.readyT < count := by
      unfold Config.readyT
      omega
    exact believed ⟨count, found, more⟩

theorem PostedInv.moved : PostedInv cfg es (moved s p next sid e.announce) := by
  have posts := inv.posts
  have first : ∀ v, e.announce = some (.echo v) → ∀ w, (p, sid, .echo w) ∉ s.posted := by
    intro v announced
    exact (inv.nodes p honest).unsent sid (spec.echoes v announced).2.1
  constructor
  · intro q i v good posted
    rcases mem_moved.mp posted with before | ⟨_, _, now⟩
    · exact posts.sends q i v good before
    · exact absurd now (spec.noSend v)
  · intro q i v posted
    rcases mem_moved.mp posted with before | ⟨_, rfl, now⟩
    · exact posts.echoOwner q i v before
    · exact ⟨sender, (spec.echoes v now).2.2.2⟩
  · intro q i v w posted posted'
    rcases mem_moved.mp posted with before | ⟨rfl, rfl, now⟩
    · rcases mem_moved.mp posted' with before' | ⟨rfl, rfl, now'⟩
      · exact posts.echoOnce q i v w before before'
      · exact absurd before (first w now' v)
    · rcases mem_moved.mp posted' with before' | ⟨_, _, now'⟩
      · exact absurd before' (first v now w)
      · rw [now] at now'
        simpa using now'
  · intro q i v o posted good owner
    rcases mem_moved.mp posted with before | ⟨_, rfl, now⟩
    · exact posts.echoHonest q i v o before good owner
    · obtain ⟨rfl, _, _, index⟩ := spec.echoes v now
      obtain rfl := index_injective index owner
      obtain ⟨_, ⟨_, sent⟩ | ⟨faulty, _⟩⟩ := said
      · exact posts.sends sender i v good sent
      · exact absurd faulty good
  · intro q i v posted
    rcases mem_moved.mp posted with before | ⟨_, rfl, now⟩
    · exact (posts.readies q i v before).mono (fun _ => id) mem_moved_of_mem
    · exact (echoQuorum_of_ready said spec iter few inv honest (.inl now)).mono (fun _ => id)
        mem_moved_of_mem

theorem NodeInv.moved (running : (s.node p).result = none) :
    NodeInv cfg es (moved s p next sid e.announce) p next := by
  have node := inv.nodes p honest
  have agrees : ¬ ∃ v, e.outcome = .output v ∧ cfg.participants.index p = some sid ∧
      v ≠ cfg.input p := by
    intro ⟨v, output, owner, differs⟩
    have quorum := echoQuorum_of_ready said spec iter few inv honest (.inr output)
    exact differs (inv.posts.valid few quorum honest.2 owner)
  constructor
  · intro i
    exact (echoTallied_next said spec iter node i).mono fun _ _ =>
      Said.mono (fun _ => id) mem_moved_of_mem
  · intro i
    exact (readyTallied_next said spec iter node i).mono fun _ _ =>
      Said.mono (fun _ => id) mem_moved_of_mem
  · intro i unfinished v posted
    rw [iter.state] at unfinished
    rcases mem_moved.mp posted with before | ⟨_, rfl, now⟩
    · by_cases same : i = sid
      · subst same
        rw [Function.update_self] at unfinished
        have earlier : ((s.node p).state i).finishSend = false := by
          by_contra finished
          rw [spec.finishSend (Bool.not_eq_false _ ▸ finished)] at unfinished
          cases unfinished
        exact node.unsent i earlier v before
      · rw [Function.update_of_ne same] at unfinished
        exact node.unsent i unfinished v before
    · rw [Function.update_self, (spec.echoes v now).2.2.1] at unfinished
      cases unfinished
  · intro i v output
    rcases iter.output i v output with before | ⟨rfl, now⟩
    · exact (node.outputs i v before).mono (fun _ => id) mem_moved_of_mem
    · exact (echoQuorum_of_ready said spec iter few inv honest (.inr now)).mono (fun _ => id)
        mem_moved_of_mem
  · intro i finished
    rw [iter.state] at finished
    by_cases same : i = sid
    · subst same
      rw [Function.update_self] at finished
      rcases spec.finishReady finished with before | ⟨v, now⟩
      · exact iter.keeps i (node.finished i before)
      · exact iter.filled v now
    · rw [Function.update_of_ne same] at finished
      exact iter.keeps i (node.finished i finished)
  · intro j own pending
    rw [iter.simulated] at pending
    obtain ⟨v, announced, same⟩ := Option.map_eq_some_iff.mp pending
    cases same
    exact mem_moved.mpr (.inr ⟨rfl, rfl, announced⟩)
  · intro m returned
    rcases iter.result with same | ⟨error, _, now⟩ | differs | ⟨now, done⟩
    · rw [same, running] at returned
      cases returned
    · rw [now] at returned
      cases returned
    · exact absurd differs agrees
    · rw [now] at returned
      cases returned
      exact ⟨rfl, done⟩
  · intro i stuck
    rcases iter.result with same | ⟨error, failed, now⟩ | differs | ⟨now, _⟩
    · rw [same, running] at stuck
      cases stuck
    · rw [now] at stuck
      cases stuck
      obtain ⟨rfl, hopeless, slot⟩ := spec.blames i failed
      rw [iter.state, Function.update_self]
      exact ⟨hopeless, slot⟩
    · exact absurd differs agrees
    · rw [now] at stuck
      cases stuck
  · intro i returned
    rcases iter.result with same | ⟨error, failed, now⟩ | differs | ⟨now, _⟩
    · rw [same, running] at returned
      cases returned
    · rw [now] at returned
      cases returned
      exact spec.noDiffer i failed
    · exact absurd differs agrees
    · rw [now] at returned
      cases returned

end

theorem NodeInv.more (inv : NodeInv cfg es s q node)
    (more : ∀ v ∈ s.posted, v ∈ t.posted)
    (echoes : ∀ i v, (q, i, .echo v) ∈ t.posted → (q, i, .echo v) ∈ s.posted) :
    NodeInv cfg es t q node :=
  { inv with
    echoTallied := fun i => (inv.echoTallied i).mono fun _ _ => Said.mono (fun _ => id) more
    readyTallied := fun i => (inv.readyTallied i).mono fun _ _ => Said.mono (fun _ => id) more
    unsent := fun i unfinished v posted => inv.unsent i unfinished v (echoes i v posted)
    outputs := fun i v output => (inv.outputs i v output).mono (fun _ => id) more
    own := fun j vote pending => more _ (inv.own j vote pending) }

theorem handle_inside (inside : sid < cfg.participants.len) :
    cfg.handle s p sender sid vote =
      moved s p (iterate cfg.participants p (cfg.input p) (s.node p) sender sid vote).1 sid
        (onVote cfg.participants ((s.node p).state sid) sender sid vote).announce := by
  simp only [Config.handle, moved,
    iterate_announced cfg.participants p (cfg.input p) (s.node p) sender sid vote inside]

theorem handle_outside (outside : ¬ sid < cfg.participants.len) :
    cfg.handle s p sender sid vote = moved s p { s.node p with simulated := none } sid none := by
  simp only [Config.handle, iterate, if_neg outside, moved, Option.map_none]

theorem Invariant.handle (few : cfg.FewByzantine) (inv : Invariant cfg es s)
    (honest : cfg.Honest p) (running : (s.node p).result = none)
    (said : Said cfg es s sender sid vote) : Invariant cfg es (cfg.handle s p sender sid vote) := by
  by_cases inside : sid < cfg.participants.len
  · have spec := onVote_spec cfg.participants ((s.node p).state sid) sender sid vote
    have iter := iterate_spec cfg.participants p (cfg.input p) (s.node p) sender sid vote inside
    rw [handle_inside inside]
    constructor
    · intro q good
      by_cases here : q = p
      · subst here
        simp only [moved, Function.update_self]
        exact NodeInv.moved said spec iter few inv honest running
      · have other : (moved s p (iterate cfg.participants p (cfg.input p) (s.node p) sender sid
            vote).1 sid (onVote cfg.participants ((s.node p).state sid) sender sid vote).announce).node
            q = s.node q := Function.update_of_ne here ..
        rw [other]
        apply (inv.nodes q good).more mem_moved_of_mem
        intro i v posted
        exact (mem_moved.mp posted).resolve_right fun now => here now.1
    · exact PostedInv.moved said spec iter few inv honest
  · rw [handle_outside inside]
    have silent : (moved s p { s.node p with simulated := none } sid none).posted = s.posted :=
      List.append_nil _
    constructor
    · intro q good
      have quiet : NodeInv cfg es (moved s p { s.node p with simulated := none } sid none) q
          (s.node q) := (inv.nodes q good).more mem_moved_of_mem fun _ _ posted => silent ▸ posted
      by_cases here : q = p
      · subst here
        simp only [moved, Function.update_self]
        exact { quiet with own := nofun }
      · simp only [moved, Function.update_of_ne here]
        exact quiet
    · have posts := inv.posts
      exact {
        sends := silent ▸ posts.sends
        echoOwner := silent ▸ posts.echoOwner
        echoOnce := silent ▸ posts.echoOnce
        echoHonest := silent ▸ posts.echoHonest
        readies := fun q i v posted =>
          (posts.readies q i v (silent ▸ posted)).mono (fun _ => id) mem_moved_of_mem }

end Step

omit [DecidableEq T] in
theorem posted_initial (posted : (p, i, vote) ∈ cfg.initial.posted) :
    cfg.participants.index p = some i ∧ vote = .send (cfg.input p) := by
  simp only [Config.initial, Config.sendVote, List.mem_filterMap, Option.map_map] at posted
  obtain ⟨q, _, sent⟩ := posted
  obtain ⟨sid, index, same⟩ := Option.map_eq_some_iff.mp sent
  cases same
  exact ⟨index, rfl⟩

theorem invariant_initial (cfg : Config T) : Invariant cfg [] cfg.initial := by
  constructor
  · intro p honest
    constructor
    · exact fun i => tallied_new _
    · exact fun i => tallied_new _
    · intro i _ v posted
      cases (posted_initial posted).2
    · exact fun i v output => nomatch output
    · exact fun i finished => nomatch finished
    · intro j vote pending
      have sent : cfg.sendVote p = some (j, vote) := pending
      simp only [Config.initial, List.mem_filterMap, List.mem_filter, decide_eq_true_eq]
      exact ⟨p, honest, by rw [sent]; rfl⟩
    · exact fun m returned => nomatch returned
    · exact fun i stuck => nomatch stuck
    · exact fun i => nofun
  · constructor
    · intro p i v _ posted
      have same := (posted_initial posted).2
      cases same
      rfl
    · intro p i v posted
      cases (posted_initial posted).2
    · intro p i v w posted
      cases (posted_initial posted).2
    · intro p i v q posted
      cases (posted_initial posted).2
    · intro p i v posted
      cases (posted_initial posted).2

theorem Invariant.step (few : cfg.FewByzantine) (inv : Invariant cfg es s)
    (acted : Acts cfg.step s e t) : Invariant cfg (es ++ [e]) t := by
  have longer : Invariant cfg (es ++ [e]) s := inv.longer fun _ => List.mem_append_left [e]
  obtain ⟨event, ⟨⟩⟩ := e
  have last : (event, ()) ∈ es ++ [(event, ())] :=
    List.mem_append_right _ (List.mem_singleton_self _)
  cases event with
  | receive m =>
    simp only [Acts, Config.step] at acted
    split at acted
    · rename_i allowed
      obtain ⟨honest, ⟨member, _, cause⟩, running, _⟩ := allowed
      cases acted
      apply longer.handle few honest (Option.isNone_iff_eq_none.mp running)
      refine ⟨member, ?_⟩
      by_cases faulty : m.sender ∈ cfg.byzantine
      · exact .inr ⟨faulty, m.receiver, last⟩
      · exact .inl ⟨faulty, cause.resolve_left faulty⟩
    · cases acted
  | simulate p =>
    simp only [Acts, Config.step] at acted
    split at acted
    · rename_i allowed
      obtain ⟨honest, running⟩ := allowed
      split at acted
      · rename_i sid vote pending
        cases acted
        apply longer.handle few honest (Option.isNone_iff_eq_none.mp running)
        exact ⟨honest.1, .inl ⟨honest.2, (inv.nodes p honest).own sid vote pending⟩⟩
      · cases acted
    · cases acted

theorem Invariant.run (few : cfg.FewByzantine) (run : Run (Acts cfg.step) cfg.initial es s) :
    Invariant cfg es s := by
  apply run.invariant (fun es s => Invariant cfg es s) (invariant_initial cfg)
  intro es s e t _ inv acted
  exact inv.step few acted

/-- Who gives up in a session has counted, for each value, enough votes against it. -/
theorem NodeInv.blocked (inv : NodeInv cfg es s p node)
    (stuck : node.result = some (.error (.maliciousSender i))) :
    ∃ b : Box Participant T, (∀ vote ∈ b.votes, Said cfg es s vote.1 i (.echo vote.2)) ∧
      ∀ v, cfg.participants.len ≤ cfg.echoT + (b.opponents v).card := by
  obtain ⟨hopeless, _, _, slot⟩ := inv.stuck i stuck
  obtain ⟨b, counts, cast⟩ := inv.echoTallied i
  exact ⟨b, fun vote inside => (cast vote inside).2,
    fun v => opponents_of_not_isEnough counts hopeless slot v⟩

/-- In the session of an honest participant nobody honest gives up. -/
theorem Invariant.never_blamed (few : cfg.FewByzantine) (inv : Invariant cfg es s)
    (honest : cfg.Honest p) (good : q ∉ cfg.byzantine) (owner : cfg.participants.index q = some i) :
    (s.node p).result ≠ some (.error (.maliciousSender i)) := by
  intro stuck
  obtain ⟨b, cast, against⟩ := (inv.nodes p honest).blocked stuck
  have faulty : b.opponents (cfg.input q) ⊆ cfg.byzantine := by
    intro voter member
    obtain ⟨other, different, inside⟩ := Box.mem_opponents.mp member
    obtain ⟨_, ⟨_, posted⟩ | ⟨faulty, _⟩⟩ := cast _ inside
    · exact absurd (inv.posts.echoHonest voter i other q posted good owner) different
    · exact faulty
  have enough := against (cfg.input q)
  have bound := Finset.card_le_card faulty
  obtain ⟨inside, _⟩ := List.findIdx?_eq_some_iff_getElem.mp owner
  have nonempty : i < cfg.participants.len := inside
  unfold Config.FewByzantine at few
  unfold Config.echoT echoReadyThresholds at enough
  split at enough
  · omega
  · dsimp only at enough
    omega

theorem NodeInv.entry (inv : NodeInv cfg es s p node) (returned : node.result = some (.ok m))
    (inside : i < cfg.participants.len) : ∃ v, m[i]? = some (some v) ∧ EchoQuorum cfg es s i v := by
  obtain ⟨rfl, done⟩ := inv.returned m returned
  obtain ⟨v, output⟩ := Option.ne_none_iff_exists'.mp (inv.finished i (done i inside))
  refine ⟨v, ?_, inv.outputs i v output⟩
  rw [List.getElem?_map, List.getElem?_range inside, Option.map_some, output]

theorem NodeInv.length_map (inv : NodeInv cfg es s p node) (returned : node.result = some (.ok m)) :
    m.length = cfg.participants.len := by
  rw [(inv.returned m returned).1, List.length_map, List.length_range]

/-- With at most a third Byzantine, honest participants that return have the same map; its honest
    entries are what was broadcast; and nobody honest blames an honest participant. -/
theorem broadcast_agrees {cfg : Config T} {es : History T} {s : System T}
    (few : cfg.FewByzantine) (run : Run (Acts cfg.step) cfg.initial es s) :
    (∀ p q m m', cfg.Honest p → cfg.Honest q → (s.node p).result = some (.ok m) →
      (s.node q).result = some (.ok m') → m = m') ∧
    (∀ p q m i, cfg.Honest p → cfg.Honest q → (s.node p).result = some (.ok m) →
      cfg.participants.index q = some i → m[i]? = some (some (cfg.input q))) ∧
    (∀ p q i, cfg.Honest p → cfg.Honest q → cfg.participants.index q = some i →
      (s.node p).result ≠ some (.error (.maliciousSender i))) := by
  have inv := Invariant.run few run
  refine ⟨?_, ?_, ?_⟩
  · intro p q m m' honest honest' returned returned'
    have length := (inv.nodes p honest).length_map returned
    have length' := (inv.nodes q honest').length_map returned'
    apply List.ext_getElem?
    intro i
    by_cases inside : i < cfg.participants.len
    · obtain ⟨v, entry, quorum⟩ := (inv.nodes p honest).entry returned inside
      obtain ⟨w, entry', quorum'⟩ := (inv.nodes q honest').entry returned' inside
      rw [entry, entry', inv.posts.agree few quorum quorum']
    · rw [List.getElem?_eq_none (by omega), List.getElem?_eq_none (by omega)]
  · intro p q m i honest honest' returned owner
    obtain ⟨inside, _⟩ := List.findIdx?_eq_some_iff_getElem.mp owner
    obtain ⟨v, entry, quorum⟩ := (inv.nodes p honest).entry returned inside
    rw [entry, inv.posts.valid few quorum honest'.2 owner]
  · intro p q i honest honest' owner
    exact inv.never_blamed few honest honest'.2 owner

private def twoHonest : Config Nat where
  participants := ⟨[⟨0⟩, ⟨1⟩], by decide⟩
  byzantine := ∅
  input p := 10 + p.id.toNat

private def twoHonestRun : List (Event Nat) :=
  [.simulate ⟨0⟩, .simulate ⟨0⟩, .simulate ⟨0⟩, .simulate ⟨0⟩,
    .simulate ⟨1⟩, .simulate ⟨1⟩, .simulate ⟨1⟩, .simulate ⟨1⟩,
    .receive ⟨⟨0⟩, ⟨1⟩, 0, .send 10⟩, .simulate ⟨1⟩, .simulate ⟨1⟩,
    .receive ⟨⟨1⟩, ⟨0⟩, 1, .send 11⟩, .simulate ⟨0⟩, .simulate ⟨0⟩]

/-- Two honest participants run to the end and return one map. -/
theorem broadcast_agrees_two :
    ∃ es s m m', Run (Acts twoHonest.step) twoHonest.initial es s ∧
      (s.node ⟨0⟩).result = some (.ok m) ∧ (s.node ⟨1⟩).result = some (.ok m') ∧ m = m' ∧
      m[0]? = some (some 10) := by
  obtain ⟨es, s, run, _, first, second⟩ := exists_run twoHonest.step twoHonest.initial twoHonestRun
    (fun _ s => (s.node ⟨0⟩).result = some (.ok [some 10, some 11]) ∧
      (s.node ⟨1⟩).result = some (.ok [some 10, some 11])) (by decide +kernel)
  obtain ⟨agree, valid, _⟩ := broadcast_agrees (by decide) run
  exact ⟨es, s, _, _, run, first, second,
    agree ⟨0⟩ ⟨1⟩ _ _ (by decide) (by decide) first second,
    valid ⟨0⟩ ⟨0⟩ _ 0 (by decide) (by decide) first (by decide)⟩

end MpcNetwork.Threshold.EchoBroadcast
