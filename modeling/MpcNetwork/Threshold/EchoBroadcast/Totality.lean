import MpcNetwork.Threshold.EchoBroadcast.Safety

/-! # Totality of echo broadcast

A participant that can no longer reach the echo threshold gives up at once.  When
Byzantine participants echo different values to different participants, one honest
participant may count a quorum while another gives up in the same session.
-/

namespace MpcNetwork.Threshold.EchoBroadcast

open Runs Ballots

variable {T : Type} [DecidableEq T]

/-- The participant has returned with an error that belongs to the session. -/
def AbortsIn (node : Node T) (i : Nat) : Prop :=
  ∃ error : BroadcastError, node.result = some (.error error) ∧ error.session = some i

/-- No Byzantine participant sends echoes of two different values in the session. -/
def EchoesConsistently (cfg : Config T) (es : History T) (i : Nat) : Prop :=
  ∀ q ∈ cfg.byzantine, ∀ r r' v w, (Event.receive ⟨q, r, i, .echo v⟩, ()) ∈ es →
    (Event.receive ⟨q, r', i, .echo w⟩, ()) ∈ es → v = w

/-- What honest participants sent has arrived, and none has a vote of its own to handle. -/
def Settled (cfg : Config T) (es : History T) (s : System T) : Prop :=
  ∀ q ∈ cfg.participants.participants, q ∉ cfg.byzantine → (s.node q).result.isNone →
    (s.node q).simulated.isNone ∧ ∀ vote ∈ s.posted, vote.1 ≠ q →
      (Event.receive ⟨vote.1, q, vote.2.1, vote.2.2⟩, ()) ∈ es

instance (cfg : Config T) (es : History T) (s : System T) : Decidable (Settled cfg es s) :=
  inferInstanceAs (Decidable (∀ q ∈ cfg.participants.participants, _ → _ → _))

omit [DecidableEq T] in
/-- Where Byzantine echoes are consistent, the echoers of a quorum's value echoed no other. -/
theorem PostedInv.undivided (posts : PostedInv cfg es s)
    (consistent : EchoesConsistently cfg es i) (first : Said cfg es s q i (.echo v))
    (second : Said cfg es s q i (.echo w)) : v = w := by
  obtain ⟨_, ⟨honest, posted⟩ | ⟨faulty, r, heard⟩⟩ := first
  · obtain ⟨_, ⟨_, posted'⟩ | ⟨faulty, _⟩⟩ := second
    · exact posts.echoOnce q i v w posted posted'
    · exact absurd faulty honest
  · obtain ⟨_, ⟨honest, _⟩ | ⟨_, r', heard'⟩⟩ := second
    · exact absurd faulty honest
    · exact consistent q faulty r r' v w heard heard'

/-- A quorum leaves too few participants to vote against its value. -/
theorem Invariant.never_blocked {s : System T}
    (inv : Invariant cfg es s) (consistent : EchoesConsistently cfg es i) (honest : cfg.Honest p)
    (quorum : EchoQuorum cfg es s i v) :
    (s.node p).result ≠ some (.error (.maliciousSender i)) := by
  intro stuck
  obtain ⟨S, inside, large, echoed⟩ := quorum
  obtain ⟨b, cast, against⟩ := (inv.nodes p honest).blocked stuck
  have outside : b.opponents v ⊆ cfg.everyone \ S := by
    intro voter member
    obtain ⟨other, different, voted⟩ := Box.mem_opponents.mp member
    have said := cast _ voted
    apply Finset.mem_sdiff.mpr
    constructor
    · exact List.mem_toFinset.mpr said.1
    · intro supporter
      exact different (inv.posts.undivided consistent said (echoed voter supporter))
  have enough := against v
  have rest := Finset.card_sdiff_of_subset inside
  have bound := Finset.card_le_card outside
  have whole := Finset.card_le_card inside
  rw [card_everyone] at rest whole
  omega

/-- With at most a third Byzantine, all outputs of a session agree; and if it is an honest
    participant's, or Byzantine echoes are consistent, nobody honest aborts where another delivers.
    -/
theorem delivers_or_aborts {cfg : Config T} {es : History T} {s : System T} {i : Nat}
    (few : cfg.FewByzantine) (run : Run (Acts cfg.step) cfg.initial es s)
    (calm : (∃ o, cfg.Honest o ∧ cfg.participants.index o = some i) ∨ EchoesConsistently cfg es i)
    (honest : cfg.Honest p) (honest' : cfg.Honest q)
    (delivered : (s.node p).voteOutput i = some v) :
    ¬ AbortsIn (s.node q) i ∧ ∀ w, (s.node q).voteOutput i = some w → w = v := by
  have inv := Invariant.run few run
  have quorum := (inv.nodes p honest).outputs i v delivered
  constructor
  · intro ⟨error, returned, session⟩
    cases error with
    | invalidIndex => cases session
    | missingElement => cases session
    | outputDiffers j => exact (inv.nodes q honest').sound j returned
    | maliciousSender j =>
      obtain rfl : j = i := Option.some.inj session
      rcases calm with ⟨o, good, owner⟩ | consistent
      · exact inv.never_blamed few honest' good.2 owner returned
      · exact inv.never_blocked consistent honest' quorum returned
  · intro w other
    exact inv.posts.agree few ((inv.nodes q honest').outputs i w other) quorum

private def oneHonestSession : Config Nat where
  participants := ⟨[⟨0⟩, ⟨2⟩], by decide⟩
  byzantine := ∅
  input p := 10 + p.id.toNat

/-- Participant 0 delivers in its own session before participant 2 has heard of it. -/
theorem delivers_or_aborts_two :
    ∃ es s, Run (Acts oneHonestSession.step) oneHonestSession.initial es s ∧
      (s.node ⟨0⟩).voteOutput 0 = some 10 ∧ ¬ AbortsIn (s.node ⟨2⟩) 0 := by
  obtain ⟨es, s, run, _, delivered⟩ := exists_run oneHonestSession.step oneHonestSession.initial
    [.simulate ⟨0⟩, .simulate ⟨0⟩, .simulate ⟨0⟩]
    (fun _ s => (s.node ⟨0⟩).voteOutput 0 = some 10) (by decide +kernel)
  exact ⟨es, s, run, delivered, (delivers_or_aborts (p := ⟨0⟩) (q := ⟨2⟩) (by decide) run
    (.inl ⟨⟨0⟩, by decide, by decide⟩) (by decide) (by decide) delivered).1⟩

private def fourthByzantine : Config Nat where
  participants := ⟨[⟨0⟩, ⟨1⟩, ⟨2⟩, ⟨3⟩], by decide⟩
  byzantine := {⟨3⟩}
  input p := 10 + p.id.toNat

/-- Participant 3 sends and echoes 0 to participants 0 and 1, but 1 to participant 2. -/
private def splitEchoes : List (Event Nat) :=
  [.simulate ⟨0⟩, .simulate ⟨0⟩, .simulate ⟨1⟩, .simulate ⟨1⟩, .simulate ⟨2⟩, .simulate ⟨2⟩,
    .receive ⟨⟨3⟩, ⟨0⟩, 3, .send 0⟩, .simulate ⟨0⟩, .receive ⟨⟨3⟩, ⟨1⟩, 3, .send 0⟩,
    .simulate ⟨1⟩, .receive ⟨⟨3⟩, ⟨2⟩, 3, .send 1⟩, .simulate ⟨2⟩,
    .receive ⟨⟨3⟩, ⟨2⟩, 3, .echo 1⟩, .receive ⟨⟨0⟩, ⟨2⟩, 3, .echo 0⟩,
    .receive ⟨⟨1⟩, ⟨2⟩, 3, .echo 0⟩, .receive ⟨⟨3⟩, ⟨0⟩, 3, .echo 0⟩,
    .receive ⟨⟨3⟩, ⟨1⟩, 3, .echo 0⟩, .receive ⟨⟨3⟩, ⟨0⟩, 3, .ready 0⟩,
    .receive ⟨⟨3⟩, ⟨1⟩, 3, .ready 0⟩, .receive ⟨⟨0⟩, ⟨1⟩, 0, .send 10⟩, .simulate ⟨1⟩,
    .receive ⟨⟨1⟩, ⟨0⟩, 1, .send 11⟩, .simulate ⟨0⟩, .receive ⟨⟨2⟩, ⟨0⟩, 2, .send 12⟩,
    .simulate ⟨0⟩, .receive ⟨⟨2⟩, ⟨1⟩, 2, .send 12⟩, .simulate ⟨1⟩,
    .receive ⟨⟨0⟩, ⟨1⟩, 0, .echo 10⟩, .receive ⟨⟨1⟩, ⟨0⟩, 1, .echo 11⟩,
    .receive ⟨⟨2⟩, ⟨0⟩, 2, .echo 12⟩, .receive ⟨⟨2⟩, ⟨1⟩, 2, .echo 12⟩,
    .receive ⟨⟨0⟩, ⟨1⟩, 3, .echo 0⟩, .simulate ⟨1⟩, .simulate ⟨1⟩,
    .receive ⟨⟨1⟩, ⟨0⟩, 3, .echo 0⟩, .simulate ⟨0⟩, .simulate ⟨0⟩,
    .receive ⟨⟨2⟩, ⟨0⟩, 3, .echo 1⟩, .receive ⟨⟨2⟩, ⟨1⟩, 3, .echo 1⟩,
    .receive ⟨⟨1⟩, ⟨0⟩, 0, .echo 10⟩, .receive ⟨⟨0⟩, ⟨1⟩, 1, .echo 11⟩,
    .receive ⟨⟨0⟩, ⟨1⟩, 2, .echo 12⟩, .simulate ⟨1⟩, .receive ⟨⟨1⟩, ⟨0⟩, 2, .echo 12⟩,
    .simulate ⟨0⟩, .receive ⟨⟨1⟩, ⟨0⟩, 3, .ready 0⟩, .receive ⟨⟨0⟩, ⟨1⟩, 3, .ready 0⟩,
    .receive ⟨⟨1⟩, ⟨0⟩, 2, .ready 12⟩, .simulate ⟨0⟩, .receive ⟨⟨0⟩, ⟨1⟩, 2, .ready 12⟩,
    .simulate ⟨1⟩]

/-- Participant 2 counts two echoes for each value and gives up; participant 0 delivers. -/
theorem delivers_while_another_aborts :
    ∃ es s, Run (Acts fourthByzantine.step) fourthByzantine.initial es s ∧
      fourthByzantine.FewByzantine ∧ fourthByzantine.Honest ⟨0⟩ ∧ fourthByzantine.Honest ⟨2⟩ ∧
      Settled fourthByzantine es s ∧ (s.node ⟨0⟩).voteOutput 3 = some 0 ∧
      AbortsIn (s.node ⟨2⟩) 3 := by
  have ended : ((replay fourthByzantine.step fourthByzantine.initial splitEchoes).map fun r =>
      ((r.1.node ⟨0⟩).voteOutput 3, (r.1.node ⟨2⟩).result,
        decide (Settled fourthByzantine r.2 r.1))) =
        some (some 0, some (.error (.maliciousSender 3)), true) := by
    decide +kernel
  obtain ⟨⟨s, es⟩, ran, outcome⟩ := Option.map_eq_some_iff.mp ended
  simp only [Prod.mk.injEq, decide_eq_true_eq] at outcome
  obtain ⟨delivered, aborted, settled⟩ := outcome
  exact ⟨es, s, run_of_replay ran, by decide, by decide, by decide, settled, delivered,
    .maliciousSender 3, aborted, rfl⟩

end MpcNetwork.Threshold.EchoBroadcast
