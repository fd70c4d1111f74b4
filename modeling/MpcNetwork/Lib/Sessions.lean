import Mathlib.Data.Finset.Card

/-! # Sessions that need all their members

Parties join sessions, each time for a topic.  A session is attended when every honest member of
it has joined it.  If no party joins twice for one topic and no session is joined for two topics,
then attended sessions of one topic that have an honest member in common are one session: the
common member has joined both, and it joined only once.  Two groups have an honest member in
common when they are large enough.
-/

namespace MpcNetwork.Sessions

structure Joined (Party Topic Session : Type) where
  party : Party
  topic : Topic
  session : Session
  deriving DecidableEq

variable {Party Topic Session : Type} {members : Session → List Party} {honest : Party → Bool}
  {joined later : List (Joined Party Topic Session)} {a b : Joined Party Topic Session}
  {session : Session}

/-- Every honest member has joined, for whatever topic. -/
def Attended (members : Session → List Party) (honest : Party → Bool)
    (joined : List (Joined Party Topic Session)) (session : Session) : Prop :=
  ∀ p ∈ members session, honest p → ∃ j ∈ joined, j.party = p ∧ j.session = session

instance [DecidableEq Party] [DecidableEq Session] :
    Decidable (Attended members honest joined session) :=
  inferInstanceAs (Decidable (∀ p ∈ members session, honest p → ∃ j ∈ joined, _))

theorem Attended.mono (attended : Attended members honest joined session)
    (kept : ∀ j ∈ joined, j ∈ later) : Attended members honest later session := by
  intro p isMember isHonest
  obtain ⟨j, inside, same⟩ := attended p isMember isHonest
  exact ⟨j, kept j inside, same⟩

/-- No party has joined two sessions for one topic. -/
def Once (joined : List (Joined Party Topic Session)) : Prop :=
  ∀ a ∈ joined, ∀ b ∈ joined, a.party = b.party → a.topic = b.topic → a.session = b.session

def Separate (joined : List (Joined Party Topic Session)) : Prop :=
  ∀ a ∈ joined, ∀ b ∈ joined, a.session = b.session → a.topic = b.topic

/-- Two joined sessions of one topic have an honest member in common. -/
def Overlapping (members : Session → List Party) (honest : Party → Bool)
    (joined : List (Joined Party Topic Session)) : Prop :=
  ∀ a ∈ joined, ∀ b ∈ joined, a.topic = b.topic →
    ∃ p, honest p ∧ p ∈ members a.session ∧ p ∈ members b.session

theorem Once.cons (once : Once joined)
    (fresh : ∀ b ∈ joined, a.party = b.party → a.topic ≠ b.topic) : Once (a :: joined) := by
  intro b inB c inC sameParty sameTopic
  rcases List.mem_cons.mp inB with rfl | oldB <;> rcases List.mem_cons.mp inC with rfl | oldC
  · rfl
  · exact absurd sameTopic (fresh c oldC sameParty)
  · exact absurd sameTopic.symm (fresh b oldB sameParty.symm)
  · exact once b oldB c oldC sameParty sameTopic

theorem Separate.cons (separate : Separate joined)
    (apart : ∀ b ∈ joined, b.session = a.session → b.topic = a.topic) :
    Separate (a :: joined) := by
  intro b inB c inC same
  rcases List.mem_cons.mp inB with rfl | oldB <;> rcases List.mem_cons.mp inC with rfl | oldC
  · rfl
  · exact (apart c oldC same.symm).symm
  · exact apart b oldB same
  · exact separate b oldB c oldC same

theorem Overlapping.cons (overlapping : Overlapping members honest joined)
    (own : honest a.party ∧ a.party ∈ members a.session)
    (meets : ∀ b ∈ joined, b.topic = a.topic →
      ∃ p, honest p ∧ p ∈ members b.session ∧ p ∈ members a.session) :
    Overlapping members honest (a :: joined) := by
  intro b inB c inC same
  rcases List.mem_cons.mp inB with rfl | oldB <;> rcases List.mem_cons.mp inC with rfl | oldC
  · exact ⟨_, own.1, own.2, own.2⟩
  · obtain ⟨p, isHonest, left, right⟩ := meets c oldC same.symm
    exact ⟨p, isHonest, right, left⟩
  · exact meets b oldB same
  · exact overlapping b oldB c oldC same

theorem session_of_member (once : Once joined) (separate : Separate joined) (inA : a ∈ joined)
    (inB : b ∈ joined) (sameTopic : a.topic = b.topic)
    (attended : Attended members honest joined a.session) (isHonest : honest b.party)
    (isMember : b.party ∈ members a.session) : a.session = b.session := by
  obtain ⟨c, inC, sameParty, sameSession⟩ := attended b.party isMember isHonest
  have topic : c.topic = b.topic := (separate c inC a inA sameSession).trans sameTopic
  exact sameSession.symm.trans (once c inC b inB sameParty topic)

theorem session_of_common (once : Once joined) (separate : Separate joined)
    (overlapping : Overlapping members honest joined) (inA : a ∈ joined) (inB : b ∈ joined)
    (sameTopic : a.topic = b.topic) (attendedA : Attended members honest joined a.session)
    (attendedB : Attended members honest joined b.session) : a.session = b.session := by
  obtain ⟨p, isHonest, left, right⟩ := overlapping a inA b inB sameTopic
  obtain ⟨c, inC, rfl, sameSession⟩ := attendedB p right isHonest
  have topic : c.topic = b.topic := separate c inC b inB sameSession
  have first := session_of_member once separate inA inC (sameTopic.trans topic.symm) attendedA
    isHonest left
  exact first.trans sameSession

end MpcNetwork.Sessions
