import Mathlib.Data.Finset.Basic
import Mathlib.Data.Finset.Lattice.Lemmas
import MpcNetwork.Lib.Tables

/-! # Futures over queues of messages

Code that may wait for messages, and what one poll of it does.  The receiver of a queue is behind a
lock, which a part of a future holds from the moment it looks at the queue until it has a message.
A poll runs until every part of the future has returned, waits for a message or for a lock, or has
given way.
-/

namespace MpcNetwork.Futures

open Table

/-- Queues of messages, the queues whose receiver somebody holds, and what was put out. -/
structure Mail (κ μ ο : Type) [DecidableEq κ] where
  queues : Table κ (List μ)
  locked : Finset κ
  outputs : List ο

/-- `waiting` is `next` that holds the receiver of its queue already. -/
inductive Future (κ μ ο : Type) : Type → Type 1 where
  | pure {α : Type} (value : α) : Future κ μ ο α
  | bind {α β : Type} (first : Future κ μ ο α) (rest : α → Future κ μ ο β) : Future κ μ ο β
  | emit (output : ο) : Future κ μ ο Unit
  | next (queue : κ) : Future κ μ ο μ
  | waiting (queue : κ) : Future κ μ ο μ
  | yieldNow : Future κ μ ο Unit
  | loop {α β : Type} (body : α → Future κ μ ο (α ⊕ β)) (value : α) : Future κ μ ο β
  | tryJoin {ε α β : Type} (first : Future κ μ ο (Except ε α))
      (second : Future κ μ ο (Except ε β)) : Future κ μ ο (Except ε (α × β))

inductive Polled (κ μ ο α : Type) : Type 1 where
  | ready (value : α)
  | pending (rest : Future κ μ ο α)

namespace Future

variable {κ μ ο : Type} [DecidableEq κ]

/-- The receivers that the future holds.  They are let go when it is dropped. -/
def held {α : Type} : Future κ μ ο α → Finset κ
  | .bind first _ => first.held
  | .waiting queue => {queue}
  | .tryJoin first second => first.held ∪ second.held
  | _ => ∅

def turn {α β : Type} (body : α → Future κ μ ο (α ⊕ β)) : α ⊕ β → Future κ μ ο β
  | .inl value => .loop body value
  | .inr result => .pure result

end Future

namespace Mail

variable {κ μ ο : Type} [DecidableEq κ] (self : Mail κ μ ο)

/-- The queue is there from the first time somebody asks for it. -/
def opened (queue : κ) : Mail κ μ ο :=
  match self.queues.lookup queue with
  | some _ => self
  | none => { self with queues := self.queues.insert queue [] }

def take (queue : κ) : Polled κ μ ο μ × Mail κ μ ο :=
  match self.queues.lookup queue with
  | some (message :: rest) =>
    (.ready message,
      { self with
        queues := self.queues.insert queue rest
        locked := self.locked.erase queue })
  | _ => (.pending (.waiting queue), { self with locked := insert queue self.locked })

def release (queues : Finset κ) : Mail κ μ ο := { self with locked := self.locked \ queues }

theorem lookup_opened (queue other : κ) :
    (self.opened queue).queues.lookup other = self.queues.lookup other ∨
      other = queue ∧ (self.opened queue).queues.lookup other = some [] := by
  unfold opened
  split
  · exact .inl rfl
  · simp only [lookup_insert_eq]
    split
    · rename_i same
      exact .inr ⟨same, rfl⟩
    · exact .inl rfl

def messages (queue : κ) : List μ := (self.queues.lookup queue).getD []

variable {self}

@[simp] theorem locked_opened : (self.opened queue).locked = self.locked := by
  unfold opened
  split <;> rfl

theorem take_of_empty (empty : (self.queues.lookup queue).getD [] = []) :
    self.take queue =
      (.pending (.waiting queue), { self with locked := insert queue self.locked }) := by
  unfold take
  split
  · rename_i message rest found
    simp [found] at empty
  · rfl

end Mail

open Future in
/-- One poll; `none` is a poll that does not end within the given number of turns. -/
def poll {κ μ ο : Type} [DecidableEq κ] {α : Type} :
    Nat → Future κ μ ο α → Mail κ μ ο → Option (Polled κ μ ο α × Mail κ μ ο)
  | 0, _, _ => none
  | _ + 1, .pure value, mail => some (.ready value, mail)
  | n + 1, .bind first rest, mail => do
    match ← poll n first mail with
    | (.ready value, mail) => poll n (rest value) mail
    | (.pending first, mail) => some (.pending (.bind first rest), mail)
  | _ + 1, .emit output, mail =>
    some (.ready (), { mail with outputs := mail.outputs ++ [output] })
  | _ + 1, .next queue, mail =>
    if queue ∈ mail.locked then some (.pending (.next queue), mail.opened queue)
    else some ((mail.opened queue).take queue)
  | _ + 1, .waiting queue, mail => some (mail.take queue)
  | _ + 1, .yieldNow, mail => some (.pending (.pure ()), mail)
  | n + 1, .loop body value, mail => poll n (.bind (body value) (turn body)) mail
  | n + 1, .tryJoin first second, mail => do
    match ← poll n first mail with
    | (.ready (.error err), mail) => some (.ready (.error err), mail.release second.held)
    | (.ready (.ok a), mail) =>
      match ← poll n second mail with
      | (.ready (.error err), mail) => some (.ready (.error err), mail)
      | (.ready (.ok b), mail) => some (.ready (.ok (a, b)), mail)
      | (.pending second, mail) => some (.pending (.tryJoin (.pure (.ok a)) second), mail)
    | (.pending first, mail) =>
      match ← poll n second mail with
      | (.ready (.error err), mail) => some (.ready (.error err), mail.release first.held)
      | (.ready (.ok b), mail) => some (.pending (.tryJoin first (.pure (.ok b))), mail)
      | (.pending second, mail) => some (.pending (.tryJoin first second), mail)

section Waiting

variable {κ μ ο : Type} [DecidableEq κ]

def Done {ε α : Type} (future : Future κ μ ο (Except ε α)) : Prop := ∃ a, future = .pure (.ok a)

/-- Every part of the future has returned or waits for a message of an empty queue. -/
def Blocked (mail : Mail κ μ ο) {α : Type} : Future κ μ ο α → Prop
  | .waiting queue => (mail.queues.lookup queue).getD [] = [] ∧ queue ∈ mail.locked
  | .bind first _ => Blocked mail first
  | .tryJoin first second =>
    Blocked mail first ∧ (Blocked mail second ∨ Done second) ∨ Done first ∧ Blocked mail second
  | _ => False

/-- To poll such a future again changes nothing. -/
theorem Blocked.poll {α : Type} {future : Future κ μ ο α}
    (blocked : Blocked mail future) :
    ∃ turns, ∀ n ≥ turns, poll n future mail = some (.pending future, mail) := by
  induction future with
  | pure | emit | next | yieldNow | loop => cases blocked
  | waiting queue =>
    obtain ⟨empty, isLocked⟩ := blocked
    refine ⟨1, fun n enough => ?_⟩
    obtain ⟨n, rfl⟩ := Nat.exists_eq_add_of_le' enough
    rw [Futures.poll, Mail.take_of_empty empty, Finset.insert_eq_of_mem isLocked]
  | bind first rest ih =>
    obtain ⟨turns, again⟩ := ih blocked
    refine ⟨turns + 1, fun n enough => ?_⟩
    obtain ⟨n, rfl⟩ := Nat.exists_eq_add_of_le' (Nat.le_of_add_left_le enough)
    simp [Futures.poll, again n (by omega)]
  | tryJoin first second ih ih' =>
    obtain ⟨isFirst, isSecond | ⟨b, rfl⟩⟩ | ⟨⟨a, rfl⟩, isSecond⟩ := blocked
    · obtain ⟨turns, again⟩ := ih isFirst
      obtain ⟨turns', again'⟩ := ih' isSecond
      refine ⟨max turns turns' + 1, fun n enough => ?_⟩
      obtain ⟨n, rfl⟩ := Nat.exists_eq_add_of_le' (Nat.le_of_add_left_le enough)
      simp [Futures.poll, again n (by omega), again' n (by omega)]
    · obtain ⟨turns, again⟩ := ih isFirst
      refine ⟨turns + 2, fun n enough => ?_⟩
      obtain ⟨n, rfl⟩ := Nat.exists_eq_add_of_le' (Nat.le_of_add_left_le enough)
      simp [Futures.poll, again (n + 1) (by omega)]
    · obtain ⟨turns, again⟩ := ih' isSecond
      refine ⟨turns + 2, fun n enough => ?_⟩
      obtain ⟨n, rfl⟩ := Nat.exists_eq_add_of_le' (Nat.le_of_add_left_le enough)
      simp [Futures.poll, again (n + 1) (by omega)]

/-! ## Calm futures

As long as the messages of its queues are allowed, a calm future never gives way, and no two parts
of it wait for the same queue.  So it is blocked whenever it is pending. -/

/-- The future asks for queues of `Q` only, and returns only what `Post` admits. -/
def Calm (Allowed : κ → μ → Prop) {α : Type} :
    Future κ μ ο α → (κ → Prop) → (α → Prop) → Prop
  | .pure value, _, Post => Post value
  | .bind first rest, Q, Post => ∃ Mid, Calm Allowed first Q Mid ∧
      ∀ value, (rest value).held = ∅ ∧ (Mid value → Calm Allowed (rest value) Q Post)
  | .emit _, _, Post => Post ()
  | .next queue, Q, Post => Q queue ∧ ∀ message, Allowed queue message → Post message
  | .waiting queue, Q, Post => Q queue ∧ ∀ message, Allowed queue message → Post message
  | .yieldNow, _, _ => False
  | .loop body value, Q, Post => ∃ Inv, Inv value ∧
      ∀ value, (body value).held = ∅ ∧ (Inv value → Calm Allowed (body value) Q (Sum.elim Inv Post))
  | .tryJoin first second, Q, Post => ∃ Q₁ Q₂, Calm Allowed first Q₁ (fun _ => True) ∧
      Calm Allowed second Q₂ (fun _ => True) ∧ (∀ queue, Q₁ queue → ¬ Q₂ queue) ∧
      (∀ queue, Q₁ queue ∨ Q₂ queue → Q queue) ∧ ∀ result, Post result

variable {Allowed : κ → μ → Prop} {Q : κ → Prop} {α : Type} {future : Future κ μ ο α}
  {Post : α → Prop} {mail mail' : Mail κ μ ο}

theorem Calm.mono (calm : Calm Allowed future Q Post)
    (weaker : ∀ value, Post value → Post' value) : Calm Allowed future Q Post' := by
  induction future generalizing Q with
  | pure value => exact weaker value calm
  | emit output => exact weaker () calm
  | next queue | waiting queue =>
    exact ⟨calm.1, fun message isAllowed => weaker message (calm.2 message isAllowed)⟩
  | yieldNow => cases calm
  | bind first rest _ ih =>
    obtain ⟨Mid, isFirst, isRest⟩ := calm
    refine ⟨Mid, isFirst, fun value => ⟨(isRest value).1, fun holds => ?_⟩⟩
    exact ih value ((isRest value).2 holds) weaker
  | loop body value ih =>
    obtain ⟨Inv, holds, isBody⟩ := calm
    refine ⟨Inv, holds, fun value => ⟨(isBody value).1, fun holds => ?_⟩⟩
    exact ih value ((isBody value).2 holds) fun result => by
      cases result with
      | inl value => exact id
      | inr value => exact weaker value
  | tryJoin first second =>
    obtain ⟨Q₁, Q₂, isFirst, isSecond, apart, into, holds⟩ := calm
    exact ⟨Q₁, Q₂, isFirst, isSecond, apart, into, fun result => weaker result (holds result)⟩

theorem Calm.held_inside (calm : Calm Allowed future Q Post) :
    ∀ queue ∈ future.held, Q queue := by
  induction future generalizing Q with
  | pure | emit | next | yieldNow | loop => simp [Future.held]
  | waiting queue => simpa [Future.held] using calm.1
  | bind first rest ih =>
    obtain ⟨_, isFirst, _⟩ := calm
    exact ih isFirst
  | tryJoin first second ih ih' =>
    obtain ⟨_, _, isFirst, isSecond, _, into, _⟩ := calm
    intro queue isHeld
    rw [Future.held, Finset.mem_union] at isHeld
    exact into queue (isHeld.imp (ih isFirst queue) (ih' isSecond queue))

/-- Who holds the receivers of the queues is known, and everything in them is allowed. -/
structure Served (Allowed : κ → μ → Prop) (Q : κ → Prop) (held : Finset κ) (mail : Mail κ μ ο) :
    Prop where
  locks : ∀ queue, Q queue → (queue ∈ mail.locked ↔ queue ∈ held)
  allowed : ∀ queue messages, Q queue → mail.queues.lookup queue = some messages →
    ∀ message ∈ messages, Allowed queue message

/-- The queues of `Q` are in both as they are. -/
def Alike (Q : κ → Prop) (mail mail' : Mail κ μ ο) : Prop :=
  ∀ queue, Q queue → mail'.queues.lookup queue = mail.queues.lookup queue ∧
    (queue ∈ mail'.locked ↔ queue ∈ mail.locked)

def Outcome (Allowed : κ → μ → Prop) (Q : κ → Prop) (Post : α → Prop) (mail' : Mail κ μ ο) :
    Polled κ μ ο α → Prop
  | .ready value => Post value ∧ Served Allowed Q ∅ mail'
  | .pending rest => Calm Allowed rest Q Post ∧ Served Allowed Q rest.held mail' ∧
      Blocked mail' rest

theorem Blocked.alike (blocked : Blocked mail future) (calm : Calm Allowed future Q Post)
    (alike : Alike Q mail mail') : Blocked mail' future := by
  induction future generalizing Q with
  | pure | emit | next | yieldNow | loop => cases blocked
  | waiting queue =>
    obtain ⟨lookups, locks⟩ := alike queue calm.1
    exact ⟨lookups ▸ blocked.1, locks.mpr blocked.2⟩
  | bind first rest ih =>
    obtain ⟨_, isFirst, _⟩ := calm
    exact ih blocked isFirst alike
  | tryJoin first second ih ih' =>
    obtain ⟨_, _, isFirst, isSecond, _, into, _⟩ := calm
    have left := fun blocked =>
      ih blocked isFirst fun queue mine => alike queue (into queue (.inl mine))
    have right := fun blocked =>
      ih' blocked isSecond fun queue mine => alike queue (into queue (.inr mine))
    exact blocked.imp (And.imp left (Or.imp_left right)) (And.imp_right right)

namespace Alike

variable {mail'' : Mail κ μ ο}

theorem refl : Alike Q mail mail := fun _ _ => ⟨rfl, Iff.rfl⟩

theorem trans (first : Alike Q mail mail') (second : Alike Q mail' mail'') :
    Alike Q mail mail'' :=
  fun queue mine => ⟨(second queue mine).1.trans (first queue mine).1,
    (second queue mine).2.trans (first queue mine).2⟩

theorem release (foreign : ∀ queue ∈ queues, ¬ Q queue) :
    Alike Q mail (mail.release queues) := by
  intro queue mine
  refine ⟨rfl, ?_⟩
  rw [Mail.release, Finset.mem_sdiff]
  exact and_iff_left fun inside => foreign queue inside mine

theorem mono (alike : Alike Q mail mail') (into : ∀ queue, Q' queue → Q queue) :
    Alike Q' mail mail' :=
  fun queue mine => alike queue (into queue mine)

end Alike

namespace Served

variable {held : Finset κ}

theorem alike (served : Served Allowed Q held mail) (alike : Alike Q mail mail') :
    Served Allowed Q held mail' where
  locks queue mine := (alike queue mine).2.trans (served.locks queue mine)
  allowed queue messages mine found :=
    served.allowed queue messages mine ((alike queue mine).1.symm.trans found)

theorem release (served : Served Allowed Q held mail) (queues : Finset κ) :
    Served Allowed Q (held \ queues) (mail.release queues) where
  locks queue mine := by
    simp only [Mail.release, Finset.mem_sdiff, served.locks queue mine]
  allowed := served.allowed

variable {Q₁ Q₂ : κ → Prop} {held₁ held₂ : Finset κ}

/-- A part of a future is served if the receivers of the other part are of other queues. -/
theorem part (served : Served Allowed Q held mail) (into : ∀ queue, Q₁ queue → Q queue)
    (same : ∀ queue, Q₁ queue → (queue ∈ held ↔ queue ∈ held₁)) :
    Served Allowed Q₁ held₁ mail where
  locks queue mine := (served.locks queue (into queue mine)).trans (same queue mine)
  allowed queue messages mine := served.allowed queue messages (into queue mine)

theorem join (served : Served Allowed Q held mail) (inside : ∀ queue ∈ held, Q₁ queue ∨ Q₂ queue)
    (inside₁ : ∀ queue ∈ held₁, Q₁ queue) (inside₂ : ∀ queue ∈ held₂, Q₂ queue)
    (apart : ∀ queue, Q₁ queue → ¬ Q₂ queue)
    (elsewhere : Alike (fun queue => ¬ (Q₁ queue ∨ Q₂ queue)) mail mail')
    (first : Served Allowed Q₁ held₁ mail') (second : Served Allowed Q₂ held₂ mail') :
    Served Allowed Q (held₁ ∪ held₂) mail' where
  locks queue mine := by
    rw [Finset.mem_union]
    by_cases isFirst : Q₁ queue
    · rw [first.locks queue isFirst]
      exact (or_iff_left fun isHeld => apart queue isFirst (inside₂ queue isHeld)).symm
    · by_cases isSecond : Q₂ queue
      · rw [second.locks queue isSecond]
        exact (or_iff_right fun isHeld => isFirst (inside₁ queue isHeld)).symm
      · have foreign : ¬ (Q₁ queue ∨ Q₂ queue) := not_or.mpr ⟨isFirst, isSecond⟩
        rw [(elsewhere queue foreign).2, served.locks queue mine]
        constructor
        · intro isHeld
          exact absurd (inside queue isHeld) foreign
        · rintro (isHeld | isHeld)
          · exact absurd (inside₁ queue isHeld) isFirst
          · exact absurd (inside₂ queue isHeld) isSecond
  allowed queue messages mine found := by
    by_cases isFirst : Q₁ queue
    · exact first.allowed queue messages isFirst found
    · by_cases isSecond : Q₂ queue
      · exact second.allowed queue messages isSecond found
      · have same := (elsewhere queue (not_or.mpr ⟨isFirst, isSecond⟩)).1
        exact served.allowed queue messages mine (same.symm.trans found)

end Served

/-- A loop goes on calmly after a turn. -/
theorem Calm.turn {β : Type} {body : α → Future κ μ ο (α ⊕ β)} {Inv : α → Prop} {Post : β → Prop}
    (calm : ∀ value, (body value).held = ∅ ∧
      (Inv value → Calm Allowed (body value) Q (Sum.elim Inv Post))) (result : α ⊕ β) :
    (Future.turn body result).held = ∅ ∧
      (Sum.elim Inv Post result → Calm Allowed (Future.turn body result) Q Post) := by
  cases result with
  | inl value => exact ⟨rfl, fun holds => ⟨Inv, holds, calm⟩⟩
  | inr value => exact ⟨rfl, id⟩

/-- What the polls of a length do to a future of the queues `Q`. -/
def PollsTo (Allowed : κ → μ → Prop) (n : Nat) (future : Future κ μ ο α) (Q : κ → Prop)
    (Post : α → Prop) : Prop :=
  ∀ mail mail' polled, Served Allowed Q future.held mail →
    poll n future mail = some (polled, mail') →
    Alike (fun queue => ¬ Q queue) mail mail' ∧ Outcome Allowed Q Post mail' polled

namespace PollsTo

variable {n : Nat}

theorem take {Post : μ → Prop} (mine : Q queue)
    (holds : ∀ message, Allowed queue message → Post message)
    (others : ∀ other, Q other → other ≠ queue → other ∉ mail.locked)
    (allowed : ∀ other messages, Q other → mail.queues.lookup other = some messages →
      ∀ message ∈ messages, Allowed other message)
    (done : mail.take queue = (polled, mail')) :
    Alike (fun queue => ¬ Q queue) mail mail' ∧ Outcome Allowed Q Post mail' polled := by
  cases found : (mail.queues.lookup queue).getD [] with
  | nil =>
    rw [Mail.take_of_empty found] at done
    cases done
    refine ⟨fun other foreign => ⟨rfl, ?_⟩, ⟨mine, holds⟩, ⟨fun other isMine => ?_, allowed⟩, found,
      Finset.mem_insert_self queue _⟩
    · have apart : other ≠ queue := fun same => foreign (same ▸ mine)
      simp [apart]
    · by_cases same : other = queue
      · simp [same, Future.held]
      · simp [same, Future.held, others other isMine same]
  | cons message rest =>
    have first : mail.queues.lookup queue = some (message :: rest) := by
      cases there : mail.queues.lookup queue with
      | none => simp [there] at found
      | some messages =>
        rw [there, Option.getD_some] at found
        rw [found]
    simp only [Mail.take, first] at done
    cases done
    refine ⟨fun other foreign => ?_, holds message ?_, fun other isMine => ?_, ?_⟩
    · have apart : other ≠ queue := fun same => foreign (same ▸ mine)
      simp [apart]
    · exact allowed queue _ mine first message List.mem_cons_self
    · by_cases same : other = queue
      · simp [same]
      · simp [same, others other isMine same]
    · intro other messages isMine there entry inside
      simp only [lookup_insert_eq] at there
      split at there
      · rename_i same
        cases there
        rw [same]
        exact allowed queue _ mine first entry (List.mem_cons_of_mem _ inside)
      · exact allowed other messages isMine there entry inside

theorem waiting {Post : μ → Prop} (mine : Q queue)
    (holds : ∀ message, Allowed queue message → Post message) :
    PollsTo Allowed (n + 1) (.waiting queue : Future κ μ ο μ) Q Post := by
  intro mail mail' polled served done
  rw [poll, Option.some.injEq] at done
  refine take mine holds (fun other isMine apart isLocked => ?_) served.allowed done
  exact apart (Finset.mem_singleton.mp ((served.locks other isMine).mp isLocked))

theorem next {Post : μ → Prop} (mine : Q queue)
    (holds : ∀ message, Allowed queue message → Post message) :
    PollsTo Allowed (n + 1) (.next queue : Future κ μ ο μ) Q Post := by
  intro mail mail' polled served done
  have free : ∀ other, Q other → other ∉ mail.locked := by
    intro other isMine isLocked
    cases (served.locks other isMine).mp isLocked
  rw [poll, if_neg (free queue mine), Option.some.injEq] at done
  have opening : Alike (fun queue => ¬ Q queue) mail (mail.opened queue) := by
    intro other foreign
    obtain same | ⟨rfl, _⟩ := mail.lookup_opened queue other
    · exact ⟨same, by rw [Mail.locked_opened]⟩
    · exact absurd mine foreign
  have allowed : ∀ other messages, Q other →
      (mail.opened queue).queues.lookup other = some messages →
      ∀ message ∈ messages, Allowed other message := by
    intro other messages isMine found
    obtain same | ⟨_, empty⟩ := mail.lookup_opened queue other
    · exact served.allowed other messages isMine (same.symm.trans found)
    · cases empty.symm.trans found
      simp
  have others : ∀ other, Q other → other ≠ queue → other ∉ (mail.opened queue).locked := by
    intro other isMine _
    rw [Mail.locked_opened]
    exact free other isMine
  obtain ⟨outside, outcome⟩ := take mine holds others allowed done
  exact ⟨opening.trans outside, outcome⟩

theorem bind {β : Type} {rest : α → Future κ μ ο β} {Post : β → Prop}
    (isFirst : PollsTo Allowed n future Q Mid)
    (calm : ∀ value, (rest value).held = ∅ ∧ (Mid value → Calm Allowed (rest value) Q Post))
    (isRest : ∀ value, Mid value → PollsTo Allowed n (rest value) Q Post) :
    PollsTo Allowed (n + 1) (.bind future rest) Q Post := by
  intro mail mail' polled served done
  simp only [poll, Option.bind_eq_bind, Option.bind_eq_some_iff] at done
  obtain ⟨⟨half, middle⟩, ran, done⟩ := done
  obtain ⟨outside, outcome⟩ := isFirst mail middle half served ran
  cases half with
  | ready value =>
    have served' := outcome.2
    rw [← (calm value).1] at served'
    obtain ⟨outside', outcome'⟩ := isRest value outcome.1 middle mail' polled served' done
    exact ⟨outside.trans outside', outcome'⟩
  | pending first =>
    cases done
    exact ⟨outside, ⟨Mid, outcome.1, calm⟩, outcome.2⟩

theorem loop {β : Type} {body : α → Future κ μ ο (α ⊕ β)} {Post : β → Prop}
    (fresh : (body value).held = ∅)
    (unrolled : PollsTo Allowed n (.bind (body value) (Future.turn body)) Q Post) :
    PollsTo Allowed (n + 1) (.loop body value) Q Post := by
  intro mail mail' polled served done
  have unheld : (Future.bind (body value) (Future.turn body)).held =
    (Future.loop body value).held := fresh
  exact unrolled mail mail' polled (unheld ▸ served) done

theorem both
    (served : Served Allowed Q held mail) (inside : ∀ queue ∈ held, Q₁ queue ∨ Q₂ queue)
    (inside₁ : ∀ queue ∈ held₁, Q₁ queue) (inside₂ : ∀ queue ∈ held₂, Q₂ queue)
    (apart : ∀ queue, Q₁ queue → ¬ Q₂ queue) (into : ∀ queue, Q₁ queue ∨ Q₂ queue → Q queue)
    (outside : Alike (fun queue => ¬ Q₁ queue) mail middle)
    (outside' : Alike (fun queue => ¬ Q₂ queue) middle after)
    (served₁ : Served Allowed Q₁ held₁ middle) (served₂ : Served Allowed Q₂ held₂ after) :
    Alike (fun queue => ¬ Q queue) mail after ∧ Served Allowed Q (held₁ ∪ held₂) after := by
  have elsewhere : Alike (fun queue => ¬ (Q₁ queue ∨ Q₂ queue)) mail after :=
    (outside.mono fun _ foreign mine => foreign (.inl mine)).trans
      (outside'.mono fun _ foreign mine => foreign (.inr mine))
  refine ⟨elsewhere.mono fun queue foreign mine => foreign (into queue mine), ?_⟩
  exact served.join inside inside₁ inside₂ apart elsewhere
    (served₁.alike (outside'.mono apart)) served₂

/-- The part that is dropped lets go of its receivers. -/
theorem dropped (outside : Alike (fun queue => ¬ Q queue) mail mail')
    (served : Served Allowed Q held mail') (inside : ∀ queue ∈ held, Q queue) :
    Alike (fun queue => ¬ Q queue) mail (mail'.release held) ∧
      Served Allowed Q ∅ (mail'.release held) := by
  have released := served.release held
  rw [Finset.sdiff_self] at released
  exact ⟨outside.trans (.release fun queue isHeld => not_not.mpr (inside queue isHeld)), released⟩

theorem tryJoin {ε β γ : Type} {first : Future κ μ ο (Except ε β)}
    {second : Future κ μ ο (Except ε γ)} {Post : Except ε (β × γ) → Prop}
    (calm : Calm Allowed (.tryJoin first second) Q Post)
    (isFirst : ∀ {Q}, Calm Allowed first Q (fun _ => True) →
      PollsTo Allowed n first Q fun _ => True)
    (isSecond : ∀ {Q}, Calm Allowed second Q (fun _ => True) →
      PollsTo Allowed n second Q fun _ => True) :
    PollsTo Allowed (n + 1) (.tryJoin first second) Q Post := by
  intro mail mail' polled served done
  obtain ⟨Q₁, Q₂, calm₁, calm₂, apart, into, holds⟩ := calm
  have inside₁ := calm₁.held_inside
  have inside₂ := calm₂.held_inside
  have inside : ∀ queue ∈ first.held ∪ second.held, Q₁ queue ∨ Q₂ queue :=
    fun queue isHeld => (Finset.mem_union.mp isHeld).imp (inside₁ queue) (inside₂ queue)
  have nobody (Q' : κ → Prop) : ∀ queue ∈ (∅ : Finset κ), Q' queue := by simp
  have served₁ : Served Allowed Q₁ first.held mail := by
    refine served.part (fun queue mine => into queue (.inl mine)) fun queue mine => ?_
    rw [Future.held, Finset.mem_union]
    exact or_iff_left fun isHeld => apart queue mine (inside₂ queue isHeld)
  have served₂ : Served Allowed Q₂ second.held mail := by
    refine served.part (fun queue mine => into queue (.inr mine)) fun queue mine => ?_
    rw [Future.held, Finset.mem_union]
    exact or_iff_right fun isHeld => apart queue (inside₁ queue isHeld) mine
  simp only [poll, Option.bind_eq_bind, Option.bind_eq_some_iff] at done
  obtain ⟨⟨half, middle⟩, ran, done⟩ := done
  obtain ⟨outside, outcome⟩ := isFirst calm₁ mail middle half served₁ ran
  have served₂' : Served Allowed Q₂ second.held middle :=
    served₂.alike (outside.mono fun queue mine isMine => apart queue isMine mine)
  cases half with
  | ready value =>
    cases value with
    | error err =>
      cases done
      obtain ⟨elsewhere, joined⟩ :=
        both served inside (nobody Q₁) inside₂ apart into outside .refl outcome.2 served₂'
      rw [Finset.empty_union] at joined
      obtain ⟨elsewhere', free⟩ :=
        dropped elsewhere joined fun queue isHeld => into queue (.inr (inside₂ queue isHeld))
      exact ⟨elsewhere', holds _, free⟩
    | ok a =>
      simp only [Option.bind_eq_some_iff] at done
      obtain ⟨⟨other, last⟩, ran', done⟩ := done
      obtain ⟨outside', outcome'⟩ := isSecond calm₂ middle last other served₂' ran'
      cases other with
      | ready value =>
        obtain ⟨elsewhere, joined⟩ := both served inside (nobody Q₁) (nobody Q₂) apart into
          outside outside' outcome.2 outcome'.2
        cases value <;> cases done <;> exact ⟨elsewhere, holds _, joined⟩
      | pending rest =>
        cases done
        obtain ⟨calm₂', served', blocked⟩ := outcome'
        obtain ⟨elsewhere, joined⟩ := both served inside (nobody Q₁) calm₂'.held_inside apart
          into outside outside' outcome.2 served'
        exact ⟨elsewhere, ⟨Q₁, Q₂, trivial, calm₂', apart, into, holds⟩, joined,
          .inr ⟨⟨a, rfl⟩, blocked⟩⟩
  | pending rest =>
    obtain ⟨calm₁', served₁', blocked⟩ := outcome
    simp only [Option.bind_eq_some_iff] at done
    obtain ⟨⟨other, last⟩, ran', done⟩ := done
    obtain ⟨outside', outcome'⟩ := isSecond calm₂ middle last other served₂' ran'
    have stillBlocked := blocked.alike calm₁' (outside'.mono apart)
    cases other with
    | ready value =>
      obtain ⟨elsewhere, joined⟩ := both served inside calm₁'.held_inside (nobody Q₂) apart into
        outside outside' served₁' outcome'.2
      cases value with
      | error err =>
        cases done
        rw [Finset.union_empty] at joined
        obtain ⟨elsewhere', free⟩ := dropped elsewhere joined fun queue isHeld =>
          into queue (.inl (calm₁'.held_inside queue isHeld))
        exact ⟨elsewhere', holds _, free⟩
      | ok b =>
        cases done
        exact ⟨elsewhere, ⟨Q₁, Q₂, calm₁', trivial, apart, into, holds⟩, joined,
          .inl ⟨stillBlocked, .inr ⟨b, rfl⟩⟩⟩
    | pending rest' =>
      cases done
      obtain ⟨calm₂', served', blocked'⟩ := outcome'
      obtain ⟨elsewhere, joined⟩ := both served inside calm₁'.held_inside calm₂'.held_inside
        apart into outside outside' served₁' served'
      exact ⟨elsewhere, ⟨Q₁, Q₂, calm₁', calm₂', apart, into, holds⟩, joined,
        .inl ⟨stillBlocked, .inl blocked'⟩⟩

end PollsTo

theorem Calm.poll (n : Nat) (calm : Calm Allowed future Q Post) :
    PollsTo Allowed n future Q Post := by
  induction n generalizing α Q with
  | zero =>
    intro mail mail' polled served done
    cases done
  | succ n ih =>
    cases future with
    | pure value =>
      intro mail mail' polled served done
      cases done
      exact ⟨.refl, calm, served⟩
    | emit output =>
      intro mail mail' polled served done
      cases done
      exact ⟨.refl, calm, served.alike .refl⟩
    | yieldNow => cases calm
    | next queue => exact .next calm.1 calm.2
    | waiting queue => exact .waiting calm.1 calm.2
    | bind first rest =>
      obtain ⟨Mid, isFirst, isRest⟩ := calm
      exact .bind (ih isFirst) isRest fun value holds => ih ((isRest value).2 holds)
    | loop body value =>
      obtain ⟨Inv, holds, isBody⟩ := calm
      obtain ⟨fresh, isCalm⟩ := isBody value
      exact .loop fresh (ih ⟨_, isCalm holds, Calm.turn isBody⟩)
    | tryJoin first second => exact .tryJoin calm ih ih

end Waiting

end MpcNetwork.Futures
