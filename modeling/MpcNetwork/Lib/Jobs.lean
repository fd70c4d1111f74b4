import Mathlib.Logic.Basic

/-! # Jobs

A job is a computation over a state that returns a value, fails with an error, panics, or
stops where it would have to wait for input that has not come.  The state is kept in every
case.  Two judgements are developed side by side: `Panics` says exactly when a job panics,
and `Safe` is the rule set of pre- and postconditions under which it never does.
-/

namespace MpcNetwork.Jobs

inductive Stop (ε : Type) where
  | failed (error : ε)
  | panicked
  | pending
  deriving Repr, DecidableEq

def Job (ε σ α : Type) := σ → Except (Stop ε) α × σ

namespace Job

variable {ε σ α β : Type}

protected def pure (a : α) : Job ε σ α := fun s => (.ok a, s)

protected def bind (job : Job ε σ α) (next : α → Job ε σ β) : Job ε σ β := fun s =>
  match job s with
  | (.ok a, t) => next a t
  | (.error stop, t) => (.error stop, t)

instance : Monad (Job ε σ) where
  pure := Job.pure
  bind := Job.bind

def fail (error : ε) : Job ε σ α := fun s => (.error (.failed error), s)

def panic : Job ε σ α := fun s => (.error .panicked, s)

def wait : Job ε σ α := fun s => (.error .pending, s)

def read (f : σ → α) : Job ε σ α := fun s => (.ok (f s), s)

def update (f : σ → σ) : Job ε σ Unit := fun s => (.ok (), f s)

def ofExcept : Except ε α → Job ε σ α
  | .ok a => Job.pure a
  | .error error => fail error

def unwrap : Option α → Job ε σ α
  | some a => Job.pure a
  | none => panic

def within (part : σ → τ) (put : τ → σ → σ) (job : Job ε τ α) : Job ε σ α := fun s =>
  ((job (part s)).1, put (job (part s)).2 s)

/-- Clean up after a failure, which stays the result. -/
def onFailure (job : Job ε σ α) (cleanUp : ε → Job ε σ Unit) : Job ε σ α := fun s =>
  match job s with
  | (.error (.failed error), t) =>
    match cleanUp error t with
    | (.ok _, u) => (.error (.failed error), u)
    | (.error stop, u) => (.error stop, u)
  | (result, t) => (result, t)

def ignoreFailure (job : Job ε σ Unit) : Job ε σ Unit := fun s =>
  match job s with
  | (.error (.failed _), t) => (.ok (), t)
  | (result, t) => (result, t)

def mapFailure {δ : Type} (describe : ε → δ) (job : Job ε σ α) : Job δ σ α := fun s =>
  match job s with
  | (.ok a, t) => (.ok a, t)
  | (.error (.failed error), t) => (.error (.failed (describe error)), t)
  | (.error .panicked, t) => (.error .panicked, t)
  | (.error .pending, t) => (.error .pending, t)

/-- Turn after turn until one gives a result, for at most so many turns. -/
def turns (body : β → Job ε σ (β ⊕ α)) : Nat → β → Job ε σ α
  | 0, _ => wait
  | n + 1, b => do
    match ← body b with
    | .inl next => turns body n next
    | .inr a => pure a

variable {a : α} {job : Job ε σ α} {next : α → Job ε σ β} {s t : σ}

theorem bind_of_ok (returned : job s = (.ok a, t)) : (job >>= next) s = next a t := by
  change Job.bind job next s = _
  rw [Job.bind, returned]

theorem bind_of_error (stopped : job s = (.error stop, t)) :
    (job >>= next) s = (.error stop, t) := by
  change Job.bind job next s = _
  rw [Job.bind, stopped]

theorem bind_eq_ok :
    (job >>= next) s = (.ok b, u) ↔ ∃ a t, job s = (.ok a, t) ∧ next a t = (.ok b, u) := by
  rcases outcome : job s with ⟨stop | a, t⟩
  · simp [bind_of_error outcome]
  · rw [bind_of_ok outcome]
    constructor
    · intro rest
      exact ⟨a, t, rfl, rest⟩
    · rintro ⟨b, t, same, rest⟩
      cases same
      exact rest

theorem read_bind :
    (read f >>= next) s = next (f s) s := rfl

variable {f : σ → σ}

theorem update_bind {next : Unit → Job ε σ β} :
    (update f >>= next) s = next () (f s) := rfl

@[simp] theorem pure_eq_ok : (pure a : Job ε σ α) s = (.ok b, t) ↔ a = b ∧ s = t := by
  simp [pure, Job.pure]

@[simp] theorem read_eq_ok {f : σ → α} : (read f : Job ε σ α) s = (.ok a, t) ↔ f s = a ∧ s = t := by
  simp [read]

@[simp] theorem update_eq_ok : (update f : Job ε σ Unit) s = (.ok u, t) ↔ f s = t := by
  simp [update]

variable {e : ε}

@[simp] theorem fail_ne_ok : (fail e : Job ε σ α) s ≠ (.ok a, t) := by
  simp [fail]

@[simp] theorem wait_ne_ok : (wait : Job ε σ α) s ≠ (.ok a, t) := by
  simp [wait]

variable {x : Except ε α}

@[simp] theorem ofExcept_eq_ok : (ofExcept x : Job ε σ α) s = (.ok a, t) ↔ x = .ok a ∧ s = t := by
  cases x <;> simp [ofExcept, fail, Job.pure]

variable {o : Option α}

@[simp] theorem unwrap_eq_ok : (unwrap o : Job ε σ α) s = (.ok a, t) ↔ o = some a ∧ s = t := by
  cases o <;> simp [unwrap, panic, Job.pure]

theorem within_eq_ok {part : σ → τ} {put : τ → σ → σ} {job : Job ε τ α} {u : σ} :
    within part put job s = (.ok a, u) ↔ ∃ t, job (part s) = (.ok a, t) ∧ put t s = u := by
  unfold within
  generalize job (part s) = ended
  obtain ⟨result, t⟩ := ended
  simp only [Prod.mk.injEq]
  constructor
  · rintro ⟨rfl, rfl⟩
    exact ⟨t, ⟨rfl, rfl⟩, rfl⟩
  · rintro ⟨_, ⟨rfl, rfl⟩, rfl⟩
    exact ⟨rfl, rfl⟩

variable {body : β → Job ε σ PUnit} {xs : List β}

theorem forM_eq_ok {good : β → Prop}
    (each : ∀ x ∈ xs, ∀ s t, body x s = (.ok ⟨⟩, t) ↔ good x ∧ s = t) :
    xs.forM body s = (.ok ⟨⟩, t) ↔ (∀ x ∈ xs, good x) ∧ s = t := by
  induction xs with
  | nil =>
    change (pure PUnit.unit : Job ε σ PUnit) s = _ ↔ _
    simp
  | cons x xs ih =>
    have later := ih fun y inside => each y (List.mem_cons_of_mem x inside)
    change (body x >>= fun _ => xs.forM body) s = _ ↔ _
    rw [bind_eq_ok, List.forall_mem_cons]
    constructor
    · rintro ⟨⟨⟩, u, first, rest⟩
      obtain ⟨goodFirst, rfl⟩ := (each x (by simp) s u).mp first
      obtain ⟨goodRest, rfl⟩ := later.mp rest
      exact ⟨⟨goodFirst, goodRest⟩, rfl⟩
    · rintro ⟨⟨goodFirst, goodRest⟩, rfl⟩
      exact ⟨⟨⟩, s, (each x (by simp) s s).mpr ⟨goodFirst, rfl⟩, later.mpr ⟨goodRest, rfl⟩⟩

@[simp] theorem panic_ne_ok : (panic : Job ε σ α) s ≠ (.ok a, t) := by
  simp [panic]

variable {cleanUp : ε → Job ε σ Unit}

theorem onFailure_eq_ok : job.onFailure cleanUp s = (.ok a, t) ↔ job s = (.ok a, t) := by
  unfold Job.onFailure
  rcases job s with ⟨(error | _ | _) | b, u⟩
  · rcases cleaned : cleanUp error u with ⟨stop | _, v⟩ <;> simp [cleaned]
  · simp
  · simp
  · simp

@[simp] theorem mapFailure_eq_ok {δ : Type} {describe : ε → δ} :
    job.mapFailure describe s = (.ok a, t) ↔ job s = (.ok a, t) := by
  unfold mapFailure
  rcases job s with ⟨(error | _ | _) | b, u⟩ <;> simp

theorem turns_eq_ok {body : β → Job ε σ (β ⊕ α)}
    (returned : turns body n b s = (.ok a, t)) : ∃ last u, body last u = (.ok (.inr a), t) := by
  induction n generalizing b s with
  | zero => simp [turns] at returned
  | succ n ih =>
    rw [turns, bind_eq_ok] at returned
    obtain ⟨outcome, u, turned, rest⟩ := returned
    cases outcome with
    | inl next => exact ih rest
    | inr result =>
      obtain ⟨rfl, rfl⟩ := pure_eq_ok.mp rest
      exact ⟨b, s, turned⟩

def Panics (job : Job ε σ α) (s : σ) : Prop := (job s).1 = .error .panicked

instance (job : Job ε σ α) (s : σ) : Decidable (job.Panics s) :=
  match result : (job s).1 with
  | .error .panicked => isTrue result
  | .error (.failed _) => isFalse (by simp [Panics, result])
  | .error .pending => isFalse (by simp [Panics, result])
  | .ok _ => isFalse (by simp [Panics, result])

theorem panics_bind_iff :
    (job >>= next).Panics s ↔ job.Panics s ∨ ∃ a t, job s = (.ok a, t) ∧ (next a).Panics t := by
  rcases outcome : job s with ⟨stop | a, t⟩
  · simp [Panics, bind_of_error outcome, outcome]
  · simp only [Panics, bind_of_ok outcome, outcome, reduceCtorEq, false_or]
    constructor
    · intro panics
      exact ⟨a, t, rfl, panics⟩
    · rintro ⟨b, u, same, panics⟩
      cases same
      exact panics

@[simp] theorem not_panics_pure : ¬ (pure a : Job ε σ α).Panics s := by
  simp [Panics, pure, Job.pure]

@[simp] theorem not_panics_fail : ¬ (fail error : Job ε σ α).Panics s := by
  simp [Panics, fail]

@[simp] theorem not_panics_read {f : σ → α} : ¬ (read f : Job ε σ α).Panics s := by
  simp [Panics, read]

@[simp] theorem not_panics_update : ¬ (update f : Job ε σ Unit).Panics s := by
  simp [Panics, update]

@[simp] theorem panics_panic : (panic : Job ε σ α).Panics s := rfl

@[simp] theorem panics_unwrap_iff : (unwrap o : Job ε σ α).Panics s ↔ o = none := by
  cases o with
  | none => simp [unwrap]
  | some a => simp [unwrap, Panics, Job.pure]

@[simp] theorem not_panics_ofExcept : ¬ (ofExcept x : Job ε σ α).Panics s := by
  cases x with
  | error e => exact not_panics_fail
  | ok a => exact not_panics_pure

theorem panics_read_bind {f : σ → α} :
    (read f >>= next).Panics s ↔ (next (f s)).Panics s := Iff.rfl

theorem panics_update_bind {next : Unit → Job ε σ β} :
    (update f >>= next).Panics s ↔ (next ()).Panics (f s) := Iff.rfl

theorem panics_ofExcept_bind :
    (ofExcept x >>= next).Panics s ↔ ∃ a, x = .ok a ∧ (next a).Panics s := by
  cases x with
  | error e =>
    rw [panics_bind_iff]
    simp [ofExcept, fail, Panics]
  | ok a =>
    change (next a).Panics s ↔ _
    simp

theorem panics_unwrap_bind :
    (unwrap o >>= next).Panics s ↔ o = none ∨ ∃ a, o = some a ∧ (next a).Panics s := by
  cases o with
  | none =>
    rw [panics_bind_iff]
    simp
  | some a =>
    change (next a).Panics s ↔ _
    simp

theorem panics_onFailure_iff (calm : ∀ e t, ¬ (cleanUp e).Panics t) :
    (job.onFailure cleanUp).Panics s ↔ job.Panics s := by
  unfold Panics Job.onFailure
  rcases outcome : job s with ⟨(error | _ | _) | a, t⟩
  · have clean := calm error t
    unfold Panics at clean
    rcases cleaned : cleanUp error t with ⟨stop | _, u⟩ <;> simp_all
  · simp
  · simp
  · simp

/-- From a state with `P` the job does not panic, and `Q` holds of what it returns. -/
def Safe (P : σ → Prop) (job : Job ε σ α) (Q : α → σ → Prop) : Prop :=
  ∀ s, P s → ¬ job.Panics s ∧ ∀ a t, job s = (.ok a, t) → Q a t

variable {P P' : σ → Prop} {Q Q' : α → σ → Prop} {R : β → σ → Prop}

theorem Safe.weaken (safe : Safe P job Q) (before : ∀ s, P' s → P s)
    (after : ∀ a s, Q a s → Q' a s) : Safe P' job Q' := by
  intro s holds
  obtain ⟨calm, result⟩ := safe s (before s holds)
  exact ⟨calm, fun a t returned => after a t (result a t returned)⟩

theorem Safe.before (safe : Safe P job Q) (before : ∀ s, P' s → P s) : Safe P' job Q :=
  safe.weaken before fun _ _ holds => holds

/-- A fact of the precondition that is not about the state can be used in the proof. -/
theorem safe_of_fact {φ : Prop} (safe : φ → Safe P job Q) : Safe (fun s => P s ∧ φ) job Q := by
  intro s holds
  exact safe holds.2 s holds.1

theorem safe_pure (holds : ∀ s, P s → Q a s) : Safe P (pure a : Job ε σ α) Q := by
  intro s pre
  refine ⟨not_panics_pure, ?_⟩
  intro b t returned
  cases returned
  exact holds s pre

theorem Safe.bind (safe : Safe P job Q) (safeNext : ∀ a, Safe (Q a) (next a) R) :
    Safe P (job >>= next) R := by
  intro s pre
  obtain ⟨calm, result⟩ := safe s pre
  refine ⟨?_, ?_⟩
  · rw [panics_bind_iff]
    rintro (panics | ⟨a, t, returned, panics⟩)
    · exact calm panics
    · exact (safeNext a t (result a t returned)).1 panics
  · intro b u returned
    rcases outcome : job s with ⟨stop | a, t⟩
    · rw [bind_of_error outcome] at returned
      cases returned
    · rw [bind_of_ok outcome] at returned
      exact (safeNext a t (result a t outcome)).2 b u returned

theorem safe_fail : Safe P (fail error : Job ε σ α) Q := by
  intro s _
  refine ⟨not_panics_fail, ?_⟩
  intro a t returned
  cases returned

theorem safe_wait : Safe P (wait : Job ε σ α) Q := by
  intro s _
  refine ⟨by simp [Panics, wait], ?_⟩
  intro a t returned
  cases returned

theorem safe_read {f : σ → α} : Safe P (read f : Job ε σ α) fun a s => P s ∧ a = f s := by
  intro s pre
  refine ⟨not_panics_read, ?_⟩
  intro a t returned
  cases returned
  exact ⟨pre, rfl⟩

theorem safe_update {R : Unit → σ → Prop} (holds : ∀ s, P s → R () (f s)) :
    Safe P (update f : Job ε σ Unit) R := by
  intro s pre
  refine ⟨not_panics_update, ?_⟩
  intro a t returned
  cases returned
  exact holds s pre

theorem safe_update_bind {next : Unit → Job ε σ β} (M : σ → Prop) (moved : ∀ s, P s → M (f s))
    (rest : Safe M (next ()) R) : Safe P (update f >>= next) R :=
  (safe_update (R := fun _ => M) moved).bind fun _ => rest

theorem safe_ofExcept : Safe P (ofExcept x : Job ε σ α) fun a s => P s ∧ x = .ok a := by
  intro s pre
  refine ⟨not_panics_ofExcept, ?_⟩
  intro a t returned
  cases x with
  | error e => cases returned
  | ok b =>
    cases returned
    exact ⟨pre, rfl⟩

theorem safe_unwrap (present : o.isSome) :
    Safe P (unwrap o : Job ε σ α) fun a s => P s ∧ o = some a := by
  intro s pre
  obtain ⟨b, rfl⟩ := Option.isSome_iff_exists.mp present
  refine ⟨by simp, ?_⟩
  intro a t returned
  cases returned
  exact ⟨pre, rfl⟩

theorem safe_ignoreFailure {job : Job ε σ Unit}
    (calm : ∀ s, I s → ¬ job.Panics s) (kept : ∀ s, I s → I (job s).2) :
    Safe I job.ignoreFailure fun _ => I := by
  intro s pre
  have calm := calm s pre
  have kept := kept s pre
  unfold Panics at calm
  unfold Panics Job.ignoreFailure
  rcases outcome : job s with ⟨(error | _ | _) | a, t⟩ <;> simp_all

theorem safe_turns {body : β → Job ε σ (β ⊕ α)} {I : β → σ → Prop}
    (turn : ∀ b, Safe (I b) (body b) fun outcome s => outcome.elim (I · s) (Q · s)) (n : Nat)
    (b : β) : Safe (I b) (turns body n b) Q := by
  induction n generalizing b with
  | zero => exact safe_wait
  | succ n ih =>
    refine (turn b).bind ?_
    intro outcome
    cases outcome with
    | inl next => exact ih next
    | inr a => exact safe_pure fun _ holds => holds

theorem safe_forM (each : ∀ x ∈ xs, Safe I (body x) fun _ => I) :
    Safe I (xs.forM body) fun _ => I := by
  induction xs with
  | nil => exact safe_pure fun _ holds => holds
  | cons x xs ih =>
    refine (each x (by simp)).bind ?_
    intro _
    exact ih fun y inside => each y (List.mem_cons_of_mem x inside)

variable {γ : Type} {view : σ → γ}

/-- However the job ends, this part of the state is what it was. -/
def Keeps (view : σ → γ) (job : Job ε σ α) : Prop := ∀ s, view (job s).2 = view s

theorem Keeps.after (kept : Keeps view job)
    (ran : job s = (result, t)) : view t = view s := by
  have same := kept s
  rw [ran] at same
  exact same

theorem keeps_pure : Keeps view (pure a : Job ε σ α) := fun _ => rfl

theorem keeps_fail : Keeps view (fail e : Job ε σ α) := fun _ => rfl

theorem keeps_read {f : σ → α} : Keeps view (read f : Job ε σ α) := fun _ => rfl

theorem keeps_update (same : ∀ s, view (f s) = view s) :
    Keeps view (update f : Job ε σ Unit) := same

theorem keeps_ofExcept : Keeps view (ofExcept x : Job ε σ α) := by
  intro s
  cases x <;> rfl

theorem keeps_unwrap : Keeps view (unwrap o : Job ε σ α) := by
  intro s
  cases o <;> rfl

theorem Keeps.bind (kept : Keeps view job) (keptNext : ∀ a, Keeps view (next a)) :
    Keeps view (job >>= next) := by
  intro s
  have first := kept s
  rcases outcome : job s with ⟨stop | a, t⟩
  · rw [outcome] at first
    rw [bind_of_error outcome]
    exact first
  · rw [outcome] at first
    rw [bind_of_ok outcome, keptNext a t]
    exact first

variable {R : σ → Prop}

theorem bind_ends (first : R (job s).2) (rest : ∀ a t, job s = (.ok a, t) → R (next a t).2) :
    R ((job >>= next) s).2 := by
  rcases outcome : job s with ⟨stop | a, t⟩
  · rw [outcome] at first
    rw [bind_of_error outcome]
    exact first
  · rw [bind_of_ok outcome]
    exact rest a t outcome

theorem ofExcept_bind_ends (start : R s) (rest : ∀ a, x = .ok a → R (next a s).2) :
    R ((ofExcept x >>= next) s).2 := by
  refine bind_ends ?_ ?_
  · cases x <;> exact start
  · intro a t returned
    obtain ⟨given, rfl⟩ := ofExcept_eq_ok.mp returned
    exact rest a given

/-- However the job ends, the invariant holds again. -/
def Maintains (I : σ → Prop) (job : Job ε σ α) : Prop := ∀ s, I s → I (job s).2

variable {I : σ → Prop}

theorem Maintains.after (maintains : Maintains I job) (holds : I s)
    (ran : job s = (result, t)) : I t := by
  have again := maintains s holds
  rw [ran] at again
  exact again

theorem maintains_pure : Maintains I (pure a : Job ε σ α) := fun _ holds => holds

theorem maintains_fail : Maintains I (fail e : Job ε σ α) := fun _ holds => holds

theorem maintains_wait : Maintains I (wait : Job ε σ α) := fun _ holds => holds

theorem maintains_panic : Maintains I (panic : Job ε σ α) := fun _ holds => holds

theorem maintains_read {f : σ → α} : Maintains I (read f : Job ε σ α) := fun _ holds => holds

theorem maintains_update (kept : ∀ s, I s → I (f s)) :
    Maintains I (update f : Job ε σ Unit) := kept

theorem maintains_ofExcept : Maintains I (ofExcept x : Job ε σ α) := by
  intro s holds
  cases x <;> exact holds

theorem maintains_unwrap : Maintains I (unwrap o : Job ε σ α) := by
  intro s holds
  cases o <;> exact holds

theorem Maintains.bind_of (maintains : Maintains I job)
    (maintainsNext : ∀ a s t, I s → job s = (.ok a, t) → I t → I (next a t).2) :
    Maintains I (job >>= next) := by
  intro s holds
  refine bind_ends (maintains s holds) ?_
  intro a t returned
  exact maintainsNext a s t holds returned (maintains.after holds returned)

theorem Maintains.bind (maintains : Maintains I job) (maintainsNext : ∀ a, Maintains I (next a)) :
    Maintains I (job >>= next) :=
  maintains.bind_of fun a _ t _ _ holds => maintainsNext a t holds

theorem Maintains.onFailure (maintains : Maintains I job) (cleans : ∀ e, Maintains I (cleanUp e)) :
    Maintains I (job.onFailure cleanUp) := by
  intro s holds
  have first := maintains s holds
  unfold Job.onFailure
  rcases outcome : job s with ⟨(error | _ | _) | a, t⟩
  · rw [outcome] at first
    have cleaned := cleans error t first
    rcases ended : cleanUp error t with ⟨stop | _, u⟩ <;> simp_all
  · rwa [outcome] at first
  · rwa [outcome] at first
  · rwa [outcome] at first

theorem Maintains.ignoreFailure {job : Job ε σ Unit} (maintains : Maintains I job) :
    Maintains I job.ignoreFailure := by
  intro s holds
  have first := maintains s holds
  unfold Job.ignoreFailure
  rcases outcome : job s with ⟨(error | _ | _) | a, t⟩ <;> simp_all

theorem Maintains.mapFailure {δ : Type} {describe : ε → δ} (maintains : Maintains I job) :
    Maintains I (job.mapFailure describe) := by
  intro s holds
  have first := maintains s holds
  unfold Job.mapFailure
  rcases outcome : job s with ⟨(error | _ | _) | a, t⟩ <;> simp_all

theorem maintains_turns {body : β → Job ε σ (β ⊕ α)} (turn : ∀ b, Maintains I (body b)) (n : Nat)
    (b : β) : Maintains I (turns body n b) := by
  induction n generalizing b with
  | zero => exact maintains_wait
  | succ n ih =>
    refine (turn b).bind ?_
    intro outcome
    cases outcome with
    | inl next => exact ih next
    | inr a => exact maintains_pure

theorem maintains_forM (each : ∀ x ∈ xs, Maintains I (body x)) : Maintains I (xs.forM body) := by
  induction xs with
  | nil => exact maintains_pure
  | cons x xs ih =>
    refine (each x (by simp)).bind ?_
    intro _
    exact ih fun y inside => each y (List.mem_cons_of_mem x inside)

end Job

end MpcNetwork.Jobs
