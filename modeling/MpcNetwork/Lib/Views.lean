import MpcNetwork.Lib.Jobs

/-! # What a job overlooks

A view leaves out part of a state.  A job overlooks that part if from the view it does what it
does from the state, with the view of the state it ends in; two states with the same view then
give the same result.  The rules are those for sequences, clean-ups and loops.  A loop may spend
turns on what the view leaves out.
-/

namespace MpcNetwork.Jobs.Job

variable {ε σ α β : Type} {I : σ → Prop} {view : σ → σ}

/-- From this state the job ends as it does from the view. -/
def OverlooksAt (I : σ → Prop) (view : σ → σ) (job : Job ε σ α) (s : σ) : Prop :=
  I (job s).2 ∧ job (view s) = ((job s).1, view (job s).2)

def Overlooks (I : σ → Prop) (view : σ → σ) (job : Job ε σ α) : Prop :=
  ∀ s, I s → OverlooksAt I view job s

theorem Overlooks.same (overlooks : Overlooks I view job)
    (first : I s) (second : I t) (alike : view s = view t) :
    (job s).1 = (job t).1 ∧ view (job s).2 = view (job t).2 := by
  have left := (overlooks s first).2
  rw [alike, (overlooks t second).2, Prod.mk.injEq] at left
  exact ⟨left.1.symm, left.2.symm⟩

theorem overlooks_pure : Overlooks I view (pure a : Job ε σ α) :=
  fun _ holds => ⟨holds, rfl⟩

theorem overlooks_fail : Overlooks I view (fail e : Job ε σ α) :=
  fun _ holds => ⟨holds, rfl⟩

theorem overlooks_panic : Overlooks I view (panic : Job ε σ α) :=
  fun _ holds => ⟨holds, rfl⟩

theorem overlooks_update (kept : ∀ s, I s → I (f s))
    (seen : ∀ s, I s → f (view s) = view (f s)) : Overlooks I view (update f : Job ε σ Unit) := by
  intro s holds
  refine ⟨kept s holds, ?_⟩
  unfold update
  rw [seen s holds]

theorem overlooks_ofExcept : Overlooks I view (ofExcept x : Job ε σ α) := by
  cases x with
  | error e => exact overlooks_fail
  | ok a => exact overlooks_pure

theorem overlooks_unwrap : Overlooks I view (unwrap o : Job ε σ α) := by
  cases o with
  | none => exact overlooks_panic
  | some a => exact overlooks_pure

theorem OverlooksAt.bind
    (first : OverlooksAt I view job s)
    (rest : ∀ a t, job s = (.ok a, t) → I t → OverlooksAt I view (next a) t) :
    OverlooksAt I view (job >>= next) s := by
  obtain ⟨kept, same⟩ := first
  rcases outcome : job s with ⟨stop | a, t⟩
  · rw [outcome] at kept same
    unfold OverlooksAt
    rw [bind_of_error outcome, bind_of_error same]
    exact ⟨kept, rfl⟩
  · rw [outcome] at kept same
    unfold OverlooksAt
    rw [bind_of_ok outcome, bind_of_ok same]
    exact rest a t outcome kept

theorem Overlooks.bind (first : Overlooks I view job)
    (rest : ∀ a, Overlooks I view (next a)) : Overlooks I view (job >>= next) :=
  fun s holds => (first s holds).bind fun a t _ kept => rest a t kept

theorem Overlooks.onFailure
    (overlooks : Overlooks I view job) (cleans : ∀ e, Overlooks I view (cleanUp e)) :
    Overlooks I view (job.onFailure cleanUp) := by
  intro s holds
  obtain ⟨kept, same⟩ := overlooks s holds
  unfold OverlooksAt Job.onFailure
  rcases outcome : job s with ⟨(error | _ | _) | a, t⟩
  · rw [outcome] at kept same
    obtain ⟨clean, sameEnd⟩ := cleans error t kept
    rw [same]
    dsimp only
    rcases ended : cleanUp error t with ⟨stop | _, u⟩
    · rw [ended] at clean sameEnd
      rw [sameEnd]
      exact ⟨clean, rfl⟩
    · rw [ended] at clean sameEnd
      rw [sameEnd]
      exact ⟨clean, rfl⟩
  all_goals
    rw [outcome] at kept same
    rw [same]
    exact ⟨kept, rfl⟩

theorem Overlooks.ignoreFailure (overlooks : Overlooks I view job) :
    Overlooks I view job.ignoreFailure := by
  intro s holds
  obtain ⟨kept, same⟩ := overlooks s holds
  unfold OverlooksAt Job.ignoreFailure
  rw [same]
  rcases outcome : job s with ⟨(error | _ | _) | a, t⟩
  all_goals
    rw [outcome] at kept
    exact ⟨kept, rfl⟩

theorem overlooks_forM {xs : List β}
    (each : ∀ x ∈ xs, Overlooks I view (body x)) : Overlooks I view (xs.forM body) := by
  induction xs with
  | nil => exact overlooks_pure
  | cons x xs ih =>
    refine (each x (by simp)).bind ?_
    intro _
    exact ih fun y inside => each y (List.mem_cons_of_mem x inside)

theorem turns_lt (size : σ → Nat) {body : β → Job ε σ (β ⊕ α)}
    (shrinks : ∀ b s c t, body b s = (.ok c, t) → size t < size s)
    (returned : turns body n b s = (.ok a, t)) : size t < size s := by
  induction n generalizing b s with
  | zero => simp [turns] at returned
  | succ n ih =>
    rw [turns, bind_eq_ok] at returned
    obtain ⟨outcome, u, turned, rest⟩ := returned
    have fewer := shrinks b s outcome u turned
    cases outcome with
    | inl next => exact Nat.lt_trans (ih rest) fewer
    | inr result =>
      obtain ⟨_, rfl⟩ := pure_eq_ok.mp rest
      exact fewer

/-- The turn goes to what the view leaves out: from the view there is nothing to do. -/
structure Skips (I : σ → Prop) (view : σ → σ) (size : σ → Nat) (body : β → Job ε σ (β ⊕ α)) (b : β)
    (s t : σ) : Prop where
  turned : body b s = (.ok (.inl b), t)
  kept : I t
  idle : body b (view s) = body b (view t)
  smaller : size (view t) ≤ size (view s)

theorem overlooks_turns (size : σ → Nat) {body : β → Job ε σ (β ⊕ α)}
    (shrinks : ∀ b s c t, body b s = (.ok (.inl c), t) → size t < size s)
    (turn : ∀ b s, I s → OverlooksAt I view (body b) s ∨ ∃ t, Skips I view size body b s t)
    (b : β) : Overlooks I view (read size >>= fun n => turns body (n + 1) b) := by
  have enough : ∀ n m b s, I s → size s < n → size (view s) < m →
      I (turns body n b s).2 ∧
        turns body m b (view s) = ((turns body n b s).1, view (turns body n b s).2) := by
    intro n
    induction n with
    | zero =>
      intro m b s _ few
      omega
    | succ n ih =>
      intro m b s holds few fewer
      cases m with
      | zero => omega
      | succ m =>
      rcases turn b s holds with ⟨kept, same⟩ | ⟨t, skips⟩
      · rcases outcome : body b s with ⟨stop | next | a, t⟩
        · rw [outcome] at kept same
          rw [turns, turns, bind_of_error outcome, bind_of_error same]
          exact ⟨kept, rfl⟩
        · rw [outcome] at kept same
          rw [turns, turns, bind_of_ok outcome, bind_of_ok same]
          have fewerLeft := shrinks b s next t outcome
          have fewerSeen : size (view t) < size (view s) := shrinks b _ next _ same
          exact ih m next t kept (by omega) (by omega)
        · rw [outcome] at kept same
          rw [turns, turns, bind_of_ok outcome, bind_of_ok same]
          exact ⟨kept, rfl⟩
      · have fewerLeft := shrinks b s b t skips.turned
        have smaller := skips.smaller
        have again : turns body (m + 1) b (view s) = turns body (m + 1) b (view t) := by
          change Job.bind _ _ _ = Job.bind _ _ _
          rw [Job.bind, Job.bind, skips.idle]
        rw [again, turns, bind_of_ok skips.turned]
        exact ih (m + 1) b t skips.kept (by omega) (by omega)
  intro s holds
  exact enough _ _ b s holds (Nat.lt_succ_self _) (Nat.lt_succ_self _)

end MpcNetwork.Jobs.Job
