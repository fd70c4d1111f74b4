import Mathlib.Logic.Basic

/-! # Runs of a labelled transition relation

A run is a list of events together with the state it ends in.  Every whole-run
statement of this development goes through `Run.invariant`: an invariant over
the history and the current state holds along a run when it holds of the empty
history and is kept by each step.
-/

namespace MpcNetwork.Runs

open List

variable {σ ε : Type} {step other : σ → ε → σ → Prop} {start : σ}

/-- Taking the events in order from `start` can end in `s`. The last event is outermost. -/
inductive Run (step : σ → ε → σ → Prop) (start : σ) : List ε → σ → Prop where
  | nil : Run step start [] start
  | snoc : Run step start es s → step s e t → Run step start (es ++ [e]) t

namespace Run

/-- The induction every safety proof uses; its step may use that the state is reached. -/
theorem invariant (Inv : List ε → σ → Prop) (init : Inv [] start)
    (keep : ∀ es s e t, Run step start es s → Inv es s → step s e t → Inv (es ++ [e]) t)
    (run : Run step start es s) : Inv es s := by
  induction run with
  | nil => exact init
  | snoc before taken ih => exact keep _ _ _ _ before ih taken

theorem mono (weaker : ∀ s e t, step s e t → other s e t)
    (run : Run step start es s) : Run other start es s := by
  induction run with
  | nil => exact .nil
  | snoc _ taken ih => exact .snoc ih (weaker _ _ _ taken)

theorem simulate {τ δ : Type} {image : τ → δ → τ → Prop} (view : σ → τ) (label : ε → δ)
    (each : ∀ s e t, step s e t → image (view s) (label e) (view t))
    (run : Run step start es s) : Run image (view start) (es.map label) (view s) := by
  induction run with
  | nil => exact .nil
  | snoc _ taken ih =>
    rw [map_append]
    exact .snoc ih (each _ _ _ taken)

theorem trans (first : Run step start es s) (second : Run step s fs t) :
    Run step start (es ++ fs) t := by
  induction second with
  | nil => simpa only [append_nil] using first
  | snoc _ taken ih => simpa only [append_assoc] using Run.snoc ih taken

theorem split (run : Run step start (es ++ fs) t) :
    ∃ s, Run step start es s ∧ Run step s fs t := by
  generalize whole : es ++ fs = gs at run
  induction run generalizing fs with
  | nil =>
    obtain ⟨rfl, rfl⟩ := append_eq_nil_iff.mp whole
    exact ⟨_, .nil, .nil⟩
  | snoc before taken ih =>
    rcases eq_nil_or_concat fs with rfl | ⟨gs', e', rfl⟩
    · simp only [append_nil] at whole
      subst whole
      exact ⟨_, .snoc before taken, .nil⟩
    · rw [concat_eq_append, ← append_assoc] at whole
      obtain ⟨same, last⟩ := append_inj' whole rfl
      obtain ⟨s, left, right⟩ := ih same
      cases last
      exact ⟨s, left, by simpa only [concat_eq_append] using Run.snoc right taken⟩

theorem at_event (run : Run step start (es ++ e :: fs) u) :
    ∃ s t, Run step start es s ∧ step s e t ∧ Run step t fs u := by
  have cut : es ++ e :: fs = es ++ [e] ++ fs := (append_cons es e fs)
  rw [cut] at run
  obtain ⟨t, early, late⟩ := run.split
  generalize whole : es ++ [e] = gs at early
  cases early with
  | nil => simp at whole
  | snoc before taken =>
    obtain ⟨rfl, last⟩ := append_inj' whole rfl
    cases last
    exact ⟨_, t, before, taken, late⟩

end Run

/-- The steps of a function: an event is an input with the output it gave. -/
def Acts {ι ο : Type} (act : σ → ι → Option (σ × ο)) (s : σ) (e : ι × ο) (t : σ) : Prop :=
  act s e.1 = some (t, e.2)

/-- Feed the inputs to the function one after another. -/
def replay {ι ο : Type} (act : σ → ι → Option (σ × ο)) : σ → List ι → Option (σ × List (ι × ο))
  | s, [] => some (s, [])
  | s, i :: inputs => do
    let (t, o) ← act s i
    let (u, es) ← replay act t inputs
    some (u, (i, o) :: es)

theorem run_of_replay {ι ο : Type} {act : σ → ι → Option (σ × ο)} {inputs : List ι}
    {es : List (ι × ο)} {s t : σ}
    (done : replay act s inputs = some (t, es)) : Run (Acts act) s es t := by
  induction inputs generalizing s es with
  | nil =>
    cases done
    exact .nil
  | cons i inputs ih =>
    simp only [replay, Option.bind_eq_bind, Option.bind_eq_some_iff] at done
    obtain ⟨⟨u, o⟩, acted, ⟨v, later⟩, rest, done⟩ := done
    cases done
    have one : Run (Acts act) s [(i, o)] u := Run.nil.snoc acted
    exact one.trans (ih rest)

theorem inputs_of_replay {ι ο : Type} {act : σ → ι → Option (σ × ο)} {inputs : List ι}
    {es : List (ι × ο)} {s t : σ} (done : replay act s inputs = some (t, es)) :
    es.map Prod.fst = inputs := by
  induction inputs generalizing s es with
  | nil =>
    cases done
    rfl
  | cons i inputs ih =>
    simp only [replay, Option.bind_eq_bind, Option.bind_eq_some_iff] at done
    obtain ⟨⟨u, o⟩, _, ⟨v, later⟩, rest, done⟩ := done
    cases done
    rw [map_cons, ih rest]

/-- A run on given inputs, found by evaluating it. -/
theorem exists_run {ι ο : Type} (act : σ → ι → Option (σ × ο)) (start : σ) (inputs : List ι)
    (P : List (ι × ο) → σ → Prop) [∀ es s, Decidable (P es s)]
    (reached : (replay act start inputs).any (fun r => P r.2 r.1) = true) :
    ∃ es s, Run (Acts act) start es s ∧ es.map Prod.fst = inputs ∧ P es s := by
  obtain ⟨⟨s, es⟩, ran, holds⟩ := (Option.any_eq_true _ _).mp reached
  exact ⟨es, s, run_of_replay ran, inputs_of_replay ran, of_decide_eq_true holds⟩

/-- A run on given inputs and one more step. -/
theorem exists_run_then {ι ο : Type} (act : σ → ι → Option (σ × ο)) (start : σ) (inputs : List ι)
    (input : ι) (P : List (ι × ο) → σ → ο → σ → Prop) [∀ es s o t, Decidable (P es s o t)]
    (reached : (replay act start inputs).any
      (fun r => (act r.1 input).any fun a => P r.2 r.1 a.2 a.1) = true) :
    ∃ es s o t, Run (Acts act) start es s ∧ es.map Prod.fst = inputs ∧
      Acts act s (input, o) t ∧ P es s o t := by
  obtain ⟨es, s, run, same, last⟩ := exists_run act start inputs
    (fun es s => (act s input).any fun a => P es s a.2 a.1) (by simpa using reached)
  obtain ⟨⟨t, o⟩, acted, holds⟩ := (Option.any_eq_true _ _).mp last
  exact ⟨es, s, o, t, run, same, acted, of_decide_eq_true holds⟩

/-- A function that keeps an invariant and never fails on it can be fed any inputs. -/
theorem replay_total {ι ο : Type} {act : σ → ι → Option (σ × ο)} (Inv : List (ι × ο) → σ → Prop)
    (keep : ∀ es s i, Inv es s → ∃ t o, act s i = some (t, o) ∧ Inv (es ++ [(i, o)]) t)
    {s : σ} {before : List (ι × ο)} (init : Inv before s) (inputs : List ι) :
    ∃ t es, replay act s inputs = some (t, es) ∧ Inv (before ++ es) t := by
  induction inputs generalizing s before with
  | nil => exact ⟨s, [], rfl, by simpa using init⟩
  | cons i inputs ih =>
    obtain ⟨t, o, acted, kept⟩ := keep before s i init
    obtain ⟨u, es, rest, holds⟩ := ih kept
    refine ⟨u, (i, o) :: es, by simp [replay, acted, rest], ?_⟩
    simpa using holds

theorem replay_countdown {ι ο : Type} {act : σ → ι → Option (σ × ο)} {inputs : List ι} {s : σ}
    (Inv : σ → Prop) (measure : σ → Nat) (init : Inv s)
    (keep : ∀ s, Inv s → ∀ i ∈ inputs, ∃ t o, act s i = some (t, o) ∧ Inv t ∧
      measure t = measure s - 1) :
    ∃ t es, replay act s inputs = some (t, es) ∧ Inv t ∧
      measure t = measure s - inputs.length := by
  induction inputs generalizing s with
  | nil => exact ⟨s, [], rfl, init, rfl⟩
  | cons i inputs ih =>
    obtain ⟨t, o, acted, kept, counted⟩ := keep s init i mem_cons_self
    obtain ⟨u, es, rest, holds, left⟩ :=
      ih kept fun s inv i later => keep s inv i (mem_cons_of_mem _ later)
    refine ⟨u, (i, o) :: es, by simp [replay, acted, rest], holds, ?_⟩
    rw [left, counted, length_cons]
    omega

/-- The last value that an event of a history gives. -/
def latest {α : Type} (value : ε → Option α) (es : List ε) : Option α :=
  es.reverse.findSome? value

theorem latest_snoc {α : Type} (value : ε → Option α) (es : List ε) (e : ε) :
    latest value (es ++ [e]) = (value e).or (latest value es) := by
  rw [latest, reverse_append]
  cases given : value e <;> simp [given, latest]

theorem latest_of_last {α : Type} {value : ε → Option α} {e : ε} {a : α} {fs : List ε}
    (given : value e = some a) (silent : ∀ e' ∈ fs, value e' = none) (es : List ε) :
    latest value (es ++ e :: fs) = some a := by
  have quiet : fs.reverse.findSome? value = none :=
    findSome?_eq_none_iff.mpr fun e' inside => silent e' (mem_reverse.mp inside)
  simp [latest, findSome?_append, quiet, given]

/-- Keep only the steps whose event is allowed in the state it is taken from. -/
def Guarded (allowed : σ → ε → Prop) (step : σ → ε → σ → Prop) (s : σ) (e : ε) (t : σ) : Prop :=
  allowed s e ∧ step s e t

theorem Run.unguarded {allowed : σ → ε → Prop} (run : Run (Guarded allowed step) start es s) :
    Run step start es s :=
  run.mono fun _ _ _ taken => taken.2

theorem Run.guarded {allowed : σ → ε → Prop} (free : ∀ e ∈ es, ∀ s, allowed s e)
    (run : Run step start es s) : Run (Guarded allowed step) start es s := by
  induction run with
  | nil => exact .nil
  | snoc _ taken ih =>
    refine .snoc (ih fun e inside => free e (mem_append_left _ inside)) ⟨?_, taken⟩
    exact free _ (mem_append_right _ (mem_singleton_self _)) _

def restrict {ι ο : Type} (allowed : σ → ι → Bool) (act : σ → ι → Option (σ × ο)) (s : σ) (i : ι) :
    Option (σ × ο) :=
  if allowed s i then act s i else none

theorem Run.of_restrict {ι ο : Type} {allowed : σ → ι → Bool} {act : σ → ι → Option (σ × ο)}
    {es : List (ι × ο)} (run : Run (Acts (restrict allowed act)) start es s) :
    Run (Guarded (fun s e => allowed s e.1) (Acts act)) start es s := by
  refine run.mono fun s e t acted => ?_
  unfold Acts restrict at acted
  split at acted
  · rename_i isAllowed
    exact ⟨isAllowed, acted⟩
  · cases acted

end MpcNetwork.Runs
