/-
Runs of a system that takes one step after another.

A system is given by what an event does to a state.  A run is a list of events; this library
has the three questions one asks about it: whether every event met a condition in the state
it happened in (`EveryStep`), what the steps preserve (`invariant`), and what an observer may
have seen on the way (`Occurs`), in particular of a quantity that never decreases
(`Occurs.le_end`).
-/
import Mathlib.Data.List.Induction
import Mathlib.Order.Basic

namespace Runs

variable {σ ε α : Type*} (step : σ → ε → σ)

/-- The state after a list of events. -/
def run (s : σ) (events : List ε) : σ := events.foldl step s

/-- Every event of a run meets the condition `P` in the state in which it happens. -/
def EveryStep (P : σ → ε → Prop) : σ → List ε → Prop
  | _, [] => True
  | s, e :: events => P s e ∧ EveryStep P (step s e) events

/-- At some moment of the run the observation `f` is `v`. -/
def Occurs (f : σ → α) (s : σ) (events : List ε) (v : α) : Prop :=
  ∃ before after, events = before ++ after ∧ f (run step s before) = v

variable {step} {s : σ} {e : ε} {events before after : List ε} {P : σ → ε → Prop} {f : σ → α}
  {v : α}

@[simp] lemma run_nil : run step s [] = s := rfl

@[simp] lemma run_cons : run step s (e :: events) = run step (step s e) events := rfl

lemma run_append : run step s (before ++ after) = run step (run step s before) after :=
  List.foldl_append

lemma run_concat : run step s (events ++ [e]) = step (run step s events) e := run_append

lemma everyStep_append :
    EveryStep step P s (before ++ after) ↔
      EveryStep step P s before ∧ EveryStep step P (run step s before) after := by
  induction before generalizing s with
  | nil => simp [EveryStep]
  | cons e before ih =>
    show P s e ∧ EveryStep step P (step s e) (before ++ after) ↔ _
    rw [ih, ← and_assoc]
    exact Iff.rfl

lemma EveryStep.and {Q : σ → ε → Prop} (hP : EveryStep step P s events)
    (hQ : EveryStep step Q s events) : EveryStep step (fun s e => P s e ∧ Q s e) s events := by
  induction events generalizing s with
  | nil => trivial
  | cons e events ih => exact ⟨⟨hP.1, hQ.1⟩, ih hP.2 hQ.2⟩

/-- What steps under a condition preserve holds at the end of a run under it. -/
theorem invariant {I : σ → Prop} (hstep : ∀ s e, I s → P s e → I (step s e)) (hstart : I s)
    (hevery : EveryStep step P s events) : I (run step s events) := by
  induction events generalizing s with
  | nil => exact hstart
  | cons e events ih => exact ih (hstep s e hstart hevery.1) hevery.2

/-- What all steps preserve holds at the end of every run. -/
theorem invariant_of_forall {I : σ → Prop} (hstep : ∀ s e, I s → I (step s e)) (hstart : I s)
    (events : List ε) : I (run step s events) := by
  induction events generalizing s with
  | nil => exact hstart
  | cons e events ih => exact ih (hstep s e hstart)

namespace Occurs

lemma at_end : Occurs step f s events (f (run step s events)) :=
  ⟨events, [], (List.append_nil _).symm, rfl⟩

lemma append_left (h : Occurs step f s before v) (after : List ε) :
    Occurs step f s (before ++ after) v := by
  obtain ⟨first, rest, rfl, hv⟩ := h
  exact ⟨first, rest ++ after, List.append_assoc _ _ _, hv⟩

lemma of_invariant {I : σ → Prop} (h : Occurs step f s events v)
    (hstep : ∀ s e, I s → P s e → I (step s e)) (hstart : I s)
    (hevery : EveryStep step P s events) : ∃ s', I s' ∧ f s' = v := by
  obtain ⟨first, rest, rfl, hv⟩ := h
  exact ⟨run step s first, invariant hstep hstart (everyStep_append.mp hevery).1, hv⟩

end Occurs

section Monotone

variable {β : Type*} [Preorder β] {m : σ → β}

/-- A quantity that no step decreases is at least what it was at the start. -/
theorem le_run (hstep : ∀ s e, P s e → m s ≤ m (step s e)) (hevery : EveryStep step P s events) :
    m s ≤ m (run step s events) := by
  induction events generalizing s with
  | nil => exact le_rfl
  | cons e events ih => exact (hstep s e hevery.1).trans (ih hevery.2)

/-- An observation of such a quantity lies between its values at the start and at the end. -/
theorem Occurs.le_end (h : Occurs step f s events v) {g : α → β} (hg : ∀ s, g (f s) = m s)
    (hstep : ∀ s e, P s e → m s ≤ m (step s e)) (hevery : EveryStep step P s events) :
    m s ≤ g v ∧ g v ≤ m (run step s events) := by
  obtain ⟨first, rest, rfl, rfl⟩ := h
  obtain ⟨hfirst, hrest⟩ := everyStep_append.mp hevery
  rw [hg, run_append]
  exact ⟨le_run hstep hfirst, le_run hstep hrest⟩

end Monotone

end Runs
