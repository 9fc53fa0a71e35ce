/-
Runs that go on for ever, under a schedule that keeps coming back to one party.

A schedule is an infinite sequence of events, and a run under it has a state at every moment.
Some events are own ones; a schedule is fair to them when there is always another one to come
(`Recurs`).  A rank in a well-founded order that own events lower, until the work is done, and
other events do not touch, shows that the work gets done (`Ranked.eventually`).  The order need
not be that of the numbers: how much an own event leaves to be done may depend on what others
have done before it.
-/
import FrostSubstrate.Lib.Runs
import Mathlib.Data.List.Range
import Mathlib.Data.Nat.Find
import Mathlib.Data.Set.Finite.Lattice
import Mathlib.Order.WellFounded

namespace FairRuns

variable {σ ε β : Type*}

/-- The events before moment `n`. -/
def upTo (schedule : ℕ → ε) (n : ℕ) : List ε := (List.range n).map schedule

/-- The events that meet `own` come again and again. -/
def Recurs (own : ε → Prop) (schedule : ℕ → ε) : Prop := ∀ n, ∃ m, n ≤ m ∧ own (schedule m)

/-- At every moment from some moment on. -/
def Settles (P : ℕ → Prop) : Prop := ∃ n, ∀ m, n ≤ m → P m

variable {step : σ → ε → σ} {s : σ} {schedule : ℕ → ε} {own : ε → Prop} {m n : ℕ}

lemma upTo_succ : upTo schedule (n + 1) = upTo schedule n ++ [schedule n] := by
  simp [upTo, List.range_succ]

lemma mem_upTo {e : ε} : e ∈ upTo schedule n ↔ ∃ k < n, schedule k = e := by
  simp [upTo]

lemma upTo_prefix (h : n ≤ m) : upTo schedule n <+: upTo schedule m := by
  induction m, h using Nat.le_induction with
  | base => exact List.prefix_rfl
  | succ m hm ih =>
    rw [upTo_succ]
    exact ih.trans (List.prefix_append _ _)

lemma run_upTo_succ : Runs.run step s (upTo schedule (n + 1))
    = step (Runs.run step s (upTo schedule n)) (schedule n) := by
  rw [upTo_succ, Runs.run_concat]

namespace Settles

variable {P Q : ℕ → Prop}

lemma mono (h : Settles P) (hPQ : ∀ n, P n → Q n) : Settles Q := by
  obtain ⟨n, hn⟩ := h
  exact ⟨n, fun m hm => hPQ m (hn m hm)⟩

lemma and (hP : Settles P) (hQ : Settles Q) : Settles fun n => P n ∧ Q n := by
  obtain ⟨n, hn⟩ := hP
  obtain ⟨n', hn'⟩ := hQ
  refine ⟨max n n', fun m hm => ⟨hn m ?_, hn' m ?_⟩⟩
  · exact (le_max_left _ _).trans hm
  · exact (le_max_right _ _).trans hm

lemma forall_finite {ι : Type*} [Finite ι] {P : ι → ℕ → Prop} (h : ∀ i, Settles (P i)) :
    Settles fun n => ∀ i, P i n := by
  choose n hn using h
  obtain ⟨N, hN⟩ := Set.finite_range n |>.bddAbove
  exact ⟨N, fun m hm i => hn i m ((hN ⟨i, rfl⟩).trans hm)⟩

end Settles

/-- A rank for the own events, along the run from `s`: an own event lowers it, or finds the work
done or does the rest of it; other events keep it, and work that is done stays done. -/
structure Ranked (step : σ → ε → σ) (s : σ) (schedule : ℕ → ε) (own : ε → Prop) (done : σ → Prop)
    (r : β → β → Prop) (rank : σ → β) : Prop where
  own_step : ∀ n, own (schedule n) → ¬ done (Runs.run step s (upTo schedule n)) →
    r (rank (Runs.run step s (upTo schedule (n + 1)))) (rank (Runs.run step s (upTo schedule n)))
  other_step : ∀ n, ¬ own (schedule n) →
    rank (Runs.run step s (upTo schedule (n + 1))) = rank (Runs.run step s (upTo schedule n))
  done_step : ∀ n, done (Runs.run step s (upTo schedule n)) →
    done (Runs.run step s (upTo schedule (n + 1)))

namespace Ranked

variable {done : σ → Prop} {r : β → β → Prop} {rank : σ → β}

lemma done_later (h : Ranked step s schedule own done r rank)
    (hdone : done (Runs.run step s (upTo schedule n))) (hm : n ≤ m) :
    done (Runs.run step s (upTo schedule m)) := by
  induction m, hm using Nat.le_induction with
  | base => exact hdone
  | succ m hm ih => exact h.done_step m ih

/-- Where the work is not done yet, the rank gets lower at some later moment. -/
lemma exists_lower (h : Ranked step s schedule own done r rank) (hfair : Recurs own schedule)
    (n : ℕ) (hdone : ∀ m, ¬ done (Runs.run step s (upTo schedule m))) :
    ∃ m, r (rank (Runs.run step s (upTo schedule m)))
      (rank (Runs.run step s (upTo schedule n))) := by
  classical
  have hnext : ∃ k, n ≤ k ∧ own (schedule k) := hfair n
  obtain ⟨hk, hown⟩ := Nat.find_spec hnext
  refine ⟨Nat.find hnext + 1, ?_⟩
  -- up to the next own event the rank stays as it is
  have hkept : ∀ k, n ≤ k → k ≤ Nat.find hnext →
      rank (Runs.run step s (upTo schedule k)) = rank (Runs.run step s (upTo schedule n)) := by
    intro k hnk
    induction k, hnk using Nat.le_induction with
    | base => exact fun _ => rfl
    | succ k hnk ih =>
      intro hlt
      have hother : ¬ own (schedule k) := fun hk => Nat.find_min hnext hlt ⟨hnk, hk⟩
      exact (h.other_step k hother).trans (ih (Nat.le_of_succ_le hlt))
  rw [← hkept _ hk le_rfl]
  exact h.own_step _ hown (hdone _)

/-- **Ranked work gets done.**  Under a schedule that keeps coming back to the own events, there is
a moment from which on the work is done. -/
theorem eventually (h : Ranked step s schedule own done r rank) (hr : WellFounded r)
    (hfair : Recurs own schedule) :
    Settles fun n => done (Runs.run step s (upTo schedule n)) := by
  by_contra hnever
  have hdone : ∀ m, ¬ done (Runs.run step s (upTo schedule m)) :=
    fun m hm => hnever ⟨m, fun k hk => h.done_later hm hk⟩
  -- the ranks that occur have a lowest one
  obtain ⟨_, ⟨n, rfl⟩, hlowest⟩ := hr.has_min
    (Set.range fun n => rank (Runs.run step s (upTo schedule n))) ⟨_, 0, rfl⟩
  obtain ⟨m, hm⟩ := h.exists_lower hfair n hdone
  exact hlowest _ ⟨m, rfl⟩ hm

end Ranked

end FairRuns
