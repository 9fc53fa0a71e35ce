/-
Computations that check first and write last.

A computation of `ExceptT ε (StateM σ)` that fails keeps what it has written so far.  Where all
checks come before the first write, nothing is kept: `FailsOrReturns m s P` says that `m` fails and
leaves the state `s`, or returns and leaves a state with `P`.  There is one rule for each kind of
check, which hands on what the check has found, so that a proof about such a computation reads
like the computation.
-/
import Mathlib.Tactic.Cases

namespace Checked

variable {ε σ α β : Type} {m : ExceptT ε (StateM σ) α} {k : α → ExceptT ε (StateM σ) β} {s s' : σ}
  {P : σ → Prop} {a : α} {e : ε}

/-- On the state `s` the computation fails and leaves `s`, or returns and leaves a state with
`P`. -/
def FailsOrReturns (m : ExceptT ε (StateM σ) α) (s : σ) (P : σ → Prop) : Prop :=
  (∃ e, m.run.run s = (.error e, s)) ∨ ∃ a s', m.run.run s = (.ok a, s') ∧ P s'

/-- A computation that answers `r` and leaves the state alone, whatever it is. -/
def Answers (m : ExceptT ε (StateM σ) α) (r : Except ε α) : Prop := ∀ s, m.run.run s = (r, s)

lemma answers_pure (a : α) : Answers (pure a : ExceptT ε (StateM σ) α) (.ok a) := fun _ => rfl

lemma answers_throw (e : ε) : Answers (throw e : ExceptT ε (StateM σ) α) (.error e) :=
  fun _ => rfl

lemma run_bind_of_ok (h : m.run.run s = (.ok a, s')) :
    (m >>= k).run.run s = (k a).run.run s' := by
  show (ExceptT.bindCont k (m.run.run s).1).run (m.run.run s).2 = _
  rw [h]
  rfl

lemma run_bind_of_error (h : m.run.run s = (.error e, s')) :
    (m >>= k).run.run s = (.error e, s') := by
  show (ExceptT.bindCont k (m.run.run s).1).run (m.run.run s).2 = _
  rw [h]
  rfl

/-- **After a check** the computation goes on with what it has found. -/
theorem FailsOrReturns.check {r : Except ε α} (hm : Answers m r)
    (hk : ∀ a, r = .ok a → FailsOrReturns (k a) s P) : FailsOrReturns (m >>= k) s P := by
  rcases r with e | a
  · exact Or.inl ⟨e, run_bind_of_error (hm s)⟩
  · rcases hk a rfl with ⟨e, hfails⟩ | ⟨b, s', hreturns, hP⟩
    · exact Or.inl ⟨e, (run_bind_of_ok (hm s)).trans hfails⟩
    · exact Or.inr ⟨b, s', (run_bind_of_ok (hm s)).trans hreturns, hP⟩

/-- A look at the state sees the state the computation was started on. -/
theorem FailsOrReturns.look {k : σ → ExceptT ε (StateM σ) β} (hk : FailsOrReturns (k s) s P) :
    FailsOrReturns (get >>= k) s P := hk

lemma FailsOrReturns.write (h : m.run.run s = (.ok a, s')) (hP : P s') : FailsOrReturns m s P :=
  Or.inr ⟨a, s', h, hP⟩

end Checked
