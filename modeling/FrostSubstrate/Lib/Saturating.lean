/-
Sums under saturating addition.

A machine that adds with saturation caps every intermediate result at the largest
representable number `M`.  The cap is absorbing for natural numbers, so adding up a
list this way is the same as capping the exact sum once, whatever the order of the
summands.
-/
import Mathlib.Algebra.BigOperators.Group.List.Basic
import Mathlib.Algebra.Order.BigOperators.Group.List
import Mathlib.Algebra.Ring.Nat

namespace Saturating

variable {α : Type*} (M : ℕ)

/-- Addition capped at `M`. -/
def satAdd (a b : ℕ) : ℕ := min (a + b) M

@[simp] lemma satAdd_le (a b : ℕ) : satAdd M a b ≤ M := min_le_right _ _

/-- The loop that adds `f x` for the elements `x` that pass the test `p` and skips the
others, every addition being capped at `M`. -/
def satSum (p : α → Bool) (f : α → ℕ) (l : List α) : ℕ :=
  l.foldl (fun acc x => if p x then satAdd M acc (f x) else acc) 0

/-- A capped loop started below the cap ends in the capped exact sum. -/
lemma foldl_satAdd (p : α → Bool) (f : α → ℕ) (l : List α) :
    ∀ acc ≤ M, l.foldl (fun acc x => if p x then satAdd M acc (f x) else acc) acc
      = min (acc + ((l.filter p).map f).sum) M := by
  induction l with
  | nil =>
    intro acc hacc
    simp [hacc]
  | cons x l ih =>
    intro acc hacc
    rw [List.foldl_cons]
    by_cases hx : p x
    · rw [if_pos hx, ih _ (satAdd_le M acc (f x)), List.filter_cons_of_pos hx, List.map_cons,
        List.sum_cons]
      simp only [satAdd]
      omega
    · rw [if_neg hx, ih acc hacc, List.filter_cons_of_neg hx]

/-- **Closed form of a saturating sum.** -/
theorem satSum_eq (p : α → Bool) (f : α → ℕ) (l : List α) :
    satSum M p f l = min ((l.filter p).map f).sum M := by
  rw [satSum, foldl_satAdd M p f l 0 (Nat.zero_le M), Nat.zero_add]

end Saturating
