/-
Searching a slice by its windows.

`slice.windows(n)` lists the contiguous pieces of length `n` of a slice, from left to
right, and panics when `n` is zero.  Comparing every window with a pattern of that
length is a search for the pattern as a contiguous part of the slice.
-/
import FrostSubstrate.Lib.Traced
import Mathlib.Data.List.Infix

namespace Windows

variable {α ε : Type}

/-- The contiguous pieces of length `n` of a slice. -/
def windows (n : ℕ) : List α → List (List α)
  | [] => []
  | x :: l => if n ≤ (x :: l).length then (x :: l).take n :: windows n l else []

/-- `slice.windows(n)`: a window length of zero is a panic. -/
def sliceWindows (n : ℕ) (l : List α) : Outcome ε (List (List α)) :=
  if n = 0 then .panicked else .ok (windows n l)

/-- The windows of positive length are exactly the contiguous parts of that length. -/
theorem mem_windows_iff {n : ℕ} (hn : 0 < n) {l p : List α} :
    p ∈ windows n l ↔ p.length = n ∧ p <:+: l := by
  induction l with
  | nil =>
    simp only [windows, List.not_mem_nil, List.infix_nil, false_iff, not_and]
    rintro hlen rfl
    simp at hlen
    omega
  | cons x l ih =>
    rw [windows]
    by_cases hle : n ≤ (x :: l).length
    · rw [if_pos hle, List.mem_cons, ih, List.infix_cons_iff]
      constructor
      · rintro (rfl | ⟨hlen, hin⟩)
        · exact ⟨by rw [List.length_take, min_eq_left hle], Or.inl (List.take_prefix _ _)⟩
        · exact ⟨hlen, Or.inr hin⟩
      · rintro ⟨hlen, hpre | hin⟩
        · left
          rw [List.prefix_iff_eq_take] at hpre
          rw [hpre, hlen]
        · exact Or.inr ⟨hlen, hin⟩
    · -- a slice shorter than the window has no window and no such part
      rw [if_neg hle]
      simp only [List.not_mem_nil, false_iff, not_and]
      intro hlen hin
      exact hle (hlen ▸ hin.length_le)

variable [DecidableEq α]

/-- Does some window of the pattern's length equal the pattern? -/
def containsWindow (l p : List α) : Outcome ε Bool := do
  let ws ← sliceWindows p.length l
  pure (ws.any fun window => window == p)

/-- Searching for the empty pattern is a panic. -/
@[simp] theorem containsWindow_nil (l : List α) :
    containsWindow (ε := ε) l [] = .panicked := rfl

/-- Searching for a nonempty pattern finds it exactly when it is a contiguous part. -/
theorem containsWindow_of_ne_nil {l p : List α} (hp : p ≠ []) :
    containsWindow (ε := ε) l p = .ok (decide (p <:+: l)) := by
  have hlen : 0 < p.length := List.length_pos_iff.mpr hp
  rw [containsWindow, sliceWindows, if_neg (by omega)]
  simp only [Outcome.ok_bind, Outcome.pure_eq, Outcome.ok.injEq]
  rw [Bool.eq_iff_iff, List.any_eq_true, decide_eq_true_eq]
  simp only [beq_iff_eq]
  constructor
  · rintro ⟨window, hmem, rfl⟩
    exact ((mem_windows_iff hlen).mp hmem).2
  · intro hin
    exact ⟨p, (mem_windows_iff hlen).mpr ⟨rfl, hin⟩, rfl⟩

end Windows
