/-
Weighted voting.

The weight of a finite set of voters, the Byzantine threshold of a total weight, and
the two facts a finality protocol rests on: two sets that hold more than two thirds of
the weight each share more than one third of it, and a list of ballots weighs as much
as its distinct voters plus the ballots that repeat one of them.
-/
import Mathlib.Algebra.BigOperators.Group.Finset.Basic
import Mathlib.Algebra.Order.BigOperators.Group.Finset
import Mathlib.Algebra.BigOperators.Group.Finset.Sigma
import Mathlib.Algebra.Order.BigOperators.Group.List
import Mathlib.Algebra.BigOperators.Group.List.Basic
import Mathlib.Algebra.Ring.Nat

namespace Weighted

variable {V : Type*} [DecidableEq V] (w : V → ℕ)

/-- The weight of a finite set of voters. -/
def weight (S : Finset V) : ℕ := ∑ v ∈ S, w v

omit [DecidableEq V] in
lemma weight_mono {S T : Finset V} (h : S ⊆ T) : weight w S ≤ weight w T :=
  Finset.sum_le_sum_of_subset h

lemma weight_union_add_inter (S T : Finset V) :
    weight w (S ∪ T) + weight w (S ∩ T) = weight w S + weight w T :=
  Finset.sum_union_inter

/-- The weight a set needs when less than a third of the total `T` may be faulty. -/
def threshold (T : ℕ) : ℕ := T - (T - 1) / 3

/-- Reaching the threshold is holding more than two thirds. -/
lemma threshold_le_iff {T x : ℕ} (hT : 0 < T) : threshold T ≤ x ↔ 2 * T < 3 * x := by
  unfold threshold
  omega

/-- **Quorum intersection.**  Two sets of voters that hold more than two thirds of the
weight of `U` each share more than one third of it. -/
theorem quorum_inter {U S T : Finset V} (hS : S ⊆ U) (hT : T ⊆ U)
    (hSw : 2 * weight w U < 3 * weight w S) (hTw : 2 * weight w U < 3 * weight w T) :
    weight w U < 3 * weight w (S ∩ T) := by
  have hunion : weight w (S ∪ T) ≤ weight w U := weight_mono w (Finset.union_subset hS hT)
  have hsum := weight_union_add_inter w S T
  omega

/-- The weight of a list of ballots, each counted as often as it occurs. -/
def ballotWeight (l : List V) : ℕ := (l.map w).sum

/-- The weight of the ballots that repeat the voter of a later one. -/
def repeatedWeight : List V → ℕ
  | [] => 0
  | v :: l => (if v ∈ l then w v else 0) + repeatedWeight l

/-- **Ballots and voters.**  A list of ballots weighs what its distinct voters weigh,
plus the repetitions. -/
theorem ballotWeight_eq (l : List V) :
    ballotWeight w l = weight w l.toFinset + repeatedWeight w l := by
  induction l with
  | nil => rfl
  | cons v l ih =>
    rw [ballotWeight, List.map_cons, List.sum_cons, ← ballotWeight, ih, repeatedWeight,
      List.toFinset_cons]
    by_cases hv : v ∈ l
    · rw [if_pos hv, Finset.insert_eq_self.mpr (List.mem_toFinset.mpr hv)]
      omega
    · have hnot : v ∉ l.toFinset := by simpa using hv
      rw [if_neg hv, weight, weight, Finset.sum_insert hnot]
      omega

lemma repeatedWeight_of_nodup {l : List V} (h : l.Nodup) : repeatedWeight w l = 0 := by
  induction l with
  | nil => rfl
  | cons v l ih =>
    obtain ⟨hv, hl⟩ := List.nodup_cons.mp h
    rw [repeatedWeight, if_neg hv, ih hl]

omit [DecidableEq V] in
lemma ballotWeight_perm {l l' : List V} (h : l.Perm l') : ballotWeight w l = ballotWeight w l' :=
  (h.map w).sum_eq

omit [DecidableEq V] in
lemma ballotWeight_le_of_sublist {l l' : List V} (h : l.Sublist l') :
    ballotWeight w l ≤ ballotWeight w l' :=
  (h.map w).sum_le_sum fun _ _ => Nat.zero_le _

lemma ballotWeight_le_weight {l : List V} {U : Finset V} (h : l.Nodup) (hU : ∀ v ∈ l, v ∈ U) :
    ballotWeight w l ≤ weight w U := by
  rw [ballotWeight_eq, repeatedWeight_of_nodup w h, Nat.add_zero]
  apply weight_mono
  intro v hv
  exact hU v (List.mem_toFinset.mp hv)

end Weighted
