/-
The tally of `verify_justification`.

The signed weight is the exact weight of the ballots that count, capped once, so it depends
neither on their order nor on where a further one stands, and it grows with the list.  When no
voter stands in the list twice the cap is never met: the ballots weigh at most the voters, and
their total fits in `u64`.
-/
import FrostSubstrate.Finality.Status
import Mathlib.Algebra.Order.Field.Basic

namespace FrostSubstrate

open Weighted (ballotWeight)

variable {Id Sig : Type} [DecidableEq Id] {B : BlockT} {G : Grandpa Id Sig} {V : VoterSet Id}
  {p : GrandpaVerificationParams ℚ} {J J' : GrandpaJustification Id Sig}
  {precommits precommits' before after : List (SignedPrecommit Id Sig)}
  {sp : SignedPrecommit Id Sig}

/-! ### The ballots that count -/

lemma countedVoters_perm (h : precommits.Perm precommits') :
    (countedVoters B G V precommits).Perm (countedVoters B G V precommits') :=
  (h.filter _).map _

lemma countedVoters_sublist (h : precommits.Sublist precommits') :
    (countedVoters B G V precommits).Sublist (countedVoters B G V precommits') :=
  (h.filter _).map _

lemma countedVoters_nodup (h : (precommits.map SignedPrecommit.id).Nodup) :
    (countedVoters B G V precommits).Nodup := by
  have hsublist : (countedVoters B G V precommits).Sublist (precommits.map SignedPrecommit.id) :=
    List.filter_sublist.map _
  exact hsublist.nodup h

lemma ballotWeight_countedVoters_le (h : (precommits.map SignedPrecommit.id).Nodup) :
    ballotWeight V.weightOf (countedVoters B G V precommits) ≤ u64Max := by
  have hle : ballotWeight V.weightOf (countedVoters B G V precommits) ≤ V.totalWeight := by
    rw [← V.weight_ids]
    apply Weighted.ballotWeight_le_weight _ (countedVoters_nodup h)
    intro id hid
    exact mem_ids_of_mem_countedVoters B G hid
  exact hle.trans V.totalWeight_le

/-! ### The signed weight -/

lemma signedWeight_perm (h : precommits.Perm precommits') :
    signedWeight B G V precommits = signedWeight B G V precommits' := by
  rw [signedWeight_eq, signedWeight_eq,
    Weighted.ballotWeight_perm V.weightOf (countedVoters_perm h)]

lemma signedWeight_mono (h : precommits.Sublist precommits') :
    signedWeight B G V precommits ≤ signedWeight B G V precommits' := by
  rw [signedWeight_eq, signedWeight_eq]
  exact min_le_min_right _
    (Weighted.ballotWeight_le_of_sublist V.weightOf (countedVoters_sublist h))

lemma signedWeight_of_nodup (h : (precommits.map SignedPrecommit.id).Nodup) :
    signedWeight B G V precommits = ballotWeight V.weightOf (countedVoters B G V precommits) := by
  rw [signedWeight_eq]
  exact min_eq_left (ballotWeight_countedVoters_le h)

lemma ballotWeight_concat (hcounts : counts B G V sp = true) :
    ballotWeight V.weightOf (countedVoters B G V (before ++ [sp]))
      = ballotWeight V.weightOf (countedVoters B G V before) + V.weightOf sp.id := by
  have hcounted : countedVoters B G V (before ++ [sp]) = countedVoters B G V before ++ [sp.id] := by
    rw [countedVoters, List.filter_append, List.filter_cons_of_pos hcounts, List.map_append]
    rfl
  rw [hcounted, ballotWeight, List.map_append, List.sum_append]
  simp [ballotWeight]

/-- Of distinct voters no addition meets the cap. -/
lemma signedWeight_add_le (h : (precommits.map SignedPrecommit.id).Nodup)
    (hsplit : precommits = before ++ sp :: after) (hcounts : counts B G V sp = true) :
    signedWeight B G V before + V.weightOf sp.id ≤ u64Max := by
  have hbegin : (before ++ [sp]).Sublist precommits := by
    have hregroup : before ++ sp :: after = (before ++ [sp]) ++ after := List.append_cons _ _ _
    rw [hsplit, hregroup]
    exact List.sublist_append_left _ _
  have hnodup : ((before ++ [sp]).map SignedPrecommit.id).Nodup :=
    (hbegin.map SignedPrecommit.id).nodup h
  have hbefore : (before.map SignedPrecommit.id).Nodup :=
    ((List.sublist_append_left before [sp]).map SignedPrecommit.id).nodup hnodup
  rw [signedWeight_of_nodup hbefore, ← ballotWeight_concat hcounts]
  exact ballotWeight_countedVoters_le hnodup

/-! ### The rate -/

lemma verifyJustification_rat :
    verifyJustification B G p V J
      = .ok (decide (p.minParticipation
            ≤ (signedWeight B G V J.commit.precommits : ℚ) / V.totalWeight),
          (signedWeight B G V J.commit.precommits : ℚ) / V.totalWeight) :=
  verifyJustification_eq B G p V J

omit [DecidableEq Id] in
lemma rate_le_rate {x y : ℕ} (h : x ≤ y) : (x : ℚ) / V.totalWeight ≤ (y : ℚ) / V.totalWeight := by
  have hT : (0 : ℚ) < V.totalWeight := by exact_mod_cast V.totalWeight_pos
  rw [div_le_div_iff_of_pos_right hT]
  exact_mod_cast h

/-- **The tally.**  Justifications whose precommits are permutations of each other have one
result; among more precommits the rate is no lower, and a true verdict stays true; and when no
voter signs twice, no addition of the loop saturates and the rate is the exact weight of the
ballots that count, over the total. -/
theorem tally_laws (B : BlockT) (G : Grandpa Id Sig) (p : GrandpaVerificationParams ℚ)
    (V : VoterSet Id) :
    (∀ J J' : GrandpaJustification Id Sig, J.commit.precommits.Perm J'.commit.precommits →
      verifyJustification B G p V J = verifyJustification B G p V J') ∧
    (∀ (J J' : GrandpaJustification Id Sig) (verdict verdict' : Bool) (rate rate' : ℚ),
      J.commit.precommits.Sublist J'.commit.precommits →
      verifyJustification B G p V J = .ok (verdict, rate) →
      verifyJustification B G p V J' = .ok (verdict', rate') →
      rate ≤ rate' ∧ (verdict = true → verdict' = true)) ∧
    (∀ J : GrandpaJustification Id Sig,
      (J.commit.precommits.map SignedPrecommit.id).Nodup →
      (∀ before sp after, J.commit.precommits = before ++ sp :: after →
        counts B G V sp = true → signedWeight B G V before + V.weightOf sp.id ≤ u64Max) ∧
      ∃ verdict, verifyJustification B G p V J
        = .ok (verdict, (ballotWeight V.weightOf (countedVoters B G V J.commit.precommits) : ℚ)
            / V.totalWeight)) := by
  refine ⟨?_, ?_, ?_⟩
  · intro J J' hperm
    rw [verifyJustification_rat, verifyJustification_rat, signedWeight_perm hperm]
  · intro J J' verdict verdict' rate rate' hsublist hJ hJ'
    rw [verifyJustification_rat] at hJ hJ'
    obtain ⟨rfl, rfl⟩ := Prod.mk.inj (Except.ok.inj hJ)
    obtain ⟨rfl, rfl⟩ := Prod.mk.inj (Except.ok.inj hJ')
    have hrate := rate_le_rate (V := V) (signedWeight_mono (B := B) (G := G) (V := V) hsublist)
    refine ⟨hrate, ?_⟩
    simp only [decide_eq_true_eq]
    intro hverdict
    exact hverdict.trans hrate
  · intro J hnodup
    refine ⟨fun before sp after hsplit => signedWeight_add_le hnodup hsplit, ?_⟩
    rw [verifyJustification_rat, signedWeight_of_nodup hnodup]
    exact ⟨_, rfl⟩

end FrostSubstrate
