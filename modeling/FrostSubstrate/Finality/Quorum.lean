/-
Quorum soundness of `verify_justification`.

A justification should be accepted only when the distinct voters behind it hold the
weight GRANDPA asks for.  The loop adds up ballots instead: a voter whose valid precommit
stands in the list twice is counted twice.  With `D` the weight of the distinct voters,
`R` that of the repetitions and `T` the total, `RepeatsHarmless` says when the repetitions
cannot lift the sum over a bound that `D` alone does not reach.  The verdict is sound
exactly then.
-/
import FrostSubstrate.Finality.Status
import Mathlib.Algebra.Order.Field.Basic
import Mathlib.Tactic.Positivity

namespace FrostSubstrate

open Weighted (weight ballotWeight repeatedWeight threshold)

variable {Id Sig : Type} [DecidableEq Id] (B : BlockT) (G : Grandpa Id Sig)

/-- The distinct voters with a validly signed precommit in the list. -/
def distinctVoters (V : VoterSet Id) (precommits : List (SignedPrecommit Id Sig)) : Finset Id :=
  (countedVoters B G V precommits).toFinset

/-- The weight of the valid precommits whose voter has a later one in the list. -/
def repeatedBallots (V : VoterSet Id) (precommits : List (SignedPrecommit Id Sig)) : ℕ :=
  repeatedWeight V.weightOf (countedVoters B G V precommits)

/-- The repetitions of a list of precommits do not matter: there are none, or the ballots
stay below 67 percent with them, or the distinct voters hold more than two thirds and the
ballots do not exceed the total with them (which they cannot at the largest total). -/
def RepeatsHarmless (V : VoterSet Id) (precommits : List (SignedPrecommit Id Sig)) : Prop :=
  repeatedBallots B G V precommits = 0 ∨
  100 * (weight V.weightOf (distinctVoters B G V precommits) + repeatedBallots B G V precommits)
    < 67 * V.totalWeight ∨
  2 * V.totalWeight < 3 * weight V.weightOf (distinctVoters B G V precommits) ∧
    (weight V.weightOf (distinctVoters B G V precommits) + repeatedBallots B G V precommits
        ≤ V.totalWeight ∨ V.totalWeight = u64Max)

variable {B G} {V : VoterSet Id} {p : GrandpaVerificationParams ℚ}
  {J J' : GrandpaJustification Id Sig} {rate rate' : ℚ}
  {precommits : List (SignedPrecommit Id Sig)}

lemma distinctVoters_subset : distinctVoters B G V precommits ⊆ V.ids := by
  intro id hid
  exact mem_ids_of_mem_countedVoters B G (List.mem_toFinset.mp hid)

lemma weight_distinctVoters_le :
    weight V.weightOf (distinctVoters B G V precommits) ≤ V.totalWeight := by
  rw [← V.weight_ids]
  exact Weighted.weight_mono _ distinctVoters_subset

/-- The signed weight, split into its distinct voters and the repetitions. -/
lemma signedWeight_eq_distinct :
    signedWeight B G V precommits
      = min (weight V.weightOf (distinctVoters B G V precommits)
          + repeatedBallots B G V precommits) u64Max := by
  rw [signedWeight_eq, Weighted.ballotWeight_eq]
  rfl

lemma verifyJustification_true_iff (hp : p.minParticipation = 67 / 100) :
    verifyJustification B G p V J = .ok (true, rate) ↔
      67 * V.totalWeight ≤ 100 * signedWeight B G V J.commit.precommits ∧
      rate = (signedWeight B G V J.commit.precommits : ℚ) / V.totalWeight := by
  have hT : (0 : ℚ) < V.totalWeight := by exact_mod_cast V.totalWeight_pos
  -- without denominators the comparison is one of natural numbers
  have hcmp : (67 / 100 : ℚ) ≤ signedWeight B G V J.commit.precommits / V.totalWeight ↔
      67 * V.totalWeight ≤ 100 * signedWeight B G V J.commit.precommits := by
    rw [div_le_div_iff₀ (by norm_num) hT, mul_comm (signedWeight _ _ _ _ : ℚ)]
    exact_mod_cast Iff.rfl
  rw [verifyJustification_eq, hp]
  simp only [F64.ofU64_rat, Except.ok.injEq, Prod.mk.injEq, decide_eq_true_eq, hcmp]
  exact and_congr_right fun _ => eq_comm

lemma rate_le_one_iff :
    (signedWeight B G V precommits : ℚ) / V.totalWeight ≤ 1 ↔
      signedWeight B G V precommits ≤ V.totalWeight := by
  have hT : (0 : ℚ) < V.totalWeight := by exact_mod_cast V.totalWeight_pos
  rw [div_le_one hT]
  exact Nat.cast_le

/-- The arithmetic of the repetitions: `D` distinct, `R` repeated, out of `T`, capped at `M`. -/
lemma sound_iff_harmless {D R T M : ℕ} (hT : 0 < T) (hTM : T ≤ M) (hD : D ≤ T) :
    (67 * T ≤ 100 * min (D + R) M → threshold T ≤ D ∧ min (D + R) M ≤ T) ↔
      R = 0 ∨ 100 * (D + R) < 67 * T ∨ 2 * T < 3 * D ∧ (D + R ≤ T ∨ T = M) := by
  rw [Weighted.threshold_le_iff hT]
  constructor
  · intro h
    -- a sound verdict with repetitions is either no acceptance or one that needs none of them
    by_cases hR : R = 0
    · exact Or.inl hR
    · by_cases hlow : 67 * T ≤ 100 * min (D + R) M
      · obtain ⟨hquorum, hcap⟩ := h hlow
        exact Or.inr (Or.inr ⟨hquorum, by omega⟩)
      · exact Or.inr (Or.inl (by omega))
  · rintro (rfl | hlow | ⟨hquorum, hcap⟩) haccept
    · -- 67 percent of the distinct voters are more than two thirds
      omega
    · omega
    · exact ⟨hquorum, by omega⟩

lemma sound_iff_repeatsHarmless (hp : p.minParticipation = 67 / 100) :
    (∀ rate, verifyJustification B G p V J = .ok (true, rate) →
        threshold V.totalWeight ≤ weight V.weightOf (distinctVoters B G V J.commit.precommits) ∧
        rate ≤ 1) ↔
      RepeatsHarmless B G V J.commit.precommits := by
  rw [RepeatsHarmless,
    ← sound_iff_harmless V.totalWeight_pos V.totalWeight_le weight_distinctVoters_le,
    ← signedWeight_eq_distinct]
  constructor
  · intro h haccept
    obtain ⟨hquorum, hrate⟩ := h _ ((verifyJustification_true_iff hp).mpr ⟨haccept, rfl⟩)
    exact ⟨hquorum, rate_le_one_iff.mp hrate⟩
  · rintro h rate hverify
    obtain ⟨haccept, rfl⟩ := (verifyJustification_true_iff hp).mp hverify
    obtain ⟨hquorum, hcap⟩ := h haccept
    exact ⟨hquorum, rate_le_one_iff.mpr hcap⟩

lemma repeatsHarmless_of_nodup (h : (countedVoters B G V precommits).Nodup) :
    RepeatsHarmless B G V precommits :=
  Or.inl (Weighted.repeatedWeight_of_nodup _ h)

/-- **Quorum soundness.**  At 67 percent, an accepted justification has a quorum of distinct
voters and a rate of at most one exactly when its repetitions are harmless; two such
justifications, accepted against one voter set, share voters with more than a third of the
weight. -/
theorem quorum_sound_iff_repeatsHarmless (hp : p.minParticipation = 67 / 100)
    (V : VoterSet Id) :
    (∀ J : GrandpaJustification Id Sig,
      (∀ rate, verifyJustification B G p V J = .ok (true, rate) →
          threshold V.totalWeight ≤ weight V.weightOf (distinctVoters B G V J.commit.precommits) ∧
          rate ≤ 1) ↔
        RepeatsHarmless B G V J.commit.precommits) ∧
    ∀ (J J' : GrandpaJustification Id Sig) (rate rate' : ℚ),
      RepeatsHarmless B G V J.commit.precommits → RepeatsHarmless B G V J'.commit.precommits →
      verifyJustification B G p V J = .ok (true, rate) →
      verifyJustification B G p V J' = .ok (true, rate') →
      V.totalWeight < 3 * weight V.weightOf (distinctVoters B G V J.commit.precommits ∩
        distinctVoters B G V J'.commit.precommits) := by
  refine ⟨fun J => sound_iff_repeatsHarmless hp, ?_⟩
  intro J J' rate rate' hJ hJ' hverify hverify'
  have hquorum := ((sound_iff_repeatsHarmless hp).mpr hJ rate hverify).1
  have hquorum' := ((sound_iff_repeatsHarmless hp).mpr hJ' rate' hverify').1
  rw [Weighted.threshold_le_iff V.totalWeight_pos, ← V.weight_ids] at hquorum hquorum'
  rw [← V.weight_ids]
  exact Weighted.quorum_inter _ distinctVoters_subset distinctVoters_subset hquorum hquorum'

/-! ### One voter three times -/

/-- A precommit signed by `id` over its bare encoding. -/
def bareSigned (id : ℕ) (precommit : Precommit) : SignedPrecommit ℕ (ℕ × Bytes) :=
  ⟨precommit, (id, precommit.encode .u32), id⟩

/-- A justification for block `1` that holds the precommit of one voter three times. -/
def tripleJustification (id : ℕ) : GrandpaJustification ℕ (ℕ × Bytes) :=
  ⟨1, .repeatByte 1, 1, List.replicate 3 (bareSigned id ⟨.repeatByte 1, 1⟩)⟩

/-- **One voter of three is accepted as a quorum**, and another one as well: the two
justifications share no voter. -/
theorem tripleJustification_accepted :
    (GrandpaVerificationParams.default : GrandpaVerificationParams ℚ).minParticipation = 67 / 100 ∧
      verifyJustification .u32 plainGrandpa (.default : GrandpaVerificationParams ℚ) sampleVoters
        (tripleJustification 1) = .ok (true, 1) ∧
      verifyJustification .u32 plainGrandpa (.default : GrandpaVerificationParams ℚ) sampleVoters
        (tripleJustification 2) = .ok (true, 1) ∧
      weight sampleVoters.weightOf (distinctVoters .u32 plainGrandpa sampleVoters
          (tripleJustification 1).commit.precommits) < threshold sampleVoters.totalWeight ∧
      distinctVoters .u32 plainGrandpa sampleVoters (tripleJustification 1).commit.precommits ∩
        distinctVoters .u32 plainGrandpa sampleVoters (tripleJustification 2).commit.precommits
          = ∅ := by
  have hp : (GrandpaVerificationParams.default : GrandpaVerificationParams ℚ).minParticipation
      = 67 / 100 := by
    norm_num [GrandpaVerificationParams.default]
  have hweight (id : ℕ) (hid : id = 1 ∨ id = 2) :
      signedWeight .u32 plainGrandpa sampleVoters (tripleJustification id).commit.precommits
        = 3 := by
    rcases hid with rfl | rfl <;> decide
  have htotal : sampleVoters.totalWeight = 3 := rfl
  refine ⟨hp, ?_, ?_, by decide, by decide⟩
  · rw [verifyJustification_true_iff hp, hweight 1 (.inl rfl), htotal]
    norm_num
  · rw [verifyJustification_true_iff hp, hweight 2 (.inr rfl), htotal]
    norm_num

/-- The statement at three equal voters. -/
theorem quorum_sound_iff_repeatsHarmless_sampleVoters :
    (∀ J : GrandpaJustification ℕ (ℕ × Bytes),
      (∀ rate, verifyJustification .u32 plainGrandpa (.default : GrandpaVerificationParams ℚ)
          sampleVoters J = .ok (true, rate) →
          threshold sampleVoters.totalWeight ≤ weight sampleVoters.weightOf
            (distinctVoters .u32 plainGrandpa sampleVoters J.commit.precommits) ∧
          rate ≤ 1) ↔
        RepeatsHarmless .u32 plainGrandpa sampleVoters J.commit.precommits) ∧
    ∀ (J J' : GrandpaJustification ℕ (ℕ × Bytes)) (rate rate' : ℚ),
      RepeatsHarmless .u32 plainGrandpa sampleVoters J.commit.precommits →
      RepeatsHarmless .u32 plainGrandpa sampleVoters J'.commit.precommits →
      verifyJustification .u32 plainGrandpa (.default : GrandpaVerificationParams ℚ)
        sampleVoters J = .ok (true, rate) →
      verifyJustification .u32 plainGrandpa (.default : GrandpaVerificationParams ℚ)
        sampleVoters J' = .ok (true, rate') →
      sampleVoters.totalWeight < 3 * weight sampleVoters.weightOf
        (distinctVoters .u32 plainGrandpa sampleVoters J.commit.precommits ∩
          distinctVoters .u32 plainGrandpa sampleVoters J'.commit.precommits) :=
  quorum_sound_iff_repeatsHarmless (by norm_num [GrandpaVerificationParams.default]) _

end FrostSubstrate
