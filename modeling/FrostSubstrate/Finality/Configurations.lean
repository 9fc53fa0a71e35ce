/-
Which configurations ask for the same.

A configuration of the predicate has a number of confirmations and a confidence threshold.  Most
of what they seem to say is lost: a finalized block has full confidence, a block above the
finalized height has no confirmations and at most 0.6, and of the confidences below that only two
occur where the participation asked for by the parameters is not above the literal of the chain
rules.  A configuration therefore makes one of 54 demands (`Demand`), and two configurations give
the same verdicts on all chains exactly when they make the same one (`sameVerdicts_iff`).
-/
import FrostSubstrate.Finality.ExactVerdict

namespace FrostSubstrate

/-- What a configuration comes to: it can never be met; the finalized height must be at least so
many blocks above the block; the block must be finalized or have a justification; or nothing. -/
inductive Demand where
  | unmeetable
  | confirmed (confirmations : ℕ)
  | justified
  | nothing
deriving DecidableEq

/-- A block of this number meets the demand, on a chain with this finalized height, with or without
a justification. -/
def Demand.MetBy (number finalizedNumber : ℕ) (hasJustification : Bool) : Demand → Prop
  | unmeetable => False
  | confirmed confirmations => number + confirmations ≤ finalizedNumber
  | justified => number ≤ finalizedNumber ∨ hasJustification = true
  | nothing => True

/-- The demand of a configuration. -/
def PredicateConfig.demand (config : PredicateConfig ℚ) : Demand :=
  if 1 < config.confidenceThreshold ∨ 50 < config.minConfirmations then .unmeetable
  else if 0 < config.minConfirmations ∨ 0.6 < config.confidenceThreshold then
    .confirmed config.minConfirmations
  else if 0.2 < config.confidenceThreshold then .justified
  else .nothing

/-- Demands that agree on finalized blocks, on justified ones and on bare ones are the same. -/
lemma Demand.eq_of_metBy_iff {d d' : Demand}
    (hbound : ∀ n, d = .confirmed n → n ≤ 50) (hbound' : ∀ n, d' = .confirmed n → n ≤ 50)
    (hfinalized : ∀ k ≤ 50, d.MetBy 0 k false ↔ d'.MetBy 0 k false)
    (hjustified : d.MetBy 1 0 true ↔ d'.MetBy 1 0 true)
    (hbare : d.MetBy 1 0 false ↔ d'.MetBy 1 0 false) : d = d' := by
  have hhigh := hfinalized 50 le_rfl
  cases d with
  | unmeetable =>
    cases d' with
    | unmeetable => rfl
    | confirmed n =>
      have hn := hbound' n rfl
      simp only [MetBy, false_iff] at hhigh
      omega
    | justified => simp [MetBy] at hjustified
    | nothing => simp [MetBy] at hjustified
  | confirmed m =>
    have hm := hbound m rfl
    cases d' with
    | unmeetable =>
      simp only [MetBy, iff_false] at hhigh
      omega
    | confirmed n =>
      have hn := hbound' n rfl
      have hatm := hfinalized m hm
      have hatn := hfinalized n hn
      simp only [MetBy] at hatm hatn
      have heq : m = n := by omega
      rw [heq]
    | justified => simp [MetBy] at hjustified
    | nothing => simp [MetBy] at hjustified
  | justified =>
    cases d' with
    | unmeetable => simp [MetBy] at hjustified
    | confirmed n => simp [MetBy] at hjustified
    | justified => rfl
    | nothing => simp [MetBy] at hbare
  | nothing =>
    cases d' with
    | unmeetable => simp [MetBy] at hjustified
    | confirmed n => simp [MetBy] at hjustified
    | justified => simp [MetBy] at hbare
    | nothing => rfl

lemma PredicateConfig.demand_confirmed_le {config : PredicateConfig ℚ} {n : ℕ}
    (h : config.demand = .confirmed n) : n ≤ 50 := by
  unfold PredicateConfig.demand at h
  split_ifs at h with hnever hconfirmed
  obtain rfl := Demand.confirmed.inj h
  push Not at hnever
  exact hnever.2

/-- The demand is met by a finalized block with its confirmations, under a threshold that can be
reached, or above the finalized height by the confidence that is left there. -/
lemma PredicateConfig.demand_metBy_iff {config : PredicateConfig ℚ} {number finalizedNumber : ℕ}
    {hasJustification : Bool} (hnear : finalizedNumber - number ≤ 50) :
    config.demand.MetBy number finalizedNumber hasJustification ↔
      number ≤ finalizedNumber ∧ config.minConfirmations ≤ finalizedNumber - number ∧
        config.confidenceThreshold ≤ 1 ∨
      finalizedNumber < number ∧ config.minConfirmations = 0 ∧
        config.confidenceThreshold ≤ if hasJustification then 0.6 else 0.2 := by
  have hmost : (if hasJustification then 0.6 else 0.2 : ℚ) ≤ 0.6 := by
    split_ifs <;> norm_num
  have hleast : (0.2 : ℚ) ≤ if hasJustification then 0.6 else 0.2 := by
    split_ifs <;> norm_num
  unfold PredicateConfig.demand
  by_cases hnever : 1 < config.confidenceThreshold ∨ 50 < config.minConfirmations
  · rw [if_pos hnever]
    simp only [Demand.MetBy, false_iff]
    rintro (⟨-, hconfirmations, hthreshold⟩ | ⟨-, hzero, hthreshold⟩)
    · rcases hnever with hnever | hnever
      · linarith
      · omega
    · rcases hnever with hnever | hnever
      · linarith
      · omega
  rw [if_neg hnever]
  push Not at hnever
  by_cases hconfirmed : 0 < config.minConfirmations ∨ 0.6 < config.confidenceThreshold
  · rw [if_pos hconfirmed]
    simp only [Demand.MetBy]
    constructor
    · intro hmet
      exact Or.inl ⟨by omega, by omega, hnever.1⟩
    · rintro (⟨hbelow, hconfirmations, -⟩ | ⟨-, hzero, hthreshold⟩)
      · omega
      · -- above the finalized height nothing is confirmed and 0.6 is the most
        rcases hconfirmed with hconfirmed | hconfirmed
        · omega
        · linarith
  rw [if_neg hconfirmed]
  push Not at hconfirmed
  have hzero : config.minConfirmations = 0 := by omega
  by_cases hpending : 0.2 < config.confidenceThreshold
  · rw [if_pos hpending]
    simp only [Demand.MetBy]
    constructor
    · intro hmet
      rcases Nat.lt_or_ge finalizedNumber number with hlt | hge
      · have hjustified : hasJustification = true := hmet.resolve_left (by omega)
        refine Or.inr ⟨hlt, hzero, ?_⟩
        rw [if_pos hjustified]
        exact hconfirmed.2
      · exact Or.inl ⟨hge, by omega, hnever.1⟩
    · rintro (⟨hbelow, -, -⟩ | ⟨-, -, hthreshold⟩)
      · exact Or.inl hbelow
      · right
        by_contra hnone
        rw [if_neg hnone] at hthreshold
        linarith
  · rw [if_neg hpending]
    simp only [Demand.MetBy, true_iff]
    rcases Nat.lt_or_ge finalizedNumber number with hlt | hge
    · exact Or.inr ⟨hlt, hzero, by linarith⟩
    · exact Or.inl ⟨hge, by omega, hnever.1⟩

/-! ### What the demand decides -/

section Decides

variable {Id Sig : Type} [DecidableEq Id] {B : BlockT} {G : Grandpa Id Sig}
  {p : GrandpaVerificationParams ℚ} {config config' : PredicateConfig ℚ} {s : ChainState}
  {V : VoterSet Id} {blockHash : H256} {blockRef : BlockRef} {header : Header}

/-- With enough participation for the chain rules, a justification gives all of its 0.4. -/
lemma pendingConfidence_of_participation (hp : 0 < p.minParticipation)
    (hle : p.minParticipation ≤ 0.67)
    (hparticipation : ∀ justificationBytes,
      s.grandpaJustification blockHash = some justificationBytes →
        0.67 ≤ decodedRate B G p V justificationBytes) :
    pendingConfidence B G p s V blockHash
      = if (s.grandpaJustification blockHash).isSome then 0.6 else 0.2 := by
  unfold pendingConfidence
  rcases hj : s.grandpaJustification blockHash with _ | justificationBytes
  · rfl
  · have hrate := hparticipation justificationBytes hj
    have hfull : 1 ≤ decodedRate B G p V justificationBytes / p.minParticipation := by
      rw [one_le_div hp]
      exact hle.trans hrate
    show 0.2 + 0.4 * min 1 (decodedRate B G p V justificationBytes / p.minParticipation)
      = (0.6 : ℚ)
    rw [min_eq_left hfull]
    norm_num

/-- **A configuration decides by its demand.** -/
theorem reportedFinal_iff_demand (hp : 0 < p.minParticipation) (hle : p.minParticipation ≤ 0.67)
    (hbest : s.info.finalizedNumber ≤ s.info.bestNumber) :
    ReportedFinal B G p config s V blockHash header ↔
      s.info.bestNumber - header.number ≤ 50 ∧
      (∀ justificationBytes, s.grandpaJustification blockHash = some justificationBytes →
        0.67 ≤ decodedRate B G p V justificationBytes) ∧
      config.demand.MetBy header.number s.info.finalizedNumber
        (s.grandpaJustification blockHash).isSome := by
  constructor
  · intro h
    refine ⟨h.near_best, h.participation, ?_⟩
    have hnear := h.near_best
    have hsettled := h.settled
    rw [pendingConfidence_of_participation hp hle h.participation] at hsettled
    exact (PredicateConfig.demand_metBy_iff (by omega)).mpr hsettled
  · rintro ⟨hnear, hparticipation, hmet⟩
    refine ⟨hnear, hparticipation, ?_⟩
    rw [pendingConfidence_of_participation hp hle hparticipation]
    exact (PredicateConfig.demand_metBy_iff (by omega)).mp hmet

lemma isFinalOn_eq_true_iff_demand (hconfig : config.minConfirmations ≤ u32Max)
    (hp : 0 < p.minParticipation) (hle : p.minParticipation ≤ 0.67)
    (hbest : s.info.finalizedNumber ≤ s.info.bestNumber) :
    isFinalOn B G p config ⟨s.client, V⟩ blockRef = .ok true ↔
      ∃ header, s.headers blockRef.hash = some header ∧
        header.number = B.saturatedFrom blockRef.number ∧
        s.info.bestNumber - header.number ≤ 50 ∧
        (∀ justificationBytes, s.grandpaJustification blockRef.hash = some justificationBytes →
          0.67 ≤ decodedRate B G p V justificationBytes) ∧
        config.demand.MetBy header.number s.info.finalizedNumber
          (s.grandpaJustification blockRef.hash).isSome := by
  rw [isFinalOn_eq_true_iff_reportedFinal hconfig]
  simp only [reportedFinal_iff_demand hp hle hbest]

lemma isFinalOn_eq_of_iff
    (h : isFinalOn B G p config ⟨s.client, V⟩ blockRef = .ok true ↔
      isFinalOn B G p config' ⟨s.client, V⟩ blockRef = .ok true) :
    isFinalOn B G p config ⟨s.client, V⟩ blockRef
      = isFinalOn B G p config' ⟨s.client, V⟩ blockRef := by
  rcases hheader : s.headers blockRef.hash with _ | header
  · rw [isFinalOn_of_none hheader, isFinalOn_of_none hheader]
  · by_cases hnumber : header.number = B.saturatedFrom blockRef.number
    · obtain ⟨b, hb⟩ : ∃ b, isFinalOn B G p config ⟨s.client, V⟩ blockRef = .ok b :=
        isFinalOn_isOk_iff.mpr ⟨header, hheader, hnumber⟩
      obtain ⟨b', hb'⟩ : ∃ b, isFinalOn B G p config' ⟨s.client, V⟩ blockRef = .ok b :=
        isFinalOn_isOk_iff.mpr ⟨header, hheader, hnumber⟩
      rw [hb, hb', Except.ok.injEq, Except.ok.injEq] at h
      rw [hb, hb', Bool.eq_iff_iff.mpr h]
    · rw [isFinalOn_of_number_ne hheader hnumber, isFinalOn_of_number_ne hheader hnumber]

end Decides

/-- Two configurations give the same results on every chain whose best block is not below the
finalized one, whoever the voters are and whatever decodes and verifies. -/
def SameVerdicts (B : BlockT) (p : GrandpaVerificationParams ℚ)
    (config config' : PredicateConfig ℚ) : Prop :=
  ∀ (Id Sig : Type) [DecidableEq Id] (G : Grandpa Id Sig) (V : VoterSet Id) (s : ChainState)
    (blockRef : BlockRef), s.info.finalizedNumber ≤ s.info.bestNumber →
      isFinalOn B G p config ⟨s.client, V⟩ blockRef
        = isFinalOn B G p config' ⟨s.client, V⟩ blockRef

/-! ### The chains that tell demands apart -/

/-- A chain on which every block has this number, justified or not. -/
def probeState (number finalizedNumber : ℕ) (hasJustification : Bool) : ChainState where
  headers _ := some ⟨.zero, .zero, number⟩
  justifications _ := if hasJustification then some ⟨[(grandpaEngineId, [])]⟩ else none
  info := ⟨.zero, max number finalizedNumber, .zero, finalizedNumber⟩

def probeRef (number : ℕ) : BlockRef := ⟨⟨""⟩, number, .zero⟩

variable {B : BlockT} {p : GrandpaVerificationParams ℚ} {config config' : PredicateConfig ℚ}

lemma decodedRate_soleVoter (justificationBytes : Bytes) :
    decodedRate B (firstVoterGrandpa B) p (soleVoter 1) justificationBytes = 1 := by
  have hget : (soleVoter 1).get 1 = some 1 := rfl
  have htotal : (soleVoter 1).totalWeight = 1 := rfl
  rw [decodedRate_firstVoter hget (by decide), htotal]
  norm_num

/-- The verdict on a probe is whether it meets the demand. -/
lemma isFinalOn_probeState (hconfig : config.minConfirmations ≤ u32Max)
    (hp : 0 < p.minParticipation) (hle : p.minParticipation ≤ 0.67) {number finalizedNumber : ℕ}
    (hsmall : number ≤ 50) (hnear : finalizedNumber ≤ 50) (hasJustification : Bool) :
    isFinalOn B (firstVoterGrandpa B) p config
        ⟨(probeState number finalizedNumber hasJustification).client, soleVoter 1⟩ (probeRef number)
        = .ok true ↔
      config.demand.MetBy number finalizedNumber hasJustification := by
  have hbest : (probeState number finalizedNumber hasJustification).info.finalizedNumber
      ≤ (probeState number finalizedNumber hasJustification).info.bestNumber := le_max_right _ _
  have hnumber : number = B.saturatedFrom number :=
    (B.saturatedFrom_of_le (hsmall.trans (by decide))).symm
  have hjustification : ((probeState number finalizedNumber hasJustification).grandpaJustification
      (probeRef number).hash).isSome = hasJustification := by
    cases hasJustification <;> rfl
  have hdistance : max number finalizedNumber - number ≤ 50 := by omega
  rw [isFinalOn_eq_true_iff_demand hconfig hp hle hbest, hjustification]
  constructor
  · rintro ⟨header, hheader, -, -, -, hmet⟩
    obtain rfl := Option.some.inj hheader
    exact hmet
  · intro hmet
    refine ⟨⟨.zero, .zero, number⟩, rfl, hnumber, hdistance, ?_, hmet⟩
    intro justificationBytes _
    rw [decodedRate_soleVoter]
    norm_num

/-- **The demands of the configurations.**  Where the parameters ask for some participation but
for no more than the chain rules do, two configurations give the same results on every chain
exactly when they make the same demand. -/
theorem sameVerdicts_iff (hconfig : config.minConfirmations ≤ u32Max)
    (hconfig' : config'.minConfirmations ≤ u32Max) (hp : 0 < p.minParticipation)
    (hle : p.minParticipation ≤ 0.67) :
    SameVerdicts B p config config' ↔ config.demand = config'.demand := by
  constructor
  · intro h
    have hprobe : ∀ number finalizedNumber hasJustification, number ≤ 50 → finalizedNumber ≤ 50 →
        (config.demand.MetBy number finalizedNumber hasJustification ↔
          config'.demand.MetBy number finalizedNumber hasJustification) := by
      intro number finalizedNumber hasJustification hsmall hnear
      rw [← isFinalOn_probeState (B := B) hconfig hp hle hsmall hnear,
        ← isFinalOn_probeState (B := B) hconfig' hp hle hsmall hnear,
        h ℕ (ℕ × Bytes) (firstVoterGrandpa B) (soleVoter 1) _ _ (le_max_right _ _)]
    exact Demand.eq_of_metBy_iff (fun _ hn => PredicateConfig.demand_confirmed_le hn)
      (fun _ hn => PredicateConfig.demand_confirmed_le hn)
      (fun k hk => hprobe 0 k false (Nat.zero_le _) hk)
      (hprobe 1 0 true (by omega) (by omega)) (hprobe 1 0 false (by omega) (by omega))
  · intro hdemand Id Sig _ G V s blockRef hbest
    apply isFinalOn_eq_of_iff
    rw [isFinalOn_eq_true_iff_demand hconfig hp hle hbest,
      isFinalOn_eq_true_iff_demand hconfig' hp hle hbest, hdemand]

/-- A threshold of 0.95 asks for no more than one of 0.7 when a confirmation is asked for. -/
theorem sameVerdicts_iff_sampleConfig :
    SameVerdicts .u32 .default sampleConfig ⟨2, 0.7, 60⟩ ↔
      sampleConfig.demand = (⟨2, 0.7, 60⟩ : PredicateConfig ℚ).demand :=
  sameVerdicts_iff (by decide) (by decide) (by norm_num [GrandpaVerificationParams.default])
    (by norm_num [GrandpaVerificationParams.default])

end FrostSubstrate
