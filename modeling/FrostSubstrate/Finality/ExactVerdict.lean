/-
The verdict on one state in closed form, and what the parameters of the client do to it.

Four functions make up `is_final`, with early returns that shadow one another.  In exact
arithmetic they come to one formula: `ReportedFinal` says it in the terms of the chain, with
one case for a block at or below the finalized height and one for a block above it.

The parameters of the verification client enter this formula only through the confidence of a
block above the finalized height.  Confirmations, distance to the best block and participation
are compared with the configuration of the predicate and with literals, so what is stricter in the
parameters is not enforced (`parametersEnforced_iff`).
-/
import FrostSubstrate.Finality.ExactConfidence

namespace FrostSubstrate

/-! ### The closed form -/

section ClosedForm

variable {Id Sig : Type} [DecidableEq Id]

/-- The confidence of a block above the finalized height. -/
def pendingConfidence (B : BlockT) (G : Grandpa Id Sig) (p : GrandpaVerificationParams ℚ)
    (s : ChainState) (V : VoterSet Id) (blockHash : H256) : ℚ :=
  match s.grandpaJustification blockHash with
  | some justificationBytes =>
    0.2 + 0.4 * min 1 (decodedRate B G p V justificationBytes / p.minParticipation)
  | none => 0.2

/-- What a block with a known header must meet to be reported final. -/
structure ReportedFinal (B : BlockT) (G : Grandpa Id Sig) (p : GrandpaVerificationParams ℚ)
    (config : PredicateConfig ℚ) (s : ChainState) (V : VoterSet Id) (blockHash : H256)
    (header : Header) : Prop where
  near_best : s.info.bestNumber - header.number ≤ 50
  participation : ∀ justificationBytes, s.grandpaJustification blockHash = some justificationBytes →
    0.67 ≤ decodedRate B G p V justificationBytes
  settled : header.number ≤ s.info.finalizedNumber ∧
      config.minConfirmations ≤ s.info.finalizedNumber - header.number ∧
      config.confidenceThreshold ≤ 1 ∨
    s.info.finalizedNumber < header.number ∧ config.minConfirmations = 0 ∧
      config.confidenceThreshold ≤ pendingConfidence B G p s V blockHash

variable {B : BlockT} {G : Grandpa Id Sig} {p : GrandpaVerificationParams ℚ}
  {config : PredicateConfig ℚ} {s : ChainState} {V : VoterSet Id} {blockHash : H256}
  {blockRef : BlockRef} {header : Header}

lemma unconfirmedConfidence_participationRate :
    unconfirmedConfidence p (statusOf B G p s V blockHash header).participationRate
      = pendingConfidence B G p s V blockHash := by
  unfold pendingConfidence
  rcases hj : s.grandpaJustification blockHash with _ | justificationBytes
  · simp only [statusOf, hj, F64.lit_rat, unconfirmedConfidence_zero]
  · simp only [statusOf, hj, unconfirmedConfidence]

variable (B G p s V blockHash) in
lemma pendingConfidence_le : pendingConfidence B G p s V blockHash ≤ 0.6 := by
  have hcap := unconfirmedConfidence_le p
    (statusOf B G p s V blockHash ⟨blockHash, blockHash, 0⟩).participationRate
  rwa [unconfirmedConfidence_participationRate] at hcap

/-- The checks of `is_final` in closed form. -/
lemma accepts_iff_reportedFinal (hconfig : config.minConfirmations ≤ u32Max) :
    Accepts B G p config s V blockHash header ↔
      ReportedFinal B G p config s V blockHash header := by
  have hsaturated : B.saturatedFrom config.minConfirmations = config.minConfirmations :=
    B.saturatedFrom_of_le hconfig
  constructor
  · intro h
    have hconfident := not_lt.mp h.confident
    have hconfirmed := h.confirmed
    rw [hsaturated] at hconfirmed
    refine ⟨h.near_best, fun justificationBytes hj => not_lt.mp (h.participation _ hj), ?_⟩
    rcases Nat.lt_or_ge s.info.finalizedNumber header.number with hlt | hle
    · refine Or.inr ⟨hlt, by omega, ?_⟩
      rwa [confidenceOf_of_lt hlt, unconfirmedConfidence_participationRate] at hconfident
    · refine Or.inl ⟨hle, hconfirmed, ?_⟩
      rwa [confidenceOf_of_le hle] at hconfident
  · intro h
    refine ⟨?_, ?_, h.near_best, fun justificationBytes hj => not_lt.mpr (h.participation _ hj)⟩
    · rcases h.settled with ⟨hle, -, hthreshold⟩ | ⟨hlt, -, hthreshold⟩
      · rw [confidenceOf_of_le hle]
        exact not_lt.mpr hthreshold
      · rw [confidenceOf_of_lt hlt, unconfirmedConfidence_participationRate]
        exact not_lt.mpr hthreshold
    · rw [hsaturated]
      rcases h.settled with ⟨-, hconfirmed, -⟩ | ⟨-, hzero, -⟩
      · exact hconfirmed
      · omega

lemma isFinalOn_eq_true_iff_reportedFinal (hconfig : config.minConfirmations ≤ u32Max) :
    isFinalOn B G p config ⟨s.client, V⟩ blockRef = .ok true ↔
      ∃ header, s.headers blockRef.hash = some header ∧
        header.number = B.saturatedFrom blockRef.number ∧
        ReportedFinal B G p config s V blockRef.hash header := by
  rw [isFinalOn_eq_true_iff]
  simp only [accepts_iff_reportedFinal hconfig]

lemma isFinalOn_isError_iff :
    (∃ e, isFinalOn B G p config ⟨s.client, V⟩ blockRef = .error e) ↔
      s.headers blockRef.hash = none ∨ ∃ header, s.headers blockRef.hash = some header ∧
        header.number ≠ B.saturatedFrom blockRef.number := by
  constructor
  · rintro ⟨e, he⟩
    rcases hheader : s.headers blockRef.hash with _ | header
    · exact Or.inl rfl
    · refine Or.inr ⟨header, rfl, fun hnumber => ?_⟩
      obtain ⟨b, hb⟩ : ∃ b, isFinalOn B G p config ⟨s.client, V⟩ blockRef = .ok b :=
        isFinalOn_isOk_iff.mpr ⟨header, hheader, hnumber⟩
      rw [he] at hb
      cases hb
  · rintro (hnone | ⟨header, hheader, hnumber⟩)
    · exact ⟨_, isFinalOn_of_none hnone⟩
    · exact ⟨_, isFinalOn_of_number_ne hheader hnumber⟩

lemma isFinalOn_eq_false_iff (hconfig : config.minConfirmations ≤ u32Max) :
    isFinalOn B G p config ⟨s.client, V⟩ blockRef = .ok false ↔
      ∃ header, s.headers blockRef.hash = some header ∧
        header.number = B.saturatedFrom blockRef.number ∧
        ¬ ReportedFinal B G p config s V blockRef.hash header := by
  constructor
  · intro hfalse
    obtain ⟨header, hheader, hnumber⟩ := isFinalOn_isOk_iff.mp ⟨false, hfalse⟩
    refine ⟨header, hheader, hnumber, fun hreported => ?_⟩
    have htrue := (isFinalOn_eq_true_iff_reportedFinal hconfig).mpr
      ⟨header, hheader, hnumber, hreported⟩
    rw [htrue] at hfalse
    cases hfalse
  · rintro ⟨header, hheader, hnumber, hnot⟩
    obtain ⟨b, hb⟩ : ∃ b, isFinalOn B G p config ⟨s.client, V⟩ blockRef = .ok b :=
      isFinalOn_isOk_iff.mpr ⟨header, hheader, hnumber⟩
    cases b with
    | false => exact hb
    | true =>
      obtain ⟨header', hheader', -, hreported⟩ :=
        (isFinalOn_eq_true_iff_reportedFinal hconfig).mp hb
      obtain rfl : header = header' := Option.some.inj (hheader.symm.trans hheader')
      exact absurd hreported hnot

/-- A block above the finalized height has no confirmations and at most 0.6. -/
lemma ReportedFinal.undemanding (h : ReportedFinal B G p config s V blockHash header)
    (hlt : s.info.finalizedNumber < header.number) :
    config.minConfirmations = 0 ∧ config.confidenceThreshold ≤ 0.6 := by
  rcases h.settled with ⟨hle, -, -⟩ | ⟨-, hzero, hthreshold⟩
  · omega
  · exact ⟨hzero, hthreshold.trans (pendingConfidence_le B G p s V blockHash)⟩

/-- **The verdict in closed form.**  `is_final` returns `Ok(true)` exactly on a known block of the
referenced number that meets the formula, an error exactly when the block is unknown or has
another number, and `Ok(false)` otherwise.  So it never reports a block above the finalized height
when it asks for a confirmation or for more than 0.6. -/
theorem isFinalOn_closed_form (hconfig : config.minConfirmations ≤ u32Max) :
    (isFinalOn B G p config ⟨s.client, V⟩ blockRef = .ok true ↔
      ∃ header, s.headers blockRef.hash = some header ∧
        header.number = B.saturatedFrom blockRef.number ∧
        ReportedFinal B G p config s V blockRef.hash header) ∧
    ((∃ e, isFinalOn B G p config ⟨s.client, V⟩ blockRef = .error e) ↔
      s.headers blockRef.hash = none ∨ ∃ header, s.headers blockRef.hash = some header ∧
        header.number ≠ B.saturatedFrom blockRef.number) ∧
    (isFinalOn B G p config ⟨s.client, V⟩ blockRef = .ok false ↔
      ∃ header, s.headers blockRef.hash = some header ∧
        header.number = B.saturatedFrom blockRef.number ∧
        ¬ ReportedFinal B G p config s V blockRef.hash header) ∧
    (0 < config.minConfirmations ∨ 0.6 < config.confidenceThreshold → ∀ header,
      s.headers blockRef.hash = some header → s.info.finalizedNumber < header.number →
        isFinalOn B G p config ⟨s.client, V⟩ blockRef ≠ .ok true) := by
  refine ⟨isFinalOn_eq_true_iff_reportedFinal hconfig, isFinalOn_isError_iff,
    isFinalOn_eq_false_iff hconfig, ?_⟩
  intro hdemand header hheader hlt hfinal
  obtain ⟨header', hheader', -, hreported⟩ :=
    (isFinalOn_eq_true_iff_reportedFinal hconfig).mp hfinal
  obtain rfl : header = header' := Option.some.inj (hheader.symm.trans hheader')
  obtain ⟨hzero, hthreshold⟩ := hreported.undemanding hlt
  rcases hdemand with hdemand | hdemand
  · omega
  · linarith

/-- The closed form at the block of the sample tree that lost. -/
theorem isFinalOn_closed_form_forkTree :
    (isFinalOn .u32 plainGrandpa .default sampleConfig ⟨forkTree.client, sampleVoters⟩ forkRef
        = .ok true ↔
      ∃ header, forkTree.headers forkRef.hash = some header ∧
        header.number = BlockT.u32.saturatedFrom forkRef.number ∧
        ReportedFinal .u32 plainGrandpa .default sampleConfig forkTree.toChainState sampleVoters
          forkRef.hash header) ∧
    ((∃ e, isFinalOn .u32 plainGrandpa .default sampleConfig ⟨forkTree.client, sampleVoters⟩
        forkRef = .error e) ↔
      forkTree.headers forkRef.hash = none ∨ ∃ header,
        forkTree.headers forkRef.hash = some header ∧
        header.number ≠ BlockT.u32.saturatedFrom forkRef.number) ∧
    (isFinalOn .u32 plainGrandpa .default sampleConfig ⟨forkTree.client, sampleVoters⟩ forkRef
        = .ok false ↔
      ∃ header, forkTree.headers forkRef.hash = some header ∧
        header.number = BlockT.u32.saturatedFrom forkRef.number ∧
        ¬ ReportedFinal .u32 plainGrandpa .default sampleConfig forkTree.toChainState sampleVoters
          forkRef.hash header) ∧
    (0 < sampleConfig.minConfirmations ∨ 0.6 < sampleConfig.confidenceThreshold → ∀ header,
      forkTree.headers forkRef.hash = some header →
      forkTree.info.finalizedNumber < header.number →
        isFinalOn .u32 plainGrandpa .default sampleConfig ⟨forkTree.client, sampleVoters⟩ forkRef
          ≠ .ok true) :=
  isFinalOn_closed_form (by decide)

end ClosedForm

/-! ### The parameters of the client -/

section Parameters

variable {Id Sig F : Type} [DecidableEq Id] [F64 F]

/-- A block is what the parameters of the client ask for: it has their confirmations, is no
further from the best block than they allow, and its justification, if it decodes, is accepted by
`verify_justification`. -/
structure ParametersHold (B : BlockT) (G : Grandpa Id Sig) (p : GrandpaVerificationParams F)
    (s : ChainState) (V : VoterSet Id) (blockHash : H256) (header : Header) : Prop where
  confirmed : p.minConfirmations ≤ s.info.finalizedNumber - header.number
  near_best : s.info.bestNumber - header.number ≤ p.maxForkDepth
  verified : ∀ justificationBytes J, s.grandpaJustification blockHash = some justificationBytes →
    G.decode justificationBytes = some J → ∃ rate, verifyJustification B G p V J = .ok (true, rate)

/-- No parameter is stricter than the check that `is_final` makes in its place. -/
structure NoStricter (p : GrandpaVerificationParams F) (config : PredicateConfig F) : Prop where
  confirmations : p.minConfirmations ≤ config.minConfirmations
  depth : 50 ≤ p.maxForkDepth
  participation : p.minParticipation ≤ F64.lit 0.67

/-- What `is_final` reports final on the possible states of a client is what its parameters ask
for, whoever the voters are and whatever decodes and verifies. -/
def ParametersEnforced (B : BlockT) (p : GrandpaVerificationParams F) (config : PredicateConfig F)
    (possible : ChainState → Prop) : Prop :=
  ∀ (Id Sig : Type) [DecidableEq Id] (G : Grandpa Id Sig) (V : VoterSet Id) (s : ChainState)
    (blockRef : BlockRef), possible s → isFinalOn B G p config ⟨s.client, V⟩ blockRef = .ok true →
      ∃ header, s.headers blockRef.hash = some header ∧
        ParametersHold B G p s V blockRef.hash header

/-- What the comparison of rates needs beyond `F64`: a rate, being the quotient of two numbers the
second of which is not zero, is not NaN, and 67 of 100 is rounded to the literal. -/
structure ComparesRates (F : Type) [F64 F] : Prop where
  le_trans : ∀ {a b c : F}, a ≤ b → b ≤ c → a ≤ c
  lit_le_of_not_lt : ∀ {m n : ℕ} {q : ℚ}, 0 < n →
    ¬ (F64.ofU64 m / F64.ofU64 n : F) < F64.lit q → F64.lit q ≤ (F64.ofU64 m / F64.ofU64 n : F)
  ofU64_67_div : (F64.ofU64 67 / F64.ofU64 100 : F) = F64.lit 0.67

variable {B : BlockT} {G : Grandpa Id Sig} {p : GrandpaVerificationParams F}
  {config : PredicateConfig F} {s : ChainState} {V : VoterSet Id} {blockHash : H256}
  {blockRef : BlockRef} {header : Header} {justificationBytes : Bytes}
  {J : GrandpaJustification Id Sig}

/-- The verdict of `verify_justification`, which `get_finality_status` drops. -/
lemma verifyJustification_true_iff_decodedRate (hdecode : G.decode justificationBytes = some J) :
    (∃ rate, verifyJustification B G p V J = .ok (true, rate)) ↔
      p.minParticipation ≤ decodedRate B G p V justificationBytes := by
  have hrate : decodedRate B G p V justificationBytes
      = F64.ofU64 (signedWeight B G V J.commit.precommits) / F64.ofU64 V.totalWeight := by
    simp only [decodedRate, hdecode, verifyJustification_eq]
  rw [hrate]
  simp [verifyJustification_eq]

lemma NoStricter.parametersHold (hno : NoStricter p config) (hrates : ComparesRates F)
    (hconfig : config.minConfirmations ≤ u32Max) (h : Accepts B G p config s V blockHash header) :
    ParametersHold B G p s V blockHash header where
  confirmed := by
    have hconfirmed := h.confirmed
    rw [B.saturatedFrom_of_le hconfig] at hconfirmed
    exact hno.confirmations.trans hconfirmed
  near_best := h.near_best.trans hno.depth
  verified := by
    intro justificationBytes J hj hdecode
    have hrate := h.participation justificationBytes hj
    rw [verifyJustification_true_iff_decodedRate hdecode]
    simp only [decodedRate, hdecode, verifyJustification_eq] at hrate ⊢
    exact hrates.le_trans hno.participation (hrates.lit_le_of_not_lt V.totalWeight_pos hrate)

/-- A predicate that asks for more than 50 confirmations accepts nothing on a client whose best
block is not below the finalized one. -/
lemma Accepts.minConfirmations_le (h : Accepts B G p config s V blockHash header)
    (hconfig : config.minConfirmations ≤ u32Max)
    (hbest : s.info.finalizedNumber ≤ s.info.bestNumber) : config.minConfirmations ≤ 50 := by
  have hconfirmed := h.confirmed
  have hnear := h.near_best
  rw [B.saturatedFrom_of_le hconfig] at hconfirmed
  omega

/-! ### Chains that tell whether a parameter is stricter -/

/-- A chain on which the zero hash is block `0`. -/
def genesisState (finalizedNumber bestNumber : ℕ) (justification : Option Bytes) : ChainState where
  headers _ := some ⟨.zero, .zero, 0⟩
  justifications _ := justification.map fun justificationBytes =>
    ⟨[(grandpaEngineId, justificationBytes)]⟩
  info := ⟨.zero, bestNumber, .zero, finalizedNumber⟩

/-- The reference to its block `0`. -/
def genesisRef : BlockRef := ⟨⟨""⟩, 0, .zero⟩

/-- Two voters, the first of which holds 67 percent. -/
def unequalVoters : VoterSet ℕ where
  voters := [(1, 67), (2, 33)]
  nodup := by decide
  ne_nil := by decide
  weight_pos := by decide
  total_le := by decide

/-- Ideal signatures, where everything decodes to a justification that voter `1` has signed. -/
def firstVoterGrandpa (B : BlockT) : Grandpa ℕ (ℕ × Bytes) :=
  .ideal fun _ => some ⟨1, .zero, 0, [⟨⟨.zero, 0⟩, (1, Precommit.encode B ⟨.zero, 0⟩), 1⟩]⟩

lemma signedWeight_firstVoter {weight : ℕ} {V : VoterSet ℕ} (hget : V.get 1 = some weight)
    (hweight : weight ≤ u64Max) :
    signedWeight B (firstVoterGrandpa B) V
      [⟨⟨.zero, 0⟩, (1, Precommit.encode B ⟨.zero, 0⟩), 1⟩] = weight := by
  have hverify : (firstVoterGrandpa B).verify (1, Precommit.encode B ⟨.zero, 0⟩)
      (Precommit.encode B ⟨.zero, 0⟩) 1 = true := decide_eq_true rfl
  have hadd : Saturating.satAdd u64Max 0 weight = weight := by
    simpa [Saturating.satAdd] using hweight
  simp only [signedWeight, List.foldl_cons, List.foldl_nil, hget, hverify, if_true, hadd]

lemma decodedRate_firstVoter {weight : ℕ} {V : VoterSet ℕ} (hget : V.get 1 = some weight)
    (hweight : weight ≤ u64Max) :
    decodedRate B (firstVoterGrandpa B) p V justificationBytes
      = (F64.ofU64 weight / F64.ofU64 V.totalWeight : F) := by
  have hdecode : (firstVoterGrandpa B).decode justificationBytes
      = some ⟨1, .zero, 0, [⟨⟨.zero, 0⟩, (1, Precommit.encode B ⟨.zero, 0⟩), 1⟩]⟩ := rfl
  simp only [decodedRate, hdecode, verifyJustification_eq, signedWeight_firstVoter hget hweight]

lemma decodedRate_unequalVoters (hrates : ComparesRates F) :
    decodedRate B (firstVoterGrandpa B) p unequalVoters justificationBytes = F64.lit 0.67 := by
  rw [decodedRate_firstVoter (show unequalVoters.get 1 = some 67 from rfl) (by decide)]
  exact hrates.ofU64_67_div

/-- Block `0` is reported final where it has just the confirmations asked for, as far below the best
block as the literal allows. -/
lemma isFinalOn_genesisState {justification : Option Bytes}
    (hconfig : config.minConfirmations ≤ u32Max)
    (hthreshold : ¬ F64.lit 1 < config.confidenceThreshold)
    (hparticipation : ∀ justificationBytes, justification = some justificationBytes →
      ¬ decodedRate B G p V justificationBytes < F64.lit 0.67) :
    isFinalOn B G p config
        ⟨(genesisState config.minConfirmations 50 justification).client, V⟩ genesisRef
      = .ok true := by
  refine isFinalOn_eq_true_iff.mpr ⟨⟨.zero, .zero, 0⟩, rfl, ?_, ?_, ?_, le_rfl, ?_⟩
  · exact (B.saturatedFrom_of_le (Nat.zero_le _)).symm
  · rwa [confidenceOf_of_le (Nat.zero_le _)]
  · exact (B.saturatedFrom_of_le hconfig).le
  · intro justificationBytes hj
    refine hparticipation justificationBytes ?_
    rcases justification with _ | stored
    · cases hj
    · exact hj

lemma ParametersEnforced.noStricter {possible : ChainState → Prop}
    (h : ParametersEnforced B p config possible) (hrates : ComparesRates F)
    (hpossible : ∀ j, possible (genesisState config.minConfirmations 50 j))
    (hconfig : config.minConfirmations ≤ u32Max)
    (hthreshold : ¬ F64.lit 1 < config.confidenceThreshold) : NoStricter p config := by
  have hholds : ∀ j, (∀ justificationBytes, j = some justificationBytes →
      ¬ decodedRate B (firstVoterGrandpa B) p unequalVoters justificationBytes < F64.lit 0.67) →
      ParametersHold B (firstVoterGrandpa B) p (genesisState config.minConfirmations 50 j)
        unequalVoters .zero ⟨.zero, .zero, 0⟩ := by
    intro j hrate
    obtain ⟨header, hheader, hold⟩ := h ℕ (ℕ × Bytes) (firstVoterGrandpa B) unequalVoters _
      genesisRef (hpossible j) (isFinalOn_genesisState hconfig hthreshold hrate)
    obtain rfl : ⟨.zero, .zero, 0⟩ = header := Option.some.inj hheader
    exact hold
  have hbare := hholds none (by simp)
  refine ⟨hbare.confirmed, hbare.near_best, ?_⟩
  -- with a justification of exactly 67 percent
  have hjustified := hholds (some []) (by
    intro justificationBytes _
    rw [decodedRate_unequalVoters hrates]
    exact F64.not_lt_of_le (F64.lit_le_lit le_rfl))
  have hdecode : (firstVoterGrandpa B).decode []
      = some ⟨1, .zero, 0, [⟨⟨.zero, 0⟩, (1, Precommit.encode B ⟨.zero, 0⟩), 1⟩]⟩ := rfl
  have hverified := (verifyJustification_true_iff_decodedRate hdecode).mp
    (hjustified.verified [] _ rfl hdecode)
  rwa [decodedRate_unequalVoters hrates] at hverified

/-- **Which parameters are enforced.**  What `is_final` reports final is what the parameters of the
client ask for, on every state of a client, exactly when the predicate asks for more than certainty
or no parameter is stricter than the check made in its place.  On the states whose best block is
not below the finalized one, a predicate that asks for more than 50 confirmations reports nothing
either. -/
theorem parametersEnforced_iff (hrates : ComparesRates F)
    (hconfig : config.minConfirmations ≤ u32Max) :
    (ParametersEnforced B p config (fun _ => True) ↔
      F64.lit 1 < config.confidenceThreshold ∨ NoStricter p config) ∧
    (ParametersEnforced B p config (fun s => s.info.finalizedNumber ≤ s.info.bestNumber) ↔
      F64.lit 1 < config.confidenceThreshold ∨ 50 < config.minConfirmations ∨
        NoStricter p config) := by
  constructor
  · constructor
    · intro h
      by_cases hthreshold : F64.lit 1 < config.confidenceThreshold
      · exact Or.inl hthreshold
      · exact Or.inr (h.noStricter hrates (fun _ => trivial) hconfig hthreshold)
    · intro h Id Sig _ G V s blockRef _ hfinal
      obtain ⟨header, hheader, -, hacc⟩ := isFinalOn_eq_true_iff.mp hfinal
      refine ⟨header, hheader, ?_⟩
      rcases h with hthreshold | hno
      · exact absurd hthreshold (not_one_lt_of_not_confidenceOf_lt hacc.confident)
      · exact hno.parametersHold hrates hconfig hacc
  · constructor
    · intro h
      by_cases hthreshold : F64.lit 1 < config.confidenceThreshold
      · exact Or.inl hthreshold
      rcases Nat.lt_or_ge 50 config.minConfirmations with hmany | hfew
      · exact Or.inr (Or.inl hmany)
      · exact Or.inr (Or.inr (h.noStricter hrates (fun _ => hfew) hconfig hthreshold))
    · intro h Id Sig _ G V s blockRef hbest hfinal
      obtain ⟨header, hheader, -, hacc⟩ := isFinalOn_eq_true_iff.mp hfinal
      refine ⟨header, hheader, ?_⟩
      rcases h with hthreshold | hmany | hno
      · exact absurd hthreshold (not_one_lt_of_not_confidenceOf_lt hacc.confident)
      · exact absurd (hacc.minConfirmations_le hconfig hbest) hmany.not_ge
      · exact hno.parametersHold hrates hconfig hacc

end Parameters

/-! ### Severe parameters -/

lemma comparesRates_rat : ComparesRates ℚ where
  le_trans := le_trans
  lit_le_of_not_lt := fun _ h => not_lt.mp h
  ofU64_67_div := by
    simp only [F64.ofU64_rat, F64.lit_rat]
    norm_num

/-- Parameters that ask for ten confirmations, a distance of at most one and 90 percent. -/
def severeParams : GrandpaVerificationParams ℚ :=
  { (.default : GrandpaVerificationParams ℚ) with
    minConfirmations := 10
    minParticipation := 0.9
    maxForkDepth := 1 }

/-- The statement for these parameters. -/
theorem parametersEnforced_iff_severeParams :
    (ParametersEnforced .u32 severeParams sampleConfig (fun _ => True) ↔
      F64.lit 1 < sampleConfig.confidenceThreshold ∨ NoStricter severeParams sampleConfig) ∧
    (ParametersEnforced .u32 severeParams sampleConfig
        (fun s => s.info.finalizedNumber ≤ s.info.bestNumber) ↔
      F64.lit 1 < sampleConfig.confidenceThreshold ∨ 50 < sampleConfig.minConfirmations ∨
        NoStricter severeParams sampleConfig) :=
  parametersEnforced_iff comparesRates_rat (by decide)

/-- **The parameters are not enforced.**  Block `0` has two confirmations, lies two below the best
block and has 67 percent behind it; it is reported final under parameters that ask for more of
each. -/
theorem severeParams_not_enforced :
    isFinalOn .u32 (firstVoterGrandpa .u32) severeParams sampleConfig
        ⟨(genesisState 2 2 (some [])).client, unequalVoters⟩ genesisRef = .ok true ∧
      ¬ severeParams.minConfirmations ≤ 2 - 0 ∧ ¬ 2 - 0 ≤ severeParams.maxForkDepth ∧
      verifyJustification .u32 (firstVoterGrandpa .u32) severeParams unequalVoters
        ⟨1, .zero, 0, [⟨⟨.zero, 0⟩, (1, Precommit.encode .u32 ⟨.zero, 0⟩), 1⟩]⟩
          = .ok (false, 67 / 100) ∧
      ¬ (isFinalOn .u32 (firstVoterGrandpa .u32) severeParams sampleConfig
          ⟨(genesisState 2 2 (some [])).client, unequalVoters⟩ genesisRef = .ok true →
        ∃ header, (genesisState 2 2 (some [])).headers genesisRef.hash = some header ∧
          ParametersHold .u32 (firstVoterGrandpa .u32) severeParams (genesisState 2 2 (some []))
            unequalVoters genesisRef.hash header) := by
  have hfinal : isFinalOn .u32 (firstVoterGrandpa .u32) severeParams sampleConfig
      ⟨(genesisState 2 2 (some [])).client, unequalVoters⟩ genesisRef = .ok true := by
    decide +kernel
  refine ⟨hfinal, by decide, by decide, by decide +kernel, ?_⟩
  intro h
  obtain ⟨header, hheader, hold⟩ := h hfinal
  obtain rfl : ⟨.zero, .zero, 0⟩ = header := Option.some.inj hheader
  exact absurd hold.confirmed (by decide)

end FrostSubstrate
