/-
The time in which a block is reported final.

While a chain grows, some of what `is_final` checks of a block can only come to hold and the rest
can only cease to: confirmations and confidence rise (`Opened`), the distance to the best block
rises as well, and a justification once there stays with its participation (`StillOpen`).  So the
moments at which a block is reported final have no gap; when they are over, they are over for
good; and a wait that begins then can only time out, however final the block is.
-/
import FrostSubstrate.Finality.OneMoment
import FrostSubstrate.Finality.WaitForFinality
import Mathlib.Order.UpperLower.Basic

namespace FrostSubstrate

open Polling (poll EndsWith)

/-! ### What rises and what falls -/

section Window

variable {Id Sig : Type} [DecidableEq Id] (B : BlockT) (G : Grandpa Id Sig)
  (p : GrandpaVerificationParams ℚ) (config : PredicateConfig ℚ) (V : VoterSet Id)
  (blockRef : BlockRef)

/-- The block is known under its number, with enough confidence and enough confirmations. -/
structure Opened (s : ChainState) : Prop where
  opened : ∃ header, s.headers blockRef.hash = some header ∧
    header.number = B.saturatedFrom blockRef.number ∧
    ¬ confidenceOf p (statusOf B G p s V blockRef.hash header) < config.confidenceThreshold ∧
    B.saturatedFrom config.minConfirmations ≤ s.info.finalizedNumber - header.number

/-- Neither the best block is too far from the block, if this is known, nor does the block have a
justification with too little participation. -/
structure StillOpen (s : ChainState) : Prop where
  near_best : ∀ header, s.headers blockRef.hash = some header →
    s.info.bestNumber - header.number ≤ 50
  participation : ∀ justificationBytes,
    s.grandpaJustification blockRef.hash = some justificationBytes →
      ¬ decodedRate B G p V justificationBytes < 0.67

variable {B G p config V blockRef} {s s' : ChainState}

lemma isFinalOn_eq_true_iff_opened :
    isFinalOn B G p config ⟨s.client, V⟩ blockRef = .ok true ↔
      Opened B G p config V blockRef s ∧ StillOpen B G p V blockRef s := by
  rw [isFinalOn_eq_true_iff]
  constructor
  · rintro ⟨header, hheader, hnumber, hacc⟩
    refine ⟨⟨header, hheader, hnumber, hacc.confident, hacc.confirmed⟩, ?_, hacc.participation⟩
    intro header' hheader'
    obtain rfl : header = header' := Option.some.inj (hheader.symm.trans hheader')
    exact hacc.near_best
  · rintro ⟨⟨header, hheader, hnumber, hconfident, hconfirmed⟩, hopen⟩
    exact ⟨header, hheader, hnumber, hconfident, hconfirmed, hopen.near_best header hheader,
      hopen.participation⟩

lemma Opened.later (hp : 0 < p.minParticipation) (h : Opened B G p config V blockRef s)
    (hlater : s.Later s') : Opened B G p config V blockRef s' := by
  obtain ⟨header, hheader, hnumber, hconfident, hconfirmed⟩ := h.opened
  have hfinalized := hlater.finalized_le
  refine ⟨header, hlater.headers _ _ hheader, hnumber, ?_, by omega⟩
  have hrate : (statusWith B G p header s.info.finalizedNumber
        (s.grandpaJustification blockRef.hash) V).participationRate
      ≤ (statusWith B G p header s'.info.finalizedNumber
        (s'.grandpaJustification blockRef.hash) V).participationRate := by
    rcases hj : s.grandpaJustification blockRef.hash with _ | justificationBytes
    · rcases s'.grandpaJustification blockRef.hash with _ | justificationBytes'
      · exact le_rfl
      · exact decodedRate_nonneg (p := p)
    · rw [hlater.grandpaJustification hj]
      exact le_rfl
  exact confident_mono hp hconfident hfinalized fun _ => hrate

lemma StillOpen.earlier (h : StillOpen B G p V blockRef s') (hlater : s.Later s') :
    StillOpen B G p V blockRef s := by
  have hbest := hlater.best_le
  constructor
  · intro header hheader
    have hnear := h.near_best header (hlater.headers _ _ hheader)
    omega
  · intro justificationBytes hj
    exact h.participation justificationBytes (hlater.grandpaJustification hj)

/-- A result is never followed by an error. -/
lemma isOk_later (h : ∃ b, isFinalOn B G p config ⟨s.client, V⟩ blockRef = .ok b)
    (hlater : s.Later s') : ∃ b, isFinalOn B G p config ⟨s'.client, V⟩ blockRef = .ok b := by
  rw [isFinalOn_isOk_iff] at h ⊢
  obtain ⟨header, hheader, hnumber⟩ := h
  exact ⟨header, hlater.headers _ _ hheader, hnumber⟩

end Window

/-! ### A chain that grows -/

/-- The states of a chain at successive moments. -/
def ChainGrowing (chain : ℕ → ChainState) : Prop := ∀ i, (chain i).Later (chain (i + 1))

namespace ChainState

variable {s s' s'' : ChainState}

lemma Later.refl (s : ChainState) : s.Later s :=
  ⟨fun _ _ h => h, fun _ j h => ⟨j, h, List.prefix_rfl⟩, le_rfl, le_rfl⟩

lemma Later.trans (h : s.Later s') (h' : s'.Later s'') : s.Later s'' := by
  refine ⟨fun x header hx => h'.headers x header (h.headers x header hx), ?_,
    h.finalized_le.trans h'.finalized_le, h.best_le.trans h'.best_le⟩
  intro x j hj
  obtain ⟨j', hj', hprefix⟩ := h.justifications x j hj
  obtain ⟨j'', hj'', hprefix'⟩ := h'.justifications x j' hj'
  exact ⟨j'', hj'', hprefix.trans hprefix'⟩

end ChainState

lemma ChainGrowing.later {chain : ℕ → ChainState} (h : ChainGrowing chain) {i j : ℕ}
    (hij : i ≤ j) : (chain i).Later (chain j) := by
  induction j, hij using Nat.le_induction with
  | base => exact ChainState.Later.refl _
  | succ j _ ih => exact ih.trans (h j)

section Runs

variable {Id Sig : Type} [DecidableEq Id] {B : BlockT} {G : Grandpa Id Sig}
  {p : GrandpaVerificationParams ℚ} {config : PredicateConfig ℚ} {V : VoterSet Id}
  {blockRef : BlockRef} {chain : ℕ → ChainState} {i j : ℕ}

/-- The moments at which the block is reported final. -/
def acceptedAt (B : BlockT) (G : Grandpa Id Sig) (p : GrandpaVerificationParams ℚ)
    (config : PredicateConfig ℚ) (V : VoterSet Id) (chain : ℕ → ChainState)
    (blockRef : BlockRef) : Set ℕ :=
  {i | isFinalOn B G p config ⟨(chain i).client, V⟩ blockRef = .ok true}

/-- An upper set of moments and a lower one: the moments between them. -/
lemma acceptedAt_ordConnected (hp : 0 < p.minParticipation) (hgrows : ChainGrowing chain) :
    (acceptedAt B G p config V chain blockRef).OrdConnected := by
  have hopened : IsUpperSet {i | Opened B G p config V blockRef (chain i)} :=
    fun _ _ hij h => Opened.later hp h (hgrows.later hij)
  have hopen : IsLowerSet {i | StillOpen B G p V blockRef (chain i)} :=
    fun _ _ hji h => StillOpen.earlier h (hgrows.later hji)
  have hmoments : acceptedAt B G p config V chain blockRef
      = {i | Opened B G p config V blockRef (chain i)} ∩
        {i | StillOpen B G p V blockRef (chain i)} := by
    ext i
    exact isFinalOn_eq_true_iff_opened
  rw [hmoments]
  exact hopened.ordConnected.inter hopen.ordConnected

lemma isFinalOn_of_closed (hgrows : ChainGrowing chain) (hij : i ≤ j)
    (hok : ∃ b, isFinalOn B G p config ⟨(chain i).client, V⟩ blockRef = .ok b)
    (hclosed : ¬ StillOpen B G p V blockRef (chain i)) :
    isFinalOn B G p config ⟨(chain j).client, V⟩ blockRef = .ok false := by
  obtain ⟨b, hb⟩ := isOk_later hok (hgrows.later hij)
  cases b with
  | false => exact hb
  | true =>
    have hopen := (isFinalOn_eq_true_iff_opened.mp hb).2
    exact absurd (hopen.earlier (hgrows.later hij)) hclosed

lemma closed_of_revoked (hp : 0 < p.minParticipation) (hgrows : ChainGrowing chain) (hij : i ≤ j)
    (hi : i ∈ acceptedAt B G p config V chain blockRef)
    (hj : j ∉ acceptedAt B G p config V chain blockRef) :
    ¬ StillOpen B G p V blockRef (chain j) := by
  intro hopen
  have hopened := (isFinalOn_eq_true_iff_opened.mp hi).1.later hp (hgrows.later hij)
  exact hj (isFinalOn_eq_true_iff_opened.mpr ⟨hopened, hopen⟩)

lemma waitForFinality_of_never {F : Type} [F64 F] {config : PredicateConfig F}
    {clients : ℕ → FinalityVerificationClient F} {now : ℕ → ℕ} (hsleeps : Sleeps now)
    (hnever : ∀ i, isFinal config (clients i) blockRef = .ok false) :
    ∃ retryCount, ∀ fuel, config.evaluationTimeout / 2 + 2 ≤ fuel →
      waitForFinality config clients now blockRef fuel
        = some ⟨.error (.timeout blockRef config.evaluationTimeout retryCount),
            retryCount + 1⟩ := by
  obtain ⟨⟨exit, checks⟩, hending⟩ : ∃ ending, poll
      (fun i => isFinal config (clients i) blockRef) (tooLate config.evaluationTimeout now)
      (config.evaluationTimeout / 2 + 2) 0 = some ending := exists_poll_of_sleeps hsleeps
  obtain ⟨n, -, -, -, hends, hchecks⟩ := Polling.poll_eq_some_iff.mp hending
  obtain rfl : checks = n + 1 := hchecks
  refine ⟨n, fun fuel hfuel => ?_⟩
  rw [waitForFinality, waitLoop_eq_poll, Polling.poll_of_le hfuel hending]
  cases hends with
  | held h => rw [hnever] at h; cases h
  | failed err h => rw [hnever] at h; cases h
  | expired h hlate => rfl

/-- **The window of a block.**  While the chain grows and the voters stay, the moments at which a
block is reported final have no gap.  After the last of them the answer is `Ok(false)` for ever;
and once the best block is more than 50 above a known block, every wait for it ends with a
timeout, whenever its calls of `is_final` are made. -/
theorem acceptance_window (hp : 0 < p.minParticipation) (hgrows : ChainGrowing chain) :
    (acceptedAt B G p config V chain blockRef).OrdConnected ∧
    (∀ i j, i ≤ j → i ∈ acceptedAt B G p config V chain blockRef →
      j ∉ acceptedAt B G p config V chain blockRef → ∀ k, j ≤ k →
        isFinalOn B G p config ⟨(chain k).client, V⟩ blockRef = .ok false) ∧
    ∀ i header, (chain i).headers blockRef.hash = some header →
      header.number = B.saturatedFrom blockRef.number →
      50 < (chain i).info.bestNumber - header.number →
      ∀ moments : ℕ → ℕ, (∀ c, i ≤ moments c) → ∀ now : ℕ → ℕ, Sleeps now →
        ∃ retryCount, ∀ fuel, config.evaluationTimeout / 2 + 2 ≤ fuel →
          waitForFinality config
              (fun c => substrateClient B G p fun _ => ⟨(chain (moments c)).client, V⟩) now blockRef
              fuel
            = some ⟨.error (.timeout blockRef config.evaluationTimeout retryCount),
                retryCount + 1⟩ := by
  refine ⟨acceptedAt_ordConnected hp hgrows, ?_, ?_⟩
  · intro i j hij hi hj k hjk
    have hok : ∃ b, isFinalOn B G p config ⟨(chain j).client, V⟩ blockRef = .ok b :=
      isOk_later ⟨true, hi⟩ (hgrows.later hij)
    exact isFinalOn_of_closed hgrows hjk hok (closed_of_revoked hp hgrows hij hi hj)
  · intro i header hheader hnumber hfar moments hmoments now hsleeps
    have hok : ∃ b, isFinalOn B G p config ⟨(chain i).client, V⟩ blockRef = .ok b :=
      isFinalOn_isOk_iff.mpr ⟨header, hheader, hnumber⟩
    have hclosed : ¬ StillOpen B G p V blockRef (chain i) := by
      intro hopen
      have hnear := hopen.near_best header hheader
      omega
    exact waitForFinality_of_never hsleeps fun c =>
      isFinalOn_of_closed hgrows (hmoments c) hok hclosed

end Runs

/-! ### A final block that is waited for too late -/

/-- The sample tree, and from the next moment on the one in which block `59` is the best. -/
def overtakenChain : ℕ → ChainState
  | 0 => forkTree.toChainState
  | _ + 1 => grownTree.toChainState

lemma overtakenChain_growing : ChainGrowing overtakenChain := by
  intro i
  cases i with
  | zero => exact forkTree_later_grownTree
  | succ i => exact ChainState.Later.refl _

lemma acceptedAt_overtakenChain :
    0 ∈ acceptedAt .u32 plainGrandpa .default sampleConfig sampleVoters overtakenChain chainRef ∧
      1 ∉ acceptedAt .u32 plainGrandpa .default sampleConfig sampleVoters overtakenChain
        chainRef := by
  constructor
  · refine isFinalOn_eq_true_iff.mpr ⟨⟨.repeatByte 2, .repeatByte 1, 1⟩, rfl, rfl, ?_⟩
    refine ⟨?_, by decide, by decide, by decide⟩
    rw [confidenceOf_of_le (by decide)]
    norm_num [sampleConfig]
  · intro hmem
    have hopen := (isFinalOn_eq_true_iff_opened.mp hmem).2
    exact absurd (hopen.near_best ⟨.repeatByte 2, .repeatByte 1, 1⟩ rfl) (by decide)

/-- The statement for this chain: block `1` is on its finalized chain, it is not reported final
again, and a wait for it that begins at the second moment times out. -/
theorem acceptance_window_overtakenChain :
    (acceptedAt .u32 plainGrandpa .default sampleConfig sampleVoters overtakenChain
        chainRef).OrdConnected ∧
    (∀ k, 1 ≤ k → isFinalOn .u32 plainGrandpa .default sampleConfig
      ⟨(overtakenChain k).client, sampleVoters⟩ chainRef = .ok false) ∧
    ∃ retryCount, ∀ fuel, sampleConfig.evaluationTimeout / 2 + 2 ≤ fuel →
      waitForFinality sampleConfig (fun _ => substrateClient .u32 plainGrandpa .default fun _ =>
          ⟨(overtakenChain 1).client, sampleVoters⟩) everyTwoSeconds chainRef fuel
        = some ⟨.error (.timeout chainRef sampleConfig.evaluationTimeout retryCount),
            retryCount + 1⟩ := by
  obtain ⟨hinterval, hclosed, htimeout⟩ := acceptance_window (B := .u32) (G := plainGrandpa)
    (V := sampleVoters) (show 0 < GrandpaVerificationParams.default.minParticipation by
      norm_num [GrandpaVerificationParams.default]) overtakenChain_growing
  exact ⟨hinterval, hclosed 0 1 zero_le_one acceptedAt_overtakenChain.1
      acceptedAt_overtakenChain.2,
    htimeout 1 ⟨.repeatByte 2, .repeatByte 1, 1⟩ rfl rfl (by decide) (fun _ => 1)
      (fun _ => le_rfl) everyTwoSeconds sleeps_everyTwoSeconds⟩

end FrostSubstrate
