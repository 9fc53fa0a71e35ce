/-
The confidence of a block that is not finalized, in exact arithmetic.

`get_finality_confidence` weighs confirmations, participation and a base.  The confirmations
in a status are counted from the finalized height, not from the best block, so a block above
the finalized height has none, however many blocks are built on it.  What is left is the base
and the participation, at most 0.6 together; the cap at 0.95 is never reached.
-/
import FrostSubstrate.Finality.Irrevocability

namespace FrostSubstrate

open Ancestry

variable {Id Sig : Type} [DecidableEq Id] {B : BlockT} {G : Grandpa Id Sig}
  {p : GrandpaVerificationParams ℚ} {s : ChainState} {V : VoterSet Id} {blockHash : H256}
  {blockRef : BlockRef} {header : Header} {status : FinalityStatus ℚ} {rate rate' : ℚ}

/-! ### The formula above the finalized height -/

/-- The confidence that a participation rate gives to a block without confirmations. -/
def unconfirmedConfidence (p : GrandpaVerificationParams ℚ) (rate : ℚ) : ℚ :=
  0.2 + 0.4 * min 1 (rate / p.minParticipation)

lemma unconfirmedConfidence_le (p : GrandpaVerificationParams ℚ) (rate : ℚ) :
    unconfirmedConfidence p rate ≤ 0.6 := by
  have hle : min 1 (rate / p.minParticipation) ≤ 1 := min_le_left _ _
  unfold unconfirmedConfidence
  linarith

lemma unconfirmedConfidence_mono (hp : 0 < p.minParticipation) (h : rate ≤ rate') :
    unconfirmedConfidence p rate ≤ unconfirmedConfidence p rate' := by
  have hdiv : rate / p.minParticipation ≤ rate' / p.minParticipation :=
    div_le_div_of_nonneg_right h hp.le
  have hmin : min 1 (rate / p.minParticipation) ≤ min 1 (rate' / p.minParticipation) :=
    min_le_min_left 1 hdiv
  unfold unconfirmedConfidence
  linarith

@[simp] lemma unconfirmedConfidence_zero (p : GrandpaVerificationParams ℚ) :
    unconfirmedConfidence p 0 = 0.2 := by
  norm_num [unconfirmedConfidence]

lemma confidenceOf_unconfirmed (hfinalized : status.isFinalized = false)
    (hconfirmations : status.confirmations = 0)
    (hnone : status.hasJustification = false → status.participationRate = 0) :
    confidenceOf p status = unconfirmedConfidence p status.participationRate := by
  have hcap := unconfirmedConfidence_le p status.participationRate
  have hparticipation : (if status.hasJustification then
        min (status.participationRate / p.minParticipation) 1 else 0)
      = min 1 (status.participationRate / p.minParticipation) := by
    by_cases hj : status.hasJustification = true
    · rw [if_pos hj, min_comm]
    · rw [if_neg hj, hnone (by simpa using hj), zero_div, min_eq_right zero_le_one]
  have hconfirmed : (min (if p.minConfirmations > 0 then
        (saturatedIntoU64 0 : ℚ) / p.minConfirmations else 0) 1) = 0 := by
    simp [saturatedIntoU64]
  simp only [confidenceOf, hfinalized, hconfirmations, F64.lit_rat, F64.ofU64_rat]
  rw [hparticipation, hconfirmed, if_neg Bool.false_ne_true, if_neg Bool.false_ne_true]
  unfold unconfirmedConfidence at hcap ⊢
  rw [min_eq_left (by linarith)]
  ring

lemma confidenceOf_statusWith_of_lt {latestFinalized : ℕ} {justification : Option Bytes}
    (hlt : latestFinalized < header.number) :
    confidenceOf p (statusWith B G p header latestFinalized justification V)
      = unconfirmedConfidence p
          (statusWith B G p header latestFinalized justification V).participationRate := by
  refine confidenceOf_unconfirmed ?_ ?_ ?_
  · simpa [statusWith] using hlt
  · exact Nat.sub_eq_zero_of_le hlt.le
  · intro hnone
    have hnone : justification = none := by simpa [statusWith] using hnone
    simp [statusWith, hnone]

/-- **The confidence of a block above the finalized height.** -/
theorem confidenceOf_of_lt (hlt : s.info.finalizedNumber < header.number) :
    confidenceOf p (statusOf B G p s V blockHash header)
      = unconfirmedConfidence p (statusOf B G p s V blockHash header).participationRate :=
  confidenceOf_statusWith_of_lt hlt

/-! ### The factors it is meant to use -/

/-- A block above the finalized height on the best chain. -/
structure AboveFinalized (T : BlockTree) (blockHash : H256) (header : Header) : Prop where
  known : T.headers blockHash = some header
  above : T.info.finalizedNumber < header.number
  on_best : Ancestor T.parent blockHash T.info.bestHash

/-- The number of blocks built on a block of the best chain. -/
def builtOn (s : ChainState) (header : Header) : ℕ := s.info.bestNumber - header.number

/-- The block has a justification whose participation reaches that of the parameters. -/
def WellJustified (B : BlockT) (G : Grandpa Id Sig) (p : GrandpaVerificationParams ℚ)
    (s : ChainState) (V : VoterSet Id) (blockHash : H256) : Prop :=
  ∃ justificationBytes, s.grandpaJustification blockHash = some justificationBytes ∧
    p.minParticipation ≤ decodedRate B G p V justificationBytes

/-- The confidence of a block above the finalized height uses its factors: it does not fall
when more blocks are built on the block or the participation is larger, it stays below one, and
it is 0.95 when enough blocks are built and the participation is large enough. -/
structure UsesAllFactors (B : BlockT) (G : Grandpa Id Sig) (p : GrandpaVerificationParams ℚ)
    (T : BlockTree) (V : VoterSet Id) (blockRef : BlockRef) (header : Header) : Prop where
  monotone : ∀ (T' : BlockTree) (V' : VoterSet Id) (blockRef' : BlockRef) (header' : Header)
    (confidence confidence' : ℚ), AboveFinalized T' blockRef'.hash header' →
    builtOn T.toChainState header ≤ builtOn T'.toChainState header' →
    (statusOf B G p T.toChainState V blockRef.hash header).participationRate
      ≤ (statusOf B G p T'.toChainState V' blockRef'.hash header').participationRate →
    getFinalityConfidence B G p (fun _ => ⟨T.client, V⟩) blockRef = .ok confidence →
    getFinalityConfidence B G p (fun _ => ⟨T'.client, V'⟩) blockRef' = .ok confidence' →
    confidence ≤ confidence'
  below_one : ∀ confidence,
    getFinalityConfidence B G p (fun _ => ⟨T.client, V⟩) blockRef = .ok confidence → confidence < 1
  cap : p.minConfirmations ≤ builtOn T.toChainState header →
    WellJustified B G p T.toChainState V blockRef.hash →
    getFinalityConfidence B G p (fun _ => ⟨T.client, V⟩) blockRef = .ok 0.95

variable {T : BlockTree}

lemma AboveFinalized.confidence (h : AboveFinalized T blockRef.hash header) :
    getFinalityConfidence B G p (fun _ => ⟨T.client, V⟩) blockRef
      = .ok (unconfirmedConfidence p
          (statusOf B G p T.toChainState V blockRef.hash header).participationRate) := by
  rw [getFinalityConfidence_of_some h.known, confidenceOf_of_lt h.above]

/-- **When the confidence uses its factors.**  For a block above the finalized height on the best
chain, the confidence grows with the blocks built on it and with the participation, is below one
and reaches 0.95 where it should, exactly when it should not reach it: too few blocks are built
on the block, or it has no justification with enough participation. -/
theorem usesAllFactors_iff (hp : 0 < p.minParticipation)
    (habove : AboveFinalized T blockRef.hash header) :
    UsesAllFactors B G p T V blockRef header ↔
      ¬ (p.minConfirmations ≤ builtOn T.toChainState header ∧
        WellJustified B G p T.toChainState V blockRef.hash) := by
  have hle := unconfirmedConfidence_le p
    (statusOf B G p T.toChainState V blockRef.hash header).participationRate
  constructor
  · rintro h ⟨hbuilt, hjustified⟩
    have hcap := h.cap hbuilt hjustified
    rw [habove.confidence, Except.ok.injEq] at hcap
    norm_num [hcap] at hle
  · intro hnot
    refine ⟨?_, ?_, fun hbuilt hjustified => absurd ⟨hbuilt, hjustified⟩ hnot⟩
    · intro T' V' blockRef' header' confidence confidence' habove' _ hrate h h'
      rw [habove.confidence, Except.ok.injEq] at h
      rw [habove'.confidence, Except.ok.injEq] at h'
      subst h h'
      exact unconfirmedConfidence_mono hp hrate
    · intro confidence h
      rw [habove.confidence, Except.ok.injEq] at h
      subst h
      linarith

/-! ### A block that deserves the cap -/

lemma aboveFinalized_unfinalizedTree :
    AboveFinalized unfinalizedTree chainRef.hash ⟨.repeatByte 2, .repeatByte 1, 1⟩ := by
  have h23 : unfinalizedTree.parent (.repeatByte 3) = some (.repeatByte 2) := rfl
  have h34 : unfinalizedTree.parent (.repeatByte 4) = some (.repeatByte 3) := rfl
  exact ⟨rfl, by decide, (Ancestor.of_parent h23).trans (Ancestor.of_parent h34)⟩

/-- **The cap is not reached.**  Two blocks are built on block `1`, its justification has full
participation, and two confirmations are asked for; its confidence is 0.6. -/
theorem unfinalizedTree_below_cap :
    (GrandpaVerificationParams.default : GrandpaVerificationParams ℚ).minConfirmations = 2 ∧
      builtOn unfinalizedTree.toChainState ⟨.repeatByte 2, .repeatByte 1, 1⟩ = 2 ∧
      decodedRate .u32 sampleGrandpa (.default : GrandpaVerificationParams ℚ) sampleVoters [1]
        = 1 ∧
      getFinalityConfidence .u32 sampleGrandpa (.default : GrandpaVerificationParams ℚ)
        (fun _ => ⟨unfinalizedTree.client, sampleVoters⟩) chainRef = .ok 0.6 ∧
      ¬ UsesAllFactors .u32 sampleGrandpa (.default : GrandpaVerificationParams ℚ) unfinalizedTree
        sampleVoters chainRef ⟨.repeatByte 2, .repeatByte 1, 1⟩ := by
  have hconfidence : getFinalityConfidence .u32 sampleGrandpa
      (.default : GrandpaVerificationParams ℚ)
      (fun _ => ⟨unfinalizedTree.client, sampleVoters⟩) chainRef = .ok 0.6 := by decide +kernel
  have hrate : decodedRate .u32 sampleGrandpa (.default : GrandpaVerificationParams ℚ)
      sampleVoters [1] = 1 := by decide +kernel
  refine ⟨rfl, rfl, hrate, hconfidence, ?_⟩
  intro h
  have hjustified : WellJustified .u32 sampleGrandpa (.default : GrandpaVerificationParams ℚ)
      unfinalizedTree.toChainState sampleVoters chainRef.hash :=
    ⟨[1], rfl, by rw [hrate]; norm_num [GrandpaVerificationParams.default]⟩
  have hcap := h.cap (by decide) hjustified
  rw [hconfidence, Except.ok.injEq] at hcap
  norm_num at hcap

/-- The statement at this block. -/
theorem usesAllFactors_iff_unfinalizedTree :
    UsesAllFactors .u32 sampleGrandpa (.default : GrandpaVerificationParams ℚ) unfinalizedTree
        sampleVoters chainRef ⟨.repeatByte 2, .repeatByte 1, 1⟩ ↔
      ¬ ((GrandpaVerificationParams.default : GrandpaVerificationParams ℚ).minConfirmations
          ≤ builtOn unfinalizedTree.toChainState ⟨.repeatByte 2, .repeatByte 1, 1⟩ ∧
        WellJustified .u32 sampleGrandpa (.default : GrandpaVerificationParams ℚ)
          unfinalizedTree.toChainState sampleVoters chainRef.hash) :=
  usesAllFactors_iff (by norm_num [GrandpaVerificationParams.default])
    aboveFinalized_unfinalizedTree

end FrostSubstrate
