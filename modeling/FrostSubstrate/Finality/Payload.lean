/-
What a counted signature is about.

A GRANDPA voter signs its precommit together with the round and the id of the authority
set, and for the target it names.  `Supports` says that a signed precommit of a
justification is such a vote for a block; `verify_justification` instead checks the
signature over the bare precommit and looks at neither the round, nor the set id, nor the
target.  Under ideal signatures the two never agree on a precommit that either of them
accepts (`counts_iff_supports_iff`).
-/
import FrostSubstrate.Finality.ChainSafety
import FrostSubstrate.Finality.Quorum

namespace FrostSubstrate

open Ancestry
open Weighted (ballotWeight)

variable {Id Sig F : Type} [DecidableEq Id] [F64 F] (B : BlockT) (G : Grandpa Id Sig)

/-- A signature verifies for the bytes its key signed and for no others. -/
def Grandpa.IdealSignatures (G : Grandpa Id Sig) : Prop :=
  ∀ signature m m' id, G.verify signature m id = true → G.verify signature m' id = true → m = m'

/-- The precommit is a vote of a voter of `V` for the block, or for a descendant of it, in the
given round of the given authority set. -/
structure Supports (T : BlockTree) (V : VoterSet Id) (blockHash : H256) (round setId : ℕ)
    (sp : SignedPrecommit Id Sig) : Prop where
  voter : sp.id ∈ V.ids
  signed : G.verify sp.signature (localizedPayload B sp.precommit round setId) sp.id = true
  descends : Ancestor T.parent blockHash sp.precommit.targetHash

variable {B G} {p : GrandpaVerificationParams F} {T : BlockTree} {V : VoterSet Id}
  {blockHash : H256} {header : Header} {justificationBytes : Bytes}
  {J : GrandpaJustification Id Sig} {round setId : ℕ} {sp : SignedPrecommit Id Sig}

omit [DecidableEq Id] in
lemma not_verify_encode (hideal : G.IdealSignatures)
    (h : G.verify sp.signature (localizedPayload B sp.precommit round setId) sp.id = true) :
    ¬ G.verify sp.signature (sp.precommit.encode B) sp.id = true := by
  intro hbare
  exact localizedPayload_ne_encode B _ _ _ _ (hideal _ _ _ _ h hbare)

lemma Supports.not_counts (hideal : G.IdealSignatures)
    (h : Supports B G T V blockHash round setId sp) : ¬ counts B G V sp = true := by
  intro hcounts
  exact not_verify_encode hideal h.signed ((counts_eq_true_iff B G).mp hcounts).2

/-- Counting a precommit agrees with its being a vote exactly when it is neither. -/
lemma counts_iff_supports_iff (hideal : G.IdealSignatures) :
    (counts B G V sp = true ↔ Supports B G T V blockHash round setId sp) ↔
      (sp.id ∈ V.ids → ¬ G.verify sp.signature (sp.precommit.encode B) sp.id = true ∧
        ¬ (G.verify sp.signature (localizedPayload B sp.precommit round setId) sp.id = true ∧
          Ancestor T.parent blockHash sp.precommit.targetHash)) := by
  constructor
  · intro h hvoter
    have hnot : ¬ Supports B G T V blockHash round setId sp := fun hs =>
      hs.not_counts hideal (h.mpr hs)
    refine ⟨fun hbare => hnot (h.mp ((counts_eq_true_iff B G).mpr ⟨hvoter, hbare⟩)), ?_⟩
    rintro ⟨hsigned, hdesc⟩
    exact hnot ⟨hvoter, hsigned, hdesc⟩
  · intro h
    constructor
    · intro hcounts
      obtain ⟨hvoter, hbare⟩ := (counts_eq_true_iff B G).mp hcounts
      exact absurd hbare (h hvoter).1
    · intro hs
      exact absurd ⟨hs.signed, hs.descends⟩ (h hs.voter).2

/-- The rate in the status of a block is the weight of the precommits that count, over the
total. -/
lemma participationRate_of_stored (hheader : T.headers blockHash = some header)
    (hstored : T.grandpaJustification blockHash = some justificationBytes)
    (hdecode : G.decode justificationBytes = some J) :
    (getFinalityStatus B G p (fun _ => ⟨T.client, V⟩) blockHash).map
        FinalityStatus.participationRate
      = .ok (F64.ofU64 (min (ballotWeight V.weightOf (countedVoters B G V J.commit.precommits))
          u64Max) / F64.ofU64 V.totalWeight) := by
  rw [getFinalityStatus_of_some hheader]
  simp only [Except.map, statusOf, hstored, decodedRate, hdecode, verifyJustification_eq,
    signedWeight_eq]

/-- **What the weight is bound to.**  The status of a block counts the precommits of its
justification whose signature covers the bare precommit.  Under ideal signatures a precommit
is counted exactly when it is a vote for the block, in the round of the justification and
under the current set id, just where it is neither: its voter is unknown, or it is not signed
over the bare precommit and is no such vote. -/
theorem counted_iff_supports (hideal : G.IdealSignatures)
    (hheader : T.headers blockHash = some header)
    (hstored : T.grandpaJustification blockHash = some justificationBytes)
    (hdecode : G.decode justificationBytes = some J) (V : VoterSet Id) (setId : ℕ) :
    (getFinalityStatus B G p (fun _ => ⟨T.client, V⟩) blockHash).map
        FinalityStatus.participationRate
      = .ok (F64.ofU64 (min (ballotWeight V.weightOf
          ((J.commit.precommits.filter (counts B G V)).map SignedPrecommit.id)) u64Max)
            / F64.ofU64 V.totalWeight) ∧
    ((∀ sp ∈ J.commit.precommits,
        (counts B G V sp = true ↔ Supports B G T V blockHash J.round setId sp)) ↔
      ∀ sp ∈ J.commit.precommits, sp.id ∈ V.ids →
        ¬ G.verify sp.signature (sp.precommit.encode B) sp.id = true ∧
        ¬ (G.verify sp.signature (localizedPayload B sp.precommit J.round setId) sp.id = true ∧
          Ancestor T.parent blockHash sp.precommit.targetHash)) := by
  refine ⟨participationRate_of_stored hheader hstored hdecode, ?_⟩
  exact forall₂_congr fun sp _ => counts_iff_supports_iff hideal

/-! ### An honest justification -/

/-- What voter `id` signs for a precommit in a round of a set. -/
def honestlySigned (id round setId : ℕ) (precommit : Precommit) :
    SignedPrecommit ℕ (ℕ × Bytes) :=
  ⟨precommit, (id, localizedPayload .u32 precommit round setId), id⟩

/-- The votes of all three sample voters for block `1` of the chain, in round `7` of set `0`. -/
def honestJustification : GrandpaJustification ℕ (ℕ × Bytes) :=
  ⟨7, .repeatByte 2, 1, [1, 2, 3].map fun id => honestlySigned id 7 0 ⟨.repeatByte 2, 1⟩⟩

/-- Bare precommits for the fork, presented for block `1` of the chain. -/
def replayedJustification : GrandpaJustification ℕ (ℕ × Bytes) :=
  ⟨7, .repeatByte 2, 1, [1, 2, 3].map fun id => bareSigned id ⟨.repeatByte 9, 1⟩⟩

/-- Ideal GRANDPA with the two justifications under the encodings `[0]` and `[1]`. -/
def sampleGrandpa : Grandpa ℕ (ℕ × Bytes) :=
  .ideal fun bytes =>
    if bytes = [0] then some honestJustification
    else if bytes = [1] then some replayedJustification
    else none

lemma sampleGrandpa_decode_honest : sampleGrandpa.decode [0] = some honestJustification := rfl

lemma sampleGrandpa_decode_replayed : sampleGrandpa.decode [1] = some replayedJustification := rfl

lemma sampleGrandpa_ideal : sampleGrandpa.IdealSignatures :=
  fun _ _ _ _ h h' => Grandpa.ideal_verify_inj h h'

/-- The tree with a fork, with a justification for every block. -/
def justifiedTree (bytes : Bytes) : BlockTree :=
  { forkTree with justifications := fun _ => some ⟨[(grandpaEngineId, bytes)]⟩ }

lemma justifiedTree_header (bytes : Bytes) :
    (justifiedTree bytes).headers (.repeatByte 2) = some ⟨.repeatByte 2, .repeatByte 1, 1⟩ := rfl

lemma justifiedTree_stored (bytes : Bytes) :
    (justifiedTree bytes).grandpaJustification (.repeatByte 2) = some bytes := rfl

/-- **Honest precommits are not counted and replayed ones are.**  The votes of all voters for
block `1` give a rate of zero; bare precommits for the fork give a rate of one. -/
theorem honest_not_counted :
    sampleGrandpa.IdealSignatures ∧
      (∀ sp ∈ honestJustification.commit.precommits,
        Supports .u32 sampleGrandpa (justifiedTree [0]) sampleVoters (.repeatByte 2)
          honestJustification.round 0 sp) ∧
      (getFinalityStatus .u32 sampleGrandpa (.default : GrandpaVerificationParams ℚ)
          (fun _ => ⟨(justifiedTree [0]).client, sampleVoters⟩) (.repeatByte 2)).map
        FinalityStatus.participationRate = .ok 0 ∧
      (∀ sp ∈ replayedJustification.commit.precommits,
        ¬ Supports .u32 sampleGrandpa (justifiedTree [1]) sampleVoters (.repeatByte 2)
          replayedJustification.round 0 sp) ∧
      (getFinalityStatus .u32 sampleGrandpa (.default : GrandpaVerificationParams ℚ)
          (fun _ => ⟨(justifiedTree [1]).client, sampleVoters⟩) (.repeatByte 2)).map
        FinalityStatus.participationRate = .ok 1 := by
  refine ⟨sampleGrandpa_ideal, ?_, ?_, ?_, ?_⟩
  · intro sp hsp
    obtain ⟨id, hid, rfl⟩ := List.mem_map.mp hsp
    refine ⟨?_, ?_, Ancestor.refl _⟩
    · exact (by decide : ∀ id ∈ [1, 2, 3], id ∈ sampleVoters.ids) id hid
    · simp [sampleGrandpa, Grandpa.ideal, honestlySigned, honestJustification]
  · have hcounted : ballotWeight sampleVoters.weightOf (countedVoters .u32 sampleGrandpa
        sampleVoters honestJustification.commit.precommits) = 0 := by decide
    rw [participationRate_of_stored (justifiedTree_header [0]) (justifiedTree_stored [0])
      sampleGrandpa_decode_honest, hcounted]
    simp
  · intro sp hsp hs
    obtain ⟨id, hid, rfl⟩ := List.mem_map.mp hsp
    apply not_verify_encode sampleGrandpa_ideal hs.signed
    simp [sampleGrandpa, Grandpa.ideal, bareSigned]
  · have hcounted : ballotWeight sampleVoters.weightOf (countedVoters .u32 sampleGrandpa
        sampleVoters replayedJustification.commit.precommits) = 3 := by decide
    have htotal : sampleVoters.totalWeight = 3 := rfl
    rw [participationRate_of_stored (justifiedTree_header [1]) (justifiedTree_stored [1])
      sampleGrandpa_decode_replayed, hcounted, htotal]
    norm_num [u64Max]

/-- The statement at the honest justification. -/
theorem counted_iff_supports_honest :
    (getFinalityStatus .u32 sampleGrandpa (.default : GrandpaVerificationParams ℚ)
        (fun _ => ⟨(justifiedTree [0]).client, sampleVoters⟩) (.repeatByte 2)).map
        FinalityStatus.participationRate
      = .ok (F64.ofU64 (min (ballotWeight sampleVoters.weightOf
          ((honestJustification.commit.precommits.filter
            (counts .u32 sampleGrandpa sampleVoters)).map SignedPrecommit.id)) u64Max)
              / F64.ofU64 sampleVoters.totalWeight) ∧
    ((∀ sp ∈ honestJustification.commit.precommits,
        (counts .u32 sampleGrandpa sampleVoters sp = true ↔
          Supports .u32 sampleGrandpa (justifiedTree [0]) sampleVoters (.repeatByte 2)
            honestJustification.round 0 sp)) ↔
      ∀ sp ∈ honestJustification.commit.precommits, sp.id ∈ sampleVoters.ids →
        ¬ sampleGrandpa.verify sp.signature (sp.precommit.encode .u32) sp.id = true ∧
        ¬ (sampleGrandpa.verify sp.signature
            (localizedPayload .u32 sp.precommit honestJustification.round 0) sp.id = true ∧
          Ancestor (justifiedTree [0]).parent (.repeatByte 2) sp.precommit.targetHash)) :=
  counted_iff_supports sampleGrandpa_ideal (justifiedTree_header [0]) (justifiedTree_stored [0])
    sampleGrandpa_decode_honest sampleVoters 0

end FrostSubstrate
