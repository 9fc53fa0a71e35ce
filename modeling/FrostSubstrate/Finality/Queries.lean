/-
The other queries of the verification client.

Beside the three questions of `is_final` the client answers for the chain head, the latest
finalized number and the inclusion of something in a block.  What they answer fits the verdict,
and keeps fitting it: once a block with a confirmation has been reported final, they confirm it
at every later moment, whatever `is_final` itself says by then (`queries_confirm_verdict`).  The
inclusion query confirms everything else as well: of a proof it only asks not to be empty.
-/
import FrostSubstrate.Finality.AcceptanceWindow
import FrostSubstrate.Finality.BlockNumbers
import FrostSubstrate.Finality.ChainIds

namespace FrostSubstrate

section Queries

variable {Id Sig F : Type} [DecidableEq Id] [F64 F] (B : BlockT)

/-- `SubstrateVerificationClient::u64_to_block_number`. -/
def u64ToBlockNumber (value : ℕ) : ℕ := B.saturatedFrom value

/-- `SubstrateVerificationClient::block_number_to_u64`. -/
def blockNumberToU64 (value : ℕ) : ℕ := saturatedIntoU64 value

/-- `SubstrateVerificationClient::get_latest_finalized_block`. -/
def getLatestFinalizedBlock (v : View Id) : Except FinalityVerificationError ℕ :=
  .ok (saturatedIntoU64 v.client.info.finalizedNumber)

/-- `SubstrateVerificationClient::verify_merkle_proof`: the proof is not looked into. -/
def verifyMerkleProof (v : View Id) (blockHash : H256) (proof : Bytes) :
    Except GrandpaFinalityVerificationError Bool := do
  let _header ← v.client.requireHeader blockHash
  if proof.isEmpty then
    return false
  return true

/-- `SubstrateVerificationClient::verify_block_inclusion`, which reads the header twice. -/
def verifyBlockInclusion (view : ℕ → View Id) (blockRef : BlockRef) (proof : Bytes) :
    Except FinalityVerificationError Bool := do
  let exist ← verifyBlockHash B (view 0) blockRef
  if !exist then
    return false
  (verifyMerkleProof (view 1) blockRef.hash proof).mapError
    GrandpaFinalityVerificationError.toVerificationError

/-- `SubstrateBlockRef`. -/
structure SubstrateBlockRef where
  inner : BlockRef
  timestamp : ℕ

/-- `SubstrateVerificationClient::get_chain_head_internal`; `now` is in seconds since the
epoch. -/
def SubstrateVerificationClient.getChainHeadInternal (self : SubstrateVerificationClient Id F)
    (client : Client) (now : ℕ) : Except GrandpaFinalityVerificationError SubstrateBlockRef :=
  .ok {
    inner := {
      hash := client.info.bestHash
      number := saturatedIntoU64 client.info.bestNumber
      chainId := ⟨self.chainConfig.getChainId⟩ }
    timestamp := now }

variable {B} {G : Grandpa Id Sig} {p : GrandpaVerificationParams F} {config : PredicateConfig F}
  {view view' : ℕ → View Id} {v : View Id} {blockRef : BlockRef} {blockHash : H256}
  {header : Header} {proof : Bytes}

/-! ### Numbers and heads -/

lemma maxNumber_le_u64Max (B : BlockT) : B.maxNumber ≤ u64Max := by
  have hpow : 256 ^ B.numberBytes ≤ 256 ^ 8 := Nat.pow_le_pow_right (by omega) B.le_eight
  have h8 : 256 ^ 8 = 2 ^ 64 := by norm_num
  unfold BlockT.maxNumber u64Max
  omega

lemma u64ToBlockNumber_blockNumberToU64 {n : ℕ} (hn : n ≤ B.maxNumber) :
    u64ToBlockNumber B (blockNumberToU64 n) = n := by
  have hmax := maxNumber_le_u64Max B
  unfold u64ToBlockNumber blockNumberToU64 saturatedIntoU64 BlockT.saturatedFrom
  omega

omit [DecidableEq Id] [F64 F] in
/-- The chain head that is reported, in either form, is a block the client confirms. -/
lemma chainHead_confirmed {T : BlockTree} {V : VoterSet Id}
    (hnumber : T.info.bestNumber ≤ B.maxNumber) (self : SubstrateVerificationClient Id F)
    (now : ℕ) :
    ∃ head, self.getChainHead T.client = .ok head ∧
      self.getChainHeadInternal T.client now = .ok ⟨head, now⟩ ∧
      verifyBlockHash B (⟨T.client, V⟩ : View Id) head = .ok true := by
  obtain ⟨header, hheader, hbest⟩ := T.best_known
  refine ⟨_, rfl, rfl, verifyBlockHash_eq_true_iff.mpr ⟨header, congrArg Except.ok hheader, ?_⟩⟩
  rw [hbest]
  exact (u64ToBlockNumber_blockNumberToU64 hnumber).symm

/-! ### Inclusion -/

lemma requireHeader_of_header {c : Client} (h : c.header blockHash = .ok (some header)) :
    c.requireHeader blockHash = .ok header := by
  rw [Client.requireHeader, h]

omit [DecidableEq Id] in
/-- What the inclusion query asks: the block is known under its number, it still is at the second
read, and the proof has a byte. -/
theorem verifyBlockInclusion_eq_true_iff :
    verifyBlockInclusion B view blockRef proof = .ok true ↔
      verifyBlockHash B (view 0) blockRef = .ok true ∧
        (∃ header, (view 1).client.header blockRef.hash = .ok (some header)) ∧ proof ≠ [] := by
  unfold verifyBlockInclusion verifyMerkleProof Client.requireHeader
  rcases verifyBlockHash B (view 0) blockRef with e | _ | _
  · simp
  · simp
  · rcases (view 1).client.header blockRef.hash with e | _ | header
    · simp
    · simp
    · cases proof with
      | nil => simp
      | cons b proof => simp

omit [DecidableEq Id] in
/-- Of two proofs neither of which is empty, one is as good as the other. -/
theorem verifyBlockInclusion_congr {proof' : Bytes} (h : proof ≠ []) (h' : proof' ≠ []) :
    verifyBlockInclusion B view blockRef proof = verifyBlockInclusion B view blockRef proof' := by
  obtain ⟨b, l, rfl⟩ := List.exists_cons_of_ne_nil h
  obtain ⟨b', l', rfl⟩ := List.exists_cons_of_ne_nil h'
  rfl

/-! ### What a verdict leaves behind -/

/-- What a verdict over a growing client says about the block: it has one header, and this was as
far below the finalized height as the configuration asks. -/
lemma confirmed_of_isFinal (hgrows : Grows view)
    (hfinal : isFinal config (substrateClient B G p view) blockRef = .ok true) :
    ∃ header, (∀ i, (view i).client.header blockRef.hash = .ok (some header)) ∧
      header.number = B.saturatedFrom blockRef.number ∧
      B.saturatedFrom config.minConfirmations
        ≤ (view 6).client.info.finalizedNumber - header.number := by
  obtain ⟨⟨header, hheader, hnumber⟩, -, status, hstatus, hrules⟩ :=
    isFinal_substrateClient_iff.mp hfinal
  obtain ⟨header₅, j, hheader₅, -, rfl⟩ := (getFinalityStatus_eq_ok_iff B G).mp hstatus
  have hknown : ∀ i, (view i).client.header blockRef.hash = .ok (some header) := fun i =>
    (hgrows.later (Nat.zero_le i)).headers _ _ hheader
  -- the header that counted is the one of the first read
  obtain rfl : header = header₅ := by
    have hsame := (hknown (5 + 0)).symm.trans hheader₅
    exact Option.some.inj (Except.ok.inj hsame)
  exact ⟨header, hknown, hnumber, (rulesHold_statusWith_iff.mp hrules).1⟩

/-- The client knows this header and has finalized its height, and it has no errors. -/
structure Settled (c : Client) (blockHash : H256) (header : Header) : Prop where
  known : c.header blockHash = .ok (some header)
  finalized : header.number ≤ c.info.finalizedNumber
  readable : ∃ j, c.justifications blockHash = .ok j

omit [DecidableEq Id] in
lemma verifyBlockHash_of_settled (h : Settled v.client blockRef.hash header)
    (hnumber : header.number = B.saturatedFrom blockRef.number) :
    verifyBlockHash B v blockRef = .ok true :=
  verifyBlockHash_eq_true_iff.mpr ⟨header, h.known, hnumber⟩

lemma getFinalityConfidence_of_settled
    (h : ∀ i, Settled (view i).client blockRef.hash header) :
    getFinalityConfidence B G p view blockRef = .ok (F64.lit 1) := by
  obtain ⟨j, hj⟩ := (h 2).readable
  refine getFinalityConfidence_eq_ok_iff.mpr ⟨_, (getFinalityStatus_eq_ok_iff B G).mpr
    ⟨header, j, (h 0).known, hj, rfl⟩, ?_⟩
  exact confidenceOf_statusWith_of_le (h 1).finalized

omit [DecidableEq Id] in
lemma verifyBlockInclusion_of_settled (h : ∀ i, Settled (view i).client blockRef.hash header)
    (hnumber : header.number = B.saturatedFrom blockRef.number) (proof : Bytes) :
    verifyBlockInclusion B view blockRef proof = .ok (!proof.isEmpty) := by
  rw [verifyBlockInclusion, verifyBlockHash_of_settled (h 0) hnumber, verifyMerkleProof,
    requireHeader_of_header (h 1).known]
  cases proof <;> rfl

variable {chain : ℕ → ChainState} {moments : ℕ → ℕ}

omit [DecidableEq Id] in
lemma grows_of_moments (hgrows : ChainGrowing chain) (hmono : Monotone moments)
    (hview : ∀ i, (view i).client = (chain (moments i)).client) : Grows view := by
  intro i
  rw [hview, hview]
  exact (hgrows.later (hmono (Nat.le_succ i))).client

/-- A block reported final with a confirmation is settled ever after. -/
lemma settled_of_isFinal (hgrows : ChainGrowing chain) (hm : 0 < config.minConfirmations)
    (hmono : Monotone moments) (hview : ∀ i, (view i).client = (chain (moments i)).client)
    (hfinal : isFinal config (substrateClient B G p view) blockRef = .ok true) :
    ∃ header, header.number = B.saturatedFrom blockRef.number ∧
      ∀ k, moments 9 ≤ k → Settled (chain k).client blockRef.hash header := by
  obtain ⟨header, hknown, hnumber, hconfirmed⟩ :=
    confirmed_of_isFinal (grows_of_moments hgrows hmono hview) hfinal
  have hpos := B.saturatedFrom_pos hm
  refine ⟨header, hnumber, fun k hk => ?_⟩
  have hlater := hgrows.later ((hmono (show 6 ≤ 9 by decide)).trans hk)
  have hheader := hknown 6
  rw [hview] at hheader hconfirmed
  have hrises := hlater.finalized_le
  have hinfo : (chain (moments 6)).client.info = (chain (moments 6)).info := rfl
  have hinfo' : (chain k).client.info = (chain k).info := rfl
  refine ⟨hlater.client.headers _ _ hheader, ?_, ⟨_, rfl⟩⟩
  rw [hinfo] at hconfirmed
  rw [hinfo']
  omega

/-- **The queries confirm a verdict.**  On a growing chain without client errors, a block that has
once been reported final with at least one confirmation asked for is confirmed by every other
query at every later moment, whatever the voters and the parameters of these are: it exists under
its number, it is returned, its confidence is one, it is not above the latest finalized block, and
it includes whatever a proof with at least one byte is shown for. -/
theorem queries_confirm_verdict (hgrows : ChainGrowing chain) (hm : 0 < config.minConfirmations)
    (hmono : Monotone moments) (hview : ∀ i, (view i).client = (chain (moments i)).client)
    (hfinal : isFinal config (substrateClient B G p view) blockRef = .ok true)
    (hlater : ∀ i, ∃ k, moments 9 ≤ k ∧ (view' i).client = (chain k).client)
    (params : GrandpaVerificationParams F) :
    verifyBlockHash B (view' 0) blockRef = .ok true ∧
      getBlock (view' 0) blockRef = .ok ⟨blockRef.hash, blockRef.number⟩ ∧
      getFinalityConfidence B G params view' blockRef = .ok (F64.lit 1) ∧
      (∃ latest, getLatestFinalizedBlock (view' 0) = .ok latest ∧
        blockNumberToU64 (u64ToBlockNumber B blockRef.number) ≤ latest) ∧
      ∀ proof, verifyBlockInclusion B view' blockRef proof = .ok (!proof.isEmpty) := by
  obtain ⟨header, hnumber, hsettled⟩ := settled_of_isFinal hgrows hm hmono hview hfinal
  have hall : ∀ i, Settled (view' i).client blockRef.hash header := by
    intro i
    obtain ⟨k, hk, hclient⟩ := hlater i
    rw [hclient]
    exact hsettled k hk
  refine ⟨verifyBlockHash_of_settled (hall 0) hnumber, ?_, getFinalityConfidence_of_settled hall,
    ⟨_, rfl, ?_⟩, verifyBlockInclusion_of_settled hall hnumber⟩
  · exact getBlock_eq_ok_iff.mpr ⟨⟨header, (hall 0).known⟩, rfl⟩
  · have hfinalized := (hall 0).finalized
    unfold blockNumberToU64 u64ToBlockNumber saturatedIntoU64
    omega

end Queries

/-! ### A verdict that is confirmed when it has been taken back -/

/-- Reads after the best block has moved away from block `1`. -/
def overtakenView (_ : ℕ) : View ℕ := ⟨(overtakenChain 1).client, sampleVoters⟩

/-- The statement for a block that was reported final before that. -/
theorem queries_confirm_verdict_overtakenView :
    verifyBlockHash .u32 (overtakenView 0) chainRef = .ok true ∧
      getBlock (overtakenView 0) chainRef = .ok ⟨chainRef.hash, chainRef.number⟩ ∧
      getFinalityConfidence .u32 sampleGrandpa strictParams overtakenView chainRef
        = .ok (F64.lit 1) ∧
      (∃ latest, getLatestFinalizedBlock (overtakenView 0) = .ok latest ∧
        blockNumberToU64 (u64ToBlockNumber .u32 chainRef.number) ≤ latest) ∧
      ∀ proof, verifyBlockInclusion .u32 overtakenView chainRef proof = .ok (!proof.isEmpty) :=
  queries_confirm_verdict overtakenChain_growing (show 0 < sampleConfig.minConfirmations by decide)
    (show Monotone fun _ : ℕ => 0 from monotone_const) (fun _ => rfl)
    (show isFinal sampleConfig (substrateClient .u32 sampleGrandpa .default fun _ =>
      ⟨(overtakenChain 0).client, sampleVoters⟩) chainRef = .ok true from patientFinality_forkTree)
    (fun _ => ⟨1, Nat.zero_le 1, rfl⟩) strictParams

end FrostSubstrate
