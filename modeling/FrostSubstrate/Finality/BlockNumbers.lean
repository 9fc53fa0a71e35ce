/-
Which block number a reference is accepted with.

`verify_block_hash` compares the number of a reference with that of the header after a
saturating conversion, which takes every number above `u32::MAX` to that one number.
`get_block` fetches the header as well but compares nothing, and makes its block from the
reference alone.  The two agree, and a hash has one number, exactly while the client knows the
hash under no other number than the one referenced.
-/
import FrostSubstrate.Finality.Verdict

namespace FrostSubstrate

section BlockNumbers

variable {Id : Type}

/-- `SubstrateVerificationClient::get_block`. -/
def getBlock (v : View Id) (blockRef : BlockRef) : Except FinalityVerificationError FrostBlock := do
  -- the source binds the header and never looks at it
  let _header ← (v.client.requireHeader blockRef.hash).mapError
    GrandpaFinalityVerificationError.toVerificationError
  return { hash := blockRef.hash, number := blockRef.number }

/-- Every header the client knows has a number of type `u32`. -/
def HasU32Numbers (v : View Id) : Prop :=
  ∀ hash header, v.client.header hash = .ok (some header) → header.number ≤ u32Max

/-- The client accepts a reference: it confirms the number of the block, or returns the block. -/
def AcceptsReference (v : View Id) (blockRef : BlockRef) : Prop :=
  verifyBlockHash .u32 v blockRef = .ok true ∨ ∃ block, getBlock v blockRef = .ok block

/-- The client answers truthfully about the number of a reference. -/
structure AnswersNumber (v : View Id) (blockRef : BlockRef) : Prop where
  verified_iff : verifyBlockHash .u32 v blockRef = .ok true ↔
    ∃ header, v.client.header blockRef.hash = .ok (some header) ∧ header.number = blockRef.number
  block_iff : (∃ block, getBlock v blockRef = .ok block) ↔
    verifyBlockHash .u32 v blockRef = .ok true
  number_eq : ∀ block header, getBlock v blockRef = .ok block →
    v.client.header blockRef.hash = .ok (some header) → block.number = header.number

/-- The client knows the block of a reference under another number. -/
def KnowsOtherNumber (v : View Id) (blockRef : BlockRef) : Prop :=
  ∃ header, v.client.header blockRef.hash = .ok (some header) ∧ header.number ≠ blockRef.number

variable {v : View Id} {blockRef : BlockRef} {block : FrostBlock}

lemma maxNumber_u32 : BlockT.u32.maxNumber = u32Max := by
  show 256 ^ 4 - 1 = 2 ^ 32 - 1
  norm_num

/-- The block is made from the reference, whatever the number of its header. -/
lemma getBlock_eq_ok_iff :
    getBlock v blockRef = .ok block ↔
      (∃ header, v.client.header blockRef.hash = .ok (some header)) ∧
        block = ⟨blockRef.hash, blockRef.number⟩ := by
  unfold getBlock Client.requireHeader
  rcases v.client.header blockRef.hash with e | _ | header
  · simp
  · simp
  · simp [eq_comm]

lemma exists_getBlock_iff :
    (∃ block, getBlock v blockRef = .ok block) ↔
      ∃ header, v.client.header blockRef.hash = .ok (some header) := by
  constructor
  · rintro ⟨block, hblock⟩
    exact (getBlock_eq_ok_iff.mp hblock).1
  · intro hknown
    exact ⟨_, getBlock_eq_ok_iff.mpr ⟨hknown, rfl⟩⟩

lemma eq_saturatedFrom_u32_iff {n value : ℕ} (hn : n ≤ u32Max) :
    n = BlockT.u32.saturatedFrom value ↔ n = value ∨ n = u32Max ∧ u32Max < value := by
  rw [BlockT.saturatedFrom, maxNumber_u32]
  omega

/-- `verify_block_hash` confirms the number of the header, and, for a block at `u32::MAX`, every
number above it. -/
theorem verifyBlockHash_u32_eq_true_iff (hnumbers : HasU32Numbers v) :
    verifyBlockHash .u32 v blockRef = .ok true ↔
      ∃ header, v.client.header blockRef.hash = .ok (some header) ∧
        (header.number = blockRef.number ∨
          header.number = u32Max ∧ u32Max < blockRef.number) := by
  rw [verifyBlockHash_eq_true_iff]
  constructor
  · rintro ⟨header, hheader, hnumber⟩
    exact ⟨header, hheader, (eq_saturatedFrom_u32_iff (hnumbers _ _ hheader)).mp hnumber⟩
  · rintro ⟨header, hheader, hnumber⟩
    exact ⟨header, hheader, (eq_saturatedFrom_u32_iff (hnumbers _ _ hheader)).mpr hnumber⟩

lemma not_knowsOtherNumber_iff :
    ¬ KnowsOtherNumber v blockRef ↔
      ∀ header, v.client.header blockRef.hash = .ok (some header) →
        header.number = blockRef.number := by
  simp only [KnowsOtherNumber, not_exists, not_and, not_not]

lemma AnswersNumber.not_knowsOtherNumber (h : AnswersNumber v blockRef) :
    ¬ KnowsOtherNumber v blockRef := by
  rw [not_knowsOtherNumber_iff]
  intro header hheader
  have hblock : getBlock v blockRef = .ok ⟨blockRef.hash, blockRef.number⟩ :=
    getBlock_eq_ok_iff.mpr ⟨⟨header, hheader⟩, rfl⟩
  exact (h.number_eq _ header hblock hheader).symm

lemma AnswersNumber.of_not_knowsOtherNumber (hnumbers : HasU32Numbers v)
    (h : ¬ KnowsOtherNumber v blockRef) : AnswersNumber v blockRef := by
  rw [not_knowsOtherNumber_iff] at h
  have hverified : verifyBlockHash .u32 v blockRef = .ok true ↔
      ∃ header, v.client.header blockRef.hash = .ok (some header) ∧
        header.number = blockRef.number := by
    rw [verifyBlockHash_u32_eq_true_iff hnumbers]
    constructor
    · rintro ⟨header, hheader, -⟩
      exact ⟨header, hheader, h header hheader⟩
    · rintro ⟨header, hheader, hnumber⟩
      exact ⟨header, hheader, Or.inl hnumber⟩
  refine ⟨hverified, ?_, ?_⟩
  · rw [exists_getBlock_iff, hverified]
    exact exists_congr fun header => (and_iff_left_of_imp (h header)).symm
  · intro block header hblock hheader
    rw [(getBlock_eq_ok_iff.mp hblock).2]
    exact (h header hheader).symm

lemma AcceptsReference.exists_header (h : AcceptsReference v blockRef) :
    ∃ header, v.client.header blockRef.hash = .ok (some header) := by
  rcases h with h | h
  · obtain ⟨header, hheader, -⟩ := verifyBlockHash_eq_true_iff.mp h
    exact ⟨header, hheader⟩
  · exact exists_getBlock_iff.mp h

/-- **One hash, one number.**  A client with `u32` block numbers answers truthfully about a
reference exactly when it does not know the block under another number; two references to one
hash that it accepts, and answers truthfully about, carry the same number. -/
theorem answersNumber_iff (hnumbers : HasU32Numbers v) :
    (∀ blockRef, AnswersNumber v blockRef ↔ ¬ KnowsOtherNumber v blockRef) ∧
      ∀ blockRef other : BlockRef, blockRef.hash = other.hash →
        AcceptsReference v blockRef → AcceptsReference v other →
        AnswersNumber v blockRef → AnswersNumber v other →
        blockRef.number = other.number := by
  refine ⟨fun blockRef => ⟨AnswersNumber.not_knowsOtherNumber,
    AnswersNumber.of_not_knowsOtherNumber hnumbers⟩, ?_⟩
  intro blockRef other hhash haccepts _ hanswers hanswers'
  obtain ⟨header, hheader⟩ := haccepts.exists_header
  have hnumber := not_knowsOtherNumber_iff.mp hanswers.not_knowsOtherNumber header hheader
  have hnumber' := not_knowsOtherNumber_iff.mp hanswers'.not_knowsOtherNumber header
    (hhash ▸ hheader)
  exact hnumber.symm.trans hnumber'

end BlockNumbers

/-! ### A block known under one number -/

/-- The view of a client that knows one block, the all-zero hash, under this number. -/
def knowsZeroAt (number : ℕ) : View ℕ where
  client :=
    { header := fun hash => .ok (if hash = H256.zero then some ⟨hash, hash, number⟩ else none)
      info := ⟨H256.zero, number, H256.zero, number⟩
      justifications := fun _ => .ok none }
  voterSet := sampleVoters

/-- A reference to the all-zero hash. -/
def zeroRef (number : ℕ) : BlockRef := ⟨⟨"polkadot"⟩, number, H256.zero⟩

lemma header_knowsZeroAt {number : ℕ} :
    (knowsZeroAt number).client.header H256.zero
      = .ok (some ⟨H256.zero, H256.zero, number⟩) := rfl

lemma hasU32Numbers_knowsZeroAt {number : ℕ} (h : number ≤ u32Max) :
    HasU32Numbers (knowsZeroAt number) := by
  intro hash header hheader
  simp only [knowsZeroAt, Except.ok.injEq] at hheader
  split_ifs at hheader
  obtain rfl := Option.some.inj hheader
  exact h

/-- The client of block 2 answers truthfully about the reference to block 2. -/
theorem answersNumber_two : AnswersNumber (knowsZeroAt 2) (zeroRef 2) := by
  refine ((answersNumber_iff (hasU32Numbers_knowsZeroAt (by decide))).1 _).mpr ?_
  rintro ⟨header, hheader, hne⟩
  obtain rfl := Option.some.inj (Except.ok.inj hheader)
  exact hne rfl

/-- The client of block 2 returns a block 7 of the same hash, and the client of the block
`u32::MAX` confirms the number after it. -/
theorem not_answersNumber :
    (HasU32Numbers (knowsZeroAt 2) ∧ ¬ AnswersNumber (knowsZeroAt 2) (zeroRef 7) ∧
      getBlock (knowsZeroAt 2) (zeroRef 7) = .ok ⟨H256.zero, 7⟩ ∧
      verifyBlockHash .u32 (knowsZeroAt 2) (zeroRef 7) = .ok false) ∧
    (HasU32Numbers (knowsZeroAt u32Max) ∧
      ¬ AnswersNumber (knowsZeroAt u32Max) (zeroRef (2 ^ 32)) ∧
      verifyBlockHash .u32 (knowsZeroAt u32Max) (zeroRef u32Max) = .ok true ∧
      verifyBlockHash .u32 (knowsZeroAt u32Max) (zeroRef (2 ^ 32)) = .ok true) := by
  have hmax : HasU32Numbers (knowsZeroAt u32Max) := hasU32Numbers_knowsZeroAt le_rfl
  refine ⟨⟨hasU32Numbers_knowsZeroAt (by decide), ?_, rfl, rfl⟩, hmax, ?_, ?_, ?_⟩
  · intro hanswers
    exact hanswers.not_knowsOtherNumber ⟨_, header_knowsZeroAt, by decide⟩
  · intro hanswers
    exact hanswers.not_knowsOtherNumber ⟨_, header_knowsZeroAt, by decide⟩
  · exact (verifyBlockHash_u32_eq_true_iff hmax).mpr ⟨_, header_knowsZeroAt, Or.inl rfl⟩
  · exact (verifyBlockHash_u32_eq_true_iff hmax).mpr
      ⟨_, header_knowsZeroAt, Or.inr ⟨rfl, by decide⟩⟩

end FrostSubstrate
