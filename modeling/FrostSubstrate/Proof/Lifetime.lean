/-
How long a generated proof lives, and where a generator panics.

A generator converts the hashes of the two blocks, copies the data into buffers of 32 bytes and adds
the time to live to the clock.  Each of the three panics on some values.  A `[u8; 32]` always
converts and a chunk always fits its buffer (`generateMerkleTree_eq`), so what is left is the
addition: a proof comes out with the lifetime that is configured, unless the addition overflows
(`keepsTime_iff`).  No bound on `proof_ttl` keeps it from doing so.
-/
import FrostSubstrate.Proof.MerkleRoot

namespace FrostSubstrate

/-! ### Conversions and copies -/

/-- `H256::from_slice(slice)`; the lengths have to agree. -/
def H256.fromSlice {ε : Type} (slice : Bytes) : Outcome ε H256 :=
  if h : slice.length = 32 then .ok ⟨slice, h⟩ else .panicked

@[simp] lemma H256.fromSlice_bytes {ε : Type} (hash : H256) :
    (H256.fromSlice hash.bytes : Outcome ε H256) = .ok hash :=
  dif_pos hash.length_eq

/-- `buffer[..chunk.len()].copy_from_slice(chunk)` for a buffer of 32 zeros. -/
def copyChunk {ε : Type} (chunk : Bytes) : Outcome ε H256 :=
  if chunk.length ≤ 32 then .ok (fillChunk chunk) else .panicked

/-- The leaves in `generate_merkle_tree`, each of them copied. -/
def generateMerkleTree {ε : Type} (data : Bytes) : Outcome ε (List H256) :=
  (chunks32 data.length data).mapM copyChunk

lemma length_le_of_mem_chunks32 {fuel : ℕ} {data chunk : Bytes} (h : chunk ∈ chunks32 fuel data) :
    chunk.length ≤ 32 := by
  induction fuel generalizing data with
  | zero => exact absurd h List.not_mem_nil
  | succ fuel ih =>
    cases data with
    | nil => exact absurd h List.not_mem_nil
    | cons byte data =>
      rcases List.mem_cons.mp h with rfl | hrest
      · exact List.length_take_le _ _
      · exact ih hrest

lemma generateMerkleTree_eq {ε : Type} (data : Bytes) :
    (generateMerkleTree data : Outcome ε (List H256)) = .ok (merkleLeaves data) :=
  Outcome.mapM_eq_ok_map fun _ hchunk => if_pos (length_le_of_mem_chunks32 hchunk)

/-! ### The generators with everything that can panic -/

section Generators

variable {Id : Type} (backend : ProofBackend Id) (header : H256 → Except String (Option Header))
  (clock : ℕ → ℕ)

/-- `MerkleProofGenerator::generate_proof`, conversions and copies included. -/
def MerkleProofGenerator.generateProof (transition : StateTransition)
    (config : ProofGenerationConfig) : Outcome StateError StateProof :=
  if config.proofType ≠ .custom "Merkle" then .err (.internal "Unsupported proof type")
  else do
    let sourceHash ← H256.fromSlice transition.preState.blockRef.hash.bytes
    let targetHash ← H256.fromSlice transition.postState.blockRef.hash.bytes
    let sourceHeader ← lookupHeader header "source" "Source" sourceHash
    let targetHeader ← lookupHeader header "target" "Target" targetHash
    let leaves ← generateMerkleTree (transition.transitionProof.getD [])
    match backend.merkleRoot leaves with
    | none => .err (.internal "Failed to get Merkle root")
    | some root =>
      finishProof backend clock transition config (.custom "Merkle") root.bytes
        (merkleMetadata sourceHeader targetHeader root)

/-- `BLSProofGenerator::generate_proof`, conversions included. -/
def BLSProofGenerator.generateProof (authoritySet : AuthorityList Id) (transition : StateTransition)
    (config : ProofGenerationConfig) : Outcome StateError StateProof :=
  if config.proofType ≠ .signature then .err (.internal "Unsupported proof type")
  else do
    let sourceHash ← H256.fromSlice transition.preState.blockRef.hash.bytes
    let targetHash ← H256.fromSlice transition.postState.blockRef.hash.bytes
    let sourceHeader ← lookupHeader header "source" "Source" sourceHash
    let targetHeader ← lookupHeader header "target" "Target" targetHash
    finishProof backend clock transition config .signature (List.replicate 96 0)
      (blsMetadata backend authoritySet sourceHeader targetHeader)

end Generators

variable {Id : Type} {backend : ProofBackend Id} {header : H256 → Except String (Option Header)}
  {clock : ℕ → ℕ} {authoritySet : AuthorityList Id} {transition : StateTransition}
  {config : ProofGenerationConfig} {proofType : ProofType} {data : Bytes} {metadata : Json}

lemma MerkleProofGenerator.generateProof_eq :
    MerkleProofGenerator.generateProof backend header clock transition config
      = merkleGenerateProof backend header clock transition config := by
  unfold MerkleProofGenerator.generateProof merkleGenerateProof
  simp only [H256.fromSlice_bytes, Outcome.ok_bind, generateMerkleTree_eq]
  rfl

lemma BLSProofGenerator.generateProof_eq :
    BLSProofGenerator.generateProof backend header clock authoritySet transition config
      = blsGenerateProof backend header clock authoritySet transition config := by
  unfold BLSProofGenerator.generateProof blsGenerateProof
  simp only [H256.fromSlice_bytes, Outcome.ok_bind]
  rfl

/-! ### Where they panic -/

/-- The expiry of a proof is later than what a `SystemTime` can hold. -/
def ExpiryOverflows (clock : ℕ → ℕ) (config : ProofGenerationConfig) : Prop :=
  maxSystemTime < clock 1 + config.proofTtl

/-- A call of the Merkle generator that gets as far as the clock, with an expiry that overflows. -/
def MerkleOverflows (backend : ProofBackend Id) (header : H256 → Except String (Option Header))
    (clock : ℕ → ℕ) (transition : StateTransition) (config : ProofGenerationConfig) : Prop :=
  config.proofType = .custom "Merkle" ∧
    (∃ source, header transition.preState.blockRef.hash = .ok (some source)) ∧
    (∃ target, header transition.postState.blockRef.hash = .ok (some target)) ∧
    (∃ root, backend.merkleRoot (merkleLeaves (transition.transitionProof.getD [])) = some root) ∧
    ExpiryOverflows clock config

/-- A call of the BLS generator that gets as far as the clock, with an expiry that overflows. -/
def BlsOverflows (header : H256 → Except String (Option Header)) (clock : ℕ → ℕ)
    (transition : StateTransition) (config : ProofGenerationConfig) : Prop :=
  config.proofType = .signature ∧
    (∃ source, header transition.preState.blockRef.hash = .ok (some source)) ∧
    (∃ target, header transition.postState.blockRef.hash = .ok (some target)) ∧
    ExpiryOverflows clock config

lemma lookupHeader_ne_panicked {name Name : String} {hash : H256} :
    lookupHeader header name Name hash ≠ .panicked := by
  unfold lookupHeader
  rcases header hash with e | _ | found
  · simp
  · simp
  · simp

/-- The end of a generator panics in the addition and nowhere else. -/
lemma finishProof_eq_panicked_iff :
    finishProof backend clock transition config proofType data metadata = .panicked ↔
      ExpiryOverflows clock config := by
  unfold finishProof ExpiryOverflows addDuration
  by_cases hclock : clock 1 + config.proofTtl ≤ maxSystemTime
  · simp only [if_pos hclock, Outcome.ok_bind, Outcome.bind_eq_panicked_iff]
    constructor
    · rintro (hencode | ⟨encoded, -, hsize⟩)
      · revert hencode
        cases (backend.proofJson _).mapError _ <;> simp
      · -- a proof that is too large is an error
        split_ifs at hsize
    · intro hlater
      exact absurd hclock hlater.not_ge
  · rw [if_neg hclock, Outcome.panicked_bind]
    exact ⟨fun _ => not_le.mp hclock, fun _ => rfl⟩

lemma lookupHeader_bind_eq_panicked_iff {α : Type} {name Name : String} {hash : H256}
    {f : Header → Outcome StateError α} :
    (lookupHeader header name Name hash >>= f) = .panicked ↔
      ∃ found, header hash = .ok (some found) ∧ f found = .panicked := by
  simp only [Outcome.bind_eq_panicked_iff, lookupHeader_ne_panicked, lookupHeader_eq_ok_iff,
    false_or]

lemma merkleGenerateProof_eq_panicked_iff :
    merkleGenerateProof backend header clock transition config = .panicked ↔
      MerkleOverflows backend header clock transition config := by
  unfold merkleGenerateProof MerkleOverflows
  by_cases htype : config.proofType = .custom "Merkle"
  · simp only [htype, ne_eq, not_true_eq_false, if_false, lookupHeader_bind_eq_panicked_iff,
      true_and]
    rcases backend.merkleRoot (merkleLeaves (transition.transitionProof.getD [])) with _ | root
    · simp
    · simp only [finishProof_eq_panicked_iff, Option.some.injEq]
      constructor
      · rintro ⟨source, hsource, target, htarget, hlater⟩
        exact ⟨⟨source, hsource⟩, ⟨target, htarget⟩, ⟨root, rfl⟩, hlater⟩
      · rintro ⟨⟨source, hsource⟩, ⟨target, htarget⟩, -, hlater⟩
        exact ⟨source, hsource, target, htarget, hlater⟩
  · simp [htype]

lemma blsGenerateProof_eq_panicked_iff :
    blsGenerateProof backend header clock authoritySet transition config = .panicked ↔
      BlsOverflows header clock transition config := by
  unfold blsGenerateProof BlsOverflows
  by_cases htype : config.proofType = .signature
  · simp only [htype, ne_eq, not_true_eq_false, if_false, lookupHeader_bind_eq_panicked_iff,
      finishProof_eq_panicked_iff, true_and]
    constructor
    · rintro ⟨source, hsource, target, htarget, hlater⟩
      exact ⟨⟨source, hsource⟩, ⟨target, htarget⟩, hlater⟩
    · rintro ⟨⟨source, hsource⟩, ⟨target, htarget⟩, hlater⟩
      exact ⟨source, hsource, target, htarget, hlater⟩
  · simp [htype]

/-! ### How long a proof lives -/

/-- A call ends in a result, and a proof it returns lives as long as is configured. -/
structure KeepsTime (config : ProofGenerationConfig) (generated : Outcome StateError StateProof) :
    Prop where
  returns : generated ≠ .panicked
  lives : ∀ proof, generated = .ok proof → ∃ expiresAt, proof.proofData.expiresAt = some expiresAt ∧
    proof.proofData.generatedAt + config.proofTtl ≤ expiresAt

/-- A call that returns what it has stamped keeps time exactly when it returns, as the clock does
not go back. -/
lemma keepsTime_iff_returns {generated : Outcome StateError StateProof} (hclock : clock 0 ≤ clock 1)
    (hstamped : ∀ proof, generated = .ok proof → ∃ proofType data metadata,
      proof.proofData = stampedProof clock config proofType data metadata) :
    KeepsTime config generated ↔ generated ≠ .panicked := by
  constructor
  · intro h
    exact h.returns
  · intro hreturns
    refine ⟨hreturns, ?_⟩
    intro proof hproof
    obtain ⟨proofType, data, metadata, hdata⟩ := hstamped proof hproof
    have hexpires : proof.proofData.expiresAt = some (clock 1 + config.proofTtl) := by
      rw [hdata]
      rfl
    have hgenerated : proof.proofData.generatedAt = clock 0 := by
      rw [hdata]
      rfl
    refine ⟨_, hexpires, ?_⟩
    rw [hgenerated]
    exact Nat.add_le_add_right hclock _

lemma merkle_keepsTime_iff (hclock : clock 0 ≤ clock 1) :
    KeepsTime config (MerkleProofGenerator.generateProof backend header clock transition config) ↔
      ¬ MerkleOverflows backend header clock transition config := by
  rw [MerkleProofGenerator.generateProof_eq, ← merkleGenerateProof_eq_panicked_iff]
  apply keepsTime_iff_returns hclock
  intro proof hproof
  obtain ⟨-, source, target, root, -, -, -, -, rfl⟩ := merkleGenerateProof_eq_ok_iff.mp hproof
  exact ⟨_, _, _, rfl⟩

lemma bls_keepsTime_iff (hclock : clock 0 ≤ clock 1) :
    KeepsTime config
        (BLSProofGenerator.generateProof backend header clock authoritySet transition config) ↔
      ¬ BlsOverflows header clock transition config := by
  have hpanics : blsGenerateProof backend header clock authoritySet transition config = .panicked ↔
      BlsOverflows header clock transition config := blsGenerateProof_eq_panicked_iff
  rw [BLSProofGenerator.generateProof_eq, ← hpanics]
  apply keepsTime_iff_returns hclock
  intro proof hproof
  obtain ⟨-, source, target, -, -, -, rfl⟩ := blsGenerateProof_eq_ok_iff.mp hproof
  exact ⟨_, _, _, rfl⟩

/-- **When generation keeps time.**  Both generators return, and date a proof with the configured
lifetime, exactly when they do not get to an expiry that overflows. -/
theorem keepsTime_iff (hclock : clock 0 ≤ clock 1) :
    (KeepsTime config (MerkleProofGenerator.generateProof backend header clock transition config) ↔
      ¬ MerkleOverflows backend header clock transition config) ∧
    (KeepsTime config
        (BLSProofGenerator.generateProof backend header clock authoritySet transition config) ↔
      ¬ BlsOverflows header clock transition config) :=
  ⟨merkle_keepsTime_iff hclock, bls_keepsTime_iff hclock⟩

/-- The largest `u64` as a time to live. -/
def endlessConfig (proofType : ProofType) : ProofGenerationConfig := ⟨proofType, 1024, 2 ^ 64 - 1⟩

/-- **A generator panics.**  With the longest lifetime that can be configured, known blocks and one
byte of data, neither generator returns. -/
theorem generators_panic :
    MerkleProofGenerator.generateProof sampleBackend sampleHeader id provableTransition
        (endlessConfig (.custom "Merkle")) = .panicked ∧
      BLSProofGenerator.generateProof sampleBackend sampleHeader id [(1, 1)] provableTransition
        (endlessConfig .signature) = .panicked ∧
      ¬ KeepsTime (endlessConfig (.custom "Merkle"))
        (MerkleProofGenerator.generateProof sampleBackend sampleHeader id provableTransition
          (endlessConfig (.custom "Merkle"))) ∧
      ¬ KeepsTime (endlessConfig .signature)
        (BLSProofGenerator.generateProof sampleBackend sampleHeader id [(1, 1)] provableTransition
          (endlessConfig .signature)) := by
  have hmerkle : MerkleProofGenerator.generateProof sampleBackend sampleHeader id provableTransition
      (endlessConfig (.custom "Merkle")) = .panicked := rfl
  have hbls : BLSProofGenerator.generateProof sampleBackend sampleHeader id [(1, 1)]
      provableTransition (endlessConfig .signature) = .panicked := rfl
  exact ⟨hmerkle, hbls, fun h => h.returns hmerkle, fun h => h.returns hbls⟩

/-- The statement for the default lifetime. -/
theorem keepsTime_iff_provable :
    (KeepsTime .default
        (MerkleProofGenerator.generateProof sampleBackend sampleHeader id provableTransition
          .default) ↔
      ¬ MerkleOverflows sampleBackend sampleHeader id provableTransition .default) ∧
    (KeepsTime .default
        (BLSProofGenerator.generateProof sampleBackend sampleHeader id [(1, 1)] provableTransition
          .default) ↔
      ¬ BlsOverflows sampleHeader id provableTransition .default) :=
  keepsTime_iff (show id 0 ≤ id 1 from Nat.zero_le 1)

end FrostSubstrate
