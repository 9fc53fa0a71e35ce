/-
The two proof generators.

Both look up the headers of the source and of the target block of a transition, build the
data and the JSON metadata of a proof, stamp it with the clock and check its encoded size.
The Merkle tree of `rs_merkle`, the JSON encoder and the bytes of an authority id are the
fields of `ProofBackend`.  Adding the time to live to the clock panics beyond what a
`SystemTime` holds.
-/
import FrostSubstrate.External.FrostProtocol
import FrostSubstrate.External.Substrate
import FrostSubstrate.Lib.Traced

namespace FrostSubstrate

/-- What the generators use of linked crates. -/
structure ProofBackend (Id : Type) where
  /-- `MerkleTree::from_leaves(&leaves).root()`. -/
  merkleRoot : List H256 → Option H256
  /-- `serde_json::to_vec(&proof_data)`. -/
  proofJson : ProofData → Except String Bytes
  /-- The bytes of an authority id. -/
  idBytes : Id → Bytes

/-- `ProofGenerationConfig`; the time to live is in seconds. -/
structure ProofGenerationConfig where
  proofType : ProofType
  maxProofSize : ℕ
  proofTtl : ℕ

/-- `impl Default for ProofGenerationConfig`. -/
def ProofGenerationConfig.default : ProofGenerationConfig where
  proofType := .custom "Merkle"
  maxProofSize := 1024 * 1024
  proofTtl := 3600 * 24

/-- The last second a `SystemTime` can hold. -/
def maxSystemTime : ℕ := 2 ^ 63 - 1

/-- `time + Duration::from_secs(secs)`. -/
def addDuration {ε : Type} (time secs : ℕ) : Outcome ε ℕ :=
  if time + secs ≤ maxSystemTime then .ok (time + secs) else .panicked

/-- `client.header(hash).map_err(..)?.ok_or_else(..)?` for the source or the target block, with
the two spellings of its name. -/
def lookupHeader (header : H256 → Except String (Option Header)) (name Name : String)
    (hash : H256) : Outcome StateError Header :=
  match header hash with
  | .error e => .err (.internal ("Failed to get " ++ name ++ " header: " ++ e))
  | .ok none => .err (.internal (Name ++ " block not found"))
  | .ok (some header) => .ok header

/-- The JSON object of a block in the metadata of a proof. -/
def blockJson (header : Header) : Json :=
  .obj [
    ("number", .num header.number),
    ("hash", .str (hexEncode header.hash.bytes)),
    ("parent_hash", .str (hexEncode header.parentHash.bytes))]

/-- A chunk of at most 32 bytes in a buffer of 32, filled up with zeros. -/
def fillChunk (chunk : Bytes) : H256 := ⟨(chunk ++ List.replicate 32 0).take 32, by simp⟩

/-- `data.chunks(32)`; every step takes at least one byte. -/
def chunks32 : ℕ → Bytes → List Bytes
  | 0, _ => []
  | _ + 1, [] => []
  | fuel + 1, b :: l => (b :: l).take 32 :: chunks32 fuel ((b :: l).drop 32)

/-- The leaves of `generate_merkle_tree`. -/
def merkleLeaves (data : Bytes) : List H256 := (chunks32 data.length data).map fillChunk

section Generators

variable {Id : Type} (backend : ProofBackend Id) (header : H256 → Except String (Option Header))
  (clock : ℕ → ℕ)

/-- The end of `generate_proof`: stamp the proof, check its size and wrap it up.  The clock is
read twice. -/
def finishProof (transition : StateTransition) (config : ProofGenerationConfig)
    (proofType : ProofType) (data : Bytes) (metadata : Json) : Outcome StateError StateProof := do
  let generatedAt := clock 0
  let expiresAt ← addDuration (clock 1) config.proofTtl
  let proofData : ProofData := {
    proofType := proofType
    data := data
    metadata := some metadata
    generatedAt := generatedAt
    expiresAt := some expiresAt
    version := 1 }
  let encoded ← Outcome.ofExcept ((backend.proofJson proofData).mapError fun e =>
    StateError.internal ("Failed to encode proof: " ++ e))
  -- `encoded.len() as u32` keeps the low 32 bits
  if encoded.length % 2 ^ 32 > config.maxProofSize then
    .err (.internal ("Proof size " ++ toString encoded.length ++
      " exceeds maximum allowed size " ++ toString config.maxProofSize))
  else
    return ⟨transition, proofData⟩

/-- `MerkleProofGenerator::generate_proof`. -/
def merkleGenerateProof (transition : StateTransition) (config : ProofGenerationConfig) :
    Outcome StateError StateProof :=
  if config.proofType ≠ .custom "Merkle" then .err (.internal "Unsupported proof type")
  else do
    let sourceHeader ← lookupHeader header "source" "Source" transition.preState.blockRef.hash
    let targetHeader ← lookupHeader header "target" "Target" transition.postState.blockRef.hash
    -- a transition without a proof has no data and no leaves
    match backend.merkleRoot (merkleLeaves (transition.transitionProof.getD [])) with
    | none => .err (.internal "Failed to get Merkle root")
    | some root =>
      finishProof backend clock transition config (.custom "Merkle") root.bytes (.obj [
        ("source_block", blockJson sourceHeader),
        ("target_block", blockJson targetHeader),
        ("merkle_root", .str (hexEncode root.bytes))])

/-- `BLSProofGenerator::generate_proof`; the signature is a placeholder of 96 zero bytes. -/
def blsGenerateProof (authoritySet : AuthorityList Id) (transition : StateTransition)
    (config : ProofGenerationConfig) : Outcome StateError StateProof :=
  if config.proofType ≠ .signature then .err (.internal "Unsupported proof type")
  else do
    let sourceHeader ← lookupHeader header "source" "Source" transition.preState.blockRef.hash
    let targetHeader ← lookupHeader header "target" "Target" transition.postState.blockRef.hash
    finishProof backend clock transition config .signature (List.replicate 96 0) (.obj [
      ("validator_set", .arr (authoritySet.map fun authority => .obj [
        ("id", .str (hexEncode (backend.idBytes authority.1))),
        ("weight", .num authority.2)])),
      ("source_block", blockJson sourceHeader),
      ("target_block", blockJson targetHeader)])

end Generators

variable {Id : Type} {backend : ProofBackend Id} {header : H256 → Except String (Option Header)}
  {clock : ℕ → ℕ} {transition : StateTransition} {config : ProofGenerationConfig}

/-- A lookup that fails is an error of the generator, so what follows it only has to be looked
at where it finds a header. -/
lemma lookupHeader_bind_err {α : Type} {name Name : String} {hash : H256}
    {f : Header → Outcome StateError α}
    (hf : ∀ found, header hash = .ok (some found) → ∃ text, f found = .err (.internal text)) :
    ∃ text, (lookupHeader header name Name hash >>= f) = .err (.internal text) := by
  unfold lookupHeader
  rcases h : header hash with e | _ | found
  · exact ⟨_, rfl⟩
  · exact ⟨_, rfl⟩
  · exact hf found h

lemma merkleGenerateProof_of_no_root
    (hroot : ∀ target, header transition.postState.blockRef.hash = .ok (some target) →
      backend.merkleRoot (merkleLeaves (transition.transitionProof.getD [])) = none) :
    ∃ text, merkleGenerateProof backend header clock transition config
      = .err (.internal text) := by
  unfold merkleGenerateProof
  split_ifs
  · exact ⟨_, rfl⟩
  · apply lookupHeader_bind_err
    intro source _
    apply lookupHeader_bind_err
    intro target hfound
    rw [hroot target hfound]
    exact ⟨_, rfl⟩

lemma merkleGenerateProof_of_target_none
    (htarget : header transition.postState.blockRef.hash = .ok none) :
    ∃ text, merkleGenerateProof backend header clock transition config
      = .err (.internal text) := by
  apply merkleGenerateProof_of_no_root
  intro target hfound
  rw [htarget] at hfound
  cases hfound

lemma merkleGenerateProof_of_root_none
    (hroot : backend.merkleRoot (merkleLeaves (transition.transitionProof.getD [])) = none) :
    ∃ text, merkleGenerateProof backend header clock transition config
      = .err (.internal text) :=
  merkleGenerateProof_of_no_root fun _ _ => hroot

/-! ### The proofs that come out -/

/-- The proof data of a generator under its stamp. -/
def stampedProof (clock : ℕ → ℕ) (config : ProofGenerationConfig) (proofType : ProofType)
    (data : Bytes) (metadata : Json) : ProofData where
  proofType := proofType
  data := data
  metadata := some metadata
  generatedAt := clock 0
  expiresAt := some (clock 1 + config.proofTtl)
  version := 1

/-- The metadata of a Merkle proof. -/
def merkleMetadata (sourceHeader targetHeader : Header) (root : H256) : Json :=
  .obj [
    ("source_block", blockJson sourceHeader),
    ("target_block", blockJson targetHeader),
    ("merkle_root", .str (hexEncode root.bytes))]

/-- The metadata of a BLS proof. -/
def blsMetadata (backend : ProofBackend Id) (authoritySet : AuthorityList Id)
    (sourceHeader targetHeader : Header) : Json :=
  .obj [
    ("validator_set", .arr (authoritySet.map fun authority => .obj [
      ("id", .str (hexEncode (backend.idBytes authority.1))),
      ("weight", .num authority.2)])),
    ("source_block", blockJson sourceHeader),
    ("target_block", blockJson targetHeader)]

variable {authoritySet : AuthorityList Id} {proof : StateProof} {proofType : ProofType}
  {data : Bytes} {metadata : Json}

/-- What the end of `generate_proof` has checked: the expiry can be represented, and the encoding
of the stamped data has a length whose low 32 bits are within the limit. -/
def PassesSize (backend : ProofBackend Id) (clock : ℕ → ℕ) (config : ProofGenerationConfig)
    (proofType : ProofType) (data : Bytes) (metadata : Json) : Prop :=
  clock 1 + config.proofTtl ≤ maxSystemTime ∧
    ∃ encoded, backend.proofJson (stampedProof clock config proofType data metadata) = .ok encoded ∧
      encoded.length % 2 ^ 32 ≤ config.maxProofSize

lemma finishProof_eq_ok_iff :
    finishProof backend clock transition config proofType data metadata = .ok proof ↔
      PassesSize backend clock config proofType data metadata ∧
        proof = ⟨transition, stampedProof clock config proofType data metadata⟩ := by
  unfold finishProof PassesSize addDuration
  by_cases hclock : clock 1 + config.proofTtl ≤ maxSystemTime
  · have hstamped : (⟨proofType, data, some metadata, clock 0,
        some (clock 1 + config.proofTtl), 1⟩ : ProofData)
          = stampedProof clock config proofType data metadata := rfl
    simp only [if_pos hclock, Outcome.ok_bind, hstamped]
    rcases backend.proofJson (stampedProof clock config proofType data metadata) with e | encoded
    · simp
    · simp only [mapError_ok, Outcome.ofExcept_ok, Outcome.ok_bind, Except.ok.injEq]
      by_cases hsize : encoded.length % 2 ^ 32 > config.maxProofSize
      · rw [if_pos hsize]
        constructor
        · intro h
          cases h
        · rintro ⟨⟨-, _, rfl, hle⟩, -⟩
          exact absurd hsize hle.not_gt
      · rw [if_neg hsize, Outcome.pure_eq, Outcome.ok.injEq]
        constructor
        · rintro rfl
          exact ⟨⟨hclock, encoded, rfl, Nat.le_of_not_lt hsize⟩, rfl⟩
        · rintro ⟨-, rfl⟩
          rfl
  · simp [hclock]

lemma lookupHeader_eq_ok_iff {name Name : String} {hash : H256} {found : Header} :
    lookupHeader header name Name hash = .ok found ↔ header hash = .ok (some found) := by
  unfold lookupHeader
  rcases header hash with e | _ | found'
  · simp
  · simp
  · simp

lemma merkleGenerateProof_eq_ok_iff :
    merkleGenerateProof backend header clock transition config = .ok proof ↔
      config.proofType = .custom "Merkle" ∧ ∃ source target root,
        header transition.preState.blockRef.hash = .ok (some source) ∧
        header transition.postState.blockRef.hash = .ok (some target) ∧
        backend.merkleRoot (merkleLeaves (transition.transitionProof.getD [])) = some root ∧
        PassesSize backend clock config (.custom "Merkle") root.bytes
          (merkleMetadata source target root) ∧
        proof = ⟨transition, stampedProof clock config (.custom "Merkle") root.bytes
          (merkleMetadata source target root)⟩ := by
  unfold merkleGenerateProof
  by_cases htype : config.proofType = .custom "Merkle"
  · simp only [htype, ne_eq, not_true_eq_false, if_false, Outcome.bind_eq_ok_iff,
      lookupHeader_eq_ok_iff, true_and]
    rcases backend.merkleRoot (merkleLeaves (transition.transitionProof.getD [])) with _ | root
    · simp
    · simp only [finishProof_eq_ok_iff, Option.some.injEq]
      constructor
      · rintro ⟨source, hsource, target, htarget, hpasses, rfl⟩
        exact ⟨source, target, root, hsource, htarget, rfl, hpasses, rfl⟩
      · rintro ⟨source, target, _, hsource, htarget, rfl, hpasses, rfl⟩
        exact ⟨source, hsource, target, htarget, hpasses, rfl⟩
  · simp [htype]

lemma blsGenerateProof_eq_ok_iff :
    blsGenerateProof backend header clock authoritySet transition config = .ok proof ↔
      config.proofType = .signature ∧ ∃ source target,
        header transition.preState.blockRef.hash = .ok (some source) ∧
        header transition.postState.blockRef.hash = .ok (some target) ∧
        PassesSize backend clock config .signature (List.replicate 96 0)
          (blsMetadata backend authoritySet source target) ∧
        proof = ⟨transition, stampedProof clock config .signature (List.replicate 96 0)
          (blsMetadata backend authoritySet source target)⟩ := by
  unfold blsGenerateProof
  by_cases htype : config.proofType = .signature
  · simp only [htype, ne_eq, not_true_eq_false, if_false, Outcome.bind_eq_ok_iff,
      lookupHeader_eq_ok_iff, finishProof_eq_ok_iff, true_and]
    constructor
    · rintro ⟨source, hsource, target, htarget, hpasses, rfl⟩
      exact ⟨source, target, hsource, htarget, hpasses, rfl⟩
    · rintro ⟨source, target, hsource, htarget, hpasses, rfl⟩
      exact ⟨source, hsource, target, htarget, hpasses, rfl⟩
  · simp [htype]

end FrostSubstrate
