/-
What `max_proof_size` limits.

Both generators check the length of the JSON text of the proof data, of which only the low 32 bits
are compared.  What is sent is the encoding of the whole proof, with the transition in it, and of
the transition the checks see no more than its blocks and, for Merkle, its data.  So the limit is
kept for transitions of every size only where the generator admits none of them
(`withinLimit_everywhere_iff`).
-/
import FrostSubstrate.Proof.Contents

namespace FrostSubstrate

/-- Every proof of a call is encoded within the limit. -/
def WithinLimit (encodeProof : StateProof → Bytes) (config : ProofGenerationConfig)
    (generated : Outcome StateError StateProof) : Prop :=
  ∀ proof, generated = .ok proof → (encodeProof proof).length ≤ config.maxProofSize

section Limit

variable {Id : Type} (backend : ProofBackend Id) (header : H256 → Except String (Option Header))
  (clock : ℕ → ℕ) (authoritySet : AuthorityList Id) (transition : StateTransition)
  (config : ProofGenerationConfig)

/-- What the Merkle generator checks: the type is the supported one, the client knows both blocks,
the data has a root, and the proof data passes. -/
def MerkleAdmits : Prop :=
  config.proofType = .custom "Merkle" ∧ ∃ source target root,
    header transition.preState.blockRef.hash = .ok (some source) ∧
    header transition.postState.blockRef.hash = .ok (some target) ∧
    backend.merkleRoot (merkleLeaves (transition.transitionProof.getD [])) = some root ∧
    PassesSize backend clock config (.custom "Merkle") root.bytes
      (merkleMetadata source target root)

/-- What the BLS generator checks: the type is the supported one, the client knows both blocks, and
the proof data passes. -/
def BlsAdmits : Prop :=
  config.proofType = .signature ∧ ∃ source target,
    header transition.preState.blockRef.hash = .ok (some source) ∧
    header transition.postState.blockRef.hash = .ok (some target) ∧
    PassesSize backend clock config .signature (List.replicate 96 0)
      (blsMetadata backend authoritySet source target)

variable {backend header clock authoritySet transition config} {encodeProof : StateProof → Bytes}

/-! ### When the limit is kept -/

lemma merkleAdmits_iff :
    MerkleAdmits backend header clock transition config ↔
      ∃ proof, merkleGenerateProof backend header clock transition config = .ok proof := by
  simp only [merkleGenerateProof_eq_ok_iff]
  constructor
  · rintro ⟨htype, source, target, root, hsource, htarget, hroot, hpasses⟩
    exact ⟨_, htype, source, target, root, hsource, htarget, hroot, hpasses, rfl⟩
  · rintro ⟨_, htype, source, target, root, hsource, htarget, hroot, hpasses, -⟩
    exact ⟨htype, source, target, root, hsource, htarget, hroot, hpasses⟩

lemma blsAdmits_iff :
    BlsAdmits backend header clock authoritySet transition config ↔
      ∃ proof, blsGenerateProof backend header clock authoritySet transition config
        = .ok proof := by
  simp only [blsGenerateProof_eq_ok_iff]
  constructor
  · rintro ⟨htype, source, target, hsource, htarget, hpasses⟩
    exact ⟨_, htype, source, target, hsource, htarget, hpasses, rfl⟩
  · rintro ⟨_, htype, source, target, hsource, htarget, hpasses, -⟩
    exact ⟨htype, source, target, hsource, htarget, hpasses⟩

/-- A generator that only puts the transition in keeps the limit for a family of transitions that
has encodings of every length only where it returns nothing. -/
lemma forall_withinLimit_iff {family : StateTransition → Prop}
    {generate : StateTransition → Outcome StateError StateProof}
    (hgenerate : ∀ transition', family transition' →
      generate transition' = (generate transition >>= fun proof =>
        .ok (proof.withTransition transition')))
    (hlong : ∀ proofData n, ∃ transition', family transition' ∧
      n < (encodeProof ⟨transition', proofData⟩).length) :
    (∀ transition', family transition' → WithinLimit encodeProof config (generate transition')) ↔
      ¬ ∃ proof, generate transition = .ok proof := by
  constructor
  · rintro hwithin ⟨proof, hproof⟩
    obtain ⟨transition', hfamily, hexceeds⟩ := hlong proof.proofData config.maxProofSize
    have hgenerated : generate transition' = .ok (proof.withTransition transition') := by
      rw [hgenerate transition' hfamily, hproof]
      rfl
    exact absurd hexceeds (hwithin transition' hfamily _ hgenerated).not_gt
  · intro hnone transition' hfamily proof hgenerated
    rw [hgenerate transition' hfamily, Outcome.bind_eq_ok_iff] at hgenerated
    obtain ⟨proof', hproof', -⟩ := hgenerated
    exact absurd ⟨proof', hproof'⟩ hnone

/-- **When the limit is kept.**  Let the encoding of a proof be as long as one likes for transitions
between the same blocks with the same data.  Then the Merkle generator keeps the limit for all of
them exactly when it admits none, and the BLS generator for all transitions between the same
blocks. -/
theorem withinLimit_everywhere_iff
    (hlong : ∀ transition proofData n, ∃ transition', SameBlocks transition transition' ∧
      transition'.transitionProof = transition.transitionProof ∧
      n < (encodeProof ⟨transition', proofData⟩).length) :
    ((∀ transition', SameBlocks transition transition' →
        transition'.transitionProof = transition.transitionProof →
        WithinLimit encodeProof config
          (merkleGenerateProof backend header clock transition' config)) ↔
      ¬ MerkleAdmits backend header clock transition config) ∧
    ((∀ transition', SameBlocks transition transition' → WithinLimit encodeProof config
        (blsGenerateProof backend header clock authoritySet transition' config)) ↔
      ¬ BlsAdmits backend header clock authoritySet transition config) := by
  constructor
  · rw [merkleAdmits_iff]
    simp only [← and_imp]
    refine forall_withinLimit_iff ?_ fun proofData n => ?_
    · rintro transition' ⟨hblocks, hdata⟩
      exact merkleGenerateProof_withTransition hblocks (by rw [hdata])
    · obtain ⟨transition', hblocks, hdata, hexceeds⟩ := hlong transition proofData n
      exact ⟨transition', ⟨hblocks, hdata⟩, hexceeds⟩
  · rw [blsAdmits_iff]
    refine forall_withinLimit_iff (fun _ => blsGenerateProof_withTransition) fun proofData n => ?_
    obtain ⟨transition', hblocks, -, hexceeds⟩ := hlong transition proofData n
    exact ⟨transition', hblocks, hexceeds⟩

/-- Only the low 32 bits of the length are compared: a text of a multiple of 4 GiB passes under
every limit. -/
lemma passesSize_of_dvd {proofType : ProofType} {data encoded : Bytes} {metadata : Json}
    (hclock : clock 1 + config.proofTtl ≤ maxSystemTime)
    (hjson : backend.proofJson (stampedProof clock config proofType data metadata) = .ok encoded)
    (hdvd : 2 ^ 32 ∣ encoded.length) :
    PassesSize backend clock config proofType data metadata := by
  refine ⟨hclock, encoded, hjson, ?_⟩
  rw [Nat.mod_eq_zero_of_dvd hdvd]
  exact Nat.zero_le _

lemma merkleLeaves_cons (byte : UInt8) (data : Bytes) :
    ∃ leaf leaves, merkleLeaves (byte :: data) = leaf :: leaves := by
  rw [merkleLeaves, List.length_cons, chunks32, List.map_cons]
  exact ⟨_, _, rfl⟩

end Limit

/-! ### Two mebibytes under a limit of one -/

/-- A backend whose JSON texts have the given length. -/
def jsonBackend (length : ℕ) : ProofBackend ℕ :=
  { sampleBackend with proofJson := fun _ => .ok (List.replicate length 0x20) }

/-- The name in the metadata of the transition, its data, and the data of the proof, one after the
other. -/
def sampleEncode (proof : StateProof) : Bytes :=
  (match proof.transition.metadata.proofType with
    | .custom name => name.toList.map fun c => UInt8.ofNat c.toNat
    | _ => []) ++ (proof.transition.transitionProof.getD [] ++ proof.proofData.data)

lemma sampleEncode_long (transition : StateTransition) (proofData : ProofData) (n : ℕ) :
    ∃ transition', SameBlocks transition transition' ∧
      transition'.transitionProof = transition.transitionProof ∧
      n < (sampleEncode ⟨transition', proofData⟩).length := by
  refine ⟨{ transition with metadata := { transition.metadata with
    proofType := .custom (String.ofList (List.replicate (n + 1) 'a')) } }, ⟨rfl, rfl⟩, rfl, ?_⟩
  simp only [sampleEncode, List.length_append, List.length_map, String.toList_ofList,
    List.length_replicate]
  omega

/-- The statement for a transition between known blocks, under the default limit and under one
kibibyte. -/
theorem withinLimit_everywhere_iff_provable :
    ((∀ transition', SameBlocks provableTransition transition' →
        transition'.transitionProof = provableTransition.transitionProof →
        WithinLimit sampleEncode .default
          (merkleGenerateProof (jsonBackend 700) sampleHeader id transition' .default)) ↔
      ¬ MerkleAdmits (jsonBackend 700) sampleHeader id provableTransition .default) ∧
    ((∀ transition', SameBlocks provableTransition transition' →
        WithinLimit sampleEncode .default
          (blsGenerateProof (jsonBackend 700) sampleHeader id [(1, 1)] transition' .default)) ↔
      ¬ BlsAdmits (jsonBackend 700) sampleHeader id [(1, 1)] provableTransition .default) :=
  withinLimit_everywhere_iff sampleEncode_long

/-- The transition with other data in it. -/
def StateTransition.withData (transition : StateTransition) (data : Bytes) : StateTransition :=
  { transition with transitionProof := some data }

/-- **The limit is not kept.**  Under the default limit of one mebibyte the Merkle generator returns
a proof for a transition with two mebibytes of data, its JSON text having 700 bytes; and a BLS
proof passes under a limit of one kibibyte when its JSON text has 4 GiB. -/
theorem two_mebibytes_pass :
    ¬ WithinLimit sampleEncode .default (merkleGenerateProof (jsonBackend 700) sampleHeader id
        (provableTransition.withData (List.replicate (2 ^ 21) 7)) .default) ∧
      ¬ WithinLimit (fun _ => List.replicate (2 ^ 32) 0) ⟨.signature, 1024, 60⟩
        (blsGenerateProof (jsonBackend (2 ^ 32)) sampleHeader id [(1, 1)] provableTransition
          ⟨.signature, 1024, 60⟩) := by
  constructor
  · intro hwithin
    obtain ⟨leaf, leaves, hleaves⟩ := merkleLeaves_cons 7 (List.replicate (2 ^ 21 - 1) 7)
    have hroot : (jsonBackend 700).merkleRoot (merkleLeaves (List.replicate (2 ^ 21) 7))
        = some leaf := by
      rw [show 2 ^ 21 = (2 ^ 21 - 1) + 1 from rfl, List.replicate_succ, hleaves]
      rfl
    have hpasses : PassesSize (jsonBackend 700) id .default (.custom "Merkle") leaf.bytes
        (merkleMetadata ⟨.repeatByte 2, .repeatByte 1, 1⟩ ⟨.repeatByte 3, .repeatByte 2, 2⟩
          leaf) := by
      refine ⟨by decide, _, rfl, ?_⟩
      rw [List.length_replicate]
      decide
    have hlimit := hwithin _ (merkleGenerateProof_eq_ok_iff.mpr
      ⟨rfl, _, _, leaf, rfl, rfl, hroot, hpasses, rfl⟩)
    have hlength : ∀ proofData : ProofData, 2 ^ 21 ≤ (sampleEncode
        ⟨provableTransition.withData (List.replicate (2 ^ 21) 7), proofData⟩).length := by
      intro proofData
      simp only [sampleEncode, StateTransition.withData, Option.getD_some, List.length_append,
        List.length_replicate]
      omega
    exact absurd ((hlength _).trans hlimit) (by decide)
  · intro hwithin
    have hpasses : PassesSize (jsonBackend (2 ^ 32)) id ⟨.signature, 1024, 60⟩ .signature
        (List.replicate 96 0) (blsMetadata (jsonBackend (2 ^ 32)) [(1, 1)]
          ⟨.repeatByte 2, .repeatByte 1, 1⟩ ⟨.repeatByte 3, .repeatByte 2, 2⟩) := by
      refine passesSize_of_dvd (by decide) rfl ?_
      rw [List.length_replicate]
    have hlimit := hwithin _ (blsGenerateProof_eq_ok_iff.mpr ⟨rfl, _, _, rfl, rfl, hpasses, rfl⟩)
    rw [List.length_replicate] at hlimit
    exact absurd hlimit (by decide)

end FrostSubstrate
