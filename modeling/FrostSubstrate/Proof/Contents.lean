/-
What the data of a generated proof says, and what it does not.

The metadata names the two blocks and, with the Merkle root or the authority set, is all that the
data depends on besides the stamp.  So two proofs have the same data exactly when they are about
the same blocks, with one root or one authority set, and have the same stamp.  The states before
and after, the height and the metadata of a transition do not come in, and for BLS its data does
not either: proofs of different transitions between two blocks are not told apart.
-/
import FrostSubstrate.Lib.PrefixCode
import FrostSubstrate.Proof.MerkleRoot

namespace FrostSubstrate

/-! ### Different bytes are written differently -/

lemma hexDigit_inj {m n : ℕ} (hm : m < 16) (hn : n < 16) (h : hexDigit m = hexDigit n) : m = n := by
  have hall : ∀ m : Fin 16, ∀ n : Fin 16, hexDigit m = hexDigit n → m = n := by decide
  exact congrArg Fin.val (hall ⟨m, hm⟩ ⟨n, hn⟩ h)

theorem hexEncode_injective : Function.Injective hexEncode := by
  have hbytes : Function.Injective
      fun b : UInt8 => [hexDigit (b.toNat / 16), hexDigit (b.toNat % 16)] := by
    intro b b' h
    obtain ⟨hhigh, hrest⟩ := List.cons.inj h
    have hb := b.toNat_lt
    have hb' := b'.toNat_lt
    have hdiv := hexDigit_inj (by omega) (by omega) hhigh
    have hmod := hexDigit_inj (by omega) (by omega) (List.cons.inj hrest).1
    exact UInt8.toNat_inj.mp (by omega)
  intro data data' h
  exact PrefixCode.flatMap_injective Nat.zero_lt_two (fun _ => rfl) hbytes (String.ofList_inj.mp h)

lemma blockJson_injective : Function.Injective blockJson := by
  rintro ⟨hash, parentHash, number⟩ ⟨hash', parentHash', number'⟩ h
  simp only [blockJson, Json.obj.injEq, List.cons.injEq, Prod.mk.injEq, Json.num.injEq,
    Json.str.injEq, Nat.cast_inj, true_and, and_true] at h
  obtain ⟨rfl, hhash, hparent⟩ := h
  obtain rfl := H256.ext (hexEncode_injective hhash)
  obtain rfl := H256.ext (hexEncode_injective hparent)
  rfl

/-! ### Data that is filled up -/

/-- Some data with zeros at the end, up to the next multiple of 32 bytes. -/
def zeroFilled (data : Bytes) : Bytes :=
  data ++ List.replicate ((32 - data.length % 32) % 32) 0

lemma flatMap_merkleLeaves_eq (data : Bytes) :
    (merkleLeaves data).flatMap H256.bytes = zeroFilled data := by
  obtain ⟨k, hk, hleaves⟩ := flatMap_merkleLeaves data
  have hlength := congrArg List.length hleaves
  have hwidth : ∀ l : List H256, (l.flatMap H256.bytes).length = 32 * l.length := by
    intro l
    simp [List.length_flatMap, H256.length_eq, Nat.mul_comm]
  rw [hwidth, List.length_append, List.length_replicate] at hlength
  have hfill : k = (32 - data.length % 32) % 32 := by omega
  rw [hleaves, hfill]
  rfl

/-- The leaves say what the data is up to this filling. -/
lemma merkleLeaves_eq_iff {data data' : Bytes} :
    merkleLeaves data = merkleLeaves data' ↔ zeroFilled data = zeroFilled data' := by
  rw [← flatMap_merkleLeaves_eq, ← flatMap_merkleLeaves_eq]
  have hbytes : Function.Injective H256.bytes := fun _ _ h => H256.ext h
  exact (PrefixCode.flatMap_injective (by decide) H256.length_eq hbytes).eq_iff.symm

section Contents

variable {Id : Type} {backend : ProofBackend Id} {header : H256 → Except String (Option Header)}
  {clock clock' : ℕ → ℕ} {config config' : ProofGenerationConfig}
  {transition transition' : StateTransition} {authoritySet authoritySet' : AuthorityList Id}
  {proof proof' : StateProof} {source target source' target' : Header} {root root' : H256}

/-! ### What the data is made of -/

/-- The two transitions lead from one block to another one. -/
structure SameBlocks (transition transition' : StateTransition) : Prop where
  source : transition.preState.blockRef.hash = transition'.preState.blockRef.hash
  target : transition.postState.blockRef.hash = transition'.postState.blockRef.hash

/-- Two proofs get the same times. -/
structure SameStamp (clock : ℕ → ℕ) (config : ProofGenerationConfig) (clock' : ℕ → ℕ)
    (config' : ProofGenerationConfig) : Prop where
  generatedAt : clock 0 = clock' 0
  expiresAt : clock 1 + config.proofTtl = clock' 1 + config'.proofTtl

lemma stampedProof_eq_iff {proofType : ProofType} {data data' : Bytes} {metadata metadata' : Json} :
    stampedProof clock config proofType data metadata
        = stampedProof clock' config' proofType data' metadata' ↔
      data = data' ∧ metadata = metadata' ∧ SameStamp clock config clock' config' := by
  simp only [stampedProof, ProofData.mk.injEq, true_and, and_true, Option.some.injEq]
  constructor
  · rintro ⟨hdata, hmetadata, hgenerated, hexpires⟩
    exact ⟨hdata, hmetadata, hgenerated, hexpires⟩
  · rintro ⟨hdata, hmetadata, hgenerated, hexpires⟩
    exact ⟨hdata, hmetadata, hgenerated, hexpires⟩

lemma merkleMetadata_eq_iff :
    merkleMetadata source target root = merkleMetadata source' target' root' ↔
      source = source' ∧ target = target' ∧ root = root' := by
  constructor
  · intro h
    simp only [merkleMetadata, Json.obj.injEq, List.cons.injEq, Prod.mk.injEq, Json.str.injEq,
      true_and, and_true] at h
    obtain ⟨hsource, htarget, hroot⟩ := h
    exact ⟨blockJson_injective hsource, blockJson_injective htarget,
      H256.ext (hexEncode_injective hroot)⟩
  · rintro ⟨rfl, rfl, rfl⟩
    rfl

lemma authorityJson_injective (hid : Function.Injective backend.idBytes) :
    Function.Injective fun authority : Id × ℕ => Json.obj [
      ("id", .str (hexEncode (backend.idBytes authority.1))), ("weight", .num authority.2)] := by
  rintro ⟨id, weight⟩ ⟨id', weight'⟩ h
  simp only [Json.obj.injEq, List.cons.injEq, Prod.mk.injEq, Json.str.injEq, Json.num.injEq,
    Nat.cast_inj, true_and, and_true] at h
  obtain ⟨hbytes, rfl⟩ := h
  rw [hid (hexEncode_injective hbytes)]

lemma blsMetadata_eq_iff (hid : Function.Injective backend.idBytes) :
    blsMetadata backend authoritySet source target
        = blsMetadata backend authoritySet' source' target' ↔
      authoritySet = authoritySet' ∧ source = source' ∧ target = target' := by
  constructor
  · intro h
    simp only [blsMetadata, Json.obj.injEq, List.cons.injEq, Prod.mk.injEq, Json.arr.injEq,
      true_and, and_true] at h
    obtain ⟨hauthorities, hsource, htarget⟩ := h
    exact ⟨(authorityJson_injective hid).list_map hauthorities, blockJson_injective hsource,
      blockJson_injective htarget⟩
  · rintro ⟨rfl, rfl, rfl⟩
    rfl

/-- The client knows blocks by their hashes. -/
def Honest (header : H256 → Except String (Option Header)) : Prop :=
  ∀ hash found, header hash = .ok (some found) → found.hash = hash

lemma Honest.header_eq_iff (h : Honest header) {hash hash' : H256} {found found' : Header}
    (hfound : header hash = .ok (some found)) (hfound' : header hash' = .ok (some found')) :
    found = found' ↔ hash = hash' := by
  constructor
  · rintro rfl
    exact (h _ _ hfound).symm.trans (h _ _ hfound')
  · rintro rfl
    exact Option.some.inj (Except.ok.inj (hfound.symm.trans hfound'))

lemma merkleProofData_eq_iff (hhonest : Honest header)
    (h : merkleGenerateProof backend header clock transition config = .ok proof)
    (h' : merkleGenerateProof backend header clock' transition' config' = .ok proof') :
    proof.proofData = proof'.proofData ↔ SameBlocks transition transition' ∧
      backend.merkleRoot (merkleLeaves (transition.transitionProof.getD []))
        = backend.merkleRoot (merkleLeaves (transition'.transitionProof.getD [])) ∧
      SameStamp clock config clock' config' := by
  obtain ⟨-, source, target, root, hsource, htarget, hroot, -, rfl⟩ :=
    merkleGenerateProof_eq_ok_iff.mp h
  obtain ⟨-, source', target', root', hsource', htarget', hroot', -, rfl⟩ :=
    merkleGenerateProof_eq_ok_iff.mp h'
  rw [stampedProof_eq_iff, merkleMetadata_eq_iff, hhonest.header_eq_iff hsource hsource',
    hhonest.header_eq_iff htarget htarget', hroot, hroot', Option.some.injEq]
  constructor
  · rintro ⟨-, ⟨hpre, hpost, hroots⟩, hstamp⟩
    exact ⟨⟨hpre, hpost⟩, hroots, hstamp⟩
  · rintro ⟨⟨hpre, hpost⟩, hroots, hstamp⟩
    exact ⟨congrArg H256.bytes hroots, ⟨hpre, hpost, hroots⟩, hstamp⟩

lemma blsProofData_eq_iff (hhonest : Honest header) (hid : Function.Injective backend.idBytes)
    (h : blsGenerateProof backend header clock authoritySet transition config = .ok proof)
    (h' : blsGenerateProof backend header clock' authoritySet' transition' config' = .ok proof') :
    proof.proofData = proof'.proofData ↔ SameBlocks transition transition' ∧
      authoritySet = authoritySet' ∧ SameStamp clock config clock' config' := by
  obtain ⟨-, source, target, hsource, htarget, -, rfl⟩ := blsGenerateProof_eq_ok_iff.mp h
  obtain ⟨-, source', target', hsource', htarget', -, rfl⟩ := blsGenerateProof_eq_ok_iff.mp h'
  rw [stampedProof_eq_iff, blsMetadata_eq_iff hid, hhonest.header_eq_iff hsource hsource',
    hhonest.header_eq_iff htarget htarget']
  constructor
  · rintro ⟨-, ⟨hauthorities, hpre, hpost⟩, hstamp⟩
    exact ⟨⟨hpre, hpost⟩, hauthorities, hstamp⟩
  · rintro ⟨⟨hpre, hpost⟩, hauthorities, hstamp⟩
    exact ⟨rfl, ⟨hauthorities, hpre, hpost⟩, hstamp⟩

/-! ### What does not come in -/

/-- The proof with another transition in it. -/
def StateProof.withTransition (transition : StateTransition) (proof : StateProof) : StateProof :=
  ⟨transition, proof.proofData⟩

lemma finishProof_withTransition {proofType : ProofType} {data : Bytes} {metadata : Json} :
    finishProof backend clock transition' config proofType data metadata
      = (finishProof backend clock transition config proofType data metadata >>= fun proof =>
          .ok (proof.withTransition transition')) := by
  unfold finishProof
  rcases addDuration (clock 1) config.proofTtl with expiresAt | e | _
  · simp only [Outcome.ok_bind]
    rcases backend.proofJson _ with e | encoded
    · rfl
    · simp only [mapError_ok, Outcome.ofExcept_ok, Outcome.ok_bind]
      split_ifs with hsize
      · rfl
      · rfl
  · rfl
  · rfl

lemma merkleGenerateProof_withTransition (hblocks : SameBlocks transition transition')
    (hdata : zeroFilled (transition.transitionProof.getD [])
      = zeroFilled (transition'.transitionProof.getD [])) :
    merkleGenerateProof backend header clock transition' config
      = (merkleGenerateProof backend header clock transition config >>= fun proof =>
          .ok (proof.withTransition transition')) := by
  unfold merkleGenerateProof
  rw [← hblocks.source, ← hblocks.target, ← merkleLeaves_eq_iff.mpr hdata]
  split_ifs
  · rfl
  · simp only [bind_assoc]
    congr 1
    funext source
    congr 1
    funext target
    rcases backend.merkleRoot (merkleLeaves (transition.transitionProof.getD [])) with _ | root
    · rfl
    · exact finishProof_withTransition

lemma blsGenerateProof_withTransition (hblocks : SameBlocks transition transition') :
    blsGenerateProof backend header clock authoritySet transition' config
      = (blsGenerateProof backend header clock authoritySet transition config >>= fun proof =>
          .ok (proof.withTransition transition')) := by
  unfold blsGenerateProof
  rw [← hblocks.source, ← hblocks.target]
  split_ifs
  · rfl
  · simp only [bind_assoc]
    congr 1
    funext source
    congr 1
    funext target
    exact finishProof_withTransition

variable (backend) in
/-- **What the data of a proof says.**  For a client that knows blocks by their hashes: two Merkle
proofs have the same data exactly when they are about the same blocks, with one root and one stamp,
and two BLS proofs when they are about the same blocks, with one authority set and one stamp.  And
nothing else of a transition comes in: transitions between the same blocks have the same result,
error or proof, for BLS always, and for Merkle when their data is the same up to the zeros that
fill up the last chunk. -/
theorem proof_contents (hhonest : Honest header) (hid : Function.Injective backend.idBytes) :
    (∀ clock clock' transition transition' config config' proof proof',
      merkleGenerateProof backend header clock transition config = .ok proof →
      merkleGenerateProof backend header clock' transition' config' = .ok proof' →
      (proof.proofData = proof'.proofData ↔ SameBlocks transition transition' ∧
        backend.merkleRoot (merkleLeaves (transition.transitionProof.getD []))
          = backend.merkleRoot (merkleLeaves (transition'.transitionProof.getD [])) ∧
        SameStamp clock config clock' config')) ∧
    (∀ clock clock' authoritySet authoritySet' transition transition' config config' proof proof',
      blsGenerateProof backend header clock authoritySet transition config = .ok proof →
      blsGenerateProof backend header clock' authoritySet' transition' config' = .ok proof' →
      (proof.proofData = proof'.proofData ↔ SameBlocks transition transition' ∧
        authoritySet = authoritySet' ∧ SameStamp clock config clock' config')) ∧
    (∀ clock transition transition' config, SameBlocks transition transition' →
      zeroFilled (transition.transitionProof.getD [])
        = zeroFilled (transition'.transitionProof.getD []) →
      merkleGenerateProof backend header clock transition' config
        = (merkleGenerateProof backend header clock transition config >>= fun proof =>
            .ok (proof.withTransition transition'))) ∧
    ∀ clock authoritySet transition transition' config, SameBlocks transition transition' →
      blsGenerateProof backend header clock authoritySet transition' config
        = (blsGenerateProof backend header clock authoritySet transition config >>= fun proof =>
            .ok (proof.withTransition transition')) := by
  refine ⟨?_, ?_, ?_, ?_⟩
  · intro clock clock' transition transition' config config' proof proof' h h'
    exact merkleProofData_eq_iff hhonest h h'
  · intro clock clock' authoritySet authoritySet' transition transition' config config' proof proof'
      h h'
    exact blsProofData_eq_iff hhonest hid h h'
  · intro clock transition transition' config hblocks hdata
    exact merkleGenerateProof_withTransition hblocks hdata
  · intro clock authoritySet transition transition' config hblocks
    exact blsGenerateProof_withTransition hblocks

end Contents

/-! ### Two transitions with one proof -/

/-- Authorities are known by their public keys, of 32 bytes. -/
def keyBackend : ProofBackend H256 where
  merkleRoot leaves := leaves.head?
  proofJson _ := .ok []
  idBytes id := id.bytes

/-- The sample transition with a zero behind its data, and another state after it. -/
def paddedTransition : StateTransition := { provableTransition with
  postState := { provableTransition.postState with rootHash := .repeatByte 9 }
  transitionProof := some [7, 0] }

lemma sampleHeader_honest : Honest sampleHeader := by
  intro hash found h
  have hfound := List.find?_some (Except.ok.inj h)
  exact beq_iff_eq.mp hfound

/-- The statement for these two transitions: both generators give them the same data. -/
theorem proof_contents_padded :
    (∃ proof proof', merkleGenerateProof keyBackend sampleHeader id provableTransition .default
        = .ok proof ∧
      merkleGenerateProof keyBackend sampleHeader id paddedTransition .default = .ok proof' ∧
      proof.proofData = proof'.proofData) ∧
    ∃ proof proof', blsGenerateProof keyBackend sampleHeader id [(.zero, 1)] provableTransition
        ⟨.signature, 1024, 60⟩ = .ok proof ∧
      blsGenerateProof keyBackend sampleHeader id [(.zero, 1)] paddedTransition
        ⟨.signature, 1024, 60⟩ = .ok proof' ∧
      proof.proofData = proof'.proofData := by
  obtain ⟨hmerkle, hbls, -, -⟩ := proof_contents keyBackend sampleHeader_honest
    fun _ _ h => H256.ext h
  refine ⟨⟨_, _, rfl, rfl, ?_⟩, ⟨_, _, rfl, rfl, ?_⟩⟩
  · exact (hmerkle id id provableTransition paddedTransition .default .default _ _ rfl rfl).mpr
      ⟨⟨rfl, rfl⟩, rfl, rfl, rfl⟩
  · exact (hbls id id [(.zero, 1)] [(.zero, 1)] provableTransition paddedTransition
      ⟨.signature, 1024, 60⟩ ⟨.signature, 1024, 60⟩ _ _ rfl rfl).mpr ⟨⟨rfl, rfl⟩, rfl, rfl, rfl⟩

end FrostSubstrate
