/-
The registry of verifiers, and which verifier a generated proof gets to.

`VerificationRegistry::verify_proof` asks the first registered verifier that lists the type of
a proof.  The generators and the verifiers name the proof types in two modules: the BLS ones
agree on `Signature`, but the Merkle generator stamps `Custom("Merkle")` and `MerkleVerifier`
lists `Basic`.  No Merkle proof gets to the Merkle verifier, whatever else is registered.
-/
import FrostSubstrate.Proof.ObservedTransition

namespace FrostSubstrate

/-! ### Verifiers -/

/-- A verifier behind `dyn ProofVerifier`: one of the two of the repository, or another one by its
two methods. -/
inductive ProofVerifier (VerificationParams : Type) where
  | merkle
  | bls
  | other (supportedTypes : List ProofType)
      (verifyProof : StateProof → VerificationParams → Except StateError Bool)

namespace ProofVerifier

variable {VerificationParams : Type}

/-- `supported_types`. -/
def supportedTypes : ProofVerifier VerificationParams → List ProofType
  | merkle => [.basic]
  | bls => [.signature]
  | other supportedTypes _ => supportedTypes

/-- `verify_proof`; those of the repository are placeholders. -/
def verifyProof (proof : StateProof) (params : VerificationParams) :
    ProofVerifier VerificationParams → Except StateError Bool
  | merkle => .ok true
  | bls => .ok true
  | other _ verifyProof => verifyProof proof params

end ProofVerifier

/-- `StateProof::proof_type`. -/
def StateProof.proofType (proof : StateProof) : ProofType := proof.proofData.proofType

structure VerificationRegistry (VerificationParams : Type) where
  verifiers : List (ProofVerifier VerificationParams)

namespace VerificationRegistry

variable {VerificationParams : Type}

def new : VerificationRegistry VerificationParams := ⟨[]⟩

def registerVerifier (self : VerificationRegistry VerificationParams)
    (verifier : ProofVerifier VerificationParams) : VerificationRegistry VerificationParams :=
  ⟨self.verifiers ++ [verifier]⟩

/-- The loop of `verify_proof`. -/
def verifyFirst (proof : StateProof) (params : VerificationParams) :
    List (ProofVerifier VerificationParams) → Except StateError Bool
  | [] => .error (.internal "No suitable verifier found")
  | verifier :: verifiers =>
    if verifier.supportedTypes.contains proof.proofType then verifier.verifyProof proof params
    else verifyFirst proof params verifiers

def verifyProof (self : VerificationRegistry VerificationParams) (proof : StateProof)
    (params : VerificationParams) : Except StateError Bool :=
  verifyFirst proof params self.verifiers

/-- The verifier `verify_proof` uses is `verifier`: it lists the type of the proof, and none before
it does. -/
def Uses (self : VerificationRegistry VerificationParams) (proof : StateProof)
    (verifier : ProofVerifier VerificationParams) : Prop :=
  proof.proofType ∈ verifier.supportedTypes ∧
    ∃ before after, self.verifiers = before ++ verifier :: after ∧
      ∀ earlier ∈ before, proof.proofType ∉ earlier.supportedTypes

variable {self : VerificationRegistry VerificationParams} {proof : StateProof}
  {params : VerificationParams} {verifier : ProofVerifier VerificationParams}

lemma uses_iff_find? : self.Uses proof verifier ↔
    self.verifiers.find? (fun v => v.supportedTypes.contains proof.proofType) = some verifier := by
  rw [List.find?_eq_some_iff_append]
  constructor
  · rintro ⟨hsupports, before, after, hsplit, hbefore⟩
    exact ⟨by simpa using hsupports, before, after, hsplit, by simpa using hbefore⟩
  · rintro ⟨hsupports, before, after, hsplit, hbefore⟩
    exact ⟨by simpa using hsupports, before, after, hsplit, by simpa using hbefore⟩

lemma exists_uses_or_unsupported (self : VerificationRegistry VerificationParams)
    (proof : StateProof) : (∃ verifier, self.Uses proof verifier) ∨
      ∀ verifier ∈ self.verifiers, proof.proofType ∉ verifier.supportedTypes := by
  rcases hfind : self.verifiers.find? (fun v => v.supportedTypes.contains proof.proofType) with
    _ | verifier
  · right
    simpa using hfind
  · exact Or.inl ⟨verifier, uses_iff_find?.mpr hfind⟩

/-- The loop passes over the verifiers that do not list the type. -/
lemma verifyFirst_append {before verifiers : List (ProofVerifier VerificationParams)}
    (hbefore : ∀ earlier ∈ before, proof.proofType ∉ earlier.supportedTypes) :
    verifyFirst proof params (before ++ verifiers) = verifyFirst proof params verifiers := by
  induction before with
  | nil => rfl
  | cons earlier before ih =>
    have hskip : ¬ earlier.supportedTypes.contains proof.proofType = true := by
      simpa using hbefore earlier List.mem_cons_self
    rw [List.cons_append, verifyFirst, if_neg hskip,
      ih fun w hw => hbefore w (List.mem_cons_of_mem _ hw)]

/-- **What the registry answers.**  The verifier it uses decides. -/
theorem verifyProof_of_uses (h : self.Uses proof verifier) :
    self.verifyProof proof params = verifier.verifyProof proof params := by
  obtain ⟨hsupports, before, after, hsplit, hbefore⟩ := h
  rw [verifyProof, hsplit, verifyFirst_append hbefore, verifyFirst,
    if_pos (by simpa using hsupports)]

/-- A proof whose type no registered verifier lists is refused. -/
theorem verifyProof_of_unsupported
    (h : ∀ verifier ∈ self.verifiers, proof.proofType ∉ verifier.supportedTypes) :
    self.verifyProof proof params = .error (.internal "No suitable verifier found") := by
  rw [verifyProof, ← List.append_nil self.verifiers, verifyFirst_append h, verifyFirst]

end VerificationRegistry

/-! ### Generated proofs -/

section Dispatch

variable {Id VerificationParams : Type}

/-- A proof that a generator has returned, with the verifier that is meant for it. -/
inductive GeneratedFor (backend : ProofBackend Id) (header : H256 → Except String (Option Header))
    (clock : ℕ → ℕ) (authoritySet : AuthorityList Id) (transition : StateTransition)
    (config : ProofGenerationConfig) (proof : StateProof) :
    ProofVerifier VerificationParams → Prop
  | merkle (h : merkleGenerateProof backend header clock transition config = .ok proof) :
    GeneratedFor backend header clock authoritySet transition config proof .merkle
  | bls (h : blsGenerateProof backend header clock authoritySet transition config = .ok proof) :
    GeneratedFor backend header clock authoritySet transition config proof .bls

variable {backend : ProofBackend Id} {header : H256 → Except String (Option Header)}
  {clock : ℕ → ℕ} {authoritySet : AuthorityList Id} {transition : StateTransition}
  {config : ProofGenerationConfig} {proof : StateProof}
  {registry : VerificationRegistry VerificationParams}
  {verifier : ProofVerifier VerificationParams}

lemma proofType_of_merkle
    (h : merkleGenerateProof backend header clock transition config = .ok proof) :
    proof.proofType = .custom "Merkle" := by
  obtain ⟨-, source, target, root, -, -, -, -, rfl⟩ := merkleGenerateProof_eq_ok_iff.mp h
  rfl

lemma proofType_of_bls
    (h : blsGenerateProof backend header clock authoritySet transition config = .ok proof) :
    proof.proofType = .signature := by
  obtain ⟨-, source, target, -, -, -, rfl⟩ := blsGenerateProof_eq_ok_iff.mp h
  rfl

/-- **Where generated proofs go.**  A registry uses the verifier meant for a generated proof exactly
when the proof is one of the BLS generator and no verifier before the first BLS verifier lists
its type. -/
theorem uses_intended_iff
    (hgenerated : GeneratedFor backend header clock authoritySet transition config proof verifier) :
    registry.Uses proof verifier ↔
      verifier = .bls ∧ ∃ before after, registry.verifiers = before ++ .bls :: after ∧
        ∀ earlier ∈ before, .signature ∉ earlier.supportedTypes := by
  cases hgenerated with
  | merkle h =>
    have htype := proofType_of_merkle h
    constructor
    · rintro ⟨hsupports, -⟩
      rw [htype, ProofVerifier.supportedTypes] at hsupports
      exact absurd hsupports (by decide)
    · rintro ⟨hverifier, -⟩
      cases hverifier
  | bls h =>
    have htype := proofType_of_bls h
    constructor
    · rintro ⟨-, before, after, hsplit, hbefore⟩
      rw [htype] at hbefore
      exact ⟨rfl, before, after, hsplit, hbefore⟩
    · rintro ⟨-, before, after, hsplit, hbefore⟩
      rw [← htype] at hbefore
      refine ⟨?_, before, after, hsplit, hbefore⟩
      rw [htype]
      exact List.mem_singleton.mpr rfl

/-! ### A Merkle proof without a verifier -/

/-- A transition from block `1` to block `2` with one byte of data. -/
def provableTransition : StateTransition where
  chainId := ⟨""⟩
  blockHeight := 2
  preState := ⟨⟨⟨""⟩, 1, .repeatByte 2⟩, .zero, none⟩
  postState := ⟨finalizedRef, .zero, none⟩
  transitionProof := some [7]
  metadata := ⟨0, 1, .basic, none⟩

/-- A registry with the two verifiers of the repository and no other. -/
def bothVerifiers : VerificationRegistry Unit :=
  (VerificationRegistry.new.registerVerifier .merkle).registerVerifier .bls

/-- **A Merkle proof is refused.**  The Merkle generator returns a proof under the default
configuration, and a registry with both verifiers finds none for it. -/
theorem merkle_proof_refused :
    .merkle ∈ bothVerifiers.verifiers ∧ .bls ∈ bothVerifiers.verifiers ∧
      ∃ proof, merkleGenerateProof sampleBackend sampleHeader id provableTransition .default
          = .ok proof ∧
        bothVerifiers.verifyProof proof () = .error (.internal "No suitable verifier found") ∧
        ¬ bothVerifiers.Uses proof .merkle := by
  refine ⟨List.mem_cons_self, List.mem_cons_of_mem _ List.mem_cons_self, _, rfl, rfl, ?_⟩
  rintro ⟨hsupports, -⟩
  exact absurd (List.mem_singleton.mp hsupports) (by decide)

/-- The statement for a BLS proof in this registry. -/
theorem uses_intended_iff_bothVerifiers :
    ∃ proof, blsGenerateProof sampleBackend sampleHeader id [(1, 1)] provableTransition
        ⟨.signature, 1024, 60⟩ = .ok proof ∧
      (bothVerifiers.Uses proof .bls ↔
        ProofVerifier.bls = (.bls : ProofVerifier Unit) ∧
          ∃ before after, bothVerifiers.verifiers = before ++ .bls :: after ∧
            ∀ earlier ∈ before, .signature ∉ earlier.supportedTypes) := by
  obtain ⟨proof, hproof⟩ : ∃ proof, blsGenerateProof sampleBackend sampleHeader id [(1, 1)]
      provableTransition ⟨.signature, 1024, 60⟩ = .ok proof := ⟨_, rfl⟩
  exact ⟨proof, hproof, uses_intended_iff (.bls hproof)⟩

end Dispatch

end FrostSubstrate
