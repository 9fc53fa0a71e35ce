/-
What the order of registration means.

The registry asks the first verifier that lists the type of a proof.  Without the order, all that
can be said is that some verifier of this type answers, or none is there (`AnswerOf`), and the
registry always answers in this way (`verifyProof_answerOf`).  Where no two verifiers list one
type there is only one such answer, so the order does not matter (`registerAll_perm`).  And a
verifier that comes later is asked about nothing that an earlier one lists
(`verifyProof_registerMore`).
-/
import FrostSubstrate.Proof.Dispatch
import Mathlib.Data.List.Pairwise

namespace FrostSubstrate

namespace VerificationRegistry

variable {VerificationParams : Type}

/-- Register further verifiers, one after the other. -/
def registerMore (self : VerificationRegistry VerificationParams)
    (verifiers : List (ProofVerifier VerificationParams)) :
    VerificationRegistry VerificationParams :=
  verifiers.foldl registerVerifier self

/-- Register verifiers with a new registry. -/
def registerAll (verifiers : List (ProofVerifier VerificationParams)) :
    VerificationRegistry VerificationParams :=
  new.registerMore verifiers

/-- The verifiers have no proof type in common. -/
def DisjointTypes (verifier verifier' : ProofVerifier VerificationParams) : Prop :=
  verifier.supportedTypes.Disjoint verifier'.supportedTypes

instance : Std.Symm (@DisjointTypes VerificationParams) where
  symm _ _ h := h.symm

/-! ### Answers without an order -/

/-- What verifiers, in no order, may answer: any of them that lists the type of the proof does, and
if there is none the proof is refused. -/
inductive AnswerOf (verifiers : Set (ProofVerifier VerificationParams)) (proof : StateProof)
    (params : VerificationParams) : Except StateError Bool → Prop
  | verified (verifier : ProofVerifier VerificationParams) (hmem : verifier ∈ verifiers)
      (hsupports : proof.proofType ∈ verifier.supportedTypes) :
      AnswerOf verifiers proof params (verifier.verifyProof proof params)
  | refused (h : ∀ verifier ∈ verifiers, proof.proofType ∉ verifier.supportedTypes) :
      AnswerOf verifiers proof params (.error (.internal "No suitable verifier found"))

variable {self : VerificationRegistry VerificationParams} {proof : StateProof}
  {params : VerificationParams} {verifier : ProofVerifier VerificationParams}
  {verifiers verifiers' : List (ProofVerifier VerificationParams)}
  {s : Set (ProofVerifier VerificationParams)} {result result' : Except StateError Bool}

/-- **The registry answers as its verifiers may.** -/
theorem verifyProof_answerOf (self : VerificationRegistry VerificationParams) (proof : StateProof)
    (params : VerificationParams) :
    AnswerOf {verifier | verifier ∈ self.verifiers} proof params
      (self.verifyProof proof params) := by
  rcases self.exists_uses_or_unsupported proof with ⟨verifier, huses⟩ | hunsupported
  · rw [verifyProof_of_uses huses]
    obtain ⟨hsupports, before, after, hsplit, -⟩ := huses
    have hmem : verifier ∈ self.verifiers := by
      rw [hsplit]
      exact List.mem_append_right _ List.mem_cons_self
    exact .verified verifier hmem hsupports
  · rw [verifyProof_of_unsupported hunsupported]
    exact .refused hunsupported

lemma AnswerOf.unique (hdisjoint : s.Pairwise DisjointTypes) (h : AnswerOf s proof params result)
    (h' : AnswerOf s proof params result') : result = result' := by
  cases h with
  | verified verifier hmem hsupports =>
    cases h' with
    | verified verifier' hmem' hsupports' =>
      have hsame : verifier = verifier' := by
        by_contra hne
        exact hdisjoint hmem hmem' hne hsupports hsupports'
      rw [hsame]
    | refused hnone => exact absurd hsupports (hnone verifier hmem)
  | refused hnone =>
    cases h' with
    | verified verifier' hmem' hsupports' => exact absurd hsupports' (hnone verifier' hmem')
    | refused => rfl

/-! ### Registration -/

lemma verifiers_registerMore :
    (self.registerMore verifiers).verifiers = self.verifiers ++ verifiers := by
  induction verifiers generalizing self with
  | nil => exact (List.append_nil _).symm
  | cons verifier verifiers ih =>
    have hnext : (self.registerVerifier verifier).verifiers = self.verifiers ++ [verifier] := rfl
    show ((self.registerVerifier verifier).registerMore verifiers).verifiers = _
    rw [ih, hnext, List.append_assoc]
    rfl

lemma verifiers_registerAll : (registerAll verifiers).verifiers = verifiers :=
  verifiers_registerMore

lemma Uses.registerMore (h : self.Uses proof verifier)
    (later : List (ProofVerifier VerificationParams)) :
    (self.registerMore later).Uses proof verifier := by
  obtain ⟨hsupports, before, after, hsplit, hbefore⟩ := h
  refine ⟨hsupports, before, after ++ later, ?_, hbefore⟩
  rw [verifiers_registerMore, hsplit, List.append_assoc]
  rfl

/-- **Later verifiers do not interfere.**  However many are registered, what a registry answers
about a type that one of its verifiers lists stays the answer. -/
theorem verifyProof_registerMore (later : List (ProofVerifier VerificationParams))
    (hmem : verifier ∈ self.verifiers) (hsupports : proof.proofType ∈ verifier.supportedTypes) :
    (self.registerMore later).verifyProof proof params = self.verifyProof proof params := by
  rcases self.exists_uses_or_unsupported proof with ⟨used, huses⟩ | hunsupported
  · rw [verifyProof_of_uses huses, verifyProof_of_uses (huses.registerMore later)]
  · exact absurd hsupports (hunsupported verifier hmem)

/-- About a type that none of its verifiers lists a registry answers as the further verifier alone
would. -/
theorem verifyProof_registerVerifier_of_unsupported
    (hunsupported : ∀ earlier ∈ self.verifiers, proof.proofType ∉ earlier.supportedTypes) :
    (self.registerVerifier verifier).verifyProof proof params
      = (new.registerVerifier verifier).verifyProof proof params := by
  show verifyFirst proof params (self.verifiers ++ [verifier]) = verifyFirst proof params [verifier]
  exact verifyFirst_append hunsupported

/-- **The order does not matter** where no two of the verifiers list one type. -/
lemma registerAll_perm (hdisjoint : verifiers.Pairwise DisjointTypes)
    (hperm : verifiers.Perm verifiers') :
    (registerAll verifiers).verifyProof proof params
      = (registerAll verifiers').verifyProof proof params := by
  have hset : {verifier | verifier ∈ (registerAll verifiers).verifiers}
      = {verifier | verifier ∈ (registerAll verifiers').verifiers} := by
    ext verifier
    rw [verifiers_registerAll, verifiers_registerAll]
    exact hperm.mem_iff
  have hpairwise : {verifier | verifier ∈ (registerAll verifiers).verifiers}.Pairwise
      DisjointTypes := by
    rw [verifiers_registerAll]
    exact hdisjoint.set_pairwise
  have hanswer := verifyProof_answerOf (registerAll verifiers) proof params
  have hanswer' := verifyProof_answerOf (registerAll verifiers') proof params
  rw [← hset] at hanswer'
  exact hanswer.unique hpairwise hanswer'

/-- What a further verifier changes was refused before, as no earlier one lists its type. -/
lemma refused_of_registerVerifier_ne
    (hne : (self.registerVerifier verifier).verifyProof proof params
      ≠ self.verifyProof proof params) :
    (∀ earlier ∈ self.verifiers, proof.proofType ∉ earlier.supportedTypes) ∧
      self.verifyProof proof params = .error (.internal "No suitable verifier found") := by
  have hunsupported : ∀ earlier ∈ self.verifiers, proof.proofType ∉ earlier.supportedTypes := by
    intro earlier hmem hsupports
    exact hne (verifyProof_registerMore [verifier] hmem hsupports)
  exact ⟨hunsupported, verifyProof_of_unsupported hunsupported⟩

/-- **Registration.**  Verifiers without common types answer alike in every order of registration;
and in every registry a further verifier changes the answer only about proofs whose type no
earlier verifier lists, which were refused before. -/
theorem registration_order (VerificationParams : Type) :
    (∀ verifiers verifiers' : List (ProofVerifier VerificationParams),
      verifiers.Pairwise DisjointTypes → verifiers.Perm verifiers' → ∀ proof params,
        (registerAll verifiers).verifyProof proof params
          = (registerAll verifiers').verifyProof proof params) ∧
    (∀ (self : VerificationRegistry VerificationParams)
        (verifier : ProofVerifier VerificationParams) (proof : StateProof)
        (params : VerificationParams),
      (self.registerVerifier verifier).verifyProof proof params
        ≠ self.verifyProof proof params →
      (∀ earlier ∈ self.verifiers, proof.proofType ∉ earlier.supportedTypes) ∧
        self.verifyProof proof params = .error (.internal "No suitable verifier found")) := by
  constructor
  · intro verifiers verifiers' hdisjoint hperm proof params
    exact registerAll_perm hdisjoint hperm
  · intro self verifier proof params hne
    exact refused_of_registerVerifier_ne hne

/-! ### The verifiers of the repository -/

/-- A proof with a signature. -/
def signatureProof : StateProof := ⟨provableTransition, ⟨.signature, [], none, 0, none, 1⟩⟩

/-- The statement for the two verifiers of the repository, which have no type in common: both
orders answer alike, and what the BLS verifier adds to the Merkle verifier was refused before. -/
theorem registration_order_signatureProof :
    (registerAll [.merkle, .bls]).verifyProof signatureProof ()
        = (registerAll [.bls, .merkle]).verifyProof signatureProof () ∧
      (∀ earlier ∈ (registerAll [(.merkle : ProofVerifier Unit)]).verifiers,
        signatureProof.proofType ∉ earlier.supportedTypes) ∧
      (registerAll [.merkle]).verifyProof signatureProof ()
        = .error (.internal "No suitable verifier found") := by
  have hdisjoint : [ProofVerifier.merkle, .bls].Pairwise (@DisjointTypes Unit) := by
    rw [List.pairwise_pair]
    intro proofType hbasic hsignature
    obtain rfl := List.mem_singleton.mp hbasic
    exact absurd (List.mem_singleton.mp hsignature) (by decide)
  have hadded : (registerAll [(.merkle : ProofVerifier Unit), .bls]).verifyProof signatureProof ()
      ≠ (registerAll [.merkle]).verifyProof signatureProof () := by
    rintro ⟨⟩
  exact ⟨(registration_order Unit).1 _ _ hdisjoint (List.Perm.swap _ _ _) _ _,
    (registration_order Unit).2 (registerAll [.merkle]) .bls _ _ hadded⟩

end VerificationRegistry

end FrostSubstrate
