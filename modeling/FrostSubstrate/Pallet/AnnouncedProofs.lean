/-
Proofs that have been announced.

`generate_proof` announces its proof with an event of its type, and stores it under the hash of
the transition alone.  A transition therefore has one proof, that of the last announcement
(`proofs_of_announcements`), whatever the generators return.

With the two generators of the repository no proof is lost by this: the one chosen for a Merkle
proof refuses the type it is chosen for, so all announcements are of one type.
-/
import FrostSubstrate.Pallet.TransitionHistory
import FrostSubstrate.Proof.Dispatch

namespace FrostSubstrate

section Announced

variable {Hash Message : Type} [DecidableEq Hash]

/-- The type of the proof that an event announces for a transition. -/
def FrostEvent.announces (transitionHash : Hash) : FrostEvent Hash → Option ProofType
  | .proofGenerated h proofType => if h = transitionHash then some proofType else none
  | _ => none

/-- The types of the proofs announced for a transition, in the order of the events. -/
def announcements (transitionHash : Hash) (events : List (FrostEvent Hash)) : List ProofType :=
  events.filterMap (FrostEvent.announces transitionHash)

/-- The last announcement for the transition is that of this proof: a call of the history
generated it, as a proof of this type, and no later one announces another. -/
def LastAnnounced (T : FrostTypes Hash Message) (proofConfig : PalletProofConfig)
    (history : List (Extrinsic Hash Message)) (transitionHash : Hash) (proofType : ProofType)
    (proof : StateProof) : Prop :=
  ∃ before x after transition generator, history = before ++ x :: after ∧
    x.origin = .signed ∧ x.call = .generateProof transitionHash proofType ∧
    dispatchResult T x (storeAfter T proofConfig before) = .ok () ∧
    (storeAfter T proofConfig before).transitions transitionHash = some transition ∧
    x.env.generator proofType = some generator ∧
    generator.generateProof transition
      ((storeAfter T proofConfig before).proofConfig.setProofType proofType) = .ok proof ∧
    announcements transitionHash (storeAfter T proofConfig history).events
      = announcements transitionHash (storeAfter T proofConfig before).events ++ [proofType]

variable {T : FrostTypes Hash Message} {proofConfig : PalletProofConfig}
  {history : List (Extrinsic Hash Message)} {x : Extrinsic Hash Message} {transitionHash : Hash}
  {proofType : ProofType} {proof : StateProof} {events : List (FrostEvent Hash)}
  {event : FrostEvent Hash}

/-! ### Announcements -/

lemma mem_announcements_iff :
    proofType ∈ announcements transitionHash events ↔
      FrostEvent.proofGenerated transitionHash proofType ∈ events := by
  simp only [announcements, List.mem_filterMap]
  constructor
  · rintro ⟨event, hmem, hannounces⟩
    cases event with
    | proofGenerated h t =>
      simp only [FrostEvent.announces, Option.ite_none_right_eq_some, Option.some.injEq]
        at hannounces
      obtain ⟨rfl, rfl⟩ := hannounces
      exact hmem
    | transitionRecorded h => cases hannounces
    | messageVerified h => cases hannounces
    | stateFinalized blockRef => cases hannounces
  · intro hmem
    exact ⟨_, hmem, if_pos rfl⟩

lemma announcements_concat_of_some (h : event.announces transitionHash = some proofType) :
    announcements transitionHash (events ++ [event])
      = announcements transitionHash events ++ [proofType] := by
  rw [announcements, List.filterMap_append, List.filterMap_cons_some h]
  rfl

lemma announcements_concat_of_none (h : event.announces transitionHash = none) :
    announcements transitionHash (events ++ [event]) = announcements transitionHash events := by
  rw [announcements, List.filterMap_append, List.filterMap_cons_none h, List.filterMap_nil,
    List.append_nil]
  rfl

/-! ### One call -/

/-- The announcements of a transition and its stored proof stay as they were. -/
def SameProof (transitionHash : Hash) (s s' : FrostStore Hash Message) : Prop :=
  s'.proofs transitionHash = s.proofs transitionHash ∧
    announcements transitionHash s'.events = announcements transitionHash s.events

/-- A call announces and stores a proof for the transition, or leaves both as they were. -/
lemma dispatch_announces (transitionHash : Hash) (x : Extrinsic Hash Message)
    (s : FrostStore Hash Message) :
    SameProof transitionHash s (dispatchStore T s x) ∨
      ∃ proofType transition generator proof, x.origin = .signed ∧
        x.call = .generateProof transitionHash proofType ∧ dispatchResult T x s = .ok () ∧
        s.transitions transitionHash = some transition ∧
        x.env.generator proofType = some generator ∧
        generator.generateProof transition (s.proofConfig.setProofType proofType) = .ok proof ∧
        (dispatchStore T s x).proofs transitionHash = some proof ∧
        announcements transitionHash (dispatchStore T s x).events
          = announcements transitionHash s.events ++ [proofType] := by
  rcases dispatch_ends (T := T) x s with ⟨e, -, hstore⟩ | ⟨hsigned, hok, hwrites⟩
  · rw [hstore]
    exact Or.inl ⟨rfl, rfl⟩
  · generalize dispatchStore T s x = s' at hwrites
    cases hwrites with
    | recordTransition hcall hvalid hfinal =>
      have hnone : (x.event T).announces transitionHash = none := by
        rw [Extrinsic.event, hcall]
        rfl
      exact Or.inl ⟨rfl, announcements_concat_of_none hnone⟩
    | verifyMessage hcall hvalid hgenerator hverified =>
      have hnone : (x.event T).announces transitionHash = none := by
        rw [Extrinsic.event, hcall]
        rfl
      exact Or.inl ⟨rfl, announcements_concat_of_none hnone⟩
    | @generateProof h proofType transition generator proof hcall hstored hgenerator hproof hsize =>
      by_cases hh : h = transitionHash
      · subst hh
        have hsome : (x.event T).announces h = some proofType := by
          rw [Extrinsic.event, hcall]
          exact if_pos rfl
        exact Or.inr ⟨proofType, transition, generator, proof, hsigned, hcall, hok, hstored,
          hgenerator, hproof, Function.update_self _ _ _, announcements_concat_of_some hsome⟩
      · have hnone : (x.event T).announces transitionHash = none := by
          rw [Extrinsic.event, hcall]
          exact if_neg hh
        exact Or.inl ⟨Function.update_of_ne (Ne.symm hh) _ _, announcements_concat_of_none hnone⟩

/-! ### Runs -/

lemma LastAnnounced.concat (h : LastAnnounced T proofConfig history transitionHash proofType proof)
    (hsame : announcements transitionHash (storeAfter T proofConfig (history ++ [x])).events
      = announcements transitionHash (storeAfter T proofConfig history).events) :
    LastAnnounced T proofConfig (history ++ [x]) transitionHash proofType proof := by
  obtain ⟨before, y, after, transition, generator, rfl, hsigned, hcall, hok, hstored, hgenerator,
    hproof, hlast⟩ := h
  exact ⟨before, y, after ++ [x], transition, generator, by simp, hsigned, hcall, hok, hstored,
    hgenerator, hproof, hsame.trans hlast⟩

/-- A transition without announcements has no proof, and one with announcements has that of the
last. -/
lemma proofs_of_announcements (T : FrostTypes Hash Message) (proofConfig : PalletProofConfig)
    (transitionHash : Hash) (history : List (Extrinsic Hash Message)) :
    (announcements transitionHash (storeAfter T proofConfig history).events = [] ∧
      (storeAfter T proofConfig history).proofs transitionHash = none) ∨
    ∃ proofType proof,
      (announcements transitionHash (storeAfter T proofConfig history).events).getLast?
        = some proofType ∧
      (storeAfter T proofConfig history).proofs transitionHash = some proof ∧
      LastAnnounced T proofConfig history transitionHash proofType proof := by
  induction history using List.reverseRecOn with
  | nil => exact Or.inl ⟨rfl, rfl⟩
  | append_singleton history x ih =>
    have hafter : storeAfter T proofConfig (history ++ [x])
        = dispatchStore T (storeAfter T proofConfig history) x := storeAfter_concat
    rcases dispatch_announces (T := T) transitionHash x (storeAfter T proofConfig history) with
      ⟨hproofs, hannounced⟩ | ⟨proofType, transition, generator, proof, hsigned, hcall, hok,
        hstored, hgenerator, hproof, hproofs, hannounced⟩
    · rw [← hafter] at hproofs hannounced
      rcases ih with ⟨hnone, hempty⟩ | ⟨proofType, proof, hlast, hproof, hmade⟩
      · exact Or.inl ⟨hannounced.trans hnone, hproofs.trans hempty⟩
      · exact Or.inr ⟨proofType, proof, hannounced ▸ hlast, hproofs.trans hproof,
          hmade.concat hannounced⟩
    · rw [← hafter] at hproofs hannounced
      refine Or.inr ⟨proofType, proof, ?_, hproofs, history, x, [], transition, generator, rfl,
        hsigned, hcall, hok, hstored, hgenerator, hproof, hannounced⟩
      rw [hannounced, List.getLast?_concat]

/-! ### The generators of the repository -/

/-- What the boxed generator returns, this generator returns for a configuration of the same proof
type.  The configuration of the pallet is of another type, so the limits stay open. -/
def Boxes (generate : StateTransition → ProofGenerationConfig → Outcome StateError StateProof)
    (boxed : BoxedGenerator) : Prop :=
  ∀ transition config proof, boxed.generateProof transition config = .ok proof →
    ∃ limits : ProofGenerationConfig, limits.proofType = config.proofType ∧
      generate transition limits = .ok proof

/-- The call boxes `MerkleProofGenerator` and `BLSProofGenerator`, over some client, clock and
authority set. -/
structure BoxesGenerators (Id : Type) (env : CallEnvironment) : Prop where
  merkle : ∃ (backend : ProofBackend Id) (header : H256 → Except String (Option Header))
    (clock : ℕ → ℕ), Boxes (merkleGenerateProof backend header clock) env.merkle
  bls : ∃ (backend : ProofBackend Id) (header : H256 → Except String (Option Header))
    (clock : ℕ → ℕ) (authoritySet : AuthorityList Id),
    Boxes (blsGenerateProof backend header clock authoritySet) env.bls

variable {Id : Type} {env : CallEnvironment} {generator : BoxedGenerator}
  {transition : StateTransition} {config : PalletProofConfig}

/-- A call returns signature proofs only: the generator for Merkle proofs wants another type. -/
lemma BoxesGenerators.signature_of_ok (h : BoxesGenerators Id env)
    (hgenerator : env.generator proofType = some generator)
    (hproof : generator.generateProof transition (config.setProofType proofType) = .ok proof) :
    proofType = .signature ∧ proof.proofData.proofType = .signature := by
  cases proofType with
  | basic => cases hgenerator
  | custom name => cases hgenerator
  | merkle =>
    obtain rfl : env.merkle = generator := Option.some.inj hgenerator
    obtain ⟨backend, header, clock, hboxes⟩ := h.merkle
    obtain ⟨limits, hlimits, hmade⟩ := hboxes _ _ _ hproof
    have hcustom : limits.proofType = .custom "Merkle" := (merkleGenerateProof_eq_ok_iff.mp hmade).1
    rw [hlimits] at hcustom
    cases hcustom
  | signature =>
    obtain rfl : env.bls = generator := Option.some.inj hgenerator
    obtain ⟨backend, header, clock, authoritySet, hboxes⟩ := h.bls
    obtain ⟨limits, -, hmade⟩ := hboxes _ _ _ hproof
    obtain ⟨-, source, target, -, -, -, rfl⟩ := blsGenerateProof_eq_ok_iff.mp hmade
    exact ⟨rfl, rfl⟩

lemma BoxesGenerators.dispatchStore_of_ne (h : BoxesGenerators Id x.env)
    (hcall : x.call = .generateProof transitionHash proofType) (hne : proofType ≠ .signature)
    (s : FrostStore Hash Message) : dispatchStore T s x = s := by
  rcases dispatch_ends (T := T) x s with ⟨e, -, hstore⟩ | ⟨-, -, hwrites⟩
  · exact hstore
  · generalize dispatchStore T s x = s' at hwrites
    cases hwrites with
    | recordTransition hother => cases hcall.symm.trans hother
    | verifyMessage hother => cases hcall.symm.trans hother
    | generateProof hother hstored hgenerator hproof hsize =>
      cases hcall.symm.trans hother
      exact absurd (h.signature_of_ok hgenerator hproof).1 hne

lemma announcements_signature
    (hgenerators : ∀ x ∈ history, BoxesGenerators Id x.env)
    (hmem : proofType ∈ announcements transitionHash (storeAfter T proofConfig history).events) :
    proofType = .signature := by
  induction history using List.reverseRecOn with
  | nil => cases hmem
  | append_singleton history x ih =>
    have hbefore : ∀ y ∈ history, BoxesGenerators Id y.env := fun y hy =>
      hgenerators y (List.mem_append_left _ hy)
    have hx : BoxesGenerators Id x.env :=
      hgenerators x (List.mem_append_right _ (List.mem_singleton_self x))
    rw [storeAfter_concat] at hmem
    rcases dispatch_announces (T := T) transitionHash x (storeAfter T proofConfig history) with
      ⟨-, hsame⟩ | ⟨last, transition, generator, proof, -, -, -, -, hgenerator, hproof, -,
        hannounced⟩
    · rw [hsame] at hmem
      exact ih hbefore hmem
    · rw [hannounced, List.mem_append, List.mem_singleton] at hmem
      rcases hmem with hearlier | rfl
      · exact ih hbefore hearlier
      · exact (hx.signature_of_ok hgenerator hproof).1

lemma LastAnnounced.signature
    (h : LastAnnounced T proofConfig history transitionHash proofType proof)
    (hgenerators : ∀ x ∈ history, BoxesGenerators Id x.env) :
    proof.proofData.proofType = .signature := by
  obtain ⟨before, x, after, transition, generator, rfl, -, -, -, -, hgenerator, hproof, -⟩ := h
  have hx : BoxesGenerators Id x.env := hgenerators x (List.mem_append_right _ List.mem_cons_self)
  exact (hx.signature_of_ok hgenerator hproof).2

/-- **Announced proofs stay available.**  Whatever history of calls to the two generators of the
repository has led to an announcement, a proof of the announced type is stored for its transition;
and a call for a proof of another type changes nothing. -/
theorem announced_proofs_available (T : FrostTypes Hash Message) (proofConfig : PalletProofConfig)
    (history : List (Extrinsic Hash Message))
    (hgenerators : ∀ x ∈ history, BoxesGenerators Id x.env) (transitionHash : Hash)
    (proofType : ProofType)
    (hannounced : FrostEvent.proofGenerated transitionHash proofType
      ∈ (storeAfter T proofConfig history).events) :
    (∃ proof, (storeAfter T proofConfig history).proofs transitionHash = some proof ∧
        proof.proofData.proofType = proofType) ∧
      ∀ x other, BoxesGenerators Id x.env → x.call = .generateProof transitionHash other →
        other ≠ proofType →
        storeAfter T proofConfig (history ++ [x]) = storeAfter T proofConfig history := by
  have hmem := mem_announcements_iff.mpr hannounced
  obtain rfl := announcements_signature hgenerators hmem
  constructor
  · rcases proofs_of_announcements T proofConfig transitionHash history with
      ⟨hnone, -⟩ | ⟨last, proof, -, hproof, hmade⟩
    · rw [hnone] at hmem
      cases hmem
    · exact ⟨proof, hproof, hmade.signature hgenerators⟩
  · intro x other hx hcall hne
    rw [storeAfter_concat]
    exact hx.dispatchStore_of_ne hcall hne _

end Announced

/-! ### A transition that is proved twice -/

/-- The answer of a generator behind `Box<dyn ProofGenerator>`; there is no proof after a panic. -/
def boxAnswer : Outcome StateError StateProof → Except StateError StateProof
  | .ok proof => .ok proof
  | .err e => .error e
  | .panicked => .error (.internal "panicked")

lemma boxAnswer_eq_ok_iff {outcome : Outcome StateError StateProof} {proof : StateProof} :
    boxAnswer outcome = .ok proof ↔ outcome = .ok proof := by
  cases outcome <;> simp [boxAnswer]

/-- The configuration of a generator with the limits of the pallet. -/
def PalletProofConfig.limits (config : PalletProofConfig) : ProofGenerationConfig where
  proofType := config.proofType
  maxProofSize := config.maxSize
  proofTtl := config.timeout

/-- The two generators over the blocks `1` and `2`, while every block is final. -/
def sampleEnvironment : CallEnvironment where
  isFinal _ := .ok true
  merkle := {
    generateProof := fun transition config =>
      boxAnswer (merkleGenerateProof sampleBackend sampleHeader id transition config.limits)
    verifyProof := fun _ _ => .ok true }
  bls := {
    generateProof := fun transition config =>
      boxAnswer (blsGenerateProof sampleBackend sampleHeader id [(1, 1)] transition config.limits)
    verifyProof := fun _ _ => .ok true }

lemma boxesGenerators_sampleEnvironment : BoxesGenerators ℕ sampleEnvironment where
  merkle := ⟨sampleBackend, sampleHeader, id, fun _ config _ hproof =>
    ⟨config.limits, rfl, boxAnswer_eq_ok_iff.mp hproof⟩⟩
  bls := ⟨sampleBackend, sampleHeader, id, [(1, 1)], fun _ config _ hproof =>
    ⟨config.limits, rfl, boxAnswer_eq_ok_iff.mp hproof⟩⟩

/-- A signed call in this environment. -/
def sampleExtrinsic (call : FrostCall Unit Unit) : Extrinsic Unit Unit :=
  ⟨.signed, sampleEnvironment, call⟩

/-- A transition is recorded; a signature proof is made of it, a Merkle proof is refused, and the
signature proof is made again. -/
def twiceProvedHistory : List (Extrinsic Unit Unit) :=
  [.recordTransition provableTransition, .generateProof () .signature, .generateProof () .merkle,
    .generateProof () .signature].map sampleExtrinsic

/-- The statement for this history, which announces two proofs, and for one more Merkle proof. -/
theorem announced_proofs_available_twice :
    (storeAfter collidingTypes .default twiceProvedHistory).events
        = [.transitionRecorded (), .proofGenerated () .signature,
          .proofGenerated () .signature] ∧
      (∃ proof, (storeAfter collidingTypes .default twiceProvedHistory).proofs () = some proof ∧
        proof.proofData.proofType = .signature) ∧
      storeAfter collidingTypes .default
          (twiceProvedHistory ++ [sampleExtrinsic (.generateProof () .merkle)])
        = storeAfter collidingTypes .default twiceProvedHistory := by
  have hgenerators : ∀ x ∈ twiceProvedHistory, BoxesGenerators ℕ x.env := by
    intro x hx
    obtain ⟨call, -, rfl⟩ := List.mem_map.mp hx
    exact boxesGenerators_sampleEnvironment
  have havailable := announced_proofs_available collidingTypes .default twiceProvedHistory
    hgenerators () .signature (List.mem_cons_of_mem _ List.mem_cons_self)
  exact ⟨rfl, havailable.1,
    havailable.2 _ .merkle boxesGenerators_sampleEnvironment rfl (by decide)⟩

end FrostSubstrate
