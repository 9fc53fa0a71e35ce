/-
Producer and consumer of a transition.

The handler passes the transition of `generate_state_transition` to the Merkle generator
with its default configuration.  The transition names default blocks and carries no data,
so the generator finds neither a target header nor a Merkle root: whatever the block and the
target are, no proof comes out.
-/
import FrostSubstrate.Observer.Transition
import FrostSubstrate.Proof.Generator

namespace FrostSubstrate

variable {Id : Type} {backend : ProofBackend Id} {header : H256 → Except String (Option Header)}
  {clock : ℕ → ℕ} {defaults : FrostDefaults} {now : ℕ} {blockRef : BlockRef}
  {target : WatchTarget} {transition : SSMPStateTransition}

lemma generateStateTransition_fields
    (h : generateStateTransition defaults now blockRef target = .ok transition) :
    transition.into.preState.blockRef = defaults.blockRef ∧
      transition.into.postState = defaults.stateRoot ∧
      transition.into.transitionProof = none := by
  obtain rfl := Except.ok.inj h
  exact ⟨rfl, rfl, rfl⟩

/-- **No observed transition is proved.**  Where the default state root names a block the client
does not know, or an empty list of leaves has no Merkle root, the generator rejects the
transition of every block and every target. -/
theorem observed_transition_rejected
    (hcause : header defaults.stateRoot.blockRef.hash = .ok none ∨ backend.merkleRoot [] = none)
    (htransition : generateStateTransition defaults now blockRef target = .ok transition) :
    ∃ text, merkleGenerateProof backend header clock transition.into .default
      = .err (.internal text) := by
  obtain ⟨-, hpost, hproof⟩ := generateStateTransition_fields htransition
  rcases hcause with hunknown | hroot
  · apply merkleGenerateProof_of_target_none
    rw [hpost]
    exact hunknown
  · apply merkleGenerateProof_of_root_none
    rw [hproof]
    exact hroot

/-! ### A finalized block with a known parent -/

/-- A backend whose tree of one leaf has this leaf as its root. -/
def sampleBackend : ProofBackend ℕ where
  merkleRoot leaves := leaves.head?
  proofJson _ := .ok []
  idBytes id := leBytes 8 id

/-- A client that knows blocks `1` and `2`, the second being finalized. -/
def sampleHeader (hash : H256) : Except String (Option Header) :=
  .ok ([⟨.repeatByte 2, .repeatByte 1, 1⟩, ⟨.repeatByte 3, .repeatByte 2, 2⟩].find? fun header =>
    header.hash == hash)

/-- The finalized block `2`. -/
def finalizedRef : BlockRef := ⟨⟨""⟩, 2, .repeatByte 3⟩

/-- **The generator rejects what the observer makes.**  The client knows the finalized block and
its parent, it does not know the zero hash, and no tree without leaves has a root. -/
theorem sampleTarget_rejected :
    sampleHeader finalizedRef.hash = .ok (some ⟨.repeatByte 3, .repeatByte 2, 2⟩) ∧
      sampleHeader (.repeatByte 2) = .ok (some ⟨.repeatByte 2, .repeatByte 1, 1⟩) ∧
      sampleHeader .zero = .ok none ∧
      zeroDefaults.stateRoot.blockRef.hash = .zero ∧
      sampleBackend.merkleRoot [] = none ∧
      ∃ transition, generateStateTransition zeroDefaults 0 finalizedRef sampleTarget
          = .ok transition ∧
        merkleGenerateProof sampleBackend sampleHeader id transition.into .default
          = .err (.internal "Source block not found") := by
  refine ⟨rfl, rfl, rfl, rfl, rfl, _, rfl, ?_⟩
  rfl

/-- The statement at this block and target. -/
theorem observed_transition_rejected_sampleTarget :
    ∃ text, merkleGenerateProof sampleBackend sampleHeader id
        (SSMPStateTransition.new 0 finalizedRef.chainId finalizedRef.number
          ⟨zeroDefaults.blockRef, .zero, none⟩ zeroDefaults.stateRoot [0x6d] [0x66] [0x63]).into
        .default = .err (.internal text) :=
  observed_transition_rejected (Or.inl rfl)
    (show generateStateTransition zeroDefaults 0 finalizedRef sampleTarget = .ok _ from rfl)

end FrostSubstrate
