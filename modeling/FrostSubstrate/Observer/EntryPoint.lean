/-
What `on_block_finalized` makes of its block reference.

The reference is taken apart into a notification, which has no chain id, and the handler makes a
new one with the default chain id.  To say which reference is asked about and which transitions
are made of it, the handler is written down once more with notes of these two (`Act`);
`observeBlockFinalized_restrict` shows that without the notes it is the handler.  The reference
survives exactly when its chain id is the default one (`refSurvives_iff`).
-/
import FrostSubstrate.Observer.Redelivery

namespace FrostSubstrate

open Traced

/-! ### The handler with notes -/

/-- What a call of the handler does: it asks whether a block is final, makes a transition of a
block reference, or has an effect. -/
inductive Act where
  | checked (blockRef : BlockRef)
  | generated (blockRef : BlockRef) (transition : StateTransition)
  | did (e : Effect)

/-- The effect, if it is one. -/
def Act.effect : Act → Option Effect
  | did e => some e
  | _ => none

section Observed

variable (defaults : FrostDefaults) (encodeProof : StateProof → Bytes) (w : Surroundings)

/-- The body of the loop, with notes. -/
def observeTarget (blockRef : BlockRef) (i : ℕ) (target : WatchTarget) :
    Traced Act ProtocolError Unit := do
  emit (.did (.evaluated blockRef i target))
  let matched ← lift (matchesWatchTarget (w.events i) blockRef target)
  if matched then
    let transition ← lift (.ofExcept (generateStateTransition defaults (w.now i) blockRef target))
    emit (.generated blockRef transition.into)
    let proof ← lift ((w.generateProof i transition.into .default).mapErr fun _ =>
      ErrorKind.proofGenerationFailed.toProtocolError)
    match w.router with
    | some router =>
      (routeMessage blockRef router i target (proofMessage encodeProof proof)).mapTrace .did
    | none => pure ()
  else pure ()

/-- `handle_finality_notification`, with notes. -/
def observeFinalityNotification (targets : List WatchTarget) (notification : FinalityNotification) :
    Traced Act ProtocolError Unit := do
  let blockNumber ← lift (.ofExcept
    ((tryIntoU64 notification.number).mapError ErrorKind.toProtocolError))
  let blockRef : BlockRef := ⟨defaults.chainId, blockNumber, notification.hash⟩
  emit (.checked blockRef)
  let isFinal ← lift (.ofExcept ((w.isFinal blockRef).mapError .finality))
  if !isFinal then pure ()
  else forEach (observeTarget defaults encodeProof w blockRef) 0 targets

/-- `on_block_finalized`, with notes. -/
def observeBlockFinalized (targets : List WatchTarget) (block : BlockRef) :
    Traced Act ProtocolError Unit :=
  if hnumber : block.number ≤ u32Max then
    observeFinalityNotification defaults encodeProof w targets ⟨block.hash, block.number, hnumber⟩
  else ⟨[], .err ErrorKind.invalidBlockNumber.toProtocolError⟩

variable {defaults encodeProof w} {blockRef block : BlockRef} {targets : List WatchTarget}
  {notification : FinalityNotification}

lemma observeTarget_restrict (i : ℕ) (target : WatchTarget) :
    (observeTarget defaults encodeProof w blockRef i target).restrict Act.effect
      = handleTarget defaults encodeProof w blockRef i target := by
  have heffect : ∀ e, Act.effect (.did e) = some e := fun _ => rfl
  have hemit : (emit (.did (.evaluated blockRef i target)) : Traced Act ProtocolError Unit).restrict
      Act.effect = emit (.evaluated blockRef i target) := restrict_emit_of_some rfl
  have hnote : ∀ transition, (emit (.generated blockRef transition) :
      Traced Act ProtocolError Unit).restrict Act.effect = pure () := fun _ =>
    restrict_emit_of_none rfl
  unfold observeTarget handleTarget
  rw [restrict_bind, hemit]
  congr 1
  funext _
  rw [restrict_bind, restrict_lift]
  congr 1
  funext matched
  cases matched with
  | false => rfl
  | true =>
    rw [if_pos rfl, if_pos rfl, restrict_bind, restrict_lift]
    congr 1
    funext transition
    rw [restrict_bind, hnote, restrict_bind, restrict_lift]
    cases w.router with
    | none => rfl
    | some router =>
      simp only [restrict_mapTrace heffect]
      rfl

/-- **The notes change nothing.**  Without them the call is that of `on_block_finalized`. -/
theorem observeBlockFinalized_restrict :
    (observeBlockFinalized defaults encodeProof w targets block).restrict Act.effect
      = onBlockFinalized defaults encodeProof w targets block := by
  unfold observeBlockFinalized onBlockFinalized
  by_cases hnumber : block.number ≤ u32Max
  · rw [dif_pos hnumber, dif_pos hnumber, observeFinalityNotification,
      handleFinalityNotification, restrict_bind, restrict_lift]
    congr 1
    funext blockNumber
    have hnote : (emit (.checked ⟨defaults.chainId, blockNumber, block.hash⟩) :
        Traced Act ProtocolError Unit).restrict Act.effect = pure () := restrict_emit_of_none rfl
    rw [restrict_bind, hnote]
    show (lift _ >>= _ : Traced Act ProtocolError Unit).restrict Act.effect = _
    rw [restrict_bind, restrict_lift]
    congr 1
    funext isFinal
    cases isFinal with
    | false => rfl
    | true =>
      show (forEach _ 0 targets).restrict Act.effect = forEach _ 0 targets
      rw [restrict_forEach]
      simp only [observeTarget_restrict]
  · rw [dif_neg hnumber, dif_neg hnumber]
    rfl

/-! ### The reference -/

/-- The note is about this block reference; a transition carries its chain id and number. -/
def Act.About (blockRef : BlockRef) : Act → Prop
  | checked r => r = blockRef
  | generated r transition =>
    r = blockRef ∧ transition.chainId = blockRef.chainId ∧
      transition.blockHeight = blockRef.number
  | did e => e.blockRef = blockRef

lemma observeTarget_about (i : ℕ) (target : WatchTarget) :
    ∀ act ∈ (observeTarget defaults encodeProof w blockRef i target).trace,
      act.About blockRef := by
  refine forall_mem_bind (forall_mem_emit rfl) fun _ _ => ?_
  refine forall_mem_bind forall_mem_lift fun matched _ => ?_
  cases matched with
  | false => exact forall_mem_lift
  | true =>
    rw [if_pos rfl]
    refine forall_mem_bind forall_mem_lift fun transition htransition => ?_
    have habout : (Act.generated blockRef transition.into).About blockRef := by
      obtain rfl := Outcome.ok.inj htransition
      exact ⟨rfl, rfl, rfl⟩
    refine forall_mem_bind (forall_mem_emit habout) fun _ _ => ?_
    refine forall_mem_bind forall_mem_lift fun proof _ => ?_
    cases w.router with
    | none => exact forall_mem_lift
    | some router =>
      intro act hact
      obtain ⟨e, he, rfl⟩ := List.mem_map.mp hact
      simp only [routeMessage] at he
      split at he
      · obtain rfl := List.mem_singleton.mp he
        rfl
      · obtain rfl := List.mem_singleton.mp he
        rfl

/-- A call for a number that fits starts by asking about the reference of its notification, and
everything it does is about that one. -/
lemma observeBlockFinalized_about (defaults : FrostDefaults) (encodeProof : StateProof → Bytes)
    (w : Surroundings) (targets : List WatchTarget) (hnumber : block.number ≤ u32Max) :
    (∃ acts, (observeBlockFinalized defaults encodeProof w targets block).trace
        = .checked ⟨defaults.chainId, block.number, block.hash⟩ :: acts) ∧
      ∀ act ∈ (observeBlockFinalized defaults encodeProof w targets block).trace,
        act.About ⟨defaults.chainId, block.number, block.hash⟩ := by
  have hconvert : tryIntoU64 block.number = .ok block.number :=
    if_pos (hnumber.trans (by decide))
  have hobserve : observeBlockFinalized defaults encodeProof w targets block
      = (emit (.checked ⟨defaults.chainId, block.number, block.hash⟩) >>= fun _ =>
        lift (.ofExcept ((w.isFinal ⟨defaults.chainId, block.number, block.hash⟩).mapError
          .finality)) >>= fun isFinal =>
          if !isFinal then pure ()
          else forEach (observeTarget defaults encodeProof w
            ⟨defaults.chainId, block.number, block.hash⟩) 0 targets) := by
    rw [observeBlockFinalized, dif_pos hnumber, observeFinalityNotification, hconvert]
    rfl
  rw [hobserve]
  refine ⟨⟨_, rfl⟩, ?_⟩
  refine forall_mem_bind (forall_mem_emit rfl) fun _ _ => ?_
  refine forall_mem_bind forall_mem_lift fun isFinal _ => ?_
  cases isFinal with
  | false => exact forall_mem_lift
  | true => exact forall_mem_forEach observeTarget_about

/-- The reference survives the entry point: a number that fits is asked about, and transitions
are made, under this very reference; one that does not fit is an error at once. -/
structure RefSurvives (defaults : FrostDefaults) (encodeProof : StateProof → Bytes)
    (w : Surroundings) (targets : List WatchTarget) (block : BlockRef) : Prop where
  checked : block.number ≤ u32Max → ∃ acts,
    (observeBlockFinalized defaults encodeProof w targets block).trace = .checked block :: acts
  about : block.number ≤ u32Max →
    ∀ act ∈ (observeBlockFinalized defaults encodeProof w targets block).trace, act.About block
  refused : ¬ block.number ≤ u32Max → ∃ err,
    observeBlockFinalized defaults encodeProof w targets block = ⟨[], .err err⟩

lemma RefSurvives.chainId_eq (h : RefSurvives defaults encodeProof w targets block)
    (hnumber : block.number ≤ u32Max) : block.chainId = defaults.chainId := by
  obtain ⟨acts, hacts⟩ := h.checked hnumber
  obtain ⟨acts', hacts'⟩ := (observeBlockFinalized_about defaults encodeProof w targets hnumber).1
  have hsame := hacts.symm.trans hacts'
  injection hsame with hhead
  injection hhead with href
  exact congrArg BlockRef.chainId href

/-- **The entry point.**  For every reference, all targets and whatever the outside answers, the
reference survives `on_block_finalized` exactly when its number does not fit or its chain id is
the default one. -/
theorem refSurvives_iff (defaults : FrostDefaults) (encodeProof : StateProof → Bytes)
    (w : Surroundings) (targets : List WatchTarget) (block : BlockRef) :
    RefSurvives defaults encodeProof w targets block ↔
      (block.number ≤ u32Max → block.chainId = defaults.chainId) := by
  constructor
  · intro h
    exact h.chainId_eq
  · intro hchain
    refine ⟨?_, ?_, ?_⟩
    · intro hnumber
      have hsame : (⟨defaults.chainId, block.number, block.hash⟩ : BlockRef) = block := by
        rw [← hchain hnumber]
      exact hsame ▸ (observeBlockFinalized_about defaults encodeProof w targets hnumber).1
    · intro hnumber
      have hsame : (⟨defaults.chainId, block.number, block.hash⟩ : BlockRef) = block := by
        rw [← hchain hnumber]
      have habout := (observeBlockFinalized_about defaults encodeProof w targets hnumber).2
      rwa [hsame] at habout
    · intro hnumber
      exact ⟨_, dif_neg hnumber⟩

end Observed

/-- A reference to a block of another chain than the default one. -/
def namedRef : BlockRef := ⟨⟨"polkadot"⟩, 2, .repeatByte 3⟩

/-- **The chain id is lost.**  The block is final and its event matches, but the reference asked
about and the transition made have no chain id. -/
theorem chainId_lost :
    ¬ RefSurvives zeroDefaults (fun _ => [1]) (rejecting []) [sampleTarget] namedRef ∧
      ∃ transition, Act.generated ⟨⟨""⟩, 2, .repeatByte 3⟩ transition ∈
          (observeBlockFinalized zeroDefaults (fun _ => [1]) (rejecting []) [sampleTarget]
            namedRef).trace ∧
        transition.chainId = ⟨""⟩ := by
  refine ⟨?_, ?_⟩
  · intro h
    exact absurd (h.chainId_eq (by decide)) (by decide)
  · exact ⟨_, List.mem_cons_of_mem _ (List.mem_cons_of_mem _ List.mem_cons_self), rfl⟩

end FrostSubstrate
