/-
The handler of a finality notification.

`handle_finality_notification` asks whether the block is final, takes a snapshot of the
registered targets and goes through it: search the events, make a transition, have it
proved, hand the proof to the router.  Every step that fails returns from the handler with
`?`, so it also ends the loop for the targets that follow.

What the outside answers during one call is a `Surroundings`; the answers to the target at
place `i` of the snapshot are numbered by `i`, so that any assignment of outcomes to the
targets is one of them.  `Fate` is what becomes of one target under these answers, and
`handleTarget_trace` and `handleTarget_isOk` connect it with the body of the loop.
-/
import FrostSubstrate.Observer.Transition
import FrostSubstrate.Proof.Generator

namespace FrostSubstrate

open Traced

/-- `FinalityNotification` of a block with a `u32` number; its justification is never read. -/
structure FinalityNotification where
  hash : H256
  number : ℕ
  number_le : number ≤ u32Max

/-- The answers of the finality predicate, the runtime, the clock, the proof generator and the
router, if there is one, during one call of the handler. -/
structure Surroundings where
  isFinal : BlockRef → Except FinalityError Bool
  events : ℕ → H256 → Except String (List Bytes)
  now : ℕ → ℕ
  generateProof : ℕ → StateTransition → ProofGenerationConfig → Outcome StateError StateProof
  router : Option (ℕ → FrostMessage → Except String Unit)

/-- What the handler does to the outside for the target at place `index` of the snapshot: a
call of `matches_watch_target`, or one of `route_message` with whether it succeeded. -/
inductive Effect where
  | evaluated (blockRef : BlockRef) (index : ℕ) (target : WatchTarget)
  | routed (blockRef : BlockRef) (index : ℕ) (target : WatchTarget) (message : FrostMessage)
      (accepted : Bool)
deriving DecidableEq

namespace Effect

def blockRef : Effect → BlockRef
  | evaluated blockRef _ _ => blockRef
  | routed blockRef _ _ _ _ => blockRef

def index : Effect → ℕ
  | evaluated _ index _ => index
  | routed _ index _ _ _ => index

end Effect

/-- `u64::try_from(number)`. -/
def tryIntoU64 (number : ℕ) : Except ErrorKind ℕ :=
  if number ≤ u64Max then .ok number else .error .invalidBlockNumber

variable (defaults : FrostDefaults) (encodeProof : StateProof → Bytes) (w : Surroundings)
  (blockRef : BlockRef)

/-- The message that carries a proof. -/
def proofMessage (proof : StateProof) : FrostMessage :=
  ⟨.stateTransition, encodeProof proof, "source", none⟩

/-- `router.route_message(message).await.map_err(..)`. -/
def routeMessage (router : ℕ → FrostMessage → Except String Unit) (i : ℕ) (target : WatchTarget)
    (message : FrostMessage) : Traced Effect ProtocolError Unit :=
  match router i message with
  | .ok () => ⟨[.routed blockRef i target message true], .ok ()⟩
  | .error _ => ⟨[.routed blockRef i target message false],
      .err ErrorKind.messageRoutingFailed.toProtocolError⟩

/-- The body of the loop of `handle_finality_notification`. -/
def handleTarget (i : ℕ) (target : WatchTarget) : Traced Effect ProtocolError Unit := do
  emit (.evaluated blockRef i target)
  let matched ← lift (matchesWatchTarget (w.events i) blockRef target)
  if matched then
    let transition ← lift (.ofExcept (generateStateTransition defaults (w.now i) blockRef target))
    let proof ← lift ((w.generateProof i transition.into .default).mapErr fun _ =>
      ErrorKind.proofGenerationFailed.toProtocolError)
    match w.router with
    | some router => routeMessage blockRef router i target (proofMessage encodeProof proof)
    | none => pure ()
  else pure ()

/-- The block reference the handler makes of a notification. -/
def notifiedRef (notification : FinalityNotification) : BlockRef :=
  ⟨defaults.chainId, notification.number, notification.hash⟩

/-- `SSMPObserver::handle_finality_notification` with the snapshot `targets`. -/
def handleFinalityNotification (targets : List WatchTarget) (notification : FinalityNotification) :
    Traced Effect ProtocolError Unit := do
  -- the conversion of the hash to 32 bytes has nothing to fail on
  let blockNumber ← lift (.ofExcept
    ((tryIntoU64 notification.number).mapError ErrorKind.toProtocolError))
  let blockRef : BlockRef := ⟨defaults.chainId, blockNumber, notification.hash⟩
  let isFinal ← lift (.ofExcept ((w.isFinal blockRef).mapError .finality))
  if !isFinal then pure ()
  else forEach (handleTarget defaults encodeProof w blockRef) 0 targets

/-! ### The fate of a target -/

/-- What becomes of a target: its events do not match; they do and there is no router; its
message is accepted or refused by the router; its matching or its proof fails, or panics. -/
inductive Fate where
  | unmatched
  | unrouted
  | delivered (message : FrostMessage)
  | refused (message : FrostMessage)
  | failed
  | crashed

namespace Fate

/-- The calls of the router on behalf of the target. -/
def effects (i : ℕ) (target : WatchTarget) : Fate → List Effect
  | delivered message => [.routed blockRef i target message true]
  | refused message => [.routed blockRef i target message false]
  | _ => []

/-- Whether the handler goes on to the next target. -/
def succeeds : Fate → Bool
  | unmatched | unrouted | delivered _ => true
  | refused _ | failed | crashed => false

end Fate

/-- The fate of the target at place `i`, from the answers to it alone. -/
def fate (i : ℕ) (target : WatchTarget) : Fate :=
  match matchesWatchTarget (w.events i) blockRef target with
  | .ok false => .unmatched
  | .ok true =>
    match generateStateTransition defaults (w.now i) blockRef target with
    | .ok transition =>
      match w.generateProof i transition.into .default with
      | .ok proof =>
        match w.router with
        | none => .unrouted
        | some router =>
          match router i (proofMessage encodeProof proof) with
          | .ok () => .delivered (proofMessage encodeProof proof)
          | .error _ => .refused (proofMessage encodeProof proof)
      | .err _ => .failed
      | .panicked => .crashed
    | .error _ => .failed
  | .err _ => .failed
  | .panicked => .crashed

variable {defaults encodeProof w blockRef} {i : ℕ} {target : WatchTarget}
  {targets : List WatchTarget} {notification : FinalityNotification}

/-- One round of the loop evaluates its target, calls the router as its fate says, and goes on
exactly when its fate is a success. -/
lemma handleTarget_spec :
    (handleTarget defaults encodeProof w blockRef i target).trace
        = .evaluated blockRef i target ::
          (fate defaults encodeProof w blockRef i target).effects blockRef i target ∧
      (handleTarget defaults encodeProof w blockRef i target).isOk
        = (fate defaults encodeProof w blockRef i target).succeeds := by
  unfold handleTarget fate
  simp only [emit, lift_eq, mk_ok_bind]
  rcases matchesWatchTarget (w.events i) blockRef target with (_ | _) | e | _
  · exact ⟨rfl, rfl⟩
  · rcases generateStateTransition defaults (w.now i) blockRef target with e | transition
    · exact ⟨rfl, rfl⟩
    · simp only [Outcome.ofExcept_ok, mk_ok_bind, if_true]
      rcases w.generateProof i transition.into .default with proof | e | _
      · rcases w.router with _ | router
        · exact ⟨rfl, rfl⟩
        · simp only [Outcome.mapErr, mk_ok_bind, routeMessage]
          rcases router i (proofMessage encodeProof proof) with e | _
          · exact ⟨rfl, rfl⟩
          · exact ⟨rfl, rfl⟩
      · exact ⟨rfl, rfl⟩
      · exact ⟨rfl, rfl⟩
  · exact ⟨rfl, rfl⟩
  · exact ⟨rfl, rfl⟩

lemma handleTarget_trace :
    (handleTarget defaults encodeProof w blockRef i target).trace
      = .evaluated blockRef i target ::
        (fate defaults encodeProof w blockRef i target).effects blockRef i target :=
  handleTarget_spec.1

lemma handleTarget_isOk :
    (handleTarget defaults encodeProof w blockRef i target).isOk
      = (fate defaults encodeProof w blockRef i target).succeeds :=
  handleTarget_spec.2

lemma Fate.mem_effects {e : Effect} {f : Fate} (he : e ∈ f.effects blockRef i target) :
    e.blockRef = blockRef ∧ e.index = i := by
  cases f with
  | delivered message =>
    obtain rfl := List.mem_singleton.mp he
    exact ⟨rfl, rfl⟩
  | refused message =>
    obtain rfl := List.mem_singleton.mp he
    exact ⟨rfl, rfl⟩
  | unmatched => cases he
  | unrouted => cases he
  | failed => cases he
  | crashed => cases he

lemma handleTarget_effect {e : Effect}
    (he : e ∈ (handleTarget defaults encodeProof w blockRef i target).trace) :
    e.blockRef = blockRef ∧ e.index = i := by
  rw [handleTarget_trace, List.mem_cons] at he
  rcases he with rfl | he
  · exact ⟨rfl, rfl⟩
  · exact Fate.mem_effects he

/-! ### The loop -/

/-- The number of a notification always converts, so the handler starts with the verdict on
the notified block. -/
lemma handle_eq :
    handleFinalityNotification defaults encodeProof w targets notification
      = (lift (.ofExcept ((w.isFinal (notifiedRef defaults notification)).mapError .finality))
          >>= fun isFinal =>
            if !isFinal then pure ()
            else forEach (handleTarget defaults encodeProof w (notifiedRef defaults notification))
              0 targets) := by
  have hnumber : tryIntoU64 notification.number = .ok notification.number :=
    if_pos (notification.number_le.trans (by decide))
  rw [handleFinalityNotification, hnumber]
  rfl

lemma handle_of_not_final (h : w.isFinal (notifiedRef defaults notification) = .ok false) :
    handleFinalityNotification defaults encodeProof w targets notification = ⟨[], .ok ()⟩ := by
  rw [handle_eq, h]
  rfl

lemma handle_of_final (h : w.isFinal (notifiedRef defaults notification) = .ok true) :
    handleFinalityNotification defaults encodeProof w targets notification
      = forEach (handleTarget defaults encodeProof w (notifiedRef defaults notification)) 0
          targets := by
  rw [handle_eq, h]
  rfl

lemma mem_reached_handleTarget_iff :
    (i, target) ∈ reached (handleTarget defaults encodeProof w blockRef) 0 targets ↔
      targets[i]? = some target ∧ ∀ j < i, ∀ u, targets[j]? = some u →
        (fate defaults encodeProof w blockRef j u).succeeds = true := by
  simp only [mem_reached_iff, Nat.zero_add, handleTarget_isOk]
  constructor
  · rintro ⟨k, rfl, hget, hbefore⟩
    exact ⟨hget, hbefore⟩
  · rintro ⟨hget, hbefore⟩
    exact ⟨i, rfl, hget, hbefore⟩

/-- On a final block the handler returns `Ok(())` exactly when every target succeeds. -/
theorem handle_isOk_iff (h : w.isFinal (notifiedRef defaults notification) = .ok true) :
    (handleFinalityNotification defaults encodeProof w targets notification).isOk = true ↔
      ∀ i target, targets[i]? = some target →
        (fate defaults encodeProof w (notifiedRef defaults notification) i target).succeeds
          = true := by
  rw [handle_of_final h, forEach_isOk_iff]
  simp only [Nat.zero_add, handleTarget_isOk]

lemma mem_handle_trace_iff {e : Effect}
    (h : w.isFinal (notifiedRef defaults notification) = .ok true) :
    e ∈ (handleFinalityNotification defaults encodeProof w targets notification).trace ↔
      ∃ i target, (targets[i]? = some target ∧ ∀ j < i, ∀ u, targets[j]? = some u →
          (fate defaults encodeProof w (notifiedRef defaults notification) j u).succeeds
            = true) ∧
        e ∈ (handleTarget defaults encodeProof w (notifiedRef defaults notification) i
          target).trace := by
  rw [handle_of_final h, forEach_trace, List.mem_flatMap]
  constructor
  · rintro ⟨⟨i, target⟩, hreach, he⟩
    exact ⟨i, target, mem_reached_handleTarget_iff.mp hreach, he⟩
  · rintro ⟨i, target, hreach, he⟩
    exact ⟨(i, target), mem_reached_handleTarget_iff.mpr hreach, he⟩

/-- **Isolation of targets.**  On a final block, every target whose own matching, proof and
routing succeed has its message routed exactly when no failing target is registered before
one of them. -/
theorem delivered_routed_iff (h : w.isFinal (notifiedRef defaults notification) = .ok true) :
    (∀ i target message, targets[i]? = some target →
        fate defaults encodeProof w (notifiedRef defaults notification) i target
          = .delivered message →
        Effect.routed (notifiedRef defaults notification) i target message true ∈
          (handleFinalityNotification defaults encodeProof w targets notification).trace) ↔
      ∀ i target message, targets[i]? = some target →
        fate defaults encodeProof w (notifiedRef defaults notification) i target
          = .delivered message →
        ∀ j < i, ∀ u, targets[j]? = some u →
          (fate defaults encodeProof w (notifiedRef defaults notification) j u).succeeds
            = true := by
  constructor
  · intro hrouted i target message hget hfate j hj u hu
    obtain ⟨k, t, ⟨-, hbefore⟩, he⟩ :=
      (mem_handle_trace_iff h).mp (hrouted i target message hget hfate)
    -- the effect names its place, so the round it comes from is the one of `i`
    obtain rfl : i = k := (handleTarget_effect he).2
    exact hbefore j hj u hu
  · intro hbefore i target message hget hfate
    refine (mem_handle_trace_iff h).mpr ⟨i, target, ⟨hget, hbefore i target message hget hfate⟩, ?_⟩
    rw [handleTarget_trace, hfate]
    simp [Fate.effects]

/-! ### A failing target and one that follows it -/

/-- A proof without content. -/
def emptyProof (transition : StateTransition) : StateProof :=
  ⟨transition, ⟨.custom "Merkle", [], none, 0, none, 1⟩⟩

/-- Every block is final and has an event that contains both names of the sample target; the
generator rejects the targets at the given places and the router accepts every message. -/
def rejecting (places : List ℕ) : Surroundings where
  isFinal _ := .ok true
  events _ _ := .ok [[0x6d, 0x66]]
  now _ := 0
  generateProof i transition _ :=
    if i ∈ places then .err (.internal "Failed to get Merkle root") else .ok (emptyProof transition)
  router := some fun _ _ => .ok ()

def sampleNotification : FinalityNotification := ⟨.repeatByte 3, 2, by decide⟩

/-- **A failing target silences the next one.**  The second target is matched, proved and
accepted by the router when it is asked, but the handler has returned before. -/
theorem rejected_target_silences_next :
    (rejecting [0]).isFinal (notifiedRef zeroDefaults sampleNotification) = .ok true ∧
      fate zeroDefaults (fun _ => [1]) (rejecting [0])
          (notifiedRef zeroDefaults sampleNotification) 1 sampleTarget
        = .delivered ⟨.stateTransition, [1], "source", none⟩ ∧
      (handleFinalityNotification zeroDefaults (fun _ => [1]) (rejecting [0])
          [sampleTarget, sampleTarget] sampleNotification).trace
        = [.evaluated (notifiedRef zeroDefaults sampleNotification) 0 sampleTarget] := by
  refine ⟨rfl, rfl, ?_⟩
  rfl

/-- The statement for two targets of which the second one fails. -/
theorem delivered_routed_iff_rejecting :
    (∀ i target message, [sampleTarget, sampleTarget][i]? = some target →
        fate zeroDefaults (fun _ => [1]) (rejecting [1])
            (notifiedRef zeroDefaults sampleNotification) i target = .delivered message →
        Effect.routed (notifiedRef zeroDefaults sampleNotification) i target message true ∈
          (handleFinalityNotification zeroDefaults (fun _ => [1]) (rejecting [1])
            [sampleTarget, sampleTarget] sampleNotification).trace) ↔
      ∀ i target message, [sampleTarget, sampleTarget][i]? = some target →
        fate zeroDefaults (fun _ => [1]) (rejecting [1])
            (notifiedRef zeroDefaults sampleNotification) i target = .delivered message →
        ∀ j < i, ∀ u, [sampleTarget, sampleTarget][j]? = some u →
          (fate zeroDefaults (fun _ => [1]) (rejecting [1])
            (notifiedRef zeroDefaults sampleNotification) j u).succeeds = true :=
  delivered_routed_iff rfl

end FrostSubstrate
