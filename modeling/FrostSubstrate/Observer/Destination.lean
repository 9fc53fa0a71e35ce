/-
Where the messages of the handler are addressed to.

A target names the chain its messages are meant for.  The name gets into the metadata of the
transition, but the message is made with no destination at all, so messages for different chains
are addressed alike.  The targets are served as they say only where no message is made.
-/
import FrostSubstrate.Observer.Redelivery

namespace FrostSubstrate

open Traced

/-- The messages handed to the router are addressed to the chains of their targets, under the names
that `chainName` gives to chains, and those for different chains are addressed apart. -/
structure Addressed (chainName : Bytes → String) (trace : List Effect) : Prop where
  destination : ∀ blockRef i target message accepted,
    Effect.routed blockRef i target message accepted ∈ trace →
    message.target = some (chainName target.targetChain.val)
  apart : ∀ blockRef i target message accepted blockRef' i' target' message' accepted',
    Effect.routed blockRef i target message accepted ∈ trace →
    Effect.routed blockRef' i' target' message' accepted' ∈ trace →
    target.targetChain ≠ target'.targetChain → message.target ≠ message'.target

/-- The target at place `i` is found in the events of the block, and its transition is proved. -/
def MatchedAndProved (defaults : FrostDefaults) (w : Surroundings) (blockRef : BlockRef) (i : ℕ)
    (target : WatchTarget) : Prop :=
  matchesWatchTarget (w.events i) blockRef target = .ok true ∧
    ∃ transition proof,
      generateStateTransition defaults (w.now i) blockRef target = .ok transition ∧
      w.generateProof i transition.into .default = .ok proof

/-- The first of the targets whose events are not searched in vain is matched and proved. -/
def FirstMatchProved (defaults : FrostDefaults) (w : Surroundings) (blockRef : BlockRef)
    (targets : List WatchTarget) : Prop :=
  ∃ i target, targets[i]? = some target ∧
    (∀ j < i, ∀ u, targets[j]? = some u →
      matchesWatchTarget (w.events j) blockRef u = .ok false) ∧
    MatchedAndProved defaults w blockRef i target

variable {defaults : FrostDefaults} {encodeProof : StateProof → Bytes} {w : Surroundings}
  {blockRef : BlockRef} {i : ℕ} {target : WatchTarget} {targets : List WatchTarget}
  {notification : FinalityNotification} {message : FrostMessage} {accepted : Bool}
  {router : ℕ → FrostMessage → Except String Unit} {chainName : Bytes → String}

/-! ### Which targets get a message -/

variable (defaults encodeProof w blockRef i target) in
/-- A target is searched in vain and skipped, or it is matched and proved, or the handler stops at
it without a message. -/
lemma fate_cases :
    (matchesWatchTarget (w.events i) blockRef target = .ok false ∧
      fate defaults encodeProof w blockRef i target = .unmatched) ∨
    MatchedAndProved defaults w blockRef i target ∨
    fate defaults encodeProof w blockRef i target = .failed ∨
      fate defaults encodeProof w blockRef i target = .crashed := by
  unfold fate MatchedAndProved
  rcases matchesWatchTarget (w.events i) blockRef target with (_ | _) | err | _
  · exact Or.inl ⟨rfl, rfl⟩
  · refine Or.inr ?_
    rcases generateStateTransition defaults (w.now i) blockRef target with err | transition
    · exact Or.inr (Or.inl rfl)
    · rcases hproof : w.generateProof i transition.into .default with proof | err | _
      · exact Or.inl ⟨rfl, transition, proof, rfl, hproof⟩
      · exact Or.inr (Or.inl (by simp [hproof]))
      · exact Or.inr (Or.inr (by simp [hproof]))
  · exact Or.inr (Or.inr (Or.inl rfl))
  · exact Or.inr (Or.inr (Or.inr rfl))

variable (encodeProof) in
lemma exists_effects_of_matchedAndProved (hrouter : w.router = some router)
    (h : MatchedAndProved defaults w blockRef i target) :
    ∃ message accepted, message.target = none ∧ Effect.routed blockRef i target message accepted ∈
      (fate defaults encodeProof w blockRef i target).effects blockRef i target := by
  obtain ⟨hmatch, transition, proof, htransition, hproof⟩ := h
  simp only [fate, hmatch, htransition, hproof, hrouter]
  rcases router i (proofMessage encodeProof proof) with err | _
  · exact ⟨_, false, rfl, List.mem_singleton_self _⟩
  · exact ⟨_, true, rfl, List.mem_singleton_self _⟩

/-- If no first match is proved, every target up to one that gets a message is searched in vain. -/
lemma unmatched_of_not_firstMatchProved
    (hnot : ¬ FirstMatchProved defaults w blockRef targets) {k : ℕ}
    (hbefore : ∀ j < k, ∀ u, targets[j]? = some u →
      (fate defaults encodeProof w blockRef j u).succeeds = true) :
    ∀ j < k, ∀ u, targets[j]? = some u →
      matchesWatchTarget (w.events j) blockRef u = .ok false := by
  intro j hj
  induction j using Nat.strong_induction_on with
  | _ j ih =>
    intro u hu
    have hearlier : ∀ m < j, ∀ v, targets[m]? = some v →
        matchesWatchTarget (w.events m) blockRef v = .ok false :=
      fun m hm => ih m hm (hm.trans hj)
    have hsucceeds := hbefore j hj u hu
    rcases fate_cases defaults encodeProof w blockRef j u
      with ⟨hunmatched, -⟩ | hproved | hfailed | hcrashed
    · exact hunmatched
    · exact absurd ⟨j, u, hu, hearlier, hproved⟩ hnot
    · rw [hfailed] at hsucceeds
      cases hsucceeds
    · rw [hcrashed] at hsucceeds
      cases hsucceeds

lemma exists_routed_of_firstMatchProved
    (hfinal : w.isFinal (notifiedRef defaults notification) = .ok true)
    (hrouter : w.router = some router)
    (h : FirstMatchProved defaults w (notifiedRef defaults notification) targets) :
    ∃ i target message accepted, message.target = none ∧
      Effect.routed (notifiedRef defaults notification) i target message accepted ∈
        (handleFinalityNotification defaults encodeProof w targets notification).trace := by
  obtain ⟨i, target, hget, hbefore, hproved⟩ := h
  obtain ⟨message, accepted, hnone, heffect⟩ :=
    exists_effects_of_matchedAndProved encodeProof hrouter hproved
  have hsucceeds : ∀ j < i, ∀ u, targets[j]? = some u →
      (fate defaults encodeProof w (notifiedRef defaults notification) j u).succeeds = true := by
    intro j hj u hu
    rw [fate, hbefore j hj u hu]
    rfl
  refine ⟨i, target, message, accepted, hnone, ?_⟩
  refine (mem_handle_trace_iff hfinal).mpr ⟨i, target, ⟨hget, hsucceeds⟩, ?_⟩
  rw [handleTarget_trace]
  exact List.mem_cons_of_mem _ heffect

lemma not_routed_of_not_firstMatchProved
    (hfinal : w.isFinal (notifiedRef defaults notification) = .ok true)
    (hnot : ¬ FirstMatchProved defaults w (notifiedRef defaults notification) targets) :
    Effect.routed blockRef i target message accepted ∉
      (handleFinalityNotification defaults encodeProof w targets notification).trace := by
  intro htrace
  obtain ⟨k, u, ⟨hget, hbefore⟩, heffect⟩ := (mem_handle_trace_iff hfinal).mp htrace
  have hunmatched := unmatched_of_not_firstMatchProved hnot hbefore
  rw [handleTarget_trace, List.mem_cons] at heffect
  rcases heffect with heffect | heffect
  · cases heffect
  · rcases fate_cases defaults encodeProof w (notifiedRef defaults notification) k u
      with ⟨-, hfate⟩ | hproved | hfate | hfate
    · simp [hfate, Fate.effects] at heffect
    · exact hnot ⟨k, u, hget, hunmatched, hproved⟩
    · simp [hfate, Fate.effects] at heffect
    · simp [hfate, Fate.effects] at heffect

/-- **When messages go where their targets say.**  On a final block and with a router, every message
is addressed to the chain of its target exactly when none is made: the first target that is not
searched in vain, if there is one, is not both matched and proved. -/
theorem addressed_iff (hfinal : w.isFinal (notifiedRef defaults notification) = .ok true)
    (hrouter : w.router = some router) :
    Addressed chainName
        (handleFinalityNotification defaults encodeProof w targets notification).trace ↔
      ¬ FirstMatchProved defaults w (notifiedRef defaults notification) targets := by
  constructor
  · intro haddressed hfirst
    obtain ⟨i, target, message, accepted, hnone, htrace⟩ :=
      exists_routed_of_firstMatchProved hfinal hrouter hfirst
    have hdestination := haddressed.destination _ _ _ _ _ htrace
    rw [hnone] at hdestination
    cases hdestination
  · intro hnot
    exact ⟨fun _ _ _ _ _ h => absurd h (not_routed_of_not_firstMatchProved hfinal hnot),
      fun _ _ _ _ _ _ _ _ _ _ h => absurd h (not_routed_of_not_firstMatchProved hfinal hnot)⟩

/-! ### Two targets for two chains -/

/-- **Messages for two chains are addressed alike.**  The sample targets name different chains; the
messages for both are handed over without a destination. -/
theorem secondTarget_addressed_alike :
    sampleTarget.targetChain ≠ secondTarget.targetChain ∧
      (∀ target ∈ [sampleTarget, secondTarget], ∃ i, Effect.routed
          (notifiedRef zeroDefaults sampleNotification) i target
          ⟨.stateTransition, [1], "source", none⟩ true ∈
        (handleFinalityNotification zeroDefaults (fun _ => [1]) (rejecting [])
          [sampleTarget, secondTarget] sampleNotification).trace) ∧
      ∀ chainName : Bytes → String, ¬ Addressed chainName
        (handleFinalityNotification zeroDefaults (fun _ => [1]) (rejecting [])
          [sampleTarget, secondTarget] sampleNotification).trace := by
  have htrace : (handleFinalityNotification zeroDefaults (fun _ => [1]) (rejecting [])
      [sampleTarget, secondTarget] sampleNotification).trace
        = [.evaluated (notifiedRef zeroDefaults sampleNotification) 0 sampleTarget,
          .routed (notifiedRef zeroDefaults sampleNotification) 0 sampleTarget
            ⟨.stateTransition, [1], "source", none⟩ true,
          .evaluated (notifiedRef zeroDefaults sampleNotification) 1 secondTarget,
          .routed (notifiedRef zeroDefaults sampleNotification) 1 secondTarget
            ⟨.stateTransition, [1], "source", none⟩ true] := rfl
  rw [htrace]
  refine ⟨by decide, by simp, ?_⟩
  intro chainName haddressed
  have hdestination := haddressed.destination (notifiedRef zeroDefaults sampleNotification) 0
    sampleTarget _ true (List.mem_cons_of_mem _ List.mem_cons_self)
  cases hdestination

/-- The statement for these targets. -/
theorem addressed_iff_secondTarget :
    Addressed fromUtf8Lossy (handleFinalityNotification zeroDefaults (fun _ => [1]) (rejecting [])
        [sampleTarget, secondTarget] sampleNotification).trace ↔
      ¬ FirstMatchProved zeroDefaults (rejecting []) (notifiedRef zeroDefaults sampleNotification)
        [sampleTarget, secondTarget] :=
  addressed_iff rfl rfl

end FrostSubstrate
