/-
The calls of the router for one notification.

Of the effects of the handler only the calls of the router leave the node.  For a snapshot
of targets they are those of the targets up to the first one that does not succeed
(`routingBlock`); this module connects that description with the loop of the handler.
-/
import FrostSubstrate.Observer.Handler

namespace FrostSubstrate

open Traced

/-- Whether an effect is a call of the router. -/
def Effect.isRouting : Effect → Bool
  | .routed _ _ _ _ _ => true
  | .evaluated _ _ _ => false

variable (defaults : FrostDefaults) (encodeProof : StateProof → Bytes) (w : Surroundings)
  (blockRef : BlockRef)

/-- The calls of the router for the targets of a snapshot from place `i` on. -/
def routingCalls : ℕ → List WatchTarget → List Effect
  | _, [] => []
  | i, target :: targets =>
    (fate defaults encodeProof w blockRef i target).effects blockRef i target ++
      if (fate defaults encodeProof w blockRef i target).succeeds then
        routingCalls (i + 1) targets
      else []

/-- The calls of the router for a snapshot: those for the targets before the first one that
does not succeed, and that for this one, if it got so far. -/
def routingBlock (targets : List WatchTarget) : List Effect :=
  let succeeds : WatchTarget × ℕ → Bool := fun place =>
    (fate defaults encodeProof w blockRef place.2 place.1).succeeds
  (targets.zipIdx.takeWhile succeeds ++ (targets.zipIdx.dropWhile succeeds).take 1).flatMap
    fun place => (fate defaults encodeProof w blockRef place.2 place.1).effects blockRef place.2
      place.1

variable {defaults encodeProof w blockRef} {i : ℕ} {target : WatchTarget}
  {targets : List WatchTarget} {notification : FinalityNotification} {e : Effect}

/-- The recursion computes the block. -/
theorem routingCalls_eq (targets : List WatchTarget) :
    routingCalls defaults encodeProof w blockRef 0 targets
      = routingBlock defaults encodeProof w blockRef targets := by
  unfold routingBlock
  generalize 0 = i
  induction targets generalizing i with
  | nil => rfl
  | cons target targets ih =>
    rw [routingCalls, List.zipIdx_cons]
    by_cases hsucceeds : (fate defaults encodeProof w blockRef i target).succeeds = true
    · simp [hsucceeds, ih]
    · simp [hsucceeds]

lemma Fate.filter_effects (f : Fate) :
    (f.effects blockRef i target).filter Effect.isRouting = f.effects blockRef i target := by
  cases f <;> rfl

/-- **The router during a notification.**  The handler calls it for a final block as the fates
of the targets in its snapshot say, and for no other block. -/
theorem handle_routing :
    (handleFinalityNotification defaults encodeProof w targets notification).trace.filter
        Effect.isRouting
      = if w.isFinal (notifiedRef defaults notification) = .ok true then
          routingBlock defaults encodeProof w (notifiedRef defaults notification) targets
        else [] := by
  split_ifs with hfinal
  · rw [handle_of_final hfinal, ← routingCalls_eq]
    generalize 0 = i
    induction targets generalizing i with
    | nil => rfl
    | cons target targets ih =>
      rw [forEach, routingCalls]
      by_cases hsucceeds : (fate defaults encodeProof w (notifiedRef defaults notification) i
          target).succeeds = true
      · rw [bind_trace_of_isOk _ (handleTarget_isOk.trans hsucceeds), List.filter_append, ih,
          handleTarget_trace, List.filter_cons_of_neg (by simp [Effect.isRouting]),
          Fate.filter_effects, if_pos hsucceeds]
      · rw [bind_trace_of_not_isOk _ (fun h => hsucceeds (handleTarget_isOk.symm.trans h)),
          handleTarget_trace, List.filter_cons_of_neg (by simp [Effect.isRouting]),
          Fate.filter_effects, if_neg hsucceeds, List.append_nil]
  · rw [handle_eq]
    rcases hanswer : w.isFinal (notifiedRef defaults notification) with err | _ | _
    · rfl
    · rfl
    · exact absurd hanswer hfinal

lemma mem_routingCalls (h : e ∈ routingCalls defaults encodeProof w blockRef i targets) :
    ∃ k target, targets[k]? = some target ∧
      (∀ j < k, ∀ u, targets[j]? = some u →
        (fate defaults encodeProof w blockRef (i + j) u).succeeds = true) ∧
      e ∈ (fate defaults encodeProof w blockRef (i + k) target).effects blockRef (i + k)
        target := by
  induction targets generalizing i with
  | nil => cases h
  | cons target targets ih =>
    rw [routingCalls, List.mem_append] at h
    rcases h with h | h
    · refine ⟨0, target, rfl, ?_, h⟩
      intro j hj
      omega
    · split_ifs at h with hsucceeds
      · obtain ⟨k, u, hget, hbefore, he⟩ := ih h
        have hshift : ∀ j, i + 1 + j = i + (j + 1) := fun j => by omega
        refine ⟨k + 1, u, hget, ?_, by rwa [hshift] at he⟩
        intro j hj v hv
        cases j with
        | zero =>
          obtain rfl : target = v := Option.some.inj hv
          exact hsucceeds
        | succ j =>
          rw [← hshift]
          exact hbefore j (by omega) v hv
      · cases h

end FrostSubstrate
