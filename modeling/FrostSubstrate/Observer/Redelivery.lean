/-
Blocks that are delivered several times.

A block reaches the handler through the worker's stream or through a direct call of
`on_block_finalized`, and nothing remembers that it has been there: what is sent for it
depends on the delivery alone.  Each delivery hands a message over at most once for every
target, and a run of deliveries as often as there are deliveries that get that far.
-/
import FrostSubstrate.Observer.Routing
import FrostSubstrate.Observer.Stream

namespace FrostSubstrate

open Traced

variable (defaults : FrostDefaults) (encodeProof : StateProof → Bytes)

/-! ### The two entry points -/

/-- `SSMPObserver::on_block_finalized`.  The hash decodes, the number has to fit in `u32`, and
the chain id is dropped. -/
def onBlockFinalized (w : Surroundings) (targets : List WatchTarget) (block : BlockRef) :
    Traced Effect ProtocolError Unit :=
  if hnumber : block.number ≤ u32Max then
    handleFinalityNotification defaults encodeProof w targets ⟨block.hash, block.number, hnumber⟩
  else ⟨[], .err ErrorKind.invalidBlockNumber.toProtocolError⟩

/-- A delivery of a block: a notification of the stream, or a direct call. -/
inductive BlockDelivery where
  | streamed (w : Surroundings) (notification : FinalityNotification)
  | direct (w : Surroundings) (block : BlockRef)

namespace BlockDelivery

def surroundings : BlockDelivery → Surroundings
  | streamed w _ => w
  | direct w _ => w

/-- What a delivery does, with the registered targets `targets`. -/
def handle (targets : List WatchTarget) : BlockDelivery → Traced Effect ProtocolError Unit
  | streamed w notification =>
    handleFinalityNotification defaults encodeProof w targets notification
  | direct w block => onBlockFinalized defaults encodeProof w targets block

/-- The notification that gets to the handler, if any. -/
def notification : BlockDelivery → Option FinalityNotification
  | streamed _ notification => some notification
  | direct _ block =>
    if hnumber : block.number ≤ u32Max then some ⟨block.hash, block.number, hnumber⟩ else none

end BlockDelivery

/-- Whether the worker goes on after it has handled a notification: only a panic ends it. -/
def workerSurvives (handled : Traced Effect ProtocolError Unit) : Bool :=
  (handled.ignoreErr : Traced Effect Empty Unit).isOk

/-- The effects of the deliveries, one after the other, with the worker up or not.  What is in
the stream behind a panic is not handled; direct calls are made by others.  (Calls that overlap
only mix the effects.) -/
def runDeliveries (targets : List WatchTarget) : Bool → List BlockDelivery → List Effect
  | _, [] => []
  | worker, .direct w block :: deliveries =>
    (onBlockFinalized defaults encodeProof w targets block).trace ++
      runDeliveries targets worker deliveries
  | true, .streamed w notification :: deliveries =>
    let handled := handleFinalityNotification defaults encodeProof w targets notification
    handled.trace ++ runDeliveries targets (workerSurvives handled) deliveries
  | false, .streamed _ _ :: deliveries => runDeliveries targets false deliveries

/-- The deliveries among these that are handled. -/
def handledDeliveries (targets : List WatchTarget) : Bool → List BlockDelivery → List BlockDelivery
  | _, [] => []
  | worker, .direct w block :: deliveries =>
    .direct w block :: handledDeliveries targets worker deliveries
  | true, .streamed w notification :: deliveries =>
    .streamed w notification :: handledDeliveries targets
      (workerSurvives (handleFinalityNotification defaults encodeProof w targets notification))
      deliveries
  | false, .streamed _ _ :: deliveries => handledDeliveries targets false deliveries

/-- Whether an effect is the router accepting a message for this block and target. -/
def handsOver (blockRef : BlockRef) (target : WatchTarget) : Effect → Bool
  | .routed b _ t _ accepted => decide (b = blockRef) && decide (t = target) && accepted
  | .evaluated _ _ _ => false

/-- A delivery gets a message for the target accepted: it is of this block, the block is final,
the targets before this one succeed, and the fate of this one is to be delivered. -/
structure Delivers (targets : List WatchTarget) (blockRef : BlockRef) (target : WatchTarget)
    (d : BlockDelivery) : Prop where
  block : ∃ notification, d.notification = some notification ∧
    notifiedRef defaults notification = blockRef
  final : d.surroundings.isFinal blockRef = .ok true
  reached : ∃ i message, targets[i]? = some target ∧
    (∀ j < i, ∀ u, targets[j]? = some u →
      (fate defaults encodeProof d.surroundings blockRef j u).succeeds = true) ∧
    fate defaults encodeProof d.surroundings blockRef i target = .delivered message

variable {defaults encodeProof} {targets : List WatchTarget} {blockRef : BlockRef}
  {target : WatchTarget} {w : Surroundings} {notification : FinalityNotification}
  {d : BlockDelivery} {e : Effect} {i : ℕ}

/-! ### One delivery -/

lemma handsOver_eq_true_iff : handsOver blockRef target e = true ↔
    ∃ j message, e = .routed blockRef j target message true := by
  cases e with
  | evaluated b j t => simp [handsOver]
  | routed b j t message accepted =>
    simp only [handsOver, Bool.and_eq_true, decide_eq_true_eq, Effect.routed.injEq]
    constructor
    · rintro ⟨⟨rfl, rfl⟩, rfl⟩
      exact ⟨j, message, rfl, rfl, rfl, rfl, rfl⟩
    · rintro ⟨j', message', rfl, -, rfl, -, rfl⟩
      exact ⟨⟨rfl, rfl⟩, rfl⟩

lemma handsOver_effects {b : BlockRef} {u : WatchTarget} {f : Fate} (he : e ∈ f.effects b i u)
    (hover : handsOver blockRef target e = true) :
    b = blockRef ∧ u = target ∧ ∃ message, f = .delivered message := by
  obtain ⟨j, message, rfl⟩ := handsOver_eq_true_iff.mp hover
  cases f with
  | delivered m =>
    simp only [Fate.effects, List.mem_singleton, Effect.routed.injEq] at he
    exact ⟨he.1.symm, he.2.2.1.symm, m, rfl⟩
  | refused m => simp [Fate.effects] at he
  | unmatched => cases he
  | unrouted => cases he
  | failed => cases he
  | crashed => cases he

lemma countP_routingCalls_le {b : BlockRef} (hnodup : targets.Nodup) :
    (routingCalls defaults encodeProof w b i targets).countP (handsOver blockRef target) ≤ 1 := by
  induction targets generalizing i with
  | nil => exact Nat.zero_le 1
  | cons u targets ih =>
    obtain ⟨hu, hrest⟩ := List.nodup_cons.mp hnodup
    rw [routingCalls, List.countP_append]
    have hone : ((fate defaults encodeProof w b i u).effects b i u).countP
        (handsOver blockRef target) ≤ 1 := by
      refine List.countP_le_length.trans ?_
      cases fate defaults encodeProof w b i u <;> simp [Fate.effects]
    split_ifs with hsucceeds
    · by_cases htarget : u = target
      · -- the target itself comes once, so nothing is left for the others
        have hzero : (routingCalls defaults encodeProof w b (i + 1) targets).countP
            (handsOver blockRef target) = 0 := by
          rw [List.countP_eq_zero]
          intro e he hover
          obtain ⟨k, v, hget, -, he⟩ := mem_routingCalls he
          obtain ⟨-, rfl, -⟩ := handsOver_effects he hover
          exact hu (htarget ▸ List.mem_of_getElem? hget)
        omega
      · have hzero : ((fate defaults encodeProof w b i u).effects b i u).countP
            (handsOver blockRef target) = 0 := by
          rw [List.countP_eq_zero]
          intro e he hover
          exact htarget (handsOver_effects he hover).2.1
        have := ih (i := i + 1) hrest
        omega
    · simpa using hone

lemma countP_filter_isRouting (l : List Effect) :
    (l.filter Effect.isRouting).countP (handsOver blockRef target)
      = l.countP (handsOver blockRef target) := by
  rw [List.countP_filter]
  congr 1
  funext e
  cases e with
  | evaluated b j t => rfl
  | routed b j t message accepted => simp [Effect.isRouting]

lemma handler_countP_le (hnodup : targets.Nodup) :
    (handleFinalityNotification defaults encodeProof w targets notification).trace.countP
      (handsOver blockRef target) ≤ 1 := by
  rw [← countP_filter_isRouting, handle_routing]
  split_ifs
  · rw [← routingCalls_eq]
    exact countP_routingCalls_le hnodup
  · exact Nat.zero_le 1

/-- A notification hands a message over when it is of this block and the target is delivered. -/
lemma handler_handsOver_iff :
    (∃ e ∈ (handleFinalityNotification defaults encodeProof w targets notification).trace,
        handsOver blockRef target e = true) ↔
      Delivers defaults encodeProof targets blockRef target (.streamed w notification) := by
  constructor
  · rintro ⟨e, he, hover⟩
    have hfinal : w.isFinal (notifiedRef defaults notification) = .ok true := by
      by_contra hfinal
      have hrouting := List.mem_filter.mpr ⟨he, show e.isRouting = true by
        obtain ⟨j, message, rfl⟩ := handsOver_eq_true_iff.mp hover
        rfl⟩
      rw [handle_routing, if_neg hfinal] at hrouting
      cases hrouting
    obtain ⟨k, u, ⟨hget, hbefore⟩, he⟩ := (mem_handle_trace_iff hfinal).mp he
    rw [handleTarget_trace, List.mem_cons] at he
    rcases he with rfl | he
    · cases hover
    · obtain ⟨rfl, rfl, message, hfate⟩ := handsOver_effects he hover
      exact ⟨⟨notification, rfl, rfl⟩, hfinal, k, message, hget, hbefore, hfate⟩
  · rintro ⟨⟨n, hn, rfl⟩, hfinal, k, message, hget, hbefore, hfate⟩
    obtain rfl : notification = n := Option.some.inj hn
    refine ⟨.routed (notifiedRef defaults notification) k target message true, ?_,
      handsOver_eq_true_iff.mpr ⟨k, message, rfl⟩⟩
    refine (mem_handle_trace_iff hfinal).mpr ⟨k, target, ⟨hget, hbefore⟩, ?_⟩
    rw [handleTarget_trace]
    refine List.mem_cons_of_mem _ ?_
    rw [hfate]
    exact List.mem_singleton_self _

/-- A direct call with a number that fits delivers like its notification. -/
lemma delivers_direct_iff {block : BlockRef} (hnumber : block.number ≤ u32Max) :
    Delivers defaults encodeProof targets blockRef target (.direct w block) ↔
      Delivers defaults encodeProof targets blockRef target
        (.streamed w ⟨block.hash, block.number, hnumber⟩) := by
  have hsame : (BlockDelivery.direct w block).notification
      = some ⟨block.hash, block.number, hnumber⟩ := dif_pos hnumber
  constructor
  · rintro ⟨⟨n, hn, href⟩, hfinal, hreached⟩
    rw [hsame] at hn
    exact ⟨⟨n, hn, href⟩, hfinal, hreached⟩
  · rintro ⟨⟨n, hn, href⟩, hfinal, hreached⟩
    exact ⟨⟨n, hsame.trans hn, href⟩, hfinal, hreached⟩

lemma not_delivers_direct {block : BlockRef} (hnumber : ¬ block.number ≤ u32Max) :
    ¬ Delivers defaults encodeProof targets blockRef target (.direct w block) := by
  rintro ⟨⟨n, hn, -⟩, -, -⟩
  rw [BlockDelivery.notification, dif_neg hnumber] at hn
  cases hn

open Classical in
lemma countP_handle (hnodup : targets.Nodup) (d : BlockDelivery) :
    (d.handle defaults encodeProof targets).trace.countP (handsOver blockRef target)
      = if Delivers defaults encodeProof targets blockRef target d then 1 else 0 := by
  have hstream : ∀ w notification,
      (handleFinalityNotification defaults encodeProof w targets notification).trace.countP
          (handsOver blockRef target)
        = if Delivers defaults encodeProof targets blockRef target (.streamed w notification)
          then 1 else 0 := by
    intro w notification
    have hle : (handleFinalityNotification defaults encodeProof w targets notification).trace.countP
        (handsOver blockRef target) ≤ 1 := handler_countP_le hnodup
    split_ifs with hdelivers
    · have hpos := List.countP_pos_iff.mpr (handler_handsOver_iff.mpr hdelivers)
      omega
    · rw [List.countP_eq_zero]
      intro e he hover
      exact hdelivers (handler_handsOver_iff.mp ⟨e, he, hover⟩)
  cases d with
  | streamed w notification => exact hstream w notification
  | direct w block =>
    by_cases hnumber : block.number ≤ u32Max
    · simp only [BlockDelivery.handle, onBlockFinalized, dif_pos hnumber, hstream,
        delivers_direct_iff hnumber]
    · rw [BlockDelivery.handle, onBlockFinalized, dif_neg hnumber,
        if_neg (not_delivers_direct hnumber)]
      rfl

/-! ### Runs -/

lemma runDeliveries_eq (worker : Bool) (deliveries : List BlockDelivery) :
    runDeliveries defaults encodeProof targets worker deliveries
      = (handledDeliveries defaults encodeProof targets worker deliveries).flatMap fun d =>
          (d.handle defaults encodeProof targets).trace := by
  induction deliveries generalizing worker with
  | nil => cases worker <;> rfl
  | cons d deliveries ih =>
    cases d with
    | direct w block => cases worker <;> simp [runDeliveries, handledDeliveries, ih,
        BlockDelivery.handle]
    | streamed w notification =>
      cases worker with
      | true => simp [runDeliveries, handledDeliveries, ih, BlockDelivery.handle]
      | false => simp [runDeliveries, handledDeliveries, ih]

/-- Deliveries through the stream alone are a run of the worker. -/
theorem runDeliveries_streamed (stream : List (Surroundings × FinalityNotification)) :
    runDeliveries defaults encodeProof targets true (stream.map fun d => .streamed d.1 d.2)
      = (runWithFinalityStream defaults encodeProof targets
          (stream.map fun d => ⟨[], d.2, d.1⟩)).trace := by
  have hdown : ∀ l : List (Surroundings × FinalityNotification),
      runDeliveries defaults encodeProof targets false (l.map fun d => .streamed d.1 d.2) = [] := by
    intro l
    induction l with
    | nil => rfl
    | cons d l ih => exact ih
  induction stream with
  | nil => rfl
  | cons d stream ih =>
    rw [List.map_cons, List.map_cons, runDeliveries, runWithFinalityStream, List.append_nil]
    simp only [workerSurvives]
    by_cases hup : ((handleFinalityNotification defaults encodeProof d.1 targets d.2).ignoreErr :
        Traced Effect Empty Unit).isOk = true
    · rw [bind_trace_of_isOk _ hup, ignoreErr_trace, hup, ih]
    · rw [bind_trace_of_not_isOk _ hup, ignoreErr_trace, Bool.eq_false_iff.mpr hup, hdown,
        List.append_nil]

open Classical in
/-- **Messages count deliveries.**  For distinct targets, one delivery hands at most one message
over for a block and target, and a run of deliveries exactly as many as there are deliveries
in it that are of this block and get the message for this target accepted. -/
theorem handedOver_count (hnodup : targets.Nodup) (blockRef : BlockRef) (target : WatchTarget)
    (deliveries : List BlockDelivery) :
    (∀ d ∈ deliveries, (d.handle defaults encodeProof targets).trace.countP
        (handsOver blockRef target) ≤ 1) ∧
      (runDeliveries defaults encodeProof targets true deliveries).countP
          (handsOver blockRef target)
        = (handledDeliveries defaults encodeProof targets true deliveries).countP fun d =>
            decide (Delivers defaults encodeProof targets blockRef target d) := by
  constructor
  · intro d _
    rw [countP_handle hnodup]
    split_ifs <;> omega
  · rw [runDeliveries_eq]
    induction handledDeliveries defaults encodeProof targets true deliveries with
    | nil => rfl
    | cons d handled ih =>
      rw [List.flatMap_cons, List.countP_append, ih, countP_handle hnodup, List.countP_cons,
        Nat.add_comm]
      simp only [decide_eq_true_eq]

/-! ### A block delivered again -/

/-- The sample target for another chain. -/
def secondTarget : WatchTarget := { sampleTarget with targetChain := ⟨[0x64], by decide⟩ }

/-- The sample block comes through the stream while the proof for the second target fails, and
then through a direct call. -/
def retriedDeliveries : List BlockDelivery :=
  [.streamed (rejecting [1]) sampleNotification,
    .direct (rejecting []) (notifiedRef zeroDefaults sampleNotification)]

/-- **A retry sends again.**  The block that failed midway is delivered a second time, and so is
the message for the first target. -/
theorem retry_sends_again :
    [sampleTarget, secondTarget].Nodup ∧
      (handleFinalityNotification zeroDefaults (fun _ => [1]) (rejecting [1])
          [sampleTarget, secondTarget] sampleNotification).outcome
        = .err (.custom "Failed to generate proof") ∧
      (runDeliveries zeroDefaults (fun _ => [1]) [sampleTarget, secondTarget] true
        retriedDeliveries).countP
          (handsOver (notifiedRef zeroDefaults sampleNotification) sampleTarget) = 2 := by
  refine ⟨by decide, rfl, ?_⟩
  rfl

open Classical in
/-- The statement for the retried block. -/
theorem handedOver_count_retried :
    (∀ d ∈ retriedDeliveries, (d.handle zeroDefaults (fun _ => [1])
        [sampleTarget, secondTarget]).trace.countP
          (handsOver (notifiedRef zeroDefaults sampleNotification) secondTarget) ≤ 1) ∧
      (runDeliveries zeroDefaults (fun _ => [1]) [sampleTarget, secondTarget] true
          retriedDeliveries).countP
            (handsOver (notifiedRef zeroDefaults sampleNotification) secondTarget)
        = (handledDeliveries zeroDefaults (fun _ => [1]) [sampleTarget, secondTarget] true
            retriedDeliveries).countP fun d =>
              decide (Delivers zeroDefaults (fun _ => [1]) [sampleTarget, secondTarget]
                (notifiedRef zeroDefaults sampleNotification) secondTarget d) :=
  handedOver_count (by decide) _ _ _

end FrostSubstrate
