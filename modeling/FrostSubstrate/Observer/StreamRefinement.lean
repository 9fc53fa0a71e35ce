/-
The worker as a loop over its stream.

A run of the machine is a run of `run_with_finality_stream` as a function of its stream, in
which the registrations fall between the notifications: those registered since the snapshot for
one notification belong to the next one that gets a snapshot (`DeliveredAs`).
-/
import FrostSubstrate.Observer.RoutingOrder

namespace FrostSubstrate

open Traced

variable {defaults : FrostDefaults} {encodeProof : StateProof → Bytes}
  {targets registered l : List WatchTarget} {stream : List StreamItem} {s : WorkerState}
  {item : StreamItem} {events : List WorkerEvent} {deliveries : List Delivery}

/-! ### Streams without a panic -/

lemma handleTarget_outcome_ne_panicked {w : Surroundings} {blockRef : BlockRef} {i : ℕ}
    {target : WatchTarget} (h : fate defaults encodeProof w blockRef i target ≠ .crashed) :
    (handleTarget defaults encodeProof w blockRef i target).outcome ≠ .panicked := by
  unfold handleTarget
  unfold fate at h
  simp only [emit, lift_eq, mk_ok_bind]
  rcases hmatch : matchesWatchTarget (w.events i) blockRef target with (_ | _) | err | _
  · rintro ⟨⟩
  · rcases htransition : generateStateTransition defaults (w.now i) blockRef target with
      err | transition
    · rintro ⟨⟩
    · simp only [hmatch, htransition] at h
      simp only [Outcome.ofExcept_ok, mk_ok_bind, if_true]
      rcases hproof : w.generateProof i transition.into .default with proof | err | _
      · rcases w.router with _ | router
        · rintro ⟨⟩
        · simp only [Outcome.mapErr, mk_ok_bind, routeMessage]
          rcases router i (proofMessage encodeProof proof) with err | _
          · rintro ⟨⟩
          · rintro ⟨⟩
      · rintro ⟨⟩
      · simp only [hproof] at h
        exact absurd rfl h
  · rintro ⟨⟩
  · simp only [hmatch] at h
    exact absurd rfl h

lemma handle_outcome_ne_panicked {w : Surroundings} {notification : FinalityNotification}
    (h : ∀ target ∈ targets, ∀ i,
      fate defaults encodeProof w (notifiedRef defaults notification) i target ≠ .crashed) :
    (handleFinalityNotification defaults encodeProof w targets notification).outcome
      ≠ .panicked := by
  rw [handle_eq]
  rcases w.isFinal (notifiedRef defaults notification) with err | _ | _
  · rintro ⟨⟩
  · rintro ⟨⟩
  · have hloop : (forEach (handleTarget defaults encodeProof w (notifiedRef defaults notification))
        0 targets).outcome ≠ .panicked :=
      forEach_outcome_ne_panicked fun i target htarget =>
        handleTarget_outcome_ne_panicked (h target htarget i)
    exact hloop

lemma runWithFinalityStream_consumed
    (h : ∀ d ∈ deliveries, ∀ target ∈ targets ++ deliveries.flatMap Delivery.registrations, ∀ i,
      fate defaults encodeProof d.surroundings (d.ref defaults) i target ≠ .crashed) :
    (runWithFinalityStream defaults encodeProof targets deliveries).outcome = .ok () := by
  induction deliveries generalizing targets with
  | nil => rfl
  | cons d deliveries ih =>
    rw [List.flatMap_cons, ← List.append_assoc] at h
    rw [runWithFinalityStream, bind_outcome_of_ok (ignoreErr_outcome (handle_outcome_ne_panicked
      fun target htarget => h d List.mem_cons_self target (List.mem_append_left _ htarget)))]
    exact ih fun d' hd' => h d' (List.mem_cons_of_mem _ hd')

lemma snapshots_concat (before : List Delivery) (d : Delivery) :
    snapshots targets (before ++ [d])
      = snapshots targets before ++ [(registeredAt targets before d, d)] := by
  induction before generalizing targets with
  | nil => simp [snapshots, registeredAt]
  | cons d' before ih =>
    rw [List.cons_append, snapshots, snapshots, ih]
    simp [registeredAt]

lemma runWithFinalityStream_routing
    (h : (runWithFinalityStream defaults encodeProof targets deliveries).outcome = .ok ()) :
    (runWithFinalityStream defaults encodeProof targets deliveries).trace.filter Effect.isRouting
      = (snapshots targets deliveries).flatMap fun snapshot =>
          (handled defaults encodeProof snapshot).trace.filter Effect.isRouting := by
  rw [runWithFinalityStream_trace h, List.filter_flatMap]

/-! ### The record as deliveries -/

/-- The notification of a delivery. -/
def Delivery.streamItem (d : Delivery) : StreamItem := ⟨d.notification, d.surroundings⟩

/-- The delivery of a notification, with the targets registered for its snapshot. -/
def StreamItem.deliver (item : StreamItem) (registrations : List WatchTarget) : Delivery :=
  ⟨registrations, item.notification, item.surroundings⟩

variable (defaults encodeProof) in
/-- The record of the worker is that of these deliveries, and what else is registered has been
registered after them. -/
structure DeliveredAs (targets : List WatchTarget) (s : WorkerState)
    (deliveries : List Delivery) : Prop where
  order : deliveries.map Delivery.streamItem = s.record.map Prod.fst
  blocks : ((snapshots targets deliveries).flatMap fun snapshot =>
      (handled defaults encodeProof snapshot).trace.filter Effect.isRouting)
    = s.record.flatMap (recordedBlock defaults encodeProof)
  registered : ∃ later, s.targets
    = targets ++ deliveries.flatMap Delivery.registrations ++ later

/-- What the handler routes for a delivery is what the record says. -/
lemma handled_deliver (registrations : List WatchTarget) :
    (handled defaults encodeProof (l, item.deliver registrations)).trace.filter Effect.isRouting
      = if item.surroundings.isFinal (item.ref defaults) = .ok true then
          recordedBlock defaults encodeProof (item, some l)
        else [] :=
  handle_routing

lemma DeliveredAs.concat {s' : WorkerState} {snapshot : Option (List WatchTarget)}
    (registrations later : List WatchTarget)
    (h : DeliveredAs defaults encodeProof targets s deliveries)
    (hrecord : s'.record = s.record ++ [(item, snapshot)])
    (hblock : (handled defaults encodeProof (registeredAt targets deliveries
        (item.deliver registrations), item.deliver registrations)).trace.filter Effect.isRouting
      = recordedBlock defaults encodeProof (item, snapshot))
    (htargets : s'.targets
      = registeredAt targets deliveries (item.deliver registrations) ++ later) :
    DeliveredAs defaults encodeProof targets s' (deliveries ++ [item.deliver registrations]) where
  order := by
    rw [hrecord, List.map_append, List.map_append, h.order]
    rfl
  blocks := by
    have hrecorded : s'.record.flatMap (recordedBlock defaults encodeProof)
        = s.record.flatMap (recordedBlock defaults encodeProof)
          ++ recordedBlock defaults encodeProof (item, snapshot) := by
      rw [hrecord, List.flatMap_append, List.flatMap_singleton]
    rw [hrecorded, snapshots_concat, List.flatMap_append, h.blocks, List.flatMap_singleton, hblock]
  registered := by
    refine ⟨later, ?_⟩
    rw [htargets, registeredAt, List.flatMap_append, List.flatMap_singleton,
      List.append_assoc targets]

lemma DeliveredAs.step (h : DeliveredAs defaults encodeProof targets s deliveries)
    (hinv : Inv defaults encodeProof targets registered stream s) :
    ∃ deliveries', DeliveredAs defaults encodeProof targets (workerStep defaults encodeProof s)
      deliveries' := by
  obtain ⟨later, hlater⟩ := h.registered
  rcases hinv.step_record with hsame | ⟨item, hnote⟩ | ⟨item, -, hnote⟩
  · refine ⟨deliveries, ?_, ?_, later, ?_⟩
    · rw [hsame]
      exact h.order
    · rw [hsame]
      exact h.blocks
    · rw [workerStep_targets, hlater]
  · have hfinal : ¬ item.surroundings.isFinal (item.ref defaults) = .ok true := by
      intro hfinal
      have := (hinv.step.final_iff (item, none) (by rw [hnote]; simp)).mpr hfinal
      cases this
    -- the registrations so far are left to the next snapshot
    refine ⟨_, h.concat [] later hnote ?_ ?_⟩
    · rw [handled_deliver, if_neg hfinal]
      rfl
    · rw [workerStep_targets, hlater]
      simp [registeredAt, StreamItem.deliver]
  · have hfinal : item.surroundings.isFinal (item.ref defaults) = .ok true :=
      (hinv.step.final_iff (item, some s.targets) (by rw [hnote]; simp)).mp rfl
    refine ⟨_, h.concat later [] hnote ?_ ?_⟩
    · rw [handled_deliver, if_pos hfinal, hlater]
      rfl
    · rw [workerStep_targets, hlater, List.append_nil]
      rfl

/-- A run is one of deliveries between which the registrations fall. -/
lemma exists_deliveredAs (h : DeliveredAs defaults encodeProof targets s deliveries)
    (hinv : Inv defaults encodeProof targets registered stream s) (events : List WorkerEvent) :
    ∃ deliveries', DeliveredAs defaults encodeProof targets
      (runWorker defaults encodeProof s events) deliveries' := by
  induction events generalizing registered s deliveries with
  | nil => exact ⟨deliveries, h⟩
  | cons event events ih =>
    cases event with
    | register target =>
      obtain ⟨later, hlater⟩ := h.registered
      refine ih ⟨h.order, h.blocks, later ++ [target], ?_⟩ (hinv.register target)
      show s.targets ++ [target] = _
      rw [hlater, List.append_assoc]
    | advance =>
      obtain ⟨deliveries', h'⟩ := h.step hinv
      exact ih h' hinv.step

/-- **Interleavings are runs of the loop.**  At the end of a stream without a panicking answer,
the calls of the router are those of `run_with_finality_stream` as a loop over this stream, with
the registrations between its notifications. -/
theorem worker_refines_stream
    (hpanics : NoPanic defaults encodeProof stream
      (targets ++ events.flatMap WorkerEvent.registered))
    (hend : (runWorker defaults encodeProof (.start targets stream) events).phase = .finished) :
    ∃ deliveries : List Delivery, deliveries.map Delivery.streamItem = stream ∧
      (runWorker defaults encodeProof (.start targets stream) events).calls
        = (runWithFinalityStream defaults encodeProof targets deliveries).trace.filter
            Effect.isRouting := by
  have hstart : DeliveredAs defaults encodeProof targets (.start targets stream) [] :=
    ⟨rfl, rfl, [], by simp [WorkerState.start]⟩
  obtain ⟨deliveries, h⟩ := exists_deliveredAs hstart (inv_start targets stream) events
  have hroutes := routesInOrder_of_finished hend
  have horder : deliveries.map Delivery.streamItem = stream := h.order.trans hroutes.order
  have hconsumed : (runWithFinalityStream defaults encodeProof targets deliveries).outcome
      = .ok () := by
    refine runWithFinalityStream_consumed fun d hd target htarget i => ?_
    refine hpanics d.streamItem (horder ▸ List.mem_map_of_mem hd) target ?_ i
    obtain ⟨later, hlater⟩ := h.registered
    rw [← (inv_reached defaults encodeProof targets stream events).targets_eq, hlater]
    exact List.mem_append_left _ htarget
  exact ⟨deliveries, horder, by
    rw [hroutes.calls, runWithFinalityStream_routing hconsumed, h.blocks]⟩

end FrostSubstrate
