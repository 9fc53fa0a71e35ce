/-
The order in which the worker calls the router.

Whatever the interleaving with registrations, the calls are those of one notification after
the other, and for each notification those for the snapshot of the list that was taken for it
(`worker_routes`).
-/
import FrostSubstrate.Observer.Interleaving
import FrostSubstrate.Observer.Redelivery

namespace FrostSubstrate

open Traced

variable {defaults : FrostDefaults} {encodeProof : StateProof → Bytes}
  {targets registered l : List WatchTarget} {stream : List StreamItem} {s : WorkerState}
  {item : StreamItem} {events : List WorkerEvent} {e : Effect} {deliveries : List Delivery}

/-! ### The snapshots -/

/-- A step enters at most one notification into the record; with a snapshot only where the
lock of the list is taken, and then with the list of that moment. -/
lemma Inv.step_record (h : Inv defaults encodeProof targets registered stream s) :
    (workerStep defaults encodeProof s).record = s.record ∨
      (∃ item, (workerStep defaults encodeProof s).record = s.record ++ [(item, none)]) ∨
      ∃ item, s.phase = .snapshotting item ∧
        (workerStep defaults encodeProof s).record = s.record ++ [(item, some s.targets)] := by
  rcases workerStep_move h.consistent with hmove | ⟨-, hsame⟩
  · generalize workerStep defaults encodeProof s = s' at hmove
    cases hmove with
    | skip item => exact Or.inr (Or.inl ⟨item, rfl⟩)
    | snapshot item hphase => exact Or.inr (Or.inr ⟨item, hphase, rfl⟩)
    | _ => exact Or.inl rfl
  · exact Or.inl (congrArg WorkerState.record hsame)

lemma entry_of_note {record : List (StreamItem × Option (List WatchTarget))}
    {entry entry' : StreamItem × Option (List WatchTarget)} {k : ℕ}
    (h : (record ++ [entry'])[k]? = some entry) :
    record[k]? = some entry ∨ k = record.length ∧ entry = entry' := by
  rcases Nat.lt_or_ge k record.length with hk | hk
  · exact Or.inl (by rwa [List.getElem?_append_left hk] at h)
  · rw [List.getElem?_append_right hk, List.getElem?_singleton] at h
    split_ifs at h with hzero
    exact Or.inr ⟨by omega, (Option.some.inj h).symm⟩

/-- A snapshot in the record has been taken at a moment of the run, with the targets that were
registered by then. -/
lemma record_snapshot {k : ℕ}
    (h : (runWorker defaults encodeProof (.start targets stream) events).record[k]?
      = some (item, some l)) :
    ∃ before after, events = before ++ .advance :: after ∧
      (runWorker defaults encodeProof (.start targets stream) before).phase
        = .snapshotting item ∧
      (runWorker defaults encodeProof (.start targets stream) before).record.length = k ∧
      l = targets ++ before.flatMap WorkerEvent.registered := by
  induction events using List.reverseRecOn with
  | nil => cases h
  | append_singleton events event ih =>
    have hearlier : (runWorker defaults encodeProof (.start targets stream) events).record[k]?
        = some (item, some l) → ∃ before after, events ++ [event] = before ++ .advance :: after ∧
          (runWorker defaults encodeProof (.start targets stream) before).phase
            = .snapshotting item ∧
          (runWorker defaults encodeProof (.start targets stream) before).record.length = k ∧
          l = targets ++ before.flatMap WorkerEvent.registered := by
      intro h
      obtain ⟨before, after, rfl, hrest⟩ := ih h
      exact ⟨before, after ++ [event], List.append_assoc _ _ _, hrest⟩
    rw [runWorker_append] at h
    cases event with
    | register target => exact hearlier h
    | advance =>
      set s := runWorker defaults encodeProof (.start targets stream) events with hs
      change (workerStep defaults encodeProof s).record[k]? = some (item, some l) at h
      rcases (inv_reached defaults encodeProof targets stream events).step_record with
        hsame | ⟨item', hnote⟩ | ⟨item', hphase, hnote⟩
      · exact hearlier (hsame ▸ h)
      · rcases entry_of_note (hnote ▸ h) with h | ⟨-, hentry⟩
        · exact hearlier h
        · cases hentry
      · rcases entry_of_note (hnote ▸ h) with h | ⟨hk, hentry⟩
        · exact hearlier h
        · obtain ⟨rfl, rfl⟩ : item = item' ∧ l = s.targets := by simpa using hentry
          exact ⟨events, [], rfl, hphase, hk.symm,
            (inv_reached defaults encodeProof targets stream events).targets_eq⟩

/-! ### The end of the stream -/

namespace WorkerPhase

/-- The notification at hand. -/
def items : WorkerPhase → List StreamItem
  | judging item => [item]
  | snapshotting item => [item]
  | matching item _ _ => [item]
  | proving item _ _ _ => [item]
  | routing item _ _ _ _ _ => [item]
  | _ => []

/-- The targets the worker still goes through for it. -/
def ahead : WorkerPhase → List WatchTarget
  | matching _ _ rest => rest
  | proving _ _ target rest => target :: rest
  | routing _ _ _ target _ rest => target :: rest
  | _ => []

/-- How many steps the worker is from the next notification at most, with `n` targets
registered. -/
def distance (n : ℕ) : WorkerPhase → ℕ
  | waiting => 1
  | judging _ => 3 * n + 4
  | snapshotting _ => 3 * n + 3
  | matching _ _ rest => 3 * rest.length + 2
  | proving _ _ _ rest => 3 * rest.length + 4
  | routing _ _ _ _ _ rest => 3 * rest.length + 3
  | finished => 0
  | crashed => 0

end WorkerPhase

/-- How many steps the worker is from the end of the stream at most. -/
def WorkerState.distance (s : WorkerState) : ℕ :=
  s.stream.length * (3 * s.targets.length + 5) + s.phase.distance s.targets.length

lemma workerStep_targets (s : WorkerState) :
    (workerStep defaults encodeProof s).targets = s.targets := by
  unfold workerStep
  repeat' split
  all_goals rfl

/-- The notification at hand and those that follow it. -/
def WorkerState.left (s : WorkerState) : List StreamItem := s.phase.items ++ s.stream

/-- The targets the worker may come to without further registrations. -/
def WorkerState.known (s : WorkerState) : List WatchTarget := s.phase.ahead ++ s.targets

namespace WorkerPhase.At

variable {i : ℕ} {target : WatchTarget} {rest : List WatchTarget} {p : WorkerPhase}

lemma items_eq (h : p.At item i target rest) : p.items = [item] := by
  cases h <;> rfl

lemma ahead_eq (h : p.At item i target rest) : p.ahead = target :: rest := by
  cases h <;> rfl

lemma lt_distance (h : p.At item i target rest) (n : ℕ) :
    3 * rest.length + 2 < p.distance n := by
  cases h <;> simp only [WorkerPhase.distance, List.length_cons] <;> omega

end WorkerPhase.At

namespace WorkerMove

variable {s' : WorkerState}

lemma distance_lt (h : WorkerMove defaults encodeProof s s') : s'.distance < s.distance := by
  have hgoTo : ∀ p : WorkerPhase, p.distance s.targets.length < s.phase.distance s.targets.length →
      (s.goTo p).distance < s.distance := fun p hp => Nat.add_lt_add_left hp _
  cases h with
  | stop hphase hstream => exact hgoTo _ (by rw [hphase]; exact Nat.zero_lt_one)
  | take item stream hphase hstream =>
    simp only [WorkerState.distance, hphase, hstream, WorkerPhase.distance, List.length_cons,
      Nat.add_mul]
    omega
  | accept item hphase => exact hgoTo _ (by rw [hphase]; exact Nat.lt_succ_self _)
  | skip item hphase =>
    exact hgoTo _ (by rw [hphase]; simp only [WorkerPhase.distance]; omega)
  | snapshot item hphase => exact hgoTo _ (by rw [hphase]; exact Nat.lt_succ_self _)
  | exhaust item i hphase =>
    exact hgoTo _ (by rw [hphase]; simp [WorkerPhase.distance])
  | matched item i target rest hphase =>
    exact hgoTo _ (by rw [hphase]; simp only [WorkerPhase.distance, List.length_cons]; omega)
  | proved item i target rest router message hphase =>
    exact hgoTo _ (by rw [hphase]; exact Nat.lt_succ_self _)
  | pass item i target rest f hphase => exact hgoTo _ (hphase.lt_distance _)
  | deliver item i target rest message hphase => exact hgoTo _ (hphase.lt_distance _)
  | abandon item i target rest hphase =>
    exact hgoTo _ (Nat.lt_of_le_of_lt (by simp [WorkerPhase.distance]) (hphase.lt_distance _))
  | crash item i target rest hphase =>
    exact hgoTo _ (Nat.lt_of_le_of_lt (Nat.zero_le _) (hphase.lt_distance _))
  | refuse item i target rest message hphase =>
    exact hgoTo _ (Nat.lt_of_le_of_lt (by simp [WorkerPhase.distance]) (hphase.lt_distance _))

lemma left_suffix (h : WorkerMove defaults encodeProof s s') : s'.left <:+ s.left := by
  unfold WorkerState.left
  cases h with
  | stop hphase => rw [hphase]; exact List.suffix_rfl
  | take item stream hphase hstream => rw [hphase, hstream]; exact List.suffix_rfl
  | accept item hphase => rw [hphase]; exact List.suffix_rfl
  | skip item hphase => rw [hphase]; exact List.suffix_append _ _
  | snapshot item hphase => rw [hphase]; exact List.suffix_rfl
  | exhaust item i hphase => rw [hphase]; exact List.suffix_append _ _
  | matched item i target rest hphase => rw [hphase]; exact List.suffix_rfl
  | proved item i target rest router message hphase => rw [hphase]; exact List.suffix_rfl
  | pass item i target rest f hphase => rw [hphase.items_eq]; exact List.suffix_rfl
  | abandon item i target rest hphase => exact List.suffix_append _ _
  | crash item i target rest hphase => exact List.suffix_append _ _
  | deliver item i target rest message hphase => rw [hphase.items_eq]; exact List.suffix_rfl
  | refuse item i target rest message hphase => exact List.suffix_append _ _

lemma known_subset (h : WorkerMove defaults encodeProof s s') : s'.known ⊆ s.known := by
  unfold WorkerState.known
  cases h with
  | snapshot item hphase =>
    exact List.append_subset.mpr ⟨List.subset_append_right _ _, List.subset_append_right _ _⟩
  | matched item i target rest hphase => rw [hphase]; exact List.Subset.refl _
  | proved item i target rest router message hphase => rw [hphase]; exact List.Subset.refl _
  | pass item i target rest f hphase =>
    rw [hphase.ahead_eq]
    exact List.subset_cons_self _ _
  | deliver item i target rest message hphase =>
    rw [hphase.ahead_eq]
    exact List.subset_cons_self _ _
  | _ => exact List.subset_append_right _ _

end WorkerMove

lemma Inv.step_left (h : Inv defaults encodeProof targets registered stream s) :
    (workerStep defaults encodeProof s).left <:+ s.left := by
  rcases workerStep_move h.consistent with hmove | ⟨-, hsame⟩
  · exact hmove.left_suffix
  · rw [hsame]

lemma Inv.step_known (h : Inv defaults encodeProof targets registered stream s) :
    (workerStep defaults encodeProof s).known ⊆ s.known := by
  rcases workerStep_move h.consistent with hmove | ⟨-, hsame⟩
  · exact hmove.known_subset
  · rw [hsame]
    exact List.Subset.refl _

variable (defaults encodeProof) in
/-- None of these notifications makes one of these targets crash. -/
def NoPanic (items : List StreamItem) (targets : List WatchTarget) : Prop :=
  ∀ item ∈ items, ∀ target ∈ targets, ∀ i, item.fate defaults encodeProof i target ≠ .crashed

lemma NoPanic.mono {items items' : List StreamItem} {targets targets' : List WatchTarget}
    (h : NoPanic defaults encodeProof items targets) (hitems : items' ⊆ items)
    (htargets : targets' ⊆ targets) : NoPanic defaults encodeProof items' targets' :=
  fun item hitem target htarget => h item (hitems hitem) target (htargets htarget)

/-- The worker only crashes for a target whose fate is to crash. -/
lemma Inv.step_ne_crashed (h : Inv defaults encodeProof targets registered stream s)
    (hpanics : NoPanic defaults encodeProof s.left s.known) (hcrashed : s.phase ≠ .crashed) :
    (workerStep defaults encodeProof s).phase ≠ .crashed := by
  rcases workerStep_move h.consistent with hmove | ⟨-, hsame⟩
  · generalize workerStep defaults encodeProof s = s' at hmove
    cases hmove with
    | crash item i target rest hphase hfate =>
      refine absurd hfate (hpanics item ?_ target ?_ i)
      · rw [WorkerState.left, hphase.items_eq]
        exact List.mem_cons_self
      · rw [WorkerState.known, hphase.ahead_eq]
        exact List.mem_cons_self
    | _ => rintro ⟨⟩
  · rw [hsame]
    exact hcrashed

lemma Inv.step_noPanic {later : List WatchTarget}
    (h : Inv defaults encodeProof targets registered stream s)
    (hpanics : NoPanic defaults encodeProof s.left (s.known ++ later)) :
    NoPanic defaults encodeProof (workerStep defaults encodeProof s).left
      ((workerStep defaults encodeProof s).known ++ later) :=
  hpanics.mono h.step_left.subset (List.append_subset.mpr
    ⟨List.subset_append_of_subset_left _ h.step_known, List.subset_append_right _ _⟩)

lemma Inv.run_ne_crashed (h : Inv defaults encodeProof targets registered stream s)
    (events : List WorkerEvent)
    (hpanics : NoPanic defaults encodeProof s.left
      (s.known ++ events.flatMap WorkerEvent.registered))
    (hcrashed : s.phase ≠ .crashed) :
    (runWorker defaults encodeProof s events).phase ≠ .crashed ∧
      NoPanic defaults encodeProof (runWorker defaults encodeProof s events).left
        (runWorker defaults encodeProof s events).known := by
  induction events generalizing registered s with
  | nil => exact ⟨hcrashed, hpanics.mono (List.Subset.refl _) (List.subset_append_left _ _)⟩
  | cons event events ih =>
    cases event with
    | register target =>
      refine ih (h.register target) (hpanics.mono (List.Subset.refl _) ?_) hcrashed
      show s.phase.ahead ++ (s.targets ++ [target]) ++ _ ⊆ _
      simp [WorkerState.known, WorkerEvent.registered]
    | advance =>
      exact ih h.step (h.step_noPanic hpanics) (h.step_ne_crashed
        (hpanics.mono (List.Subset.refl _) (List.subset_append_left _ _)) hcrashed)

/-- Left alone, a worker that meets no panic comes to the end of the stream. -/
lemma Inv.finishes (h : Inv defaults encodeProof targets registered stream s)
    (hpanics : NoPanic defaults encodeProof s.left s.known) (hcrashed : s.phase ≠ .crashed) :
    ∃ n, (runWorker defaults encodeProof s (List.replicate n .advance)).phase = .finished := by
  induction hdistance : s.distance using Nat.strong_induction_on generalizing s with
  | _ d ih =>
    by_cases hfinished : s.phase = .finished
    · exact ⟨0, hfinished⟩
    · have hcloser : (workerStep defaults encodeProof s).distance < s.distance := by
        rcases workerStep_move h.consistent with hmove | ⟨hend | hend, -⟩
        · exact hmove.distance_lt
        · exact absurd hend hfinished
        · exact absurd hend hcrashed
      obtain ⟨n, hn⟩ := ih _ (hdistance ▸ hcloser) h.step
        (hpanics.mono h.step_left.subset h.step_known)
        (h.step_ne_crashed hpanics hcrashed) rfl
      exact ⟨n + 1, hn⟩

/-! ### The sequence of calls -/

variable (defaults encodeProof) in
/-- What the worker has done when it has come to the end of the stream: it has taken up all
notifications in their order; its calls are, one notification after the other, those for the
snapshots; and a snapshot is taken exactly for the final blocks, with the targets that are
registered at that moment of the run. -/
structure RoutesInOrder (targets : List WatchTarget) (stream : List StreamItem)
    (events : List WorkerEvent) (s : WorkerState) : Prop where
  order : s.record.map Prod.fst = stream
  calls : s.calls = s.record.flatMap (recordedBlock defaults encodeProof)
  skipped : ∀ item, (item, none) ∈ s.record →
    item.surroundings.isFinal (item.ref defaults) ≠ .ok true
  snapshots : ∀ k item snapshot, s.record[k]? = some (item, some snapshot) →
    item.surroundings.isFinal (item.ref defaults) = .ok true ∧
    ∃ before after, events = before ++ .advance :: after ∧
      (runWorker defaults encodeProof (.start targets stream) before).phase
        = .snapshotting item ∧
      (runWorker defaults encodeProof (.start targets stream) before).record.length = k ∧
      snapshot = targets ++ before.flatMap WorkerEvent.registered

lemma routesInOrder_of_finished
    (hend : (runWorker defaults encodeProof (.start targets stream) events).phase = .finished) :
    RoutesInOrder defaults encodeProof targets stream events
      (runWorker defaults encodeProof (.start targets stream) events) := by
  have h := inv_reached defaults encodeProof targets stream events
  refine ⟨?_, ?_, ?_, ?_⟩
  · have := h.stream_eq
    rw [h.at_end hend, hend] at this
    simpa [WorkerPhase.unrecorded] using this
  · have := h.calls_eq
    rw [hend] at this
    simpa [WorkerPhase.pending] using this
  · intro item hentry hfinal
    have := (h.final_iff _ hentry).mpr hfinal
    cases this
  · intro k item snapshot hentry
    exact ⟨(h.final_iff _ (List.mem_of_getElem? hentry)).mp rfl, record_snapshot hentry⟩

lemma mem_recordedBlock {entry : StreamItem × Option (List WatchTarget)}
    (he : e ∈ recordedBlock defaults encodeProof entry) :
    ∃ snapshot i target message accepted, entry.2 = some snapshot ∧ target ∈ snapshot ∧
      e = .routed (entry.1.ref defaults) i target message accepted := by
  obtain ⟨item, _ | snapshot⟩ := entry
  · cases he
  · rw [recordedBlock, ← routingCalls_eq] at he
    obtain ⟨k, target, hget, -, he⟩ := mem_routingCalls he
    have hmem : target ∈ snapshot := List.mem_of_getElem? hget
    generalize FrostSubstrate.fate defaults encodeProof item.surroundings (item.ref defaults)
      (0 + k) target = f at he
    cases f with
    | delivered message =>
      obtain rfl := List.mem_singleton.mp he
      exact ⟨snapshot, 0 + k, target, message, true, rfl, hmem, rfl⟩
    | refused message =>
      obtain rfl := List.mem_singleton.mp he
      exact ⟨snapshot, 0 + k, target, message, false, rfl, hmem, rfl⟩
    | unmatched => cases he
    | unrouted => cases he
    | failed => cases he
    | crashed => cases he

/-- Nothing is routed, at any moment of a run, but for a final block of the stream and a target
that has been registered. -/
lemma routed_only
    (he : e ∈ (runWorker defaults encodeProof (.start targets stream) events).calls) :
    ∃ item ∈ stream, item.surroundings.isFinal (item.ref defaults) = .ok true ∧
      ∃ target ∈ targets ++ events.flatMap WorkerEvent.registered, ∃ i message accepted,
        e = .routed (item.ref defaults) i target message accepted := by
  have h := inv_reached defaults encodeProof targets stream events
  have hmem := List.mem_append_left
    ((runWorker defaults encodeProof (.start targets stream) events).phase.pending defaults
      encodeProof) he
  rw [h.calls_eq] at hmem
  obtain ⟨⟨item, snapshot⟩, hentry, he⟩ := List.mem_flatMap.mp hmem
  obtain ⟨l, i, target, message, accepted, rfl, htarget, rfl⟩ := mem_recordedBlock he
  refine ⟨item, ?_, (h.final_iff _ hentry).mp rfl, target, ?_, i, message, accepted, rfl⟩
  · have := h.stream_eq
    rw [List.append_assoc] at this
    rw [← this]
    exact List.mem_append_left _ (List.mem_map_of_mem hentry)
  · obtain ⟨k, hk⟩ := List.getElem?_of_mem hentry
    obtain ⟨before, after, rfl, -, -, rfl⟩ := record_snapshot hk
    rw [List.flatMap_append, ← List.append_assoc]
    exact List.mem_append_left _ htarget

/-- **What the worker routes.**  For every stream without a panicking answer and every
interleaving of its steps with registrations, the worker can be led to the end of the stream;
when it is there, its calls of the router are those for the snapshots, in the order of the
stream; and at every moment they are calls for final blocks and registered targets. -/
theorem worker_routes (targets : List WatchTarget) (stream : List StreamItem)
    (events : List WorkerEvent)
    (hpanics : NoPanic defaults encodeProof stream
      (targets ++ events.flatMap WorkerEvent.registered)) :
    (∃ n, (runWorker defaults encodeProof (.start targets stream)
        (events ++ List.replicate n .advance)).phase = .finished) ∧
      ((runWorker defaults encodeProof (.start targets stream) events).phase = .finished →
        RoutesInOrder defaults encodeProof targets stream events
          (runWorker defaults encodeProof (.start targets stream) events)) ∧
      ∀ e ∈ (runWorker defaults encodeProof (.start targets stream) events).calls,
        ∃ item ∈ stream, item.surroundings.isFinal (item.ref defaults) = .ok true ∧
          ∃ target ∈ targets ++ events.flatMap WorkerEvent.registered, ∃ i message accepted,
            e = .routed (item.ref defaults) i target message accepted := by
  refine ⟨?_, routesInOrder_of_finished, fun e he => routed_only he⟩
  have hstart : Inv defaults encodeProof targets [] stream (.start targets stream) :=
    inv_start targets stream
  obtain ⟨hcrashed, hrest⟩ := hstart.run_ne_crashed events hpanics (by rintro ⟨⟩)
  obtain ⟨n, hn⟩ := (inv_reached defaults encodeProof targets stream events).finishes hrest hcrashed
  refine ⟨n, ?_⟩
  rw [runWorker_append]
  exact hn

/-! ### A target registered behind a failure -/

lemma fate_ne_crashed {w : Surroundings} {blockRef : BlockRef} {i : ℕ} {target : WatchTarget}
    (hmatch : matchesWatchTarget (w.events i) blockRef target ≠ .panicked)
    (hproof : ∀ transition, w.generateProof i transition .default ≠ .panicked) :
    fate defaults encodeProof w blockRef i target ≠ .crashed := by
  unfold fate
  rcases hanswer : matchesWatchTarget (w.events i) blockRef target with (_ | _) | err | _
  · rintro ⟨⟩
  · rcases generateStateTransition defaults (w.now i) blockRef target with err | transition
    · rintro ⟨⟩
    · rcases hgenerated : w.generateProof i transition.into .default with proof | err | _
      · simp only [hgenerated]
        split
        · rintro ⟨⟩
        · split <;> rintro ⟨⟩
      · simp only [hgenerated]
        rintro ⟨⟩
      · exact absurd hgenerated (hproof _)
  · rintro ⟨⟩
  · exact absurd hanswer hmatch

/-- The sample block is notified twice; the first time its first proof is rejected. -/
def retriedStream : List StreamItem :=
  [⟨sampleNotification, rejecting [0]⟩, ⟨sampleNotification, rejecting []⟩]

/-- A second target is registered when the first snapshot has been taken. -/
def registeringEvents : List WorkerEvent :=
  [.advance, .advance, .advance, .register secondTarget] ++ List.replicate 13 .advance

lemma retriedStream_noPanic :
    NoPanic zeroDefaults (fun _ => [1]) retriedStream
      ([sampleTarget] ++ registeringEvents.flatMap WorkerEvent.registered) := by
  intro item hitem target htarget i
  have htargets : target = sampleTarget ∨ target = secondTarget := by
    simpa [registeringEvents, WorkerEvent.registered] using htarget
  have hproof : ∀ places transition,
      (rejecting places).generateProof i transition .default ≠ .panicked := by
    intro places transition
    simp only [rejecting]
    split_ifs <;> rintro ⟨⟩
  simp only [retriedStream, List.mem_cons, List.not_mem_nil, or_false] at hitem
  rcases hitem with rfl | rfl
  · rcases htargets with rfl | rfl
    · exact fate_ne_crashed (by rintro ⟨⟩) (hproof _)
    · exact fate_ne_crashed (by rintro ⟨⟩) (hproof _)
  · rcases htargets with rfl | rfl
    · exact fate_ne_crashed (by rintro ⟨⟩) (hproof _)
    · exact fate_ne_crashed (by rintro ⟨⟩) (hproof _)

/-- Nothing is routed for the first notification, and both targets for the second. -/
example : (runWorker zeroDefaults (fun _ => [1]) (.start [sampleTarget] retriedStream)
      registeringEvents).phase = .finished ∧
    (runWorker zeroDefaults (fun _ => [1]) (.start [sampleTarget] retriedStream)
      registeringEvents).calls
        = [.routed (notifiedRef zeroDefaults sampleNotification) 0 sampleTarget
            ⟨.stateTransition, [1], "source", none⟩ true,
          .routed (notifiedRef zeroDefaults sampleNotification) 1 secondTarget
            ⟨.stateTransition, [1], "source", none⟩ true] :=
  ⟨rfl, rfl⟩

/-- The statement for this run. -/
theorem worker_routes_registering :
    (∃ n, (runWorker zeroDefaults (fun _ => [1]) (.start [sampleTarget] retriedStream)
        (registeringEvents ++ List.replicate n .advance)).phase = .finished) ∧
      ((runWorker zeroDefaults (fun _ => [1]) (.start [sampleTarget] retriedStream)
          registeringEvents).phase = .finished →
        RoutesInOrder zeroDefaults (fun _ => [1]) [sampleTarget] retriedStream registeringEvents
          (runWorker zeroDefaults (fun _ => [1]) (.start [sampleTarget] retriedStream)
            registeringEvents)) ∧
      ∀ e ∈ (runWorker zeroDefaults (fun _ => [1]) (.start [sampleTarget] retriedStream)
          registeringEvents).calls,
        ∃ item ∈ retriedStream, item.surroundings.isFinal (item.ref zeroDefaults) = .ok true ∧
          ∃ target ∈ [sampleTarget] ++ registeringEvents.flatMap WorkerEvent.registered,
            ∃ i message accepted,
              e = .routed (item.ref zeroDefaults) i target message accepted :=
  worker_routes _ _ _ retriedStream_noPanic

end FrostSubstrate
