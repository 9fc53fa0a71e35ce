/-
The worker while targets are being registered.

`run_with_finality_stream` waits at every question it asks, and `register_watch_target` may
run in each of these pauses.  Here the worker is a machine that takes one such step at a
time, from the answer to one question to the answer to the next; a run mixes its steps with
registrations in any order.

The machine keeps a record of the notifications it has taken up, each with the snapshot of
the list that was taken for it, if the block was final.  `Inv` says what the record has to
do with the calls of the router made so far; one step preserves it (`Inv.step`) and so does a
run (`inv_run`).
-/
import FrostSubstrate.Lib.Runs
import FrostSubstrate.Observer.Routing

namespace FrostSubstrate

/-- A notification of the stream, and the answers of the outside while it is handled. -/
structure StreamItem where
  notification : FinalityNotification
  surroundings : Surroundings

/-- Where the worker waits: for the next notification, for `is_final`, for the lock of the
list, for the events of a block, for a proof, for the router; or it has come to its end. -/
inductive WorkerPhase where
  | waiting
  | judging (item : StreamItem)
  | snapshotting (item : StreamItem)
  | matching (item : StreamItem) (i : ℕ) (rest : List WatchTarget)
  | proving (item : StreamItem) (i : ℕ) (target : WatchTarget) (rest : List WatchTarget)
  | routing (item : StreamItem) (router : ℕ → FrostMessage → Except String Unit) (i : ℕ)
      (target : WatchTarget) (message : FrostMessage) (rest : List WatchTarget)
  | finished
  | crashed

/-- The registered targets, what is left of the stream, the place of the worker, the calls of
the router made so far, and the record of the notifications taken up so far. -/
structure WorkerState where
  targets : List WatchTarget
  stream : List StreamItem
  phase : WorkerPhase
  calls : List Effect
  record : List (StreamItem × Option (List WatchTarget))

namespace WorkerState

/-- The worker before its first step. -/
def start (targets : List WatchTarget) (stream : List StreamItem) : WorkerState :=
  ⟨targets, stream, .waiting, [], []⟩

/-- `register_watch_target`. -/
def register (s : WorkerState) (target : WatchTarget) : WorkerState :=
  { s with targets := s.targets ++ [target] }

/-- Go on elsewhere. -/
def goTo (s : WorkerState) (phase : WorkerPhase) : WorkerState := { s with phase := phase }

/-- Note that a notification has been taken up, and go on. -/
def note (s : WorkerState) (item : StreamItem) (snapshot : Option (List WatchTarget))
    (phase : WorkerPhase) : WorkerState :=
  { s with record := s.record ++ [(item, snapshot)], phase := phase }

/-- Call the router, and go on. -/
def call (s : WorkerState) (e : Effect) (phase : WorkerPhase) : WorkerState :=
  { s with calls := s.calls ++ [e], phase := phase }

end WorkerState

variable (defaults : FrostDefaults) (encodeProof : StateProof → Bytes)

/-- The block of a notification of the stream. -/
def StreamItem.ref (item : StreamItem) : BlockRef := notifiedRef defaults item.notification

/-- What becomes of a target under the answers given for this notification. -/
def StreamItem.fate (item : StreamItem) (i : ℕ) (target : WatchTarget) : Fate :=
  FrostSubstrate.fate defaults encodeProof item.surroundings (item.ref defaults) i target

/-- One step of `run_with_finality_stream`: an error in the handler is logged, and the worker
waits for the next notification; a panic ends it. -/
def workerStep (s : WorkerState) : WorkerState :=
  match s.phase with
  | .waiting =>
    match s.stream with
    | [] => s.goTo .finished
    | item :: stream => { s with stream := stream, phase := .judging item }
  | .judging item =>
    match item.surroundings.isFinal (item.ref defaults) with
    | .ok true => s.goTo (.snapshotting item)
    | _ => s.note item none .waiting
  | .snapshotting item => s.note item (some s.targets) (.matching item 0 s.targets)
  | .matching _ _ [] => s.goTo .waiting
  | .matching item i (target :: rest) =>
    match matchesWatchTarget (item.surroundings.events i) (item.ref defaults) target with
    | .ok true => s.goTo (.proving item i target rest)
    | .ok false => s.goTo (.matching item (i + 1) rest)
    | .err _ => s.goTo .waiting
    | .panicked => s.goTo .crashed
  | .proving item i target rest =>
    match generateStateTransition defaults (item.surroundings.now i) (item.ref defaults)
        target with
    | .error _ => s.goTo .waiting
    | .ok transition =>
      match item.surroundings.generateProof i transition.into .default with
      | .err _ => s.goTo .waiting
      | .panicked => s.goTo .crashed
      | .ok proof =>
        match item.surroundings.router with
        | none => s.goTo (.matching item (i + 1) rest)
        | some router =>
          s.goTo (.routing item router i target (proofMessage encodeProof proof) rest)
  | .routing item router i target message rest =>
    match router i message with
    | .ok () =>
      s.call (.routed (item.ref defaults) i target message true) (.matching item (i + 1) rest)
    | .error _ => s.call (.routed (item.ref defaults) i target message false) .waiting
  | .finished => s
  | .crashed => s

/-- What happens next: a registration, or a step of the worker. -/
inductive WorkerEvent where
  | register (target : WatchTarget)
  | advance

/-- The target a registration adds. -/
def WorkerEvent.registered : WorkerEvent → List WatchTarget
  | register target => [target]
  | advance => []

/-- One event. -/
def workerEvent (s : WorkerState) : WorkerEvent → WorkerState
  | .register target => s.register target
  | .advance => workerStep defaults encodeProof s

/-- A run of the worker and the registrations. -/
def runWorker (s : WorkerState) (events : List WorkerEvent) : WorkerState :=
  Runs.run (workerEvent defaults encodeProof) s events

/-- The calls of the router for an entry of the record: none without a snapshot. -/
def recordedBlock : StreamItem × Option (List WatchTarget) → List Effect
  | (_, none) => []
  | (item, some snapshot) =>
    routingBlock defaults encodeProof item.surroundings (item.ref defaults) snapshot

/-! ### What the record has to do with the calls -/

namespace WorkerPhase

/-- The notification that has been taken from the stream and is not in the record yet. -/
def unrecorded : WorkerPhase → List StreamItem
  | judging item => [item]
  | snapshotting item => [item]
  | _ => []

/-- The calls of the router still to come for the notification at hand. -/
def pending : WorkerPhase → List Effect
  | matching item i rest =>
    routingCalls defaults encodeProof item.surroundings (item.ref defaults) i rest
  | proving item i target rest =>
    routingCalls defaults encodeProof item.surroundings (item.ref defaults) i (target :: rest)
  | routing item _ i target _ rest =>
    routingCalls defaults encodeProof item.surroundings (item.ref defaults) i (target :: rest)
  | _ => []

/-- What the worker has found out on its way to this place. -/
def Consistent : WorkerPhase → Prop
  | snapshotting item => item.surroundings.isFinal (item.ref defaults) = .ok true
  | proving item i target _ =>
    matchesWatchTarget (item.surroundings.events i) (item.ref defaults) target = .ok true
  | routing item router i target message _ =>
    item.fate defaults encodeProof i target =
      match router i message with
      | .ok () => .delivered message
      | .error _ => .refused message
  | _ => True

end WorkerPhase

/-- The invariant of a run that started with `targets` and `stream` and in which `registered`
have been registered since. -/
structure Inv (targets registered : List WatchTarget) (stream : List StreamItem)
    (s : WorkerState) : Prop where
  targets_eq : s.targets = targets ++ registered
  stream_eq : s.record.map Prod.fst ++ s.phase.unrecorded ++ s.stream = stream
  calls_eq : s.calls ++ s.phase.pending defaults encodeProof
    = s.record.flatMap (recordedBlock defaults encodeProof)
  consistent : s.phase.Consistent defaults encodeProof
  final_iff : ∀ entry ∈ s.record, entry.2.isSome = true ↔
    entry.1.surroundings.isFinal (entry.1.ref defaults) = .ok true
  at_end : s.phase = .finished → s.stream = []

variable {defaults encodeProof} {targets registered rest l : List WatchTarget}
  {stream : List StreamItem} {s : WorkerState} {item : StreamItem} {i : ℕ} {target : WatchTarget}
  {p : WorkerPhase} {events : List WorkerEvent} {e : Effect}

lemma routingCalls_of_succeeds {f : Fate} (hfate : item.fate defaults encodeProof i target = f)
    (hf : f.succeeds = true) :
    routingCalls defaults encodeProof item.surroundings (item.ref defaults) i (target :: rest)
      = f.effects (item.ref defaults) i target ++
        routingCalls defaults encodeProof item.surroundings (item.ref defaults) (i + 1) rest := by
  subst hfate
  rw [routingCalls]
  exact congrArg _ (if_pos hf)

lemma routingCalls_of_stops {f : Fate} (hfate : item.fate defaults encodeProof i target = f)
    (hf : f.succeeds = false) :
    routingCalls defaults encodeProof item.surroundings (item.ref defaults) i (target :: rest)
      = f.effects (item.ref defaults) i target := by
  subst hfate
  have hnot : ¬ (item.fate defaults encodeProof i target).succeeds = true := by
    rw [hf]
    exact Bool.false_ne_true
  rw [routingCalls]
  exact (congrArg _ (if_neg hnot)).trans (List.append_nil _)

/-! ### One step -/

/-- The worker is at work on the target at place `i`, and `rest` follow it. -/
inductive WorkerPhase.At (item : StreamItem) (i : ℕ) (target : WatchTarget)
    (rest : List WatchTarget) : WorkerPhase → Prop where
  | matching : At item i target rest (.matching item i (target :: rest))
  | proving : At item i target rest (.proving item i target rest)
  | routing (router : ℕ → FrostMessage → Except String Unit) (message : FrostMessage) :
      At item i target rest (.routing item router i target message rest)

namespace WorkerPhase.At

lemma unrecorded_eq (h : p.At item i target rest) : p.unrecorded = [] := by
  cases h <;> rfl

lemma pending_eq (h : p.At item i target rest) : p.pending defaults encodeProof
    = routingCalls defaults encodeProof item.surroundings (item.ref defaults) i
        (target :: rest) := by
  cases h <;> rfl

end WorkerPhase.At

variable (defaults encodeProof) in
/-- The steps of a running worker: those between two notifications; the questions about a target
whose answers lead on to the next question; and the ends that work on a target may come to,
which are its fate. -/
inductive WorkerMove (s : WorkerState) : WorkerState → Prop where
  | stop (hphase : s.phase = .waiting) (hstream : s.stream = []) :
      WorkerMove s (s.goTo .finished)
  | take (item : StreamItem) (stream : List StreamItem) (hphase : s.phase = .waiting)
      (hstream : s.stream = item :: stream) :
      WorkerMove s { s with stream := stream, phase := .judging item }
  | accept (item : StreamItem) (hphase : s.phase = .judging item)
      (hfinal : item.surroundings.isFinal (item.ref defaults) = .ok true) :
      WorkerMove s (s.goTo (.snapshotting item))
  | skip (item : StreamItem) (hphase : s.phase = .judging item)
      (hfinal : ¬ item.surroundings.isFinal (item.ref defaults) = .ok true) :
      WorkerMove s (s.note item none .waiting)
  | snapshot (item : StreamItem) (hphase : s.phase = .snapshotting item) :
      WorkerMove s (s.note item (some s.targets) (.matching item 0 s.targets))
  | exhaust (item : StreamItem) (i : ℕ) (hphase : s.phase = .matching item i []) :
      WorkerMove s (s.goTo .waiting)
  | matched (item : StreamItem) (i : ℕ) (target : WatchTarget) (rest : List WatchTarget)
      (hphase : s.phase = .matching item i (target :: rest))
      (hconsistent : (WorkerPhase.proving item i target rest).Consistent defaults encodeProof) :
      WorkerMove s (s.goTo (.proving item i target rest))
  | proved (item : StreamItem) (i : ℕ) (target : WatchTarget) (rest : List WatchTarget)
      (router : ℕ → FrostMessage → Except String Unit) (message : FrostMessage)
      (hphase : s.phase = .proving item i target rest)
      (hconsistent : (WorkerPhase.routing item router i target message rest).Consistent defaults
        encodeProof) :
      WorkerMove s (s.goTo (.routing item router i target message rest))
  | pass (item : StreamItem) (i : ℕ) (target : WatchTarget) (rest : List WatchTarget) (f : Fate)
      (hphase : s.phase.At item i target rest) (hfate : item.fate defaults encodeProof i target = f)
      (hsucceeds : f.succeeds = true) (hsilent : f.effects (item.ref defaults) i target = []) :
      WorkerMove s (s.goTo (.matching item (i + 1) rest))
  | abandon (item : StreamItem) (i : ℕ) (target : WatchTarget) (rest : List WatchTarget)
      (hphase : s.phase.At item i target rest)
      (hfate : item.fate defaults encodeProof i target = .failed) :
      WorkerMove s (s.goTo .waiting)
  | crash (item : StreamItem) (i : ℕ) (target : WatchTarget) (rest : List WatchTarget)
      (hphase : s.phase.At item i target rest)
      (hfate : item.fate defaults encodeProof i target = .crashed) :
      WorkerMove s (s.goTo .crashed)
  | deliver (item : StreamItem) (i : ℕ) (target : WatchTarget) (rest : List WatchTarget)
      (message : FrostMessage) (hphase : s.phase.At item i target rest)
      (hfate : item.fate defaults encodeProof i target = .delivered message) :
      WorkerMove s (s.call (.routed (item.ref defaults) i target message true)
        (.matching item (i + 1) rest))
  | refuse (item : StreamItem) (i : ℕ) (target : WatchTarget) (rest : List WatchTarget)
      (message : FrostMessage) (hphase : s.phase.At item i target rest)
      (hfate : item.fate defaults encodeProof i target = .refused message) :
      WorkerMove s (s.call (.routed (item.ref defaults) i target message false) .waiting)

/-- The answer to `matches_watch_target`. -/
lemma move_of_matching (hphase : s.phase = .matching item i (target :: rest)) :
    WorkerMove defaults encodeProof s (workerStep defaults encodeProof s) := by
  have hat : s.phase.At item i target rest := hphase ▸ .matching
  rw [workerStep, hphase]
  simp only
  rcases hmatch : matchesWatchTarget (item.surroundings.events i) (item.ref defaults) target with
    (_ | _) | err | _
  · exact .pass item i target rest .unmatched hat
      (by simp only [StreamItem.fate, fate, hmatch]) rfl rfl
  · exact .matched item i target rest hphase hmatch
  · exact .abandon item i target rest hat (by simp only [StreamItem.fate, fate, hmatch])
  · exact .crash item i target rest hat (by simp only [StreamItem.fate, fate, hmatch])

/-- The transition and the proof for a target that matches. -/
lemma move_of_proving (hphase : s.phase = .proving item i target rest)
    (hmatch : matchesWatchTarget (item.surroundings.events i) (item.ref defaults) target
      = .ok true) :
    WorkerMove defaults encodeProof s (workerStep defaults encodeProof s) := by
  have hat : s.phase.At item i target rest := hphase ▸ .proving
  rw [workerStep, hphase]
  simp only
  rcases htransition : generateStateTransition defaults (item.surroundings.now i)
    (item.ref defaults) target with err | transition
  · exact .abandon item i target rest hat
      (by simp only [StreamItem.fate, fate, hmatch, htransition])
  · simp only
    rcases hproof : item.surroundings.generateProof i transition.into .default with proof | err | _
    · rcases hrouter : item.surroundings.router with _ | router
      · exact .pass item i target rest .unrouted hat
          (by simp only [StreamItem.fate, fate, hmatch, htransition, hproof, hrouter]) rfl rfl
      · refine .proved item i target rest router (proofMessage encodeProof proof) hphase ?_
        rcases hanswer : router i (proofMessage encodeProof proof) with err | _
        · simp only [WorkerPhase.Consistent, StreamItem.fate, fate, hmatch, htransition, hproof,
            hrouter, hanswer]
        · simp only [WorkerPhase.Consistent, StreamItem.fate, fate, hmatch, htransition, hproof,
            hrouter, hanswer]
    · exact .abandon item i target rest hat
        (by simp only [StreamItem.fate, fate, hmatch, htransition, hproof])
    · exact .crash item i target rest hat
        (by simp only [StreamItem.fate, fate, hmatch, htransition, hproof])

/-- The answer of the router. -/
lemma move_of_routing {router : ℕ → FrostMessage → Except String Unit} {message : FrostMessage}
    (hphase : s.phase = .routing item router i target message rest)
    (hconsistent : s.phase.Consistent defaults encodeProof) :
    WorkerMove defaults encodeProof s (workerStep defaults encodeProof s) := by
  have hat : s.phase.At item i target rest := hphase ▸ .routing router message
  rw [hphase, WorkerPhase.Consistent] at hconsistent
  rw [workerStep, hphase]
  simp only
  rcases hanswer : router i message with err | _
  · exact .refuse item i target rest message hat (by rw [hconsistent, hanswer])
  · exact .deliver item i target rest message hat (by rw [hconsistent, hanswer])

/-- **The steps of the worker.**  A step either is one of these moves or leaves a worker that has
come to its end as it is. -/
theorem workerStep_move (hconsistent : s.phase.Consistent defaults encodeProof) :
    WorkerMove defaults encodeProof s (workerStep defaults encodeProof s) ∨
      (s.phase = .finished ∨ s.phase = .crashed) ∧ workerStep defaults encodeProof s = s := by
  cases hphase : s.phase with
  | waiting =>
    rw [workerStep, hphase]
    simp only
    rcases hstream : s.stream with _ | ⟨item, stream⟩
    · exact Or.inl (.stop hphase hstream)
    · exact Or.inl (.take item stream hphase hstream)
  | judging item =>
    rw [workerStep, hphase]
    simp only
    rcases hfinal : item.surroundings.isFinal (item.ref defaults) with err | _ | _
    · exact Or.inl (.skip item hphase (by rw [hfinal]; rintro ⟨⟩))
    · exact Or.inl (.skip item hphase (by rw [hfinal]; rintro ⟨⟩))
    · exact Or.inl (.accept item hphase hfinal)
  | snapshotting item =>
    rw [workerStep, hphase]
    exact Or.inl (.snapshot item hphase)
  | matching item i rest =>
    cases rest with
    | nil =>
      rw [workerStep, hphase]
      exact Or.inl (.exhaust item i hphase)
    | cons target rest => exact Or.inl (move_of_matching hphase)
  | proving item i target rest =>
    rw [hphase] at hconsistent
    exact Or.inl (move_of_proving hphase hconsistent)
  | routing item router i target message rest => exact Or.inl (move_of_routing hphase hconsistent)
  | finished =>
    rw [workerStep, hphase]
    exact Or.inr ⟨Or.inl rfl, rfl⟩
  | crashed =>
    rw [workerStep, hphase]
    exact Or.inr ⟨Or.inr rfl, rfl⟩

/-! ### The invariant -/

namespace Inv

lemma goTo (h : Inv defaults encodeProof targets registered stream s)
    (hunrecorded : p.unrecorded = s.phase.unrecorded)
    (hpending : p.pending defaults encodeProof = s.phase.pending defaults encodeProof)
    (hconsistent : p.Consistent defaults encodeProof) (hend : p = .finished → s.stream = []) :
    Inv defaults encodeProof targets registered stream (s.goTo p) where
  targets_eq := h.targets_eq
  stream_eq := by
    show s.record.map Prod.fst ++ p.unrecorded ++ s.stream = stream
    rw [hunrecorded]
    exact h.stream_eq
  calls_eq := by
    show s.calls ++ p.pending defaults encodeProof
      = s.record.flatMap (recordedBlock defaults encodeProof)
    rw [hpending]
    exact h.calls_eq
  consistent := hconsistent
  final_iff := h.final_iff
  at_end := hend

/-- A step that leaves a known place for one where as much is still to be done. -/
lemma goTo_from {p₀ : WorkerPhase} (h : Inv defaults encodeProof targets registered stream s)
    (hphase : s.phase = p₀) (hunrecorded : p.unrecorded = p₀.unrecorded)
    (hpending : p.pending defaults encodeProof = p₀.pending defaults encodeProof)
    (hconsistent : p.Consistent defaults encodeProof) (hend : p = .finished → s.stream = []) :
    Inv defaults encodeProof targets registered stream (s.goTo p) := by
  subst hphase
  exact h.goTo hunrecorded hpending hconsistent hend

lemma note {snapshot : Option (List WatchTarget)}
    (h : Inv defaults encodeProof targets registered stream s)
    (hitem : s.phase.unrecorded = [item]) (hnone : s.phase.pending defaults encodeProof = [])
    (hfinal : snapshot.isSome = true ↔ item.surroundings.isFinal (item.ref defaults) = .ok true)
    (hunrecorded : p.unrecorded = [])
    (hpending : p.pending defaults encodeProof
      = recordedBlock defaults encodeProof (item, snapshot))
    (hconsistent : p.Consistent defaults encodeProof) (hend : p ≠ .finished) :
    Inv defaults encodeProof targets registered stream (s.note item snapshot p) where
  targets_eq := h.targets_eq
  stream_eq := by
    show (s.record ++ [(item, snapshot)]).map Prod.fst ++ p.unrecorded ++ s.stream = stream
    rw [hunrecorded, List.map_append, List.append_nil, ← h.stream_eq, hitem]
    rfl
  calls_eq := by
    show s.calls ++ p.pending defaults encodeProof
      = (s.record ++ [(item, snapshot)]).flatMap (recordedBlock defaults encodeProof)
    rw [hpending, List.flatMap_append, List.flatMap_singleton, ← h.calls_eq, hnone,
      List.append_nil]
  consistent := hconsistent
  final_iff := by
    intro entry hentry
    rcases List.mem_append.mp hentry with hentry | hentry
    · exact h.final_iff entry hentry
    · obtain rfl := List.mem_singleton.mp hentry
      exact hfinal
  at_end := fun hp => absurd hp hend

lemma call (h : Inv defaults encodeProof targets registered stream s)
    (hunrecorded : p.unrecorded = s.phase.unrecorded)
    (hpending : s.phase.pending defaults encodeProof = e :: p.pending defaults encodeProof)
    (hconsistent : p.Consistent defaults encodeProof) (hend : p ≠ .finished) :
    Inv defaults encodeProof targets registered stream (s.call e p) where
  targets_eq := h.targets_eq
  stream_eq := by
    show s.record.map Prod.fst ++ p.unrecorded ++ s.stream = stream
    rw [hunrecorded]
    exact h.stream_eq
  calls_eq := by
    show s.calls ++ [e] ++ p.pending defaults encodeProof
      = s.record.flatMap (recordedBlock defaults encodeProof)
    rw [← h.calls_eq, hpending, List.append_assoc]
    rfl
  consistent := hconsistent
  final_iff := h.final_iff
  at_end := fun hp => absurd hp hend

lemma register (h : Inv defaults encodeProof targets registered stream s) (target : WatchTarget) :
    Inv defaults encodeProof targets (registered ++ [target]) stream (s.register target) where
  targets_eq := by
    show s.targets ++ [target] = targets ++ (registered ++ [target])
    rw [h.targets_eq, List.append_assoc]
  stream_eq := h.stream_eq
  calls_eq := h.calls_eq
  consistent := h.consistent
  final_iff := h.final_iff
  at_end := h.at_end

lemma step (h : Inv defaults encodeProof targets registered stream s) :
    Inv defaults encodeProof targets registered stream (workerStep defaults encodeProof s) := by
  rcases workerStep_move h.consistent with hmove | ⟨-, hsame⟩
  · generalize workerStep defaults encodeProof s = s' at hmove
    cases hmove with
    | stop hphase hstream =>
      exact h.goTo_from hphase rfl rfl trivial fun _ => hstream
    | take item stream' hphase hstream =>
      refine ⟨h.targets_eq, ?_, ?_, trivial, h.final_iff, by rintro ⟨⟩⟩
      · have := h.stream_eq
        rw [hphase, hstream] at this
        rw [← this]
        simp [WorkerPhase.unrecorded]
      · have := h.calls_eq
        rwa [hphase] at this
    | accept item hphase hfinal =>
      exact h.goTo_from hphase rfl rfl hfinal (by rintro ⟨⟩)
    | skip item hphase hfinal =>
      have hitem : s.phase.unrecorded = [item] := by rw [hphase]; rfl
      have hnone : s.phase.pending defaults encodeProof = [] := by rw [hphase]; rfl
      exact h.note hitem hnone ⟨by rintro ⟨⟩, fun hok => absurd hok hfinal⟩ rfl rfl trivial
        (by rintro ⟨⟩)
    | snapshot item hphase =>
      have hitem : s.phase.unrecorded = [item] := by rw [hphase]; rfl
      have hnone : s.phase.pending defaults encodeProof = [] := by rw [hphase]; rfl
      have hfinal := h.consistent
      rw [hphase] at hfinal
      exact h.note hitem hnone (iff_of_true rfl hfinal) rfl (routingCalls_eq _) trivial
        (by rintro ⟨⟩)
    | exhaust item i hphase =>
      exact h.goTo_from hphase rfl rfl trivial (by rintro ⟨⟩)
    | matched item i target rest hphase hconsistent =>
      exact h.goTo_from hphase rfl rfl hconsistent (by rintro ⟨⟩)
    | proved item i target rest router message hphase hconsistent =>
      exact h.goTo_from hphase rfl rfl hconsistent (by rintro ⟨⟩)
    | pass item i target rest f hphase hfate hsucceeds hsilent =>
      refine h.goTo hphase.unrecorded_eq.symm ?_ trivial (by rintro ⟨⟩)
      rw [hphase.pending_eq, routingCalls_of_succeeds hfate hsucceeds, hsilent]
      rfl
    | abandon item i target rest hphase hfate =>
      refine h.goTo hphase.unrecorded_eq.symm ?_ trivial (by rintro ⟨⟩)
      rw [hphase.pending_eq, routingCalls_of_stops hfate rfl]
      rfl
    | crash item i target rest hphase hfate =>
      refine h.goTo hphase.unrecorded_eq.symm ?_ trivial (by rintro ⟨⟩)
      rw [hphase.pending_eq, routingCalls_of_stops hfate rfl]
      rfl
    | deliver item i target rest message hphase hfate =>
      refine h.call hphase.unrecorded_eq.symm ?_ trivial (by rintro ⟨⟩)
      rw [hphase.pending_eq, routingCalls_of_succeeds hfate rfl]
      rfl
    | refuse item i target rest message hphase hfate =>
      refine h.call hphase.unrecorded_eq.symm ?_ trivial (by rintro ⟨⟩)
      rw [hphase.pending_eq, routingCalls_of_stops hfate rfl]
      rfl
  · rw [hsame]
    exact h

end Inv

lemma inv_start (targets : List WatchTarget) (stream : List StreamItem) :
    Inv defaults encodeProof targets [] stream (.start targets stream) where
  targets_eq := (List.append_nil _).symm
  stream_eq := rfl
  calls_eq := rfl
  consistent := trivial
  final_iff := fun _ hentry => by cases hentry
  at_end := by rintro ⟨⟩

lemma inv_run (events : List WorkerEvent)
    (h : Inv defaults encodeProof targets registered stream s) :
    Inv defaults encodeProof targets (registered ++ events.flatMap WorkerEvent.registered) stream
      (runWorker defaults encodeProof s events) := by
  induction events generalizing registered s with
  | nil =>
    rw [List.flatMap_nil, List.append_nil]
    exact h
  | cons event events ih =>
    cases event with
    | register target =>
      have := ih (h.register target)
      rwa [List.append_assoc] at this
    | advance => exact ih h.step

variable (defaults encodeProof) in
/-- The invariant holds at every moment of a run from the start. -/
theorem inv_reached (targets : List WatchTarget) (stream : List StreamItem)
    (events : List WorkerEvent) :
    Inv defaults encodeProof targets (events.flatMap WorkerEvent.registered) stream
      (runWorker defaults encodeProof (.start targets stream) events) :=
  inv_run events (inv_start targets stream)

lemma runWorker_append (s : WorkerState) (events events' : List WorkerEvent) :
    runWorker defaults encodeProof s (events ++ events')
      = runWorker defaults encodeProof (runWorker defaults encodeProof s events) events' :=
  Runs.run_append

end FrostSubstrate
