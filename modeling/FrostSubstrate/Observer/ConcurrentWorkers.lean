/-
Several workers on one observer.

The observer is shared: any number of workers may run on it, each with a stream of its own, a
direct call of `on_block_finalized` being one with a single notification; and targets are
registered meanwhile.  They share the list of targets, which only registrations change, and the
router.  So each worker runs as if it was alone (`Parties.view_run`), and what is known of one
worker among registrations holds of each of them.
-/
import FrostSubstrate.Lib.Parties
import FrostSubstrate.Observer.RoutingOrder

namespace FrostSubstrate

open scoped BigOperators

variable (defaults : FrostDefaults) (encodeProof : StateProof → Bytes)

/-- The worker with the list of targets that is registered now. -/
def WorkerState.at (w : WorkerState) (targets : List WatchTarget) : WorkerState :=
  { w with targets := targets }

/-- The workers of an observer: a registration changes the list of targets, a step of a worker
its own state, and the calls of the router go into a common log. -/
def workers : Parties.System (List WatchTarget) WorkerState WatchTarget Effect where
  common targets target := targets ++ [target]
  act targets w := workerStep defaults encodeProof (w.at targets)
  emit targets w := (workerStep defaults encodeProof (w.at targets)).calls.drop w.calls.length

variable {I : Type} [DecidableEq I]

/-- A run of the workers and the registrations, worker `i` starting at the beginning of stream
`i`. -/
def runWorkers (targets : List WatchTarget) (streams : I → List StreamItem)
    (events : List (Parties.Event I WatchTarget)) :
    Parties.State I (List WatchTarget) WorkerState Effect :=
  Runs.run (Parties.step (workers defaults encodeProof))
    ⟨targets, fun i => .start targets (streams i), []⟩ events

/-- What an event is for a worker that is alone. -/
def WorkerEvent.ofSeen : Option WatchTarget → WorkerEvent
  | some target => .register target
  | none => .advance

/-- The registrations and the steps of worker `i`. -/
def eventsOf (i : I) (events : List (Parties.Event I WatchTarget)) : List WorkerEvent :=
  (events.filterMap (Parties.Event.seen i)).map .ofSeen

variable {defaults encodeProof} {w : WorkerState} {targets : List WatchTarget}
  {a : Parties.Alone (List WatchTarget) WorkerState Effect}

/-! ### A worker alone -/

lemma WorkerState.at_of_eq (h : w.targets = targets) : w.at targets = w := by
  subst h
  rfl

lemma workerStep_calls (s : WorkerState) :
    ∃ new, (workerStep defaults encodeProof s).calls = s.calls ++ new := by
  have hsame : ∃ new, s.calls = s.calls ++ new := ⟨[], (List.append_nil _).symm⟩
  unfold workerStep
  repeat' split
  all_goals first
    | exact hsame
    | exact ⟨_, rfl⟩

/-- A worker alone among registrations is the machine `runWorker`, and the log is the list of
its calls. -/
lemma alone_run (hlog : a.log = a.party.calls) (events : List (Option WatchTarget)) :
    (Runs.run (Parties.aloneStep (workers defaults encodeProof)) a events).party.at
          (Runs.run (Parties.aloneStep (workers defaults encodeProof)) a events).shared
        = runWorker defaults encodeProof (a.party.at a.shared) (events.map .ofSeen) ∧
      (Runs.run (Parties.aloneStep (workers defaults encodeProof)) a events).log
        = (runWorker defaults encodeProof (a.party.at a.shared) (events.map .ofSeen)).calls := by
  induction events generalizing a with
  | nil => exact ⟨rfl, hlog⟩
  | cons e events ih =>
    cases e with
    | some target => exact ih hlog
    | none =>
      have hstep : (Parties.aloneStep (workers defaults encodeProof) a none).party.at
            (Parties.aloneStep (workers defaults encodeProof) a none).shared
          = workerStep defaults encodeProof (a.party.at a.shared) :=
        WorkerState.at_of_eq (workerStep_targets (a.party.at a.shared))
      have hcalls : (Parties.aloneStep (workers defaults encodeProof) a none).log
          = (Parties.aloneStep (workers defaults encodeProof) a none).party.calls := by
        obtain ⟨new, hnew⟩ : ∃ new, (workerStep defaults encodeProof (a.party.at a.shared)).calls
            = (a.party.at a.shared).calls ++ new := workerStep_calls _
        have hold : (a.party.at a.shared).calls = a.party.calls := rfl
        show a.log ++ (workerStep defaults encodeProof (a.party.at a.shared)).calls.drop
            a.party.calls.length = (workerStep defaults encodeProof (a.party.at a.shared)).calls
        rw [hnew, hold, hlog, List.drop_left]
      have hrest := ih hcalls
      rw [hstep] at hrest
      exact hrest

/-! ### Each of several workers -/

variable {streams : I → List StreamItem} {events : List (Parties.Event I WatchTarget)} {i : I}

lemma runWorkers_view :
    ((runWorkers defaults encodeProof targets streams events).party i).at
          (runWorkers defaults encodeProof targets streams events).shared
        = runWorker defaults encodeProof (.start targets (streams i)) (eventsOf i events) ∧
      ((runWorkers defaults encodeProof targets streams events).view i).log
        = ((runWorkers defaults encodeProof targets streams events).party i).calls := by
  have hview : (runWorkers defaults encodeProof targets streams events).view i
      = Runs.run (Parties.aloneStep (workers defaults encodeProof))
          ⟨targets, .start targets (streams i), []⟩ (events.filterMap (Parties.Event.seen i)) :=
    Parties.view_run _ events i
  have hstart : (⟨targets, .start targets (streams i), []⟩ :
      Parties.Alone (List WatchTarget) WorkerState Effect).log
        = (WorkerState.start targets (streams i)).calls := rfl
  obtain ⟨hstate, hlog⟩ := @alone_run defaults encodeProof _ hstart
    (events.filterMap (Parties.Event.seen i))
  rw [← hview] at hstate hlog
  refine ⟨hstate, hlog.trans ?_⟩
  rw [← hstate]
  rfl

lemma runWorkers_shared :
    (runWorkers defaults encodeProof targets streams events).shared
      = targets ++ (eventsOf i events).flatMap WorkerEvent.registered := by
  have hinv := inv_reached defaults encodeProof targets (streams i) (eventsOf i events)
  rw [← runWorkers_view.1] at hinv
  exact hinv.targets_eq

lemma mem_log {entry : I × Effect} :
    entry ∈ (runWorkers defaults encodeProof targets streams events).log ↔
      entry.2 ∈ (runWorker defaults encodeProof (.start targets (streams entry.1))
        (eventsOf entry.1 events)).calls := by
  have hstate : ((runWorkers defaults encodeProof targets streams events).party entry.1).at
      (runWorkers defaults encodeProof targets streams events).shared
        = runWorker defaults encodeProof (.start targets (streams entry.1))
            (eventsOf entry.1 events) := runWorkers_view.1
  have hlog : ((runWorkers defaults encodeProof targets streams events).view entry.1).log
      = ((runWorkers defaults encodeProof targets streams events).party entry.1).calls :=
    runWorkers_view.2
  have hcalls : (runWorker defaults encodeProof (.start targets (streams entry.1))
      (eventsOf entry.1 events)).calls
        = ((runWorkers defaults encodeProof targets streams events).party entry.1).calls := by
    rw [← hstate]
    rfl
  rw [hcalls, ← hlog]
  exact Parties.mem_log_iff

/-- **Workers do not disturb each other.**  For any number of workers on one observer and any
order of their steps and of registrations: each worker is where it would be alone, after the
registrations and its own steps; when it has come to its end it has routed its stream in order,
with the snapshots of those moments; the router has been called as often as the workers have
called it; and only for final blocks and registered targets. -/
theorem workers_apart [Fintype I] (defaults : FrostDefaults) (encodeProof : StateProof → Bytes)
    (targets : List WatchTarget) (streams : I → List StreamItem)
    (events : List (Parties.Event I WatchTarget)) :
    (∀ i, ((runWorkers defaults encodeProof targets streams events).party i).at
          (runWorkers defaults encodeProof targets streams events).shared
        = runWorker defaults encodeProof (.start targets (streams i)) (eventsOf i events)) ∧
    (∀ i, ((runWorkers defaults encodeProof targets streams events).party i).phase = .finished →
      RoutesInOrder defaults encodeProof targets (streams i) (eventsOf i events)
        (((runWorkers defaults encodeProof targets streams events).party i).at
          (runWorkers defaults encodeProof targets streams events).shared)) ∧
    (∀ e, ((runWorkers defaults encodeProof targets streams events).log.map Prod.snd).count e
      = ∑ i, ((runWorkers defaults encodeProof targets streams events).party i).calls.count e) ∧
    ∀ entry ∈ (runWorkers defaults encodeProof targets streams events).log,
      ∃ item ∈ streams entry.1, item.surroundings.isFinal (item.ref defaults) = .ok true ∧
        ∃ target ∈ (runWorkers defaults encodeProof targets streams events).shared,
          ∃ j message accepted,
            entry.2 = .routed (item.ref defaults) j target message accepted := by
  refine ⟨fun i => runWorkers_view.1, ?_, ?_, ?_⟩
  · intro i hend
    rw [runWorkers_view.1]
    apply routesInOrder_of_finished
    rw [← runWorkers_view.1]
    exact hend
  · intro e
    rw [Parties.count_log]
    apply Finset.sum_congr rfl
    intro i _
    rw [runWorkers_view.2]
  · intro entry hentry
    rw [runWorkers_shared (i := entry.1)]
    exact routed_only (mem_log.mp hentry)

end FrostSubstrate
