/-
`AuthoritySetManager`: the current authorities and the changes that are to replace them.

A change is scheduled for a block and waits in a queue; `process_finalized_block` activates
changes from the head of the queue as long as they are due.  A `History` is a manager
together with what has happened to it, so that statements about runs can speak of the
changes scheduled and activated so far.  The manager refines the queue of the library
(`history_refines`), and the rest about its queue is taken from there.
-/
import FrostSubstrate.Finality.Authorities
import FrostSubstrate.Lib.DueQueue

namespace FrostSubstrate

open DueQueue (Op due)

/-! ### The manager -/

structure AuthoritySet (Id : Type) where
  authorities : AuthorityList Id
  setId : ℕ
deriving DecidableEq

structure AuthoritySetChange (Id : Type) where
  setId : ℕ
  authorities : AuthorityList Id
  scheduledAt : ℕ
deriving DecidableEq

/-- The set that `apply_change` makes of a change. -/
def AuthoritySetChange.toSet {Id : Type} (change : AuthoritySetChange Id) : AuthoritySet Id :=
  ⟨change.authorities, change.setId⟩

structure AuthoritySetManager (Id : Type) where
  currentSet : AuthoritySet Id
  pendingChanges : List (AuthoritySetChange Id)
  lastFinalized : ℕ

/-- A change taken from the queue, with the set that is current after it. -/
structure Activation (Id : Type) where
  change : AuthoritySetChange Id
  current : AuthoritySet Id

/-- What activating a change amounts to. -/
def AuthoritySetChange.activation {Id : Type} (change : AuthoritySetChange Id) : Activation Id :=
  ⟨change, change.toSet⟩

@[simp] lemma map_activation_change {Id : Type} (l : List (AuthoritySetChange Id)) :
    (l.map AuthoritySetChange.activation).map Activation.change = l := by
  rw [List.map_map]
  exact List.map_id l

namespace AuthoritySetManager

variable {Id : Type}

def new (initialSet : AuthoritySet Id) : AuthoritySetManager Id := ⟨initialSet, [], 0⟩

def currentAuthorities (self : AuthoritySetManager Id) : AuthorityList Id :=
  self.currentSet.authorities

def setId (self : AuthoritySetManager Id) : ℕ := self.currentSet.setId

/-- The change that `schedule_change` puts into the queue.  Its id follows that of the current
set, whatever is pending; the addition is that of `u64`. -/
def nextChange (self : AuthoritySetManager Id) (newAuthorities : AuthorityList Id)
    (scheduledAt : ℕ) : AuthoritySetChange Id :=
  ⟨(self.currentSet.setId + 1) % 2 ^ 64, newAuthorities, scheduledAt⟩

/-- `AuthoritySetManager::schedule_change`. -/
def scheduleChange (self : AuthoritySetManager Id) (newAuthorities : AuthorityList Id)
    (scheduledAt : ℕ) : AuthoritySetManager Id :=
  { self with
    pendingChanges := self.pendingChanges ++ [self.nextChange newAuthorities scheduledAt] }

/-- `AuthoritySetManager::apply_change`. -/
def applyChange (self : AuthoritySetManager Id) (change : AuthoritySetChange Id) :
    AuthoritySetManager Id :=
  { self with currentSet := change.toSet }

/-- The loop of `process_finalized_block` over the pending changes: what it activates, and the
manager it leaves. -/
def activateDue (number : ℕ) (self : AuthoritySetManager Id) :
    List (AuthoritySetChange Id) → List (Activation Id) × AuthoritySetManager Id
  | [] => ([], { self with pendingChanges := [] })
  | change :: rest =>
    if change.scheduledAt ≤ number then
      let applied := { self with pendingChanges := rest }.applyChange change
      let (activations, left) := activateDue number applied rest
      (⟨change, applied.currentSet⟩ :: activations, left)
    else ([], { self with pendingChanges := change :: rest })

/-- `AuthoritySetManager::process_finalized_block`. -/
def processFinalizedBlock (self : AuthoritySetManager Id) (number : ℕ) :
    List (Activation Id) × AuthoritySetManager Id :=
  activateDue number { self with lastFinalized := number } self.pendingChanges

/-- The loop activates the due prefix, leaves the rest, and the last change activated is the
one in force. -/
lemma activateDue_eq (number : ℕ) (self : AuthoritySetManager Id)
    (pending : List (AuthoritySetChange Id)) :
    activateDue number self pending
      = ((pending.takeWhile (due AuthoritySetChange.scheduledAt number)).map
          AuthoritySetChange.activation,
        ⟨(((pending.takeWhile (due AuthoritySetChange.scheduledAt number)).getLast?).map
            AuthoritySetChange.toSet).getD self.currentSet,
          pending.dropWhile (due AuthoritySetChange.scheduledAt number), self.lastFinalized⟩) := by
  induction pending generalizing self with
  | nil => rfl
  | cons change rest ih =>
    rw [activateDue]
    by_cases hdue : change.scheduledAt ≤ number
    · have hpos : due AuthoritySetChange.scheduledAt number change = true :=
        DueQueue.due_eq_true_iff.mpr hdue
      simp only [if_pos hdue, ih]
      rw [List.takeWhile_cons_of_pos hpos, List.dropWhile_cons_of_pos hpos, List.getLast?_cons,
        Option.map_some, Option.getD_some]
      cases (rest.takeWhile (due AuthoritySetChange.scheduledAt number)).getLast? with
      | none => rfl
      | some last => rfl
    · have hneg : ¬ due AuthoritySetChange.scheduledAt number change = true :=
        fun h => hdue (DueQueue.due_eq_true_iff.mp h)
      rw [if_neg hdue, List.takeWhile_cons_of_neg hneg, List.dropWhile_cons_of_neg hneg]
      rfl

end AuthoritySetManager

/-! ### Runs -/

/-- A call on a manager. -/
inductive ManagerCall (Id : Type) where
  | scheduleChange (newAuthorities : AuthorityList Id) (scheduledAt : ℕ)
  | processFinalizedBlock (number : ℕ)

/-- A change with the number of changes that were pending when it was scheduled. -/
structure ScheduledChange (Id : Type) where
  change : AuthoritySetChange Id
  ahead : ℕ

/-- A manager with the changes scheduled and activated so far, in order. -/
structure History (Id : Type) where
  manager : AuthoritySetManager Id
  scheduled : List (ScheduledChange Id)
  activated : List (Activation Id)

namespace History

variable {Id : Type}

/-- The changes scheduled so far. -/
def changes (h : History Id) : List (AuthoritySetChange Id) :=
  h.scheduled.map ScheduledChange.change

/-- Make a call. -/
def step (h : History Id) : ManagerCall Id → History Id
  | .scheduleChange newAuthorities scheduledAt =>
    { manager := h.manager.scheduleChange newAuthorities scheduledAt
      scheduled := h.scheduled ++
        [⟨h.manager.nextChange newAuthorities scheduledAt, h.manager.pendingChanges.length⟩]
      activated := h.activated }
  | .processFinalizedBlock number =>
    { manager := (h.manager.processFinalizedBlock number).2
      scheduled := h.scheduled
      activated := h.activated ++ (h.manager.processFinalizedBlock number).1 }

/-- The queue of a history: what has been activated, and what is pending. -/
def queue (h : History Id) : DueQueue.Queue (AuthoritySetChange Id) :=
  ⟨h.activated.map Activation.change, h.manager.pendingChanges⟩

end History

/-- The history of a manager that starts with the set `initialSet`. -/
def history {Id : Type} (initialSet : AuthoritySet Id) (calls : List (ManagerCall Id)) :
    History Id :=
  calls.foldl History.step ⟨.new initialSet, [], []⟩

/-- The block numbers processed by the calls. -/
def processed {Id : Type} (calls : List (ManagerCall Id)) : List ℕ :=
  calls.filterMap fun
    | .scheduleChange _ _ => none
    | .processFinalizedBlock number => some number

section Runs

variable {Id : Type} {initialSet : AuthoritySet Id} {calls : List (ManagerCall Id)}
  {call : ManagerCall Id} {h : History Id}

@[simp] lemma history_append_singleton :
    history initialSet (calls ++ [call]) = (history initialSet calls).step call := by
  simp only [history, List.foldl_append, List.foldl_cons, List.foldl_nil]

lemma queue_processFinalizedBlock (h : History Id) (number : ℕ) :
    (h.step (.processFinalizedBlock number)).queue
      = h.queue.step AuthoritySetChange.scheduledAt (.advance number) := by
  simp only [History.queue, History.step, AuthoritySetManager.processFinalizedBlock,
    AuthoritySetManager.activateDue_eq, DueQueue.Queue.step, List.map_append,
    map_activation_change]

/-- One call is one operation of the queue, with the change it schedules or the number it
processes. -/
lemma step_refines (h : History Id) (call : ManagerCall Id) :
    ∃ op : Op (AuthoritySetChange Id) ℕ,
      (h.step call).queue = h.queue.step AuthoritySetChange.scheduledAt op ∧
      (h.step call).changes = h.changes ++ DueQueue.pushed [op] ∧
      processed [call] = DueQueue.levels [op] := by
  cases call with
  | scheduleChange newAuthorities scheduledAt =>
    exact ⟨.push (h.manager.nextChange newAuthorities scheduledAt), rfl,
      by simp [History.changes, History.step, DueQueue.pushed], rfl⟩
  | processFinalizedBlock number =>
    exact ⟨.advance number, queue_processFinalizedBlock h number,
      by simp [History.changes, History.step, DueQueue.pushed], rfl⟩

/-- **The manager refines the queue.**  A run of calls is a run of the queue that pushes the
scheduled changes and advances to the processed numbers. -/
theorem history_refines (initialSet : AuthoritySet Id) (calls : List (ManagerCall Id)) :
    ∃ ops : List (Op (AuthoritySetChange Id) ℕ),
      (history initialSet calls).queue = DueQueue.run AuthoritySetChange.scheduledAt ops ∧
      (history initialSet calls).changes = DueQueue.pushed ops ∧
      processed calls = DueQueue.levels ops := by
  induction calls using List.reverseRecOn with
  | nil => exact ⟨[], rfl, rfl, rfl⟩
  | append_singleton calls call ih =>
    obtain ⟨ops, hqueue, hchanges, hlevels⟩ := ih
    obtain ⟨op, hqueue', hchanges', hlevels'⟩ := step_refines (history initialSet calls) call
    refine ⟨ops ++ [op], ?_, ?_, ?_⟩
    · rw [history_append_singleton, hqueue', hqueue, DueQueue.run_append_singleton]
    · have hpushed : DueQueue.pushed (ops ++ [op]) = DueQueue.pushed ops ++ DueQueue.pushed [op] :=
        List.filterMap_append
      rw [history_append_singleton, hchanges', hchanges, hpushed]
    · have hprocessed : processed (calls ++ [call]) = processed calls ++ processed [call] :=
        List.filterMap_append
      have happend : DueQueue.levels (ops ++ [op]) = DueQueue.levels ops ++ DueQueue.levels [op] :=
        List.filterMap_append
      rw [hprocessed, hlevels, hlevels', happend]

/-- Every scheduled change has been activated or is pending, in the order of the calls. -/
theorem history_changes (initialSet : AuthoritySet Id) (calls : List (ManagerCall Id)) :
    (history initialSet calls).changes
      = (history initialSet calls).activated.map Activation.change
          ++ (history initialSet calls).manager.pendingChanges := by
  obtain ⟨ops, hqueue, hchanges, -⟩ := history_refines initialSet calls
  rw [hchanges, ← DueQueue.run_conserves AuthoritySetChange.scheduledAt, ← hqueue]
  rfl

lemma current_of_mem_activated {a : Activation Id}
    (ha : a ∈ (history initialSet calls).activated) : a.current = a.change.toSet := by
  induction calls using List.reverseRecOn with
  | nil => cases ha
  | append_singleton calls call ih =>
    rw [history_append_singleton] at ha
    cases call with
    | scheduleChange newAuthorities scheduledAt => exact ih ha
    | processFinalizedBlock number =>
      rcases List.mem_append.mp ha with ha | ha
      · exact ih ha
      · rw [AuthoritySetManager.processFinalizedBlock, AuthoritySetManager.activateDue_eq] at ha
        obtain ⟨change, -, rfl⟩ := List.mem_map.mp ha
        rfl

/-- **The current set** is that of the last activation, or the initial one. -/
theorem history_currentSet (initialSet : AuthoritySet Id) (calls : List (ManagerCall Id)) :
    (history initialSet calls).manager.currentSet
      = (((history initialSet calls).activated.getLast?).map Activation.current).getD
          initialSet := by
  induction calls using List.reverseRecOn with
  | nil => rfl
  | append_singleton calls call ih =>
    rw [history_append_singleton]
    cases call with
    | scheduleChange newAuthorities scheduledAt => exact ih
    | processFinalizedBlock number =>
      simp only [History.step, AuthoritySetManager.processFinalizedBlock,
        AuthoritySetManager.activateDue_eq, ih, List.getLast?_append, List.getLast?_map]
      -- the last of the batch, or the last one before it
      cases ((history initialSet calls).manager.pendingChanges.takeWhile
          (due AuthoritySetChange.scheduledAt number)).getLast? with
      | none => rfl
      | some change => rfl

lemma history_currentSet_of_queue (initialSet : AuthoritySet Id) (calls : List (ManagerCall Id)) :
    (history initialSet calls).manager.currentSet
      = (((history initialSet calls).queue.released.getLast?).map
          AuthoritySetChange.toSet).getD initialSet := by
  rw [history_currentSet, History.queue, List.getLast?_map]
  rcases hlast : (history initialSet calls).activated.getLast? with _ | a
  · rfl
  · have hcurrent : a.current = a.change.toSet :=
      current_of_mem_activated (List.mem_of_getLast? hlast)
    rw [Option.map_some, Option.getD_some, hcurrent]
    rfl

/-- The authorities in force are the list of the change activated last. -/
theorem history_currentAuthorities (initialSet : AuthoritySet Id) (calls : List (ManagerCall Id)) :
    (history initialSet calls).manager.currentAuthorities
      = (((history initialSet calls).queue.released.getLast?).map
          AuthoritySetChange.authorities).getD initialSet.authorities := by
  rw [AuthoritySetManager.currentAuthorities, history_currentSet_of_queue]
  cases (history initialSet calls).queue.released.getLast? with
  | none => rfl
  | some change => rfl

end Runs

end FrostSubstrate
