/-
What a manager has done after any calls.

Two facts about whole runs of `AuthoritySetManager`.  Finalized blocks may reach it in batches
and out of order: whatever the numbers of a batch, the manager ends as after the highest of them
alone (`processAll_eq`).  And its changes are accounted for (`history_accounted`): each is
scheduled, then applied once, in the order of the schedule and by a block that reaches it.
-/
import FrostSubstrate.Finality.AuthorityManager

namespace FrostSubstrate

variable {Id : Type} {initialSet : AuthoritySet Id} {calls : List (ManagerCall Id)}

/-! ### Batches of finalized blocks -/

/-- `process_finalized_block` for each of the numbers in turn. -/
def AuthoritySetManager.processAll (self : AuthoritySetManager Id) (numbers : List ℕ) :
    AuthoritySetManager Id :=
  numbers.foldl (fun manager number => (manager.processFinalizedBlock number).2) self

lemma AuthoritySetManager.processAll_concat {self : AuthoritySetManager Id} {numbers : List ℕ}
    {number : ℕ} :
    self.processAll (numbers ++ [number])
      = ((self.processAll numbers).processFinalizedBlock number).2 :=
  List.foldl_append

/-- The calls that process these numbers. -/
def processCalls (numbers : List ℕ) : List (ManagerCall Id) :=
  numbers.map ManagerCall.processFinalizedBlock

lemma processCalls_concat {numbers : List ℕ} {number : ℕ} :
    calls ++ processCalls (numbers ++ [number])
      = (calls ++ processCalls numbers) ++ [.processFinalizedBlock number] := by
  rw [processCalls, List.map_append, ← processCalls, List.append_assoc]
  rfl

lemma history_processCalls (numbers : List ℕ) :
    (history initialSet (calls ++ processCalls numbers)).manager
      = (history initialSet calls).manager.processAll numbers := by
  induction numbers using List.reverseRecOn with
  | nil => rw [processCalls, List.map_nil, List.append_nil]; rfl
  | append_singleton numbers number ih =>
    rw [processCalls_concat, history_append_singleton, AuthoritySetManager.processAll_concat,
      ← ih]
    rfl

lemma queue_processCalls (numbers : List ℕ) :
    (history initialSet (calls ++ processCalls numbers)).queue
      = numbers.foldl (fun q number => q.step AuthoritySetChange.scheduledAt (.advance number))
          (history initialSet calls).queue := by
  induction numbers using List.reverseRecOn with
  | nil => rw [processCalls, List.map_nil, List.append_nil]; rfl
  | append_singleton numbers number ih =>
    rw [processCalls_concat, history_append_singleton, queue_processFinalizedBlock, ih,
      List.foldl_append]
    rfl

/-- **Batching and order do not matter.**  From every state a manager can be in, processing a
non-empty list of numbers in turn leaves the current set and the pending changes that processing
the highest of them alone leaves. -/
theorem processAll_eq (initialSet : AuthoritySet Id) (calls : List (ManagerCall Id))
    (number : ℕ) (numbers : List ℕ) :
    let manager := (history initialSet calls).manager
    let single := (manager.processFinalizedBlock (numbers.foldl max number)).2
    (manager.processAll (number :: numbers)).currentSet = single.currentSet ∧
      (manager.processAll (number :: numbers)).pendingChanges = single.pendingChanges := by
  intro manager single
  have hbatch : (history initialSet (calls ++ processCalls (number :: numbers))).manager
      = manager.processAll (number :: numbers) := history_processCalls _
  have hsingle : (history initialSet (calls ++ processCalls [numbers.foldl max number])).manager
      = single := history_processCalls _
  have hqueue : (history initialSet (calls ++ processCalls (number :: numbers))).queue
      = (history initialSet (calls ++ processCalls [numbers.foldl max number])).queue := by
    rw [queue_processCalls, queue_processCalls]
    exact DueQueue.Queue.foldl_advance _ number numbers
  constructor
  · rw [← hbatch, ← hsingle, history_currentSet_of_queue, history_currentSet_of_queue, hqueue]
  · rw [← hbatch, ← hsingle]
    exact congrArg DueQueue.Queue.pending hqueue

/-! ### The account of the changes -/

/-- What the calls ask to schedule: the authorities and the block, in the order of the calls. -/
def scheduleRequests (calls : List (ManagerCall Id)) : List (AuthorityList Id × ℕ) :=
  calls.filterMap fun
    | .scheduleChange newAuthorities scheduledAt => some (newAuthorities, scheduledAt)
    | .processFinalizedBlock _ => none

/-- The request that a change answers. -/
def AuthoritySetChange.request (change : AuthoritySetChange Id) : AuthorityList Id × ℕ :=
  (change.authorities, change.scheduledAt)

/-- Every request to schedule becomes one change, in the order of the calls. -/
lemma history_requests (initialSet : AuthoritySet Id) (calls : List (ManagerCall Id)) :
    (history initialSet calls).changes.map AuthoritySetChange.request
      = scheduleRequests calls := by
  induction calls using List.reverseRecOn with
  | nil => rfl
  | append_singleton calls call ih =>
    rw [history_append_singleton, scheduleRequests, List.filterMap_append, ← scheduleRequests,
      ← ih]
    cases call with
    | scheduleChange newAuthorities scheduledAt =>
      simp [History.changes, History.step, AuthoritySetManager.nextChange,
        AuthoritySetChange.request]
    | processFinalizedBlock number => simp [History.changes, History.step]

/-- A call applies nothing, or it processes a block that reaches all the changes it applies. -/
lemma activated_step (h : History Id) (call : ManagerCall Id) :
    ∃ applied, (h.step call).activated = h.activated ++ applied ∧
      ∀ a ∈ applied, ∃ number, call = .processFinalizedBlock number ∧
        a.change.scheduledAt ≤ number := by
  cases call with
  | scheduleChange newAuthorities scheduledAt =>
    refine ⟨[], (List.append_nil _).symm, ?_⟩
    intro a ha
    cases ha
  | processFinalizedBlock number =>
    refine ⟨_, rfl, ?_⟩
    intro a ha
    rw [AuthoritySetManager.processFinalizedBlock, AuthoritySetManager.activateDue_eq] at ha
    obtain ⟨change, hchange, rfl⟩ := List.mem_map.mp ha
    exact ⟨number, rfl, DueQueue.due_eq_true_iff.mp (List.mem_takeWhile_imp hchange)⟩

/-- **No change is lost, repeated or early.**  After any calls on a new manager, the applied
changes followed by the pending ones are those that were scheduled, one for each request and in
its order; the current set is that of the change applied last, or the initial one; and whatever
a call of the run applies, it applies as `process_finalized_block` of a number that the change
was scheduled at or before. -/
theorem history_accounted (initialSet : AuthoritySet Id) (calls : List (ManagerCall Id)) :
    (history initialSet calls).activated.map Activation.change
        ++ (history initialSet calls).manager.pendingChanges = (history initialSet calls).changes ∧
    (history initialSet calls).changes.map AuthoritySetChange.request = scheduleRequests calls ∧
    (history initialSet calls).manager.currentSet
      = ((((history initialSet calls).activated.map Activation.change).getLast?).map
          AuthoritySetChange.toSet).getD initialSet ∧
    ∀ before call after, calls = before ++ call :: after →
      ∃ applied, (history initialSet (before ++ [call])).activated
          = (history initialSet before).activated ++ applied ∧
        ∀ a ∈ applied, ∃ number, call = .processFinalizedBlock number ∧
          a.change.scheduledAt ≤ number := by
  refine ⟨(history_changes initialSet calls).symm, history_requests initialSet calls,
    history_currentSet_of_queue initialSet calls, ?_⟩
  rintro before call after -
  rw [history_append_singleton]
  exact activated_step _ call

end FrostSubstrate
