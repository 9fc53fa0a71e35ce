/-
What the schedule of a manager does to set ids and to the order of changes.

The id of a change is that of the set current when it is scheduled, plus one.  It counts the
changes as long as one is activated before the next is scheduled; two changes that wait
together get the same id.  And the queue is looked at from its head only, so a change that
waits behind a later one misses its block, and of several due changes the one scheduled last
is in force, not the one for the latest block.
-/
import FrostSubstrate.Finality.AuthorityManager

namespace FrostSubstrate

open DueQueue (due latestDue)

variable {Id : Type} {initialSet : AuthoritySet Id} {calls : List (ManagerCall Id)}
  {call : ManagerCall Id} {h : History Id}

/-! ### Set ids -/

/-- The set id is the initial one plus the number of changes activated. -/
def IdCounts (initialSet : AuthoritySet Id) (h : History Id) : Prop :=
  h.manager.setId = initialSet.setId + h.activated.length

/-- Set ids count the changes in a run: at every moment between two calls the id is the initial
one plus the number of changes activated, and no two sets that are ever current share one. -/
structure IdsCount (initialSet : AuthoritySet Id) (calls : List (ManagerCall Id)) : Prop where
  counts : ∀ before, before <+: calls → IdCounts initialSet (history initialSet before)
  distinct : (initialSet.setId ::
    (history initialSet calls).activated.map fun a => a.current.setId).Nodup

/-- No change that has been activated was scheduled while another one was pending.  (The
activated changes are the first of the scheduled ones.) -/
def ActivatedAlone (h : History Id) : Prop :=
  ∀ (i : ℕ) (s : ScheduledChange Id),
    h.scheduled[i]? = some s → i < h.activated.length → s.ahead = 0

/-- What the place of a change says about it: the changes before it had been activated when it
was scheduled, except for those that were pending, and its id follows the id then current. -/
structure Numbered (initialSet : AuthoritySet Id) (h : History Id) : Prop where
  ahead_le : ∀ (i : ℕ) (s : ScheduledChange Id), h.scheduled[i]? = some s → s.ahead ≤ i
  le_ahead : ∀ (i : ℕ) (s : ScheduledChange Id), h.scheduled[i]? = some s →
    i ≤ s.ahead + h.activated.length
  setId_eq : ∀ (i : ℕ) (s : ScheduledChange Id), h.scheduled[i]? = some s →
    s.change.setId = initialSet.setId + (i - s.ahead) + 1

lemma history_scheduled_length (initialSet : AuthoritySet Id) (calls : List (ManagerCall Id)) :
    (history initialSet calls).scheduled.length
      = (history initialSet calls).activated.length
        + (history initialSet calls).manager.pendingChanges.length := by
  have hlen := congrArg List.length (history_changes initialSet calls)
  simpa [History.changes] using hlen

lemma history_scheduled_le (initialSet : AuthoritySet Id) (calls : List (ManagerCall Id)) :
    (history initialSet calls).scheduled.length ≤ calls.length := by
  induction calls using List.reverseRecOn with
  | nil => exact le_rfl
  | append_singleton calls call ih =>
    rw [history_append_singleton, List.length_append]
    cases call with
    | scheduleChange newAuthorities scheduledAt =>
      simp only [History.step, List.length_append, List.length_singleton]
      omega
    | processFinalizedBlock number =>
      simp only [History.step, List.length_singleton]
      omega

lemma activated_getElem (initialSet : AuthoritySet Id) (calls : List (ManagerCall Id)) {i : ℕ}
    {a : Activation Id} (ha : (history initialSet calls).activated[i]? = some a) :
    ∃ s, (history initialSet calls).scheduled[i]? = some s ∧ a.change = s.change := by
  have hi : i < (history initialSet calls).activated.length :=
    (List.getElem?_eq_some_iff.mp ha).1
  have hplace : (history initialSet calls).changes[i]? = some a.change := by
    rw [history_changes, List.getElem?_append_left (by simpa using hi), List.getElem?_map, ha]
    rfl
  rw [History.changes, List.getElem?_map, Option.map_eq_some_iff] at hplace
  obtain ⟨s, hs, hchange⟩ := hplace
  exact ⟨s, hs, hchange.symm⟩

lemma setId_of_activated {n : ℕ} (hn : (history initialSet calls).activated.length = n + 1) :
    ∃ s, (history initialSet calls).scheduled[n]? = some s ∧
      (history initialSet calls).manager.setId = s.change.setId := by
  have hlast : (history initialSet calls).activated.getLast?
      = (history initialSet calls).activated[n]? := by
    rw [List.getLast?_eq_getElem?, hn, Nat.add_sub_cancel]
  obtain ⟨a, ha⟩ : ∃ a, (history initialSet calls).activated[n]? = some a :=
    ⟨_, List.getElem?_eq_getElem (by omega)⟩
  obtain ⟨s, hs, hchange⟩ := activated_getElem initialSet calls ha
  have hcurrent : a.current = a.change.toSet :=
    current_of_mem_activated (List.mem_of_getElem? ha)
  have hset : (history initialSet calls).manager.currentSet = s.change.toSet := by
    rw [history_currentSet, hlast, ha, Option.map_some, Option.getD_some, hcurrent, hchange]
  refine ⟨s, hs, ?_⟩
  rw [AuthoritySetManager.setId, hset]
  rfl

/-- The id counts exactly when the change activated last was scheduled alone. -/
lemma idCounts_iff (hnumbered : Numbered initialSet (history initialSet calls)) :
    IdCounts initialSet (history initialSet calls) ↔
      ∀ (n : ℕ) (s : ScheduledChange Id), (history initialSet calls).activated.length = n + 1 →
        (history initialSet calls).scheduled[n]? = some s → s.ahead = 0 := by
  unfold IdCounts
  rcases hlen : (history initialSet calls).activated.length with _ | n
  · have hnil : (history initialSet calls).activated = [] := List.length_eq_zero_iff.mp hlen
    rw [AuthoritySetManager.setId, history_currentSet, hnil]
    simp
  · obtain ⟨s, hs, hid⟩ := setId_of_activated hlen
    have hle := hnumbered.ahead_le n s hs
    rw [hid, hnumbered.setId_eq n s hs]
    constructor
    · intro heq m t hm ht
      obtain rfl : n = m := by omega
      obtain rfl : s = t := Option.some.inj (hs.symm.trans ht)
      omega
    · intro halone
      have hzero := halone n s rfl hs
      omega

/-- A change that is scheduled comes last, behind the activated and the pending ones. -/
lemma scheduled_of_scheduleChange (h : History Id) (newAuthorities : AuthorityList Id)
    (scheduledAt i : ℕ) (s : ScheduledChange Id)
    (hs : (h.step (.scheduleChange newAuthorities scheduledAt)).scheduled[i]? = some s) :
    h.scheduled[i]? = some s ∨ i = h.scheduled.length ∧
      s = ⟨h.manager.nextChange newAuthorities scheduledAt, h.manager.pendingChanges.length⟩ := by
  rcases lt_or_ge i h.scheduled.length with hi | hi
  · exact Or.inl (by simpa [History.step, List.getElem?_append_left hi] using hs)
  · simp only [History.step] at hs
    rw [List.getElem?_append_right hi, List.getElem?_singleton] at hs
    split_ifs at hs with hzero
    exact Or.inr ⟨by omega, (Option.some.inj hs).symm⟩

lemma numbered_step (hbound : initialSet.setId + calls.length + 1 < 2 ^ 64)
    (hnumbered : Numbered initialSet (history initialSet calls))
    (hcounts : IdCounts initialSet (history initialSet calls)) :
    Numbered initialSet (history initialSet (calls ++ [call])) := by
  have hlen := history_scheduled_length initialSet calls
  have hcalls := history_scheduled_le initialSet calls
  rw [history_append_singleton]
  cases call with
  | processFinalizedBlock number =>
    refine ⟨hnumbered.ahead_le, ?_, hnumbered.setId_eq⟩
    intro i s hs
    have hle := hnumbered.le_ahead i s hs
    simp only [History.step, List.length_append]
    omega
  | scheduleChange newAuthorities scheduledAt =>
    have hplace := fun i s => scheduled_of_scheduleChange (history initialSet calls) newAuthorities
      scheduledAt i s
    have hid : (history initialSet calls).manager.currentSet.setId
        = initialSet.setId + (history initialSet calls).activated.length := hcounts
    refine ⟨?_, ?_, ?_⟩
    · intro i s hs
      rcases hplace i s hs with hs | ⟨rfl, rfl⟩
      · exact hnumbered.ahead_le i s hs
      · show (history initialSet calls).manager.pendingChanges.length ≤ _
        omega
    · intro i s hs
      rcases hplace i s hs with hs | ⟨rfl, rfl⟩
      · exact hnumbered.le_ahead i s hs
      · show _ ≤ (history initialSet calls).manager.pendingChanges.length
          + (history initialSet calls).activated.length
        omega
    · intro i s hs
      rcases hplace i s hs with hs | ⟨rfl, rfl⟩
      · exact hnumbered.setId_eq i s hs
      · show ((history initialSet calls).manager.currentSet.setId + 1) % 2 ^ 64
          = initialSet.setId + (_ - (history initialSet calls).manager.pendingChanges.length) + 1
        rw [hid, Nat.mod_eq_of_lt (by omega)]
        omega

lemma activatedAlone_of_step (halone : ActivatedAlone (h.step call)) : ActivatedAlone h := by
  intro i s hs hi
  have hlt : i < h.scheduled.length := (List.getElem?_eq_some_iff.mp hs).1
  cases call with
  | scheduleChange newAuthorities scheduledAt =>
    refine halone i s ?_ hi
    simp only [History.step, List.getElem?_append_left hlt]
    exact hs
  | processFinalizedBlock number =>
    refine halone i s hs ?_
    simp only [History.step, List.length_append]
    omega

/-- A call keeps the activated changes alone if the last of them is: one that joins another
one in the queue is activated with it or after it. -/
lemma activatedAlone_step (hnumbered : Numbered initialSet (history initialSet calls))
    (halone : ActivatedAlone (history initialSet calls))
    (hlast : ∀ (n : ℕ) (s : ScheduledChange Id),
      (history initialSet (calls ++ [call])).activated.length = n + 1 →
      (history initialSet (calls ++ [call])).scheduled[n]? = some s → s.ahead = 0) :
    ActivatedAlone (history initialSet (calls ++ [call])) := by
  have hlen := history_scheduled_length initialSet calls
  have hlen' := history_scheduled_length initialSet (calls ++ [call])
  rw [history_append_singleton] at hlast hlen' ⊢
  cases call with
  | scheduleChange newAuthorities scheduledAt =>
    intro i s hs hi
    have hactivated : i < (history initialSet calls).activated.length := hi
    refine halone i s ?_ hactivated
    have hscheduled : i < (history initialSet calls).scheduled.length := by omega
    simp only [History.step] at hs
    rwa [List.getElem?_append_left hscheduled] at hs
  | processFinalizedBlock number =>
    intro i s hs hi
    have hscheduled : (history initialSet calls).scheduled[i]? = some s := hs
    rcases lt_or_ge i (history initialSet calls).activated.length with hold | hnew
    · exact halone i s hscheduled hold
    · -- the last one was scheduled alone, so everything before it was activated before the call
      obtain ⟨n, hn⟩ : ∃ n, ((history initialSet calls).step
          (.processFinalizedBlock number)).activated.length = n + 1 :=
        ⟨_, (Nat.succ_pred_eq_of_pos (by omega)).symm⟩
      obtain ⟨t, ht⟩ : ∃ t, (history initialSet calls).scheduled[n]? = some t := by
        refine ⟨_, List.getElem?_eq_getElem ?_⟩
        have hle : n < ((history initialSet calls).step
          (.processFinalizedBlock number)).scheduled.length := by omega
        exact hle
      have hzero := hlast n t hn ht
      have hle := hnumbered.le_ahead n t ht
      obtain rfl : i = n := by omega
      obtain rfl : s = t := Option.some.inj (hscheduled.symm.trans ht)
      exact hzero

lemma forall_prefix_concat_iff {α : Type} (P : List α → Prop) (calls : List α) (call : α) :
    (∀ before, before <+: calls ++ [call] → P before) ↔
      (∀ before, before <+: calls → P before) ∧ P (calls ++ [call]) := by
  constructor
  · intro hall
    exact ⟨fun before hbefore => hall before (hbefore.trans (List.prefix_append _ _)),
      hall _ List.prefix_rfl⟩
  · rintro ⟨hall, hlast⟩ before hbefore
    rcases List.prefix_concat_iff.mp hbefore with rfl | hbefore
    · exact hlast
    · exact hall before hbefore

/-- The id counts throughout a run exactly when all activated changes were scheduled alone, and
then the changes are numbered by their places. -/
lemma counts_iff (hbound : initialSet.setId + calls.length < 2 ^ 64) :
    ((∀ before, before <+: calls → IdCounts initialSet (history initialSet before)) ↔
        ActivatedAlone (history initialSet calls)) ∧
      (ActivatedAlone (history initialSet calls) →
        Numbered initialSet (history initialSet calls)) := by
  induction calls using List.reverseRecOn with
  | nil =>
    have hnothing : ∀ (i : ℕ) (s : ScheduledChange Id),
        ¬ (history initialSet []).scheduled[i]? = some s := by
      simp [history]
    refine ⟨⟨?_, ?_⟩, ?_⟩
    · intro _ i s hs
      exact absurd hs (hnothing i s)
    · intro _ before hbefore
      rw [List.prefix_nil.mp hbefore]
      rfl
    · intro _
      exact ⟨fun i s hs => absurd hs (hnothing i s), fun i s hs => absurd hs (hnothing i s),
        fun i s hs => absurd hs (hnothing i s)⟩
  | append_singleton calls call ih =>
    rw [List.length_append, List.length_singleton] at hbound
    obtain ⟨hiff, hnumbered⟩ := ih (by omega)
    have hprefixes := forall_prefix_concat_iff (fun before =>
      IdCounts initialSet (history initialSet before)) calls call
    rw [hiff] at hprefixes
    have hnumbered' : ActivatedAlone (history initialSet calls) →
        Numbered initialSet (history initialSet (calls ++ [call])) := by
      intro halone
      exact numbered_step (by omega) (hnumbered halone) (hiff.mpr halone calls List.prefix_rfl)
    refine ⟨hprefixes.trans ⟨?_, ?_⟩, ?_⟩
    · rintro ⟨halone, hcounts⟩
      exact activatedAlone_step (hnumbered halone) halone
        ((idCounts_iff (hnumbered' halone)).mp hcounts)
    · intro halone'
      have halone : ActivatedAlone (history initialSet calls) := by
        rw [history_append_singleton] at halone'
        exact activatedAlone_of_step halone'
      refine ⟨halone, (idCounts_iff (hnumbered' halone)).mpr ?_⟩
      intro n s hn hs
      exact halone' n s hs (by omega)
    · intro halone'
      rw [history_append_singleton] at halone'
      exact hnumbered' (activatedAlone_of_step halone')

/-- The ids of the current sets are the consecutive numbers from the initial one on. -/
lemma setIds_eq (hnumbered : Numbered initialSet (history initialSet calls))
    (halone : ActivatedAlone (history initialSet calls)) :
    initialSet.setId :: (history initialSet calls).activated.map (fun a => a.current.setId)
      = (List.range ((history initialSet calls).activated.length + 1)).map
          (initialSet.setId + ·) := by
  apply List.ext_getElem?
  intro i
  cases i with
  | zero => simp
  | succ i =>
    rw [List.getElem?_cons_succ, List.getElem?_map, List.getElem?_map]
    rcases lt_or_ge i (history initialSet calls).activated.length with hi | hi
    · obtain ⟨a, ha⟩ : ∃ a, (history initialSet calls).activated[i]? = some a :=
        ⟨_, List.getElem?_eq_getElem hi⟩
      obtain ⟨s, hs, hchange⟩ := activated_getElem initialSet calls ha
      have hcurrent := current_of_mem_activated (List.mem_of_getElem? ha)
      have hzero := halone i s hs hi
      have hid := hnumbered.setId_eq i s hs
      rw [ha, List.getElem?_range (by omega), Option.map_some, Option.map_some, hcurrent, hchange]
      simp only [AuthoritySetChange.toSet, hid, hzero]
      congr 1
    · rw [List.getElem?_eq_none hi, List.getElem?_eq_none (by simpa using hi)]
      rfl

/-- **When set ids count the changes.**  In a run too short for the id to overflow, the set id
is at every moment the initial one plus the number of changes activated, and no two current
sets share an id, exactly when no activated change was scheduled while another was pending. -/
theorem idsCount_iff_activatedAlone (hbound : initialSet.setId + calls.length < 2 ^ 64) :
    IdsCount initialSet calls ↔ ActivatedAlone (history initialSet calls) := by
  obtain ⟨hiff, hnumbered⟩ := counts_iff hbound
  refine ⟨fun hcount => hiff.mp hcount.counts, fun halone => ⟨hiff.mpr halone, ?_⟩⟩
  rw [setIds_eq (hnumbered halone) halone]
  exact List.nodup_range.map (add_right_injective _)

/-! ### Two changes that wait together -/

def genesisSet : AuthoritySet ℕ := ⟨[(0, 1)], 0⟩

/-- Two changes scheduled before block `5` and due there. -/
def pairCalls : List (ManagerCall ℕ) :=
  [.scheduleChange [(1, 1)] 5, .scheduleChange [(2, 1)] 5, .processFinalizedBlock 5]

/-- **Two sets share an id.**  Both changes are activated, both as set `1`. -/
theorem pairCalls_share_id :
    (history genesisSet pairCalls).activated.map Activation.current
        = [⟨[(1, 1)], 1⟩, ⟨[(2, 1)], 1⟩] ∧
      (history genesisSet pairCalls).manager.setId = 1 ∧
      ¬ IdsCount genesisSet pairCalls := by
  refine ⟨rfl, rfl, ?_⟩
  intro h
  have hcount : (1 : ℕ) = 0 + 2 := h.counts pairCalls List.prefix_rfl
  omega

/-- The statement for the two changes one after the other. -/
theorem idsCount_iff_activatedAlone_inTurn :
    IdsCount genesisSet [.scheduleChange [(1, 1)] 5, .processFinalizedBlock 5,
        .scheduleChange [(2, 1)] 7, .processFinalizedBlock 9] ↔
      ActivatedAlone (history genesisSet [.scheduleChange [(1, 1)] 5, .processFinalizedBlock 5,
        .scheduleChange [(2, 1)] 7, .processFinalizedBlock 9]) :=
  idsCount_iff_activatedAlone (by decide)

/-! ### Due changes -/

/-- After `number` has been processed, nothing pending is due, and the authorities are those of
the latest due change of all that were scheduled, or the initial ones if none is due. -/
structure DueInForce (initialSet : AuthoritySet Id) (number : ℕ) (h : History Id) : Prop where
  noneLeft : ∀ change ∈ h.manager.pendingChanges, number < change.scheduledAt
  inForce : h.manager.currentAuthorities
    = ((latestDue AuthoritySetChange.scheduledAt number h.changes).map
        AuthoritySetChange.authorities).getD initialSet.authorities

/-- The due change with the largest block, the latest scheduled one of them, is then in force. -/
theorem DueInForce.currentAuthorities_eq {number : ℕ} {change : AuthoritySetChange Id}
    (hforce : DueInForce initialSet number h)
    (hlatest : DueQueue.IsLatestDue AuthoritySetChange.scheduledAt number h.changes change) :
    h.manager.currentAuthorities = change.authorities := by
  rw [hforce.inForce, DueQueue.latestDue_eq_some_iff.mpr hlatest]
  rfl

/-- No change that is due at `number` was scheduled after one that is not, and the due change
scheduled last carries the same list as the due change for the latest block. -/
structure ScheduledInTurn (number : ℕ) (changes : List (AuthoritySetChange Id)) : Prop where
  inTurn : changes.Pairwise fun earlier later =>
    later.scheduledAt ≤ number → earlier.scheduledAt ≤ number
  lastWins : ∀ last latest,
    (changes.filter (due AuthoritySetChange.scheduledAt number)).getLast? = some last →
    latestDue AuthoritySetChange.scheduledAt number changes = some latest →
    last.authorities = latest.authorities

/-- Changes scheduled in the order of their blocks are scheduled in turn. -/
theorem scheduledInTurn_of_sorted {changes : List (AuthoritySetChange Id)}
    (hsorted : changes.Pairwise fun earlier later => earlier.scheduledAt ≤ later.scheduledAt)
    (number : ℕ) : ScheduledInTurn number changes := by
  refine ⟨(DueQueue.of_sorted hsorted).1, ?_⟩
  intro last latest hl hlatest
  rw [(DueQueue.of_sorted hsorted).2, hlatest] at hl
  exact congrArg AuthoritySetChange.authorities (Option.some.inj hl).symm

/-- What processing a number leaves, when no higher one has been processed: the changes behind
the due prefix are pending, and the last one of the prefix is in force. -/
lemma history_process (initialSet : AuthoritySet Id) {number : ℕ}
    (hlevels : ∀ m ∈ processed calls, m ≤ number) :
    (history initialSet (calls ++ [.processFinalizedBlock number])).manager.pendingChanges
        = (history initialSet calls).changes.dropWhile
            (due AuthoritySetChange.scheduledAt number) ∧
      (history initialSet (calls ++ [.processFinalizedBlock number])).manager.currentAuthorities
        = ((((history initialSet calls).changes.takeWhile
              (due AuthoritySetChange.scheduledAt number)).getLast?).map
            AuthoritySetChange.authorities).getD initialSet.authorities := by
  obtain ⟨ops, hqueue, hchanges, hprocessed⟩ := history_refines initialSet calls
  have hreleased : (history initialSet (calls ++ [.processFinalizedBlock number])).queue
      = ⟨(history initialSet calls).changes.takeWhile (due AuthoritySetChange.scheduledAt number),
        (history initialSet calls).changes.dropWhile
          (due AuthoritySetChange.scheduledAt number)⟩ := by
    rw [hprocessed] at hlevels
    rw [history_append_singleton, queue_processFinalizedBlock, hqueue, hchanges,
      ← DueQueue.run_append_singleton, DueQueue.run_advance hlevels]
  refine ⟨congrArg DueQueue.Queue.pending hreleased, ?_⟩
  rw [history_currentAuthorities, hreleased]

/-- Processing a number leaves the due changes in force exactly when they were scheduled in
turn. -/
lemma dueInForce_iff {number : ℕ} (hlevels : ∀ m ∈ processed calls, m ≤ number) :
    DueInForce initialSet number (history initialSet (calls ++ [.processFinalizedBlock number])) ↔
      ScheduledInTurn number (history initialSet calls).changes := by
  obtain ⟨hpending, hcurrent⟩ := history_process initialSet hlevels
  have hchanges : (history initialSet (calls ++ [.processFinalizedBlock number])).changes
      = (history initialSet calls).changes := by
    rw [history_append_singleton]
    rfl
  have hturn : (∀ change ∈ (history initialSet calls).changes.dropWhile
        (due AuthoritySetChange.scheduledAt number), number < change.scheduledAt) ↔
      (history initialSet calls).changes.Pairwise fun earlier later =>
        later.scheduledAt ≤ number → earlier.scheduledAt ≤ number :=
    DueQueue.forall_dropWhile_iff
  rw [← hpending] at hturn
  constructor
  · rintro ⟨hnone, hforce⟩
    refine ⟨hturn.mp hnone, ?_⟩
    intro last latest hlast hlatest
    rw [hcurrent, hchanges, ← DueQueue.filter_eq_takeWhile (hturn.mp hnone), hlast, hlatest]
      at hforce
    exact hforce
  · rintro ⟨hordered, hwins⟩
    refine ⟨hturn.mpr hordered, ?_⟩
    rw [hcurrent, hchanges, ← DueQueue.filter_eq_takeWhile hordered]
    rcases hlast : ((history initialSet calls).changes.filter
      (due AuthoritySetChange.scheduledAt number)).getLast? with _ | last
    · -- nothing is due, so nothing has been activated
      have hnone : DueQueue.latestDue AuthoritySetChange.scheduledAt number
          (history initialSet calls).changes = none :=
        DueQueue.latestDue_eq_none_iff.mpr (List.getLast?_eq_none_iff.mp hlast)
      rw [hnone]
    · rcases hlatest : DueQueue.latestDue AuthoritySetChange.scheduledAt number
        (history initialSet calls).changes with _ | latest
      · rw [DueQueue.latestDue_eq_none_iff.mp hlatest] at hlast
        cases hlast
      · exact hwins last latest hlast hlatest

/-- **When due changes take effect.**  While the processed numbers do not decrease, every
processed number leaves the due changes in force exactly when at every processed number the
changes scheduled so far were scheduled in turn. -/
theorem dueInForce_run_iff (hmono : (processed calls).Pairwise (· ≤ ·)) :
    (∀ before number after, calls = before ++ .processFinalizedBlock number :: after →
        DueInForce initialSet number
          (history initialSet (before ++ [.processFinalizedBlock number]))) ↔
      ∀ before number after, calls = before ++ .processFinalizedBlock number :: after →
        ScheduledInTurn number (history initialSet before).changes := by
  have hlevels : ∀ before number after, calls = before ++ .processFinalizedBlock number :: after →
      ∀ m ∈ processed before, m ≤ number := by
    intro before number after hsplit m hm
    rw [hsplit, processed, List.filterMap_append, ← processed, List.pairwise_append] at hmono
    exact hmono.2.2 m hm number (by simp)
  constructor
  · intro hforce before number after hsplit
    exact (dueInForce_iff (hlevels before number after hsplit)).mp
      (hforce before number after hsplit)
  · intro hturn before number after hsplit
    exact (dueInForce_iff (hlevels before number after hsplit)).mpr
      (hturn before number after hsplit)

/-! ### A change held back, and one that overrides -/

/-- A change for block `5` scheduled behind one for block `10`. -/
def heldBackCalls : List (ManagerCall ℕ) :=
  [.scheduleChange [(1, 1)] 10, .scheduleChange [(2, 1)] 5, .processFinalizedBlock 5,
    .processFinalizedBlock 10]

/-- **A due change misses its block.**  Block `5` leaves the change for it pending and the
initial authorities in force; block `10` activates both, and the list scheduled last for the
earlier block overrides the one for block `10`. -/
theorem heldBackCalls_late :
    (history genesisSet (heldBackCalls.take 3)).manager.pendingChanges
        = [⟨1, [(1, 1)], 10⟩, ⟨1, [(2, 1)], 5⟩] ∧
      (history genesisSet (heldBackCalls.take 3)).manager.currentAuthorities = [(0, 1)] ∧
      (history genesisSet heldBackCalls).manager.currentAuthorities = [(2, 1)] ∧
      (processed heldBackCalls).Pairwise (· ≤ ·) ∧
      ¬ DueInForce genesisSet 5 (history genesisSet (heldBackCalls.take 3)) ∧
      ¬ DueInForce genesisSet 10 (history genesisSet heldBackCalls) := by
  refine ⟨rfl, rfl, rfl, by decide, ?_, ?_⟩
  · intro h
    have hlate : (5 : ℕ) < 5 :=
      h.noneLeft ⟨1, [(2, 1)], 5⟩ (List.mem_cons_of_mem _ List.mem_cons_self)
    omega
  · intro h
    have hlists : ([(2, 1)] : AuthorityList ℕ) = [(1, 1)] := h.inForce
    exact absurd hlists (by decide)

/-- The statement for the two changes the other way round. -/
theorem dueInForce_run_iff_sorted :
    (∀ before number after, [.scheduleChange [(2, 1)] 5, .scheduleChange [(1, 1)] 10,
          .processFinalizedBlock 5] = before ++ .processFinalizedBlock number :: after →
        DueInForce genesisSet number
          (history genesisSet (before ++ [.processFinalizedBlock number]))) ↔
      ∀ before number after, [.scheduleChange [(2, 1)] 5, .scheduleChange [(1, 1)] 10,
          .processFinalizedBlock 5] = before ++ .processFinalizedBlock number :: after →
        ScheduledInTurn number (history genesisSet before).changes :=
  dueInForce_run_iff (by decide)

end FrostSubstrate
