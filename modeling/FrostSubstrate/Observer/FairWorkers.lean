/-
Workers that keep being scheduled.

Targets may be registered for ever and other workers may go on for ever; a worker that is always
scheduled again still comes to the end of its stream, since a registration does not change what
is left of a list that has been copied (`WorkerState.remaining`).  By then it has handled every
notification with a copy of the list that has all targets registered before it was taken up, each
at its place (`Covers`), so where nothing fails no message is lost.
-/
import FrostSubstrate.Lib.FairRuns
import FrostSubstrate.Observer.ConcurrentWorkers
import Mathlib.Data.Prod.Lex

namespace FrostSubstrate

open FairRuns

variable {defaults : FrostDefaults} {encodeProof : StateProof → Bytes}
  {targets registered T l : List WatchTarget} {stream items : List StreamItem}
  {s s' : WorkerState} {item : StreamItem} {target : WatchTarget} {events : List WorkerEvent}

/-! ### What is left to do -/

namespace WorkerPhase

/-- The steps up to the copy of the list, and one for the targets of the copy. -/
def stage : WorkerPhase → ℕ
  | judging _ => 3
  | snapshotting _ => 2
  | finished => 0
  | crashed => 0
  | _ => 1

/-- The steps for the targets of the copy. -/
def copied : WorkerPhase → ℕ
  | matching _ _ rest => 3 * rest.length + 1
  | proving _ _ _ rest => 3 * rest.length + 3
  | routing _ _ _ _ _ rest => 3 * rest.length + 2
  | _ => 0

end WorkerPhase

/-- What is left to do: the notifications first, then the targets of the copy at hand.  How many
targets the next copies will have is open. -/
def WorkerState.remaining (s : WorkerState) : ℕ ×ₗ ℕ :=
  toLex (3 * s.stream.length + s.phase.stage, s.phase.copied)

/-- The worker has come to its end. -/
def WorkerState.Ended (s : WorkerState) : Prop := s.phase = .finished ∨ s.phase = .crashed

namespace WorkerPhase.At

variable {i : ℕ} {rest : List WatchTarget} {p : WorkerPhase}

lemma stage_eq (h : p.At item i target rest) : p.stage = 1 := by
  cases h <;> rfl

lemma lt_copied (h : p.At item i target rest) : 3 * rest.length + 1 < p.copied := by
  cases h with
  | matching => simp [WorkerPhase.copied]
  | proving => simp [WorkerPhase.copied]
  | routing router message => simp [WorkerPhase.copied]

end WorkerPhase.At

lemma WorkerMove.remaining_lt (h : WorkerMove defaults encodeProof s s') :
    s'.remaining < s.remaining := by
  have hstage : ∀ p : WorkerPhase, p.stage < s.phase.stage → (s.goTo p).remaining < s.remaining :=
    fun p hlt => Prod.Lex.toLex_lt_toLex.mpr (Or.inl (Nat.add_lt_add_left hlt _))
  have hcopied : ∀ p : WorkerPhase, p.stage = s.phase.stage → p.copied < s.phase.copied →
      (s.goTo p).remaining < s.remaining := by
    intro p heq hlt
    have hfirst : 3 * (s.goTo p).stream.length + p.stage = 3 * s.stream.length + s.phase.stage :=
      congrArg (3 * s.stream.length + ·) heq
    exact Prod.Lex.toLex_lt_toLex.mpr (Or.inr ⟨hfirst, hlt⟩)
  have hwaiting : ∀ {item i target rest}, s.phase.At item i target rest →
      (s.goTo .waiting).remaining < s.remaining := fun hphase =>
    hcopied _ hphase.stage_eq.symm (Nat.zero_lt_of_lt hphase.lt_copied)
  cases h with
  | stop hphase => exact hstage .finished (by simp [hphase, WorkerPhase.stage])
  | take item stream hphase hstream =>
    -- one notification less, and a place further from the copy
    apply Prod.Lex.toLex_lt_toLex.mpr
    left
    simp only [hphase, hstream, List.length_cons, WorkerPhase.stage]
    omega
  | accept item hphase => exact hstage (.snapshotting item) (by simp [hphase, WorkerPhase.stage])
  | skip item hphase => exact hstage .waiting (by simp [hphase, WorkerPhase.stage])
  | snapshot item hphase =>
    exact hstage (.matching item 0 s.targets) (by simp [hphase, WorkerPhase.stage])
  | exhaust item i hphase =>
    exact hcopied _ (by rw [hphase]; rfl) (by simp [hphase, WorkerPhase.copied])
  | matched item i target rest hphase =>
    exact hcopied _ (by rw [hphase]; rfl) (by simp [hphase, WorkerPhase.copied, Nat.mul_add])
  | proved item i target rest router message hphase =>
    exact hcopied _ (by rw [hphase]; rfl) (by simp [hphase, WorkerPhase.copied])
  | pass item i target rest f hphase => exact hcopied _ hphase.stage_eq.symm hphase.lt_copied
  | deliver item i target rest message hphase =>
    exact hcopied (.matching item (i + 1) rest) hphase.stage_eq.symm hphase.lt_copied
  | abandon item i target rest hphase => exact hwaiting hphase
  | refuse item i target rest message hphase => exact hwaiting hphase
  | crash item i target rest hphase =>
    exact hstage .crashed (by rw [hphase.stage_eq]; exact Nat.zero_lt_one)

lemma workerStep_of_ended (h : s.Ended) : workerStep defaults encodeProof s = s := by
  rcases h with hphase | hphase
  · rw [workerStep, hphase]
  · rw [workerStep, hphase]

/-! ### What has been handled -/

/-- All of `items` are still to come or have been handled, and then with a copy of the list that
begins with `T` if the block was final. -/
structure Covers (T : List WatchTarget) (items : List StreamItem) (s : WorkerState) : Prop where
  known : T <+: s.targets
  covered : ∀ item ∈ items, item ∈ s.phase.unrecorded ++ s.stream ∨
    ∃ copy, (item, copy) ∈ s.record ∧ ∀ targets, copy = some targets → T <+: targets

namespace Covers

lemma of_eq (h : Covers T items s) (htargets : s'.targets = s.targets)
    (hcome : s'.phase.unrecorded ++ s'.stream = s.phase.unrecorded ++ s.stream)
    (hrecord : s'.record = s.record) : Covers T items s' := by
  refine ⟨htargets ▸ h.known, ?_⟩
  rw [hcome, hrecord]
  exact h.covered

lemma note {copy : Option (List WatchTarget)} {p : WorkerPhase} (h : Covers T items s)
    (hitem : s.phase.unrecorded = [item]) (hp : p.unrecorded = [])
    (hcopy : ∀ targets, copy = some targets → T <+: targets) :
    Covers T items (s.note item copy p) := by
  refine ⟨h.known, fun item' hitem' => ?_⟩
  show item' ∈ p.unrecorded ++ s.stream ∨
    ∃ copy', (item', copy') ∈ s.record ++ [(item, copy)] ∧ _
  rw [hp, List.nil_append]
  rcases h.covered item' hitem' with hcome | ⟨copy', hmem, hprefix⟩
  · rw [hitem, List.singleton_append, List.mem_cons] at hcome
    rcases hcome with rfl | hcome
    · exact Or.inr ⟨copy, List.mem_append_right _ List.mem_cons_self, hcopy⟩
    · exact Or.inl hcome
  · exact Or.inr ⟨copy', List.mem_append_left _ hmem, hprefix⟩

lemma register (h : Covers T items s) (target : WatchTarget) : Covers T items (s.register target) :=
  ⟨h.known.trans (List.prefix_append _ _), h.covered⟩

lemma step (h : Covers T items s) (hconsistent : s.phase.Consistent defaults encodeProof) :
    Covers T items (workerStep defaults encodeProof s) := by
  rcases workerStep_move hconsistent with hmove | ⟨-, hsame⟩
  · generalize workerStep defaults encodeProof s = s' at hmove
    cases hmove with
    | stop hphase => exact h.of_eq rfl (by rw [hphase]; rfl) rfl
    | take item stream hphase hstream => exact h.of_eq rfl (by rw [hphase, hstream]; rfl) rfl
    | accept item hphase => exact h.of_eq rfl (by rw [hphase]; rfl) rfl
    | skip item hphase => exact h.note (by rw [hphase]; rfl) rfl (by rintro _ ⟨⟩)
    | snapshot item hphase =>
      refine h.note (by rw [hphase]; rfl) rfl ?_
      rintro _ ⟨⟩
      exact h.known
    | exhaust item i hphase => exact h.of_eq rfl (by rw [hphase]; rfl) rfl
    | matched item i target rest hphase => exact h.of_eq rfl (by rw [hphase]; rfl) rfl
    | proved item i target rest router message hphase =>
      exact h.of_eq rfl (by rw [hphase]; rfl) rfl
    | pass item i target rest f hphase =>
      exact h.of_eq rfl (by rw [hphase.unrecorded_eq]; rfl) rfl
    | abandon item i target rest hphase =>
      exact h.of_eq rfl (by rw [hphase.unrecorded_eq]; rfl) rfl
    | crash item i target rest hphase => exact h.of_eq rfl (by rw [hphase.unrecorded_eq]; rfl) rfl
    | deliver item i target rest message hphase =>
      exact h.of_eq rfl (by rw [hphase.unrecorded_eq]; rfl) rfl
    | refuse item i target rest message hphase =>
      exact h.of_eq rfl (by rw [hphase.unrecorded_eq]; rfl) rfl
  · rw [hsame]
    exact h

lemma run (h : Covers T items s) (hinv : Inv defaults encodeProof targets registered stream s)
    (events : List WorkerEvent) : Covers T items (runWorker defaults encodeProof s events) := by
  induction events generalizing registered s with
  | nil => exact h
  | cons event events ih =>
    cases event with
    | register target => exact ih (h.register target) (hinv.register target)
    | advance => exact ih (h.step hinv.consistent) hinv.step

end Covers

/-- Where every target before it succeeds, the calls for the target at place `j` are made. -/
lemma effects_subset_routingCalls {w : Surroundings} {blockRef : BlockRef} {i j : ℕ}
    (hsucceeds : ∀ target ∈ l, ∀ k, (fate defaults encodeProof w blockRef k target).succeeds = true)
    (hget : l[j]? = some target) :
    (fate defaults encodeProof w blockRef (i + j) target).effects blockRef (i + j) target
      ⊆ routingCalls defaults encodeProof w blockRef i l := by
  induction l generalizing i j with
  | nil => cases hget
  | cons first l ih =>
    obtain ⟨hfirst, hrest⟩ := List.forall_mem_cons.mp hsucceeds
    rw [routingCalls, if_pos (hfirst i)]
    cases j with
    | zero =>
      obtain rfl : first = target := Option.some.inj hget
      exact List.subset_append_left _ _
    | succ j =>
      have hshift : i + (j + 1) = i + 1 + j := by omega
      rw [hshift]
      exact List.subset_append_of_subset_right _ (ih hrest hget)

lemma Covers.effects_subset {j : ℕ} (h : Covers T items s)
    (hinv : Inv defaults encodeProof targets registered stream s) (hend : s.phase = .finished)
    (hitem : item ∈ items) (hfinal : item.surroundings.isFinal (item.ref defaults) = .ok true)
    (hget : T[j]? = some target)
    (hsucceeds : ∀ target ∈ targets ++ registered, ∀ k,
      (item.fate defaults encodeProof k target).succeeds = true)
    (hcopies : ∀ copy, (item, some copy) ∈ s.record → copy ⊆ targets ++ registered) :
    (item.fate defaults encodeProof j target).effects (item.ref defaults) j target ⊆ s.calls := by
  have hcalls : s.calls = s.record.flatMap (recordedBlock defaults encodeProof) := by
    rw [← hinv.calls_eq, hend]
    exact (List.append_nil _).symm
  rcases h.covered item hitem with hcome | ⟨copy, hmem, hprefix⟩
  · rw [hend, hinv.at_end hend] at hcome
    cases hcome
  · obtain ⟨l, rfl⟩ := Option.isSome_iff_exists.mp ((hinv.final_iff _ hmem).mpr hfinal)
    obtain ⟨later, rfl⟩ := hprefix l rfl
    have hplace : (T ++ later)[j]? = some target := by
      rw [List.getElem?_append_left (List.getElem?_eq_some_iff.mp hget).1, hget]
    have hblock : (item.fate defaults encodeProof (0 + j) target).effects (item.ref defaults)
        (0 + j) target ⊆ recordedBlock defaults encodeProof (item, some (T ++ later)) := by
      rw [recordedBlock, ← routingCalls_eq]
      exact effects_subset_routingCalls
        (fun u hu => hsucceeds u (hcopies _ hmem hu)) hplace
    rw [Nat.zero_add] at hblock
    rw [hcalls]
    exact fun e he => List.mem_flatMap.mpr ⟨_, hmem, hblock he⟩

/-! ### Many workers under one schedule -/

section Schedule

variable {I : Type} [DecidableEq I] {streams : I → List StreamItem} {i : I} {n m : ℕ}
  {schedule : ℕ → Parties.Event I WatchTarget}

/-- The targets that are registered at some time. -/
def Known (targets : List WatchTarget) (schedule : ℕ → Parties.Event I WatchTarget)
    (target : WatchTarget) : Prop := target ∈ targets ∨ ∃ n, schedule n = .common target

lemma known_of_mem
    (h : target ∈ targets ++ (eventsOf i (upTo schedule n)).flatMap WorkerEvent.registered) :
    Known targets schedule target := by
  rcases List.mem_append.mp h with h | h
  · exact Or.inl h
  · obtain ⟨event, hevent, htarget⟩ := List.mem_flatMap.mp h
    obtain ⟨seen, hseen, rfl⟩ := List.mem_map.mp hevent
    obtain ⟨e, he, hsome⟩ := List.mem_filterMap.mp hseen
    obtain ⟨k, -, hk⟩ := mem_upTo.mp he
    cases e with
    | common t =>
      obtain rfl : some t = seen := Option.some.inj hsome
      obtain rfl := List.mem_singleton.mp htarget
      exact Or.inr ⟨k, hk⟩
    | act j =>
      by_cases hji : j = i
      · obtain rfl : none = seen := by simpa [Parties.Event.seen, hji] using hsome
        cases htarget
      · simp [Parties.Event.seen, hji] at hsome

variable (defaults encodeProof targets streams schedule i) in
lemma ranked_remaining :
    Ranked (Parties.step (workers defaults encodeProof))
      ⟨targets, fun i => .start targets (streams i), []⟩ schedule (fun e => e = .act i)
      (fun s => (s.party i).Ended) (· < ·) (fun s => (s.party i).remaining) := by
  refine ⟨fun n hown hgoing => ?_, fun n hother => ?_, fun n hended => ?_⟩
  · have hinv := inv_reached defaults encodeProof targets (streams i) (eventsOf i (upTo schedule n))
    rw [← runWorkers_view.1] at hinv
    rw [run_upTo_succ, hown]
    set s := Runs.run (Parties.step (workers defaults encodeProof))
      ⟨targets, fun i => .start targets (streams i), []⟩ (upTo schedule n) with hs
    show (Function.update s.party i _ i).remaining < (s.party i).remaining
    rw [Function.update_self]
    rcases workerStep_move hinv.consistent with hmove | ⟨hended, -⟩
    · exact hmove.remaining_lt
    · exact absurd hended hgoing
  · rw [run_upTo_succ]
    generalize Runs.run (Parties.step (workers defaults encodeProof))
      ⟨targets, fun i => .start targets (streams i), []⟩ (upTo schedule n) = s
    rcases hevent : schedule n with target | j
    · rfl
    · have hji : i ≠ j := by
        rintro rfl
        exact hother hevent
      show (Function.update s.party j _ i).remaining = _
      rw [Function.update_of_ne hji]
  · rw [run_upTo_succ]
    generalize Runs.run (Parties.step (workers defaults encodeProof))
      ⟨targets, fun i => .start targets (streams i), []⟩ (upTo schedule n) = s at hended ⊢
    rcases hevent : schedule n with target | j
    · exact hended
    · show (Function.update s.party j _ i).Ended
      by_cases hij : i = j
      · subst hij
        have hsame : workerStep defaults encodeProof ((s.party i).at s.shared)
            = (s.party i).at s.shared := workerStep_of_ended hended
        rw [Function.update_self]
        show (workerStep defaults encodeProof ((s.party i).at s.shared)).Ended
        rw [hsame]
        exact hended
      · rw [Function.update_of_ne hij]
        exact hended

/-- A worker that is always scheduled again, and meets no panic, comes to the end of its stream. -/
lemma settles_finished (hfair : Recurs (fun e => e = .act i) schedule)
    (hpanics : ∀ item ∈ streams i, ∀ target, Known targets schedule target →
      ∀ k, item.fate defaults encodeProof k target ≠ .crashed) :
    Settles fun n => ((runWorkers defaults encodeProof targets streams (upTo schedule n)).party
      i).phase = .finished := by
  refine ((ranked_remaining defaults encodeProof targets streams i schedule).eventually
    wellFounded_lt hfair).mono ?_
  intro n hended
  have hstart : Inv defaults encodeProof targets [] (streams i) (.start targets (streams i)) :=
    inv_start targets (streams i)
  have hcrashed := (hstart.run_ne_crashed (eventsOf i (upTo schedule n))
    (fun item hitem target htarget => hpanics item hitem target (known_of_mem htarget))
    (by rintro ⟨⟩)).1
  rw [← runWorkers_view.1] at hcrashed
  exact hended.resolve_right hcrashed

lemma copy_subset {copy : List WatchTarget}
    (h : (item, some copy) ∈
      (runWorker defaults encodeProof (.start targets stream) events).record) :
    copy ⊆ targets ++ events.flatMap WorkerEvent.registered := by
  obtain ⟨k, hk⟩ := List.getElem?_of_mem h
  obtain ⟨before, after, rfl, -, -, rfl⟩ := record_snapshot hk
  rw [List.flatMap_append, ← List.append_assoc]
  exact List.subset_append_left _ _

/-- A notification that is not taken up yet is handled, when the worker has come to its end, with
the targets registered by now. -/
lemma effects_of_finished {j : ℕ} (hm : n ≤ m)
    (hend : ((runWorkers defaults encodeProof targets streams (upTo schedule m)).party i).phase
      = .finished)
    (hitem : item ∈ ((runWorkers defaults encodeProof targets streams
      (upTo schedule n)).party i).stream)
    (hget : (runWorkers defaults encodeProof targets streams (upTo schedule n)).shared[j]?
      = some target)
    (hfinal : item.surroundings.isFinal (item.ref defaults) = .ok true)
    (hsucceeds : ∀ target, Known targets schedule target →
      ∀ k, (item.fate defaults encodeProof k target).succeeds = true) :
    ∀ e ∈ (item.fate defaults encodeProof j target).effects (item.ref defaults) j target,
      (i, e) ∈ (runWorkers defaults encodeProof targets streams (upTo schedule m)).log := by
  intro e he
  obtain ⟨rest, hrest⟩ : upTo schedule n <+: upTo schedule m := upTo_prefix hm
  have hevents : eventsOf i (upTo schedule m)
      = eventsOf i (upTo schedule n) ++ eventsOf i rest := by
    simp [← hrest, eventsOf]
  -- the worker alone, now and at its end
  have hnow := inv_reached defaults encodeProof targets (streams i) (eventsOf i (upTo schedule n))
  have hlater := inv_reached defaults encodeProof targets (streams i)
    (eventsOf i (upTo schedule m))
  have hcovers : Covers (runWorkers defaults encodeProof targets streams (upTo schedule n)).shared
      ((runWorkers defaults encodeProof targets streams (upTo schedule n)).party i).stream
      (runWorker defaults encodeProof (.start targets (streams i))
        (eventsOf i (upTo schedule n))) := by
    rw [← runWorkers_view.1]
    exact ⟨List.prefix_rfl, fun _ h => Or.inl (List.mem_append_right _ h)⟩
  have hcovered := hcovers.run hnow (eventsOf i rest)
  rw [← runWorker_append, ← hevents] at hcovered
  have hfinished : (runWorker defaults encodeProof (.start targets (streams i))
      (eventsOf i (upTo schedule m))).phase = .finished := by
    rw [← runWorkers_view.1]
    exact hend
  exact mem_log.mpr (hcovered.effects_subset hlater hfinished hitem hfinal hget
    (fun u hu => hsucceeds u (known_of_mem hu)) (fun copy => copy_subset) he)

/-- **No message is lost.**  For any number of workers under a schedule that keeps coming back to
each of them, whatever is registered meanwhile and without a panicking answer: from some moment on
all workers have come to the end of their streams and have routed them in order; and for every
final notification that a worker has not taken up at some moment, if no target fails for it, the
calls of the router for a target registered by then, and for its place, stand in the log. -/
theorem fair_workers [Finite I] (defaults : FrostDefaults) (encodeProof : StateProof → Bytes)
    (targets : List WatchTarget) (streams : I → List StreamItem)
    (schedule : ℕ → Parties.Event I WatchTarget)
    (hfair : ∀ i, Recurs (fun e => e = .act i) schedule)
    (hpanics : ∀ i, ∀ item ∈ streams i, ∀ target, Known targets schedule target →
      ∀ k, item.fate defaults encodeProof k target ≠ .crashed) :
    (Settles fun n => ∀ i,
      ((runWorkers defaults encodeProof targets streams (upTo schedule n)).party i).phase
          = .finished ∧
        RoutesInOrder defaults encodeProof targets (streams i) (eventsOf i (upTo schedule n))
          (((runWorkers defaults encodeProof targets streams (upTo schedule n)).party i).at
            (runWorkers defaults encodeProof targets streams (upTo schedule n)).shared)) ∧
    ∀ i n, ∀ item ∈ ((runWorkers defaults encodeProof targets streams
        (upTo schedule n)).party i).stream,
      item.surroundings.isFinal (item.ref defaults) = .ok true →
      (∀ target, Known targets schedule target →
        ∀ k, (item.fate defaults encodeProof k target).succeeds = true) →
      ∀ j target, (runWorkers defaults encodeProof targets streams (upTo schedule n)).shared[j]?
          = some target →
        Settles fun m => ∀ e ∈
          (item.fate defaults encodeProof j target).effects (item.ref defaults) j target,
          (i, e) ∈ (runWorkers defaults encodeProof targets streams (upTo schedule m)).log := by
  refine ⟨Settles.forall_finite fun i => ?_, ?_⟩
  · refine (settles_finished (hfair i) (hpanics i)).mono fun n hend => ⟨hend, ?_⟩
    rw [runWorkers_view.1]
    apply routesInOrder_of_finished
    rw [← runWorkers_view.1]
    exact hend
  · intro i n item hitem hfinal hsucceeds j target hget
    have hlater : Settles fun m => n ≤ m := ⟨n, fun _ hm => hm⟩
    refine (hlater.and (settles_finished (hfair i) (hpanics i))).mono fun m hm => ?_
    exact effects_of_finished hm.1 hm.2 hitem hget hfinal hsucceeds

end Schedule

/-! ### Two workers among registrations that never stop -/

/-- Every third event is a registration, and the two workers take turns. -/
def busySchedule (n : ℕ) : Parties.Event Bool WatchTarget :=
  if n % 3 = 0 then .common secondTarget else .act (n % 3 == 1)

lemma busySchedule_recurs (i : Bool) : Recurs (fun e => e = .act i) busySchedule := by
  intro n
  cases i with
  | false => exact ⟨3 * n + 2, by omega, by simp [busySchedule, Nat.add_mod]⟩
  | true => exact ⟨3 * n + 1, by omega, by simp [busySchedule, Nat.add_mod]⟩

lemma known_busySchedule (h : Known [sampleTarget] busySchedule target) :
    target = sampleTarget ∨ target = secondTarget := by
  rcases h with h | ⟨n, hn⟩
  · exact Or.inl (List.mem_singleton.mp h)
  · unfold busySchedule at hn
    split_ifs at hn
    exact Or.inr (Parties.Event.common.inj hn).symm

/-- The statement for two workers on the stream whose first proof is rejected: both come to its
end, and the message for the sample target is routed for the second notification. -/
theorem fair_workers_busySchedule :
    (Settles fun n => ∀ i, ((runWorkers zeroDefaults (fun _ => [1]) [sampleTarget]
      (fun _ => retriedStream) (upTo busySchedule n)).party i).phase = .finished) ∧
    Settles fun n => (true, .routed (notifiedRef zeroDefaults sampleNotification) 0 sampleTarget
      ⟨.stateTransition, [1], "source", none⟩ true) ∈ (runWorkers zeroDefaults (fun _ => [1])
        [sampleTarget] (fun _ => retriedStream) (upTo busySchedule n)).log := by
  obtain ⟨hend, hlost⟩ := fair_workers zeroDefaults (fun _ => [1]) [sampleTarget]
    (fun _ => retriedStream) busySchedule busySchedule_recurs (by
      intro i item hitem target htarget
      refine retriedStream_noPanic item hitem target ?_
      rcases known_busySchedule htarget with rfl | rfl
      · exact List.mem_cons_self
      · simp [registeringEvents, WorkerEvent.registered])
  refine ⟨hend.mono fun n hn i => (hn i).1, ?_⟩
  have hrouted := hlost true 0 ⟨sampleNotification, rejecting []⟩
    (List.mem_cons_of_mem _ List.mem_cons_self) rfl (by
      intro target htarget k
      rcases known_busySchedule htarget with rfl | rfl
      · rfl
      · rfl) 0 sampleTarget rfl
  exact hrouted.mono fun n hn => hn _ List.mem_cons_self

end FrostSubstrate
