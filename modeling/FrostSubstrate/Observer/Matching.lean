/-
What a watch target stands for.

The search knows a target by its patterns only: an event matches when all of them occur in its
encoding, wherever and in whatever order.  So a target stands for a set of events, and one target
finds all that another one finds exactly when each of its patterns occurs in a pattern of the
other.  The two names may even be swapped without a difference, and the target chain never comes
in.  That this is exact rests on the bounds of the vectors: a pattern of at most 64 bytes lacks
some byte, and an event can have the patterns of the other target apart from each other.
-/
import FrostSubstrate.Lib.Infixes
import FrostSubstrate.Observer.Target
import Mathlib.Data.List.Nodup

namespace FrostSubstrate

open Windows Infixes

/-- What is searched for: the two names, and the hash if there is one. -/
def WatchTarget.patterns (target : WatchTarget) : List Bytes :=
  target.moduleName.val :: target.functionName.val ::
    (target.messageHash.map BoundedVec.val).toList

/-- No pattern is empty. -/
def WatchTarget.Searchable (target : WatchTarget) : Prop := ∀ p ∈ target.patterns, p ≠ []

/-- The events that have all patterns of a target. -/
def WatchTarget.Finds (target : WatchTarget) (event : Bytes) : Prop :=
  ∀ p ∈ target.patterns, p <:+: event

instance (target : WatchTarget) : Decidable target.Searchable :=
  inferInstanceAs (Decidable (∀ p ∈ target.patterns, _))

instance (target : WatchTarget) (event : Bytes) : Decidable (target.Finds event) :=
  inferInstanceAs (Decidable (∀ p ∈ target.patterns, _))

variable {target target' : WatchTarget} {event p : Bytes} {fetched : List Bytes}
  {events : H256 → Except String (List Bytes)} {blockRef : BlockRef}

/-! ### The outcome of a search -/

lemma finds_iff : target.Finds event ↔
    NamesOccur event target ∧ ∀ hash, target.messageHash = some hash → hash.val <:+: event := by
  unfold WatchTarget.Finds WatchTarget.patterns NamesOccur
  cases target.messageHash with
  | none => simp
  | some hash => simp [and_assoc]

namespace WatchTarget.Searchable

lemma moduleName (h : target.Searchable) : target.moduleName.val ≠ [] :=
  h _ List.mem_cons_self

lemma functionName (h : target.Searchable) : target.functionName.val ≠ [] :=
  h _ (List.mem_cons_of_mem _ List.mem_cons_self)

lemma eventMatches (h : target.Searchable) :
    eventMatchesTarget event target = .ok (decide (target.Finds event)) := by
  rw [eventMatchesTarget, genericEventMatch_of_ne_nil h.moduleName h.functionName]
  by_cases hnames : NamesOccur event target
  · rw [if_pos hnames]
    rcases hhash : target.messageHash with _ | hash
    · have hfinds : target.Finds event := finds_iff.mpr ⟨hnames, by simp [hhash]⟩
      simp [hfinds]
    · have hnil : hash.val ≠ [] := h _ (by simp [WatchTarget.patterns, hhash])
      have hfinds : target.Finds event ↔ hash.val <:+: event := by
        rw [finds_iff]
        simp [hnames, hhash]
      simp only [containsWindow_of_ne_nil hnil, hfinds]
  · have hfinds : ¬ target.Finds event := fun hfinds => hnames (finds_iff.mp hfinds).1
    rw [if_neg hnames]
    simp [hfinds]

lemma anyEventMatches (h : target.Searchable) :
    anyEventMatches target fetched = .ok (decide (∃ event ∈ fetched, target.Finds event)) := by
  induction fetched with
  | nil => simp [FrostSubstrate.anyEventMatches]
  | cons event fetched ih =>
    rw [FrostSubstrate.anyEventMatches, h.eventMatches, Outcome.ok_bind, ih]
    by_cases hfinds : target.Finds event
    · simp [hfinds]
    · simp [hfinds]

/-- **The outcome of a search.**  It is an error when the events cannot be fetched, and otherwise
says whether some event has all patterns. -/
theorem matches_eq (h : target.Searchable) : matchesWatchTarget events blockRef target
    = match events blockRef.hash with
      | .error e => .err (.custom ("Failed to fetch events: " ++ e))
      | .ok fetched => .ok (decide (∃ event ∈ fetched, target.Finds event)) := by
  rw [matchesWatchTarget]
  rcases events blockRef.hash with e | fetched
  · rfl
  · exact h.anyEventMatches

end WatchTarget.Searchable

/-! ### Comparing targets -/

/-- Each pattern of `target` occurs in a pattern of `target'`. -/
def WatchTarget.Subsumes (target target' : WatchTarget) : Prop :=
  ∀ p ∈ target.patterns, ∃ p' ∈ target'.patterns, p <:+: p'

instance (target target' : WatchTarget) : Decidable (target.Subsumes target') :=
  inferInstanceAs (Decidable (∀ p ∈ target.patterns, ∃ p' ∈ target'.patterns, _))

lemma length_le_of_mem_patterns (hp : p ∈ target.patterns) : p.length ≤ 64 := by
  simp only [WatchTarget.patterns, List.mem_cons, Option.mem_toList, Option.map_eq_some_iff] at hp
  rcases hp with rfl | rfl | ⟨hash, -, rfl⟩
  · exact target.moduleName.length_le.trans (by decide)
  · exact target.functionName.length_le.trans (by decide)
  · exact hash.length_le

/-- A pattern is too short to have every byte. -/
lemma exists_byte_not_mem (hp : p.length ≤ 64) : ∃ c, c ∉ p := by
  have hnodup : ((List.range 256).map UInt8.ofNat).Nodup := by
    refine List.Nodup.map_on ?_ List.nodup_range
    intro m hm n hn h
    have hnat := congrArg UInt8.toNat h
    rwa [UInt8.toNat_ofNat_of_lt' (List.mem_range.mp hm),
      UInt8.toNat_ofNat_of_lt' (List.mem_range.mp hn)] at hnat
  apply exists_not_mem hnodup
  rw [List.length_map, List.length_range]
  omega

/-- One target finds all events that the other one finds exactly when it subsumes it. -/
lemma WatchTarget.Searchable.finds_of_finds_iff (h : target.Searchable) :
    (∀ event, target'.Finds event → target.Finds event) ↔ target.Subsumes target' := by
  apply forall_text_iff
  intro p hp
  exact ⟨h p hp, exists_byte_not_mem (length_le_of_mem_patterns hp)⟩

/-- **What a watch target stands for.**  For targets without empty patterns: the search in a block
fails when the events cannot be fetched, never panics, and otherwise says whether some event has
all patterns; one target matches in every block where another one does exactly when each of its
patterns occurs in a pattern of the other; and two targets get the same answer for every block
exactly when this holds both ways, whatever their target chains are. -/
theorem target_matching (h : target.Searchable) (h' : target'.Searchable) :
    (∀ events blockRef, matchesWatchTarget events blockRef target
      = match events blockRef.hash with
        | .error e => .err (.custom ("Failed to fetch events: " ++ e))
        | .ok fetched => .ok (decide (∃ event ∈ fetched, target.Finds event))) ∧
    ((∀ events blockRef, matchesWatchTarget events blockRef target' = .ok true →
      matchesWatchTarget events blockRef target = .ok true) ↔ target.Subsumes target') ∧
    ((∀ events blockRef, matchesWatchTarget events blockRef target
        = matchesWatchTarget events blockRef target') ↔
      target.Subsumes target' ∧ target'.Subsumes target) := by
  have hone : ∀ (event : Bytes) (blockRef : BlockRef) {target : WatchTarget}, target.Searchable →
      matchesWatchTarget (fun _ => .ok [event]) blockRef target
        = .ok (decide (target.Finds event)) := by
    intro event blockRef target h
    rw [h.matches_eq]
    simp
  refine ⟨fun events blockRef => h.matches_eq, ?_, ?_⟩
  · rw [← h.finds_of_finds_iff]
    constructor
    · intro hall event hfinds
      have hblock := hall (fun _ => .ok [event]) ⟨⟨""⟩, 0, .zero⟩
      rw [hone event _ h, hone event _ h'] at hblock
      simpa using hblock (by simpa using hfinds)
    · intro hall events blockRef
      rw [h.matches_eq, h'.matches_eq]
      rcases events blockRef.hash with e | fetched
      · exact id
      · simp only [Outcome.ok.injEq, decide_eq_true_eq]
        rintro ⟨event, hmem, hfinds⟩
        exact ⟨event, hmem, hall event hfinds⟩
  · rw [← h.finds_of_finds_iff, ← h'.finds_of_finds_iff]
    constructor
    · intro hall
      have heq : ∀ event, target.Finds event ↔ target'.Finds event := by
        intro event
        have hblock := hall (fun _ => .ok [event]) ⟨⟨""⟩, 0, .zero⟩
        rw [hone event _ h, hone event _ h'] at hblock
        simpa using hblock
      exact ⟨fun event => (heq event).mpr, fun event => (heq event).mp⟩
    · rintro ⟨hto, hfrom⟩ events blockRef
      have heq : ∀ event, target.Finds event ↔ target'.Finds event :=
        fun event => ⟨hfrom event, hto event⟩
      rw [h.matches_eq, h'.matches_eq]
      simp only [heq]

/-! ### Two names the other way round -/

/-- The sample target with its two names swapped, for another chain. -/
def swappedTarget : WatchTarget where
  moduleName := sampleTarget.functionName
  functionName := sampleTarget.moduleName
  messageHash := none
  targetChain := sampleTarget.functionName

/-- The statement for this target: it gets the answers of the sample target. -/
theorem target_matching_swapped : swappedTarget ≠ sampleTarget ∧
    ∀ events blockRef, matchesWatchTarget events blockRef sampleTarget
      = matchesWatchTarget events blockRef swappedTarget := by
  have hsample : sampleTarget.Searchable := by decide
  have hswapped : swappedTarget.Searchable := by decide
  exact ⟨by decide, (target_matching hsample hswapped).2.2.mpr ⟨by decide, by decide⟩⟩

end FrostSubstrate
