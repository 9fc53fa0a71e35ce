/-
The registered targets on chain and in the observer.

`register_watch_target` writes a target twice: into a map of the storage, under the hash of its
encoding, where a second registration replaces the first, and at the end of the list of the
observer, where it does not.  The map outlives the process and the list does not, and nothing
fills the list of a new observer from the map.
-/
import FrostSubstrate.Pallet.Singleton
import Mathlib.Data.List.Nodup
import Mathlib.Data.List.Induction
import Mathlib.Data.Set.Function

namespace FrostSubstrate

/-! ### Different targets have different encodings -/

/-- One byte that is a multiple of four is not the first of the two bytes of length `64`. -/
lemma shortLength_ne {k : ℕ} (hk : k < 64) (r r' : Bytes) :
    [UInt8.ofNat (4 * k)] ++ r ≠ leBytes 2 (4 * 64 + 1) ++ r' := by
  intro h
  have hbyte : (UInt8.ofNat (4 * k)).toNat = 4 * k :=
    UInt8.toNat_ofNat_of_lt' (show 4 * k < 256 by omega)
  have hhead : UInt8.ofNat (4 * k) = 1 := (List.cons.inj h).1
  have hone : (1 : UInt8).toNat = 1 := rfl
  rw [hhead, hone] at hbyte
  omega

/-- Up to `64` elements, the compact length of a vector tells where it ends. -/
lemma compactLength_append_inj {m n : ℕ} (hm : m ≤ 64) (hn : n ≤ 64) {r r' : Bytes}
    (h : compactLength m ++ r = compactLength n ++ r') : m = n ∧ r = r' := by
  unfold compactLength at h
  split_ifs at h with hm64 hn64 hn64
  · obtain ⟨hhead, hrest⟩ := List.cons.inj h
    have heq := congrArg UInt8.toNat hhead
    rw [UInt8.toNat_ofNat_of_lt' (show 4 * m < 256 by omega),
      UInt8.toNat_ofNat_of_lt' (show 4 * n < 256 by omega)] at heq
    exact ⟨by omega, hrest⟩
  · obtain rfl : n = 64 := by omega
    exact absurd h (shortLength_ne hm64 r r')
  · obtain rfl : m = 64 := by omega
    exact absurd h.symm (shortLength_ne hn64 r' r)
  · obtain rfl : m = n := by omega
    exact ⟨rfl, List.append_cancel_left h⟩

lemma BoundedVec.encode_append_inj {n : ℕ} (hn : n ≤ 64) {v w : BoundedVec UInt8 n} {r r' : Bytes}
    (h : v.encode ++ r = w.encode ++ r') : v = w ∧ r = r' := by
  obtain ⟨v, hv⟩ := v
  obtain ⟨w, hw⟩ := w
  simp only [BoundedVec.encode, List.append_assoc] at h
  obtain ⟨hlen, hrest⟩ := compactLength_append_inj (hv.trans hn) (hw.trans hn) h
  obtain ⟨rfl, rfl⟩ := List.append_inj hrest hlen
  exact ⟨rfl, rfl⟩

/-- **The encoding of targets is injective.** -/
theorem WatchTarget.encode_injective : Function.Injective WatchTarget.encode := by
  rintro ⟨moduleName, functionName, messageHash, targetChain⟩ ⟨moduleName', functionName',
    messageHash', targetChain'⟩ hencode
  simp only [WatchTarget.encode, List.append_assoc] at hencode
  obtain ⟨rfl, hfunction⟩ := BoundedVec.encode_append_inj (by omega) hencode
  obtain ⟨rfl, h⟩ := BoundedVec.encode_append_inj (by omega) hfunction
  have hchain : ∀ {r r' : Bytes}, r ++ targetChain.encode = r' ++ targetChain'.encode → r = r' →
      targetChain = targetChain' := by
    rintro r _ heq rfl
    have hnil : targetChain.encode ++ [] = targetChain'.encode ++ [] := by
      rw [List.append_nil, List.append_nil, List.append_cancel_left heq]
    exact (BoundedVec.encode_append_inj (by omega) hnil).1
  cases messageHash with
  | none =>
    cases messageHash' with
    | none =>
      obtain rfl := hchain h rfl
      rfl
    | some hash' =>
      have hhead : (0 : UInt8) = 1 := (List.cons.inj h).1
      cases hhead
  | some hash =>
    cases messageHash' with
    | none =>
      have hhead : (1 : UInt8) = 0 := (List.cons.inj h).1
      cases hhead
    | some hash' =>
      have hrest := (List.cons.inj h).2
      obtain ⟨rfl, htail⟩ := BoundedVec.encode_append_inj (by omega) hrest
      obtain rfl := hchain h rfl
      rfl

/-! ### The history of a pallet -/

/-- What happens to the pallet: a dispatch, or a restart of the process. -/
inductive RegistryEvent where
  | dispatch (origin : Origin) (target : WatchTarget)
  | restart

variable {Hash : Type} [DecidableEq Hash] (frostHash : Bytes → Hash)

namespace RegistryEvent

/-- A restart keeps the storage and the events of the chain, and the observer of the new
process starts with no targets. -/
def step (s : PalletState Hash) : RegistryEvent → PalletState Hash
  | dispatch origin target => (registerWatchTarget frostHash origin target s).2
  | restart => { s with observer := some [] }

/-- The target an event registers, if it is a dispatch that is accepted. -/
def accepted : RegistryEvent → Option WatchTarget
  | dispatch .signed target =>
    if target.moduleName.val ≠ [] ∧ target.functionName.val ≠ [] then some target else none
  | _ => none

end RegistryEvent

/-- The pallet after these events, from the first block and the first process on. -/
def registryState (events : List RegistryEvent) : PalletState Hash :=
  events.foldl (RegistryEvent.step frostHash) ⟨fun _ => none, [], some []⟩

/-- The targets accepted since the last restart, in order. -/
def acceptedSinceRestart (events : List RegistryEvent) : List WatchTarget :=
  events.foldl (fun targets event =>
    match event with
    | .restart => []
    | .dispatch origin target =>
      targets ++ (RegistryEvent.dispatch origin target).accepted.toList) []

/-- The list of the observer holds every stored target exactly once, and nothing else. -/
structure InAgreement (s : PalletState Hash) : Prop where
  listed : ∃ targets, s.observer = some targets ∧ targets.Nodup ∧
    ∀ target, target ∈ targets ↔ ∃ hash, s.watchTargets hash = some target

/-- The registrations agree in a history: after every dispatch the list is that of the stored
targets, and a dispatch that is rejected changes neither. -/
structure RegistriesAgree (events : List RegistryEvent) : Prop where
  agree : ∀ before origin target after, events = before ++ .dispatch origin target :: after →
    InAgreement (registryState frostHash (before ++ [.dispatch origin target]))
  rejected : ∀ before origin target after, events = before ++ .dispatch origin target :: after →
    ∀ e, (registerWatchTarget frostHash origin target (registryState frostHash before)).1
        = .error e →
      (registryState frostHash (before ++ [.dispatch origin target])).watchTargets
          = (registryState frostHash before).watchTargets ∧
        (registryState frostHash (before ++ [.dispatch origin target])).observer
          = (registryState frostHash before).observer

/-- At every dispatch, no target has been accepted twice since the last restart, and every
target ever accepted has been accepted since then. -/
def RegisteredOnce (events : List RegistryEvent) : Prop :=
  ∀ before origin target after, events = before ++ .dispatch origin target :: after →
    (acceptedSinceRestart (before ++ [.dispatch origin target])).Nodup ∧
      ∀ t ∈ (before ++ [.dispatch origin target]).filterMap RegistryEvent.accepted,
        t ∈ acceptedSinceRestart (before ++ [.dispatch origin target])

variable {frostHash} {events : List RegistryEvent} {event : RegistryEvent}

@[simp] lemma registryState_append_singleton :
    registryState frostHash (events ++ [event]) = event.step frostHash
      (registryState frostHash events) := by
  simp only [registryState, List.foldl_append, List.foldl_cons, List.foldl_nil]

lemma step_dispatch (frostHash : Bytes → Hash) (s : PalletState Hash) (origin : Origin)
    (target : WatchTarget) :
    ((RegistryEvent.dispatch origin target).accepted = none ∧
      (RegistryEvent.dispatch origin target).step frostHash s = s) ∨
    ((RegistryEvent.dispatch origin target).accepted = some target ∧
      ((RegistryEvent.dispatch origin target).step frostHash s).watchTargets
        = Function.update s.watchTargets (frostHash target.encode) (some target) ∧
      ((RegistryEvent.dispatch origin target).step frostHash s).observer
        = s.observer.map fun targets => targets ++ [target]) := by
  cases origin with
  | signed =>
    by_cases hnames : target.moduleName.val ≠ [] ∧ target.functionName.val ≠ []
    · refine Or.inr ⟨if_pos hnames, ?_⟩
      have hcheck : ¬ target.moduleName.val.isEmpty ∧ ¬ target.functionName.val.isEmpty := by
        simpa using hnames
      rw [RegistryEvent.step, registerWatchTarget, if_pos hcheck]
      exact ⟨rfl, rfl⟩
    · refine Or.inl ⟨if_neg hnames, ?_⟩
      have hcheck : ¬ (¬ target.moduleName.val.isEmpty ∧ ¬ target.functionName.val.isEmpty) := by
        simpa using hnames
      simp only [RegistryEvent.step, registerWatchTarget, if_neg hcheck]
  | root => exact Or.inl ⟨rfl, rfl⟩
  | none => exact Or.inl ⟨rfl, rfl⟩

/-- **The list of the observer** is that of the targets accepted since the last restart. -/
theorem registryState_observer (events : List RegistryEvent) :
    (registryState frostHash events).observer = some (acceptedSinceRestart events) := by
  induction events using List.reverseRecOn with
  | nil => rfl
  | append_singleton events event ih =>
    rw [registryState_append_singleton, acceptedSinceRestart, List.foldl_append,
      ← acceptedSinceRestart]
    cases event with
    | restart => rfl
    | dispatch origin target =>
      rcases step_dispatch frostHash (registryState frostHash events) origin target with
        ⟨haccepted, hstep⟩ | ⟨haccepted, -, hobserver⟩
      · simp [hstep, ih, haccepted]
      · simp [hobserver, ih, haccepted]

/-- **The stored targets** are those ever accepted, under their hashes. -/
theorem registryState_watchTargets (hhash : Set.InjOn frostHash (Set.range WatchTarget.encode))
    (events : List RegistryEvent) (hash : Hash) (target : WatchTarget) :
    (registryState frostHash events).watchTargets hash = some target ↔
      hash = frostHash target.encode ∧ target ∈ events.filterMap RegistryEvent.accepted := by
  have hinj : ∀ {t u : WatchTarget}, frostHash t.encode = frostHash u.encode → t = u := by
    intro t u h
    exact WatchTarget.encode_injective (hhash ⟨t, rfl⟩ ⟨u, rfl⟩ h)
  induction events using List.reverseRecOn with
  | nil => simp [registryState]
  | append_singleton events event ih =>
    rw [registryState_append_singleton, List.filterMap_append, List.mem_append]
    cases event with
    | restart =>
      refine Iff.trans ih ?_
      simp [RegistryEvent.accepted]
    | dispatch origin registered =>
      rcases step_dispatch frostHash (registryState frostHash events) origin registered with
        ⟨haccepted, hstep⟩ | ⟨haccepted, hstored, -⟩
      · rw [hstep]
        refine Iff.trans ih ?_
        simp [haccepted]
      · rw [hstored, Function.update_apply]
        split_ifs with heq
        · -- the entry of the registered target, which no other target can have
          simp only [List.filterMap_cons, haccepted, List.filterMap_nil, List.mem_singleton,
            Option.some.injEq]
          constructor
          · rintro rfl
            exact ⟨heq, Or.inr rfl⟩
          · rintro ⟨hkey, -⟩
            exact hinj (heq.symm.trans hkey)
        · refine Iff.trans ih ?_
          simp only [List.filterMap_cons, haccepted, List.filterMap_nil, List.mem_singleton]
          constructor
          · rintro ⟨hkey, hmem⟩
            exact ⟨hkey, Or.inl hmem⟩
          · rintro ⟨hkey, hmem | rfl⟩
            · exact ⟨hkey, hmem⟩
            · exact absurd hkey heq

lemma acceptedSinceRestart_subset (events : List RegistryEvent) :
    acceptedSinceRestart events ⊆ events.filterMap RegistryEvent.accepted := by
  induction events using List.reverseRecOn with
  | nil => exact List.Subset.refl _
  | append_singleton events event ih =>
    intro t ht
    rw [acceptedSinceRestart, List.foldl_append, ← acceptedSinceRestart] at ht
    rw [List.filterMap_append, List.mem_append]
    cases event with
    | restart => simp at ht
    | dispatch origin target =>
      simp only [List.foldl_cons, List.foldl_nil, List.mem_append, Option.mem_toList] at ht
      rcases ht with ht | ht
      · exact Or.inl (ih ht)
      · exact Or.inr (List.mem_filterMap.mpr ⟨_, List.mem_singleton_self _, ht⟩)

/-- The list of the observer is that of the stored targets exactly when nothing in it is
repeated and nothing ever accepted is missing. -/
lemma inAgreement_iff (hhash : Set.InjOn frostHash (Set.range WatchTarget.encode)) :
    InAgreement (registryState frostHash events) ↔
      (acceptedSinceRestart events).Nodup ∧
        ∀ t ∈ events.filterMap RegistryEvent.accepted, t ∈ acceptedSinceRestart events := by
  have hstored : ∀ t, (∃ hash, (registryState frostHash events).watchTargets hash = some t) ↔
      t ∈ events.filterMap RegistryEvent.accepted := by
    intro t
    simp only [registryState_watchTargets hhash]
    constructor
    · rintro ⟨hash, -, ht⟩
      exact ht
    · intro ht
      exact ⟨_, rfl, ht⟩
  constructor
  · rintro ⟨targets, hobserver, hnodup, hmem⟩
    rw [registryState_observer] at hobserver
    obtain rfl := Option.some.inj hobserver
    exact ⟨hnodup, fun t ht => (hmem t).mpr ((hstored t).mpr ht)⟩
  · rintro ⟨hnodup, hall⟩
    refine ⟨acceptedSinceRestart events, registryState_observer events, hnodup, ?_⟩
    intro t
    rw [hstored]
    exact ⟨fun ht => acceptedSinceRestart_subset events ht, hall t⟩

/-- **When chain and observer agree.**  Without collisions of target hashes, the list of the
observer holds after every dispatch exactly the stored targets, each once, and rejected
dispatches change nothing, exactly when at every dispatch no target has been accepted twice
since the last restart and every target ever accepted has been accepted since then. -/
theorem registriesAgree_iff (hhash : Set.InjOn frostHash (Set.range WatchTarget.encode))
    (events : List RegistryEvent) :
    RegistriesAgree frostHash events ↔ RegisteredOnce events := by
  constructor
  · intro h before origin target after hsplit
    exact (inAgreement_iff hhash).mp (h.agree before origin target after hsplit)
  · intro h
    refine ⟨fun before origin target after hsplit =>
      (inAgreement_iff hhash).mpr (h before origin target after hsplit), ?_⟩
    intro before origin target after hsplit e herr
    rw [registryState_append_singleton, RegistryEvent.step, registerWatchTarget_of_error herr]
    exact ⟨rfl, rfl⟩

/-- **A new process is a restart.**  Where the empty list makes a voter set, `ensure_observer` in
a process that has just started creates an observer, and the pallet is as after a restart. -/
theorem start_refines_restart {Id Sig F : Type} [F64 F] {G : Grandpa Id Sig} {V : VoterSet Id}
    (hG : G.newVoterSet [] = some V) (config : PredicateConfig F) (s : PalletState Hash) :
    ((Process.start s.watchTargets s.events).ensureObserver G config).1 = .ok (some 0) ∧
      ((Process.start s.watchTargets s.events).ensureObserver G config).2.pallet (some 0)
        = RegistryEvent.restart.step frostHash s := by
  have hensure : (Process.start s.watchTargets s.events).ensureObserver G config
      = (.ok (some 0), ⟨s.watchTargets, s.events, false, some 0,
          [⟨[], config, .substrate (.new V .default .default), V⟩]⟩) := by
    simp only [Process.ensureObserver, Process.start, SSMPObserver.new_of_some hG]
    rfl
  rw [hensure]
  exact ⟨rfl, rfl⟩

/-! ### A target registered twice, and one that is forgotten -/

/-- **Two ways to disagree.**  A target registered twice is stored once and listed twice; and
after a restart the observer knows the target of the next dispatch only. -/
theorem registries_disagree :
    (registryState id [.dispatch .signed sampleTarget, .dispatch .signed sampleTarget]).observer
        = some [sampleTarget, sampleTarget] ∧
      ¬ RegistriesAgree (id : Bytes → Bytes)
        [.dispatch .signed sampleTarget, .dispatch .signed sampleTarget] ∧
      (registryState id [.dispatch .signed sampleTarget, .restart,
        .dispatch .signed emptyHashTarget]).observer = some [emptyHashTarget] ∧
      ¬ RegistriesAgree (id : Bytes → Bytes)
        [.dispatch .signed sampleTarget, .restart, .dispatch .signed emptyHashTarget] := by
  refine ⟨rfl, ?_, rfl, ?_⟩
  · intro h
    obtain ⟨targets, hobserver, hnodup, -⟩ :=
      h.agree [.dispatch .signed sampleTarget] .signed sampleTarget [] rfl
    obtain rfl : [sampleTarget, sampleTarget] = targets := Option.some.inj hobserver
    exact absurd hnodup (by simp)
  · intro h
    obtain ⟨targets, hobserver, -, hmem⟩ :=
      h.agree [.dispatch .signed sampleTarget, .restart] .signed emptyHashTarget [] rfl
    obtain rfl : [emptyHashTarget] = targets := Option.some.inj hobserver
    have hlisted := (hmem sampleTarget).mpr ⟨sampleTarget.encode, rfl⟩
    exact absurd hlisted (by decide)

/-- The statement for two targets, a rejected dispatch and no restart. -/
theorem registriesAgree_iff_pair :
    RegistriesAgree (id : Bytes → Bytes) [.dispatch .signed sampleTarget,
        .dispatch .root sampleTarget, .dispatch .signed emptyHashTarget] ↔
      RegisteredOnce [.dispatch .signed sampleTarget, .dispatch .root sampleTarget,
        .dispatch .signed emptyHashTarget] :=
  registriesAgree_iff (Set.injOn_id _) _

end FrostSubstrate
