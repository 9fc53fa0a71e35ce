/-
The observer of a process, which the pallet creates when it first needs one.

`ensure_observer` looks the observer up in a map behind a lock and otherwise builds it under
that lock.  Building it makes two voter sets of the empty list, each with an `expect`; when
the constructor of voter sets refuses that list, the first call that gets this far panics
with the lock held, the lock is poisoned, and no later call gets an observer.
-/
import FrostSubstrate.Finality.AuthorityAdmission
import FrostSubstrate.Lib.Traced
import FrostSubstrate.Pallet.WatchTargets

namespace FrostSubstrate

/-! ### Construction of an observer -/

/-- `Option::expect`. -/
def expect {ε α : Type} : Option α → Outcome ε α
  | some a => .ok a
  | none => .panicked

/-- The part of `SSMPObserver` that the pallet uses. -/
structure SSMPObserver (Id F : Type) where
  watchTargets : List WatchTarget
  finality : GrandpaFinality Id F

section Construction

variable {Id Sig F : Type} [F64 F] (G : Grandpa Id Sig)

/-- `GrandpaFinality::new`, which expects a valid authority set. -/
def GrandpaFinality.new (config : PredicateConfig F) (verificationClient : VerificationClient Id F)
    (authorities : AuthorityList Id) : Outcome Empty (GrandpaFinality Id F) := do
  let voterSet ← expect (G.newVoterSet authorities)
  return ⟨config, verificationClient, voterSet⟩

/-- `SSMPObserver::new`, which expects the empty voter set to be valid; `config` is
`PredicateConfig::default()`. -/
def SSMPObserver.new (config : PredicateConfig F) : Outcome Empty (SSMPObserver Id F) := do
  let voterSet ← expect (G.newVoterSet [])
  let verificationClient := SubstrateVerificationClient.new voterSet .default .default
  let finality ← GrandpaFinality.new G config (.substrate verificationClient) []
  return ⟨[], finality⟩

end Construction

/-! ### The process -/

/-- What one process holds for a pallet: its storage and event log, and the `OBSERVERS` map
with the poison flag of its lock.  The observers created so far are listed, and the entry of
the map is the place of one in this list, which stands for the pointer to it. -/
structure Process (Id F Hash : Type) where
  watchTargets : Hash → Option WatchTarget
  events : List (PalletEvent Hash)
  poisoned : Bool
  entry : Option ℕ
  observers : List (SSMPObserver Id F)

/-- A process that has just started, on the given storage. -/
def Process.start {Id F Hash : Type} (watchTargets : Hash → Option WatchTarget)
    (events : List (PalletEvent Hash)) : Process Id F Hash :=
  ⟨watchTargets, events, false, none, []⟩

/-- A call from the runtime. -/
inductive ProcessCall where
  | onInitialize
  | registerWatchTarget (origin : Origin) (target : WatchTarget)

/-- How a call ends, and what `ensure_observer` did if the call got to it. -/
structure CallResult where
  outcome : Outcome DispatchError Unit
  ensured : Option (Outcome Empty (Option ℕ))

section Calls

variable {Id Sig F Hash : Type} [F64 F] [DecidableEq Hash] (G : Grandpa Id Sig)
  (config : PredicateConfig F) (frostHash : Bytes → Hash)

namespace Process

/-- `Pallet::ensure_observer`, and `Pallet::observer`, which only calls it. -/
def ensureObserver (p : Process Id F Hash) : Outcome Empty (Option ℕ) × Process Id F Hash :=
  -- `OBSERVERS.write().ok()?`
  if p.poisoned then (.ok none, p)
  else
    match p.entry with
    | some observer => (.ok (some observer), p)
    | none =>
      match SSMPObserver.new G config with
      | .ok newObserver =>
        (.ok (some p.observers.length),
          { p with
            entry := some p.observers.length
            observers := p.observers ++ [newObserver] })
      | .err e => e.elim
      -- the panic unwinds through the guard of the lock
      | .panicked => (.panicked, { p with poisoned := true })

/-- `SSMPObserver::register_watch_target` on the observer behind a pointer. -/
def register (p : Process Id F Hash) (observer : ℕ) (target : WatchTarget) : Process Id F Hash :=
  { p with
    observers := p.observers.modify observer fun o =>
      { o with watchTargets := o.watchTargets ++ [target] } }

/-- `on_initialize`. -/
def onInitialize (p : Process Id F Hash) : CallResult × Process Id F Hash :=
  match p.ensureObserver G config with
  | (.ok observer, p) => (⟨.ok (), some (.ok observer)⟩, p)
  | (.err e, _) => e.elim
  | (.panicked, p) => (⟨.panicked, some .panicked⟩, p)

/-- `Pallet::register_watch_target` in a process. -/
def registerWatchTarget (p : Process Id F Hash) (origin : Origin) (target : WatchTarget) :
    CallResult × Process Id F Hash :=
  match origin with
  | .signed =>
    if ¬ target.moduleName.val.isEmpty ∧ ¬ target.functionName.val.isEmpty then
      let targetHash := frostHash target.encode
      let inserted :=
        { p with watchTargets := Function.update p.watchTargets targetHash (some target) }
      match inserted.ensureObserver G config with
      | (.ok observer, p) =>
        let p :=
          match observer with
          | some observer => p.register observer target
          | none => p
        (⟨.ok (), some (.ok observer)⟩,
          { p with events := p.events ++ [.watchTargetRegistered targetHash] })
      | (.err e, _) => e.elim
      | (.panicked, p) => (⟨.panicked, some .panicked⟩, p)
    else (⟨.err .invalidWatchTarget, none⟩, p)
  | _ => (⟨.err .badOrigin, none⟩, p)

/-- Make a call. -/
def perform (p : Process Id F Hash) : ProcessCall → CallResult × Process Id F Hash
  | .onInitialize => p.onInitialize G config
  | .registerWatchTarget origin target => p.registerWatchTarget G config frostHash origin target

/-- Make one call after the other. -/
def run (p : Process Id F Hash) : List ProcessCall → List CallResult × Process Id F Hash
  | [] => ([], p)
  | call :: calls =>
    let (result, next) := p.perform G config frostHash call
    let (results, last) := next.run calls
    (result :: results, last)

end Process

/-- Whether a call gets to `ensure_observer`: a hook does, and a dispatch that is accepted. -/
def ProcessCall.Reaches : ProcessCall → Prop
  | .onInitialize => True
  | .registerWatchTarget origin target =>
    origin = .signed ∧ target.moduleName.val ≠ [] ∧ target.functionName.val ≠ []

variable {G config frostHash} {p : Process Id F Hash} {call : ProcessCall}
  {calls : List ProcessCall}

/-! ### One call -/

lemma SSMPObserver.new_of_none (h : G.newVoterSet [] = none) :
    SSMPObserver.new G config = .panicked := by
  rw [SSMPObserver.new, h]
  rfl

lemma SSMPObserver.new_of_some {V : VoterSet Id} (h : G.newVoterSet [] = some V) :
    SSMPObserver.new G config
      = .ok ⟨[], config, .substrate (.new V .default .default), V⟩ := by
  simp only [SSMPObserver.new, GrandpaFinality.new, h]
  rfl

namespace Process

omit [DecidableEq Hash] in
lemma ensureObserver_of_poisoned (h : p.poisoned = true) :
    p.ensureObserver G config = (.ok none, p) := by
  rw [ensureObserver, if_pos h]

omit [DecidableEq Hash] in
lemma ensureObserver_panics (hG : G.newVoterSet [] = none) (hsound : p.poisoned = false)
    (hentry : p.entry = none) :
    p.ensureObserver G config = (.panicked, { p with poisoned := true }) := by
  simp only [ensureObserver, hsound, hentry, SSMPObserver.new_of_none hG]
  rfl

omit [DecidableEq Hash] in
/-- `ensure_observer` does not look at the storage. -/
lemma ensureObserver_insert (watchTargets : Hash → Option WatchTarget) :
    ensureObserver G config { p with watchTargets := watchTargets }
      = ((p.ensureObserver G config).1,
        { (p.ensureObserver G config).2 with watchTargets := watchTargets }) := by
  simp only [ensureObserver]
  rcases p with ⟨_, events, _ | _, _ | observer, observers⟩
  · rcases SSMPObserver.new G config with newObserver | e | _
    · rfl
    · exact e.elim
    · rfl
  · rfl
  · rfl
  · rfl

variable (G config frostHash p) in
lemma perform_of_not_reaches (h : ¬ call.Reaches) :
    ∃ e, p.perform G config frostHash call = (⟨.err e, none⟩, p) := by
  cases call with
  | onInitialize => exact absurd trivial h
  | registerWatchTarget origin target =>
    cases origin with
    | signed =>
      refine ⟨.invalidWatchTarget, ?_⟩
      have hnames : ¬ (¬ target.moduleName.val.isEmpty ∧ ¬ target.functionName.val.isEmpty) := by
        intro hnames
        exact h ⟨rfl, by simpa using hnames.1, by simpa using hnames.2⟩
      simp only [perform, registerWatchTarget, if_neg hnames]
    | root => exact ⟨.badOrigin, rfl⟩
    | none => exact ⟨.badOrigin, rfl⟩

variable (G config frostHash p) in
/-- A call that gets to the observer reports what `ensure_observer` did, panics with it, and
leaves the lock, the entry and the number of observers as `ensure_observer` does. -/
lemma perform_of_reaches (h : call.Reaches) :
    let called := p.perform G config frostHash call
    let ensured := p.ensureObserver G config
    called.1.ensured = some ensured.1 ∧
      (called.1.outcome = .panicked ↔ ensured.1 = .panicked) ∧
      called.2.poisoned = ensured.2.poisoned ∧ called.2.entry = ensured.2.entry ∧
      called.2.observers.length = ensured.2.observers.length := by
  cases call with
  | onInitialize =>
    simp only [perform, onInitialize]
    rcases p.ensureObserver G config with ⟨observer | e | _, next⟩
    · simp
    · exact e.elim
    · simp
  | registerWatchTarget origin target =>
    obtain ⟨rfl, hmodule, hfunction⟩ := h
    have hnames : ¬ target.moduleName.val.isEmpty ∧ ¬ target.functionName.val.isEmpty := by
      simpa using And.intro hmodule hfunction
    simp only [perform, registerWatchTarget, if_pos hnames, ensureObserver_insert]
    rcases p.ensureObserver G config with ⟨(_ | observer) | e | _, next⟩
    · simp
    · simp [register]
    · exact e.elim
    · simp

end Process

/-! ### Runs -/

/-- The observer is available throughout a run: no call panics, every `ensure_observer` returns
one and the same observer, and no second one is created. -/
structure AlwaysAvailable (run : List CallResult × Process Id F Hash) : Prop where
  noPanic : ∀ result ∈ run.1, result.outcome ≠ .panicked
  sameObserver : ∃ observer, ∀ result ∈ run.1, ∀ ensured,
    result.ensured = some ensured → ensured = .ok (some observer)
  createdOnce : run.2.observers.length ≤ 1

namespace Process

lemma run_cons : p.run G config frostHash (call :: calls)
    = ((p.perform G config frostHash call).1 ::
        ((p.perform G config frostHash call).2.run G config frostHash calls).1,
      ((p.perform G config frostHash call).2.run G config frostHash calls).2) := rfl

lemma run_of_not_reaches (h : ∀ call ∈ calls, ¬ call.Reaches) :
    (p.run G config frostHash calls).2 = p ∧
      ∀ result ∈ (p.run G config frostHash calls).1,
        result.outcome ≠ .panicked ∧ result.ensured = none := by
  induction calls with
  | nil => exact ⟨rfl, by simp [run]⟩
  | cons call calls ih =>
    obtain ⟨hcall, hcalls⟩ := List.forall_mem_cons.mp h
    obtain ⟨e, he⟩ := perform_of_not_reaches G config frostHash p hcall
    obtain ⟨hlast, hresults⟩ := ih hcalls
    rw [run_cons, he]
    exact ⟨hlast, List.forall_mem_cons.mpr ⟨⟨by simp, rfl⟩, hresults⟩⟩

/-- Once the lock is poisoned no call panics and none gets an observer. -/
lemma run_of_poisoned (h : p.poisoned = true) :
    ∀ result ∈ (p.run G config frostHash calls).1, result.outcome ≠ .panicked ∧
      ∀ ensured, result.ensured = some ensured → ensured = .ok none := by
  induction calls generalizing p with
  | nil => simp [run]
  | cons call calls ih =>
    rw [run_cons, List.forall_mem_cons]
    by_cases hreach : call.Reaches
    · have hensure : p.ensureObserver G config = (.ok none, p) := ensureObserver_of_poisoned h
      obtain ⟨hensured, hpanic, hpoisoned, -, -⟩ :=
        perform_of_reaches G config frostHash p hreach
      rw [hensure] at hensured hpanic hpoisoned
      refine ⟨⟨?_, ?_⟩, ih (hpoisoned.trans h)⟩
      · rw [ne_eq, hpanic]
        simp
      · intro ensured hsome
        rw [hensured] at hsome
        exact (Option.some.inj hsome).symm
    · obtain ⟨e, he⟩ := perform_of_not_reaches G config frostHash p hreach
      rw [he]
      exact ⟨⟨by simp, by simp⟩, ih h⟩

/-- **The first call that gets to the observer brings it down.**  It panics, and every later one
gets no observer. -/
theorem run_of_first_reach (config : PredicateConfig F) (frostHash : Bytes → Hash)
    (hG : G.newVoterSet [] = none) (hsound : p.poisoned = false) (hentry : p.entry = none)
    {before : List ProcessCall} (after : List ProcessCall)
    (hbefore : ∀ call ∈ before, ¬ call.Reaches) (hcall : call.Reaches) :
    ∃ first panic later,
      (p.run G config frostHash (before ++ call :: after)).1 = first ++ panic :: later ∧
      panic.outcome = .panicked ∧
      ∀ result ∈ later, result.outcome ≠ .panicked ∧
        ∀ ensured, result.ensured = some ensured → ensured = .ok none := by
  induction before with
  | nil =>
    obtain ⟨-, hpanic, hpoisoned, -, -⟩ :=
      perform_of_reaches G config frostHash p hcall
    rw [ensureObserver_panics hG hsound hentry] at hpanic hpoisoned
    exact ⟨[], _, _, rfl, hpanic.mpr rfl, run_of_poisoned hpoisoned⟩
  | cons other before ih =>
    obtain ⟨hother, hrest⟩ := List.forall_mem_cons.mp hbefore
    obtain ⟨e, he⟩ := perform_of_not_reaches G config frostHash p hother
    obtain ⟨first, panic, later, hrun, hpanic, hlater⟩ := ih hrest
    refine ⟨⟨.err e, none⟩ :: first, panic, later, ?_, hpanic, hlater⟩
    rw [List.cons_append, run_cons, he, hrun]
    rfl

/-- The lock is sound, and the map has no entry and no observer has been created, or the entry
is the one observer. -/
structure Ready (p : Process Id F Hash) : Prop where
  sound : p.poisoned = false
  created : p.entry = none ∧ p.observers.length = 0 ∨ p.entry = some 0 ∧ p.observers.length = 1

omit [DecidableEq Hash] in
/-- If the empty list made a voter set, getting or creating would work. -/
lemma ensureObserver_ready (config : PredicateConfig F) {V : VoterSet Id}
    (hG : G.newVoterSet [] = some V) (h : p.Ready) :
    (p.ensureObserver G config).1 = .ok (some 0) ∧ (p.ensureObserver G config).2.Ready := by
  rcases h.created with ⟨hentry, hlen⟩ | ⟨hentry, hlen⟩
  · simp only [ensureObserver, h.sound, hentry, SSMPObserver.new_of_some hG, hlen]
    exact ⟨rfl, rfl, Or.inr ⟨rfl, by simp [hlen]⟩⟩
  · simp only [ensureObserver, h.sound, hentry]
    exact ⟨rfl, h.sound, Or.inr ⟨hentry, hlen⟩⟩

lemma run_ready {V : VoterSet Id} (hG : G.newVoterSet [] = some V) (h : p.Ready)
    (calls : List ProcessCall) :
    (p.run G config frostHash calls).2.Ready ∧
      ∀ result ∈ (p.run G config frostHash calls).1, result.outcome ≠ .panicked ∧
        ∀ ensured, result.ensured = some ensured → ensured = .ok (some 0) := by
  induction calls generalizing p with
  | nil => exact ⟨h, by simp [run]⟩
  | cons call calls ih =>
    rw [run_cons, List.forall_mem_cons]
    by_cases hreach : call.Reaches
    · -- only `ensure_observer` touches what has to be kept
      obtain ⟨hgot, hready⟩ := ensureObserver_ready config hG h
      obtain ⟨hensured, hpanic, hpoisoned, hentry, hlen⟩ :=
        perform_of_reaches G config frostHash p hreach
      obtain ⟨hlast, hresults⟩ := ih ⟨hpoisoned.trans hready.sound, by
        rw [hentry, hlen]
        exact hready.created⟩
      refine ⟨hlast, ⟨?_, ?_⟩, hresults⟩
      · rw [ne_eq, hpanic, hgot]
        simp
      · intro ensured hsome
        rw [hensured, hgot] at hsome
        exact (Option.some.inj hsome).symm
    · obtain ⟨e, he⟩ := perform_of_not_reaches G config frostHash p hreach
      obtain ⟨hlast, hresults⟩ := ih h
      rw [he]
      exact ⟨hlast, ⟨by simp, by simp⟩, hresults⟩

/-- **What the observer would need.**  A constructor that accepted the empty list would make it
available in every run of a process. -/
theorem alwaysAvailable_of_accepts_empty {V : VoterSet Id} (hG : G.newVoterSet [] = some V)
    (watchTargets : Hash → Option WatchTarget) (events : List (PalletEvent Hash)) :
    AlwaysAvailable ((start watchTargets events : Process Id F Hash).run G config frostHash
      calls) := by
  have hstart : (start watchTargets events : Process Id F Hash).Ready :=
    ⟨rfl, Or.inl ⟨rfl, rfl⟩⟩
  obtain ⟨hlast, hresults⟩ := run_ready hG hstart calls
  refine ⟨fun result hmem => (hresults result hmem).1,
    ⟨0, fun result hmem => (hresults result hmem).2⟩, ?_⟩
  rcases hlast.created with ⟨-, hlen⟩ | ⟨-, hlen⟩
  · exact hlen.trans_le (Nat.zero_le 1)
  · exact hlen.le

/-- **When the observer is available.**  With a constructor of voter sets that refuses lists
without weight, the observer is available throughout a run of a process exactly when no call of
the run gets to it: no hook runs and every dispatch is rejected. -/
theorem alwaysAvailable_iff
    (hG : ∀ authorities : AuthorityList Id, (∀ v ∈ authorities, v.2 = 0) →
      G.newVoterSet authorities = none)
    (config : PredicateConfig F) (frostHash : Bytes → Hash)
    (watchTargets : Hash → Option WatchTarget) (events : List (PalletEvent Hash))
    (calls : List ProcessCall) :
    AlwaysAvailable ((start watchTargets events : Process Id F Hash).run G config frostHash
      calls) ↔ ∀ call ∈ calls, ¬ call.Reaches := by
  have hempty : G.newVoterSet [] = none := hG [] (by simp)
  constructor
  · intro h call hcall hreach
    classical
    -- split at the first call that gets to the observer
    obtain ⟨first, hfirst⟩ : ∃ first, calls.find? (fun c => decide c.Reaches) = some first :=
      Option.isSome_iff_exists.mp (List.find?_isSome.mpr ⟨call, hcall, decide_eq_true hreach⟩)
    obtain ⟨hreach, before, after, rfl, hbefore⟩ := List.find?_eq_some_iff_append.mp hfirst
    obtain ⟨results, panic, later, hrun, hpanic, -⟩ :=
      run_of_first_reach (p := (start watchTargets events : Process Id F Hash)) config frostHash
        hempty rfl rfl after (fun c hc => by simpa using hbefore c hc) (of_decide_eq_true hreach)
    exact h.noPanic panic (by rw [hrun]; simp) hpanic
  · intro h
    obtain ⟨hlast, hresults⟩ := run_of_not_reaches (G := G)
      (p := (start watchTargets events : Process Id F Hash)) h
    refine ⟨fun result hmem => (hresults result hmem).1, ⟨0, ?_⟩, ?_⟩
    · intro result hmem ensured hsome
      rw [(hresults result hmem).2] at hsome
      cases hsome
    · rw [hlast]
      exact Nat.zero_le 1

/-! ### The dispatchable in a process -/

/-- The pallet as `registerWatchTarget` sees it when `ensure_observer` returns `observer`. -/
def pallet (p : Process Id F Hash) (observer : Option ℕ) : PalletState Hash :=
  ⟨p.watchTargets, p.events,
    observer.bind fun o => (p.observers[o]?).map SSMPObserver.watchTargets⟩

omit [F64 F] [DecidableEq Hash] in
lemma pallet_register (observer : ℕ) (target : WatchTarget) :
    (p.register observer target).pallet (some observer)
      = { p.pallet (some observer) with
          observer := (p.pallet (some observer)).observer.map fun targets =>
            targets ++ [target] } := by
  simp only [pallet, register, Option.bind_some, List.getElem?_modify_eq]
  cases p.observers[observer]? with
  | none => rfl
  | some o => rfl

/-- **The process refines the pallet.**  An accepted dispatch that gets an answer from
`ensure_observer` does to the storage, the events and the targets of the observer what the
dispatchable of the pallet does. -/
theorem registerWatchTarget_refines {target : WatchTarget} {observer : Option ℕ}
    (hreach : (ProcessCall.registerWatchTarget .signed target).Reaches)
    (hget : (p.ensureObserver G config).1 = .ok observer) :
    (p.registerWatchTarget G config frostHash .signed target).2.pallet observer
      = (FrostSubstrate.registerWatchTarget frostHash .signed target
          ((p.ensureObserver G config).2.pallet observer)).2 := by
  obtain ⟨-, hmodule, hfunction⟩ := hreach
  have hnames : ¬ target.moduleName.val.isEmpty ∧ ¬ target.functionName.val.isEmpty := by
    simpa using And.intro hmodule hfunction
  have hinsert : p.ensureObserver G config = ((p.ensureObserver G config).1,
      { (p.ensureObserver G config).2 with watchTargets := p.watchTargets }) :=
    ensureObserver_insert p.watchTargets
  have hkept : (p.ensureObserver G config).2.watchTargets = p.watchTargets :=
    congrArg (fun called => called.2.watchTargets) hinsert
  simp only [registerWatchTarget, FrostSubstrate.registerWatchTarget, if_pos hnames,
    ensureObserver_insert, hget]
  cases observer with
  | none =>
    rw [← hkept]
    rfl
  | some observer =>
    have hregister := pallet_register
      (p := { (p.ensureObserver G config).2 with
        watchTargets := Function.update p.watchTargets (frostHash target.encode) (some target) })
      observer target
    rw [← hkept] at hregister ⊢
    exact congrArg (fun s : PalletState Hash => { s with
      events := s.events ++ [PalletEvent.watchTargetRegistered (frostHash target.encode)] })
      hregister

end Process

end Calls

/-! ### Two hooks -/

def freshProcess : Process ℕ ℚ Bytes := .start (fun _ => none) []

lemma weighingGrandpa_refuses (authorities : AuthorityList ℕ) (h : ∀ v ∈ authorities, v.2 = 0) :
    weighingGrandpa.newVoterSet authorities = none :=
  (weighingGrandpa_admitsByWeight authorities).mpr (Or.inl h)

/-- **The first hook panics** and the second one gets no observer. -/
theorem hooks_unavailable :
    (freshProcess.run weighingGrandpa ⟨2, 0.95, 60⟩ id [.onInitialize, .onInitialize]).1
        = [⟨.panicked, some .panicked⟩, ⟨.ok (), some (.ok none)⟩] ∧
      ¬ AlwaysAvailable
        (freshProcess.run weighingGrandpa ⟨2, 0.95, 60⟩ id [.onInitialize, .onInitialize]) := by
  have hrun : (freshProcess.run weighingGrandpa ⟨2, 0.95, 60⟩ id [.onInitialize, .onInitialize]).1
      = [⟨.panicked, some .panicked⟩, ⟨.ok (), some (.ok none)⟩] := rfl
  refine ⟨hrun, ?_⟩
  intro h
  exact h.noPanic ⟨.panicked, some .panicked⟩ (by rw [hrun]; exact List.mem_cons_self) rfl

/-- The statement for a hook and a dispatch with a bad origin. -/
theorem alwaysAvailable_iff_hook :
    AlwaysAvailable (freshProcess.run weighingGrandpa ⟨2, 0.95, 60⟩ id
        [.onInitialize, .registerWatchTarget .root sampleTarget]) ↔
      ∀ call ∈ [ProcessCall.onInitialize, .registerWatchTarget .root sampleTarget],
        ¬ call.Reaches :=
  Process.alwaysAvailable_iff weighingGrandpa_refuses _ _ _ _ _

end FrostSubstrate
