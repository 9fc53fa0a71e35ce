/-
The dispatchable that registers watch targets, and what it lets through.

`register_watch_target` checks that the two names of a target are nonempty, because the
observer will search for them.  The message hash is searched as well, but an empty one is
accepted, and an event that contains both names then brings the observer down.
-/
import FrostSubstrate.Observer.Target

namespace FrostSubstrate

/-! ### SCALE encoding of targets -/

/-- The compact encoding of a length below `2 ^ 14`. -/
def compactLength (n : ℕ) : Bytes :=
  if n < 64 then [UInt8.ofNat (4 * n)] else leBytes 2 (4 * n + 1)

def BoundedVec.encode {n : ℕ} (v : BoundedVec UInt8 n) : Bytes :=
  compactLength v.val.length ++ v.val

def WatchTarget.encode (target : WatchTarget) : Bytes :=
  target.moduleName.encode ++ target.functionName.encode ++
    (match target.messageHash with
      | none => [0]
      | some hash => 1 :: hash.encode) ++
    target.targetChain.encode

/-! ### The dispatchable -/

inductive Origin where
  | signed
  | root
  | none
deriving DecidableEq

/-- `DispatchError`: a bad origin, or an error of the pallet. -/
inductive DispatchError where
  | badOrigin
  | invalidWatchTarget
deriving DecidableEq

inductive PalletEvent (Hash : Type) where
  | watchTargetRegistered (targetHash : Hash)

/-- The storage of the pallet, its event log, and the list of targets of the observer, if
`Self::observer()` returns one. -/
structure PalletState (Hash : Type) where
  watchTargets : Hash → Option WatchTarget
  events : List (PalletEvent Hash)
  observer : Option (List WatchTarget)

variable {Hash : Type} [DecidableEq Hash]

/-- `Pallet::register_watch_target`; `frostHash` is `T::FrostHash::hash`. -/
def registerWatchTarget (frostHash : Bytes → Hash) (origin : Origin) (target : WatchTarget)
    (s : PalletState Hash) : Except DispatchError Unit × PalletState Hash :=
  match origin with
  | .signed =>
    -- the names are checked, the message hash is not
    if ¬ target.moduleName.val.isEmpty ∧ ¬ target.functionName.val.isEmpty then
      let targetHash := frostHash target.encode
      (.ok (), {
        watchTargets := Function.update s.watchTargets targetHash (some target)
        observer := s.observer.map fun watchTargets => watchTargets ++ [target]
        events := s.events ++ [.watchTargetRegistered targetHash] })
    else (.error .invalidWatchTarget, s)
  | _ => (.error .badOrigin, s)

variable {frostHash : Bytes → Hash} {origin : Origin} {target : WatchTarget} {s : PalletState Hash}

lemma registerWatchTarget_ok_iff :
    (registerWatchTarget frostHash origin target s).1 = .ok () ↔
      origin = .signed ∧ target.moduleName.val ≠ [] ∧ target.functionName.val ≠ [] := by
  cases origin with
  | signed =>
    simp only [registerWatchTarget, List.isEmpty_iff, true_and, ne_eq]
    split_ifs with hnames
    · simpa using hnames
    · simpa using hnames
  | root => simp [registerWatchTarget]
  | none => simp [registerWatchTarget]

lemma registerWatchTarget_of_error {e : DispatchError}
    (h : (registerWatchTarget frostHash origin target s).1 = .error e) :
    (registerWatchTarget frostHash origin target s).2 = s := by
  cases origin with
  | signed =>
    simp only [registerWatchTarget] at h ⊢
    split_ifs at h ⊢
    rfl
  | root => rfl
  | none => rfl

/-- **Accepted targets in the observer.**  For a target the dispatchable accepts, the search
in an event returns a result exactly when the target's hash is not empty or the event does not
contain both names, and the search in a block exactly when this holds of all its events. -/
theorem accepted_target_no_panic_iff
    (haccepted : (registerWatchTarget frostHash origin target s).1 = .ok ())
    (events : H256 → Except String (List Bytes)) (blockRef : BlockRef) (event : Bytes) :
    (genericEventMatch event target ≠ .panicked ↔
      ¬ (target.HashEmpty ∧ NamesOccur event target)) ∧
    (eventMatchesTarget event target ≠ .panicked ↔
      ¬ (target.HashEmpty ∧ NamesOccur event target)) ∧
    (matchesWatchTarget events blockRef target ≠ .panicked ↔
      ∀ fetched, events blockRef.hash = .ok fetched →
        ∀ event ∈ fetched, ¬ (target.HashEmpty ∧ NamesOccur event target)) := by
  obtain ⟨-, hmodule, hfunction⟩ := registerWatchTarget_ok_iff.mp haccepted
  have hone : genericEventMatch event target ≠ .panicked ↔
      ¬ (target.HashEmpty ∧ NamesOccur event target) :=
    not_congr (genericEventMatch_eq_panicked_iff hmodule hfunction)
  refine ⟨hone, hone, ?_⟩
  rw [matchesWatchTarget]
  rcases hfetch : events blockRef.hash with e | fetched
  · simp [Except.mapError]
  · have hblock := not_congr (anyEventMatches_eq_panicked_iff hmodule hfunction fetched)
    simp only [Except.mapError, Outcome.ofExcept_ok, Outcome.ok_bind, Except.ok.injEq,
      forall_eq'] at hblock ⊢
    rw [ne_eq, hblock]
    constructor
    · rintro h event hevent ⟨hempty, hnames⟩
      exact h ⟨hempty, event, hevent, hnames⟩
    · rintro h ⟨hempty, event, hevent, hnames⟩
      exact h event hevent ⟨hempty, hnames⟩

/-! ### A target that crashes the observer -/

/-- The sample target with an empty message hash. -/
def emptyHashTarget : WatchTarget := { sampleTarget with messageHash := some ⟨[], by decide⟩ }

def emptyPallet : PalletState Bytes := ⟨fun _ => none, [], some []⟩

lemma emptyHashTarget_accepted :
    (registerWatchTarget id .signed emptyHashTarget emptyPallet).1 = .ok () := rfl

/-- **An accepted target crashes the worker** on the event `mf`. -/
theorem emptyHashTarget_panics :
    WatchTarget.new [0x6d] [0x66] (some []) [0x63] = .ok emptyHashTarget ∧
      (registerWatchTarget id .signed emptyHashTarget emptyPallet).1 = .ok () ∧
      genericEventMatch [0x6d, 0x66] emptyHashTarget = .panicked ∧
      matchesWatchTarget (fun _ => .ok [[0x6d, 0x66]]) ⟨⟨"dev"⟩, 1, .zero⟩ emptyHashTarget
        = .panicked := by
  refine ⟨rfl, rfl, rfl, rfl⟩

/-- The statement for this target, on the event that contains no name. -/
theorem accepted_target_no_panic_iff_emptyHash :
    (genericEventMatch [0x6d] emptyHashTarget ≠ .panicked ↔
      ¬ (emptyHashTarget.HashEmpty ∧ NamesOccur [0x6d] emptyHashTarget)) ∧
    (eventMatchesTarget [0x6d] emptyHashTarget ≠ .panicked ↔
      ¬ (emptyHashTarget.HashEmpty ∧ NamesOccur [0x6d] emptyHashTarget)) ∧
    (matchesWatchTarget (fun _ => .ok [[0x6d]]) ⟨⟨"dev"⟩, 1, .zero⟩ emptyHashTarget
        ≠ .panicked ↔
      ∀ fetched, (.ok [[0x6d]] : Except String (List Bytes)) = .ok fetched →
        ∀ event ∈ fetched, ¬ (emptyHashTarget.HashEmpty ∧ NamesOccur event emptyHashTarget)) :=
  accepted_target_no_panic_iff emptyHashTarget_accepted (fun _ => .ok [[0x6d]]) _ _

end FrostSubstrate
