/-
Watch targets and the search for them in the events of a block.

A target names a module, a function and perhaps a message hash by their bytes.  An event
matches when its encoding contains all of them; each is searched with `windows`, which
panics on an empty pattern.  The two names are searched in every event, the hash only
where both were found (`genericEventMatch_of_ne_nil`).
-/
import FrostSubstrate.External.FrostProtocol
import FrostSubstrate.Lib.Windows

namespace FrostSubstrate

open Windows

/-! ### Errors of the observer -/

/-- `frost_protocol::error::Error`, with the variants the observer makes: its own text, and
what `?` turns a `FinalityError` into. -/
inductive ProtocolError where
  | custom (text : String)
  | finality (err : FinalityError)
deriving DecidableEq

inductive ErrorKind where
  | invalidBlockHash
  | invalidBlockNumber
  | runtimeApiError (err : String)
  | stateNotFound
  | proofGenerationFailed
  | messageRoutingFailed

/-- `impl From<ErrorKind> for ProtocolError`. -/
def ErrorKind.toProtocolError : ErrorKind → ProtocolError
  | invalidBlockHash => .custom "Invalid block hash"
  | invalidBlockNumber => .custom "Invalid block number"
  | runtimeApiError err => .custom ("Runtime API error: " ++ err)
  | stateNotFound => .custom "State not found"
  | proofGenerationFailed => .custom "Failed to generate proof"
  | messageRoutingFailed => .custom "Failed to route message"

/-! ### Targets -/

structure WatchTarget where
  moduleName : BoundedVec UInt8 32
  functionName : BoundedVec UInt8 32
  messageHash : Option (BoundedVec UInt8 64)
  targetChain : BoundedVec UInt8 32
deriving DecidableEq

/-- `BoundedVec::try_from(..).map_err(|_| message)`. -/
def boundedOr (n : ℕ) (message : String) (l : Bytes) : Except String (BoundedVec UInt8 n) :=
  match BoundedVec.tryFrom n l with
  | some v => .ok v
  | none => .error message

/-- `WatchTarget::new`. -/
def WatchTarget.new (moduleName functionName : Bytes) (messageHash : Option Bytes)
    (targetChain : Bytes) : Except String WatchTarget := do
  let moduleName ← boundedOr 32 "Module name too long" moduleName
  let functionName ← boundedOr 32 "Function name too long" functionName
  let messageHash ←
    match messageHash with
    | some hash => do
      let hash ← boundedOr 64 "Message hash too long" hash
      pure (some hash)
    | none => pure none
  let targetChain ← boundedOr 32 "Target chain too long" targetChain
  return ⟨moduleName, functionName, messageHash, targetChain⟩

/-- The target with module `m`, function `f` and target chain `c`. -/
def sampleTarget : WatchTarget where
  moduleName := ⟨[0x6d], by decide⟩
  functionName := ⟨[0x66], by decide⟩
  messageHash := none
  targetChain := ⟨[0x63], by decide⟩

/-! ### Matching -/

/-- `SSMPObserver::generic_event_match` on the encoding of an event. -/
def genericEventMatch (eventBytes : Bytes) (target : WatchTarget) :
    Outcome ProtocolError Bool := do
  let containsModule ← containsWindow eventBytes target.moduleName.val
  let containsFunction ← containsWindow eventBytes target.functionName.val
  if !containsModule || !containsFunction then
    return false
  -- the hash is searched only where both names were found
  match target.messageHash with
  | some expectedHash => containsWindow eventBytes expectedHash.val
  | none => return true

/-- `SSMPObserver::event_matches_target`. -/
def eventMatchesTarget (eventBytes : Bytes) (target : WatchTarget) : Outcome ProtocolError Bool :=
  genericEventMatch eventBytes target

/-- The loop of `matches_watch_target` over the events of a block. -/
def anyEventMatches (target : WatchTarget) : List Bytes → Outcome ProtocolError Bool
  | [] => return false
  | event :: events => do
    if ← eventMatchesTarget event target then
      return true
    anyEventMatches target events

/-- `SSMPObserver::matches_watch_target`, on what `runtime_api().events(block_hash)` answers:
the encoded events of the block, or the text of an error. -/
def matchesWatchTarget (events : H256 → Except String (List Bytes)) (blockRef : BlockRef)
    (target : WatchTarget) : Outcome ProtocolError Bool := do
  let events ← Outcome.ofExcept ((events blockRef.hash).mapError fun e =>
    ProtocolError.custom ("Failed to fetch events: " ++ e))
  anyEventMatches target events

/-- An event that contains both names of a target. -/
def NamesOccur (eventBytes : Bytes) (target : WatchTarget) : Prop :=
  target.moduleName.val <:+: eventBytes ∧ target.functionName.val <:+: eventBytes

instance (eventBytes : Bytes) (target : WatchTarget) :
    Decidable (NamesOccur eventBytes target) :=
  inferInstanceAs (Decidable (_ ∧ _))

/-- A target whose message hash is given and empty. -/
def WatchTarget.HashEmpty (target : WatchTarget) : Prop :=
  ∃ hash, target.messageHash = some hash ∧ hash.val = []

variable {target : WatchTarget} {eventBytes : Bytes}

lemma genericEventMatch_of_ne_nil (hmodule : target.moduleName.val ≠ [])
    (hfunction : target.functionName.val ≠ []) :
    genericEventMatch eventBytes target =
      if NamesOccur eventBytes target then
        match target.messageHash with
        | some hash => containsWindow eventBytes hash.val
        | none => .ok true
      else .ok false := by
  rw [genericEventMatch, containsWindow_of_ne_nil hmodule, containsWindow_of_ne_nil hfunction]
  simp only [Outcome.ok_bind]
  by_cases hm : target.moduleName.val <:+: eventBytes
  · by_cases hf : target.functionName.val <:+: eventBytes
    · rw [if_pos (show NamesOccur eventBytes target from ⟨hm, hf⟩)]
      simp [hm, hf]
    · rw [if_neg (show ¬ NamesOccur eventBytes target from fun h => hf h.2)]
      simp [hf]
  · rw [if_neg (show ¬ NamesOccur eventBytes target from fun h => hm h.1)]
    simp [hm]

/-- The search in one event panics exactly when it comes to search for an empty hash. -/
theorem genericEventMatch_eq_panicked_iff (hmodule : target.moduleName.val ≠ [])
    (hfunction : target.functionName.val ≠ []) :
    genericEventMatch eventBytes target = .panicked ↔
      target.HashEmpty ∧ NamesOccur eventBytes target := by
  rw [genericEventMatch_of_ne_nil hmodule hfunction]
  by_cases hnames : NamesOccur eventBytes target
  · rw [if_pos hnames]
    rcases hhash : target.messageHash with _ | hash
    · simp [WatchTarget.HashEmpty, hhash]
    · by_cases hnil : hash.val = []
      · simp [WatchTarget.HashEmpty, hhash, hnil, hnames]
      · simp [WatchTarget.HashEmpty, hhash, hnil, containsWindow_of_ne_nil hnil]
  · rw [if_neg hnames]
    simp [hnames]

lemma genericEventMatch_of_not_namesOccur (hmodule : target.moduleName.val ≠ [])
    (hfunction : target.functionName.val ≠ []) (hnames : ¬ NamesOccur eventBytes target) :
    genericEventMatch eventBytes target = .ok false := by
  rw [genericEventMatch_of_ne_nil hmodule hfunction, if_neg hnames]

/-- **Panics of the search in a block.**  With nonempty names, the loop over the events
panics exactly when the hash is empty and some event contains both names. -/
theorem anyEventMatches_eq_panicked_iff (hmodule : target.moduleName.val ≠ [])
    (hfunction : target.functionName.val ≠ []) (events : List Bytes) :
    anyEventMatches target events = .panicked ↔
      target.HashEmpty ∧ ∃ event ∈ events, NamesOccur event target := by
  induction events with
  | nil => simp [anyEventMatches]
  | cons event events ih =>
    rw [anyEventMatches, eventMatchesTarget]
    -- with an empty hash an event panics or does not match, so the loop gets to the first panic
    by_cases hempty : target.HashEmpty
    · by_cases hnames : NamesOccur event target
      · have hpanic := (genericEventMatch_eq_panicked_iff hmodule hfunction).mpr ⟨hempty, hnames⟩
        simp [hpanic, hempty, hnames]
      · rw [genericEventMatch_of_not_namesOccur hmodule hfunction hnames]
        simp [ih, hnames]
    · have hone : genericEventMatch event target ≠ .panicked := fun hpanic =>
        hempty ((genericEventMatch_eq_panicked_iff hmodule hfunction).mp hpanic).1
      have hrest : anyEventMatches target events ≠ .panicked := fun hpanic =>
        hempty (ih.mp hpanic).1
      simp only [hempty, false_and, iff_false]
      rcases h : genericEventMatch event target with (_ | _) | e | _
      · simpa [h] using hrest
      · simp
      · simp
      · exact absurd h hone

end FrostSubstrate
