/-
The status cache of the verification client.

`get_finality_status_cached` looks for a status of the block that is less than five seconds
old; otherwise it computes one, inserts it with the time of the insertion, and drops what is
older than half a minute.  It holds the lock of the cache while it looks and while it inserts,
not while it computes, so other calls may come in between.

`CacheSystem` is the client with all the calls made of it, at one moment; `CacheEvent` is what
may happen next: the chain moves on, a call takes its next step, the voters are replaced.
-/
import FrostSubstrate.Finality.Authorities
import FrostSubstrate.Lib.Runs

namespace FrostSubstrate

/-! ### The cache -/

/-- `Duration::from_secs`, in nanoseconds. -/
def durationFromSecs (secs : ℕ) : ℕ := secs * 1000000000

/-- `timestamp.elapsed()`, zero for a timestamp that is still to come. -/
def elapsed (now timestamp : ℕ) : ℕ := now - timestamp

/-- The map behind `finality_cache`. -/
abbrev StatusCache (F : Type) := H256 → Option (FinalityStatus F × ℕ)

namespace StatusCache

variable {F : Type}

/-- The cached status of a block, if it is less than five seconds old. -/
def lookup (cache : StatusCache F) (now : ℕ) (blockHash : H256) : Option (FinalityStatus F) :=
  match cache blockHash with
  | some (status, timestamp) =>
    if elapsed now timestamp < durationFromSecs 5 then some status else none
  | none => none

/-- Insert a status; the clock is read once more for every entry that may be too old. -/
def insert (cache : StatusCache F) (now : ℕ) (clock : H256 → ℕ) (blockHash : H256)
    (status : FinalityStatus F) : StatusCache F := fun h =>
  (if h = blockHash then some (status, now) else cache h).filter fun entry =>
    decide (elapsed (clock h) entry.2 < durationFromSecs 30)

variable {cache : StatusCache F} {now timestamp : ℕ} {clock : H256 → ℕ} {blockHash h : H256}
  {status inserted : FinalityStatus F}

lemma lookup_eq_some_iff : cache.lookup now blockHash = some status ↔
    ∃ timestamp, cache blockHash = some (status, timestamp) ∧
      elapsed now timestamp < durationFromSecs 5 := by
  unfold lookup
  rcases cache blockHash with _ | ⟨cached, timestamp⟩
  · simp
  · by_cases hfresh : elapsed now timestamp < durationFromSecs 5
    · simp [hfresh]
    · simp [hfresh]

lemma insert_eq_some (hentry : cache.insert now clock blockHash inserted h
    = some (status, timestamp)) :
    h = blockHash ∧ status = inserted ∧ timestamp = now ∨ cache h = some (status, timestamp) := by
  obtain ⟨hentry, -⟩ := Option.filter_eq_some_iff.mp hentry
  split_ifs at hentry with hh
  · obtain ⟨rfl, rfl⟩ := Prod.mk.inj (Option.some.inj hentry)
    exact Or.inl ⟨hh, rfl, rfl⟩
  · exact Or.inr hentry

lemma elapsed_of_insert (hentry : cache.insert now clock blockHash inserted h
    = some (status, timestamp)) : elapsed (clock h) timestamp < durationFromSecs 30 := by
  obtain ⟨-, hyoung⟩ := Option.filter_eq_some_iff.mp hentry
  exact of_decide_eq_true hyoung

lemma insert_self (hentry : cache.insert now clock blockHash inserted blockHash
    = some (status, timestamp)) : status = inserted := by
  obtain ⟨hentry, -⟩ := Option.filter_eq_some_iff.mp hentry
  rw [if_pos rfl] at hentry
  exact (Prod.mk.inj (Option.some.inj hentry)).1.symm

lemma lookup_insert_self (h : elapsed (clock blockHash) now < durationFromSecs 30) :
    (cache.insert now clock blockHash status).lookup now blockHash = some status := by
  have hnow : elapsed now now < durationFromSecs 5 := by
    simp [elapsed, durationFromSecs]
  have hentry : cache.insert now clock blockHash status blockHash = some (status, now) := by
    rw [insert, if_pos rfl]
    simpa using h
  exact lookup_eq_some_iff.mpr ⟨now, hentry, hnow⟩

end StatusCache

section Calls

variable {Id Sig F : Type} [DecidableEq Id] [F64 F] (B : BlockT) (G : Grandpa Id Sig)

/-- `SubstrateVerificationClient::get_finality_status_cached` while nobody else uses the cache:
`now` is the time of the look-up, `later` and `clock` are those of the insertion. -/
def SubstrateVerificationClient.getFinalityStatusCached (self : SubstrateVerificationClient Id F)
    (view : ℕ → View Id) (now later : ℕ) (clock : H256 → ℕ) (blockHash : H256) :
    Except GrandpaFinalityVerificationError (FinalityStatus F) ×
      SubstrateVerificationClient Id F :=
  match StatusCache.lookup self.finalityCache now blockHash with
  | some status => (.ok status, self)
  | none =>
    match getFinalityStatus B G self.params view blockHash with
    | .error e => (.error e, self)
    | .ok status =>
      (.ok status,
        { self with
          finalityCache := StatusCache.insert self.finalityCache later clock blockHash status })

/-! ### The calls in progress -/

/-- Where a call of `get_finality_status_cached` is: not made yet; past the cache, with what its
reads have seen so far; returned with a cached status, at the time of its look-up; returned with
what it has computed from its reads, at the time of its insertion. -/
inductive CallPhase (Id F : Type) where
  | idle
  | reading (blockHash : H256) (seen : List (View Id))
  | served (blockHash : H256) (now : ℕ) (status : FinalityStatus F)
  | computed (blockHash : H256) (seen : List (View Id)) (now : ℕ)
      (result : Except GrandpaFinalityVerificationError (FinalityStatus F))

namespace CallPhase

/-- What the reads of the call have seen. -/
def seen : CallPhase Id F → List (View Id)
  | reading _ seen => seen
  | computed _ seen _ _ => seen
  | _ => []

/-- The status the call has returned, with its block. -/
def returned : CallPhase Id F → Option (H256 × FinalityStatus F)
  | served blockHash _ status => some (blockHash, status)
  | computed blockHash _ _ (.ok status) => some (blockHash, status)
  | _ => none

end CallPhase

/-- The status computed from the four reads of `get_finality_status`. -/
def statusFrom (p : GrandpaVerificationParams F) (blockHash : H256) :
    List (View Id) → Option (Except GrandpaFinalityVerificationError (FinalityStatus F))
  | [header, info, justifications, voters] =>
    some (getFinalityStatus B G p
      (fun i => match i with
        | 0 => header
        | 1 => info
        | 2 => justifications
        | _ => voters) blockHash)
  | _ => none

/-- The chain client, the verification client, the clock, and the calls. -/
structure CacheSystem (Id F : Type) where
  client : Client
  verifier : SubstrateVerificationClient Id F
  now : ℕ
  calls : ℕ → CallPhase Id F

namespace CacheSystem

/-- What a read sees. -/
def view (s : CacheSystem Id F) : View Id := ⟨s.client, s.verifier.voterSet⟩

/-- A new verification client that nobody has called. -/
def start (client : Client) (voterSet : VoterSet Id) (params : GrandpaVerificationParams F)
    (chainConfig : ChainConfig) (now : ℕ) : CacheSystem Id F :=
  ⟨client, .new voterSet params chainConfig, now, fun _ => .idle⟩

/-- One call moves on. -/
def setCall (s : CacheSystem Id F) (c : ℕ) (phase : CallPhase Id F) : CacheSystem Id F :=
  { s with calls := Function.update s.calls c phase }

/-- The verification client changes. -/
def setVerifier (s : CacheSystem Id F) (verifier : SubstrateVerificationClient Id F) :
    CacheSystem Id F :=
  { s with verifier := verifier }

end CacheSystem

/-- What happens next: the chain moves on and time passes; a call is made and looks into the
cache; a call makes its next read, or returns what it has computed; the voters are replaced. -/
inductive CacheEvent (Id : Type) where
  | pass (client : Client) (duration : ℕ)
  | call (c : ℕ) (blockHash : H256)
  | read (c : ℕ)
  | insert (c : ℕ) (clock : H256 → ℕ)
  | update (newSet : AuthorityList Id) (setId : ℕ)
  | fromRuntime (api : GrandpaApi Id) (blockHash : H256)

/-- One event.  A call that fails at one of its reads has made the ones after it for nothing. -/
def CacheSystem.step (s : CacheSystem Id F) : CacheEvent Id → CacheSystem Id F
  | .pass client duration => { s with client := client, now := s.now + duration }
  | .call c blockHash =>
    match s.calls c with
    | .idle =>
      match StatusCache.lookup s.verifier.finalityCache s.now blockHash with
      | some status => s.setCall c (.served blockHash s.now status)
      | none => s.setCall c (.reading blockHash [])
    | _ => s
  | .read c =>
    match s.calls c with
    | .reading blockHash seen =>
      if seen.length < 4 then s.setCall c (.reading blockHash (seen ++ [s.view])) else s
    | _ => s
  | .insert c clock =>
    match s.calls c with
    | .reading blockHash seen =>
      match statusFrom B G s.verifier.params blockHash seen with
      | none => s
      | some (.error e) => s.setCall c (.computed blockHash seen s.now (.error e))
      | some (.ok status) =>
        (s.setVerifier { s.verifier with
            finalityCache :=
              StatusCache.insert s.verifier.finalityCache s.now clock blockHash status }).setCall c
          (.computed blockHash seen s.now (.ok status))
    | _ => s
  | .update newSet setId => s.setVerifier (s.verifier.handleAuthoritySetUpdate G newSet setId).2
  | .fromRuntime api blockHash =>
    s.setVerifier (s.verifier.updateAuthoritiesFromRuntime G api blockHash).2

/-! ### A call that nothing disturbs -/

variable {B G} {s : CacheSystem Id F} {c : ℕ}

/-- The events of a call between which nothing else happens. -/
def callEvents (c : ℕ) (blockHash : H256) (clock : H256 → ℕ) : List (CacheEvent Id) :=
  [.call c blockHash, .read c, .read c, .read c, .read c, .insert c clock]

lemma statusFrom_view (p : GrandpaVerificationParams F) (blockHash : H256) (v : View Id) :
    statusFrom B G p blockHash [v, v, v, v]
      = some (getFinalityStatus B G p (fun _ => v) blockHash) := by
  have hview : (fun i => match i with
      | 0 => v
      | 1 => v
      | 2 => v
      | _ => v) = fun _ : ℕ => v := by
    funext i
    split <;> rfl
  rw [statusFrom, hview]

lemma CacheSystem.run_reads (s : CacheSystem Id F) (c : ℕ) (blockHash : H256) :
    Runs.run (CacheSystem.step B G) (s.setCall c (.reading blockHash []))
        [.read c, .read c, .read c, .read c]
      = s.setCall c (.reading blockHash [s.view, s.view, s.view, s.view]) := by
  have hread : ∀ seen : List (View Id), seen.length < 4 →
      (s.setCall c (.reading blockHash seen)).step B G (.read c)
        = s.setCall c (.reading blockHash (seen ++ [s.view])) := by
    intro seen hlength
    simp [CacheSystem.step, CacheSystem.setCall, CacheSystem.view, hlength]
  simp only [Runs.run_cons, Runs.run_nil, hread, List.length_nil, List.length_cons,
    List.nil_append, List.cons_append, Nat.reduceAdd, Nat.reduceLT]

/-- **The steps of a call.**  Without other events in between, the steps of a new call make up
`get_finality_status_cached`. -/
theorem undisturbed_call (hidle : s.calls c = .idle) (blockHash : H256) (clock : H256 → ℕ) :
    (Runs.run (CacheSystem.step B G) s (callEvents c blockHash clock)).verifier
        = (s.verifier.getFinalityStatusCached B G (fun _ => s.view) s.now s.now clock
            blockHash).2 ∧
      ((Runs.run (CacheSystem.step B G) s (callEvents c blockHash clock)).calls c).returned
        = (s.verifier.getFinalityStatusCached B G (fun _ => s.view) s.now s.now clock
            blockHash).1.toOption.map fun status => (blockHash, status) := by
  unfold SubstrateVerificationClient.getFinalityStatusCached callEvents
  rcases hlookup : StatusCache.lookup s.verifier.finalityCache s.now blockHash with _ | status
  · have hcall : s.step B G (.call c blockHash) = s.setCall c (.reading blockHash []) := by
      simp only [CacheSystem.step, hidle, hlookup]
    have hstatus := statusFrom_view (B := B) (G := G) s.verifier.params blockHash s.view
    have hsplit : ∀ s' : CacheSystem Id F, Runs.run (CacheSystem.step B G) s'
        [.read c, .read c, .read c, .read c, .insert c clock]
        = (Runs.run (CacheSystem.step B G) s' [.read c, .read c, .read c, .read c]).step B G
            (.insert c clock) := fun _ => rfl
    rw [Runs.run_cons, hcall, hsplit, s.run_reads]
    rcases hresult : getFinalityStatus B G s.verifier.params (fun _ => s.view) blockHash with
      e | status
    · rw [hresult] at hstatus
      simp [CacheSystem.step, CacheSystem.setCall, hstatus, CallPhase.returned, Except.toOption]
    · rw [hresult] at hstatus
      simp [CacheSystem.step, CacheSystem.setCall, CacheSystem.setVerifier, hstatus,
        CallPhase.returned, Except.toOption]
  · simp [CacheSystem.step, hidle, hlookup, CacheSystem.setCall, CallPhase.returned,
      Except.toOption]

end Calls

end FrostSubstrate
