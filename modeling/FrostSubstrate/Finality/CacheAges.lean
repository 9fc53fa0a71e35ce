/-
Ages in the status cache.

A status that is returned was computed by the call itself, or found in the cache, where an
earlier call had put it less than five seconds before (`returned_computed_or_served`).  An
insertion that reads the clock once drops exactly what is half a minute old (`cleaned_insert`),
and a call that fails touches nothing (`failed_call_cache`).  Ages mean what they say because
nothing in the cache carries a time that is still to come (`Dated`).
-/
import FrostSubstrate.Finality.CacheRuns

namespace FrostSubstrate

open Runs (Occurs run)

variable {Id Sig F : Type} [DecidableEq Id] [F64 F] (B : BlockT) (G : Grandpa Id Sig)

/-! ### What a run says of a returned status -/

/-- By now the call `c` has computed this status of the block, and inserted it at the time
`inserted`: it is what `get_finality_status` returns on the reads of the call, each of a moment of
the run. -/
def ComputedAt (p : GrandpaVerificationParams F) (s₀ : CacheSystem Id F)
    (events : List (CacheEvent Id)) (c : ℕ) (blockHash : H256) (status : FinalityStatus F)
    (inserted : ℕ) : Prop :=
  ∃ seen, (run (CacheSystem.step B G) s₀ events).calls c
      = .computed blockHash seen inserted (.ok status) ∧
    ∃ view : ℕ → View Id, (∀ i, seen[min i 3]? = some (view i)) ∧
      (∀ i, Occurs (CacheSystem.step B G) CacheSystem.view s₀ events (view i)) ∧
      getFinalityStatus B G p view blockHash = .ok status

/-- The call `c` has returned this status from the cache: when it was made, another call had
computed the status of this block and inserted it less than five seconds before. -/
def ServedYoung (p : GrandpaVerificationParams F) (s₀ : CacheSystem Id F)
    (events : List (CacheEvent Id)) (c : ℕ) (blockHash : H256) (status : FinalityStatus F) :
    Prop :=
  ∃ before after, events = before ++ .call c blockHash :: after ∧
    ∃ c' inserted, ComputedAt B G p s₀ before c' blockHash status inserted ∧
      inserted ≤ (run (CacheSystem.step B G) s₀ before).now ∧
      (run (CacheSystem.step B G) s₀ before).now - inserted < durationFromSecs 5

/-- The call `c` is about to insert this status of the block. -/
def AboutToInsert (s : CacheSystem Id F) (c : ℕ) (blockHash : H256) (status : FinalityStatus F) :
    Prop :=
  ∃ seen, s.calls c = .reading blockHash seen ∧
    statusFrom B G s.verifier.params blockHash seen = some (.ok status)

omit [DecidableEq Id] [F64 F] in
/-- `new` is `old` with this status of the block, inserted at the time `now`, and without what is
half a minute old by then. -/
structure CleanedUp (old new : StatusCache F) (now : ℕ) (blockHash : H256)
    (status : FinalityStatus F) : Prop where
  inserted : new blockHash = some (status, now)
  kept : ∀ h status timestamp, h ≠ blockHash → old h = some (status, timestamp) →
    now - timestamp < durationFromSecs 30 → new h = some (status, timestamp)
  young : ∀ h status timestamp, new h = some (status, timestamp) →
    timestamp ≤ now ∧ now - timestamp < durationFromSecs 30
  nothing_else : ∀ h entry, h ≠ blockHash → new h = some entry → old h = some entry

/-- The events of the call `c`. -/
def CacheEvent.OfCall (c : ℕ) : CacheEvent Id → Prop
  | .call c' _ => c' = c
  | .read c' => c' = c
  | .insert c' _ => c' = c
  | _ => False

variable {B G} {p : GrandpaVerificationParams F} {s s₀ : CacheSystem Id F}
  {e : CacheEvent Id} {events before after : List (CacheEvent Id)} {c c' : ℕ}
  {phase phase' : CallPhase Id F} {blockHash : H256} {seen : List (View Id)} {now inserted : ℕ}
  {status : FinalityStatus F}
  {result : Except GrandpaFinalityVerificationError (FinalityStatus F)}

/-! ### Times -/

omit [DecidableEq Id] [F64 F] in
variable (s) in
/-- No time that the system has noted is still to come. -/
structure Dated : Prop where
  computed : ∀ c blockHash seen now result, s.calls c = .computed blockHash seen now result →
    now ≤ s.now
  cached : ∀ blockHash status timestamp,
    s.verifier.finalityCache blockHash = some (status, timestamp) → timestamp ≤ s.now

lemma CacheSystem.now_le_step (s : CacheSystem Id F) (e : CacheEvent Id) :
    s.now ≤ (s.step B G e).now := by
  have hmove := s.step_move B G e
  generalize s.step B G e = s' at hmove
  cases hmove with
  | pass client duration => exact Nat.le_add_right _ _
  | _ => exact le_rfl

namespace Dated

omit [DecidableEq Id] [F64 F] in
lemma start (client : Client) (voterSet : VoterSet Id) (p : GrandpaVerificationParams F)
    (chainConfig : ChainConfig) (now : ℕ) :
    Dated (.start client voterSet p chainConfig now : CacheSystem Id F) where
  computed := by rintro c blockHash seen now result ⟨⟩
  cached := by rintro blockHash status timestamp ⟨⟩

lemma step (h : Dated s) (e : CacheEvent Id) : Dated (s.step B G e) where
  computed := by
    intro c blockHash seen now result hc
    rcases CacheSystem.of_step_computed hc with hc | ⟨-, rfl, -⟩
    · exact (h.computed c blockHash seen now result hc).trans (s.now_le_step e)
    · exact s.now_le_step e
  cached := by
    intro blockHash status timestamp hentry
    rcases s.step_cache B G e with hsame | ⟨c, clock, h', seen, inserted, -, -, -, -, hcache⟩
    · rw [hsame] at hentry
      exact (h.cached blockHash status timestamp hentry).trans (s.now_le_step e)
    · rw [hcache] at hentry
      rcases StatusCache.insert_eq_some hentry with ⟨-, -, rfl⟩ | hentry
      · exact s.now_le_step e
      · exact (h.cached blockHash status timestamp hentry).trans (s.now_le_step e)

theorem run (h : Dated s) (events : List (CacheEvent Id)) :
    Dated (Runs.run (CacheSystem.step B G) s events) :=
  Runs.invariant_of_forall (fun _ e h => h.step e) h events

end Dated

/-! ### Returned statuses -/

omit [DecidableEq Id] [F64 F] in
lemma CacheSystem.of_setCall_calls (h : (s.setCall c' phase').calls c = phase) :
    c = c' ∧ phase' = phase ∨ s.calls c = phase := by
  by_cases hc : c = c'
  · subst hc
    rw [setCall_calls_self] at h
    exact Or.inl ⟨rfl, h⟩
  · rw [setCall_calls_of_ne hc] at h
    exact Or.inr h

/-- A call that has returned a cached status has returned it when it was made. -/
lemma CacheSystem.call_of_step_served (hidle : s.calls c = .idle)
    (h : (s.step B G e).calls c = .served blockHash now status) : e = .call c blockHash := by
  have hbefore : ¬ s.calls c = .served blockHash now status := by
    rw [hidle]
    rintro ⟨⟩
  -- of the moves that set a call only a hit leaves it with a cached status
  have hmove := s.step_move B G e
  generalize s.step B G e = s' at hmove h
  cases hmove with
  | hit c' blockHash' status' hphase hlookup =>
    rcases of_setCall_calls h with ⟨rfl, hserved⟩ | hold
    · cases hserved
      rfl
    · exact absurd hold hbefore
  | miss => exact absurd ((of_setCall_calls h).resolve_left (by rintro ⟨-, ⟨⟩⟩)) hbefore
  | read => exact absurd ((of_setCall_calls h).resolve_left (by rintro ⟨-, ⟨⟩⟩)) hbefore
  | fail => exact absurd ((of_setCall_calls h).resolve_left (by rintro ⟨-, ⟨⟩⟩)) hbefore
  | insert => exact absurd ((of_setCall_calls h).resolve_left (by rintro ⟨-, ⟨⟩⟩)) hbefore
  | _ => exact absurd h hbefore

/-- **Where a cached status was found.**  A call that has returned a cached status has found it
in the cache at one moment of the run. -/
lemma served_since (hstart : ∀ c, s₀.calls c = .idle) (events : List (CacheEvent Id))
    (h : (run (CacheSystem.step B G) s₀ events).calls c = .served blockHash now status) :
    ∃ before after, events = before ++ .call c blockHash :: after ∧
      now = (run (CacheSystem.step B G) s₀ before).now ∧
      StatusCache.lookup (run (CacheSystem.step B G) s₀ before).verifier.finalityCache now
        blockHash = some status := by
  induction events using List.reverseRecOn with
  | nil =>
    rw [Runs.run_nil, hstart] at h
    cases h
  | append_singleton events e ih =>
    rw [Runs.run_concat] at h
    rcases CacheSystem.of_step_served h with hold | ⟨hidle, hnow, hlookup⟩
    · obtain ⟨before, after, rfl, hfound⟩ := ih hold
      exact ⟨before, after ++ [e], by simp, hfound⟩
    · obtain rfl := CacheSystem.call_of_step_served hidle h
      exact ⟨events, [], rfl, hnow, hnow ▸ hlookup⟩

lemma ComputedAt.of_computed (hbacked : Backed B G p s₀)
    (hidle : ∀ c, s₀.calls c = .idle)
    (h : (run (CacheSystem.step B G) s₀ events).calls c
      = .computed blockHash seen inserted (.ok status)) :
    ComputedAt B G p s₀ events c blockHash status inserted := by
  obtain ⟨view, hview, hstatus⟩ := statusFrom_eq_some
    ((hbacked.run events).computed c blockHash seen inserted status h)
  refine ⟨seen, h, view, hview, ?_, hstatus⟩
  intro i
  have hnone : (s₀.calls c).seen.length ≤ min i 3 := by
    rw [hidle]
    exact Nat.zero_le _
  have hread : ((run (CacheSystem.step B G) s₀ events).calls c).seen[min i 3]?
      = some (view i) := by
    rw [h]
    exact hview i
  exact seen_since s₀ events c (min i 3) hnone hread

lemma returned_computed_or_served (hbacked : Backed B G p s₀) (hdated : Dated s₀)
    (hidle : ∀ c, s₀.calls c = .idle)
    (h : ((run (CacheSystem.step B G) s₀ events).calls c).returned = some (blockHash, status)) :
    (∃ inserted, ComputedAt B G p s₀ events c blockHash status inserted) ∨
      ServedYoung B G p s₀ events c blockHash status := by
  rcases hphase : (run (CacheSystem.step B G) s₀ events).calls c with
    _ | _ | ⟨b, now, st⟩ | ⟨b, seen, now, err | st⟩
  all_goals rw [hphase] at h
  all_goals cases h
  · obtain ⟨before, after, hsplit, hnow, hlookup⟩ := served_since hidle events hphase
    obtain ⟨inserted, hentry, hfresh⟩ := StatusCache.lookup_eq_some_iff.mp hlookup
    obtain ⟨c', seen, hc'⟩ := (hbacked.run before).cached _ _ _ hentry
    subst hnow
    exact Or.inr ⟨before, after, hsplit, c', inserted, .of_computed hbacked hidle hc',
      (hdated.run before).cached _ _ _ hentry, hfresh⟩
  · exact Or.inl ⟨now, .of_computed hbacked hidle hphase⟩

/-! ### Insertions -/

omit [DecidableEq Id] [F64 F] in
lemma StatusCache.insert_cleanedUp {old : StatusCache F}
    (hdated : ∀ h status timestamp, old h = some (status, timestamp) → timestamp ≤ now) :
    CleanedUp old (old.insert now (fun _ => now) blockHash status) now blockHash status where
  inserted := by
    have hzero : elapsed now now < durationFromSecs 30 := by simp [elapsed, durationFromSecs]
    rw [StatusCache.insert, if_pos rfl]
    simpa using hzero
  kept := by
    intro h status timestamp hne hold hyoung
    rw [StatusCache.insert, if_neg hne, hold]
    exact Option.filter_some_pos (decide_eq_true hyoung)
  young := by
    intro h status' timestamp hentry
    have hyoung := (Option.filter_eq_some_iff.mp hentry).2
    refine ⟨?_, of_decide_eq_true hyoung⟩
    rcases StatusCache.insert_eq_some hentry with ⟨-, -, rfl⟩ | hold
    · exact le_rfl
    · exact hdated h status' timestamp hold
  nothing_else := by
    intro h entry hne hentry
    rw [StatusCache.insert, if_neg hne] at hentry
    exact (Option.filter_eq_some_iff.mp hentry).1

lemma cleaned_insert (hdated : Dated s) (h : AboutToInsert B G s c blockHash status) :
    CleanedUp s.verifier.finalityCache
      (s.step B G (.insert c fun _ => s.now)).verifier.finalityCache s.now blockHash status := by
  obtain ⟨seen, hreading, hstatus⟩ := h
  have hcache : (s.step B G (.insert c fun _ => s.now)).verifier.finalityCache
      = StatusCache.insert s.verifier.finalityCache s.now (fun _ => s.now) blockHash status := by
    simp only [CacheSystem.step, hreading, hstatus]
    rfl
  rw [hcache]
  exact StatusCache.insert_cleanedUp hdated.cached

lemma failed_call_cache {err : GrandpaFinalityVerificationError}
    (h : (run (CacheSystem.step B G) s₀ (before ++ e :: after)).calls c
      = .computed blockHash seen now (.error err)) (he : e.OfCall c) :
    ((run (CacheSystem.step B G) s₀ before).step B G e).verifier.finalityCache
      = (run (CacheSystem.step B G) s₀ before).verifier.finalityCache := by
  rcases (run (CacheSystem.step B G) s₀ before).step_cache B G e with
    hsame | ⟨c', clock, h', seen', status, rfl, -, -, hreturned, -⟩
  · exact hsame
  · -- a call that has inserted a status has returned it, and does not end in an error
    obtain rfl : c' = c := he
    rw [Runs.run_append, Runs.run_cons, CacheSystem.run_computed hreturned after] at h
    cases h

/-- **The cache.**  In every run of calls from a new client, a status returned for a block is one
that `get_finality_status` has returned for it, to this call or to an earlier one that inserted
it less than five seconds before; every insertion at one reading of the clock leaves the inserted
status, all younger entries and none that is half a minute old; and a call that fails leaves the
cache unchanged. -/
theorem cache_sound (B : BlockT) (G : Grandpa Id Sig) (client : Client) (voterSet : VoterSet Id)
    (p : GrandpaVerificationParams F) (chainConfig : ChainConfig) (now : ℕ)
    (events : List (CacheEvent Id)) :
    let start : CacheSystem Id F := .start client voterSet p chainConfig now
    (∀ c blockHash status,
      ((run (CacheSystem.step B G) start events).calls c).returned = some (blockHash, status) →
      (∃ inserted, ComputedAt B G p start events c blockHash status inserted) ∨
        ServedYoung B G p start events c blockHash status) ∧
    (∀ before after c blockHash status,
      let s := run (CacheSystem.step B G) start before
      events = before ++ .insert c (fun _ => s.now) :: after →
      AboutToInsert B G s c blockHash status →
      CleanedUp s.verifier.finalityCache
        (s.step B G (.insert c fun _ => s.now)).verifier.finalityCache s.now blockHash status) ∧
    (∀ c blockHash seen now err, (run (CacheSystem.step B G) start events).calls c
        = .computed blockHash seen now (.error err) →
      ∀ before e after, events = before ++ e :: after → e.OfCall c →
        ((run (CacheSystem.step B G) start before).step B G e).verifier.finalityCache
          = (run (CacheSystem.step B G) start before).verifier.finalityCache) := by
  intro start
  have hbacked : Backed B G p start := .start client voterSet p chainConfig now
  have hdated : Dated start := .start client voterSet p chainConfig now
  refine ⟨?_, ?_, ?_⟩
  · intro c blockHash status hreturned
    exact returned_computed_or_served hbacked hdated (fun _ => rfl) hreturned
  · intro before after c blockHash status s _ habout
    exact cleaned_insert (hdated.run before) habout
  · rintro c blockHash seen now err hfailed before e after rfl he
    exact failed_call_cache hfailed he

end FrostSubstrate
