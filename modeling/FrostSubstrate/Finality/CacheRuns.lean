/-
What runs of the status cache have in common.

Every event is one of the moves of `CacheMove`, and moves a single call in one of the ways of
`Moves`.  From these follow the two facts about runs: where the statuses in the cache and the
returned ones come from (`Backed`), and when what a call has seen was read (`seen_since`).
-/
import FrostSubstrate.Finality.StatusCache

namespace FrostSubstrate

section Calls

variable {Id Sig F : Type} [DecidableEq Id] [F64 F] (B : BlockT) (G : Grandpa Id Sig)

/-! ### One event -/

/-- What an event may do to the system: nothing; the chain moves on; a call finds a status in the
cache, or none; it reads; it returns an error, or inserts a status and returns it; other voters
are installed. -/
inductive CacheMove (s : CacheSystem Id F) : CacheEvent Id → CacheSystem Id F → Prop where
  | stay (e : CacheEvent Id) : CacheMove s e s
  | pass (client : Client) (duration : ℕ) :
      CacheMove s (.pass client duration) { s with client := client, now := s.now + duration }
  | hit (c : ℕ) (blockHash : H256) (status : FinalityStatus F) (hphase : s.calls c = .idle)
      (hlookup : StatusCache.lookup s.verifier.finalityCache s.now blockHash = some status) :
      CacheMove s (.call c blockHash) (s.setCall c (.served blockHash s.now status))
  | miss (c : ℕ) (blockHash : H256) (hphase : s.calls c = .idle) :
      CacheMove s (.call c blockHash) (s.setCall c (.reading blockHash []))
  | read (c : ℕ) (blockHash : H256) (seen : List (View Id))
      (hphase : s.calls c = .reading blockHash seen) :
      CacheMove s (.read c) (s.setCall c (.reading blockHash (seen ++ [s.view])))
  | fail (c : ℕ) (clock : H256 → ℕ) (blockHash : H256) (seen : List (View Id))
      (err : GrandpaFinalityVerificationError) (hphase : s.calls c = .reading blockHash seen)
      (hresult : statusFrom B G s.verifier.params blockHash seen = some (.error err)) :
      CacheMove s (.insert c clock) (s.setCall c (.computed blockHash seen s.now (.error err)))
  | insert (c : ℕ) (clock : H256 → ℕ) (blockHash : H256) (seen : List (View Id))
      (status : FinalityStatus F) (hphase : s.calls c = .reading blockHash seen)
      (hresult : statusFrom B G s.verifier.params blockHash seen = some (.ok status)) :
      CacheMove s (.insert c clock)
        ((s.setVerifier { s.verifier with
            finalityCache :=
              StatusCache.insert s.verifier.finalityCache s.now clock blockHash status }).setCall c
          (.computed blockHash seen s.now (.ok status)))
  | install (e : CacheEvent Id) (V : VoterSet Id) :
      CacheMove s e (s.setVerifier { s.verifier with voterSet := V })

/-- What an event in the state `s` may do to one call. -/
inductive Moves (s : CacheSystem Id F) : CallPhase Id F → CallPhase Id F → Prop where
  | stay (phase : CallPhase Id F) : Moves s phase phase
  | hit (blockHash : H256) (status : FinalityStatus F)
      (hlookup : StatusCache.lookup s.verifier.finalityCache s.now blockHash = some status) :
      Moves s .idle (.served blockHash s.now status)
  | miss (blockHash : H256) : Moves s .idle (.reading blockHash [])
  | read (blockHash : H256) (seen : List (View Id)) :
      Moves s (.reading blockHash seen) (.reading blockHash (seen ++ [s.view]))
  | finish (blockHash : H256) (seen : List (View Id))
      (result : Except GrandpaFinalityVerificationError (FinalityStatus F))
      (hresult : statusFrom B G s.verifier.params blockHash seen = some result) :
      Moves s (.reading blockHash seen) (.computed blockHash seen s.now result)

variable {B G} {s s₀ s' : CacheSystem Id F} {e : CacheEvent Id} {c c' : ℕ} {phase : CallPhase Id F}
  {blockHash : H256} {seen : List (View Id)} {now timestamp : ℕ} {status : FinalityStatus F}
  {result : Except GrandpaFinalityVerificationError (FinalityStatus F)}
  {before after : List (CacheEvent Id)} {p : GrandpaVerificationParams F} {v : View Id}

namespace CacheSystem

omit [DecidableEq Id] [F64 F] in
lemma setCall_calls_self : (s.setCall c phase).calls c = phase := Function.update_self ..

omit [DecidableEq Id] [F64 F] in
lemma setCall_calls_of_ne (h : c' ≠ c) : (s.setCall c phase).calls c' = s.calls c' :=
  Function.update_of_ne h ..

variable (B G) in
/-- **The events of the system.**  Every event is one of these moves. -/
theorem step_move (s : CacheSystem Id F) (e : CacheEvent Id) :
    CacheMove B G s e (s.step B G e) := by
  cases e with
  | pass client duration => exact .pass client duration
  | call c blockHash =>
    simp only [step]
    rcases hphase : s.calls c with _ | _ | _ | _
    · rcases hlookup : StatusCache.lookup s.verifier.finalityCache s.now blockHash with _ | status
      · exact .miss c blockHash hphase
      · exact .hit c blockHash status hphase hlookup
    all_goals exact .stay _
  | read c =>
    simp only [step]
    rcases hphase : s.calls c with _ | ⟨blockHash, seen⟩ | _ | _
    · exact .stay _
    · dsimp only
      split_ifs
      · exact .read c blockHash seen hphase
      · exact .stay _
    all_goals exact .stay _
  | insert c clock =>
    simp only [step]
    rcases hphase : s.calls c with _ | ⟨blockHash, seen⟩ | _ | _
    · exact .stay _
    · dsimp only
      rcases hresult : statusFrom B G s.verifier.params blockHash seen with _ | err | status
      · exact .stay _
      · exact .fail c clock blockHash seen err hphase hresult
      · exact .insert c clock blockHash seen status hphase hresult
    all_goals exact .stay _
  | update newSet setId =>
    simp only [step, SubstrateVerificationClient.handleAuthoritySetUpdate]
    rcases G.newVoterSet newSet with _ | V
    · exact .stay _
    · exact .install _ V
  | fromRuntime api blockHash =>
    simp only [step, SubstrateVerificationClient.updateAuthoritiesFromRuntime]
    rcases api blockHash with err | authorities
    · exact .stay _
    · dsimp only
      rcases G.newVoterSet authorities with _ | V
      · exact .stay _
      · exact .install _ V

lemma setCall_moves (h : Moves B G s (s.calls c) phase) :
    Moves B G s (s.calls c') ((s.setCall c phase).calls c') := by
  by_cases hc : c' = c
  · subst hc
    rw [setCall_calls_self]
    exact h
  · rw [setCall_calls_of_ne hc]
    exact .stay _

variable (B G) in
lemma step_moves (s : CacheSystem Id F) (e : CacheEvent Id) (c : ℕ) :
    Moves B G s (s.calls c) ((s.step B G e).calls c) := by
  have hmove := step_move B G s e
  generalize s.step B G e = s' at hmove
  cases hmove with
  | hit c' blockHash status hphase hlookup => exact setCall_moves (hphase ▸ .hit _ _ hlookup)
  | miss c' blockHash hphase => exact setCall_moves (hphase ▸ .miss _)
  | read c' blockHash seen hphase => exact setCall_moves (hphase ▸ .read _ _)
  | fail c' clock blockHash seen err hphase hresult =>
    exact setCall_moves (hphase ▸ .finish _ _ _ hresult)
  | insert c' clock blockHash seen status hphase hresult =>
    exact setCall_moves (hphase ▸ .finish _ _ _ hresult)
  | _ => exact .stay _

variable (B G) in
/-- The cache changes only where a call returns what it has computed. -/
lemma step_cache (s : CacheSystem Id F) (e : CacheEvent Id) :
    (s.step B G e).verifier.finalityCache = s.verifier.finalityCache ∨
      ∃ c clock blockHash seen status, e = .insert c clock ∧
        s.calls c = .reading blockHash seen ∧
        statusFrom B G s.verifier.params blockHash seen = some (.ok status) ∧
        (s.step B G e).calls c = .computed blockHash seen s.now (.ok status) ∧
        (s.step B G e).verifier.finalityCache
          = StatusCache.insert s.verifier.finalityCache s.now clock blockHash status := by
  have hmove := step_move B G s e
  generalize s.step B G e = s' at hmove
  cases hmove with
  | insert c clock blockHash seen status hphase hresult =>
    exact Or.inr ⟨c, clock, blockHash, seen, status, rfl, hphase, hresult, setCall_calls_self, rfl⟩
  | _ => exact Or.inl rfl

lemma step_finished (hreading : s.calls c = .reading blockHash seen)
    (h : (s.step B G e).calls c = .computed blockHash seen now (.ok status)) :
    ∃ clock, (s.step B G e).verifier.finalityCache
      = StatusCache.insert s.verifier.finalityCache s.now clock blockHash status := by
  have hsame : s.calls c ≠ .computed blockHash seen now (.ok status) := by
    rw [hreading]
    rintro ⟨⟩
  -- whatever else a call does, this one has not returned by it
  have hother : ∀ c' phase, phase ≠ .computed blockHash seen now (.ok status) →
      (s.setCall c' phase).calls c ≠ .computed blockHash seen now (.ok status) := by
    intro c' phase hphase
    by_cases hc : c = c'
    · subst hc
      rwa [setCall_calls_self]
    · rwa [setCall_calls_of_ne hc]
  have hmove := step_move B G s e
  generalize s.step B G e = s' at hmove h
  cases hmove with
  | insert c' clock blockHash' seen' status' hphase hresult =>
    by_cases hc : c = c'
    · subst hc
      rw [setCall_calls_self] at h
      cases h
      exact ⟨clock, rfl⟩
    · rw [setCall_calls_of_ne hc] at h
      exact absurd h hsame
  | hit => exact absurd h (hother _ _ (by rintro ⟨⟩))
  | miss => exact absurd h (hother _ _ (by rintro ⟨⟩))
  | read => exact absurd h (hother _ _ (by rintro ⟨⟩))
  | fail => exact absurd h (hother _ _ (by rintro ⟨⟩))
  | _ => exact absurd h hsame

variable (B G) in
lemma step_params (s : CacheSystem Id F) (e : CacheEvent Id) :
    (s.step B G e).verifier.params = s.verifier.params := by
  have hmove := step_move B G s e
  generalize s.step B G e = s' at hmove
  cases hmove <;> rfl

variable (B G) in
lemma step_client (s : CacheSystem Id F) (e : CacheEvent Id) :
    (s.step B G e).client = s.client ∨
      ∃ client duration, e = .pass client duration ∧ (s.step B G e).client = client := by
  have hmove := step_move B G s e
  generalize s.step B G e = s' at hmove
  cases hmove with
  | pass client duration => exact Or.inr ⟨client, duration, rfl, rfl⟩
  | _ => exact Or.inl rfl

lemma step_computed (h : s.calls c = .computed blockHash seen now result) :
    (s.step B G e).calls c = .computed blockHash seen now result := by
  have hmoves := step_moves B G s e c
  rw [h] at hmoves
  generalize (s.step B G e).calls c = phase at hmoves
  cases hmoves
  rfl

lemma run_computed (h : s.calls c = .computed blockHash seen now result)
    (events : List (CacheEvent Id)) :
    (Runs.run (step B G) s events).calls c = .computed blockHash seen now result := by
  have hstep : ∀ (s : CacheSystem Id F) (e : CacheEvent Id),
      s.calls c = .computed blockHash seen now result →
        (s.step B G e).calls c = .computed blockHash seen now result :=
    fun _ _ h => step_computed h
  exact Runs.invariant_of_forall hstep h events

lemma of_step_computed (h : (s.step B G e).calls c = .computed blockHash seen now result) :
    s.calls c = .computed blockHash seen now result ∨
      s.calls c = .reading blockHash seen ∧ now = s.now ∧
        statusFrom B G s.verifier.params blockHash seen = some result := by
  have hmoves := step_moves B G s e c
  rw [h] at hmoves
  generalize s.calls c = phase at hmoves
  cases hmoves with
  | stay => exact Or.inl rfl
  | finish _ _ _ hresult => exact Or.inr ⟨rfl, rfl, hresult⟩

lemma of_step_served (h : (s.step B G e).calls c = .served blockHash now status) :
    s.calls c = .served blockHash now status ∨
      s.calls c = .idle ∧ now = s.now ∧
        StatusCache.lookup s.verifier.finalityCache s.now blockHash = some status := by
  have hmoves := step_moves B G s e c
  rw [h] at hmoves
  generalize s.calls c = phase at hmoves
  cases hmoves with
  | stay => exact Or.inl rfl
  | hit _ _ hlookup => exact Or.inr ⟨rfl, rfl, hlookup⟩

variable (B G) in
/-- An event lets a call make at most one read, and that of the present state. -/
lemma step_seen (s : CacheSystem Id F) (e : CacheEvent Id) (c : ℕ) :
    ((s.step B G e).calls c).seen = (s.calls c).seen ∨
      ((s.step B G e).calls c).seen = (s.calls c).seen ++ [s.view] := by
  have hmoves := step_moves B G s e c
  generalize s.calls c = phase at hmoves
  generalize (s.step B G e).calls c = phase' at hmoves
  cases hmoves with
  | stay => exact Or.inl rfl
  | hit => exact Or.inl rfl
  | miss => exact Or.inl rfl
  | read => exact Or.inr rfl
  | finish => exact Or.inl rfl

end CacheSystem

/-! ### Where statuses come from -/

variable (B G) in
/-- Every status in the cache, and every status that has been returned from it, has been computed
by a call; the returned ones had been inserted less than five seconds before. -/
structure Backed (p : GrandpaVerificationParams F) (s : CacheSystem Id F) : Prop where
  params_eq : s.verifier.params = p
  computed : ∀ c blockHash seen now status,
    s.calls c = .computed blockHash seen now (.ok status) →
    statusFrom B G p blockHash seen = some (.ok status)
  served : ∀ c blockHash now status, s.calls c = .served blockHash now status →
    ∃ c' seen timestamp, s.calls c' = .computed blockHash seen timestamp (.ok status) ∧
      elapsed now timestamp < durationFromSecs 5
  cached : ∀ blockHash status timestamp,
    s.verifier.finalityCache blockHash = some (status, timestamp) →
    ∃ c seen, s.calls c = .computed blockHash seen timestamp (.ok status)

namespace Backed

lemma start (client : Client) (voterSet : VoterSet Id) (p : GrandpaVerificationParams F)
    (chainConfig : ChainConfig) (now : ℕ) :
    Backed B G p (.start client voterSet p chainConfig now) where
  params_eq := rfl
  computed := by rintro c blockHash seen now status ⟨⟩
  served := by rintro c blockHash now status ⟨⟩
  cached := by rintro blockHash status timestamp ⟨⟩

lemma step (h : Backed B G p s) (e : CacheEvent Id) : Backed B G p (s.step B G e) where
  params_eq := (s.step_params B G e).trans h.params_eq
  computed := by
    intro c blockHash seen now status hc
    rcases CacheSystem.of_step_computed hc with hc | ⟨-, -, hresult⟩
    · exact h.computed c blockHash seen now status hc
    · rwa [h.params_eq] at hresult
  served := by
    intro c blockHash now status hc
    rcases CacheSystem.of_step_served hc with hc | ⟨-, rfl, hlookup⟩
    · obtain ⟨c', seen, timestamp, hc', hfresh⟩ := h.served c blockHash now status hc
      exact ⟨c', seen, timestamp, CacheSystem.step_computed hc', hfresh⟩
    · obtain ⟨timestamp, hentry, hfresh⟩ := StatusCache.lookup_eq_some_iff.mp hlookup
      obtain ⟨c', seen, hc'⟩ := h.cached blockHash status timestamp hentry
      exact ⟨c', seen, timestamp, CacheSystem.step_computed hc', hfresh⟩
  cached := by
    intro blockHash status timestamp hentry
    rcases s.step_cache B G e with hsame | ⟨c, clock, h', seen, inserted, -, -, -, hc, hcache⟩
    · rw [hsame] at hentry
      obtain ⟨c, seen, hc⟩ := h.cached blockHash status timestamp hentry
      exact ⟨c, seen, CacheSystem.step_computed hc⟩
    · rw [hcache] at hentry
      rcases StatusCache.insert_eq_some hentry with ⟨rfl, rfl, rfl⟩ | hentry
      · exact ⟨c, seen, hc⟩
      · obtain ⟨c, seen, hc⟩ := h.cached blockHash status timestamp hentry
        exact ⟨c, seen, CacheSystem.step_computed hc⟩

/-- Every run has this. -/
theorem run (h : Backed B G p s) (events : List (CacheEvent Id)) :
    Backed B G p (Runs.run (CacheSystem.step B G) s events) :=
  Runs.invariant_of_forall (fun _ e h => h.step e) h events

/-- A returned status has been computed by some call, possibly by the same one. -/
lemma of_returned (h : Backed B G p s)
    (hreturned : (s.calls c).returned = some (blockHash, status)) :
    ∃ c' seen timestamp, s.calls c' = .computed blockHash seen timestamp (.ok status) := by
  rcases hphase : s.calls c with _ | _ | ⟨b, now, st⟩ | ⟨b, seen, now, e | st⟩
  all_goals rw [hphase] at hreturned
  all_goals cases hreturned
  · obtain ⟨c', seen, timestamp, hc', -⟩ := h.served c _ _ _ hphase
    exact ⟨c', seen, timestamp, hc'⟩
  · exact ⟨c, seen, now, hphase⟩

end Backed

/-- **What a call has seen since.**  The reads a call makes after a moment see the system as it
is at later moments. -/
theorem seen_since (s : CacheSystem Id F) (events : List (CacheEvent Id)) (c i : ℕ)
    (hi : (s.calls c).seen.length ≤ i)
    (hv : ((Runs.run (CacheSystem.step B G) s events).calls c).seen[i]? = some v) :
    Runs.Occurs (CacheSystem.step B G) CacheSystem.view s events v := by
  induction events using List.reverseRecOn with
  | nil =>
    rw [Runs.run_nil, List.getElem?_eq_none hi] at hv
    cases hv
  | append_singleton events e ih =>
    rw [Runs.run_concat] at hv
    rcases (Runs.run (CacheSystem.step B G) s events).step_seen B G e c with
      hsame | hread
    · exact (ih (hsame ▸ hv)).append_left [e]
    · rw [hread] at hv
      rcases Nat.lt_or_ge i ((Runs.run (CacheSystem.step B G) s events).calls c).seen.length with
        hold | hnew
      · rw [List.getElem?_append_left hold] at hv
        exact (ih hv).append_left [e]
      · rw [List.getElem?_append_right hnew, List.getElem?_singleton] at hv
        split_ifs at hv
        rw [← Option.some.inj hv]
        exact Runs.Occurs.at_end.append_left [e]

lemma statusFrom_eq_some (h : statusFrom B G p blockHash seen = some result) :
    ∃ view : ℕ → View Id, (∀ i, seen[min i 3]? = some (view i)) ∧
      getFinalityStatus B G p view blockHash = result := by
  unfold statusFrom at h
  split at h
  · refine ⟨_, ?_, Option.some.inj h⟩
    intro i
    rcases i with _ | _ | _ | i
    · rfl
    · rfl
    · rfl
    · rw [Nat.min_eq_right (Nat.le_add_left 3 i)]
      rfl
  · cases h

end Calls

end FrostSubstrate
