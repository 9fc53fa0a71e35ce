/-
Finality in the status cache.

A finalized block stays finalized, so once a caller of `get_finality_status_cached` has been
told that a block is, no later caller should be told otherwise.  But a status is computed
before it is inserted, and carries the time of its insertion: a slow call puts what it saw long
ago over a newer status, as if it were fresh.  `InsertsInOrder` is the condition on a run under
which this does not happen: `staysFinal_of_insertsInOrder` shows that nothing else is needed, and
`insertsInOrder_iff_probed` that nothing less will do.
-/
import FrostSubstrate.Finality.CacheRuns

namespace FrostSubstrate

open Runs (EveryStep Occurs run)

/-- The client knows no header of another number for this block. -/
def HeaderNumbered (blockHash : H256) (n : ℕ) (client : Client) : Prop :=
  ∀ header, client.header blockHash = .ok (some header) → header.number = n

section Finality

variable {Id Sig F : Type} [DecidableEq Id] [F64 F] (B : BlockT) (G : Grandpa Id Sig)

/-- The finalized number does not decrease, and the block keeps its number. -/
def ChainGrows (blockHash : H256) (n : ℕ) (s : CacheSystem Id F) : CacheEvent Id → Prop
  | .pass client _ =>
    s.client.info.finalizedNumber ≤ client.info.finalizedNumber ∧ HeaderNumbered blockHash n client
  | _ => True

/-- A call with these reads has a status to insert: it has made all four, the first has found the
block and the third its justifications. -/
def ReadsSucceed (blockHash : H256) (seen : List (View Id)) : Prop :=
  ∃ v₀ v₁ v₂ v₃ header j, seen = [v₀, v₁, v₂, v₃] ∧
    v₀.client.header blockHash = .ok (some header) ∧ v₂.client.justifications blockHash = .ok j

/-- A call that has a status to insert, not dropped as it is inserted, and has read a finalized
number below the block does not insert it once a call that has read one at or above the block has
returned. -/
def InsertsInOrder (blockHash : H256) (n : ℕ) (s : CacheSystem Id F) : CacheEvent Id → Prop
  | .insert c clock => ∀ seen v, s.calls c = .reading blockHash seen →
      ReadsSucceed blockHash seen → elapsed (clock blockHash) s.now < durationFromSecs 30 →
      seen[1]? = some v → v.client.info.finalizedNumber < n →
    ∀ c' seen' now status v', s.calls c' = .computed blockHash seen' now (.ok status) →
      seen'[1]? = some v' → v'.client.info.finalizedNumber < n
  | _ => True

/-- Once a call has returned that the block is finalized, the calls made afterwards return it
as well. -/
def StaysFinal (blockHash : H256) (s : CacheSystem Id F) (events : List (CacheEvent Id)) : Prop :=
  ∀ before after, events = before ++ after →
    (∃ c status, ((run (CacheSystem.step B G) s before).calls c).returned
        = some (blockHash, status) ∧ status.isFinalized = true) →
    ∀ c status, (run (CacheSystem.step B G) s before).calls c = .idle →
      ((run (CacheSystem.step B G) s events).calls c).returned = some (blockHash, status) →
      status.isFinalized = true

/-- What the calls have read and what the cache holds: statuses of this block at this number,
and none that takes a returned finality back. -/
structure KeepsFinal (p : GrandpaVerificationParams F) (blockHash : H256) (n : ℕ)
    (s : CacheSystem Id F) : Prop where
  backed : Backed B G p s
  client : HeaderNumbered blockHash n s.client
  reads : ∀ c, ∀ v ∈ (s.calls c).seen, HeaderNumbered blockHash n v.client
  kept : (∃ c seen now status, s.calls c = .computed blockHash seen now (.ok status) ∧
      status.isFinalized = true) →
    ∀ status timestamp, s.verifier.finalityCache blockHash = some (status, timestamp) →
      status.isFinalized = true

variable {B G} {p : GrandpaVerificationParams F} {blockHash : H256} {n now : ℕ}
  {s : CacheSystem Id F} {e : CacheEvent Id} {events : List (CacheEvent Id)} {c : ℕ}
  {seen : List (View Id)} {status : FinalityStatus F} {v : View Id}

lemma isFinalized_of_getFinalityStatus {view : ℕ → View Id}
    (h : getFinalityStatus B G p view blockHash = .ok status) :
    ∃ header, (view 0).client.header blockHash = .ok (some header) ∧
      status.isFinalized = decide (header.number ≤ (view 1).client.info.finalizedNumber) := by
  obtain ⟨header, j, hheader, -, rfl⟩ := (getFinalityStatus_eq_ok_iff B G).mp h
  exact ⟨header, hheader, rfl⟩

/-- Reads that succeed make a status, and only these do. -/
lemma readsSucceed_iff :
    ReadsSucceed blockHash seen ↔
      ∃ status, statusFrom B G p blockHash seen = some (.ok status) := by
  constructor
  · rintro ⟨v₀, v₁, v₂, v₃, header, j, rfl, hheader, hj⟩
    exact ⟨_, congrArg some ((getFinalityStatus_eq_ok_iff B G).mpr ⟨header, j, hheader, hj, rfl⟩)⟩
  · rintro ⟨status, hstatus⟩
    unfold statusFrom at hstatus
    split at hstatus
    · obtain ⟨header, j, hheader, hj, -⟩ :=
        (getFinalityStatus_eq_ok_iff B G).mp (Option.some.inj hstatus)
      exact ⟨_, _, _, _, header, j, rfl, hheader, hj⟩
    · cases hstatus

lemma isFinalized_of_statusFrom (hreads : ∀ v ∈ seen, HeaderNumbered blockHash n v.client)
    (h : statusFrom B G p blockHash seen = some (.ok status)) :
    ∃ v, seen[1]? = some v ∧
      status.isFinalized = decide (n ≤ v.client.info.finalizedNumber) := by
  obtain ⟨view, hview, hstatus⟩ := statusFrom_eq_some h
  obtain ⟨header, hheader, hfinal⟩ := isFinalized_of_getFinalityStatus hstatus
  have hnumber : header.number = n :=
    hreads (view 0) (List.mem_of_getElem? (hview 0)) header hheader
  exact ⟨view 1, hview 1, hnumber ▸ hfinal⟩

namespace KeepsFinal

lemma isFinalized_eq (h : KeepsFinal B G p blockHash n s)
    (hc : s.calls c = .computed blockHash seen now (.ok status)) :
    ∃ v, seen[1]? = some v ∧
      status.isFinalized = decide (n ≤ v.client.info.finalizedNumber) := by
  refine isFinalized_of_statusFrom (fun v hv => h.reads c v ?_) (h.backed.computed _ _ _ _ _ hc)
  rw [hc]
  exact hv

lemma isFinalized_of_reading (h : KeepsFinal B G p blockHash n s)
    (hc : s.calls c = .reading blockHash seen)
    (hstatus : statusFrom B G p blockHash seen = some (.ok status)) :
    ∃ v, seen[1]? = some v ∧
      status.isFinalized = decide (n ≤ v.client.info.finalizedNumber) := by
  refine isFinalized_of_statusFrom (fun v hv => h.reads c v ?_) hstatus
  rw [hc]
  exact hv

lemma start {client : Client} (hnumbered : HeaderNumbered blockHash n client)
    (voterSet : VoterSet Id) (chainConfig : ChainConfig) :
    KeepsFinal B G p blockHash n (.start client voterSet p chainConfig now) where
  backed := Backed.start client voterSet p chainConfig now
  client := hnumbered
  reads := fun c v hv => by cases hv
  kept := fun _ status timestamp hentry => by cases hentry

/-- The cache holds no status that takes a returned finality back. -/
lemma step_kept (h : KeepsFinal B G p blockHash n s) (horder : InsertsInOrder blockHash n s e)
    (hfinal : ∃ c seen now status,
      (s.step B G e).calls c = .computed blockHash seen now (.ok status) ∧
        status.isFinalized = true) {status : FinalityStatus F} {timestamp : ℕ}
    (hentry : (s.step B G e).verifier.finalityCache blockHash = some (status, timestamp)) :
    status.isFinalized = true := by
  obtain ⟨c, seen, now, final, hc, hfinal⟩ := hfinal
  rcases CacheSystem.of_step_computed hc with hold | ⟨hreading, -⟩
  · -- finality had been computed before, so what is inserted now must not take it back
    have hbefore : ∀ status timestamp,
        s.verifier.finalityCache blockHash = some (status, timestamp) →
          status.isFinalized = true :=
      h.kept ⟨c, seen, now, final, hold, hfinal⟩
    rcases s.step_cache B G e with hsame | ⟨c', clock, h', seen', inserted, rfl, hreading, hresult,
      -, hcache⟩
    · exact hbefore _ _ (hsame ▸ hentry)
    · rw [hcache] at hentry
      have hyoung := StatusCache.elapsed_of_insert hentry
      rcases StatusCache.insert_eq_some hentry with ⟨rfl, rfl, rfl⟩ | hentry
      · rw [h.backed.params_eq] at hresult
        obtain ⟨v', hv', hnew⟩ := h.isFinalized_of_reading hreading hresult
        obtain ⟨v, hv, hold'⟩ := h.isFinalized_eq hold
        by_contra hnot
        have hbelow : v'.client.info.finalizedNumber < n := by
          rw [hnew, decide_eq_true_eq] at hnot
          omega
        have habove : v.client.info.finalizedNumber < n :=
          horder seen' v' hreading (readsSucceed_iff.mpr ⟨_, hresult⟩) hyoung hv' hbelow c seen now
            final v hold hv
        rw [hold', decide_eq_true_eq] at hfinal
        omega
      · exact hbefore _ _ hentry
  · obtain ⟨clock, hcache⟩ := CacheSystem.step_finished hreading hc
    rw [hcache] at hentry
    rw [StatusCache.insert_self hentry]
    exact hfinal

lemma step (h : KeepsFinal B G p blockHash n s) (hgrows : ChainGrows blockHash n s e)
    (horder : InsertsInOrder blockHash n s e) : KeepsFinal B G p blockHash n (s.step B G e) where
  backed := h.backed.step e
  client := by
    rcases s.step_client B G e with hsame | ⟨client, duration, rfl, hclient⟩
    · rw [hsame]
      exact h.client
    · rw [hclient]
      exact hgrows.2
  reads := by
    intro c v hv
    rcases s.step_seen B G e c with hsame | hread
    · exact h.reads c v (hsame ▸ hv)
    · rw [hread, List.mem_append, List.mem_singleton] at hv
      rcases hv with hv | rfl
      · exact h.reads c v hv
      · exact h.client
  kept := fun hfinal _ _ hentry => h.step_kept horder hfinal hentry

lemma run (h : KeepsFinal B G p blockHash n s)
    (hgrows : EveryStep (CacheSystem.step B G) (ChainGrows blockHash n) s events)
    (horder : EveryStep (CacheSystem.step B G) (InsertsInOrder blockHash n) s events) :
    KeepsFinal B G p blockHash n (Runs.run (CacheSystem.step B G) s events) :=
  Runs.invariant (fun _ _ h he => h.step he.1 he.2) h (hgrows.and horder)

end KeepsFinal

lemma ChainGrows.le_step (h : ChainGrows blockHash n s e) :
    s.client.info.finalizedNumber ≤ (s.step B G e).client.info.finalizedNumber := by
  rcases s.step_client B G e with hsame | ⟨client, duration, rfl, hclient⟩
  · exact le_of_eq (congrArg (fun client => client.info.finalizedNumber) hsame.symm)
  · rw [hclient]
    exact h.1

lemma finalizedNumber_of_occurs
    (hv : Occurs (CacheSystem.step B G) CacheSystem.view s events v)
    (hgrows : EveryStep (CacheSystem.step B G) (ChainGrows blockHash n) s events) :
    s.client.info.finalizedNumber ≤ v.client.info.finalizedNumber ∧
      v.client.info.finalizedNumber
        ≤ (run (CacheSystem.step B G) s events).client.info.finalizedNumber :=
  hv.le_end (g := fun v => v.client.info.finalizedNumber)
    (m := fun s => s.client.info.finalizedNumber) (fun _ => rfl)
    (fun _ _ he => ChainGrows.le_step he) hgrows

lemma finalizedNumber_of_read (hbefore : (s.calls c).seen.length ≤ 1)
    (hv : ((run (CacheSystem.step B G) s events).calls c).seen[1]? = some v)
    (hgrows : EveryStep (CacheSystem.step B G) (ChainGrows blockHash n) s events) :
    s.client.info.finalizedNumber ≤ v.client.info.finalizedNumber ∧
      v.client.info.finalizedNumber
        ≤ (run (CacheSystem.step B G) s events).client.info.finalizedNumber :=
  finalizedNumber_of_occurs (seen_since s events c 1 hbefore hv) hgrows

lemma isFinalized_of_served {after : List (CacheEvent Id)} (h : KeepsFinal B G p blockHash n s)
    (hgrows : EveryStep (CacheSystem.step B G) (ChainGrows blockHash n) s after)
    (horder : EveryStep (CacheSystem.step B G) (InsertsInOrder blockHash n) s after)
    (hfinal : ∃ c seen now status, s.calls c = .computed blockHash seen now (.ok status) ∧
      status.isFinalized = true)
    (hidle : s.calls c = .idle)
    (hserved : (run (CacheSystem.step B G) s after).calls c = .served blockHash now status) :
    status.isFinalized = true := by
  induction after using List.reverseRecOn with
  | nil =>
    rw [Runs.run_nil, hidle] at hserved
    cases hserved
  | append_singleton after e ih =>
    obtain ⟨hgrows, -⟩ := Runs.everyStep_append.mp hgrows
    obtain ⟨horder, -⟩ := Runs.everyStep_append.mp horder
    rw [Runs.run_concat] at hserved
    rcases CacheSystem.of_step_served hserved with hold | ⟨-, -, hlookup⟩
    · exact ih hgrows horder hold
    · obtain ⟨timestamp, hentry, -⟩ := StatusCache.lookup_eq_some_iff.mp hlookup
      obtain ⟨c', seen, now', final, hc', hfinal⟩ := hfinal
      exact (h.run hgrows horder).kept
        ⟨c', seen, now', final, CacheSystem.run_computed hc' after, hfinal⟩ _ _ hentry

lemma isFinalized_of_computed {after : List (CacheEvent Id)} (h : KeepsFinal B G p blockHash n s)
    (hgrows : EveryStep (CacheSystem.step B G) (ChainGrows blockHash n) s after)
    (horder : EveryStep (CacheSystem.step B G) (InsertsInOrder blockHash n) s after)
    (hreached : n ≤ s.client.info.finalizedNumber) (hidle : s.calls c = .idle)
    (hcomputed : (run (CacheSystem.step B G) s after).calls c
      = .computed blockHash seen now (.ok status)) :
    status.isFinalized = true := by
  obtain ⟨v, hv, hstatus⟩ := (h.run hgrows horder).isFinalized_eq hcomputed
  have hunread : (s.calls c).seen.length ≤ 1 := by
    rw [hidle]
    exact Nat.zero_le 1
  have hread : ((run (CacheSystem.step B G) s after).calls c).seen[1]? = some v := by
    rw [hcomputed]
    exact hv
  have hlater := (finalizedNumber_of_read hunread hread hgrows).1
  rw [hstatus, decide_eq_true_eq]
  exact hreached.trans hlater

/-- **Finality is not taken back** by a client whose chain grows, in every run in which no call
inserts a status that it computed below the block after one computed at or above it has been
inserted. -/
theorem staysFinal_of_insertsInOrder {client : Client} {voterSet : VoterSet Id}
    {chainConfig : ChainConfig} (hnumbered : HeaderNumbered blockHash n client)
    (hgrows : EveryStep (CacheSystem.step B G) (ChainGrows blockHash n)
      (.start client voterSet p chainConfig now) events)
    (horder : EveryStep (CacheSystem.step B G) (InsertsInOrder blockHash n)
      (.start client voterSet p chainConfig now) events) :
    StaysFinal B G blockHash (.start client voterSet p chainConfig now) events := by
  have hstart : KeepsFinal B G p blockHash n (.start client voterSet p chainConfig now) :=
    KeepsFinal.start hnumbered voterSet chainConfig
  rintro before after rfl ⟨c₀, final, hreturned, hfinal⟩ c status hidle hlater
  obtain ⟨hgrows₁, hgrows₂⟩ := Runs.everyStep_append.mp hgrows
  obtain ⟨horder₁, horder₂⟩ := Runs.everyStep_append.mp horder
  have hkeeps := hstart.run hgrows₁ horder₁
  obtain ⟨c₁, seen₁, now₁, hc₁⟩ := hkeeps.backed.of_returned hreturned
  rw [Runs.run_append] at hlater
  rcases hphase : (run (CacheSystem.step B G) (run (CacheSystem.step B G)
    (.start client voterSet p chainConfig now) before) after).calls c with
    _ | _ | ⟨b, now', st⟩ | ⟨b, seen, now', e | st⟩
  all_goals rw [hphase] at hlater
  all_goals cases hlater
  · exact isFinalized_of_served hkeeps hgrows₂ horder₂ ⟨c₁, seen₁, now₁, final, hc₁, hfinal⟩
      hidle hphase
  · -- by the time of the new call the chain has finalized the block
    have hreached : n ≤ (run (CacheSystem.step B G) (.start client voterSet p chainConfig now)
        before).client.info.finalizedNumber := by
      obtain ⟨v₁, hv₁, hfinal₁⟩ := hkeeps.isFinalized_eq hc₁
      have hseen₁ : ((run (CacheSystem.step B G) (.start client voterSet p chainConfig now)
          before).calls c₁).seen[1]? = some v₁ := by
        rw [hc₁]
        exact hv₁
      have hunread : ((CacheSystem.start client voterSet p chainConfig now).calls c₁).seen.length
          ≤ 1 := Nat.zero_le 1
      rw [hfinal₁, decide_eq_true_eq] at hfinal
      exact hfinal.trans (finalizedNumber_of_read hunread hseen₁ hgrows₁).2
    exact isFinalized_of_computed hkeeps hgrows₂ horder₂ hreached hidle hphase

/-- An insertion out of order takes finality back: whoever calls next is told that the block is not
finalized, though somebody has been told that it is. -/
lemma takesBack_of_not_insertsInOrder {s₀ : CacheSystem Id F} {clock : H256 → ℕ} {c' : ℕ}
    (h : KeepsFinal B G p blockHash n (run (CacheSystem.step B G) s₀ events))
    (hviolated : ¬ InsertsInOrder blockHash n (run (CacheSystem.step B G) s₀ events)
      (.insert c clock))
    (hidle : (run (CacheSystem.step B G) s₀ events).calls c' = .idle) :
    ¬ StaysFinal B G blockHash s₀ (events ++ [.insert c clock, .call c' blockHash]) := by
  unfold InsertsInOrder at hviolated
  push Not at hviolated
  obtain ⟨seen, v, hreading, hreads, hclock, hv, hbelow, c₁, seen₁, now₁, final, v₁, hc₁, hv₁,
    habove⟩ := hviolated
  obtain ⟨status, hstatus⟩ := (readsSucceed_iff (B := B) (G := G) (p := p)).mp hreads
  have hfinal : final.isFinalized = true := by
    obtain ⟨v₁', hv₁', hfinal⟩ := h.isFinalized_eq hc₁
    obtain rfl := Option.some.inj (hv₁.symm.trans hv₁')
    rw [hfinal, decide_eq_true_eq]
    exact habove
  have hstale : ¬ status.isFinalized = true := by
    obtain ⟨v', hv', hfinal⟩ := h.isFinalized_of_reading hreading hstatus
    obtain rfl := Option.some.inj (hv.symm.trans hv')
    rw [hfinal, decide_eq_true_eq]
    omega
  generalize hs : run (CacheSystem.step B G) s₀ events = s at *
  intro hstays
  have hne : c' ≠ c := by
    rintro rfl
    rw [hidle] at hreading
    cases hreading
  refine hstale (hstays events _ rfl ⟨c₁, final, ?_, hfinal⟩ c' status ?_ ?_)
  · rw [hs, hc₁]
    rfl
  · rw [hs, hidle]
  · -- the call finds what has just been inserted
    have hfound : StatusCache.lookup (StatusCache.insert s.verifier.finalityCache s.now clock
        blockHash status) s.now blockHash = some status :=
      StatusCache.lookup_insert_self hclock
    rw [Runs.run_append, hs, Runs.run_cons, Runs.run_cons, Runs.run_nil]
    simp [CacheSystem.step, hreading, h.backed.params_eq, hstatus, CacheSystem.setCall,
      CacheSystem.setVerifier, hne, hidle, hfound, CallPhase.returned]

lemma exists_idle (client : Client) (voterSet : VoterSet Id) (p : GrandpaVerificationParams F)
    (chainConfig : ChainConfig) (now : ℕ) (events : List (CacheEvent Id)) :
    ∃ c, (run (CacheSystem.step B G) (.start client voterSet p chainConfig now) events).calls c
      = .idle := by
  have hstep : ∀ (s : CacheSystem Id F) (e : CacheEvent Id),
      (∃ m, ∀ c, m ≤ c → s.calls c = .idle) → ∃ m, ∀ c, m ≤ c → (s.step B G e).calls c = .idle := by
    rintro s e ⟨m, hm⟩
    have hset : ∀ c₀ phase, ∃ m, ∀ c, m ≤ c → (s.setCall c₀ phase).calls c = .idle := by
      intro c₀ phase
      refine ⟨max m (c₀ + 1), fun c hc => ?_⟩
      rw [CacheSystem.setCall_calls_of_ne (by omega)]
      exact hm c (by omega)
    have hmove := CacheSystem.step_move B G s e
    generalize s.step B G e = s' at hmove
    cases hmove with
    | stay => exact ⟨m, hm⟩
    | pass => exact ⟨m, hm⟩
    | install => exact ⟨m, hm⟩
    | _ => exact hset _ _
  have hstart : ∃ m, ∀ c, m ≤ c →
      (CacheSystem.start client voterSet p chainConfig now : CacheSystem Id F).calls c = .idle :=
    ⟨0, fun _ _ => rfl⟩
  obtain ⟨m, hm⟩ := Runs.invariant_of_forall hstep hstart events
  exact ⟨m, hm m le_rfl⟩

lemma idle_of_step (h : (s.step B G e).calls c = .idle) : s.calls c = .idle := by
  have hmoves := CacheSystem.step_moves B G s e c
  rw [h] at hmoves
  generalize s.calls c = phase at hmoves
  cases hmoves
  rfl

/-- **The condition is exact.**  The insertions of a run are in order exactly when at no moment of
it a call made at once would be told otherwise than an earlier one. -/
theorem insertsInOrder_iff_probed {client : Client} {voterSet : VoterSet Id}
    {chainConfig : ChainConfig} (hnumbered : HeaderNumbered blockHash n client)
    (hgrows : EveryStep (CacheSystem.step B G) (ChainGrows blockHash n)
      (.start client voterSet p chainConfig now) events) :
    EveryStep (CacheSystem.step B G) (InsertsInOrder blockHash n)
        (.start client voterSet p chainConfig now) events ↔
      ∀ before after, events = before ++ after → ∀ c,
        (run (CacheSystem.step B G) (.start client voterSet p chainConfig now) before).calls c
          = .idle →
        StaysFinal B G blockHash (.start client voterSet p chainConfig now)
          (before ++ [.call c blockHash]) := by
  constructor
  · rintro horder before after rfl c -
    obtain ⟨hgrows, -⟩ := Runs.everyStep_append.mp hgrows
    obtain ⟨horder, -⟩ := Runs.everyStep_append.mp horder
    exact staysFinal_of_insertsInOrder hnumbered
      (Runs.everyStep_append.mpr ⟨hgrows, trivial, trivial⟩)
      (Runs.everyStep_append.mpr ⟨horder, trivial, trivial⟩)
  · intro hprobed
    induction events using List.reverseRecOn with
    | nil => trivial
    | append_singleton events e ih =>
      obtain ⟨hbefore, -⟩ := Runs.everyStep_append.mp hgrows
      have horder := ih hbefore fun before after hsplit =>
        hprobed before (after ++ [e]) (by rw [hsplit, List.append_assoc])
      refine Runs.everyStep_append.mpr ⟨horder, ?_, trivial⟩
      by_contra hviolated
      cases e with
      | insert c clock =>
        obtain ⟨c', hidle⟩ := exists_idle (B := B) (G := G) client voterSet p chainConfig now
          (events ++ [.insert c clock])
        have hstays := hprobed _ [] (List.append_nil _).symm c' hidle
        rw [Runs.run_concat] at hidle
        rw [List.append_assoc] at hstays
        have hkeeps := (KeepsFinal.start hnumbered voterSet chainConfig).run hbefore horder
        exact takesBack_of_not_insertsInOrder hkeeps hviolated (idle_of_step hidle) hstays
      | _ => exact hviolated trivial

end Finality

/-! ### A slow call -/

/-- A client that knows every block as block `1`, with the given finalized number. -/
def growingClient (finalizedNumber : ℕ) : Client where
  header h := .ok (some ⟨h, .zero, 1⟩)
  info := ⟨.zero, 2, .zero, finalizedNumber⟩
  justifications _ := .ok none

lemma growingClient_numbered (blockHash : H256) (finalizedNumber : ℕ) :
    HeaderNumbered blockHash 1 (growingClient finalizedNumber) := by
  rintro header ⟨⟩
  rfl

/-- The client before anything is finalized, and nobody has called. -/
def unfinalizedStart : CacheSystem ℕ ℚ :=
  .start (growingClient 0) (soleVoter 0) .default .default 0

/-- Call `0` reads before the block is finalized, call `1` afterwards, and returns first. -/
def overtakingEvents : List (CacheEvent ℕ) :=
  [.call 0 .zero, .read 0, .read 0, .read 0, .read 0, .pass (growingClient 1) 1] ++
    callEvents 1 .zero fun _ => 1

/-- Then call `0` inserts what it has read, and call `2` is made. -/
def lateEvents : List (CacheEvent ℕ) := [.insert 0 fun _ => 1, .call 2 .zero]

/-- **A slow call takes finality back.**  Call `1` has returned that the block is finalized when
call `2` is made, which is told that it is not. -/
theorem slow_call_takes_back :
    HeaderNumbered .zero 1 unfinalizedStart.client ∧
      EveryStep (CacheSystem.step .u32 plainGrandpa) (ChainGrows .zero 1) unfinalizedStart
        (overtakingEvents ++ lateEvents) ∧
      (∃ status, ((run (CacheSystem.step .u32 plainGrandpa) unfinalizedStart
          overtakingEvents).calls 1).returned = some (.zero, status) ∧ status.isFinalized = true) ∧
      (∃ status, ((run (CacheSystem.step .u32 plainGrandpa) unfinalizedStart
          (overtakingEvents ++ lateEvents)).calls 2).returned = some (.zero, status) ∧
        status.isFinalized = false) ∧
      ¬ StaysFinal .u32 plainGrandpa .zero unfinalizedStart (overtakingEvents ++ lateEvents) := by
  have hearly : ∃ status, ((run (CacheSystem.step .u32 plainGrandpa) unfinalizedStart
      overtakingEvents).calls 1).returned = some (.zero, status) ∧ status.isFinalized = true :=
    ⟨_, rfl, rfl⟩
  have hlate : ∃ status, ((run (CacheSystem.step .u32 plainGrandpa) unfinalizedStart
      (overtakingEvents ++ lateEvents)).calls 2).returned = some (.zero, status) ∧
        status.isFinalized = false :=
    ⟨_, rfl, rfl⟩
  refine ⟨growingClient_numbered _ _, ?_, hearly, hlate, ?_⟩
  · simp only [overtakingEvents, lateEvents, callEvents, List.cons_append, List.nil_append,
      EveryStep, ChainGrows, true_and, and_true]
    exact ⟨Nat.zero_le 1, growingClient_numbered _ _⟩
  · intro h
    obtain ⟨first, hfirst⟩ := hearly
    obtain ⟨status, hreturned, hfalse⟩ := hlate
    have htrue := h overtakingEvents lateEvents rfl ⟨1, first, hfirst⟩ 2 status rfl hreturned
    rw [hfalse] at htrue
    cases htrue

/-- A call before the block is finalized, one six seconds later, and one that finds its status in
the cache. -/
def promptEvents : List (CacheEvent ℕ) :=
  callEvents 0 .zero (fun _ => 0) ++ [.pass (growingClient 1) (durationFromSecs 6)] ++
    callEvents 1 .zero (fun _ => durationFromSecs 6) ++ [.call 2 .zero]

lemma promptEvents_grow : EveryStep (CacheSystem.step .u32 plainGrandpa) (ChainGrows .zero 1)
    unfinalizedStart promptEvents := by
  simp only [promptEvents, callEvents, List.cons_append, List.nil_append, EveryStep, ChainGrows,
    true_and, and_true]
  exact ⟨Nat.zero_le 1, growingClient_numbered _ _⟩

lemma promptEvents_inOrder : EveryStep (CacheSystem.step .u32 plainGrandpa)
    (InsertsInOrder .zero 1) unfinalizedStart promptEvents := by
  simp only [promptEvents, callEvents, List.cons_append, List.nil_append, EveryStep, InsertsInOrder,
    true_and, and_true]
  constructor
  · -- nobody has returned anything yet
    intro seen v _ _ _ _ _ c' seen' now status v' hc'
    cases c' with
    | zero => cases hc'
    | succ c' => cases hc'
  · -- the second call has read the new finalized number
    intro seen v hphase _ _ hv hbelow
    obtain rfl := (CallPhase.reading.inj hphase).2
    obtain rfl := Option.some.inj hv
    exact absurd hbelow (Nat.lt_irrefl 1)

/-- The statement for this run. -/
theorem staysFinal_of_insertsInOrder_prompt :
    StaysFinal .u32 plainGrandpa .zero unfinalizedStart promptEvents :=
  staysFinal_of_insertsInOrder (growingClient_numbered _ _) promptEvents_grow promptEvents_inOrder

end FrostSubstrate
