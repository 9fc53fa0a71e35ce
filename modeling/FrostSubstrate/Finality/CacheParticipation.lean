/-
Participation in the status cache.

The voter set and the status cache lie behind different locks, and an update of the voters
leaves the cache alone.  So the rate a call returns is one against the voters at some moment
since the call was made, or a cached one; and a cached one may be against voters that have been
replaced, but then it has been inserted less than five seconds before the call.
-/
import FrostSubstrate.Finality.CacheRuns
import FrostSubstrate.Finality.Quorum

namespace FrostSubstrate

open Runs (EveryStep Occurs run)

section Participation

variable {Id Sig F : Type} [DecidableEq Id] [F64 F] (B : BlockT) (G : Grandpa Id Sig)

/-- The status is one of `get_finality_status` on reads made in the run, with the voters in use
at a moment after `before`. -/
def RateSince (p : GrandpaVerificationParams F) (blockHash : H256) (s : CacheSystem Id F)
    (before after : List (CacheEvent Id)) (status : FinalityStatus F) : Prop :=
  ∃ view : ℕ → View Id, getFinalityStatus B G p view blockHash = .ok status ∧
    (∀ i, Occurs (CacheSystem.step B G) CacheSystem.view s (before ++ after) (view i)) ∧
    Occurs (CacheSystem.step B G) CacheSystem.view (run (CacheSystem.step B G) s before) after
      (view 3)

/-- A call that was idle after `before` has returned, from the cache, the status that another call
had inserted less than five seconds before; and this other call had read the voters already. -/
def ServedRecent (blockHash : H256) (s : CacheSystem Id F) (before after : List (CacheEvent Id))
    (c : ℕ) (status : FinalityStatus F) : Prop :=
  ∃ now c' seen timestamp,
    (run (CacheSystem.step B G) s (before ++ after)).calls c = .served blockHash now status ∧
    (run (CacheSystem.step B G) s (before ++ after)).calls c'
      = .computed blockHash seen timestamp (.ok status) ∧
    elapsed now timestamp < durationFromSecs 5 ∧
    3 < ((run (CacheSystem.step B G) s before).calls c').seen.length

variable {B G} {p : GrandpaVerificationParams F} {blockHash : H256} {s : CacheSystem Id F}
  {before after : List (CacheEvent Id)} {c : ℕ} {seen : List (View Id)} {now : ℕ}
  {status : FinalityStatus F} {V : VoterSet Id}

/-- The rate of a status is that of the justification read third, against the voters read last. -/
lemma participationRate_of_getFinalityStatus {view : ℕ → View Id}
    (h : getFinalityStatus B G p view blockHash = .ok status) :
    ∃ j, (view 2).client.justifications blockHash = .ok j ∧
      status.participationRate =
        match j.bind fun j => j.intoJustification grandpaEngineId with
        | some justificationBytes => decodedRate B G p (view 3).voterSet justificationBytes
        | none => F64.lit 0 := by
  obtain ⟨header, j, -, hj, rfl⟩ := (getFinalityStatus_eq_ok_iff B G).mp h
  exact ⟨j, hj, rfl⟩

lemma client_eq_of_occurs {v : View Id}
    (hstill : EveryStep (CacheSystem.step B G)
      (fun _ e => ∀ client duration, e ≠ .pass client duration) s before)
    (hv : Occurs (CacheSystem.step B G) CacheSystem.view s before v) : v.client = s.client := by
  have hkeep : ∀ (s' : CacheSystem Id F) (e : CacheEvent Id), s'.client = s.client →
      (∀ client duration, e ≠ .pass client duration) → (s'.step B G e).client = s.client := by
    intro s' e hs' he
    rcases s'.step_client B G e with hsame | ⟨client, duration, rfl, -⟩
    · rw [hsame, hs']
    · exact absurd rfl (he client duration)
  obtain ⟨s', hs', rfl⟩ := hv.of_invariant hkeep rfl hstill
  exact hs'

/-- A call that reads the voters after a moment has computed its status with the voters since. -/
lemma rateSince_of_computed
    (hbacked : Backed B G p (run (CacheSystem.step B G) s (before ++ after)))
    (hstart : (s.calls c).seen = [])
    (hlater : ((run (CacheSystem.step B G) s before).calls c).seen.length ≤ 3)
    (hc : (run (CacheSystem.step B G) s (before ++ after)).calls c
      = .computed blockHash seen now (.ok status)) :
    RateSince B G p blockHash s before after status := by
  obtain ⟨view, hview, hstatus⟩ := statusFrom_eq_some (hbacked.computed _ _ _ _ _ hc)
  refine ⟨view, hstatus, ?_, ?_⟩
  · intro i
    refine seen_since s (before ++ after) c (min i 3) ?_ ?_
    · rw [hstart]
      exact Nat.zero_le _
    · rw [hc]
      exact hview i
  · refine seen_since _ after c 3 hlater ?_
    rw [← Runs.run_append, hc]
    exact hview 3

/-- **Participation follows the voters, five seconds late.**  Whatever a call made after a moment
of the run returns has been computed with the voters of that moment or later ones, or it is a
cached status less than five seconds old whose call had read the voters before. -/
theorem rateSince_or_servedRecent {client : Client} {voterSet : VoterSet Id}
    {chainConfig : ChainConfig} {start : ℕ}
    (hidle : (run (CacheSystem.step B G) (.start client voterSet p chainConfig start)
      before).calls c = .idle)
    (hreturned : ((run (CacheSystem.step B G) (.start client voterSet p chainConfig start)
      (before ++ after)).calls c).returned = some (blockHash, status)) :
    RateSince B G p blockHash (.start client voterSet p chainConfig start) before after status ∨
      ServedRecent B G blockHash (.start client voterSet p chainConfig start) before after c
        status := by
  have hbacked : Backed B G p (run (CacheSystem.step B G)
      (.start client voterSet p chainConfig start) (before ++ after)) :=
    (Backed.start client voterSet p chainConfig start).run _
  rcases hphase : (run (CacheSystem.step B G) (.start client voterSet p chainConfig start)
    (before ++ after)).calls c with _ | _ | ⟨b, now, st⟩ | ⟨b, seen, now, e | st⟩
  all_goals rw [hphase] at hreturned
  all_goals cases hreturned
  · obtain ⟨c', seen, timestamp, hc', hfresh⟩ := hbacked.served _ _ _ _ hphase
    rcases Nat.lt_or_ge 3 ((run (CacheSystem.step B G) (.start client voterSet p chainConfig start)
      before).calls c').seen.length with hearlier | hlater
    · exact Or.inr ⟨now, c', seen, timestamp, hphase, hc', hfresh, hearlier⟩
    · exact Or.inl (rateSince_of_computed hbacked rfl hlater hc')
  · refine Or.inl (rateSince_of_computed hbacked rfl ?_ hphase)
    rw [hidle]
    exact Nat.zero_le 3

end Participation

/-! ### A rate that outlives its voters -/

/-- A justification with one precommit of voter `1`. -/
def soleJustification : GrandpaJustification ℕ (ℕ × Bytes) :=
  ⟨1, .repeatByte 1, 1, [bareSigned 1 ⟨.repeatByte 1, 1⟩]⟩

/-- GRANDPA with ideal signatures, in which every justification decodes to this one. -/
def soleGrandpa : Grandpa ℕ (ℕ × Bytes) := .ideal fun _ => some soleJustification

/-- A client that has a justification for every block. -/
def justifiedClient : Client where
  header h := .ok (some ⟨h, .zero, 1⟩)
  info := ⟨.zero, 2, .zero, 1⟩
  justifications _ := .ok (some ⟨[(grandpaEngineId, [])]⟩)

/-- The client under voter `1`, and nobody has called. -/
def justifiedStart : CacheSystem ℕ ℚ := .start justifiedClient (soleVoter 1) .default .default 0

/-- A call is made under voter `1`, and the voters are replaced by voter `2`. -/
def updatedEvents : List (CacheEvent ℕ) := callEvents 0 .zero (fun _ => 0) ++ [.update [(2, 1)] 1]

lemma decodedRate_soleGrandpa (id : ℕ) (hid : id = 1 ∨ id = 2) :
    decodedRate .u32 soleGrandpa (.default : GrandpaVerificationParams ℚ) (soleVoter id) []
      = if id = 1 then 1 else 0 := by
  have hdecode : soleGrandpa.decode [] = some soleJustification := rfl
  have htotal : (soleVoter id).totalWeight = 1 := rfl
  have hsigned : signedWeight .u32 soleGrandpa (soleVoter id) soleJustification.commit.precommits
      = if id = 1 then 1 else 0 := by
    rcases hid with rfl | rfl <;> decide
  simp only [decodedRate, hdecode, verifyJustification_eq, htotal, hsigned]
  rcases hid with rfl | rfl
  · norm_num
  · norm_num

/-- **A cached rate outlives its voters.**  A call made after the update is returned the rate
against voter `1`, which is not the rate of any reading of the run against later voters. -/
theorem cached_rate_outlives_voters :
    soleGrandpa.newVoterSet [(2, 1)] = some (soleVoter 2) ∧
      (run (CacheSystem.step .u32 soleGrandpa) justifiedStart updatedEvents).verifier.voterSet
        = soleVoter 2 ∧
      (run (CacheSystem.step .u32 soleGrandpa) justifiedStart updatedEvents).calls 1 = .idle ∧
      ∃ status, ((run (CacheSystem.step .u32 soleGrandpa) justifiedStart
          (updatedEvents ++ [.call 1 .zero])).calls 1).returned = some (.zero, status) ∧
        status.participationRate = 1 ∧
        ¬ RateSince .u32 soleGrandpa .default .zero justifiedStart updatedEvents [.call 1 .zero]
          status := by
  have hrate : decodedRate .u32 soleGrandpa (.default : GrandpaVerificationParams ℚ)
      (soleVoter 1) [] = 1 := decodedRate_soleGrandpa 1 (.inl rfl)
  refine ⟨rfl, rfl, rfl, _, rfl, hrate, ?_⟩
  rintro ⟨view, hstatus, hviews, hsince⟩
  have hclient : (view 2).client = justifiedClient :=
    client_eq_of_occurs (by simp [EveryStep, updatedEvents, callEvents]) (hviews 2)
  have hvoters : (view 3).voterSet = soleVoter 2 := by
    obtain ⟨first, rest, hsplit, hv⟩ := hsince
    rw [← hv]
    rcases first with _ | ⟨e, first⟩
    · rfl
    · obtain ⟨rfl, hnil⟩ := List.cons.inj hsplit
      obtain ⟨rfl, -⟩ := List.append_eq_nil_iff.mp hnil.symm
      rfl
  obtain ⟨j, hj, hzero⟩ := participationRate_of_getFinalityStatus hstatus
  rw [hclient] at hj
  obtain rfl := Except.ok.inj hj
  rw [hvoters] at hzero
  -- against voter `2` the same justification has no weight
  have hcontra : (1 : ℚ) = 0 :=
    (hrate.symm.trans hzero).trans (decodedRate_soleGrandpa 2 (.inr rfl))
  norm_num at hcontra

/-- The statement for this call. -/
theorem rateSince_or_servedRecent_updated :
    ∃ status, ((run (CacheSystem.step .u32 soleGrandpa) justifiedStart
        (updatedEvents ++ [.call 1 .zero])).calls 1).returned = some (.zero, status) ∧
      (RateSince .u32 soleGrandpa .default .zero justifiedStart updatedEvents [.call 1 .zero]
          status ∨
        ServedRecent .u32 soleGrandpa .zero justifiedStart updatedEvents [.call 1 .zero] 1
          status) :=
  ⟨_, rfl, rateSince_or_servedRecent rfl rfl⟩

end FrostSubstrate
