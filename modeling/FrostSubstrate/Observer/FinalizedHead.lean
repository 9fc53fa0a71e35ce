/-
The handler at the finalized head.

A notification comes when its block has just been finalized, so the block has no
confirmations yet: `get_finality_status` counts them from the finalized head.  With a
configuration that asks for one, `is_final` answers no and the handler returns without
looking at the events.
-/
import FrostSubstrate.Finality.ChainSafety
import FrostSubstrate.Observer.Handler

namespace FrostSubstrate

variable {Id Sig F : Type} [DecidableEq Id] [F64 F]

/-- The notified block is the finalized head of the client, close to the best block, without a
justification or with one of enough participation. -/
structure FreshHead (G : Grandpa Id Sig) (p : GrandpaVerificationParams F) (s : ChainState)
    (V : VoterSet Id) (notification : FinalityNotification) : Prop where
  known : ∃ header, s.headers notification.hash = some header ∧
    header.number = notification.number
  head : notification.number = s.info.finalizedNumber
  near_best : s.info.bestNumber - notification.number ≤ 50
  participation : ∀ justificationBytes,
    s.grandpaJustification notification.hash = some justificationBytes →
      F64.lit 0.67 ≤ decodedRate .u32 G p V justificationBytes

variable {G : Grandpa Id Sig} {p : GrandpaVerificationParams F} {config : PredicateConfig F}
  {s : ChainState} {V : VoterSet Id} {notification : FinalityNotification}
  {defaults : FrostDefaults} {encodeProof : StateProof → Bytes} {w : Surroundings}

/-- The verdict on a fresh head: final exactly when no confirmations are asked for. -/
lemma isFinalOn_freshHead (hfresh : FreshHead G p s V notification)
    (hthreshold : config.confidenceThreshold ≤ F64.lit 1) :
    isFinalOn .u32 G p config ⟨s.client, V⟩ (notifiedRef defaults notification)
      = .ok (decide (config.minConfirmations = 0)) := by
  obtain ⟨header, hheader, hnumber⟩ := hfresh.known
  have hhead := hfresh.head
  have hsat : header.number = BlockT.u32.saturatedFrom notification.number := by
    rw [BlockT.saturatedFrom_of_le _ notification.number_le, hnumber]
  have hconf : confidenceOf p (statusOf .u32 G p s V notification.hash header) = F64.lit 1 :=
    confidenceOf_of_le (by omega)
  have hconfirmed : BlockT.u32.saturatedFrom config.minConfirmations
      ≤ s.info.finalizedNumber - header.number ↔ config.minConfirmations = 0 := by
    constructor
    · intro hle
      by_contra hne
      have := BlockT.u32.saturatedFrom_pos (Nat.pos_of_ne_zero hne)
      omega
    · intro hzero
      rw [hzero, BlockT.saturatedFrom_zero]
      exact Nat.zero_le _
  have hrules : rulesHold .u32 (grandpaRules config)
      (statusOf .u32 G p s V notification.hash header) s.info.bestNumber
        = decide (config.minConfirmations = 0) := by
    rw [Bool.eq_iff_iff, rulesHold_grandpaRules_iff, decide_eq_true_iff, hconfirmed]
    refine and_iff_left ⟨?_, fun bytes hbytes => ?_⟩
    · rw [hnumber]
      exact hfresh.near_best
    · exact F64.not_lt_of_le (hfresh.participation bytes hbytes)
  have hok : isFinalOn .u32 G p config ⟨s.client, V⟩ (notifiedRef defaults notification)
      = .ok (decide (¬ confidenceOf p (statusOf .u32 G p s V notification.hash header)
            < config.confidenceThreshold) &&
          rulesHold .u32 (grandpaRules config) (statusOf .u32 G p s V notification.hash header)
            s.info.bestNumber) :=
    isFinalOn_of_some hheader hsat
  rw [hok, hconf, hrules, decide_eq_true (F64.not_lt_of_le hthreshold), Bool.true_and]

/-- **A fresh head.**  When no confirmations are asked for, the handler evaluates the registered
targets on the finalized head, each of them unless one before it fails.  When any are asked
for, it returns `Ok(())` without evaluating one. -/
theorem freshHead_evaluated
    (hw : ∀ blockRef, w.isFinal blockRef = isFinalOn .u32 G p config ⟨s.client, V⟩ blockRef)
    (hthreshold : config.confidenceThreshold ≤ F64.lit 1)
    (hfresh : FreshHead G p s V notification) (targets : List WatchTarget) :
    (config.minConfirmations = 0 → ∀ i target, targets[i]? = some target →
      (∀ j < i, ∀ u, targets[j]? = some u →
        (fate defaults encodeProof w (notifiedRef defaults notification) j u).succeeds = true) →
      Effect.evaluated (notifiedRef defaults notification) i target ∈
        (handleFinalityNotification defaults encodeProof w targets notification).trace) ∧
    (0 < config.minConfirmations →
      handleFinalityNotification defaults encodeProof w targets notification = ⟨[], .ok ()⟩) := by
  have hverdict := (hw (notifiedRef defaults notification)).trans
    (isFinalOn_freshHead hfresh hthreshold)
  constructor
  · intro hzero i target hget hbefore
    rw [hzero] at hverdict
    refine (mem_handle_trace_iff hverdict).mpr ⟨i, target, ⟨hget, hbefore⟩, ?_⟩
    rw [handleTarget_trace]
    exact List.mem_cons_self
  · intro hpos
    rw [decide_eq_false (Nat.ne_of_gt hpos)] at hverdict
    exact handle_of_not_final hverdict

/-! ### The head of the sample tree -/

/-- The surroundings of a handler over the sample tree, with a given configuration. -/
def sampleTreeSurroundings (config : PredicateConfig ℚ) : Surroundings :=
  { rejecting [] with
    isFinal := isFinalOn .u32 plainGrandpa .default config ⟨forkTree.client, sampleVoters⟩ }

/-- Block `3`, the finalized head and the best block of the sample tree. -/
def headNotification : FinalityNotification := ⟨.repeatByte 4, 3, by decide⟩

lemma headNotification_fresh :
    FreshHead plainGrandpa (.default : GrandpaVerificationParams ℚ) forkTree.toChainState
      sampleVoters headNotification where
  known := ⟨⟨.repeatByte 4, .repeatByte 3, 3⟩, rfl, rfl⟩
  head := rfl
  near_best := by decide
  participation := by
    intro justificationBytes hj
    cases hj

/-- **A fresh head is dropped** by the configuration that asks for two confirmations. -/
theorem headNotification_dropped :
    sampleConfig.confidenceThreshold ≤ 1 ∧
      FreshHead plainGrandpa (.default : GrandpaVerificationParams ℚ) forkTree.toChainState
        sampleVoters headNotification ∧
      handleFinalityNotification zeroDefaults (fun _ => [1]) (sampleTreeSurroundings sampleConfig)
        [sampleTarget] headNotification = ⟨[], .ok ()⟩ := by
  refine ⟨by norm_num [sampleConfig], headNotification_fresh, ?_⟩
  apply handle_of_not_final
  decide +kernel

/-- The statement for a configuration that asks for none. -/
theorem freshHead_evaluated_headNotification :
    ((⟨0, 0.95, 60⟩ : PredicateConfig ℚ).minConfirmations = 0 →
      ∀ i target, [sampleTarget][i]? = some target →
        (∀ j < i, ∀ u, [sampleTarget][j]? = some u →
          (fate zeroDefaults (fun _ => [1]) (sampleTreeSurroundings ⟨0, 0.95, 60⟩)
            (notifiedRef zeroDefaults headNotification) j u).succeeds = true) →
        Effect.evaluated (notifiedRef zeroDefaults headNotification) i target ∈
          (handleFinalityNotification zeroDefaults (fun _ => [1])
            (sampleTreeSurroundings ⟨0, 0.95, 60⟩) [sampleTarget] headNotification).trace) ∧
    (0 < (⟨0, 0.95, 60⟩ : PredicateConfig ℚ).minConfirmations →
      handleFinalityNotification zeroDefaults (fun _ => [1])
        (sampleTreeSurroundings ⟨0, 0.95, 60⟩) [sampleTarget] headNotification = ⟨[], .ok ()⟩) :=
  freshHead_evaluated (fun _ => rfl) (by norm_num) headNotification_fresh [sampleTarget]

end FrostSubstrate
