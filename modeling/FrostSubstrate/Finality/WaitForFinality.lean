/-
`wait_for_finality`: asking `is_final` until it says yes.

The loop is a poll of the library (`waitLoop_eq_poll`) whose answers are those of `is_final` and
whose limit is the evaluation timeout.  It sleeps two seconds between two calls, so it ends, and
how it ends tells what its last call has returned (`waitForFinality_truthful`).
-/
import FrostSubstrate.Finality.Verdict
import FrostSubstrate.Finality.StatusCache
import FrostSubstrate.Lib.Polling

namespace FrostSubstrate

open Polling (poll EndsWith)

/-- What `wait_for_finality` returns, with the number of calls of `is_final` it has made. -/
structure Waited where
  result : Except FinalityError Unit
  checks : ℕ

/-- The loop of `wait_for_finality`.  `answers i` is what the `i`-th call returns; `now 0` is the
time of the start and `now (i + 1)` that of the look at the clock after the `i`-th call. -/
def waitLoop (blockRef : BlockRef) (evaluationTimeout : ℕ) (answers : ℕ → Except FinalityError Bool)
    (now : ℕ → ℕ) : ℕ → ℕ → ℕ → Option Waited
  | 0, _, _ => none
  | fuel + 1, i, retryCount =>
    match answers i with
    | .error err => some ⟨.error err, i + 1⟩
    | .ok true => some ⟨.ok (), i + 1⟩
    | .ok false =>
      if elapsed (now (i + 1)) (now 0) > durationFromSecs evaluationTimeout then
        some ⟨.error (.timeout blockRef evaluationTimeout retryCount), i + 1⟩
      else waitLoop blockRef evaluationTimeout answers now fuel (i + 1) (retryCount + 1)

/-- `GrandpaFinality::wait_for_finality`, the `i`-th call of `is_final` asking `clients i`. -/
def waitForFinality {F : Type} [F64 F] (config : PredicateConfig F)
    (clients : ℕ → FinalityVerificationClient F) (now : ℕ → ℕ) (blockRef : BlockRef)
    (fuel : ℕ) : Option Waited :=
  waitLoop blockRef config.evaluationTimeout (fun i => isFinal config (clients i) blockRef) now
    fuel 0 0

/-- The clock never goes back, and two seconds pass while the loop sleeps. -/
structure Sleeps (now : ℕ → ℕ) : Prop where
  start_le : now 0 ≤ now 1
  sleep_le : ∀ i, now (i + 1) + durationFromSecs 2 ≤ now (i + 2)

/-- The error is a timeout. -/
def IsTimeout : FinalityError → Prop
  | .timeout _ _ _ => True
  | _ => False

/-- The wait ends in time and tells the truth about its last call. -/
structure EndsTruthfully (blockRef : BlockRef) (evaluationTimeout : ℕ)
    (answers : ℕ → Except FinalityError Bool) (now : ℕ → ℕ) (w : Waited) : Prop where
  checks_pos : 0 < w.checks
  checks_le : w.checks ≤ evaluationTimeout / 2 + 2
  earlier : ∀ i, i + 1 < w.checks → answers i = .ok false
  ok_iff : w.result = .ok () ↔ answers (w.checks - 1) = .ok true
  error_iff : ∀ err, ¬ IsTimeout err →
    (w.result = .error err ↔ answers (w.checks - 1) = .error err)
  timeout_iff : ∀ r timeoutSecs retryCount, w.result = .error (.timeout r timeoutSecs retryCount) ↔
    answers (w.checks - 1) = .ok false ∧
      elapsed (now w.checks) (now 0) > durationFromSecs evaluationTimeout ∧
      r = blockRef ∧ timeoutSecs = evaluationTimeout ∧ retryCount = w.checks - 1

section Wait

variable {blockRef : BlockRef} {evaluationTimeout fuel i : ℕ}
  {answers : ℕ → Except FinalityError Bool} {now : ℕ → ℕ} {ending : Polling.Ending FinalityError}

/-- What the loop returns at the end of a poll. -/
def waited (blockRef : BlockRef) (evaluationTimeout : ℕ) (ending : Polling.Ending FinalityError) :
    Waited where
  result :=
    match ending.exit with
    | .held => .ok ()
    | .failed err => .error err
    | .expired => .error (.timeout blockRef evaluationTimeout (ending.checks - 1))
  checks := ending.checks

/-- Whether it is too late after the `i`-th call. -/
def tooLate (evaluationTimeout : ℕ) (now : ℕ → ℕ) (i : ℕ) : Bool :=
  decide (durationFromSecs evaluationTimeout < elapsed (now (i + 1)) (now 0))

/-- **The loop polls.**  Its retry count is the number of calls it has made. -/
theorem waitLoop_eq_poll (fuel i : ℕ) :
    waitLoop blockRef evaluationTimeout answers now fuel i i
      = (poll answers (tooLate evaluationTimeout now) fuel i).map
          (waited blockRef evaluationTimeout) := by
  induction fuel generalizing i with
  | zero => rfl
  | succ fuel ih =>
    unfold waitLoop poll
    rcases answers i with err | _ | _
    · rfl
    · simp only [tooLate, decide_eq_true_eq, gt_iff_lt]
      by_cases hlate : durationFromSecs evaluationTimeout < elapsed (now (i + 1)) (now 0)
      · rw [if_pos hlate, if_pos hlate]
        rfl
      · rw [if_neg hlate, if_neg hlate, ih]
    · rfl

lemma exists_poll_of_sleeps (hsleeps : Sleeps now) :
    ∃ ending, poll answers (tooLate evaluationTimeout now) (evaluationTimeout / 2 + 2) 0
      = some ending := by
  have hdiv : durationFromSecs evaluationTimeout / durationFromSecs 2 = evaluationTimeout / 2 := by
    unfold durationFromSecs
    exact Nat.mul_div_mul_right evaluationTimeout 2 (by norm_num)
  rw [← hdiv]
  have hpos : 0 < durationFromSecs 2 := by norm_num [durationFromSecs]
  exact Polling.exists_poll_of_period (fun i => now (i + 1)) hsleeps.start_le hsleeps.sleep_le
    hpos fun i => rfl

section LastAnswer

variable {n : ℕ} {exit : Polling.Exit FinalityError}

lemma waited_ok_iff (hends : EndsWith answers (tooLate evaluationTimeout now) n exit) :
    (waited blockRef evaluationTimeout ⟨exit, n + 1⟩).result = .ok () ↔
      answers n = .ok true := by
  cases hends with
  | held h => simp [waited, h]
  | failed err h => simp [waited, h]
  | expired h => simp [waited, h]

lemma waited_error_iff (hends : EndsWith answers (tooLate evaluationTimeout now) n exit)
    {err : FinalityError} (hother : ¬ IsTimeout err) :
    (waited blockRef evaluationTimeout ⟨exit, n + 1⟩).result = .error err ↔
      answers n = .error err := by
  cases hends with
  | held h => simp [waited, h]
  | failed err' h => simp [waited, h]
  | expired h =>
    have hne : FinalityError.timeout blockRef evaluationTimeout n ≠ err := by
      rintro rfl
      exact hother trivial
    simp [waited, h, hne]

lemma waited_timeout_iff (hnever : ∀ i err, answers i = .error err → ¬ IsTimeout err)
    (hends : EndsWith answers (tooLate evaluationTimeout now) n exit)
    {r : BlockRef} {timeoutSecs retryCount : ℕ} :
    (waited blockRef evaluationTimeout ⟨exit, n + 1⟩).result
        = .error (.timeout r timeoutSecs retryCount) ↔
      answers n = .ok false ∧
        elapsed (now (n + 1)) (now 0) > durationFromSecs evaluationTimeout ∧
        r = blockRef ∧ timeoutSecs = evaluationTimeout ∧ retryCount = n := by
  cases hends with
  | held h => simp [waited, h]
  | failed err h =>
    have hne : err ≠ .timeout r timeoutSecs retryCount := by
      rintro rfl
      exact hnever n _ h trivial
    simp [waited, h, hne]
  | expired h hlate =>
    have hpassed : elapsed (now (n + 1)) (now 0) > durationFromSecs evaluationTimeout :=
      of_decide_eq_true hlate
    simp [waited, h, hpassed, eq_comm]

end LastAnswer

lemma endsTruthfully_waited (hnever : ∀ i err, answers i = .error err → ¬ IsTimeout err)
    (h : poll answers (tooLate evaluationTimeout now) (evaluationTimeout / 2 + 2) 0
      = some ending) :
    EndsTruthfully blockRef evaluationTimeout answers now
      (waited blockRef evaluationTimeout ending) := by
  obtain ⟨n, -, hn, hbefore, hends, hchecks⟩ := Polling.poll_eq_some_iff.mp h
  obtain ⟨exit, checks⟩ := ending
  obtain rfl : checks = n + 1 := hchecks
  refine ⟨Nat.succ_pos n, ?_, ?_, waited_ok_iff hends, fun _ => waited_error_iff hends,
    fun _ _ _ => waited_timeout_iff hnever hends⟩
  · show n + 1 ≤ evaluationTimeout / 2 + 2
    omega
  · intro i hi
    have hin : i < n := Nat.lt_of_succ_lt_succ hi
    exact (hbefore i (Nat.zero_le i) hin).1

end Wait

lemma not_isTimeout_of_isFinal {F : Type} [F64 F] {config : PredicateConfig F}
    {client : FinalityVerificationClient F} {blockRef : BlockRef} :
    ∀ err, isFinal config client blockRef = .error err → ¬ IsTimeout err := by
  unfold isFinal
  refine forall_error_bind (forall_error_mapError fun _ => id) fun exist => ?_
  cases exist with
  | false =>
    rintro _ ⟨⟩
    exact id
  | true =>
    refine forall_error_bind (forall_error_mapError fun _ => id) fun confidence => ?_
    by_cases hlt : confidence < config.confidenceThreshold
    · simp only [if_pos hlt]
      rintro _ ⟨⟩
    · simp only [if_neg hlt]
      exact forall_error_mapError fun _ => id

/-- **Waiting for finality.**  Whatever `is_final` finds from call to call, the wait ends within
half the timeout in seconds plus two calls, with one result for every sufficient fuel, and the
result says what the last call has returned. -/
theorem waitForFinality_truthful {F : Type} [F64 F] (config : PredicateConfig F)
    (clients : ℕ → FinalityVerificationClient F) (now : ℕ → ℕ) (hsleeps : Sleeps now)
    (blockRef : BlockRef) :
    ∃ w, (∀ fuel, config.evaluationTimeout / 2 + 2 ≤ fuel →
        waitForFinality config clients now blockRef fuel = some w) ∧
      EndsTruthfully blockRef config.evaluationTimeout
        (fun i => isFinal config (clients i) blockRef) now w := by
  obtain ⟨ending, hending⟩ : ∃ ending, poll (fun i => isFinal config (clients i) blockRef)
      (tooLate config.evaluationTimeout now) (config.evaluationTimeout / 2 + 2) 0 = some ending :=
    exists_poll_of_sleeps hsleeps
  refine ⟨waited blockRef config.evaluationTimeout ending, ?_, ?_⟩
  · intro fuel hfuel
    rw [waitForFinality, waitLoop_eq_poll, Polling.poll_of_le hfuel hending]
    rfl
  · exact endsTruthfully_waited (fun _ => not_isTimeout_of_isFinal) hending

/-! ### A block that is never final -/

/-- A client that knows every block and has no confidence in any. -/
def doubtfulClient : FinalityVerificationClient ℚ where
  verifyBlockHash _ := .ok true
  getFinalityConfidence _ := .ok 0
  verifyChainRules _ _ := .ok true

/-- A configuration that gives up after three seconds. -/
def impatientConfig : PredicateConfig ℚ := ⟨2, 1, 3⟩

/-- A clock that is looked at every two seconds. -/
def everyTwoSeconds (i : ℕ) : ℕ := durationFromSecs (2 * i)

lemma sleeps_everyTwoSeconds : Sleeps everyTwoSeconds where
  start_le := Nat.zero_le _
  sleep_le i := by
    unfold everyTwoSeconds durationFromSecs
    omega

theorem waitForFinality_doubtful :
    Sleeps everyTwoSeconds ∧
      ∃ w, (∀ fuel, 3 ≤ fuel → waitForFinality impatientConfig (fun _ => doubtfulClient)
          everyTwoSeconds ⟨⟨"polkadot"⟩, 7, H256.zero⟩ fuel = some w) ∧
        EndsTruthfully ⟨⟨"polkadot"⟩, 7, H256.zero⟩ 3
          (fun _ => isFinal impatientConfig doubtfulClient ⟨⟨"polkadot"⟩, 7, H256.zero⟩)
          everyTwoSeconds w :=
  ⟨sleeps_everyTwoSeconds,
    waitForFinality_truthful impatientConfig (fun _ => doubtfulClient) everyTwoSeconds
      sleeps_everyTwoSeconds ⟨⟨"polkadot"⟩, 7, H256.zero⟩⟩

end FrostSubstrate
