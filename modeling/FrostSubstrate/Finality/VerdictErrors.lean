/-
Where the errors of `is_final` come from.

A call reads the client ten times, and each read could fail it.  Over a client that answers
without errors while its chain grows, only the first one can: the block is unknown then, or is
known under another number, and the two errors say so.  The second lasts for ever, the first until
the block arrives, and no error follows a result.  So a wait that does not fail with its first
call ends with a result or a timeout.
-/
import FrostSubstrate.Finality.Queries

namespace FrostSubstrate

open Polling (poll EndsWith)

section Errors

variable {Id Sig F : Type} [DecidableEq Id] [F64 F] {B : BlockT} {G : Grandpa Id Sig}
  {p : GrandpaVerificationParams F} {config : PredicateConfig F} {view : ℕ → View Id}
  {blockRef : BlockRef} {chain : ℕ → ChainState} {moments : ℕ → ℕ} {header : Header}

/-- The error for a block the client does not know. -/
def unknownBlock (blockRef : BlockRef) : FinalityError :=
  .chainError ("Block verification failed: " ++ ("Block not found: " ++ blockRef.hash.debug))

/-- The error for a block that has another number than the reference. -/
def otherNumber : FinalityError := .chainError "Block not found"

/-! ### The three ways a call can go -/

lemma isFinal_of_unknown (hheader : (view 0).client.header blockRef.hash = .ok none) :
    isFinal config (substrateClient B G p view) blockRef = .error (unknownBlock blockRef) := by
  have hrequire : (view 0).client.requireHeader blockRef.hash
      = .error (.blockNotFound blockRef.hash.debug) := by
    rw [Client.requireHeader, hheader]
  have hverify : verifyBlockHash B (view 0) blockRef
      = .error ⟨"Block not found: " ++ blockRef.hash.debug⟩ := by
    rw [verifyBlockHash, hrequire]
    rfl
  simp only [isFinal, substrateClient, hverify, mapError_error]
  rfl

lemma isFinal_of_other (hheader : (view 0).client.header blockRef.hash = .ok (some header))
    (hnumber : header.number ≠ B.saturatedFrom blockRef.number) :
    isFinal config (substrateClient B G p view) blockRef = .error otherNumber := by
  have hverify : verifyBlockHash B (view 0) blockRef = .ok false := by
    simp [verifyBlockHash, requireHeader_of_header hheader, hnumber]
  simp only [isFinal, substrateClient, hverify, mapError_ok, except_ok_bind]
  rfl

lemma isFinal_of_known (hheader : ∀ i, (view i).client.header blockRef.hash = .ok (some header))
    (hjustifications : ∀ i, ∃ j, (view i).client.justifications blockRef.hash = .ok j)
    (hnumber : header.number = B.saturatedFrom blockRef.number) :
    ∃ b, isFinal config (substrateClient B G p view) blockRef = .ok b := by
  have hverify : verifyBlockHash B (view 0) blockRef = .ok true :=
    verifyBlockHash_eq_true_iff.mpr ⟨header, hheader 0, hnumber⟩
  have hstatus : ∀ first, ∃ status,
      getFinalityStatus B G p (fun i => view (first + i)) blockRef.hash = .ok status := by
    intro first
    obtain ⟨j, hj⟩ := hjustifications (first + 2)
    exact ⟨_, (getFinalityStatus_eq_ok_iff B G).mpr ⟨header, j, hheader _, hj, rfl⟩⟩
  obtain ⟨status, hfirst⟩ := hstatus 1
  obtain ⟨status', hsecond⟩ := hstatus 5
  have hconfidence : getFinalityConfidence B G p (fun i => view (1 + i)) blockRef
      = .ok (confidenceOf p status) :=
    getFinalityConfidence_eq_ok_iff.mpr ⟨status, hfirst, rfl⟩
  have hrules : verifyChainRules B G p (fun i => view (5 + i)) blockRef (grandpaRules config)
      = .ok (rulesHold B (grandpaRules config) status' (view (5 + 4)).client.info.bestNumber) := by
    rw [verifyChainRules, hsecond]
    rfl
  simp only [isFinal, substrateClient, hverify, hconfidence, hrules, mapError_ok, except_ok_bind]
  by_cases hlt : confidenceOf p status < config.confidenceThreshold
  · rw [if_pos hlt]
    exact ⟨false, rfl⟩
  · rw [if_neg hlt]
    exact ⟨_, rfl⟩

/-! ### Calls along a chain -/

/-- A call whose reads see states of the chain, in their order. -/
structure ReadsChain (chain : ℕ → ChainState) (moments : ℕ → ℕ) (view : ℕ → View Id) : Prop where
  monotone : Monotone moments
  client : ∀ i, (view i).client = (chain (moments i)).client

variable (B G p config) in
/-- What a call returns is settled by its first read. -/
lemma isFinal_cases (hgrows : ChainGrowing chain) (hreads : ReadsChain chain moments view) :
    ((chain (moments 0)).headers blockRef.hash = none ∧
      isFinal config (substrateClient B G p view) blockRef = .error (unknownBlock blockRef)) ∨
    (∃ header, (chain (moments 0)).headers blockRef.hash = some header ∧
      header.number ≠ B.saturatedFrom blockRef.number ∧
      isFinal config (substrateClient B G p view) blockRef = .error otherNumber) ∨
    ∃ header, (chain (moments 0)).headers blockRef.hash = some header ∧
      header.number = B.saturatedFrom blockRef.number ∧
      ∃ b, isFinal config (substrateClient B G p view) blockRef = .ok b := by
  have hfirst : (view 0).client.header blockRef.hash
      = .ok ((chain (moments 0)).headers blockRef.hash) := by
    rw [hreads.client]
    rfl
  rcases hheader : (chain (moments 0)).headers blockRef.hash with _ | header
  · rw [hheader] at hfirst
    exact Or.inl ⟨rfl, isFinal_of_unknown hfirst⟩
  · rw [hheader] at hfirst
    by_cases hnumber : header.number = B.saturatedFrom blockRef.number
    · refine Or.inr (Or.inr ⟨header, rfl, hnumber, isFinal_of_known ?_ ?_ hnumber⟩)
      · intro i
        exact ((grows_of_moments hgrows hreads.monotone hreads.client).later
          (Nat.zero_le i)).headers _ _ hfirst
      · intro i
        rw [hreads.client]
        exact ⟨_, rfl⟩
    · exact Or.inr (Or.inl ⟨header, rfl, hnumber, isFinal_of_other hfirst hnumber⟩)

lemma unknownBlock_ne_otherNumber (blockRef : BlockRef) : unknownBlock blockRef ≠ otherNumber := by
  intro h
  have htext := FinalityError.chainError.inj h
  have hlength := congrArg String.length htext
  rw [String.length_append] at hlength
  have hleft : "Block verification failed: ".length = 27 := by decide
  have hright : "Block not found".length = 15 := by decide
  omega

lemma isFinal_eq_error_iff (hgrows : ChainGrowing chain) (hreads : ReadsChain chain moments view)
    {e : FinalityError} :
    isFinal config (substrateClient B G p view) blockRef = .error e ↔
      (chain (moments 0)).headers blockRef.hash = none ∧ e = unknownBlock blockRef ∨
      (∃ header, (chain (moments 0)).headers blockRef.hash = some header ∧
        header.number ≠ B.saturatedFrom blockRef.number) ∧ e = otherNumber := by
  rcases isFinal_cases B G p config hgrows hreads with
    ⟨hnone, hcall⟩ | ⟨header, hheader, hnumber, hcall⟩ | ⟨header, hheader, hnumber, b, hcall⟩
  · rw [hcall, hnone]
    simp [eq_comm]
  · rw [hcall, hheader]
    simp [hnumber, eq_comm]
  · rw [hcall, hheader]
    simp [hnumber]

/-! ### The life of an error -/

variable {moments' : ℕ → ℕ} {view' : ℕ → View Id} {config' : PredicateConfig F}
  {p' : GrandpaVerificationParams F}

lemma otherNumber_later (hgrows : ChainGrowing chain) (hreads : ReadsChain chain moments view)
    (hreads' : ReadsChain chain moments' view') (hlater : moments 0 ≤ moments' 0)
    (h : isFinal config (substrateClient B G p view) blockRef = .error otherNumber) :
    isFinal config' (substrateClient B G p' view') blockRef = .error otherNumber := by
  rcases (isFinal_eq_error_iff hgrows hreads).mp h with ⟨-, heq⟩ | ⟨⟨header, hheader, hnumber⟩, -⟩
  · exact absurd heq.symm (unknownBlock_ne_otherNumber blockRef)
  · exact (isFinal_eq_error_iff hgrows hreads').mpr
      (Or.inr ⟨⟨header, (hgrows.later hlater).headers _ _ hheader, hnumber⟩, rfl⟩)

lemma isOk_of_isOk_earlier (hgrows : ChainGrowing chain) (hreads : ReadsChain chain moments view)
    (hreads' : ReadsChain chain moments' view') (hlater : moments 0 ≤ moments' 0)
    (h : ∃ b, isFinal config (substrateClient B G p view) blockRef = .ok b) :
    ∃ b, isFinal config' (substrateClient B G p' view') blockRef = .ok b := by
  obtain ⟨b, hb⟩ := h
  rcases isFinal_cases B G p config hgrows hreads with
    ⟨-, hcall⟩ | ⟨header, -, -, hcall⟩ | ⟨header, hheader, hnumber, -⟩
  · rw [hcall] at hb
    cases hb
  · rw [hcall] at hb
    cases hb
  · have hheader' := (hgrows.later hlater).headers _ _ hheader
    rcases isFinal_cases B G p' config' hgrows hreads' with
      ⟨hnone, -⟩ | ⟨other, hother, hne, -⟩ | ⟨-, -, -, hok⟩
    · rw [hnone] at hheader'
      cases hheader'
    · obtain rfl : other = header := Option.some.inj (hother.symm.trans hheader')
      exact absurd hnumber hne
    · exact hok

end Errors

/-- A wait whose answers are results once the first one is fails with its first answer or not at
all. -/
lemma waitLoop_error_iff {answers : ℕ → Except FinalityError Bool} {evaluationTimeout : ℕ}
    {now : ℕ → ℕ} {blockRef : BlockRef} (hsleeps : Sleeps now)
    (hok : ∀ b, answers 0 = .ok b → ∀ c, ∃ b, answers c = .ok b) :
    ∃ w, (∀ fuel, evaluationTimeout / 2 + 2 ≤ fuel →
        waitLoop blockRef evaluationTimeout answers now fuel 0 0 = some w) ∧
      (∀ err, ¬ IsTimeout err → (w.result = .error err ↔ answers 0 = .error err)) ∧
      ∀ err, answers 0 = .error err → w.checks = 1 := by
  obtain ⟨⟨exit, checks⟩, hending⟩ : ∃ ending, poll answers (tooLate evaluationTimeout now)
      (evaluationTimeout / 2 + 2) 0 = some ending := exists_poll_of_sleeps hsleeps
  obtain ⟨n, -, -, hbefore, hends, hchecks⟩ := Polling.poll_eq_some_iff.mp hending
  obtain rfl : checks = n + 1 := hchecks
  -- the wait has gone on after every answer but the last one
  have hfirst : ∀ err, answers 0 = .error err → n = 0 := by
    intro err herr
    by_contra hn
    have hgoes := (hbefore 0 le_rfl (Nat.pos_of_ne_zero hn)).1
    rw [herr] at hgoes
    cases hgoes
  have hlast : ∀ err, answers n = .error err → answers 0 = .error err := by
    intro err herr
    rcases hzero : answers 0 with err' | b
    · obtain rfl := hfirst err' hzero
      rw [hzero] at herr
      exact herr
    · obtain ⟨b', hb'⟩ := hok b hzero n
      rw [hb'] at herr
      cases herr
  refine ⟨waited blockRef evaluationTimeout ⟨exit, n + 1⟩, ?_, ?_, ?_⟩
  · intro fuel hfuel
    rw [waitLoop_eq_poll, Polling.poll_of_le hfuel hending]
    rfl
  · intro err hother
    rw [waited_error_iff hends hother]
    refine ⟨hlast err, fun herr => ?_⟩
    obtain rfl := hfirst err herr
    exact herr
  · intro err herr
    obtain rfl := hfirst err herr
    rfl

section Errors

variable {Id Sig F : Type} [DecidableEq Id] [F64 F] {B : BlockT} {G : Grandpa Id Sig}
  {p : GrandpaVerificationParams F} {config : PredicateConfig F} {chain : ℕ → ChainState}

variable (config) in
/-- **The errors of a verdict.**  Over a client without errors whose chain grows, even while a call
is going on and whatever voters it meets: `is_final` fails exactly when its first read finds the
block unknown or under another number, with the error of that case; the error of another number
stays for ever, and no error follows a result; so a wait fails otherwise than by a timeout exactly
when its first call does, and then after this call. -/
theorem verdict_errors (hgrows : ChainGrowing chain) (blockRef : BlockRef)
    (views : ℕ → ℕ → View Id) (moments : ℕ → ℕ → ℕ)
    (hreads : ∀ c, ReadsChain chain (moments c) (views c))
    (horder : ∀ c c', c ≤ c' → moments c 0 ≤ moments c' 0) :
    (∀ c e, isFinal config (substrateClient B G p (views c)) blockRef = .error e ↔
      (chain (moments c 0)).headers blockRef.hash = none ∧ e = unknownBlock blockRef ∨
      (∃ header, (chain (moments c 0)).headers blockRef.hash = some header ∧
        header.number ≠ B.saturatedFrom blockRef.number) ∧ e = otherNumber) ∧
    (∀ c c', c ≤ c' →
      isFinal config (substrateClient B G p (views c)) blockRef = .error otherNumber →
      isFinal config (substrateClient B G p (views c')) blockRef = .error otherNumber) ∧
    (∀ c c', c ≤ c' → (∃ b, isFinal config (substrateClient B G p (views c)) blockRef = .ok b) →
      ∃ b, isFinal config (substrateClient B G p (views c')) blockRef = .ok b) ∧
    ∀ now, Sleeps now → ∃ w, (∀ fuel, config.evaluationTimeout / 2 + 2 ≤ fuel →
        waitForFinality config (fun c => substrateClient B G p (views c)) now blockRef fuel
          = some w) ∧
      (∀ err, ¬ IsTimeout err → (w.result = .error err ↔
        isFinal config (substrateClient B G p (views 0)) blockRef = .error err)) ∧
      ∀ err, isFinal config (substrateClient B G p (views 0)) blockRef = .error err →
        w.checks = 1 := by
  refine ⟨fun c e => isFinal_eq_error_iff hgrows (hreads c), ?_, ?_, ?_⟩
  · intro c c' hcc' h
    exact otherNumber_later hgrows (hreads c) (hreads c') (horder c c' hcc') h
  · intro c c' hcc' h
    exact isOk_of_isOk_earlier hgrows (hreads c) (hreads c') (horder c c' hcc') h
  · intro now hsleeps
    apply waitLoop_error_iff hsleeps
    intro b hb c
    exact isOk_of_isOk_earlier hgrows (hreads 0) (hreads c) (horder 0 c (Nat.zero_le c)) ⟨b, hb⟩

end Errors

/-! ### A reference with another number -/

/-- A reference to block `1` of the sample tree under the number `7`. -/
def misnumberedRef : BlockRef := ⟨⟨"substrate-default-dev"⟩, 7, .repeatByte 2⟩

/-- Calls at the moments of the sample chain, one each. -/
def momentViews (c _ : ℕ) : View ℕ := ⟨(overtakenChain c).client, sampleVoters⟩

/-- The statement for this reference: the first call fails, and so does a call after the chain
has grown. -/
theorem verdict_errors_misnumberedRef :
    isFinal sampleConfig (substrateClient .u32 plainGrandpa .default (momentViews 5))
      misnumberedRef = .error otherNumber := by
  obtain ⟨herror, hstays, -, -⟩ := verdict_errors (B := .u32) (G := plainGrandpa) (p := .default)
    sampleConfig overtakenChain_growing misnumberedRef momentViews (fun c _ => c)
    (fun c => ⟨monotone_const, fun _ => rfl⟩) (fun c c' h => h)
  have hfirst := (herror 0 otherNumber).mpr (Or.inr ⟨⟨_, rfl, by decide⟩, rfl⟩)
  exact hstays 0 5 (by decide) hfirst

end FrostSubstrate
