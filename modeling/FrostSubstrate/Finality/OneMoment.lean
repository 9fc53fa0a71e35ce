/-
A verdict is explained by one moment.

A call of `is_final` makes ten reads, and the chain and the voters may move on between any two
of them: the confidence and the chain rules are then judged on different states.  While the
client only grows, an `Ok(true)` is nevertheless what one of the states it saw would have
given.  Which one depends on the reads: the moment of the last justifications if there were
none, the moment at which the voters for the chain rules were read as a rule, and that of the
voters for the confidence if these gave the block more participation.
-/
import FrostSubstrate.Finality.ExactConfidence

namespace FrostSubstrate

/-! ### What a verdict has read -/

section Reads

variable {Id Sig F : Type} [DecidableEq Id] [F64 F] {B : BlockT} {G : Grandpa Id Sig}
  {p : GrandpaVerificationParams F} {config : PredicateConfig F} {view : ℕ → View Id} {v : View Id}
  {blockRef : BlockRef} {header : Header} {j : Option Justifications}

lemma isFinal_eq_true_iff {client : FinalityVerificationClient F} :
    isFinal config client blockRef = .ok true ↔
      client.verifyBlockHash blockRef = .ok true ∧
      (∃ confidence, client.getFinalityConfidence blockRef = .ok confidence ∧
        ¬ confidence < config.confidenceThreshold) ∧
      client.verifyChainRules blockRef (grandpaRules config) = .ok true := by
  rcases hexists : client.verifyBlockHash blockRef with e | _ | _
  · simp [isFinal, hexists]
  · have hmissing : isFinal config client blockRef = .error (.chainError "Block not found") := by
      simp only [isFinal, hexists, mapError_ok, except_ok_bind]
      rfl
    simp [hmissing]
  · rcases hconfidence : client.getFinalityConfidence blockRef with e | confidence
    · simp [isFinal, hexists, hconfidence]
    · by_cases hlt : confidence < config.confidenceThreshold
      · simp [isFinal, hexists, hconfidence, hlt]
      · rcases hrules : client.verifyChainRules blockRef (grandpaRules config) with e | b
        · simp [isFinal, hexists, hconfidence, hlt, hrules]
        · simp [isFinal, hexists, hconfidence, hlt, hrules]

lemma getFinalityConfidence_eq_ok_iff {confidence : F} :
    getFinalityConfidence B G p view blockRef = .ok confidence ↔
      ∃ status, getFinalityStatus B G p view blockRef.hash = .ok status ∧
        confidenceOf p status = confidence := by
  unfold getFinalityConfidence
  rcases getFinalityStatus B G p view blockRef.hash with e | status
  · simp
  · simp

lemma verifyChainRules_eq_true_iff {rules : ChainRules F} :
    verifyChainRules B G p view blockRef rules = .ok true ↔
      ∃ status, getFinalityStatus B G p view blockRef.hash = .ok status ∧
        rulesHold B rules status (view 4).client.info.bestNumber = true := by
  unfold verifyChainRules
  rcases getFinalityStatus B G p view blockRef.hash with e | status
  · simp
  · simp

/-- What the reads of an `Ok(true)` have seen: a header of the referenced number first, from `1` to
`4` a status that gives enough confidence, from `5` to `8` one that meets the chain rules with the
best number read at `9`. -/
lemma isFinal_substrateClient_iff :
    isFinal config (substrateClient B G p view) blockRef = .ok true ↔
      (∃ header, (view 0).client.header blockRef.hash = .ok (some header) ∧
        header.number = B.saturatedFrom blockRef.number) ∧
      (∃ status, getFinalityStatus B G p (fun i => view (1 + i)) blockRef.hash = .ok status ∧
        ¬ confidenceOf p status < config.confidenceThreshold) ∧
      ∃ status, getFinalityStatus B G p (fun i => view (5 + i)) blockRef.hash = .ok status ∧
        rulesHold B (grandpaRules config) status (view 9).client.info.bestNumber = true := by
  rw [isFinal_eq_true_iff, substrateClient, verifyBlockHash_eq_true_iff,
    verifyChainRules_eq_true_iff]
  simp only [getFinalityConfidence_eq_ok_iff]
  constructor
  · rintro ⟨hheader, ⟨_, ⟨status, hstatus, rfl⟩, hlt⟩, hrules⟩
    exact ⟨hheader, ⟨status, hstatus, hlt⟩, hrules⟩
  · rintro ⟨hheader, ⟨status, hstatus, hlt⟩, hrules⟩
    exact ⟨hheader, ⟨_, ⟨status, hstatus, rfl⟩, hlt⟩, hrules⟩

end Reads

/-! ### A client that grows -/

/-- `c'` is what the client `c` has become: headers and justifications are kept (a block may get
further justifications after those it has), and the numbers do not fall. -/
structure Client.Later (c c' : Client) : Prop where
  headers : ∀ h header, c.header h = .ok (some header) → c'.header h = .ok (some header)
  justifications : ∀ h j, c.justifications h = .ok (some j) →
    ∃ j', c'.justifications h = .ok (some j') ∧ j.entries <+: j'.entries
  finalized_le : c.info.finalizedNumber ≤ c'.info.finalizedNumber
  best_le : c.info.bestNumber ≤ c'.info.bestNumber

namespace Client

variable {c c' c'' : Client} {blockHash : H256} {justificationBytes : Bytes}

lemma Later.refl (c : Client) : c.Later c :=
  ⟨fun _ _ h => h, fun _ j h => ⟨j, h, List.prefix_rfl⟩, le_rfl, le_rfl⟩

lemma Later.trans (h : c.Later c') (h' : c'.Later c'') : c.Later c'' := by
  refine ⟨fun x header hx => h'.headers x header (h.headers x header hx), ?_,
    h.finalized_le.trans h'.finalized_le, h.best_le.trans h'.best_le⟩
  intro x j hj
  obtain ⟨j', hj', hprefix⟩ := h.justifications x j hj
  obtain ⟨j'', hj'', hprefix'⟩ := h'.justifications x j' hj'
  exact ⟨j'', hj'', hprefix.trans hprefix'⟩

/-- The client answers with this encoded GRANDPA justification of a block, or with none. -/
def Answers (c : Client) (blockHash : H256) (justification : Option Bytes) : Prop :=
  ∃ j, c.justifications blockHash = .ok j ∧
    (j.bind fun j => j.intoJustification grandpaEngineId) = justification

lemma Later.answers (h : c.Later c') (hc : c.Answers blockHash (some justificationBytes)) :
    c'.Answers blockHash (some justificationBytes) := by
  obtain ⟨j, hj, hinto⟩ := hc
  obtain ⟨stored, rfl, hinto⟩ := Option.bind_eq_some_iff.mp hinto
  obtain ⟨j', hj', hprefix⟩ := h.justifications blockHash stored hj
  obtain ⟨entry, hfind, rfl⟩ := Option.map_eq_some_iff.mp hinto
  refine ⟨some j', hj', ?_⟩
  rw [Option.bind_some, Justifications.intoJustification, hprefix.find?_eq_some hfind,
    Option.map_some]

lemma Answers.unique {justification justification' : Option Bytes}
    (h : c.Answers blockHash justification) (h' : c.Answers blockHash justification') :
    justification = justification' := by
  obtain ⟨j, hj, rfl⟩ := h
  obtain ⟨j', hj', rfl⟩ := h'
  rw [Except.ok.inj (hj.symm.trans hj')]

end Client

lemma ChainState.Later.client {s s' : ChainState} (h : s.Later s') : s.client.Later s'.client := by
  refine ⟨?_, ?_, h.finalized_le, h.best_le⟩
  · intro x header hx
    exact congrArg Except.ok (h.headers x header (Except.ok.inj hx))
  · intro x j hj
    obtain ⟨j', hj', hprefix⟩ := h.justifications x j (Except.ok.inj hj)
    exact ⟨j', congrArg Except.ok hj', hprefix⟩

/-- From read to read the client grows; the voters may be replaced by any others. -/
def Grows {Id : Type} (view : ℕ → View Id) : Prop :=
  ∀ i, (view i).client.Later (view (i + 1)).client

lemma Grows.later {Id : Type} {view : ℕ → View Id} (h : Grows view) {i j : ℕ} (hij : i ≤ j) :
    (view i).client.Later (view j).client := by
  induction j, hij using Nat.le_induction with
  | base => exact Client.Later.refl _
  | succ j _ ih => exact ih.trans (h j)

/-! ### The moment that explains a verdict -/

section OneMoment

variable {Id Sig : Type} [DecidableEq Id] {B : BlockT} {G : Grandpa Id Sig}
  {p : GrandpaVerificationParams ℚ} {config : PredicateConfig ℚ} {view : ℕ → View Id} {v : View Id}
  {V V' : VoterSet Id} {blockRef : BlockRef} {header : Header} {justification : Option Bytes}
  {justificationBytes : Bytes} {latestFinalized latestFinalized' : ℕ}

lemma decodedRate_nonneg : 0 ≤ decodedRate B G p V justificationBytes := by
  unfold decodedRate
  rcases G.decode justificationBytes with _ | J
  · exact le_of_eq rfl
  · simp only [verifyJustification_eq, F64.ofU64_rat]
    exact div_nonneg (Nat.cast_nonneg _) (Nat.cast_nonneg _)

/-- A block that had enough confidence has it when the finalized number has not fallen and its
participation has not fallen either, unless it is finalized by then. -/
lemma confident_mono {justification' : Option Bytes} (hp : 0 < p.minParticipation)
    (hconfident : ¬ confidenceOf p (statusWith B G p header latestFinalized justification V)
      < config.confidenceThreshold)
    (hle : latestFinalized ≤ latestFinalized')
    (hrate : latestFinalized' < header.number →
      (statusWith B G p header latestFinalized justification V).participationRate
        ≤ (statusWith B G p header latestFinalized' justification' V').participationRate) :
    ¬ confidenceOf p (statusWith B G p header latestFinalized' justification' V')
      < config.confidenceThreshold := by
  rcases Nat.lt_or_ge latestFinalized' header.number with hlt | hge
  · rw [confidenceOf_statusWith_of_lt (by omega)] at hconfident
    rw [confidenceOf_statusWith_of_lt hlt]
    have hmono := unconfirmedConfidence_mono hp (hrate hlt)
    exact fun h => hconfident (hmono.trans_lt h)
  · rw [confidenceOf_statusWith_of_le hge]
    exact not_one_lt_of_not_confidenceOf_lt hconfident

lemma isFinalOn_of_moment (hheader : v.client.header blockRef.hash = .ok (some header))
    (hnumber : header.number = B.saturatedFrom blockRef.number)
    (hanswers : v.client.Answers blockRef.hash justification)
    (hconfident : ¬ confidenceOf p
        (statusWith B G p header v.client.info.finalizedNumber justification v.voterSet)
      < config.confidenceThreshold)
    (hconfirmed : B.saturatedFrom config.minConfirmations
      ≤ v.client.info.finalizedNumber - header.number)
    (hbest : v.client.info.bestNumber - header.number ≤ 50)
    (hparticipation : ∀ justificationBytes, justification = some justificationBytes →
      ¬ decodedRate B G p v.voterSet justificationBytes < 0.67) :
    isFinalOn B G p config v blockRef = .ok true := by
  obtain ⟨j, hj, rfl⟩ := hanswers
  have hstatus : getFinalityStatus B G p (fun _ => v) blockRef.hash = .ok (statusWith B G p header
      v.client.info.finalizedNumber (j.bind fun j => j.intoJustification grandpaEngineId)
      v.voterSet) :=
    (getFinalityStatus_eq_ok_iff B G).mpr ⟨header, j, hheader, hj, rfl⟩
  refine isFinal_substrateClient_iff.mpr ⟨⟨header, hheader, hnumber⟩, ⟨_, hstatus, hconfident⟩,
    _, hstatus, ?_⟩
  exact rulesHold_statusWith_iff.mpr ⟨hconfirmed, hbest, hparticipation⟩

/-- What the reads of a verdict have seen while the client grew: one header throughout, and enough
for the confidence and for the chain rules, at the moments at which these were read. -/
structure Seen (B : BlockT) (G : Grandpa Id Sig) (p : GrandpaVerificationParams ℚ)
    (config : PredicateConfig ℚ) (view : ℕ → View Id) (blockRef : BlockRef) (header : Header)
    (first last : Option Bytes) : Prop where
  known : ∀ i, (view i).client.header blockRef.hash = .ok (some header)
  numbered : header.number = B.saturatedFrom blockRef.number
  answers_first : (view 3).client.Answers blockRef.hash first
  answers_last : (view 7).client.Answers blockRef.hash last
  confident : ¬ confidenceOf p (statusWith B G p header (view 2).client.info.finalizedNumber first
      (view 4).voterSet) < config.confidenceThreshold
  confirmed : B.saturatedFrom config.minConfirmations
    ≤ (view 6).client.info.finalizedNumber - header.number
  near_best : (view 9).client.info.bestNumber - header.number ≤ 50
  participation : ∀ justificationBytes, last = some justificationBytes →
    ¬ decodedRate B G p (view 8).voterSet justificationBytes < 0.67

variable {first last : Option Bytes}

/-- The reads of the header agree: a header once read is kept. -/
lemma exists_seen (hgrows : Grows view)
    (hfinal : isFinal config (substrateClient B G p view) blockRef = .ok true) :
    ∃ header first last, Seen B G p config view blockRef header first last := by
  obtain ⟨⟨header, hheader, hnumber⟩, ⟨status, hstatus, hconfident⟩, status', hstatus', hrules⟩ :=
    isFinal_substrateClient_iff.mp hfinal
  obtain ⟨header₁, j, hheader₁, hj, rfl⟩ := (getFinalityStatus_eq_ok_iff B G).mp hstatus
  obtain ⟨header₅, j', hheader₅, hj', rfl⟩ := (getFinalityStatus_eq_ok_iff B G).mp hstatus'
  simp only [Nat.reduceAdd] at hheader₁ hj hconfident hheader₅ hj' hrules
  have hheaders : ∀ i, (view i).client.header blockRef.hash = .ok (some header) :=
    fun i => (hgrows.later (Nat.zero_le i)).headers _ _ hheader
  obtain rfl : header₁ = header := by simpa [hheaders] using hheader₁.symm
  obtain rfl : header₅ = header₁ := by simpa [hheaders] using hheader₅.symm
  obtain ⟨hconfirmed, hbest, hparticipation⟩ := rulesHold_statusWith_iff.mp hrules
  exact ⟨header₅, _, _, hheaders, hnumber, ⟨j, hj, rfl⟩, ⟨j', hj', rfl⟩, hconfident, hconfirmed,
    hbest, hparticipation⟩

namespace Seen

lemma near_best_at (h : Seen B G p config view blockRef header first last) (hgrows : Grows view)
    {i : ℕ} (hi : i ≤ 9) : (view i).client.info.bestNumber - header.number ≤ 50 := by
  have hbest := (hgrows.later hi).best_le
  have hnear := h.near_best
  omega

lemma confirmed_at (h : Seen B G p config view blockRef header first last) (hgrows : Grows view)
    {i : ℕ} (hi : 6 ≤ i) : B.saturatedFrom config.minConfirmations
      ≤ (view i).client.info.finalizedNumber - header.number := by
  have hfinalized := (hgrows.later hi).finalized_le
  have hconfirmed := h.confirmed
  omega

/-- Without justifications at the end there were none at the start, and the voters do not
matter. -/
lemma of_none (h : Seen B G p config view blockRef header first none) (hgrows : Grows view)
    (hp : 0 < p.minParticipation) : isFinalOn B G p config (view 7) blockRef = .ok true := by
  obtain rfl : first = none := by
    rcases first with _ | earlier
    · rfl
    · exact ((hgrows.later (show 3 ≤ 7 by decide)).answers h.answers_first).unique h.answers_last
  have hfinalized := (hgrows.later (show 2 ≤ 7 by decide)).finalized_le
  refine isFinalOn_of_moment (h.known 7) h.numbered h.answers_last ?_
    (h.confirmed_at hgrows (by decide))
    (h.near_best_at hgrows (by decide)) (by simp)
  exact confident_mono hp h.confident hfinalized fun _ => le_rfl

/-- Where the voters for the chain rules give the block as much participation as those for the
confidence, or it is finalized by then, they explain the verdict. -/
lemma of_rate_le (h : Seen B G p config view blockRef header first (some justificationBytes))
    (hgrows : Grows view) (hp : 0 < p.minParticipation)
    (hrate : (view 8).client.info.finalizedNumber < header.number →
      (statusWith B G p header (view 2).client.info.finalizedNumber first
          (view 4).voterSet).participationRate
        ≤ (statusWith B G p header (view 8).client.info.finalizedNumber
          (some justificationBytes) (view 8).voterSet).participationRate) :
    isFinalOn B G p config (view 8) blockRef = .ok true := by
  have hfinalized := (hgrows.later (show 2 ≤ 8 by decide)).finalized_le
  refine isFinalOn_of_moment (h.known 8) h.numbered ((hgrows 7).answers h.answers_last) ?_
    (h.confirmed_at hgrows (by decide)) (h.near_best_at hgrows (by decide)) h.participation
  exact confident_mono hp h.confident hfinalized hrate

/-- A block that is not finalized at the end and has less participation with the voters for the
chain rules owes its confidence to those for the confidence. -/
lemma of_lt_rate (h : Seen B G p config view blockRef header first (some justificationBytes))
    (hgrows : Grows view) (hp : 0 < p.minParticipation)
    (hlt : (view 8).client.info.finalizedNumber < header.number)
    (hrate : (statusWith B G p header (view 8).client.info.finalizedNumber
          (some justificationBytes) (view 8).voterSet).participationRate
        < (statusWith B G p header (view 2).client.info.finalizedNumber first
          (view 4).voterSet).participationRate) :
    isFinalOn B G p config (view 4) blockRef = .ok true := by
  rcases first with _ | earlier
  · exact absurd (decodedRate_nonneg (p := p)) hrate.not_ge
  · have hsame := (hgrows.later (show 3 ≤ 8 by decide)).answers h.answers_first
    obtain rfl : earlier = justificationBytes :=
      Option.some.inj (hsame.unique ((hgrows 7).answers h.answers_last))
    have hfinalized := (hgrows.later (show 2 ≤ 4 by decide)).finalized_le
    have hbelow := (hgrows.later (show 6 ≤ 8 by decide)).finalized_le
    have hconfirmed := h.confirmed
    refine isFinalOn_of_moment (h.known 4) h.numbered ((hgrows 3).answers h.answers_first) ?_
      (by omega)
      (h.near_best_at hgrows (by decide)) ?_
    · exact confident_mono hp h.confident hfinalized fun _ => le_rfl
    · rintro _ ⟨rfl⟩ hlow
      exact h.participation _ rfl (hrate.trans hlow)

end Seen

/-- **A verdict is explained by one moment.**  If the client only grows between the reads of
`is_final`, whatever voters are installed meanwhile, a block it reports final is one it would have
reported final had it looked at a single one of the states it saw. -/
theorem isFinal_one_moment (hp : 0 < p.minParticipation) (hgrows : Grows view)
    (hfinal : isFinal config (substrateClient B G p view) blockRef = .ok true) :
    ∃ i ≤ 9, isFinalOn B G p config (view i) blockRef = .ok true := by
  obtain ⟨header, first, last, hseen⟩ := exists_seen hgrows hfinal
  rcases last with _ | justificationBytes
  · exact ⟨7, by decide, hseen.of_none hgrows hp⟩
  · by_cases hrate : (view 8).client.info.finalizedNumber < header.number →
        (statusWith B G p header (view 2).client.info.finalizedNumber first
            (view 4).voterSet).participationRate
          ≤ (statusWith B G p header (view 8).client.info.finalizedNumber
            (some justificationBytes) (view 8).voterSet).participationRate
    · exact ⟨8, by decide, hseen.of_rate_le hgrows hp hrate⟩
    · obtain ⟨hlt, hrate⟩ := Classical.not_imp.mp hrate
      exact ⟨4, by decide, hseen.of_lt_rate hgrows hp hlt (not_le.mp hrate)⟩

/-! ### Voters replaced in the middle of a call -/

/-- The sample voters and one more. -/
def moreVoters : VoterSet ℕ where
  voters := [(1, 1), (2, 1), (3, 1), (4, 1)]
  nodup := by decide
  ne_nil := by decide
  weight_pos := by decide
  total_le := by decide

/-- The unfinalized tree, the new voters being installed after the confidence has been read. -/
def replacedView (i : ℕ) : View ℕ :=
  ⟨unfinalizedTree.client, if i ≤ 4 then sampleVoters else moreVoters⟩

lemma grows_replacedView : Grows replacedView :=
  fun _ => Client.Later.refl _

/-- The statement for these reads: the confidence comes from the voters who left, and the state
with the new voters would not have reported the block. -/
theorem isFinal_one_moment_replacedView :
    isFinalOn .u32 sampleGrandpa strictParams ⟨0, 0.6, 60⟩ (replacedView 8) chainRef = .ok false ∧
      ∃ i ≤ 9, isFinalOn .u32 sampleGrandpa strictParams ⟨0, 0.6, 60⟩ (replacedView i) chainRef
        = .ok true :=
  ⟨by decide +kernel, isFinal_one_moment (by norm_num [strictParams]) grows_replacedView
    (by decide +kernel)⟩

end OneMoment

end FrostSubstrate
