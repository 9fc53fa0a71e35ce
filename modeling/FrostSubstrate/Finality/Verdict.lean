/-
The verdict `is_final` and the three questions it asks a verification client.

The bottom layer is the code: `verify_block_hash`, `get_finality_confidence`,
`verify_chain_rules` and `is_final` itself, on a sequence of reads.  Over it stands the
verdict on one state of the chain: `ChainState` is what a client that does not fail
knows, `Accepts` says in one formula what `is_final` checks of it, and
`isFinalOn_eq_true_iff` and `isFinalOn_isOk_iff` connect the two.
-/
import FrostSubstrate.Finality.Status

namespace FrostSubstrate

variable {Id Sig F : Type} [DecidableEq Id] [F64 F] (B : BlockT) (G : Grandpa Id Sig)

/-- `SubstrateVerificationClient::verify_block_hash`. -/
def verifyBlockHash (v : View Id) (blockRef : BlockRef) :
    Except FinalityVerificationError Bool := do
  let header ← (v.client.requireHeader blockRef.hash).mapError
    GrandpaFinalityVerificationError.toVerificationError
  let expectedNumber := B.saturatedFrom blockRef.number
  return header.number == expectedNumber

/-- The formula of `get_finality_confidence`. -/
def confidenceOf (p : GrandpaVerificationParams F) (status : FinalityStatus F) : F :=
  if status.isFinalized then F64.lit 1
  else
    let confirmationsU64 := saturatedIntoU64 status.confirmations
    let confirmationConfidence : F :=
      min (if p.minConfirmations > 0 then
          F64.ofU64 confirmationsU64 / F64.ofU64 p.minConfirmations
        else F64.lit 0) (F64.lit 1)
    let participationConfidence : F :=
      if status.hasJustification then
        min (status.participationRate / p.minParticipation) (F64.lit 1)
      else F64.lit 0
    let confidence :=
      confirmationConfidence * F64.lit 0.4 + participationConfidence * F64.lit 0.4 + F64.lit 0.2
    -- the source tests `is_finalized` a second time here, after its early return
    if status.isFinalized then confidence else min confidence (F64.lit 0.95)

/-- `SubstrateVerificationClient::get_finality_confidence`. -/
def getFinalityConfidence (p : GrandpaVerificationParams F) (view : ℕ → View Id)
    (blockRef : BlockRef) : Except FinalityVerificationError F := do
  let status ← (getFinalityStatus B G p view blockRef.hash).mapError fun e =>
    (GrandpaFinalityVerificationError.consensusError e.toString).toVerificationError
  return confidenceOf p status

/-- The checks of `verify_chain_rules`. -/
def rulesHold (rules : ChainRules F) (status : FinalityStatus F) (bestNumber : ℕ) : Bool :=
  let minConfirmationsBlockNumber := B.saturatedFrom rules.minConfirmations
  let forkDepth := bestNumber - status.blockNumber
  let maxForkDepthBlockNumber := B.saturatedFrom rules.maxForkDepth
  if status.confirmations < minConfirmationsBlockNumber then false
  else if forkDepth > maxForkDepthBlockNumber then false
  else if status.hasJustification ∧ status.participationRate < rules.minParticipation then false
  else true

/-- `SubstrateVerificationClient::verify_chain_rules`.  After the status it reads the chain
info once more. -/
def verifyChainRules (p : GrandpaVerificationParams F) (view : ℕ → View Id)
    (blockRef : BlockRef) (rules : ChainRules F) : Except FinalityVerificationError Bool := do
  let status ← (getFinalityStatus B G p view blockRef.hash).mapError fun e =>
    (GrandpaFinalityVerificationError.consensusError e.toString).toVerificationError
  return rulesHold B rules status (view 4).client.info.bestNumber

/-- `SubstrateVerificationClient` as a trait object, its reads being numbered in the order
in which `is_final` makes them. -/
def substrateClient (p : GrandpaVerificationParams F) (view : ℕ → View Id) :
    FinalityVerificationClient F where
  verifyBlockHash := verifyBlockHash B (view 0)
  getFinalityConfidence := getFinalityConfidence B G p fun i => view (1 + i)
  verifyChainRules := verifyChainRules B G p fun i => view (5 + i)

/-- The chain rules `is_final` hands to the verification client. -/
def grandpaRules (config : PredicateConfig F) : ChainRules F where
  minConfirmations := config.minConfirmations
  confidenceThreshold := config.confidenceThreshold
  maxForkDepth := 50
  minParticipation := F64.lit 0.67
  chainParams := .obj [
    ("finality_protocol", .str "GRANDPA"),
    ("voting_rounds", .num 2),
    ("supermajority_threshold", .num 0.67)]

/-- `GrandpaFinality::is_final`. -/
def isFinal (config : PredicateConfig F) (verificationClient : FinalityVerificationClient F)
    (blockRef : BlockRef) : Except FinalityError Bool := do
  let exist ← (verificationClient.verifyBlockHash blockRef).mapError fun e =>
    .chainError ("Block verification failed: " ++ e.text)
  if !exist then
    throw (.chainError "Block not found")
  let finalityConfidence ← (verificationClient.getFinalityConfidence blockRef).mapError fun e =>
    .consensusError ("Failed to get finality confidence: " ++ e.text)
      (F64.toU64 (config.confidenceThreshold * F64.lit 100)) 0
  if finalityConfidence < config.confidenceThreshold then
    return false
  let rules := grandpaRules config
  (verificationClient.verifyChainRules blockRef rules).mapError fun e =>
    .consensusError ("Chain rule verification failed: " ++ e.text)
      (F64.toU64 (rules.minParticipation * F64.lit 100))
      (F64.toU64 (finalityConfidence * F64.lit 100))

/-- `is_final` evaluated entirely on one state of the client and of the voter set. -/
def isFinalOn (p : GrandpaVerificationParams F) (config : PredicateConfig F) (v : View Id)
    (blockRef : BlockRef) : Except FinalityError Bool :=
  isFinal config (substrateClient B G p fun _ => v) blockRef

/-! ### One state of the chain -/

/-- What a client that does not fail knows at one moment: headers, justifications and the
chain info. -/
structure ChainState where
  headers : H256 → Option Header
  justifications : H256 → Option Justifications
  info : Info

namespace ChainState

/-- The client that holds this state and answers without errors. -/
def client (s : ChainState) : Client where
  header h := .ok (s.headers h)
  info := s.info
  justifications h := .ok (s.justifications h)

/-- The encoded GRANDPA justification of a block. -/
def grandpaJustification (s : ChainState) (blockHash : H256) : Option Bytes :=
  (s.justifications blockHash).bind fun j => j.intoJustification grandpaEngineId

end ChainState

/-- The finality status of a block with a known header. -/
def statusOf (p : GrandpaVerificationParams F) (s : ChainState) (V : VoterSet Id)
    (blockHash : H256) (header : Header) : FinalityStatus F where
  blockNumber := header.number
  confirmations := s.info.finalizedNumber - header.number
  hasJustification := (s.grandpaJustification blockHash).isSome
  isFinalized := decide (header.number ≤ s.info.finalizedNumber)
  participationRate :=
    match s.grandpaJustification blockHash with
    | some justificationBytes => decodedRate B G p V justificationBytes
    | none => F64.lit 0

/-- What `is_final` checks of a block with a known header, given how many confirmations
and which confidence its configuration asks for. -/
structure Accepts (p : GrandpaVerificationParams F) (config : PredicateConfig F)
    (s : ChainState) (V : VoterSet Id) (blockHash : H256) (header : Header) : Prop where
  confident : ¬ confidenceOf p (statusOf B G p s V blockHash header) < config.confidenceThreshold
  confirmed : B.saturatedFrom config.minConfirmations ≤ s.info.finalizedNumber - header.number
  near_best : s.info.bestNumber - header.number ≤ 50
  participation : ∀ justificationBytes, s.grandpaJustification blockHash = some justificationBytes →
    ¬ decodedRate B G p V justificationBytes < F64.lit 0.67

variable {B G} {p : GrandpaVerificationParams F} {config : PredicateConfig F} {s : ChainState}
  {V : VoterSet Id} {blockRef : BlockRef} {blockHash : H256} {header : Header}

omit [DecidableEq Id] [F64 F] in
/-- The number of the reference is compared after its conversion. -/
lemma verifyBlockHash_eq_true_iff {v : View Id} :
    verifyBlockHash B v blockRef = .ok true ↔
      ∃ header, v.client.header blockRef.hash = .ok (some header) ∧
        header.number = B.saturatedFrom blockRef.number := by
  unfold verifyBlockHash Client.requireHeader
  rcases v.client.header blockRef.hash with e | _ | header
  · simp
  · simp
  · simp

lemma requireHeader_of_some (h : s.headers blockHash = some header) :
    s.client.requireHeader blockHash = .ok header := by
  simp [Client.requireHeader, ChainState.client, h]

lemma requireHeader_of_none (h : s.headers blockHash = none) :
    s.client.requireHeader blockHash = .error (.blockNotFound blockHash.debug) := by
  simp [Client.requireHeader, ChainState.client, h]

lemma getFinalityStatus_of_some (h : s.headers blockHash = some header) :
    getFinalityStatus B G p (fun _ => ⟨s.client, V⟩) blockHash
      = .ok (statusOf B G p s V blockHash header) := by
  rw [getFinalityStatus, requireHeader_of_some h]
  rfl

lemma rulesHold_iff {rules : ChainRules F} {status : FinalityStatus F} {bestNumber : ℕ} :
    rulesHold B rules status bestNumber = true ↔
      B.saturatedFrom rules.minConfirmations ≤ status.confirmations ∧
      bestNumber - status.blockNumber ≤ B.saturatedFrom rules.maxForkDepth ∧
      (status.hasJustification = true → ¬ status.participationRate < rules.minParticipation) := by
  unfold rulesHold
  dsimp only
  split_ifs with h1 h2 h3
  · simp [Nat.not_le.mpr h1]
  · simp [Nat.not_le.mpr h2]
  · simp [h3.1, h3.2]
  · simp only [true_iff]
    exact ⟨Nat.le_of_not_lt h1, Nat.le_of_not_lt h2, fun hj hlt => h3 ⟨hj, hlt⟩⟩

lemma rulesHold_statusWith_iff {latestFinalized bestNumber : ℕ} {justification : Option Bytes} :
    rulesHold B (grandpaRules config) (statusWith B G p header latestFinalized justification V)
        bestNumber = true ↔
      B.saturatedFrom config.minConfirmations ≤ latestFinalized - header.number ∧
      bestNumber - header.number ≤ 50 ∧
      ∀ justificationBytes, justification = some justificationBytes →
        ¬ decodedRate B G p V justificationBytes < (F64.lit 0.67 : F) := by
  have hdepth : B.saturatedFrom 50 = 50 := B.saturatedFrom_of_le (by decide)
  rw [rulesHold_iff]
  simp only [grandpaRules, statusWith, hdepth]
  rcases justification with _ | bytes
  · simp
  · simp

lemma rulesHold_grandpaRules_iff :
    rulesHold B (grandpaRules config) (statusOf B G p s V blockHash header)
        s.info.bestNumber = true ↔
      B.saturatedFrom config.minConfirmations ≤ s.info.finalizedNumber - header.number ∧
      s.info.bestNumber - header.number ≤ 50 ∧
      ∀ justificationBytes, s.grandpaJustification blockHash = some justificationBytes →
        ¬ decodedRate B G p V justificationBytes < (F64.lit 0.67 : F) :=
  rulesHold_statusWith_iff

lemma getFinalityConfidence_of_some (h : s.headers blockRef.hash = some header) :
    getFinalityConfidence B G p (fun _ => ⟨s.client, V⟩) blockRef
      = .ok (confidenceOf p (statusOf B G p s V blockRef.hash header)) := by
  simp [getFinalityConfidence, getFinalityStatus_of_some h]

lemma isFinalOn_of_some (h : s.headers blockRef.hash = some header)
    (hn : header.number = B.saturatedFrom blockRef.number) :
    isFinalOn B G p config ⟨s.client, V⟩ blockRef
      = .ok (decide (¬ confidenceOf p (statusOf B G p s V blockRef.hash header)
            < config.confidenceThreshold) &&
          rulesHold B (grandpaRules config) (statusOf B G p s V blockRef.hash header)
            s.info.bestNumber) := by
  have hhash : verifyBlockHash B (⟨s.client, V⟩ : View Id) blockRef = .ok true := by
    simp [verifyBlockHash, requireHeader_of_some h, hn]
  have hconf := getFinalityConfidence_of_some (B := B) (G := G) (p := p) (V := V) h
  have hrules : verifyChainRules B G p (fun _ => ⟨s.client, V⟩) blockRef (grandpaRules config)
      = .ok (rulesHold B (grandpaRules config) (statusOf B G p s V blockRef.hash header)
          s.info.bestNumber) := by
    simp only [verifyChainRules, getFinalityStatus_of_some h]
    rfl
  simp only [isFinalOn, isFinal, substrateClient, hhash, hconf, hrules, mapError_ok,
    except_ok_bind]
  by_cases hlt : confidenceOf p (statusOf B G p s V blockRef.hash header)
      < config.confidenceThreshold
  · simp [hlt]
  · simp [hlt]

lemma isFinalOn_of_none (h : s.headers blockRef.hash = none) :
    isFinalOn B G p config ⟨s.client, V⟩ blockRef
      = .error (.chainError ("Block verification failed: "
          ++ (GrandpaFinalityVerificationError.blockNotFound blockRef.hash.debug).toString)) := by
  simp [isFinalOn, isFinal, substrateClient, verifyBlockHash, requireHeader_of_none h,
    GrandpaFinalityVerificationError.toVerificationError]

lemma isFinalOn_of_number_ne (h : s.headers blockRef.hash = some header)
    (hn : header.number ≠ B.saturatedFrom blockRef.number) :
    isFinalOn B G p config ⟨s.client, V⟩ blockRef = .error (.chainError "Block not found") := by
  have hhash : verifyBlockHash B (⟨s.client, V⟩ : View Id) blockRef = .ok false := by
    simp [verifyBlockHash, requireHeader_of_some h, hn]
  simp only [isFinalOn, isFinal, substrateClient, hhash, mapError_ok, except_ok_bind]
  rfl

lemma isFinalOn_eq_true_iff_accepts (h : s.headers blockRef.hash = some header)
    (hn : header.number = B.saturatedFrom blockRef.number) :
    isFinalOn B G p config ⟨s.client, V⟩ blockRef = .ok true ↔
      Accepts B G p config s V blockRef.hash header := by
  rw [isFinalOn_of_some h hn]
  simp only [Except.ok.injEq, Bool.and_eq_true, decide_eq_true_eq, rulesHold_grandpaRules_iff]
  constructor
  · rintro ⟨hc, hm, hd, hp⟩
    exact ⟨hc, hm, hd, hp⟩
  · intro hacc
    exact ⟨hacc.confident, hacc.confirmed, hacc.near_best, hacc.participation⟩

/-- **The verdict on one state.**  `is_final` returns `Ok(true)` exactly for the references
to a known header of the referenced number that passes every check. -/
theorem isFinalOn_eq_true_iff :
    isFinalOn B G p config ⟨s.client, V⟩ blockRef = .ok true ↔
      ∃ header, s.headers blockRef.hash = some header ∧
        header.number = B.saturatedFrom blockRef.number ∧
        Accepts B G p config s V blockRef.hash header := by
  constructor
  · intro h
    rcases hhd : s.headers blockRef.hash with _ | header
    · rw [isFinalOn_of_none hhd] at h
      cases h
    · by_cases hn : header.number = B.saturatedFrom blockRef.number
      · exact ⟨header, rfl, hn, (isFinalOn_eq_true_iff_accepts hhd hn).mp h⟩
      · rw [isFinalOn_of_number_ne hhd hn] at h
        cases h
  · rintro ⟨header, hhd, hn, hacc⟩
    exact (isFinalOn_eq_true_iff_accepts hhd hn).mpr hacc

/-- **Errors on one state.**  `is_final` returns a result exactly when the block is known
under the referenced number. -/
theorem isFinalOn_isOk_iff :
    (∃ b, isFinalOn B G p config ⟨s.client, V⟩ blockRef = .ok b) ↔
      ∃ header, s.headers blockRef.hash = some header ∧
        header.number = B.saturatedFrom blockRef.number := by
  constructor
  · rintro ⟨b, hb⟩
    rcases hhd : s.headers blockRef.hash with _ | header
    · rw [isFinalOn_of_none hhd] at hb
      cases hb
    · by_cases hn : header.number = B.saturatedFrom blockRef.number
      · exact ⟨header, rfl, hn⟩
      · rw [isFinalOn_of_number_ne hhd hn] at hb
        cases hb
  · rintro ⟨header, hhd, hn⟩
    exact ⟨_, isFinalOn_of_some hhd hn⟩

lemma confidenceOf_statusWith_of_le {latestFinalized : ℕ} {justification : Option Bytes}
    (hle : header.number ≤ latestFinalized) :
    confidenceOf p (statusWith B G p header latestFinalized justification V) = F64.lit 1 := by
  simp [confidenceOf, statusWith, hle]

lemma confidenceOf_of_le (hle : header.number ≤ s.info.finalizedNumber) :
    confidenceOf p (statusOf B G p s V blockHash header) = F64.lit 1 :=
  confidenceOf_statusWith_of_le hle

/-- A confidence never exceeds one: a threshold it meets is one that certainty meets. -/
lemma not_one_lt_of_not_confidenceOf_lt {status : FinalityStatus F} {t : F}
    (h : ¬ confidenceOf p status < t) : ¬ F64.lit 1 < t := by
  intro hlt
  apply h
  unfold confidenceOf
  by_cases hfin : status.isFinalized = true
  · rwa [if_pos hfin]
  · rw [if_neg hfin]
    simp only [if_neg hfin]
    have hcap : (F64.lit 0.95 : F) < t :=
      F64.lt_of_le_of_lt (F64.lit_le_lit (by norm_num)) hlt
    exact F64.lt_of_le_of_lt (F64.min_lit_le _ _) hcap

/-- A block that is confirmed at least once lies below the finalized height. -/
lemma Accepts.number_le (h : Accepts B G p config s V blockHash header)
    (hm : 0 < config.minConfirmations) : header.number ≤ s.info.finalizedNumber := by
  have hpos := B.saturatedFrom_pos hm
  have := h.confirmed
  omega

end FrostSubstrate
