/-
The finality status of a block: `verify_justification` and `get_finality_status`.

The code reads the client and the voter set at several successive moments.  A function
here takes the sequence `view` of what these reads see, one entry for each read, so that
the client may move on and the voter set may be replaced in the middle of a call; a call
that sees one state throughout is the constant sequence.
-/
import FrostSubstrate.External.Substrate
import FrostSubstrate.Finality.Errors

namespace FrostSubstrate

open Saturating (satAdd)

/-- `GrandpaVerificationParams`; the timeout is in seconds. -/
structure GrandpaVerificationParams (F : Type) where
  minConfirmations : ℕ
  minParticipation : F
  maxForkDepth : ℕ
  timeout : ℕ
  setId : ℕ
  strictSignatureVerification : Bool

/-- `impl Default for GrandpaVerificationParams`. -/
def GrandpaVerificationParams.default {F : Type} [F64 F] : GrandpaVerificationParams F where
  minConfirmations := 2
  minParticipation := F64.lit 0.67
  maxForkDepth := 50
  timeout := 30
  setId := 0
  strictSignatureVerification := true

/-- `FinalityStatus`. -/
structure FinalityStatus (F : Type) where
  blockNumber : ℕ
  confirmations : ℕ
  hasJustification : Bool
  isFinalized : Bool
  participationRate : F

/-- What one read of a verification client sees: the chain client and the voter set behind
its lock. -/
structure View (Id : Type) where
  client : Client
  voterSet : VoterSet Id

/-- `client.header(hash).map_err(..)?.ok_or_else(..)?`. -/
def Client.requireHeader (c : Client) (blockHash : H256) :
    Except GrandpaFinalityVerificationError Header :=
  match c.header blockHash with
  | .error e => .error (.chainError ("Failed to get header: " ++ e))
  | .ok none => .error (.blockNotFound blockHash.debug)
  | .ok (some header) => .ok header

variable {Id Sig F : Type} [DecidableEq Id] [F64 F] (B : BlockT) (G : Grandpa Id Sig)

/-- The weight `verify_justification` adds up: that of every signed precommit whose voter
is in the set and whose signature verifies over the encoded precommit. -/
def signedWeight (V : VoterSet Id) (precommits : List (SignedPrecommit Id Sig)) : ℕ :=
  precommits.foldl (fun signedWeight signedPrecommit =>
    match V.get signedPrecommit.id with
    | some weight =>
      if G.verify signedPrecommit.signature (signedPrecommit.precommit.encode B)
          signedPrecommit.id then
        satAdd u64Max signedWeight weight
      else signedWeight
    | none => signedWeight) 0

/-- `SubstrateVerificationClient::verify_justification`. -/
def verifyJustification (p : GrandpaVerificationParams F) (V : VoterSet Id)
    (justification : GrandpaJustification Id Sig) :
    Except GrandpaFinalityVerificationError (Bool × F) :=
  let totalWeight := V.totalWeight
  let participationRate : F :=
    if totalWeight > 0 then
      F64.ofU64 (signedWeight B G V justification.commit.precommits) / F64.ofU64 totalWeight
    else F64.lit 0
  .ok (decide (p.minParticipation ≤ participationRate), participationRate)

/-- The participation rate of an encoded justification, zero when it does not decode or
does not verify. -/
def decodedRate (p : GrandpaVerificationParams F) (V : VoterSet Id)
    (justificationBytes : Bytes) : F :=
  match G.decode justificationBytes with
  | some justification =>
    match verifyJustification B G p V justification with
    | .ok (_, rate) => rate
    | .error _ => F64.lit 0
  | none => F64.lit 0

/-- `SubstrateVerificationClient::get_finality_status`.  It reads the header, the chain
info, the justifications and the voter set, in this order. -/
def getFinalityStatus (p : GrandpaVerificationParams F) (view : ℕ → View Id)
    (blockHash : H256) : Except GrandpaFinalityVerificationError (FinalityStatus F) := do
  let header ← (view 0).client.requireHeader blockHash
  let latestFinalized := (view 1).client.info.finalizedNumber
  let confirmations := latestFinalized - header.number
  let isFinalized := decide (header.number ≤ latestFinalized)
  let justification ←
    match (view 2).client.justifications blockHash with
    | .error e => .error (.chainError ("Failed to get justification: " ++ e))
    | .ok j => .ok (j.bind fun j => j.intoJustification grandpaEngineId)
  -- what does not decode or verify is only logged and leaves the rate at zero
  let participationRate : F :=
    match justification with
    | some justificationBytes => decodedRate B G p (view 3).voterSet justificationBytes
    | none => F64.lit 0
  return {
    blockNumber := header.number
    confirmations := confirmations
    hasJustification := justification.isSome
    isFinalized := isFinalized
    participationRate := participationRate }

/-! ### What a status is made of -/

/-- The status of a block, from its header, the finalized number, the encoded GRANDPA justification
and the voters that the reads have seen. -/
def statusWith (p : GrandpaVerificationParams F) (header : Header) (latestFinalized : ℕ)
    (justification : Option Bytes) (V : VoterSet Id) : FinalityStatus F where
  blockNumber := header.number
  confirmations := latestFinalized - header.number
  hasJustification := justification.isSome
  isFinalized := decide (header.number ≤ latestFinalized)
  participationRate :=
    match justification with
    | some justificationBytes => decodedRate B G p V justificationBytes
    | none => F64.lit 0

lemma getFinalityStatus_eq_ok_iff {p : GrandpaVerificationParams F} {view : ℕ → View Id}
    {blockHash : H256} {status : FinalityStatus F} :
    getFinalityStatus B G p view blockHash = .ok status ↔
      ∃ header j, (view 0).client.header blockHash = .ok (some header) ∧
        (view 2).client.justifications blockHash = .ok j ∧
        status = statusWith B G p header (view 1).client.info.finalizedNumber
          (j.bind fun j => j.intoJustification grandpaEngineId) (view 3).voterSet := by
  unfold getFinalityStatus Client.requireHeader
  rcases (view 0).client.header blockHash with e | _ | header
  · simp
  · simp
  · rcases (view 2).client.justifications blockHash with e | j
    · simp
    · simp only [except_ok_bind, except_pure, Except.ok.injEq, Option.some.injEq]
      constructor
      · rintro rfl
        exact ⟨header, j, rfl, rfl, rfl⟩
      · rintro ⟨_, _, rfl, rfl, rfl⟩
        rfl

/-! ### The precommits that count -/

/-- Whether the loop of `verify_justification` adds the weight of a signed precommit. -/
def counts (V : VoterSet Id) (signedPrecommit : SignedPrecommit Id Sig) : Bool :=
  (V.get signedPrecommit.id).isSome &&
    G.verify signedPrecommit.signature (signedPrecommit.precommit.encode B) signedPrecommit.id

/-- The voters of the precommits that count, one entry for each precommit. -/
def countedVoters (V : VoterSet Id) (precommits : List (SignedPrecommit Id Sig)) : List Id :=
  (precommits.filter (counts B G V)).map SignedPrecommit.id

lemma counts_eq_true_iff {V : VoterSet Id} {sp : SignedPrecommit Id Sig} :
    counts B G V sp = true ↔
      sp.id ∈ V.ids ∧ G.verify sp.signature (sp.precommit.encode B) sp.id = true := by
  rw [counts, Bool.and_eq_true, V.get_isSome_iff]

lemma mem_ids_of_mem_countedVoters {V : VoterSet Id}
    {precommits : List (SignedPrecommit Id Sig)} {id : Id}
    (h : id ∈ countedVoters B G V precommits) : id ∈ V.ids := by
  obtain ⟨sp, hsp, rfl⟩ := List.mem_map.mp h
  exact ((counts_eq_true_iff B G).mp (List.mem_filter.mp hsp).2).1

/-- **The signed weight** is the weight of the ballots that count, capped at `u64::MAX`. -/
theorem signedWeight_eq (V : VoterSet Id) (precommits : List (SignedPrecommit Id Sig)) :
    signedWeight B G V precommits
      = min (Weighted.ballotWeight V.weightOf (countedVoters B G V precommits)) u64Max := by
  -- the body of the loop adds under a test, whichever of its two branches skips
  have hbody : (fun (acc : ℕ) (sp : SignedPrecommit Id Sig) =>
      match V.get sp.id with
      | some weight =>
        if G.verify sp.signature (sp.precommit.encode B) sp.id then
          satAdd u64Max acc weight
        else acc
      | none => acc)
      = fun acc sp => if counts B G V sp then satAdd u64Max acc (V.weightOf sp.id) else acc := by
    funext acc sp
    unfold counts VoterSet.weightOf
    cases V.get sp.id with
    | none => simp
    | some weight => simp
  have hweights : Weighted.ballotWeight V.weightOf (countedVoters B G V precommits)
      = ((precommits.filter (counts B G V)).map fun sp => V.weightOf sp.id).sum := by
    rw [Weighted.ballotWeight, countedVoters, List.map_map]
    rfl
  rw [signedWeight, hbody, ← Saturating.satSum, Saturating.satSum_eq, hweights]

lemma verifyJustification_eq (p : GrandpaVerificationParams F) (V : VoterSet Id)
    (J : GrandpaJustification Id Sig) :
    verifyJustification B G p V J
      = .ok (decide (p.minParticipation ≤
            F64.ofU64 (signedWeight B G V J.commit.precommits) / F64.ofU64 V.totalWeight),
          F64.ofU64 (signedWeight B G V J.commit.precommits) / F64.ofU64 V.totalWeight) := by
  rw [verifyJustification]
  simp only [V.totalWeight_pos, if_true]

end FrostSubstrate
