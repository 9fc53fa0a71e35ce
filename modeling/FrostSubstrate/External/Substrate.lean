/-
What the source uses of Substrate and of `finality-grandpa`.

The data types carry the fields the source reads.  The three functions of those crates
whose code is not part of the repository -- the decoder of justifications, the signature
check and the constructor of voter sets -- are the fields of `Grandpa`, a parameter of
everything built on them.  A `VoterSet` carries the guarantees of its crate: distinct
voters of positive weight, at least one of them, with a total that fits in `u64`.
-/
import FrostSubstrate.External.Primitives
import FrostSubstrate.Lib.Weighted
import Mathlib.Algebra.BigOperators.Group.List.Basic

namespace FrostSubstrate

/-! ### Headers and the client -/

/-- A block header. -/
structure Header where
  /-- `header.hash()`. -/
  hash : H256
  /-- `header.parent_hash()`. -/
  parentHash : H256
  /-- `header.number()`. -/
  number : ℕ
deriving DecidableEq

/-- `sp_blockchain::Info`. -/
structure Info where
  bestHash : H256
  bestNumber : ℕ
  finalizedHash : H256
  finalizedNumber : ℕ

/-- `ConsensusEngineId`. -/
abbrev ConsensusEngineId := Bytes

/-- `GRANDPA_ENGINE_ID`, the bytes `FRNK`. -/
def grandpaEngineId : ConsensusEngineId := [0x46, 0x52, 0x4e, 0x4b]

/-- `sp_runtime::Justifications`: the encoded justifications of a block with the engines
they belong to. -/
structure Justifications where
  entries : List (ConsensusEngineId × Bytes)

/-- `Justifications::into_justification`. -/
def Justifications.intoJustification (j : Justifications) (engine : ConsensusEngineId) :
    Option Bytes :=
  (j.entries.find? fun entry => entry.1 == engine).map Prod.snd

/-- The client as the code sees it at one moment: the answers of `HeaderBackend` and of
`BlockBackend`.  An error is its rendered text. -/
structure Client where
  header : H256 → Except String (Option Header)
  info : Info
  justifications : H256 → Except String (Option Justifications)

/-- The weighted authorities of a runtime, `AuthorityList`. -/
abbrev AuthorityList (Id : Type) := List (Id × ℕ)

/-- `runtime_api().grandpa_authorities(at)` at one moment. -/
abbrev GrandpaApi (Id : Type) := H256 → Except String (AuthorityList Id)

/-! ### Voter sets -/

/-- `finality_grandpa::VoterSet`. -/
structure VoterSet (Id : Type) where
  /-- The voters with their weights. -/
  voters : List (Id × ℕ)
  nodup : (voters.map Prod.fst).Nodup
  ne_nil : voters ≠ []
  weight_pos : ∀ v ∈ voters, 0 < v.2
  total_le : (voters.map Prod.snd).sum ≤ u64Max

namespace VoterSet

variable {Id : Type}

/-- `VoterSet::total_weight`. -/
def totalWeight (V : VoterSet Id) : ℕ := (V.voters.map Prod.snd).sum

lemma totalWeight_le (V : VoterSet Id) : V.totalWeight ≤ u64Max := V.total_le

lemma totalWeight_pos (V : VoterSet Id) : 0 < V.totalWeight := by
  obtain ⟨v, hv⟩ := List.exists_mem_of_ne_nil _ V.ne_nil
  have hle : v.2 ≤ V.totalWeight :=
    List.single_le_sum (fun _ _ => Nat.zero_le _) _ (List.mem_map_of_mem hv)
  have := V.weight_pos v hv
  omega

variable [DecidableEq Id]

/-- `VoterSet::get`: the weight of a voter. -/
def get (V : VoterSet Id) (id : Id) : Option ℕ := V.voters.lookup id

/-- The weight of a voter, zero for an unknown one. -/
def weightOf (V : VoterSet Id) (id : Id) : ℕ := (V.get id).getD 0

/-- The identities of the voters. -/
def ids (V : VoterSet Id) : Finset Id := (V.voters.map Prod.fst).toFinset

end VoterSet

lemma map_lookup_keys {Id : Type} [DecidableEq Id] {l : List (Id × ℕ)}
    (h : (l.map Prod.fst).Nodup) :
    (l.map Prod.fst).map (fun id => (l.lookup id).getD 0) = l.map Prod.snd := by
  induction l with
  | nil => rfl
  | cons v l ih =>
    obtain ⟨id, w⟩ := v
    simp only [List.map_cons, List.nodup_cons] at h ⊢
    obtain ⟨hid, hl⟩ := h
    rw [List.lookup_cons_self, Option.getD_some, ← ih hl]
    congr 1
    apply List.map_congr_left
    intro id' hid'
    have hne : id' ≠ id := fun heq => hid (heq ▸ hid')
    rw [List.lookup_cons, beq_false_of_ne hne]

namespace VoterSet

variable {Id : Type} [DecidableEq Id]

lemma get_isSome_iff (V : VoterSet Id) (id : Id) : (V.get id).isSome = true ↔ id ∈ V.ids := by
  rw [get, ids, List.mem_toFinset]
  induction V.voters with
  | nil => simp
  | cons v l ih =>
    obtain ⟨id', w⟩ := v
    rw [List.lookup_cons, List.map_cons, List.mem_cons]
    by_cases hid : id = id'
    · subst hid
      simp
    · rw [beq_false_of_ne hid]
      simp [hid, ih]

/-- The voters of a set weigh its total. -/
theorem weight_ids (V : VoterSet Id) : Weighted.weight V.weightOf V.ids = V.totalWeight := by
  rw [Weighted.weight, ids, List.sum_toFinset _ V.nodup, totalWeight]
  exact congrArg List.sum (map_lookup_keys V.nodup)

end VoterSet

/-! ### Justifications -/

/-- `finality_grandpa::Precommit`. -/
structure Precommit where
  targetHash : H256
  targetNumber : ℕ
deriving DecidableEq

/-- `finality_grandpa::SignedPrecommit`. -/
structure SignedPrecommit (Id Sig : Type) where
  precommit : Precommit
  signature : Sig
  id : Id

/-- `finality_grandpa::Commit`. -/
structure Commit (Id Sig : Type) where
  targetHash : H256
  targetNumber : ℕ
  precommits : List (SignedPrecommit Id Sig)

/-- `sp_consensus_grandpa::GrandpaJustification`. -/
structure GrandpaJustification (Id Sig : Type) where
  round : ℕ
  commit : Commit Id Sig

/-- The SCALE encoding of a precommit: its target hash and its target number. -/
def Precommit.encode (B : BlockT) (p : Precommit) : Bytes :=
  p.targetHash.bytes ++ leBytes B.numberBytes p.targetNumber

/-- What a GRANDPA voter signs, `sp_consensus_grandpa::localized_payload`: the encoding of
`(Message::Precommit(precommit), round, set_id)`, the message being the variant with index
one. -/
def localizedPayload (B : BlockT) (p : Precommit) (round setId : ℕ) : Bytes :=
  1 :: p.encode B ++ leBytes 8 round ++ leBytes 8 setId

/-- The payload of a voter is longer than the bare precommit. -/
lemma localizedPayload_ne_encode (B : BlockT) (p q : Precommit) (round setId : ℕ) :
    localizedPayload B p round setId ≠ q.encode B := by
  intro h
  have hlen := congrArg List.length h
  simp only [localizedPayload, Precommit.encode, List.length_append, List.length_cons,
    length_leBytes, H256.length_eq] at hlen
  omega

/-- The functions of the linked crates whose code the repository does not contain. -/
structure Grandpa (Id Sig : Type) where
  /-- `GrandpaJustification::<B::Header>::decode`. -/
  decode : Bytes → Option (GrandpaJustification Id Sig)
  /-- `signature.verify(message, id)`. -/
  verify : Sig → Bytes → Id → Bool
  /-- `VoterSet::new`. -/
  newVoterSet : List (Id × ℕ) → Option (VoterSet Id)

/-! ### Ideal signatures

The instance in which a signature is the pair of its signer and of the bytes signed.  It
shows that the assumptions made about `Grandpa` can be met. -/

/-- The voter set of a list of distinct authorities of positive weight. -/
def VoterSet.ofDistinct {Id : Type} [DecidableEq Id] (l : List (Id × ℕ)) :
    Option (VoterSet Id) :=
  if h : (l.map Prod.fst).Nodup ∧ l ≠ [] ∧ (∀ v ∈ l, 0 < v.2) ∧
      (l.map Prod.snd).sum ≤ u64Max then
    some ⟨l, h.1, h.2.1, h.2.2.1, h.2.2.2⟩
  else none

/-- GRANDPA with ideal signatures, for a given decoder. -/
def Grandpa.ideal (decode : Bytes → Option (GrandpaJustification ℕ (ℕ × Bytes))) :
    Grandpa ℕ (ℕ × Bytes) where
  decode := decode
  verify signature message id := decide (signature = (id, message))
  newVoterSet := VoterSet.ofDistinct

/-- GRANDPA with ideal signatures and no decodable justification. -/
def plainGrandpa : Grandpa ℕ (ℕ × Bytes) := .ideal fun _ => none

/-- A set of three equal voters. -/
def sampleVoters : VoterSet ℕ where
  voters := [(1, 1), (2, 1), (3, 1)]
  nodup := by decide
  ne_nil := by decide
  weight_pos := by decide
  total_le := by decide

lemma Grandpa.ideal_verify_inj {decode : Bytes → Option (GrandpaJustification ℕ (ℕ × Bytes))}
    {signature : ℕ × Bytes} {m m' : Bytes} {id : ℕ}
    (h : (Grandpa.ideal decode).verify signature m id = true)
    (h' : (Grandpa.ideal decode).verify signature m' id = true) : m = m' := by
  simp only [Grandpa.ideal, decide_eq_true_eq] at h h'
  exact (Prod.mk.inj (h.symm.trans h')).2

end FrostSubstrate
