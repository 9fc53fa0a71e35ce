/-
What the Merkle root commits to.

The leaves of the tree are the chunks of the data, the last one filled up with zeros, and not their
hashes.  Two byte strings have one root exactly when their trees agree place by place: then the
strings differ in zeros at the end, or chunks of one are the hashes of inner nodes of the other
(`roots_eq_iff`).  Strings of one length have different roots (`roots_ne_of_length`).
-/
import FrostSubstrate.Lib.MerkleTree
import FrostSubstrate.Proof.Dispatch

namespace FrostSubstrate

open MerkleTree

/-! ### The leaves of some data -/

variable {fuel : ℕ} {data data' : Bytes}

lemma bytes_fillChunk {chunk : Bytes} (h : chunk.length ≤ 32) :
    (fillChunk chunk).bytes = chunk ++ List.replicate (32 - chunk.length) 0 := by
  have hfill : (fillChunk chunk).bytes = (chunk ++ List.replicate 32 0).take 32 := rfl
  rw [hfill, List.take_append, List.take_of_length_le h, List.take_replicate,
    Nat.min_eq_left (Nat.sub_le _ _)]

lemma chunks32_nil : chunks32 fuel [] = [] := by
  cases fuel <;> rfl

lemma chunks32_of_ne_nil (h : data ≠ []) :
    chunks32 (fuel + 1) data = data.take 32 :: chunks32 fuel (data.drop 32) := by
  cases data with
  | nil => exact absurd rfl h
  | cons byte data => rfl

lemma flatMap_chunks32 (hfuel : data.length ≤ fuel) :
    ∃ k < 32, ((chunks32 fuel data).map fillChunk).flatMap H256.bytes
      = data ++ List.replicate k 0 := by
  induction fuel generalizing data with
  | zero =>
    obtain rfl := List.length_eq_zero_iff.mp (Nat.le_zero.mp hfuel)
    exact ⟨0, by decide, rfl⟩
  | succ fuel ih =>
    rcases Nat.eq_zero_or_pos data.length with hzero | hpos
    · obtain rfl := List.length_eq_zero_iff.mp hzero
      exact ⟨0, by decide, rfl⟩
    · rw [chunks32_of_ne_nil (List.length_pos_iff.mp hpos), List.map_cons, List.flatMap_cons]
      by_cases hlast : data.length ≤ 32
      · have hrest : chunks32 fuel (data.drop 32) = [] := by
          rw [List.drop_eq_nil_of_le hlast, chunks32_nil]
        rw [hrest, List.take_of_length_le hlast, bytes_fillChunk hlast]
        exact ⟨32 - data.length, by omega, List.append_nil _⟩
      · have htake : (data.take 32).length = 32 := by
          rw [List.length_take]
          omega
        have hshorter : (data.drop 32).length ≤ fuel := by
          rw [List.length_drop]
          omega
        have hfull : (fillChunk (data.take 32)).bytes = data.take 32 := by
          rw [bytes_fillChunk htake.le, htake, Nat.sub_self, List.replicate_zero, List.append_nil]
        obtain ⟨k, hk, hrest⟩ := ih hshorter
        refine ⟨k, hk, ?_⟩
        rw [hfull, hrest, ← List.append_assoc, List.take_append_drop]

lemma flatMap_merkleLeaves (data : Bytes) :
    ∃ k < 32, (merkleLeaves data).flatMap H256.bytes = data ++ List.replicate k 0 :=
  flatMap_chunks32 le_rfl

lemma length_merkleLeaves (data : Bytes) :
    (merkleLeaves data).length = (data.length + 31) / 32 := by
  obtain ⟨k, hk, hleaves⟩ := flatMap_merkleLeaves data
  have hbytes : ∀ l : List H256, (l.flatMap H256.bytes).length = 32 * l.length := by
    intro l
    induction l with
    | nil => rfl
    | cons h l ih =>
      rw [List.flatMap_cons, List.length_append, h.length_eq, ih, List.length_cons]
      omega
  have hlength := hbytes (merkleLeaves data)
  rw [hleaves, List.length_append, List.length_replicate] at hlength
  omega

lemma merkleLeaves_ne_nil (h : data ≠ []) : merkleLeaves data ≠ [] := by
  have hlength := length_merkleLeaves data
  have hpos := List.length_pos_iff.mpr h
  apply List.length_pos_iff.mp
  omega

lemma merkleLeaves_inj (hlength : data.length = data'.length) :
    merkleLeaves data = merkleLeaves data' ↔ data = data' := by
  constructor
  · intro h
    obtain ⟨k, -, hleaves⟩ := flatMap_merkleLeaves data
    obtain ⟨k', -, hleaves'⟩ := flatMap_merkleLeaves data'
    rw [h, hleaves'] at hleaves
    exact (List.append_inj hleaves hlength.symm).1.symm
  · rintro rfl
    rfl

/-! ### The root -/

/-- The node above two others: `rs_merkle` hashes the two hashes one after the other. -/
def concatAndHash (hash : Bytes → H256) (left right : H256) : H256 :=
  hash (left.bytes ++ right.bytes)

/-- The backend builds its trees as `rs_merkle` does, with a given hash. -/
def ProofBackend.RsMerkle {Id : Type} (backend : ProofBackend Id) (hash : Bytes → H256) : Prop :=
  ∀ leaves, backend.merkleRoot leaves = root (concatAndHash hash) leaves

/-- What is hashed for the root of some data. -/
def hashedInputs (hash : Bytes → H256) (data : Bytes) : List Bytes :=
  match treeOf (merkleLeaves data) with
  | some t => (t.joined (concatAndHash hash)).map fun pair => pair.1.bytes ++ pair.2.bytes
  | none => []

/-- The trees over two byte strings agree place by place: two chunks at one place are the same, and
a chunk at the place of an inner node is the hash of this node. -/
def TreesAgree (hash : Bytes → H256) (data data' : Bytes) : Prop :=
  ∃ t t', treeOf (merkleLeaves data) = some t ∧ treeOf (merkleLeaves data') = some t' ∧
    t.Agree (concatAndHash hash) t'

/-- The hash is injective on what it is given for two byte strings. -/
def InjectiveOnInputs (hash : Bytes → H256) (data data' : Bytes) : Prop :=
  ∀ input ∈ hashedInputs hash data ++ hashedInputs hash data',
    ∀ input' ∈ hashedInputs hash data ++ hashedInputs hash data',
      hash input = hash input' → input = input'

instance (hash : Bytes → H256) (data data' : Bytes) :
    Decidable (InjectiveOnInputs hash data data') :=
  inferInstanceAs (Decidable (∀ input ∈ _, _))

variable {Id : Type} {backend : ProofBackend Id} {hash : Bytes → H256}

lemma roots_eq_iff (hbackend : backend.RsMerkle hash) (hinj : InjectiveOnInputs hash data data')
    (hdata : data ≠ []) (hdata' : data' ≠ []) :
    backend.merkleRoot (merkleLeaves data) = backend.merkleRoot (merkleLeaves data') ↔
      TreesAgree hash data data' := by
  obtain ⟨t, ht, -⟩ := exists_treeOf (merkleLeaves_ne_nil hdata)
  obtain ⟨t', ht', -⟩ := exists_treeOf (merkleLeaves_ne_nil hdata')
  have hpairs : ∀ p ∈ t.joined (concatAndHash hash), ∀ q ∈ t'.joined (concatAndHash hash),
      concatAndHash hash p.1 p.2 = concatAndHash hash q.1 q.2 → p = q := by
    intro p hp q hq heq
    have hinput : p.1.bytes ++ p.2.bytes ∈ hashedInputs hash data := by
      simp only [hashedInputs, ht]
      exact List.mem_map_of_mem hp
    have hinput' : q.1.bytes ++ q.2.bytes ∈ hashedInputs hash data' := by
      simp only [hashedInputs, ht']
      exact List.mem_map_of_mem hq
    -- the parts have fixed lengths, so the concatenation determines them
    have hconcat := hinj _ (List.mem_append_left _ hinput) _ (List.mem_append_right _ hinput') heq
    obtain ⟨hleft, hright⟩ := List.append_inj hconcat (p.1.length_eq.trans q.1.length_eq.symm)
    exact Prod.ext (H256.ext hleft) (H256.ext hright)
  have hroot : backend.merkleRoot (merkleLeaves data) = some (t.eval (concatAndHash hash)) := by
    rw [hbackend, root_eq_eval, ht, Option.map_some]
  have hroot' : backend.merkleRoot (merkleLeaves data') = some (t'.eval (concatAndHash hash)) := by
    rw [hbackend, root_eq_eval, ht', Option.map_some]
  have hagree := Tree.eval_eq_iff_agree hpairs
  rw [hroot, hroot', Option.some.injEq, hagree]
  simp [TreesAgree, ht, ht']

/-- **What the root commits to.**  With a hash that is injective on what it is given for two byte
strings, their roots differ exactly when their trees do not agree. -/
theorem roots_ne_iff (hbackend : backend.RsMerkle hash) (hinj : InjectiveOnInputs hash data data')
    (hdata : data ≠ []) (hdata' : data' ≠ []) :
    backend.merkleRoot (merkleLeaves data) ≠ backend.merkleRoot (merkleLeaves data') ↔
      ¬ TreesAgree hash data data' :=
  not_congr (roots_eq_iff hbackend hinj hdata hdata')

/-- The trees over strings with equally many chunks agree only when the chunks are the same. -/
lemma treesAgree_iff_of_length (hdata : data ≠ []) (hdata' : data' ≠ [])
    (hlength : (merkleLeaves data).length = (merkleLeaves data').length) :
    TreesAgree hash data data' ↔ merkleLeaves data = merkleLeaves data' := by
  obtain ⟨t, ht, hleaves⟩ := exists_treeOf (merkleLeaves_ne_nil hdata)
  obtain ⟨t', ht', hleaves'⟩ := exists_treeOf (merkleLeaves_ne_nil hdata')
  have hagree := Tree.agree_iff_leaves (concatAndHash hash) (shape_eq_of_length hlength ht ht')
  rw [hleaves, hleaves'] at hagree
  rw [← hagree]
  simp [TreesAgree, ht, ht']

/-- **Strings of one length have different roots.** -/
theorem roots_ne_of_length (hbackend : backend.RsMerkle hash)
    (hinj : InjectiveOnInputs hash data data') (hlength : data.length = data'.length)
    (hne : data ≠ data') :
    backend.merkleRoot (merkleLeaves data) ≠ backend.merkleRoot (merkleLeaves data') := by
  have hdata : data ≠ [] := by
    rintro rfl
    exact hne (List.length_eq_zero_iff.mp hlength.symm).symm
  have hdata' : data' ≠ [] := by
    rintro rfl
    exact hdata (List.length_eq_zero_iff.mp hlength)
  have hchunks : (merkleLeaves data).length = (merkleLeaves data').length := by
    rw [length_merkleLeaves, length_merkleLeaves, hlength]
  rw [ne_eq, roots_eq_iff hbackend hinj hdata hdata',
    treesAgree_iff_of_length hdata hdata' hchunks, merkleLeaves_inj hlength]
  exact hne

/-! ### Strings with one root -/

/-- SHA-256 of 64 zeros and, for everything else, of 64 ones. -/
def sampleSha256 (input : Bytes) : H256 :=
  if input = List.replicate 64 0 then
    ⟨[0xf5, 0xa5, 0xfd, 0x42, 0xd1, 0x6a, 0x20, 0x30, 0x27, 0x98, 0xef, 0x6e, 0xd3, 0x09, 0x97,
      0x9b, 0x43, 0x00, 0x3d, 0x23, 0x20, 0xd9, 0xf0, 0xe8, 0xea, 0x98, 0x31, 0xa9, 0x27, 0x59,
      0xfb, 0x4b], rfl⟩
  else
    ⟨[0x7c, 0x89, 0x75, 0xe1, 0xe6, 0x0a, 0x5c, 0x83, 0x37, 0xf2, 0x8e, 0xdf, 0x8c, 0x33, 0xc3,
      0xb1, 0x80, 0x36, 0x0b, 0x72, 0x79, 0x64, 0x4a, 0x9b, 0xc1, 0xaf, 0x3c, 0x51, 0xe6, 0x22,
      0x0b, 0xf5], rfl⟩

/-- A backend that builds its trees with it. -/
def shaBackend : ProofBackend ℕ :=
  { sampleBackend with merkleRoot := root (concatAndHash sampleSha256) }

/-- **Different strings with one root.**  A zero byte more is lost in the filling, and the hash of
64 bytes, taken as data, has the root of these. -/
theorem merkle_roots_collide :
    shaBackend.RsMerkle sampleSha256 ∧
      (InjectiveOnInputs sampleSha256 [0] [0, 0] ∧
        shaBackend.merkleRoot (merkleLeaves [0]) = shaBackend.merkleRoot (merkleLeaves [0, 0])) ∧
      List.replicate 64 0 ≠ (sampleSha256 (List.replicate 64 0)).bytes ∧
      InjectiveOnInputs sampleSha256 (List.replicate 64 0)
        (sampleSha256 (List.replicate 64 0)).bytes ∧
      shaBackend.merkleRoot (merkleLeaves (List.replicate 64 0))
        = shaBackend.merkleRoot (merkleLeaves (sampleSha256 (List.replicate 64 0)).bytes) := by
  refine ⟨fun _ => rfl, ⟨by decide, by decide⟩, by decide, by decide, by decide⟩

/-- The statement for 64 zeros and 64 ones. -/
theorem roots_ne_iff_sampleSha256 :
    shaBackend.merkleRoot (merkleLeaves (List.replicate 64 0))
        ≠ shaBackend.merkleRoot (merkleLeaves (List.replicate 64 1)) ↔
      ¬ TreesAgree sampleSha256 (List.replicate 64 0) (List.replicate 64 1) :=
  roots_ne_iff (fun _ => rfl) (by decide) (by decide) (by decide)

end FrostSubstrate
