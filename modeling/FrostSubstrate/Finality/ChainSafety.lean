/-
Canonical-chain safety of the verdict.

A block tree is a chain state whose headers are linked: every header is filed under its
hash and stands one above its parent, and the finalized and the best block are known.
The purpose of `is_final` is to recognise the finalized block and its ancestors.  The
code compares numbers instead of following links, so it also accepts a header that lost
to the finalized chain and whose number is low enough, a stale fork; without one the
verdict is safe.
-/
import FrostSubstrate.Finality.Verdict
import FrostSubstrate.Lib.Ancestry

namespace FrostSubstrate

open Ancestry

/-- A chain state whose headers form a tree. -/
structure BlockTree extends ChainState where
  hash_eq : ∀ h header, headers h = some header → header.hash = h
  number_eq : ∀ h header parent, headers h = some header →
    headers header.parentHash = some parent → header.number = parent.number + 1
  finalized_known : ∃ header, headers info.finalizedHash = some header ∧
    header.number = info.finalizedNumber
  best_known : ∃ header, headers info.bestHash = some header ∧ header.number = info.bestNumber

namespace BlockTree

variable (T : BlockTree)

/-- The known parent of a block. -/
def parent (h : H256) : Option H256 :=
  match T.headers h with
  | some header => if (T.headers header.parentHash).isSome then some header.parentHash else none
  | none => none

/-- The number of a known block. -/
def level (h : H256) : ℕ :=
  match T.headers h with
  | some header => header.number
  | none => 0

variable {T}

lemma parent_eq_some {h q : H256} (hp : T.parent h = some q) :
    ∃ header parentHeader, T.headers h = some header ∧ header.parentHash = q ∧
      T.headers q = some parentHeader := by
  unfold parent at hp
  rcases hh : T.headers h with _ | header
  · simp [hh] at hp
  · simp only [hh] at hp
    split_ifs at hp with hq
    obtain ⟨parentHeader, hparent⟩ := Option.isSome_iff_exists.mp hq
    obtain rfl := Option.some.inj hp
    exact ⟨header, parentHeader, rfl, rfl, hparent⟩

lemma level_of_some {h : H256} {header : Header} (hh : T.headers h = some header) :
    T.level h = header.number := by
  simp [level, hh]

/-- The links of a block tree go down by one number each. -/
lemma graded (T : BlockTree) : Graded T.parent T.level := by
  intro h q hp
  obtain ⟨header, parentHeader, hh, rfl, hq⟩ := parent_eq_some hp
  rw [level_of_some hh, level_of_some hq]
  exact T.number_eq h header parentHeader hh hq

/-- The finalized block and its ancestors. -/
def OnFinalizedChain (T : BlockTree) (h : H256) : Prop :=
  Ancestor T.parent h T.info.finalizedHash

/-- **No two blocks of one number are final.** -/
theorem OnFinalizedChain.unique {h h' : H256} (hc : T.OnFinalizedChain h)
    (hc' : T.OnFinalizedChain h') (hl : T.level h = T.level h') : h = h' :=
  Ancestor.unique T.graded hc hc' hl

end BlockTree

/-! ### The verdict on a tree -/

variable {Id Sig F : Type} [DecidableEq Id] [F64 F] (B : BlockT) (G : Grandpa Id Sig)

/-- A header off the finalized chain that no check of `is_final` catches: its number is the
referenced one, far enough below the finalized number and close enough to the best one,
the threshold does not exceed certainty, and the block carries no justification or one
with enough participation. -/
structure StaleFork (p : GrandpaVerificationParams F) (config : PredicateConfig F)
    (T : BlockTree) (V : VoterSet Id) (blockRef : BlockRef) (header : Header) : Prop where
  known : T.headers blockRef.hash = some header
  stale : ¬ T.OnFinalizedChain blockRef.hash
  number_eq : header.number = B.saturatedFrom blockRef.number
  confirmed : B.saturatedFrom config.minConfirmations ≤ T.info.finalizedNumber - header.number
  near_best : T.info.bestNumber - header.number ≤ 50
  threshold : ¬ F64.lit 1 < config.confidenceThreshold
  participation : ∀ bytes, T.grandpaJustification blockRef.hash = some bytes →
    ¬ decodedRate B G p V bytes < F64.lit 0.67

variable {B G} {p : GrandpaVerificationParams F} {config : PredicateConfig F} {T : BlockTree}
  {V : VoterSet Id} {blockRef : BlockRef} {header : Header}

lemma number_le_of_isFinal (hm : 0 < config.minConfirmations)
    (h : isFinalOn B G p config ⟨T.client, V⟩ blockRef = .ok true) :
    ∃ header, T.headers blockRef.hash = some header ∧
      header.number ≤ T.info.finalizedNumber := by
  obtain ⟨header, hh, -, hacc⟩ := isFinalOn_eq_true_iff.mp h
  exact ⟨header, hh, hacc.number_le hm⟩

/-- Where every known header up to the finalized height is on the finalized chain, the
verdict is safe. -/
theorem isFinal_onFinalizedChain_of_no_fork (hm : 0 < config.minConfirmations)
    (hlinear : ∀ h header, T.headers h = some header →
      header.number ≤ T.info.finalizedNumber → T.OnFinalizedChain h)
    (h : isFinalOn B G p config ⟨T.client, V⟩ blockRef = .ok true) :
    T.OnFinalizedChain blockRef.hash := by
  obtain ⟨header, hh, hle⟩ := number_le_of_isFinal hm h
  exact hlinear _ header hh hle

/-- A header is accepted off the finalized chain exactly when it is a stale fork. -/
lemma staleFork_iff (hm : 0 < config.minConfirmations) :
    StaleFork B G p config T V blockRef header ↔
      T.headers blockRef.hash = some header ∧
      header.number = B.saturatedFrom blockRef.number ∧
      Accepts B G p config T.toChainState V blockRef.hash header ∧
      ¬ T.OnFinalizedChain blockRef.hash := by
  constructor
  · intro hs
    have hle : header.number ≤ T.info.finalizedNumber := by
      have hpos := B.saturatedFrom_pos hm
      have := hs.confirmed
      omega
    refine ⟨hs.known, hs.number_eq, ⟨?_, hs.confirmed, hs.near_best, hs.participation⟩, hs.stale⟩
    rw [confidenceOf_of_le hle]
    exact hs.threshold
  · rintro ⟨hh, hn, hacc, hoff⟩
    have hconf := hacc.confident
    rw [confidenceOf_of_le (hacc.number_le hm)] at hconf
    exact ⟨hh, hoff, hn, hacc.confirmed, hacc.near_best, hconf, hacc.participation⟩

/-- **Canonical-chain safety.**  With at least one confirmation asked for, `is_final`
reports only blocks of the finalized chain final exactly where the reference does not name
a stale fork that passes its checks. -/
theorem isFinal_onFinalizedChain_iff (hm : 0 < config.minConfirmations) :
    (isFinalOn B G p config ⟨T.client, V⟩ blockRef = .ok true →
        T.OnFinalizedChain blockRef.hash) ↔
      ¬ ∃ header, StaleFork B G p config T V blockRef header := by
  constructor
  · rintro hsafe ⟨header, hs⟩
    obtain ⟨hh, hn, hacc, hoff⟩ := (staleFork_iff hm).mp hs
    exact hoff (hsafe (isFinalOn_eq_true_iff.mpr ⟨header, hh, hn, hacc⟩))
  · -- an accepted header off the chain would be the stale fork that there is none of
    intro hnone hfinal
    by_contra hoff
    obtain ⟨header, hh, hn, hacc⟩ := isFinalOn_eq_true_iff.mp hfinal
    exact hnone ⟨header, (staleFork_iff hm).mpr ⟨hh, hn, hacc, hoff⟩⟩

/-! ### A tree with a fork that lost -/

/-- A store that holds a list of headers. -/
def headersOf (l : List Header) (h : H256) : Option Header := l.find? fun header => header.hash == h

lemma headersOf_eq_some {l : List Header} {h : H256} {header : Header}
    (hh : headersOf l h = some header) : header ∈ l ∧ header.hash = h := by
  refine ⟨List.mem_of_find?_eq_some hh, ?_⟩
  simpa using List.find?_some hh

/-- The block tree of a list of headers, without justifications. -/
def BlockTree.ofHeaders (l : List Header) (info : Info)
    (hlink : ∀ x ∈ l, ∀ y ∈ l, x.parentHash = y.hash → x.number = y.number + 1)
    (hfin : ∃ header, headersOf l info.finalizedHash = some header ∧
      header.number = info.finalizedNumber)
    (hbest : ∃ header, headersOf l info.bestHash = some header ∧
      header.number = info.bestNumber) : BlockTree where
  headers := headersOf l
  justifications _ := none
  info := info
  hash_eq _ _ hh := (headersOf_eq_some hh).2
  number_eq _ _ _ hh hp :=
    hlink _ (headersOf_eq_some hh).1 _ (headersOf_eq_some hp).1 (headersOf_eq_some hp).2.symm
  finalized_known := hfin
  best_known := hbest

/-- A finalized chain of the blocks `0, 1, 2, 3` and a second child of block `0`. -/
def forkTree : BlockTree :=
  .ofHeaders
    [⟨.repeatByte 1, .zero, 0⟩, ⟨.repeatByte 2, .repeatByte 1, 1⟩,
      ⟨.repeatByte 3, .repeatByte 2, 2⟩, ⟨.repeatByte 4, .repeatByte 3, 3⟩,
      ⟨.repeatByte 9, .repeatByte 1, 1⟩]
    ⟨.repeatByte 4, 3, .repeatByte 4, 3⟩ (by decide) ⟨_, rfl, rfl⟩ ⟨_, rfl, rfl⟩

/-- The block of `forkTree` that lost. -/
def forkRef : BlockRef := ⟨⟨"substrate-default-dev"⟩, 1, .repeatByte 9⟩

lemma forkRef_not_onFinalizedChain : ¬ forkTree.OnFinalizedChain forkRef.hash := by
  intro hfork
  -- block 1 of the finalized chain is another one
  have h23 : forkTree.parent (.repeatByte 3) = some (.repeatByte 2) := rfl
  have h34 : forkTree.parent (.repeatByte 4) = some (.repeatByte 3) := rfl
  have hchain : forkTree.OnFinalizedChain (.repeatByte 2) :=
    (Ancestor.of_parent h23).trans (Ancestor.of_parent h34)
  exact absurd (hfork.unique hchain rfl) (by decide)

/-- A configuration that asks for two confirmations and for a confidence of 0.95. -/
def sampleConfig : PredicateConfig ℚ := ⟨2, 0.95, 60⟩

/-- **A block that lost is reported final.** -/
theorem forkRef_reported_final :
    0 < sampleConfig.minConfirmations ∧
      isFinalOn .u32 (Grandpa.ideal fun _ => none) .default sampleConfig
        ⟨forkTree.client, sampleVoters⟩ forkRef = .ok true ∧
      ¬ forkTree.OnFinalizedChain forkRef.hash := by
  refine ⟨by decide, isFinalOn_eq_true_iff.mpr ⟨⟨.repeatByte 9, .repeatByte 1, 1⟩, rfl, rfl, ?_⟩,
    forkRef_not_onFinalizedChain⟩
  refine ⟨?_, by decide, by decide, by decide⟩
  rw [confidenceOf_of_le (by decide)]
  norm_num [sampleConfig]

/-- The statement for this tree and its block that lost, where both sides fail. -/
theorem isFinal_onFinalizedChain_iff_forkTree :
    (isFinalOn .u32 (Grandpa.ideal fun _ => none) .default sampleConfig
          ⟨forkTree.client, sampleVoters⟩ forkRef = .ok true →
        forkTree.OnFinalizedChain forkRef.hash) ↔
      ¬ ∃ header, StaleFork .u32 (Grandpa.ideal fun _ => none) .default sampleConfig forkTree
        sampleVoters forkRef header :=
  isFinal_onFinalizedChain_iff (by decide)

end FrostSubstrate
