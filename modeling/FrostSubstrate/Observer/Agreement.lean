/-
Agreement of observers.

Several nodes follow one chain, each with a client that is ahead of others or behind them, with
its own voters and its own configuration, and on each of them any number of workers run.  What
they share is the chain: no client knows a header that does not exist, and the finalized heads
lie on one chain, which is what GRANDPA guarantees.  Where no client keeps a header that lost at
or below its finalized height, and every configuration asks for a confirmation, all blocks for
which anything is ever routed anywhere lie on one chain, so that no two of them have the same
number.
-/
import FrostSubstrate.Finality.Queries
import FrostSubstrate.Observer.ConcurrentWorkers

namespace FrostSubstrate

open Ancestry

/-! ### The chain that is shared -/

/-- Block trees of many moments, `M`, and the headers that exist. -/
structure Network (M : Type) where
  headers : H256 → Option Header
  number_eq : ∀ h header parent, headers h = some header →
    headers header.parentHash = some parent → header.number = parent.number + 1
  /-- The tree of a client at a moment. -/
  tree : M → BlockTree
  exists_of_known : ∀ m h header, (tree m).headers h = some header → headers h = some header

namespace Network

variable {M : Type} (net : Network M)

/-- The parent of a block, if it exists. -/
def parent (h : H256) : Option H256 :=
  match net.headers h with
  | some header => if (net.headers header.parentHash).isSome then some header.parentHash else none
  | none => none

/-- The number of a block. -/
def level (h : H256) : ℕ :=
  match net.headers h with
  | some header => header.number
  | none => 0

variable {net}

lemma level_of_some {h : H256} {header : Header} (hh : net.headers h = some header) :
    net.level h = header.number := by
  simp [level, hh]

lemma graded (net : Network M) : Graded net.parent net.level := by
  intro h q hp
  unfold parent at hp
  rcases hh : net.headers h with _ | header
  · simp [hh] at hp
  · simp only [hh] at hp
    split_ifs at hp with hq
    obtain ⟨parentHeader, hparent⟩ := Option.isSome_iff_exists.mp hq
    obtain rfl := Option.some.inj hp
    rw [level_of_some hh, level_of_some hparent]
    exact net.number_eq h header parentHeader hh hparent

lemma parent_of_known {m : M} {x y : H256} (h : (net.tree m).parent x = some y) :
    net.parent x = some y := by
  obtain ⟨header, parentHeader, hx, rfl, hy⟩ := BlockTree.parent_eq_some h
  have hx' := net.exists_of_known m _ _ hx
  have hy' := net.exists_of_known m _ _ hy
  simp [parent, hx', hy']

variable (net)

/-- What GRANDPA guarantees: of two finalized heads, one is an ancestor of the other. -/
def OneFinalizedChain : Prop :=
  ∀ m m', Ancestor net.parent (net.tree m).info.finalizedHash (net.tree m').info.finalizedHash ∨
    Ancestor net.parent (net.tree m').info.finalizedHash (net.tree m).info.finalizedHash

/-- No client keeps a header off its finalized chain at or below the finalized height. -/
def Pruned : Prop :=
  ∀ m h header, (net.tree m).headers h = some header →
    header.number ≤ (net.tree m).info.finalizedNumber → (net.tree m).OnFinalizedChain h

/-- The reads of a node see clients of the network, which grow from read to read, and any
voters. -/
structure Follows {Id : Type} (view : ℕ → View Id) : Prop where
  moment : ∀ i, ∃ m, (view i).client = (net.tree m).client
  grows : Grows view

/-! ### The verdicts of the nodes -/

variable {net} {Id Sig F : Type} [DecidableEq Id] [F64 F] {G : Grandpa Id Sig}
  {p : GrandpaVerificationParams F} {config : PredicateConfig F} {view : ℕ → View Id}
  {blockRef : BlockRef} {h h' : H256}

/-- A block that the network has finalized at some moment. -/
def Finalized (net : Network M) (h : H256) : Prop :=
  ∃ m, Ancestor net.parent h (net.tree m).info.finalizedHash

/-- What a node reports final is finalized in the network, and has the number of the
reference. -/
lemma finalized_of_isFinal (hpruned : net.Pruned) (hfollows : net.Follows view)
    (hm : 0 < config.minConfirmations)
    (hfinal : isFinal config (substrateClient .u32 G p view) blockRef = .ok true) :
    net.Finalized blockRef.hash ∧
      net.level blockRef.hash = BlockT.u32.saturatedFrom blockRef.number := by
  obtain ⟨header, hknown, hnumber, hconfirmed⟩ := confirmed_of_isFinal hfollows.grows hfinal
  have hpos := BlockT.u32.saturatedFrom_pos hm
  obtain ⟨m, hclient⟩ := hfollows.moment 6
  have hinfo : (view 6).client.info = (net.tree m).info := congrArg Client.info hclient
  have hheaderTree : (net.tree m).headers blockRef.hash = some header := by
    have hheader := hknown 6
    rw [hclient] at hheader
    exact Except.ok.inj hheader
  rw [hinfo] at hconfirmed
  have hle : header.number ≤ (net.tree m).info.finalizedNumber := by omega
  refine ⟨⟨m, ?_⟩, ?_⟩
  · exact (hpruned m _ _ hheaderTree hle).mono fun _ _ => parent_of_known
  · rw [level_of_some (net.exists_of_known m _ _ hheaderTree), hnumber]

lemma Finalized.comparable (hchain : net.OneFinalizedChain) (hf : net.Finalized h)
    (hf' : net.Finalized h') : Ancestor net.parent h h' ∨ Ancestor net.parent h' h := by
  obtain ⟨m, hm⟩ := hf
  obtain ⟨m', hm'⟩ := hf'
  exact hm.comparable net.graded hm' (hchain m m')

lemma eq_of_level_eq (hcomparable : Ancestor net.parent h h' ∨ Ancestor net.parent h' h)
    (hlevel : net.level h = net.level h') : h = h' := by
  rcases hcomparable with hanc | hanc
  · exact hanc.eq_of_level_eq net.graded hlevel
  · exact (hanc.eq_of_level_eq net.graded hlevel.symm).symm

end Network

/-! ### The nodes -/

variable {M N I : Type} [DecidableEq I] {Id Sig F : Type} [DecidableEq Id] [F64 F]

/-- A node: the parameters of its verification client, the configuration of its predicate, the
targets its observer starts with, and the streams of its workers. -/
structure Node (I F : Type) where
  params : GrandpaVerificationParams F
  config : PredicateConfig F
  targets : List WatchTarget
  streams : I → List StreamItem

/-- The workers of the node ask its own predicate, over what the node sees of the network at
those moments. -/
def Node.Judges (net : Network M) (G : Grandpa Id Sig) (node : Node I F) : Prop :=
  ∀ i, ∀ item ∈ node.streams i, ∃ view : ℕ → View Id, net.Follows view ∧
    ∀ blockRef, item.surroundings.isFinal blockRef
      = isFinal node.config (substrateClient .u32 G node.params view) blockRef

variable {net : Network M} {G : Grandpa Id Sig} {defaults : FrostDefaults}
  {encodeProof : StateProof → Bytes} {node : Node I F}
  {events : List (Parties.Event I WatchTarget)} {entry : I × Effect}

lemma Node.Judges.finalized (hjudges : node.Judges net G) (hpruned : net.Pruned)
    (hm : 0 < node.config.minConfirmations)
    (hentry : entry ∈
      (runWorkers defaults encodeProof node.targets node.streams events).log) :
    net.Finalized entry.2.blockRef.hash ∧
      net.level entry.2.blockRef.hash = BlockT.u32.saturatedFrom entry.2.blockRef.number := by
  obtain ⟨item, hitem, hfinal, target, -, j, message, accepted, heq⟩ :=
    routed_only (mem_log.mp hentry)
  have hblock : entry.2.blockRef = item.ref defaults := by rw [heq]; rfl
  obtain ⟨view, hfollows, hview⟩ := hjudges entry.1 item hitem
  rw [hview] at hfinal
  rw [hblock]
  exact Network.finalized_of_isFinal hpruned hfollows hm hfinal

/-- **Observers agree.**  On nodes of one network whose finalized heads lie on one chain and
whose clients keep no header that lost, all with at least one confirmation asked for: whatever
the voters, the parameters, the targets, the streams and the order of steps and registrations on
each node are, the blocks for which any two workers anywhere have called their routers lie on
one chain, and two such blocks of one number are the same block. -/
theorem routed_blocks_agree (hchain : net.OneFinalizedChain) (hpruned : net.Pruned)
    (nodes : N → Node I F) (hjudges : ∀ n, (nodes n).Judges net G)
    (hm : ∀ n, 0 < (nodes n).config.minConfirmations) (defaults : FrostDefaults)
    (encodeProof : StateProof → Bytes) (events : N → List (Parties.Event I WatchTarget))
    (n n' : N) :
    ∀ entry ∈ (runWorkers defaults encodeProof (nodes n).targets (nodes n).streams
        (events n)).log,
      ∀ entry' ∈ (runWorkers defaults encodeProof (nodes n').targets (nodes n').streams
          (events n')).log,
        (Ancestor net.parent entry.2.blockRef.hash entry'.2.blockRef.hash ∨
          Ancestor net.parent entry'.2.blockRef.hash entry.2.blockRef.hash) ∧
        (entry.2.blockRef.number = entry'.2.blockRef.number →
          entry.2.blockRef.hash = entry'.2.blockRef.hash) := by
  intro entry hentry entry' hentry'
  obtain ⟨hf, hl⟩ := (hjudges n).finalized hpruned (hm n) hentry
  obtain ⟨hf', hl'⟩ := (hjudges n').finalized hpruned (hm n') hentry'
  have hcomparable := hf.comparable hchain hf'
  refine ⟨hcomparable, fun hnumber => Network.eq_of_level_eq hcomparable ?_⟩
  rw [hl, hl', hnumber]

/-! ### Two nodes, one of them behind -/

/-- A chain of the blocks `0, 1, 2, 3`. -/
def straightHeaders : List Header :=
  [⟨.repeatByte 1, .zero, 0⟩, ⟨.repeatByte 2, .repeatByte 1, 1⟩,
    ⟨.repeatByte 3, .repeatByte 2, 2⟩, ⟨.repeatByte 4, .repeatByte 3, 3⟩]

/-- This chain with block `3` or only block `2` finalized. -/
def straightTree (behind : Bool) : BlockTree :=
  .ofHeaders straightHeaders
    (if behind then ⟨.repeatByte 4, 3, .repeatByte 3, 2⟩ else ⟨.repeatByte 4, 3, .repeatByte 4, 3⟩)
    (by decide)
    (by cases behind <;> exact ⟨_, rfl, rfl⟩) (by cases behind <;> exact ⟨_, rfl, rfl⟩)

def straightNetwork : Network Bool where
  headers := headersOf straightHeaders
  number_eq := (straightTree false).number_eq
  tree := straightTree
  exists_of_known _ _ _ h := h

lemma straightNetwork_link :
    straightNetwork.parent (.repeatByte 2) = some (.repeatByte 1) ∧
      straightNetwork.parent (.repeatByte 3) = some (.repeatByte 2) ∧
      straightNetwork.parent (.repeatByte 4) = some (.repeatByte 3) := ⟨rfl, rfl, rfl⟩

lemma straightNetwork_oneFinalizedChain : straightNetwork.OneFinalizedChain := by
  have hlink : Ancestor straightNetwork.parent (.repeatByte 3) (.repeatByte 4) :=
    Ancestor.of_parent straightNetwork_link.2.2
  intro m m'
  cases m with
  | false =>
    cases m' with
    | false => exact Or.inl (Ancestor.refl _)
    | true => exact Or.inr hlink
  | true =>
    cases m' with
    | false => exact Or.inl hlink
    | true => exact Or.inl (Ancestor.refl _)

lemma straightNetwork_pruned : straightNetwork.Pruned := by
  intro m h header hh hle
  obtain ⟨hmem, rfl⟩ := headersOf_eq_some hh
  have h21 : Ancestor (straightTree m).parent (.repeatByte 1) (.repeatByte 2) :=
    Ancestor.of_parent rfl
  have h32 : Ancestor (straightTree m).parent (.repeatByte 2) (.repeatByte 3) :=
    Ancestor.of_parent rfl
  have h43 : Ancestor (straightTree m).parent (.repeatByte 3) (.repeatByte 4) :=
    Ancestor.of_parent rfl
  have htop : (straightTree m).OnFinalizedChain (.repeatByte 3) := by
    cases m with
    | false => exact h43
    | true => exact Ancestor.refl _
  simp only [straightHeaders, List.mem_cons, List.not_mem_nil, or_false] at hmem
  rcases hmem with rfl | rfl | rfl | rfl
  · exact h21.trans (h32.trans htop)
  · exact h32.trans htop
  · exact htop
  · cases m with
    | false => exact Ancestor.refl _
    | true => exact absurd hle (by decide)

/-- The node that is behind asks for one confirmation, the other one for two. -/
def straightConfig (behind : Bool) : PredicateConfig ℚ := ⟨if behind then 1 else 2, 0.95, 60⟩

lemma one_le_u32Max : 1 ≤ u32Max := by decide

/-- A node with one worker that is notified of block `1`. -/
def straightNode (behind : Bool) : Node Unit ℚ where
  params := .default
  config := straightConfig behind
  targets := [sampleTarget]
  streams _ := [⟨⟨.repeatByte 2, 1, one_le_u32Max⟩, { rejecting [] with
    isFinal := isFinalOn .u32 plainGrandpa .default (straightConfig behind)
      ⟨(straightTree behind).client, sampleVoters⟩ }⟩]

lemma straightNode_judges (behind : Bool) :
    (straightNode behind).Judges straightNetwork plainGrandpa := by
  intro i item hitem
  obtain rfl := List.mem_singleton.mp hitem
  exact ⟨fun _ => ⟨(straightTree behind).client, sampleVoters⟩,
    ⟨fun _ => ⟨behind, rfl⟩, fun _ => Client.Later.refl _⟩, fun _ => rfl⟩

lemma straightNode_log (behind : Bool) :
    ∃ entry ∈ (runWorkers zeroDefaults (fun _ => [1]) (straightNode behind).targets
        (straightNode behind).streams (List.replicate 6 (.act ()))).log,
      entry.2.blockRef.number = 1 := by
  have hnumbers : ((runWorkers zeroDefaults (fun _ => [1]) (straightNode behind).targets
      (straightNode behind).streams (List.replicate 6 (.act ()))).log.map fun entry =>
        entry.2.blockRef.number) = [1] := by
    cases behind <;> decide +kernel
  exact List.mem_map.mp (hnumbers ▸ List.mem_singleton_self 1)

/-- The statement for the two nodes, which both get to block `1`. -/
theorem routed_blocks_agree_straight :
    ∃ entry ∈ (runWorkers zeroDefaults (fun _ => [1]) (straightNode false).targets
        (straightNode false).streams (List.replicate 6 (.act ()))).log,
      ∃ entry' ∈ (runWorkers zeroDefaults (fun _ => [1]) (straightNode true).targets
          (straightNode true).streams (List.replicate 6 (.act ()))).log,
        (Ancestor straightNetwork.parent entry.2.blockRef.hash entry'.2.blockRef.hash ∨
          Ancestor straightNetwork.parent entry'.2.blockRef.hash entry.2.blockRef.hash) ∧
        entry.2.blockRef.number = entry'.2.blockRef.number ∧
        entry.2.blockRef.hash = entry'.2.blockRef.hash := by
  obtain ⟨entry, hentry, hnumber⟩ := straightNode_log false
  obtain ⟨entry', hentry', hnumber'⟩ := straightNode_log true
  have hsame : entry.2.blockRef.number = entry'.2.blockRef.number := hnumber.trans hnumber'.symm
  obtain ⟨hcomparable, hhash⟩ := routed_blocks_agree straightNetwork_oneFinalizedChain
    straightNetwork_pruned straightNode straightNode_judges
    (fun behind => by cases behind <;> exact Nat.succ_pos _) zeroDefaults (fun _ => [1])
    (fun _ => List.replicate 6 (.act ())) false true entry hentry entry' hentry'
  exact ⟨entry, hentry, entry', hentry', hcomparable, hsame, hhash hsame⟩

end FrostSubstrate
