/-
Merkle trees that promote an unpaired node.

A layer joins neighbours in pairs and keeps the last node when it has no partner; the root is what
is left in the end.  The layers only ever apply `node`, so the root is the value of a tree of
leaves (`root_eq_eval`) whose shape depends on the number of leaves alone
(`treeOf_shape`).

Two trees have the same value exactly when they agree place by place, provided `node` is injective
on the pairs it joins in them (`eval_eq_iff_agree`).  A leaf may stand for a whole subtree of
the other tree; trees of one shape agree only when their leaves do.
-/
import Mathlib.Data.List.Basic
import Mathlib.Data.Nat.Notation
import Mathlib.Tactic.Cases

namespace MerkleTree

variable {α β : Type*}

/-! ### Layers -/

/-- The next layer: neighbours are joined, an unpaired last node is promoted. -/
def layer (node : α → α → α) : List α → List α
  | [] => []
  | [a] => [a]
  | a :: b :: l => node a b :: layer node l

/-- What is left after a number of layers. -/
def rootAfter (node : α → α → α) : ℕ → List α → Option α
  | 0, l => l.head?
  | k + 1, l => rootAfter node k (layer node l)

/-- The root of a tree; as many layers as there are leaves leave one node. -/
def root (node : α → α → α) (leaves : List α) : Option α := rootAfter node leaves.length leaves

/-! ### Trees -/

/-- A tree that keeps its leaves. -/
inductive Tree (α : Type*) where
  | leaf (a : α)
  | node (l r : Tree α)

namespace Tree

/-- The value of a tree. -/
def eval (node : α → α → α) : Tree α → α
  | leaf a => a
  | .node l r => node (l.eval node) (r.eval node)

/-- The leaves, from left to right. -/
def leaves : Tree α → List α
  | leaf a => [a]
  | .node l r => l.leaves ++ r.leaves

def map (f : α → β) : Tree α → Tree β
  | leaf a => leaf (f a)
  | .node l r => .node (l.map f) (r.map f)

/-- The pairs that are joined to evaluate a tree. -/
def joined (node : α → α → α) : Tree α → List (α × α)
  | leaf _ => []
  | .node l r => (l.eval node, r.eval node) :: (l.joined node ++ r.joined node)

/-- Two trees agree place by place, where a leaf may stand for a subtree with its value. -/
def Agree (node : α → α → α) : Tree α → Tree α → Prop
  | leaf a, leaf b => a = b
  | leaf a, .node l r => a = node (l.eval node) (r.eval node)
  | .node l r, leaf b => node (l.eval node) (r.eval node) = b
  | .node l r, .node l' r' => Agree node l l' ∧ Agree node r r'

variable {node : α → α → α} {t t' : Tree α}

lemma Agree.eval_eq (h : Agree node t t') : t.eval node = t'.eval node := by
  induction t generalizing t' with
  | leaf a =>
    cases t' with
    | leaf b => exact h
    | node l' r' => exact h
  | node l r ihl ihr =>
    cases t' with
    | leaf b => exact h
    | node l' r' =>
      obtain ⟨hl, hr⟩ := h
      rw [eval, eval, ihl hl, ihr hr]

/-- **Binding.**  If no two pairs joined in two trees are joined to the same value, the trees have
the same value exactly when they agree. -/
theorem eval_eq_iff_agree
    (hinj : ∀ p ∈ t.joined node, ∀ q ∈ t'.joined node, node p.1 p.2 = node q.1 q.2 → p = q) :
    t.eval node = t'.eval node ↔ Agree node t t' := by
  refine ⟨?_, Agree.eval_eq⟩
  induction t generalizing t' with
  | leaf a =>
    cases t' with
    | leaf b => exact id
    | node l' r' => exact id
  | node l r ihl ihr =>
    cases t' with
    | leaf b => exact id
    | node l' r' =>
      intro heval
      have hpair := hinj _ List.mem_cons_self _ List.mem_cons_self heval
      obtain ⟨hl, hr⟩ := Prod.mk.inj hpair
      refine ⟨ihl ?_ hl, ihr ?_ hr⟩
      · intro p hp q hq
        exact hinj p (List.mem_cons_of_mem _ (List.mem_append_left _ hp)) q
          (List.mem_cons_of_mem _ (List.mem_append_left _ hq))
      · intro p hp q hq
        exact hinj p (List.mem_cons_of_mem _ (List.mem_append_right _ hp)) q
          (List.mem_cons_of_mem _ (List.mem_append_right _ hq))

/-- The shape of a tree. -/
def shape (t : Tree α) : Tree Unit := t.map fun _ => ()

lemma length_leaves_of_shape (h : t.shape = t'.shape) : t.leaves.length = t'.leaves.length := by
  induction t generalizing t' with
  | leaf a =>
    cases t' with
    | leaf b => rfl
    | node l' r' => cases h
  | node l r ihl ihr =>
    cases t' with
    | leaf b => cases h
    | node l' r' =>
      obtain ⟨hl, hr⟩ := Tree.node.inj h
      rw [leaves, leaves, List.length_append, List.length_append, ihl hl, ihr hr]

variable (node) in
/-- Trees of one shape agree exactly when they have the same leaves. -/
theorem agree_iff_leaves (h : t.shape = t'.shape) :
    Agree node t t' ↔ t.leaves = t'.leaves := by
  induction t generalizing t' with
  | leaf a =>
    cases t' with
    | leaf b => simp [Agree, leaves]
    | node l' r' => cases h
  | node l r ihl ihr =>
    cases t' with
    | leaf b => cases h
    | node l' r' =>
      obtain ⟨hl, hr⟩ := Tree.node.inj h
      rw [Agree, leaves, leaves, ihl hl, ihr hr]
      constructor
      · rintro ⟨heql, heqr⟩
        rw [heql, heqr]
      · intro happend
        exact List.append_inj happend (length_leaves_of_shape hl)

end Tree

/-! ### The tree of a list of leaves -/

variable {node : α → α → α} {node' : β → β → β} {f : α → β}

variable (node) in
lemma length_layer (l : List α) : (layer node l).length = (l.length + 1) / 2 := by
  induction l using layer.induct with
  | case1 => simp [layer]
  | case2 a => simp [layer]
  | case3 a b l ih =>
    rw [layer, List.length_cons, ih, List.length_cons, List.length_cons]
    omega

lemma layer_map (hf : ∀ a b, f (node a b) = node' (f a) (f b)) (l : List α) :
    layer node' (l.map f) = (layer node l).map f := by
  induction l using layer.induct with
  | case1 => rfl
  | case2 a => rfl
  | case3 a b l ih => simp only [List.map_cons, layer, hf, ih]

lemma rootAfter_map (hf : ∀ a b, f (node a b) = node' (f a) (f b)) (k : ℕ) (l : List α) :
    rootAfter node' k (l.map f) = (rootAfter node k l).map f := by
  induction k generalizing l with
  | zero => exact List.head?_map
  | succ k ih => rw [rootAfter, rootAfter, layer_map hf, ih]

lemma root_map (hf : ∀ a b, f (node a b) = node' (f a) (f b)) (l : List α) :
    root node' (l.map f) = (root node l).map f := by
  rw [root, root, List.length_map, rootAfter_map hf]

/-- The tree over some leaves. -/
def treeOf (leaves : List α) : Option (Tree α) := root Tree.node (leaves.map Tree.leaf)

/-- **The root is the value of the tree.** -/
theorem root_eq_eval (leaves : List α) :
    root node leaves = (treeOf leaves).map (Tree.eval node) := by
  have heval : ∀ l r : Tree α, (Tree.node l r).eval node = node (l.eval node) (r.eval node) :=
    fun _ _ => rfl
  have hleaves : (leaves.map Tree.leaf).map (Tree.eval node) = leaves := by
    rw [List.map_map]
    exact List.map_id' leaves
  rw [treeOf, ← root_map heval, hleaves]

lemma treeOf_shape (leaves : List α) :
    (treeOf leaves).map Tree.shape = treeOf (List.replicate leaves.length ()) := by
  have hshape : ∀ l r : Tree α, (Tree.node l r).shape = .node l.shape r.shape := fun _ _ => rfl
  rw [treeOf, treeOf, ← root_map hshape, List.map_map, ← List.map_const', List.map_map]
  rfl

lemma leaves_layer (l : List (Tree α)) :
    (layer Tree.node l).flatMap Tree.leaves = l.flatMap Tree.leaves := by
  induction l using layer.induct with
  | case1 => rfl
  | case2 a => rfl
  | case3 a b l ih => simp only [layer, List.flatMap_cons, Tree.leaves, ih, List.append_assoc]

/-- Enough layers leave one tree, with all the leaves. -/
lemma exists_rootAfter (k : ℕ) {l : List (Tree α)} (hne : l ≠ []) (hk : l.length ≤ k + 1) :
    ∃ t, rootAfter Tree.node k l = some t ∧ t.leaves = l.flatMap Tree.leaves := by
  have hpos := List.length_pos_iff.mpr hne
  induction k generalizing l with
  | zero =>
    obtain ⟨t, rfl⟩ := List.length_eq_one_iff.mp (show l.length = 1 by omega)
    exact ⟨t, rfl, by simp⟩
  | succ k ih =>
    have hlength := length_layer Tree.node l
    have hne' : layer Tree.node l ≠ [] := by
      apply List.length_pos_iff.mp
      omega
    obtain ⟨t, ht, hleaves⟩ := ih hne' (by omega) (by omega)
    exact ⟨t, ht, hleaves.trans (leaves_layer l)⟩

/-- **The tree over some leaves** has them as its leaves. -/
theorem exists_treeOf {leaves : List α} (hne : leaves ≠ []) :
    ∃ t, treeOf leaves = some t ∧ t.leaves = leaves := by
  obtain ⟨t, ht, hleaves⟩ := exists_rootAfter (leaves.map Tree.leaf).length
    (fun hnil => hne (List.map_eq_nil_iff.mp hnil)) (Nat.le_succ _)
  refine ⟨t, ht, ?_⟩
  rw [hleaves, List.flatMap_map]
  simp [Tree.leaves]

lemma shape_eq_of_length {leaves leaves' : List α} {t t' : Tree α}
    (hlength : leaves.length = leaves'.length) (ht : treeOf leaves = some t)
    (ht' : treeOf leaves' = some t') : t.shape = t'.shape := by
  have hshape := treeOf_shape leaves
  have hshape' := treeOf_shape leaves'
  rw [ht, Option.map_some] at hshape
  rw [ht', Option.map_some, ← hlength, ← hshape, Option.some.injEq] at hshape'
  exact hshape'.symm

end MerkleTree
