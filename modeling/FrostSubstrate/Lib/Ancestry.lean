/-
Trees given by parent links.

A block store keeps, for every block it knows, the name of its parent.  This file
collects what such links give without any assumption that the store is complete: the
ancestors of a block form a chain, and when every link goes down by one level, the
chain has at most one block on each level.
-/
import Mathlib.Logic.Relation
import Mathlib.Data.Nat.Notation

namespace Ancestry

variable {α : Type*}

/-- `Ancestor parent a b`: following parent links from `b` leads to `a` (a block is its
own ancestor). -/
def Ancestor (parent : α → Option α) (a b : α) : Prop :=
  Relation.ReflTransGen (fun x y => parent x = some y) b a

variable {parent : α → Option α} {a b c : α}

lemma Ancestor.refl (a : α) : Ancestor parent a a := Relation.ReflTransGen.refl

lemma Ancestor.of_parent (h : parent b = some a) : Ancestor parent a b :=
  Relation.ReflTransGen.single h

lemma Ancestor.trans (hab : Ancestor parent a b) (hbc : Ancestor parent b c) :
    Ancestor parent a c :=
  Relation.ReflTransGen.trans hbc hab

lemma Ancestor.eq_or_parent (h : Ancestor parent a b) :
    a = b ∨ ∃ p, parent b = some p ∧ Ancestor parent a p := by
  rcases Relation.ReflTransGen.cases_head h with rfl | ⟨p, hp, hrest⟩
  · exact Or.inl rfl
  · exact Or.inr ⟨p, hp, hrest⟩

/-- Ancestry survives when a store learns more links. -/
lemma Ancestor.mono {parent' : α → Option α}
    (hsub : ∀ x y, parent x = some y → parent' x = some y) (h : Ancestor parent a b) :
    Ancestor parent' a b :=
  Relation.ReflTransGen.mono hsub _ _ h

/-! ### Levels -/

/-- Every link goes down by exactly one level. -/
def Graded (parent : α → Option α) (level : α → ℕ) : Prop :=
  ∀ x y, parent x = some y → level x = level y + 1

variable {level : α → ℕ}

lemma Ancestor.level_le (hg : Graded parent level) (h : Ancestor parent a b) :
    level a ≤ level b := by
  induction h with
  | refl => exact Nat.le_refl _
  | tail _ hstep ih =>
    have := hg _ _ hstep
    omega

/-- An ancestor on the level of a block is the block itself. -/
theorem Ancestor.eq_of_level_eq (hg : Graded parent level) (h : Ancestor parent a b)
    (hl : level a = level b) : a = b := by
  rcases h.eq_or_parent with rfl | ⟨p, hp, hap⟩
  · rfl
  · have hle := hap.level_le hg
    have hpb := hg _ _ hp
    omega

/-- **The ancestors of a block form a chain**: of two of them, the one on the lower
level is an ancestor of the other. -/
theorem Ancestor.of_level_le (hg : Graded parent level) (ha : Ancestor parent a c)
    (hb : Ancestor parent b c) (hl : level a ≤ level b) : Ancestor parent a b := by
  induction hb with
  | refl => exact ha
  | @tail x y _ hstep ih =>
    have hxy := hg _ _ hstep
    have hax : Ancestor parent a x := ih (by omega)
    rcases hax.eq_or_parent with rfl | ⟨p, hp, hap⟩
    · omega
    · rw [hstep] at hp
      cases hp
      exact hap

/-- Ancestors of two blocks of one chain are on one chain. -/
theorem Ancestor.comparable {d : α} (hg : Graded parent level) (ha : Ancestor parent a c)
    (hb : Ancestor parent b d) (hcd : Ancestor parent c d ∨ Ancestor parent d c) :
    Ancestor parent a b ∨ Ancestor parent b a := by
  have hsame : ∀ {x y z : α}, Ancestor parent x z → Ancestor parent y z →
      Ancestor parent x y ∨ Ancestor parent y x := by
    intro x y z hx hy
    rcases Nat.le_total (level x) (level y) with hle | hle
    · exact Or.inl (hx.of_level_le hg hy hle)
    · exact Or.inr (hy.of_level_le hg hx hle)
  rcases hcd with hcd | hdc
  · exact hsame (ha.trans hcd) hb
  · exact hsame ha (hb.trans hdc)

/-- A chain has one block on each level. -/
theorem Ancestor.unique (hg : Graded parent level) (ha : Ancestor parent a c)
    (hb : Ancestor parent b c) (hl : level a = level b) : a = b :=
  (ha.of_level_le hg hb (Nat.le_of_eq hl)).eq_of_level_eq hg hl

end Ancestry
