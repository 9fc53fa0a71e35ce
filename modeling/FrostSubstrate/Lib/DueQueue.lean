/-
Queues whose head is released while it is due.

Elements with a key are pushed at the end; when the level advances to `n`, elements leave at
the head as long as their keys are at most `n`.  An element is therefore held back by every
one before it that is not due.  The first part is about what such a queue has released: under
growing levels it is the longest due prefix of all that was pushed (`run_advance`), and levels
that follow one another, growing or not, release what the highest of them releases alone
(`Queue.foldl_advance`).  The second part is about what a reader may have wanted instead, the
latest of the due elements, and when the two agree.
-/
import Mathlib.Data.List.Induction
import Mathlib.Data.List.TakeWhile
import Mathlib.Order.MinMax

namespace DueQueue

variable {α N : Type*} [LinearOrder N]

/-! ### The queue -/

/-- What happens to a queue. -/
inductive Op (α N : Type*) where
  | push (a : α)
  | advance (n : N)

/-- A queue with what it has released so far. -/
structure Queue (α : Type*) where
  released : List α
  pending : List α

/-- Whether an element may leave at level `n`. -/
def due (key : α → N) (n : N) (a : α) : Bool := decide (key a ≤ n)

variable {key : α → N} {n : N} {a b : α} {l : List α} {ops : List (Op α N)}

@[simp] lemma due_eq_true_iff : due key n a = true ↔ key a ≤ n := decide_eq_true_iff

variable (key)

def Queue.step (q : Queue α) : Op α N → Queue α
  | .push a => ⟨q.released, q.pending ++ [a]⟩
  | .advance n =>
    ⟨q.released ++ q.pending.takeWhile (due key n), q.pending.dropWhile (due key n)⟩

/-- The queue after these operations, from the empty one. -/
def run (ops : List (Op α N)) : Queue α := ops.foldl (Queue.step key) ⟨[], []⟩

/-- The elements pushed, in order. -/
def pushed (ops : List (Op α N)) : List α :=
  ops.filterMap fun
    | .push a => some a
    | .advance _ => none

/-- The levels advanced to, in order. -/
def levels (ops : List (Op α N)) : List N :=
  ops.filterMap fun
    | .push _ => none
    | .advance n => some n

@[simp] lemma run_append_singleton (op : Op α N) :
    run key (ops ++ [op]) = (run key ops).step key op := by
  simp only [run, List.foldl_append, List.foldl_cons, List.foldl_nil]

/-- **Conservation.**  What was pushed has been released or is pending, in the order of the
pushes. -/
theorem run_conserves (ops : List (Op α N)) :
    (run key ops).released ++ (run key ops).pending = pushed ops := by
  induction ops using List.reverseRecOn with
  | nil => rfl
  | append_singleton ops op ih =>
    rw [run_append_singleton, pushed, List.filterMap_append, ← pushed, ← ih]
    cases op with
    | push a => simp [Queue.step]
    | advance n => simp [Queue.step, List.takeWhile_append_dropWhile]

variable {key}

/-- What has been released was due at some level, so it is due at every higher one. -/
lemma due_of_mem_released (hlevels : ∀ m ∈ levels ops, m ≤ n) (h : a ∈ (run key ops).released) :
    key a ≤ n := by
  induction ops using List.reverseRecOn with
  | nil => cases h
  | append_singleton ops op ih =>
    simp only [levels, List.filterMap_append, List.mem_append] at hlevels
    have hbefore : ∀ m ∈ levels ops, m ≤ n := fun m hm => hlevels m (Or.inl hm)
    rw [run_append_singleton] at h
    cases op with
    | push b => exact ih hbefore h
    | advance m =>
      rcases List.mem_append.mp h with h | h
      · exact ih hbefore h
      · have hm : m ≤ n := hlevels m (Or.inr (by simp))
        exact (due_eq_true_iff.mp (List.mem_takeWhile_imp h)).trans hm

/-- **What a growing level releases.**  When the level advances to `n` and has never been
higher, the queue has released the longest due prefix of all that was pushed. -/
theorem run_advance (hlevels : ∀ m ∈ levels ops, m ≤ n) :
    run key (ops ++ [.advance n])
      = ⟨(pushed ops).takeWhile (due key n), (pushed ops).dropWhile (due key n)⟩ := by
  have hreleased : ∀ a ∈ (run key ops).released, due key n a = true := by
    intro a ha
    exact due_eq_true_iff.mpr (due_of_mem_released hlevels ha)
  rw [run_append_singleton, ← run_conserves key ops, List.takeWhile_append_of_pos hreleased,
    List.dropWhile_append_of_pos hreleased]
  rfl

/-! ### Levels that follow one another -/

/-- What is released at `n` and then at `m` is what is released at the higher of the two: the
first element that is held back at `n` has a key above `n`. -/
lemma takeWhile_due_max (n m : N) (l : List α) :
    l.takeWhile (due key n) ++ (l.dropWhile (due key n)).takeWhile (due key m)
      = l.takeWhile (due key (max n m)) := by
  induction l with
  | nil => rfl
  | cons a l ih =>
    by_cases hn : key a ≤ n
    · have hpos : due key n a = true := due_eq_true_iff.mpr hn
      have hmax : due key (max n m) a = true := due_eq_true_iff.mpr (le_max_of_le_left hn)
      rw [List.takeWhile_cons_of_pos hpos, List.dropWhile_cons_of_pos hpos,
        List.takeWhile_cons_of_pos hmax, List.cons_append, ih]
    · have hneg : ¬ due key n a = true := fun h => hn (due_eq_true_iff.mp h)
      rw [List.takeWhile_cons_of_neg hneg, List.dropWhile_cons_of_neg hneg, List.nil_append]
      by_cases hm : key a ≤ m
      · have hnm : max n m = m := max_eq_right ((not_le.mp hn).le.trans hm)
        rw [hnm]
      · have hmneg : ¬ due key m a = true := fun h => hm (due_eq_true_iff.mp h)
        have hmaxneg : ¬ due key (max n m) a = true := by
          rw [due_eq_true_iff, le_max_iff, not_or]
          exact ⟨hn, hm⟩
        rw [List.takeWhile_cons_of_neg hmneg, List.takeWhile_cons_of_neg hmaxneg]

lemma dropWhile_due_max (n m : N) (l : List α) :
    (l.dropWhile (due key n)).dropWhile (due key m) = l.dropWhile (due key (max n m)) := by
  -- both are what follows the same prefix of `l`
  have hcancel : l.takeWhile (due key (max n m))
        ++ (l.dropWhile (due key n)).dropWhile (due key m)
      = l.takeWhile (due key (max n m)) ++ l.dropWhile (due key (max n m)) := by
    rw [List.takeWhile_append_dropWhile, ← takeWhile_due_max, List.append_assoc,
      List.takeWhile_append_dropWhile, List.takeWhile_append_dropWhile]
  exact List.append_cancel_left hcancel

lemma Queue.advance_advance (q : Queue α) (n m : N) :
    (q.step key (.advance n)).step key (.advance m) = q.step key (.advance (max n m)) := by
  simp only [Queue.step, List.append_assoc, takeWhile_due_max, dropWhile_due_max]

/-- **Levels in a row.**  Advancing to several levels, in any order, is advancing to the highest
of them. -/
theorem Queue.foldl_advance (q : Queue α) (n : N) (levels : List N) :
    levels.foldl (fun q m => q.step key (.advance m)) (q.step key (.advance n))
      = q.step key (.advance (levels.foldl max n)) := by
  induction levels generalizing n with
  | nil => rfl
  | cons m levels ih => rw [List.foldl_cons, Queue.advance_advance, ih, List.foldl_cons]

/-! ### The latest due element -/

/-- The later of the element found so far and the next one. -/
def laterDue (key : α → N) (n : N) : Option α → α → Option α
  | none, a => if key a ≤ n then some a else none
  | some b, a => if key a ≤ n ∧ key b ≤ key a then some a else some b

/-- The element with the largest key that is due at `n`, the last of them on a tie. -/
def latestDue (key : α → N) (n : N) (l : List α) : Option α := l.foldl (laterDue key n) none

/-- `a` is due at `n`, no due element before it has a larger key, and every due element after
it has a smaller one. -/
def IsLatestDue (key : α → N) (n : N) (l : List α) (a : α) : Prop :=
  ∃ before after, l = before ++ a :: after ∧ key a ≤ n ∧
    (∀ b ∈ before, key b ≤ n → key b ≤ key a) ∧ ∀ b ∈ after, key b ≤ n → key b < key a

lemma latestDue_append_singleton :
    latestDue key n (l ++ [a]) = laterDue key n (latestDue key n l) a := by
  simp only [latestDue, List.foldl_append, List.foldl_cons, List.foldl_nil]

lemma laterDue_of_lt (o : Option α) (h : n < key a) : laterDue key n o a = o := by
  cases o with
  | none => exact if_neg (not_le.mpr h)
  | some b => exact if_neg fun hle => not_le.mpr h hle.1

/-- The latest due element stays so when one with a smaller key, or one that is not due, is
added; one that is due and has no smaller key replaces it. -/
lemma IsLatestDue.append_singleton (h : IsLatestDue key n l b) :
    (key a ≤ n → key a < key b) → IsLatestDue key n (l ++ [a]) b := by
  obtain ⟨before, after, rfl, hdue, hbefore, hafter⟩ := h
  intro hsmaller
  refine ⟨before, after ++ [a], by simp, hdue, hbefore, ?_⟩
  intro c hc hcn
  rcases List.mem_append.mp hc with hc | hc
  · exact hafter c hc hcn
  · obtain rfl := List.mem_singleton.mp hc
    exact hsmaller hcn

lemma IsLatestDue.replaced (h : IsLatestDue key n l b) (hdue : key a ≤ n) (hle : key b ≤ key a) :
    IsLatestDue key n (l ++ [a]) a := by
  obtain ⟨before, after, rfl, -, hbefore, hafter⟩ := h
  refine ⟨before ++ b :: after, [], rfl, hdue, ?_, by simp⟩
  intro c hc hcn
  rcases List.mem_append.mp hc with hc | hc
  · exact (hbefore c hc hcn).trans hle
  · rcases List.mem_cons.mp hc with rfl | hc
    · exact hle
    · exact (hafter c hc hcn).le.trans hle

/-- **The latest due element** is found, unless none is due. -/
theorem latestDue_spec (key : α → N) (n : N) (l : List α) :
    (latestDue key n l = none ∧ ∀ b ∈ l, n < key b) ∨
      ∃ a, latestDue key n l = some a ∧ IsLatestDue key n l a := by
  induction l using List.reverseRecOn with
  | nil => exact Or.inl ⟨rfl, by simp⟩
  | append_singleton l a ih =>
    rw [latestDue_append_singleton]
    rcases ih with ⟨hnone, hl⟩ | ⟨b, hb, hlatest⟩
    · rcases le_or_gt (key a) n with hdue | hlate
      · refine Or.inr ⟨a, by rw [hnone]; exact if_pos hdue, l, [], rfl, hdue, ?_, by simp⟩
        intro b hb hbn
        exact absurd hbn (not_le.mpr (hl b hb))
      · refine Or.inl ⟨by rw [laterDue_of_lt _ hlate, hnone], ?_⟩
        intro b hb
        rcases List.mem_append.mp hb with hb | hb
        · exact hl b hb
        · obtain rfl := List.mem_singleton.mp hb
          exact hlate
    · rw [hb]
      by_cases hnext : key a ≤ n ∧ key b ≤ key a
      · exact Or.inr ⟨a, if_pos hnext, hlatest.replaced hnext.1 hnext.2⟩
      · refine Or.inr ⟨b, if_neg hnext, hlatest.append_singleton ?_⟩
        intro hdue
        exact not_le.mp fun hle => hnext ⟨hdue, hle⟩

/-- There is only one latest due element. -/
theorem IsLatestDue.unique (ha : IsLatestDue key n l a) (hb : IsLatestDue key n l b) : a = b := by
  obtain ⟨before, after, rfl, han, habefore, haafter⟩ := ha
  obtain ⟨before', after', hsplit, hbn, hbbefore, hbafter⟩ := hb
  -- the two places are compared: each element would be smaller than the one behind it
  rcases List.append_eq_append_iff.mp hsplit with ⟨mid, rfl, hmid⟩ | ⟨mid, rfl, hmid⟩
  · cases mid with
    | nil => exact (List.cons.inj hmid).1
    | cons c mid =>
      obtain ⟨rfl, rfl⟩ := List.cons.inj hmid
      have hlt : key b < key a := haafter b (by simp) hbn
      exact absurd (hbbefore a (by simp) han) (not_le.mpr hlt)
  · cases mid with
    | nil => exact (List.cons.inj hmid).1.symm
    | cons c mid =>
      obtain ⟨rfl, rfl⟩ := List.cons.inj hmid
      have hlt : key a < key b := hbafter a (by simp) han
      exact absurd (habefore b (by simp) hbn) (not_le.mpr hlt)

/-- The fold finds `a` exactly when `a` is the latest due element. -/
theorem latestDue_eq_some_iff : latestDue key n l = some a ↔ IsLatestDue key n l a := by
  rcases latestDue_spec key n l with ⟨hnone, hl⟩ | ⟨b, hb, hlatest⟩
  · refine ⟨fun h => by simp [hnone] at h, ?_⟩
    rintro ⟨before, after, rfl, hdue, -, -⟩
    exact absurd hdue (not_le.mpr (hl a (by simp)))
  · rw [hb, Option.some.injEq]
    exact ⟨fun h => h ▸ hlatest, fun h => hlatest.unique h⟩

lemma latestDue_eq_none_iff : latestDue key n l = none ↔ l.filter (due key n) = [] := by
  rw [List.filter_eq_nil_iff]
  rcases latestDue_spec key n l with ⟨hnone, hl⟩ | ⟨a, ha, before, after, rfl, hdue, -, -⟩
  · refine iff_of_true hnone ?_
    intro b hb hbn
    exact absurd (due_eq_true_iff.mp hbn) (not_le.mpr (hl b hb))
  · refine iff_of_false (by rw [ha]; rintro ⟨⟩) ?_
    intro hnot
    exact hnot a (by simp) (due_eq_true_iff.mpr hdue)

/-! ### Elements in the order of their keys -/

/-- What remains after the due prefix is not due exactly when no due element comes behind one
that is not. -/
lemma forall_dropWhile_iff :
    (∀ a ∈ l.dropWhile (due key n), n < key a) ↔ l.Pairwise fun a b => key b ≤ n → key a ≤ n := by
  induction l with
  | nil => simp
  | cons b l ih =>
    rw [List.pairwise_cons]
    by_cases hb : key b ≤ n
    · rw [List.dropWhile_cons_of_pos (due_eq_true_iff.mpr hb), ih]
      exact (and_iff_right fun _ _ _ => hb).symm
    · rw [List.dropWhile_cons_of_neg fun h => hb (due_eq_true_iff.mp h)]
      constructor
      · intro h
        refine ⟨fun c hc hcn => absurd hcn (not_le.mpr (h c (List.mem_cons_of_mem _ hc))), ?_⟩
        rw [← ih]
        intro c hc
        exact h c (List.mem_cons_of_mem _ (List.dropWhile_sublist _ |>.subset hc))
      · rintro ⟨hhead, -⟩ c hc
        rcases List.mem_cons.mp hc with rfl | hc
        · exact not_le.mp hb
        · exact not_le.mp fun hcn => hb (hhead c hc hcn)

lemma filter_eq_takeWhile (h : l.Pairwise fun a b => key b ≤ n → key a ≤ n) :
    l.filter (due key n) = l.takeWhile (due key n) := by
  have hrest : (l.dropWhile (due key n)).filter (due key n) = [] := by
    rw [List.filter_eq_nil_iff]
    intro a ha hdue
    exact absurd (due_eq_true_iff.mp hdue) (not_le.mpr (forall_dropWhile_iff.mpr h a ha))
  have hprefix : (l.takeWhile (due key n)).filter (due key n) = l.takeWhile (due key n) := by
    rw [List.filter_eq_self]
    intro a ha
    exact List.mem_takeWhile_imp ha
  calc l.filter (due key n)
      = (l.takeWhile (due key n) ++ l.dropWhile (due key n)).filter (due key n) := by
        rw [List.takeWhile_append_dropWhile]
    _ = l.takeWhile (due key n) := by rw [List.filter_append, hprefix, hrest, List.append_nil]

/-- When the keys grow along the list, no due element comes behind one that is not, and the
last due element is the latest one. -/
theorem of_sorted (hsorted : l.Pairwise fun a b => key a ≤ key b) :
    (l.Pairwise fun a b => key b ≤ n → key a ≤ n) ∧
      (l.filter (due key n)).getLast? = latestDue key n l := by
  refine ⟨hsorted.imp fun hab hbn => hab.trans hbn, ?_⟩
  induction l using List.reverseRecOn with
  | nil => rfl
  | append_singleton l a ih =>
    obtain ⟨hl, -, hle⟩ := List.pairwise_append.mp hsorted
    rw [latestDue_append_singleton, List.filter_append, ← ih hl]
    by_cases hdue : due key n a = true
    · -- every due element before the last one has a key that is not larger
      rw [List.filter_cons_of_pos hdue, List.filter_nil, List.getLast?_concat]
      rcases hlast : (l.filter (due key n)).getLast? with _ | b
      · exact (if_pos (due_eq_true_iff.mp hdue)).symm
      · have hb : b ∈ l := (List.mem_filter.mp (List.mem_of_getLast? hlast)).1
        exact (if_pos ⟨due_eq_true_iff.mp hdue, hle b hb a (by simp)⟩).symm
    · have hlt : n < key a := not_le.mp fun h => hdue (due_eq_true_iff.mpr h)
      rw [List.filter_cons_of_neg hdue, List.filter_nil, List.append_nil, laterDue_of_lt _ hlt]

end DueQueue
