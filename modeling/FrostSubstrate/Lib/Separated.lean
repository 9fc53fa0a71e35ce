/-
Words put together with a separator.

Joining two words with a fixed separator between them loses where the separator was: the same
word may be cut at another copy of the separator, and two copies may even overlap.  `Overlap`
says when a word can end in the beginning of another one; with it the ways in which a joined
word has two readings are listed exactly, for two words joined with one separator
(`join_eq_join_iff`) and for a joined word against one with a fixed ending
(`append_eq_join_iff`).
-/
import Mathlib.Data.List.Basic

namespace Separated

variable {α : Type*}

/-- The last `k` elements of `t` are the first `k` of `s`. -/
def Overlap (t s : List α) (k : ℕ) : Prop :=
  k ≤ t.length ∧ k ≤ s.length ∧ t.drop (t.length - k) = s.take k

instance [DecidableEq α] (t s : List α) (k : ℕ) : Decidable (Overlap t s k) :=
  inferInstanceAs (Decidable (_ ∧ _ ∧ _))

variable {a b m n s t x y : List α} {k : ℕ}

/-- A common part of the end of one word and the beginning of another is an overlap, and the rest
of both is what it leaves of them. -/
lemma overlap_of_append (ht : t = x ++ m) (hs : s = m ++ y) :
    Overlap t s m.length ∧ t.take (t.length - m.length) = x ∧ s.drop m.length = y := by
  subst ht hs
  have hlength : (x ++ m).length - m.length = x.length := by
    rw [List.length_append, Nat.add_sub_cancel]
  have htake : (x ++ m).take ((x ++ m).length - m.length) = x := by
    rw [hlength, List.take_left]
  have hoverlap : (x ++ m).drop ((x ++ m).length - m.length) = (m ++ y).take m.length := by
    rw [hlength, List.drop_left, List.take_left]
  exact ⟨⟨by simp, by simp, hoverlap⟩, htake, List.drop_left⟩

lemma Overlap.split (h : Overlap t s k) :
    t.take (t.length - k) ++ s.take k = t ∧ s.take k ++ s.drop k = s := by
  refine ⟨?_, List.take_append_drop k s⟩
  rw [← h.2.2, List.take_append_drop]

/-! ### Two words with one separator -/

/-- The joined words `a, n` and `b, m` are one, and the separator of the second reading comes
later: it is another copy, behind the first or overlapping it. -/
def ReadLater (s a n b m : List α) : Prop :=
  (∃ y, b = a ++ (s ++ y) ∧ n = y ++ (s ++ m)) ∨
    ∃ k, 0 < k ∧ k < s.length ∧ Overlap s s k ∧ b = a ++ s.take (s.length - k) ∧
      n = s.drop k ++ m

/-- Where a second copy of the separator can be found behind the beginning of the first. -/
lemma shift (h : s ++ n = x ++ (s ++ m)) :
    x = [] ∧ n = m ∨ (∃ y, x = s ++ y ∧ n = y ++ (s ++ m)) ∨
      ∃ k, 0 < k ∧ k < s.length ∧ Overlap s s k ∧ x = s.take (s.length - k) ∧
        n = s.drop k ++ m := by
  rcases List.append_eq_append_iff.mp h with ⟨y, hx, hn⟩ | ⟨z, hs, hz⟩
  · exact Or.inr (Or.inl ⟨y, hx, hn⟩)
  · -- the second copy begins inside the first one, which ends in `z`
    rcases List.append_eq_append_iff.mp hz with ⟨w, hzw, hm⟩ | ⟨w, hsw, hn⟩
    · have hlength : x.length + (s.length + w.length) = s.length := by
        rw [← List.length_append, ← hzw, ← List.length_append, ← hs]
      have hx : x = [] := List.eq_nil_of_length_eq_zero (by omega)
      have hw : w = [] := List.eq_nil_of_length_eq_zero (by omega)
      subst hx hw
      exact Or.inl ⟨rfl, hm.symm⟩
    · have hlength : x.length + z.length = s.length := by
        rw [← List.length_append, ← hs]
      rcases Nat.eq_zero_or_pos z.length with hzero | hpos
      · have hz : z = [] := List.eq_nil_of_length_eq_zero hzero
        subst hz
        refine Or.inr (Or.inl ⟨[], ?_, ?_⟩)
        · rw [hs]
          simp
        · rw [hn, ← List.nil_append w, ← hsw]
          rfl
      · rcases Nat.eq_zero_or_pos x.length with hzero | hxpos
        · have hx : x = [] := List.eq_nil_of_length_eq_zero hzero
          have hw : w = [] := by
            have hwlength : z.length + w.length = s.length := by
              rw [← List.length_append, ← hsw]
            exact List.eq_nil_of_length_eq_zero (by omega)
          subst hx hw
          exact Or.inl ⟨rfl, hn⟩
        · obtain ⟨hoverlap, htake, hdrop⟩ := overlap_of_append hs hsw
          exact Or.inr (Or.inr ⟨z.length, hpos, by omega, hoverlap, htake.symm, by rw [hdrop, hn]⟩)

lemma ReadLater.join_eq (h : ReadLater s a n b m) : a ++ (s ++ n) = b ++ (s ++ m) := by
  rcases h with ⟨y, rfl, rfl⟩ | ⟨k, -, -, hoverlap, rfl, rfl⟩
  · simp only [List.append_assoc]
  · -- both copies of the separator are cut where they overlap
    obtain ⟨hleft, hright⟩ := hoverlap.split
    calc a ++ (s ++ (s.drop k ++ m))
        = a ++ ((s.take (s.length - k) ++ s.take k) ++ (s.drop k ++ m)) := by rw [hleft]
      _ = (a ++ s.take (s.length - k)) ++ ((s.take k ++ s.drop k) ++ m) := by
          simp only [List.append_assoc]
      _ = (a ++ s.take (s.length - k)) ++ (s ++ m) := by rw [hright]

/-- **Two readings.**  Two pairs of words joined with one separator give one word exactly when
they are the same pair or one of them is a later reading of the other. -/
theorem join_eq_join_iff :
    a ++ (s ++ n) = b ++ (s ++ m) ↔
      a = b ∧ n = m ∨ ReadLater s a n b m ∨ ReadLater s b m a n := by
  constructor
  · intro h
    rcases List.append_eq_append_iff.mp h with ⟨x, hb, hx⟩ | ⟨x, ha, hx⟩
    · rcases shift hx with ⟨rfl, rfl⟩ | ⟨y, rfl, hn⟩ | ⟨k, hpos, hlt, hoverlap, rfl, hn⟩
      · exact Or.inl ⟨by rw [hb, List.append_nil], rfl⟩
      · exact Or.inr (Or.inl (Or.inl ⟨y, hb, hn⟩))
      · exact Or.inr (Or.inl (Or.inr ⟨k, hpos, hlt, hoverlap, hb, hn⟩))
    · rcases shift hx with ⟨rfl, rfl⟩ | ⟨y, rfl, hm⟩ | ⟨k, hpos, hlt, hoverlap, rfl, hm⟩
      · exact Or.inl ⟨by rw [ha, List.append_nil], rfl⟩
      · exact Or.inr (Or.inr (Or.inl ⟨y, ha, hm⟩))
      · exact Or.inr (Or.inr (Or.inr ⟨k, hpos, hlt, hoverlap, ha, hm⟩))
  · rintro (⟨rfl, rfl⟩ | h | h)
    · rfl
    · exact h.join_eq
    · exact h.join_eq.symm

/-! ### A fixed ending -/

/-- **A fixed ending.**  A word that ends in `s` is one joined with the longer separator `t`
exactly when the second of the joined words ends in `s`, or the separator overlaps `s`. -/
theorem append_eq_join_iff (hlength : s.length < t.length) :
    a ++ s = b ++ (t ++ n) ↔
      (∃ m, n = m ++ s ∧ a = b ++ (t ++ m)) ∨
        ∃ k, 0 < k ∧ Overlap t s k ∧ n = s.drop k ∧ a = b ++ t.take (t.length - k) := by
  constructor
  · intro h
    rw [← List.append_assoc] at h
    rcases List.append_eq_append_iff.mp h with ⟨m, hbt, hs⟩ | ⟨m, ha, hn⟩
    · -- `s` begins in front of the end of the separator
      rcases List.append_eq_append_iff.mp hbt with ⟨l, ha, ht⟩ | ⟨l, hb, hm⟩
      · rcases Nat.eq_zero_or_pos m.length with hzero | hpos
        · have hm : m = [] := List.eq_nil_of_length_eq_zero hzero
          subst hm
          refine Or.inl ⟨[], by simpa using hs.symm, ?_⟩
          rw [ha, ht, List.append_nil, List.append_nil]
        · obtain ⟨hoverlap, htake, hdrop⟩ := overlap_of_append ht hs
          exact Or.inr ⟨m.length, hpos, hoverlap, hdrop.symm, by rw [ha, htake]⟩
      · -- it would contain the whole separator
        have hcontains := congrArg List.length hs
        rw [hm, List.length_append, List.length_append] at hcontains
        omega
    · exact Or.inl ⟨m, hn, by rw [ha, List.append_assoc]⟩
  · rintro (⟨m, rfl, rfl⟩ | ⟨k, -, hoverlap, rfl, rfl⟩)
    · simp only [List.append_assoc]
    · obtain ⟨hleft, hright⟩ := hoverlap.split
      calc (b ++ t.take (t.length - k)) ++ s
          = (b ++ t.take (t.length - k)) ++ (s.take k ++ s.drop k) := by rw [hright]
        _ = b ++ ((t.take (t.length - k) ++ s.take k) ++ s.drop k) := by
            simp only [List.append_assoc]
        _ = b ++ (t ++ s.drop k) := by rw [hleft]

end Separated
