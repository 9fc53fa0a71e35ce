/-
Patterns in texts that contain given words.

A pattern that does not have the symbol `c` cannot reach over it, so it occurs in words put
together with `c` behind each of them exactly when it occurs in one of the words
(`infix_joined_iff`).  Hence the patterns that occur in every text with the given words are those
that occur in one of the words (`forall_text_iff`), as long as each pattern lacks some symbol.
-/
import Mathlib.Data.List.Infix
import Mathlib.Data.List.Perm.Subperm

namespace Infixes

variable {α : Type*} {c : α} {a b p w text : List α} {words patterns : List (List α)}

/-- The words, one after the other, with `c` behind each of them. -/
def joined (c : α) (words : List (List α)) : List α := words.flatMap fun w => w ++ [c]

lemma joined_cons : joined c (w :: words) = w ++ c :: joined c words := by
  simp [joined]

lemma infix_joined_of_mem (hw : w ∈ words) : w <:+: joined c words := by
  induction words with
  | nil => cases hw
  | cons first words ih =>
    rw [joined_cons]
    rcases List.mem_cons.mp hw with rfl | hw
    · exact List.infix_append_left
    · exact (ih hw).trans ((List.suffix_cons _ _).isInfix.trans List.infix_append_right)

/-- A pattern does not reach over a symbol it does not have. -/
lemma infix_append_cons_iff (hc : c ∉ p) : p <:+: a ++ c :: b ↔ p <:+: a ∨ p <:+: b := by
  constructor
  · rintro ⟨s, t, h⟩
    rcases List.append_eq_append_iff.mp h with ⟨l, rfl, -⟩ | ⟨l, hsp, hl⟩
    · exact Or.inl (List.infix_append_of_infix_left (List.infix_append_right))
    · cases l with
      | nil =>
        rw [List.append_nil] at hsp
        exact Or.inl (hsp ▸ List.infix_append_right)
      | cons c' l =>
        obtain ⟨rfl, rfl⟩ := List.cons.inj hl
        right
        -- the symbol stands before the pattern
        rcases List.append_eq_append_iff.mp hsp with ⟨m, -, hp⟩ | ⟨m, hs, hm⟩
        · exact absurd (hp ▸ List.mem_append_right _ List.mem_cons_self) hc
        · cases m with
          | nil =>
            rw [List.nil_append] at hm
            exact absurd (hm ▸ List.mem_cons_self) hc
          | cons c' m =>
            obtain ⟨rfl, rfl⟩ := List.cons.inj hm
            exact List.infix_append_of_infix_left List.infix_append_right
  · rintro (h | h)
    · exact h.trans List.infix_append_left
    · exact h.trans ((List.suffix_cons _ _).isInfix.trans List.infix_append_right)

/-- A pattern without the symbol occurs in joined words when it occurs in one of them. -/
theorem infix_joined_iff (hc : c ∉ p) (hp : p ≠ []) :
    p <:+: joined c words ↔ ∃ w ∈ words, p <:+: w := by
  induction words with
  | nil => simp [joined, hp]
  | cons w words ih =>
    rw [joined_cons, infix_append_cons_iff hc, ih]
    simp

/-- **Patterns that words bring with them.**  Every text with the words has the patterns exactly
when each pattern occurs in one of the words. -/
theorem forall_text_iff (hpatterns : ∀ p ∈ patterns, p ≠ [] ∧ ∃ c, c ∉ p) :
    (∀ text, (∀ w ∈ words, w <:+: text) → ∀ p ∈ patterns, p <:+: text) ↔
      ∀ p ∈ patterns, ∃ w ∈ words, p <:+: w := by
  constructor
  · intro h p hp
    obtain ⟨hne, c, hc⟩ := hpatterns p hp
    exact (infix_joined_iff hc hne).mp
      (h (joined c words) (fun w hw => infix_joined_of_mem hw) p hp)
  · intro h text hwords p hp
    obtain ⟨w, hw, hpw⟩ := h p hp
    exact hpw.trans (hwords w hw)

lemma exists_not_mem {symbols : List α} (hnodup : symbols.Nodup)
    (hlength : p.length < symbols.length) : ∃ c, c ∉ p := by
  by_contra hall
  rw [not_exists_not] at hall
  have hle := (hnodup.subperm fun c _ => hall c).length_le
  omega

end Infixes
