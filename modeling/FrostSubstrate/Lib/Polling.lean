/-
Polling: a question is asked again and again until it is answered or it is too late.

`poll` asks for the answers one by one.  A wait ends at the first answer that is not "not yet",
or at the first "not yet" that comes too late (`poll_eq_some_iff`).  With enough fuel the amount
of it does not matter (`poll_of_le`), and if a fixed period passes between any two answers, there
is a bound on how many of them can be in time (`exists_poll_of_period`).
-/
import Mathlib.Algebra.Order.Ring.Nat

namespace Polling

variable {ε : Type*}

/-- How a wait ends: the condition holds, the question fails, or it is too late. -/
inductive Exit (ε : Type*) where
  | held
  | failed (err : ε)
  | expired

/-- The end of a wait, with the number of answers it took. -/
structure Ending (ε : Type*) where
  exit : Exit ε
  checks : ℕ

variable (check : ℕ → Except ε Bool) (late : ℕ → Bool)

/-- Ask for the answers from the `i`-th on; `late i` is whether it is too late after a "not yet"
in the `i`-th. -/
def poll : ℕ → ℕ → Option (Ending ε)
  | 0, _ => none
  | fuel + 1, i =>
    match check i with
    | .error err => some ⟨.failed err, i + 1⟩
    | .ok true => some ⟨.held, i + 1⟩
    | .ok false => if late i then some ⟨.expired, i + 1⟩ else poll fuel (i + 1)

/-- The wait goes on after the `i`-th answer. -/
def GoesOn (i : ℕ) : Prop := check i = .ok false ∧ late i = false

/-- The wait ends with the `i`-th answer. -/
inductive EndsWith (i : ℕ) : Exit ε → Prop where
  | held (h : check i = .ok true) : EndsWith i .held
  | failed (err : ε) (h : check i = .error err) : EndsWith i (.failed err)
  | expired (h : check i = .ok false) (hlate : late i = true) : EndsWith i .expired

variable {check late} {fuel fuel' i n : ℕ} {ending : Ending ε} {exit : Exit ε}

lemma goesOn_or_endsWith (check : ℕ → Except ε Bool) (late : ℕ → Bool) (i : ℕ) :
    GoesOn check late i ∨ ∃ exit, EndsWith check late i exit := by
  rcases hcheck : check i with err | _ | _
  · exact Or.inr ⟨_, .failed err hcheck⟩
  · rcases hlate : late i with _ | _
    · exact Or.inl ⟨hcheck, hlate⟩
    · exact Or.inr ⟨_, .expired hcheck hlate⟩
  · exact Or.inr ⟨_, .held hcheck⟩

lemma EndsWith.not_goesOn (h : EndsWith check late i exit) : ¬ GoesOn check late i := by
  rintro ⟨hcheck, hlate⟩
  cases h with
  | held h => simp [h] at hcheck
  | failed err h => simp [h] at hcheck
  | expired h hlate' => simp [hlate'] at hlate

lemma EndsWith.unique {exit' : Exit ε} (h : EndsWith check late i exit)
    (h' : EndsWith check late i exit') : exit = exit' := by
  cases h with
  | held h =>
    cases h' with
    | held => rfl
    | failed err h' => simp [h] at h'
    | expired h' => simp [h] at h'
  | failed err h =>
    cases h' with
    | held h' => simp [h] at h'
    | failed err' h' =>
      obtain rfl := Except.error.inj (h.symm.trans h')
      rfl
    | expired h' => simp [h] at h'
  | expired h =>
    cases h' with
    | held h' => simp [h] at h'
    | failed err h' => simp [h] at h'
    | expired => rfl

lemma poll_of_goesOn (h : GoesOn check late i) :
    poll check late (fuel + 1) i = poll check late fuel (i + 1) := by
  simp [poll, h.1, h.2]

lemma poll_of_endsWith (h : EndsWith check late i exit) :
    poll check late (fuel + 1) i = some ⟨exit, i + 1⟩ := by
  cases h with
  | held h => simp [poll, h]
  | failed err h => simp [poll, h]
  | expired h hlate => simp [poll, h, hlate]

/-- **How a wait ends.**  It ends with the first answer that does not let it go on, if there is
one within its fuel. -/
theorem poll_eq_some_iff :
    poll check late fuel i = some ending ↔
      ∃ n, i ≤ n ∧ n < i + fuel ∧ (∀ j, i ≤ j → j < n → GoesOn check late j) ∧
        EndsWith check late n ending.exit ∧ ending.checks = n + 1 := by
  induction fuel generalizing i with
  | zero =>
    constructor
    · intro h
      cases h
    · rintro ⟨n, hle, hlt, -⟩
      omega
  | succ fuel ih =>
    rcases goesOn_or_endsWith check late i with hgoes | ⟨exit, hends⟩
    · rw [poll_of_goesOn hgoes, ih]
      constructor
      · rintro ⟨n, hle, hlt, hbefore, hend⟩
        refine ⟨n, by omega, by omega, ?_, hend⟩
        intro j hij hjn
        rcases Nat.eq_or_lt_of_le hij with rfl | hlater
        · exact hgoes
        · exact hbefore j hlater hjn
      · rintro ⟨n, hle, hlt, hbefore, hend, hchecks⟩
        have hne : i ≠ n := by
          rintro rfl
          exact hend.not_goesOn hgoes
        exact ⟨n, by omega, by omega, fun j hij hjn => hbefore j (by omega) hjn, hend, hchecks⟩
    · rw [poll_of_endsWith hends]
      constructor
      · intro h
        obtain rfl := Option.some.inj h
        exact ⟨i, le_rfl, by omega, fun j hij hji => absurd hji (by omega), hends, rfl⟩
      · rintro ⟨n, hle, -, hbefore, hend, hchecks⟩
        have heq : i = n := by
          by_contra hne
          exact hends.not_goesOn (hbefore i le_rfl (by omega))
        subst heq
        obtain ⟨exit', checks⟩ := ending
        obtain rfl : checks = i + 1 := hchecks
        rw [hends.unique hend]

/-- More fuel does not change how a wait ends. -/
theorem poll_of_le (hle : fuel ≤ fuel') (h : poll check late fuel i = some ending) :
    poll check late fuel' i = some ending := by
  obtain ⟨n, hin, hn, hrest⟩ := poll_eq_some_iff.mp h
  exact poll_eq_some_iff.mpr ⟨n, hin, by omega, hrest⟩

lemma exists_poll (hn : n < fuel) (h : ¬ GoesOn check late (i + n)) :
    ∃ ending, poll check late fuel i = some ending := by
  induction n generalizing fuel i with
  | zero =>
    obtain ⟨exit, hends⟩ := (goesOn_or_endsWith check late i).resolve_left h
    obtain ⟨fuel, rfl⟩ := Nat.exists_eq_succ_of_ne_zero (Nat.ne_of_gt hn)
    exact ⟨_, poll_of_endsWith hends⟩
  | succ n ih =>
    obtain ⟨fuel, rfl⟩ := Nat.exists_eq_succ_of_ne_zero (Nat.ne_of_gt (Nat.zero_lt_of_lt hn))
    rcases goesOn_or_endsWith check late i with hgoes | ⟨exit, hends⟩
    · rw [poll_of_goesOn hgoes]
      have hnext : i + 1 + n = i + (n + 1) := by omega
      exact ih (by omega) (hnext ▸ h)
    · exact ⟨_, poll_of_endsWith hends⟩

/-! ### Waits with a period -/

section Period

variable {reading : ℕ → ℕ} {start period limit : ℕ}

/-- The time of an answer when a period passes between any two. -/
lemma le_reading (hstart : start ≤ reading 0) (hperiod : ∀ i, reading i + period ≤ reading (i + 1))
    (i : ℕ) : start + i * period ≤ reading i := by
  induction i with
  | zero => simpa using hstart
  | succ i ih =>
    have hnext := hperiod i
    rw [Nat.add_mul, Nat.one_mul]
    omega

variable (reading) in
/-- **Waits with a period end.**  If a period passes between any two answers and a wait is too
late once more than `limit` has passed since its start, it ends within `limit / period + 2`
answers. -/
theorem exists_poll_of_period (hstart : start ≤ reading 0)
    (hperiod : ∀ i, reading i + period ≤ reading (i + 1)) (hpos : 0 < period)
    (hlate : ∀ i, late i = decide (limit < reading i - start)) :
    ∃ ending, poll check late (limit / period + 2) 0 = some ending := by
  apply exists_poll (n := limit / period + 1) (by omega)
  rintro ⟨-, hintime⟩
  rw [hlate, decide_eq_false_iff_not, Nat.zero_add] at hintime
  have hreading := le_reading hstart hperiod (limit / period + 1)
  have hlimit : limit < (limit / period + 1) * period := by
    rw [Nat.mul_comm]
    exact Nat.lt_mul_div_succ limit hpos
  omega

end Period

end Polling
