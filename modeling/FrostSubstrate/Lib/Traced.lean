/-
Computations that may fail or panic, and that leave a trace.

An asynchronous handler does three things a pure function does not: it returns early
with an error, it may panic, and it has effects on the outside before it does either.
`Outcome ε α` is how such a computation ends, `Traced σ ε α` adds the list of effects
it had by then.  Both are monads whose `bind` is the early return of `?`.

The second part is about loops over a list that run the same body on every element and
stop at the first one that does not succeed: which elements the body is run on
(`reached`), what trace the loop leaves (`forEach_trace`), and when it succeeds
(`forEach_isOk_iff`).  The third is about computations that note more than their effects:
`restrict` forgets the rest.
-/
import Mathlib.Data.List.Basic
import Mathlib.Tactic.Cases

/-- How a computation ends: with a result, with an error, or in a panic. -/
inductive Outcome (ε α : Type) where
  | ok (a : α)
  | err (e : ε)
  | panicked
deriving DecidableEq, Repr

namespace Outcome

variable {ε ε' α β : Type}

/-- Run the continuation on a result; an error or a panic ends the computation. -/
def bind : Outcome ε α → (α → Outcome ε β) → Outcome ε β
  | ok a, f => f a
  | err e, _ => err e
  | panicked, _ => panicked

instance : Monad (Outcome ε) where
  pure := ok
  bind := bind

@[simp] lemma pure_eq (a : α) : (pure a : Outcome ε α) = ok a := rfl

@[simp] lemma ok_bind (a : α) (f : α → Outcome ε β) : (ok a >>= f) = f a := rfl

@[simp] lemma err_bind (e : ε) (f : α → Outcome ε β) : (err e >>= f) = err e := rfl

@[simp] lemma panicked_bind (f : α → Outcome ε β) : (panicked >>= f) = panicked := rfl

/-- Change the error of a computation. -/
def mapErr (g : ε → ε') : Outcome ε α → Outcome ε' α
  | ok a => ok a
  | err e => err (g e)
  | panicked => panicked

/-- A computation that cannot panic. -/
def ofExcept : Except ε α → Outcome ε α
  | .ok a => ok a
  | .error e => err e

@[simp] lemma ofExcept_ok (a : α) : ofExcept (.ok a : Except ε α) = ok a := rfl

@[simp] lemma ofExcept_error (e : ε) : ofExcept (.error e : Except ε α) = err e := rfl

/-- Whether the computation returned a result. -/
def isOk : Outcome ε α → Bool
  | ok _ => true
  | _ => false

@[simp] lemma isOk_ok (a : α) : (ok a : Outcome ε α).isOk = true := rfl

@[simp] lemma isOk_err (e : ε) : (err e : Outcome ε α).isOk = false := rfl

@[simp] lemma isOk_panicked : (panicked : Outcome ε α).isOk = false := rfl

lemma isOk_iff {o : Outcome ε α} : o.isOk = true ↔ ∃ a, o = ok a := by
  cases o <;> simp

lemma bind_eq_ok_iff {o : Outcome ε α} {f : α → Outcome ε β} {b : β} :
    (o >>= f) = ok b ↔ ∃ a, o = ok a ∧ f a = ok b := by
  cases o <;> simp

lemma bind_eq_panicked_iff {o : Outcome ε α} {f : α → Outcome ε β} :
    (o >>= f) = panicked ↔ o = panicked ∨ ∃ a, o = ok a ∧ f a = panicked := by
  cases o <;> simp

instance : LawfulMonad (Outcome ε) :=
  LawfulMonad.mk' (Outcome ε) (fun o => by cases o <;> rfl) (fun _ _ => rfl)
    (fun o _ _ => by cases o <;> rfl)

lemma mapM_eq_ok_map {f : α → Outcome ε β} {g : α → β} {l : List α}
    (h : ∀ a ∈ l, f a = ok (g a)) : l.mapM f = ok (l.map g) := by
  induction l with
  | nil => rfl
  | cons a l ih =>
    rw [List.mapM_cons, h a List.mem_cons_self, ok_bind,
      ih fun b hb => h b (List.mem_cons_of_mem _ hb)]
    rfl

end Outcome

/-- A computation together with the effects it had on the outside. -/
structure Traced (σ ε α : Type) where
  /-- The effects, in the order they happened. -/
  trace : List σ
  /-- How the computation ended. -/
  outcome : Outcome ε α

namespace Traced

variable {σ ε α β : Type}

/-- The computation that ends at once with the given outcome. -/
def lift (o : Outcome ε α) : Traced σ ε α := ⟨[], o⟩

/-- The computation whose only effect is `e`. -/
def emit (e : σ) : Traced σ ε Unit := ⟨[e], .ok ()⟩

/-- Sequencing: the effects of the continuation follow those of the first part. -/
def bind (r : Traced σ ε α) (f : α → Traced σ ε β) : Traced σ ε β :=
  match r.outcome with
  | .ok a => ⟨r.trace ++ (f a).trace, (f a).outcome⟩
  | .err e => ⟨r.trace, .err e⟩
  | .panicked => ⟨r.trace, .panicked⟩

instance : Monad (Traced σ ε) where
  pure a := lift (.ok a)
  bind := bind

@[simp] lemma pure_eq (a : α) : (pure a : Traced σ ε α) = ⟨[], .ok a⟩ := rfl

@[simp] lemma lift_eq (o : Outcome ε α) : (lift o : Traced σ ε α) = ⟨[], o⟩ := rfl

@[simp] lemma mk_ok_bind (l : List σ) (a : α) (f : α → Traced σ ε β) :
    ((⟨l, .ok a⟩ : Traced σ ε α) >>= f) = ⟨l ++ (f a).trace, (f a).outcome⟩ := rfl

@[simp] lemma mk_err_bind (l : List σ) (e : ε) (f : α → Traced σ ε β) :
    ((⟨l, .err e⟩ : Traced σ ε α) >>= f) = ⟨l, .err e⟩ := rfl

@[simp] lemma mk_panicked_bind (l : List σ) (f : α → Traced σ ε β) :
    ((⟨l, .panicked⟩ : Traced σ ε α) >>= f) = ⟨l, .panicked⟩ := rfl

/-- Whether the computation returned a result. -/
def isOk (r : Traced σ ε α) : Bool := r.outcome.isOk

lemma bind_trace_of_isOk {r : Traced σ ε Unit} (f : Unit → Traced σ ε β) (h : r.isOk = true) :
    (r >>= f).trace = r.trace ++ (f ()).trace := by
  obtain ⟨l, o⟩ := r
  obtain ⟨a, rfl⟩ := Outcome.isOk_iff.mp h
  rfl

lemma bind_trace_of_not_isOk {r : Traced σ ε α} (f : α → Traced σ ε β) (h : ¬ r.isOk = true) :
    (r >>= f).trace = r.trace := by
  obtain ⟨l, o⟩ := r
  cases o with
  | ok a => exact absurd rfl h
  | err e => rfl
  | panicked => rfl

lemma bind_isOk {r : Traced σ ε Unit} (f : Unit → Traced σ ε β) :
    (r >>= f).isOk = (r.isOk && (f ()).isOk) := by
  obtain ⟨l, o⟩ := r
  cases o <;> rfl

/-- Run a computation for its effects: an error is dropped, a panic is not. -/
def ignoreErr {ε' : Type} (r : Traced σ ε α) : Traced σ ε' Unit :=
  ⟨r.trace, match r.outcome with
    | .panicked => .panicked
    | _ => .ok ()⟩

@[simp] lemma ignoreErr_trace {ε' : Type} (r : Traced σ ε α) :
    (r.ignoreErr : Traced σ ε' Unit).trace = r.trace := rfl

lemma ignoreErr_outcome {ε' : Type} {r : Traced σ ε α} (h : r.outcome ≠ .panicked) :
    (r.ignoreErr : Traced σ ε' Unit).outcome = .ok () := by
  obtain ⟨l, o⟩ := r
  cases o with
  | ok a => rfl
  | err e => rfl
  | panicked => exact absurd rfl h

lemma bind_outcome_of_ok {r : Traced σ ε Unit} {f : Unit → Traced σ ε β}
    (h : r.outcome = .ok ()) : (r >>= f).outcome = (f ()).outcome := by
  obtain ⟨l, o⟩ := r
  obtain rfl : o = .ok () := h
  rfl

lemma bind_outcome_ne_panicked {r : Traced σ ε Unit} {f : Unit → Traced σ ε β}
    (hr : r.outcome ≠ .panicked) (hf : (f ()).outcome ≠ .panicked) :
    (r >>= f).outcome ≠ .panicked := by
  obtain ⟨l, o⟩ := r
  cases o with
  | ok a => exact hf
  | err e => rintro ⟨⟩
  | panicked => exact absurd rfl hr

/-! ### Loops -/

/-- Run `f` on the elements of a list, counted from `i`, until one does not succeed. -/
def forEach (f : ℕ → α → Traced σ ε Unit) : ℕ → List α → Traced σ ε Unit
  | _, [] => pure ()
  | i, x :: l => do
    f i x
    forEach f (i + 1) l

/-- The elements the loop reaches, each with its number: all up to the first one that
does not succeed, that one included. -/
def reached (f : ℕ → α → Traced σ ε Unit) : ℕ → List α → List (ℕ × α)
  | _, [] => []
  | i, x :: l => (i, x) :: if (f i x).isOk then reached f (i + 1) l else []

variable {f : ℕ → α → Traced σ ε Unit}

/-- **The trace of a loop** is that of the elements it reaches. -/
theorem forEach_trace (i : ℕ) (l : List α) :
    (forEach f i l).trace = (reached f i l).flatMap fun p => (f p.1 p.2).trace := by
  induction l generalizing i with
  | nil => rfl
  | cons x l ih =>
    rw [forEach, reached, List.flatMap_cons]
    by_cases h : (f i x).isOk = true
    · rw [bind_trace_of_isOk _ h, ih, if_pos h]
    · rw [bind_trace_of_not_isOk _ h, if_neg h, List.flatMap_nil, List.append_nil]

/-- An element is reached exactly when all the ones before it succeed. -/
theorem mem_reached_iff {i : ℕ} {l : List α} {p : ℕ × α} :
    p ∈ reached f i l ↔ ∃ k, p.1 = i + k ∧ l[k]? = some p.2 ∧
      ∀ k' < k, ∀ y, l[k']? = some y → (f (i + k') y).isOk = true := by
  induction l generalizing i with
  | nil => simp [reached]
  | cons x l ih =>
    rw [reached, List.mem_cons]
    constructor
    · rintro (rfl | hp)
      · exact ⟨0, by simp⟩
      · -- the rest of the list is reached only behind a head that succeeds
        by_cases h : (f i x).isOk = true
        · rw [if_pos h] at hp
          obtain ⟨k, hk, hget, hbefore⟩ := ih.mp hp
          refine ⟨k + 1, by omega, by simpa using hget, ?_⟩
          intro k' hk' y hy
          cases k' with
          | zero =>
            obtain rfl : x = y := by simpa using hy
            exact h
          | succ k' =>
            have := hbefore k' (by omega) y (by simpa using hy)
            rwa [Nat.add_right_comm] at this
        · rw [if_neg h] at hp
          cases hp
    · rintro ⟨k, hk, hget, hbefore⟩
      cases k with
      | zero =>
        left
        obtain ⟨j, z⟩ := p
        simp only [List.getElem?_cons_zero, Option.some.injEq] at hget
        simp only [Nat.add_zero] at hk
        rw [hk, hget]
      | succ k =>
        right
        have hx : (f i x).isOk = true := hbefore 0 (by omega) x (by simp)
        rw [if_pos hx, ih]
        refine ⟨k, by omega, by simpa using hget, ?_⟩
        intro k' hk' y hy
        have := hbefore (k' + 1) (by omega) y (by simpa using hy)
        rwa [← Nat.add_assoc, Nat.add_right_comm] at this

/-- A loop succeeds exactly when its body succeeds on every element. -/
theorem forEach_isOk_iff {i : ℕ} {l : List α} :
    (forEach f i l).isOk = true ↔ ∀ k y, l[k]? = some y → (f (i + k) y).isOk = true := by
  induction l generalizing i with
  | nil => simp [forEach, isOk]
  | cons x l ih =>
    rw [forEach, bind_isOk, Bool.and_eq_true, ih]
    constructor
    · rintro ⟨hx, hl⟩ k y hy
      cases k with
      | zero =>
        obtain rfl : x = y := by simpa using hy
        exact hx
      | succ k =>
        have := hl k y (by simpa using hy)
        rwa [Nat.add_right_comm] at this
    · intro h
      refine ⟨h 0 x (by simp), fun k y hy => ?_⟩
      have := h (k + 1) y (by simpa using hy)
      rwa [← Nat.add_assoc, Nat.add_right_comm] at this

lemma forEach_outcome_ne_panicked {i : ℕ} {l : List α}
    (h : ∀ k, ∀ x ∈ l, (f k x).outcome ≠ .panicked) : (forEach f i l).outcome ≠ .panicked := by
  induction l generalizing i with
  | nil => rintro ⟨⟩
  | cons x l ih =>
    exact bind_outcome_ne_panicked (h i x List.mem_cons_self)
      (ih fun k y hy => h k y (List.mem_cons_of_mem _ hy))

/-- A loop that does not succeed at place `k` and does before ends as its body does there. -/
lemma forEach_outcome_of_stop {i k : ℕ} {l : List α} {x : α} (hget : l[k]? = some x)
    (hpassed : ∀ j < k, ∀ y, l[j]? = some y → (f (i + j) y).outcome = .ok ())
    (hstop : (f (i + k) x).isOk ≠ true) : (forEach f i l).outcome = (f (i + k) x).outcome := by
  induction l generalizing i k with
  | nil => cases hget
  | cons a l ih =>
    cases k with
    | zero =>
      obtain rfl : a = x := by simpa using hget
      show (f i a >>= fun _ => forEach f (i + 1) l).outcome = (f i a).outcome
      have hhead : (f i a).isOk ≠ true := hstop
      generalize f i a = r at hhead
      obtain ⟨trace, outcome⟩ := r
      cases outcome with
      | ok _ => exact absurd rfl hhead
      | err e => rfl
      | panicked => rfl
    | succ k =>
      have hhead : (f i a).outcome = .ok () := hpassed 0 (by omega) a rfl
      have hshift : ∀ j, i + (j + 1) = i + 1 + j := fun j => by omega
      rw [forEach, bind_outcome_of_ok hhead, hshift k]
      rw [hshift k] at hstop
      refine ih (by simpa using hget) ?_ hstop
      intro j hj y hy
      have hlater := hpassed (j + 1) (by omega) y (by simpa using hy)
      rwa [hshift j] at hlater

/-! ### Parts of a trace -/

section Parts

variable {τ : Type} {P : σ → Prop}

/-- The computation with only the part of its effects that `g` shows. -/
def restrict (g : σ → Option τ) (r : Traced σ ε α) : Traced τ ε α :=
  ⟨r.trace.filterMap g, r.outcome⟩

/-- The computation with its effects renamed. -/
def mapTrace (g : σ → τ) (r : Traced σ ε α) : Traced τ ε α := ⟨r.trace.map g, r.outcome⟩

@[simp] lemma restrict_lift (g : σ → Option τ) (o : Outcome ε α) :
    (lift o : Traced σ ε α).restrict g = lift o := rfl

lemma restrict_emit_of_some {g : σ → Option τ} {e : σ} {e' : τ} (h : g e = some e') :
    (emit e : Traced σ ε Unit).restrict g = emit e' := by
  rw [restrict, emit, List.filterMap_cons_some h]
  rfl

lemma restrict_emit_of_none {g : σ → Option τ} {e : σ} (h : g e = none) :
    (emit e : Traced σ ε Unit).restrict g = pure () := by
  rw [restrict, emit, List.filterMap_cons_none h]
  rfl

@[simp] lemma restrict_bind (g : σ → Option τ) (r : Traced σ ε α) (f : α → Traced σ ε β) :
    (r >>= f).restrict g = r.restrict g >>= fun a => (f a).restrict g := by
  obtain ⟨l, o⟩ := r
  cases o with
  | ok a => simp [restrict, List.filterMap_append]
  | err e => rfl
  | panicked => rfl

lemma restrict_mapTrace {g : σ → τ} {g' : τ → Option σ} (h : ∀ e, g' (g e) = some e)
    (r : Traced σ ε α) : (r.mapTrace g).restrict g' = r := by
  have hcomp : g' ∘ g = some := funext h
  rw [restrict, mapTrace, List.filterMap_map, hcomp, List.filterMap_some]

lemma restrict_forEach (g : σ → Option τ) (i : ℕ) (l : List α) :
    (forEach f i l).restrict g = forEach (fun i x => (f i x).restrict g) i l := by
  induction l generalizing i with
  | nil => rfl
  | cons x l ih =>
    show ((f i x >>= fun _ => forEach f (i + 1) l).restrict g) = _
    rw [restrict_bind, ih]
    rfl

lemma forall_mem_bind {r : Traced σ ε α} {f : α → Traced σ ε β} (hr : ∀ e ∈ r.trace, P e)
    (hf : ∀ a, r.outcome = .ok a → ∀ e ∈ (f a).trace, P e) : ∀ e ∈ (r >>= f).trace, P e := by
  obtain ⟨l, o⟩ := r
  cases o with
  | ok a =>
    intro e he
    rcases List.mem_append.mp he with he | he
    · exact hr e he
    · exact hf a rfl e he
  | err e => exact hr
  | panicked => exact hr

lemma forall_mem_lift {o : Outcome ε α} : ∀ e ∈ (lift o : Traced σ ε α).trace, P e := by
  intro e he
  cases he

lemma forall_mem_emit {e : σ} (h : P e) : ∀ e' ∈ (emit e : Traced σ ε Unit).trace, P e' := by
  intro e' he'
  obtain rfl := List.mem_singleton.mp he'
  exact h

lemma forall_mem_forEach (h : ∀ i x, ∀ e ∈ (f i x).trace, P e) {i : ℕ} {l : List α} :
    ∀ e ∈ (forEach f i l).trace, P e := by
  induction l generalizing i with
  | nil => exact forall_mem_lift
  | cons x l ih => exact forall_mem_bind (h i x) fun _ _ => ih

end Parts

end Traced
