/-
Calls that share a value behind a readers–writer lock.

Any number of calls work on one value.  A call does its work inside a section, for which it
holds a guard of the lock: many reading guards at a time, or a single writing one.  Inside, it
takes one step after another, and other calls may take theirs in between.

`serializable` says that this makes no difference.  What the calls have returned is what they
return when they are made one after the other, each as a whole, in the order in which they have
returned, and so is the value when no guard is held.  The invariant behind it (`Inv`) follows
the value that this serial execution has: a reading section has seen nothing else, and a
writing section started from it.
-/
import FrostSubstrate.Lib.Runs
import Mathlib.Data.Finset.Basic
import Mathlib.Logic.Function.Basic

namespace SharedLock

/-- The two kinds of guards. -/
inductive Mode where
  | read
  | write
deriving DecidableEq

/-- A call: the guard it asks for, the state it brings to the lock, or the result it returns
without ever asking for it, and a step inside the section.  A step gets an input from the
outside; it may change the value only under a writing guard. -/
structure Call (V X L R : Type) where
  mode : Mode
  entry : L ⊕ R
  next : V → X → L → V × (L ⊕ R)
  reads : mode = .read → ∀ v x l, (next v x l).1 = v

/-- Where a call is. -/
inductive Place (L R : Type) where
  | outside
  | inside (l : L)
  | returned (r : R)

/-- The value, the calls that hold a guard, the place of every call, and the results in the
order in which they were returned. -/
structure State (T V L R : Type) where
  value : V
  holders : Finset T
  place : T → Place L R
  returns : List (T × R)

/-- A call comes to the lock, or takes a step inside its section. -/
inductive Event (T X : Type) where
  | enter (t : T)
  | advance (t : T) (x : X)

namespace State

variable {T V L R : Type}

/-- No call has been made. -/
def start (v : V) : State T V L R := ⟨v, ∅, fun _ => .outside, []⟩

variable [DecidableEq T]

/-- A call gets its guard. -/
def letIn (s : State T V L R) (t : T) (l : L) : State T V L R :=
  { s with holders := insert t s.holders, place := Function.update s.place t (.inside l) }

/-- A call has taken a step and goes on. -/
def goOn (s : State T V L R) (t : T) (v : V) (l : L) : State T V L R :=
  { s with value := v, place := Function.update s.place t (.inside l) }

/-- A call returns and gives its guard back, if it has one. -/
def finish (s : State T V L R) (t : T) (v : V) (r : R) : State T V L R where
  value := v
  holders := s.holders.erase t
  place := Function.update s.place t (.returned r)
  returns := s.returns ++ [(t, r)]

end State

variable {T V X L R : Type} (call : T → Call V X L R)

/-- The lock gives a guard beside those that are held. -/
def Admits (holders : Finset T) : Mode → Prop
  | .read => ∀ u ∈ holders, (call u).mode = .read
  | .write => holders = ∅

instance [DecidableEq T] (holders : Finset T) : (mode : Mode) → Decidable (Admits call holders mode)
  | .read => inferInstanceAs (Decidable (∀ u ∈ holders, (call u).mode = .read))
  | .write => inferInstanceAs (Decidable (holders = ∅))

/-- One event.  A call that does not get its guard stays where it is. -/
def step [DecidableEq T] (s : State T V L R) : Event T X → State T V L R
  | .enter t =>
    match s.place t, (call t).entry with
    | .outside, .inr r => s.finish t s.value r
    | .outside, .inl l => if Admits call s.holders (call t).mode then s.letIn t l else s
    | _, _ => s
  | .advance t x =>
    match s.place t with
    | .inside l =>
      match (call t).next s.value x l with
      | (v, .inl l') => s.goOn t v l'
      | (v, .inr r) => s.finish t v r
    | _ => s

/-- What one event can come to. -/
inductive Move [DecidableEq T] (s : State T V L R) : State T V L R → Prop where
  | stay : Move s s
  | early {t : T} {r : R} (hplace : s.place t = .outside) (hentry : (call t).entry = .inr r) :
      Move s (s.finish t s.value r)
  | letIn {t : T} {l : L} (hentry : (call t).entry = .inl l)
      (hadmits : Admits call s.holders (call t).mode) : Move s (s.letIn t l)
  | goOn {t : T} {l l' : L} {v : V} {x : X} (hplace : s.place t = .inside l)
      (hnext : (call t).next s.value x l = (v, .inl l')) : Move s (s.goOn t v l')
  | finish {t : T} {l : L} {v : V} {x : X} {r : R} (hplace : s.place t = .inside l)
      (hnext : (call t).next s.value x l = (v, .inr r)) : Move s (s.finish t v r)

lemma move_step [DecidableEq T] (s : State T V L R) (e : Event T X) :
    Move call s (step call s e) := by
  cases e with
  | enter t =>
    rcases hplace : s.place t with _ | l | r
    · rcases hentry : (call t).entry with l | r
      · simp only [step, hplace, hentry]
        split_ifs with hadmits
        · exact .letIn hentry hadmits
        · exact .stay
      · simp only [step, hplace, hentry]
        exact .early hplace hentry
    · simp only [step, hplace]
      exact .stay
    · simp only [step, hplace]
      exact .stay
  | advance t x =>
    rcases hplace : s.place t with _ | l | r
    · simp only [step, hplace]
      exact .stay
    · rcases hnext : (call t).next s.value x l with ⟨v, l' | r⟩
      · simp only [step, hplace, hnext]
        exact .goOn hplace hnext
      · simp only [step, hplace, hnext]
        exact .finish hplace hnext
    · simp only [step, hplace]
      exact .stay

/-! ### Calls as a whole -/

/-- Steps of a call on its own, from a value and a place in its section to others. -/
inductive Steps (c : Call V X L R) (v : V) (l : L) : V → L → Prop where
  | refl : Steps c v l v l
  | tail {v' v'' : V} {l' l'' : L} {x : X} (before : Steps c v l v' l')
      (last : c.next v' x l' = (v'', .inl l'')) : Steps c v l v'' l''

/-- A call made on its own takes the value from `v` to `v'` and returns `r`. -/
def Completes (c : Call V X L R) (v v' : V) (r : R) : Prop :=
  match c.entry with
  | .inr early => v' = v ∧ r = early
  | .inl l => ∃ v₁ l₁ x, Steps c v l v₁ l₁ ∧ c.next v₁ x l₁ = (v', .inr r)

/-- Calls made one after the other. -/
inductive Serial (v : V) : List (T × R) → V → Prop where
  | nil : Serial v [] v
  | concat {l : List (T × R)} {v' v'' : V} {t : T} {r : R} (before : Serial v l v')
      (last : Completes (call t) v' v'' r) : Serial v (l ++ [(t, r)]) v''

variable {call} in
/-- A call of a serial execution is made where the ones before it have left the value. -/
lemma Serial.split {v v' : V} {returns before after : List (T × R)} {t : T} {r : R}
    (h : Serial call v returns v') (hsplit : returns = before ++ (t, r) :: after) :
    ∃ v₁ v₂, Serial call v before v₁ ∧ Completes (call t) v₁ v₂ r := by
  induction h generalizing after with
  | nil => simp at hsplit
  | @concat l v₁ v₂ u q hserial last ih =>
    rcases List.eq_nil_or_concat after with rfl | ⟨after, y, rfl⟩
    · obtain ⟨rfl, hlast⟩ := List.append_inj' hsplit rfl
      obtain ⟨rfl, rfl⟩ := Prod.mk.inj (List.singleton_inj.mp hlast)
      exact ⟨v₁, v₂, hserial, last⟩
    · -- the split lies before the last call
      have hregroup : before ++ (t, r) :: (after ++ [y]) = (before ++ (t, r) :: after) ++ [y] := by
        simp
      rw [List.concat_eq_append, hregroup] at hsplit
      exact ih (List.append_inj' hsplit rfl).1

/-! ### The invariant -/

/-- What the state has to do with a serial execution that started with `v₀` and has come to
`base`. -/
structure Inv (v₀ : V) (s : State T V L R) (base : V) : Prop where
  serial : Serial call v₀ s.returns base
  holder_iff : ∀ t, t ∈ s.holders ↔ ∃ l, s.place t = .inside l
  inside : ∀ t l, s.place t = .inside l →
    ∃ entry, (call t).entry = .inl entry ∧ Steps (call t) base entry s.value l
  exclusive : ∀ t ∈ s.holders, (call t).mode = .write → s.holders = {t}
  untouched : (∀ t ∈ s.holders, (call t).mode = .read) → s.value = base

variable {call} {v₀ v base : V} {s : State T V L R} {t u : T} {l l' : L} {r : R} {x : X}
  {e : Event T X} {events : List (Event T X)}

lemma Inv.start (v₀ : V) : Inv call v₀ (State.start v₀) v₀ where
  serial := .nil
  holder_iff t := by simp [State.start]
  inside t l h := by cases h
  exclusive t h := by cases h
  untouched _ := rfl

namespace Inv

lemma all_read (h : Inv call v₀ s base) (hmem : t ∈ s.holders) (hmode : (call t).mode = .read) :
    ∀ u ∈ s.holders, (call u).mode = .read := by
  intro u hu
  rcases hu' : (call u).mode with _ | _
  · rfl
  · -- a writing section is alone, so it would be the reading one
    have hone := h.exclusive u hu hu'
    rw [hone, Finset.mem_singleton] at hmem
    rw [← hmem, hmode] at hu'
    cases hu'

lemma value_eq_of_admits (h : Inv call v₀ s base) {mode : Mode}
    (hadmits : Admits call s.holders mode) : s.value = base := by
  apply h.untouched
  cases mode with
  | read => exact hadmits
  | write =>
    have hempty : s.holders = ∅ := hadmits
    intro u hu
    rw [hempty] at hu
    cases hu

variable [DecidableEq T]

lemma letIn (h : Inv call v₀ s base) (hentry : (call t).entry = .inl l)
    (hadmits : Admits call s.holders (call t).mode) : Inv call v₀ (s.letIn t l) base := by
  have hvalue := h.value_eq_of_admits hadmits
  refine ⟨h.serial, ?_, ?_, ?_, fun _ => hvalue⟩
  · intro u
    by_cases hut : u = t
    · subst hut
      simp [State.letIn]
    · simp [State.letIn, hut, h.holder_iff u]
  · intro u l' hplace
    by_cases hut : u = t
    · subst hut
      obtain rfl : l = l' := by simpa [State.letIn] using hplace
      refine ⟨l, hentry, ?_⟩
      show Steps (call u) base l s.value l
      rw [hvalue]
      exact .refl
    · exact h.inside u l' (by simpa [State.letIn, hut] using hplace)
  · intro u hu hmode
    have hmem : u = t ∨ u ∈ s.holders := by simpa [State.letIn] using hu
    rcases hmode' : (call t).mode with _ | _
    · -- a reading guard is not given beside a writing one
      rw [hmode'] at hadmits
      rcases hmem with rfl | hmem
      · rw [hmode'] at hmode
        cases hmode
      · rw [hadmits u hmem] at hmode
        cases hmode
    · rw [hmode'] at hadmits
      have hempty : s.holders = ∅ := hadmits
      rcases hmem with rfl | hmem
      · simp [State.letIn, hempty]
      · rw [hempty] at hmem
        cases hmem

lemma goOn (h : Inv call v₀ s base) (hplace : s.place t = .inside l)
    (hnext : (call t).next s.value x l = (v, .inl l')) : Inv call v₀ (s.goOn t v l') base := by
  have hmem : t ∈ s.holders := (h.holder_iff t).mpr ⟨l, hplace⟩
  have hstep : (call t).mode = .read → v = s.value := by
    intro hmode
    have hreads := (call t).reads hmode s.value x l
    rw [hnext] at hreads
    exact hreads
  refine ⟨h.serial, ?_, ?_, h.exclusive, ?_⟩
  · intro u
    by_cases hut : u = t
    · subst hut
      simp [State.goOn, hmem]
    · simp [State.goOn, hut, h.holder_iff u]
  · intro u l₁ hplace'
    by_cases hut : u = t
    · subst hut
      obtain rfl : l' = l₁ := by simpa [State.goOn] using hplace'
      obtain ⟨entry, hentry, hsteps⟩ := h.inside u l hplace
      exact ⟨entry, hentry, hsteps.tail hnext⟩
    · have hu : s.place u = .inside l₁ := by simpa [State.goOn, hut] using hplace'
      -- two sections at a time are reading ones
      have hread : (call t).mode = .read := by
        rcases hmode : (call t).mode with _ | _
        · rfl
        · have hone := h.exclusive t hmem hmode
          have humem : u ∈ s.holders := (h.holder_iff u).mpr ⟨l₁, hu⟩
          rw [hone, Finset.mem_singleton] at humem
          exact absurd humem hut
      obtain ⟨entry, hentry, hsteps⟩ := h.inside u l₁ hu
      refine ⟨entry, hentry, ?_⟩
      show Steps (call u) base entry v l₁
      rw [hstep hread]
      exact hsteps
  · intro hall
    exact (hstep (hall t hmem)).trans (h.untouched hall)

/-- A call that returns without having asked for a guard. -/
lemma finish_early (h : Inv call v₀ s base) (hplace : s.place t = .outside)
    (hentry : (call t).entry = .inr r) : Inv call v₀ (s.finish t s.value r) base := by
  have hnot : t ∉ s.holders := by
    intro hmem
    obtain ⟨l, hl⟩ := (h.holder_iff t).mp hmem
    rw [hplace] at hl
    cases hl
  have herase : s.holders.erase t = s.holders := Finset.erase_eq_of_notMem hnot
  have hserial : Serial call v₀ (s.returns ++ [(t, r)]) base := by
    refine h.serial.concat ?_
    rw [Completes, hentry]
    exact ⟨rfl, rfl⟩
  refine ⟨hserial, ?_, ?_, ?_, ?_⟩
  · intro u
    show u ∈ s.holders.erase t ↔ _
    rw [herase]
    by_cases hut : u = t
    · subst hut
      simp [State.finish, hnot]
    · simp [State.finish, hut, h.holder_iff u]
  · intro u l hu
    by_cases hut : u = t
    · subst hut
      simp [State.finish] at hu
    · exact h.inside u l (by simpa [State.finish, hut] using hu)
  · show ∀ u ∈ s.holders.erase t, (call u).mode = .write → s.holders.erase t = {u}
    rw [herase]
    exact h.exclusive
  · show (∀ u ∈ s.holders.erase t, (call u).mode = .read) → s.value = base
    rw [herase]
    exact h.untouched

lemma finish (h : Inv call v₀ s base) (hplace : s.place t = .inside l)
    (hnext : (call t).next s.value x l = (v, .inr r)) :
    ∃ base', Inv call v₀ (s.finish t v r) base' := by
  have hmem : t ∈ s.holders := (h.holder_iff t).mpr ⟨l, hplace⟩
  obtain ⟨entry, hentry, hsteps⟩ := h.inside t l hplace
  have hcompletes : Completes (call t) base v r := by
    rw [Completes, hentry]
    exact ⟨s.value, l, x, hsteps, hnext⟩
  have hholder : ∀ u, u ∈ (s.finish t v r).holders ↔
      ∃ l, (s.finish t v r).place u = .inside l := by
    intro u
    by_cases hut : u = t
    · subst hut
      simp [State.finish]
    · simp [State.finish, hut, h.holder_iff u]
  refine ⟨v, h.serial.concat hcompletes, hholder, ?_, ?_, fun _ => rfl⟩
  · intro u l₁ hu
    have hut : u ≠ t := by
      rintro rfl
      simp [State.finish] at hu
    have hu' : s.place u = .inside l₁ := by simpa [State.finish, hut] using hu
    have humem : u ∈ s.holders := (h.holder_iff u).mpr ⟨l₁, hu'⟩
    have hread : (call t).mode = .read := by
      rcases hmode : (call t).mode with _ | _
      · rfl
      · have hone := h.exclusive t hmem hmode
        rw [hone, Finset.mem_singleton] at humem
        exact absurd humem hut
    -- the value has not moved since the serial execution left it
    have hvalue : s.value = base := h.untouched (h.all_read hmem hread)
    have hreads := (call t).reads hread s.value x l
    rw [hnext] at hreads
    have hv : v = base := hreads.trans hvalue
    obtain ⟨entry', hentry', hsteps'⟩ := h.inside u l₁ hu'
    refine ⟨entry', hentry', ?_⟩
    show Steps (call u) v entry' v l₁
    rw [hvalue, ← hv] at hsteps'
    exact hsteps'
  · intro u hu hmode
    have humem : u ∈ s.holders := Finset.mem_of_mem_erase hu
    have hone := h.exclusive u humem hmode
    rw [hone, Finset.mem_singleton] at hmem
    subst hmem
    exact absurd hu (Finset.notMem_erase t s.holders)

/-- One event. -/
theorem step (h : Inv call v₀ s base) (e : Event T X) :
    ∃ base', Inv call v₀ (SharedLock.step call s e) base' := by
  have hmove := move_step call s e
  generalize SharedLock.step call s e = s' at hmove ⊢
  cases hmove with
  | stay => exact ⟨base, h⟩
  | early hplace hentry => exact ⟨base, h.finish_early hplace hentry⟩
  | letIn hentry hadmits => exact ⟨base, h.letIn hentry hadmits⟩
  | goOn hplace hnext => exact ⟨base, h.goOn hplace hnext⟩
  | finish hplace hnext => exact h.finish hplace hnext

end Inv

/-! ### Runs -/

variable (call) [DecidableEq T]

/-- A run, from the moment at which no call has been made. -/
def run (v₀ : V) (events : List (Event T X)) : State T V L R :=
  Runs.run (step call) (.start v₀) events

lemma inv_run (v₀ : V) (events : List (Event T X)) :
    ∃ base, Inv call v₀ (run call v₀ events) base := by
  refine Runs.invariant_of_forall (I := fun s => ∃ base, Inv call v₀ s base) ?_
    ⟨v₀, Inv.start v₀⟩ events
  rintro s e ⟨base, h⟩
  exact h.step e

/-- **Sections do not overlap a writing one.**  While a call holds a writing guard, no other
call holds a guard. -/
theorem exclusive_run (events : List (Event T X))
    (hmem : t ∈ (run call v₀ events).holders) (hmode : (call t).mode = .write) :
    (run call v₀ events).holders = {t} := by
  obtain ⟨base, h⟩ := inv_run call v₀ events
  exact h.exclusive t hmem hmode

/-- **Calls behind a lock are serializable**, in the order in which they return. -/
theorem serializable (v₀ : V) (events : List (Event T X)) :
    ∃ base, Serial call v₀ (run call v₀ events).returns base ∧
      ((run call v₀ events).holders = ∅ → (run call v₀ events).value = base) := by
  obtain ⟨base, h⟩ := inv_run call v₀ events
  refine ⟨base, h.serial, fun hempty => h.untouched ?_⟩
  rw [hempty]
  intro u hu
  cases hu

/-! ### Calls with a meaning -/

/-- A call made on its own does what `f` says. -/
def Means (c : Call V X L R) (f : V → V × R) : Prop := ∀ v v' r, Completes c v v' r → f v = (v', r)

/-- The value after calls made one after the other. -/
def valueAfter (f : T → V → V × R) (v : V) (order : List T) : V :=
  order.foldl (fun v t => (f t v).1) v

variable {call} {f : T → V → V × R} {returns before after : List (T × R)}

omit [DecidableEq T] in
@[simp] lemma valueAfter_concat (v : V) (order : List T) (t : T) :
    valueAfter f v (order ++ [t]) = (f t (valueAfter f v order)).1 :=
  List.foldl_append

omit [DecidableEq T] in
lemma Serial.base_eq (hmeans : ∀ t, Means (call t) (f t)) (h : Serial call v returns base) :
    base = valueAfter f v (returns.map Prod.fst) := by
  induction h with
  | nil => rfl
  | concat before last ih =>
    rw [List.map_append, List.map_singleton, valueAfter_concat, ← ih, hmeans _ _ _ _ last]

variable (call)

/-- **Calls behind a lock are atomic.**  A call returns what it returns as a whole after the
calls that have returned before it, and while no guard is held the value is the one these
calls, made one after the other, leave. -/
theorem atomic (hmeans : ∀ t, Means (call t) (f t)) (v₀ : V) (events : List (Event T X)) :
    (∀ before t r after, (run call v₀ events).returns = before ++ (t, r) :: after →
      r = (f t (valueAfter f v₀ (before.map Prod.fst))).2) ∧
    ((run call v₀ events).holders = ∅ →
      (run call v₀ events).value
        = valueAfter f v₀ ((run call v₀ events).returns.map Prod.fst)) := by
  obtain ⟨base, hserial, hvalue⟩ := serializable call v₀ events
  refine ⟨?_, ?_⟩
  · intro before t r after hsplit
    obtain ⟨v₁, v₂, hbefore, hcompletes⟩ := hserial.split hsplit
    rw [← hbefore.base_eq hmeans, hmeans _ _ _ _ hcompletes]
  · intro hfree
    rw [hvalue hfree]
    exact hserial.base_eq hmeans

end SharedLock
