/-
Parties that share a part of their state.

Each party has a state of its own and looks at a shared one, which common events change and
no action of a party does.  An action may put entries into a log, which is common too.  Then a
party does not notice the others: what it does in a mixed run is what it does alone, when only
the common events and its own actions happen (`view_run`), and the entries of the log are
those the parties make alone, no more and no fewer (`count_log`).
-/
import FrostSubstrate.Lib.Runs
import Mathlib.Algebra.BigOperators.Group.Finset.Piecewise

namespace Parties

open scoped BigOperators

/-- What a common event does to the shared state, what an action does to its party, and what it
puts into the log. -/
structure System (σ τ ε ω : Type) where
  common : σ → ε → σ
  act : σ → τ → τ
  emit : σ → τ → List ω

/-- The shared state, the states of the parties, and the log. -/
structure State (I σ τ ω : Type) where
  shared : σ
  party : I → τ
  log : List (I × ω)

/-- A common event, or an action of a party. -/
inductive Event (I ε : Type) where
  | common (e : ε)
  | act (i : I)

variable {I σ τ ε ω : Type} [DecidableEq I] (S : System σ τ ε ω)

/-- One event. -/
def step (s : State I σ τ ω) : Event I ε → State I σ τ ω
  | .common e => { s with shared := S.common s.shared e }
  | .act i => { s with
      party := Function.update s.party i (S.act s.shared (s.party i))
      log := s.log ++ (S.emit s.shared (s.party i)).map (Prod.mk i) }

/-- A party alone: the shared state, its own, and its log. -/
structure Alone (σ τ ω : Type) where
  shared : σ
  party : τ
  log : List ω

omit [DecidableEq I] in
/-- One event of a party alone, an action or a common event. -/
def aloneStep (a : Alone σ τ ω) : Option ε → Alone σ τ ω
  | some e => { a with shared := S.common a.shared e }
  | none => { a with
      party := S.act a.shared a.party
      log := a.log ++ S.emit a.shared a.party }

/-- The entry of the log, if it is one of party `i`. -/
def ownEntry (i : I) (entry : I × ω) : Option ω := if entry.1 = i then some entry.2 else none

/-- What party `i` sees of a state. -/
def State.view (s : State I σ τ ω) (i : I) : Alone σ τ ω :=
  ⟨s.shared, s.party i, s.log.filterMap (ownEntry i)⟩

/-- What party `i` sees of an event, if anything. -/
def Event.seen (i : I) : Event I ε → Option (Option ε)
  | common e => some (some e)
  | act j => if j = i then some none else none

variable {S} {s : State I σ τ ω} {i j : I}

lemma filterMap_ownEntry_self (l : List ω) : (l.map (Prod.mk i)).filterMap (ownEntry i) = l := by
  rw [List.filterMap_map]
  have hself : (ownEntry i ∘ Prod.mk i : ω → Option ω) = some := by
    funext o
    simp [ownEntry]
  rw [hself, List.filterMap_some]

lemma filterMap_ownEntry_of_ne (h : j ≠ i) (l : List ω) :
    (l.map (Prod.mk j)).filterMap (ownEntry i) = [] := by
  rw [List.filterMap_map]
  have hother : (ownEntry i ∘ Prod.mk j : ω → Option ω) = fun _ => none := by
    funext o
    simp [ownEntry, h]
  rw [hother, List.filterMap_none]

lemma mem_log_iff {entry : I × ω} : entry ∈ s.log ↔ entry.2 ∈ (s.view entry.1).log := by
  show _ ↔ entry.2 ∈ s.log.filterMap (ownEntry entry.1)
  rw [List.mem_filterMap]
  constructor
  · exact fun h => ⟨entry, h, if_pos rfl⟩
  · rintro ⟨⟨j, o⟩, hentry, hown⟩
    unfold ownEntry at hown
    split_ifs at hown with hj
    obtain rfl : o = entry.2 := Option.some.inj hown
    obtain rfl : j = entry.1 := hj
    exact hentry

/-- A party notices the common events and its own actions only. -/
lemma view_step (e : Event I ε) :
    (step S s e).view i = Runs.run (aloneStep S) (s.view i) (e.seen i).toList := by
  cases e with
  | common e => rfl
  | act j =>
    by_cases hji : j = i
    · subst hji
      have hlog : (s.log ++ (S.emit s.shared (s.party j)).map (Prod.mk j)).filterMap (ownEntry j)
          = s.log.filterMap (ownEntry j) ++ S.emit s.shared (s.party j) := by
        rw [List.filterMap_append, filterMap_ownEntry_self]
      simp [step, State.view, Event.seen, aloneStep, hlog]
    · have hlog : (s.log ++ (S.emit s.shared (s.party j)).map (Prod.mk j)).filterMap (ownEntry i)
          = s.log.filterMap (ownEntry i) := by
        rw [List.filterMap_append, filterMap_ownEntry_of_ne hji, List.append_nil]
      have hij : i ≠ j := fun h => hji h.symm
      simp [step, State.view, Event.seen, hlog, hji, hij]

/-- **Parties do not notice each other.**  What a party sees at the end of a mixed run is what
it comes to alone, after the common events and its own actions. -/
theorem view_run (s : State I σ τ ω) (events : List (Event I ε)) (i : I) :
    (Runs.run (step S) s events).view i
      = Runs.run (aloneStep S) (s.view i) (events.filterMap (Event.seen i)) := by
  induction events generalizing s with
  | nil => rfl
  | cons e events ih =>
    have hseen : (e :: events).filterMap (Event.seen i)
        = (e.seen i).toList ++ events.filterMap (Event.seen i) := by
      rcases h : e.seen i with _ | o
      · rw [List.filterMap_cons_none h]
        rfl
      · rw [List.filterMap_cons_some h]
        rfl
    rw [Runs.run_cons, ih, view_step, hseen, Runs.run_append]

/-- **The log is that of the parties.**  An entry stands in it as often as the parties have made
it. -/
theorem count_log [Fintype I] [DecidableEq ω] (s : State I σ τ ω) (o : ω) :
    (s.log.map Prod.snd).count o = ∑ i, (s.view i).log.count o := by
  show (s.log.map Prod.snd).count o = ∑ i, (s.log.filterMap (ownEntry i)).count o
  induction s.log with
  | nil => simp
  | cons entry log ih =>
    obtain ⟨j, o'⟩ := entry
    -- the entry counts for its own party only
    have hone : ∀ i, ((((j, o') :: log).filterMap (ownEntry i)).count o : ℕ)
        = (log.filterMap (ownEntry i)).count o + if j = i then [o'].count o else 0 := by
      intro i
      by_cases hji : j = i
      · have hentry : ownEntry i (j, o') = some o' := if_pos hji
        rw [List.filterMap_cons_some hentry, List.count_cons, if_pos hji, List.count_singleton]
      · have hentry : ownEntry i (j, o') = none := if_neg hji
        rw [List.filterMap_cons_none hentry, if_neg hji, Nat.add_zero]
    simp only [hone, Finset.sum_add_distrib, ← ih, Finset.sum_ite_eq, Finset.mem_univ, if_true]
    rw [List.map_cons, List.count_cons, List.count_singleton]

end Parties
