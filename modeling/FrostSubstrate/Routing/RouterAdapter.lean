/-
The router adapter.

`RouterAdapter` keeps an `EnhancedRouter` behind an asynchronous lock: `route_message`,
`get_route` and `get_metrics` hold a reading guard for as long as the router works on them,
`update_topology` a writing one.  The router itself belongs to a linked crate.  Its methods
are sequences of steps here, with the answers of the network, and whatever else they do not
take from the part behind `&mut self`, as inputs of the steps.

So a message is routed on one topology from the first step to the last, and updates take
effect one after the other (`routerCalls_ordered`).
-/
import FrostSubstrate.External.FrostProtocol
import FrostSubstrate.Lib.SharedLock

namespace FrostSubstrate

open SharedLock (Completes Serial Steps)

/-- The methods of `MessageRouter`. -/
inductive RouterCall (Topology : Type) where
  | routeMessage (message : FrostMessage)
  | getRoute (source target : ChainId)
  | updateTopology (topology : Topology)
  | getMetrics

/-- `EnhancedRouter<N>`: the part `σ` of it that only `&mut self` can change, the places `K` of
its methods between two steps, and the results `A`.  `serve` is a step of a method that takes
`&self`, `update` one of `update_topology`. -/
structure EnhancedRouter (σ K X A Topology : Type) where
  enter : RouterCall Topology → K
  serve : σ → X → K → K ⊕ A
  update : σ → X → K → σ × (K ⊕ A)

variable {σ K X A Topology : Type}

namespace EnhancedRouter

variable (inner : EnhancedRouter σ K X A Topology)

/-! ### The methods on their own -/

/-- Steps of a method that takes `&self`. -/
inductive Serves (s : σ) (k : K) : K → Prop where
  | refl : Serves s k k
  | tail {k' k'' : K} {x : X} (before : Serves s k k') (last : inner.serve s x k' = .inl k'') :
      Serves s k k''

/-- A method that takes `&self`, called on a router that stays at `s` from beginning to end,
returns `a`. -/
def Answers (s : σ) (call : RouterCall Topology) (a : A) : Prop :=
  ∃ k x, inner.Serves s (inner.enter call) k ∧ inner.serve s x k = .inr a

/-- Steps of `update_topology`. -/
inductive Updates (s : σ) (k : K) : σ → K → Prop where
  | refl : Updates s k s k
  | tail {s' s'' : σ} {k' k'' : K} {x : X} (before : Updates s k s' k')
      (last : inner.update s' x k' = (s'', .inl k'')) : Updates s k s'' k''

/-- `update_topology`, called on its own, takes the router from `s` to `s'` and returns `a`. -/
def Updated (s : σ) (topology : Topology) (s' : σ) (a : A) : Prop :=
  ∃ s₁ k x, inner.Updates s (inner.enter (.updateTopology topology)) s₁ k ∧
    inner.update s₁ x k = (s', .inr a)

/-- Updates made one after the other, with what they returned, take the router from `s` to
another state. -/
inductive UpdatedAll (s : σ) : List (Topology × A) → σ → Prop where
  | nil : UpdatedAll s [] s
  | concat {l : List (Topology × A)} {s' s'' : σ} {topology : Topology} {a : A}
      (before : UpdatedAll s l s') (last : inner.Updated s' topology s'' a) :
      UpdatedAll s (l ++ [(topology, a)]) s''

end EnhancedRouter

/-! ### The adapter -/

/-- A method of `RouterAdapter`: the guard, and the method of the inner router under it. -/
def RouterAdapter.call (inner : EnhancedRouter σ K X A Topology) (c : RouterCall Topology) :
    SharedLock.Call σ X K A :=
  match c with
  | .updateTopology topology => {
    mode := .write
    entry := .inl (inner.enter (.updateTopology topology))
    next := inner.update
    reads := fun h => by cases h }
  | shared => {
    mode := .read
    entry := .inl (inner.enter shared)
    next := fun s x k => (s, inner.serve s x k)
    reads := fun _ _ _ _ => rfl }

/-- The topology a call brings. -/
def RouterCall.topology : RouterCall Topology → Option Topology
  | .updateTopology topology => some topology
  | _ => none

variable {inner : EnhancedRouter σ K X A Topology} {c : RouterCall Topology} {s s' : σ} {k k' : K}
  {a : A} {topology : Topology}

lemma mode_write_iff : (RouterAdapter.call inner c).mode = .write ↔ c.topology.isSome = true := by
  cases c <;> simp [RouterAdapter.call, RouterCall.topology]

/-- Under the writing guard the steps are those of the inner `update_topology`. -/
lemma updates_of_steps
    (h : Steps (RouterAdapter.call inner (.updateTopology topology)) s k s' k') :
    inner.Updates s k s' k' := by
  induction h with
  | refl => exact .refl
  | tail _ last ih => exact ih.tail last

lemma updated_of_completes
    (h : Completes (RouterAdapter.call inner (.updateTopology topology)) s s' a) :
    inner.Updated s topology s' a := by
  obtain ⟨s₁, k, x, hsteps, hlast⟩ := h
  exact ⟨s₁, k, x, updates_of_steps hsteps, hlast⟩

/-- Under a reading guard the steps are those of the inner method, on one topology. -/
lemma answers_of_completes (hread : c.topology = none)
    (h : Completes (RouterAdapter.call inner c) s s' a) : s' = s ∧ inner.Answers s c a := by
  have hnext : (RouterAdapter.call inner c).next = fun s x k => (s, inner.serve s x k) := by
    cases c with
    | updateTopology topology => cases hread
    | routeMessage message => rfl
    | getRoute source target => rfl
    | getMetrics => rfl
  have hentry : (RouterAdapter.call inner c).entry = .inl (inner.enter c) := by
    cases c <;> rfl
  rw [Completes, hentry] at h
  obtain ⟨s₁, k, x, hsteps, hlast⟩ := h
  have hserves : s₁ = s ∧ inner.Serves s (inner.enter c) k := by
    clear hlast
    induction hsteps with
    | refl => exact ⟨rfl, .refl⟩
    | tail _ last ih =>
      obtain ⟨rfl, hserves⟩ := ih
      rw [hnext] at last
      obtain ⟨rfl, hlast⟩ := Prod.mk.inj last
      exact ⟨rfl, hserves.tail hlast⟩
  obtain ⟨rfl, hserves⟩ := hserves
  rw [hnext] at hlast
  obtain ⟨rfl, hanswer⟩ := Prod.mk.inj hlast
  exact ⟨rfl, k, x, hserves, hanswer⟩

variable {T : Type}

/-- The updates among the calls that have returned, with their results. -/
def topologiesOf (calls : T → RouterCall Topology) (returns : List (T × A)) : List (Topology × A) :=
  returns.filterMap fun returned =>
    (calls returned.1).topology.map fun topology => (topology, returned.2)

lemma updatedAll_of_serial {calls : T → RouterCall Topology} {returns : List (T × A)}
    (h : Serial (fun t => RouterAdapter.call inner (calls t)) s returns s') :
    inner.UpdatedAll s (topologiesOf calls returns) s' := by
  induction h with
  | nil => exact .nil
  | @concat l s₁ s₂ t a _ last ih =>
    have hconcat : topologiesOf calls (l ++ [(t, a)]) = topologiesOf calls l ++
        ((calls t).topology.map fun topology => (topology, a)).toList := by
      rw [topologiesOf, List.filterMap_append]
      rcases hcall : (calls t).topology with _ | topology
      · simp [topologiesOf, hcall]
      · simp [topologiesOf, hcall]
    rw [hconcat]
    rcases hcall : (calls t).topology with _ | topology
    · obtain ⟨rfl, -⟩ := answers_of_completes hcall last
      simpa using ih
    · have hupdate : calls t = .updateTopology topology := by
        cases hc : calls t with
        | updateTopology topology' =>
          rw [hc] at hcall
          rw [Option.some.inj hcall]
        | routeMessage message => simp [hc, RouterCall.topology] at hcall
        | getRoute source target => simp [hc, RouterCall.topology] at hcall
        | getMetrics => simp [hc, RouterCall.topology] at hcall
      rw [hupdate] at last
      exact ih.concat (updated_of_completes last)

variable [DecidableEq T]

/-- Calls of the adapter, in any order of their steps. -/
def runRouterCalls (inner : EnhancedRouter σ K X A Topology) (s : σ)
    (calls : T → RouterCall Topology) (events : List (SharedLock.Event T X)) :
    SharedLock.State T σ K A :=
  SharedLock.run (fun t => RouterAdapter.call inner (calls t)) s events

/-- **Routing sees one topology.**  However the steps of the calls are mixed, a topology is
updated while no other call is in the router; every other call is answered, from its first
step to its last, on the topology that the updates returned before it have made; and an update
starts from there.  When no call is in the router, all updates that have returned are in
force. -/
theorem routerCalls_ordered (inner : EnhancedRouter σ K X A Topology) (s : σ)
    (calls : T → RouterCall Topology) (events : List (SharedLock.Event T X)) :
    (∀ t ∈ (runRouterCalls inner s calls events).holders, (calls t).topology.isSome = true →
      (runRouterCalls inner s calls events).holders = {t}) ∧
    (∀ before t a after,
      (runRouterCalls inner s calls events).returns = before ++ (t, a) :: after →
      ∃ s₁, inner.UpdatedAll s (topologiesOf calls before) s₁ ∧
        ((calls t).topology = none → inner.Answers s₁ (calls t) a) ∧
        (∀ topology, calls t = .updateTopology topology →
          ∃ s₂, inner.Updated s₁ topology s₂ a)) ∧
    ((runRouterCalls inner s calls events).holders = ∅ →
      inner.UpdatedAll s (topologiesOf calls (runRouterCalls inner s calls events).returns)
        (runRouterCalls inner s calls events).value) := by
  obtain ⟨base, hserial, hvalue⟩ :=
    SharedLock.serializable (fun t => RouterAdapter.call inner (calls t)) s events
  refine ⟨?_, ?_, ?_⟩
  · intro t hmem hupdate
    exact SharedLock.exclusive_run _ events hmem (mode_write_iff.mpr hupdate)
  · intro before t a after hsplit
    obtain ⟨s₁, s₂, hbefore, hcompletes⟩ := hserial.split hsplit
    refine ⟨s₁, updatedAll_of_serial hbefore, ?_, ?_⟩
    · intro hread
      exact (answers_of_completes hread hcompletes).2
    · intro topology hupdate
      rw [hupdate] at hcompletes
      exact ⟨s₂, updated_of_completes hcompletes⟩
  · intro hfree
    have hfinal := updatedAll_of_serial hserial
    rwa [← hvalue hfree] at hfinal

end FrostSubstrate
