/-
The observer as the pallet sets it up.

`ensure_observer` gives the observer the Merkle generator.  The transitions of the observer have
no data, and no tree has a root without leaves, so every match ends in an error of the
generator: the handler goes through its snapshot up to the first target that matches and no
further, and no worker ever calls the router.
-/
import FrostSubstrate.Observer.ConcurrentWorkers
import FrostSubstrate.Proof.ObservedTransition

namespace FrostSubstrate

open Traced

variable {Id : Type} (backend : ProofBackend Id)

/-- The proofs are made by the Merkle generator, with whatever the client and the clock answer
to it at each target. -/
def Surroundings.ByMerkle (w : Surroundings) : Prop :=
  ∃ (header : ℕ → H256 → Except String (Option Header)) (clock : ℕ → ℕ → ℕ),
    w.generateProof = fun i => merkleGenerateProof backend (header i) (clock i)

variable {backend} {defaults : FrostDefaults} {encodeProof : StateProof → Bytes}
  {w : Surroundings} {blockRef : BlockRef} {i : ℕ} {target : WatchTarget}

/-- How the handler ends at a target that is the first not to be passed over. -/
def endAt (matched : Outcome ProtocolError Bool) : Outcome ProtocolError Unit :=
  match matched with
  | .ok false => .ok ()
  | .ok true => .err ErrorKind.proofGenerationFailed.toProtocolError
  | .err e => .err e
  | .panicked => .panicked

/-- No proof of the observer is made. -/
lemma Surroundings.ByMerkle.rejects (hwired : w.ByMerkle backend)
    (hroot : backend.merkleRoot [] = none) {transition : SSMPStateTransition}
    (htransition : generateStateTransition defaults (w.now i) blockRef target = .ok transition) :
    ∃ text, w.generateProof i transition.into .default = .err (.internal text) := by
  obtain ⟨header, clock, hgenerate⟩ := hwired
  obtain ⟨-, -, hproof⟩ := generateStateTransition_fields htransition
  rw [hgenerate]
  apply merkleGenerateProof_of_root_none
  rw [hproof]
  exact hroot

/-- One round of the loop does nothing but look for the target. -/
lemma handleTarget_of_byMerkle (hwired : w.ByMerkle backend)
    (hroot : backend.merkleRoot [] = none) :
    handleTarget defaults encodeProof w blockRef i target
      = ⟨[.evaluated blockRef i target],
          endAt (matchesWatchTarget (w.events i) blockRef target)⟩ := by
  unfold handleTarget
  simp only [emit, lift_eq, mk_ok_bind]
  rcases matchesWatchTarget (w.events i) blockRef target with (_ | _) | e | _
  · rfl
  · -- the transition is always made, and never proved
    obtain ⟨transition, htransition⟩ : ∃ transition,
        generateStateTransition defaults (w.now i) blockRef target = .ok transition := ⟨_, rfl⟩
    obtain ⟨text, hrejected⟩ := hwired.rejects hroot htransition
    simp only [htransition, hrejected, Outcome.ofExcept_ok, mk_ok_bind, if_true, Outcome.mapErr]
    rfl
  · rfl
  · rfl

lemma effects_fate_of_byMerkle (hwired : w.ByMerkle backend)
    (hroot : backend.merkleRoot [] = none) :
    (fate defaults encodeProof w blockRef i target).effects blockRef i target = [] := by
  have htrace : (handleTarget defaults encodeProof w blockRef i target).trace
      = [.evaluated blockRef i target] := by
    rw [handleTarget_of_byMerkle hwired hroot]
  rw [handleTarget_trace] at htrace
  exact (List.cons.inj htrace).2

lemma routingCalls_of_byMerkle (hwired : w.ByMerkle backend)
    (hroot : backend.merkleRoot [] = none) (targets : List WatchTarget) :
    routingCalls defaults encodeProof w blockRef i targets = [] := by
  induction targets generalizing i with
  | nil => rfl
  | cons target targets ih =>
    rw [routingCalls, effects_fate_of_byMerkle hwired hroot, ih, ite_self, List.append_nil]

lemma calls_of_byMerkle {targets : List WatchTarget} {stream : List StreamItem}
    (hroot : backend.merkleRoot [] = none)
    (hwired : ∀ item ∈ stream, item.surroundings.ByMerkle backend) (events : List WorkerEvent) :
    (runWorker defaults encodeProof (.start targets stream) events).calls = [] := by
  have hinv := inv_reached defaults encodeProof targets stream events
  have hblocks : ∀ entry ∈
      (runWorker defaults encodeProof (.start targets stream) events).record,
      recordedBlock defaults encodeProof entry = [] := by
    rintro ⟨item, snapshot⟩ hentry
    cases snapshot with
    | none => rfl
    | some snapshot =>
      have hitem : item ∈ stream := by
        rw [← hinv.stream_eq, List.append_assoc]
        exact List.mem_append_left _ (List.mem_map_of_mem hentry)
      rw [recordedBlock, ← routingCalls_eq]
      exact routingCalls_of_byMerkle (hwired item hitem) hroot snapshot
  have hall := hinv.calls_eq
  rw [List.flatMap_eq_nil_iff.mpr hblocks] at hall
  exact (List.append_eq_nil_iff.mp hall).1

/-! ### Where the handler stops -/

/-- The handler stops at place `k`: the targets before it do not match, and the one there is
not passed over. -/
structure StopsAt (w : Surroundings) (blockRef : BlockRef) (snapshot : List WatchTarget) (k : ℕ)
    (target : WatchTarget) : Prop where
  get : snapshot[k]? = some target
  passed : ∀ j < k, ∀ u, snapshot[j]? = some u →
    matchesWatchTarget (w.events j) blockRef u = .ok false
  stop : matchesWatchTarget (w.events k) blockRef target ≠ .ok false

lemma endAt_isOk_iff {matched : Outcome ProtocolError Bool} :
    (endAt matched).isOk = true ↔ matched = .ok false := by
  rcases matched with (_ | _) | e | _ <;> simp [endAt]

lemma outcome_of_stopsAt (hwired : w.ByMerkle backend) (hroot : backend.merkleRoot [] = none)
    {snapshot : List WatchTarget} {notification : FinalityNotification}
    (hfinal : w.isFinal (notifiedRef defaults notification) = .ok true)
    (hstop : StopsAt w (notifiedRef defaults notification) snapshot i target) :
    (handleFinalityNotification defaults encodeProof w snapshot notification).outcome
      = endAt (matchesWatchTarget (w.events i) (notifiedRef defaults notification) target) := by
  have hround : ∀ j u, (handleTarget defaults encodeProof w (notifiedRef defaults notification) j
      u).outcome = endAt (matchesWatchTarget (w.events j) (notifiedRef defaults notification) u) :=
    fun j u => by rw [handleTarget_of_byMerkle hwired hroot]
  rw [handle_of_final hfinal, ← hround]
  have hpassed : ∀ j < i, ∀ u, snapshot[j]? = some u → (handleTarget defaults encodeProof w
      (notifiedRef defaults notification) (0 + j) u).outcome = .ok () := by
    intro j hj u hu
    rw [Nat.zero_add, hround, hstop.passed j hj u hu]
    rfl
  have hnotOk : (handleTarget defaults encodeProof w (notifiedRef defaults notification) (0 + i)
      target).isOk ≠ true := by
    rw [Nat.zero_add, isOk, hround, ne_eq, endAt_isOk_iff]
    exact hstop.stop
  have hloop := forEach_outcome_of_stop hstop.get hpassed hnotOk
  rwa [Nat.zero_add] at hloop

lemma isOk_iff_of_byMerkle (hwired : w.ByMerkle backend) (hroot : backend.merkleRoot [] = none)
    {snapshot : List WatchTarget} {notification : FinalityNotification}
    (hfinal : w.isFinal (notifiedRef defaults notification) = .ok true) :
    (handleFinalityNotification defaults encodeProof w snapshot notification).isOk = true ↔
      ∀ k u, snapshot[k]? = some u →
        matchesWatchTarget (w.events k) (notifiedRef defaults notification) u = .ok false := by
  rw [handle_of_final hfinal, forEach_isOk_iff]
  simp only [Nat.zero_add, handleTarget_of_byMerkle hwired hroot, isOk, endAt_isOk_iff]

variable {I : Type} [DecidableEq I]

/-- **The observer of the pallet routes nothing.**  Where an empty tree has no root, whatever
the clients, clocks, events and routers do: no worker on an observer with the Merkle generator
ever calls the router; and on a final block the handler succeeds exactly when no target of its
snapshot matches, and stops otherwise at the first target that is not passed over, with the
error of the proof generator if this target matches. -/
theorem merkle_observer_routes_nothing (hroot : backend.merkleRoot [] = none)
    (defaults : FrostDefaults) (encodeProof : StateProof → Bytes) (targets : List WatchTarget)
    (streams : I → List StreamItem)
    (hwired : ∀ i, ∀ item ∈ streams i, item.surroundings.ByMerkle backend)
    (events : List (Parties.Event I WatchTarget)) :
    (runWorkers defaults encodeProof targets streams events).log = [] ∧
    ∀ i, ∀ item ∈ streams i, item.surroundings.isFinal (item.ref defaults) = .ok true →
      ∀ snapshot : List WatchTarget,
        ((handleFinalityNotification defaults encodeProof item.surroundings snapshot
            item.notification).isOk = true ↔ ∀ k u, snapshot[k]? = some u →
          matchesWatchTarget (item.surroundings.events k) (item.ref defaults) u = .ok false) ∧
        ∀ k target, StopsAt item.surroundings (item.ref defaults) snapshot k target →
          (handleFinalityNotification defaults encodeProof item.surroundings snapshot
              item.notification).outcome
            = endAt (matchesWatchTarget (item.surroundings.events k) (item.ref defaults)
                target) := by
  constructor
  · apply List.eq_nil_iff_forall_not_mem.mpr
    intro entry hentry
    have hcalls := mem_log.mp hentry
    rw [calls_of_byMerkle hroot (hwired entry.1)] at hcalls
    cases hcalls
  · intro i item hitem hfinal snapshot
    exact ⟨isOk_iff_of_byMerkle (hwired i item hitem) hroot hfinal,
      fun k target hstop => outcome_of_stopsAt (hwired i item hitem) hroot hfinal hstop⟩

/-! ### A worker that finds its target -/

/-- Every block is final and has an event with the names of the sample target, and a router is
waiting. -/
def merkleSurroundings : Surroundings where
  isFinal _ := .ok true
  events _ _ := .ok [[0x6d, 0x66]]
  now _ := 0
  generateProof _ := merkleGenerateProof sampleBackend sampleHeader id
  router := some fun _ _ => .ok ()

lemma merkleSurroundings_byMerkle : merkleSurroundings.ByMerkle sampleBackend :=
  ⟨fun _ => sampleHeader, fun _ => id, rfl⟩

def merkleItem : StreamItem := ⟨sampleNotification, merkleSurroundings⟩

lemma merkleItem_stopsAt :
    StopsAt merkleItem.surroundings (merkleItem.ref zeroDefaults) [sampleTarget] 0
      sampleTarget where
  get := rfl
  passed j hj := absurd hj (Nat.not_lt_zero j)
  stop := by decide

/-- The statement for two workers that are notified of a block with a matching event: nothing is
routed, and the handler ends with the error of the generator. -/
theorem merkle_observer_routes_nothing_sample :
    (runWorkers zeroDefaults (fun _ => [1]) [sampleTarget] (fun _ : Bool => [merkleItem])
      ([.act true, .act false, .common sampleTarget] ++ List.replicate 6 (.act true))).log = [] ∧
    ((handleFinalityNotification zeroDefaults (fun _ => [1]) merkleItem.surroundings [sampleTarget]
        merkleItem.notification).isOk = true ↔ ∀ k u, [sampleTarget][k]? = some u →
      matchesWatchTarget (merkleItem.surroundings.events k) (merkleItem.ref zeroDefaults) u
        = .ok false) ∧
    (handleFinalityNotification zeroDefaults (fun _ => [1]) merkleItem.surroundings [sampleTarget]
        merkleItem.notification).outcome = endAt (.ok true) := by
  have hwired : ∀ i : Bool, ∀ item ∈ [merkleItem],
      item.surroundings.ByMerkle sampleBackend := by
    intro i item hitem
    obtain rfl := List.mem_singleton.mp hitem
    exact merkleSurroundings_byMerkle
  obtain ⟨hlog, hhandler⟩ := merkle_observer_routes_nothing (show sampleBackend.merkleRoot [] = none
    from rfl) zeroDefaults (fun _ => [1]) [sampleTarget] (fun _ => [merkleItem]) hwired
    ([.act true, .act false, .common sampleTarget] ++ List.replicate 6 (.act true))
  obtain ⟨hisOk, hstops⟩ := hhandler true merkleItem (List.mem_singleton_self _) rfl [sampleTarget]
  exact ⟨hlog, hisOk, hstops 0 sampleTarget merkleItem_stopsAt⟩

end FrostSubstrate
