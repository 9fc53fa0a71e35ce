/-
The worker over a stream of finality notifications.

`run_with_finality_stream` hands one notification after the other to the handler and only
logs an error of it.  Targets may be registered at any time; what counts for a notification
is the list at the moment of its snapshot, so a `Delivery` carries the targets registered
since the previous one.  The worker looks at the notified blocks and at nothing between
them.
-/
import FrostSubstrate.Observer.FinalizedHead

namespace FrostSubstrate

open Traced

/-- A notification, the answers of the outside while it is handled, and the targets registered
between the previous snapshot of the list and the one taken for it. -/
structure Delivery where
  registrations : List WatchTarget
  notification : FinalityNotification
  surroundings : Surroundings

variable (defaults : FrostDefaults) (encodeProof : StateProof → Bytes)

/-- `SSMPWorker::run_with_finality_stream`, started with the registered targets `targets`. -/
def runWithFinalityStream : List WatchTarget → List Delivery → Traced Effect Empty Unit
  | _, [] => pure ()
  | targets, d :: stream => do
    (handleFinalityNotification defaults encodeProof d.surroundings (targets ++ d.registrations)
      d.notification).ignoreErr
    runWithFinalityStream (targets ++ d.registrations) stream

/-- The targets registered when the handler takes its snapshot for `d`, after the deliveries
`before`. -/
def registeredAt (targets : List WatchTarget) (before : List Delivery) (d : Delivery) :
    List WatchTarget :=
  targets ++ before.flatMap Delivery.registrations ++ d.registrations

/-- The deliveries of a stream, each with the snapshot taken for it. -/
def snapshots : List WatchTarget → List Delivery → List (List WatchTarget × Delivery)
  | _, [] => []
  | targets, d :: stream =>
    (targets ++ d.registrations, d) :: snapshots (targets ++ d.registrations) stream

/-- What the handler does for a delivery with its snapshot. -/
def handled (snapshot : List WatchTarget × Delivery) : Traced Effect ProtocolError Unit :=
  handleFinalityNotification defaults encodeProof snapshot.2.surroundings snapshot.1
    snapshot.2.notification

/-- The block a delivery is about. -/
def Delivery.ref (d : Delivery) : BlockRef := notifiedRef defaults d.notification

variable {defaults encodeProof} {targets : List WatchTarget} {stream before after : List Delivery}
  {d : Delivery}

lemma mem_snapshots_iff {l : List WatchTarget} :
    (l, d) ∈ snapshots targets stream ↔
      ∃ before after, stream = before ++ d :: after ∧ l = registeredAt targets before d := by
  induction stream generalizing targets with
  | nil => simp [snapshots]
  | cons d' stream ih =>
    rw [snapshots, List.mem_cons, ih]
    constructor
    · rintro (h | ⟨before, after, rfl, rfl⟩)
      · obtain ⟨rfl, rfl⟩ := Prod.mk.inj h
        exact ⟨[], stream, rfl, by simp [registeredAt]⟩
      · exact ⟨d' :: before, after, rfl, by simp [registeredAt]⟩
    · rintro ⟨before, after, hsplit, rfl⟩
      cases before with
      | nil =>
        obtain ⟨rfl, rfl⟩ := List.cons.inj hsplit
        exact Or.inl (by simp [registeredAt])
      | cons d'' before =>
        obtain ⟨rfl, rfl⟩ := List.cons.inj hsplit
        exact Or.inr ⟨before, after, rfl, by simp [registeredAt]⟩

lemma mem_snapshots_of_split (h : stream = before ++ d :: after) :
    (registeredAt targets before d, d) ∈ snapshots targets stream :=
  mem_snapshots_iff.mpr ⟨before, after, h, rfl⟩

lemma mem_of_mem_snapshots {s : List WatchTarget × Delivery} (h : s ∈ snapshots targets stream) :
    s.2 ∈ stream := by
  obtain ⟨before, after, rfl, -⟩ := mem_snapshots_iff.mp h
  exact List.mem_append_right _ List.mem_cons_self

/-- **The trace of a stream** that is consumed to its end is that of its deliveries, in order. -/
theorem runWithFinalityStream_trace
    (h : (runWithFinalityStream defaults encodeProof targets stream).outcome = .ok ()) :
    (runWithFinalityStream defaults encodeProof targets stream).trace
      = (snapshots targets stream).flatMap fun s => (handled defaults encodeProof s).trace := by
  induction stream generalizing targets with
  | nil => rfl
  | cons d stream ih =>
    have hstep :
        (runWithFinalityStream defaults encodeProof targets (d :: stream)).isOk = true := by
      rw [isOk, h]
      rfl
    -- a stream that is consumed has panicked neither at its head nor later
    rw [runWithFinalityStream, bind_isOk, Bool.and_eq_true] at hstep
    have hrest : (runWithFinalityStream defaults encodeProof (targets ++ d.registrations)
        stream).outcome = .ok () := by
      obtain ⟨-, hrest⟩ := hstep
      obtain ⟨_, hrest⟩ := Outcome.isOk_iff.mp hrest
      exact hrest
    rw [runWithFinalityStream, bind_trace_of_isOk _ hstep.1, ih hrest, ignoreErr_trace, snapshots,
      List.flatMap_cons]
    rfl

/-- The first target of a final block is always evaluated. -/
lemma evaluated_head {s : List WatchTarget × Delivery} {target : WatchTarget}
    (hfinal : s.2.surroundings.isFinal (s.2.ref defaults) = .ok true)
    (hget : s.1[0]? = some target) :
    Effect.evaluated (s.2.ref defaults) 0 target ∈ (handled defaults encodeProof s).trace := by
  refine (mem_handle_trace_iff hfinal).mpr ⟨0, target, ⟨hget, ?_⟩, ?_⟩
  · intro j hj
    omega
  · rw [handleTarget_trace]
    exact List.mem_cons_self

lemma handled_effect {s : List WatchTarget × Delivery} {e : Effect}
    (hfinal : s.2.surroundings.isFinal (s.2.ref defaults) = .ok true)
    (he : e ∈ (handled defaults encodeProof s).trace) :
    e.blockRef = s.2.ref defaults ∧ s.1 ≠ [] := by
  obtain ⟨i, target, ⟨hget, -⟩, he⟩ := (mem_handle_trace_iff hfinal).mp he
  refine ⟨(handleTarget_effect he).1, ?_⟩
  rintro hnil
  rw [hnil] at hget
  cases hget

/-- **The examined blocks are the notified ones.**  When the worker has consumed a stream of
notifications of final blocks, every target registered when a block was notified has been
evaluated on it, unless one before it failed; and a block has been examined exactly when it
was notified while some target was registered. -/
theorem examined_iff_notified
    (hconsumed : (runWithFinalityStream defaults encodeProof targets stream).outcome = .ok ())
    (hfinal : ∀ d ∈ stream, d.surroundings.isFinal (d.ref defaults) = .ok true) :
    (∀ before d after, stream = before ++ d :: after → ∀ i target,
      (registeredAt targets before d)[i]? = some target →
      (∀ j < i, ∀ u, (registeredAt targets before d)[j]? = some u →
        (fate defaults encodeProof d.surroundings (d.ref defaults) j u).succeeds = true) →
      Effect.evaluated (d.ref defaults) i target ∈
        (runWithFinalityStream defaults encodeProof targets stream).trace) ∧
    ∀ blockRef,
      (∃ i target, Effect.evaluated blockRef i target ∈
          (runWithFinalityStream defaults encodeProof targets stream).trace) ↔
        ∃ before d after, stream = before ++ d :: after ∧ d.ref defaults = blockRef ∧
          registeredAt targets before d ≠ [] := by
  rw [runWithFinalityStream_trace hconsumed]
  constructor
  · intro before d after hsplit i target hget hbefore
    have hs : (registeredAt targets before d, d) ∈ snapshots targets stream :=
      mem_snapshots_of_split hsplit
    have hd : d.surroundings.isFinal (d.ref defaults) = .ok true :=
      hfinal d (mem_of_mem_snapshots hs)
    refine List.mem_flatMap.mpr ⟨_, hs, ?_⟩
    refine (mem_handle_trace_iff hd).mpr ⟨i, target, ⟨hget, hbefore⟩, ?_⟩
    rw [handleTarget_trace]
    exact List.mem_cons_self
  · intro blockRef
    constructor
    · rintro ⟨i, target, he⟩
      obtain ⟨⟨l, d⟩, hs, he⟩ := List.mem_flatMap.mp he
      obtain ⟨hblock, hne⟩ := handled_effect (hfinal d (mem_of_mem_snapshots hs)) he
      obtain ⟨before, after, hsplit, rfl⟩ := mem_snapshots_iff.mp hs
      exact ⟨before, d, after, hsplit, hblock.symm, hne⟩
    · rintro ⟨before, d, after, hsplit, rfl, hne⟩
      have hs : (registeredAt targets before d, d) ∈ snapshots targets stream :=
        mem_snapshots_of_split hsplit
      have hd : d.surroundings.isFinal (d.ref defaults) = .ok true :=
        hfinal d (mem_of_mem_snapshots hs)
      obtain ⟨target, rest, hlist⟩ := List.exists_cons_of_ne_nil hne
      have hget : (registeredAt targets before d)[0]? = some target := by
        rw [hlist]
        rfl
      exact ⟨0, target, List.mem_flatMap.mpr ⟨_, hs, evaluated_head hd hget⟩⟩

/-! ### A stream that passes over a block -/

/-- A notification of a block of a final chain, with one target registered before the first. -/
def plainDelivery (registrations : List WatchTarget) (notification : FinalityNotification) :
    Delivery :=
  ⟨registrations, notification, rejecting []⟩

/-- The notifications of blocks `1` and `3` of the sample tree. -/
def gapStream : List Delivery :=
  [plainDelivery [sampleTarget] ⟨.repeatByte 2, 1, by decide⟩,
    plainDelivery [] headNotification]

lemma gapStream_final :
    ∀ d ∈ gapStream, d.surroundings.isFinal (d.ref zeroDefaults) = .ok true := by
  intro d hd
  simp only [gapStream, List.mem_cons, List.not_mem_nil, or_false] at hd
  rcases hd with rfl | rfl
  · rfl
  · rfl

lemma gapStream_consumed :
    (runWithFinalityStream zeroDefaults (fun _ => [1]) [] gapStream).outcome = .ok () := rfl

/-- **A finalized block is skipped.**  Block `2` lies on the finalized chain of the sample tree
between the two notified blocks, all of which are final, and is never examined. -/
theorem gapStream_skips :
    forkTree.OnFinalizedChain (.repeatByte 3) ∧ forkTree.level (.repeatByte 3) = 2 ∧
      (∀ d ∈ gapStream, d.surroundings.isFinal (d.ref zeroDefaults) = .ok true) ∧
      (runWithFinalityStream zeroDefaults (fun _ => [1]) [] gapStream).outcome = .ok () ∧
      ∀ e ∈ (runWithFinalityStream zeroDefaults (fun _ => [1]) [] gapStream).trace,
        e.blockRef.hash ≠ .repeatByte 3 := by
  refine ⟨Ancestry.Ancestor.of_parent rfl, rfl, gapStream_final, gapStream_consumed, ?_⟩
  decide

/-- The statement for this stream. -/
theorem examined_iff_notified_gapStream :
    (∀ before d after, gapStream = before ++ d :: after → ∀ i target,
      (registeredAt [] before d)[i]? = some target →
      (∀ j < i, ∀ u, (registeredAt [] before d)[j]? = some u →
        (fate zeroDefaults (fun _ => [1]) d.surroundings (d.ref zeroDefaults) j u).succeeds
          = true) →
      Effect.evaluated (d.ref zeroDefaults) i target ∈
        (runWithFinalityStream zeroDefaults (fun _ => [1]) [] gapStream).trace) ∧
    ∀ blockRef,
      (∃ i target, Effect.evaluated blockRef i target ∈
          (runWithFinalityStream zeroDefaults (fun _ => [1]) [] gapStream).trace) ↔
        ∃ before d after, gapStream = before ++ d :: after ∧ d.ref zeroDefaults = blockRef ∧
          registeredAt [] before d ≠ [] :=
  examined_iff_notified gapStream_consumed gapStream_final

end FrostSubstrate
