/-
Histories of the transition pallet.

A run of the pallet is a list of calls on the empty store, and this history accounts for all that
is stored (`Accounted`): every transition was recorded with a final source block, every proof was
generated from a recorded transition, every event comes from a call that succeeded.  One call
keeps the account, and so does a run.

A proof belongs to the transition that was stored under its key when it was made.  Only where two
recorded transitions have one hash may another one be stored there now.
-/
import FrostSubstrate.Lib.Runs
import FrostSubstrate.Pallet.Transitions

namespace FrostSubstrate

section History

variable {Hash Message : Type} [DecidableEq Hash] {T : FrostTypes Hash Message}

/-! ### What has happened -/

variable (T) in
/-- The store after a history of calls. -/
def storeAfter (proofConfig : PalletProofConfig) (history : List (Extrinsic Hash Message)) :
    FrostStore Hash Message :=
  Runs.run (dispatchStore T) (.empty proofConfig) history

variable (T) in
/-- The calls that succeed, in their order. -/
def succeeded (s : FrostStore Hash Message) :
    List (Extrinsic Hash Message) → List (Extrinsic Hash Message)
  | [] => []
  | x :: history =>
    match dispatchResult T x s with
    | .ok () => x :: succeeded (dispatchStore T s x) history
    | .error _ => succeeded (dispatchStore T s x) history

variable (T) in
/-- The call `x` of the history found the store `s` and succeeded. -/
def SucceededOn (proofConfig : PalletProofConfig) (history : List (Extrinsic Hash Message))
    (x : Extrinsic Hash Message) (s : FrostStore Hash Message) : Prop :=
  ∃ before after, history = before ++ x :: after ∧ storeAfter T proofConfig before = s ∧
    dispatchResult T x s = .ok ()

variable (T) in
/-- The transition was recorded: a call of the history for it succeeded, and `is_final` reported
its source block final during this call. -/
def Recorded (proofConfig : PalletProofConfig) (history : List (Extrinsic Hash Message))
    (transition : StateTransition) : Prop :=
  ∃ x s, SucceededOn T proofConfig history x s ∧ x.call = .recordTransition transition ∧
    x.env.isFinal transition.preState.blockRef = .ok true

variable (T) in
/-- The proof was generated for the key from this transition: a call of the history for the key
succeeded, found the transition under the key, and its generator made the proof of it. -/
def Generated (proofConfig : PalletProofConfig) (history : List (Extrinsic Hash Message))
    (transitionHash : Hash) (transition : StateTransition) (proof : StateProof) : Prop :=
  ∃ x s proofType generator, SucceededOn T proofConfig history x s ∧
    x.call = .generateProof transitionHash proofType ∧
    s.transitions transitionHash = some transition ∧ x.env.generator proofType = some generator ∧
    generator.generateProof transition (s.proofConfig.setProofType proofType) = .ok proof

variable (T) in
/-- No two recorded transitions have one hash. -/
def NoCollision (proofConfig : PalletProofConfig) (history : List (Extrinsic Hash Message)) :
    Prop :=
  ∀ transition transition', Recorded T proofConfig history transition →
    Recorded T proofConfig history transition' →
    T.hashOfTransition transition = T.hashOfTransition transition' → transition = transition'

/-- The history accounts for what is stored. -/
structure Accounted (T : FrostTypes Hash Message) (proofConfig : PalletProofConfig)
    (history : List (Extrinsic Hash Message)) (s : FrostStore Hash Message) : Prop where
  transitions : ∀ h transition, s.transitions h = some transition →
    h = T.hashOfTransition transition ∧ T.validateTransition transition = true ∧
      Recorded T proofConfig history transition
  proofs : ∀ h proof, s.proofs h = some proof → T.encodedSize proof ≤ T.maxProofSize ∧
    (∃ present, s.transitions h = some present) ∧
    ∃ transition, h = T.hashOfTransition transition ∧ Recorded T proofConfig history transition ∧
      Generated T proofConfig history h transition proof
  messages : ∀ h message, s.messages h = some message →
    h = T.hashOfMessage message ∧ T.validateMessage message = true
  events : s.events = (succeeded T (.empty proofConfig) history).map (Extrinsic.event T)
  latestBlock : s.latestBlock = none
  proofConfig_eq : s.proofConfig = proofConfig

variable {proofConfig : PalletProofConfig} {history : List (Extrinsic Hash Message)}
  {x y : Extrinsic Hash Message} {s s' : FrostStore Hash Message} {transition : StateTransition}
  {transitionHash : Hash} {proof : StateProof}

/-! ### Longer histories -/

lemma storeAfter_concat :
    storeAfter T proofConfig (history ++ [x])
      = dispatchStore T (storeAfter T proofConfig history) x :=
  Runs.run_concat

/-- What has happened has happened in every longer history. -/
lemma SucceededOn.concat (h : SucceededOn T proofConfig history x s) :
    SucceededOn T proofConfig (history ++ [y]) x s := by
  obtain ⟨before, after, rfl, hs, hok⟩ := h
  exact ⟨before, after ++ [y], by simp, hs, hok⟩

lemma Recorded.concat (h : Recorded T proofConfig history transition) :
    Recorded T proofConfig (history ++ [y]) transition := by
  obtain ⟨x, s, hx, hcall⟩ := h
  exact ⟨x, s, hx.concat, hcall⟩

lemma Generated.concat (h : Generated T proofConfig history transitionHash transition proof) :
    Generated T proofConfig (history ++ [y]) transitionHash transition proof := by
  obtain ⟨x, s, proofType, generator, hx, hcall⟩ := h
  exact ⟨x, s, proofType, generator, hx.concat, hcall⟩

lemma succeededOn_last (hok : dispatchResult T x (storeAfter T proofConfig history) = .ok ()) :
    SucceededOn T proofConfig (history ++ [x]) x (storeAfter T proofConfig history) :=
  ⟨history, [], rfl, rfl, hok⟩

lemma succeeded_concat_of_ok (hok : dispatchResult T x (Runs.run (dispatchStore T) s history)
    = .ok ()) :
    succeeded T s (history ++ [x]) = succeeded T s history ++ [x] := by
  induction history generalizing s with
  | nil =>
    have hok : dispatchResult T x s = .ok () := hok
    simp [succeeded, hok]
  | cons z history ih =>
    rw [List.cons_append, succeeded, succeeded, ih hok]
    rcases dispatchResult T z s with e | _
    · rfl
    · rfl

lemma succeeded_concat_of_error {e : FrostDispatchError}
    (herror : dispatchResult T x (Runs.run (dispatchStore T) s history) = .error e) :
    succeeded T s (history ++ [x]) = succeeded T s history := by
  induction history generalizing s with
  | nil =>
    have herror : dispatchResult T x s = .error e := herror
    simp [succeeded, herror]
  | cons z history ih =>
    rw [List.cons_append, succeeded, succeeded, ih herror]

/-! ### The account -/

lemma eq_or_of_update {β : Type} {entries : Hash → Option β} {key key' : Hash} {value value' : β}
    (h : Function.update entries key (some value) key' = some value') :
    key' = key ∧ value = value' ∨ entries key' = some value' := by
  by_cases hkey : key' = key
  · subst hkey
    rw [Function.update_self] at h
    exact Or.inl ⟨rfl, Option.some.inj h⟩
  · rw [Function.update_of_ne hkey] at h
    exact Or.inr h

namespace Accounted

lemma empty : Accounted T proofConfig [] (.empty proofConfig) where
  transitions _ _ h := nomatch h
  proofs _ _ h := nomatch h
  messages _ _ h := nomatch h
  events := rfl
  latestBlock := rfl
  proofConfig_eq := rfl

lemma transitions_concat (h : Accounted T proofConfig history s) (y : Extrinsic Hash Message)
    (key : Hash) (transition : StateTransition) (hget : s.transitions key = some transition) :
    key = T.hashOfTransition transition ∧ T.validateTransition transition = true ∧
      Recorded T proofConfig (history ++ [y]) transition := by
  obtain ⟨hkey, hvalid, hrecorded⟩ := h.transitions key transition hget
  exact ⟨hkey, hvalid, hrecorded.concat⟩

lemma proofs_concat (h : Accounted T proofConfig history s) (y : Extrinsic Hash Message)
    (key : Hash) (proof : StateProof) (hget : s.proofs key = some proof) :
    T.encodedSize proof ≤ T.maxProofSize ∧ (∃ present, s.transitions key = some present) ∧
      ∃ transition, key = T.hashOfTransition transition ∧
        Recorded T proofConfig (history ++ [y]) transition ∧
        Generated T proofConfig (history ++ [y]) key transition proof := by
  obtain ⟨hsize, hpresent, transition, hkey, hrecorded, hgenerated⟩ := h.proofs key proof hget
  exact ⟨hsize, hpresent, transition, hkey, hrecorded.concat, hgenerated.concat⟩

lemma events_concat (h : Accounted T proofConfig history (storeAfter T proofConfig history))
    (hok : dispatchResult T x (storeAfter T proofConfig history) = .ok ()) :
    (storeAfter T proofConfig history).events ++ [x.event T]
      = (succeeded T (.empty proofConfig) (history ++ [x])).map (Extrinsic.event T) := by
  rw [succeeded_concat_of_ok hok, List.map_append, h.events]
  rfl

lemma concat_of_error {e : FrostDispatchError}
    (h : Accounted T proofConfig history (storeAfter T proofConfig history))
    (herror : dispatchResult T x (storeAfter T proofConfig history) = .error e) :
    Accounted T proofConfig (history ++ [x]) (storeAfter T proofConfig history) where
  transitions := h.transitions_concat x
  proofs := h.proofs_concat x
  messages := h.messages
  events := by rw [succeeded_concat_of_error herror, h.events]
  latestBlock := h.latestBlock
  proofConfig_eq := h.proofConfig_eq

lemma concat_of_writes (h : Accounted T proofConfig history (storeAfter T proofConfig history))
    (hok : dispatchResult T x (storeAfter T proofConfig history) = .ok ())
    (hwrites : Writes T x (storeAfter T proofConfig history) s') :
    Accounted T proofConfig (history ++ [x]) s' := by
  have hlast := succeededOn_last hok
  have hevents := h.events_concat hok
  have htransitions := h.transitions_concat x
  have hproofs := h.proofs_concat x
  cases hwrites with
  | @recordTransition recorded hcall hvalid hfinal =>
    refine ⟨?_, ?_, h.messages, hevents, h.latestBlock, h.proofConfig_eq⟩
    · intro key transition hget
      rcases eq_or_of_update hget with ⟨rfl, rfl⟩ | hget
      · exact ⟨rfl, hvalid, x, _, hlast, hcall, hfinal⟩
      · exact htransitions key transition hget
    · intro key proof hget
      obtain ⟨hsize, ⟨present, hpresent⟩, hgenerated⟩ := hproofs key proof hget
      refine ⟨hsize, ?_, hgenerated⟩
      -- the key stays, though another transition may stand under it now
      by_cases hkey : key = T.hashOfTransition recorded
      · subst hkey
        exact ⟨recorded, Function.update_self _ _ _⟩
      · exact ⟨present, (Function.update_of_ne hkey _ _).trans hpresent⟩
  | @generateProof transitionHash proofType transition generator made hcall hstored hgenerator
      hproof hsize =>
    refine ⟨htransitions, ?_, h.messages, hevents, h.latestBlock, h.proofConfig_eq⟩
    intro key proof hget
    rcases eq_or_of_update hget with ⟨rfl, rfl⟩ | hget
    · obtain ⟨hhash, -, hrecorded⟩ := htransitions key transition hstored
      exact ⟨hsize, ⟨transition, hstored⟩, transition, hhash, hrecorded,
        x, _, proofType, generator, hlast, hcall, hstored, hgenerator, hproof⟩
    · exact hproofs key proof hget
  | @verifyMessage message generator hcall hvalid hgenerator hverified =>
    refine ⟨htransitions, hproofs, ?_, hevents, h.latestBlock, h.proofConfig_eq⟩
    intro key message' hget
    rcases eq_or_of_update hget with ⟨rfl, rfl⟩ | hget
    · exact ⟨rfl, hvalid⟩
    · exact h.messages key message' hget

lemma concat (h : Accounted T proofConfig history (storeAfter T proofConfig history))
    (x : Extrinsic Hash Message) :
    Accounted T proofConfig (history ++ [x]) (storeAfter T proofConfig (history ++ [x])) := by
  rw [storeAfter_concat]
  rcases dispatch_ends (T := T) x (storeAfter T proofConfig history)
    with ⟨e, herror, hstore⟩ | ⟨-, hok, hwrites⟩
  · rw [hstore]
    exact h.concat_of_error herror
  · exact h.concat_of_writes hok hwrites

end Accounted

lemma accounted_storeAfter (T : FrostTypes Hash Message) (proofConfig : PalletProofConfig)
    (history : List (Extrinsic Hash Message)) :
    Accounted T proofConfig history (storeAfter T proofConfig history) := by
  induction history using List.reverseRecOn with
  | nil => exact Accounted.empty
  | append_singleton history x ih => exact ih.concat x

/-- The transition a proof was generated from is the one stored under its key, if no two recorded
transitions have one hash. -/
lemma Accounted.present_of_noCollision (h : Accounted T proofConfig history s)
    (hnone : NoCollision T proofConfig history) (hproof : s.proofs transitionHash = some proof) :
    ∃ transition, s.transitions transitionHash = some transition ∧
      Generated T proofConfig history transitionHash transition proof := by
  obtain ⟨-, ⟨present, hpresent⟩, transition, hkey, hrecorded, hgenerated⟩ :=
    h.proofs transitionHash proof hproof
  obtain ⟨hkey', -, hrecorded'⟩ := h.transitions transitionHash present hpresent
  obtain rfl := hnone present transition hrecorded' hrecorded (hkey'.symm.trans hkey)
  exact ⟨present, hpresent, hgenerated⟩

/-- **The store of the transition pallet.**  After every history of calls the store is accounted
for; the proofs are those of the transitions stored under their keys, if no two recorded
transitions have one hash; and a call that fails changes nothing. -/
theorem store_accounted (T : FrostTypes Hash Message) (proofConfig : PalletProofConfig)
    (history : List (Extrinsic Hash Message)) :
    Accounted T proofConfig history (storeAfter T proofConfig history) ∧
      (NoCollision T proofConfig history → ∀ transitionHash proof,
        (storeAfter T proofConfig history).proofs transitionHash = some proof →
        ∃ transition, (storeAfter T proofConfig history).transitions transitionHash
            = some transition ∧
          Generated T proofConfig history transitionHash transition proof) ∧
      ∀ x e, dispatchResult T x (storeAfter T proofConfig history) = .error e →
        dispatchStore T (storeAfter T proofConfig history) x
          = storeAfter T proofConfig history := by
  have haccounted := accounted_storeAfter T proofConfig history
  refine ⟨haccounted, ?_, ?_⟩
  · intro hnone transitionHash proof hproof
    exact haccounted.present_of_noCollision hnone hproof
  · intro x e herror
    exact dispatchStore_of_error herror

end History

/-! ### Two transitions of one hash -/

/-- A pallet that accepts everything, under a hash that maps everything to one value. -/
def collidingTypes : FrostTypes Unit Unit where
  validateTransition _ := true
  validateMessage _ := true
  proofOf _ := ⟨⟨⟨""⟩, 0, ⟨⟨⟨""⟩, 0, .zero⟩, .zero, none⟩, ⟨⟨⟨""⟩, 0, .zero⟩, .zero, none⟩, none,
    ⟨0, 1, .merkle, none⟩⟩, ⟨.merkle, [], none, 0, none, 1⟩⟩
  hashOfTransition _ := ()
  hashOfMessage _ := ()
  encodedSize _ := 0
  maxProofSize := 1024

/-- A transition at a block height. -/
def transitionAt (blockHeight : ℕ) : StateTransition :=
  { (collidingTypes.proofOf ()).transition with blockHeight := blockHeight }

/-- A generator whose proofs contain the transition, as `StateProof::new` makes them. -/
def plainGenerator : BoxedGenerator where
  generateProof transition _ := .ok ⟨transition, ⟨.merkle, [], none, 0, none, 1⟩⟩
  verifyProof _ _ := .ok true

/-- A signed call while every block is final. -/
def plainExtrinsic (call : FrostCall Unit Unit) : Extrinsic Unit Unit :=
  ⟨.signed, ⟨fun _ => .ok true, plainGenerator, plainGenerator⟩, call⟩

lemma generator_plainExtrinsic {call : FrostCall Unit Unit} {proofType : ProofType}
    {generator : BoxedGenerator}
    (h : (plainExtrinsic call).env.generator proofType = some generator) :
    generator = plainGenerator := by
  cases proofType with
  | basic => cases h
  | merkle => exact (Option.some.inj h).symm
  | signature => exact (Option.some.inj h).symm
  | custom name => cases h

/-- Two transitions are recorded, and a proof is made in between. -/
def collidingHistory : List (Extrinsic Unit Unit) :=
  [plainExtrinsic (.recordTransition (transitionAt 1)),
    plainExtrinsic (.generateProof () .merkle),
    plainExtrinsic (.recordTransition (transitionAt 2))]

/-- **Under a colliding hash a proof outlives its transition.**  The transition stored under the key
of the proof is not the one the proof was generated from. -/
theorem collidingHistory_replaces :
    (storeAfter collidingTypes .default collidingHistory).transitions () = some (transitionAt 2) ∧
      ¬ ∀ transitionHash proof,
        (storeAfter collidingTypes .default collidingHistory).proofs transitionHash = some proof →
        ∃ transition,
          (storeAfter collidingTypes .default collidingHistory).transitions transitionHash
            = some transition ∧
          Generated collidingTypes .default collidingHistory transitionHash transition proof := by
  refine ⟨rfl, ?_⟩
  intro hstored
  obtain ⟨transition, hpresent, x, s, proofType, generator, ⟨before, after, hsplit, -, -⟩, -, -,
    hgenerator, hproof⟩ := hstored () ⟨transitionAt 1, ⟨.merkle, [], none, 0, none, 1⟩⟩ rfl
  obtain rfl : transitionAt 2 = transition := Option.some.inj hpresent
  obtain ⟨call, rfl⟩ : ∃ call, x = plainExtrinsic call := by
    have hx : x ∈ collidingHistory := by
      rw [hsplit]
      exact List.mem_append_right _ List.mem_cons_self
    simp only [collidingHistory, List.mem_cons, List.not_mem_nil, or_false] at hx
    rcases hx with rfl | rfl | rfl
    · exact ⟨_, rfl⟩
    · exact ⟨_, rfl⟩
    · exact ⟨_, rfl⟩
  -- whatever call it is, its generator puts the transition it is given into the proof
  obtain rfl := generator_plainExtrinsic hgenerator
  have hheight :=
    congrArg (fun result => result.map fun proof => proof.transition.blockHeight) hproof
  cases hheight

end FrostSubstrate
