/-
The pallet that records state transitions, their proofs and verified messages.

Each of its three calls makes a number of checks and then writes one map and one event; a check that
fails ends the call.  What a call needs of its surroundings, the verdict of `is_final` and
the two generators, is its `CallEnvironment`; it may be another one at each call.

What a call does is said once (`dispatch_ends`): it fails and has written nothing, or it succeeds,
and `Writes` lists what it has checked and written.  The proof goes through a call check by check.
-/
import FrostSubstrate.Lib.Checked
import FrostSubstrate.Pallet.WatchTargets

namespace FrostSubstrate

open Checked (FailsOrReturns answers_pure answers_throw)

/-! ### Storage -/

/-- `pallet::ProofGenerationConfig`; the timeout is in seconds. -/
structure PalletProofConfig where
  proofType : ProofType
  maxSize : ℕ
  timeout : ℕ

/-- `impl Default for ProofGenerationConfig`. -/
def PalletProofConfig.default : PalletProofConfig where
  proofType := .merkle
  maxSize := 1024 * 1024
  timeout := 30

/-- `config.proof_type = proof_type`. -/
def PalletProofConfig.setProofType (config : PalletProofConfig) (proofType : ProofType) :
    PalletProofConfig :=
  { config with proofType := proofType }

inductive FrostEvent (Hash : Type) where
  | transitionRecorded (transitionHash : Hash)
  | proofGenerated (transitionHash : Hash) (proofType : ProofType)
  | messageVerified (messageHash : Hash)
  | stateFinalized (blockRef : BlockRef)
deriving DecidableEq

/-- `Error<T>`, and the origin error of `ensure_signed`. -/
inductive FrostDispatchError where
  | badOrigin
  | invalidTransition
  | invalidProof
  | invalidMessage
  | blockNotFinalized
  | proofTooLarge
  | unsupportedProofType
  | finalityVerificationFailed
deriving DecidableEq

/-- The storage of the pallet and its event log. -/
structure FrostStore (Hash Message : Type) where
  transitions : Hash → Option StateTransition
  proofs : Hash → Option StateProof
  messages : Hash → Option Message
  latestBlock : Option BlockRef
  proofConfig : PalletProofConfig
  events : List (FrostEvent Hash)

/-- The store at genesis; `ProofConfig` comes from the configuration of the chain. -/
def FrostStore.empty {Hash Message : Type} (proofConfig : PalletProofConfig) :
    FrostStore Hash Message where
  transitions _ := none
  proofs _ := none
  messages _ := none
  latestBlock := none
  proofConfig := proofConfig
  events := []

/-! ### What the calls use -/

/-- What the pallet uses of linked crates and of its configuration: the two `validate`, the proof
of a message, `T::Hashing::hash_of` for the two stored types, `encoded_size` and `MaxProofSize`. -/
structure FrostTypes (Hash Message : Type) where
  validateTransition : StateTransition → Bool
  validateMessage : Message → Bool
  proofOf : Message → StateProof
  hashOfTransition : StateTransition → Hash
  hashOfMessage : Message → Hash
  encodedSize : StateProof → ℕ
  maxProofSize : ℕ

/-- A generator behind `Box<dyn ProofGenerator>`. -/
structure BoxedGenerator where
  generateProof : StateTransition → PalletProofConfig → Except StateError StateProof
  verifyProof : StateProof → PalletProofConfig → Except StateError Bool

/-- What the clients of the runtime answer during a call. -/
structure CallEnvironment where
  isFinal : BlockRef → Except FinalityError Bool
  merkle : BoxedGenerator
  bls : BoxedGenerator

/-- The generator for a proof type. -/
def CallEnvironment.generator (env : CallEnvironment) : ProofType → Option BoxedGenerator
  | .merkle => some env.merkle
  | .signature => some env.bls
  | _ => none

/-! ### The calls -/

/-- A call of the pallet: it may write and end with an error, and what it has written stays. -/
abbrev FrostM (Hash Message : Type) := ExceptT FrostDispatchError (StateM (FrostStore Hash Message))

section Calls

variable {Hash Message : Type} [DecidableEq Hash]

/-- `ensure!(condition, error)`. -/
def ensure (condition : Bool) (error : FrostDispatchError) : FrostM Hash Message Unit :=
  if condition then pure () else throw error

def ensureSigned : Origin → FrostM Hash Message Unit
  | .signed => pure ()
  | _ => throw .badOrigin

/-- `result.map_err(|_| error)?`. -/
def orError {ε α : Type} (error : FrostDispatchError) : Except ε α → FrostM Hash Message α
  | .ok a => pure a
  | .error _ => throw error

/-- `option.ok_or(error)?`. -/
def okOr {α : Type} (error : FrostDispatchError) : Option α → FrostM Hash Message α
  | some a => pure a
  | none => throw error

def depositEvent (event : FrostEvent Hash) : FrostM Hash Message Unit :=
  modify fun s => { s with events := s.events ++ [event] }

variable (T : FrostTypes Hash Message) (env : CallEnvironment) (origin : Origin)

/-- `Module::record_transition`. -/
def recordTransition (transition : StateTransition) : FrostM Hash Message Unit := do
  ensureSigned origin
  ensure (T.validateTransition transition) .invalidTransition
  let isFinal ← orError .finalityVerificationFailed (env.isFinal transition.preState.blockRef)
  ensure isFinal .blockNotFinalized
  let transitionHash := T.hashOfTransition transition
  modify fun s => { s with
    transitions := Function.update s.transitions transitionHash (some transition) }
  depositEvent (.transitionRecorded transitionHash)

/-- `Module::generate_proof`. -/
def generateProof (transitionHash : Hash) (proofType : ProofType) : FrostM Hash Message Unit := do
  ensureSigned origin
  let s ← get
  let transition ← okOr .invalidTransition (s.transitions transitionHash)
  let generator ← okOr .unsupportedProofType (env.generator proofType)
  let config := s.proofConfig.setProofType proofType
  let proof ← orError .invalidProof (generator.generateProof transition config)
  ensure (decide (T.encodedSize proof ≤ T.maxProofSize)) .proofTooLarge
  modify fun s => { s with proofs := Function.update s.proofs transitionHash (some proof) }
  depositEvent (.proofGenerated transitionHash proofType)

/-- `Module::verify_message`. -/
def verifyMessage (message : Message) : FrostM Hash Message Unit := do
  ensureSigned origin
  ensure (T.validateMessage message) .invalidMessage
  let generator ← okOr .unsupportedProofType
    (env.generator (T.proofOf message).proofData.proofType)
  let s ← get
  let verified ← orError .invalidProof (generator.verifyProof (T.proofOf message) s.proofConfig)
  ensure verified .invalidProof
  let messageHash := T.hashOfMessage message
  modify fun s => { s with messages := Function.update s.messages messageHash (some message) }
  depositEvent (.messageVerified messageHash)

/-- The calls of the module. -/
inductive FrostCall (Hash Message : Type) where
  | recordTransition (transition : StateTransition)
  | generateProof (transitionHash : Hash) (proofType : ProofType)
  | verifyMessage (message : Message)

/-- A call with its origin and what the clients answer while it is made. -/
structure Extrinsic (Hash Message : Type) where
  origin : Origin
  env : CallEnvironment
  call : FrostCall Hash Message

/-- Make a call. -/
def dispatch (x : Extrinsic Hash Message) : FrostM Hash Message Unit :=
  match x.call with
  | .recordTransition transition => recordTransition T x.env x.origin transition
  | .generateProof transitionHash proofType =>
    generateProof T x.env x.origin transitionHash proofType
  | .verifyMessage message => verifyMessage T x.env x.origin message

/-- What a call returns. -/
def dispatchResult (x : Extrinsic Hash Message) (s : FrostStore Hash Message) :
    Except FrostDispatchError Unit :=
  ((dispatch T x).run.run s).1

/-- The store after a call. -/
def dispatchStore (s : FrostStore Hash Message) (x : Extrinsic Hash Message) :
    FrostStore Hash Message :=
  ((dispatch T x).run.run s).2

/-! ### The checks of a call -/

section Checks

omit [DecidableEq Hash]

variable {α : Type} {s : FrostStore Hash Message} {P : FrostStore Hash Message → Prop}
  {error : FrostDispatchError}

lemma ensure_check {condition : Bool} {k : Unit → FrostM Hash Message Unit}
    (hk : condition = true → FailsOrReturns (k ()) s P) :
    FailsOrReturns (ensure condition error >>= k) s P := by
  cases condition with
  | false => exact .check (answers_throw error) (by simp)
  | true => exact .check (answers_pure ()) fun _ _ => hk rfl

lemma ensureSigned_check {origin : Origin} {k : Unit → FrostM Hash Message Unit}
    (hk : origin = .signed → FailsOrReturns (k ()) s P) :
    FailsOrReturns (ensureSigned origin >>= k) s P := by
  cases origin with
  | signed => exact .check (answers_pure ()) fun _ _ => hk rfl
  | root => exact .check (answers_throw FrostDispatchError.badOrigin) (by simp)
  | none => exact .check (answers_throw FrostDispatchError.badOrigin) (by simp)

lemma orError_check {ε : Type} {result : Except ε α} {k : α → FrostM Hash Message Unit}
    (hk : ∀ a, result = .ok a → FailsOrReturns (k a) s P) :
    FailsOrReturns (orError error result >>= k) s P := by
  cases result with
  | error e => exact .check (answers_throw error) (by simp)
  | ok a => exact .check (answers_pure a) fun _ h => hk _ (congrArg Except.ok (Except.ok.inj h))

lemma okOr_check {option : Option α} {k : α → FrostM Hash Message Unit}
    (hk : ∀ a, option = some a → FailsOrReturns (k a) s P) :
    FailsOrReturns (okOr error option >>= k) s P := by
  cases option with
  | none => exact .check (answers_throw error) (by simp)
  | some a => exact .check (answers_pure a) fun _ h => hk _ (congrArg some (Except.ok.inj h))

end Checks

/-! ### What a call writes -/

variable {T env origin} {s s' : FrostStore Hash Message} {x : Extrinsic Hash Message}
  {transition : StateTransition} {transitionHash : Hash} {proofType : ProofType} {message : Message}

/-- The event of a call. -/
def Extrinsic.event (T : FrostTypes Hash Message) (x : Extrinsic Hash Message) : FrostEvent Hash :=
  match x.call with
  | .recordTransition transition => .transitionRecorded (T.hashOfTransition transition)
  | .generateProof transitionHash proofType => .proofGenerated transitionHash proofType
  | .verifyMessage message => .messageVerified (T.hashOfMessage message)

/-- What a call that succeeds has checked, and the store it leaves. -/
inductive Writes (T : FrostTypes Hash Message) (x : Extrinsic Hash Message)
    (s : FrostStore Hash Message) : FrostStore Hash Message → Prop
  | recordTransition {transition : StateTransition}
    (hcall : x.call = .recordTransition transition)
    (hvalid : T.validateTransition transition = true)
    (hfinal : x.env.isFinal transition.preState.blockRef = .ok true) :
    Writes T x s { s with
      transitions := Function.update s.transitions (T.hashOfTransition transition) (some transition)
      events := s.events ++ [x.event T] }
  | generateProof {transitionHash : Hash} {proofType : ProofType} {transition : StateTransition}
    {generator : BoxedGenerator} {proof : StateProof}
    (hcall : x.call = .generateProof transitionHash proofType)
    (hstored : s.transitions transitionHash = some transition)
    (hgenerator : x.env.generator proofType = some generator)
    (hproof : generator.generateProof transition (s.proofConfig.setProofType proofType) = .ok proof)
    (hsize : T.encodedSize proof ≤ T.maxProofSize) :
    Writes T x s { s with
      proofs := Function.update s.proofs transitionHash (some proof)
      events := s.events ++ [x.event T] }
  | verifyMessage {message : Message} {generator : BoxedGenerator}
    (hcall : x.call = .verifyMessage message)
    (hvalid : T.validateMessage message = true)
    (hgenerator : x.env.generator (T.proofOf message).proofData.proofType = some generator)
    (hverified : generator.verifyProof (T.proofOf message) s.proofConfig = .ok true) :
    Writes T x s { s with
      messages := Function.update s.messages (T.hashOfMessage message) (some message)
      events := s.events ++ [x.event T] }

/-- A call has failed and written nothing, or has succeeded and made its write and its event. -/
def Ends (T : FrostTypes Hash Message) (x : Extrinsic Hash Message)
    (s : FrostStore Hash Message) : Prop :=
  (∃ e, dispatchResult T x s = .error e ∧ dispatchStore T s x = s) ∨
    x.origin = .signed ∧ dispatchResult T x s = .ok () ∧ Writes T x s (dispatchStore T s x)

lemma ends_of_failsOrReturns (horigin : x.origin = .signed)
    (h : FailsOrReturns (dispatch T x) s (Writes T x s)) : Ends T x s := by
  rcases h with ⟨e, hfails⟩ | ⟨_, s', hreturns, hwrites⟩
  · exact Or.inl ⟨e, congrArg Prod.fst hfails, congrArg Prod.snd hfails⟩
  · have hstore : dispatchStore T s x = s' := congrArg Prod.snd hreturns
    exact Or.inr ⟨horigin, congrArg Prod.fst hreturns, hstore ▸ hwrites⟩

lemma recordTransition_writes (hcall : x.call = .recordTransition transition) :
    FailsOrReturns (recordTransition T x.env x.origin transition) s (Writes T x s) := by
  refine ensureSigned_check fun _ => ?_
  refine ensure_check fun hvalid => ?_
  refine orError_check fun verdict hfinal => ?_
  refine ensure_check fun hverdict => ?_
  subst hverdict
  refine .write rfl ?_
  convert Writes.recordTransition hcall hvalid hfinal
  simp only [Extrinsic.event, hcall]

lemma generateProof_writes (hcall : x.call = .generateProof transitionHash proofType) :
    FailsOrReturns (generateProof T x.env x.origin transitionHash proofType) s (Writes T x s) := by
  refine ensureSigned_check fun _ => ?_
  refine .look ?_
  refine okOr_check fun transition hstored => ?_
  refine okOr_check fun generator hgenerator => ?_
  refine orError_check fun proof hproof => ?_
  refine ensure_check fun hsize => ?_
  refine .write rfl ?_
  convert Writes.generateProof hcall hstored hgenerator hproof (of_decide_eq_true hsize)
  simp only [Extrinsic.event, hcall]

lemma verifyMessage_writes (hcall : x.call = .verifyMessage message) :
    FailsOrReturns (verifyMessage T x.env x.origin message) s (Writes T x s) := by
  refine ensureSigned_check fun _ => ?_
  refine ensure_check fun hvalid => ?_
  refine okOr_check fun generator hgenerator => ?_
  refine .look ?_
  refine orError_check fun verdict hverified => ?_
  refine ensure_check fun hverdict => ?_
  subst hverdict
  refine .write rfl ?_
  convert Writes.verifyMessage hcall hvalid hgenerator hverified
  simp only [Extrinsic.event, hcall]

/-- **What a call does.**  It fails and writes nothing, or it succeeds and makes its write. -/
theorem dispatch_ends (x : Extrinsic Hash Message) (s : FrostStore Hash Message) : Ends T x s := by
  by_cases horigin : x.origin = .signed
  · apply ends_of_failsOrReturns horigin
    unfold dispatch
    rcases hcall : x.call with transition | ⟨transitionHash, proofType⟩ | message
    · exact recordTransition_writes hcall
    · exact generateProof_writes hcall
    · exact verifyMessage_writes hcall
  · refine Or.inl ⟨.badOrigin, ?_⟩
    rcases x with ⟨_ | _ | _, env, transition | ⟨transitionHash, proofType⟩ | message⟩
    all_goals first
      | exact absurd rfl horigin
      | exact ⟨rfl, rfl⟩

lemma dispatchStore_of_error {e : FrostDispatchError} (h : dispatchResult T x s = .error e) :
    dispatchStore T s x = s := by
  rcases dispatch_ends x s with ⟨e', -, hstore⟩ | ⟨-, hok, -⟩
  · exact hstore
  · rw [hok] at h
    cases h

end Calls

end FrostSubstrate
