/-
What the source uses of the `frost_protocol` crate, and the JSON values it builds.

Only the fields the repository reads or writes are kept.  Three defaults of that crate
are not visible in the repository; they are the fields of `FrostDefaults`, a parameter of
the code that uses them.
-/
import FrostSubstrate.External.Primitives

namespace FrostSubstrate

/-- A value of `serde_json`. -/
inductive Json where
  | num (n : ℚ)
  | str (s : String)
  | arr (l : List Json)
  | obj (fields : List (String × Json))

/-! ### Blocks and states -/

/-- `ChainId`, as made by `ChainId::new` from a name. -/
structure ChainId where
  name : String
deriving DecidableEq

/-- `BlockRef`. -/
structure BlockRef where
  chainId : ChainId
  number : ℕ
  hash : H256
deriving DecidableEq

/-- `Block`, which the source imports as `FrostBlock`. -/
structure FrostBlock where
  hash : H256
  number : ℕ
deriving DecidableEq

/-- `StateRoot`. -/
structure StateRoot where
  blockRef : BlockRef
  rootHash : H256
  metadata : Option Json

/-- `ProofType`. -/
inductive ProofType where
  | basic
  | merkle
  | signature
  | custom (name : String)
deriving DecidableEq

/-- `TransitionMetadata`. -/
structure TransitionMetadata where
  timestamp : ℕ
  version : ℕ
  proofType : ProofType
  chainSpecific : Option Json

/-- `StateTransition`. -/
structure StateTransition where
  chainId : ChainId
  blockHeight : ℕ
  preState : StateRoot
  postState : StateRoot
  transitionProof : Option Bytes
  metadata : TransitionMetadata

/-- `ProofData`; the two times are seconds of the system clock. -/
structure ProofData where
  proofType : ProofType
  data : Bytes
  metadata : Option Json
  generatedAt : ℕ
  expiresAt : Option ℕ
  version : ℕ

/-- `StateProof::new(transition, proof_data)`. -/
structure StateProof where
  transition : StateTransition
  proofData : ProofData

/-- The defaults of the crate: `ChainId::default()`, `BlockRef::default()` and
`StateRoot::default()`. -/
structure FrostDefaults where
  chainId : ChainId
  blockRef : BlockRef
  stateRoot : StateRoot

/-- `StateError`. -/
inductive StateError where
  | internal (text : String)
deriving DecidableEq

/-! ### Messages -/

/-- `MessageType`. -/
inductive MessageType where
  | stateTransition
deriving DecidableEq

/-- `FrostMessage::new(message_type, payload, source, target)`. -/
structure FrostMessage where
  messageType : MessageType
  payload : Bytes
  source : String
  target : Option String
deriving DecidableEq

/-! ### Finality -/

/-- `PredicateConfig`; the timeout is in seconds. -/
structure PredicateConfig (F : Type) where
  minConfirmations : ℕ
  confidenceThreshold : F
  evaluationTimeout : ℕ

/-- `ChainRules`. -/
structure ChainRules (F : Type) where
  minConfirmations : ℕ
  confidenceThreshold : F
  maxForkDepth : ℕ
  minParticipation : F
  chainParams : Json

/-- `FinalityVerificationError`, an error text. -/
structure FinalityVerificationError where
  text : String
deriving DecidableEq

/-- `FinalityError`. -/
inductive FinalityError where
  | chainError (text : String)
  | consensusError (details : String) (requiredPower actualPower : ℕ)
  | timeout (blockRef : BlockRef) (timeoutSecs retryCount : ℕ)
deriving DecidableEq

/-- The trait `FinalityVerificationClient`, as a trait object: what `is_final` asks a
verification client. -/
structure FinalityVerificationClient (F : Type) where
  verifyBlockHash : BlockRef → Except FinalityVerificationError Bool
  getFinalityConfidence : BlockRef → Except FinalityVerificationError F
  verifyChainRules : BlockRef → ChainRules F → Except FinalityVerificationError Bool

end FrostSubstrate
