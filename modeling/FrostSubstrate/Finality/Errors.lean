/-
Errors of the verification client, their texts and their conversions.
-/
import FrostSubstrate.External.FrostProtocol

namespace FrostSubstrate

/-- `GrandpaFinalityVerificationError`, every variant with its message. -/
inductive GrandpaFinalityVerificationError where
  | chainError (msg : String)
  | blockNotFound (msg : String)
  | consensusError (msg : String)
  | timeoutError (msg : String)
  | invalidJustification (msg : String)
  | invalidProof (msg : String)
  | authoritySetError (msg : String)
  | signatureVerificationError (msg : String)
  | invalidInput (msg : String)
deriving DecidableEq

namespace GrandpaFinalityVerificationError

/-- `to_string`. -/
def toString : GrandpaFinalityVerificationError → String
  | chainError msg => "Chain error: " ++ msg
  | blockNotFound msg => "Block not found: " ++ msg
  | consensusError msg => "Consensus error: " ++ msg
  | timeoutError msg => "Timeout error: " ++ msg
  | invalidJustification msg => "Invalid justification: " ++ msg
  | invalidProof msg => "Invalid proof: " ++ msg
  | authoritySetError msg => "Authority set error: " ++ msg
  | signatureVerificationError msg => "Signature verification failed: " ++ msg
  | invalidInput msg => "Invalid input: " ++ msg

/-- `impl From<GrandpaFinalityVerificationError> for FinalityVerificationError`. -/
def toVerificationError (err : GrandpaFinalityVerificationError) : FinalityVerificationError :=
  ⟨err.toString⟩

end GrandpaFinalityVerificationError

end FrostSubstrate
