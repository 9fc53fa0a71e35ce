/-
The state transition the observer makes for a matched target.

`SSMPStateTransition::new` writes the two names and the target chain into the JSON metadata
of a transition, as text: `String::from_utf8_lossy` keeps valid UTF-8 and replaces every
maximal invalid piece by the replacement character.  The two states of the transition are
defaults, whatever the block is.
-/
import FrostSubstrate.Observer.Target

namespace FrostSubstrate

/-! ### Lossy decoding of UTF-8 -/

/-- What a first byte announces: the number of bytes that follow, the bounds of the first of
them, and the bits the first byte contributes. -/
def leadByte (b : ℕ) : Option (ℕ × ℕ × ℕ × ℕ) :=
  if 0xC2 ≤ b ∧ b ≤ 0xDF then some (1, 0x80, 0xBF, b - 0xC0)
  -- no overlong forms, no surrogates, nothing beyond the last code point
  else if b = 0xE0 then some (2, 0xA0, 0xBF, b - 0xE0)
  else if b = 0xED then some (2, 0x80, 0x9F, b - 0xE0)
  else if 0xE1 ≤ b ∧ b ≤ 0xEF then some (2, 0x80, 0xBF, b - 0xE0)
  else if b = 0xF0 then some (3, 0x90, 0xBF, b - 0xF0)
  else if 0xF1 ≤ b ∧ b ≤ 0xF3 then some (3, 0x80, 0xBF, b - 0xF0)
  else if b = 0xF4 then some (3, 0x80, 0x8F, b - 0xF0)
  else none

/-- Read `n` following bytes, the first of them within bounds: the code point, if they are all
there, and how many were read. -/
def readTail : ℕ → ℕ → ℕ → ℕ → Bytes → Option ℕ × ℕ
  | 0, _, _, codePoint, _ => (some codePoint, 0)
  | _ + 1, _, _, _, [] => (none, 0)
  | n + 1, lo, hi, codePoint, b :: l =>
    if lo ≤ b.toNat ∧ b.toNat ≤ hi then
      let rest := readTail n 0x80 0xBF (codePoint * 64 + (b.toNat - 0x80)) l
      (rest.1, rest.2 + 1)
    else (none, 0)

/-- The characters of a byte string; every step reads at least one byte. -/
def lossyChars : ℕ → Bytes → List Char
  | 0, _ => []
  | _ + 1, [] => []
  | fuel + 1, b :: l =>
    if b.toNat < 0x80 then Char.ofNat b.toNat :: lossyChars fuel l
    else
      match leadByte b.toNat with
      | none => Char.ofNat 0xFFFD :: lossyChars fuel l
      | some (n, lo, hi, high) =>
        -- what was read before the first bad byte belongs to the piece that is replaced
        let tail := readTail n lo hi high l
        Char.ofNat (tail.1.getD 0xFFFD) :: lossyChars fuel (l.drop tail.2)

/-- `String::from_utf8_lossy`. -/
def fromUtf8Lossy (bytes : Bytes) : String := String.ofList (lossyChars bytes.length bytes)

/-- A euro sign, the start of another one, and a letter. -/
example : fromUtf8Lossy [0xE2, 0x82, 0xAC, 0xE2, 0x82, 0x41] = "€\uFFFDA" := by decide

/-! ### The transition -/

/-- `SSMPStateTransition`, a wrapper that `into` takes off. -/
structure SSMPStateTransition where
  into : StateTransition

/-- `SSMPStateTransition::new`; `now` is the clock in seconds since the epoch. -/
def SSMPStateTransition.new (now : ℕ) (chainId : ChainId) (blockHeight : ℕ)
    (preState postState : StateRoot) (moduleName functionName targetChain : Bytes) :
    SSMPStateTransition :=
  let metadata : TransitionMetadata := {
    timestamp := now
    version := 0
    proofType := .basic
    chainSpecific := some (.obj [
      ("module_name", .str (fromUtf8Lossy moduleName)),
      ("function_name", .str (fromUtf8Lossy functionName)),
      ("target_chain", .str (fromUtf8Lossy targetChain))]) }
  ⟨{ chainId := chainId
     blockHeight := blockHeight
     preState := preState
     postState := postState
     transitionProof := none
     metadata := metadata }⟩

/-- `SSMPObserver::generate_state_transition`.  The conversion of the hash to 32 bytes cannot
fail on an `H256`. -/
def generateStateTransition (defaults : FrostDefaults) (now : ℕ) (blockRef : BlockRef)
    (target : WatchTarget) : Except ProtocolError SSMPStateTransition :=
  let preState : StateRoot := ⟨defaults.blockRef, .zero, none⟩
  let postState := defaults.stateRoot
  .ok (.new now blockRef.chainId blockRef.number preState postState target.moduleName.val
    target.functionName.val target.targetChain.val)

/-- Defaults whose hashes are all zero. -/
def zeroDefaults : FrostDefaults where
  chainId := ⟨""⟩
  blockRef := ⟨⟨""⟩, 0, .zero⟩
  stateRoot := ⟨⟨⟨""⟩, 0, .zero⟩, .zero, none⟩

end FrostSubstrate
