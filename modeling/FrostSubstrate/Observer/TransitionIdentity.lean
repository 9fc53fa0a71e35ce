/-
What a state transition identifies.

Of the block a transition keeps the chain id and the number, of the target the two names and the
chain as text.  The hash of the block is converted and dropped, the message hash is not read, and
bytes that are not UTF-8 are replaced.  Two transitions differ exactly when what is kept differs;
names that are UTF-8 are kept as they are (`fromUtf8Lossy_inj`).
-/
import FrostSubstrate.Proof.ObservedTransition

namespace FrostSubstrate

/-! ### Valid UTF-8 is kept -/

/-- The bytes of some text. -/
def IsUtf8 (bytes : Bytes) : Prop := ∃ text : List Char, bytes = text.flatMap String.utf8EncodeChar

variable {fuel b n lo hi high : ℕ} {byte : UInt8} {tail l : Bytes}

/-! The first byte of a character of two, three and four bytes. -/

lemma leadByte_two {x : ℕ} (hlt : x < 32) (hle : 2 ≤ x) :
    leadByte (x + 0xC0) = some (1, 0x80, 0xBF, x) := by
  rw [leadByte, if_pos (by omega), Nat.add_sub_cancel]

lemma leadByte_three : ∀ x < 16, leadByte (x + 0xE0)
    = some (2, if x = 0 then 0xA0 else 0x80, if x = 13 then 0x9F else 0xBF, x) := by
  decide

lemma leadByte_four : ∀ x < 5, leadByte (x + 0xF0)
    = some (3, if x = 0 then 0x90 else 0x80, if x = 4 then 0x8F else 0xBF, x) := by
  decide

lemma toNat_ofNat_of_lt (h : n < 256) : (UInt8.ofNat n).toNat = n := by
  rw [UInt8.toNat_ofNat']
  exact Nat.mod_eq_of_lt h

lemma readTail_ofNat {m codePoint : ℕ} (hb : b < 256) (hlo : lo ≤ b) (hhi : b ≤ hi) :
    readTail (m + 1) lo hi codePoint (UInt8.ofNat b :: l)
      = ((readTail m 0x80 0xBF (codePoint * 64 + (b - 0x80)) l).1,
          (readTail m 0x80 0xBF (codePoint * 64 + (b - 0x80)) l).2 + 1) := by
  rw [readTail, toNat_ofNat_of_lt hb, if_pos ⟨hlo, hhi⟩]

/-- A character of several bytes is read in one step. -/
lemma lossyChars_multi {k codePoint : ℕ} (hb : b < 256) (hmulti : 0x80 ≤ b)
    (hlead : leadByte b = some (k, lo, hi, high))
    (htail : readTail k lo hi high (tail ++ l) = (some codePoint, tail.length)) :
    lossyChars (fuel + 1) (UInt8.ofNat b :: (tail ++ l))
      = Char.ofNat codePoint :: lossyChars fuel l := by
  rw [lossyChars, toNat_ofNat_of_lt hb, if_neg (by omega), hlead]
  simp only [htail, Option.getD_some, List.drop_left]

/-- **One character is read in one step.** -/
lemma lossyChars_utf8EncodeChar (c : Char) :
    lossyChars (fuel + 1) (String.utf8EncodeChar c ++ l) = c :: lossyChars fuel l := by
  have hvalid : c.val.toNat < 0xD800 ∨ 0xDFFF < c.val.toNat ∧ c.val.toNat < 0x110000 := c.valid
  have hc : Char.ofNat c.val.toNat = c := Char.ofNat_toNat c
  unfold String.utf8EncodeChar
  generalize c.val.toNat = n at hvalid hc
  dsimp only
  split_ifs with h1 h2 h3
  · have hbyte : (UInt8.ofNat n).toNat = n := toNat_ofNat_of_lt (by omega)
    rw [List.singleton_append, lossyChars, hbyte, if_pos (by omega), hc]
  · have hmod : n / 64 % 0x20 = n / 64 := by omega
    rw [List.cons_append, hmod, lossyChars_multi (by omega) (by omega)
      (leadByte_two (x := n / 64) (by omega) (by omega)), hc]
    rw [List.singleton_append, readTail_ofNat (by omega) (by omega) (by omega), readTail]
    simp only [Prod.mk.injEq, Option.some.injEq]
    exact ⟨by omega, rfl⟩
  · have hmod : n / 4096 % 0x10 = n / 4096 := by omega
    rw [List.cons_append, hmod, lossyChars_multi (by omega) (by omega)
      (leadByte_three (n / 4096) (by omega)), hc]
    -- the bounds of the second byte rule out overlong forms and surrogates
    rw [List.cons_append, readTail_ofNat (by omega) (by split_ifs <;> omega)
        (by split_ifs <;> omega), List.singleton_append,
      readTail_ofNat (by omega) (by omega) (by omega), readTail]
    simp only [Prod.mk.injEq, Option.some.injEq]
    exact ⟨by omega, rfl⟩
  · have hmod : n / 262144 % 0x08 = n / 262144 := by omega
    rw [List.cons_append, hmod, lossyChars_multi (by omega) (by omega)
      (leadByte_four (n / 262144) (by omega)), hc]
    rw [List.cons_append, readTail_ofNat (by omega) (by split_ifs <;> omega)
        (by split_ifs <;> omega), List.cons_append,
      readTail_ofNat (by omega) (by omega) (by omega), List.singleton_append,
      readTail_ofNat (by omega) (by omega) (by omega), readTail]
    simp only [Prod.mk.injEq, Option.some.injEq]
    exact ⟨by omega, rfl⟩

lemma lossyChars_flatMap (text : List Char) (hfuel : text.length ≤ fuel) :
    lossyChars fuel (text.flatMap String.utf8EncodeChar) = text := by
  induction text generalizing fuel with
  | nil => cases fuel <;> rfl
  | cons c text ih =>
    rw [List.length_cons] at hfuel
    obtain ⟨fuel, rfl⟩ : ∃ m, fuel = m + 1 := ⟨fuel - 1, by omega⟩
    rw [List.flatMap_cons, lossyChars_utf8EncodeChar, ih (by omega)]

/-- **UTF-8 is kept.**  The lossy conversion gives back the text whose bytes it is given. -/
theorem fromUtf8Lossy_flatMap (text : List Char) :
    fromUtf8Lossy (text.flatMap String.utf8EncodeChar) = String.ofList text := by
  have hlength : text.length ≤ (text.flatMap String.utf8EncodeChar).length := by
    have hpositive : ∀ k ∈ text.map fun c => (String.utf8EncodeChar c).length, 1 ≤ k := by
      intro k hk
      obtain ⟨c, -, rfl⟩ := List.mem_map.mp hk
      exact List.length_pos_iff.mpr String.utf8EncodeChar_ne_nil
    have hle := List.length_le_sum_of_one_le _ hpositive
    rwa [List.length_map, ← List.length_flatMap] at hle
  rw [fromUtf8Lossy, lossyChars_flatMap text hlength]

/-- On UTF-8 the lossy conversion loses nothing. -/
theorem fromUtf8Lossy_inj {bytes bytes' : Bytes} (h : IsUtf8 bytes) (h' : IsUtf8 bytes') :
    fromUtf8Lossy bytes = fromUtf8Lossy bytes' ↔ bytes = bytes' := by
  obtain ⟨text, rfl⟩ := h
  obtain ⟨text', rfl⟩ := h'
  rw [fromUtf8Lossy_flatMap, fromUtf8Lossy_flatMap, String.ofList_inj]
  constructor
  · rintro rfl
    rfl
  · intro hbytes
    have hlossy := congrArg fromUtf8Lossy hbytes
    rwa [fromUtf8Lossy_flatMap, fromUtf8Lossy_flatMap, String.ofList_inj] at hlossy

/-! ### What a transition keeps -/

/-- A transition without its timestamp. -/
def StateTransition.timeless (transition : StateTransition) : StateTransition :=
  { transition with metadata := { transition.metadata with timestamp := 0 } }

/-- What `generate_state_transition` keeps of a block and a target. -/
structure SameKept (blockRef blockRef' : BlockRef) (target target' : WatchTarget) : Prop where
  chainId : blockRef.chainId = blockRef'.chainId
  number : blockRef.number = blockRef'.number
  moduleName : fromUtf8Lossy target.moduleName.val = fromUtf8Lossy target'.moduleName.val
  functionName : fromUtf8Lossy target.functionName.val = fromUtf8Lossy target'.functionName.val
  targetChain : fromUtf8Lossy target.targetChain.val = fromUtf8Lossy target'.targetChain.val

variable {defaults : FrostDefaults} {now now' : ℕ} {blockRef blockRef' : BlockRef}
  {target target' : WatchTarget} {transition transition' : SSMPStateTransition}

/-- Two transitions are the same, the time apart, exactly when what they keep is. -/
lemma timeless_eq_iff
    (h : generateStateTransition defaults now blockRef target = .ok transition)
    (h' : generateStateTransition defaults now' blockRef' target' = .ok transition') :
    transition.into.timeless = transition'.into.timeless ↔
      SameKept blockRef blockRef' target target' := by
  obtain rfl := Except.ok.inj h
  obtain rfl := Except.ok.inj h'
  constructor
  · intro heq
    simp only [StateTransition.timeless, SSMPStateTransition.new, StateTransition.mk.injEq,
      TransitionMetadata.mk.injEq, Option.some.injEq, Json.obj.injEq, List.cons.injEq,
      Prod.mk.injEq, Json.str.injEq, true_and, and_true] at heq
    obtain ⟨hchain, hnumber, hmodule, hfunction, htarget⟩ := heq
    exact ⟨hchain, hnumber, hmodule, hfunction, htarget⟩
  · intro hkept
    simp only [StateTransition.timeless, SSMPStateTransition.new, hkept.chainId, hkept.number,
      hkept.moduleName, hkept.functionName, hkept.targetChain]

/-- Pairs of a block and a target that differ get different transitions, whenever they are made. -/
def Identifies (defaults : FrostDefaults) (blockRef blockRef' : BlockRef)
    (target target' : WatchTarget) : Prop :=
  blockRef ≠ blockRef' ∨ target ≠ target' → ∀ now now' transition transition',
    generateStateTransition defaults now blockRef target = .ok transition →
    generateStateTransition defaults now' blockRef' target' = .ok transition' →
    transition.into.timeless ≠ transition'.into.timeless

/-- **When transitions identify what they stand for.**  Different pairs of a block and a target get
different transitions exactly when the chain ids, the numbers or the text of the module name, the
function name or the target chain differ. -/
theorem identifies_iff :
    Identifies defaults blockRef blockRef' target target' ↔
      (blockRef = blockRef' ∧ target = target') ∨
        ¬ SameKept blockRef blockRef' target target' := by
  constructor
  · intro hidentifies
    by_cases hsame : blockRef = blockRef' ∧ target = target'
    · exact Or.inl hsame
    · refine Or.inr ?_
      intro hkept
      exact hidentifies (not_and_or.mp hsame) 0 0 _ _ rfl rfl ((timeless_eq_iff rfl rfl).mpr hkept)
  · rintro (⟨rfl, rfl⟩ | hnot) hdiffer now now' transition transition' h h'
    · rcases hdiffer with hdiffer | hdiffer
      · exact absurd rfl hdiffer
      · exact absurd rfl hdiffer
    · intro heq
      exact hnot ((timeless_eq_iff h h').mp heq)

/-- The names of a target are UTF-8. -/
structure WatchTarget.NamesUtf8 (target : WatchTarget) : Prop where
  moduleName : IsUtf8 target.moduleName.val
  functionName : IsUtf8 target.functionName.val
  targetChain : IsUtf8 target.targetChain.val

/-- With names in UTF-8 only the hash of the block and the message hash get lost. -/
theorem sameKept_iff_of_namesUtf8 (hutf8 : target.NamesUtf8) (hutf8' : target'.NamesUtf8) :
    SameKept blockRef blockRef' target target' ↔
      blockRef.chainId = blockRef'.chainId ∧ blockRef.number = blockRef'.number ∧
        target.moduleName = target'.moduleName ∧ target.functionName = target'.functionName ∧
        target.targetChain = target'.targetChain := by
  rw [BoundedVec.ext_iff, BoundedVec.ext_iff, BoundedVec.ext_iff,
    ← fromUtf8Lossy_inj hutf8.moduleName hutf8'.moduleName,
    ← fromUtf8Lossy_inj hutf8.functionName hutf8'.functionName,
    ← fromUtf8Lossy_inj hutf8.targetChain hutf8'.targetChain]
  constructor
  · intro h
    exact ⟨h.chainId, h.number, h.moduleName, h.functionName, h.targetChain⟩
  · rintro ⟨hchain, hnumber, hmodule, hfunction, htarget⟩
    exact ⟨hchain, hnumber, hmodule, hfunction, htarget⟩

/-! ### Pairs that collide -/

/-- The sample target with another message hash. -/
def hashedTarget : WatchTarget := { sampleTarget with messageHash := some ⟨[1], by decide⟩ }

/-- The sample target with a byte that is no UTF-8 as its target chain. -/
def brokenTarget (byte : UInt8) : WatchTarget :=
  { sampleTarget with targetChain := ⟨[byte], Nat.succ_le_of_lt (by decide)⟩ }

/-- **Different pairs with one transition.**  Two blocks of one height, two targets that differ in
the message hash, and two target chains that are no UTF-8 are not told apart. -/
theorem transitions_collide :
    ¬ Identifies zeroDefaults finalizedRef { finalizedRef with hash := .repeatByte 9 } sampleTarget
        sampleTarget ∧
      ¬ Identifies zeroDefaults finalizedRef finalizedRef sampleTarget hashedTarget ∧
      ¬ Identifies zeroDefaults finalizedRef finalizedRef (brokenTarget 0xFE)
        (brokenTarget 0xFF) := by
  refine ⟨?_, ?_, ?_⟩
  · intro h
    exact h (Or.inl (by decide)) 0 0 _ _ rfl rfl rfl
  · intro h
    exact h (Or.inr (by decide)) 0 0 _ _ rfl rfl rfl
  · intro h
    have hlossy : fromUtf8Lossy [0xFE] = fromUtf8Lossy [0xFF] := by decide
    refine h (Or.inr (by decide)) 0 0 _ _ rfl rfl ((timeless_eq_iff rfl rfl).mpr ?_)
    exact ⟨rfl, rfl, rfl, rfl, hlossy⟩

end FrostSubstrate
