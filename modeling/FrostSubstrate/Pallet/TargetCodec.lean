/-
How a watch target is stored.

The storage holds bytes.  A target is written in its SCALE encoding, under a key that is the
prefix of the map, a short hash of the encoded target hash and that encoding itself, and read
back by the derived decoder.  The decoder accepts the encodings of targets and nothing else, a
target never takes more than its declared 166 bytes, and for every history of the pallet the
bytes are an exact image of the map.  The events of the pallet go into the same storage, under the
keys of the system pallet.
-/
import FrostSubstrate.Lib.PrefixCode
import FrostSubstrate.Pallet.Registry

namespace FrostSubstrate

open PrefixCode

/-! ### Integers -/

/-- The number with these bytes, lowest first. -/
def fromLe : Bytes → ℕ
  | [] => 0
  | b :: bs => b.toNat + 256 * fromLe bs

lemma fromLe_leBytes (n : ℕ) {value : ℕ} (h : value < 256 ^ n) :
    fromLe (leBytes n value) = value := by
  induction n generalizing value with
  | zero =>
    have hzero : value = 0 := by simpa using h
    rw [hzero]
    rfl
  | succ n ih =>
    have hdiv : value / 256 < 256 ^ n := by
      rw [pow_succ] at h
      exact Nat.div_lt_of_lt_mul (by omega)
    have hbyte : (UInt8.ofNat (value % 256)).toNat = value % 256 :=
      UInt8.toNat_ofNat_of_lt' (Nat.mod_lt _ (by omega))
    rw [leBytes, fromLe, ih hdiv, hbyte]
    omega

lemma leBytes_fromLe (bs : Bytes) : leBytes bs.length (fromLe bs) = bs := by
  induction bs with
  | nil => rfl
  | cons b bs ih =>
    have hb : b.toNat < 256 := b.toNat_lt
    have hmod : (b.toNat + 256 * fromLe bs) % 256 = b.toNat := by omega
    have hdiv : (b.toNat + 256 * fromLe bs) / 256 = fromLe bs := by omega
    rw [fromLe, List.length_cons, leBytes, hmod, hdiv, ih, UInt8.ofNat_toNat]

lemma fromLe_lt (bs : Bytes) : fromLe bs < 256 ^ bs.length := by
  induction bs with
  | nil => simp [fromLe]
  | cons b bs ih =>
    have hb : b.toNat < 256 := b.toNat_lt
    rw [fromLe, List.length_cons, pow_succ]
    omega

/-- An integer of `n` bytes, `u16::decode` and `u32::decode`. -/
def readLe (n : ℕ) : Decoder UInt8 ℕ := fun input =>
  (takeBlock n input).map fun read => (fromLe read.1, read.2)

lemma exact_readLe (n : ℕ) : Exact (fun value => value < 256 ^ n) (leBytes n) (readLe n) := by
  intro input value rest
  rw [readLe, Option.map_eq_some_iff]
  constructor
  · rintro ⟨⟨block, rest'⟩, hblock, heq⟩
    obtain ⟨rfl, rfl⟩ := Prod.mk.inj heq
    obtain ⟨hlen, rfl⟩ := (exact_takeBlock n input block rest').mp hblock
    have hlt := fromLe_lt block
    have hbytes := leBytes_fromLe block
    rw [hlen] at hlt hbytes
    exact ⟨hlt, by rw [hbytes, id_eq]⟩
  · rintro ⟨hlt, rfl⟩
    refine ⟨(leBytes n value, rest), ?_, by rw [fromLe_leBytes n hlt]⟩
    exact (exact_takeBlock n _ _ _).mpr ⟨length_leBytes n value, rfl⟩

/-! ### Compact integers -/

/-- The encoding of a `Compact<u32>`: the two low bits of the first byte say how many bytes
there are. -/
def compactEncode (value : ℕ) : Bytes :=
  if value < 2 ^ 6 then [UInt8.ofNat (4 * value)]
  else if value < 2 ^ 14 then leBytes 2 (4 * value + 1)
  else if value < 2 ^ 30 then leBytes 4 (4 * value + 2)
  else 3 :: leBytes 4 value

/-- The rest of the number behind the mode, which may not be one that fits in fewer bytes. -/
def readShifted (n low high : ℕ) : Decoder UInt8 ℕ := fun input =>
  (readLe n input).bind fun read =>
    if low ≤ read.1 / 4 ∧ read.1 / 4 < high then some (read.1 / 4, read.2) else none

/-- `Compact::<u32>::decode`. -/
def readCompact : Decoder UInt8 ℕ
  | [] => none
  | first :: input =>
    match first.toNat % 4 with
    | 0 => some (first.toNat / 4, input)
    | 1 => readShifted 2 (2 ^ 6) (2 ^ 14) (first :: input)
    | 2 => readShifted 4 (2 ^ 14) (2 ^ 30) (first :: input)
    | _ =>
      if first.toNat / 4 = 0 then
        (readLe 4 input).bind fun read => if 2 ^ 30 ≤ read.1 then some read else none
      else none

/-- The mode is in the lowest byte of the number. -/
lemma readShifted_iff {n low high mode value : ℕ} (hmode : mode < 4)
    (hhigh : 4 * high ≤ 256 ^ (n + 1)) {first : UInt8} (hfirst : first.toNat % 4 = mode)
    {input rest : Bytes} :
    readShifted (n + 1) low high (first :: input) = some (value, rest) ↔
      (low ≤ value ∧ value < high) ∧
        first :: input = leBytes (n + 1) (4 * value + mode) ++ rest := by
  rw [readShifted, (exact_readLe (n + 1)).bind_iff]
  constructor
  · rintro ⟨number, rest', hnumber, hinput, hcheck⟩
    split_ifs at hcheck with hrange
    obtain ⟨rfl, rfl⟩ := Prod.mk.inj (Option.some.inj hcheck)
    refine ⟨hrange, ?_⟩
    -- the first byte of the number has its residue modulo four
    have hhead : first = UInt8.ofNat (number % 256) := (List.cons.inj hinput).1
    have hbyte : first.toNat = number % 256 := by
      rw [hhead]
      exact UInt8.toNat_ofNat_of_lt' (Nat.mod_lt _ (by omega))
    have hsplit : 4 * (number / 4) + mode = number := by omega
    rw [hsplit, hinput]
  · rintro ⟨hrange, hinput⟩
    have hdiv : (4 * value + mode) / 4 = value := by omega
    refine ⟨4 * value + mode, rest, by omega, hinput, ?_⟩
    simp only [hdiv, if_pos hrange]

lemma toNat_head_leBytes {n value : ℕ} {first : UInt8} {input rest : Bytes}
    (h : first :: input = leBytes (n + 1) value ++ rest) : first.toNat % 4 = value % 4 := by
  have hhead : first = UInt8.ofNat (value % 256) := (List.cons.inj h).1
  have hbyte : first.toNat = value % 256 := by
    rw [hhead]
    exact UInt8.toNat_ofNat_of_lt' (Nat.mod_lt _ (by omega))
  omega

lemma toNat_ofNat_four_mul {value : ℕ} (h : value < 2 ^ 6) :
    (UInt8.ofNat (4 * value)).toNat = 4 * value :=
  UInt8.toNat_ofNat_of_lt' (show 4 * value < 256 by omega)

section Modes

variable {value : ℕ} {first : UInt8} {input rest : Bytes}

lemma mode_of_compactEncode (h : first :: input = compactEncode value ++ rest) :
    first.toNat % 4 =
      if value < 2 ^ 6 then 0 else if value < 2 ^ 14 then 1 else if value < 2 ^ 30 then 2
      else 3 := by
  unfold compactEncode at h
  split_ifs at h ⊢ with h6 h14 h30
  · have hhead : first = UInt8.ofNat (4 * value) := (List.cons.inj h).1
    rw [hhead, toNat_ofNat_four_mul h6]
    omega
  · have := toNat_head_leBytes h
    omega
  · have := toNat_head_leBytes h
    omega
  · have hhead : first = 3 := (List.cons.inj h).1
    rw [hhead]
    rfl

lemma compactEncode_of_ge (h : 2 ^ 30 ≤ value) : compactEncode value = 3 :: leBytes 4 value := by
  rw [compactEncode, if_neg (by omega), if_neg (by omega), if_neg (by omega)]

lemma readCompact_mode_zero (hmode : first.toNat % 4 = 0) :
    readCompact (first :: input) = some (value, rest) ↔
      value < 2 ^ 32 ∧ first :: input = compactEncode value ++ rest := by
  have hfirst : first.toNat < 256 := first.toNat_lt
  simp only [readCompact, hmode, Option.some.injEq, Prod.mk.injEq]
  constructor
  · rintro ⟨rfl, rfl⟩
    have h6 : first.toNat / 4 < 2 ^ 6 := by omega
    have hfour : 4 * (first.toNat / 4) = first.toNat := by omega
    refine ⟨by omega, ?_⟩
    rw [compactEncode, if_pos h6, hfour, UInt8.ofNat_toNat]
    rfl
  · rintro ⟨-, h⟩
    have hm := mode_of_compactEncode h
    have h6 : value < 2 ^ 6 := by
      split_ifs at hm <;> omega
    rw [compactEncode, if_pos h6] at h
    obtain ⟨rfl, rfl⟩ := List.cons.inj h
    rw [toNat_ofNat_four_mul h6]
    exact ⟨by omega, rfl⟩

lemma readCompact_mode_one (hmode : first.toNat % 4 = 1) :
    readCompact (first :: input) = some (value, rest) ↔
      value < 2 ^ 32 ∧ first :: input = compactEncode value ++ rest := by
  simp only [readCompact, hmode, readShifted_iff (show 1 < 4 by omega)
    (show 4 * 2 ^ 14 ≤ 256 ^ (1 + 1) by norm_num) hmode]
  constructor
  · rintro ⟨⟨hlow, hhigh⟩, h⟩
    refine ⟨by omega, ?_⟩
    rw [compactEncode, if_neg (by omega), if_pos hhigh]
    exact h
  · rintro ⟨-, h⟩
    have hm := mode_of_compactEncode h
    have hrange : 2 ^ 6 ≤ value ∧ value < 2 ^ 14 := by
      split_ifs at hm <;> omega
    rw [compactEncode, if_neg (by omega), if_pos hrange.2] at h
    exact ⟨hrange, h⟩

lemma readCompact_mode_two (hmode : first.toNat % 4 = 2) :
    readCompact (first :: input) = some (value, rest) ↔
      value < 2 ^ 32 ∧ first :: input = compactEncode value ++ rest := by
  simp only [readCompact, hmode, readShifted_iff (show 2 < 4 by omega)
    (show 4 * 2 ^ 30 ≤ 256 ^ (3 + 1) by norm_num) hmode]
  constructor
  · rintro ⟨⟨hlow, hhigh⟩, h⟩
    refine ⟨by omega, ?_⟩
    rw [compactEncode, if_neg (by omega), if_neg (by omega), if_pos hhigh]
    exact h
  · rintro ⟨-, h⟩
    have hm := mode_of_compactEncode h
    have hrange : 2 ^ 14 ≤ value ∧ value < 2 ^ 30 := by
      split_ifs at hm <;> omega
    rw [compactEncode, if_neg (by omega), if_neg (by omega), if_pos hrange.2] at h
    exact ⟨hrange, h⟩

/-- In the last mode the other bits of the first byte count the bytes beyond four. -/
lemma readCompact_mode_three (hmode : first.toNat % 4 = 3) :
    readCompact (first :: input) = some (value, rest) ↔
      value < 2 ^ 32 ∧ first :: input = compactEncode value ++ rest := by
  have hlarge : first :: input = compactEncode value ++ rest → 2 ^ 30 ≤ value := by
    intro h
    have hm := mode_of_compactEncode h
    split_ifs at hm <;> omega
  simp only [readCompact, hmode]
  split_ifs with hzero
  · have hthree : first = 3 := UInt8.toNat_inj.mp (show first.toNat = 3 by omega)
    subst hthree
    rw [(exact_readLe 4).bind_iff]
    constructor
    · rintro ⟨number, rest', hnumber, rfl, hcheck⟩
      split_ifs at hcheck with hlow
      obtain ⟨rfl, rfl⟩ := Prod.mk.inj (Option.some.inj hcheck)
      refine ⟨by omega, ?_⟩
      rw [compactEncode_of_ge hlow]
      rfl
    · rintro ⟨hlt, h⟩
      have hlow := hlarge h
      rw [compactEncode_of_ge hlow] at h
      refine ⟨value, rest, by omega, (List.cons.inj h).2, ?_⟩
      simp only [if_pos hlow]
  · constructor
    · intro h
      cases h
    · rintro ⟨-, h⟩
      rw [compactEncode_of_ge (hlarge h)] at h
      have hhead : first = 3 := (List.cons.inj h).1
      rw [hhead] at hzero
      exact absurd rfl hzero

end Modes

/-- **Compact integers.**  Each `u32` is accepted in its shortest form only. -/
theorem exact_readCompact : Exact (fun value => value < 2 ^ 32) compactEncode readCompact := by
  intro input value rest
  cases input with
  | nil =>
    have hnonempty : compactEncode value ≠ [] := by
      unfold compactEncode
      split_ifs <;> simp [leBytes]
    simp [readCompact, hnonempty]
  | cons first input =>
    obtain hmode | hmode | hmode | hmode : first.toNat % 4 = 0 ∨ first.toNat % 4 = 1 ∨
      first.toNat % 4 = 2 ∨ first.toNat % 4 = 3 := by omega
    · exact readCompact_mode_zero hmode
    · exact readCompact_mode_one hmode
    · exact readCompact_mode_two hmode
    · exact readCompact_mode_three hmode

lemma compactLength_eq {n : ℕ} (h : n < 2 ^ 14) : compactLength n = compactEncode n := by
  unfold compactLength compactEncode
  split_ifs <;> first | rfl | omega

/-! ### Bounded vectors and targets -/

/-- The decoder of `BoundedVec<u8, ConstU32<n>>`, which stops at a count above the bound. -/
def BoundedVec.decode (n : ℕ) : Decoder UInt8 (BoundedVec UInt8 n) := fun input =>
  (readCounted readCompact n input).bind fun read =>
    (BoundedVec.tryFrom n read.1).map fun v => (v, read.2)

lemma BoundedVec.exact_decode {n : ℕ} (hn : n < 2 ^ 14) :
    Exact (fun _ => True) (BoundedVec.encode (n := n)) (BoundedVec.decode n) := by
  have hcount := exact_readCounted exact_readCompact n (fun m hm => by omega)
  have hpart : ∀ (l : Bytes) (v : BoundedVec UInt8 n), l.length ≤ n →
      (BoundedVec.tryFrom n l = some v ↔ True ∧ l = v.val) := by
    intro l v hl
    rw [BoundedVec.tryFrom, dif_pos hl, Option.some.injEq, BoundedVec.ext_iff, true_and]
  have hvec := hcount.filterMap hpart (fun v _ => v.length_le)
  intro input v rest
  have hlen : v.val.length < 2 ^ 14 := v.length_le.trans_lt hn
  rw [BoundedVec.encode, compactLength_eq hlen]
  exact hvec input v rest

/-- The derived decoder: the fields in their order. -/
def WatchTarget.decode : Decoder UInt8 WatchTarget := fun input => do
  let (moduleName, input) ← BoundedVec.decode 32 input
  let (functionName, input) ← BoundedVec.decode 32 input
  let (messageHash, input) ← readOption 0 1 (BoundedVec.decode 64) input
  let (targetChain, input) ← BoundedVec.decode 32 input
  some (⟨moduleName, functionName, messageHash, targetChain⟩, input)

/-- `BoundedVec::<u8, ConstU32<n>>::max_encoded_len()`. -/
def BoundedVec.maxEncodedLen (n : ℕ) : ℕ := (compactEncode n).length + n

/-- `WatchTarget::max_encoded_len()`, derived from the fields. -/
def WatchTarget.maxEncodedLen : ℕ :=
  BoundedVec.maxEncodedLen 32 + BoundedVec.maxEncodedLen 32 + (1 + BoundedVec.maxEncodedLen 64)
    + BoundedVec.maxEncodedLen 32

lemma WatchTarget.encode_eq (target : WatchTarget) :
    target.encode = target.moduleName.encode ++ target.functionName.encode ++
      encodeOption 0 1 (BoundedVec.encode (n := 64)) target.messageHash ++
      target.targetChain.encode := by
  obtain ⟨moduleName, functionName, messageHash, targetChain⟩ := target
  cases messageHash <;> rfl

lemma WatchTarget.exact_decode :
    Exact (fun _ => True) WatchTarget.encode WatchTarget.decode := by
  have h32 : Exact _ _ (BoundedVec.decode 32) := BoundedVec.exact_decode (by omega)
  have h64 : Exact _ _ (BoundedVec.decode 64) := BoundedVec.exact_decode (by omega)
  have hopt := exact_readOption (show (1 : UInt8) ≠ 0 by decide) h64
  intro input target rest
  constructor
  · intro h
    obtain ⟨moduleName, r₁, -, rfl, h₁⟩ := h32.bind_iff.mp h
    obtain ⟨functionName, r₂, -, rfl, h₂⟩ := h32.bind_iff.mp h₁
    obtain ⟨messageHash, r₃, -, rfl, h₃⟩ := hopt.bind_iff.mp h₂
    obtain ⟨targetChain, r₄, -, rfl, h₄⟩ := h32.bind_iff.mp h₃
    obtain ⟨rfl, rfl⟩ := Prod.mk.inj (Option.some.inj h₄)
    refine ⟨trivial, ?_⟩
    rw [WatchTarget.encode_eq]
    simp only [List.append_assoc]
  · rintro ⟨-, rfl⟩
    rw [WatchTarget.encode_eq]
    simp only [List.append_assoc]
    refine h32.bind_iff.mpr ⟨target.moduleName, _, trivial, rfl, ?_⟩
    refine h32.bind_iff.mpr ⟨target.functionName, _, trivial, rfl, ?_⟩
    refine hopt.bind_iff.mpr ⟨target.messageHash, _, fun _ _ => trivial, rfl, ?_⟩
    exact h32.bind_iff.mpr ⟨target.targetChain, rest, trivial, rfl, rfl⟩

/-! ### The length of a stored target -/

lemma compactEncode_length_mono {m n : ℕ} (h : m ≤ n) :
    (compactEncode m).length ≤ (compactEncode n).length := by
  unfold compactEncode
  split_ifs <;> simp <;> omega

lemma BoundedVec.length_encode_le {n : ℕ} (hn : n < 2 ^ 14) (v : BoundedVec UInt8 n) :
    v.encode.length ≤ BoundedVec.maxEncodedLen n := by
  have hlen := v.length_le
  have hcompact := compactEncode_length_mono hlen
  rw [BoundedVec.encode, compactLength_eq (hlen.trans_lt hn), List.length_append,
    BoundedVec.maxEncodedLen]
  omega

lemma WatchTarget.length_encode_le (target : WatchTarget) :
    target.encode.length ≤ WatchTarget.maxEncodedLen := by
  have hmodule := BoundedVec.length_encode_le (show 32 < 2 ^ 14 by omega) target.moduleName
  have hfunction := BoundedVec.length_encode_le (show 32 < 2 ^ 14 by omega) target.functionName
  have hchain := BoundedVec.length_encode_le (show 32 < 2 ^ 14 by omega) target.targetChain
  have hhash : (encodeOption 0 1 (BoundedVec.encode (n := 64)) target.messageHash).length
      ≤ 1 + BoundedVec.maxEncodedLen 64 := by
    cases target.messageHash with
    | none =>
      rw [encodeOption, List.length_singleton]
      omega
    | some hash =>
      have hhash := BoundedVec.length_encode_le (show 64 < 2 ^ 14 by omega) hash
      rw [encodeOption, List.length_cons]
      omega
  rw [WatchTarget.encode_eq]
  simp only [List.length_append]
  unfold WatchTarget.maxEncodedLen
  omega

/-- The longest target there is. -/
def longestTarget : WatchTarget where
  moduleName := ⟨List.replicate 32 0, by decide⟩
  functionName := ⟨List.replicate 32 0, by decide⟩
  messageHash := some ⟨List.replicate 64 0, by decide⟩
  targetChain := ⟨List.replicate 32 0, by decide⟩

lemma longestTarget_length : longestTarget.encode.length = WatchTarget.maxEncodedLen := by
  simp [longestTarget, WatchTarget.encode, BoundedVec.encode, compactLength,
    WatchTarget.maxEncodedLen, BoundedVec.maxEncodedLen, compactEncode]

/-- **The format of a watch target.**  The decoder accepts exactly the inputs that begin with
the encoding of a target, finds this target and leaves what is behind it; no target takes more
than its declared length, which is 166 bytes and is reached. -/
theorem watchTarget_codec :
    (∀ input target rest, WatchTarget.decode input = some (target, rest) ↔
      input = target.encode ++ rest) ∧
    (∀ target : WatchTarget, target.encode.length ≤ WatchTarget.maxEncodedLen) ∧
    longestTarget.encode.length = WatchTarget.maxEncodedLen ∧
    WatchTarget.maxEncodedLen = 166 := by
  refine ⟨?_, WatchTarget.length_encode_le, longestTarget_length, rfl⟩
  intro input target rest
  have hexact := WatchTarget.exact_decode input target rest
  rwa [true_and] at hexact

/-! ### The map in the storage -/

/-- The keys and values of the storage. -/
abbrev RawStorage := Bytes → Option Bytes

/-- Where the map `WatchTargets` lies in the storage, with the hasher `Blake2_128Concat`. -/
structure MapLayout (Hash : Type) where
  /-- `twox_128` of the name of the pallet and of the name of the map. -/
  storagePrefix : Bytes
  /-- Its results may collide. -/
  blake2_128 : Bytes → Bytes
  length_blake2_128 : ∀ data, (blake2_128 data).length = 16
  encodeHash : Hash → Bytes
  encodeHash_injective : Function.Injective encodeHash

namespace MapLayout

variable {Hash : Type} (L : MapLayout Hash)

/-- The key of a value: behind the short hash stands what was hashed. -/
def mapKey (hash : Hash) : Bytes :=
  L.storagePrefix ++ (L.blake2_128 (L.encodeHash hash) ++ L.encodeHash hash)

lemma mapKey_injective : Function.Injective L.mapKey := by
  intro hash hash' h
  have hbehind := List.append_cancel_left h
  have hlen : (L.blake2_128 (L.encodeHash hash)).length
      = (L.blake2_128 (L.encodeHash hash')).length := by
    rw [L.length_blake2_128, L.length_blake2_128]
  exact L.encodeHash_injective (List.append_inj hbehind hlen).2

/-- `WatchTargets::<T>::insert`. -/
def insert (storage : RawStorage) (hash : Hash) (target : WatchTarget) : RawStorage :=
  Function.update storage (L.mapKey hash) (some target.encode)

/-- `WatchTargets::<T>::get`: a value that cannot be decoded reads as none, and what stands
behind the target is not looked at. -/
def get (storage : RawStorage) (hash : Hash) : Option WatchTarget :=
  (storage (L.mapKey hash)).bind fun value => (WatchTarget.decode value).map Prod.fst

lemma get_insert [DecidableEq Hash] (storage : RawStorage) (hash : Hash) (target : WatchTarget) :
    L.get (L.insert storage hash target)
      = Function.update (L.get storage) hash (some target) := by
  ext1 hash'
  by_cases h : hash' = hash
  · subst h
    rw [Function.update_self, get, insert, Function.update_self, Option.bind_some,
      WatchTarget.exact_decode.decode_encode trivial]
    rfl
  · have hkey : L.mapKey hash' ≠ L.mapKey hash := L.mapKey_injective.ne h
    rw [Function.update_of_ne h, get, insert, Function.update_of_ne hkey]
    rfl

end MapLayout

/-- The event log that the system pallet keeps in the storage: `deposit_event` writes there, and
nowhere else. -/
structure EventLog (Hash : Type) where
  /-- The keys of `System::Events`, `System::EventCount` and the topics. -/
  keys : Set Bytes
  depositEvent : PalletEvent Hash → RawStorage → RawStorage
  depositEvent_of_notMem : ∀ event storage key, key ∉ keys →
    depositEvent event storage key = storage key

/-! ### The pallet over the storage -/

/-- The pallet as the chain keeps it: the map is in the storage, among everything else. -/
structure RawPallet (Hash : Type) where
  storage : RawStorage
  /-- The events deposited so far, in their order; the log in the storage is made from them. -/
  events : List (PalletEvent Hash)
  observer : Option (List WatchTarget)

variable {Hash : Type} (L : MapLayout Hash) (E : EventLog Hash) (frostHash : Bytes → Hash)

/-- What the pallet can read. -/
def RawPallet.read (s : RawPallet Hash) : PalletState Hash :=
  ⟨L.get s.storage, s.events, s.observer⟩

/-- `Pallet::register_watch_target`, with the map and the event log in the storage. -/
def registerWatchTargetRaw (origin : Origin) (target : WatchTarget) (s : RawPallet Hash) :
    Except DispatchError Unit × RawPallet Hash :=
  match origin with
  | .signed =>
    if ¬ target.moduleName.val.isEmpty ∧ ¬ target.functionName.val.isEmpty then
      let targetHash := frostHash target.encode
      let event := .watchTargetRegistered targetHash
      (.ok (), {
        storage := E.depositEvent event (L.insert s.storage targetHash target)
        observer := s.observer.map fun watchTargets => watchTargets ++ [target]
        events := s.events ++ [event] })
    else (.error .invalidWatchTarget, s)
  | _ => (.error .badOrigin, s)

/-- One event of the history. -/
def RawPallet.step (s : RawPallet Hash) : RegistryEvent → RawPallet Hash
  | .dispatch origin target => (registerWatchTargetRaw L E frostHash origin target s).2
  | .restart => { s with observer := some [] }

/-- The pallet after these events, over a storage in which other pallets have their items. -/
def rawState (base : RawStorage) (events : List RegistryEvent) : RawPallet Hash :=
  events.foldl (RawPallet.step L E frostHash) ⟨base, [], some []⟩

variable {L E frostHash}

lemma MapLayout.get_depositEvent (hlog : ∀ hash, L.mapKey hash ∉ E.keys)
    (event : PalletEvent Hash) (storage : RawStorage) :
    L.get (E.depositEvent event storage) = L.get storage := by
  ext1 hash
  rw [MapLayout.get, E.depositEvent_of_notMem _ _ _ (hlog hash)]
  rfl

/-- Over the storage a dispatch gives the same result, and the pallet reads the same. -/
lemma registerWatchTargetRaw_read [DecidableEq Hash] (hlog : ∀ hash, L.mapKey hash ∉ E.keys)
    (origin : Origin) (target : WatchTarget) (s : RawPallet Hash) :
    (registerWatchTargetRaw L E frostHash origin target s).1
        = (registerWatchTarget frostHash origin target (s.read L)).1 ∧
      (registerWatchTargetRaw L E frostHash origin target s).2.read L
        = (registerWatchTarget frostHash origin target (s.read L)).2 := by
  cases origin with
  | signed =>
    simp only [registerWatchTargetRaw, registerWatchTarget]
    split_ifs
    · refine ⟨rfl, ?_⟩
      simp only [RawPallet.read, MapLayout.get_depositEvent hlog, L.get_insert]
    · exact ⟨rfl, rfl⟩
  | root => exact ⟨rfl, rfl⟩
  | none => exact ⟨rfl, rfl⟩

/-- Outside the event log an event of the history writes at most one value, the encoding of a
target under a key of the map. -/
lemma RawPallet.step_storage (s : RawPallet Hash) (event : RegistryEvent) :
    (s.step L E frostHash event).storage = s.storage ∨
      ∃ hash target, ∀ key, key ∉ E.keys →
        (s.step L E frostHash event).storage key = L.insert s.storage hash target key := by
  cases event with
  | restart => exact Or.inl rfl
  | dispatch origin target =>
    cases origin with
    | signed =>
      simp only [RawPallet.step, registerWatchTargetRaw]
      split_ifs
      · exact Or.inr ⟨frostHash target.encode, target, E.depositEvent_of_notMem _ _⟩
      · exact Or.inl rfl
    | root => exact Or.inl rfl
    | none => exact Or.inl rfl

lemma rawState_append_singleton (base : RawStorage) (events : List RegistryEvent)
    (event : RegistryEvent) :
    rawState L E frostHash base (events ++ [event])
      = (rawState L E frostHash base events).step L E frostHash event := by
  simp only [rawState, List.foldl_append, List.foldl_cons, List.foldl_nil]

lemma rawState_read [DecidableEq Hash] {base : RawStorage}
    (hbase : ∀ hash, base (L.mapKey hash) = none) (hlog : ∀ hash, L.mapKey hash ∉ E.keys)
    (events : List RegistryEvent) :
    (rawState L E frostHash base events).read L = registryState frostHash events := by
  induction events using List.reverseRecOn with
  | nil =>
    have hempty : L.get base = fun _ => none := by
      ext1 hash
      rw [MapLayout.get, hbase hash]
      rfl
    simp only [rawState, registryState, List.foldl_nil, RawPallet.read, hempty]
  | append_singleton events event ih =>
    rw [rawState_append_singleton, registryState_append_singleton, ← ih]
    cases event with
    | restart => rfl
    | dispatch origin target => exact (registerWatchTargetRaw_read hlog origin target _).2

lemma rawState_storage (L : MapLayout Hash) (E : EventLog Hash) (frostHash : Bytes → Hash)
    (base : RawStorage) (events : List RegistryEvent) {key : Bytes} (hkey : key ∉ E.keys) :
    (rawState L E frostHash base events).storage key = base key ∨
      ∃ hash target, key = L.mapKey hash ∧
        (rawState L E frostHash base events).storage key = some (WatchTarget.encode target) := by
  induction events using List.reverseRecOn with
  | nil => exact Or.inl rfl
  | append_singleton events event ih =>
    rw [rawState_append_singleton]
    rcases RawPallet.step_storage (rawState L E frostHash base events) event with
      hsame | ⟨hash, target, hinsert⟩
    · rw [hsame]
      exact ih
    · rw [hinsert key hkey, MapLayout.insert]
      by_cases hmap : key = L.mapKey hash
      · subst hmap
        exact Or.inr ⟨hash, target, rfl, Function.update_self _ _ _⟩
      · rw [Function.update_of_ne hmap]
        exact ih

/-- **The storage is an exact image of the map.**  Over a storage without keys of the map, beside
an event log that lies outside it, and whatever the short hashes collide on, the pallet reads after
every history what it reads with a map; every value of the map is the encoding of a target of at
most the declared length; and nothing outside the map and the event log is touched. -/
theorem storage_refines_registry [DecidableEq Hash] {base : RawStorage}
    (hbase : ∀ hash, base (L.mapKey hash) = none) (hlog : ∀ hash, L.mapKey hash ∉ E.keys)
    (events : List RegistryEvent) :
    (rawState L E frostHash base events).read L = registryState frostHash events ∧
      (∀ hash value, (rawState L E frostHash base events).storage (L.mapKey hash) = some value →
        ∃ target : WatchTarget, value = target.encode ∧
          value.length ≤ WatchTarget.maxEncodedLen) ∧
      ∀ key, (∀ hash, key ≠ L.mapKey hash) → key ∉ E.keys →
        (rawState L E frostHash base events).storage key = base key := by
  refine ⟨rawState_read hbase hlog events, ?_, ?_⟩
  · intro hash value hvalue
    rcases rawState_storage L E frostHash base events (hlog hash) with
      hsame | ⟨hash', target, -, htarget⟩
    · rw [hsame, hbase hash] at hvalue
      cases hvalue
    · rw [htarget] at hvalue
      obtain rfl := Option.some.inj hvalue
      exact ⟨target, rfl, WatchTarget.length_encode_le target⟩
  · intro key hmap hkey
    rcases rawState_storage L E frostHash base events hkey with
      hsame | ⟨hash, target, heq, -⟩
    · exact hsame
    · exact absurd heq (hmap hash)

/-- A layout in which all short hashes collide. -/
def collidingLayout : MapLayout Bytes where
  storagePrefix := List.replicate 32 7
  blake2_128 := fun _ => List.replicate 16 0
  length_blake2_128 := fun _ => List.length_replicate
  encodeHash := id
  encodeHash_injective := Function.injective_id

/-- The key of `System::Events` in the sample. -/
def sampleEventsKey : Bytes := List.replicate 32 8

/-- A log under one key, where the hash of the target is added at the end. -/
def sampleEventLog : EventLog Bytes where
  keys := {sampleEventsKey}
  depositEvent event storage :=
    match event with
    | .watchTargetRegistered targetHash =>
      Function.update storage sampleEventsKey
        (some ((storage sampleEventsKey).getD [] ++ targetHash))
  depositEvent_of_notMem _ _ _ hkey := Function.update_of_ne hkey _ _

lemma mapKey_notMem_sampleEventLog (hash : Bytes) :
    collidingLayout.mapKey hash ∉ sampleEventLog.keys := by
  intro h
  have hhead := congrArg List.head? (Set.mem_singleton_iff.mp h)
  simp [MapLayout.mapKey, collidingLayout, sampleEventsKey] at hhead

/-- Two targets and a restart in between. -/
def sampleRegistrations : List RegistryEvent :=
  [.dispatch .signed sampleTarget, .restart, .dispatch .signed emptyHashTarget]

/-- The pallet after these, over an empty storage. -/
def sampleRawState : RawPallet Bytes :=
  rawState collidingLayout sampleEventLog id (fun _ => none) sampleRegistrations

/-- The statement for this pallet, whose log has got both hashes. -/
theorem storage_refines_registry_pair :
    sampleRawState.storage sampleEventsKey
        = some (sampleTarget.encode ++ emptyHashTarget.encode) ∧
      sampleRawState.read collidingLayout = registryState id sampleRegistrations ∧
      (∀ hash value, sampleRawState.storage (collidingLayout.mapKey hash) = some value →
        ∃ target : WatchTarget, value = target.encode ∧
          value.length ≤ WatchTarget.maxEncodedLen) ∧
      ∀ key, (∀ hash, key ≠ collidingLayout.mapKey hash) → key ∉ sampleEventLog.keys →
        sampleRawState.storage key = none := by
  refine ⟨?_, storage_refines_registry (fun _ => rfl) mapKey_notMem_sampleEventLog
    sampleRegistrations⟩
  decide

end FrostSubstrate
