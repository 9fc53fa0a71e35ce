/-
Values the source takes from the language and from the primitive crates: byte strings, early
returns, block hashes, machine numbers, `f64` and bounded vectors.

Block numbers are natural numbers together with the width of the chain's number type,
because the code only ever compares them, subtracts them with saturation and converts
them with saturation.  `f64` is an ordered type with the operations and the few laws the
code relies on; the rationals are one, and the statements that ask for exact arithmetic
are made there.
-/
import FrostSubstrate.Lib.Saturating
import Mathlib.Data.Rat.Floor
import Mathlib.Tactic.NormNum

namespace FrostSubstrate

/-- A byte string, `Vec<u8>`. -/
abbrev Bytes := List UInt8

/-! ### Early returns

The code's `?` is the `bind` of `Except`, its `map_err` is `mapError`. -/

section EarlyReturn

variable {ε ε' α β : Type}

@[simp] lemma except_pure (a : α) : (pure a : Except ε α) = .ok a := rfl

@[simp] lemma except_ok_bind (a : α) (f : α → Except ε β) : (Except.ok a >>= f) = f a := rfl

@[simp] lemma except_error_bind (e : ε) (f : α → Except ε β) :
    (Except.error e >>= f) = .error e := rfl

@[simp] lemma mapError_ok (g : ε → ε') (a : α) :
    (Except.ok a : Except ε α).mapError g = .ok a := rfl

@[simp] lemma mapError_error (g : ε → ε') (e : ε) :
    (Except.error e : Except ε α).mapError g = .error (g e) := rfl

lemma forall_error_bind {P : ε → Prop} {x : Except ε α} {f : α → Except ε β}
    (hx : ∀ e, x = .error e → P e) (hf : ∀ a e, f a = .error e → P e) :
    ∀ e, (x >>= f) = .error e → P e := by
  cases x with
  | error e =>
    rintro _ ⟨⟩
    exact hx e rfl
  | ok a => exact hf a

lemma forall_error_mapError {P : ε' → Prop} {g : ε → ε'} {x : Except ε α} (h : ∀ e, P (g e)) :
    ∀ e, x.mapError g = .error e → P e := by
  cases x with
  | error e =>
    rintro _ ⟨⟩
    exact h e
  | ok a => rintro _ ⟨⟩

end EarlyReturn

/-! ### Machine numbers -/

/-- `u32::MAX`. -/
def u32Max : ℕ := 2 ^ 32 - 1

/-- `u64::MAX`. -/
def u64Max : ℕ := 2 ^ 64 - 1

/-- What the code needs to know of the block type `B: BlockT`: how many bytes its block
numbers have.  They are at least 32 bits wide and convert into `u64`. -/
structure BlockT where
  /-- The width of a block number. -/
  numberBytes : ℕ
  four_le : 4 ≤ numberBytes
  le_eight : numberBytes ≤ 8

/-- The block type of the observer and of the proof generators: `Number = u32`. -/
def BlockT.u32 : BlockT := ⟨4, by omega, by omega⟩

/-- `NumberFor::<B>::max_value()`. -/
def BlockT.maxNumber (B : BlockT) : ℕ := 256 ^ B.numberBytes - 1

lemma BlockT.u32Max_le_maxNumber (B : BlockT) : u32Max ≤ B.maxNumber := by
  have h : 256 ^ 4 ≤ 256 ^ B.numberBytes := Nat.pow_le_pow_right (by omega) B.four_le
  have h4 : 256 ^ 4 = 2 ^ 32 := by norm_num
  unfold BlockT.maxNumber u32Max
  omega

/-- `NumberFor::<B>::saturated_from(value)`. -/
def BlockT.saturatedFrom (B : BlockT) (value : ℕ) : ℕ := min value B.maxNumber

lemma BlockT.saturatedFrom_of_le (B : BlockT) {value : ℕ} (h : value ≤ u32Max) :
    B.saturatedFrom value = value :=
  min_eq_left (h.trans B.u32Max_le_maxNumber)

lemma BlockT.saturatedFrom_pos (B : BlockT) {value : ℕ} (h : 0 < value) :
    0 < B.saturatedFrom value := by
  have hmax := B.u32Max_le_maxNumber
  have : 0 < u32Max := by decide
  exact lt_min h (by omega)

@[simp] lemma BlockT.saturatedFrom_zero (B : BlockT) : B.saturatedFrom 0 = 0 :=
  Nat.zero_min _

/-- `value.saturated_into::<u64>()`. -/
def saturatedIntoU64 (value : ℕ) : ℕ := min value u64Max

/-- The `n` low bytes of a number, lowest first: how SCALE writes an integer. -/
def leBytes : ℕ → ℕ → Bytes
  | 0, _ => []
  | n + 1, value => UInt8.ofNat (value % 256) :: leBytes n (value / 256)

@[simp] lemma length_leBytes (n value : ℕ) : (leBytes n value).length = n := by
  induction n generalizing value with
  | zero => rfl
  | succ n ih => rw [leBytes, List.length_cons, ih]

/-! ### Hashes -/

/-- A block hash: 32 bytes, the width being part of the type as in `[u8; 32]`. -/
@[ext]
structure H256 where
  /-- The bytes. -/
  bytes : Bytes
  length_eq : bytes.length = 32
deriving DecidableEq

/-- `H256::repeat_byte(byte)`. -/
def H256.repeatByte (byte : UInt8) : H256 := ⟨List.replicate 32 byte, List.length_replicate⟩

/-- The all-zero hash. -/
def H256.zero : H256 := H256.repeatByte 0

/-- One hexadecimal digit. -/
def hexDigit (n : ℕ) : Char :=
  if n < 10 then Char.ofNat (n + 48) else Char.ofNat (n + 87)

/-- `hex::encode`. -/
def hexEncode (data : Bytes) : String :=
  String.ofList (data.flatMap fun b => [hexDigit (b.toNat / 16), hexDigit (b.toNat % 16)])

/-- `format!("{:?}", hash)`. -/
def H256.debug (hash : H256) : String := "0x" ++ hexEncode hash.bytes

/-- A vector of at most `n` elements, `BoundedVec<T, ConstU32<n>>`. -/
@[ext]
structure BoundedVec (α : Type) (n : ℕ) where
  /-- The elements. -/
  val : List α
  length_le : val.length ≤ n
deriving DecidableEq

/-- `BoundedVec::try_from`. -/
def BoundedVec.tryFrom {α : Type} (n : ℕ) (l : List α) : Option (BoundedVec α n) :=
  if h : l.length ≤ n then some ⟨l, h⟩ else none

/-! ### Floating point -/

/-- The operations on `f64` that the code performs, with the laws of IEEE 754 comparison
and of `f64::min` that it relies on.  A comparison with NaN is false, so neither `<` nor
`≤` is assumed to be total. -/
class F64 (F : Type) extends Add F, Mul F, Div F, Min F, LT F, LE F where
  /-- A literal of the source. -/
  lit : ℚ → F
  /-- `n as f64`. -/
  ofU64 : ℕ → F
  /-- `x as u64`. -/
  toU64 : F → ℕ
  decLt : DecidableLT F
  decLe : DecidableLE F
  not_lt_of_le : ∀ {a b : F}, a ≤ b → ¬ b < a
  lt_of_le_of_lt : ∀ {a b c : F}, a ≤ b → b < c → a < c
  lit_le_lit : ∀ {p q : ℚ}, p ≤ q → lit p ≤ lit q
  min_lit_le : ∀ (a : F) (q : ℚ), min a (lit q) ≤ lit q

instance F64.decidableLT {F : Type} [F64 F] : DecidableLT F := F64.decLt

instance F64.decidableLE {F : Type} [F64 F] : DecidableLE F := F64.decLe

/-- Exact rational arithmetic. -/
instance : F64 ℚ where
  lit := id
  ofU64 n := n
  toU64 q := min ⌊q⌋.toNat u64Max
  decLt := inferInstance
  decLe := inferInstance
  not_lt_of_le := not_lt_of_ge
  lt_of_le_of_lt := lt_of_le_of_lt
  lit_le_lit := id
  min_lit_le _ _ := min_le_right _ _

@[simp] lemma F64.lit_rat (q : ℚ) : (F64.lit q : ℚ) = q := rfl

@[simp] lemma F64.ofU64_rat (n : ℕ) : (F64.ofU64 n : ℚ) = n := rfl

end FrostSubstrate
