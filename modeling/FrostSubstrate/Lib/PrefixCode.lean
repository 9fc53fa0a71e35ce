/-
Encodings that can be read from the front of a longer input.

A decoder takes a value off the front of its input and leaves the rest.  It is exact for an
encoder when the inputs it accepts are those that begin with the encoding of an admissible
value, and it finds this value and the rest behind it (`Exact`).  That one equivalence is the round
trip and its converse: nothing is lost by encoding, no value has two encodings, and no
encoding begins another one.

Decoders are built of smaller ones.  `Exact.bind_iff` says what a decoder that goes on with the
rest accepts; the other rules are about a change of the type, a tag and a count in front.
-/
import Mathlib.Data.List.Basic
import Mathlib.Data.Option.Basic

namespace PrefixCode

variable {σ α β γ : Type}

/-- Reads a value from the front of the input. -/
abbrev Decoder (σ α : Type) := List σ → Option (α × List σ)

/-- The decoder accepts exactly the inputs that begin with the encoding of a value with `P`. -/
def Exact (P : α → Prop) (encode : α → List σ) (decode : Decoder σ α) : Prop :=
  ∀ input a rest, decode input = some (a, rest) ↔ P a ∧ input = encode a ++ rest

variable {P : α → Prop} {encode : α → List σ} {decode : Decoder σ α} {a : α}
  {rest input : List σ}

namespace Exact

lemma decode_append (h : Exact P encode decode) (ha : P a) (rest : List σ) :
    decode (encode a ++ rest) = some (a, rest) :=
  (h _ _ _).mpr ⟨ha, rfl⟩

lemma decode_encode (h : Exact P encode decode) (ha : P a) :
    decode (encode a) = some (a, []) := by
  have hnil := h.decode_append ha []
  rwa [List.append_nil] at hnil

/-- What a decoder accepts that goes on with the rest of the input. -/
theorem bind_iff (h : Exact P encode decode) {next : α × List σ → Option γ} {c : γ} :
    (decode input).bind next = some c ↔
      ∃ a rest, P a ∧ input = encode a ++ rest ∧ next (a, rest) = some c := by
  rw [Option.bind_eq_some_iff]
  constructor
  · rintro ⟨⟨a, rest⟩, hdecode, hnext⟩
    obtain ⟨ha, hinput⟩ := (h input a rest).mp hdecode
    exact ⟨a, rest, ha, hinput, hnext⟩
  · rintro ⟨a, rest, ha, hinput, hnext⟩
    exact ⟨(a, rest), (h input a rest).mpr ⟨ha, hinput⟩, hnext⟩

/-- Values of another type, taken from the decoded ones. -/
theorem filterMap {Q : β → Prop} {embed : β → α} {part : α → Option β}
    (h : Exact P encode decode)
    (hpart : ∀ a b, P a → (part a = some b ↔ Q b ∧ a = embed b)) (hembed : ∀ b, Q b → P (embed b)) :
    Exact Q (fun b => encode (embed b))
      (fun input => (decode input).bind fun read => (part read.1).map fun b => (b, read.2)) := by
  intro input b rest
  rw [h.bind_iff]
  constructor
  · rintro ⟨a, rest', ha, rfl, hmap⟩
    obtain ⟨b', hb', heq⟩ := Option.map_eq_some_iff.mp hmap
    obtain ⟨rfl, rfl⟩ := Prod.mk.inj heq
    obtain ⟨hQ, rfl⟩ := (hpart a b' ha).mp hb'
    exact ⟨hQ, rfl⟩
  · rintro ⟨hQ, rfl⟩
    refine ⟨embed b, rest, hembed b hQ, rfl, ?_⟩
    rw [(hpart (embed b) b (hembed b hQ)).mpr ⟨hQ, rfl⟩]
    rfl

end Exact

/-- A code whose words all have one length, and are different, can be repeated. -/
theorem flatMap_injective {k : ℕ} (hk : 0 < k) (hwidth : ∀ a, (encode a).length = k)
    (hinj : Function.Injective encode) : Function.Injective fun l : List α => l.flatMap encode := by
  intro l l' h
  simp only at h
  induction l generalizing l' with
  | nil =>
    cases l' with
    | nil => rfl
    | cons b l' =>
      have hlength := congrArg List.length h
      rw [List.flatMap_cons, List.length_append, hwidth, List.flatMap_nil,
        List.length_nil] at hlength
      omega
  | cons a l ih =>
    cases l' with
    | nil =>
      have hlength := congrArg List.length h
      rw [List.flatMap_cons, List.length_append, hwidth, List.flatMap_nil,
        List.length_nil] at hlength
      omega
    | cons b l' =>
      rw [List.flatMap_cons, List.flatMap_cons] at h
      obtain ⟨hword, hrest⟩ := List.append_inj h ((hwidth a).trans (hwidth b).symm)
      rw [hinj hword, ih hrest]

/-! ### Blocks of a known length -/

/-- Takes `n` symbols off the input. -/
def takeBlock (n : ℕ) : Decoder σ (List σ) := fun input =>
  if n ≤ input.length then some (input.take n, input.drop n) else none

lemma exact_takeBlock (n : ℕ) :
    Exact (fun block : List σ => block.length = n) id (takeBlock n) := by
  intro input block rest
  unfold takeBlock
  constructor
  · intro h
    split_ifs at h with hlen
    obtain ⟨rfl, rfl⟩ := Prod.mk.inj (Option.some.inj h)
    have htake : (input.take n).length = n := by
      rw [List.length_take]
      omega
    exact ⟨htake, (List.take_append_drop n input).symm⟩
  · rintro ⟨rfl, rfl⟩
    have hlen : block.length ≤ (id block ++ rest).length := by
      rw [id_eq, List.length_append]
      omega
    rw [if_pos hlen]
    simp

/-! ### A count in front -/

/-- A list with its length in front, of at most `bound` symbols. -/
def readCounted (readCount : Decoder σ ℕ) (bound : ℕ) : Decoder σ (List σ) := fun input =>
  (readCount input).bind fun read =>
    if read.1 > bound then none else takeBlock read.1 read.2

/-- Where the count can be read, so can the list. -/
theorem exact_readCounted {C : ℕ → Prop} {encodeCount : ℕ → List σ} {readCount : Decoder σ ℕ}
    (h : Exact C encodeCount readCount) (bound : ℕ) (hbound : ∀ n ≤ bound, C n) :
    Exact (fun l : List σ => l.length ≤ bound) (fun l => encodeCount l.length ++ l)
      (readCounted readCount bound) := by
  intro input l rest
  unfold readCounted
  rw [h.bind_iff]
  constructor
  · rintro ⟨n, rest', hn, rfl, hblock⟩
    split_ifs at hblock with hgt
    obtain ⟨rfl, rfl⟩ := (exact_takeBlock n rest' l rest).mp hblock
    refine ⟨Nat.le_of_not_lt hgt, ?_⟩
    rw [List.append_assoc]
    rfl
  · rintro ⟨hlen, rfl⟩
    refine ⟨l.length, l ++ rest, hbound _ hlen, List.append_assoc _ _ _, ?_⟩
    have hle : ¬ l.length > bound := by omega
    simp only [if_neg hle]
    exact (exact_takeBlock l.length (l ++ rest) l rest).mpr ⟨rfl, rfl⟩

/-! ### An optional value behind a tag -/

/-- A value behind the tag `one`, or the tag `zero`. -/
def encodeOption (zero one : σ) (encode : α → List σ) : Option α → List σ
  | none => [zero]
  | some a => one :: encode a

/-- Reads the tag and what is behind it. -/
def readOption [DecidableEq σ] (zero one : σ) (decode : Decoder σ α) : Decoder σ (Option α)
  | [] => none
  | tag :: input =>
    if tag = zero then some (none, input)
    else if tag = one then (decode input).map fun read => (some read.1, read.2)
    else none

theorem exact_readOption [DecidableEq σ] {zero one : σ} (hne : one ≠ zero)
    (h : Exact P encode decode) :
    Exact (fun o => ∀ a, o = some a → P a) (encodeOption zero one encode)
      (readOption zero one decode) := by
  intro input o rest
  cases input with
  | nil =>
    cases o with
    | none => simp [readOption, encodeOption]
    | some a => simp [readOption, encodeOption]
  | cons tag input =>
    show (if tag = zero then some (none, input)
      else if tag = one then (decode input).map fun read => (some read.1, read.2)
      else none) = some (o, rest) ↔ _
    by_cases hzero : tag = zero
    · subst hzero
      rw [if_pos rfl]
      cases o with
      | none => simp [encodeOption]
      | some a => simp [encodeOption, hne.symm]
    · rw [if_neg hzero]
      by_cases hone : tag = one
      · subst hone
        rw [if_pos rfl, Option.map_eq_some_iff]
        cases o with
        | none =>
          have htag : ¬ (tag :: input = [zero] ++ rest) := fun heq =>
            hzero (List.cons.inj heq).1
          simp [encodeOption, hzero]
        | some a =>
          constructor
          · rintro ⟨⟨a', rest'⟩, hdecode, heq⟩
            obtain ⟨hsome, rfl⟩ := Prod.mk.inj heq
            obtain rfl := Option.some.inj hsome
            obtain ⟨ha, rfl⟩ := (h _ _ _).mp hdecode
            refine ⟨?_, rfl⟩
            rintro b ⟨⟩
            exact ha
          · rintro ⟨ha, heq⟩
            refine ⟨(a, rest), (h _ _ _).mpr ⟨ha a rfl, (List.cons.inj heq).2⟩, rfl⟩
      · rw [if_neg hone]
        cases o with
        | none => simp [encodeOption, hzero]
        | some a => simp [encodeOption, hone]

end PrefixCode
