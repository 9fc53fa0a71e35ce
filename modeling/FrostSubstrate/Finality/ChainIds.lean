/-
Chain ids.

`get_chain_id` joins the configured id with the kind of the network and, for a test network, with
its name.  All of these are strings without restrictions, so an id can itself end in what is added
for another kind, or contain the separator; `getChainId_eq_iff` lists the pairs of configurations
that are then given one chain id, and every block reference of `get_chain_head` carries it.
-/
import FrostSubstrate.Finality.Authorities
import FrostSubstrate.Lib.Separated

namespace FrostSubstrate

open Separated (Overlap ReadLater)

/-! ### The readers of the chain id -/

section Readers

variable {Id F : Type}

/-- `SubstrateVerificationClient::get_chain_id`, a second copy of the function of the
configuration. -/
def SubstrateVerificationClient.getChainId (self : SubstrateVerificationClient Id F) : String :=
  match self.chainConfig.networkType with
  | .mainnet => self.chainConfig.chainId
  | .testnet name => self.chainConfig.chainId ++ "-testnet-" ++ name
  | .development => self.chainConfig.chainId ++ "-dev"

/-- `SubstrateVerificationClient::get_chain_head`.  The conversion of the hash to 32 bytes cannot
fail on an `H256`. -/
def SubstrateVerificationClient.getChainHead (self : SubstrateVerificationClient Id F)
    (client : Client) : Except FinalityVerificationError BlockRef :=
  .ok {
    hash := client.info.bestHash
    number := saturatedIntoU64 client.info.bestNumber
    chainId := ⟨self.chainConfig.getChainId⟩ }

lemma SubstrateVerificationClient.getChainId_eq (self : SubstrateVerificationClient Id F) :
    self.getChainId = self.chainConfig.getChainId := rfl

end Readers

/-! ### Ambiguous configurations -/

/-- The test network `name` of the id `chainId` can be taken for the test network `other` of a
longer id `longer`: that one ends in the separator or overlaps it, and the name supplies the
rest. -/
def MistakenTestnet (chainId name longer other : String) : Prop :=
  longer = chainId ++ "-testnet" ∧ name = "testnet-" ++ other ∨
    ∃ middle, longer = chainId ++ "-testnet-" ++ middle ∧ name = middle ++ "-testnet-" ++ other

/-- The first configuration can be taken for the second one, a different one. -/
def MistakenFor (c c' : ChainConfig) : Prop :=
  match c.networkType, c'.networkType with
  | .mainnet, .development => c.chainId = c'.chainId ++ "-dev"
  | .mainnet, .testnet name => c.chainId = c'.chainId ++ "-testnet-" ++ name
  | .development, .testnet name =>
    name = "dev" ∧ c.chainId = c'.chainId ++ "-testnet" ∨
      ∃ middle, name = middle ++ "-dev" ∧ c.chainId = c'.chainId ++ "-testnet-" ++ middle
  | .testnet name, .testnet name' => MistakenTestnet c.chainId name c'.chainId name'
  | _, _ => False

/-- The two configurations can be taken for each other. -/
def Ambiguous (c c' : ChainConfig) : Prop := MistakenFor c c' ∨ MistakenFor c' c

/-- The configurations differ in chain id or network type. -/
def ChainConfig.DiffersFrom (c c' : ChainConfig) : Prop :=
  c.chainId ≠ c'.chainId ∨ c.networkType ≠ c'.networkType

/-- What has these configurations is told apart by its chain id: the configurations, the
verification clients, and the heads they report. -/
structure ToldApart (Id F : Type) (c c' : ChainConfig) : Prop where
  configs : c.getChainId ≠ c'.getChainId
  clients : ∀ self self' : SubstrateVerificationClient Id F, self.chainConfig = c →
    self'.chainConfig = c' → self.getChainId ≠ self'.getChainId
  heads : ∀ self self' : SubstrateVerificationClient Id F, self.chainConfig = c →
    self'.chainConfig = c' → ∀ client client' head head', self.getChainHead client = .ok head →
      self'.getChainHead client' = .ok head' → head.chainId ≠ head'.chainId

/-! ### Strings as lists of characters -/

section Strings

variable {a b m n : String}

/-- The characters of `-testnet-`. -/
def testnetSeparator : List Char := ['-', 't', 'e', 's', 't', 'n', 'e', 't', '-']

/-- The characters of `-dev`. -/
def devEnding : List Char := ['-', 'd', 'e', 'v']

lemma exists_string_iff {P : List Char → Prop} : (∃ s : String, P s.toList) ↔ ∃ l, P l := by
  constructor
  · rintro ⟨s, hs⟩
    exact ⟨s.toList, hs⟩
  · rintro ⟨l, hl⟩
    exact ⟨String.ofList l, by rwa [String.toList_ofList]⟩

/-- The separator overlaps itself in one character. -/
lemma overlap_testnetSeparator : ∀ k < 9, 0 < k →
    (Overlap testnetSeparator testnetSeparator k ↔ k = 1) := by
  decide

lemma overlap_devEnding : ∀ k < 5, 0 < k →
    (Overlap testnetSeparator devEnding k ↔ k = 1) := by
  decide

lemma dev_eq_testnet_iff :
    a ++ "-dev" = b ++ "-testnet-" ++ n ↔
      n = "dev" ∧ a = b ++ "-testnet" ∨
        ∃ m, n = m ++ "-dev" ∧ a = b ++ "-testnet-" ++ m := by
  have hshort : devEnding.length < testnetSeparator.length := by decide
  have hlists : a.toList ++ devEnding = b.toList ++ (testnetSeparator ++ n.toList) ↔ _ :=
    Separated.append_eq_join_iff hshort
  have hmiddle : (∃ m : String, n = m ++ "-dev" ∧ a = b ++ "-testnet-" ++ m) ↔
      ∃ l, n.toList = l ++ devEnding ∧ a.toList = b.toList ++ (testnetSeparator ++ l) := by
    rw [← exists_string_iff]
    simp only [← String.toList_inj, String.toList_append, List.append_assoc]
    exact Iff.rfl
  have hoverlap : (∃ k, 0 < k ∧ Overlap testnetSeparator devEnding k ∧
      n.toList = devEnding.drop k ∧
      a.toList = b.toList ++ testnetSeparator.take (testnetSeparator.length - k)) ↔
      n = "dev" ∧ a = b ++ "-testnet" := by
    simp only [← String.toList_inj, String.toList_append]
    constructor
    · rintro ⟨k, hpos, hk, hn, ha⟩
      obtain rfl := (overlap_devEnding k (Nat.lt_succ_of_le hk.2.1) hpos).mp hk
      exact ⟨hn, ha⟩
    · rintro ⟨hn, ha⟩
      exact ⟨1, Nat.one_pos, by decide, hn, ha⟩
  have hstrings : a ++ "-dev" = b ++ "-testnet-" ++ n ↔
      a.toList ++ devEnding = b.toList ++ (testnetSeparator ++ n.toList) := by
    simp only [← String.toList_inj, String.toList_append, List.append_assoc]
    exact Iff.rfl
  rw [hstrings, hlists, hmiddle, ← hoverlap, or_comm]

lemma mistakenTestnet_iff :
    MistakenTestnet a n b m ↔
      ReadLater testnetSeparator a.toList n.toList b.toList m.toList := by
  have hmiddle : (∃ s : String, b = a ++ "-testnet-" ++ s ∧ n = s ++ "-testnet-" ++ m) ↔
      ∃ l, b.toList = a.toList ++ (testnetSeparator ++ l) ∧
        n.toList = l ++ (testnetSeparator ++ m.toList) := by
    rw [← exists_string_iff]
    simp only [← String.toList_inj, String.toList_append, List.append_assoc]
    exact Iff.rfl
  have hoverlap : (∃ k, 0 < k ∧ k < testnetSeparator.length ∧
      Overlap testnetSeparator testnetSeparator k ∧
      b.toList = a.toList ++ testnetSeparator.take (testnetSeparator.length - k) ∧
      n.toList = testnetSeparator.drop k ++ m.toList) ↔
      b = a ++ "-testnet" ∧ n = "testnet-" ++ m := by
    simp only [← String.toList_inj, String.toList_append]
    constructor
    · rintro ⟨k, hpos, hlt, hk, hb, hn⟩
      obtain rfl := (overlap_testnetSeparator k hlt hpos).mp hk
      exact ⟨hb, hn⟩
    · rintro ⟨hb, hn⟩
      exact ⟨1, Nat.one_pos, by decide, by decide, hb, hn⟩
  rw [MistakenTestnet, ReadLater, hmiddle, ← hoverlap, or_comm]

lemma testnet_eq_testnet_iff :
    a ++ "-testnet-" ++ n = b ++ "-testnet-" ++ m ↔
      a = b ∧ n = m ∨ MistakenTestnet a n b m ∨ MistakenTestnet b m a n := by
  have hstrings : a ++ "-testnet-" ++ n = b ++ "-testnet-" ++ m ↔
      a.toList ++ (testnetSeparator ++ n.toList) = b.toList ++ (testnetSeparator ++ m.toList) := by
    simp only [← String.toList_inj, String.toList_append, List.append_assoc]
    exact Iff.rfl
  have hpair : a = b ∧ n = m ↔ a.toList = b.toList ∧ n.toList = m.toList := by
    rw [String.toList_inj, String.toList_inj]
  rw [hstrings, Separated.join_eq_join_iff, hpair, mistakenTestnet_iff, mistakenTestnet_iff]

lemma append_ne_self (h : a.toList ≠ []) : b ++ a ≠ b := by
  intro heq
  rw [← String.toList_inj, String.toList_append] at heq
  exact h (List.append_right_eq_self.mp heq)

end Strings

/-! ### The chain ids of two configurations -/

/-- Two configurations have one chain id exactly when they agree in what it is made of or can be
taken for each other. -/
theorem getChainId_eq_iff (c c' : ChainConfig) :
    c.getChainId = c'.getChainId ↔
      c.chainId = c'.chainId ∧ c.networkType = c'.networkType ∨ Ambiguous c c' := by
  obtain ⟨id, network, set⟩ := c
  obtain ⟨id', network', set'⟩ := c'
  cases network with
  | mainnet =>
    cases network' with
    | mainnet => simp [ChainConfig.getChainId, Ambiguous, MistakenFor]
    | testnet name' => simp [ChainConfig.getChainId, Ambiguous, MistakenFor]
    | development => simp [ChainConfig.getChainId, Ambiguous, MistakenFor]
  | testnet name =>
    cases network' with
    | mainnet => simp [ChainConfig.getChainId, Ambiguous, MistakenFor, eq_comm]
    | testnet name' =>
      have hread : id ++ "-testnet-" ++ name = id' ++ "-testnet-" ++ name' ↔ _ :=
        testnet_eq_testnet_iff
      simpa [ChainConfig.getChainId, Ambiguous, MistakenFor] using hread
    | development =>
      have hread : id' ++ "-dev" = id ++ "-testnet-" ++ name ↔ _ := dev_eq_testnet_iff
      rw [eq_comm] at hread
      simpa [ChainConfig.getChainId, Ambiguous, MistakenFor] using hread
  | development =>
    cases network' with
    | mainnet => simp [ChainConfig.getChainId, Ambiguous, MistakenFor, eq_comm]
    | testnet name' =>
      have hread : id ++ "-dev" = id' ++ "-testnet-" ++ name' ↔ _ := dev_eq_testnet_iff
      simpa [ChainConfig.getChainId, Ambiguous, MistakenFor] using hread
    | development => simp [ChainConfig.getChainId, Ambiguous, MistakenFor]

lemma MistakenTestnet.ne {a n b m : String} (h : MistakenTestnet a n b m) : a ≠ b := by
  rcases h with ⟨rfl, -⟩ | ⟨middle, rfl, -⟩
  · exact (append_ne_self (by decide)).symm
  · rw [String.append_assoc]
    refine (append_ne_self ?_).symm
    rw [String.toList_append]
    exact List.append_ne_nil_of_left_ne_nil (by decide) _

lemma MistakenFor.differsFrom {c c' : ChainConfig} (h : MistakenFor c c') :
    c.DiffersFrom c' ∧ c'.DiffersFrom c := by
  obtain ⟨id, network, set⟩ := c
  obtain ⟨id', network', set'⟩ := c'
  cases network with
  | mainnet =>
    cases network' with
    | mainnet => cases h
    | testnet name' => exact ⟨Or.inr (by rintro ⟨⟩), Or.inr (by rintro ⟨⟩)⟩
    | development => exact ⟨Or.inr (by rintro ⟨⟩), Or.inr (by rintro ⟨⟩)⟩
  | testnet name =>
    cases network' with
    | mainnet => cases h
    | testnet name' =>
      have hne : id ≠ id' := MistakenTestnet.ne h
      exact ⟨Or.inl hne, Or.inl hne.symm⟩
    | development => cases h
  | development =>
    cases network' with
    | mainnet => cases h
    | testnet name' => exact ⟨Or.inr (by rintro ⟨⟩), Or.inr (by rintro ⟨⟩)⟩
    | development => cases h

lemma Ambiguous.differsFrom {c c' : ChainConfig} (h : Ambiguous c c') : c.DiffersFrom c' := by
  rcases h with h | h
  · exact h.differsFrom.1
  · exact h.differsFrom.2

lemma ToldApart.of_ne {Id F : Type} {c c' : ChainConfig} (h : c.getChainId ≠ c'.getChainId) :
    ToldApart Id F c c' where
  configs := h
  clients := by
    rintro self self' rfl rfl
    rw [self.getChainId_eq, self'.getChainId_eq]
    exact h
  heads := by
    rintro self self' rfl rfl client client' head head' hhead hhead' hsame
    obtain rfl := Except.ok.inj hhead
    obtain rfl := Except.ok.inj hhead'
    exact h (congrArg ChainId.name hsame)

/-- **Chain ids.**  Two configurations that differ in chain id or network type are told apart by
their chain ids, and so are the heads of their clients, exactly when they cannot be taken for
each other. -/
theorem chainIds_toldApart_iff (Id F : Type) (c c' : ChainConfig) :
    (c.DiffersFrom c' → ToldApart Id F c c') ↔ ¬ Ambiguous c c' := by
  constructor
  · intro h hambiguous
    have hne := (h hambiguous.differsFrom).configs
    exact hne ((getChainId_eq_iff c c').mpr (Or.inr hambiguous))
  · intro hnot hdiffers
    apply ToldApart.of_ne
    intro heq
    rcases (getChainId_eq_iff c c').mp heq with ⟨hid, hnetwork⟩ | hambiguous
    · exact hdiffers.elim (fun hne => hne hid) fun hne => hne hnetwork
    · exact hnot hambiguous

/-- **Two networks, one chain id.**  A main network whose id ends in `-dev` is taken for a
development network; and the separator of one test network overlaps that of another. -/
theorem chainIds_collide :
    (ChainConfig.mk "westend-dev" .mainnet 0).DiffersFrom ⟨"westend", .development, 0⟩ ∧
      (ChainConfig.mk "westend-dev" .mainnet 0).getChainId
        = (ChainConfig.mk "westend" .development 0).getChainId ∧
      (ChainConfig.mk "rococo" (.testnet "testnet-2") 0).DiffersFrom
        ⟨"rococo-testnet", .testnet "2", 0⟩ ∧
      (ChainConfig.mk "rococo" (.testnet "testnet-2") 0).getChainId
        = (ChainConfig.mk "rococo-testnet" (.testnet "2") 0).getChainId := by
  refine ⟨Or.inl (by decide), ?_, Or.inl (by decide), ?_⟩
  · decide
  · decide

end FrostSubstrate
