/-
The verification client as an object with state, and the calls that change its voters.

`SubstrateVerificationClient` keeps the voter set behind a lock; `GrandpaFinality` holds
the client as a trait object and a voter set of its own.  Three calls replace the voters:
`handle_authority_set_change` on the predicate, `handle_authority_set_update` and
`update_authorities_from_runtime` on the client.  None of them looks at what it replaces,
so a run of calls leaves the voters of the last one that was accepted (`run_eq`).
-/
import FrostSubstrate.Finality.Verdict

namespace FrostSubstrate

/-! ### The objects -/

inductive NetworkType where
  | mainnet
  | testnet (name : String)
  | development
deriving DecidableEq

structure ChainConfig where
  chainId : String
  networkType : NetworkType
  authoritySetId : ℕ

def ChainConfig.default : ChainConfig := ⟨"substrate-default", .development, 0⟩

def ChainConfig.getChainId (self : ChainConfig) : String :=
  match self.networkType with
  | .mainnet => self.chainId
  | .testnet name => self.chainId ++ "-testnet-" ++ name
  | .development => self.chainId ++ "-dev"

/-- `SubstrateVerificationClient`, without the chain client it reads: the voter set and the
status cache behind their locks, and what `new` was given.  A cache entry is a status with
the nanosecond at which it was inserted. -/
structure SubstrateVerificationClient (Id F : Type) where
  voterSet : VoterSet Id
  params : GrandpaVerificationParams F
  chainConfig : ChainConfig
  finalityCache : H256 → Option (FinalityStatus F × ℕ)

/-- `SubstrateVerificationClient::new`. -/
def SubstrateVerificationClient.new {Id F : Type} (voterSet : VoterSet Id)
    (params : GrandpaVerificationParams F) (chainConfig : ChainConfig) :
    SubstrateVerificationClient Id F :=
  ⟨voterSet, params, chainConfig, fun _ => none⟩

/-- `Arc<dyn FinalityVerificationClient>`: what `downcast_ref` can tell apart. -/
inductive VerificationClient (Id F : Type) where
  | substrate (substrateClient : SubstrateVerificationClient Id F)
  | other (client : FinalityVerificationClient F)

structure GrandpaFinality (Id F : Type) where
  config : PredicateConfig F
  verificationClient : VerificationClient Id F
  voterSet : VoterSet Id

/-- `format!("{}", hash)`: the first and the last two bytes. -/
def H256.display (hash : H256) : String :=
  "0x" ++ hexEncode (hash.bytes.take 2) ++ "…" ++ hexEncode (hash.bytes.drop 30)

/-! ### The calls -/

section Calls

variable {Id Sig F : Type} (G : Grandpa Id Sig)

/-- `SubstrateVerificationClient::handle_authority_set_update`.  The set id only goes into
a log line. -/
def SubstrateVerificationClient.handleAuthoritySetUpdate (self : SubstrateVerificationClient Id F)
    (newSet : AuthorityList Id) (_setId : ℕ) :
    Except GrandpaFinalityVerificationError Unit × SubstrateVerificationClient Id F :=
  match G.newVoterSet newSet with
  | none => (.error (.authoritySetError "Failed to create voter set"), self)
  | some newVoterSet => (.ok (), { self with voterSet := newVoterSet })

/-- `SubstrateVerificationClient::update_authorities_from_runtime`. -/
def SubstrateVerificationClient.updateAuthoritiesFromRuntime
    (self : SubstrateVerificationClient Id F) (api : GrandpaApi Id) (blockHash : H256) :
    Except GrandpaFinalityVerificationError Unit × SubstrateVerificationClient Id F :=
  match api blockHash with
  | .error e =>
    (.error (.chainError ("Failed to get authorities at block " ++ blockHash.display ++ ": " ++ e)),
      self)
  | .ok authorities =>
    match G.newVoterSet authorities with
    | none => (.error (.authoritySetError "Failed to create voter set"), self)
    | some newVoterSet => (.ok (), { self with voterSet := newVoterSet })

/-- A call on the verification client, which is reached only when it is the Substrate one. -/
def GrandpaFinality.onSubstrateClient (self : GrandpaFinality Id F)
    (call : SubstrateVerificationClient Id F →
      Except GrandpaFinalityVerificationError Unit × SubstrateVerificationClient Id F) :
    Except GrandpaFinalityVerificationError Unit × GrandpaFinality Id F :=
  match self.verificationClient with
  | .substrate substrateClient =>
    ((call substrateClient).1,
      { self with verificationClient := .substrate (call substrateClient).2 })
  | .other _ => (.ok (), self)

/-- `GrandpaFinality::handle_authority_set_change`.  The voter set it builds is dropped: its
own field keeps the old one. -/
def GrandpaFinality.handleAuthoritySetChange (self : GrandpaFinality Id F)
    (newAuthorities : AuthorityList Id) (setId : ℕ) :
    Except GrandpaFinalityVerificationError Unit × GrandpaFinality Id F :=
  match G.newVoterSet newAuthorities with
  | none => (.error (.authoritySetError "Failed to create new voter set"), self)
  | some _ => self.onSubstrateClient fun substrateClient =>
      substrateClient.handleAuthoritySetUpdate G newAuthorities setId

/-- A call that brings new voters. -/
inductive AuthorityCall (Id : Type) where
  | change (newAuthorities : AuthorityList Id) (setId : ℕ)
  | update (newSet : AuthorityList Id) (setId : ℕ)
  | fromRuntime (api : GrandpaApi Id) (blockHash : H256)

namespace AuthorityCall

/-- Make the call. -/
def perform (self : GrandpaFinality Id F) :
    AuthorityCall Id → Except GrandpaFinalityVerificationError Unit × GrandpaFinality Id F
  | change newAuthorities setId => self.handleAuthoritySetChange G newAuthorities setId
  | update newSet setId => self.onSubstrateClient fun substrateClient =>
      substrateClient.handleAuthoritySetUpdate G newSet setId
  | fromRuntime api blockHash => self.onSubstrateClient fun substrateClient =>
      substrateClient.updateAuthoritiesFromRuntime G api blockHash

/-- The authorities the call brings, none when the runtime does not answer. -/
def carried : AuthorityCall Id → Option (AuthorityList Id)
  | change newAuthorities _ => some newAuthorities
  | update newSet _ => some newSet
  | fromRuntime api blockHash =>
    match api blockHash with
    | .ok authorities => some authorities
    | .error _ => none

/-- The voter set the call builds. -/
def built (call : AuthorityCall Id) : Option (VoterSet Id) := call.carried.bind G.newVoterSet

end AuthorityCall

namespace GrandpaFinality

/-- The predicate after one call after the other. -/
def run (self : GrandpaFinality Id F) (calls : List (AuthorityCall Id)) : GrandpaFinality Id F :=
  calls.foldl (fun self call => (call.perform G self).2) self

/-- The predicate with the voters of its Substrate client replaced. -/
def install (self : GrandpaFinality Id F) (V : VoterSet Id) : GrandpaFinality Id F :=
  match self.verificationClient with
  | .substrate substrateClient =>
    { self with verificationClient := .substrate { substrateClient with voterSet := V } }
  | .other _ => self

variable {G} {self : GrandpaFinality Id F} {call : AuthorityCall Id} {V W : VoterSet Id}

lemma install_of_substrate {c : SubstrateVerificationClient Id F}
    (h : self.verificationClient = .substrate c) :
    self.install V = { self with verificationClient := .substrate { c with voterSet := V } } := by
  simp only [install, h]

@[simp] lemma install_install : (self.install V).install W = self.install W := by
  rcases h : self.verificationClient with c | o
  · rw [install_of_substrate h, install_of_substrate h]
    rfl
  · simp only [install, h]

lemma perform_of_built (h : call.built G = some V) :
    call.perform G self = (.ok (), self.install V) := by
  cases call with
  | change newAuthorities setId =>
    -- the predicate builds the set to check it, the client builds it again to install it
    have hnew : G.newVoterSet newAuthorities = some V := h
    simp only [AuthorityCall.perform, handleAuthoritySetChange, hnew, onSubstrateClient, install,
      SubstrateVerificationClient.handleAuthoritySetUpdate]
    cases self.verificationClient <;> rfl
  | update newSet setId =>
    have hnew : G.newVoterSet newSet = some V := h
    simp only [AuthorityCall.perform, onSubstrateClient, install,
      SubstrateVerificationClient.handleAuthoritySetUpdate, hnew]
    cases self.verificationClient <;> rfl
  | fromRuntime api blockHash =>
    obtain ⟨authorities, hapi, hnew⟩ := Option.bind_eq_some_iff.mp h
    have hok : api blockHash = .ok authorities := by
      simp only [AuthorityCall.carried] at hapi
      split at hapi
      · next heq => rw [heq, Option.some.inj hapi]
      · cases hapi
    simp only [AuthorityCall.perform, onSubstrateClient, install,
      SubstrateVerificationClient.updateAuthoritiesFromRuntime, hok, hnew]
    cases self.verificationClient <;> rfl

lemma perform_of_not_built (h : call.built G = none) : (call.perform G self).2 = self := by
  cases call with
  | change newAuthorities setId =>
    have hnew : G.newVoterSet newAuthorities = none := h
    simp only [AuthorityCall.perform, handleAuthoritySetChange, hnew]
  | update newSet setId =>
    have hnew : G.newVoterSet newSet = none := h
    rcases self with ⟨config, c | o, voterSet⟩
    · simp only [AuthorityCall.perform, onSubstrateClient,
        SubstrateVerificationClient.handleAuthoritySetUpdate, hnew]
    · rfl
  | fromRuntime api blockHash =>
    rcases self with ⟨config, c | o, voterSet⟩
    · rcases hapi : api blockHash with e | authorities
      · simp only [AuthorityCall.perform, onSubstrateClient,
          SubstrateVerificationClient.updateAuthoritiesFromRuntime, hapi]
      · have hnew : G.newVoterSet authorities = none := by
          simpa only [AuthorityCall.built, AuthorityCall.carried, hapi, Option.bind_some] using h
        simp only [AuthorityCall.perform, onSubstrateClient,
          SubstrateVerificationClient.updateAuthoritiesFromRuntime, hapi, hnew]
    · rfl

lemma perform_snd : (call.perform G self).2 = ((call.built G).map self.install).getD self := by
  rcases h : call.built G with _ | V
  · exact perform_of_not_built h
  · rw [perform_of_built h]
    rfl

/-- **The last accepted call wins.**  A run of calls leaves the voters of the last call
whose authorities made a voter set. -/
theorem run_eq (calls : List (AuthorityCall Id)) :
    self.run G calls
      = (((calls.filterMap (AuthorityCall.built G)).getLast?).map self.install).getD self := by
  induction calls using List.reverseRecOn with
  | nil => rfl
  | append_singleton calls call ih =>
    have hstep : self.run G (calls ++ [call]) = (call.perform G (self.run G calls)).2 := by
      simp only [run, List.foldl_append, List.foldl_cons, List.foldl_nil]
    -- the last call overwrites what the others left, or changes nothing
    rw [hstep, perform_snd, List.filterMap_append, ih]
    rcases h : call.built G with _ | V
    · simp [h]
    · simp only [List.filterMap_cons, h, List.filterMap_nil, Option.map_some, Option.getD_some,
        List.getLast?_append, List.getLast?_singleton, Option.some_or]
      rcases (calls.filterMap (AuthorityCall.built G)).getLast? with _ | W
      · rfl
      · exact install_install

/-- The voters `verify_justification` counts with, none for a foreign client. -/
def countingVoters (self : GrandpaFinality Id F) : Option (VoterSet Id) :=
  match self.verificationClient with
  | .substrate substrateClient => some substrateClient.voterSet
  | .other _ => none

/-- **Authority calls overwrite.**  Whatever was called before and whatever the set ids say,
the voters in use are those of the call delivered last, when its authorities make a voter
set; the predicate is otherwise unchanged. -/
theorem run_append_last {c : SubstrateVerificationClient Id F}
    (hclient : self.verificationClient = .substrate c) (calls : List (AuthorityCall Id))
    (hlast : call.built G = some V) :
    (self.run G (calls ++ [call])).countingVoters = some V ∧
      self.run G (calls ++ [call])
        = { self with verificationClient := .substrate { c with voterSet := V } } := by
  have hrun : self.run G (calls ++ [call])
      = { self with verificationClient := .substrate { c with voterSet := V } } := by
    rw [run_eq, ← install_of_substrate hclient, List.filterMap_append]
    simp [hlast]
  refine ⟨?_, hrun⟩
  rw [hrun]
  rfl

end GrandpaFinality

end Calls

/-! ### A late call -/

/-- A set of one voter. -/
def soleVoter (id : ℕ) : VoterSet ℕ where
  voters := [(id, 1)]
  nodup := by simp
  ne_nil := by simp
  weight_pos := by simp
  total_le := by simp [u64Max]

def sampleClient : SubstrateVerificationClient ℕ ℚ := .new (soleVoter 0) .default .default

def sampleFinality : GrandpaFinality ℕ ℚ := ⟨⟨2, 0.95, 60⟩, .substrate sampleClient, soleVoter 0⟩

/-- The set with id `2` is delivered first, the older one with id `1` after it. -/
def lateCalls : List (AuthorityCall ℕ) := [.change [(2, 1)] 2, .update [(1, 1)] 1]

/-- **A late call rolls the voters back.**  Both sets are valid, and the one with the lower
id is in use at the end. -/
theorem lateCalls_roll_back :
    lateCalls.map (AuthorityCall.built plainGrandpa) = [some (soleVoter 2), some (soleVoter 1)] ∧
      (sampleFinality.run plainGrandpa lateCalls).countingVoters = some (soleVoter 1) ∧
      (soleVoter 1).voters ≠ (soleVoter 2).voters := by
  refine ⟨rfl, rfl, ?_⟩
  decide

/-- The late calls end with the voters of the second one. -/
theorem run_append_last_lateCalls :
    (sampleFinality.run plainGrandpa ([.change [(2, 1)] 2] ++ [.update [(1, 1)] 1])).countingVoters
        = some (soleVoter 1) ∧
      sampleFinality.run plainGrandpa ([.change [(2, 1)] 2] ++ [.update [(1, 1)] 1])
        = { sampleFinality with
            verificationClient := .substrate { sampleClient with voterSet := soleVoter 1 } } :=
  GrandpaFinality.run_append_last rfl _ rfl

end FrostSubstrate
