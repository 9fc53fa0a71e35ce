/-
The voter set of the predicate, beside that of its verification client.

`new_from_runtime` asks the runtime twice, once for the voters of the verification client and
once for those of the predicate itself, and the best block may move in between.  Afterwards
`handle_authority_set_change` builds a voter set to update the predicate, hands the list on
to the client, and drops what it built; so the field of the predicate is written once.
-/
import FrostSubstrate.Finality.Authorities

namespace FrostSubstrate

/-! ### Construction from the runtime -/

/-- What one read of a constructor sees: the chain client and the runtime. -/
structure RuntimeView (Id : Type) where
  client : Client
  api : GrandpaApi Id

section Construction

variable {Id Sig F : Type} (G : Grandpa Id Sig) (view : ℕ → RuntimeView Id)

/-- The authorities of the best block.  Its hash is read at `i`, the authorities after it. -/
def reportedAuthorities (i : ℕ) : Except String (AuthorityList Id) :=
  (view (i + 1)).api (view i).client.info.bestHash

/-- The voter set of the authorities reported at `i`; `refusal` is the text of the error when
they make none. -/
def runtimeVoterSet (i : ℕ) (refusal : String) :
    Except GrandpaFinalityVerificationError (VoterSet Id) :=
  match reportedAuthorities view i with
  | .error e => .error (.chainError ("Failed to get GRANDPA authorities: " ++ e))
  | .ok authorities =>
    match G.newVoterSet authorities with
    | none => .error (.authoritySetError refusal)
    | some voterSet => .ok voterSet

/-- `SubstrateVerificationClient::new_with_runtime_authorities`. -/
def SubstrateVerificationClient.newWithRuntimeAuthorities
    (params : GrandpaVerificationParams F) (chainConfig : ChainConfig) :
    Except GrandpaFinalityVerificationError (SubstrateVerificationClient Id F) := do
  let voterSet ← runtimeVoterSet G view 0 "Failed to create voter set from authorities"
  return ⟨voterSet, params, chainConfig, fun _ => none⟩

/-- `GrandpaFinality::new_from_runtime`.  The client's voters come from the reads at `0` and
`1`, the predicate's own from those at `2` and `3`. -/
def GrandpaFinality.newFromRuntime (config : PredicateConfig F)
    (params : GrandpaVerificationParams F) (chainConfig : ChainConfig) :
    Except GrandpaFinalityVerificationError (GrandpaFinality Id F) := do
  let verificationClient ←
    SubstrateVerificationClient.newWithRuntimeAuthorities G view params chainConfig
  let voterSet ← runtimeVoterSet G view 2 "Failed to create voter set"
  return ⟨config, .substrate verificationClient, voterSet⟩

/-- The authorities reported at `i` make the voter set `V`. -/
def Reports (i : ℕ) (V : VoterSet Id) : Prop :=
  ∃ authorities, reportedAuthorities view i = .ok authorities ∧ G.newVoterSet authorities = some V

variable {G view}

lemma runtimeVoterSet_eq_ok_iff {i : ℕ} {refusal : String} {V : VoterSet Id} :
    runtimeVoterSet G view i refusal = .ok V ↔ Reports G view i V := by
  unfold runtimeVoterSet Reports
  rcases reportedAuthorities view i with e | authorities
  · simp
  · rcases hnew : G.newVoterSet authorities with _ | W
    · simp [hnew]
    · simp [hnew]

/-- What the constructor builds: the voters of one reading in the client, those of another in
the predicate. -/
lemma newFromRuntime_eq_ok_iff {config : PredicateConfig F} {params : GrandpaVerificationParams F}
    {chainConfig : ChainConfig} {finality : GrandpaFinality Id F} :
    GrandpaFinality.newFromRuntime G view config params chainConfig = .ok finality ↔
      ∃ V W, Reports G view 0 V ∧ Reports G view 2 W ∧
        finality = ⟨config, .substrate (.new V params chainConfig), W⟩ := by
  unfold GrandpaFinality.newFromRuntime SubstrateVerificationClient.newWithRuntimeAuthorities
  constructor
  · intro h
    rcases hV : runtimeVoterSet G view 0 "Failed to create voter set from authorities" with e | V
    · rw [hV] at h
      cases h
    · rw [hV] at h
      rcases hW : runtimeVoterSet G view 2 "Failed to create voter set" with e | W
      · rw [hW] at h
        cases h
      · rw [hW] at h
        exact ⟨V, W, runtimeVoterSet_eq_ok_iff.mp hV, runtimeVoterSet_eq_ok_iff.mp hW,
          (Except.ok.inj h).symm⟩
  · rintro ⟨V, W, hV, hW, rfl⟩
    rw [runtimeVoterSet_eq_ok_iff.mpr hV, runtimeVoterSet_eq_ok_iff.mpr hW]
    rfl

end Construction

/-! ### The two copies -/

namespace GrandpaFinality

variable {Id Sig F : Type} (G : Grandpa Id Sig)

/-- The calls of `handle_authority_set_change` with these lists and set ids. -/
def changes (calls : List (AuthorityList Id × ℕ)) : List (AuthorityCall Id) :=
  calls.map fun call => .change call.1 call.2

/-- The predicate and its client both hold the voter set `V`. -/
def HoldsTwice (self : GrandpaFinality Id F) (V : VoterSet Id) : Prop :=
  self.voterSet = V ∧ self.countingVoters = some V

/-- The copies are in step from the construction through a run of authority changes: they hold
the voters of the list accepted last, and a call that fails leaves both as they were. -/
structure CopiesInStep (view : ℕ → RuntimeView Id) (finality : GrandpaFinality Id F)
    (calls : List (AuthorityList Id × ℕ)) : Prop where
  constructed : ∃ V, Reports G view 2 V ∧ finality.HoldsTwice V
  accepted : ∀ before newAuthorities setId after,
    calls = before ++ (newAuthorities, setId) :: after →
    ((finality.run G (changes before)).handleAuthoritySetChange G newAuthorities setId).1 = .ok () →
    ∃ V, G.newVoterSet newAuthorities = some V ∧
      ((finality.run G (changes before)).handleAuthoritySetChange G newAuthorities
        setId).2.HoldsTwice V
  rejected : ∀ before newAuthorities setId after,
    calls = before ++ (newAuthorities, setId) :: after → ∀ e,
    ((finality.run G (changes before)).handleAuthoritySetChange G newAuthorities setId).1
      = .error e →
    let next :=
      ((finality.run G (changes before)).handleAuthoritySetChange G newAuthorities setId).2
    next.voterSet = (finality.run G (changes before)).voterSet ∧
      next.countingVoters = (finality.run G (changes before)).countingVoters

/-- Every list that is accepted makes the one voter set `V`: those of the two readings of the
constructor, and those of the calls. -/
structure OneVoterSet (view : ℕ → RuntimeView Id) (calls : List (AuthorityList Id × ℕ))
    (V : VoterSet Id) : Prop where
  client : Reports G view 0 V
  predicate : Reports G view 2 V
  calls : ∀ call ∈ calls, ∀ W, G.newVoterSet call.1 = some W → W = V

variable {G} {self : GrandpaFinality Id F} {V W : VoterSet Id}

@[simp] lemma install_voterSet : (self.install V).voterSet = self.voterSet := by
  unfold install
  split <;> rfl

lemma install_countingVoters :
    (self.install V).countingVoters = self.countingVoters.map fun _ => V := by
  rcases self with ⟨config, c | o, voterSet⟩
  · rfl
  · rfl

/-- **The predicate's own voters never change.**  No authority call writes them. -/
theorem run_voterSet (calls : List (AuthorityCall Id)) :
    (self.run G calls).voterSet = self.voterSet := by
  rw [run_eq]
  rcases (calls.filterMap (AuthorityCall.built G)).getLast? with _ | V
  · rfl
  · exact install_voterSet

lemma run_countingVoters_isSome (h : self.countingVoters = some V)
    (calls : List (AuthorityCall Id)) : ∃ W, (self.run G calls).countingVoters = some W := by
  rw [run_eq]
  rcases (calls.filterMap (AuthorityCall.built G)).getLast? with _ | W
  · exact ⟨V, h⟩
  · refine ⟨W, ?_⟩
    rw [Option.map_some, Option.getD_some, install_countingVoters, h]
    rfl

lemma handleAuthoritySetChange_of_some {newAuthorities : AuthorityList Id} {setId : ℕ}
    (h : G.newVoterSet newAuthorities = some V) :
    self.handleAuthoritySetChange G newAuthorities setId = (.ok (), self.install V) := by
  have hbuilt : (AuthorityCall.change newAuthorities setId).built G = some V := h
  exact perform_of_built hbuilt

lemma handleAuthoritySetChange_of_none {newAuthorities : AuthorityList Id} {setId : ℕ}
    (h : G.newVoterSet newAuthorities = none) :
    self.handleAuthoritySetChange G newAuthorities setId
      = (.error (.authoritySetError "Failed to create new voter set"), self) := by
  simp only [handleAuthoritySetChange, h]

section Agreement

variable {view : ℕ → RuntimeView Id} {config : PredicateConfig F}
  {params : GrandpaVerificationParams F} {chainConfig : ChainConfig} {V₀ V₂ : VoterSet Id}
  {calls : List (AuthorityList Id × ℕ)}

lemma Reports.unique {i : ℕ} (h : Reports G view i V) (h' : Reports G view i W) : W = V := by
  obtain ⟨authorities, hauthorities, hV⟩ := h
  obtain ⟨authorities', hauthorities', hW⟩ := h'
  obtain rfl := Except.ok.inj (hauthorities.symm.trans hauthorities')
  exact Option.some.inj (hW.symm.trans hV)

/-- An accepted change puts its voters into the client, and the predicate keeps its own. -/
lemma CopiesInStep.oneVoterSet (hfirst : Reports G view 0 V₀)
    (h : (⟨config, .substrate (.new V₀ params chainConfig), V₂⟩ :
      GrandpaFinality Id F).CopiesInStep G view calls) : OneVoterSet G view calls V₂ := by
  obtain ⟨V, hreports, hfield, hclient⟩ := h.constructed
  have hV₂ : V₂ = V := hfield
  have hV₀ : V₀ = V := Option.some.inj hclient
  subst hV₀ hV₂
  refine ⟨hfirst, hreports, ?_⟩
  rintro ⟨newAuthorities, setId⟩ hcall W hW
  obtain ⟨before, after, hsplit⟩ := List.append_of_mem hcall
  obtain ⟨U, hU, hfield, -⟩ := h.accepted before newAuthorities setId after hsplit
    (by rw [handleAuthoritySetChange_of_some hW])
  -- the call has left the field as the constructor set it
  rw [handleAuthoritySetChange_of_some hW, install_voterSet, run_voterSet] at hfield
  rw [hW] at hU
  exact (Option.some.inj hU).trans hfield.symm

lemma OneVoterSet.copiesInStep (h : OneVoterSet G view calls V) :
    (⟨config, .substrate (.new V params chainConfig), V⟩ :
      GrandpaFinality Id F).CopiesInStep G view calls := by
  refine ⟨⟨V, h.predicate, rfl, rfl⟩, ?_, ?_⟩
  · intro before newAuthorities setId after hsplit hok
    rcases hnew : G.newVoterSet newAuthorities with _ | W
    · rw [handleAuthoritySetChange_of_none hnew] at hok
      cases hok
    · have hmem : (newAuthorities, setId) ∈ calls := by
        rw [hsplit]
        exact List.mem_append_right _ List.mem_cons_self
      obtain rfl : W = V := h.calls _ hmem W hnew
      refine ⟨W, rfl, ?_, ?_⟩
      · rw [handleAuthoritySetChange_of_some hnew, install_voterSet, run_voterSet]
      · have hclient : (⟨config, .substrate (.new W params chainConfig), W⟩ :
            GrandpaFinality Id F).countingVoters = some W := rfl
        obtain ⟨U, hU⟩ := run_countingVoters_isSome hclient (changes before)
        rw [handleAuthoritySetChange_of_some hnew, install_countingVoters, hU]
        rfl
  · intro before newAuthorities setId after hsplit e herr
    rcases hnew : G.newVoterSet newAuthorities with _ | W
    · rw [handleAuthoritySetChange_of_none hnew]
      exact ⟨rfl, rfl⟩
    · rw [handleAuthoritySetChange_of_some hnew] at herr
      cases herr

end Agreement

/-- **When the copies agree.**  The predicate built from the runtime and its client hold the
same voters through a run of authority changes exactly when all accepted lists, those of the
constructor included, make one and the same voter set. -/
theorem copiesInStep_iff {view : ℕ → RuntimeView Id} {config : PredicateConfig F}
    {params : GrandpaVerificationParams F} {chainConfig : ChainConfig}
    (hbuilt : newFromRuntime G view config params chainConfig = .ok self)
    (calls : List (AuthorityList Id × ℕ)) :
    self.CopiesInStep G view calls ↔ ∃ V, OneVoterSet G view calls V := by
  obtain ⟨V₀, V₂, hfirst, hsecond, rfl⟩ := newFromRuntime_eq_ok_iff.mp hbuilt
  constructor
  · intro h
    exact ⟨V₂, h.oneVoterSet hfirst⟩
  · rintro ⟨V, h⟩
    obtain rfl : V₀ = V := Reports.unique h.client hfirst
    obtain rfl : V₂ = V₀ := Reports.unique h.predicate hsecond
    exact h.copiesInStep

end GrandpaFinality

/-! ### A change that reaches one copy -/

/-- An empty chain whose runtime reports the voter `before` to the first reading and the voter
`after` to the second one. -/
def changingView (before after : ℕ) (i : ℕ) : RuntimeView ℕ where
  client := ⟨fun _ => .ok none, ⟨.zero, 0, .zero, 0⟩, fun _ => .ok none⟩
  api _ := .ok [(if i ≤ 1 then before else after, 1)]

/-- What the constructor builds from it. -/
def twiceRead (before after : ℕ) : GrandpaFinality ℕ ℚ :=
  ⟨⟨2, 0.95, 60⟩, .substrate (.new (soleVoter before) .default .default), soleVoter after⟩

lemma newFromRuntime_changingView (before after : ℕ) :
    GrandpaFinality.newFromRuntime plainGrandpa (changingView before after) ⟨2, 0.95, 60⟩ .default
      .default = .ok (twiceRead before after) := by
  have hset : ∀ id, plainGrandpa.newVoterSet [(id, 1)] = some (soleVoter id) := by
    intro id
    show VoterSet.ofDistinct [(id, 1)] = some (soleVoter id)
    unfold VoterSet.ofDistinct
    rw [dif_pos ⟨by simp, by simp, by simp, by simp [u64Max]⟩]
    rfl
  exact newFromRuntime_eq_ok_iff.mpr
    ⟨soleVoter before, soleVoter after, ⟨_, rfl, hset before⟩, ⟨_, rfl, hset after⟩, rfl⟩

/-- **A change reaches one copy only.**  An accepted change from voter `1` to voter `2` leaves
the predicate with voter `1`; and a best block that moves between the two readings of the
constructor makes the copies differ from the start. -/
theorem copies_diverge :
    (twiceRead 1 1).handleAuthoritySetChange plainGrandpa [(2, 1)] 1
        = (.ok (), { twiceRead 1 1 with
            verificationClient := .substrate (.new (soleVoter 2) .default .default) }) ∧
      (soleVoter 1).voters ≠ (soleVoter 2).voters ∧
      GrandpaFinality.newFromRuntime plainGrandpa (changingView 1 1) ⟨2, 0.95, 60⟩ .default .default
        = .ok (twiceRead 1 1) ∧
      ¬ (twiceRead 1 1).CopiesInStep plainGrandpa (changingView 1 1) [([(2, 1)], 1)] ∧
      GrandpaFinality.newFromRuntime plainGrandpa (changingView 1 2) ⟨2, 0.95, 60⟩ .default .default
        = .ok (twiceRead 1 2) ∧
      ¬ (twiceRead 1 2).CopiesInStep plainGrandpa (changingView 1 2) [] := by
  have hne : (soleVoter 1).voters ≠ (soleVoter 2).voters := by decide
  refine ⟨rfl, hne, newFromRuntime_changingView 1 1, ?_, newFromRuntime_changingView 1 2, ?_⟩
  · intro h
    obtain ⟨V, hV, hfield, -⟩ := h.accepted [] [(2, 1)] 1 [] rfl rfl
    have hV : some (soleVoter 2) = some V := hV
    obtain rfl := Option.some.inj hV
    exact hne (congrArg VoterSet.voters hfield)
  · intro h
    obtain ⟨V, -, hfield, hclient⟩ := h.constructed
    obtain rfl : soleVoter 2 = V := hfield
    exact hne (congrArg VoterSet.voters (Option.some.inj hclient))

/-- The statement for a predicate built under one voter set and a change to another. -/
theorem copiesInStep_iff_twiceRead :
    (twiceRead 1 1).CopiesInStep plainGrandpa (changingView 1 1) [([(2, 1)], 1)] ↔
      ∃ V, GrandpaFinality.OneVoterSet plainGrandpa (changingView 1 1) [([(2, 1)], 1)] V :=
  GrandpaFinality.copiesInStep_iff (newFromRuntime_changingView 1 1) _

end FrostSubstrate
