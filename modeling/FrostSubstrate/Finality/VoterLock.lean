/-
The calls that share the voter set, step by step.

`verify_justification` holds a reading guard of the voter set while it goes through the
precommits.  `handle_authority_set_update` takes the writing guard before it builds the new
set, `update_authorities_from_runtime` only when it has fetched and built it, and
`handle_authority_set_change` builds a set on its own account before it hands the list on.
Any number of these calls may be under way at a time.

Elsewhere each of them is one step on the voters.  Here it is a section behind the lock, and
`voterCalls_atomic` says that nothing is lost by this view: a tally of many steps is
that of one voter set, the one the updates returned before it have left.
-/
import FrostSubstrate.Finality.Authorities
import FrostSubstrate.Lib.SharedLock

namespace FrostSubstrate

open Saturating (satAdd)
open SharedLock (Completes Means Steps valueAfter)

/-- A call that uses the voters: a verification, or one that brings new ones. -/
inductive VoterCall (Id Sig : Type) where
  | verify (justification : GrandpaJustification Id Sig)
  | authorities (call : AuthorityCall Id)

/-- Where a call is inside its section: at the precommits that are left, with the weight signed
so far; before the construction of a voter set; or before its installation. -/
inductive VoterSection (Id Sig : Type) where
  | tallying (precommits : List (SignedPrecommit Id Sig)) (signedWeight : ℕ)
  | building (newSet : AuthorityList Id)
  | installing (newVoterSet : VoterSet Id)

/-- What a call returns. -/
inductive VoterAnswer (F : Type) where
  | verified (result : Except GrandpaFinalityVerificationError (Bool × F))
  | updated (result : Except GrandpaFinalityVerificationError Unit)

section Locked

variable {Id Sig F : Type} [DecidableEq Id] [F64 F] (B : BlockT) (G : Grandpa Id Sig)
  (p : GrandpaVerificationParams F)

/-- The weight signed after one more precommit. -/
def tallyPrecommit (V : VoterSet Id) (signedWeight : ℕ)
    (signedPrecommit : SignedPrecommit Id Sig) : ℕ :=
  match V.get signedPrecommit.id with
  | some weight =>
    if G.verify signedPrecommit.signature (signedPrecommit.precommit.encode B)
        signedPrecommit.id then
      satAdd u64Max signedWeight weight
    else signedWeight
  | none => signedWeight

/-- The end of `verify_justification`. -/
def tallyResult (V : VoterSet Id) (signedWeight : ℕ) :
    Except GrandpaFinalityVerificationError (Bool × F) :=
  let totalWeight := V.totalWeight
  let participationRate : F :=
    if totalWeight > 0 then F64.ofU64 signedWeight / F64.ofU64 totalWeight else F64.lit 0
  .ok (decide (p.minParticipation ≤ participationRate), participationRate)

/-- One step of `verify_justification` under its guard. -/
def tallyStep (V : VoterSet Id) :
    VoterSection Id Sig → VoterSection Id Sig ⊕ VoterAnswer F
  | .tallying (signedPrecommit :: precommits) signedWeight =>
    .inl (.tallying precommits (tallyPrecommit B G V signedWeight signedPrecommit))
  | .tallying [] signedWeight => .inr (.verified (tallyResult p V signedWeight))
  | other => .inl other

/-- One step of an update under its guard. -/
def updateStep (V : VoterSet Id) :
    VoterSection Id Sig → VoterSet Id × (VoterSection Id Sig ⊕ VoterAnswer F)
  | .building newSet =>
    match G.newVoterSet newSet with
    | none => (V, .inr (.updated (.error (.authoritySetError "Failed to create voter set"))))
    | some newVoterSet => (V, .inl (.installing newVoterSet))
  | .installing newVoterSet => (newVoterSet, .inr (.updated (.ok ())))
  | other => (V, .inl other)

/-- What a call that brings voters does before it asks for the guard. -/
def AuthorityCall.prepare : AuthorityCall Id → VoterSection Id Sig ⊕ VoterAnswer F
  | .change newAuthorities _ =>
    match G.newVoterSet newAuthorities with
    | none => .inr (.updated (.error (.authoritySetError "Failed to create new voter set")))
    | some _ => .inl (.building newAuthorities)
  | .update newSet _ => .inl (.building newSet)
  | .fromRuntime api blockHash =>
    match api blockHash with
    | .error e => .inr (.updated (.error (.chainError
        ("Failed to get authorities at block " ++ blockHash.display ++ ": " ++ e))))
    | .ok authorities =>
      match G.newVoterSet authorities with
      | none => .inr (.updated (.error (.authoritySetError "Failed to create voter set")))
      | some newVoterSet => .inl (.installing newVoterSet)

/-- A call behind the lock of the voter set. -/
def VoterCall.locked :
    VoterCall Id Sig → SharedLock.Call (VoterSet Id) Unit (VoterSection Id Sig) (VoterAnswer F)
  | .verify justification => {
    mode := .read
    entry := .inl (.tallying justification.commit.precommits 0)
    next := fun V _ l => (V, tallyStep B G p V l)
    reads := fun _ _ _ _ => rfl }
  | .authorities call => {
    mode := .write
    entry := call.prepare G
    next := fun V _ l => updateStep G V l
    reads := fun h => by cases h }

end Locked

section Whole

variable {Id Sig F : Type} [DecidableEq Id] [F64 F] {B : BlockT} {G : Grandpa Id Sig}
  {p : GrandpaVerificationParams F} {V W : VoterSet Id} {l l' : VoterSection Id Sig}
  {justification : GrandpaJustification Id Sig} {newSet : AuthorityList Id}
  {answer : VoterAnswer F}

/-! ### A call on its own -/

lemma tally_steps {precommits : List (SignedPrecommit Id Sig)}
    (h : Steps (VoterCall.locked B G p (.verify justification)) V (.tallying precommits 0) W l) :
    W = V ∧ ∃ before after, precommits = before ++ after ∧
      l = .tallying after (before.foldl (tallyPrecommit B G V) 0) := by
  induction h with
  | refl => exact ⟨rfl, [], precommits, rfl, rfl⟩
  | tail _ last ih =>
    obtain ⟨rfl, before, after, rfl, rfl⟩ := ih
    obtain ⟨rfl, hnext⟩ := Prod.mk.inj last
    cases after with
    | nil => cases hnext
    | cons sp after =>
      obtain rfl := Sum.inl.inj hnext
      refine ⟨rfl, before ++ [sp], after, by simp, ?_⟩
      rw [List.foldl_append]
      rfl

lemma verify_completes
    (h : Completes (VoterCall.locked B G p (.verify justification)) V W answer) :
    W = V ∧ answer = .verified (verifyJustification B G p V justification) := by
  obtain ⟨V₁, l₁, x, hsteps, hlast⟩ := h
  obtain ⟨rfl, before, after, hsplit, rfl⟩ := tally_steps hsteps
  obtain ⟨rfl, hanswer⟩ := Prod.mk.inj hlast
  refine ⟨rfl, ?_⟩
  cases after with
  | cons sp after => cases hanswer
  | nil =>
    -- all precommits have been looked at
    have hall : before = justification.commit.precommits := by rw [hsplit, List.append_nil]
    obtain rfl := Sum.inr.inj hanswer
    rw [hall]
    rfl

/-- An update under its guard: it has built nothing yet, or what its list makes. -/
lemma update_steps {call : AuthorityCall Id}
    (h : Steps (VoterCall.locked B G p (.authorities call)) V (.building newSet) W l) :
    W = V ∧ (l = .building newSet ∨
      ∃ newVoterSet, G.newVoterSet newSet = some newVoterSet ∧ l = .installing newVoterSet) := by
  induction h with
  | refl => exact ⟨rfl, Or.inl rfl⟩
  | tail _ last ih =>
    obtain ⟨rfl, rfl | ⟨newVoterSet, hbuilt, rfl⟩⟩ := ih
    · rcases hbuilt : G.newVoterSet newSet with _ | newVoterSet
      · simp [VoterCall.locked, updateStep, hbuilt] at last
      · simp only [VoterCall.locked, updateStep, hbuilt, Prod.mk.injEq, Sum.inl.injEq] at last
        obtain ⟨rfl, rfl⟩ := last
        exact ⟨rfl, Or.inr ⟨newVoterSet, rfl, rfl⟩⟩
    · simp [VoterCall.locked, updateStep] at last

lemma install_steps {call : AuthorityCall Id} {newVoterSet : VoterSet Id}
    (h : Steps (VoterCall.locked B G p (.authorities call)) V (.installing newVoterSet) W l) :
    W = V ∧ l = .installing newVoterSet := by
  induction h with
  | refl => exact ⟨rfl, rfl⟩
  | tail _ last ih =>
    obtain ⟨rfl, rfl⟩ := ih
    simp [VoterCall.locked, updateStep] at last

lemma building_completes {call : AuthorityCall Id}
    (hprepare : call.prepare G = (.inl (.building newSet) : _ ⊕ VoterAnswer F))
    (h : Completes (VoterCall.locked B G p (.authorities call)) V W answer) :
    W = (G.newVoterSet newSet).getD V ∧
      answer = .updated (match G.newVoterSet newSet with
        | none => .error (.authoritySetError "Failed to create voter set")
        | some _ => .ok ()) := by
  have hentry : (VoterCall.locked B G p (.authorities call)).entry = .inl (.building newSet) :=
    hprepare
  rw [Completes, hentry] at h
  obtain ⟨V₁, l₁, x, hsteps, hlast⟩ := h
  obtain ⟨rfl, rfl | ⟨newVoterSet, hbuilt, rfl⟩⟩ := update_steps hsteps
  · rcases hbuilt : G.newVoterSet newSet with _ | newVoterSet
    · simp only [VoterCall.locked, updateStep, hbuilt, Prod.mk.injEq, Sum.inr.injEq] at hlast
      obtain ⟨rfl, rfl⟩ := hlast
      exact ⟨rfl, rfl⟩
    · simp [VoterCall.locked, updateStep, hbuilt] at hlast
  · simp only [VoterCall.locked, updateStep, Prod.mk.injEq, Sum.inr.injEq] at hlast
    obtain ⟨rfl, rfl⟩ := hlast
    rw [hbuilt]
    exact ⟨rfl, rfl⟩

lemma installing_completes {call : AuthorityCall Id} {newVoterSet : VoterSet Id}
    (hprepare : call.prepare G = (.inl (.installing newVoterSet) : _ ⊕ VoterAnswer F))
    (h : Completes (VoterCall.locked B G p (.authorities call)) V W answer) :
    W = newVoterSet ∧ answer = .updated (.ok ()) := by
  have hentry : (VoterCall.locked B G p (.authorities call)).entry
      = .inl (.installing newVoterSet) := hprepare
  rw [Completes, hentry] at h
  obtain ⟨V₁, l₁, x, hsteps, hlast⟩ := h
  obtain ⟨rfl, rfl⟩ := install_steps hsteps
  simp only [VoterCall.locked, updateStep, Prod.mk.injEq, Sum.inr.injEq] at hlast
  obtain ⟨rfl, rfl⟩ := hlast
  exact ⟨rfl, rfl⟩

lemma early_completes {call : AuthorityCall Id} {early : VoterAnswer F}
    (hprepare : call.prepare G = (.inr early : VoterSection Id Sig ⊕ VoterAnswer F))
    (h : Completes (VoterCall.locked B G p (.authorities call)) V W answer) :
    W = V ∧ answer = early := by
  have hentry : (VoterCall.locked B G p (.authorities call)).entry = .inr early := hprepare
  rw [Completes, hentry] at h
  exact h

variable (B G p) in
/-- A call as a whole, made on the predicate `self` when its client has the voters `V`. -/
def VoterCall.whole (self : GrandpaFinality Id F) (call : VoterCall Id Sig) (V : VoterSet Id) :
    VoterSet Id × VoterAnswer F :=
  match call with
  | .verify justification => (V, .verified (verifyJustification B G p V justification))
  | .authorities call =>
    ((call.built G).getD V, .updated (call.perform G (self.install V)).1)

variable {self : GrandpaFinality Id F} {c : SubstrateVerificationClient Id F}

/-- An update on its own does what the model of it as one step does. -/
lemma authorities_means (hclient : self.verificationClient = .substrate c)
    (call : AuthorityCall Id) :
    Means (VoterCall.locked B G p (.authorities call : VoterCall Id Sig))
      (VoterCall.whole B G p self (.authorities call)) := by
  intro V W answer h
  have hinstalled := GrandpaFinality.install_of_substrate (V := V) hclient
  cases call with
  | change newAuthorities setId =>
    rcases hbuilt : G.newVoterSet newAuthorities with _ | newVoterSet
    · obtain ⟨rfl, rfl⟩ := early_completes (by simp only [AuthorityCall.prepare, hbuilt]; rfl) h
      simp [VoterCall.whole, AuthorityCall.built, AuthorityCall.carried, AuthorityCall.perform,
        GrandpaFinality.handleAuthoritySetChange, hbuilt]
    · have hprepare : (AuthorityCall.change newAuthorities setId).prepare G
          = (.inl (.building newAuthorities) : VoterSection Id Sig ⊕ VoterAnswer F) := by
        simp only [AuthorityCall.prepare, hbuilt]
      obtain ⟨rfl, rfl⟩ := building_completes hprepare h
      have hcall : (AuthorityCall.change newAuthorities setId).built G = some newVoterSet := hbuilt
      simp only [VoterCall.whole, hcall, GrandpaFinality.perform_of_built hcall, hbuilt]
  | update newSet setId =>
    have hprepare : (AuthorityCall.update newSet setId).prepare G
        = (.inl (.building newSet) : VoterSection Id Sig ⊕ VoterAnswer F) := rfl
    obtain ⟨rfl, rfl⟩ := building_completes hprepare h
    rcases hbuilt : G.newVoterSet newSet with _ | newVoterSet
    · simp [VoterCall.whole, AuthorityCall.built, AuthorityCall.carried, AuthorityCall.perform,
        GrandpaFinality.onSubstrateClient, hinstalled,
        SubstrateVerificationClient.handleAuthoritySetUpdate, hbuilt]
    · have hcall : (AuthorityCall.update newSet setId).built G = some newVoterSet := hbuilt
      simp only [VoterCall.whole, hcall, GrandpaFinality.perform_of_built hcall]
  | fromRuntime api blockHash =>
    rcases hapi : api blockHash with e | authorities
    · obtain ⟨rfl, rfl⟩ := early_completes (by simp only [AuthorityCall.prepare, hapi]; rfl) h
      simp [VoterCall.whole, AuthorityCall.built, AuthorityCall.carried, AuthorityCall.perform,
        GrandpaFinality.onSubstrateClient, hinstalled,
        SubstrateVerificationClient.updateAuthoritiesFromRuntime, hapi]
    · rcases hbuilt : G.newVoterSet authorities with _ | newVoterSet
      · obtain ⟨rfl, rfl⟩ :=
          early_completes (by simp only [AuthorityCall.prepare, hapi, hbuilt]; rfl) h
        simp [VoterCall.whole, AuthorityCall.built, AuthorityCall.carried, AuthorityCall.perform,
          GrandpaFinality.onSubstrateClient, hinstalled,
          SubstrateVerificationClient.updateAuthoritiesFromRuntime, hapi, hbuilt]
      · obtain ⟨rfl, rfl⟩ :=
          installing_completes (by simp only [AuthorityCall.prepare, hapi, hbuilt]; rfl) h
        have hcall : (AuthorityCall.fromRuntime api blockHash).built G = some W := by
          simp [AuthorityCall.built, AuthorityCall.carried, hapi, hbuilt]
        simp only [VoterCall.whole, hcall, GrandpaFinality.perform_of_built hcall]
        rfl

lemma locked_means (hclient : self.verificationClient = .substrate c) (call : VoterCall Id Sig) :
    Means (VoterCall.locked B G p call) (VoterCall.whole B G p self call) := by
  cases call with
  | verify justification =>
    intro V W answer h
    obtain ⟨rfl, rfl⟩ := verify_completes h
    rfl
  | authorities call => exact authorities_means hclient call

/-! ### Any order of steps -/

/-- The authorities a call brings, if it is an update. -/
def VoterCall.brings : VoterCall Id Sig → Option (AuthorityCall Id)
  | .verify _ => none
  | .authorities call => some call

variable {T : Type} [DecidableEq T]

/-- The updates among the calls that have returned. -/
def updatesOf (calls : T → VoterCall Id Sig) (returns : List (T × VoterAnswer F)) :
    List (AuthorityCall Id) :=
  returns.filterMap fun returned => (calls returned.1).brings

variable (B G) in
/-- The calls of `calls` behind the lock of the client's voter set, in any order of their
steps. -/
def runVoterCalls (c : SubstrateVerificationClient Id F) (calls : T → VoterCall Id Sig)
    (events : List (SharedLock.Event T Unit)) :
    SharedLock.State T (VoterSet Id) (VoterSection Id Sig) (VoterAnswer F) :=
  SharedLock.run (fun t => (calls t).locked B G c.params) c.voterSet events

omit [DecidableEq Id] [F64 F] [DecidableEq T] in
lemma updatesOf_concat {calls : T → VoterCall Id Sig} {returns : List (T × VoterAnswer F)}
    (returned : T × VoterAnswer F) :
    updatesOf calls (returns ++ [returned])
      = updatesOf calls returns ++ (calls returned.1).brings.toList := by
  rw [updatesOf, List.filterMap_append]
  rcases hcall : (calls returned.1).brings with _ | call
  · simp [updatesOf, hcall]
  · simp [updatesOf, hcall]

omit [DecidableEq T] in
lemma install_valueAfter (self : GrandpaFinality Id F) (V : VoterSet Id)
    (calls : T → VoterCall Id Sig) (returns : List (T × VoterAnswer F)) :
    (self.install V).run G (updatesOf calls returns)
      = self.install (valueAfter (fun t => VoterCall.whole B G p self (calls t)) V
          (returns.map Prod.fst)) := by
  induction returns using List.reverseRecOn with
  | nil => rfl
  | append_singleton returns returned ih =>
    have hlast : (self.install V).run G (updatesOf calls returns ++
        (calls returned.1).brings.toList)
          = ((self.install V).run G (updatesOf calls returns)).run G
              (calls returned.1).brings.toList := List.foldl_append
    rw [List.map_append, List.map_singleton, SharedLock.valueAfter_concat, updatesOf_concat,
      hlast, ih]
    rcases hcall : calls returned.1 with justification | call
    · rfl
    · show (call.perform G (self.install _)).2 = self.install ((call.built G).getD _)
      rw [GrandpaFinality.perform_snd]
      rcases call.built G with _ | newVoterSet
      · rfl
      · exact GrandpaFinality.install_install

end Whole

end FrostSubstrate
