/-
What becomes of a verdict when the chain moves on.

`Later` says that one chain state comes after another on the same chain: nothing known is
forgotten and the finalized and the best number do not fall.  A block that was reported
final stays known, stays confirmed and never leads to an error again, but two terms of the
verdict look at the present: the distance to the best block, and the participation of its
justification, counted with whatever voters are installed by then.  These two, and the
confidence of a block above the finalized height, decide.
-/
import FrostSubstrate.Finality.Authorities
import FrostSubstrate.Finality.Payload

namespace FrostSubstrate

/-- `s'` is a later state of the chain than `s`: headers and justifications are kept (a block
may get further justifications after those it has), and the numbers do not fall. -/
structure ChainState.Later (s s' : ChainState) : Prop where
  headers : ∀ h header, s.headers h = some header → s'.headers h = some header
  justifications : ∀ h j, s.justifications h = some j →
    ∃ j', s'.justifications h = some j' ∧ j.entries <+: j'.entries
  finalized_le : s.info.finalizedNumber ≤ s'.info.finalizedNumber
  best_le : s.info.bestNumber ≤ s'.info.bestNumber

namespace ChainState

variable {s s' : ChainState} {blockHash : H256} {justificationBytes : Bytes}

lemma Later.grandpaJustification (h : s.Later s')
    (hj : s.grandpaJustification blockHash = some justificationBytes) :
    s'.grandpaJustification blockHash = some justificationBytes := by
  obtain ⟨j, hstored, hinto⟩ := Option.bind_eq_some_iff.mp hj
  obtain ⟨j', hstored', hpre⟩ := h.justifications blockHash j hstored
  obtain ⟨entry, hfind, rfl⟩ := Option.map_eq_some_iff.mp hinto
  rw [ChainState.grandpaJustification, hstored', Option.bind_some,
    Justifications.intoJustification, hpre.find?_eq_some hfind, Option.map_some]

end ChainState

variable {Id Sig F : Type} [DecidableEq Id] [F64 F] (B : BlockT) (G : Grandpa Id Sig)

/-- `is_final` of a predicate over one state of the chain client. -/
def GrandpaFinality.isFinalIn (self : GrandpaFinality Id F) (chainClient : Client)
    (blockRef : BlockRef) : Except FinalityError Bool :=
  match self.verificationClient with
  | .substrate substrateClient =>
    isFinalOn B G substrateClient.params self.config ⟨chainClient, substrateClient.voterSet⟩
      blockRef
  | .other client => isFinal self.config client blockRef

variable {B G} {self : GrandpaFinality Id F} {c : SubstrateVerificationClient Id F}
  {s s' : ChainState} {blockRef : BlockRef} {header : Header} {V V' : VoterSet Id}
  {p : GrandpaVerificationParams F} {config : PredicateConfig F}

omit [DecidableEq Id] [F64 F] in
/-- After a run of authority calls a Substrate client has the voters it had or those of a
call, and nothing else about the predicate changed. -/
lemma run_substrate (hclient : self.verificationClient = .substrate c)
    (calls : List (AuthorityCall Id)) :
    ∃ V, self.run G calls
        = { self with verificationClient := .substrate { c with voterSet := V } } ∧
      (V = c.voterSet ∨ ∃ call ∈ calls, call.built G = some V) := by
  rw [GrandpaFinality.run_eq]
  rcases hlast : (calls.filterMap (AuthorityCall.built G)).getLast? with _ | V
  · refine ⟨c.voterSet, ?_, Or.inl rfl⟩
    rw [Option.map_none, Option.getD_none, ← hclient]
  · refine ⟨V, GrandpaFinality.install_of_substrate hclient, Or.inr ?_⟩
    exact List.mem_filterMap.mp (List.mem_of_getLast? hlast)

/-- The terms of the verdict that look at the present: the distance to the best block, the
participation of the justification, and the confidence of a block that is not finalized. -/
structure StillAccepted (B : BlockT) (G : Grandpa Id Sig) (p : GrandpaVerificationParams F)
    (config : PredicateConfig F) (s : ChainState) (V : VoterSet Id) (blockHash : H256)
    (header : Header) : Prop where
  near_best : s.info.bestNumber - header.number ≤ 50
  participation : ∀ justificationBytes, s.grandpaJustification blockHash = some justificationBytes →
    ¬ decodedRate B G p V justificationBytes < F64.lit 0.67
  confident : s.info.finalizedNumber < header.number →
    ¬ confidenceOf p (statusOf B G p s V blockHash header) < config.confidenceThreshold

/-- An accepted block is accepted in a later state exactly when the terms about the present
still hold. -/
lemma Accepts.later_iff (hacc : Accepts B G p config s V blockRef.hash header)
    (hlater : s.Later s') :
    Accepts B G p config s' V' blockRef.hash header ↔
      StillAccepted B G p config s' V' blockRef.hash header := by
  constructor
  · intro h
    exact ⟨h.near_best, h.participation, fun _ => h.confident⟩
  · intro h
    refine ⟨?_, ?_, h.near_best, h.participation⟩
    · by_cases hle : header.number ≤ s'.info.finalizedNumber
      · -- a finalized block has confidence one, and the threshold was met before
        rw [confidenceOf_of_le hle]
        exact not_one_lt_of_not_confidenceOf_lt hacc.confident
      · exact h.confident (by omega)
    · have := hacc.confirmed
      have := hlater.finalized_le
      omega

/-- **Irrevocability up to the present.**  A block reported final in `s` never leads to an
error in a later state, whatever authority calls were made in between, and is reported final
there exactly when it is at most 50 below the best block, the participation of its
justification, if it has one, is at least 0.67 for the voters then in use, and it is
finalized or its confidence still meets the threshold. -/
theorem isFinalIn_later (hclient : self.verificationClient = .substrate c)
    (hfinal : self.isFinalIn B G s.client blockRef = .ok true) (hlater : s.Later s')
    (calls : List (AuthorityCall Id)) :
    ∃ header V verdict, s.headers blockRef.hash = some header ∧
      (self.run G calls).countingVoters = some V ∧
      (self.run G calls).isFinalIn B G s'.client blockRef = .ok verdict ∧
      (verdict = true ↔
        StillAccepted B G c.params self.config s' V blockRef.hash header) := by
  have hfinal' : isFinalOn B G c.params self.config ⟨s.client, c.voterSet⟩ blockRef = .ok true := by
    simpa only [GrandpaFinality.isFinalIn, hclient] using hfinal
  obtain ⟨header, hheader, hnumber, hacc⟩ := isFinalOn_eq_true_iff.mp hfinal'
  obtain ⟨V, hrun, -⟩ := run_substrate hclient calls
  have hheader' := hlater.headers _ _ hheader
  obtain ⟨verdict, hverdict⟩ : ∃ verdict,
      isFinalOn B G c.params self.config ⟨s'.client, V⟩ blockRef = .ok verdict :=
    isFinalOn_isOk_iff.mpr ⟨header, hheader', hnumber⟩
  refine ⟨header, V, verdict, hheader, ?_, ?_, ?_⟩
  · rw [hrun]
    rfl
  · rw [hrun]
    exact hverdict
  · rw [← hacc.later_iff hlater, ← isFinalOn_eq_true_iff_accepts hheader' hnumber, hverdict]
    simp

/-- Without new voters, and unless the block got its first justification in between, only the
distance to the best block can revoke a verdict. -/
theorem isFinalOn_later_iff_near_best
    (hfinal : isFinalOn B G p config ⟨s.client, V⟩ blockRef = .ok true) (hlater : s.Later s')
    (hfirst : s.grandpaJustification blockRef.hash = none →
      s'.grandpaJustification blockRef.hash = none)
    (hheader : s.headers blockRef.hash = some header) :
    isFinalOn B G p config ⟨s'.client, V⟩ blockRef = .ok true ↔
      s'.info.bestNumber - header.number ≤ 50 := by
  obtain ⟨header', hh, hnumber, hacc⟩ := isFinalOn_eq_true_iff.mp hfinal
  obtain rfl : header' = header := Option.some.inj (hh.symm.trans hheader)
  have hsame : s'.grandpaJustification blockRef.hash = s.grandpaJustification blockRef.hash := by
    rcases hj : s.grandpaJustification blockRef.hash with _ | justificationBytes
    · exact hfirst hj
    · exact hlater.grandpaJustification hj
  rw [isFinalOn_eq_true_iff_accepts (hlater.headers _ _ hheader) hnumber, hacc.later_iff hlater]
  refine ⟨fun h => h.near_best, fun h => ⟨h, ?_, ?_⟩⟩
  · intro justificationBytes hj
    exact hacc.participation _ (hsame ▸ hj)
  · intro hlt
    -- above both finalized heights the status has not changed
    have hstatus : statusOf B G p s' V blockRef.hash header'
        = statusOf B G p s V blockRef.hash header' := by
      have hle := hlater.finalized_le
      simp only [statusOf, hsame, FinalityStatus.mk.injEq, decide_eq_decide, true_and, and_true]
      omega
    rw [hstatus]
    exact hacc.confident

/-! ### Membership in the finalized chain -/

namespace BlockTree

variable {T T' : BlockTree} {x y : H256}

lemma parent_later (hlater : T.Later T'.toChainState) (h : T.parent x = some y) :
    T'.parent x = some y := by
  obtain ⟨header, parentHeader, hx, rfl, hy⟩ := parent_eq_some h
  simp [parent, hlater.headers _ _ hx, hlater.headers _ _ hy]

/-- **Membership in the finalized chain is irrevocable**, as long as the finalized block only
moves to a descendant. -/
theorem OnFinalizedChain.later (hlater : T.Later T'.toChainState)
    (hext : T'.OnFinalizedChain T.info.finalizedHash) (h : T.OnFinalizedChain x) :
    T'.OnFinalizedChain x :=
  (Ancestry.Ancestor.mono (fun _ _ => parent_later hlater) h).trans hext

end BlockTree

/-! ### Revoked verdicts -/

/-- A predicate that asks for two confirmations, over a client with the three sample voters. -/
def patientFinality : GrandpaFinality ℕ ℚ :=
  ⟨sampleConfig, .substrate (.new sampleVoters .default .default), sampleVoters⟩

/-- Block `1` of the sample tree. -/
def chainRef : BlockRef := ⟨⟨"substrate-default-dev"⟩, 1, .repeatByte 2⟩

/-- The sample tree when block `59` has become the best one. -/
def grownTree : BlockTree :=
  .ofHeaders
    [⟨.repeatByte 1, .zero, 0⟩, ⟨.repeatByte 2, .repeatByte 1, 1⟩,
      ⟨.repeatByte 3, .repeatByte 2, 2⟩, ⟨.repeatByte 4, .repeatByte 3, 3⟩,
      ⟨.repeatByte 9, .repeatByte 1, 1⟩, ⟨.repeatByte 60, .repeatByte 59, 59⟩]
    ⟨.repeatByte 60, 59, .repeatByte 4, 3⟩ (by decide) ⟨_, rfl, rfl⟩ ⟨_, rfl, rfl⟩

/-- Parameters that take full participation for full confidence. -/
def strictParams : GrandpaVerificationParams ℚ :=
  { (.default : GrandpaVerificationParams ℚ) with minParticipation := 1 }

/-- A predicate with these parameters that asks for no confirmations and a confidence of 0.6. -/
def eagerFinality : GrandpaFinality ℕ ℚ :=
  ⟨⟨0, 0.6, 60⟩, .substrate (.new sampleVoters strictParams .default), sampleVoters⟩

/-- The justified sample tree with only block `0` finalized. -/
def unfinalizedTree : BlockTree :=
  { justifiedTree [1] with
    info := ⟨.repeatByte 4, 3, .repeatByte 1, 0⟩
    finalized_known := ⟨_, rfl, rfl⟩
    best_known := ⟨_, rfl, rfl⟩ }

lemma forkTree_later_grownTree : forkTree.Later grownTree.toChainState := by
  refine ⟨?_, ?_, by decide, by decide⟩
  · intro h header hh
    exact (List.prefix_append _ [_]).find?_eq_some hh
  · intro h j hj
    cases hj

lemma patientFinality_forkTree :
    patientFinality.isFinalIn .u32 sampleGrandpa forkTree.client chainRef = .ok true := by
  decide +kernel

/-- **Revoked verdicts.**  A final block stops being final when only the best block has
moved, when only the voters have changed and the participation is gone, and when it has only
dropped for a block that is not finalized. -/
theorem isFinal_revoked :
    (forkTree.Later grownTree.toChainState ∧
      patientFinality.isFinalIn .u32 sampleGrandpa forkTree.client chainRef = .ok true ∧
      patientFinality.isFinalIn .u32 sampleGrandpa grownTree.client chainRef = .ok false) ∧
    (((AuthorityCall.update [(4, 1)] 1).built sampleGrandpa).isSome = true ∧
      patientFinality.isFinalIn .u32 sampleGrandpa (justifiedTree [1]).client chainRef
        = .ok true ∧
      (patientFinality.run sampleGrandpa [.update [(4, 1)] 1]).isFinalIn .u32 sampleGrandpa
        (justifiedTree [1]).client chainRef = .ok false) ∧
    ((AuthorityCall.update [(1, 1), (2, 1), (3, 1), (4, 1)] 1).built sampleGrandpa).isSome = true ∧
      eagerFinality.isFinalIn .u32 sampleGrandpa unfinalizedTree.client chainRef = .ok true ∧
      (eagerFinality.run sampleGrandpa [.update [(1, 1), (2, 1), (3, 1), (4, 1)] 1]).isFinalIn .u32
        sampleGrandpa unfinalizedTree.client chainRef = .ok false := by
  refine ⟨⟨?_, ?_, ?_⟩, ⟨?_, ?_, ?_⟩, ?_, ?_, ?_⟩
  · exact forkTree_later_grownTree
  · exact patientFinality_forkTree
  · decide +kernel
  · decide +kernel
  · decide +kernel
  · decide +kernel
  · decide +kernel
  · decide +kernel
  · decide +kernel

/-- The statement for the sample predicate, when the tree grows and one voter takes over. -/
theorem isFinalIn_later_grownTree :
    ∃ header V verdict, forkTree.headers chainRef.hash = some header ∧
      (patientFinality.run sampleGrandpa [.update [(4, 1)] 1]).countingVoters = some V ∧
      (patientFinality.run sampleGrandpa [.update [(4, 1)] 1]).isFinalIn .u32 sampleGrandpa
        grownTree.client chainRef = .ok verdict ∧
      (verdict = true ↔ StillAccepted .u32 sampleGrandpa (.default : GrandpaVerificationParams ℚ)
        patientFinality.config grownTree.toChainState V chainRef.hash header) :=
  isFinalIn_later rfl patientFinality_forkTree forkTree_later_grownTree _

end FrostSubstrate
