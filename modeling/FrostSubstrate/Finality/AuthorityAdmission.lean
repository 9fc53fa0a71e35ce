/-
Which authority lists the manager and the verification client admit.

`handle_authority_set_update` makes a voter set of the list it is given and refuses one that
makes none.  `AuthoritySetManager` takes every list: `schedule_change` does not look at it and
`apply_change` makes it current.  The two agree in a run exactly when all lists whose turn
comes have a voter of positive weight and a total weight that fits.
-/
import FrostSubstrate.Finality.AuthorityManager

namespace FrostSubstrate

/-! ### Lists that make a voter set -/

/-- Some voter has positive weight, and the total weight does not overflow. -/
def Convertible {Id : Type} (authorities : AuthorityList Id) : Prop :=
  (∃ v ∈ authorities, 0 < v.2) ∧ (authorities.map Prod.snd).sum ≤ u64Max

/-- What `VoterSet::new` documents: it returns `None` exactly when no voter has positive weight
or the total weight overflows. -/
def Grandpa.AdmitsByWeight {Id Sig : Type} (G : Grandpa Id Sig) : Prop :=
  ∀ authorities : AuthorityList Id, G.newVoterSet authorities = none ↔
    (∀ v ∈ authorities, v.2 = 0) ∨ u64Max < (authorities.map Prod.snd).sum

section Admission

variable {Id Sig F : Type} {G : Grandpa Id Sig} {authorities : AuthorityList Id}

lemma Grandpa.AdmitsByWeight.exists_iff (hG : G.AdmitsByWeight) :
    (∃ V, G.newVoterSet authorities = some V) ↔ Convertible authorities := by
  have hsome : (∃ V, G.newVoterSet authorities = some V) ↔ ¬ G.newVoterSet authorities = none :=
    Option.ne_none_iff_exists'.symm
  have hweights : (¬ ∀ v ∈ authorities, v.2 = 0) ↔ ∃ v ∈ authorities, 0 < v.2 := by
    simp only [not_forall, Nat.pos_iff_ne_zero, exists_prop]
  rw [hsome, hG authorities, not_or, hweights, not_lt]
  exact Iff.rfl

lemma handleAuthoritySetUpdate_ok_iff {client : SubstrateVerificationClient Id F} {setId : ℕ} :
    (client.handleAuthoritySetUpdate G authorities setId).1 = .ok () ↔
      ∃ V, G.newVoterSet authorities = some V := by
  rw [SubstrateVerificationClient.handleAuthoritySetUpdate]
  cases G.newVoterSet authorities with
  | none => simp
  | some V => simp

/-- The manager and the client admit the same lists in a run: a list whose turn comes is made
current exactly when the client accepts it, and the current list always makes a voter set. -/
structure AdmitsAlike (G : Grandpa Id Sig) (client : SubstrateVerificationClient Id F)
    (initialSet : AuthoritySet Id) (calls : List (ManagerCall Id)) : Prop where
  current_iff : ∀ a ∈ (history initialSet calls).activated,
    a.current.authorities = a.change.authorities ↔
      (client.handleAuthoritySetUpdate G a.change.authorities a.change.setId).1 = .ok ()
  convertible : ∀ before, before <+: calls →
    ∃ V, G.newVoterSet (history initialSet before).manager.currentAuthorities = some V

lemma activated_subset {initialSet : AuthoritySet Id} {before calls : List (ManagerCall Id)}
    (h : before <+: calls) :
    (history initialSet before).activated ⊆ (history initialSet calls).activated := by
  obtain ⟨after, rfl⟩ := h
  induction after using List.reverseRecOn with
  | nil => rw [List.append_nil]; exact List.Subset.refl _
  | append_singleton after call ih =>
    rw [← List.append_assoc, history_append_singleton]
    cases call with
    | scheduleChange newAuthorities scheduledAt => exact ih
    | processFinalizedBlock number =>
      intro a ha
      exact List.mem_append_left _ (ih ha)

/-- **When manager and verifier admit the same lists.**  Given that the initial list makes a
voter set, they agree in a run exactly when every list whose turn comes has a voter of positive
weight and a total that fits. -/
theorem admitsAlike_iff (hG : G.AdmitsByWeight) (client : SubstrateVerificationClient Id F)
    (initialSet : AuthoritySet Id)
    (hinitial : ∃ V, G.newVoterSet initialSet.authorities = some V)
    (calls : List (ManagerCall Id)) :
    AdmitsAlike G client initialSet calls ↔
      ∀ a ∈ (history initialSet calls).activated, Convertible a.change.authorities := by
  constructor
  · rintro ⟨hcurrent, -⟩ a ha
    -- the manager makes the list current without asking, so the client has to accept it
    have hmade : a.current.authorities = a.change.authorities := by
      rw [current_of_mem_activated ha]
      rfl
    exact hG.exists_iff.mp (handleAuthoritySetUpdate_ok_iff.mp ((hcurrent a ha).mp hmade))
  · intro hconvertible
    refine ⟨?_, ?_⟩
    · intro a ha
      refine iff_of_true ?_ ?_
      · rw [current_of_mem_activated ha]
        rfl
      · exact handleAuthoritySetUpdate_ok_iff.mpr (hG.exists_iff.mpr (hconvertible a ha))
    · intro before hbefore
      rw [AuthoritySetManager.currentAuthorities, history_currentSet]
      rcases hlast : (history initialSet before).activated.getLast? with _ | a
      · exact hinitial
      · have ha := List.mem_of_getLast? hlast
        rw [Option.map_some, Option.getD_some, current_of_mem_activated ha]
        exact hG.exists_iff.mpr (hconvertible a (activated_subset hbefore ha))

end Admission

/-! ### Voter sets by weight

A constructor that behaves as documented: voters without weight are dropped and the weights of
a repeated voter are added up. -/

section ByWeight

variable {Id : Type} [DecidableEq Id]

/-- Add a voter, or its weight if it is there. -/
def addVoter (v : Id × ℕ) : List (Id × ℕ) → List (Id × ℕ)
  | [] => [v]
  | u :: rest => if u.1 = v.1 then (u.1, u.2 + v.2) :: rest else u :: addVoter v rest

/-- The voters of positive weight, each of them once. -/
def mergeVoters (authorities : AuthorityList Id) : List (Id × ℕ) :=
  (authorities.filter fun v => 0 < v.2).foldr addVoter []

lemma addVoter_ne_nil (v : Id × ℕ) (l : List (Id × ℕ)) : addVoter v l ≠ [] := by
  cases l with
  | nil => simp [addVoter]
  | cons u l =>
    rw [addVoter]
    split_ifs <;> simp

lemma mem_keys_addVoter {v : Id × ℕ} {l : List (Id × ℕ)} {id : Id}
    (h : id ∈ (addVoter v l).map Prod.fst) : id = v.1 ∨ id ∈ l.map Prod.fst := by
  induction l with
  | nil => simpa [addVoter] using h
  | cons u l ih =>
    rw [addVoter] at h
    split_ifs at h with heq
    · exact Or.inr h
    · rw [List.map_cons, List.mem_cons] at h ⊢
      rcases h with h | h
      · exact Or.inr (Or.inl h)
      · exact (ih h).imp_right Or.inr

lemma nodup_addVoter {v : Id × ℕ} {l : List (Id × ℕ)} (h : (l.map Prod.fst).Nodup) :
    ((addVoter v l).map Prod.fst).Nodup := by
  induction l with
  | nil => simp [addVoter]
  | cons u l ih =>
    rw [List.map_cons, List.nodup_cons] at h
    rw [addVoter]
    split_ifs with heq
    · exact List.nodup_cons.mpr h
    · rw [List.map_cons, List.nodup_cons]
      refine ⟨?_, ih h.2⟩
      intro hu
      rcases mem_keys_addVoter hu with hv | hu
      · exact heq hv
      · exact h.1 hu

lemma pos_addVoter {v : Id × ℕ} {l : List (Id × ℕ)} (hv : 0 < v.2) (hl : ∀ u ∈ l, 0 < u.2) :
    ∀ u ∈ addVoter v l, 0 < u.2 := by
  induction l with
  | nil => simpa [addVoter] using hv
  | cons w l ih =>
    obtain ⟨hw, hrest⟩ := List.forall_mem_cons.mp hl
    rw [addVoter]
    split_ifs
    · exact List.forall_mem_cons.mpr ⟨Nat.add_pos_left hw _, hrest⟩
    · exact List.forall_mem_cons.mpr ⟨hw, ih hrest⟩

lemma sum_addVoter (v : Id × ℕ) (l : List (Id × ℕ)) :
    ((addVoter v l).map Prod.snd).sum = v.2 + (l.map Prod.snd).sum := by
  induction l with
  | nil => simp [addVoter]
  | cons u l ih =>
    rw [addVoter]
    split_ifs
    · simp only [List.map_cons, List.sum_cons]
      omega
    · simp only [List.map_cons, List.sum_cons, ih]
      omega

lemma mergeVoters_nodup (authorities : AuthorityList Id) :
    ((mergeVoters authorities).map Prod.fst).Nodup := by
  unfold mergeVoters
  induction authorities.filter fun v => 0 < v.2 with
  | nil => exact List.nodup_nil
  | cons v l ih => exact nodup_addVoter ih

lemma mergeVoters_pos (authorities : AuthorityList Id) :
    ∀ u ∈ mergeVoters authorities, 0 < u.2 := by
  have hpos : ∀ v ∈ authorities.filter fun v => 0 < v.2, 0 < v.2 := by
    intro v hv
    exact of_decide_eq_true (List.mem_filter.mp hv).2
  unfold mergeVoters
  generalize (authorities.filter fun v => 0 < v.2) = positive at hpos ⊢
  induction positive with
  | nil => simp
  | cons v l ih =>
    obtain ⟨hv, hl⟩ := List.forall_mem_cons.mp hpos
    exact pos_addVoter hv (ih hl)

lemma mergeVoters_sum (authorities : AuthorityList Id) :
    ((mergeVoters authorities).map Prod.snd).sum = (authorities.map Prod.snd).sum := by
  unfold mergeVoters
  induction authorities with
  | nil => rfl
  | cons v l ih =>
    rcases Nat.eq_zero_or_pos v.2 with hzero | hpos
    · rw [List.filter_cons_of_neg (by simp [hzero]), ih, List.map_cons, List.sum_cons, hzero,
        Nat.zero_add]
    · rw [List.filter_cons_of_pos (by simpa using hpos), List.foldr_cons, sum_addVoter, ih,
        List.map_cons, List.sum_cons]

lemma mergeVoters_ne_nil {authorities : AuthorityList Id} (h : ∃ v ∈ authorities, 0 < v.2) :
    mergeVoters authorities ≠ [] := by
  obtain ⟨v, hv, hpos⟩ := h
  unfold mergeVoters
  rcases hfilter : authorities.filter fun v => 0 < v.2 with _ | ⟨u, l⟩
  · rw [List.filter_eq_nil_iff] at hfilter
    exact absurd (decide_eq_true hpos) (hfilter v hv)
  · rw [hfilter, List.foldr_cons]
    exact addVoter_ne_nil u _

/-- The voter set of a list of weighted voters. -/
def VoterSet.ofWeights (authorities : List (Id × ℕ)) : Option (VoterSet Id) :=
  if h : (∃ v ∈ authorities, 0 < v.2) ∧ (authorities.map Prod.snd).sum ≤ u64Max then
    some ⟨mergeVoters authorities, mergeVoters_nodup authorities, mergeVoters_ne_nil h.1,
      mergeVoters_pos authorities, (mergeVoters_sum authorities).trans_le h.2⟩
  else none

end ByWeight

/-- GRANDPA with ideal signatures and voter sets by weight. -/
def weighingGrandpa : Grandpa ℕ (ℕ × Bytes) :=
  { plainGrandpa with newVoterSet := VoterSet.ofWeights }

lemma weighingGrandpa_admitsByWeight : weighingGrandpa.AdmitsByWeight := by
  intro authorities
  show VoterSet.ofWeights authorities = none ↔ _
  unfold VoterSet.ofWeights
  split_ifs with h
  · refine iff_of_false (by simp) ?_
    rintro (hzero | hover)
    · obtain ⟨v, hv, hpos⟩ := h.1
      exact hpos.ne' (hzero v hv)
    · exact absurd h.2 (not_le.mpr hover)
  · refine iff_of_true rfl ?_
    rw [not_and_or, not_le] at h
    refine h.imp_left fun hnone v hv => ?_
    by_contra hv0
    exact hnone ⟨v, hv, Nat.pos_of_ne_zero hv0⟩

/-! ### A list without voters -/

def firstSet : AuthoritySet ℕ := ⟨[(0, 1)], 0⟩

/-- Schedule a list for block `1` and process this block. -/
def replaceCalls (authorities : AuthorityList ℕ) : List (ManagerCall ℕ) :=
  [.scheduleChange authorities 1, .processFinalizedBlock 1]

lemma firstSet_convertible : ∃ V, weighingGrandpa.newVoterSet firstSet.authorities = some V := by
  refine weighingGrandpa_admitsByWeight.exists_iff.mpr ⟨⟨(0, 1), by simp [firstSet], by simp⟩, ?_⟩
  simp [firstSet, u64Max]

/-- **The manager takes lists that make no voter set.**  The empty list, a list of weight zero
and one whose total overflows all become current, and the client refuses each of them. -/
theorem inadmissible_made_current :
    (∀ authorities ∈ ([[], [(1, 0)], [(1, u64Max), (2, 1)]] : List (AuthorityList ℕ)),
      (history firstSet (replaceCalls authorities)).manager.currentAuthorities = authorities ∧
      (sampleClient.handleAuthoritySetUpdate weighingGrandpa authorities 1).1
        = .error (.authoritySetError "Failed to create voter set")) ∧
      ¬ AdmitsAlike weighingGrandpa sampleClient firstSet (replaceCalls []) := by
  refine ⟨?_, ?_⟩
  · intro authorities hmem
    have hnone : weighingGrandpa.newVoterSet authorities = none := by
      rw [weighingGrandpa_admitsByWeight]
      simp only [List.mem_cons, List.not_mem_nil, or_false] at hmem
      rcases hmem with rfl | rfl | rfl
      · exact Or.inl (by simp)
      · exact Or.inl (by simp)
      · exact Or.inr (by simp)
    refine ⟨rfl, ?_⟩
    simp only [SubstrateVerificationClient.handleAuthoritySetUpdate, hnone]
  · intro h
    obtain ⟨V, hV⟩ := h.convertible (replaceCalls []) List.prefix_rfl
    have hnone : weighingGrandpa.newVoterSet [] = none :=
      (weighingGrandpa_admitsByWeight []).mpr (Or.inl (by simp))
    rw [show (history firstSet (replaceCalls [])).manager.currentAuthorities = [] from rfl,
      hnone] at hV
    cases hV

/-- The statement for a list with a repeated voter. -/
theorem admitsAlike_iff_repeated :
    AdmitsAlike weighingGrandpa sampleClient firstSet (replaceCalls [(1, 1), (1, 2)]) ↔
      ∀ a ∈ (history firstSet (replaceCalls [(1, 1), (1, 2)])).activated,
        Convertible a.change.authorities :=
  admitsAlike_iff weighingGrandpa_admitsByWeight sampleClient firstSet firstSet_convertible _

end FrostSubstrate
