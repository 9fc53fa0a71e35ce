/-
An observer that starts with the authorities of the runtime.

`new_with_runtime_authorities` reads the authorities twice and gives up at the first reading that
makes no voter set, with an error that tells the four ways apart (`startup_error_iff`).  An observer
that has started has voters from then on, whatever authority calls and registrations follow; and
while the id that `get_current_set_id` derives from the authorities is that of the list accepted
last, they are the voters of the runtime (`currentSetId_tracks_voters`).
-/
import FrostSubstrate.Finality.VoterCopies
import FrostSubstrate.Lib.Runs
import FrostSubstrate.Pallet.Singleton

namespace FrostSubstrate

section Startup

variable {Id Sig F : Type} (G : Grandpa Id Sig) (view : ℕ → RuntimeView Id)
  (hash : AuthorityList Id → ℕ)

/-- `SSMPObserver::new_with_runtime_authorities`; `config` is `PredicateConfig::default()`. -/
def SSMPObserver.newWithRuntimeAuthorities [F64 F] (config : PredicateConfig F)
    (chainConfig : ChainConfig) : Except ProtocolError (SSMPObserver Id F) := do
  let finality ← (GrandpaFinality.newFromRuntime G view config .default chainConfig).mapError
    fun e => ProtocolError.custom ("Failed to initialize finality: " ++ e.toString)
  return ⟨[], finality⟩

/-- `SubstrateVerificationClient::get_current_set_id`; `hash` is that of a `DefaultHasher` over a
list.  The best block is read at `i`, its authorities after it. -/
def getCurrentSetId (i : ℕ) : Except GrandpaFinalityVerificationError ℕ :=
  match reportedAuthorities view i with
  | .error e => .error (.chainError ("Failed to get current set ID: " ++ e))
  | .ok authorities => .ok (hash authorities)

/-- What happens to an observer: a registration, or a call that brings new voters. -/
inductive ObserverEvent (Id : Type) where
  | register (target : WatchTarget)
  | authorities (call : AuthorityCall Id)

namespace SSMPObserver

/-- One event. -/
def step (o : SSMPObserver Id F) : ObserverEvent Id → SSMPObserver Id F
  | .register target => { o with watchTargets := o.watchTargets ++ [target] }
  | .authorities call => { o with finality := (call.perform G o.finality).2 }

/-- The observer after these events. -/
def run (o : SSMPObserver Id F) (events : List (ObserverEvent Id)) : SSMPObserver Id F :=
  Runs.run (step G) o events

end SSMPObserver

/-- The list an event brings, if it makes a voter set. -/
def ObserverEvent.accepted : ObserverEvent Id → Option (AuthorityList Id)
  | .register _ => none
  | .authorities call => call.carried.filter fun authorities => (G.newVoterSet authorities).isSome

/-- The target an event registers. -/
def ObserverEvent.registered : ObserverEvent Id → List WatchTarget
  | .register target => [target]
  | .authorities _ => []

/-- The list accepted last, `first` before there is one. -/
def lastAccepted (first : AuthorityList Id) (events : List (ObserverEvent Id)) :
    AuthorityList Id :=
  ((events.filterMap (ObserverEvent.accepted G)).getLast?).getD first

variable {G view hash} {config : PredicateConfig F} {chainConfig : ChainConfig}
  {o : SSMPObserver Id F} {events : List (ObserverEvent Id)} {event : ObserverEvent Id}
  {first : AuthorityList Id} {V : VoterSet Id}

/-! ### The start -/

/-- Why a reading of the runtime makes no voter set. -/
inductive ReadingFails (G : Grandpa Id Sig) (view : ℕ → RuntimeView Id) (i : ℕ) (refusal : String) :
    GrandpaFinalityVerificationError → Prop
  | unreadable (e : String) (h : reportedAuthorities view i = .error e) :
    ReadingFails G view i refusal (.chainError ("Failed to get GRANDPA authorities: " ++ e))
  | refused (authorities : AuthorityList Id) (h : reportedAuthorities view i = .ok authorities)
    (hnone : G.newVoterSet authorities = none) :
    ReadingFails G view i refusal (.authoritySetError refusal)

lemma runtimeVoterSet_eq_error_iff {i : ℕ} {refusal : String}
    {err : GrandpaFinalityVerificationError} :
    runtimeVoterSet G view i refusal = .error err ↔ ReadingFails G view i refusal err := by
  unfold runtimeVoterSet
  constructor
  · rcases hread : reportedAuthorities view i with e | authorities
    · rintro ⟨⟩
      exact .unreadable e hread
    · rcases hnew : G.newVoterSet authorities with _ | V
      · simp only [hnew]
        rintro ⟨⟩
        exact .refused authorities hread hnew
      · simp only [hnew]
        rintro ⟨⟩
  · intro h
    cases h with
    | unreadable e hread => rw [hread]
    | refused authorities hread hnone => simp only [hread, hnone]

lemma startup_eq [F64 F] :
    SSMPObserver.newWithRuntimeAuthorities G view config chainConfig
      = match runtimeVoterSet G view 0 "Failed to create voter set from authorities" with
        | .error err => .error (.custom ("Failed to initialize finality: " ++ err.toString))
        | .ok V =>
          match runtimeVoterSet G view 2 "Failed to create voter set" with
          | .error err => .error (.custom ("Failed to initialize finality: " ++ err.toString))
          | .ok W => .ok ⟨[], config, .substrate (.new V .default chainConfig), W⟩ := by
  unfold SSMPObserver.newWithRuntimeAuthorities GrandpaFinality.newFromRuntime
    SubstrateVerificationClient.newWithRuntimeAuthorities
  rcases runtimeVoterSet G view 0 "Failed to create voter set from authorities" with err | V
  · rfl
  · rcases runtimeVoterSet G view 2 "Failed to create voter set" with err | W
    · rfl
    · rfl

lemma startup_eq_ok_iff [F64 F] :
    SSMPObserver.newWithRuntimeAuthorities G view config chainConfig = .ok o ↔
      ∃ V W, Reports G view 0 V ∧ Reports G view 2 W ∧
        o = ⟨[], config, .substrate (.new V .default chainConfig), W⟩ := by
  have hfirst : ∀ V, Reports G view 0 V ↔
      runtimeVoterSet G view 0 "Failed to create voter set from authorities" = .ok V :=
    fun V => runtimeVoterSet_eq_ok_iff.symm
  have hsecond : ∀ W, Reports G view 2 W ↔
      runtimeVoterSet G view 2 "Failed to create voter set" = .ok W :=
    fun W => runtimeVoterSet_eq_ok_iff.symm
  simp only [startup_eq, hfirst, hsecond]
  rcases runtimeVoterSet G view 0 "Failed to create voter set from authorities" with err | V
  · simp
  · rcases runtimeVoterSet G view 2 "Failed to create voter set" with err | W
    · simp
    · simp [eq_comm]

/-- **Why an observer does not start.**  The first reading fails, or it does not and the second one
fails, and the error says which and why. -/
lemma startup_error_iff [F64 F] {e : ProtocolError} :
    SSMPObserver.newWithRuntimeAuthorities G view config chainConfig = .error e ↔
      ∃ err, (ReadingFails G view 0 "Failed to create voter set from authorities" err ∨
          (∃ V, Reports G view 0 V) ∧ ReadingFails G view 2 "Failed to create voter set" err) ∧
        e = .custom ("Failed to initialize finality: " ++ err.toString) := by
  have hreports : (∃ V, Reports G view 0 V) ↔
      ∃ V, runtimeVoterSet G view 0 "Failed to create voter set from authorities" = .ok V :=
    exists_congr fun V => runtimeVoterSet_eq_ok_iff.symm
  simp only [startup_eq, hreports, ← runtimeVoterSet_eq_error_iff]
  rcases runtimeVoterSet G view 0 "Failed to create voter set from authorities" with err | V
  · simp [eq_comm]
  · rcases runtimeVoterSet G view 2 "Failed to create voter set" with err | W
    · simp [eq_comm]
    · simp

/-! ### The life of an observer -/

lemma lastAccepted_concat : lastAccepted G first (events ++ [event])
    = (event.accepted G).getD (lastAccepted G first events) := by
  unfold lastAccepted
  rw [List.filterMap_append]
  rcases haccepted : event.accepted G with _ | authorities
  · simp [haccepted]
  · simp [haccepted]

lemma built_of_accepted {call : AuthorityCall Id} :
    call.built G = ((ObserverEvent.authorities call).accepted G).bind G.newVoterSet := by
  show call.carried.bind G.newVoterSet
    = (call.carried.filter fun authorities => (G.newVoterSet authorities).isSome).bind G.newVoterSet
  rcases call.carried with _ | authorities
  · rfl
  · rcases hnew : G.newVoterSet authorities with _ | V
    · simp [Option.filter_some, hnew]
    · simp [Option.filter_some, hnew]

/-- **Voters in force.**  They are those of the list accepted last. -/
lemma run_countingVoters (hV : G.newVoterSet first = some V)
    (ho : o.finality.countingVoters = some V) (events : List (ObserverEvent Id)) :
    ∃ V, G.newVoterSet (lastAccepted G first events) = some V ∧
      (o.run G events).finality.countingVoters = some V := by
  induction events using List.reverseRecOn with
  | nil => exact ⟨V, hV, ho⟩
  | append_singleton events event ih =>
    obtain ⟨W, hW, hvoters⟩ := ih
    rw [lastAccepted_concat, SSMPObserver.run, Runs.run_concat, ← SSMPObserver.run]
    cases event with
    | register target => exact ⟨W, hW, hvoters⟩
    | authorities call =>
      have hbuilt : call.built G = ((ObserverEvent.authorities call).accepted G).bind
        G.newVoterSet := built_of_accepted
      show ∃ V, _ ∧ (call.perform G (o.run G events).finality).2.countingVoters = some V
      rw [GrandpaFinality.perform_snd, hbuilt]
      rcases haccepted : (ObserverEvent.authorities call).accepted G with _ | authorities
      · exact ⟨W, hW, hvoters⟩
      · -- an accepted list makes a voter set, which the call installs
        obtain ⟨U, hU⟩ : ∃ U, G.newVoterSet authorities = some U := by
          have hfilter := Option.filter_eq_some_iff.mp haccepted
          exact Option.isSome_iff_exists.mp hfilter.2
        refine ⟨U, hU, ?_⟩
        simp only [Option.bind_some, hU, Option.map_some, Option.getD_some,
          GrandpaFinality.install_countingVoters, hvoters]

lemma run_watchTargets : (o.run G events).watchTargets
    = o.watchTargets ++ events.flatMap ObserverEvent.registered := by
  induction events using List.reverseRecOn with
  | nil => exact (List.append_nil _).symm
  | append_singleton events event ih =>
    rw [SSMPObserver.run, Runs.run_concat, ← SSMPObserver.run, List.flatMap_append,
      ← List.append_assoc, ← ih, List.flatMap_singleton]
    cases event with
    | register target => rfl
    | authorities call => exact (List.append_nil _).symm

/-- While the id derived from the authorities is that of the list accepted last, the voters in
force are those of the runtime. -/
lemma currentSetId_tracks_voters {i : ℕ} {last : AuthorityList Id}
    (hlast : G.newVoterSet last = some V) (hid : getCurrentSetId view hash i = .ok (hash last))
    (hcollision : ∀ authorities, reportedAuthorities view i = .ok authorities →
      hash authorities = hash last → authorities = last) : Reports G view i V := by
  unfold getCurrentSetId at hid
  rcases hread : reportedAuthorities view i with e | authorities
  · rw [hread] at hid
    cases hid
  · rw [hread] at hid
    obtain rfl := hcollision authorities hread (Except.ok.inj hid)
    exact ⟨authorities, hread, hlast⟩

end Startup

/-! ### A start while the authorities change -/

/-- A registration and an update after it. -/
def startedEvents : List (ObserverEvent ℕ) :=
  [.register sampleTarget, .authorities (.update [(7, 1)] 5)]

end FrostSubstrate
