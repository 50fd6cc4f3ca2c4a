import Rtt.Machine
import Rtt.Registry

namespace Rtt.RegistryRefresh

open Rtt.Machine
open Rtt.MachineWord
open Rtt.RegistryProvider
open Rtt.Registry

/-- A call of `refresh_once` with the answers of the provider, under which it ends. -/
structure Refresh (policy : RegistryRefreshPolicy) where
  script : List Answer
  nowMs : Nat
  collection : Collection
  ends : collect policy script = some collection

section Step

variable (registry : MarketRegistry) (state : RegistryState)
  (refresh : Refresh registry.refreshPolicy)

/-- A refresh, given by the answers that it has got. -/
def refreshStep :
    RegistryState × Except RegistryRefreshError RegistryRefreshOutcome :=
  let (state, collected) := registry.endCollection state refresh.collection refresh.nowMs
  registry.storeRefresh state collected

theorem refreshOnce_eq :
    registry.refreshOnce state refresh.script refresh.nowMs =
      some (refreshStep registry state refresh) := by
  rw [MarketRegistry.refreshOnce, MarketRegistry.collectSnapshot, refresh.ends, Option.map_some,
    Option.map_some]
  rfl

end Step

/-- The outcome of a refresh that succeeded. -/
def succeeded : Except RegistryRefreshError RegistryRefreshOutcome → Option RegistryRefreshOutcome
  | .ok outcome => if outcome.degraded then none else some outcome
  | .error _ => none

def successes (results : List (Except RegistryRefreshError RegistryRefreshOutcome)) :
    List RegistryRefreshOutcome :=
  results.filterMap succeeded

/-- The state after a run, from the outcomes that succeeded in it. -/
structure Reached (state : RegistryState) (earlier : List RegistryRefreshOutcome) : Prop where
  snapshot : state.lastGoodSnapshot = earlier.getLast?.map RegistryRefreshOutcome.snapshot
  selectedUniverse : state.lastGoodUniverse =
    earlier.getLast?.map RegistryRefreshOutcome.selectedUniverse
  sequence : state.nextSequence = earlier.length % wordSize
  numbered : earlier.length < wordSize →
    ∀ good ∈ earlier, good.snapshot.sequence ≤ earlier.length

/-- What a refresh answers and leaves, after the outcomes that succeeded before it. -/
structure Kept (registry : MarketRegistry) (state : RegistryState)
    (earlier : List RegistryRefreshOutcome) (refresh : Refresh registry.refreshPolicy)
    (next : RegistryState) (result : Except RegistryRefreshError RegistryRefreshOutcome) :
    Prop where
  ran : registry.refreshOnce state refresh.script refresh.nowMs = some (next, result)
  success : ∀ collecting, refresh.collection.result = .ok collecting →
    ∃ outcome, result = .ok outcome ∧ outcome.degraded = false ∧ outcome.error = none ∧
      outcome.snapshot.markets = collecting.markets ∧
      outcome.snapshot.quarantined = collecting.quarantined ∧
      next.lastGoodSnapshot = some outcome.snapshot ∧
      next.lastGoodUniverse = some outcome.selectedUniverse ∧
      (earlier.length + 1 < wordSize →
        ∀ good ∈ earlier, good.snapshot.sequence < outcome.snapshot.sequence)
  failure : ∀ err, refresh.collection.result = .error err →
    next = state ∧
      result = match earlier.getLast? with
        | some good => .ok
            { good with
              degraded := true, attempts := refresh.collection.attempts
              error := some err.message }
        | none => .error { message := err.message }
  attempts : ∀ outcome, result = .ok outcome →
    outcome.attempts = refresh.collection.fetchCalls % wordSize
  tried : ∀ fetch ∈ refresh.collection.fetches,
    fetch.answers.length ≤ registry.refreshPolicy.retryPolicy.maxRetries + 1
  retried : ∀ fetch ∈ refresh.collection.fetches, fetch.Retried

section Run

variable {registry : MarketRegistry} {state : RegistryState}
  {earlier : List RegistryRefreshOutcome} {refresh : Refresh registry.refreshPolicy}

/-- The outcome of a refresh that collected its pages. -/
def goodOutcome (registry : MarketRegistry) (state : RegistryState)
    (refresh : Refresh registry.refreshPolicy) (collecting : Collecting) :
    RegistryRefreshOutcome :=
  let snapshot : RegistrySnapshot :=
    { provider := registry.providerName, sequence := wrappingAdd state.nextSequence 1
      refreshedAtMs := refresh.nowMs, markets := collecting.markets
      quarantined := collecting.quarantined }
  { snapshot
    selectedUniverse := SelectedUniverse.resolve (some snapshot) registry.selectionPolicy
    degraded := false, attempts := refresh.collection.attempts, error := none }

theorem refreshStep_ok {collecting : Collecting}
    (h : refresh.collection.result = .ok collecting) :
    refreshStep registry state refresh =
      let outcome := goodOutcome registry state refresh collecting
      ({ currentSnapshot := some outcome.snapshot
         currentUniverse := some outcome.selectedUniverse
         lastGoodSnapshot := some outcome.snapshot
         lastGoodUniverse := some outcome.selectedUniverse
         nextSequence := wrappingAdd state.nextSequence 1 }, .ok outcome) := by
  rw [refreshStep, MarketRegistry.endCollection, h]
  rfl

theorem refreshStep_error {err : RegistryProviderError} (hreached : Reached state earlier)
    (h : refresh.collection.result = .error err) :
    refreshStep registry state refresh =
      (state, match earlier.getLast? with
        | some good => .ok
            { good with
              degraded := true, attempts := refresh.collection.attempts
              error := some err.message }
        | none => .error { message := err.message }) := by
  rw [refreshStep, MarketRegistry.endCollection, h]
  simp only [MarketRegistry.storeRefresh, hreached.snapshot, hreached.selectedUniverse]
  cases earlier.getLast? <;> rfl

theorem reached_default : Reached .default [] :=
  ⟨rfl, rfl, rfl, fun _ _ hmem => absurd hmem List.not_mem_nil⟩

theorem Reached.good (h : Reached state earlier) (refresh : Refresh registry.refreshPolicy)
    (collecting : Collecting) :
    (goodOutcome registry state refresh collecting).snapshot.sequence =
      (earlier.length + 1) % wordSize := by
  change wrappingAdd state.nextSequence 1 = _
  rw [h.sequence, wrappingAdd, Nat.mod_add_mod]

theorem Reached.step (h : Reached state earlier) (refresh : Refresh registry.refreshPolicy) :
    Reached (refreshStep registry state refresh).1
      (earlier ++ (succeeded (refreshStep registry state refresh).2).toList) := by
  cases hresult : refresh.collection.result with
  | error err =>
      rw [refreshStep_error h hresult]
      have hnone : ∀ good : Option RegistryRefreshOutcome, succeeded
          (match good with
            | some good => .ok
                { good with
                  degraded := true, attempts := refresh.collection.attempts
                  error := some err.message }
            | none => .error { message := err.message }) = none := by
        rintro (_ | good) <;> rfl
      rw [hnone, Option.toList_none, List.append_nil]
      exact h
  | ok collecting =>
      rw [refreshStep_ok hresult]
      have hgood := h.good refresh collecting
      change Reached _ (earlier ++ [goodOutcome registry state refresh collecting])
      refine ⟨?_, ?_, ?_, ?_⟩
      · rw [List.getLast?_concat]
        rfl
      · rw [List.getLast?_concat]
        rfl
      · rw [List.length_append]
        exact hgood
      · intro hfits good hmem
        rw [List.length_append, List.length_singleton] at hfits ⊢
        rcases List.mem_append.mp hmem with hbefore | hnew
        · exact Nat.le_succ_of_le (h.numbered (by omega) good hbefore)
        · rw [List.mem_singleton.mp hnew, hgood, Nat.mod_eq_of_lt hfits]

variable (registry) in
theorem reached_run (before : List (Refresh registry.refreshPolicy)) :
    Reached (exec (refreshStep registry) .default before)
      (successes (outputs (refreshStep registry) .default before)) := by
  refine run_induction (refreshStep registry) (P := fun _ _ => True)
    (motive := fun _ state results => Reached state (successes results)) reached_default ?_
    before (along_true _ _)
  intro pre state results refresh h _
  rw [successes, List.filterMap_append]
  exact h.step refresh

theorem Reached.kept (h : Reached state earlier) (refresh : Refresh registry.refreshPolicy) :
    Kept registry state earlier refresh (refreshStep registry state refresh).1
      (refreshStep registry state refresh).2 := by
  obtain ⟨htried, hretried, hattempts⟩ := collect_spec refresh.ends
  rw [Nat.zero_add] at hattempts
  refine ⟨refreshOnce_eq registry state refresh, ?_, ?_, ?_, htried, hretried⟩
  · intro collecting hresult
    rw [refreshStep_ok hresult]
    refine ⟨_, rfl, rfl, rfl, rfl, rfl, rfl, rfl, ?_⟩
    intro hfits good hmem
    rw [h.good refresh collecting, Nat.mod_eq_of_lt hfits]
    exact Nat.lt_succ_of_le (h.numbered (by omega) good hmem)
  · intro err hresult
    rw [refreshStep_error h hresult]
    exact ⟨rfl, rfl⟩
  · intro outcome houtcome
    cases hresult : refresh.collection.result with
    | ok collecting =>
        rw [refreshStep_ok hresult] at houtcome
        obtain rfl := Except.ok.inj houtcome
        exact hattempts
    | error err =>
        rw [refreshStep_error h hresult] at houtcome
        split at houtcome
        · obtain rfl := Except.ok.inj houtcome
          exact hattempts
        · exact absurd houtcome (by simp)

end Run

/-- Every refresh of a run succeeds with a fresh snapshot or leaves the registry as it
was. -/
theorem refresh_keeps_registry (registry : MarketRegistry)
    (before : List (Refresh registry.refreshPolicy)) (refresh : Refresh registry.refreshPolicy) :
    let state := exec (refreshStep registry) .default before
    Kept registry state (successes (outputs (refreshStep registry) .default before)) refresh
      (refreshStep registry state refresh).1 (refreshStep registry state refresh).2 :=
  (reached_run registry before).kept refresh

section Wrap

/-- A refresh that gets one empty page. -/
def emptyRefresh : Refresh (fixtureRegistry 2).refreshPolicy :=
  { script := [.ok { markets := [], quarantined := [], nextOffset := none }]
    nowMs := 1
    collection :=
      { fetches :=
          [{ request := { offset := 0, limit := 2 }
             answers := [.ok { markets := [], quarantined := [], nextOffset := none }]
             delays := [], result := .ok { markets := [], quarantined := [], nextOffset := none }
             attempts := 1 }]
        result := .ok .empty
        attempts := 1 }
    ends := rfl }

theorem length_successes_emptyRefresh (count : Nat) :
    (successes (outputs (refreshStep (fixtureRegistry 2)) .default
      (List.replicate count emptyRefresh))).length = count := by
  induction count with
  | zero => rfl
  | succ count ih =>
      rw [List.replicate_succ', outputs_concat, successes, List.filterMap_append,
        List.length_append]
      exact congrArg (· + 1) ih

/-- After as many successes as there are numbers the next one is numbered zero. -/
theorem sequence_starts_again :
    ¬ ∀ (before : List (Refresh (fixtureRegistry 2).refreshPolicy))
        (refresh : Refresh (fixtureRegistry 2).refreshPolicy),
      ∀ good ∈ successes (outputs (refreshStep (fixtureRegistry 2)) .default before),
        ∀ outcome, (refreshStep (fixtureRegistry 2)
          (exec (refreshStep (fixtureRegistry 2)) .default before) refresh).2 = .ok outcome →
            outcome.degraded = false → good.snapshot.sequence < outcome.snapshot.sequence := by
  intro h
  let before := List.replicate (wordSize - 1) emptyRefresh
  let results := successes (outputs (refreshStep (fixtureRegistry 2)) .default before)
  have hcount : results.length = wordSize - 1 := length_successes_emptyRefresh _
  have hreached := reached_run (fixtureRegistry 2) before
  have hsequence := hreached.good emptyRefresh .empty
  rw [hcount] at hsequence
  obtain ⟨good, hgood⟩ : ∃ good, good ∈ results := by
    refine List.exists_mem_of_length_pos ?_
    rw [hcount]
    decide
  have hless := h before emptyRefresh good hgood _ (congrArg Prod.snd (refreshStep_ok rfl)) rfl
  rw [hsequence] at hless
  exact absurd hless (Nat.not_lt_zero _)

end Wrap

end Rtt.RegistryRefresh
