import Rtt.MachineWord
import Rtt.RegistryProvider
import Std.Data.TreeMap.Lemmas
import Std.Data.TreeSet.Lemmas
import Mathlib.Data.String.Basic

namespace Rtt.Registry

open Rtt.MachineWord
open Rtt.PublicEvent (MarketId)
open Rtt.RegistryProvider

structure RegistrySnapshot where
  provider : String
  sequence : Nat
  refreshedAtMs : Nat
  markets : Std.TreeMap MarketId MarketMeta
  quarantined : List QuarantinedMarketRecord

/-- Which markets are to be selected. -/
structure UniverseSelectionPolicy where
  activeOnly : Bool
  requireReward : Bool
  includeMarkets : Std.TreeSet MarketId
  excludeMarkets : Std.TreeSet MarketId
  bypassRegistry : Bool

inductive UniverseDecisionKind where
  | included
  | excluded
  deriving DecidableEq, Repr

inductive UniverseSelectionReason where
  | active
  | explicitInclude
  | explicitExclude
  | inactiveStatus
  | missingReward
  deriving DecidableEq, Repr

structure UniverseDecision where
  marketId : MarketId
  decision : UniverseDecisionKind
  reason : UniverseSelectionReason
  deriving DecidableEq, Repr

inductive UniverseBypassReason where
  | explicitSourceBindings
  deriving DecidableEq, Repr

/-- The markets selected, with the decision on each. -/
structure SelectedUniverse where
  selectedMarketIds : List MarketId
  decisions : List UniverseDecision
  bypassed : Bool
  bypassReason : Option UniverseBypassReason
  deriving DecidableEq, Repr

/-- The rules in their order; the first that applies decides. -/
def UniverseSelectionPolicy.decide (policy : UniverseSelectionPolicy) (marketId : MarketId)
    (market : MarketMeta) : UniverseDecisionKind × UniverseSelectionReason :=
  if policy.excludeMarkets.contains marketId then (.excluded, .explicitExclude)
  else if policy.includeMarkets.contains marketId then (.included, .explicitInclude)
  else if policy.activeOnly && !market.isTradable then (.excluded, .inactiveStatus)
  else if policy.requireReward && market.reward.isNone then (.excluded, .missingReward)
  else (.included, .active)

/-- `SelectedUniverse::resolve`: a policy that bypasses the registry decides on no market. -/
def SelectedUniverse.resolve (snapshot : Option RegistrySnapshot)
    (policy : UniverseSelectionPolicy) : SelectedUniverse :=
  if policy.bypassRegistry then
    { selectedMarketIds := [], decisions := [], bypassed := true
      bypassReason := some .explicitSourceBindings }
  else
    let decisions := match snapshot with
      | none => []
      | some snapshot => snapshot.markets.toList.map fun (marketId, market) =>
          let (decision, reason) := policy.decide marketId market
          { marketId, decision, reason }
    { selectedMarketIds :=
        (decisions.filter fun decided => decided.decision = .included).map
          UniverseDecision.marketId
      decisions
      bypassed := false
      bypassReason := none }

/-- Durations are in nanoseconds. -/
structure RetryPolicy where
  maxRetries : Nat
  initialBackoff : Nat
  maxBackoff : Nat
  deriving DecidableEq, Repr

def durationMax : Nat := wordSize * 10 ^ 9 - 1

/-- The delay before a retry, doubling up to a greatest one. -/
def RetryPolicy.backoffForRetry (self : RetryPolicy) (retryIndex : Nat) : Nat :=
  let shift := retryIndex % 2 ^ 32
  let multiplier := if shift < 32 then 2 ^ shift else 2 ^ 32 - 1
  min (min (self.initialBackoff * multiplier) durationMax) self.maxBackoff

structure RegistryRefreshPolicy where
  pageSize : Nat
  retryPolicy : RetryPolicy
  deriving DecidableEq, Repr

/-- What the provider answers to a fetch call. -/
abbrev Answer := Except RegistryProviderError RegistryPage

/-- A page request with the answers to its fetch calls and the delays between them. -/
structure PageFetch where
  request : RegistryPageRequest
  answers : List Answer
  delays : List Nat
  result : Answer
  attempts : Nat

/-- The request over the answers that are still to come, none when they run out
before it ends. -/
def fetchPageWithRetry (policy : RetryPolicy) (request : RegistryPageRequest) :
    Nat → Nat → List Answer → Option (PageFetch × List Answer)
  | _, _, [] => none
  | _, attempts, .ok page :: script =>
      some
        ({ request, answers := [.ok page], delays := [], result := .ok page
           attempts := wrappingAdd attempts 1 }, script)
  | retries, attempts, .error err :: script =>
      if err.isRetryable && retries < policy.maxRetries then
        (fetchPageWithRetry policy request (retries + 1) (wrappingAdd attempts 1) script).map
          fun (fetch, script) =>
            ({ fetch with
                answers := .error err :: fetch.answers
                delays := policy.backoffForRetry retries :: fetch.delays }, script)
      else
        some
          ({ request, answers := [.error err], delays := [], result := .error err
             attempts := wrappingAdd attempts 1 }, script)

/-- What a refresh has collected. -/
structure Collecting where
  markets : Std.TreeMap MarketId MarketMeta
  quarantined : List QuarantinedMarketRecord
  offset : Nat

def Collecting.empty : Collecting := { markets := ∅, quarantined := [], offset := 0 }

/-- A market that comes twice is kept as it came last. -/
def insertMarket (markets : Std.TreeMap MarketId MarketMeta) (market : MarketMeta) :
    Std.TreeMap MarketId MarketMeta :=
  markets.insert market.marketId market

def Collecting.addPage (self : Collecting) (page : RegistryPage) : Collecting :=
  { self with
    markets := page.markets.foldl insertMarket self.markets
    quarantined := self.quarantined ++ page.quarantined }

/-- How the page loop ends, and the page requests that it made. -/
structure Collection where
  fetches : List PageFetch
  result : Except RegistryProviderError Collecting
  attempts : Nat

/-- How often the provider was called. -/
def Collection.fetchCalls (self : Collection) : Nat :=
  (self.fetches.flatMap PageFetch.answers).length

/-- The page loop, for at most as many pages as the bound says. -/
def collectPages (policy : RegistryRefreshPolicy) :
    Nat → Collecting → Nat → List Answer → Option Collection
  | 0, _, _, _ => none
  | bound + 1, collecting, attempts, script => do
      let request := { offset := collecting.offset, limit := policy.pageSize }
      let (fetch, script) ← fetchPageWithRetry policy.retryPolicy request 0 attempts script
      match fetch.result with
      | .error err =>
          some { fetches := [fetch], result := .error err, attempts := fetch.attempts }
      | .ok page =>
          let collecting := collecting.addPage page
          match page.nextOffset with
          | none =>
              some { fetches := [fetch], result := .ok collecting, attempts := fetch.attempts }
          | some offset =>
              (collectPages policy bound { collecting with offset } fetch.attempts script).map
                fun collection => { collection with fetches := fetch :: collection.fetches }

/-- The page loop over the answers of the provider, none when they run out before
it ends.  Every page takes an answer at least. -/
def collect (policy : RegistryRefreshPolicy) (script : List Answer) : Option Collection :=
  collectPages policy script.length .empty 0 script

/-- What a refresh returns; a degraded one answers with old data. -/
structure RegistryRefreshOutcome where
  snapshot : RegistrySnapshot
  selectedUniverse : SelectedUniverse
  degraded : Bool
  attempts : Nat
  error : Option String

structure RegistryRefreshError where
  message : String
  deriving DecidableEq, Repr

/-- What the registry keeps between refreshes. -/
structure RegistryState where
  currentSnapshot : Option RegistrySnapshot
  currentUniverse : Option SelectedUniverse
  lastGoodSnapshot : Option RegistrySnapshot
  lastGoodUniverse : Option SelectedUniverse
  nextSequence : Nat

def RegistryState.default : RegistryState :=
  { currentSnapshot := none, currentUniverse := none, lastGoodSnapshot := none
    lastGoodUniverse := none, nextSequence := 0 }

structure MarketRegistry where
  providerName : String
  refreshPolicy : RegistryRefreshPolicy
  selectionPolicy : UniverseSelectionPolicy

namespace MarketRegistry

variable (self : MarketRegistry)

/-- What `collect_snapshot` does after its page loop: in a critical section of its
own the snapshot takes the next sequence number. -/
def endCollection (state : RegistryState) (collection : Collection) (nowMs : Nat) :
    RegistryState × Except (RegistryProviderError × Nat) (RegistrySnapshot × Nat) :=
  match collection.result with
  | .ok collecting =>
      let sequence := wrappingAdd state.nextSequence 1
      ({ state with nextSequence := sequence },
        .ok
          ({ provider := self.providerName, sequence, refreshedAtMs := nowMs
             markets := collecting.markets, quarantined := collecting.quarantined },
            collection.attempts))
  | .error err => (state, .error (err, collection.attempts))

/-- `collect_snapshot`: nothing as long as the answers do not end the refresh. -/
def collectSnapshot (state : RegistryState) (script : List Answer) (nowMs : Nat) :
    Option (RegistryState × Except (RegistryProviderError × Nat) (RegistrySnapshot × Nat)) :=
  (collect self.refreshPolicy script).map fun collection =>
    self.endCollection state collection nowMs

/-- What `refresh_once` does with the snapshot or the error, in a later critical
section. -/
def storeRefresh (state : RegistryState) :
    Except (RegistryProviderError × Nat) (RegistrySnapshot × Nat) →
      RegistryState × Except RegistryRefreshError RegistryRefreshOutcome
  | .ok (snapshot, attempts) =>
      let selectedUniverse := SelectedUniverse.resolve (some snapshot) self.selectionPolicy
      ({ state with
          currentSnapshot := some snapshot
          currentUniverse := some selectedUniverse
          lastGoodSnapshot := some snapshot
          lastGoodUniverse := some selectedUniverse },
        .ok { snapshot, selectedUniverse, degraded := false, attempts, error := none })
  | .error (err, attempts) =>
      (state,
        match state.lastGoodSnapshot, state.lastGoodUniverse with
        | some snapshot, some selectedUniverse =>
            .ok { snapshot, selectedUniverse, degraded := true, attempts
                  error := some err.message }
        | _, _ => .error { message := err.message })

/-- `refresh_once` over the answers that the provider gives. -/
def refreshOnce (state : RegistryState) (script : List Answer) (nowMs : Nat) :
    Option (RegistryState × Except RegistryRefreshError RegistryRefreshOutcome) :=
  (self.collectSnapshot state script nowMs).map fun (state, collected) =>
    self.storeRefresh state collected

end MarketRegistry

section Fetch

variable {policy : RetryPolicy} {request : RegistryPageRequest} {retries attempts : Nat}
  {script rest : List Answer} {fetch : PageFetch}

/-- A fetch call is followed by another one for the same page only after a transient
error. -/
def PageFetch.Retried (fetch : PageFetch) : Prop :=
  ∃ failed, fetch.answers = failed ++ [fetch.result] ∧
    ∀ answer ∈ failed, ∃ message, answer = .error (.transient message)

theorem wrappingAdd_mod (a b c : Nat) :
    (wrappingAdd a b + c) % wordSize = (a + (b + c)) % wordSize := by
  rw [wrappingAdd, Nat.mod_add_mod, Nat.add_assoc]

/-- The answers that a page request reads, how often it is tried and what it ends with. -/
structure FetchSpec (policy : RetryPolicy) (request : RegistryPageRequest)
    (retries attempts : Nat) (script rest : List Answer) (fetch : PageFetch) : Prop where
  request_eq : fetch.request = request
  read : script = fetch.answers ++ rest
  retried : fetch.Retried
  tried : fetch.answers.length ≤ policy.maxRetries - retries + 1
  attempts_eq : fetch.attempts = (attempts + fetch.answers.length) % wordSize

theorem FetchSpec.last (answer : Answer) (rest : List Answer) :
    FetchSpec policy request retries attempts (answer :: rest) rest
      { request, answers := [answer], delays := [], result := answer
        attempts := wrappingAdd attempts 1 } := by
  refine ⟨rfl, rfl, ⟨[], rfl, by simp⟩, ?_, rfl⟩
  exact Nat.le_add_left 1 _

theorem FetchSpec.retry (h : FetchSpec policy request (retries + 1) (wrappingAdd attempts 1)
    script rest fetch) (hretries : retries < policy.maxRetries) (message : String) :
    FetchSpec policy request retries attempts (.error (.transient message) :: script) rest
      { fetch with
          answers := .error (.transient message) :: fetch.answers
          delays := policy.backoffForRetry retries :: fetch.delays } := by
  obtain ⟨hrequest, hread, ⟨failed, hanswers, hfailed⟩, htried, hattempts⟩ := h
  refine ⟨hrequest, congrArg _ hread, ⟨.error (.transient message) :: failed, ?_, ?_⟩, ?_, ?_⟩
  · exact congrArg _ hanswers
  · rw [List.forall_mem_cons]
    exact ⟨⟨message, rfl⟩, hfailed⟩
  · simp only [List.length_cons]
    omega
  · simp only [List.length_cons]
    rw [hattempts, wrappingAdd_mod, Nat.add_comm 1]

theorem fetchPageWithRetry_spec
    (h : fetchPageWithRetry policy request retries attempts script = some (fetch, rest)) :
    FetchSpec policy request retries attempts script rest fetch := by
  induction script generalizing retries attempts fetch with
  | nil => exact absurd h (by simp [fetchPageWithRetry])
  | cons answer script ih =>
      rcases answer with err | page
      · simp only [fetchPageWithRetry, Bool.and_eq_true, decide_eq_true_eq] at h
        split at h
        · rename_i hagain
          obtain ⟨hretryable, hretries⟩ := hagain
          obtain ⟨⟨fetch', rest'⟩, hfetch, heq⟩ := Option.map_eq_some_iff.mp h
          obtain ⟨rfl, rfl⟩ := Prod.mk.inj heq
          rcases err with message | message
          · exact (ih hfetch).retry hretries message
          · exact absurd hretryable Bool.false_ne_true
        · obtain ⟨rfl, rfl⟩ := Prod.mk.inj (Option.some.inj h)
          exact .last _ _
      · obtain ⟨rfl, rfl⟩ := Prod.mk.inj (Option.some.inj h)
        exact .last _ _

end Fetch

section Collect

variable {policy : RegistryRefreshPolicy} {bound attempts : Nat} {collecting : Collecting}
  {script : List Answer} {collection : Collection}

theorem collectPages_cases
    (h : collectPages policy (bound + 1) collecting attempts script = some collection) :
    ∃ fetch rest,
      fetchPageWithRetry policy.retryPolicy
        { offset := collecting.offset, limit := policy.pageSize } 0 attempts script =
          some (fetch, rest) ∧
      ((∃ err, fetch.result = .error err ∧
          collection = { fetches := [fetch], result := .error err, attempts := fetch.attempts }) ∨
        (∃ page, fetch.result = .ok page ∧ page.nextOffset = none ∧
          collection =
            { fetches := [fetch], result := .ok (collecting.addPage page)
              attempts := fetch.attempts }) ∨
        ∃ page offset later, fetch.result = .ok page ∧ page.nextOffset = some offset ∧
          collectPages policy bound { collecting.addPage page with offset } fetch.attempts rest =
            some later ∧
          collection = { later with fetches := fetch :: later.fetches }) := by
  obtain ⟨⟨fetch, rest⟩, hfetch, h⟩ := Option.bind_eq_some_iff.mp h
  refine ⟨fetch, rest, hfetch, ?_⟩
  cases hresult : fetch.result with
  | error err =>
      simp only [hresult] at h
      exact .inl ⟨err, rfl, (Option.some.inj h).symm⟩
  | ok page =>
      simp only [hresult] at h
      cases hnext : page.nextOffset with
      | none =>
          simp only [hnext] at h
          exact .inr (.inl ⟨page, rfl, hnext, (Option.some.inj h).symm⟩)
      | some offset =>
          simp only [hnext] at h
          obtain ⟨later, hlater, heq⟩ := Option.map_eq_some_iff.mp h
          exact .inr (.inr ⟨page, offset, later, rfl, hnext, hlater, heq.symm⟩)

/-- The page requests stay within the retries, and the attempts count their fetch
calls. -/
structure CollectSpec (policy : RegistryRefreshPolicy) (attempts : Nat) (collection : Collection) :
    Prop where
  tried : ∀ fetch ∈ collection.fetches,
    fetch.answers.length ≤ policy.retryPolicy.maxRetries + 1
  retried : ∀ fetch ∈ collection.fetches, fetch.Retried
  attempts_eq : collection.attempts = (attempts + collection.fetchCalls) % wordSize

theorem collectPages_spec
    (h : collectPages policy bound collecting attempts script = some collection) :
    CollectSpec policy attempts collection := by
  induction bound generalizing collecting attempts script collection with
  | zero => exact absurd h (by simp [collectPages])
  | succ bound ih =>
      obtain ⟨fetch, rest, hfetch, hend⟩ := collectPages_cases h
      obtain ⟨-, -, hretried, htried, hattempts⟩ := fetchPageWithRetry_spec hfetch
      have hlast : ∀ result, CollectSpec policy attempts
          { fetches := [fetch], result, attempts := fetch.attempts } := by
        intro result
        refine ⟨?_, ?_, ?_⟩
        · simpa using htried
        · simpa using hretried
        · simpa [Collection.fetchCalls] using hattempts
      obtain ⟨err, -, rfl⟩ | ⟨page, -, -, rfl⟩ | ⟨page, offset, later, -, -, hlater, rfl⟩ := hend
      · exact hlast _
      · exact hlast _
      · obtain ⟨htriedLater, hretriedLater, hattemptsLater⟩ := ih hlater
        refine ⟨?_, ?_, ?_⟩
        · exact List.forall_mem_cons.mpr ⟨htried, htriedLater⟩
        · exact List.forall_mem_cons.mpr ⟨hretried, hretriedLater⟩
        · simp only [Collection.fetchCalls, List.flatMap_cons, List.length_append]
          rw [hattemptsLater, hattempts, Nat.mod_add_mod, Nat.add_assoc]
          rfl

theorem collect_spec (h : collect policy script = some collection) :
    CollectSpec policy 0 collection :=
  collectPages_spec h

end Collect

/-- The registry that the runs on fixed answers are about. -/
def fixtureRegistry (pageSize : Nat) : MarketRegistry :=
  { providerName := "fixture-registry"
    refreshPolicy :=
      { pageSize
        retryPolicy := { maxRetries := 2, initialBackoff := 50000000, maxBackoff := 200000000 } }
    selectionPolicy :=
      { activeOnly := false, requireReward := false, includeMarkets := ∅, excludeMarkets := ∅
        bypassRegistry := false } }

end Rtt.Registry
