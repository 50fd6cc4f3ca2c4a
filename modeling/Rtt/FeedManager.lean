import Rtt.FeedBooks
import Rtt.SubscriptionPlan

namespace Rtt.FeedManager

open Rtt.Machine
open Rtt.PartialMap
open Rtt.PublicEvent
open Rtt.MarketMessages
open Rtt.OrderBook
open Rtt.Feed
open Rtt.FeedBooks
open Rtt.SubscriptionPlan
open Rtt.WsClient (isReconnected)

/-- The subscriptions of a websocket client, one call after another. -/
structure ClientSubscriptions where
  desiredAssetIds : Std.TreeSet String
  plannerConfig : SubscriptionPlannerConfig
  issuedCommands : List SubscriptionCommand

namespace ClientSubscriptions

variable (self : ClientSubscriptions)

def new (assetIds : List String) (plannerConfig : SubscriptionPlannerConfig) :
    ClientSubscriptions :=
  { desiredAssetIds := Std.TreeSet.ofList assetIds, plannerConfig, issuedCommands := [] }

/-- The desired assets that fall to the configured shard. -/
def assignedAssetIds : List String :=
  assignedAssetIdsForConfig self.desiredAssetIds self.plannerConfig

/-- The desired set is replaced, and the commands that lead there are planned. -/
def reconfigureAssets (assetIds : List String) :
    ClientSubscriptions × List SubscriptionCommand :=
  let currentAssetIds := Std.TreeSet.ofList self.assignedAssetIds
  let desiredAssetIds := Std.TreeSet.ofList assetIds
  let commands := planSubscriptionCommands currentAssetIds desiredAssetIds self.plannerConfig
  ({ self with desiredAssetIds, issuedCommands := self.issuedCommands ++ commands }, commands)

end ClientSubscriptions

/-- The manager: its assets, its client and its stores. -/
structure PolymarketFeedManager where
  sourceId : SourceId
  assetIds : List String
  subscriptionPlanner : SubscriptionPlannerConfig
  wsClient : ClientSubscriptions
  stores : FeedStores

namespace PolymarketFeedManager

variable (self : PolymarketFeedManager)

/-- A manager takes the assets of its shard. -/
def withSubscriptionPlanner (sourceId : SourceId) (assetIds : List String)
    (subscriptionPlanner : SubscriptionPlannerConfig) : PolymarketFeedManager :=
  let desiredAssetIds := Std.TreeSet.ofList assetIds
  { sourceId
    assetIds := assignedAssetIdsForConfig desiredAssetIds subscriptionPlanner
    subscriptionPlanner
    wsClient := .new desiredAssetIds.toList subscriptionPlanner
    stores := .new }

def processMessage (message : WsMessage) : PolymarketFeedManager × List Published :=
  let (stores, published) := Feed.processMessage self.sourceId self.stores message
  ({ self with stores }, published)

/-- The assets unsubscribed leave the stores one by one. -/
def clearAssets (removes : List String) : FeedStores :=
  removes.foldl (fun stores assetId => stores.clearAsset self.sourceId assetId) self.stores

/-- The call, and whether it changed anything. -/
def reconfigureAssets (assetIds : List String) : PolymarketFeedManager × Bool :=
  let desiredAssetIds := Std.TreeSet.ofList assetIds
  let currentAssetIds := Std.TreeSet.ofList self.assetIds
  let nextAssetIds := assignedAssetIdsForConfig desiredAssetIds self.subscriptionPlanner
  let nextAssetSet := Std.TreeSet.ofList nextAssetIds
  if currentAssetIds.toList = nextAssetSet.toList then (self, false)
  else
    let diff := planSubscriptionDiff currentAssetIds nextAssetSet
    ({ self with
        stores := self.clearAssets diff.removes
        assetIds := nextAssetIds
        wsClient := (self.wsClient.reconfigureAssets desiredAssetIds.toList).1 }, true)

end PolymarketFeedManager

/-- What reaches a manager: a call or a message, also one sent before the call
that unsubscribed its asset. -/
inductive ManagerInput where
  | reconfigureAssets (assetIds : List String)
  | message (message : WsMessage)

def managerStep (manager : PolymarketFeedManager) :
    ManagerInput → PolymarketFeedManager × List Published
  | .reconfigureAssets assetIds => ((manager.reconfigureAssets assetIds).1, [])
  | .message message => manager.processMessage message

/-- Only assigned assets have a book. -/
def Scoped (manager : PolymarketFeedManager) : Prop :=
  ∀ assetId, manager.stores.orderBooks.books assetId ≠ none → assetId ∈ manager.assetIds

/-- A message builds books for assigned assets only. -/
def InScope (manager : PolymarketFeedManager) : ManagerInput → Prop
  | .reconfigureAssets _ => True
  | .message message => ∀ assetId, Builds assetId message → assetId ∈ manager.assetIds

section Scope

variable {manager : PolymarketFeedManager}

theorem books_clearAssets (removes : List String) (assetId : String) :
    (manager.clearAssets removes).orderBooks.books assetId =
      if assetId ∈ removes then none else manager.stores.orderBooks.books assetId := by
  have hclear : ∀ (stores : FeedStores) (removed : String),
      (stores.clearAsset manager.sourceId removed).orderBooks.books assetId =
        if assetId = removed then none else stores.orderBooks.books assetId :=
    fun stores removed => erase_apply stores.orderBooks.books removed assetId
  rw [PolymarketFeedManager.clearAssets,
    lookup_foldl_clear (f := fun stores : FeedStores => stores.orderBooks.books assetId) hclear]
  simp only [exists_eq_right']

theorem books_clearAssets_eq_none_iff (removes : List String) (assetId : String) :
    (manager.clearAssets removes).orderBooks.books assetId = none ↔
      assetId ∈ removes ∨ manager.stores.orderBooks.books assetId = none := by
  rw [books_clearAssets, ite_eq_left_iff]
  tauto

theorem scoped_reconfigureAssets (h : Scoped manager) (assetIds : List String) :
    Scoped (manager.reconfigureAssets assetIds).1 := by
  simp only [PolymarketFeedManager.reconfigureAssets]
  split
  · exact h
  · intro assetId hbook
    have hclear := (books_clearAssets_eq_none_iff _ assetId).not.mp hbook
    rw [not_or] at hclear
    obtain ⟨hkept, hbefore⟩ := hclear
    by_contra hnext
    refine hkept (List.mem_filter.mpr ⟨?_, ?_⟩)
    · rw [Std.TreeSet.mem_toList, Std.TreeSet.mem_ofList, List.contains_iff_mem]
      exact h assetId hbefore
    · rw [Bool.not_eq_true', ← Bool.not_eq_true, Std.TreeSet.contains_iff_mem,
        Std.TreeSet.mem_ofList, List.contains_iff_mem]
      exact hnext

theorem scoped_processMessage_iff (h : Scoped manager) (message : WsMessage) :
    Scoped (manager.processMessage message).1 ↔
      ∀ assetId, Builds assetId message → assetId ∈ manager.assetIds := by
  have hbooks : ∀ assetId,
      (manager.processMessage message).1.stores.orderBooks.books assetId = none ↔
        ¬ Builds assetId message ∧ (isReconnected message = true ∨
          manager.stores.orderBooks.books assetId = none) :=
    fun assetId => books_processMessage_eq_none_iff manager.sourceId manager.stores message
  constructor
  · intro hscoped assetId hbuilds
    exact hscoped assetId fun hnone => ((hbooks assetId).mp hnone).1 hbuilds
  · intro hassigned assetId hbook
    by_contra hnot
    refine hbook ((hbooks assetId).mpr ⟨fun hbuilds => hnot (hassigned assetId hbuilds), .inr ?_⟩)
    by_contra hbefore
    exact hnot (h assetId hbefore)

end Scope

/-- Every state of a run keeps books for assigned assets only exactly when no
message of it builds a book for another one. -/
theorem store_scope_iff (sourceId : SourceId) (assetIds : List String)
    (subscriptionPlanner : SubscriptionPlannerConfig) (inputs : List ManagerInput) :
    (∀ pre, pre <+: inputs → ∀ assetId,
      let manager := exec managerStep
        (.withSubscriptionPlanner sourceId assetIds subscriptionPlanner) pre
      manager.stores.orderBooks.books assetId ≠ none → assetId ∈ manager.assetIds) ↔
      Along managerStep InScope (.withSubscriptionPlanner sourceId assetIds subscriptionPlanner)
        inputs := by
  refine forall_prefix_iff_along (I := Scoped) (J := fun _ => True) (fun _ _ _ _ => trivial) ?_
    trivial ?_
  · rintro manager (next | message) - - hscoped
    · exact iff_of_true (scoped_reconfigureAssets hscoped next) trivial
    · exact scoped_processMessage_iff hscoped message
  · intro assetId hbook
    exact absurd rfl hbook

/-- A price change for an asset that was just unsubscribed. -/
def lateChange : List ManagerInput :=
  [.reconfigureAssets ["asset-2"],
    .message (.priceChange
      { market := "market-1"
        timestamp := "1700000001000"
        priceChanges :=
          [{ assetId := "asset-1", price := "0.43", size := some "200", side := .buy
             hash := none, bestBid := none, bestAsk := none }] })]

theorem late_change_rebuilds_book :
    let manager := exec managerStep
      (.withSubscriptionPlanner publicSourceId ["asset-1"] .default) lateChange
    ¬ ∀ assetId, manager.stores.orderBooks.books assetId ≠ none → assetId ∈ manager.assetIds := by
  intro manager hscoped
  have hassigned : "asset-1" ∈ manager.assetIds := by
    refine hscoped "asset-1" fun hnone => ?_
    exact ((books_processMessage_eq_none_iff _ _ _).mp hnone).1 ⟨_, List.mem_singleton.mpr rfl, rfl⟩
  exact absurd hassigned (by decide +kernel)

end Rtt.FeedManager
