import Rtt.StrategyRuntime

namespace Rtt.Backtest

open Rtt.Quote
open Rtt.MachineWord
open Rtt.PublicEvent
open Rtt.HotState
open Rtt.StrategyContract
open Rtt.StrategyRuntime

/-- What a replay reports: the triggers fired and how much it has seen. -/
structure BacktestResult where
  triggers : List TriggerMessage
  totalSnapshots : Nat
  totalEvents : Nat
  deriving DecidableEq, Repr

variable {σ : Type*} {F : Type}

section Run

/-- A replay under way over the snapshots of the legacy path. -/
structure SnapshotReplay (σ : Type*) where
  strategy : σ
  triggers : List TriggerMessage

def snapshotStep (strategy : Strategy σ) (replay : SnapshotReplay σ)
    (snapshot : OrderBookSnapshot) : SnapshotReplay σ :=
  let (next, trigger) := strategy.onBookUpdate replay.strategy snapshot
  { strategy := next, triggers := replay.triggers ++ trigger.toList }

/-- `BacktestRunner::run`: the strategy is called on every snapshot in turn. -/
def run (strategy : Strategy σ) (start : σ) (snapshots : List OrderBookSnapshot) :
    BacktestResult :=
  let final := snapshots.foldl (snapshotStep strategy) { strategy := start, triggers := [] }
  { triggers := final.triggers
    totalSnapshots := snapshots.length
    totalEvents := snapshots.length }

end Run

section RunNoticeReplay

/-- A replay under way over notices, with the hot state that they are resolved in. -/
structure NoticeReplay (σ : Type*) where
  store : HotStateStore
  strategy : σ
  triggers : List TriggerMessage
  totalSnapshots : Nat

/-- An update is applied, and the strategy called if its notice projects to a snapshot. -/
def noticeStep (strategy : Strategy σ) (replay : NoticeReplay σ) (update : NormalizedUpdate) :
    NoticeReplay σ :=
  let store := replay.store.applyUpdate update
  match store.projectSnapshot update.notice with
  | none => { replay with store }
  | some snapshot =>
      let (next, trigger) := strategy.onBookUpdate replay.strategy snapshot
      { store
        strategy := next
        triggers := replay.triggers ++ trigger.toList
        totalSnapshots := replay.totalSnapshots + 1 }

/-- The replay of a list of updates over a store with the given markets. -/
def runNoticeReplay (strategy : Strategy σ) (start : σ) (markets : List MarketMeta)
    (updates : List NormalizedUpdate) : BacktestResult :=
  let final := updates.foldl (noticeStep strategy)
    { store := markets.foldl HotStateStore.registerMarket .new
      strategy := start
      triggers := []
      totalSnapshots := 0 }
  { triggers := final.triggers
    totalSnapshots := final.totalSnapshots
    totalEvents := updates.length }

theorem noticeStep_of_snapshot {strategy : Strategy σ} {replay : NoticeReplay σ}
    {update : NormalizedUpdate} {snapshot : OrderBookSnapshot}
    (h : (replay.store.applyUpdate update).projectSnapshot update.notice = some snapshot) :
    noticeStep strategy replay update =
      { store := replay.store.applyUpdate update
        strategy := (strategy.onBookUpdate replay.strategy snapshot).1
        triggers := replay.triggers ++ (strategy.onBookUpdate replay.strategy snapshot).2.toList
        totalSnapshots := replay.totalSnapshots + 1 } := by
  simp only [noticeStep, h]

end RunNoticeReplay

section RunTriggerNoticeReplay

/-- A replay under way that calls a trigger strategy on runtime views. -/
structure TriggerReplay (σ : Type*) where
  store : HotStateStore
  scaffold : SharedRuntimeScaffold
  strategy : σ
  triggers : List TriggerMessage
  totalSnapshots : Nat

/-- An update is applied, and the strategy called if the scaffold resolves a view. -/
def triggerStep (strategy : TriggerStrategy σ) (replay : TriggerReplay σ)
    (update : NormalizedUpdate) : TriggerReplay σ :=
  let store := replay.store.applyUpdate update
  match replay.scaffold.resolveView store update.notice with
  | (scaffold, none) => { replay with store, scaffold }
  | (scaffold, some view) =>
      let (next, trigger) := strategy.onUpdate replay.strategy view
      { store
        scaffold
        strategy := next
        triggers := replay.triggers ++ trigger.toList
        totalSnapshots := replay.totalSnapshots + 1 }

def runTriggerNoticeReplay (strategy : TriggerStrategy σ) (start : σ)
    (markets : List MarketMeta) (updates : List NormalizedUpdate) : BacktestResult :=
  let final := updates.foldl (triggerStep strategy)
    { store := markets.foldl HotStateStore.registerMarket .new
      scaffold := .new (strategy.requirements start)
      strategy := start
      triggers := []
      totalSnapshots := 0 }
  { triggers := final.triggers
    totalSnapshots := final.totalSnapshots
    totalEvents := updates.length }

variable {strategy : TriggerStrategy σ} {replay : TriggerReplay σ} {update : NormalizedUpdate}
  {scaffold : SharedRuntimeScaffold}

theorem triggerStep_of_view {view : StrategyRuntimeView}
    (h : replay.scaffold.resolveView (replay.store.applyUpdate update) update.notice =
      (scaffold, some view)) :
    triggerStep strategy replay update =
      { store := replay.store.applyUpdate update
        scaffold
        strategy := (strategy.onUpdate replay.strategy view).1
        triggers := replay.triggers ++ (strategy.onUpdate replay.strategy view).2.toList
        totalSnapshots := replay.totalSnapshots + 1 } := by
  simp only [triggerStep, h]

theorem triggerStep_of_none
    (h : replay.scaffold.resolveView (replay.store.applyUpdate update) update.notice =
      (scaffold, none)) :
    triggerStep strategy replay update =
      { replay with store := replay.store.applyUpdate update, scaffold } := by
  simp only [triggerStep, h]

end RunTriggerNoticeReplay

/-- The part of a trigger strategy that both strategies share.  `epoch` is the
clock: the nanoseconds it shows when the trigger of an id is made. -/
structure TriggerMaker where
  tokenId : String
  side : Side
  size : String
  orderType : Quote.OrderType
  nextTriggerId : Nat
  epoch : Nat → Nat

/-- A trigger for the configured token at the given price, under the next id. -/
def TriggerMaker.makeTrigger (self : TriggerMaker) (price : String) :
    TriggerMaker × TriggerMessage :=
  let id := self.nextTriggerId
  ({ self with nextTriggerId := wrappingAdd id 1 },
    { triggerId := id
      tokenId := self.tokenId
      side := self.side
      price
      size := self.size
      orderType := self.orderType
      timestampNs := self.epoch id })

/-- The price at which a strategy trades on its side, if it does, given the best
bid and the best ask. -/
abbrev FiringRule := Side → Option PriceLevel → Option PriceLevel → Option String

/-- A strategy over snapshots that fires at the price its rule finds in its own token's book. -/
def firingStrategy (rule : FiringRule) : Strategy TriggerMaker where
  onBookUpdate self snapshot :=
    if snapshot.assetId ≠ self.tokenId then (self, none)
    else
      match rule self.side snapshot.bestBid snapshot.bestAsk with
      | none => (self, none)
      | some price =>
          let (next, trigger) := self.makeTrigger price
          (next, some trigger)

/-- The same rule over runtime views: the view is projected to a snapshot of the token first. -/
def firingTriggerStrategy (rule : FiringRule) : TriggerStrategy TriggerMaker where
  requirements self := .trigger [polymarketBbo self.tokenId] .sharedFeedAcceptable
  onUpdate self view :=
    match view.snapshot self.tokenId with
    | none => (self, none)
    | some snapshot => (firingStrategy rule).onBookUpdate self snapshot

/-- Floating point numbers as the strategies use them, with any laws. -/
structure PriceArithmetic (F : Type) where
  parse : String → Option F
  sub : F → F → F
  le : F → F → Bool
  lt : F → F → Bool

/-- Exact arithmetic in millionths. -/
def millionths : PriceArithmetic Int where
  parse text := (parseScaled text).map Int.ofNat
  sub a b := a - b
  le a b := a ≤ b
  lt a b := a < b

/-- Fires when the best ask drops to the threshold or the best bid rises to it. -/
def thresholdRule (prices : PriceArithmetic F) (threshold : F) : FiringRule
  | .buy, _, bestAsk => do
      let ask ← bestAsk
      let askPrice ← prices.parse ask.price
      if prices.le askPrice threshold then some ask.price else none
  | .sell, bestBid, _ => do
      let bid ← bestBid
      let bidPrice ← prices.parse bid.price
      if prices.le threshold bidPrice then some bid.price else none

/-- Fires when the spread is below the limit. -/
def spreadRule (prices : PriceArithmetic F) (maxSpread : F) : FiringRule :=
  fun side bestBid bestAsk => do
    let bid ← bestBid
    let ask ← bestAsk
    let bidPrice ← prices.parse bid.price
    let askPrice ← prices.parse ask.price
    if prices.lt (prices.sub askPrice bidPrice) maxSpread then
      match side with
      | .buy => some ask.price
      | .sell => some bid.price
    else none

def thresholdStrategy (prices : PriceArithmetic F) (threshold : F) : Strategy TriggerMaker :=
  firingStrategy (thresholdRule prices threshold)

def thresholdTriggerStrategy (prices : PriceArithmetic F) (threshold : F) :
    TriggerStrategy TriggerMaker :=
  firingTriggerStrategy (thresholdRule prices threshold)

def spreadStrategy (prices : PriceArithmetic F) (maxSpread : F) : Strategy TriggerMaker :=
  firingStrategy (spreadRule prices maxSpread)

def spreadTriggerStrategy (prices : PriceArithmetic F) (maxSpread : F) :
    TriggerStrategy TriggerMaker :=
  firingTriggerStrategy (spreadRule prices maxSpread)

/-- A buyer of the asset `yes` with a stopped clock. -/
def buyer : TriggerMaker :=
  { tokenId := "yes", side := .buy, size := "5", orderType := .fok, nextTriggerId := 1
    epoch := fun _ => 0 }

end Rtt.Backtest
