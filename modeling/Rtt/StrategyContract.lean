import Rtt.HotState

namespace Rtt.StrategyContract

open Rtt.Quote
open Rtt.PublicEvent
open Rtt.HotState

inductive ExecutionMode where
  | trigger
  | quote
  deriving DecidableEq, Repr

inductive IsolationPolicy where
  | sharedFeedAcceptable
  | dedicatedPreferred
  | dedicatedRequired
  deriving DecidableEq, Repr

/-- The kinds of data that a strategy may ask for. -/
inductive StrategyDataRequirementKind where
  | polymarketBbo
  | polymarketDepthTopN (levels : Nat)
  | externalReferencePrice
  | recentTrades
  | rewardMetadata
  | inventory
  | liveOrderState
  deriving DecidableEq, Repr

inductive RequirementSelector where
  | asset (assetId : String)
  | symbol (name : String)
  | market (marketId : String)
  | source (sourceId : String)
  deriving DecidableEq, Repr

structure StrategyDataRequirement where
  kind : StrategyDataRequirementKind
  selector : RequirementSelector
  deriving DecidableEq, Repr

/-- All that a strategy asks for. -/
structure StrategyRequirements where
  executionMode : ExecutionMode
  isolationPolicy : IsolationPolicy
  data : List StrategyDataRequirement
  deriving DecidableEq, Repr

/-- What is held of one asset on one side, as texts. -/
structure InventoryPosition where
  assetId : String
  side : Side
  filledSize : String
  netNotional : String
  updatedAtMs : Nat
  deriving DecidableEq, Repr

structure InventoryDelta where
  assetId : String
  side : Side
  filledSizeDelta : String
  notionalDelta : String
  observedAtMs : Nat
  deriving DecidableEq, Repr

/-- What a strategy is shown for a notice. -/
structure StrategyRuntimeView where
  notice : UpdateNotice
  books : List HotBookState
  references : List HotReferenceState
  inventory : List InventoryPosition
  deriving DecidableEq, Repr

def polymarketBbo (assetId : String) : StrategyDataRequirement :=
  { kind := .polymarketBbo, selector := .asset assetId }

def externalReferencePrice (symbol : String) : StrategyDataRequirement :=
  { kind := .externalReferencePrice, selector := .symbol symbol }

namespace StrategyRequirements

def trigger (data : List StrategyDataRequirement) (isolationPolicy : IsolationPolicy) :
    StrategyRequirements :=
  { executionMode := .trigger, isolationPolicy, data }

def quote (data : List StrategyDataRequirement) (isolationPolicy : IsolationPolicy) :
    StrategyRequirements :=
  { executionMode := .quote, isolationPolicy, data }

end StrategyRequirements

namespace StrategyRuntimeView

/-- The first book of the asset. -/
def book (self : StrategyRuntimeView) (assetId : String) : Option HotBookState :=
  self.books.find? fun book => book.assetId = assetId

def snapshot (self : StrategyRuntimeView) (assetId : String) : Option OrderBookSnapshot :=
  (self.book assetId).map fun book =>
    { assetId := book.assetId
      bestBid := book.bestBid.map bookLevelToSnapshotLevel
      bestAsk := book.bestAsk.map bookLevelToSnapshotLevel
      timestampMs := book.timestampMs
      hash := (book.sourceHash.or book.notice.sourceHash).getD "" }

end StrategyRuntimeView

/-- A strategy over book snapshots, with the state it keeps. -/
structure Strategy (σ : Type*) where
  onBookUpdate : σ → OrderBookSnapshot → σ × Option TriggerMessage

/-- A strategy over runtime views, with the state it keeps. -/
structure TriggerStrategy (σ : Type*) where
  requirements : σ → StrategyRequirements
  onUpdate : σ → StrategyRuntimeView → σ × Option TriggerMessage

end Rtt.StrategyContract
