import Rtt.Quote

namespace Rtt.PublicEvent

open Rtt.Quote

@[ext]
structure SourceId where
  value : String
  deriving DecidableEq, Repr

inductive SourceKind where
  | polymarketWs
  | polymarketRest
  | externalReference
  | externalTrade
  | synthetic
  deriving DecidableEq, Repr

inductive InstrumentKind where
  | source
  | market
  | asset
  | symbol
  deriving DecidableEq, Repr

/-- The name that `{:?}` prints. -/
def InstrumentKind.debugName : InstrumentKind → String
  | .source => "Source"
  | .market => "Market"
  | .asset => "Asset"
  | .symbol => "Symbol"

theorem InstrumentKind.debugName_injective : Function.Injective InstrumentKind.debugName := by
  intro a b h
  cases a <;> cases b <;> first | rfl | exact absurd h (by decide)

/-- What an update is about, named by its source. -/
structure InstrumentRef where
  sourceId : SourceId
  kind : InstrumentKind
  instrumentId : String
  deriving DecidableEq, Repr

namespace InstrumentRef

def asset (sourceId : SourceId) (instrumentId : String) : InstrumentRef :=
  { sourceId, kind := .asset, instrumentId }

def market (sourceId : SourceId) (instrumentId : String) : InstrumentRef :=
  { sourceId, kind := .market, instrumentId }

def symbol (sourceId : SourceId) (instrumentId : String) : InstrumentRef :=
  { sourceId, kind := .symbol, instrumentId }

/-- The source itself as a subject. -/
def source (sourceId : SourceId) : InstrumentRef :=
  { sourceId, kind := .source, instrumentId := "_source" }

end InstrumentRef

def publicSourceId : SourceId := ⟨"polymarket-public"⟩

-- The exact-value wrappers of the market data model are transparent strings.
abbrev MarketId := String

abbrev AssetId := String

abbrev Price := String

abbrev Size := String

abbrev Notional := String

abbrev TickSize := String

abbrev MinOrderSize := String

inductive OutcomeSide where
  | yes
  | no
  deriving DecidableEq, Repr

/-- The asset that pays on one outcome. -/
structure OutcomeToken where
  assetId : AssetId
  side : OutcomeSide
  deriving DecidableEq, Repr

/-- What the hot state needs of a market. -/
structure MarketMeta where
  marketId : MarketId
  yesAsset : OutcomeToken
  noAsset : OutcomeToken
  tickSize : TickSize
  minOrderSize : Option MinOrderSize
  deriving DecidableEq, Repr

inductive UpdateKind where
  | bookSnapshot
  | bookDelta
  | bestBidAsk
  | tradeTick
  | referencePrice
  | tickSizeChange
  | reconnect
  | sourceStatus
  | custom
  deriving DecidableEq, Repr

/-- The announcement of an update; its version is a timestamp or a sequence number. -/
structure UpdateNotice where
  sourceId : SourceId
  sourceKind : SourceKind
  subject : InstrumentRef
  kind : UpdateKind
  version : Nat
  sourceHash : Option String
  deriving DecidableEq, Repr

structure BookLevel where
  price : Price
  size : Size
  deriving DecidableEq, Repr

structure BookSnapshotUpdate where
  marketId : MarketId
  assetId : AssetId
  bids : List BookLevel
  asks : List BookLevel
  timestampMs : Nat
  sourceHash : Option String
  deriving DecidableEq, Repr

/-- One level that has changed, with the best prices after it where they are told. -/
structure BookDeltaUpdate where
  marketId : MarketId
  assetId : AssetId
  price : Price
  size : Size
  side : Side
  timestampMs : Nat
  bestBid : Option Price
  bestAsk : Option Price
  sourceHash : Option String
  deriving DecidableEq, Repr

structure BestBidAskUpdate where
  marketId : MarketId
  assetId : AssetId
  bestBid : Price
  bestAsk : Price
  spread : Option Price
  timestampMs : Nat
  deriving DecidableEq, Repr

/-- A trade, which need not name its asset. -/
structure TradeTickUpdate where
  marketId : Option MarketId
  assetId : Option AssetId
  price : Price
  size : Option Size
  side : Option Side
  timestampMs : Nat
  deriving DecidableEq, Repr

structure ReferencePriceUpdate where
  price : Price
  notional : Option Notional
  timestampMs : Nat
  deriving DecidableEq, Repr

structure TickSizeChangeUpdate where
  marketId : MarketId
  assetId : AssetId
  oldTickSize : TickSize
  newTickSize : TickSize
  timestampMs : Nat
  deriving DecidableEq, Repr

/-- The source has lost its connection and has it again. -/
structure ReconnectUpdate where
  sequence : Nat
  timestampMs : Nat
  deriving DecidableEq, Repr

structure SourceStatusUpdate where
  healthy : Bool
  staleAfterMs : Option Nat
  observedAtMs : Nat
  detail : Option String
  deriving DecidableEq, Repr

inductive NormalizedUpdatePayload where
  | bookSnapshot (update : BookSnapshotUpdate)
  | bookDelta (update : BookDeltaUpdate)
  | bestBidAsk (update : BestBidAskUpdate)
  | tradeTick (update : TradeTickUpdate)
  | referencePrice (update : ReferencePriceUpdate)
  | tickSizeChange (update : TickSizeChangeUpdate)
  | reconnect (update : ReconnectUpdate)
  | sourceStatus (update : SourceStatusUpdate)
  deriving DecidableEq, Repr

/-- An update: its announcement and its data. -/
structure NormalizedUpdate where
  notice : UpdateNotice
  payload : NormalizedUpdatePayload
  deriving DecidableEq, Repr

def NormalizedUpdatePayload.kind : NormalizedUpdatePayload → UpdateKind
  | .bookSnapshot _ => .bookSnapshot
  | .bookDelta _ => .bookDelta
  | .bestBidAsk _ => .bestBidAsk
  | .tradeTick _ => .tradeTick
  | .referencePrice _ => .referencePrice
  | .tickSizeChange _ => .tickSizeChange
  | .reconnect _ => .reconnect
  | .sourceStatus _ => .sourceStatus

structure PriceLevel where
  price : String
  size : String
  deriving DecidableEq, Repr

/-- The best levels of one asset in the legacy path. -/
structure OrderBookSnapshot where
  assetId : String
  bestBid : Option PriceLevel
  bestAsk : Option PriceLevel
  timestampMs : Nat
  hash : String
  deriving DecidableEq, Repr

end Rtt.PublicEvent
