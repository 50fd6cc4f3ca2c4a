import Rtt.PublicEvent
import Rtt.Decimal

namespace Rtt.MarketMessages

open Rtt.Quote
open Rtt.Decimal
open Rtt.PublicEvent

structure ReconnectEvent where
  sequence : Nat
  timestampMs : Nat
  deriving DecidableEq, Repr

structure WsOrderBookLevel where
  price : String
  size : String
  deriving DecidableEq, Repr

structure BookUpdate where
  assetId : String
  market : String
  timestamp : String
  bids : List WsOrderBookLevel
  asks : List WsOrderBookLevel
  hash : Option String
  deriving DecidableEq, Repr

/-- One level of a price change; without a size it is removed. -/
structure PriceChangeBatchEntry where
  assetId : String
  price : String
  size : Option String
  side : Side
  hash : Option String
  bestBid : Option String
  bestAsk : Option String
  deriving DecidableEq, Repr

/-- Several levels that changed at one time. -/
structure PriceChangeEvent where
  market : String
  timestamp : String
  priceChanges : List PriceChangeBatchEntry
  deriving DecidableEq, Repr

structure LastTradePriceEvent where
  assetId : String
  market : String
  price : String
  side : Option Side
  size : Option String
  feeRateBps : Option String
  timestamp : String
  deriving DecidableEq, Repr

structure TickSizeChangeEvent where
  assetId : String
  market : String
  oldTickSize : String
  newTickSize : String
  timestamp : String
  deriving DecidableEq, Repr

structure BestBidAskEvent where
  assetId : String
  market : String
  bestBid : String
  bestAsk : String
  spread : String
  timestamp : String
  deriving DecidableEq, Repr

/-- The messages of the market websocket. -/
inductive WsMessage where
  | book (update : BookUpdate)
  | priceChange (event : PriceChangeEvent)
  | lastTradePrice (lastTrade : LastTradePriceEvent)
  | tickSizeChange (event : TickSizeChangeEvent)
  | bestBidAsk (event : BestBidAskEvent)
  | reconnected (event : ReconnectEvent)
  deriving DecidableEq, Repr

/-- A timestamp text; one that cannot be read counts as zero. -/
def parseTimestampMs (timestamp : String) : Nat := (parseU64 timestamp.toList).getD 0

/-- A notice about an asset, with its timestamp as version. -/
def assetNotice (sourceId : SourceId) (assetId : String) (kind : UpdateKind) (version : Nat)
    (sourceHash : Option String) : UpdateNotice :=
  { sourceId
    sourceKind := .polymarketWs
    subject := .asset sourceId assetId
    kind
    version
    sourceHash }

def bookLevel (level : WsOrderBookLevel) : BookLevel :=
  { price := level.price, size := level.size }

def bookSnapshotOf (book : BookUpdate) : BookSnapshotUpdate :=
  { marketId := book.market
    assetId := book.assetId
    bids := book.bids.map bookLevel
    asks := book.asks.map bookLevel
    timestampMs := parseTimestampMs book.timestamp
    sourceHash := book.hash }

/-- The update of a full book. -/
def bookNormalized (book : BookUpdate) : NormalizedUpdate :=
  { notice := assetNotice publicSourceId book.assetId .bookSnapshot
      (parseTimestampMs book.timestamp) book.hash
    payload := .bookSnapshot (bookSnapshotOf book) }

def bookDeltaOf (priceChange : PriceChangeEvent) (entry : PriceChangeBatchEntry) :
    BookDeltaUpdate :=
  { marketId := priceChange.market
    assetId := entry.assetId
    price := entry.price
    size := entry.size.getD "0"
    side := entry.side
    timestampMs := parseTimestampMs priceChange.timestamp
    bestBid := entry.bestBid
    bestAsk := entry.bestAsk
    sourceHash := entry.hash }

/-- The update of one entry of a price change. -/
def entryNormalized (priceChange : PriceChangeEvent) (entry : PriceChangeBatchEntry) :
    NormalizedUpdate :=
  { notice := assetNotice publicSourceId entry.assetId .bookDelta
      (parseTimestampMs priceChange.timestamp) entry.hash
    payload := .bookDelta (bookDeltaOf priceChange entry) }

/-- `to_normalized_updates`: one update for each entry of a price change. -/
def WsMessage.toNormalizedUpdates : WsMessage → List NormalizedUpdate
  | .book update => [bookNormalized update]
  | .priceChange event => event.priceChanges.map (entryNormalized event)
  | .lastTradePrice lastTrade =>
      let timestampMs := parseTimestampMs lastTrade.timestamp
      [{ notice := assetNotice publicSourceId lastTrade.assetId .tradeTick timestampMs none
         payload := .tradeTick
          { marketId := some lastTrade.market
            assetId := some lastTrade.assetId
            price := lastTrade.price
            size := lastTrade.size
            side := lastTrade.side
            timestampMs } }]
  | .tickSizeChange event =>
      let timestampMs := parseTimestampMs event.timestamp
      [{ notice := assetNotice publicSourceId event.assetId .tickSizeChange
          timestampMs none
         payload := .tickSizeChange
          { marketId := event.market
            assetId := event.assetId
            oldTickSize := event.oldTickSize
            newTickSize := event.newTickSize
            timestampMs } }]
  | .bestBidAsk event =>
      let timestampMs := parseTimestampMs event.timestamp
      [{ notice := assetNotice publicSourceId event.assetId .bestBidAsk timestampMs none
         payload := .bestBidAsk
          { marketId := event.market
            assetId := event.assetId
            bestBid := event.bestBid
            bestAsk := event.bestAsk
            spread := some event.spread
            timestampMs } }]
  | .reconnected event =>
      [{ notice :=
          { sourceId := publicSourceId
            sourceKind := .polymarketWs
            subject := .source publicSourceId
            kind := .reconnect
            version := event.sequence
            sourceHash := none }
         payload := .reconnect
          { sequence := event.sequence, timestampMs := event.timestampMs } }]

/-- The payload belongs to a notice about the given subject of the public feed. -/
def Concerns : NormalizedUpdatePayload → InstrumentRef → Prop
  | .bookSnapshot update, subject => subject = .asset publicSourceId update.assetId
  | .bookDelta update, subject => subject = .asset publicSourceId update.assetId
  | .bestBidAsk update, subject => subject = .asset publicSourceId update.assetId
  | .tickSizeChange update, subject => subject = .asset publicSourceId update.assetId
  | .tradeTick _, subject => ∃ assetId, subject = .asset publicSourceId assetId
  | .reconnect _, subject => subject = .source publicSourceId
  | .referencePrice _, _ | .sourceStatus _, _ => False

/-- An update of one of the kinds that the public feed emits, announced by a
notice of that kind about its own subject. -/
structure FromPublicFeed (update : NormalizedUpdate) : Prop where
  sourceId : update.notice.sourceId = publicSourceId
  sourceKind : update.notice.sourceKind = .polymarketWs
  kind : update.notice.kind = update.payload.kind
  subject : Concerns update.payload update.notice.subject

theorem fromPublicFeed_of_mem {message : WsMessage} {update : NormalizedUpdate}
    (h : update ∈ message.toNormalizedUpdates) : FromPublicFeed update := by
  cases message with
  | priceChange priceChange =>
      simp only [WsMessage.toNormalizedUpdates, List.mem_map] at h
      obtain ⟨entry, -, rfl⟩ := h
      exact ⟨rfl, rfl, rfl, rfl⟩
  | lastTradePrice lastTrade =>
      simp only [WsMessage.toNormalizedUpdates, List.mem_singleton] at h
      subst h
      exact ⟨rfl, rfl, rfl, lastTrade.assetId, rfl⟩
  | book | tickSizeChange | bestBidAsk | reconnected =>
      simp only [WsMessage.toNormalizedUpdates, List.mem_singleton] at h
      subst h
      exact ⟨rfl, rfl, rfl, rfl⟩

end Rtt.MarketMessages
