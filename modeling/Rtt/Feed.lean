import Rtt.Machine
import Rtt.OrderBook

namespace Rtt.Feed

open Rtt.Machine
open Rtt.PartialMap
open Rtt.PublicEvent
open Rtt.MarketMessages
open Rtt.OrderBook

/-- Subjects of one kind, source and id share an entry of the store. -/
structure ReferenceStoreKey where
  sourceId : SourceId
  instrumentKind : String
  instrumentId : String
  deriving DecidableEq, Repr

def ReferenceStoreKey.forSubject (subject : InstrumentRef) : ReferenceStoreKey :=
  { sourceId := subject.sourceId
    instrumentKind := subject.kind.debugName
    instrumentId := subject.instrumentId }

/-- What is kept of one subject: the last notice, and the last payload of each kind. -/
structure ReferenceState where
  lastNotice : Option UpdateNotice
  lastReferencePrice : Option ReferencePriceUpdate
  lastTradeTick : Option TradeTickUpdate
  lastBestBidAsk : Option BestBidAskUpdate
  lastTickSizeChange : Option TickSizeChangeUpdate
  lastSourceStatus : Option SourceStatusUpdate
  lastReconnect : Option ReconnectUpdate
  deriving DecidableEq, Repr

namespace ReferenceState

def empty : ReferenceState :=
  { lastNotice := none
    lastReferencePrice := none
    lastTradeTick := none
    lastBestBidAsk := none
    lastTickSizeChange := none
    lastSourceStatus := none
    lastReconnect := none }

/-- The payload takes its place; books are kept elsewhere. -/
def record (self : ReferenceState) : NormalizedUpdatePayload → ReferenceState
  | .referencePrice update => { self with lastReferencePrice := some update }
  | .tradeTick update => { self with lastTradeTick := some update }
  | .bestBidAsk update => { self with lastBestBidAsk := some update }
  | .tickSizeChange update => { self with lastTickSizeChange := some update }
  | .sourceStatus update => { self with lastSourceStatus := some update }
  | .reconnect update => { self with lastReconnect := some update }
  | .bookSnapshot _ | .bookDelta _ => self

end ReferenceState

structure ReferenceStore where
  state : KeyMap ReferenceStoreKey ReferenceState

namespace ReferenceStore

def new : ReferenceStore := { state := empty }

/-- `apply_update`: the entry of the subject is made if it is missing. -/
def applyUpdate (self : ReferenceStore) (update : NormalizedUpdate) : ReferenceStore :=
  let key := ReferenceStoreKey.forSubject update.notice.subject
  let entry := (self.state key).getD .empty
  { self with
    state := insert self.state key
      ({ entry with lastNotice := some update.notice }.record update.payload) }

def resolveSubject (self : ReferenceStore) (subject : InstrumentRef) : Option ReferenceState :=
  self.state (.forSubject subject)

def clearSource (self : ReferenceStore) (sourceId : SourceId) : ReferenceStore :=
  { self with state := retain self.state fun key => key.sourceId ≠ sourceId }

/-- One subject of a source is forgotten. -/
def clearInstrument (self : ReferenceStore) (sourceId : SourceId) (kind : InstrumentKind)
    (instrumentId : String) : ReferenceStore :=
  { self with
    state := retain self.state fun key =>
      !(key.sourceId = sourceId ∧ key.instrumentKind = kind.debugName ∧
        key.instrumentId = instrumentId) }

theorem state_applyUpdate_ne_none (self : ReferenceStore) (update : NormalizedUpdate)
    (key : ReferenceStoreKey) :
    (self.applyUpdate update).state key ≠ none ↔
      key = .forSubject update.notice.subject ∨ self.state key ≠ none := by
  rcases eq_or_ne key (.forSubject update.notice.subject) with rfl | hne
  · refine iff_of_true ?_ (.inl rfl)
    exact Option.ne_none_iff_exists'.mpr ⟨_, insert_self ..⟩
  · rw [show (self.applyUpdate update).state key = self.state key from insert_of_ne _ _ _ hne]
    simp [hne]

end ReferenceStore

/-- What a notice of the feed resolves to. -/
inductive ResolvedFeedState where
  | orderBook (snapshot : OrderBookSnapshot)
  | reference (state : ReferenceState)
  deriving DecidableEq, Repr

structure FeedStores where
  orderBooks : OrderBookManager
  referenceStore : ReferenceStore

namespace FeedStores

def new : FeedStores := { orderBooks := .new, referenceStore := .new }

/-- A book notice resolves to the present book, any other to the reference state. -/
def resolveNotice (self : FeedStores) (notice : UpdateNotice) : Option ResolvedFeedState :=
  match notice.kind with
  | .bookSnapshot | .bookDelta =>
      (self.orderBooks.getSnapshot notice.subject.instrumentId).map .orderBook
  | _ => (self.referenceStore.resolveSubject notice.subject).map .reference

/-- All that is kept of a source is forgotten; the order books have no other one. -/
def clearSource (self : FeedStores) (sourceId : SourceId) : FeedStores :=
  { orderBooks := self.orderBooks.clearAll
    referenceStore := self.referenceStore.clearSource sourceId }

/-- An asset that is no longer subscribed leaves both stores. -/
def clearAsset (self : FeedStores) (sourceId : SourceId) (assetId : String) : FeedStores :=
  { orderBooks := self.orderBooks.clearAsset assetId
    referenceStore := self.referenceStore.clearInstrument sourceId .asset assetId }

end FeedStores

def bookLevelToWsLevel (level : BookLevel) : WsOrderBookLevel :=
  { price := level.price, size := level.size }

/-- The message that a full book of the stores is read back from. -/
def bookUpdateOf (snapshot : BookSnapshotUpdate) : BookUpdate :=
  { assetId := snapshot.assetId
    market := snapshot.marketId
    timestamp := String.ofList (Nat.toDigits 10 snapshot.timestampMs)
    bids := snapshot.bids.map bookLevelToWsLevel
    asks := snapshot.asks.map bookLevelToWsLevel
    hash := snapshot.sourceHash }

def priceChangeOf (delta : BookDeltaUpdate) : PriceChangeBatchEntry :=
  { assetId := delta.assetId
    price := delta.price
    size := some delta.size
    side := delta.side
    hash := delta.sourceHash
    bestBid := delta.bestBid
    bestAsk := delta.bestAsk }

/-- Books go to the order books, all else to the reference store. -/
def applyUpdateToStores (stores : FeedStores) (update : NormalizedUpdate) : FeedStores :=
  match update.payload with
  | .bookSnapshot snapshot =>
      { stores with orderBooks := stores.orderBooks.applyBookUpdate (bookUpdateOf snapshot) }
  | .bookDelta delta =>
      { stores with
        orderBooks := stores.orderBooks.applyPriceChange (priceChangeOf delta) delta.timestampMs }
  | .reconnect _ =>
      { orderBooks := stores.orderBooks.clearAll
        referenceStore := stores.referenceStore.applyUpdate update }
  | .bestBidAsk _ | .tradeTick _ | .referencePrice _ | .tickSizeChange _ | .sourceStatus _ =>
      { stores with referenceStore := stores.referenceStore.applyUpdate update }

/-- The snapshot published with an update of a book. -/
def snapshotFromUpdate (stores : FeedStores) (update : NormalizedUpdate) :
    Option OrderBookSnapshot :=
  match update.payload with
  | .bookSnapshot snapshot => stores.orderBooks.getSnapshot snapshot.assetId
  | .bookDelta delta => stores.orderBooks.getSnapshot delta.assetId
  | _ => none

/-- How the messages of one source become updates. -/
structure FeedAdapter (Message : Type*) where
  sourceId : SourceId
  sourceKind : SourceKind
  normalize : Message → List NormalizedUpdate

/-- The update is given the source that the adapter is configured with. -/
def scopeUpdateToSource (update : NormalizedUpdate) (sourceId : SourceId)
    (sourceKind : SourceKind) : NormalizedUpdate :=
  { update with
    notice :=
      { update.notice with
        sourceId
        sourceKind
        subject := { update.notice.subject with sourceId } } }

/-- The adapter of the market websocket under a source id. -/
def scopedPolymarketAdapter (sourceId : SourceId) : FeedAdapter WsMessage where
  sourceId := sourceId
  sourceKind := .polymarketWs
  normalize message := message.toNormalizedUpdates.map fun update =>
    scopeUpdateToSource update sourceId .polymarketWs

/-- What the feed publishes for one update: the update, its notice and, for a
book, the snapshot that the stores then hold. -/
structure Published where
  update : NormalizedUpdate
  snapshot : Option OrderBookSnapshot
  deriving DecidableEq, Repr

def Published.notice (self : Published) : UpdateNotice := self.update.notice

def processUpdate (stores : FeedStores) (update : NormalizedUpdate) : FeedStores × Published :=
  let stores := applyUpdateToStores stores update
  (stores, { update, snapshot := snapshotFromUpdate stores update })

variable {Message : Type*}

/-- All updates of a message, one after another. -/
def processAdapterMessage (adapter : FeedAdapter Message) (stores : FeedStores)
    (message : Message) : FeedStores × List Published :=
  (exec processUpdate stores (adapter.normalize message),
    outputs processUpdate stores (adapter.normalize message))

/-- A manager of a source takes one message of the market websocket. -/
def processMessage (sourceId : SourceId) (stores : FeedStores) (message : WsMessage) :
    FeedStores × List Published :=
  processAdapterMessage (scopedPolymarketAdapter sourceId) stores message

theorem map_update_outputs (stores : FeedStores) (updates : List NormalizedUpdate) :
    (outputs processUpdate stores updates).map Published.update = updates := by
  induction updates generalizing stores with
  | nil => rfl
  | cons update updates ih => exact congrArg (update :: ·) (ih _)

theorem map_update_processMessage (sourceId : SourceId) (stores : FeedStores)
    (message : WsMessage) :
    (processMessage sourceId stores message).2.map Published.update =
      message.toNormalizedUpdates.map fun update =>
        scopeUpdateToSource update sourceId .polymarketWs :=
  map_update_outputs stores _

end Rtt.Feed
