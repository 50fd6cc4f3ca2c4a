import Rtt.FeedBooks

namespace Rtt.PartialBooks

open Rtt.Machine
open Rtt.PartialMap
open Rtt.PublicEvent
open Rtt.MarketMessages
open Rtt.OrderBook
open Rtt.Feed
open Rtt.FeedBooks
open Rtt.WsClient (isReconnected)

/-- What reaches the stores of a feed. -/
inductive FeedEvent where
  | message (message : WsMessage)
  | clearAsset (assetId : String)
  | clearSource

/-- The stores take an event; the output is what is published. -/
def feedStep (sourceId : SourceId) (stores : FeedStores) : FeedEvent → FeedStores × List Published
  | .message message => processMessage sourceId stores message
  | .clearAsset assetId => (stores.clearAsset sourceId assetId, [])
  | .clearSource => (stores.clearSource sourceId, [])

/-- A full book of an asset. -/
def FullBook (assetId : String) : FeedEvent → Prop
  | .message (.book update) => update.assetId = assetId
  | .message _ | .clearAsset _ | .clearSource => False

/-- The store of an asset starts again from nothing. -/
def Resets (assetId : String) : FeedEvent → Prop
  | .message message => isReconnected message = true
  | .clearAsset cleared => cleared = assetId
  | .clearSource => True

/-- A full book of the asset was applied after the last reset. -/
def Repopulated (assetId : String) (events : List FeedEvent) : Prop :=
  ∃ pre event post, events = pre ++ event :: post ∧ FullBook assetId event ∧
    ∀ later ∈ post, ¬ Resets assetId later

/-- Every snapshot is published after a full book of its asset, and no reset since. -/
def NoPartialBook (sourceId : SourceId) (events : List FeedEvent) : Prop :=
  ∀ pre event post, events = pre ++ event :: post →
    ∀ publication ∈ (feedStep sourceId (exec (feedStep sourceId) .new pre) event).2,
      ∀ snapshot, publication.snapshot = some snapshot →
        Repopulated snapshot.assetId (pre ++ [event])

/-- The assets whose snapshots a message has published. -/
def snapshotAssets : WsMessage → List String
  | .book update => [update.assetId]
  | .priceChange event => event.priceChanges.map PriceChangeBatchEntry.assetId
  | .lastTradePrice _ | .tickSizeChange _ | .bestBidAsk _ | .reconnected _ => []

/-- The asset of the book that an update writes. -/
def bookAsset : NormalizedUpdatePayload → Option String
  | .bookSnapshot snapshot => some snapshot.assetId
  | .bookDelta delta => some delta.assetId
  | .reconnect _ | .bestBidAsk _ | .tradeTick _ | .referencePrice _ | .tickSizeChange _
  | .sourceStatus _ => none

section Snapshots

variable {stores : FeedStores}

theorem keyedByAsset_applyUpdateToStores (h : stores.orderBooks.KeyedByAsset)
    (update : NormalizedUpdate) :
    (applyUpdateToStores stores update).orderBooks.KeyedByAsset := by
  rw [orderBooks_applyUpdateToStores]
  cases bookOpOf update.payload with
  | none => exact h
  | some op => exact BookOp.keyedByAsset_apply h op

theorem assetId_snapshotFromUpdate (h : stores.orderBooks.KeyedByAsset)
    (update : NormalizedUpdate) :
    (snapshotFromUpdate (applyUpdateToStores stores update) update).map
        OrderBookSnapshot.assetId = bookAsset update.payload := by
  have hkeyed := keyedByAsset_applyUpdateToStores h update
  rcases update with ⟨notice, payload⟩
  cases payload with
  | bookSnapshot snapshot =>
      obtain ⟨book, hbook⟩ : ∃ book, (applyUpdateToStores stores
          ⟨notice, .bookSnapshot snapshot⟩).orderBooks.books snapshot.assetId = some book :=
        ⟨_, insert_self ..⟩
      simp only [snapshotFromUpdate, OrderBookManager.getSnapshot, hbook, Option.map_some,
        bookAsset]
      exact congrArg some (hkeyed _ _ hbook)
  | bookDelta delta =>
      obtain ⟨book, hbook⟩ : ∃ book, (applyUpdateToStores stores
          ⟨notice, .bookDelta delta⟩).orderBooks.books delta.assetId = some book :=
        ⟨_, insert_self ..⟩
      simp only [snapshotFromUpdate, OrderBookManager.getSnapshot, hbook, Option.map_some,
        bookAsset]
      exact congrArg some (hkeyed _ _ hbook)
  | reconnect | bestBidAsk | tradeTick | referencePrice | tickSizeChange | sourceStatus => rfl

theorem keyedByAsset_exec (updates : List NormalizedUpdate)
    (h : stores.orderBooks.KeyedByAsset) :
    (exec processUpdate stores updates).orderBooks.KeyedByAsset :=
  exec_kept (I := fun stores : FeedStores => stores.orderBooks.KeyedByAsset)
    (fun _ update hkeyed => keyedByAsset_applyUpdateToStores hkeyed update) h updates

theorem assetIds_outputs (updates : List NormalizedUpdate) (h : stores.orderBooks.KeyedByAsset) :
    (outputs processUpdate stores updates).filterMap
        (fun publication => publication.snapshot.map OrderBookSnapshot.assetId) =
      updates.filterMap fun update => bookAsset update.payload := by
  induction updates generalizing stores with
  | nil => rfl
  | cons update updates ih =>
      simp only [outputs, processUpdate, List.filterMap_cons, assetId_snapshotFromUpdate h]
      rw [← ih (keyedByAsset_applyUpdateToStores h update)]

theorem assetIds_processMessage (sourceId : SourceId) (h : stores.orderBooks.KeyedByAsset)
    (message : WsMessage) :
    (processMessage sourceId stores message).2.filterMap
        (fun publication => publication.snapshot.map OrderBookSnapshot.assetId) =
      snapshotAssets message := by
  refine (assetIds_outputs _ h).trans ?_
  simp only [scopedPolymarketAdapter, List.filterMap_map, Function.comp_def, scopeUpdateToSource]
  cases message with
  | priceChange event =>
      simp only [WsMessage.toNormalizedUpdates, List.filterMap_map, snapshotAssets]
      exact congrFun List.filterMap_eq_map event.priceChanges
  | book | lastTradePrice | tickSizeChange | bestBidAsk | reconnected => rfl

theorem keyedByAsset_feedStep (sourceId : SourceId) (h : stores.orderBooks.KeyedByAsset)
    (event : FeedEvent) : (feedStep sourceId stores event).1.orderBooks.KeyedByAsset := by
  cases event with
  | message message => exact keyedByAsset_exec _ h
  | clearAsset assetId => exact BookOp.keyedByAsset_apply h (.clearAsset assetId)
  | clearSource => exact BookOp.keyedByAsset_apply h .clearAll

theorem keyedByAsset_run (sourceId : SourceId) (events : List FeedEvent) :
    (exec (feedStep sourceId) .new events).orderBooks.KeyedByAsset := by
  have hnew : FeedStores.new.orderBooks.KeyedByAsset := fun _ _ hbook =>
    absurd hbook (by simp [FeedStores.new, OrderBookManager.new])
  exact exec_invariant (I := fun stores : FeedStores => stores.orderBooks.KeyedByAsset)
    (fun _ event h _ => keyedByAsset_feedStep sourceId h event) hnew (along_true _ _)

theorem exists_snapshot_iff (sourceId : SourceId) (pre : List FeedEvent) (event : FeedEvent)
    (assetId : String) :
    (∃ publication ∈ (feedStep sourceId (exec (feedStep sourceId) .new pre) event).2,
      ∃ snapshot, publication.snapshot = some snapshot ∧ snapshot.assetId = assetId) ↔
      ∃ message, event = .message message ∧ assetId ∈ snapshotAssets message := by
  cases event with
  | message message =>
      have hassets := assetIds_processMessage sourceId (keyedByAsset_run sourceId pre) message
      simp only [FeedEvent.message.injEq, exists_eq_left', ← hassets, List.mem_filterMap,
        Option.map_eq_some_iff]
      rfl
  | clearAsset | clearSource => simp [feedStep]

end Snapshots

theorem repopulated_concat_iff {assetId : String} {events : List FeedEvent} {event : FeedEvent} :
    Repopulated assetId (events ++ [event]) ↔
      FullBook assetId event ∨ (¬ Resets assetId event ∧ Repopulated assetId events) := by
  constructor
  · rintro ⟨pre, book, post, hsplit, hbook, hpost⟩
    rcases TraceOrder.append_split hsplit with ⟨rest, rfl, rfl⟩ | ⟨rest, -, hlast⟩
    · exact .inr ⟨hpost event (by simp), pre, book, rest, rfl, hbook, fun later hlater =>
        hpost later (by simp [hlater])⟩
    · obtain rfl := List.mem_singleton.mp (TraceOrder.mem_of_split hlast)
      exact .inl hbook
  · rintro (hbook | ⟨hkept, pre, book, post, rfl, hbook, hpost⟩)
    · exact ⟨events, event, [], rfl, hbook, by simp⟩
    · refine ⟨pre, book, post ++ [event], by simp, hbook, ?_⟩
      intro later hlater
      rcases List.mem_append.mp hlater with hlater | hlater
      · exact hpost later hlater
      · exact List.mem_singleton.mp hlater ▸ hkept

/-- No partial book is published exactly when every price change finds a full book
of its asset applied since the last reset. -/
theorem no_partial_book_iff (sourceId : SourceId) (events : List FeedEvent) :
    NoPartialBook sourceId events ↔
      ∀ pre change post, events = pre ++ .message (.priceChange change) :: post →
        ∀ entry ∈ change.priceChanges, Repopulated entry.assetId pre := by
  constructor
  · intro h pre change post hsplit entry hentry
    obtain ⟨publication, hpublication, snapshot, hsnapshot, hasset⟩ :=
      (exists_snapshot_iff sourceId pre (.message (.priceChange change)) entry.assetId).mpr
        ⟨_, rfl, List.mem_map_of_mem hentry⟩
    have hbehind := h pre _ post hsplit publication hpublication snapshot hsnapshot
    rw [hasset, repopulated_concat_iff] at hbehind
    rcases hbehind with hbook | ⟨-, hbehind⟩
    · exact hbook.elim
    · exact hbehind
  · intro h pre event post hsplit publication hpublication snapshot hsnapshot
    obtain ⟨message, rfl, hasset⟩ := (exists_snapshot_iff sourceId pre event snapshot.assetId).mp
      ⟨publication, hpublication, snapshot, hsnapshot, rfl⟩
    rw [repopulated_concat_iff]
    cases message with
    | book update => exact .inl (List.mem_singleton.mp hasset).symm
    | priceChange change =>
        obtain ⟨entry, hentry, heq⟩ := List.mem_map.mp hasset
        exact .inr ⟨Bool.false_ne_true, heq ▸ h pre change post hsplit entry hentry⟩
    | lastTradePrice | tickSizeChange | bestBidAsk | reconnected =>
        exact absurd hasset (by simp [snapshotAssets])

/-- A price change right after a reconnect. -/
def changeAfterReconnect : List FeedEvent :=
  [.message (.book
      { assetId := "asset-1", market := "market-1", timestamp := "1700000000000"
        bids := [{ price := "0.44", size := "100" }], asks := [{ price := "0.45", size := "150" }]
        hash := none }),
    .message (.reconnected { sequence := 1, timestampMs := 1700000000500 }),
    .message (.priceChange
      { market := "market-1", timestamp := "1700000001000"
        priceChanges :=
          [{ assetId := "asset-1", price := "0.40", size := some "200", side := .buy
             hash := none, bestBid := none, bestAsk := none }] })]

theorem change_after_reconnect_publishes_partial_book :
    ¬ NoPartialBook publicSourceId changeAfterReconnect := by
  intro h
  let before := changeAfterReconnect.take 2
  obtain ⟨publication, hpublication, snapshot, hsnapshot, hasset⟩ :=
    (exists_snapshot_iff publicSourceId before (changeAfterReconnect.getLast (by simp
      [changeAfterReconnect])) "asset-1").mpr ⟨_, rfl, List.mem_singleton.mpr rfl⟩
  have hbehind := h before _ [] rfl publication hpublication snapshot hsnapshot
  rw [hasset, repopulated_concat_iff] at hbehind
  rcases hbehind with hbook | ⟨-, hbehind⟩
  · exact hbook
  · rw [show before = [_] ++ [_] from rfl, repopulated_concat_iff] at hbehind
    rcases hbehind with hbook | ⟨hkept, -⟩
    · exact hbook
    · exact hkept rfl

end Rtt.PartialBooks
