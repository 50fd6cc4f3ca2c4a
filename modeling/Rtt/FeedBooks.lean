import Rtt.CellHistory
import Rtt.TraceOrder
import Rtt.FeedReconnect
import Rtt.WsClient

namespace Rtt.FeedBooks

open Rtt.Machine
open Rtt.KeyIndex
open Rtt.PartialMap
open Rtt.CellHistory
open Rtt.TraceOrder
open Rtt.Quote
open Rtt.PublicEvent
open Rtt.MarketMessages
open Rtt.OrderBook
open Rtt.Feed
open Rtt.FeedReconnect
open Rtt.WsClient (isReconnected)

/-- What the stores ask of the order books for an update. -/
def bookOpOf : NormalizedUpdatePayload → Option BookOp
  | .bookSnapshot snapshot => some (.bookUpdate (bookUpdateOf snapshot))
  | .bookDelta delta => some (.priceChange (priceChangeOf delta) delta.timestampMs)
  | .reconnect _ => some .clearAll
  | .bestBidAsk _ | .tradeTick _ | .referencePrice _ | .tickSizeChange _ | .sourceStatus _ => none

def bookOps (message : WsMessage) : List BookOp :=
  message.toNormalizedUpdates.filterMap fun update => bookOpOf update.payload

/-- One level of one side of the book of an asset. -/
structure Level where
  assetId : String
  side : Side
  price : String
  deriving DecidableEq, Repr

def levelSize (books : OrderBookManager) (level : Level) : Option String :=
  (books.ladder level.assetId level.side).sizeAt level.price

/-- What one update of the books does to one level. -/
def opEffect (level : Level) (op : BookOp) : Effect String :=
  if op.Concerns level.assetId then
    match op with
    | .bookUpdate update =>
        .leaving ((lastWith WsOrderBookLevel.price level.price
          (sideLevels update level.side)).map WsOrderBookLevel.size)
    | .priceChange entry _ =>
        if entry.side = level.side ∧ entry.price = level.price then .leaving (entrySize entry)
        else .kept
    | .clearAll | .clearAsset _ => .cleared
  else .kept

/-- What a message does to a level. -/
def levelEffect (level : Level) (message : WsMessage) : Effect String :=
  lastEffect (opEffect level) (bookOps message)

/-- The message has something for the book of an asset. -/
def Builds (assetId : String) : WsMessage → Prop
  | .book update => update.assetId = assetId
  | .priceChange event => ∃ entry ∈ event.priceChanges, entry.assetId = assetId
  | .lastTradePrice _ | .tickSizeChange _ | .bestBidAsk _ | .reconnected _ => False

/-- The message replaces the book of an asset or clears it. -/
def replaces (assetId : String) : WsMessage → Bool
  | .book update => update.assetId = assetId
  | .reconnected _ => true
  | .priceChange _ | .lastTradePrice _ | .tickSizeChange _ | .bestBidAsk _ => false

theorem orderBooks_applyUpdateToStores (stores : FeedStores) (update : NormalizedUpdate) :
    (applyUpdateToStores stores update).orderBooks =
      (bookOpOf update.payload).elim stores.orderBooks (BookOp.apply stores.orderBooks) := by
  rcases update with ⟨notice, payload⟩
  cases payload <;> rfl

theorem orderBooks_processMessage (sourceId : SourceId) (stores : FeedStores)
    (message : WsMessage) :
    (processMessage sourceId stores message).1.orderBooks =
      (bookOps message).foldl BookOp.apply stores.orderBooks := by
  have hupdates : ∀ (updates : List NormalizedUpdate) (stores : FeedStores),
      (exec processUpdate stores (updates.map fun update =>
        scopeUpdateToSource update sourceId .polymarketWs)).orderBooks =
          (updates.filterMap fun update => bookOpOf update.payload).foldl BookOp.apply
            stores.orderBooks := by
    intro updates
    induction updates with
    | nil => exact fun _ => rfl
    | cons update updates ih =>
        intro stores
        rw [List.map_cons, exec, ih, processUpdate, orderBooks_applyUpdateToStores,
          List.filterMap_cons]
        simp only [scopeUpdateToSource]
        rcases bookOpOf update.payload with _ | op <;> rfl
  exact hupdates message.toNormalizedUpdates stores

theorem orderBooks_storesAfter (sourceId : SourceId) (messages : List WsMessage) :
    (storesAfter sourceId messages).orderBooks = booksAfter (messages.flatMap bookOps) := by
  rw [storesAfter]
  induction messages using List.reverseRecOn with
  | nil => rfl
  | append_singleton messages message ih =>
      rw [exec_concat, orderBooks_processMessage, ih, List.flatMap_append, booksAfter, booksAfter,
        List.foldl_append]
      simp

section Levels

variable (level : Level)

theorem shows_opEffect (books : OrderBookManager) (op : BookOp) :
    Shows id (levelSize books level) (levelSize (op.apply books) level) (opEffect level op) := by
  unfold opEffect
  split
  · rename_i hconcerns
    have happly := BookOp.sizeAt_apply books op level.assetId level.side level.price hconcerns
    cases op with
    | bookUpdate update =>
        rw [levelSize, levelSize, happly]
        exact shows_leaving _ _
    | priceChange entry timestampMs =>
        rw [levelSize, levelSize, happly]
        simp only
        split
        · exact shows_leaving _ _
        · rfl
    | clearAll => exact happly
    | clearAsset => exact happly
  · rename_i hother
    exact congrArg (PriceLadder.sizeAt · level.price) (OrderBookManager.ladder_congr
      (BookOp.apply_of_not_concerns books op level.assetId hother) level.side)

/-- A level shows what the last message that writes it has left there. -/
theorem sizeAt_storesAfter (sourceId : SourceId) (messages : List WsMessage) :
    levelSize (storesAfter sourceId messages).orderBooks level =
      (lastEffect (levelEffect level) messages).left := by
  have hshows := shows_foldl (shows_opEffect level) .new (messages.flatMap bookOps)
  rw [lastEffect_flatMap] at hshows
  rw [orderBooks_storesAfter]
  have hnew : levelSize .new level = none := PriceLadder.sizeAt_empty _
  rw [hnew] at hshows
  exact hshows.eq_left

theorem levelEffect_of_replaces {message : WsMessage} (h : replaces level.assetId message) :
    levelEffect level message ≠ .kept := by
  cases message with
  | book update =>
      refine lastEffect_ne_kept ⟨_, List.mem_singleton.mpr rfl, ?_⟩
      have hown : (BookOp.bookUpdate (bookUpdateOf (bookSnapshotOf update))).Concerns
          level.assetId := of_decide_eq_true h
      unfold opEffect
      rw [if_pos hown]
      exact Effect.leaving_ne_kept _
  | reconnected =>
      refine lastEffect_ne_kept ⟨_, List.mem_singleton.mpr rfl, ?_⟩
      simp [opEffect, BookOp.Concerns]
  | priceChange | lastTradePrice | tickSizeChange | bestBidAsk => exact absurd h Bool.false_ne_true

end Levels

section Presence

variable {assetId : String}

theorem books_apply_eq_none_iff (books : OrderBookManager) (entry : PriceChangeBatchEntry)
    (timestampMs : Nat) :
    ((BookOp.priceChange entry timestampMs).apply books).books assetId = none ↔
      entry.assetId ≠ assetId ∧ books.books assetId = none := by
  rcases eq_or_ne entry.assetId assetId with rfl | hne
  · refine iff_of_false ?_ (by simp)
    intro hnone
    exact Option.some_ne_none _ ((insert_self ..).symm.trans hnone)
  · rw [BookOp.apply_of_not_concerns books (.priceChange entry timestampMs) assetId hne]
    simp [hne]

theorem books_changes_eq_none_iff (books : OrderBookManager) (event : PriceChangeEvent) :
    ((bookOps (.priceChange event)).foldl BookOp.apply books).books assetId = none ↔
      ¬ Builds assetId (.priceChange event) ∧ books.books assetId = none := by
  have hops : bookOps (.priceChange event) = event.priceChanges.map fun entry =>
      .priceChange (priceChangeOf (bookDeltaOf event entry))
        (parseTimestampMs event.timestamp) := by
    rw [bookOps, WsMessage.toNormalizedUpdates, List.filterMap_map]
    exact congrFun List.filterMap_eq_map event.priceChanges
  rw [hops, Builds]
  induction event.priceChanges generalizing books with
  | nil => simp
  | cons entry entries ih =>
      rw [List.map_cons, List.foldl_cons]
      refine (ih _).trans ?_
      rw [books_apply_eq_none_iff]
      simp only [priceChangeOf, bookDeltaOf, List.exists_mem_cons_iff, not_or, ne_eq]
      tauto

theorem books_processMessage_eq_none_iff (sourceId : SourceId) (stores : FeedStores)
    (message : WsMessage) :
    (processMessage sourceId stores message).1.orderBooks.books assetId = none ↔
      ¬ Builds assetId message ∧
        (isReconnected message = true ∨ stores.orderBooks.books assetId = none) := by
  rw [orderBooks_processMessage]
  cases message with
  | book update =>
      rw [show bookOps (.book update) = [.bookUpdate (bookUpdateOf (bookSnapshotOf update))] from
        rfl, List.foldl_cons, List.foldl_nil, Builds]
      rcases eq_or_ne update.assetId assetId with rfl | hne
      · refine iff_of_false ?_ (by simp)
        intro hnone
        exact Option.some_ne_none _ ((insert_self ..).symm.trans hnone)
      · have hother : ¬ (BookOp.bookUpdate (bookUpdateOf (bookSnapshotOf update))).Concerns
            assetId := hne
        rw [BookOp.apply_of_not_concerns _ _ assetId hother]
        simp [hne, isReconnected]
  | priceChange event =>
      rw [books_changes_eq_none_iff]
      simp [isReconnected]
  | reconnected event => exact iff_of_true rfl ⟨id, .inl rfl⟩
  | lastTradePrice | tickSizeChange | bestBidAsk =>
      simp [bookOps, WsMessage.toNormalizedUpdates, bookOpOf, Builds, isReconnected]

theorem books_storesAfter_eq_none_iff (sourceId : SourceId) (messages : List WsMessage) :
    (storesAfter sourceId messages).orderBooks.books assetId = none ↔
      Followed (Builds assetId) (fun message => isReconnected message = true) messages := by
  rw [storesAfter]
  induction messages using List.reverseRecOn with
  | nil => exact iff_of_true rfl (followed_of_none (by simp))
  | append_singleton messages message ih =>
      rw [exec_concat, books_processMessage_eq_none_iff, followed_concat_iff, ih]

end Presence

end Rtt.FeedBooks
