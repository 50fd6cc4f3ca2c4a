import Rtt.KeyIndex
import Rtt.PartialMap
import Rtt.MarketMessages

namespace Rtt.OrderBook

open Rtt.Quote
open Rtt.KeyIndex
open Rtt.PartialMap
open Rtt.PublicEvent
open Rtt.MarketMessages

/-- One side of a book, from price text to size text. -/
structure PriceLadder where
  levels : Std.TreeMap String String

/-- The spellings of zero that `upsert` knows. -/
def IsZeroSize (size : String) : Prop := size = "0" ∨ size = "0.0" ∨ size = "0.00"

instance (size : String) : Decidable (IsZeroSize size) :=
  inferInstanceAs (Decidable (_ ∨ _ ∨ _))

namespace PriceLadder

def empty : PriceLadder := { levels := ∅ }

/-- A full side takes the place of the old one; nothing is filtered. -/
def applyLevels (self : PriceLadder) (levels : List WsOrderBookLevel) : PriceLadder :=
  { self with levels := levels.foldl (fun m level => m.insert level.price level.size) ∅ }

/-- One level is written, or removed when its size is zero. -/
def upsert (self : PriceLadder) (price size : String) : PriceLadder :=
  if IsZeroSize size then { self with levels := self.levels.erase price }
  else { self with levels := self.levels.insert price size }

/-- Bids: the highest price is the last entry of the map. -/
def bestBid (self : PriceLadder) : Option PriceLevel :=
  self.levels.toList.getLast?.map fun entry => { price := entry.1, size := entry.2 }

/-- Asks: the lowest price is the first entry of the map. -/
def bestAsk (self : PriceLadder) : Option PriceLevel :=
  self.levels.toList.head?.map fun entry => { price := entry.1, size := entry.2 }

end PriceLadder

/-- `p` is at least as good a price as `q` on a side of the book. -/
def NoWorse {α : Type*} [LE α] : Side → α → α → Prop
  | .buy, p, q => q ≤ p
  | .sell, p, q => p ≤ q

instance {α : Type*} [LE α] [DecidableLE α] (side : Side) (p q : α) :
    Decidable (NoWorse side p q) :=
  match side with
  | .buy => inferInstanceAs (Decidable (q ≤ p))
  | .sell => inferInstanceAs (Decidable (p ≤ q))

namespace NoWorse

variable {α : Type*} {side : Side} {p q r : α}

theorem refl [Preorder α] (side : Side) (p : α) : NoWorse side p p := by
  cases side <;> exact le_refl p

theorem trans [Preorder α] (hpq : NoWorse side p q) (hqr : NoWorse side q r) :
    NoWorse side p r := by
  cases side with
  | buy => exact le_trans hqr hpq
  | sell => exact le_trans hpq hqr

theorem antisymm [PartialOrder α] (hpq : NoWorse side p q) (hqp : NoWorse side q p) : p = q := by
  cases side with
  | buy => exact le_antisymm hqp hpq
  | sell => exact le_antisymm hpq hqp

theorem of_not [LinearOrder α] (h : ¬ NoWorse side p q) : NoWorse side q p := by
  cases side with
  | buy => exact (not_le.mp h).le
  | sell => exact (not_le.mp h).le

end NoWorse

/-- The best level of a ladder that is used for the given side. -/
def PriceLadder.best (self : PriceLadder) : Side → Option PriceLevel
  | .buy => self.bestBid
  | .sell => self.bestAsk

structure BookState where
  assetId : String
  bids : PriceLadder
  asks : PriceLadder
  hash : String
  timestampMs : Nat

namespace BookState

def new (assetId : String) : BookState :=
  { assetId, bids := .empty, asks := .empty, hash := "", timestampMs := 0 }

def applySnapshot (self : BookState) (update : BookUpdate) : BookState :=
  { self with
    bids := self.bids.applyLevels update.bids
    asks := self.asks.applyLevels update.asks
    hash := update.hash.getD self.hash
    timestampMs := parseTimestampMs update.timestamp }

def applyDelta (self : BookState) (entry : PriceChangeBatchEntry) (timestampMs : Nat) :
    BookState :=
  let size := entry.size.getD "0"
  let changed :=
    match entry.side with
    | .buy => { self with bids := self.bids.upsert entry.price size }
    | .sell => { self with asks := self.asks.upsert entry.price size }
  { changed with hash := entry.hash.getD self.hash, timestampMs }

def toSnapshot (self : BookState) : OrderBookSnapshot :=
  { assetId := self.assetId
    bestBid := self.bids.bestBid
    bestAsk := self.asks.bestAsk
    timestampMs := self.timestampMs
    hash := self.hash }

end BookState

structure OrderBookManager where
  books : KeyMap String BookState

namespace OrderBookManager

def new : OrderBookManager := { books := empty }

/-- A full book is applied; a book that is missing is made. -/
def applyBookUpdate (self : OrderBookManager) (update : BookUpdate) : OrderBookManager :=
  let book := (self.books update.assetId).getD (.new update.assetId)
  { self with books := insert self.books update.assetId (book.applySnapshot update) }

/-- An entry of a price change is applied; a book that is missing is made. -/
def applyPriceChange (self : OrderBookManager) (entry : PriceChangeBatchEntry)
    (timestampMs : Nat) : OrderBookManager :=
  let book := (self.books entry.assetId).getD (.new entry.assetId)
  { self with books := insert self.books entry.assetId (book.applyDelta entry timestampMs) }

def getSnapshot (self : OrderBookManager) (assetId : String) : Option OrderBookSnapshot :=
  (self.books assetId).map BookState.toSnapshot

def clearAll (self : OrderBookManager) : OrderBookManager := { self with books := empty }

def clearAsset (self : OrderBookManager) (assetId : String) : OrderBookManager :=
  { self with books := erase self.books assetId }

end OrderBookManager

/-- What the feed asks of its order books. -/
inductive BookOp where
  | bookUpdate (update : BookUpdate)
  | priceChange (entry : PriceChangeBatchEntry) (timestampMs : Nat)
  | clearAll
  | clearAsset (assetId : String)

/-- What an update leaves of the books. -/
def BookOp.apply (manager : OrderBookManager) : BookOp → OrderBookManager
  | .bookUpdate update => manager.applyBookUpdate update
  | .priceChange entry timestampMs => manager.applyPriceChange entry timestampMs
  | .clearAll => manager.clearAll
  | .clearAsset assetId => manager.clearAsset assetId

def booksAfter (ops : List BookOp) : OrderBookManager := ops.foldl BookOp.apply .new

/-- The update changes what is kept of the asset. -/
def BookOp.Concerns (assetId : String) : BookOp → Prop
  | .bookUpdate update => update.assetId = assetId
  | .priceChange entry _ => entry.assetId = assetId
  | .clearAll => True
  | .clearAsset cleared => cleared = assetId

instance (assetId : String) (op : BookOp) : Decidable (op.Concerns assetId) :=
  match op with
  | .bookUpdate update => inferInstanceAs (Decidable (update.assetId = assetId))
  | .priceChange entry _ => inferInstanceAs (Decidable (entry.assetId = assetId))
  | .clearAll => isTrue trivial
  | .clearAsset cleared => inferInstanceAs (Decidable (cleared = assetId))

/-- The levels of one side of a full book. -/
def sideLevels (update : BookUpdate) : Side → List WsOrderBookLevel
  | .buy => update.bids
  | .sell => update.asks

def BookState.ladder (self : BookState) : Side → PriceLadder
  | .buy => self.bids
  | .sell => self.asks

/-- One side of the book of an asset, empty while there is no book. -/
def OrderBookManager.ladder (self : OrderBookManager) (assetId : String) (side : Side) :
    PriceLadder :=
  match self.books assetId with
  | none => .empty
  | some book => book.ladder side

def PriceLadder.sizeAt (self : PriceLadder) (price : String) : Option String :=
  self.levels[price]?

/-- The size that a delta leaves at its price. -/
def entrySize (entry : PriceChangeBatchEntry) : Option String :=
  if IsZeroSize (entry.size.getD "0") then none else some (entry.size.getD "0")

namespace PriceLadder

@[simp] theorem sizeAt_empty (price : String) : empty.sizeAt price = none := by
  simp [sizeAt, empty]

theorem sizeAt_applyLevels (self : PriceLadder) (levels : List WsOrderBookLevel)
    (price : String) :
    (self.applyLevels levels).sizeAt price =
      (lastWith WsOrderBookLevel.price price levels).map WsOrderBookLevel.size := by
  simp only [sizeAt, applyLevels]
  induction levels using List.reverseRecOn with
  | nil => simp [lastWith]
  | append_singleton levels level ih =>
      rw [List.foldl_concat, Std.TreeMap.getElem?_insert, lastWith_concat]
      simp only [compare_eq_iff_eq]
      split
      · rfl
      · exact ih

theorem sizeAt_upsert (self : PriceLadder) (price size other : String) :
    (self.upsert price size).sizeAt other =
      if price = other then (if IsZeroSize size then none else some size)
      else self.sizeAt other := by
  simp only [sizeAt, upsert]
  split
  · rw [Std.TreeMap.getElem?_erase]
    simp only [compare_eq_iff_eq]
  · rw [Std.TreeMap.getElem?_insert]
    simp only [compare_eq_iff_eq]

theorem sizeAt_upsert_self (self : PriceLadder) (price size : String) :
    (self.upsert price size).sizeAt price = if IsZeroSize size then none else some size := by
  rw [sizeAt_upsert, if_pos rfl]

theorem sizeAt_upsert_of_ne (self : PriceLadder) {price other : String} (h : other ≠ price)
    (size : String) : (self.upsert price size).sizeAt other = self.sizeAt other := by
  rw [sizeAt_upsert, if_neg (Ne.symm h)]

variable {self : PriceLadder} {side : Side} {level : PriceLevel}

theorem best_eq_none_iff : self.best side = none ↔ ∀ price, self.sizeAt price = none := by
  have hnil : self.levels.toList = [] ↔ ∀ price, self.sizeAt price = none := toList_eq_nil_iff
  rw [← hnil]
  cases side with
  | buy => rw [best, bestBid, Option.map_eq_none_iff, List.getLast?_eq_none_iff]
  | sell => rw [best, bestAsk, Option.map_eq_none_iff, List.head?_eq_none_iff]

theorem best_eq_some_iff :
    self.best side = some level ↔ self.sizeAt level.price = some level.size ∧
      ∀ price size, self.sizeAt price = some size → NoWorse side level.price price := by
  cases side with
  | buy =>
      rw [best, bestBid, Option.map_eq_some_iff]
      constructor
      · rintro ⟨entry, hlast, rfl⟩
        exact getLast?_toList_eq_some_iff.mp hlast
      · intro h
        exact ⟨(level.price, level.size), getLast?_toList_eq_some_iff.mpr h, rfl⟩
  | sell =>
      rw [best, bestAsk, Option.map_eq_some_iff]
      constructor
      · rintro ⟨entry, hhead, rfl⟩
        exact head?_toList_eq_some_iff.mp hhead
      · intro h
        exact ⟨(level.price, level.size), head?_toList_eq_some_iff.mpr h, rfl⟩

end PriceLadder

theorem BookState.ladder_applySnapshot (self : BookState) (update : BookUpdate) (side : Side) :
    (self.applySnapshot update).ladder side =
      (self.ladder side).applyLevels (sideLevels update side) := by
  cases side <;> rfl

theorem BookState.ladder_applyDelta (self : BookState) (entry : PriceChangeBatchEntry)
    (timestampMs : Nat) (side : Side) :
    (self.applyDelta entry timestampMs).ladder side =
      if entry.side = side then
        (self.ladder side).upsert entry.price (entry.size.getD "0")
      else self.ladder side := by
  cases hentry : entry.side <;> cases side <;> simp [applyDelta, ladder, hentry]

namespace OrderBookManager

variable (self : OrderBookManager) (assetId : String) (side : Side)

theorem ladder_of_none (h : self.books assetId = none) : self.ladder assetId side = .empty := by
  simp only [ladder, h]

theorem ladder_getD_new :
    ((self.books assetId).getD (.new assetId)).ladder side = self.ladder assetId side := by
  cases h : self.books assetId with
  | none => cases side <;> simp [ladder, BookState.ladder, BookState.new, h]
  | some book => simp [ladder, h]

theorem ladder_of_some {book : BookState} (h : self.books assetId = some book) :
    self.ladder assetId side = book.ladder side := by
  simp only [ladder, h]

theorem ladder_applyBookUpdate (update : BookUpdate) :
    (self.applyBookUpdate update).ladder update.assetId side =
      (self.ladder update.assetId side).applyLevels (sideLevels update side) := by
  rw [ladder_of_some _ _ _ (insert_self ..), BookState.ladder_applySnapshot, ladder_getD_new]

theorem ladder_applyPriceChange (entry : PriceChangeBatchEntry) (timestampMs : Nat) :
    (self.applyPriceChange entry timestampMs).ladder entry.assetId side =
      if entry.side = side then
        (self.ladder entry.assetId side).upsert entry.price (entry.size.getD "0")
      else self.ladder entry.assetId side := by
  rw [ladder_of_some _ _ _ (insert_self ..), BookState.ladder_applyDelta, ladder_getD_new]

theorem ladder_congr {self other : OrderBookManager} {assetId : String}
    (h : self.books assetId = other.books assetId) (side : Side) :
    self.ladder assetId side = other.ladder assetId side := by
  simp only [ladder, h]

end OrderBookManager

/-- Every book carries the asset of its key. -/
def OrderBookManager.KeyedByAsset (self : OrderBookManager) : Prop :=
  ∀ assetId book, self.books assetId = some book → book.assetId = assetId

namespace BookOp

theorem keyedByAsset_apply {manager : OrderBookManager} (h : manager.KeyedByAsset)
    (op : BookOp) : (op.apply manager).KeyedByAsset := by
  have hgetD : ∀ assetId, ((manager.books assetId).getD (.new assetId)).assetId = assetId := by
    intro assetId
    cases hbook : manager.books assetId with
    | none => rfl
    | some book => exact h assetId book hbook
  intro assetId book hbook
  cases op with
  | bookUpdate update =>
      rcases eq_or_ne assetId update.assetId with rfl | hne
      · obtain rfl := Option.some.inj ((insert_self ..).symm.trans hbook)
        exact hgetD _
      · exact h assetId book ((insert_of_ne _ _ _ hne).symm.trans hbook)
  | priceChange entry timestampMs =>
      rcases eq_or_ne assetId entry.assetId with rfl | hne
      · obtain rfl := Option.some.inj ((insert_self ..).symm.trans hbook)
        rw [BookState.applyDelta]
        cases entry.side <;> exact hgetD _
      · exact h assetId book ((insert_of_ne _ _ _ hne).symm.trans hbook)
  | clearAll => exact absurd hbook (by simp [apply, OrderBookManager.clearAll])
  | clearAsset cleared =>
      rcases eq_or_ne assetId cleared with rfl | hne
      · exact absurd ((erase_self ..).symm.trans hbook) (by simp)
      · exact h assetId book ((erase_of_ne _ _ hne).symm.trans hbook)

variable (manager : OrderBookManager) (op : BookOp) (assetId : String)

theorem apply_of_not_concerns (h : ¬ op.Concerns assetId) :
    (op.apply manager).books assetId = manager.books assetId := by
  cases op with
  | bookUpdate update => exact insert_of_ne _ _ _ (Ne.symm h)
  | priceChange entry timestampMs => exact insert_of_ne _ _ _ (Ne.symm h)
  | clearAll => exact absurd trivial h
  | clearAsset cleared => exact erase_of_ne _ _ (Ne.symm h)

variable (side : Side) (price : String)

theorem sizeAt_apply (h : op.Concerns assetId) :
    ((op.apply manager).ladder assetId side).sizeAt price =
      match op with
      | .bookUpdate update =>
          (lastWith WsOrderBookLevel.price price (sideLevels update side)).map
            WsOrderBookLevel.size
      | .priceChange entry _ =>
          if entry.side = side ∧ entry.price = price then entrySize entry
          else (manager.ladder assetId side).sizeAt price
      | .clearAll | .clearAsset _ => none := by
  cases op with
  | bookUpdate update =>
      obtain rfl : update.assetId = assetId := h
      rw [apply, OrderBookManager.ladder_applyBookUpdate, PriceLadder.sizeAt_applyLevels]
  | priceChange entry timestampMs =>
      obtain rfl : entry.assetId = assetId := h
      rw [apply, OrderBookManager.ladder_applyPriceChange]
      by_cases hside : entry.side = side
      · simp only [hside, if_true, true_and, PriceLadder.sizeAt_upsert, entrySize]
      · simp only [hside, if_false, false_and]
  | clearAll =>
      rw [OrderBookManager.ladder_of_none _ _ _ rfl, PriceLadder.sizeAt_empty]
  | clearAsset cleared =>
      obtain rfl : cleared = assetId := h
      rw [OrderBookManager.ladder_of_none _ _ _ (erase_self ..), PriceLadder.sizeAt_empty]

end BookOp

end Rtt.OrderBook
