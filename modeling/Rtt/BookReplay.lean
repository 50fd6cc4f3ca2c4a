import Rtt.OrderBook
import Rtt.DecimalOrder

namespace Rtt.BookReplay

open Rtt.Quote
open Rtt.KeyIndex
open Rtt.DecimalOrder
open Rtt.PublicEvent
open Rtt.MarketMessages
open Rtt.OrderBook

/-- One side of a book as the size it holds at each number. -/
abbrev NumericSide := ℚ → Option String

/-- What an update leaves on one side when its prices are read as numbers. -/
def numericStep (side : Side) (levels : NumericSide) : BookOp → NumericSide
  | .bookUpdate update => fun x =>
      (lastWith (fun level => fractionValue level.price) x (sideLevels update side)).map
        WsOrderBookLevel.size
  | .priceChange entry _ =>
      if entry.side = side then
        Function.update levels (fractionValue entry.price) (entrySize entry)
      else levels
  | .clearAll | .clearAsset _ => fun _ => none

/-- The replay of an asset's own updates. -/
def numericReplay (assetId : String) (side : Side) (ops : List BookOp) : NumericSide :=
  (ops.filter fun op => op.Concerns assetId).foldl (numericStep side) fun _ => none

/-- The ladder holds the levels of the replay, each under one spelling of its
price, and no others. -/
structure HoldsExactly (ladder : PriceLadder) (levels : NumericSide) : Prop where
  levels_iff : ∀ x size, levels x = some size ↔
    ∃ price, fractionValue price = x ∧ ladder.sizeAt price = some size
  spelled : ∀ p q, ladder.sizeAt p ≠ none → ladder.sizeAt q ≠ none →
    fractionValue p = fractionValue q → p = q

/-- No level of the side is better than the given one; with none given the side is empty. -/
def IsBestLevel (side : Side) (levels : NumericSide) : Option PriceLevel → Prop
  | none => ∀ x, levels x = none
  | some level => levels (fractionValue level.price) = some level.size ∧
      ∀ x size, levels x = some size → NoWorse side (fractionValue level.price) x

/-- The best level of one side that a snapshot shows. -/
def snapshotBest (snapshot : OrderBookSnapshot) : Side → Option PriceLevel
  | .buy => snapshot.bestBid
  | .sell => snapshot.bestAsk

/-- The best level of one side of an asset's book as the manager reports it. -/
def reportedBest (manager : OrderBookManager) (assetId : String) (side : Side) :
    Option PriceLevel :=
  (manager.getSnapshot assetId).bind fun snapshot => snapshotBest snapshot side

def opPrices : BookOp → List String
  | .bookUpdate update => (update.bids ++ update.asks).map WsOrderBookLevel.price
  | .priceChange entry _ => [entry.price]
  | .clearAll | .clearAsset _ => []

def pricesOf (ops : List BookOp) : List String := ops.flatMap opPrices

/-- Ladder and replay agree at every price that the updates may name. -/
structure Tracks (prices : List String) (ladder : PriceLadder) (levels : NumericSide) :
    Prop where
  agree : ∀ price ∈ prices, levels (fractionValue price) = ladder.sizeAt price
  ladder_mem : ∀ price, ladder.sizeAt price ≠ none → price ∈ prices
  levels_mem : ∀ x, levels x ≠ none → ∃ price ∈ prices, fractionValue price = x

variable {prices : List String} {assetId : String} {side : Side} {ladder : PriceLadder}
  {levels : NumericSide} {op : BookOp} {ops : List BookOp}

theorem reportedBest_eq (manager : OrderBookManager) (assetId : String) (side : Side) :
    reportedBest manager assetId side = (manager.ladder assetId side).best side := by
  cases h : manager.books assetId with
  | none =>
      have hempty : (PriceLadder.empty).best side = none :=
        PriceLadder.best_eq_none_iff.mpr PriceLadder.sizeAt_empty
      rw [manager.ladder_of_none _ _ h, hempty]
      simp [reportedBest, OrderBookManager.getSnapshot, h]
  | some book =>
      rw [manager.ladder_of_some _ _ h]
      cases side <;> simp [reportedBest, OrderBookManager.getSnapshot, h, snapshotBest,
        BookState.toSnapshot, BookState.ladder, PriceLadder.best]

theorem booksAfter_concat (ops : List BookOp) (op : BookOp) :
    booksAfter (ops ++ [op]) = op.apply (booksAfter ops) := by
  rw [booksAfter, List.foldl_concat]
  rfl

theorem numericReplay_concat (assetId : String) (side : Side) (ops : List BookOp)
    (op : BookOp) :
    numericReplay assetId side (ops ++ [op]) =
      if op.Concerns assetId then numericStep side (numericReplay assetId side ops) op
      else numericReplay assetId side ops := by
  by_cases h : op.Concerns assetId
  · rw [if_pos h, numericReplay, List.filter_append, List.filter_singleton, decide_eq_true h]
    exact List.foldl_concat ..
  · simp [numericReplay, h]

theorem sideLevels_price_mem {update : BookUpdate} {level : WsOrderBookLevel}
    (h : level ∈ sideLevels update side) :
    level.price ∈ opPrices (.bookUpdate update) := by
  apply List.mem_map_of_mem
  cases side with
  | buy => exact List.mem_append_left _ h
  | sell => exact List.mem_append_right _ h

theorem lastWith_value_eq (hspelled : SpelledOnce prices) {levels : List WsOrderBookLevel}
    (hsub : ∀ level ∈ levels, level.price ∈ prices) {price : String} (hprice : price ∈ prices) :
    lastWith (fun level => fractionValue level.price) (fractionValue price) levels =
      lastWith WsOrderBookLevel.price price levels := by
  refine lastWith_comp fun level hlevel hsame => ?_
  exact hspelled _ (hsub level hlevel) _ hprice hsame

theorem tracks_empty (prices : List String) : Tracks prices .empty fun _ => none :=
  { agree := fun _ _ => (PriceLadder.sizeAt_empty _).symm
    ladder_mem := fun _ h => absurd (PriceLadder.sizeAt_empty _) h
    levels_mem := fun _ h => absurd rfl h }

theorem tracks_bookUpdate (hspelled : SpelledOnce prices) {update : BookUpdate}
    (hsub : opPrices (.bookUpdate update) ⊆ prices) :
    Tracks prices (ladder.applyLevels (sideLevels update side))
      (numericStep side levels (.bookUpdate update)) := by
  have hmem : ∀ level ∈ sideLevels update side, level.price ∈ prices :=
    fun level h => hsub (sideLevels_price_mem h)
  constructor
  · intro price hprice
    rw [PriceLadder.sizeAt_applyLevels, ← lastWith_value_eq hspelled hmem hprice]
    rfl
  · intro price h
    rw [PriceLadder.sizeAt_applyLevels] at h
    obtain ⟨size, hsize⟩ := Option.ne_none_iff_exists'.mp h
    obtain ⟨level, hlast, -⟩ := Option.map_eq_some_iff.mp hsize
    obtain ⟨hlevel, rfl⟩ := mem_of_lastWith hlast
    exact hmem level hlevel
  · intro x h
    obtain ⟨size, hsize⟩ := Option.ne_none_iff_exists'.mp h
    obtain ⟨level, hlast, -⟩ := Option.map_eq_some_iff.mp hsize
    obtain ⟨hlevel, rfl⟩ := mem_of_lastWith hlast
    exact ⟨level.price, hmem level hlevel, rfl⟩

theorem tracks_upsert (hspelled : SpelledOnce prices) {entry : PriceChangeBatchEntry}
    (hentry : entry.price ∈ prices) (h : Tracks prices ladder levels) :
    Tracks prices (ladder.upsert entry.price (entry.size.getD "0"))
      (Function.update levels (fractionValue entry.price) (entrySize entry)) := by
  constructor
  · intro price hprice
    have hsame : fractionValue price = fractionValue entry.price ↔ entry.price = price :=
      ⟨fun heq => (hspelled _ hprice _ hentry heq).symm, fun heq => heq ▸ rfl⟩
    rw [PriceLadder.sizeAt_upsert, Function.update_apply, h.agree price hprice]
    simp only [hsame, entrySize]
  · intro price hsize
    rw [PriceLadder.sizeAt_upsert] at hsize
    split at hsize
    · rename_i heq
      exact heq ▸ hentry
    · exact h.ladder_mem price hsize
  · intro x hsize
    rw [Function.update_apply] at hsize
    split at hsize
    · rename_i heq
      exact ⟨entry.price, hentry, heq.symm⟩
    · exact h.levels_mem x hsize

theorem tracks_step (hspelled : SpelledOnce prices) {manager : OrderBookManager}
    (hsub : opPrices op ⊆ prices) (hconcerns : op.Concerns assetId)
    (h : Tracks prices (manager.ladder assetId side) levels) :
    Tracks prices ((op.apply manager).ladder assetId side) (numericStep side levels op) := by
  cases op with
  | bookUpdate update =>
      obtain rfl : update.assetId = assetId := hconcerns
      rw [BookOp.apply, OrderBookManager.ladder_applyBookUpdate]
      exact tracks_bookUpdate hspelled hsub
  | priceChange entry timestampMs =>
      obtain rfl : entry.assetId = assetId := hconcerns
      rw [BookOp.apply, OrderBookManager.ladder_applyPriceChange, numericStep]
      split
      · exact tracks_upsert hspelled (hsub (by simp [opPrices])) h
      · exact h
  | clearAll =>
      rw [OrderBookManager.ladder_of_none _ _ _ rfl]
      exact tracks_empty prices
  | clearAsset cleared =>
      obtain rfl : cleared = assetId := hconcerns
      rw [OrderBookManager.ladder_of_none _ _ _ (PartialMap.erase_self ..)]
      exact tracks_empty prices

theorem tracks_run (hspelled : SpelledOnce prices) (assetId : String) (side : Side)
    (hsub : pricesOf ops ⊆ prices) :
    Tracks prices ((booksAfter ops).ladder assetId side) (numericReplay assetId side ops) := by
  induction ops using List.reverseRecOn with
  | nil => exact tracks_empty prices
  | append_singleton ops op ih =>
      simp only [pricesOf, List.flatMap_append, List.flatMap_singleton,
        List.append_subset] at hsub ih
      have hops := ih hsub.1
      rw [booksAfter_concat, numericReplay_concat]
      split
      · rename_i hconcerns
        exact tracks_step hspelled hsub.2 hconcerns hops
      · rename_i hconcerns
        have hframe := op.apply_of_not_concerns (booksAfter ops) assetId hconcerns
        rw [OrderBookManager.ladder_congr hframe]
        exact hops

theorem Tracks.holdsExactly (hspelled : SpelledOnce prices) (h : Tracks prices ladder levels) :
    HoldsExactly ladder levels := by
  constructor
  · intro x size
    constructor
    · intro hx
      obtain ⟨price, hprice, rfl⟩ := h.levels_mem x (by simp [hx])
      exact ⟨price, rfl, (h.agree price hprice).symm.trans hx⟩
    · rintro ⟨price, rfl, hsize⟩
      rw [h.agree price (h.ladder_mem price (by simp [hsize])), hsize]
  · intro p q hp hq
    exact hspelled p (h.ladder_mem p hp) q (h.ladder_mem q hq)

theorem noWorse_fractionValue_iff {p q : String} (hp : IsFraction p) (hq : IsFraction q)
    (hspelled : fractionValue p = fractionValue q → p = q) :
    NoWorse side (fractionValue p) (fractionValue q) ↔ NoWorse side p q := by
  cases side with
  | buy => exact fractionValue_le_iff hq hp fun h => (hspelled h.symm).symm
  | sell => exact fractionValue_le_iff hp hq hspelled

theorem Tracks.isBestLevel (hform : ∀ price ∈ prices, IsFraction price)
    (hspelled : SpelledOnce prices) (h : Tracks prices ladder levels) (side : Side) :
    IsBestLevel side levels (ladder.best side) := by
  have hholds := h.holdsExactly hspelled
  cases hbest : ladder.best side with
  | none =>
      intro x
      apply Option.eq_none_iff_forall_ne_some.mpr
      intro size hx
      obtain ⟨price, -, hsize⟩ := (hholds.levels_iff x size).mp hx
      rw [PriceLadder.best_eq_none_iff.mp hbest price] at hsize
      exact absurd hsize (by simp)
  | some level =>
      obtain ⟨hsize, hworst⟩ := PriceLadder.best_eq_some_iff.mp hbest
      have hlevel := h.ladder_mem level.price (by simp [hsize])
      constructor
      · exact (hholds.levels_iff _ _).mpr ⟨level.price, rfl, hsize⟩
      · intro x size hx
        obtain ⟨price, rfl, hother⟩ := (hholds.levels_iff x size).mp hx
        have hprice := h.ladder_mem price (by simp [hother])
        apply (noWorse_fractionValue_iff (hform _ hlevel) (hform _ hprice)
          (hspelled _ hlevel _ hprice)).mpr
        exact hworst price size hother

/-- The books hold exactly the numeric replay of each asset's own updates, and
report its numerically best levels. -/
theorem ladders_refine_numericReplay (ops : List BookOp)
    (hform : ∀ price ∈ pricesOf ops, IsFraction price)
    (hspelled : SpelledOnce (pricesOf ops)) :
    (∀ assetId side, HoldsExactly ((booksAfter ops).ladder assetId side)
      (numericReplay assetId side ops)) ∧
    (∀ assetId side, IsBestLevel side (numericReplay assetId side ops)
      (reportedBest (booksAfter ops) assetId side)) ∧
    (∀ (op : BookOp) (assetId : String), ¬ op.Concerns assetId →
      (op.apply (booksAfter ops)).books assetId = (booksAfter ops).books assetId) := by
  have htracks := fun assetId side =>
    tracks_run hspelled assetId side (List.Subset.refl (pricesOf ops))
  refine ⟨?_, ?_, ?_⟩
  · intro assetId side
    exact (htracks assetId side).holdsExactly hspelled
  · intro assetId side
    rw [reportedBest_eq]
    exact (htracks assetId side).isBestLevel hform hspelled side
  · intro op assetId
    exact op.apply_of_not_concerns _ assetId

def sampleBook : BookUpdate :=
  { assetId := "yes", market := "m", timestamp := "1700000000000"
    bids := [⟨"0.5", "100"⟩, ⟨"0.495", "20"⟩], asks := [⟨"0.51", "40"⟩], hash := none }

def sampleEntry : PriceChangeBatchEntry :=
  { assetId := "yes", price := "0.5", size := some "0", side := .buy, hash := none
    bestBid := none, bestAsk := none }

def sampleOps : List BookOp :=
  [.bookUpdate sampleBook, .priceChange sampleEntry 1700000000001, .clearAsset "no"]

theorem ladders_refine_numericReplay_sample :
    (∀ price ∈ pricesOf sampleOps, IsFraction price) ∧ SpelledOnce (pricesOf sampleOps) ∧
      HoldsExactly ((booksAfter sampleOps).ladder "yes" .buy)
        (numericReplay "yes" .buy sampleOps) := by
  have hform : ∀ price ∈ pricesOf sampleOps, IsFraction price := by decide
  have hspelled : SpelledOnce (pricesOf sampleOps) := by decide +kernel
  exact ⟨hform, hspelled, (ladders_refine_numericReplay sampleOps hform hspelled).1 "yes" .buy⟩

end Rtt.BookReplay
