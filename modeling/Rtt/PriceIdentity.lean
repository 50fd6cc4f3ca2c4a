import Rtt.BookReplay
import Rtt.Machine

namespace Rtt.PriceIdentity

open Rtt.Quote
open Rtt.Machine
open Rtt.Decimal
open Rtt.DecimalOrder
open Rtt.KeyIndex
open Rtt.PublicEvent
open Rtt.MarketMessages
open Rtt.OrderBook
open Rtt.BookReplay

/-- The number that a decimal text stands for, in any spelling. -/
def decimalValue (s : String) : ℚ :=
  let parts := s.toList.splitOn '.'
  Nat.ofDigitChars 10 (parts[0]?.getD []) 0 + placesValue (parts[1]?.getD [])

section

variable (value : String → ℚ)

/-- An update replayed with prices as numbers, whatever their spelling. -/
def replayStep (side : Side) (levels : NumericSide) : BookOp → NumericSide
  | .bookUpdate update => fun x =>
      (lastWith (fun level => value level.price) x (sideLevels update side)).map
        WsOrderBookLevel.size
  | .priceChange entry _ =>
      if entry.side = side then Function.update levels (value entry.price) (entrySize entry)
      else levels
  | .clearAll | .clearAsset _ => fun _ => none

/-- The replay of an asset's own updates, keyed by the number of each price. -/
def replay (assetId : String) (side : Side) (ops : List BookOp) : NumericSide :=
  (ops.filter fun op => op.Concerns assetId).foldl (replayStep value side) fun _ => none

/-- The ladder holds the levels of the replay, one for each number. -/
structure HoldsBy (ladder : PriceLadder) (levels : NumericSide) : Prop where
  levels_iff : ∀ x size, levels x = some size ↔
    ∃ price, value price = x ∧ ladder.sizeAt price = some size
  spelled : ∀ p q, ladder.sizeAt p ≠ none → ladder.sizeAt q ≠ none → value p = value q → p = q

/-- An update spells no number in a second way: a full book none of those it
lists, a delta none that its side of the book holds. -/
def SpelledAlike (manager : OrderBookManager) : BookOp → Prop
  | .bookUpdate update => ∀ side, ∀ level ∈ sideLevels update side,
      ∀ other ∈ sideLevels update side, value level.price = value other.price →
        level.price = other.price
  | .priceChange entry _ => ∀ price,
      (manager.ladder entry.assetId entry.side).sizeAt price ≠ none →
        value price = value entry.price → price = entry.price
  | .clearAll | .clearAsset _ => True

variable {value} {ladder : PriceLadder} {levels : NumericSide}

theorem holdsBy_empty : HoldsBy value .empty fun _ => none := by
  constructor
  · intro x size
    simp
  · intro p q hp
    exact absurd (PriceLadder.sizeAt_empty p) hp

theorem exists_level_of_sizeAt {listed : List WsOrderBookLevel} {price : String}
    (h : (ladder.applyLevels listed).sizeAt price ≠ none) :
    ∃ level ∈ listed, level.price = price := by
  rw [PriceLadder.sizeAt_applyLevels, ne_eq, Option.map_eq_none_iff, lastWith_eq_none_iff] at h
  push Not at h
  exact h

theorem holdsBy_applyLevels_iff {listed : List WsOrderBookLevel} :
    HoldsBy value (ladder.applyLevels listed)
        (fun x => (lastWith (fun level => value level.price) x listed).map WsOrderBookLevel.size) ↔
      ∀ level ∈ listed, ∀ other ∈ listed, value level.price = value other.price →
        level.price = other.price := by
  constructor
  · intro h level hlevel other hother hvalue
    have hlive : ∀ l ∈ listed, (ladder.applyLevels listed).sizeAt l.price ≠ none := by
      intro l hl hnone
      rw [PriceLadder.sizeAt_applyLevels, Option.map_eq_none_iff] at hnone
      exact lastWith_eq_none_iff.mp hnone l hl rfl
    exact h.spelled _ _ (hlive level hlevel) (hlive other hother) hvalue
  · intro halike
    have hlast : ∀ level ∈ listed,
        lastWith (fun l => value l.price) (value level.price) listed =
          lastWith WsOrderBookLevel.price level.price listed :=
      fun level hlevel => lastWith_comp fun other hother => halike other hother level hlevel
    constructor
    · intro x size
      constructor
      · intro hx
        obtain ⟨level, hlevel, rfl⟩ := Option.map_eq_some_iff.mp hx
        obtain ⟨hmem, rfl⟩ := mem_of_lastWith hlevel
        refine ⟨level.price, rfl, ?_⟩
        rw [PriceLadder.sizeAt_applyLevels, ← hlast level hmem, hlevel, Option.map_some]
      · rintro ⟨price, rfl, hsize⟩
        rw [PriceLadder.sizeAt_applyLevels] at hsize
        obtain ⟨level, hlevel, rfl⟩ := Option.map_eq_some_iff.mp hsize
        obtain ⟨hmem, rfl⟩ := mem_of_lastWith hlevel
        rw [hlast level hmem, hlevel, Option.map_some]
    · intro p q hp hq hvalue
      obtain ⟨level, hlevel, rfl⟩ := exists_level_of_sizeAt hp
      obtain ⟨other, hother, rfl⟩ := exists_level_of_sizeAt hq
      exact halike level hlevel other hother hvalue

section Upsert

variable {price size : String}

theorem HoldsBy.of_upsert (h : HoldsBy value (ladder.upsert price size)
      (Function.update levels (value price) (if IsZeroSize size then none else some size)))
    {other : String} (hlive : ladder.sizeAt other ≠ none) (hvalue : value other = value price) :
    other = price := by
  by_contra hne
  obtain ⟨otherSize, hsize⟩ := Option.ne_none_iff_exists'.mp hlive
  have hkept : (ladder.upsert price size).sizeAt other = some otherSize := by
    rw [PriceLadder.sizeAt_upsert_of_ne ladder hne, hsize]
  have hstored := (h.levels_iff (value price) otherSize).mpr ⟨other, hvalue, hkept⟩
  rw [Function.update_self] at hstored
  have hown : (ladder.upsert price size).sizeAt price = some otherSize := by
    rw [PriceLadder.sizeAt_upsert_self, hstored]
  exact hne (h.spelled other price (by simp [hkept]) (by simp [hown]) hvalue)

theorem HoldsBy.upsert (h : HoldsBy value ladder levels)
    (halike : ∀ other, ladder.sizeAt other ≠ none → value other = value price → other = price) :
    HoldsBy value (ladder.upsert price size)
      (Function.update levels (value price) (if IsZeroSize size then none else some size)) := by
  have hlive : ∀ other, (ladder.upsert price size).sizeAt other ≠ none → other ≠ price →
      ladder.sizeAt other ≠ none := by
    intro other hsize hne
    rwa [PriceLadder.sizeAt_upsert_of_ne ladder hne] at hsize
  have hapart : ∀ other, (ladder.upsert price size).sizeAt other ≠ none → other ≠ price →
      value other ≠ value price :=
    fun other hsize hne hvalue => hne (halike other (hlive other hsize hne) hvalue)
  constructor
  · intro x otherSize
    rw [Function.update_apply]
    split
    · rename_i hx
      subst hx
      constructor
      · intro hstored
        exact ⟨price, rfl, by rw [PriceLadder.sizeAt_upsert_self, hstored]⟩
      · rintro ⟨other, hvalue, hsize⟩
        rcases eq_or_ne other price with rfl | hne
        · rwa [PriceLadder.sizeAt_upsert_self] at hsize
        · exact absurd hvalue (hapart other (by simp [hsize]) hne)
    · rename_i hx
      rw [h.levels_iff]
      refine exists_congr fun other => and_congr_right ?_
      rintro rfl
      have hne : other ≠ price := fun heq => hx (congrArg value heq)
      rw [PriceLadder.sizeAt_upsert_of_ne ladder hne]
  · intro p q hp hq hvalue
    rcases eq_or_ne p price with rfl | hpPrice
    · by_contra hne
      exact hapart q hq (Ne.symm hne) hvalue.symm
    · rcases eq_or_ne q price with rfl | hqPrice
      · exact absurd hvalue (hapart p hp hpPrice)
      · exact h.spelled p q (hlive p hp hpPrice) (hlive q hq hqPrice) hvalue

theorem holdsBy_upsert_iff (h : HoldsBy value ladder levels) :
    HoldsBy value (ladder.upsert price size)
        (Function.update levels (value price) (if IsZeroSize size then none else some size)) ↔
      ∀ other, ladder.sizeAt other ≠ none → value other = value price → other = price :=
  ⟨fun hnext _ => hnext.of_upsert, h.upsert⟩

end Upsert

variable (value) in
/-- Every side of every book is the replay of the updates by number. -/
def BooksHold (ops : List BookOp) : Prop :=
  ∀ assetId side, HoldsBy value ((booksAfter ops).ladder assetId side)
    (replay value assetId side ops)

variable {ops : List BookOp} {op : BookOp}

theorem replay_concat (assetId : String) (side : Side) (ops : List BookOp) (op : BookOp) :
    replay value assetId side (ops ++ [op]) =
      if op.Concerns assetId then replayStep value side (replay value assetId side ops) op
      else replay value assetId side ops := by
  by_cases h : op.Concerns assetId
  · rw [if_pos h, replay, List.filter_append, List.filter_singleton, decide_eq_true h]
    exact List.foldl_concat ..
  · simp [replay, h]

theorem booksHold_concat_iff_concerned (h : BooksHold value ops) :
    BooksHold value (ops ++ [op]) ↔ ∀ assetId side, op.Concerns assetId →
      HoldsBy value ((op.apply (booksAfter ops)).ladder assetId side)
        (replayStep value side (replay value assetId side ops) op) := by
  constructor
  · intro hnext assetId side hconcerns
    have hside := hnext assetId side
    rwa [booksAfter_concat, replay_concat, if_pos hconcerns] at hside
  · intro hconcerned assetId side
    rw [booksAfter_concat, replay_concat]
    split
    · rename_i hconcerns
      exact hconcerned assetId side hconcerns
    · rename_i hconcerns
      rw [OrderBookManager.ladder_congr (op.apply_of_not_concerns _ assetId hconcerns)]
      exact h assetId side

theorem booksHold_concat_iff (h : BooksHold value ops) :
    BooksHold value (ops ++ [op]) ↔ SpelledAlike value (booksAfter ops) op := by
  rw [booksHold_concat_iff_concerned h]
  cases op with
  | bookUpdate update =>
      constructor
      · intro hconcerned side
        have hside := hconcerned update.assetId side rfl
        rw [BookOp.apply, OrderBookManager.ladder_applyBookUpdate] at hside
        exact holdsBy_applyLevels_iff.mp hside
      · rintro halike assetId side rfl
        rw [BookOp.apply, OrderBookManager.ladder_applyBookUpdate]
        exact holdsBy_applyLevels_iff.mpr (halike side)
  | priceChange entry timestampMs =>
      constructor
      · intro hconcerned
        have hside := hconcerned entry.assetId entry.side rfl
        rw [BookOp.apply, OrderBookManager.ladder_applyPriceChange, if_pos rfl, replayStep,
          if_pos rfl] at hside
        exact (holdsBy_upsert_iff (h entry.assetId entry.side)).mp hside
      · rintro halike assetId side rfl
        rw [BookOp.apply, OrderBookManager.ladder_applyPriceChange, replayStep]
        split
        · rename_i hside
          subst hside
          exact (holdsBy_upsert_iff (h entry.assetId entry.side)).mpr halike
        · exact h entry.assetId side
  | clearAll =>
      refine iff_of_true ?_ trivial
      intro assetId side _
      rw [OrderBookManager.ladder_of_none _ _ _ rfl]
      exact holdsBy_empty
  | clearAsset cleared =>
      refine iff_of_true ?_ trivial
      rintro assetId side rfl
      rw [OrderBookManager.ladder_of_none _ _ _ (PartialMap.erase_self ..)]
      exact holdsBy_empty

theorem booksHold_nil : BooksHold value [] := by
  intro assetId side
  rw [OrderBookManager.ladder_of_none _ _ _ rfl]
  exact holdsBy_empty

variable (value) in
theorem booksHold_iff (ops : List BookOp) :
    (∀ pre, pre <+: ops → BooksHold value pre) ↔
      ∀ pre op, pre ++ [op] <+: ops → SpelledAlike value (booksAfter pre) op :=
  forall_prefix_iff_of_concat booksHold_nil (fun _ _ h => booksHold_concat_iff h) ops

end

/-- The books are the replay keyed by numeric price exactly as long as no update
spells a number in a second way. -/
theorem price_identity_iff (ops : List BookOp) :
    (∀ pre, pre <+: ops → BooksHold decimalValue pre) ↔
      ∀ pre op, pre ++ [op] <+: ops → SpelledAlike decimalValue (booksAfter pre) op :=
  booksHold_iff decimalValue ops

def tenthBook : BookUpdate := { sampleBook with bids := [⟨"0.1", "5"⟩], asks := [] }

/-- A removal of the price 0.1 under its second spelling. -/
def respelledRemoval : BookOp :=
  .priceChange { sampleEntry with price := "0.10" } 1700000000001

theorem respelled_level_stays :
    ¬ ∀ pre, pre <+: [.bookUpdate tenthBook, respelledRemoval] → BooksHold decimalValue pre := by
  intro h
  have hlive : ((booksAfter [.bookUpdate tenthBook, respelledRemoval]).ladder "yes" .buy).sizeAt
      "0.1" = some "5" := by
    decide +kernel
  have hremoved : replay decimalValue "yes" .buy [.bookUpdate tenthBook, respelledRemoval]
      (decimalValue "0.1") = none := by
    decide +kernel
  have hghost := ((h _ List.prefix_rfl "yes" .buy).levels_iff _ _).mpr ⟨"0.1", rfl, hlive⟩
  rw [hremoved] at hghost
  exact absurd hghost (by simp)

end Rtt.PriceIdentity
