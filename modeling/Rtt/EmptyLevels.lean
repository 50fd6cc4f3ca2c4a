import Rtt.BookReplay
import Rtt.Machine

namespace Rtt.EmptyLevels

open Rtt.Quote
open Rtt.Machine
open Rtt.Decimal
open Rtt.KeyIndex
open Rtt.PublicEvent
open Rtt.MarketMessages
open Rtt.OrderBook
open Rtt.BookReplay

section Readings

-- which texts are read as a size of zero
variable (SpellsZero : String → Prop)

/-- No level that an update leaves in a book is empty: each level of a full book
that counts for its price, and each delta but a removal, has a size other than
zero. -/
def Fills : BookOp → Prop
  | .bookUpdate update => ∀ side level,
      lastWith WsOrderBookLevel.price level.price (sideLevels update side) = some level →
        ¬ SpellsZero level.size
  | .priceChange entry _ =>
      ¬ IsZeroSize (entry.size.getD "0") → ¬ SpellsZero (entry.size.getD "0")
  | .clearAll | .clearAsset _ => True

/-- No ladder holds a level of size zero, however deep. -/
def AllFilled (manager : OrderBookManager) : Prop :=
  ∀ assetId side price size, (manager.ladder assetId side).sizeAt price = some size →
    ¬ SpellsZero size

/-- No best level that the manager reports has size zero. -/
def BestsFilled (manager : OrderBookManager) : Prop :=
  ∀ assetId side level, reportedBest manager assetId side = some level → ¬ SpellsZero level.size

end Readings

variable {SpellsZero : String → Prop} {manager : OrderBookManager} {op : BookOp}
  {assetId : String} {side : Side}

theorem AllFilled.bestsFilled (h : AllFilled SpellsZero manager) :
    BestsFilled SpellsZero manager := by
  intro assetId side level hbest
  rw [reportedBest_eq] at hbest
  exact h assetId side level.price level.size (PriceLadder.best_eq_some_iff.mp hbest).1

theorem allFilled_booksAfter_nil : AllFilled SpellsZero (booksAfter []) := by
  intro assetId side price size hsize
  rw [OrderBookManager.ladder_of_none _ _ _ rfl, PriceLadder.sizeAt_empty] at hsize
  exact absurd hsize (by simp)

theorem entrySize_eq_some_iff {entry : PriceChangeBatchEntry} {size : String} :
    entrySize entry = some size ↔
      ¬ IsZeroSize (entry.size.getD "0") ∧ entry.size.getD "0" = size := by
  unfold entrySize
  split <;> simp [*]

theorem fills_of_allFilled_apply (h : AllFilled SpellsZero (op.apply manager)) :
    Fills SpellsZero op := by
  cases op with
  | bookUpdate update =>
      intro side level hlast
      apply h update.assetId side level.price
      have hconcerns : (BookOp.bookUpdate update).Concerns update.assetId := rfl
      rw [BookOp.sizeAt_apply _ _ _ _ _ hconcerns]
      exact Option.map_eq_some_iff.mpr ⟨level, hlast, rfl⟩
  | priceChange entry timestampMs =>
      intro hsize
      apply h entry.assetId entry.side entry.price
      have hconcerns : (BookOp.priceChange entry timestampMs).Concerns entry.assetId := rfl
      rw [BookOp.sizeAt_apply _ _ _ _ _ hconcerns]
      exact (if_pos ⟨rfl, rfl⟩).trans (entrySize_eq_some_iff.mpr ⟨hsize, rfl⟩)
  | clearAll => trivial
  | clearAsset cleared => trivial

theorem allFilled_apply (h : AllFilled SpellsZero manager) (hfills : Fills SpellsZero op) :
    AllFilled SpellsZero (op.apply manager) := by
  intro assetId side price size hsize
  by_cases hconcerns : op.Concerns assetId
  · rw [BookOp.sizeAt_apply _ _ _ _ _ hconcerns] at hsize
    cases op with
    | bookUpdate update =>
        obtain ⟨level, hlast, rfl⟩ := Option.map_eq_some_iff.mp hsize
        obtain rfl := (mem_of_lastWith hlast).2
        exact hfills side level hlast
    | priceChange entry timestampMs =>
        simp only at hsize
        split at hsize
        · obtain ⟨hnonzero, rfl⟩ := entrySize_eq_some_iff.mp hsize
          exact hfills hnonzero
        · exact h assetId side price size hsize
    | clearAll => exact absurd hsize (by simp)
    | clearAsset cleared => exact absurd hsize (by simp)
  · rw [OrderBookManager.ladder_congr (op.apply_of_not_concerns manager assetId hconcerns)]
      at hsize
    exact h assetId side price size hsize

theorem allFilled_iff (ops : List BookOp) :
    (∀ pre, pre <+: ops → AllFilled SpellsZero (booksAfter pre)) ↔
      ∀ op ∈ ops, Fills SpellsZero op := by
  rw [← forall_prefix_last_iff]
  apply forall_prefix_iff_of_concat allFilled_booksAfter_nil
  intro pre op h
  rw [booksAfter_concat]
  exact ⟨fills_of_allFilled_apply, allFilled_apply h⟩

section Removals

/-- The removal of one level, in the spelling that the ladder knows. -/
def removal (assetId : String) (side : Side) (price : String) : BookOp :=
  .priceChange
    { assetId, price, size := some "0", side, hash := none, bestBid := none, bestAsk := none } 0

def IsRemoval (op : BookOp) : Prop :=
  ∃ entry timestampMs, op = .priceChange entry timestampMs ∧ entry.size = some "0"

theorem isRemoval_removal (assetId : String) (side : Side) (price : String) :
    IsRemoval (removal assetId side price) :=
  ⟨_, _, rfl, rfl⟩

theorem sizeAt_removals (manager : OrderBookManager) (assetId : String) (side : Side)
    (prices : List String) (price : String) :
    (((prices.map (removal assetId side)).foldl BookOp.apply manager).ladder assetId side).sizeAt
        price =
      if price ∈ prices then none else (manager.ladder assetId side).sizeAt price := by
  induction prices using List.reverseRecOn with
  | nil => simp
  | append_singleton prices removed ih =>
      rw [List.map_append, List.foldl_append]
      simp only [List.map_cons, List.map_nil, List.foldl_cons, List.foldl_nil]
      have hconcerns : (removal assetId side removed).Concerns assetId := rfl
      rw [BookOp.sizeAt_apply _ _ _ _ _ hconcerns, ih]
      simp only [removal, entrySize, List.mem_append, List.mem_singleton, true_and]
      by_cases heq : removed = price
      · simp [heq, IsZeroSize]
      · simp [heq, Ne.symm heq]

theorem exists_removals_best {price size : String}
    (h : (manager.ladder assetId side).sizeAt price = some size) :
    ∃ removals : List BookOp, (∀ op ∈ removals, IsRemoval op) ∧
      reportedBest (removals.foldl BookOp.apply manager) assetId side = some ⟨price, size⟩ := by
  let others := ((manager.ladder assetId side).levels.toList.map Prod.fst).filter (· ≠ price)
  refine ⟨others.map (removal assetId side), ?_, ?_⟩
  · intro op hop
    obtain ⟨removed, -, rfl⟩ := List.mem_map.mp hop
    exact isRemoval_removal assetId side removed
  · rw [reportedBest_eq, PriceLadder.best_eq_some_iff]
    constructor
    · rw [sizeAt_removals, if_neg (by simp [others])]
      exact h
    · intro other otherSize hother
      rw [sizeAt_removals] at hother
      split at hother
      · exact absurd hother (by simp)
      · rename_i hnotMem
        have hlisted : other ∈ (manager.ladder assetId side).levels.toList.map Prod.fst :=
          List.mem_map.mpr ⟨(other, otherSize),
            Std.TreeMap.mem_toList_iff_getElem?_eq_some.mpr hother, rfl⟩
        have hsame : other = price := by
          by_contra hne
          exact hnotMem (List.mem_filter.mpr ⟨hlisted, by simpa using hne⟩)
        exact hsame ▸ NoWorse.refl side other

end Removals

theorem booksAfter_append (ops more : List BookOp) :
    booksAfter (ops ++ more) = more.foldl BookOp.apply (booksAfter ops) := by
  rw [booksAfter, List.foldl_append]
  rfl

theorem IsRemoval.fills (h : IsRemoval op) : Fills SpellsZero op := by
  obtain ⟨entry, timestampMs, rfl, hsize⟩ := h
  intro hnonzero
  exact absurd (by rw [hsize]; exact Or.inl rfl) hnonzero

/-- Whatever texts spell zero, no best level is empty when no update leaves an empty
level.  An update that leaves one makes a best level empty, at once or after removals. -/
theorem no_empty_best_iff (SpellsZero : String → Prop) (ops : List BookOp) :
    ((∀ op ∈ ops, Fills SpellsZero op) →
        ∀ pre, pre <+: ops → BestsFilled SpellsZero (booksAfter pre)) ∧
      ((∀ pre, pre <+: ops → ∀ removals, (∀ op ∈ removals, IsRemoval op) →
        BestsFilled SpellsZero (booksAfter (pre ++ removals))) ↔
          ∀ op ∈ ops, Fills SpellsZero op) := by
  constructor
  · intro hfills pre hpre
    exact ((allFilled_iff ops).mpr hfills pre hpre).bestsFilled
  · constructor
    · intro h
      apply (allFilled_iff ops).mp
      intro pre hpre assetId side price size hsize
      obtain ⟨removals, hremovals, hbest⟩ := exists_removals_best hsize
      rw [← booksAfter_append] at hbest
      exact h pre hpre removals hremovals assetId side _ hbest
    · intro hfills pre hpre removals hremovals
      apply AllFilled.bestsFilled
      apply (allFilled_iff (pre ++ removals)).mpr _ _ List.prefix_rfl
      intro op hop
      rcases List.mem_append.mp hop with hop | hop
      · exact hfills op (hpre.subset hop)
      · exact (hremovals op hop).fills

/-- A removal that spells its zero with three places. -/
def longZero : BookOp := .priceChange { sampleEntry with size := some "0.000" } 1700000000001

theorem denotes_longZero : Denotes "0.000" 0 := by
  refine ⟨⟨['0'], some ['0', '0', '0'], by simp, by simp, by simp⟩, rfl, ?_⟩
  simp [Numeral.value, Numeral.places, Nat.ofDigitChars_cons]

theorem long_zero_stays_best :
    ¬ ∀ pre, pre <+: [.bookUpdate sampleBook, longZero] →
      BestsFilled (fun size => Denotes size 0) (booksAfter pre) := by
  intro h
  have hbest : reportedBest (booksAfter [.bookUpdate sampleBook, longZero]) "yes" .buy =
      some ⟨"0.5", "0.000"⟩ := by
    decide +kernel
  exact h _ List.prefix_rfl "yes" .buy _ hbest denotes_longZero

end Rtt.EmptyLevels
