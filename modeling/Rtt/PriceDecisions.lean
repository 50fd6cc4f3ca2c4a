import Rtt.Backtest
import Rtt.MarketPaths
import Mathlib.Data.List.ReduceOption

namespace Rtt.PriceDecisions

open Rtt.Quote
open Rtt.Machine
open Rtt.DecimalOrder
open Rtt.PublicEvent
open Rtt.MarketMessages
open Rtt.OrderBook
open Rtt.BookReplay
open Rtt.HotState
open Rtt.TopOfBook
open Rtt.LadderBest
open Rtt.MarketPaths
open Rtt.StrategyContract
open Rtt.Backtest

/-- The snapshots have the same asset and the same best prices. -/
structure SamePrices (a b : OrderBookSnapshot) : Prop where
  assetId : a.assetId = b.assetId
  bestBid : a.bestBid.map PriceLevel.price = b.bestBid.map PriceLevel.price
  bestAsk : a.bestAsk.map PriceLevel.price = b.bestAsk.map PriceLevel.price

/-- What a strategy does next depends on its state, the asset and the best prices. -/
def PriceOnly {σ : Type*} (strategy : Strategy σ) : Prop :=
  ∀ state a b, SamePrices a b → strategy.onBookUpdate state a = strategy.onBookUpdate state b

/-- The full ladders after an update, and their snapshot of its asset. -/
def ladderStep (books : OrderBookManager) (step : BookStep) :
    OrderBookManager × Option OrderBookSnapshot :=
  (step.op.apply books, (step.op.apply books).getSnapshot step.assetId)

/-- The snapshots that the legacy path takes after each update. -/
def legacySnapshots (books : OrderBookManager) (steps : List BookStep) :
    List OrderBookSnapshot :=
  (outputs ladderStep books steps).reduceOption

def sideHint (entry : PriceChangeBatchEntry) : Side → Option String
  | .buy => entry.bestBid
  | .sell => entry.bestAsk

/-- Sizes are readable, and a price change carries the best prices after it. -/
def Hinted (books : OrderBookManager) : BookStep → Prop
  | .full update => ∀ side, ∀ level ∈ sideLevels update side, parseScaled level.size ≠ none
  | .delta event entry => parseScaled (entry.size.getD "0") ≠ none ∧ ∀ side, ∃ level,
      (((BookStep.delta event entry).op.apply books).ladder entry.assetId side).best side =
          some level ∧
        sideHint entry side = some level.price

/-- What both paths know of the prices of a side. -/
structure PriceMirrors (prices : List String) (current : Option HotBookLevel)
    (ladder : PriceLadder) (side : Side) : Prop where
  price : current.map (fun level => level.price.exact) = (ladder.best side).map PriceLevel.price
  parsed : ∀ level, current = some level → LevelParsed level
  prices : ∀ price, ladder.sizeAt price ≠ none → price ∈ prices

/-- Both paths show the same best prices of every asset. -/
structure PathsAlike (prices : List String) (paths : Paths) : Prop where
  sides : ∀ assetId side, PriceMirrors prices (hotLevel (hotBook paths assetId) side)
    (paths.books.ladder assetId side) side
  hotKeyed : KeyedByAsset paths.hot
  ladderKeyed : paths.books.KeyedByAsset

variable {prices : List String} {paths : Paths} {step : BookStep} {side : Side}

theorem hot_price_eq (level : Option HotBookLevel) :
    level.map (fun level => level.price.exact) =
      (level.map bookLevelToSnapshotLevel).map PriceLevel.price := by
  rw [Option.map_map]
  rfl

theorem map_exact_of_levelText {level : Option HotBookLevel} {best : Option PriceLevel}
    (h : levelText level = best) :
    level.map (fun level => level.price.exact) = best.map PriceLevel.price := by
  rw [← h, levelText, hot_price_eq]

theorem price_deltaLevel {registered : Option RegisteredMarket} {current : Option HotBookLevel}
    {delta : BookDeltaUpdate} {best : Price} (hprice : IsPrice best)
    (hsize : parseScaled delta.size ≠ none)
    (hparsed : ∀ level, current = some level → LevelParsed level) :
    (deltaLevel registered current (some best) delta).map (fun level => level.price.exact) =
      some best := by
  have hread : parseScaled best ≠ none := by
    rw [parseScaled_price hprice]
    simp
  have hsizes : parseScaled
      (if best = delta.price then delta.size
        else (current.map fun level => level.size.exact).getD "0") ≠ none := by
    split
    · exact hsize
    · cases current with
      | none => decide
      | some level =>
          rw [Option.map_some, Option.getD_some, (hparsed level rfl).size]
          simp
  exact map_exact_of_levelText (levelText_makeBookLevel hread hsizes)

theorem price_snapshotBook (registered : Option RegisteredMarket) (notice : UpdateNotice)
    (snapshot : BookSnapshotUpdate) (side : Side) :
    (sideLevel (snapshotBook registered notice snapshot) side).map
        (fun level => level.price.exact) =
      (bestLevel (snapshotLevels snapshot side) side registered).map
        fun level => level.price.exact := by
  have htext := levelText_snapshotBook registered notice snapshot side
  rw [hot_price_eq, hot_price_eq]
  exact congrArg _ htext

theorem price_full (hprices : ∀ price ∈ prices, IsPrice price) (hspelled : SpelledOnce prices)
    (paths : Paths) {update : BookUpdate} (hsub : opPrices (.bookUpdate update) ⊆ prices)
    (hhinted : Hinted paths.books (.full update)) (side : Side) :
    (sideLevel (stepBook paths (.full update)) side).map (fun level => level.price.exact) =
      (((paths.books.applyBookUpdate update).ladder update.assetId side).best side).map
        PriceLevel.price := by
  have hlevels : snapshotLevels (bookSnapshotOf update) side =
      (sideLevels update side).map bookLevel := by
    cases side <;> rfl
  rw [stepBook.eq_1, price_snapshotBook, hlevels, OrderBookManager.ladder_applyBookUpdate]
  exact snapshot_prices_agree hprices hspelled
    (fun level hlevel => hsub (sideLevels_price_mem hlevel)) (hhinted side)

theorem price_delta {event : PriceChangeEvent} {entry : PriceChangeBatchEntry}
    (hmem : ∀ level, ((paths.books.applyPriceChange entry
        (parseTimestampMs event.timestamp)).ladder entry.assetId side).best side = some level →
      IsPrice level.price)
    (h : PathsAlike prices paths) (hhinted : Hinted paths.books (.delta event entry)) :
    (sideLevel (stepBook paths (.delta event entry)) side).map (fun level => level.price.exact) =
      (((paths.books.applyPriceChange entry (parseTimestampMs event.timestamp)).ladder
        entry.assetId side).best side).map PriceLevel.price := by
  obtain ⟨hsize, hhints⟩ := hhinted
  obtain ⟨best, hbest, hhint⟩ := hhints side
  have hladder := h.sides entry.assetId side
  rw [BookStep.op, BookOp.apply] at hbest
  have hdelta : (bookDeltaOf event entry).side = side →
      deltaHint (bookDeltaOf event entry) = some best.price := by
    intro hside
    rw [← hhint, deltaHint, hside]
    cases side <;> rfl
  have hdeltaSize : parseScaled (bookDeltaOf event entry).size ≠ none := hsize
  rw [stepBook.eq_2, sideLevel_deltaBook]
  split
  · rename_i hside
    rw [hdelta hside, hbest, price_deltaLevel (hmem best hbest) hdeltaSize hladder.parsed]
    rfl
  · rename_i hside
    rw [OrderBookManager.ladder_applyPriceChange, if_neg (show ¬ entry.side = side from hside)]
    exact hladder.price

theorem price_pathsStep (hprices : ∀ price ∈ prices, IsPrice price)
    (hspelled : SpelledOnce prices) (hsub : opPrices step.op ⊆ prices)
    (h : PathsAlike prices paths) (hhinted : Hinted paths.books step) (side : Side) :
    (hotLevel (hotBook (pathsStep paths step).1 step.assetId) side).map
        (fun level => level.price.exact) =
      (((pathsStep paths step).1.books.ladder step.assetId side).best side).map
        PriceLevel.price := by
  rw [hotBook_pathsStep, hotLevel, Option.bind_some]
  cases step with
  | full update => exact price_full hprices hspelled paths hsub hhinted side
  | delta event entry =>
      apply price_delta _ h hhinted
      intro level hlevel
      apply hprices
      apply @prices_pathsStep prices paths (.delta event entry) side hsub
        (h.sides entry.assetId side).prices
      exact Option.ne_none_iff_exists'.mpr ⟨_, (PriceLadder.best_eq_some_iff.mp hlevel).1⟩

theorem pathsAlike_pathsStep (hprices : ∀ price ∈ prices, IsPrice price)
    (hspelled : SpelledOnce prices) (hsub : opPrices step.op ⊆ prices)
    (h : PathsAlike prices paths) (hhinted : Hinted paths.books step) :
    PathsAlike prices (pathsStep paths step).1 := by
  refine ⟨?_, h.hotKeyed.applyUpdate _, BookOp.keyedByAsset_apply h.ladderKeyed _⟩
  intro assetId side
  rcases eq_or_ne step.assetId assetId with rfl | hne
  · constructor
    · exact price_pathsStep hprices hspelled hsub h hhinted side
    · intro level hlevel
      exact parsed_pathsStep (h.sides _ side).parsed hlevel
    · intro price hsize
      exact prices_pathsStep hsub (h.sides _ side).prices hsize
  · rw [hotBook_pathsStep_other paths hne, ladder_pathsStep_other paths hne]
    exact h.sides assetId side

theorem pathsAlike_start (prices : List String) (markets : List MarketMeta) :
    PathsAlike prices (startPaths markets) := by
  have hmirror := pathsMirror_start prices markets
  refine ⟨?_, keyedByAsset_registered markets, ?_⟩
  · intro assetId side
    obtain ⟨htext, hparsed, hprices⟩ := hmirror assetId side
    exact ⟨map_exact_of_levelText htext, hparsed, hprices⟩
  · intro assetId book hbook
    exact absurd hbook (by simp [startPaths, OrderBookManager.new])

theorem samePrices_pathsStep (h : PathsAlike prices (pathsStep paths step).1) :
    ∃ legacy hot, (pathsStep paths step).1.books.getSnapshot step.assetId = some legacy ∧
      (pathsStep paths step).1.hot.projectSnapshot step.normalized.notice = some hot ∧
        SamePrices legacy hot := by
  obtain ⟨book, hbook⟩ := exists_book_pathsStep paths step
  have hstep := hotBook_pathsStep paths step
  have hbid := (h.sides step.assetId .buy).price
  have hask := (h.sides step.assetId .sell).price
  rw [hstep, OrderBookManager.ladder_of_some _ _ _ hbook, hot_price_eq] at hbid hask
  rw [OrderBookManager.getSnapshot, hbook, HotStateStore.projectSnapshot,
    resolveBookNotice_pathsStep]
  refine ⟨_, _, rfl, rfl, ?_, hbid.symm, hask.symm⟩
  rw [show (book.toSnapshot).assetId = book.assetId from rfl, h.ladderKeyed _ _ hbook]
  exact (h.hotKeyed _ _ _ hstep).symm

variable {σ : Type*} {strategy : Strategy σ}

theorem replays_from (hpriceOnly : PriceOnly strategy)
    (hprices : ∀ price ∈ prices, IsPrice price) (hspelled : SpelledOnce prices)
    {steps : List BookStep} (hsub : pricesOf (steps.map BookStep.op) ⊆ prices)
    (h : PathsAlike prices paths) (hhinted : Along ladderStep Hinted paths.books steps)
    (state : σ) (triggers : List TriggerMessage) (count : Nat) :
    let legacy := (legacySnapshots paths.books steps).foldl (snapshotStep strategy)
      { strategy := state, triggers }
    let notice := (steps.map BookStep.normalized).foldl (noticeStep strategy)
      { store := paths.hot, strategy := state, triggers, totalSnapshots := count }
    notice.triggers = legacy.triggers ∧ notice.totalSnapshots = count + steps.length ∧
      (legacySnapshots paths.books steps).length = steps.length := by
  induction steps generalizing paths state triggers count with
  | nil => exact ⟨rfl, rfl, rfl⟩
  | cons step steps ih =>
      simp only [pricesOf, List.map_cons, List.flatMap_cons, List.append_subset] at hsub ih
      have hafter := pathsAlike_pathsStep hprices hspelled hsub.1 h hhinted.1
      obtain ⟨legacy, hot, hlegacy, hhot, hsame⟩ := samePrices_pathsStep hafter
      have hsnapshots : legacySnapshots paths.books (step :: steps) =
          legacy :: legacySnapshots (pathsStep paths step).1.books steps := by
        rw [legacySnapshots, outputs]
        simp only [ladderStep]
        rw [show (step.op.apply paths.books).getSnapshot step.assetId = some legacy from hlegacy,
          List.reduceOption_cons_of_some]
        rfl
      have hnext := @noticeStep_of_snapshot σ strategy
        { store := paths.hot, strategy := state, triggers, totalSnapshots := count }
        step.normalized hot hhot
      rw [hsnapshots, List.map_cons, List.foldl_cons, List.foldl_cons, hnext,
        ← hpriceOnly state legacy hot hsame]
      obtain ⟨htriggers, hcount, hlength⟩ := ih hsub.2 hafter hhinted.2
        (strategy.onBookUpdate state legacy).1
        (triggers ++ (strategy.onBookUpdate state legacy).2.toList) (count + 1)
      refine ⟨htriggers, ?_, ?_⟩
      · rw [List.length_cons, Nat.add_comm steps.length, ← Nat.add_assoc]
        exact hcount
      · rw [List.length_cons, hlength, List.length_cons]

theorem replays_decide_alike (strategy : Strategy σ) (hpriceOnly : PriceOnly strategy) (start : σ)
    (markets : List MarketMeta) (messages : List BookMessage)
    (hprices : ∀ price ∈ pricesOf ((messages.flatMap stepsOf).map BookStep.op), IsPrice price)
    (hspelled : SpelledOnce (pricesOf ((messages.flatMap stepsOf).map BookStep.op)))
    (hhinted : Along ladderStep Hinted .new (messages.flatMap stepsOf)) :
    run strategy start (legacySnapshots .new (messages.flatMap stepsOf)) =
      runNoticeReplay strategy start markets
        (messages.flatMap fun message => message.toWsMessage.toNormalizedUpdates) := by
  have hupdates : (messages.flatMap fun message => message.toWsMessage.toNormalizedUpdates) =
      (messages.flatMap stepsOf).map BookStep.normalized := by
    rw [List.map_flatMap]
    exact congrArg (messages.flatMap ·) (funext fun message => (normalized_stepsOf message).symm)
  obtain ⟨htriggers, hcount, hlength⟩ := replays_from hpriceOnly hprices hspelled
    (List.Subset.refl _) (pathsAlike_start _ markets) hhinted start [] 0
  rw [hupdates, run, runNoticeReplay, BacktestResult.mk.injEq]
  refine ⟨htriggers.symm, ?_, ?_⟩
  · rw [Nat.zero_add] at hcount
    exact hlength.trans hcount.symm
  · rw [List.length_map]
    exact hlength

section PriceRules

/-- A rule that reads the prices of the best levels and not their sizes. -/
def PriceRule (rule : FiringRule) : Prop :=
  ∀ side (a b c d : Option PriceLevel), a.map PriceLevel.price = b.map PriceLevel.price →
    c.map PriceLevel.price = d.map PriceLevel.price → rule side a c = rule side b d

theorem priceOnly_firingStrategy {rule : FiringRule} (h : PriceRule rule) :
    PriceOnly (firingStrategy rule) := by
  rintro state a b ⟨hasset, hbid, hask⟩
  simp only [firingStrategy, hasset, h state.side _ _ _ _ hbid hask]

theorem bind_price {β : Type} (level : Option PriceLevel) (f : String → Option β) :
    (level.bind fun level => f level.price) = (level.map PriceLevel.price).bind f := by
  cases level <;> rfl

variable {F : Type} (arithmetic : PriceArithmetic F) (limit : F)

theorem priceRule_thresholdRule : PriceRule (thresholdRule arithmetic limit) := by
  intro side a b c d hab hcd
  have hfire : ∀ (fires : F → Bool) (x y : Option PriceLevel),
      x.map PriceLevel.price = y.map PriceLevel.price →
      (x.bind fun level => (arithmetic.parse level.price).bind fun price =>
          if fires price then some level.price else none) =
        y.bind fun level => (arithmetic.parse level.price).bind fun price =>
          if fires price then some level.price else none := by
    intro fires x y hxy
    have hread := fun level => bind_price level fun text =>
      (arithmetic.parse text).bind fun price => if fires price then some text else none
    rw [hread x, hread y, hxy]
  cases side with
  | buy => exact hfire (fun price => arithmetic.le price limit) c d hcd
  | sell => exact hfire (fun price => arithmetic.le limit price) a b hab

theorem priceRule_spreadRule : PriceRule (spreadRule arithmetic limit) := by
  intro side a b c d hab hcd
  have hread : ∀ bid ask : Option PriceLevel, spreadRule arithmetic limit side bid ask =
      (bid.map PriceLevel.price).bind fun bidText =>
        (ask.map PriceLevel.price).bind fun askText =>
          (arithmetic.parse bidText).bind fun bidPrice =>
            (arithmetic.parse askText).bind fun askPrice =>
              if arithmetic.lt (arithmetic.sub askPrice bidPrice) limit then
                match side with
                | .buy => some askText
                | .sell => some bidText
              else none := by
    rintro (_ | bid) (_ | ask) <;> rfl
  rw [hread a c, hread b d, hab, hcd]

end PriceRules

/-- A book of asset `yes` whose best bid is then removed. -/
def removedBid : List BookMessage :=
  [.book
    { assetId := "yes", market := "m", timestamp := "1"
      bids := [⟨"0.5", "100"⟩, ⟨"0.49", "50"⟩], asks := [⟨"0.51", "40"⟩], hash := none },
   .priceChange
    { market := "m", timestamp := "2"
      priceChanges :=
        [{ assetId := "yes", price := "0.5", size := some "0", side := .buy, hash := none
           bestBid := some "0.49", bestAsk := some "0.51" }] }]

theorem hinted_removedBid : Along ladderStep Hinted .new (removedBid.flatMap stepsOf) := by
  refine ⟨?_, ⟨?_, ?_⟩, trivial⟩
  · intro side level hlevel
    have hsize : level.size ∈ ["100", "50", "40"] := by
      cases side <;> simp [sideLevels] at hlevel <;> rcases hlevel with rfl | rfl <;> simp
    have hread : ∀ size ∈ ["100", "50", "40"], parseScaled size ≠ none := by decide +kernel
    exact hread _ hsize
  · decide +kernel
  · intro side
    cases side with
    | buy => exact ⟨⟨"0.49", "50"⟩, by decide +kernel, rfl⟩
    | sell => exact ⟨⟨"0.51", "40"⟩, by decide +kernel, rfl⟩

theorem replays_decide_alike_removedBid :
    run (spreadStrategy millionths 30000) buyer
        (legacySnapshots .new (removedBid.flatMap stepsOf)) =
      runNoticeReplay (spreadStrategy millionths 30000) buyer []
        (removedBid.flatMap fun message => message.toWsMessage.toNormalizedUpdates) := by
  apply replays_decide_alike (spreadStrategy millionths 30000)
    (priceOnly_firingStrategy (priceRule_spreadRule millionths 30000)) buyer [] removedBid
  · decide +kernel
  · decide +kernel
  · exact hinted_removedBid

end Rtt.PriceDecisions
