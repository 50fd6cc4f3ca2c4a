import Rtt.BookReplay
import Rtt.LadderBest
import Rtt.Machine

namespace Rtt.MarketPaths

open Rtt.Quote
open Rtt.Decimal
open Rtt.DecimalOrder
open Rtt.Machine
open Rtt.PublicEvent
open Rtt.MarketMessages
open Rtt.OrderBook
open Rtt.BookReplay
open Rtt.HotState
open Rtt.TopOfBook
open Rtt.LadderBest

/-- The messages that carry levels of a book. -/
inductive BookMessage where
  | book (update : BookUpdate)
  | priceChange (event : PriceChangeEvent)

def BookMessage.toWsMessage : BookMessage → WsMessage
  | .book update => .book update
  | .priceChange event => .priceChange event

/-- One update of a message, for both paths. -/
inductive BookStep where
  | full (update : BookUpdate)
  | delta (event : PriceChangeEvent) (entry : PriceChangeBatchEntry)

namespace BookStep

def op : BookStep → BookOp
  | .full update => .bookUpdate update
  | .delta event entry => .priceChange entry (parseTimestampMs event.timestamp)

def normalized : BookStep → NormalizedUpdate
  | .full update => bookNormalized update
  | .delta event entry => entryNormalized event entry

def assetId : BookStep → String
  | .full update => update.assetId
  | .delta _ entry => entry.assetId

end BookStep

/-- The steps that a message is applied in. -/
def stepsOf : BookMessage → List BookStep
  | .book update => [.full update]
  | .priceChange event => event.priceChanges.map (.delta event)

theorem normalized_stepsOf (message : BookMessage) :
    (stepsOf message).map BookStep.normalized = message.toWsMessage.toNormalizedUpdates := by
  cases message with
  | book update => rfl
  | priceChange event =>
      simp only [stepsOf, List.map_map, BookMessage.toWsMessage, WsMessage.toNormalizedUpdates]
      rfl

/-- The two paths side by side. -/
structure Paths where
  books : OrderBookManager
  hot : HotStateStore

/-- What both paths report of an asset after an update. -/
structure Reading where
  hot : Option OrderBookSnapshot
  ladder : Option OrderBookSnapshot

def startPaths (markets : List MarketMeta) : Paths :=
  { books := .new, hot := markets.foldl HotStateStore.registerMarket .new }

/-- Both paths take a step; the output is what each shows of the asset. -/
def pathsStep (paths : Paths) (step : BookStep) : Paths × Reading :=
  let books := step.op.apply paths.books
  let hot := paths.hot.applyUpdate step.normalized
  ({ books, hot },
    { hot := hot.projectSnapshot step.normalized.notice
      ladder := books.getSnapshot step.assetId })

def bests (snapshot : OrderBookSnapshot) : Option PriceLevel × Option PriceLevel :=
  (snapshot.bestBid, snapshot.bestAsk)

/-- The two paths report the same best bid and best ask. -/
def SameBest (reading : Reading) : Prop := reading.hot.map bests = reading.ladder.map bests

instance (reading : Reading) : Decidable (SameBest reading) :=
  inferInstanceAs (Decidable (_ = _))

/-- A plain decimal above zero with at most six digits after the point. -/
def IsPositiveSize (size : String) : Prop :=
  ∃ d : Numeral, d.render = size ∧ d.places.length ≤ 6 ∧ 0 < d.value

/-- The size of a delta is zero in its usual spelling, or positive. -/
def IsDeltaSize (size : Option String) : Prop :=
  size.getD "0" = "0" ∨ IsPositiveSize (size.getD "0")

/-- The best price announced with a delta is that of the ladder after it. -/
def IsTrueHint (books : OrderBookManager) (assetId : String) (side : Side)
    (hint : Option String) : Prop :=
  ∀ price, hint = some price →
    ∃ level, (books.ladder assetId side).best side = some level ∧ level.price = price

/-- The inputs that the comparison is about. -/
def InDomain (paths : Paths) : BookStep → Prop
  | .full update => ∀ side,
      ((sideLevels update side).map WsOrderBookLevel.price).Nodup ∧
        ∀ level ∈ sideLevels update side, IsPositiveSize level.size
  | .delta event entry => IsDeltaSize entry.size ∧
      let after := (BookStep.delta event entry).op.apply paths.books
      IsTrueHint after entry.assetId .buy entry.bestBid ∧
        IsTrueHint after entry.assetId .sell entry.bestAsk

/-- The best price that a delta announces for its own side. -/
def entryHint (entry : PriceChangeBatchEntry) : Option String :=
  match entry.side with
  | .buy => entry.bestBid
  | .sell => entry.bestAsk

/-- The step keeps the hot state's best levels true to the ladder before it. -/
def StepRecovers (paths : Paths) : BookStep → Prop
  | .full update => ∀ side, BestReadable (sideLevels update side) side
  | .delta _ entry =>
      Recovers (paths.books.ladder entry.assetId entry.side) entry.side entry.price
        (entry.size.getD "0") (entryHint entry)

def hotBook (paths : Paths) (assetId : String) : Option HotBookState :=
  paths.hot.books (.asset publicSourceId assetId)

/-- Both paths know the same of every side of every book. -/
def PathsMirror (prices : List String) (paths : Paths) : Prop :=
  ∀ assetId side,
    Mirrors prices (hotLevel (hotBook paths assetId) side) (paths.books.ladder assetId side) side

variable {prices : List String} {paths : Paths} {step : BookStep} {side : Side}

theorem hotBook_pathsStep_other (paths : Paths) {assetId : String} (h : step.assetId ≠ assetId) :
    hotBook (pathsStep paths step).1 assetId = hotBook paths assetId := by
  have hkey : HotStateKey.asset publicSourceId assetId ≠
      .asset publicSourceId step.assetId := by
    intro heq
    exact h (asset_eq_iff.mp heq).2.symm
  cases step with
  | full update => exact PartialMap.insert_of_ne _ _ _ hkey
  | delta event entry => exact PartialMap.insert_of_ne _ _ _ hkey

theorem ladder_pathsStep_other (paths : Paths) {assetId : String} (h : step.assetId ≠ assetId)
    (side : Side) :
    (pathsStep paths step).1.books.ladder assetId side = paths.books.ladder assetId side := by
  apply OrderBookManager.ladder_congr
  apply BookOp.apply_of_not_concerns
  cases step <;> exact h

/-- The book that a step leaves for its asset in the hot state. -/
def stepBook (paths : Paths) (step : BookStep) : HotBookState :=
  let registered := paths.hot.marketsByAsset step.assetId
  match step with
  | .full update => snapshotBook registered (bookNormalized update).notice (bookSnapshotOf update)
  | .delta event entry =>
      deltaBook registered (hotBook paths entry.assetId) (entryNormalized event entry).notice
        (bookDeltaOf event entry)

theorem hotBook_pathsStep (paths : Paths) (step : BookStep) :
    hotBook (pathsStep paths step).1 step.assetId = some (stepBook paths step) := by
  cases step <;> exact PartialMap.insert_self ..

theorem version_stepBook (paths : Paths) (step : BookStep) :
    (stepBook paths step).version = step.normalized.notice.version := by
  have hnext : nextBook (paths.hot.marketsByAsset step.assetId) (hotBook paths step.assetId)
      step.normalized = some (stepBook paths step) := by
    cases step <;> rfl
  exact (version_nextBook hnext).2

theorem resolveBookNotice_pathsStep (paths : Paths) (step : BookStep) :
    (pathsStep paths step).1.hot.resolveBookNotice step.normalized.notice =
      some (stepBook paths step) := by
  have hkey : HotStateKey.asset step.normalized.notice.sourceId
      step.normalized.notice.subject.instrumentId = .asset publicSourceId step.assetId := by
    cases step <;> rfl
  rw [HotStateStore.resolveBookNotice, hkey]
  rw [show (pathsStep paths step).1.hot.books (.asset publicSourceId step.assetId) = _ from
    hotBook_pathsStep paths step]
  simp [version_stepBook]

theorem exists_book_pathsStep (paths : Paths) (step : BookStep) :
    ∃ book, (pathsStep paths step).1.books.books step.assetId = some book := by
  cases step <;> exact ⟨_, PartialMap.insert_self ..⟩

theorem sameBest_iff (paths : Paths) (step : BookStep) :
    SameBest (pathsStep paths step).2 ↔
      ∀ side, levelText (hotLevel (hotBook (pathsStep paths step).1 step.assetId) side) =
        ((pathsStep paths step).1.books.ladder step.assetId side).best side := by
  have hbook := hotBook_pathsStep paths step
  obtain ⟨book, hladder⟩ := exists_book_pathsStep paths step
  have hhot : (pathsStep paths step).2.hot.map bests =
      some (levelText (stepBook paths step).bestBid, levelText (stepBook paths step).bestAsk) := by
    have hproject : (pathsStep paths step).2.hot =
        (pathsStep paths step).1.hot.projectSnapshot step.normalized.notice := rfl
    rw [hproject, HotStateStore.projectSnapshot, resolveBookNotice_pathsStep]
    rfl
  have hread : (pathsStep paths step).2.ladder.map bests =
      some (book.bids.bestBid, book.asks.bestAsk) := by
    have hsnapshot : (pathsStep paths step).2.ladder =
        (pathsStep paths step).1.books.getSnapshot step.assetId := rfl
    rw [hsnapshot, OrderBookManager.getSnapshot, hladder]
    rfl
  rw [SameBest, hhot, hread, hbook, Option.some_inj, Prod.mk.injEq]
  constructor
  · rintro ⟨hbid, hask⟩ side
    rw [OrderBookManager.ladder_of_some _ _ _ hladder]
    cases side with
    | buy => exact hbid
    | sell => exact hask
  · intro h
    have hbuy := h .buy
    have hsell := h .sell
    rw [OrderBookManager.ladder_of_some _ _ _ hladder] at hbuy hsell
    exact ⟨hbuy, hsell⟩

theorem prices_pathsStep (hsub : opPrices step.op ⊆ prices)
    (h : ∀ price, (paths.books.ladder step.assetId side).sizeAt price ≠ none → price ∈ prices)
    {price : String}
    (hsize : ((pathsStep paths step).1.books.ladder step.assetId side).sizeAt price ≠ none) :
    price ∈ prices := by
  have hconcerns : step.op.Concerns step.assetId := by cases step <;> rfl
  have hafter := step.op.sizeAt_apply paths.books step.assetId side price hconcerns
  rw [show (pathsStep paths step).1.books = step.op.apply paths.books from rfl, hafter] at hsize
  cases step with
  | full update =>
      obtain ⟨size, hsome⟩ := Option.ne_none_iff_exists'.mp hsize
      obtain ⟨level, hlast, -⟩ := Option.map_eq_some_iff.mp hsome
      obtain ⟨hlevel, rfl⟩ := KeyIndex.mem_of_lastWith hlast
      exact hsub (sideLevels_price_mem hlevel)
  | delta event entry =>
      simp only [BookStep.op] at hsize
      split at hsize
      · rename_i hown
        exact hsub (by simp [BookStep.op, opPrices, hown.2])
      · exact h price hsize

theorem parsed_pathsStep
    (h : ∀ level, hotLevel (hotBook paths step.assetId) side = some level → LevelParsed level)
    {level : HotBookLevel}
    (hlevel : hotLevel (hotBook (pathsStep paths step).1 step.assetId) side = some level) :
    LevelParsed level := by
  rw [hotBook_pathsStep] at hlevel
  cases step with
  | full update => exact levelParsed_snapshotBook level hlevel
  | delta event entry =>
      rw [hotLevel, Option.bind_some, stepBook, sideLevel_deltaBook] at hlevel
      split at hlevel
      · exact levelParsed_deltaLevel h level hlevel
      · exact h level hlevel

theorem full_agrees_iff (hprices : ∀ price ∈ prices, IsPrice price)
    (hspelled : SpelledOnce prices) (paths : Paths) {update : BookUpdate}
    (hsub : opPrices (.bookUpdate update) ⊆ prices)
    (hdistinct : ((sideLevels update side).map WsOrderBookLevel.price).Nodup) :
    levelText (hotLevel (some (stepBook paths (.full update))) side) =
        ((paths.books.applyBookUpdate update).ladder update.assetId side).best side ↔
      BestReadable (sideLevels update side) side := by
  have hlevels : snapshotLevels (bookSnapshotOf update) side =
      (sideLevels update side).map bookLevel := by
    cases side <;> rfl
  rw [OrderBookManager.ladder_applyBookUpdate, hotLevel, Option.bind_some, stepBook,
    levelText_snapshotBook, hlevels]
  exact snapshot_agrees_iff hprices hspelled
    (fun level hlevel => hsub (sideLevels_price_mem hlevel)) hdistinct

theorem delta_side_agrees_iff (hprices : ∀ price ∈ prices, IsPrice price)
    (hspelled : SpelledOnce prices) {event : PriceChangeEvent} {entry : PriceChangeBatchEntry}
    (hentry : entry.price ∈ prices) (h : PathsMirror prices paths)
    (hdomain : InDomain paths (.delta event entry)) (side : Side) :
    levelText (hotLevel (some (stepBook paths (.delta event entry))) side) =
        ((BookOp.apply paths.books (BookStep.delta event entry).op).ladder
          entry.assetId side).best side ↔
      (entry.side = side → StepRecovers paths (.delta event entry)) := by
  have hladder := paths.books.ladder_applyPriceChange side entry
    (parseTimestampMs event.timestamp)
  have hmirror := h entry.assetId side
  have hhint : ∀ revealed, deltaHint (bookDeltaOf event entry) = some revealed →
      IsTrueHint (BookOp.apply paths.books (BookStep.delta event entry).op) entry.assetId
        entry.side (some revealed) := by
    obtain ⟨-, hbid, hask⟩ := hdomain
    intro revealed hrevealed
    rw [← hrevealed]
    unfold deltaHint
    rw [show (bookDeltaOf event entry).side = entry.side from rfl]
    cases entry.side with
    | buy => exact hbid
    | sell => exact hask
  rw [BookStep.op, BookOp.apply, hladder, hotLevel, Option.bind_some, stepBook,
    sideLevel_deltaBook, show (bookDeltaOf event entry).side = entry.side from rfl]
  rcases eq_or_ne entry.side side with rfl | hne
  · rw [if_pos rfl, if_pos rfl, forall_prop_of_true rfl]
    apply delta_agrees_iff hprices hspelled hmirror hentry
    intro revealed hrevealed
    have htrue := hhint revealed hrevealed revealed rfl
    rw [BookStep.op, BookOp.apply, hladder, if_pos rfl] at htrue
    exact htrue
  · rw [if_neg hne, if_neg hne]
    exact ⟨fun _ heq => absurd heq hne, fun _ => hmirror.text⟩

theorem pathsStep_agrees_iff (hprices : ∀ price ∈ prices, IsPrice price)
    (hspelled : SpelledOnce prices) (hsub : opPrices step.op ⊆ prices)
    (h : PathsMirror prices paths) (hdomain : InDomain paths step) :
    (∀ side, levelText (hotLevel (hotBook (pathsStep paths step).1 step.assetId) side) =
        ((pathsStep paths step).1.books.ladder step.assetId side).best side) ↔
      StepRecovers paths step := by
  rw [hotBook_pathsStep]
  cases step with
  | full update =>
      exact forall_congr' fun side =>
        full_agrees_iff hprices hspelled paths hsub (hdomain side).1
  | delta event entry =>
      have hentry : entry.price ∈ prices := hsub (by simp [BookStep.op, opPrices])
      have hside := delta_side_agrees_iff hprices hspelled hentry h hdomain
      constructor
      · intro hall
        exact (hside entry.side).mp (hall entry.side) rfl
      · intro hrecovers side
        exact (hside side).mpr fun _ => hrecovers

theorem pathsMirror_pathsStep (hsub : opPrices step.op ⊆ prices) (h : PathsMirror prices paths)
    (hsame : ∀ side,
      levelText (hotLevel (hotBook (pathsStep paths step).1 step.assetId) side) =
        ((pathsStep paths step).1.books.ladder step.assetId side).best side) :
    PathsMirror prices (pathsStep paths step).1 := by
  intro assetId side
  rcases eq_or_ne step.assetId assetId with rfl | hne
  · constructor
    · exact hsame side
    · intro level hlevel
      exact parsed_pathsStep (h _ side).parsed hlevel
    · intro price hsize
      exact prices_pathsStep hsub (h _ side).prices hsize
  · rw [hotBook_pathsStep_other paths hne, ladder_pathsStep_other paths hne]
    exact h assetId side

theorem pathsMirror_start (prices : List String) (markets : List MarketMeta) :
    PathsMirror prices (startPaths markets) := by
  intro assetId side
  have hhot : hotBook (startPaths markets) assetId = none :=
    (HotStateStore.registered_new markets _).1
  have hladder : (startPaths markets).books.ladder assetId side = .empty := rfl
  rw [hhot, hladder]
  constructor
  · exact (PriceLadder.best_eq_none_iff.mpr PriceLadder.sizeAt_empty).symm
  · exact fun level hlevel => absurd hlevel (by simp [hotLevel])
  · exact fun price hsize => absurd (PriceLadder.sizeAt_empty price) hsize

theorem run_agrees_iff (hprices : ∀ price ∈ prices, IsPrice price)
    (hspelled : SpelledOnce prices) {steps : List BookStep}
    (hsub : pricesOf (steps.map BookStep.op) ⊆ prices) (h : PathsMirror prices paths)
    (hdomain : Along pathsStep InDomain paths steps) :
    (∀ reading ∈ outputs pathsStep paths steps, SameBest reading) ↔
      Along pathsStep StepRecovers paths steps := by
  induction steps generalizing paths with
  | nil => simp [outputs, Along]
  | cons step steps ih =>
      simp only [pricesOf, List.map_cons, List.flatMap_cons, List.append_subset] at hsub ih
      have hstep := pathsStep_agrees_iff hprices hspelled hsub.1 h hdomain.1
      rw [outputs, List.forall_mem_cons, sameBest_iff, Along, hstep]
      apply and_congr_right
      intro hrecovers
      exact ih hsub.2 (pathsMirror_pathsStep hsub.1 h (hstep.mpr hrecovers)) hdomain.2

theorem paths_agree_iff (markets : List MarketMeta) (messages : List BookMessage)
    (hprices : ∀ price ∈ pricesOf ((messages.flatMap stepsOf).map BookStep.op), IsPrice price)
    (hspelled : SpelledOnce (pricesOf ((messages.flatMap stepsOf).map BookStep.op)))
    (hdomain : Along pathsStep InDomain (startPaths markets) (messages.flatMap stepsOf)) :
    (∀ reading ∈ outputs pathsStep (startPaths markets) (messages.flatMap stepsOf),
        SameBest reading) ↔
      Along pathsStep StepRecovers (startPaths markets) (messages.flatMap stepsOf) :=
  run_agrees_iff hprices hspelled (List.Subset.refl _) (pathsMirror_start _ markets) hdomain

theorem isPositiveSize_whole {ds : List Char} (hdigits : ds.all Char.isDigit)
    (hpositive : 0 < Nat.ofDigitChars 10 ds 0) : IsPositiveSize (String.ofList ds) := by
  have hne : ds ≠ [] := by
    rintro rfl
    simp at hpositive
  refine ⟨⟨ds, none, List.all_eq_true.mp hdigits, by simp, by simpa using hne⟩, rfl, ?_, ?_⟩
  · simp [Numeral.places]
  · simpa [Numeral.value, Numeral.places] using hpositive

/-- A full book of asset `yes` and one entry that changes its bids. -/
def bidChange (price : String) (size hint : Option String) : List BookMessage :=
  [.book
    { assetId := "yes", market := "m", timestamp := "1"
      bids := [⟨"0.5", "100"⟩, ⟨"0.49", "50"⟩], asks := [⟨"0.51", "40"⟩], hash := none },
   .priceChange
    { market := "m", timestamp := "2"
      priceChanges :=
        [{ assetId := "yes", price, size, side := .buy, hash := none, bestBid := hint
           bestAsk := none }] }]

theorem inDomain_bidChange {price : String} {size hint : Option String}
    (hsize : IsDeltaSize size)
    (hhint : IsTrueHint (((bidChange price size hint).flatMap stepsOf).foldl
        (fun books step => step.op.apply books) .new) "yes" .buy hint) :
    Along pathsStep InDomain (startPaths []) ((bidChange price size hint).flatMap stepsOf) := by
  have hhundred : IsPositiveSize "100" := @isPositiveSize_whole ['1', '0', '0'] rfl (by decide)
  have hfifty : IsPositiveSize "50" := @isPositiveSize_whole ['5', '0'] rfl (by decide)
  have hforty : IsPositiveSize "40" := @isPositiveSize_whole ['4', '0'] rfl (by decide)
  refine ⟨?_, ⟨hsize, hhint, ?_⟩, trivial⟩
  · intro side
    cases side <;> simp [sideLevels, hhundred, hfifty, hforty]
  · exact fun _ h => absurd h (by simp)

/-- The best bid leaves, and the hot state shows the one below it with the size
of the one that left. -/
theorem removed_best_lends_its_size :
    let steps := (bidChange "0.5" (some "0") (some "0.49")).flatMap stepsOf
    (∀ price ∈ pricesOf (steps.map BookStep.op), IsPrice price) ∧
      SpelledOnce (pricesOf (steps.map BookStep.op)) ∧
      Along pathsStep InDomain (startPaths []) steps ∧
      ¬ ∀ reading ∈ outputs pathsStep (startPaths []) steps, SameBest reading := by
  refine ⟨?_, ?_, inDomain_bidChange (.inl rfl) ?_, ?_⟩
  · decide +kernel
  · decide +kernel
  · rintro price ⟨⟩
    exact ⟨⟨"0.49", "50"⟩, by decide +kernel, rfl⟩
  · decide +kernel

theorem paths_agree_iff_behind :
    Along pathsStep StepRecovers (startPaths [])
      ((bidChange "0.48" (some "70") (some "0.5")).flatMap stepsOf) := by
  have hsize : IsPositiveSize "70" := @isPositiveSize_whole ['7', '0'] rfl (by decide)
  refine (paths_agree_iff [] (bidChange "0.48" (some "70") (some "0.5")) ?_ ?_
    (inDomain_bidChange (.inr hsize) ?_)).mp ?_
  · decide +kernel
  · decide +kernel
  · rintro price ⟨⟩
    exact ⟨⟨"0.5", "100"⟩, by decide +kernel, rfl⟩
  · decide +kernel

end Rtt.MarketPaths
