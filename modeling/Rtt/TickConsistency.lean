import Rtt.Machine
import Rtt.TopOfBook
import Rtt.SourceIsolation

namespace Rtt.TickConsistency

open Rtt.Quote
open Rtt.Machine
open Rtt.MachineWord
open Rtt.PartialMap
open Rtt.PublicEvent
open Rtt.HotState
open Rtt.TopOfBook
open Rtt.SourceIsolation (HotEvent)

/-- The average of the two best prices, rounded down. -/
def flooredAverage : Option HotBookLevel → Option HotBookLevel → Option HotStateValue
  | some bid, some ask =>
      let units := (bid.price.units + ask.price.units) / 2
      some { exact := formatScaled units, units }
  | some _, none | none, _ => none

/-- The derived fields of a book are those of its levels. -/
structure BookConsistent (book : HotBookState) : Prop where
  ticks : ∀ side, ∀ level ∈ sideLevel book side,
    level.priceTicks = ticksFor level.price.units book.tickSizeUnits
  lots : ∀ side, ∀ level ∈ sideLevel book side,
    level.sizeLots = ticksFor level.size.units book.lotSizeUnits
  midpoint : book.midpoint = flooredAverage book.bestBid book.bestAsk

def Consistent (store : HotStateStore) : Prop :=
  ∀ key book, store.books key = some book → BookConsistent book

/-- The sum of the two prices fits the machine word. -/
def SumFits (bid ask : Option HotBookLevel) : Prop :=
  ∀ b ∈ bid, ∀ a ∈ ask, b.price.units + a.price.units < wordSize

/-- The price of the level is as many ticks of the registered tick size as of
another one. -/
def SameTicks (registered : Option RegisteredMarket) (tickSizeUnits : Option Nat)
    (level : Option HotBookLevel) : Prop :=
  ∀ l ∈ level, ticksFor l.price.units (registered.map RegisteredMarket.tickSizeUnits) =
    ticksFor l.price.units tickSizeUnits

/-- The tick size that an update finds. -/
def tickBefore (registered : Option RegisteredMarket) (existing : Option HotBookState) :
    Option Nat :=
  match existing with
  | some book => book.tickSizeUnits
  | none => registered.map RegisteredMarket.tickSizeUnits

/-- The level that a delta writes, none where it leaves the level it finds. -/
def writtenLevel (registered : Option RegisteredMarket) (current : Option HotBookLevel)
    (delta : BookDeltaUpdate) : Option HotBookLevel :=
  match deltaHint delta with
  | some _ => deltaLevel registered current (deltaHint delta) delta
  | none =>
      let candidate := makeBookLevel delta.price delta.size registered
      if updatesBestSide current candidate delta.side then candidate else none

/-- What an update may write on the book that it finds. -/
def WriteOk (registered : Option RegisteredMarket) (existing : Option HotBookState)
    (update : NormalizedUpdate) : Prop :=
  match update.payload with
  | .bookSnapshot snapshot =>
      SumFits (bestLevel snapshot.bids .buy registered) (bestLevel snapshot.asks .sell registered)
  | .bookDelta delta =>
      let written := writtenLevel registered (hotLevel existing delta.side) delta
      SameTicks registered (tickBefore registered existing) written ∧
        match delta.side with
        | .buy => SumFits written (hotLevel existing .sell)
        | .sell => SumFits (hotLevel existing .buy) written
  | .bestBidAsk bestBidAsk =>
      let bid := makeBookLevel bestBidAsk.bestBid "0" registered
      let ask := makeBookLevel bestBidAsk.bestAsk "0" registered
      (registered = none → SameTicks none (tickBefore none existing) bid ∧
        SameTicks none (tickBefore none existing) ask) ∧ SumFits bid ask
  | .tickSizeChange _ | .tradeTick _ | .referencePrice _ | .reconnect _ | .sourceStatus _ => True

section Levels

variable {registered : Option RegisteredMarket} {level : HotBookLevel}

/-- A level was made with the tick and lot sizes of the registered market. -/
def MadeWith (registered : Option RegisteredMarket) (level : HotBookLevel) : Prop :=
  level.priceTicks =
      ticksFor level.price.units (registered.map RegisteredMarket.tickSizeUnits) ∧
    level.sizeLots = ticksFor level.size.units (registered.bind RegisteredMarket.lotSizeUnits)

theorem madeWith_of_makeBookLevel {price size : String}
    (h : makeBookLevel price size registered = some level) : MadeWith registered level := by
  simp only [makeBookLevel, hotValue, Option.bind_eq_bind, Option.bind_eq_some_iff,
    Option.map_eq_some_iff, Option.some.injEq] at h
  obtain ⟨_, ⟨priceUnits, hprice, rfl⟩, _, ⟨sizeUnits, hsize, rfl⟩, rfl⟩ := h
  cases registered with
  | none => exact ⟨rfl, rfl⟩
  | some market =>
      simp only [MadeWith, hprice, hsize, Option.bind_some, Option.map_some, and_self]

theorem madeWith_of_bestLevel {levels : List BookLevel} {side : Side}
    (h : bestLevel levels side registered = some level) : MadeWith registered level := by
  obtain ⟨⟨source, -, hsource⟩, -⟩ := bestLevel_spec h
  exact madeWith_of_makeBookLevel hsource

theorem midpointForLevels_eq_iff {bid ask : Option HotBookLevel} :
    midpointForLevels bid ask = flooredAverage bid ask ↔ SumFits bid ask := by
  rcases bid with _ | bid
  · exact iff_of_true rfl (by simp [SumFits])
  rcases ask with _ | ask
  · exact iff_of_true rfl (by simp [SumFits])
  simp only [SumFits, Option.mem_some_iff, forall_eq']
  constructor
  · intro h
    have hunits := congrArg HotStateValue.units (Option.some.inj h)
    by_contra hlarge
    simp only [wrappingAdd, wordSize] at hunits hlarge
    omega
  · intro hfits
    have hsum := wrappingAdd_eq hfits
    change some (HotStateValue.mk (formatScaled (wrappingAdd _ _ / 2)) _) = _
    rw [hsum]
    rfl

theorem refresh_of_madeWith {market : RegisteredMarket} (h : MadeWith (some market) level) :
    refreshBookLevelUnits (some market.tickSizeUnits) market.lotSizeUnits level = level := by
  rcases level with ⟨price, size, priceTicks, sizeLots⟩
  simp only [MadeWith] at h
  obtain ⟨rfl, rfl⟩ := h
  rfl

theorem sideLevel_applyRegistered {book : HotBookState}
    (h : ∀ side, ∀ level ∈ sideLevel book side, MadeWith registered level) (side : Side) :
    sideLevel (applyRegistered registered book) side = sideLevel book side := by
  rcases registered with _ | market
  · rfl
  · have hmap : sideLevel (applyRegistered (some market) book) side =
        (sideLevel book side).map
          (refreshBookLevelUnits (some market.tickSizeUnits) market.lotSizeUnits) := by
      cases side <;> rfl
    rw [hmap]
    cases hlevel : sideLevel book side with
    | none => rfl
    | some level => exact congrArg some (refresh_of_madeWith (h side level hlevel))

end Levels

section NextBook

variable {registered : Option RegisteredMarket} {existing : Option HotBookState}
  {update : NormalizedUpdate} {book : HotBookState}

/-- The fields of a book that the derived ones depend on. -/
structure BookFields (book : HotBookState) (levels : Side → Option HotBookLevel)
    (tickSizeUnits lotSizeUnits : Option Nat) : Prop where
  level : ∀ side, sideLevel book side = levels side
  tick : book.tickSizeUnits = tickSizeUnits
  lot : book.lotSizeUnits = lotSizeUnits
  midpoint : book.midpoint = midpointForLevels book.bestBid book.bestAsk

/-- The best levels that an update leaves. -/
def nextLevel (registered : Option RegisteredMarket) (existing : Option HotBookState)
    (update : NormalizedUpdate) (side : Side) : Option HotBookLevel :=
  match update.payload with
  | .bookSnapshot snapshot => bestLevel (snapshotLevels snapshot side) side registered
  | .bookDelta delta =>
      if delta.side = side then
        deltaLevel registered (hotLevel existing side) (deltaHint delta) delta
      else hotLevel existing side
  | .bestBidAsk bestBidAsk =>
      match side with
      | .buy => makeBookLevel bestBidAsk.bestBid "0" registered
      | .sell => makeBookLevel bestBidAsk.bestAsk "0" registered
  | .tickSizeChange tickSize =>
      (hotLevel existing side).map (refreshBookLevelUnits (parseScaled tickSize.newTickSize)
        (registered.bind RegisteredMarket.lotSizeUnits))
  | .tradeTick _ | .referencePrice _ | .reconnect _ | .sourceStatus _ => hotLevel existing side

/-- The tick size that an update leaves. -/
def nextTick (registered : Option RegisteredMarket) (existing : Option HotBookState)
    (update : NormalizedUpdate) : Option Nat :=
  match update.payload with
  | .bookSnapshot _ => registered.map RegisteredMarket.tickSizeUnits
  | .bestBidAsk _ =>
      (registered.map RegisteredMarket.tickSizeUnits).or (tickBefore none existing)
  | .tickSizeChange tickSize => parseScaled tickSize.newTickSize
  | .bookDelta _ | .tradeTick _ | .referencePrice _ | .reconnect _ | .sourceStatus _ =>
      tickBefore registered existing

theorem fields_snapshotBook (notice : UpdateNotice) (snapshot : BookSnapshotUpdate) :
    BookFields (snapshotBook registered notice snapshot)
      (fun side => bestLevel (snapshotLevels snapshot side) side registered)
      (registered.map RegisteredMarket.tickSizeUnits)
      (registered.bind RegisteredMarket.lotSizeUnits) := by
  refine ⟨fun side => ?_, ?_, ?_, rfl⟩
  · rw [snapshotBook, sideLevel_refreshMidpoint, sideLevel_applyRegistered]
    · cases side <;> rfl
    · rintro (_ | _) level hlevel
      · exact madeWith_of_bestLevel hlevel
      · exact madeWith_of_bestLevel hlevel
  · cases registered <;> rfl
  · cases registered <;> rfl

theorem lot_found
    (hlot : ∀ old ∈ existing, old.lotSizeUnits = registered.bind RegisteredMarket.lotSizeUnits)
    (notice : UpdateNotice) (marketId : MarketId) (assetId : AssetId) (timestampMs : Nat)
    (sourceHash : Option String) :
    (existing.getD (freshBook registered notice marketId assetId timestampMs
      sourceHash)).lotSizeUnits = registered.bind RegisteredMarket.lotSizeUnits := by
  rcases existing with _ | old
  · rfl
  · exact hlot old rfl

theorem fields_deltaBook
    (hlot : ∀ old ∈ existing, old.lotSizeUnits = registered.bind RegisteredMarket.lotSizeUnits)
    (notice : UpdateNotice) (delta : BookDeltaUpdate) :
    BookFields (deltaBook registered existing notice delta)
      (fun side =>
        if delta.side = side then
          deltaLevel registered (hotLevel existing side) (deltaHint delta) delta
        else hotLevel existing side)
      (tickBefore registered existing) (registered.bind RegisteredMarket.lotSizeUnits) := by
  have hkept := lot_found hlot notice delta.marketId delta.assetId delta.timestampMs
    delta.sourceHash
  refine ⟨sideLevel_deltaBook registered existing notice delta, ?_, ?_, rfl⟩
  · simp only [deltaBook]
    cases delta.side <;> cases existing <;> rfl
  · simp only [deltaBook]
    cases delta.side <;> exact hkept

theorem fields_bestBidAskBook
    (hlot : ∀ old ∈ existing, old.lotSizeUnits = registered.bind RegisteredMarket.lotSizeUnits)
    (notice : UpdateNotice) (bestBidAsk : BestBidAskUpdate) :
    BookFields (bestBidAskBook registered existing notice bestBidAsk)
      (fun side =>
        match side with
        | .buy => makeBookLevel bestBidAsk.bestBid "0" registered
        | .sell => makeBookLevel bestBidAsk.bestAsk "0" registered)
      ((registered.map RegisteredMarket.tickSizeUnits).or (tickBefore none existing))
      (registered.bind RegisteredMarket.lotSizeUnits) := by
  have hkept := lot_found hlot notice bestBidAsk.marketId bestBidAsk.assetId
    bestBidAsk.timestampMs notice.sourceHash
  refine ⟨fun side => ?_, ?_, ?_, rfl⟩
  · rw [bestBidAskBook, sideLevel_refreshMidpoint, sideLevel_applyRegistered]
    · cases side <;> rfl
    · rintro (_ | _) level hlevel
      · exact madeWith_of_makeBookLevel hlevel
      · exact madeWith_of_makeBookLevel hlevel
  · rcases registered with _ | market
    · cases existing <;> rfl
    · rfl
  · rcases registered with _ | market
    · exact hkept
    · rfl

theorem fields_tickSizeBook
    (hlot : ∀ old ∈ existing, old.lotSizeUnits = registered.bind RegisteredMarket.lotSizeUnits)
    (notice : UpdateNotice) (tickSize : TickSizeChangeUpdate) :
    BookFields (tickSizeBook registered existing notice tickSize)
      (fun side => (hotLevel existing side).map (refreshBookLevelUnits
        (parseScaled tickSize.newTickSize) (registered.bind RegisteredMarket.lotSizeUnits)))
      (parseScaled tickSize.newTickSize) (registered.bind RegisteredMarket.lotSizeUnits) := by
  have hkept := lot_found hlot notice tickSize.marketId tickSize.assetId tickSize.timestampMs
    notice.sourceHash
  refine ⟨fun side => ?_, rfl, hkept, rfl⟩
  rw [tickSizeBook, sideLevel_refreshMidpoint, hkept]
  cases side <;> cases existing <;> rfl

theorem fields_nextBook
    (hlot : ∀ old ∈ existing, old.lotSizeUnits = registered.bind RegisteredMarket.lotSizeUnits)
    (h : nextBook registered existing update = some book) :
    BookFields book (nextLevel registered existing update) (nextTick registered existing update)
      (registered.bind RegisteredMarket.lotSizeUnits) := by
  rcases update with ⟨notice, payload⟩
  cases payload with
  | bookSnapshot snapshot =>
      obtain rfl := Option.some.inj h
      exact fields_snapshotBook notice snapshot
  | bookDelta delta =>
      obtain rfl := Option.some.inj h
      exact fields_deltaBook hlot notice delta
  | bestBidAsk bestBidAsk =>
      obtain rfl := Option.some.inj h
      exact fields_bestBidAskBook hlot notice bestBidAsk
  | tickSizeChange tickSize =>
      obtain rfl := Option.some.inj h
      exact fields_tickSizeBook hlot notice tickSize
  | tradeTick | referencePrice | reconnect | sourceStatus => exact absurd h (by simp [nextBook])

/-- What every book keeps, whatever its tick size: the lot size of its market, the
sizes in these lots and the midpoint as it is computed. -/
structure BookKept (registered : Option RegisteredMarket) (book : HotBookState) : Prop where
  lot : book.lotSizeUnits = registered.bind RegisteredMarket.lotSizeUnits
  lots : ∀ side, ∀ level ∈ sideLevel book side,
    level.sizeLots = ticksFor level.size.units (registered.bind RegisteredMarket.lotSizeUnits)
  midpoint : book.midpoint = midpointForLevels book.bestBid book.bestAsk

theorem BookKept.consistent_iff (h : BookKept registered book) :
    BookConsistent book ↔
      (∀ side, ∀ level ∈ sideLevel book side,
        level.priceTicks = ticksFor level.price.units book.tickSizeUnits) ∧
        SumFits book.bestBid book.bestAsk := by
  constructor
  · rintro ⟨hticks, -, hmidpoint⟩
    exact ⟨hticks, midpointForLevels_eq_iff.mp (h.midpoint.symm.trans hmidpoint)⟩
  · rintro ⟨hticks, hfits⟩
    refine ⟨hticks, ?_, h.midpoint.trans (midpointForLevels_eq_iff.mpr hfits)⟩
    intro side level hlevel
    rw [h.lot]
    exact h.lots side level hlevel

theorem lots_hotLevel (hkept : ∀ old ∈ existing, BookKept registered old) {side : Side}
    {level : HotBookLevel} (hlevel : level ∈ hotLevel existing side) :
    level.sizeLots = ticksFor level.size.units (registered.bind RegisteredMarket.lotSizeUnits) := by
  obtain ⟨old, hold, hlevel⟩ := Option.bind_eq_some_iff.mp hlevel
  exact (hkept old hold).lots side level hlevel

theorem deltaLevel_cases (registered : Option RegisteredMarket) (current : Option HotBookLevel)
    (delta : BookDeltaUpdate) :
    deltaLevel registered current (deltaHint delta) delta =
        writtenLevel registered current delta ∨
      (writtenLevel registered current delta = none ∧
        deltaLevel registered current (deltaHint delta) delta = current) := by
  unfold writtenLevel
  cases deltaHint delta with
  | some best => exact .inl rfl
  | none =>
      simp only [deltaLevel]
      split
      · exact .inl rfl
      · exact .inr ⟨rfl, rfl⟩

theorem madeWith_of_writtenLevel {current : Option HotBookLevel} {delta : BookDeltaUpdate}
    {level : HotBookLevel} (h : writtenLevel registered current delta = some level) :
    MadeWith registered level := by
  unfold writtenLevel at h
  cases hhint : deltaHint delta with
  | some best =>
      rw [hhint] at h
      exact madeWith_of_makeBookLevel h
  | none =>
      rw [hhint] at h
      simp only at h
      split at h
      · exact madeWith_of_makeBookLevel h
      · exact absurd h (by simp)

theorem lots_nextLevel (hkept : ∀ old ∈ existing, BookKept registered old) {side : Side}
    {level : HotBookLevel} (hlevel : level ∈ nextLevel registered existing update side) :
    level.sizeLots = ticksFor level.size.units (registered.bind RegisteredMarket.lotSizeUnits) := by
  rcases update with ⟨notice, payload⟩
  cases payload with
  | bookSnapshot snapshot => exact (madeWith_of_bestLevel hlevel).2
  | bookDelta delta =>
      simp only [nextLevel] at hlevel
      split at hlevel
      · rcases deltaLevel_cases registered (hotLevel existing side) delta with hsame | ⟨-, hsame⟩
        · exact (madeWith_of_writtenLevel (hsame.symm.trans hlevel)).2
        · exact lots_hotLevel hkept (hsame.symm.trans hlevel)
      · exact lots_hotLevel hkept hlevel
  | bestBidAsk bestBidAsk =>
      cases side with
      | buy => exact (madeWith_of_makeBookLevel hlevel).2
      | sell => exact (madeWith_of_makeBookLevel hlevel).2
  | tickSizeChange tickSize =>
      obtain ⟨source, -, rfl⟩ := Option.map_eq_some_iff.mp hlevel
      rfl
  | tradeTick | referencePrice | reconnect | sourceStatus => exact lots_hotLevel hkept hlevel

theorem bookKept_nextBook (hkept : ∀ old ∈ existing, BookKept registered old)
    (h : nextBook registered existing update = some book) : BookKept registered book := by
  have hfields := fields_nextBook (fun old hold => (hkept old hold).lot) h
  refine ⟨hfields.lot, fun side level hlevel => ?_, hfields.midpoint⟩
  rw [hfields.level] at hlevel
  exact lots_nextLevel hkept hlevel

theorem ticks_hotLevel (hticks : ∀ old ∈ existing, BookConsistent old) {side : Side}
    {level : HotBookLevel} (hlevel : level ∈ hotLevel existing side) :
    level.priceTicks = ticksFor level.price.units (tickBefore registered existing) := by
  obtain ⟨old, rfl, hlevel⟩ := Option.bind_eq_some_iff.mp hlevel
  exact (hticks old rfl).ticks side level hlevel

theorem sumFits_hotLevel (hkept : ∀ old ∈ existing, BookKept registered old)
    (hconsistent : ∀ old ∈ existing, BookConsistent old) :
    SumFits (hotLevel existing .buy) (hotLevel existing .sell) := by
  rcases existing with _ | old
  · exact fun _ hbid => absurd hbid (by simp [hotLevel])
  · exact ((hkept old rfl).consistent_iff.mp (hconsistent old rfl)).2

/-- The levels that an update leaves are right for the tick size that it leaves. -/
def LevelsOk (registered : Option RegisteredMarket) (existing : Option HotBookState)
    (update : NormalizedUpdate) : Prop :=
  (∀ side, ∀ level ∈ nextLevel registered existing update side,
      level.priceTicks = ticksFor level.price.units (nextTick registered existing update)) ∧
    SumFits (nextLevel registered existing update .buy)
      (nextLevel registered existing update .sell)

section Delta

variable (notice : UpdateNotice) {delta : BookDeltaUpdate}

theorem nextLevel_delta_other {side : Side} (hne : delta.side ≠ side) :
    nextLevel registered existing ⟨notice, .bookDelta delta⟩ side = hotLevel existing side :=
  if_neg hne

theorem nextLevel_delta_own :
    nextLevel registered existing ⟨notice, .bookDelta delta⟩ delta.side =
      deltaLevel registered (hotLevel existing delta.side) (deltaHint delta) delta :=
  if_pos rfl

theorem ticks_delta_iff (hconsistent : ∀ old ∈ existing, BookConsistent old) :
    (∀ side, ∀ level ∈ nextLevel registered existing ⟨notice, .bookDelta delta⟩ side,
      level.priceTicks = ticksFor level.price.units (tickBefore registered existing)) ↔
      ∀ level ∈ nextLevel registered existing ⟨notice, .bookDelta delta⟩ delta.side,
        level.priceTicks = ticksFor level.price.units (tickBefore registered existing) := by
  constructor
  · exact fun hall => hall delta.side
  · intro hside side level hlevel
    rcases eq_or_ne delta.side side with rfl | hne
    · exact hside level hlevel
    · rw [nextLevel_delta_other notice hne] at hlevel
      exact ticks_hotLevel hconsistent hlevel

theorem levelsOk_delta_of_written (hconsistent : ∀ old ∈ existing, BookConsistent old)
    (hwritten : deltaLevel registered (hotLevel existing delta.side) (deltaHint delta) delta =
      writtenLevel registered (hotLevel existing delta.side) delta) :
    LevelsOk registered existing ⟨notice, .bookDelta delta⟩ ↔
      WriteOk registered existing ⟨notice, .bookDelta delta⟩ := by
  have hown := (nextLevel_delta_own notice).trans hwritten
  rw [LevelsOk, WriteOk, nextTick, ticks_delta_iff notice hconsistent, hown]
  refine and_congr ?_ ?_
  · refine forall_congr' fun level => forall_congr' fun hlevel => ?_
    rw [(madeWith_of_writtenLevel hlevel).1]
  · rw [← hown]
    cases hside : delta.side with
    | buy => rw [nextLevel_delta_other notice (by simp [hside] : delta.side ≠ .sell)]
    | sell => rw [nextLevel_delta_other notice (by simp [hside] : delta.side ≠ .buy)]

theorem levelsOk_delta_of_kept (hkept : ∀ old ∈ existing, BookKept registered old)
    (hconsistent : ∀ old ∈ existing, BookConsistent old)
    (hkeeps : deltaLevel registered (hotLevel existing delta.side) (deltaHint delta) delta =
      hotLevel existing delta.side) :
    LevelsOk registered existing ⟨notice, .bookDelta delta⟩ := by
  have hsame : ∀ side, nextLevel registered existing ⟨notice, .bookDelta delta⟩ side =
      hotLevel existing side := by
    intro side
    rcases eq_or_ne delta.side side with rfl | hne
    · exact (nextLevel_delta_own notice).trans hkeeps
    · exact nextLevel_delta_other notice hne
  constructor
  · intro side level hlevel
    rw [hsame] at hlevel
    exact ticks_hotLevel hconsistent hlevel
  · rw [hsame, hsame]
    exact sumFits_hotLevel hkept hconsistent

theorem levelsOk_delta_iff (hkept : ∀ old ∈ existing, BookKept registered old)
    (hconsistent : ∀ old ∈ existing, BookConsistent old) :
    LevelsOk registered existing ⟨notice, .bookDelta delta⟩ ↔
      WriteOk registered existing ⟨notice, .bookDelta delta⟩ := by
  rcases deltaLevel_cases registered (hotLevel existing delta.side) delta with
    hwritten | ⟨hnone, hkeeps⟩
  · exact levelsOk_delta_of_written notice hconsistent hwritten
  · refine iff_of_true (levelsOk_delta_of_kept notice hkept hconsistent hkeeps) ?_
    simp only [WriteOk, hnone]
    refine ⟨by simp [SameTicks], ?_⟩
    cases delta.side <;> simp [SumFits]

end Delta

theorem levelsOk_bestBidAsk_iff (notice : UpdateNotice) (bestBidAsk : BestBidAskUpdate) :
    LevelsOk registered existing ⟨notice, .bestBidAsk bestBidAsk⟩ ↔
      WriteOk registered existing ⟨notice, .bestBidAsk bestBidAsk⟩ := by
  have hmade : ∀ {side level},
      level ∈ nextLevel registered existing ⟨notice, .bestBidAsk bestBidAsk⟩ side →
        MadeWith registered level := by
    rintro (_ | _) level hlevel
    · exact madeWith_of_makeBookLevel hlevel
    · exact madeWith_of_makeBookLevel hlevel
  refine and_congr ?_ Iff.rfl
  rcases registered with _ | market
  · simp only [forall_const]
    have hside : ∀ side, (∀ level ∈ nextLevel none existing ⟨notice, .bestBidAsk bestBidAsk⟩ side,
        level.priceTicks = ticksFor level.price.units (tickBefore none existing)) ↔
        SameTicks none (tickBefore none existing)
          (nextLevel none existing ⟨notice, .bestBidAsk bestBidAsk⟩ side) := by
      intro side
      refine forall_congr' fun level => forall_congr' fun hlevel => ?_
      rw [(hmade hlevel).1]
    constructor
    · exact fun hall => ⟨(hside .buy).mp (hall .buy), (hside .sell).mp (hall .sell)⟩
    · rintro ⟨hbid, hask⟩ (_ | _)
      · exact (hside .buy).mpr hbid
      · exact (hside .sell).mpr hask
  · refine iff_of_true ?_ (by simp)
    intro side level hlevel
    exact (hmade hlevel).1

theorem levelsOk_tickSize (hkept : ∀ old ∈ existing, BookKept registered old)
    (hconsistent : ∀ old ∈ existing, BookConsistent old) (notice : UpdateNotice)
    (tickSize : TickSizeChangeUpdate) :
    LevelsOk registered existing ⟨notice, .tickSizeChange tickSize⟩ := by
  constructor
  · intro side level hlevel
    obtain ⟨source, -, rfl⟩ := Option.map_eq_some_iff.mp hlevel
    rfl
  · intro bid hbid ask hask
    obtain ⟨oldBid, holdBid, rfl⟩ := Option.map_eq_some_iff.mp hbid
    obtain ⟨oldAsk, holdAsk, rfl⟩ := Option.map_eq_some_iff.mp hask
    exact sumFits_hotLevel hkept hconsistent oldBid holdBid oldAsk holdAsk

theorem levelsOk_iff (hkept : ∀ old ∈ existing, BookKept registered old)
    (hconsistent : ∀ old ∈ existing, BookConsistent old) (update : NormalizedUpdate) :
    LevelsOk registered existing update ↔ WriteOk registered existing update := by
  rcases update with ⟨notice, payload⟩
  cases payload with
  | bookSnapshot snapshot =>
      refine and_iff_right ?_
      intro side level hlevel
      exact (madeWith_of_bestLevel hlevel).1
  | bookDelta delta => exact levelsOk_delta_iff notice hkept hconsistent
  | bestBidAsk bestBidAsk => exact levelsOk_bestBidAsk_iff notice bestBidAsk
  | tickSizeChange tickSize =>
      exact iff_of_true (levelsOk_tickSize hkept hconsistent notice tickSize) trivial
  | tradeTick | referencePrice | reconnect | sourceStatus =>
      exact iff_of_true ⟨fun side level hlevel => ticks_hotLevel hconsistent hlevel,
        sumFits_hotLevel hkept hconsistent⟩ trivial

theorem consistent_nextBook_iff (hkept : ∀ old ∈ existing, BookKept registered old)
    (hconsistent : ∀ old ∈ existing, BookConsistent old)
    (h : nextBook registered existing update = some book) :
    BookConsistent book ↔ WriteOk registered existing update := by
  have hfields := fields_nextBook (fun old hold => (hkept old hold).lot) h
  have hbid : book.bestBid = nextLevel registered existing update .buy := hfields.level .buy
  have hask : book.bestAsk = nextLevel registered existing update .sell := hfields.level .sell
  rw [(bookKept_nextBook hkept h).consistent_iff, ← levelsOk_iff hkept hconsistent, LevelsOk,
    hfields.tick, hbid, hask]
  simp only [hfields.level]

theorem madeWith_applyRegisteredMarket {market : RegisteredMarket} {side : Side}
    {level : HotBookLevel} (hlevel : level ∈ sideLevel (applyRegisteredMarket book market) side) :
    MadeWith (some market) level := by
  cases side with
  | buy =>
      obtain ⟨source, -, rfl⟩ := Option.map_eq_some_iff.mp hlevel
      exact ⟨rfl, rfl⟩
  | sell =>
      obtain ⟨source, -, rfl⟩ := Option.map_eq_some_iff.mp hlevel
      exact ⟨rfl, rfl⟩

theorem bookKept_applyRegisteredMarket {before : Option RegisteredMarket}
    (h : BookKept before book) (market : RegisteredMarket) :
    BookKept (some market) (applyRegisteredMarket book market) := by
  refine ⟨rfl, ?_, ?_⟩
  · exact fun side level hlevel => (madeWith_applyRegisteredMarket hlevel).2
  · refine h.midpoint.trans ?_
    simp only [applyRegisteredMarket]
    cases book.bestBid <;> cases book.bestAsk <;> rfl

theorem consistent_applyRegisteredMarket {before : Option RegisteredMarket}
    (h : BookKept before book) (hconsistent : BookConsistent book) (market : RegisteredMarket) :
    BookConsistent (applyRegisteredMarket book market) := by
  rw [(bookKept_applyRegisteredMarket h market).consistent_iff]
  constructor
  · exact fun side level hlevel => (madeWith_applyRegisteredMarket hlevel).1
  · intro bid hbid ask hask
    obtain ⟨oldBid, holdBid, rfl⟩ := Option.map_eq_some_iff.mp hbid
    obtain ⟨oldAsk, holdAsk, rfl⟩ := Option.map_eq_some_iff.mp hask
    exact (h.consistent_iff.mp hconsistent).2 oldBid holdBid oldAsk holdAsk

end NextBook

section Store

variable {store : HotStateStore}

/-- Every book stands under its own asset and is kept for the market of it. -/
structure WellKept (store : HotStateStore) : Prop where
  keyed : ∀ key book, store.books key = some book →
    ∃ sourceId, key = .asset sourceId book.assetId
  kept : ∀ key book, store.books key = some book →
    BookKept (store.marketsByAsset book.assetId) book

theorem wellKept_new : WellKept .new :=
  ⟨fun _ _ hbook => absurd hbook (by simp [HotStateStore.new]),
    fun _ _ hbook => absurd hbook (by simp [HotStateStore.new])⟩

theorem WellKept.assetId_eq (h : WellKept store) {sourceId : SourceId} {assetId : String}
    {book : HotBookState} (hbook : store.books (.asset sourceId assetId) = some book) :
    book.assetId = assetId := by
  obtain ⟨source, hkey⟩ := h.keyed _ _ hbook
  exact (asset_eq_iff.mp hkey).2.symm

theorem books_registerAsset (registered : RegisteredMarket) (assetId : AssetId)
    {key : HotStateKey} {book : HotBookState}
    (h : (store.registerAsset registered assetId).books key = some book) :
    ∃ old, store.books key = some old ∧
      book = if old.assetId = assetId then applyRegisteredMarket old registered else old := by
  obtain ⟨old, hold, heq⟩ := Option.map_eq_some_iff.mp h
  exact ⟨old, hold, heq.symm⟩

theorem WellKept.registerAsset (h : WellKept store) (registered : RegisteredMarket)
    (assetId : AssetId) : WellKept (store.registerAsset registered assetId) := by
  constructor
  · intro key book hbook
    obtain ⟨old, hold, rfl⟩ := books_registerAsset registered assetId hbook
    obtain ⟨source, hkey⟩ := h.keyed key old hold
    refine ⟨source, hkey.trans ?_⟩
    split <;> rfl
  · intro key book hbook
    obtain ⟨old, hold, rfl⟩ := books_registerAsset registered assetId hbook
    have hkept := h.kept key old hold
    split
    · rename_i hsame
      have hmarket : (store.registerAsset registered assetId).marketsByAsset
          (applyRegisteredMarket old registered).assetId = some registered := by
        rw [show (applyRegisteredMarket old registered).assetId = assetId from hsame]
        exact insert_self ..
      rw [hmarket]
      exact bookKept_applyRegisteredMarket hkept registered
    · rename_i hother
      have hmarket : (store.registerAsset registered assetId).marketsByAsset old.assetId =
          store.marketsByAsset old.assetId := insert_of_ne _ _ _ hother
      rw [hmarket]
      exact hkept

theorem consistent_registerAsset (h : WellKept store) (hconsistent : Consistent store)
    (registered : RegisteredMarket) (assetId : AssetId) :
    Consistent (store.registerAsset registered assetId) := by
  intro key book hbook
  obtain ⟨old, hold, rfl⟩ := books_registerAsset registered assetId hbook
  split
  · exact consistent_applyRegisteredMarket (h.kept key old hold) (hconsistent key old hold)
      registered
  · exact hconsistent key old hold

theorem books_applyUpdate_cases {update : NormalizedUpdate} {key : HotStateKey}
    {book : HotBookState} (h : (store.applyUpdate update).books key = some book) :
    store.books key = some book ∨
      ∃ assetId, bookAsset update.payload = some assetId ∧
        key = .asset update.notice.sourceId assetId ∧
        nextBook (store.marketsByAsset assetId) (store.books key) update = some book := by
  rw [HotStateStore.books_applyUpdate] at h
  split at h
  · exact absurd h (by simp)
  · split at h
    · exact .inl h
    · rename_i assetId hasset
      split at h
      · rename_i hkey
        exact .inr ⟨assetId, hasset, hkey, h⟩
      · exact .inl h

theorem WellKept.existing (h : WellKept store) {sourceId : SourceId} {assetId : String} :
    ∀ old ∈ store.books (.asset sourceId assetId),
      BookKept (store.marketsByAsset assetId) old := by
  intro old hold
  have hkept := h.kept _ _ hold
  rwa [h.assetId_eq hold] at hkept

theorem WellKept.applyUpdate (h : WellKept store) (update : NormalizedUpdate) :
    WellKept (store.applyUpdate update) := by
  have hwritten : ∀ {assetId book}, bookAsset update.payload = some assetId →
      nextBook (store.marketsByAsset assetId)
        (store.books (.asset update.notice.sourceId assetId)) update = some book →
          book.assetId = assetId :=
    fun hasset hbook => assetId_nextBook hbook hasset fun old hold => h.assetId_eq hold
  constructor
  · intro key book hbook
    rcases books_applyUpdate_cases hbook with hold | ⟨assetId, hasset, rfl, hnext⟩
    · exact h.keyed key book hold
    · exact ⟨update.notice.sourceId, by rw [hwritten hasset hnext]⟩
  · intro key book hbook
    rw [HotStateStore.marketsByAsset_applyUpdate]
    rcases books_applyUpdate_cases hbook with hold | ⟨assetId, hasset, rfl, hnext⟩
    · exact h.kept key book hold
    · rw [hwritten hasset hnext]
      exact bookKept_nextBook h.existing hnext

/-- What a step may do for the derived fields to stay right. -/
def StepOk (store : HotStateStore) : HotEvent → Prop
  | .registered _ => True
  | .applied update => ∀ assetId, bookAsset update.payload = some assetId →
      WriteOk (store.marketsByAsset assetId)
        (store.books (.asset update.notice.sourceId assetId)) update

theorem consistent_applyUpdate_iff (h : WellKept store) (hconsistent : Consistent store)
    (update : NormalizedUpdate) :
    Consistent (store.applyUpdate update) ↔ StepOk store (.applied update) := by
  constructor
  · intro hafter assetId hasset
    obtain ⟨book, hbook⟩ := exists_nextBook (store.marketsByAsset assetId)
      (store.books (.asset update.notice.sourceId assetId)) hasset
    have hstored := (store.books_applyUpdate_own update hasset).trans hbook
    exact (consistent_nextBook_iff h.existing (fun old hold => hconsistent _ old hold) hbook).mp
      (hafter _ book hstored)
  · intro hok key book hbook
    rcases books_applyUpdate_cases hbook with hold | ⟨assetId, hasset, rfl, hnext⟩
    · exact hconsistent key book hold
    · exact (consistent_nextBook_iff h.existing (fun old hold => hconsistent _ old hold)
        hnext).mpr (hok assetId hasset)

def hotStep (store : HotStateStore) (event : HotEvent) : HotStateStore × Unit :=
  (event.apply store, ())

theorem wellKept_hotStep (h : WellKept store) (event : HotEvent) :
    WellKept (hotStep store event).1 := by
  cases event with
  | registered market => exact (h.registerAsset _ _).registerAsset _ _
  | applied update => exact h.applyUpdate update

theorem consistent_hotStep_iff (h : WellKept store) (hconsistent : Consistent store)
    (event : HotEvent) : Consistent (hotStep store event).1 ↔ StepOk store event := by
  cases event with
  | registered market =>
      refine iff_of_true ?_ trivial
      exact consistent_registerAsset (h.registerAsset _ _)
        (consistent_registerAsset h hconsistent _ _) _ _
  | applied update => exact consistent_applyUpdate_iff h hconsistent update

end Store

/-- The derived fields are right in every state of a run exactly when every update
of it may write what it writes. -/
theorem derived_fields_consistent_iff (events : List HotEvent) :
    (∀ pre, pre <+: events → Consistent (exec hotStep .new pre)) ↔
      Along hotStep StepOk .new events := by
  have hnew : Consistent .new := fun _ _ hbook => absurd hbook (by simp [HotStateStore.new])
  have hkeep : ∀ store, ∀ event ∈ events, WellKept store → WellKept (hotStep store event).1 :=
    fun _ event _ h => wellKept_hotStep h event
  have hexact : ∀ store, ∀ event ∈ events, WellKept store → Consistent store →
      (Consistent (hotStep store event).1 ↔ StepOk store event) :=
    fun _ event _ h hconsistent => consistent_hotStep_iff h hconsistent event
  exact forall_prefix_iff_along hkeep hexact wellKept_new hnew

/-- A delta after a tick-size change, for an asset of a market registered with
another tick size. -/
def deltaAfterTickChange : List HotEvent :=
  let notice (kind : UpdateKind) (version : Nat) : UpdateNotice :=
    { sourceId := publicSourceId, sourceKind := .polymarketWs
      subject := .asset publicSourceId "asset-yes", kind, version, sourceHash := none }
  [.registered
      { marketId := "market-1", yesAsset := { assetId := "asset-yes", side := .yes }
        noAsset := { assetId := "asset-no", side := .no }
        tickSize := "0.01", minOrderSize := some "5" },
    .applied
      { notice := notice .tickSizeChange 1
        payload := .tickSizeChange
          { marketId := "market-1", assetId := "asset-yes", oldTickSize := "0.01"
            newTickSize := "0.001", timestampMs := 1 } },
    .applied
      { notice := notice .bookDelta 2
        payload := .bookDelta
          { marketId := "market-1", assetId := "asset-yes", side := .buy, price := "0.55"
            size := "100", bestBid := none, bestAsk := none, timestampMs := 2
            sourceHash := none } }]

theorem delta_uses_registered_tick :
    ¬ ∀ pre, pre <+: deltaAfterTickChange → Consistent (exec hotStep .new pre) := by
  intro h
  have hticks : ∀ book ∈ (exec hotStep .new deltaAfterTickChange).books
      (.asset publicSourceId "asset-yes"), ∀ level ∈ book.bestBid,
        level.priceTicks = ticksFor level.price.units book.tickSizeUnits :=
    fun book hbook => (h _ (List.prefix_refl _) _ book hbook).ticks .buy
  exact absurd hticks (by decide +kernel)

end Rtt.TickConsistency
