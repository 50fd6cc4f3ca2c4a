import Mathlib.Data.List.Induction
import Rtt.PartialMap
import Rtt.MarketMessages

/-!
The hot state: the best level of each side of every book and the reference data
of every source, kept from normalized updates and read through their notices.
-/

namespace Rtt.HotState

open Rtt.Quote
open Rtt.MachineWord
open Rtt.Decimal
open Rtt.PartialMap
open Rtt.PublicEvent

def hotValueScale : Nat := 1000000

/-- A number of a message, with the text that it came as. -/
structure HotStateValue where
  exact : String
  units : Nat
  deriving DecidableEq, Repr

/-- A best level, with its price in ticks and its size in lots where they divide. -/
structure HotBookLevel where
  price : HotStateValue
  size : HotStateValue
  priceTicks : Option Nat
  sizeLots : Option Nat
  deriving DecidableEq, Repr

/-- What is kept of one book: the best level of each side and the market it belongs to. -/
structure HotBookState where
  notice : UpdateNotice
  marketId : Option MarketId
  assetId : AssetId
  bestBid : Option HotBookLevel
  bestAsk : Option HotBookLevel
  midpoint : Option HotStateValue
  tickSize : Option TickSize
  tickSizeUnits : Option Nat
  lotSize : Option MinOrderSize
  lotSizeUnits : Option Nat
  version : Nat
  timestampMs : Nat
  sourceHash : Option String
  deriving DecidableEq, Repr

/-- What is kept of one subject besides books. -/
structure HotReferenceState where
  notice : UpdateNotice
  referencePrice : Option HotStateValue
  bestBid : Option HotStateValue
  bestAsk : Option HotStateValue
  lastTradePrice : Option HotStateValue
  lastTradeSize : Option HotStateValue
  healthy : Option Bool
  staleAfterMs : Option Nat
  observedAtMs : Option Nat
  reconnectSequence : Option Nat
  version : Nat
  timestampMs : Nat
  deriving DecidableEq, Repr

/-- What a notice resolves to. -/
inductive HotStateView where
  | book (book : HotBookState)
  | reference (reference : HotReferenceState)
  deriving DecidableEq, Repr

structure RegisteredMarket where
  marketId : MarketId
  tickSize : TickSize
  tickSizeUnits : Nat
  lotSize : Option MinOrderSize
  lotSizeUnits : Option Nat
  deriving DecidableEq, Repr

/-- The key of a subject; kinds are told apart by their names. -/
structure HotStateKey where
  sourceId : String
  instrumentKind : String
  instrumentId : String
  deriving DecidableEq, Repr

/-- The hot state of all sources. -/
structure HotStateStore where
  marketsByAsset : KeyMap String RegisteredMarket
  books : KeyMap HotStateKey HotBookState
  references : KeyMap HotStateKey HotReferenceState

def HotStateStore.new : HotStateStore :=
  { marketsByAsset := empty, books := empty, references := empty }

namespace HotStateKey

def fromSubject (subject : InstrumentRef) : HotStateKey :=
  { sourceId := subject.sourceId.value
    instrumentKind := subject.kind.debugName
    instrumentId := subject.instrumentId }

def asset (sourceId : SourceId) (assetId : String) : HotStateKey :=
  fromSubject (.asset sourceId assetId)

end HotStateKey

/-- Whole and fractional digits put together, the fraction cut at six places. -/
def scaledUnits (whole fraction : List Char) : Option Nat :=
  (parseU64 whole).bind fun wholeUnits =>
    (parseU64 (zeroExtend 6 (fraction.take 6))).bind fun fractionUnits =>
      (checkedMul wholeUnits hotValueScale).bind fun units => checkedAdd units fractionUnits

/-- A text with more than one point is not a number. -/
def scaledParts : List (List Char) → Option Nat
  | [whole] => scaledUnits whole []
  | [whole, fraction] => scaledUnits whole fraction
  | _ => none

/-- `parse_scaled`: a text as millionths, if it is read as a number. -/
def parseScaled (value : String) : Option Nat :=
  let trimmed := trim value.toList
  if trimmed = [] ∨ trimmed.head? = some '-' then none
  else scaledParts (trimmed.splitOn '.')

/-- `format_scaled`: without the zeros at the end of the fraction. -/
def formatScaled (units : Nat) : String :=
  let whole := Nat.toDigits 10 (units / hotValueScale)
  let fraction := units % hotValueScale
  if fraction = 0 then String.ofList whole
  else
    let rendered := whole ++ '.' :: zeroPadded 6 fraction
    String.ofList (rendered.reverse.dropWhile (· = '0')).reverse

def hotValue (exact : String) : Option HotStateValue :=
  (parseScaled exact).map fun units => { exact, units }

/-- How many steps a number is, if it is a multiple of the step. -/
def ticksFor (units : Nat) (stepUnits : Option Nat) : Option Nat :=
  stepUnits.bind fun step =>
    if step = 0 ∨ units % step ≠ 0 then none else some (units / step)

/-- `make_book_level`: none if one of its texts is not read as a number. -/
def makeBookLevel (price size : String) (registered : Option RegisteredMarket) :
    Option HotBookLevel := do
  let priceValue ← hotValue price
  let sizeValue ← hotValue size
  some
    { price := priceValue
      size := sizeValue
      priceTicks := registered.bind fun market =>
        (parseScaled price).bind fun units => ticksFor units (some market.tickSizeUnits)
      sizeLots := registered.bind fun market =>
        (parseScaled size).bind fun units => ticksFor units market.lotSizeUnits }

/-- Ticks and lots of a level for new steps. -/
def refreshBookLevelUnits (tickSizeUnits lotSizeUnits : Option Nat) (level : HotBookLevel) :
    HotBookLevel :=
  { level with
    priceTicks := ticksFor level.price.units tickSizeUnits
    sizeLots := ticksFor level.size.units lotSizeUnits }

/-- A book takes over the market that its asset is registered for. -/
def applyRegisteredMarket (state : HotBookState) (registered : RegisteredMarket) : HotBookState :=
  let refresh := refreshBookLevelUnits (some registered.tickSizeUnits) registered.lotSizeUnits
  { state with
    marketId := some registered.marketId
    tickSize := some registered.tickSize
    tickSizeUnits := some registered.tickSizeUnits
    lotSize := registered.lotSize
    lotSizeUnits := registered.lotSizeUnits
    bestBid := state.bestBid.map refresh
    bestAsk := state.bestAsk.map refresh }

/-- The market's data when there is one. -/
def applyRegistered (registered : Option RegisteredMarket) (state : HotBookState) :
    HotBookState :=
  match registered with
  | none => state
  | some market => applyRegisteredMarket state market

/-- The sum of the two prices wraps, as release arithmetic does. -/
def midpointForLevels (bestBid bestAsk : Option HotBookLevel) : Option HotStateValue := do
  let bid ← bestBid
  let ask ← bestAsk
  let midpointUnits := wrappingAdd bid.price.units ask.price.units / 2
  some { exact := formatScaled midpointUnits, units := midpointUnits }

def refreshMidpoint (state : HotBookState) : HotBookState :=
  { state with midpoint := midpointForLevels state.bestBid state.bestAsk }

/-- `candidate` takes the place of `current` as the best level of a side. -/
def replaces : Side → HotBookLevel → HotBookLevel → Bool
  | .buy, current, candidate => current.price.units < candidate.price.units
  | .sell, current, candidate => candidate.price.units < current.price.units

/-- The best of the levels of a full book, as far as they are read. -/
def bestLevel (levels : List BookLevel) (side : Side) (registered : Option RegisteredMarket) :
    Option HotBookLevel :=
  match levels.filterMap fun level => makeBookLevel level.price level.size registered with
  | [] => none
  | first :: rest =>
      some (rest.foldl
        (fun current candidate => if replaces side current candidate then candidate else current)
        first)

/-- The price of a delta is at least as good as the best level known. -/
def updatesBestSide (current candidate : Option HotBookLevel) (side : Side) : Bool :=
  match candidate, current with
  | none, _ => false
  | some _, none => true
  | some candidate, some current =>
      match side with
      | .buy => current.price.units ≤ candidate.price.units
      | .sell => candidate.price.units ≤ current.price.units

/-- A book that no update has written yet. -/
def freshBook (registered : Option RegisteredMarket) (notice : UpdateNotice)
    (marketId : MarketId) (assetId : AssetId) (timestampMs : Nat) (sourceHash : Option String) :
    HotBookState :=
  { notice
    marketId := some marketId
    assetId
    bestBid := none
    bestAsk := none
    midpoint := none
    tickSize := registered.map RegisteredMarket.tickSize
    tickSizeUnits := registered.map RegisteredMarket.tickSizeUnits
    lotSize := registered.bind RegisteredMarket.lotSize
    lotSizeUnits := registered.bind RegisteredMarket.lotSizeUnits
    version := notice.version
    timestampMs
    sourceHash }

/-- The book after a full snapshot; nothing of the old one remains. -/
def snapshotBook (registered : Option RegisteredMarket) (notice : UpdateNotice)
    (snapshot : BookSnapshotUpdate) : HotBookState :=
  let state :=
    { freshBook registered notice snapshot.marketId snapshot.assetId snapshot.timestampMs
        (snapshot.sourceHash.or notice.sourceHash) with
      bestBid := bestLevel snapshot.bids .buy registered
      bestAsk := bestLevel snapshot.asks .sell registered }
  refreshMidpoint (applyRegistered registered state)

/-- The best level of the side that a delta names, from the one before it: the
hint when there is one, else the delta's own level where it is no worse. -/
def deltaLevel (registered : Option RegisteredMarket) (current : Option HotBookLevel)
    (hint : Option Price) (delta : BookDeltaUpdate) : Option HotBookLevel :=
  match hint with
  | some best =>
      let size :=
        if best = delta.price then delta.size
        else (current.map fun level => level.size.exact).getD "0"
      makeBookLevel best size registered
  | none =>
      let candidate := makeBookLevel delta.price delta.size registered
      if updatesBestSide current candidate delta.side then candidate else current

/-- The book after one level has changed. -/
def deltaBook (registered : Option RegisteredMarket) (existing : Option HotBookState)
    (notice : UpdateNotice) (delta : BookDeltaUpdate) : HotBookState :=
  let found := existing.getD
    (freshBook registered notice delta.marketId delta.assetId delta.timestampMs delta.sourceHash)
  let state :=
    { found with
      notice
      marketId := some delta.marketId
      version := notice.version
      timestampMs := delta.timestampMs
      sourceHash := delta.sourceHash }
  let patched :=
    match delta.side with
    | .buy => { state with bestBid := deltaLevel registered state.bestBid delta.bestBid delta }
    | .sell => { state with bestAsk := deltaLevel registered state.bestAsk delta.bestAsk delta }
  refreshMidpoint patched

def bestBidAskBook (registered : Option RegisteredMarket) (existing : Option HotBookState)
    (notice : UpdateNotice) (update : BestBidAskUpdate) : HotBookState :=
  let found := existing.getD
    (freshBook registered notice update.marketId update.assetId update.timestampMs
      notice.sourceHash)
  let state :=
    { found with
      notice
      marketId := some update.marketId
      version := notice.version
      timestampMs := update.timestampMs
      bestBid := makeBookLevel update.bestBid "0" registered
      bestAsk := makeBookLevel update.bestAsk "0" registered }
  refreshMidpoint (applyRegistered registered state)

def tickSizeBook (registered : Option RegisteredMarket) (existing : Option HotBookState)
    (notice : UpdateNotice) (update : TickSizeChangeUpdate) : HotBookState :=
  let found := existing.getD
    (freshBook registered notice update.marketId update.assetId update.timestampMs
      notice.sourceHash)
  let tickSizeUnits := parseScaled update.newTickSize
  let refresh := refreshBookLevelUnits tickSizeUnits found.lotSizeUnits
  refreshMidpoint
    { found with
      notice
      marketId := some update.marketId
      version := notice.version
      timestampMs := update.timestampMs
      tickSize := some update.newTickSize
      tickSizeUnits
      bestBid := found.bestBid.map refresh
      bestAsk := found.bestAsk.map refresh }

/-- The record of a subject before its first update. -/
def emptyReferenceState (notice : UpdateNotice) : HotReferenceState :=
  { notice
    referencePrice := none
    bestBid := none
    bestAsk := none
    lastTradePrice := none
    lastTradeSize := none
    healthy := none
    staleAfterMs := none
    observedAtMs := none
    reconnectSequence := none
    version := notice.version
    timestampMs := 0 }

/-- What a subject has recorded, under a new notice. -/
def referenceFor (existing : Option HotReferenceState) (notice : UpdateNotice)
    (timestampMs : Nat) : HotReferenceState :=
  { existing.getD (emptyReferenceState notice) with
    notice, version := notice.version, timestampMs }

def tradeTickReference (existing : Option HotReferenceState) (notice : UpdateNotice)
    (update : TradeTickUpdate) : HotReferenceState :=
  { referenceFor existing notice update.timestampMs with
    lastTradePrice := hotValue update.price
    lastTradeSize := update.size.bind hotValue }

def referencePriceReference (existing : Option HotReferenceState) (notice : UpdateNotice)
    (update : ReferencePriceUpdate) : HotReferenceState :=
  { referenceFor existing notice update.timestampMs with referencePrice := hotValue update.price }

def sourceStatusReference (existing : Option HotReferenceState) (notice : UpdateNotice)
    (update : SourceStatusUpdate) : HotReferenceState :=
  { referenceFor existing notice update.observedAtMs with
    healthy := some update.healthy
    staleAfterMs := update.staleAfterMs
    observedAtMs := some update.observedAtMs }

/-- The record of a reconnect; nothing of the old one remains. -/
def reconnectReference (notice : UpdateNotice) (update : ReconnectUpdate) : HotReferenceState :=
  { emptyReferenceState notice with
    reconnectSequence := some update.sequence
    timestampMs := update.timestampMs
    version := notice.version }

namespace HotStateStore

/-- One of the two assets of a market; books already there take the market over. -/
def registerAsset (self : HotStateStore) (registered : RegisteredMarket) (assetId : AssetId) :
    HotStateStore :=
  { self with
    marketsByAsset := insert self.marketsByAsset assetId registered
    books := mapValues self.books fun book =>
      if book.assetId = assetId then applyRegisteredMarket book registered else book }

/-- `register_market`: both assets of the market. -/
def registerMarket (self : HotStateStore) (market : MarketMeta) : HotStateStore :=
  let registered : RegisteredMarket :=
    { marketId := market.marketId
      tickSize := market.tickSize
      tickSizeUnits := (parseScaled market.tickSize).getD 0
      lotSize := market.minOrderSize
      lotSizeUnits := market.minOrderSize.bind parseScaled }
  (self.registerAsset registered market.yesAsset.assetId).registerAsset registered
    market.noAsset.assetId

def applyBookSnapshotUpdate (self : HotStateStore) (notice : UpdateNotice)
    (snapshot : BookSnapshotUpdate) : HotStateStore :=
  { self with
    books := insert self.books (.asset notice.sourceId snapshot.assetId)
      (snapshotBook (self.marketsByAsset snapshot.assetId) notice snapshot) }

def applyBookDeltaUpdate (self : HotStateStore) (notice : UpdateNotice)
    (delta : BookDeltaUpdate) : HotStateStore :=
  let key := HotStateKey.asset notice.sourceId delta.assetId
  { self with
    books := insert self.books key
      (deltaBook (self.marketsByAsset delta.assetId) (self.books key) notice delta) }

def applyBestBidAskUpdate (self : HotStateStore) (notice : UpdateNotice)
    (update : BestBidAskUpdate) : HotStateStore :=
  let key := HotStateKey.asset notice.sourceId update.assetId
  { self with
    books := insert self.books key
      (bestBidAskBook (self.marketsByAsset update.assetId) (self.books key) notice update) }

def applyTickSizeChangeUpdate (self : HotStateStore) (notice : UpdateNotice)
    (update : TickSizeChangeUpdate) : HotStateStore :=
  let key := HotStateKey.asset notice.sourceId update.assetId
  { self with
    books := insert self.books key
      (tickSizeBook (self.marketsByAsset update.assetId) (self.books key) notice update) }

def applyTradeTickUpdate (self : HotStateStore) (notice : UpdateNotice)
    (update : TradeTickUpdate) : HotStateStore :=
  let key := HotStateKey.fromSubject notice.subject
  { self with
    references := insert self.references key
      (tradeTickReference (self.references key) notice update) }

def applyReferencePriceUpdate (self : HotStateStore) (notice : UpdateNotice)
    (update : ReferencePriceUpdate) : HotStateStore :=
  let key := HotStateKey.fromSubject notice.subject
  { self with
    references := insert self.references key
      (referencePriceReference (self.references key) notice update) }

def applySourceStatusUpdate (self : HotStateStore) (notice : UpdateNotice)
    (update : SourceStatusUpdate) : HotStateStore :=
  let key := HotStateKey.fromSubject notice.subject
  { self with
    references := insert self.references key
      (sourceStatusReference (self.references key) notice update) }

/-- A reconnect forgets everything of its source. -/
def applyReconnectUpdate (self : HotStateStore) (notice : UpdateNotice)
    (update : ReconnectUpdate) : HotStateStore :=
  let other := fun key : HotStateKey => decide (key.sourceId ≠ notice.sourceId.value)
  { self with
    books := retain self.books other
    references := insert (retain self.references other) (.fromSubject notice.subject)
      (reconnectReference notice update) }

/-- `apply_update`: each kind of update writes the record that it is about. -/
def applyUpdate (self : HotStateStore) (update : NormalizedUpdate) : HotStateStore :=
  match update.payload with
  | .bookSnapshot snapshot => self.applyBookSnapshotUpdate update.notice snapshot
  | .bookDelta delta => self.applyBookDeltaUpdate update.notice delta
  | .bestBidAsk bestBidAsk => self.applyBestBidAskUpdate update.notice bestBidAsk
  | .tradeTick tradeTick => self.applyTradeTickUpdate update.notice tradeTick
  | .referencePrice referencePrice => self.applyReferencePriceUpdate update.notice referencePrice
  | .tickSizeChange tickSizeChange => self.applyTickSizeChangeUpdate update.notice tickSizeChange
  | .reconnect reconnect => self.applyReconnectUpdate update.notice reconnect
  | .sourceStatus sourceStatus => self.applySourceStatusUpdate update.notice sourceStatus

def bookState (self : HotStateStore) (sourceId : SourceId) (assetId : String) :
    Option HotBookState :=
  self.books (.asset sourceId assetId)

def referenceState (self : HotStateStore) (subject : InstrumentRef) :
    Option HotReferenceState :=
  self.references (.fromSubject subject)

/-- The present book if it has the version of the notice. -/
def resolveBookNotice (self : HotStateStore) (notice : UpdateNotice) : Option HotBookState :=
  (self.books (.asset notice.sourceId notice.subject.instrumentId)).filter fun state =>
    state.version = notice.version

/-- The present record if it has the version of the notice. -/
def resolveReferenceNotice (self : HotStateStore) (notice : UpdateNotice) :
    Option HotReferenceState :=
  (self.references (.fromSubject notice.subject)).filter fun state =>
    state.version = notice.version

end HotStateStore

/-- The kinds of notice that stand for a book. -/
def resolvesBook : UpdateKind → Bool
  | .bookSnapshot | .bookDelta | .bestBidAsk | .tickSizeChange => true
  | .tradeTick | .referencePrice | .reconnect | .sourceStatus | .custom => false

/-- A level goes out with the texts that it came in with. -/
def bookLevelToSnapshotLevel (level : HotBookLevel) : PriceLevel :=
  { price := level.price.exact, size := level.size.exact }

namespace HotStateStore

/-- `resolve_notice`: what was announced, as long as its version is the present one. -/
def resolveNotice (self : HotStateStore) (notice : UpdateNotice) : Option HotStateView :=
  if resolvesBook notice.kind then (self.resolveBookNotice notice).map .book
  else (self.resolveReferenceNotice notice).map .reference

/-- A resolved book in the form of the legacy path. -/
def projectSnapshot (self : HotStateStore) (notice : UpdateNotice) : Option OrderBookSnapshot :=
  (self.resolveBookNotice notice).map fun state =>
    { assetId := state.assetId
      bestBid := state.bestBid.map bookLevelToSnapshotLevel
      bestAsk := state.bestAsk.map bookLevelToSnapshotLevel
      timestampMs := state.timestampMs
      hash := (state.sourceHash.or notice.sourceHash).getD "" }

end HotStateStore

/-- The asset whose book an update writes. -/
def bookAsset : NormalizedUpdatePayload → Option AssetId
  | .bookSnapshot update => some update.assetId
  | .bookDelta update => some update.assetId
  | .bestBidAsk update => some update.assetId
  | .tickSizeChange update => some update.assetId
  | .tradeTick _ | .referencePrice _ | .reconnect _ | .sourceStatus _ => none

/-- The book that an update leaves under the key it writes. -/
def nextBook (registered : Option RegisteredMarket) (existing : Option HotBookState)
    (update : NormalizedUpdate) : Option HotBookState :=
  match update.payload with
  | .bookSnapshot snapshot => some (snapshotBook registered update.notice snapshot)
  | .bookDelta delta => some (deltaBook registered existing update.notice delta)
  | .bestBidAsk bestBidAsk => some (bestBidAskBook registered existing update.notice bestBidAsk)
  | .tickSizeChange tickSize => some (tickSizeBook registered existing update.notice tickSize)
  | .tradeTick _ | .referencePrice _ | .reconnect _ | .sourceStatus _ => none

def isReconnect : NormalizedUpdatePayload → Bool
  | .reconnect _ => true
  | _ => false

/-- The reference record that an update leaves under the key of its subject. -/
def nextReference (existing : Option HotReferenceState) (update : NormalizedUpdate) :
    Option HotReferenceState :=
  match update.payload with
  | .tradeTick tradeTick => some (tradeTickReference existing update.notice tradeTick)
  | .referencePrice price => some (referencePriceReference existing update.notice price)
  | .sourceStatus status => some (sourceStatusReference existing update.notice status)
  | .reconnect reconnect => some (reconnectReference update.notice reconnect)
  | .bookSnapshot _ | .bookDelta _ | .bestBidAsk _ | .tickSizeChange _ => none

theorem fromSubject_injective : ∀ {subject subject' : InstrumentRef},
    HotStateKey.fromSubject subject = .fromSubject subject' → subject = subject' := by
  rintro ⟨⟨source⟩, kind, instrument⟩ ⟨⟨source'⟩, kind', instrument'⟩ h
  simp only [HotStateKey.fromSubject, HotStateKey.mk.injEq] at h
  obtain ⟨rfl, hkind, rfl⟩ := h
  rw [InstrumentKind.debugName_injective hkind]

theorem asset_eq_iff {sourceId sourceId' : SourceId} {assetId assetId' : String} :
    HotStateKey.asset sourceId assetId = .asset sourceId' assetId' ↔
      sourceId = sourceId' ∧ assetId = assetId' := by
  constructor
  · intro h
    have hsubject := fromSubject_injective h
    simp only [InstrumentRef.asset, InstrumentRef.mk.injEq, true_and] at hsubject
    exact hsubject
  · rintro ⟨rfl, rfl⟩
    rfl

namespace HotStateStore

theorem registered_new (markets : List MarketMeta) (key : HotStateKey) :
    (markets.foldl registerMarket new).books key = none ∧
      (markets.foldl registerMarket new).references key = none := by
  induction markets using List.reverseRecOn with
  | nil => exact ⟨rfl, rfl⟩
  | append_singleton markets market ih =>
      rw [List.foldl_append]
      simp [registerMarket, registerAsset, ih]

variable (self : HotStateStore) (update : NormalizedUpdate) (key : HotStateKey)

@[simp] theorem marketsByAsset_applyUpdate :
    (self.applyUpdate update).marketsByAsset = self.marketsByAsset := by
  unfold applyUpdate
  cases update.payload <;> rfl

/-- What an update leaves under a book key: it writes the key of its own asset,
clears its own source on a reconnect, and keeps everything else. -/
theorem books_applyUpdate :
    (self.applyUpdate update).books key =
      if isReconnect update.payload ∧ key.sourceId = update.notice.sourceId.value then none
      else
        match bookAsset update.payload with
        | none => self.books key
        | some assetId =>
            if key = .asset update.notice.sourceId assetId then
              nextBook (self.marketsByAsset assetId) (self.books key) update
            else self.books key := by
  rcases update with ⟨notice, payload⟩
  cases payload with
  | bookSnapshot | bookDelta | bestBidAsk | tickSizeChange =>
      simp only [applyUpdate, isReconnect, bookAsset, Bool.false_eq_true, false_and, if_false]
      refine (insert_apply ..).trans ?_
      split
      · rename_i hkey
        rw [hkey]
        rfl
      · rfl
  | tradeTick | referencePrice | sourceStatus =>
      simp only [isReconnect, bookAsset, Bool.false_eq_true, false_and, if_false]
      rfl
  | reconnect =>
      simp [applyUpdate, applyReconnectUpdate, isReconnect, bookAsset]

theorem references_applyUpdate :
    (self.applyUpdate update).references key =
      if bookAsset update.payload = none ∧ key = .fromSubject update.notice.subject then
        nextReference (self.references key) update
      else if isReconnect update.payload ∧ key.sourceId = update.notice.sourceId.value then none
      else self.references key := by
  rcases update with ⟨notice, payload⟩
  cases payload with
  | bookSnapshot | bookDelta | bestBidAsk | tickSizeChange =>
      simp [applyUpdate, isReconnect, bookAsset, applyBookSnapshotUpdate, applyBookDeltaUpdate,
        applyBestBidAskUpdate, applyTickSizeChangeUpdate]
  | tradeTick | referencePrice | sourceStatus =>
      simp only [isReconnect, bookAsset, true_and, Bool.false_eq_true, false_and, if_false]
      refine (insert_apply ..).trans ?_
      split
      · rename_i hkey
        rw [hkey]
        rfl
      · rfl
  | reconnect =>
      simp only [isReconnect, bookAsset, true_and]
      refine (insert_apply ..).trans ?_
      split
      · rfl
      · simp

theorem not_isReconnect_of_bookAsset {payload : NormalizedUpdatePayload} {assetId : AssetId}
    (hasset : bookAsset payload = some assetId) : isReconnect payload = false := by
  cases payload with
  | reconnect => exact absurd hasset (by simp [bookAsset])
  | _ => rfl

theorem books_applyUpdate_own {assetId : AssetId}
    (hasset : bookAsset update.payload = some assetId) :
    (self.applyUpdate update).books (.asset update.notice.sourceId assetId) =
      nextBook (self.marketsByAsset assetId)
        (self.books (.asset update.notice.sourceId assetId)) update := by
  rw [books_applyUpdate]
  simp [not_isReconnect_of_bookAsset hasset, hasset]

end HotStateStore

theorem exists_nextBook (registered : Option RegisteredMarket) (existing : Option HotBookState)
    {update : NormalizedUpdate} {assetId : AssetId}
    (h : bookAsset update.payload = some assetId) :
    ∃ book, nextBook registered existing update = some book := by
  rcases update with ⟨notice, payload⟩
  cases payload with
  | bookSnapshot | bookDelta | bestBidAsk | tickSizeChange => exact ⟨_, rfl⟩
  | tradeTick | referencePrice | reconnect | sourceStatus =>
      exact absurd h (by simp [bookAsset])

theorem version_nextBook {registered : Option RegisteredMarket}
    {existing : Option HotBookState} {update : NormalizedUpdate} {book : HotBookState}
    (h : nextBook registered existing update = some book) :
    book.notice = update.notice ∧ book.version = update.notice.version := by
  rcases update with ⟨notice, payload⟩
  cases payload with
  | bookSnapshot snapshot =>
      obtain rfl := Option.some.inj h
      cases registered <;> exact ⟨rfl, rfl⟩
  | bookDelta delta =>
      obtain rfl := Option.some.inj h
      simp only [deltaBook]
      cases delta.side <;> exact ⟨rfl, rfl⟩
  | bestBidAsk bestBidAsk =>
      obtain rfl := Option.some.inj h
      cases registered <;> exact ⟨rfl, rfl⟩
  | tickSizeChange tickSize =>
      obtain rfl := Option.some.inj h
      exact ⟨rfl, rfl⟩
  | tradeTick | referencePrice | reconnect | sourceStatus => exact absurd h (by simp [nextBook])

theorem assetId_nextBook {registered : Option RegisteredMarket} {existing : Option HotBookState}
    {update : NormalizedUpdate} {book : HotBookState} {assetId : AssetId}
    (h : nextBook registered existing update = some book)
    (hasset : bookAsset update.payload = some assetId)
    (hexisting : ∀ old, existing = some old → old.assetId = assetId) :
    book.assetId = assetId := by
  have hfound : ∀ fresh : HotBookState, fresh.assetId = assetId →
      (existing.getD fresh).assetId = assetId := by
    intro fresh hfresh
    cases existing with
    | none => exact hfresh
    | some old => exact hexisting old rfl
  have hregistered : ∀ state : HotBookState,
      (applyRegistered registered state).assetId = state.assetId := by
    intro state
    cases registered <;> rfl
  rcases update with ⟨notice, payload⟩
  cases payload with
  | bookSnapshot snapshot =>
      obtain rfl := Option.some.inj h
      exact (hregistered _).trans (Option.some.inj hasset)
  | bookDelta delta =>
      obtain rfl := Option.some.inj h
      simp only [deltaBook]
      cases delta.side <;> exact hfound _ (Option.some.inj hasset)
  | bestBidAsk bestBidAsk =>
      obtain rfl := Option.some.inj h
      exact (hregistered _).trans (hfound _ (Option.some.inj hasset))
  | tickSizeChange tickSize =>
      obtain rfl := Option.some.inj h
      exact hfound _ (Option.some.inj hasset)
  | tradeTick | referencePrice | reconnect | sourceStatus => exact absurd h (by simp [nextBook])

/-- Every book carries the asset of its key. -/
def KeyedByAsset (store : HotStateStore) : Prop :=
  ∀ sourceId assetId book, store.books (.asset sourceId assetId) = some book →
    book.assetId = assetId

theorem KeyedByAsset.applyUpdate {store : HotStateStore} (h : KeyedByAsset store)
    (update : NormalizedUpdate) : KeyedByAsset (store.applyUpdate update) := by
  intro sourceId assetId book hbook
  rw [HotStateStore.books_applyUpdate] at hbook
  split at hbook
  · exact absurd hbook (by simp)
  · cases hasset : bookAsset update.payload with
    | none =>
        rw [hasset] at hbook
        exact h _ _ _ hbook
    | some written =>
        simp only [hasset] at hbook
        split at hbook
        · rename_i hkey
          obtain ⟨rfl, rfl⟩ := asset_eq_iff.mp hkey
          exact assetId_nextBook hbook hasset fun old hold => h _ _ _ hold
        · exact h _ _ _ hbook

theorem keyedByAsset_registered (markets : List MarketMeta) :
    KeyedByAsset (markets.foldl HotStateStore.registerMarket .new) := by
  intro sourceId assetId book hbook
  rw [(HotStateStore.registered_new markets _).1] at hbook
  exact absurd hbook (by simp)

end Rtt.HotState
