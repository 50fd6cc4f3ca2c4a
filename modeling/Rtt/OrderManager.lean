import Rtt.Decimal
import Rtt.KeyIndex
import Rtt.OrderState

/-!
The local order manager: the planner that compares wanted quotes with local
records, and its extension that first merges an exchange snapshot.
-/

namespace Rtt.OrderManager

open Rtt.Quote
open Rtt.OrderState
open Rtt.KeyIndex
open Rtt.MachineWord
open Rtt.Decimal

/-- What a plan may ask the executor to do. -/
inductive ExecutionCommand where
  | place (quote : DesiredQuote)
  | cancel (quoteId : QuoteId)
  | cancelAll
  deriving DecidableEq, Repr

/-- The thresholds and times of the planner. -/
structure ReconciliationPolicy where
  minPriceChangeUnits : Nat := 1
  minSizeChangeUnits : Nat := 1
  replaceCooldownMs : Nat := 0
  submitTimeoutMs : Nat := 5000
  cancelTimeoutMs : Nat := 5000
  deriving DecidableEq, Repr

structure ExchangeFill where
  fillId : String
  assetId : String
  side : Side
  filledSize : String
  price : String
  observedAtMs : Nat
  deriving DecidableEq, Repr

/-- What the exchange says of all quotes; an authoritative one is complete. -/
structure ExchangeSyncSnapshot where
  authoritative : Bool := false
  resyncPending : Bool := false
  quotes : List ExchangeObservedQuote := []
  fills : List ExchangeFill := []
  observedAtMs : Nat := 0
  deriving DecidableEq, Repr

/-- What a fill adds to the exposure. -/
structure ExposureDelta where
  assetId : String
  side : Side
  filledSizeDelta : String
  notionalDelta : String
  observedAtMs : Nat
  deriving DecidableEq, Repr

/-- What a pass returns. -/
structure ReconciliationOutcome where
  commands : List ExecutionCommand
  blocked : Bool
  blockedQuotes : List QuoteId
  working : List WorkingQuote
  resyncRequired : Bool
  exposureDeltas : List ExposureDelta
  deriving DecidableEq, Repr

/-- The manager: its policy and the fills that it has counted. -/
structure LocalOrderManager where
  policy : ReconciliationPolicy
  seenFillIds : Std.TreeSet String

def unitsScale : Nat := 1000000

/-- Micro-units of a decimal text.  Whatever does not parse counts as zero, and
digits after the sixth place are dropped. -/
def parseUnits (value : String) : Nat :=
  let parts := value.toList.splitOn '.'
  let whole := (parseU64 (parts[0]?.getD ['0'])).getD 0
  let frac := parts[1]?.getD []
  -- a cut inside a character leaves bytes that are not text
  let fracUnits := ((truncateUtf8 6 frac).bind fun kept => parseU64 (zeroExtend 6 kept)).getD 0
  saturatingAdd (saturatingMul whole unitsScale) fracUnits

/-- Millionths with all six places. -/
def formatUnits (units : Nat) : String :=
  let whole := units / unitsScale
  let frac := units % unitsScale
  String.ofList (Nat.toDigits 10 whole ++ '.' :: zeroPadded 6 frac)

def absDiff (a b : Nat) : Nat := if a < b then b - a else a - b

namespace LocalOrderManager

def new (policy : ReconciliationPolicy) : LocalOrderManager :=
  { policy, seenFillIds := ∅ }

/-- The last command to the quote lies far enough back for another one. -/
def cooldownElapsed (self : LocalOrderManager) (quote : WorkingQuote) (nowMs : Nat) :
    Bool :=
  match quote.lastCommandMs with
  | some last => nowMs - last ≥ self.policy.replaceCooldownMs
  | none => true

/-- The wanted quote differs from the record by more than the policy ignores. -/
def isMaterialChange (self : LocalOrderManager) (working : WorkingQuote)
    (desired : DesiredQuote) : Bool :=
  if working.assetId ≠ desired.assetId ∨ working.side ≠ desired.side ∨
      working.orderType ≠ desired.orderType then
    true
  else
    let priceDelta := absDiff (parseUnits working.price) (parseUnits desired.price)
    let sizeDelta := absDiff (parseUnits working.size) (parseUnits desired.size)
    priceDelta ≥ self.policy.minPriceChangeUnits ||
      sizeDelta ≥ self.policy.minSizeChangeUnits

/-- What the first planning loop issues for one local record. -/
def cancelCommand (self : LocalOrderManager) (desiredById : Std.TreeMap QuoteId DesiredQuote)
    (nowMs : Nat) (quoteId : QuoteId) (quote : WorkingQuote) : Option ExecutionCommand :=
  if !quote.isCancelable then none
  else
    match desiredById[quoteId]? with
    | none => some (.cancel quoteId)
    | some desiredQuote =>
        if self.isMaterialChange quote desiredQuote && self.cooldownElapsed quote nowMs then
          some (.cancel quoteId)
        else none

/-- What the second planning loop issues for one wanted quote. -/
def placeCommand (self : LocalOrderManager) (workingById : Std.TreeMap QuoteId WorkingQuote)
    (nowMs : Nat) (quoteId : QuoteId) (desiredQuote : DesiredQuote) :
    Option ExecutionCommand :=
  match workingById[quoteId]? with
  | none => some (.place desiredQuote)
  | some workingQuote =>
      if !workingQuote.isCancelable then some (.place desiredQuote)
      else if self.isMaterialChange workingQuote desiredQuote &&
          self.cooldownElapsed workingQuote nowMs then
        some (.place desiredQuote)
      else none

/-- `reconcile`: cancels before places, and nothing at all while a record is blocked. -/
def reconcile (self : LocalOrderManager) (desired : DesiredQuotes)
    (working : List WorkingQuote) (nowMs : Nat) : ReconciliationOutcome :=
  let blockedQuotes :=
    (working.filter WorkingQuote.blocksConvergence).map WorkingQuote.quoteId
  if !blockedQuotes.isEmpty then
    { commands := []
      blocked := true
      blockedQuotes
      working
      resyncRequired := false
      exposureDeltas := [] }
  else
    let desiredById := indexBy DesiredQuote.quoteId desired.quotes
    let workingById := indexBy WorkingQuote.quoteId working
    if desiredById.isEmpty && working.any WorkingQuote.isCancelable then
      { commands := [.cancelAll]
        blocked := false
        blockedQuotes := []
        working
        resyncRequired := false
        exposureDeltas := [] }
    else
      { commands :=
          workingById.toList.filterMap
              (fun entry => self.cancelCommand desiredById nowMs entry.1 entry.2) ++
            desiredById.toList.filterMap
              (fun entry => self.placeCommand workingById nowMs entry.1 entry.2)
        blocked := false
        blockedQuotes := []
        working
        resyncRequired := false
        exposureDeltas := [] }

/-- The exposure of one fill, its product cut to millionths. -/
def exposureDelta (fill : ExchangeFill) : ExposureDelta :=
  let notionalUnits := parseUnits fill.price * parseUnits fill.filledSize
  { assetId := fill.assetId
    side := fill.side
    filledSizeDelta := formatUnits (parseUnits fill.filledSize)
    notionalDelta := formatUnits (notionalUnits / unitsScale)
    observedAtMs := fill.observedAtMs }

/-- The fills not seen before, each counted at its first occurrence. -/
def collectDeltas (seenFillIds : Std.TreeSet String) :
    List ExchangeFill → Std.TreeSet String × List ExposureDelta
  | [] => (seenFillIds, [])
  | fill :: fills =>
      if seenFillIds.contains fill.fillId then collectDeltas seenFillIds fills
      else
        let (seen, deltas) := collectDeltas (seenFillIds.insert fill.fillId) fills
        (seen, exposureDelta fill :: deltas)

/-- The fills that were not counted before. -/
def collectNewExposureDeltas (self : LocalOrderManager) (snapshot : ExchangeSyncSnapshot) :
    LocalOrderManager × List ExposureDelta :=
  let (seenFillIds, deltas) := collectDeltas self.seenFillIds snapshot.fills
  ({ self with seenFillIds }, deltas)

/-- The merge loop over local records.  An observation is used up by the first
record of its id; observations left over at the end are dropped. -/
def synchronize (policy : ReconciliationPolicy) (snapshot : ExchangeSyncSnapshot)
    (nowMs : Nat) :
    Std.TreeMap QuoteId ExchangeObservedQuote → List WorkingQuote →
      List WorkingQuote × Bool
  | _, [] => ([], false)
  | observedById, quote :: rest =>
      let (aged, timedOut) := quote.markUnknownIfTimedOut policy.submitTimeoutMs
        policy.cancelTimeoutMs nowMs
      match observedById[aged.quoteId]? with
      | some observed =>
          let (synchronized, resyncRequired) :=
            synchronize policy snapshot nowMs (observedById.erase aged.quoteId) rest
          (aged.applyExchangeObservation observed :: synchronized,
            timedOut || resyncRequired)
      | none =>
          let (merged, missing) :=
            if snapshot.authoritative then
              aged.applyAuthoritativeAbsence snapshot.observedAtMs
            else (aged, false)
          let (synchronized, resyncRequired) :=
            synchronize policy snapshot nowMs observedById rest
          (merged :: synchronized, timedOut || missing || resyncRequired)

/-- One pass against an exchange snapshot.  The manager is returned with the
fill ids it has seen. -/
def reconcileWithExchange (self : LocalOrderManager) (desired : DesiredQuotes)
    (working : List WorkingQuote) (snapshot : ExchangeSyncSnapshot) (nowMs : Nat) :
    LocalOrderManager × ReconciliationOutcome :=
  let (manager, exposureDeltas) := self.collectNewExposureDeltas snapshot
  if snapshot.resyncPending then
    let synchronized := working.map fun quote =>
      if quote.isCancelable then quote.markReconnectStale snapshot.observedAtMs else quote
    (manager,
      { commands := []
        blocked := true
        blockedQuotes :=
          (synchronized.filter WorkingQuote.blocksConvergence).map WorkingQuote.quoteId
        working := synchronized
        resyncRequired := true
        exposureDeltas })
  else
    let observedById := indexBy ExchangeObservedQuote.quoteId snapshot.quotes
    let (synchronized, resyncRequired) :=
      synchronize self.policy snapshot nowMs observedById working
    let outcome := self.reconcile desired synchronized nowMs
    (manager,
      { outcome with
        working := synchronized
        resyncRequired := resyncRequired || outcome.blocked
        exposureDeltas })

end LocalOrderManager

namespace Tests

def desiredQuote (id price size : String) : DesiredQuote :=
  { quoteId := ⟨id⟩, assetId := "token_abc", side := .buy, price, size, orderType := .gtc }

def workingQuote (id price size : String) (lastCommandMs : Nat) : WorkingQuote :=
  let quote := WorkingQuote.pendingSubmit (desiredQuote id price size) 1000
  { quote.markWorking ("client-" ++ id) 1100 with lastCommandMs := some lastCommandMs }

end Tests

end Rtt.OrderManager
