import Rtt.Quote

namespace Rtt.OrderState

open Rtt.Quote

inductive WorkingQuoteState where
  | pendingSubmit
  | working
  | pendingCancel
  | canceled
  | rejected (reason : String)
  | unknownOrStale (reason : String)
  deriving DecidableEq, Repr

inductive ExchangeObservedQuoteState where
  | working
  | pendingCancel
  | canceled
  | rejected (reason : String)
  deriving DecidableEq, Repr

structure ExchangeObservedQuote where
  quoteId : QuoteId
  clientOrderId : Option String
  state : ExchangeObservedQuoteState
  observedAtMs : Nat
  deriving DecidableEq, Repr

/-- The local record of one quote. -/
structure WorkingQuote where
  quoteId : QuoteId
  assetId : String
  side : Side
  price : String
  size : String
  orderType : Quote.OrderType
  state : WorkingQuoteState
  clientOrderId : Option String
  createdAtMs : Nat
  lastUpdateMs : Nat
  lastCommandMs : Option Nat
  lastExchangeObservedMs : Option Nat
  deriving DecidableEq, Repr

namespace WorkingQuote

def pendingSubmit (desired : DesiredQuote) (nowMs : Nat) : WorkingQuote :=
  { quoteId := desired.quoteId
    assetId := desired.assetId
    side := desired.side
    price := desired.price
    size := desired.size
    orderType := desired.orderType
    state := .pendingSubmit
    clientOrderId := none
    createdAtMs := nowMs
    lastUpdateMs := nowMs
    lastCommandMs := some nowMs
    lastExchangeObservedMs := none }

def markWorking (quote : WorkingQuote) (clientOrderId : String) (nowMs : Nat) :
    WorkingQuote :=
  { quote with
    state := .working
    clientOrderId := some clientOrderId
    lastUpdateMs := nowMs }

/-- The cancel was sent, which counts as a command. -/
def markPendingCancel (quote : WorkingQuote) (nowMs : Nat) : WorkingQuote :=
  { quote with
    state := .pendingCancel
    lastUpdateMs := nowMs
    lastCommandMs := some nowMs }

def markCanceled (quote : WorkingQuote) (nowMs : Nat) : WorkingQuote :=
  { quote with state := .canceled, lastUpdateMs := nowMs }

def markRejected (quote : WorkingQuote) (reason : String) (nowMs : Nat) :
    WorkingQuote :=
  { quote with state := .rejected reason, lastUpdateMs := nowMs }

def markUnknownOrStale (quote : WorkingQuote) (reason : String) (nowMs : Nat) :
    WorkingQuote :=
  { quote with state := .unknownOrStale reason, lastUpdateMs := nowMs }

/-- The record is not known well enough to plan with. -/
def blocksConvergence (quote : WorkingQuote) : Bool :=
  match quote.state with
  | .unknownOrStale _ => true
  | _ => false

/-- The order may be on the market as far as the record knows. -/
def isCancelable (quote : WorkingQuote) : Bool :=
  match quote.state with
  | .pendingSubmit | .working | .pendingCancel => true
  | _ => false

/-- Age a quote against its confirmation timeout.  The flag reports that the
quote became unknown.  Subtraction saturates at zero. -/
def markUnknownIfTimedOut (quote : WorkingQuote)
    (submitTimeoutMs cancelTimeoutMs nowMs : Nat) : WorkingQuote × Bool :=
  match quote.lastCommandMs with
  | none => (quote, false)
  | some lastCommandMs =>
      let elapsedMs := nowMs - lastCommandMs
      match quote.state with
      | .pendingSubmit =>
          if elapsedMs ≥ submitTimeoutMs then
            (quote.markUnknownOrStale "submit_timeout" nowMs, true)
          else (quote, false)
      | .pendingCancel =>
          if elapsedMs ≥ cancelTimeoutMs then
            (quote.markUnknownOrStale "cancel_timeout" nowMs, true)
          else (quote, false)
      | _ => (quote, false)

/-- After a reconnect nothing is known until a resync. -/
def markReconnectStale (quote : WorkingQuote) (nowMs : Nat) : WorkingQuote :=
  quote.markUnknownOrStale "reconnect_resync_required" nowMs

/-- Merge one exchange observation.  The timestamp of the observation is
recorded but never compared with an earlier one. -/
def applyExchangeObservation (quote : WorkingQuote)
    (observed : ExchangeObservedQuote) : WorkingQuote :=
  let quote := { quote with lastExchangeObservedMs := some observed.observedAtMs }
  match quote.state, observed.state with
  | _, .rejected reason => quote.markRejected reason observed.observedAtMs
  | _, .canceled => quote.markCanceled observed.observedAtMs
  | .pendingCancel, .working => { quote with lastUpdateMs := observed.observedAtMs }
  | _, .pendingCancel =>
      { quote with
        state := .pendingCancel
        clientOrderId := observed.clientOrderId
        lastUpdateMs := observed.observedAtMs }
  | _, .working =>
      match observed.clientOrderId with
      | some clientOrderId => quote.markWorking clientOrderId observed.observedAtMs
      | none =>
          { quote with state := .working, lastUpdateMs := observed.observedAtMs }

/-- The quote is missing from an authoritative snapshot.  The flag asks for a
resynchronization. -/
def applyAuthoritativeAbsence (quote : WorkingQuote) (nowMs : Nat) :
    WorkingQuote × Bool :=
  match quote.state with
  | .pendingCancel | .canceled | .unknownOrStale _ => (quote.markCanceled nowMs, false)
  | .pendingSubmit | .working =>
      (quote.markUnknownOrStale "exchange_missing_authoritative" nowMs, true)
  | .rejected _ => (quote, false)

end WorkingQuote

end Rtt.OrderState
