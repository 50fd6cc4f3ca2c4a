import Mathlib.Data.String.Basic

namespace Rtt.Quote

inductive Side where
  | buy
  | sell
  deriving DecidableEq, Repr

inductive OrderType where
  | gtc
  | gtd
  | fok
  | fak
  deriving DecidableEq, Repr

structure QuoteId where
  value : String
  deriving DecidableEq, Repr

/-- Identifiers compare as their text does, as the derived `Ord` has it. -/
instance : LinearOrder QuoteId :=
  LinearOrder.lift' QuoteId.value fun a b h => by
    cases a
    cases b
    exact congrArg QuoteId.mk h

/-- A quote that the strategy wants on the market. -/
structure DesiredQuote where
  quoteId : QuoteId
  assetId : String
  side : Side
  price : String
  size : String
  orderType : OrderType
  deriving DecidableEq, Repr

/-- All quotes that the strategy wants. -/
structure DesiredQuotes where
  quotes : List DesiredQuote
  deriving DecidableEq, Repr

/-- An order that the strategy asks for at once. -/
structure TriggerMessage where
  triggerId : Nat
  tokenId : String
  side : Side
  price : String
  size : String
  orderType : OrderType
  timestampNs : Nat
  deriving DecidableEq, Repr

end Rtt.Quote
