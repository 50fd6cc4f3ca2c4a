import Rtt.ListShares
import Rtt.PublicEvent

namespace Rtt.RegistryProvider

open Rtt.ListShares
open Rtt.PublicEvent (MarketId AssetId Price Size Notional OutcomeSide OutcomeToken)

inductive MarketStatus where
  | active
  | closed
  | suspended
  | unknown
  deriving DecidableEq, Repr

inductive RewardFreshness where
  | fresh
  | staleButUsable
  | unknown
  deriving DecidableEq, Repr

structure RewardParams where
  rateBps : Option Nat
  maxSpread : Option Price
  minSize : Option Size
  minNotional : Option Notional
  updatedAtMs : Option Nat
  freshness : RewardFreshness
  deriving DecidableEq, Repr

/-- The market metadata with the fields that only the registry reads. -/
structure MarketMeta extends Rtt.PublicEvent.MarketMeta where
  conditionId : Option String
  status : MarketStatus
  reward : Option RewardParams
  deriving DecidableEq, Repr

def MarketMeta.isTradable (self : MarketMeta) : Bool := self.status = .active

/-- A page of the upstream, given by its first event. -/
structure RegistryPageRequest where
  offset : Nat
  limit : Nat
  deriving DecidableEq, Repr

/-- A record that is no market, with the reason. -/
structure QuarantinedMarketRecord where
  recordId : Option String
  reason : String
  deriving DecidableEq, Repr

/-- What a page brings, and where the next one begins. -/
structure RegistryPage where
  markets : List MarketMeta
  quarantined : List QuarantinedMarketRecord
  nextOffset : Option Nat
  deriving DecidableEq, Repr

/-- An error of the provider. Only a transient one is retried. -/
inductive RegistryProviderError where
  | transient (message : String)
  | permanent (message : String)
  deriving DecidableEq, Repr

namespace RegistryProviderError

def isRetryable : RegistryProviderError → Bool
  | .transient _ => true
  | .permanent _ => false

def message : RegistryProviderError → String
  | .transient message | .permanent message => message

end RegistryProviderError

/-- An array that comes as JSON or as a text that holds JSON. -/
inductive StringArrayField where
  | encoded (raw : String)
  | plain (values : List String)
  deriving DecidableEq, Repr

/-- A number is carried as the text that it prints. -/
inductive ScalarField where
  | string (value : String)
  | number (printed : String)
  deriving DecidableEq, Repr

/-- A number is kept as it was printed. -/
def ScalarField.intoString : ScalarField → String
  | .string value => value
  | .number printed => printed

structure GammaMarket where
  id : String
  conditionId : Option String
  outcomes : Option StringArrayField
  clobTokenIds : Option StringArrayField
  active : Bool
  closed : Bool
  enableOrderBook : Bool
  orderPriceMinTickSize : Option ScalarField
  tickSize : Option ScalarField
  orderMinSize : Option ScalarField
  minimumOrderSize : Option ScalarField
  rewardsMinSize : Option ScalarField
  rewardsMaxSpread : Option ScalarField
  deriving DecidableEq, Repr

structure GammaEvent where
  markets : List GammaMarket
  deriving DecidableEq, Repr

/-- What the JSON library makes of a text: the value, or the text of its error. -/
structure SerdeJson where
  events : String → Except String (List GammaEvent)
  strings : String → Except String (List String)

/-- The array, parsed if it comes as a text. -/
def StringArrayField.intoVec (json : SerdeJson) :
    StringArrayField → Except RegistryProviderError (List String)
  | .encoded raw =>
      (json.strings raw).mapError fun err =>
        .permanent ("failed to parse encoded array: " ++ err)
  | .plain values => .ok values

structure QuarantineReason where
  recordId : Option String
  reason : String
  deriving DecidableEq, Repr

def quarantine (recordId reason : String) : QuarantineReason :=
  { recordId := some recordId, reason }

def toAsciiLowercase (text : String) : String := String.ofList (text.toList.map Char.toLower)

/-- A missing field puts the record aside. -/
def requireField {α : Type} (field : Option α) (reason : QuarantineReason) :
    Except QuarantineReason α :=
  match field with
  | some value => .ok value
  | none => .error reason

def requireArray (json : SerdeJson) (field : Option StringArrayField)
    (missing invalid : QuarantineReason) : Except QuarantineReason (List String) := do
  let field ← requireField field missing
  (field.intoVec json).mapError fun _ => invalid

/-- The last YES token and the last NO token of the pairs. -/
def pairAssets (pairs : List (String × String)) : Option OutcomeToken × Option OutcomeToken :=
  pairs.foldl
    (fun assets pair =>
      if toAsciiLowercase pair.1 = "yes" then (some { assetId := pair.2, side := .yes }, assets.2)
      else if toAsciiLowercase pair.1 = "no" then
        (assets.1, some { assetId := pair.2, side := .no })
      else assets)
    (none, none)

def gammaReward (market : GammaMarket) : Option RewardParams :=
  let minSize := market.rewardsMinSize.map ScalarField.intoString
  let maxSpread := market.rewardsMaxSpread.map ScalarField.intoString
  if minSize.isSome || maxSpread.isSome then
    some
      { rateBps := none, maxSpread, minSize, minNotional := none, updatedAtMs := none
        freshness := .unknown }
  else none

/-- The status that follows from the three flags. -/
def gammaStatus (market : GammaMarket) : MarketStatus :=
  if market.closed then .closed
  else if market.active && market.enableOrderBook then .active
  else if market.active then .suspended
  else .unknown

/-- A record becomes a market, or is put aside for the first reason found. -/
def normalizeGammaMarket (json : SerdeJson) (market : GammaMarket) :
    Except QuarantineReason MarketMeta := do
  let outcomes ← requireArray json market.outcomes (quarantine market.id "missing_outcomes")
    (quarantine market.id "invalid_outcomes")
  let tokens ← requireArray json market.clobTokenIds
    (quarantine market.id "missing_clob_token_ids") (quarantine market.id "invalid_clob_token_ids")
  if outcomes.length ≠ tokens.length then
    .error (quarantine market.id "mismatched_outcomes_and_tokens")
  else
    match pairAssets (outcomes.zip tokens) with
    | (some yesAsset, some noAsset) => do
        let tickSize ← requireField (market.orderPriceMinTickSize.or market.tickSize)
          (quarantine market.id "missing_tick_size")
        .ok
          { marketId := market.id
            yesAsset
            noAsset
            conditionId := market.conditionId
            tickSize := tickSize.intoString
            minOrderSize :=
              (market.orderMinSize.or market.minimumOrderSize).map ScalarField.intoString
            status := gammaStatus market
            reward := gammaReward market }
    | _ => .error (quarantine market.id "missing_yes_no_pair")

section Page

variable (json : SerdeJson) (providerName : String)

def quarantinedRecord (reason : QuarantineReason) : QuarantinedMarketRecord :=
  { recordId := reason.recordId, reason := providerName ++ ": " ++ reason.reason }

def normalizedMarket (market : GammaMarket) : Option MarketMeta :=
  match normalizeGammaMarket json market with
  | .ok market => some market
  | .error _ => none

def quarantinedMarket (market : GammaMarket) : Option QuarantinedMarketRecord :=
  match normalizeGammaMarket json market with
  | .ok _ => none
  | .error reason => some (quarantinedRecord providerName reason)

/-- The markets of the events, one after another. -/
def pageRecords (events : List GammaEvent) : List GammaMarket := events.flatMap GammaEvent.markets

/-- The records of a body are sorted into markets and others. -/
def parsePage (body : String) (request : RegistryPageRequest) :
    Except RegistryProviderError RegistryPage :=
  match json.events body with
  | .error err => .error (.permanent ("failed to parse gamma events: " ++ err))
  | .ok events =>
      let records := pageRecords events
      let markets := records.filterMap (normalizedMarket json)
      let quarantined := records.filterMap (quarantinedMarket json providerName)
      -- Only a page that brought as many records is followed by another one, so that the
      -- offset stays below the number of records that the refresh holds.
      .ok
        { markets
          quarantined
          nextOffset :=
            if request.limit = 0 ∨ markets.length + quarantined.length < request.limit then none
            else some (request.offset + request.limit) }

structure StatusCode where
  code : Nat
  printed : String
  deriving DecidableEq, Repr

namespace StatusCode

def isServerError (self : StatusCode) : Bool := 500 ≤ self.code && self.code < 600

def isSuccess (self : StatusCode) : Bool := 200 ≤ self.code && self.code < 300

end StatusCode

/-- How the HTTP request of a page ends. -/
inductive Reply where
  | requestFailed (err : String)
  | bodyFailed (err : String)
  | answered (status : StatusCode) (body : String)

/-- `fetch_page`: what fails and may pass later is transient. -/
def fetchPage (request : RegistryPageRequest) : Reply → Except RegistryProviderError RegistryPage
  | .requestFailed err => .error (.transient ("gamma request failed: " ++ err))
  | .bodyFailed err => .error (.transient ("gamma response body read failed: " ++ err))
  | .answered status body =>
      if status.code = 429 ∨ status.isServerError then
        .error (.transient ("gamma returned " ++ status.printed))
      else if !status.isSuccess then .error (.permanent ("gamma returned " ++ status.printed))
      else parsePage json providerName body request

variable {json providerName}

theorem bind_eq_ok {ε α β : Type} {x : Except ε α} {f : α → Except ε β} {b : β} :
    x >>= f = .ok b ↔ ∃ a, x = .ok a ∧ f a = .ok b := by
  cases x with
  | error e => simp [bind, Except.bind]
  | ok a => simp [bind, Except.bind]

theorem normalizeGammaMarket_ok {record : GammaMarket} {market : MarketMeta}
    (h : normalizeGammaMarket json record = .ok market) :
    ∃ outcomes tokens,
      requireArray json record.outcomes (quarantine record.id "missing_outcomes")
        (quarantine record.id "invalid_outcomes") = .ok outcomes ∧
      requireArray json record.clobTokenIds (quarantine record.id "missing_clob_token_ids")
        (quarantine record.id "invalid_clob_token_ids") = .ok tokens ∧
      outcomes.length = tokens.length ∧
      pairAssets (outcomes.zip tokens) = (some market.yesAsset, some market.noAsset) ∧
      market.marketId = record.id := by
  obtain ⟨outcomes, houtcomes, h⟩ := bind_eq_ok.mp h
  obtain ⟨tokens, htokens, h⟩ := bind_eq_ok.mp h
  refine ⟨outcomes, tokens, houtcomes, htokens, ?_⟩
  by_cases hlength : outcomes.length = tokens.length
  · rw [if_neg (not_not.mpr hlength)] at h
    refine ⟨hlength, ?_⟩
    split at h
    · rename_i yesAsset noAsset hpair
      obtain ⟨tickSize, -, h⟩ := bind_eq_ok.mp h
      obtain rfl := Except.ok.inj h
      exact ⟨hpair, rfl⟩
    · exact absurd h (by simp)
  · rw [if_pos hlength] at h
    exact absurd h (by simp)

section Sorted

variable {record : GammaMarket}

theorem normalizedMarket_ok {market : MarketMeta}
    (h : normalizeGammaMarket json record = .ok market) :
    normalizedMarket json record = some market := by
  rw [normalizedMarket, h]

theorem normalizedMarket_error {reason : QuarantineReason}
    (h : normalizeGammaMarket json record = .error reason) :
    normalizedMarket json record = none := by
  rw [normalizedMarket, h]

theorem quarantinedMarket_ok {market : MarketMeta}
    (h : normalizeGammaMarket json record = .ok market) :
    quarantinedMarket json providerName record = none := by
  rw [quarantinedMarket, h]

theorem quarantinedMarket_error {reason : QuarantineReason}
    (h : normalizeGammaMarket json record = .error reason) :
    quarantinedMarket json providerName record = some (quarantinedRecord providerName reason) := by
  rw [quarantinedMarket, h]

end Sorted

variable (json providerName)

/-- What becomes of a record of a page. -/
def sortRecord (record : GammaMarket) : Except QuarantinedMarketRecord MarketMeta :=
  (normalizeGammaMarket json record).mapError (quarantinedRecord providerName)

theorem sorts_records (records : List GammaMarket) :
    Sorts (sortRecord json providerName) records (records.filterMap (normalizedMarket json))
      (records.filterMap (quarantinedMarket json providerName)) := by
  refine sorts_filterMap ?_ ?_ records
  · intro record market hsort
    rcases hrecord : normalizeGammaMarket json record with reason | accepted
    · rw [sortRecord, hrecord] at hsort
      exact absurd hsort (by simp [Except.mapError])
    · rw [sortRecord, hrecord] at hsort
      obtain rfl := Except.ok.inj hsort
      exact ⟨normalizedMarket_ok hrecord, quarantinedMarket_ok hrecord⟩
  · intro record entry hsort
    rcases hrecord : normalizeGammaMarket json record with reason | accepted
    · rw [sortRecord, hrecord] at hsort
      obtain rfl := Except.error.inj hsort
      exact ⟨normalizedMarket_error hrecord, quarantinedMarket_error hrecord⟩
    · rw [sortRecord, hrecord] at hsort
      exact absurd hsort (by simp [Except.mapError])

variable {json providerName}

theorem length_markets_add_quarantined (records : List GammaMarket) :
    (records.filterMap (normalizedMarket json)).length +
      (records.filterMap (quarantinedMarket json providerName)).length = records.length :=
  (sorts_records json providerName records).length_add

end Page

end Rtt.RegistryProvider
