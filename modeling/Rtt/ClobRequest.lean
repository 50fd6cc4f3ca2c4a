import Rtt.ClobOrder
import Rtt.JsonText

namespace Rtt.ClobRequest

open Rtt.Quote
open Rtt.ClobOrder
open Rtt.ClobExecutor
open Rtt.JsonText

def clobOrderPath : String := "/order"

def clobOrderUrl : String := "https://clob.polymarket.com/order"

def orderMethod : String := "POST"

structure L2Credentials where
  apiKey : String
  secret : String
  passphrase : String
  address : String
  deriving DecidableEq, Repr

/-- What the HMAC and HTTP crates do, and the text for bytes that are not UTF-8.  A header
is stored under its name unless one of the two is not fit for it.  Lower case goes by the
Unicode tables, which are left open: the results hold whatever they say. -/
structure Crates (Header : Type) where
  hmacSignature : String → String → Except String String
  toLowercase : String → String
  header : String → String → Except String Header
  utf8Error : Bytes → String

structure OrderJson where
  salt : Nat
  maker : String
  signer : String
  taker : String
  tokenId : String
  makerAmount : String
  takerAmount : String
  expiration : String
  nonce : String
  feeRateBps : String
  side : String
  signatureType : Nat
  signature : String
  deriving DecidableEq, Repr

namespace OrderJson

variable {Address : Type} (addressText : Address → String)

/-- A salt of more than 64 bits panics. -/
def fromOrder (order : Order Address) (signature : String) : Option OrderJson :=
  let sideStr := if order.side = 0 then "BUY" else "SELL"
  if order.salt < 2 ^ 64 then
    some
      { salt := order.salt
        maker := addressText order.maker
        signer := addressText order.signer
        taker := addressText order.taker
        tokenId := toString order.tokenId
        makerAmount := toString order.makerAmount
        takerAmount := toString order.takerAmount
        expiration := toString order.expiration
        nonce := toString order.nonce
        feeRateBps := toString order.feeRateBps
        side := sideStr
        signatureType := order.signatureType
        signature }
  else none

def toValue (self : OrderJson) : Value :=
  .object (.ofList
    [("salt", .number self.salt), ("maker", .text self.maker), ("signer", .text self.signer),
      ("taker", .text self.taker), ("tokenId", .text self.tokenId),
      ("makerAmount", .text self.makerAmount), ("takerAmount", .text self.takerAmount),
      ("expiration", .text self.expiration), ("nonce", .text self.nonce),
      ("feeRateBps", .text self.feeRateBps), ("side", .text self.side),
      ("signatureType", .number self.signatureType), ("signature", .text self.signature)])

end OrderJson

/-- The body of a request: the order, its type and its owner. -/
structure SignedOrderPayload where
  order : OrderJson
  orderType : String
  owner : String
  deriving DecidableEq, Repr

namespace SignedOrderPayload

/-- The payload of a signed order; the addresses are written as texts. -/
def new {Address : Type} (addressText : Address → String) (order : Order Address)
    (signature : String) (orderType : Quote.OrderType) (owner : String) :
    Option SignedOrderPayload :=
  let ot :=
    match orderType with
    | .gtc => "GTC"
    | .gtd => "GTD"
    | .fok => "FOK"
    | .fak => "FAK"
  (OrderJson.fromOrder addressText order signature).map fun order =>
    { order, orderType := ot, owner }

def toValue (self : SignedOrderPayload) : Value :=
  .object (.ofList
    [("order", self.order.toValue), ("orderType", .text self.orderType),
      ("owner", .text self.owner)])

end SignedOrderPayload

/-- The random 64 bits masked to 53 of them. -/
def generateSalt (raw : Nat) : Nat := raw &&& (2 ^ 53 - 1)

inductive PresignError where
  | build (error : BuildOrderError)
  | sign (error : String)
  deriving DecidableEq, Repr

section Presign

variable {Address : Type} (zero : Address) (addressText : Address → String)
  (parseTokenId : String → Option Nat) (signOrder : Order Address → Except String String)
  (trigger : TriggerMessage) (maker signerAddr : Address) (feeRateBps : Nat)
  (signatureType : SignatureType) (owner : String)

/-- One pass of the loop, which panics where it has no result. -/
def presignOne (raw : Nat) : Option (Except PresignError SignedOrderPayload) :=
  match buildOrder zero parseTokenId (generateSalt raw) trigger maker signerAddr feeRateBps
      signatureType with
  | .error error => some (.error (.build error))
  | .ok order =>
      match signOrder order with
      | .error error => some (.error (.sign error))
      | .ok sig =>
          (SignedOrderPayload.new addressText order sig trigger.orderType owner).map .ok

/-- An order for each of the random words, up to the first failure. -/
def presignBatch : List Nat → Option (Except PresignError (List SignedOrderPayload))
  | [] => some (.ok [])
  | raw :: raws =>
      match presignOne zero addressText parseTokenId signOrder trigger maker signerAddr feeRateBps
          signatureType owner raw with
      | none => none
      | some (.error error) => some (.error error)
      | some (.ok payload) =>
          (presignBatch raws).map fun results => results.map (payload :: ·)

end Presign

def encodeUtf8 (text : List Char) : Bytes := (String.ofList text).toByteArray.data.toList

def decodeUtf8 (body : Bytes) : Option String := String.fromUTF8? ⟨body.toArray⟩

/-- Writing numbers and texts does not fail. -/
def encodeOrderPayload (signedOrder : SignedOrderPayload) : Except RequestBuildError Bytes :=
  .ok (encodeUtf8 signedOrder.toValue.render)

/-- The text that the HMAC is taken of. -/
def l2Message (timestamp method path body : String) : String := timestamp ++ method ++ path ++ body

/-- An HTTP request; how a header is represented is left open. -/
structure Request (Header : Type) where
  method : String
  uri : String
  headers : List Header
  body : Bytes
  deriving DecidableEq, Repr

section Requests

variable {Header : Type} (crates : Crates Header)

/-- The five authentication headers, the signature being the HMAC over the message. -/
def buildL2Headers (creds : L2Credentials) (timestamp method path body : String) :
    Except String (List (String × String)) := do
  let message := l2Message timestamp method path body
  let signature ← crates.hmacSignature creds.secret message
  return [("POLY_ADDRESS", crates.toLowercase creds.address), ("POLY_API_KEY", creds.apiKey),
    ("POLY_PASSPHRASE", creds.passphrase), ("POLY_SIGNATURE", signature),
    ("POLY_TIMESTAMP", timestamp)]

/-- `str::from_utf8`, with its error as the request error. -/
def fromUtf8 (body : Bytes) : Except RequestBuildError String :=
  match decodeUtf8 body with
  | some text => .ok text
  | none => .error (.utf8 (crates.utf8Error body))

/-- The request with the given body, its headers computed for the given time. -/
def buildOrderRequestFromBytesWithTimestamp (body : Bytes) (creds : L2Credentials)
    (timestamp : String) : Except RequestBuildError (Request Header) := do
  let bodyStr ← fromUtf8 crates body
  let headers ←
    (buildL2Headers crates creds timestamp orderMethod clobOrderPath bodyStr).mapError .auth
  let headers ← (("content-type", "application/json") :: headers).mapM fun header =>
    (crates.header header.1 header.2).mapError .http
  return { method := orderMethod, uri := clobOrderUrl, headers, body }

/-- `now` are the seconds since the epoch, or why there are none. -/
def unixTimestampSecs (now : Except String Nat) : Except RequestBuildError String :=
  (now.map toString).mapError .time

/-- The same at the time the clock tells. -/
def buildOrderRequestFromBytes (body : Bytes) (creds : L2Credentials) (now : Except String Nat) :
    Except RequestBuildError (Request Header) := do
  let timestamp ← unixTimestampSecs now
  buildOrderRequestFromBytesWithTimestamp crates body creds timestamp

def buildOrderRequest (signedOrder : SignedOrderPayload) (creds : L2Credentials)
    (now : Except String Nat) : Except RequestBuildError (Request Header) := do
  let body ← encodeOrderPayload signedOrder
  buildOrderRequestFromBytes crates body creds now

def buildOrderRequestWithTimestamp (signedOrder : SignedOrderPayload) (creds : L2Credentials)
    (timestamp : String) : Except RequestBuildError (Request Header) := do
  let body ← encodeOrderPayload signedOrder
  buildOrderRequestFromBytesWithTimestamp crates body creds timestamp

end Requests

namespace Pool

/-- The bodies of the pool are encoded when it is made, its requests when they are dispatched. -/
def new (payloads : List SignedOrderPayload) : Except RequestBuildError PreSignedOrderPool := do
  let bodies ← payloads.mapM encodeOrderPayload
  return { bodies, cursor := 0 }

variable {Header : Type} (crates : Crates Header)

/-- The request for the next body of the pool. -/
def dispatch (self : PreSignedOrderPool) (creds : L2Credentials) (now : Except String Nat) :
    PreSignedOrderPool × Except RequestBuildError (Option (Request Header)) :=
  self.dispatch fun body => buildOrderRequestFromBytes crates body creds now

def dispatchWithTimestamp (self : PreSignedOrderPool) (creds : L2Credentials)
    (timestamp : String) :
    PreSignedOrderPool × Except RequestBuildError (Option (Request Header)) :=
  self.dispatch fun body => buildOrderRequestFromBytesWithTimestamp crates body creds timestamp

end Pool

end Rtt.ClobRequest
