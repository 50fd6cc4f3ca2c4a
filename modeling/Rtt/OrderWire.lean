import Rtt.ClobRequest
import Rtt.RegistryProvider

namespace Rtt.OrderWire

open Rtt.Quote
open Rtt.ClobOrder
open Rtt.ClobExecutor
open Rtt.JsonText
open Rtt.ClobRequest
open Rtt.RegistryProvider (bind_eq_ok)

section Bytes

theorem decodeUtf8_encodeUtf8 (text : List Char) :
    decodeUtf8 (encodeUtf8 text) = some (String.ofList text) := by
  have hbytes : (⟨(encodeUtf8 text).toArray⟩ : ByteArray) = (String.ofList text).toByteArray := by
    rw [encodeUtf8, Array.toArray_toList]
  rw [decodeUtf8, hbytes, String.fromUTF8?, dif_pos (String.ofList text).isValidUTF8]
  rfl

theorem fromUtf8_encodeUtf8 {Header : Type} (crates : Crates Header) (text : List Char) :
    fromUtf8 crates (encodeUtf8 text) = .ok (String.ofList text) := by
  rw [fromUtf8, decodeUtf8_encodeUtf8]

/-- The value that the body of a request stands for. -/
def readBody (body : Bytes) : Option Value := (decodeUtf8 body).bind fun text => read text.toList

theorem readBody_encodeUtf8 (value : Value) :
    readBody (encodeUtf8 value.render) = some value := by
  rw [readBody, decodeUtf8_encodeUtf8, Option.bind_some, String.toList_ofList, read_render]

end Bytes

section Values

theorem orderJson_toValue_inj {order order' : OrderJson} :
    order.toValue = order'.toValue ↔ order = order' := by
  constructor
  · intro heq
    simp only [OrderJson.toValue, Members.ofList, Value.object.injEq, Members.cons.injEq,
      Value.number.injEq, Value.text.injEq, true_and, and_true] at heq
    cases order
    cases order'
    simpa using heq
  · rintro rfl
    rfl

theorem payload_toValue_inj {payload payload' : SignedOrderPayload} :
    payload.toValue = payload'.toValue ↔ payload = payload' := by
  constructor
  · intro heq
    simp only [SignedOrderPayload.toValue, Members.ofList, Value.object.injEq, Members.cons.injEq,
      Value.text.injEq, true_and, and_true, orderJson_toValue_inj] at heq
    cases payload
    cases payload'
    simpa using heq
  · rintro rfl
    rfl

end Values

section Orders

variable {Address : Type} {addressText : Address → String} {order order' : Order Address}
  {signature signature' : String} {orderType orderType' : Quote.OrderType}
  {owner owner' : String} {json : OrderJson} {payload payload' : SignedOrderPayload}

theorem toString_inj {m n : Nat} (heq : toString m = toString n) : m = n := by
  have hdigits : Nat.toDigits 10 m = Nat.toDigits 10 n := String.ofList_injective heq
  rw [← @Nat.ofDigitChars_ten_toDigits m, hdigits, Nat.ofDigitChars_ten_toDigits]

theorem side_inj {side side' : Nat} (hside : side ≤ 1) (hside' : side' ≤ 1)
    (htext : (if side = 0 then "BUY" else "SELL") = if side' = 0 then "BUY" else "SELL") :
    side = side' := by
  interval_cases side <;> interval_cases side' <;> simp_all

theorem fromOrder_inj (haddress : Function.Injective addressText) (hside : order.side ≤ 1)
    (hside' : order'.side ≤ 1) (hjson : OrderJson.fromOrder addressText order signature = some json)
    (hjson' : OrderJson.fromOrder addressText order' signature' = some json) :
    order = order' ∧ signature = signature' := by
  simp only [OrderJson.fromOrder, Option.ite_none_right_eq_some] at hjson hjson'
  have hfields := (Option.some.inj hjson.2).trans (Option.some.inj hjson'.2).symm
  simp only [OrderJson.mk.injEq] at hfields
  obtain ⟨hsalt, hmaker, hsigner, htaker, htoken, hmakerAmount, htakerAmount, hexpiration, hnonce,
    hfee, hsideText, htype, hsignature⟩ := hfields
  refine ⟨?_, hsignature⟩
  cases order
  cases order'
  simp only [Order.mk.injEq]
  exact ⟨hsalt, haddress hmaker, haddress hsigner, haddress htaker, toString_inj htoken,
    toString_inj hmakerAmount, toString_inj htakerAmount, toString_inj hexpiration,
    toString_inj hnonce, toString_inj hfee, side_inj hside hside' hsideText, htype⟩

theorem new_inj (haddress : Function.Injective addressText) (hside : order.side ≤ 1)
    (hside' : order'.side ≤ 1)
    (hpayload : SignedOrderPayload.new addressText order signature orderType owner = some payload)
    (hpayload' :
      SignedOrderPayload.new addressText order' signature' orderType' owner' = some payload) :
    order = order' ∧ signature = signature' ∧ orderType = orderType' ∧ owner = owner' := by
  obtain ⟨json, hjson, rfl⟩ := Option.map_eq_some_iff.mp hpayload
  obtain ⟨json', hjson', hfields⟩ := Option.map_eq_some_iff.mp hpayload'
  simp only [SignedOrderPayload.mk.injEq] at hfields
  obtain ⟨rfl, htype, howner⟩ := hfields
  obtain ⟨horder, hsignature⟩ := fromOrder_inj haddress hside hside' hjson hjson'
  refine ⟨horder, hsignature, ?_, howner.symm⟩
  cases orderType <;> cases orderType' <;> simp_all

end Orders

section Message

/-- The text under the HMAC of a request for a payload at a second. -/
def orderMessage (seconds : Nat) (payload : SignedOrderPayload) : String :=
  l2Message (toString seconds) orderMethod clobOrderPath (String.ofList payload.toValue.render)

theorem orderMessage_toList (seconds : Nat) (payload : SignedOrderPayload) :
    (orderMessage seconds payload).toList =
      Nat.toDigits 10 seconds ++ ("POST/order".toList ++ payload.toValue.render) := by
  have hseconds : (toString seconds).toList = Nat.toDigits 10 seconds := String.toList_ofList
  rw [orderMessage, l2Message, String.toList_append, String.toList_append, String.toList_append,
    String.toList_ofList, hseconds, List.append_assoc, List.append_assoc]
  rfl

theorem orderMessage_inj {seconds seconds' : Nat} {payload payload' : SignedOrderPayload} :
    orderMessage seconds payload = orderMessage seconds' payload' ↔
      seconds = seconds' ∧ payload = payload' := by
  constructor
  · intro heq
    have hlists := congrArg String.toList heq
    rw [orderMessage_toList, orderMessage_toList] at hlists
    have hend : ∀ rest, NoDigitFirst ("POST/order".toList ++ rest) :=
      fun rest => noDigitFirst_cons (by decide)
    have hread := readNumber_toDigits seconds (hend payload.toValue.render)
    rw [hlists, readNumber_toDigits seconds' (hend payload'.toValue.render)] at hread
    obtain ⟨hseconds, hrest⟩ := Prod.mk.inj (Option.some.inj hread)
    have hvalue := render_injective (List.append_cancel_left hrest)
    exact ⟨hseconds.symm, (payload_toValue_inj.mp hvalue).symm⟩
  · rintro ⟨rfl, rfl⟩
    rfl

theorem forall₂_of_mapM_ok {α β ε : Type} {f : α → Except ε β} {inputs : List α}
    {outputs : List β} (hok : inputs.mapM f = .ok outputs) :
    List.Forall₂ (fun input output => f input = .ok output) inputs outputs := by
  induction inputs generalizing outputs with
  | nil =>
      obtain rfl : [] = outputs := Except.ok.inj hok
      exact .nil
  | cons input inputs ih =>
      rw [List.mapM_cons] at hok
      obtain ⟨output, houtput, hok⟩ := bind_eq_ok.mp hok
      obtain ⟨rest, hrest, hok⟩ := bind_eq_ok.mp hok
      obtain rfl : output :: rest = outputs := Except.ok.inj hok
      exact .cons houtput (ih hrest)

theorem mapError_eq_ok {α ε δ : Type} {f : ε → δ} {result : Except ε α} {value : α} :
    result.mapError f = .ok value ↔ result = .ok value := by
  cases result <;> simp [Except.mapError]

section Built

variable {Header : Type} {crates : Crates Header} {payload : SignedOrderPayload}
  {creds : L2Credentials} {seconds : Nat} {request : Request Header}

/-- The headers of a request by name, in their order. -/
def namedHeaders (crates : Crates Header) (creds : L2Credentials) (seconds : Nat)
    (hmac : String) : List (String × String) :=
  [("content-type", "application/json"), ("POLY_ADDRESS", crates.toLowercase creds.address),
    ("POLY_API_KEY", creds.apiKey), ("POLY_PASSPHRASE", creds.passphrase),
    ("POLY_SIGNATURE", hmac), ("POLY_TIMESTAMP", toString seconds)]

/-- What a request for a payload carries: the HMAC in its headers is taken of the text of
its body. -/
structure Carries (crates : Crates Header) (creds : L2Credentials) (seconds : Nat)
    (payload : SignedOrderPayload) (request : Request Header) : Prop where
  method : request.method = "POST"
  uri : request.uri = "https://clob.polymarket.com/order"
  bodyText : decodeUtf8 request.body = some (String.ofList payload.toValue.render)
  body : readBody request.body = some payload.toValue
  headers : ∃ hmac, crates.hmacSignature creds.secret (orderMessage seconds payload) = .ok hmac ∧
    List.Forall₂ (fun named header => crates.header named.1 named.2 = .ok header)
      (namedHeaders crates creds seconds hmac) request.headers

theorem carries_of_buildOrderRequest
    (hok : buildOrderRequest crates payload creds (.ok seconds) = .ok request) :
    Carries crates creds seconds payload request := by
  obtain ⟨body, hbody, hok⟩ := bind_eq_ok.mp hok
  obtain ⟨timestamp, htimestamp, hok⟩ := bind_eq_ok.mp hok
  obtain rfl : encodeUtf8 payload.toValue.render = body := Except.ok.inj hbody
  obtain rfl : toString seconds = timestamp := Except.ok.inj htimestamp
  obtain ⟨bodyStr, hbodyStr, hok⟩ := bind_eq_ok.mp hok
  rw [fromUtf8_encodeUtf8] at hbodyStr
  obtain rfl : String.ofList payload.toValue.render = bodyStr := Except.ok.inj hbodyStr
  obtain ⟨named, hnamed, hok⟩ := bind_eq_ok.mp hok
  obtain ⟨hmac, hhmac, hnamed⟩ := bind_eq_ok.mp (mapError_eq_ok.mp hnamed)
  obtain rfl := Except.ok.inj hnamed
  obtain ⟨headers, hheaders, hok⟩ := bind_eq_ok.mp hok
  obtain rfl := Except.ok.inj hok
  refine ⟨rfl, rfl, decodeUtf8_encodeUtf8 _, readBody_encodeUtf8 _, hmac, hhmac, ?_⟩
  exact (forall₂_of_mapM_ok hheaders).imp fun _ _ hstored => mapError_eq_ok.mp hstored

end Built

variable {Address : Type} {addressText : Address → String} {order order' : Order Address}
  {signature signature' : String} {orderType orderType' : Quote.OrderType}
  {owner owner' : String} {payload payload' : SignedOrderPayload}

/-- The HMAC of a request is taken of a text that belongs to its order only, at that second
only, and its body reads back as that order. -/
theorem request_of_one_order {Header : Type} (crates : Crates Header) (creds : L2Credentials)
    (haddress : Function.Injective addressText) (hside : order.side ≤ 1) (hside' : order'.side ≤ 1)
    (hpayload : SignedOrderPayload.new addressText order signature orderType owner = some payload)
    (hpayload' :
      SignedOrderPayload.new addressText order' signature' orderType' owner' = some payload')
    (seconds seconds' : Nat) :
    (∀ request, buildOrderRequest crates payload creds (.ok seconds) = .ok request →
        Carries crates creds seconds payload request) ∧
      (orderMessage seconds payload = orderMessage seconds' payload' ↔
        seconds = seconds' ∧ order = order' ∧ signature = signature' ∧ orderType = orderType' ∧
          owner = owner') := by
  refine ⟨fun request => carries_of_buildOrderRequest, orderMessage_inj.trans ?_⟩
  refine and_congr_right' ⟨?_, ?_⟩
  · rintro rfl
    exact new_inj haddress hside hside' hpayload hpayload'
  · rintro ⟨rfl, rfl, rfl, rfl⟩
    exact Option.some.inj (hpayload.symm.trans hpayload')

/-- Two accounts and the text of each. -/
def accountText : Bool → String
  | false => "0x0000000000000000000000000000000000000000"
  | true => "0xf39Fd6e51aad88F6F4ce6aB8827279cffFb92266"

theorem accountText_injective : Function.Injective accountText := by
  intro a b
  cases a <;> cases b <;> decide

def sampleOrder (side : Nat) : Order Bool :=
  { salt := 1234567890, maker := true, signer := true, taker := false, tokenId := 9999
    makerAmount := 50000000, takerAmount := 100000000, expiration := 0, nonce := 0
    feeRateBps := 0, side, signatureType := 0 }

def sampleJson (side : String) : OrderJson :=
  { salt := 1234567890, maker := accountText true, signer := accountText true
    taker := accountText false, tokenId := "9999", makerAmount := "50000000"
    takerAmount := "100000000", expiration := "0", nonce := "0", feeRateBps := "0", side
    signatureType := 0, signature := "0xdeadbeef" }

def samplePayload (side : String) : SignedOrderPayload :=
  { order := sampleJson side, orderType := "FOK", owner := "owner-uuid" }

def sampleCrates : Crates (String × String) where
  hmacSignature _ _ := .ok "DEdtMTDUs1CJHXsIRByhdvOp70OL-y9jlXlA1Q60IIA="
  toLowercase := String.toLower
  header name value := .ok (name.toLower, value)
  utf8Error _ := "invalid utf-8 sequence"

def sampleCreds : L2Credentials :=
  { apiKey := "test-api-key", secret := "dGVzdC1zZWNyZXQta2V5IQ==", passphrase := "test-pass"
    address := "0xf39Fd6e51aad88F6F4ce6aB8827279cffFb92266" }

theorem request_of_one_order_sides :
    (∀ request, buildOrderRequest sampleCrates (samplePayload "BUY") sampleCreds
        (.ok 1700000000) = .ok request →
          Carries sampleCrates sampleCreds 1700000000 (samplePayload "BUY") request) ∧
      (orderMessage 1700000000 (samplePayload "BUY") =
          orderMessage 1700000000 (samplePayload "SELL") ↔
        1700000000 = 1700000000 ∧ sampleOrder 0 = sampleOrder 1 ∧ "0xdeadbeef" = "0xdeadbeef" ∧
          Quote.OrderType.fok = Quote.OrderType.fok ∧ "owner-uuid" = "owner-uuid") :=
  request_of_one_order sampleCrates sampleCreds accountText_injective (by decide)
    (by decide) (by rfl) (by rfl) 1700000000 1700000000

end Message

end Rtt.OrderWire
