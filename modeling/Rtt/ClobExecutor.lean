import Rtt.Quote

namespace Rtt.ClobExecutor

open Rtt.Quote

abbrev Bytes := List UInt8

inductive ConnectionError where
  | poolEmpty
  | resolve (error : String)
  | connect (address : Option String) (error : String)
  | collect (connectionIndex : Nat) (error : String)
  | reconnect (connectionIndex : Nat) (error : String)
  deriving DecidableEq, Repr

/-- Why a decimal text is not an amount. -/
inductive AmountError where
  | invalidFormat (field value : String)
  | unsupportedPrecision (field value : String) (maxDecimals : Nat)
  | overflow (field value : String)
  deriving DecidableEq, Repr

inductive BuildOrderError where
  | invalidTokenId (value : String)
  | amount (error : AmountError)
  deriving DecidableEq, Repr

inductive RequestBuildError where
  | serialize (error : String)
  | utf8 (error : String)
  | time (error : String)
  | auth (error : String)
  | http (error : String)
  deriving DecidableEq, Repr

inductive DispatchError where
  | poolExhausted
  | buildOrder (error : BuildOrderError)
  | sign (error : String)
  | requestBuild (error : RequestBuildError)
  | connection (error : ConnectionError)
  deriving DecidableEq, Repr

/-- The times of one dispatch, in nanoseconds. A time that was never read is zero. -/
structure TimestampRecord where
  tTriggerRx : Nat := 0
  tDispatchQ : Nat := 0
  tExecStart : Nat := 0
  tBufReady : Nat := 0
  tWriteBegin : Nat := 0
  tWriteEnd : Nat := 0
  tFirstRespByte : Nat := 0
  tHeadersDone : Nat := 0
  tSignStart : Nat := 0
  tSignEnd : Nat := 0
  isReconnect : Bool := false
  cfRayPop : String := ""
  connectionIndex : Nat := 0
  deriving DecidableEq, Repr

/-- How a dispatch has ended, with its record. -/
inductive DispatchOutcome where
  | sent (record : TimestampRecord) (body : Option Bytes)
  | rejected (record : TimestampRecord) (error : DispatchError)
  deriving DecidableEq, Repr

structure SendHandle where
  connectionIndex : Nat
  deriving DecidableEq, Repr

/-- What is read of a response: the edge that served it and its body. -/
structure Response where
  cfRay : Option String
  body : Bytes
  deriving DecidableEq, Repr

/-- Everything a dispatch asks of the outside: order building, signing, request
assembly, the connection pool and the successive readings of the clock. -/
structure Outside (Order Signature Request : Type) where
  buildOrder : TriggerMessage → Except BuildOrderError Order
  signOrder : Order → Except String Signature
  encodeOrderPayload : Order → Signature → Quote.OrderType → Except RequestBuildError Bytes
  buildOrderRequest : Bytes → Except RequestBuildError Request
  sendStart : Request → Except ConnectionError SendHandle
  collect : SendHandle → Except ConnectionError Response
  nowNs : Nat → Nat

/-- The code after the last dash of a `cf-ray` header. -/
def extractPop (cfRay : String) : String :=
  if '-' ∈ cfRay.toList then
    String.ofList (cfRay.toList.reverse.takeWhile (· ≠ '-')).reverse
  else ""

/-- The times not read by then are set to the given one. -/
def finalizeRecord (record : TimestampRecord) (now : Nat) : TimestampRecord :=
  { record with
    tBufReady := if record.tBufReady = 0 then now else record.tBufReady
    tWriteBegin := if record.tWriteBegin = 0 then now else record.tWriteBegin
    tWriteEnd := if record.tWriteEnd = 0 then now else record.tWriteEnd
    tFirstRespByte := if record.tFirstRespByte = 0 then now else record.tFirstRespByte
    tHeadersDone := if record.tHeadersDone = 0 then now else record.tHeadersDone }

/-- Every failure of a connection reconnects it; an empty pool has none. -/
def connectionFailureIsReconnect (error : ConnectionError) : Bool :=
  error ≠ .poolEmpty

section

variable {Order Signature Request : Type} (outside : Outside Order Signature Request)

/-- `reads` is the number of clock readings made before. -/
def reject (reads : Nat) (record : TimestampRecord) (error : DispatchError) (isReconnect : Bool) :
    DispatchOutcome :=
  let record := finalizeRecord record (outside.nowNs reads)
  .rejected { record with isReconnect } error

/-- The record of a response that has arrived. -/
def send (reads : Nat) (record : TimestampRecord) (resp : Response) : DispatchOutcome :=
  let record :=
    match resp.cfRay with
    | some cfRay => { record with cfRayPop := extractPop cfRay }
    | none => record
  .sent { record with tHeadersDone := outside.nowNs reads, isReconnect := false } (some resp.body)

/-- The request is handed to a connection and its response awaited. -/
def dispatchRequest (reads : Nat) (req : Request) (record : TimestampRecord) : DispatchOutcome :=
  let record := { record with tWriteBegin := outside.nowNs reads }
  let handleResult := outside.sendStart req
  let record := { record with tWriteEnd := outside.nowNs (reads + 1) }
  match handleResult with
  | .error err =>
      reject outside (reads + 2) record (.connection err) (connectionFailureIsReconnect err)
  | .ok handle =>
      let record := { record with connectionIndex := handle.connectionIndex }
      let respResult := outside.collect handle
      let record := { record with tFirstRespByte := outside.nowNs (reads + 2) }
      match respResult with
      | .ok resp => send outside (reads + 3) record resp
      | .error err =>
          reject outside (reads + 3) record (.connection err) (connectionFailureIsReconnect err)

end

/-- The bodies of the orders signed ahead, and how many of them are used. -/
structure PreSignedOrderPool where
  bodies : List Bytes
  cursor : Nat
  deriving DecidableEq, Repr

namespace PreSignedOrderPool

def len (self : PreSignedOrderPool) : Nat := self.bodies.length

/-- The request for the next order.  The order is consumed even when its request
cannot be built. -/
def dispatch {Request : Type} (self : PreSignedOrderPool)
    (buildOrderRequest : Bytes → Except RequestBuildError Request) :
    PreSignedOrderPool × Except RequestBuildError (Option Request) :=
  match self.bodies[self.cursor]? with
  | none => (self, .ok none)
  | some body =>
      ({ self with cursor := self.cursor + 1 }, (buildOrderRequest body).map some)

/-- The pool starts again at its first order. -/
def resetCursor (self : PreSignedOrderPool) : PreSignedOrderPool := { self with cursor := 0 }

def consumed (self : PreSignedOrderPool) : Nat := self.cursor

end PreSignedOrderPool

section

variable {Order Signature Request : Type} (outside : Outside Order Signature Request)

/-- One dispatch of the next pre-signed order. -/
def processOneClob (presigned : PreSignedOrderPool) (msg : TriggerMessage) :
    PreSignedOrderPool × DispatchOutcome :=
  let record : TimestampRecord :=
    { tTriggerRx := msg.timestampNs
      tDispatchQ := outside.nowNs 0
      tExecStart := outside.nowNs 1
      tBufReady := outside.nowNs 2 }
  let (presigned, result) := presigned.dispatch outside.buildOrderRequest
  match result with
  | .ok (some req) => (presigned, dispatchRequest outside 3 req record)
  | .ok none => (presigned, reject outside 3 record .poolExhausted false)
  | .error err => (presigned, reject outside 3 record (.requestBuild err) false)

/-- One dispatch that builds and signs the order on the hot path. -/
def signAndDispatch (trigger : TriggerMessage) : DispatchOutcome :=
  let record : TimestampRecord :=
    { tTriggerRx := trigger.timestampNs
      tDispatchQ := outside.nowNs 0
      tExecStart := outside.nowNs 1 }
  match outside.buildOrder trigger with
  | .error err => reject outside 2 record (.buildOrder err) false
  | .ok order =>
      let record := { record with tSignStart := outside.nowNs 2 }
      let record := { record with tSignEnd := outside.nowNs 3 }
      match outside.signOrder order with
      | .error err => reject outside 4 record (.sign err) false
      | .ok sig =>
          match outside.encodeOrderPayload order sig trigger.orderType with
          | .error err => reject outside 4 record (.requestBuild err) false
          | .ok body =>
              match outside.buildOrderRequest body with
              | .error err => reject outside 4 record (.requestBuild err) false
              | .ok req =>
                  dispatchRequest outside 5 req { record with tBufReady := outside.nowNs 4 }

end

/-- A connection failure is marked as a reconnect unless the pool was empty. -/
def ColdMarked (outcome : DispatchOutcome) : Prop :=
  ∀ record failure, outcome = .rejected record (.connection failure) →
    record.isReconnect = connectionFailureIsReconnect failure

/-- The dispatch was rejected because the pool had no order left. -/
def Exhausted (outcome : DispatchOutcome) : Prop :=
  ∃ record, outcome = .rejected record .poolExhausted

/-- The dispatch failed on a connection, and not for want of one. -/
def IsColdFailure (outcome : DispatchOutcome) : Prop :=
  ∃ record failure, outcome = .rejected record (.connection failure) ∧ failure ≠ .poolEmpty

theorem not_isColdFailure_sent {record : TimestampRecord} {body : Option Bytes} :
    ¬ IsColdFailure (.sent record body) := by
  rintro ⟨_, _, heq, -⟩
  exact DispatchOutcome.noConfusion heq

theorem not_isColdFailure_of_warm {record : TimestampRecord} {error : DispatchError}
    (hmarked : ColdMarked (.rejected record error)) (hwarm : record.isReconnect = false) :
    ¬ IsColdFailure (.rejected record error) := by
  rintro ⟨record', failure, heq, hnotEmpty⟩
  obtain ⟨rfl, rfl⟩ := DispatchOutcome.rejected.inj heq
  have hcold := hmarked record failure rfl
  rw [hwarm] at hcold
  exact hnotEmpty (by simpa [connectionFailureIsReconnect] using hcold.symm)

variable {Order Signature Request : Type} {outside : Outside Order Signature Request}
  {presigned : PreSignedOrderPool} {msg : TriggerMessage}

theorem reject_spec {reads : Nat} {record : TimestampRecord} {error : DispatchError}
    (hbefore : ∀ failure, error ≠ .connection failure) :
    ColdMarked (reject outside reads record error false) ∧
      (Exhausted (reject outside reads record error false) ↔ error = .poolExhausted) := by
  constructor
  · intro rejected failure h
    exact absurd (DispatchOutcome.rejected.inj h).2 (hbefore failure)
  · constructor
    · rintro ⟨rejected, h⟩
      exact (DispatchOutcome.rejected.inj h).2
    · rintro rfl
      exact ⟨_, rfl⟩

theorem reject_connection_spec {reads : Nat} {record : TimestampRecord}
    {failure : ConnectionError} :
    ColdMarked (reject outside reads record (.connection failure)
        (connectionFailureIsReconnect failure)) ∧
      ¬ Exhausted (reject outside reads record (.connection failure)
        (connectionFailureIsReconnect failure)) := by
  constructor
  · intro rejected failure' h
    obtain ⟨rfl, hfailure⟩ := DispatchOutcome.rejected.inj h
    rw [DispatchError.connection.inj hfailure]
  · rintro ⟨rejected, h⟩
    exact DispatchError.noConfusion (DispatchOutcome.rejected.inj h).2

theorem send_spec {reads : Nat} {record : TimestampRecord} {resp : Response} :
    ColdMarked (send outside reads record resp) ∧ ¬ Exhausted (send outside reads record resp) := by
  constructor
  · intro rejected failure h
    exact DispatchOutcome.noConfusion h
  · rintro ⟨rejected, h⟩
    exact DispatchOutcome.noConfusion h

theorem dispatchRequest_spec {reads : Nat} {req : Request} {record : TimestampRecord} :
    ColdMarked (dispatchRequest outside reads req record) ∧
      ¬ Exhausted (dispatchRequest outside reads req record) := by
  simp only [dispatchRequest]
  split
  · exact reject_connection_spec
  · split
    · exact send_spec
    · exact reject_connection_spec

theorem signAndDispatch_spec :
    ColdMarked (signAndDispatch outside msg) ∧ ¬ Exhausted (signAndDispatch outside msg) := by
  have hearly : ∀ reads record error, (∀ failure, error ≠ .connection failure) →
      error ≠ .poolExhausted →
        ColdMarked (reject outside reads record error false) ∧
          ¬ Exhausted (reject outside reads record error false) := by
    intro reads record error hbefore hnot
    obtain ⟨hmarked, hexhausted⟩ := @reject_spec _ _ _ outside reads record error hbefore
    exact ⟨hmarked, fun h => hnot (hexhausted.mp h)⟩
  simp only [signAndDispatch]
  split
  · exact hearly _ _ _ (by simp) (by simp)
  · split
    · exact hearly _ _ _ (by simp) (by simp)
    · split
      · exact hearly _ _ _ (by simp) (by simp)
      · split
        · exact hearly _ _ _ (by simp) (by simp)
        · exact dispatchRequest_spec

theorem PreSignedOrderPool.dispatch_cases
    (buildOrderRequest : Bytes → Except RequestBuildError Request) :
    (presigned.len ≤ presigned.consumed ∧
        presigned.dispatch buildOrderRequest = (presigned, .ok none)) ∨
      (presigned.consumed < presigned.len ∧
        ∃ result : Except RequestBuildError Request, presigned.dispatch buildOrderRequest =
          ({ presigned with cursor := presigned.cursor + 1 }, result.map some)) := by
  simp only [PreSignedOrderPool.dispatch, PreSignedOrderPool.len, PreSignedOrderPool.consumed]
  cases hbody : presigned.bodies[presigned.cursor]? with
  | none => exact Or.inl ⟨List.getElem?_eq_none_iff.mp hbody, rfl⟩
  | some body =>
      exact Or.inr ⟨(List.getElem?_eq_some_iff.mp hbody).1, buildOrderRequest body, rfl⟩

theorem processOneClob_spec :
    ColdMarked (processOneClob outside presigned msg).2 ∧
      (Exhausted (processOneClob outside presigned msg).2 ↔
        presigned.len ≤ presigned.consumed) ∧
      (processOneClob outside presigned msg).1.bodies = presigned.bodies ∧
      (processOneClob outside presigned msg).1.cursor ≤ presigned.cursor + 1 := by
  obtain ⟨hdone, hnone⟩ | ⟨hleft, result, hsome⟩ :=
    presigned.dispatch_cases outside.buildOrderRequest
  · simp only [processOneClob, hnone]
    obtain ⟨hmarked, hexhausted⟩ := @reject_spec _ _ _ outside 3
      { tTriggerRx := msg.timestampNs, tDispatchQ := outside.nowNs 0
        tExecStart := outside.nowNs 1, tBufReady := outside.nowNs 2 } .poolExhausted (by simp)
    exact ⟨hmarked, iff_of_true (hexhausted.mpr rfl) hdone, trivial, Nat.le_succ _⟩
  · cases result with
    | error err =>
        simp only [processOneClob, hsome, Except.map]
        obtain ⟨hmarked, hexhausted⟩ := @reject_spec _ _ _ outside 3
          { tTriggerRx := msg.timestampNs, tDispatchQ := outside.nowNs 0
            tExecStart := outside.nowNs 1, tBufReady := outside.nowNs 2 }
          (.requestBuild err) (by simp)
        refine ⟨hmarked, iff_of_false ?_ (not_le.mpr hleft), trivial, le_rfl⟩
        intro h
        exact DispatchError.noConfusion (hexhausted.mp h)
    | ok req =>
        simp only [processOneClob, hsome, Except.map]
        exact ⟨dispatchRequest_spec.1, iff_of_false dispatchRequest_spec.2 (not_le.mpr hleft),
          trivial, le_rfl⟩

end Rtt.ClobExecutor
