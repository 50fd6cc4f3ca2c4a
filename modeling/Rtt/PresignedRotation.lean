import Rtt.ExecutionLoop
import Rtt.PresignedRuns

namespace Rtt.PresignedRotation

open Rtt.Quote
open Rtt.ClobExecutor
open Rtt.ClobRequest
open Rtt.ExecutionLoop
open Rtt.Machine
open Rtt.OrderWire
open Rtt.Safety
open Rtt.PresignedRuns (bodyOf poolAt dispatch_poolAt)

/-- The pre-signed orders that the loop makes use of. -/
def inUse (len : Nat) : Nat := len - len / 5

theorem inUse_pos {len : Nat} (hlen : 0 < len) : 0 < inUse len := by
  rw [inUse]
  omega

section Pool

variable {payloads : List SignedOrderPayload}

theorem refill_poolAt {taken : Nat} (htaken : taken < inUse payloads.length) :
    refill (poolAt payloads (taken + 1)) =
      poolAt payloads ((taken + 1) % inUse payloads.length) := by
  have hlen : taken + 1 ≤ payloads.length := by
    rw [inUse] at htaken
    omega
  have hconsumed : (poolAt payloads (taken + 1)).consumed = taken + 1 := Nat.min_eq_left hlen
  have htotal : (poolAt payloads (taken + 1)).len = payloads.length := by
    simp [poolAt, PreSignedOrderPool.len]
  simp only [refill, hconsumed, htotal]
  by_cases hlast : taken + 1 = inUse payloads.length
  · rw [if_pos (by rw [inUse] at hlast; omega), hlast, Nat.mod_self]
    simp [poolAt, PreSignedOrderPool.resetCursor]
  · rw [if_neg (by rw [inUse] at hlast htaken; omega), Nat.mod_eq_of_lt (by omega)]

/-- The request for an order is sent, or the order is rejected because there is none. -/
def sendBuilt {Order Signature Request : Type} (outside : Outside Order Signature Request)
    (msg : TriggerMessage) (built : Except RequestBuildError Request) : DispatchOutcome :=
  let record : TimestampRecord :=
    { tTriggerRx := msg.timestampNs
      tDispatchQ := outside.nowNs 0
      tExecStart := outside.nowNs 1
      tBufReady := outside.nowNs 2 }
  match built with
  | .ok req => dispatchRequest outside 3 req record
  | .error err => reject outside 3 record (.requestBuild err) false

theorem processOneClob_poolAt {Order Signature Request : Type}
    (outside : Outside Order Signature Request) (msg : TriggerMessage) {taken : Nat}
    {payload : SignedOrderPayload} (hpayload : payloads[taken]? = some payload) :
    processOneClob outside (poolAt payloads taken) msg =
      (poolAt payloads (taken + 1),
        sendBuilt outside msg (outside.buildOrderRequest (bodyOf payload))) := by
  rw [processOneClob, dispatch_poolAt, hpayload]
  cases hbuilt : outside.buildOrderRequest (bodyOf payload) <;> simp [hbuilt, sendBuilt, Except.map]

end Pool

section Loop

variable {Order Signature Request : Type} {config : LoopConfig} {state : LoopState}
  {turn : Turn Order Signature Request} {payloads : List SignedOrderPayload} {count : Nat}

theorem presigned_afterDispatch (outcome : DispatchOutcome)
    (hrunning : (afterDispatch state outcome).running = true) :
    (afterDispatch state outcome).presigned = refill state.presigned := by
  cases outcome with
  | sent record body => rfl
  | rejected record error =>
      simp only [afterDispatch] at hrunning ⊢
      split at hrunning
      · exact absurd hrunning Bool.false_ne_true
      · rename_i hwarm
        rw [if_neg hwarm]

/-- After this many dispatches a loop that goes on has its cursor where the rotation is. -/
def Rotates (payloads : List SignedOrderPayload) (state : LoopState) (count : Nat) : Prop :=
  state.running = true → state.presigned = poolAt payloads (count % inUse payloads.length)

/-- The payload whose turn it is after this many dispatches. -/
def Serves (payloads : List SignedOrderPayload) (turn : Turn Order Signature Request)
    (count : Nat) (order : Dispatched) : Prop :=
  ∃ payload, payloads[count % inUse payloads.length]? = some payload ∧
    order.outcome =
      sendBuilt turn.outside order.trigger (turn.outside.buildOrderRequest (bodyOf payload))

theorem Rotates.runTurn (h : Rotates payloads state count) (hsigns : config.signs = false)
    (hne : payloads ≠ []) (turn : Turn Order Signature Request) :
    Rotates payloads (runTurn config state turn).1
        (count + (runTurn config state turn).2.toList.length) ∧
      ∀ order ∈ (runTurn config state turn).2, Serves payloads turn count order := by
  have hpos := inUse_pos (List.length_pos_iff.mpr hne)
  obtain ⟨limiter, running, hrunning, hturn⟩ | ⟨trigger, limiter, hrecords, hrest⟩ :=
    runTurn_cases config state turn
  · rw [hturn]
    exact ⟨fun hrun => h (hrunning hrun), by simp⟩
  · rcases hrest with ⟨reason, -, hturn⟩ | ⟨-, hturn⟩
    · rw [hturn]
      exact ⟨fun hrun => absurd hrun Bool.false_ne_true, by simp⟩
    · have hplace : count % inUse payloads.length < inUse payloads.length :=
        Nat.mod_lt _ hpos
      have hlt : count % inUse payloads.length < payloads.length :=
        hplace.trans_le (Nat.sub_le _ _)
      obtain ⟨payload, hpayload⟩ : ∃ payload,
          payloads[count % inUse payloads.length]? = some payload :=
        ⟨_, List.getElem?_eq_getElem hlt⟩
      have hpool := h hrecords.1
      rw [hturn]
      simp only [dispatchTrigger, hsigns, Bool.false_eq_true, if_false, hpool,
        processOneClob_poolAt turn.outside trigger hpayload]
      constructor
      · intro hrun
        rw [presigned_afterDispatch _ hrun]
        simp only [Option.toList_some, List.length_singleton]
        rw [refill_poolAt hplace, Nat.mod_add_mod]
      · rintro order ⟨⟩
        exact ⟨payload, hpayload, rfl⟩

theorem dispatches_concat (config : LoopConfig) (start : LoopState)
    (turns : List (Turn Order Signature Request)) (turn : Turn Order Signature Request) :
    dispatches config start (turns ++ [turn]) = dispatches config start turns ++
      (runTurn config (exec (runTurn config) start turns) turn).2.toList := by
  rw [dispatches, outputs_concat, List.filterMap_append, dispatches]
  cases (runTurn config (exec (runTurn config) start turns) turn).2 <;> rfl

theorem rotates_run {start : LoopState} (hsigns : config.signs = false) (hne : payloads ≠ [])
    (hpool : start.presigned = poolAt payloads 0) (turns : List (Turn Order Signature Request)) :
    Rotates payloads (exec (runTurn config) start turns)
      (dispatches config start turns).length := by
  induction turns using List.reverseRecOn with
  | nil =>
      intro _
      rw [exec, hpool]
      rfl
  | append_singleton turns turn ih =>
      rw [exec_concat, dispatches_concat, List.length_append]
      exact (ih.runTurn hsigns hne turn).1

end Loop

section Results

variable {Order Signature Header : Type}

/-- The orders of the pool are sent in rotation over all of them but the last fifth, each
as the request built from it plainly. -/
theorem presigned_orders_rotate (crates : Crates Header) (config : LoopConfig)
    (hsigns : config.signs = false) (payloads : List SignedOrderPayload) (hne : payloads ≠ [])
    (start : LoopState) (hpool : Pool.new payloads = .ok start.presigned)
    (before : List (Turn Order Signature (Request Header)))
    (turn : Turn Order Signature (Request Header)) (creds : L2Credentials)
    (now : Except String Nat)
    (hbuild : turn.outside.buildOrderRequest =
      fun body => buildOrderRequestFromBytes crates body creds now) :
    ∀ order ∈ (runTurn config (exec (runTurn config) start before) turn).2,
      ∃ payload,
        payloads[(dispatches config start before).length % inUse payloads.length]? =
            some payload ∧
          order.outcome = sendBuilt turn.outside order.trigger
            (buildOrderRequest crates payload creds now) := by
  rw [PresignedRuns.new_eq] at hpool
  have hrotates := rotates_run hsigns hne (Except.ok.inj hpool).symm before
  intro order horder
  obtain ⟨payload, hpayload, houtcome⟩ := (hrotates.runTurn hsigns hne turn).2 order horder
  refine ⟨payload, hpayload, houtcome.trans ?_⟩
  rw [hbuild]
  rfl

def sampleOutside : Outside Unit Unit (Request (String × String)) where
  buildOrder _ := .ok ()
  signOrder _ := .ok ()
  encodeOrderPayload _ _ _ := .ok []
  buildOrderRequest body :=
    buildOrderRequestFromBytes sampleCrates body sampleCreds (.ok 1700000000)
  sendStart _ := .ok { connectionIndex := 0 }
  collect _ := .ok { cfRay := some "abc123-EWR", body := [] }
  nowNs reads := 200 + reads

def sampleTurn : Turn Unit Unit (Request (String × String)) :=
  { shutdown := false, received := .trigger halfForTen, limiterNowNs := 2000000000
    outside := sampleOutside }

def bothSides : List SignedOrderPayload := [samplePayload "BUY", samplePayload "SELL"]

def stocked : LoopState :=
  { oneOrderLeft with
    breaker := CircuitBreaker.withInitialCounts 10 5000 0 0, presigned := poolAt bothSides 0 }

theorem afterDispatch_sampleOutside (state : LoopState) (presigned : PreSignedOrderPool)
    (msg : TriggerMessage) :
    afterDispatch state (processOneClob sampleOutside presigned msg).2 =
      { state with presigned := refill state.presigned } := by
  simp only [processOneClob]
  split <;> rfl

/-- A loop that goes on, but for its pool. -/
structure Stands (state : LoopState) (breaker : CircuitBreaker) (limiter : RateLimiter) :
    Prop where
  running : state.running = true
  breaker : state.breaker = breaker
  limiter : state.limiter = limiter
  free : state.guard.inFlight = false

theorem Stands.runTurn {state : LoopState} {breaker recorded : CircuitBreaker}
    {limiter acquired : RateLimiter} (h : Stands state breaker limiter)
    (htripped : breaker.isTripped = false)
    (hgranted : limiter.tryAcquire 2000000000 = (acquired, true))
    (hok : breaker.checkAndRecord liveConfig.centsOf halfForTen.price halfForTen.size =
      (recorded, .ok ())) :
    (runTurn liveConfig state sampleTurn).2.isSome = true ∧
      Stands (runTurn liveConfig state sampleTurn).1 recorded acquired := by
  obtain ⟨hrunning, rfl, rfl, hfree⟩ := h
  have hlive : liveConfig.dryRun = false := rfl
  have hpool : liveConfig.signs = false := rfl
  simp only [ExecutionLoop.runTurn, sampleTurn, hrunning, handleTrigger, htripped, hgranted, hlive,
    OrderGuard.tryAcquire, hfree, hok, dispatchTrigger, hpool, Bool.not_true,
    Bool.false_eq_true, if_false, afterDispatch_sampleOutside]
  exact ⟨rfl, rfl, rfl, rfl, rfl⟩

def twoTurns : List (Turn Unit Unit (Request (String × String))) := [sampleTurn, sampleTurn]

/-- The checks after this many orders of five dollars. -/
def breakerAfter (orders : Nat) : CircuitBreaker :=
  .withInitialCounts 10 5000 orders (500 * orders)

def limiterAfter (orders : Nat) : RateLimiter :=
  { maxPerSecond := 10, windowStartNs := 2000000000, countInWindow := orders }

theorem stands_once : (runTurn liveConfig stocked sampleTurn).2.isSome = true ∧
    Stands (runTurn liveConfig stocked sampleTurn).1 (breakerAfter 1) (limiterAfter 1) := by
  have hstocked : Stands stocked (breakerAfter 0) stocked.limiter := ⟨rfl, rfl, rfl, rfl⟩
  exact hstocked.runTurn rfl (by decide) (by decide)

theorem length_dispatches_two {start : LoopState}
    {turn : Turn Unit Unit (Request (String × String))}
    (hfirst : (runTurn liveConfig start turn).2.isSome = true)
    (hsecond : (runTurn liveConfig (runTurn liveConfig start turn).1 turn).2.isSome = true) :
    (dispatches liveConfig start [turn, turn]).length = 2 := by
  obtain ⟨first, hfirst⟩ := Option.isSome_iff_exists.mp hfirst
  obtain ⟨second, hsecond⟩ := Option.isSome_iff_exists.mp hsecond
  rw [show [turn, turn] = ([] ++ [turn]) ++ [turn] from rfl, dispatches_concat,
    dispatches_concat, exec_concat]
  simp only [exec, hfirst, hsecond]
  rfl

theorem dispatches_twoTurns :
    (dispatches liveConfig stocked twoTurns).length = 2 ∧
      (runTurn liveConfig (exec (runTurn liveConfig) stocked twoTurns) sampleTurn).2.isSome =
        true := by
  obtain ⟨hfirst, hone⟩ := stands_once
  obtain ⟨hsecond, htwo⟩ := @hone.runTurn _ _ (breakerAfter 2) _ (limiterAfter 2) rfl
    (by decide) (by decide)
  obtain ⟨hthird, -⟩ := @htwo.runTurn _ _ (breakerAfter 3) _ (limiterAfter 3) rfl
    (by decide) (by decide)
  refine ⟨length_dispatches_two hfirst hsecond, ?_⟩
  rw [twoTurns, exec, exec, exec]
  exact hthird

theorem bothSides_two {payload : SignedOrderPayload}
    (h : bothSides[2 % inUse bothSides.length]? = some payload) : payload = samplePayload "BUY" :=
  (Option.some.inj h).symm

/-- The third order is the first one again, after the pool has started over. -/
theorem presigned_orders_rotate_bothSides :
    ∃ order,
      (runTurn liveConfig (exec (runTurn liveConfig) stocked twoTurns) sampleTurn).2 =
        some order ∧
      order.outcome = sendBuilt sampleOutside order.trigger
        (buildOrderRequest sampleCrates (samplePayload "BUY") sampleCreds (.ok 1700000000)) := by
  obtain ⟨htwo, hthird⟩ := dispatches_twoTurns
  obtain ⟨order, horder⟩ := Option.isSome_iff_exists.mp hthird
  obtain ⟨payload, hpayload, houtcome⟩ := presigned_orders_rotate sampleCrates liveConfig rfl
    bothSides (by simp [bothSides]) stocked (PresignedRuns.new_eq bothSides) twoTurns sampleTurn
    sampleCreds (.ok 1700000000) rfl order horder
  rw [htwo] at hpayload
  rw [bothSides_two hpayload] at houtcome
  exact ⟨order, horder, houtcome⟩

end Results

end Rtt.PresignedRotation
