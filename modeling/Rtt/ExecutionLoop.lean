import Mathlib
import Rtt.ClobExecutor
import Rtt.Machine
import Rtt.Safety

namespace Rtt.ExecutionLoop

open Rtt.Quote
open Rtt.MachineWord
open Rtt.Safety
open Rtt.ClobExecutor
open Rtt.Machine

/-- What `try_recv` has found in the channel of the triggers. -/
inductive Received where
  | trigger (message : TriggerMessage)
  | empty
  | disconnected

/-- What one turn of the loop reads from outside. -/
structure Turn (Order Signature Request : Type) where
  shutdown : Bool
  received : Received
  limiterNowNs : Nat
  outside : Outside Order Signature Request

/-- What stays the same in all turns of the loop. -/
structure LoopConfig where
  dryRun : Bool
  /-- Orders are signed on the hot path, not taken from the pool. -/
  signs : Bool
  centsOf : String → String → Nat

/-- What the loop keeps from one turn to the next. -/
structure LoopState where
  breaker : CircuitBreaker
  limiter : RateLimiter
  guard : OrderGuard
  presigned : PreSignedOrderPool
  running : Bool

/-- An order that went out, and how. -/
structure Dispatched where
  trigger : TriggerMessage
  outcome : DispatchOutcome

/-- Start over on the pool when at most a fifth of it is left. -/
def refill (presigned : PreSignedOrderPool) : PreSignedOrderPool :=
  let remaining := presigned.len - presigned.consumed
  let threshold := presigned.len / 5
  if remaining ≤ threshold ∧ presigned.len > 0 then presigned.resetCursor else presigned

section

variable {Order Signature Request : Type} (config : LoopConfig)

/-- After a dispatch: the breaker is tripped when the warm path was left. -/
def afterDispatch (state : LoopState) : DispatchOutcome → LoopState
  | .sent _ _ => { state with presigned := refill state.presigned }
  | .rejected record _ =>
      if record.isReconnect then
        { state with breaker := state.breaker.trip, running := false }
      else { state with presigned := refill state.presigned }

/-- The dispatch itself. The guard is released whatever becomes of the order. -/
def dispatchTrigger (outside : Outside Order Signature Request) (state : LoopState)
    (trigger : TriggerMessage) : LoopState × Option Dispatched :=
  let (presigned, outcome) :=
    if config.signs then (state.presigned, signAndDispatch outside trigger)
    else processOneClob outside state.presigned trigger
  let state := { state with presigned, guard := state.guard.release }
  (afterDispatch state outcome, some { trigger, outcome })

/-- The checks that a trigger passes, in their order, before it is dispatched. -/
def handleTrigger (turn : Turn Order Signature Request) (state : LoopState)
    (trigger : TriggerMessage) : LoopState × Option Dispatched :=
  if state.breaker.isTripped then ({ state with running := false }, none)
  else
    let (limiter, granted) := state.limiter.tryAcquire turn.limiterNowNs
    let state := { state with limiter }
    if !granted then (state, none)
    else
      let (guard, acquired) := state.guard.tryAcquire
      let state := { state with guard }
      if !acquired then (state, none)
      else if config.dryRun then ({ state with guard := state.guard.release }, none)
      else
        let (breaker, checked) :=
          state.breaker.checkAndRecord config.centsOf trigger.price trigger.size
        let state := { state with breaker }
        match checked with
        | .error _ => ({ state with guard := state.guard.release, running := false }, none)
        | .ok () => dispatchTrigger config turn.outside state trigger

/-- One turn of the loop.  Once the loop has been left nothing happens. -/
def runTurn (state : LoopState) (turn : Turn Order Signature Request) :
    LoopState × Option Dispatched :=
  if !state.running then (state, none)
  else if turn.shutdown then ({ state with running := false }, none)
  else
    match turn.received with
    | .trigger trigger => handleTrigger config turn state trigger
    | .empty => (state, none)
    | .disconnected => ({ state with running := false }, none)

def dispatches (state : LoopState) (turns : List (Turn Order Signature Request)) :
    List Dispatched :=
  (outputs (runTurn config) state turns).filterMap id

def cents (dispatched : Dispatched) : Nat :=
  config.centsOf dispatched.trigger.price dispatched.trigger.size

/-- The turn gets as far as recording an order with the breaker. -/
def Records (state : LoopState) (turn : Turn Order Signature Request)
    (trigger : TriggerMessage) : Prop :=
  state.running = true ∧ turn.shutdown = false ∧ turn.received = .trigger trigger ∧
    state.breaker.tripped = false ∧ (state.limiter.tryAcquire turn.limiterNowNs).2 = true ∧
    state.guard.inFlight = false ∧ config.dryRun = false

/-- Where a turn records an order, the counters stay machine words. -/
def RecordsWithinWord (state : LoopState) (turn : Turn Order Signature Request) : Prop :=
  ∀ trigger, Records config state turn trigger →
    NoWrap state.breaker (config.centsOf trigger.price trigger.size)

end

variable {Order Signature Request : Type} {config : LoopConfig} {state : LoopState}
  {turn : Turn Order Signature Request}

def recordOrder (config : LoopConfig) (state : LoopState) (trigger : TriggerMessage) :
    CircuitBreaker × Except TripReason Unit :=
  state.breaker.checkAndRecord config.centsOf trigger.price trigger.size

/-- A trigger is recorded only past the breaker, the limiter, the guard and the dry run,
and is dispatched only once it is recorded. -/
theorem handleTrigger_cases (config : LoopConfig) (state : LoopState)
    (turn : Turn Order Signature Request) (trigger : TriggerMessage) :
    (∃ limiter running, (running = true → state.running = true) ∧
      handleTrigger config turn state trigger = ({ state with limiter, running }, none)) ∨
    ∃ limiter, (state.breaker.tripped = false ∧
        (state.limiter.tryAcquire turn.limiterNowNs).2 = true ∧
        state.guard.inFlight = false ∧ config.dryRun = false) ∧
      ((∃ reason, (recordOrder config state trigger).2 = .error reason ∧
        handleTrigger config turn state trigger =
          ({ state with
              limiter, guard := { inFlight := false }, running := false
              breaker := (recordOrder config state trigger).1 }, none)) ∨
      ((recordOrder config state trigger).2 = .ok () ∧
        handleTrigger config turn state trigger = dispatchTrigger config turn.outside
          { state with
            limiter, guard := { inFlight := true }
            breaker := (recordOrder config state trigger).1 } trigger)) := by
  simp only [handleTrigger]
  split
  · exact Or.inl ⟨_, false, by simp, rfl⟩
  rename_i htripped
  split
  · exact Or.inl ⟨_, _, id, rfl⟩
  rename_i hgranted
  cases hguard : state.guard.inFlight with
  | true =>
      simp only [OrderGuard.tryAcquire, hguard, if_true, Bool.not_false]
      exact Or.inl ⟨_, _, id, rfl⟩
  | false =>
      simp only [OrderGuard.tryAcquire, hguard, Bool.false_eq_true, if_false, Bool.not_true]
      cases hdry : config.dryRun with
      | true =>
          simp only [if_true]
          rw [OrderGuard.release_eq_of_free hguard]
          exact Or.inl ⟨_, _, id, rfl⟩
      | false =>
          simp only [Bool.false_eq_true, if_false]
          refine Or.inr ⟨(state.limiter.tryAcquire turn.limiterNowNs).1,
            ⟨Bool.eq_false_iff.mpr htripped, by simpa using hgranted, trivial, trivial⟩, ?_⟩
          simp only [recordOrder]
          split
          · rename_i reason hchecked
            exact Or.inl ⟨reason, hchecked, rfl⟩
          · rename_i hchecked
            exact Or.inr ⟨hchecked, rfl⟩

theorem runTurn_cases (config : LoopConfig) (state : LoopState)
    (turn : Turn Order Signature Request) :
    (∃ limiter running, (running = true → state.running = true) ∧
      runTurn config state turn = ({ state with limiter, running }, none)) ∨
    ∃ trigger limiter, Records config state turn trigger ∧
      ((∃ reason, (recordOrder config state trigger).2 = .error reason ∧
        runTurn config state turn =
          ({ state with
              limiter, guard := { inFlight := false }, running := false
              breaker := (recordOrder config state trigger).1 }, none)) ∨
      ((recordOrder config state trigger).2 = .ok () ∧
        runTurn config state turn = dispatchTrigger config turn.outside
          { state with
            limiter, guard := { inFlight := true }
            breaker := (recordOrder config state trigger).1 } trigger)) := by
  simp only [runTurn]
  split
  · exact Or.inl ⟨_, _, id, rfl⟩
  rename_i hrunning
  split
  · exact Or.inl ⟨_, false, by simp, rfl⟩
  rename_i hshutdown
  split
  · rename_i trigger hreceived
    refine (handleTrigger_cases config state turn trigger).imp_right ?_
    rintro ⟨limiter, hpassed, hrest⟩
    exact ⟨trigger, limiter,
      ⟨by simpa using hrunning, by simpa using hshutdown, hreceived, hpassed⟩, hrest⟩
  · exact Or.inl ⟨_, _, id, rfl⟩
  · exact Or.inl ⟨_, false, by simp, rfl⟩

@[simp] theorem bodies_refill (presigned : PreSignedOrderPool) :
    (refill presigned).bodies = presigned.bodies := by
  simp only [refill]
  split <;> rfl

theorem consumed_refill_lt {presigned : PreSignedOrderPool} (hne : presigned.bodies ≠ []) :
    (refill presigned).consumed < (refill presigned).len := by
  have hlen : 0 < presigned.len := List.length_pos_iff.mpr hne
  simp only [refill]
  split
  · exact hlen
  · omega

theorem afterDispatch_spec (state : LoopState) {outcome : DispatchOutcome}
    (hmarked : ColdMarked outcome) :
    (afterDispatch state outcome).guard = state.guard ∧
      (afterDispatch state outcome).presigned.bodies = state.presigned.bodies ∧
      (afterDispatch state outcome).breaker.maxOrders = state.breaker.maxOrders ∧
      (afterDispatch state outcome).breaker.maxUsdCents = state.breaker.maxUsdCents ∧
      ((afterDispatch state outcome).running = true →
        (afterDispatch state outcome).breaker = state.breaker ∧ ¬ IsColdFailure outcome ∧
          (afterDispatch state outcome).presigned = refill state.presigned) := by
  cases outcome with
  | sent record body =>
      exact ⟨rfl, bodies_refill _, rfl, rfl, fun _ => ⟨rfl, not_isColdFailure_sent, rfl⟩⟩
  | rejected record error =>
      cases hreconnect : record.isReconnect with
      | true => simp [afterDispatch, hreconnect, CircuitBreaker.trip]
      | false =>
          simp only [afterDispatch, hreconnect, Bool.false_eq_true, if_false]
          exact ⟨trivial, bodies_refill _, trivial, trivial,
            fun _ => ⟨trivial, not_isColdFailure_of_warm hmarked hreconnect, trivial⟩⟩

theorem dispatchTrigger_spec (config : LoopConfig) (outside : Outside Order Signature Request)
    (state : LoopState) (trigger : TriggerMessage) :
    ∃ presigned outcome,
      dispatchTrigger config outside state trigger =
        (afterDispatch { state with presigned, guard := { inFlight := false } } outcome,
          some { trigger, outcome }) ∧
      presigned.bodies = state.presigned.bodies ∧ ColdMarked outcome ∧
      (state.presigned.consumed < state.presigned.len → ¬ Exhausted outcome) := by
  simp only [dispatchTrigger]
  split
  · exact ⟨_, _, rfl, rfl, signAndDispatch_spec.1, fun _ => signAndDispatch_spec.2⟩
  · obtain ⟨hmarked, hexhausted, hbodies, -⟩ := @processOneClob_spec _ _ _ outside
      state.presigned trigger
    exact ⟨_, _, rfl, hbodies, hmarked, fun h => mt hexhausted.mp (not_le.mpr h)⟩

/-- What the loop has kept at the head of a turn, after some dispatches. -/
structure Kept (config : LoopConfig) (start state : LoopState) (dispatched : List Dispatched) :
    Prop where
  guard_free : state.guard.inFlight = false
  bodies_same : state.presigned.bodies = start.presigned.bodies
  limits_same : state.breaker.maxOrders = start.breaker.maxOrders ∧
    state.breaker.maxUsdCents = start.breaker.maxUsdCents
  counted : state.running = true →
    state.breaker.ordersFired = start.breaker.ordersFired + dispatched.length ∧
      state.breaker.usdCommittedCents =
        start.breaker.usdCommittedCents + (dispatched.map (cents config)).sum
  capped : dispatched ≠ [] →
    start.breaker.ordersFired + dispatched.length ≤ start.breaker.maxOrders ∧
      start.breaker.usdCommittedCents + (dispatched.map (cents config)).sum ≤
        start.breaker.maxUsdCents
  live : config.dryRun = true → dispatched = []
  stocked : start.presigned.bodies ≠ [] →
    (state.running = true → state.presigned.consumed < state.presigned.len) ∧
      ∀ attempt ∈ dispatched, ¬ Exhausted attempt.outcome
  warm : state.running = true → ∀ attempt ∈ dispatched, ¬ IsColdFailure attempt.outcome
  cold_last : dispatched.Pairwise fun earlier _ => ¬ IsColdFailure earlier.outcome

theorem kept_start {start : LoopState} (hfree : start.guard.inFlight = false)
    (hcursor : start.presigned.cursor = 0) : Kept config start start [] where
  guard_free := hfree
  bodies_same := rfl
  limits_same := ⟨rfl, rfl⟩
  counted := by simp
  capped := by simp
  live := by simp
  stocked hne := by
    refine ⟨fun _ => ?_, by simp⟩
    rw [PreSignedOrderPool.consumed, hcursor]
    exact List.length_pos_iff.mpr hne
  warm := by simp
  cold_last := List.Pairwise.nil

theorem kept_idle {start : LoopState} {dispatched : List Dispatched}
    (hkept : Kept config start state dispatched) (limiter : RateLimiter) {running : Bool}
    (hrunning : running = true → state.running = true) :
    Kept config start { state with limiter, running } dispatched :=
  { hkept with
    counted := fun h => hkept.counted (hrunning h)
    stocked := fun hne => ⟨fun h => (hkept.stocked hne).1 (hrunning h), (hkept.stocked hne).2⟩
    warm := fun h => hkept.warm (hrunning h) }

theorem kept_refused {start : LoopState} {dispatched : List Dispatched}
    (hkept : Kept config start state dispatched) (limiter : RateLimiter)
    (trigger : TriggerMessage) :
    Kept config start
      { state with
        limiter, guard := { inFlight := false }, running := false
        breaker := (recordOrder config state trigger).1 } dispatched :=
  { hkept with
    guard_free := rfl
    limits_same := by simpa [recordOrder] using hkept.limits_same
    counted := by simp
    stocked := fun hne => ⟨by simp, (hkept.stocked hne).2⟩
    warm := by simp }

theorem kept_dispatched {start : LoopState} {dispatched : List Dispatched}
    (hkept : Kept config start state dispatched) (limiter : RateLimiter)
    {trigger : TriggerMessage} (hrecords : Records config state turn trigger)
    (hnowrap : NoWrap state.breaker (config.centsOf trigger.price trigger.size))
    (hok : (recordOrder config state trigger).2 = .ok ()) :
    let result := dispatchTrigger config turn.outside
      { state with
        limiter, guard := { inFlight := true }
        breaker := (recordOrder config state trigger).1 } trigger
    Kept config start result.1 (dispatched ++ result.2.toList) := by
  intro result
  obtain ⟨hrun, -, -, -, -, -, hlive⟩ := hrecords
  obtain ⟨-, horders, husd, hbreaker⟩ := checkAndRecord_ok hnowrap hok
  obtain ⟨presigned, outcome, hdispatch, hbodies, hmarked, hexhausted⟩ :=
    dispatchTrigger_spec config turn.outside
      { state with
        limiter, guard := { inFlight := true }
        breaker := (recordOrder config state trigger).1 } trigger
  simp only [result, hdispatch, Option.toList_some]
  simp only [recordOrder, hbreaker]
  obtain ⟨hguard, hpool, hmaxOrders, hmaxUsd, hgoes⟩ := afterDispatch_spec _ hmarked
  obtain ⟨hfired, hcommitted⟩ := hkept.counted hrun
  obtain ⟨hlimitOrders, hlimitUsd⟩ := hkept.limits_same
  have hsame : presigned.bodies = start.presigned.bodies := hbodies.trans hkept.bodies_same
  have hlength : (dispatched ++ [Dispatched.mk trigger outcome]).length = dispatched.length + 1 :=
    List.length_append
  have hsum : ((dispatched ++ [Dispatched.mk trigger outcome]).map (cents config)).sum =
      (dispatched.map (cents config)).sum + config.centsOf trigger.price trigger.size := by
    rw [List.map_append, List.sum_append, List.map_singleton, List.sum_singleton]
    rfl
  exact {
    guard_free := by rw [hguard]
    bodies_same := hpool.trans hsame
    limits_same := ⟨hmaxOrders.trans hlimitOrders, hmaxUsd.trans hlimitUsd⟩
    counted := by
      intro h
      rw [(hgoes h).1, hlength, hsum]
      constructor
      · show state.breaker.ordersFired + 1 = _
        omega
      · show state.breaker.usdCommittedCents + config.centsOf trigger.price trigger.size = _
        omega
    capped := by
      intro _
      rw [hlength, hsum]
      omega
    live := by
      intro hdry
      rw [hdry] at hlive
      exact Bool.noConfusion hlive
    stocked := by
      intro hne
      obtain ⟨hleft, hnone⟩ := hkept.stocked hne
      constructor
      · intro h
        rw [(hgoes h).2.2]
        exact consumed_refill_lt (hsame ▸ hne)
      · refine List.forall_mem_append.mpr ⟨hnone, List.forall_mem_singleton.mpr ?_⟩
        exact hexhausted (hleft hrun)
    warm := by
      intro h
      refine List.forall_mem_append.mpr ⟨hkept.warm hrun, List.forall_mem_singleton.mpr ?_⟩
      exact (hgoes h).2.1
    cold_last := by
      refine List.pairwise_append.mpr ⟨hkept.cold_last, List.pairwise_singleton _ _, ?_⟩
      intro earlier hearlier _ _
      exact hkept.warm hrun earlier hearlier }

theorem kept_runTurn {start : LoopState} {dispatched : List Dispatched}
    (hkept : Kept config start state dispatched) (hword : RecordsWithinWord config state turn) :
    Kept config start (runTurn config state turn).1
      (dispatched ++ (runTurn config state turn).2.toList) := by
  obtain ⟨limiter, running, hrunning, hturn⟩ | ⟨trigger, limiter, hrecords, hrest⟩ :=
    runTurn_cases config state turn
  · rw [hturn, Option.toList_none, List.append_nil]
    exact kept_idle hkept limiter hrunning
  · rcases hrest with ⟨reason, -, hturn⟩ | ⟨hok, hturn⟩
    · rw [hturn, Option.toList_none, List.append_nil]
      exact kept_refused hkept limiter trigger
    · rw [hturn]
      exact kept_dispatched hkept limiter hrecords (hword trigger hrecords) hok

theorem kept_run {start : LoopState} {turns : List (Turn Order Signature Request)}
    (hfree : start.guard.inFlight = false) (hcursor : start.presigned.cursor = 0)
    (hword : Along (runTurn config) (RecordsWithinWord config) start turns) :
    Kept config start (exec (runTurn config) start turns) (dispatches config start turns) := by
  refine run_induction (runTurn config)
    (motive := fun _ state out => Kept config start state (out.filterMap id))
    (kept_start hfree hcursor) ?_ turns hword
  intro _ state out turn hkept hturn
  have hnew : [(runTurn config state turn).2].filterMap id =
      (runTurn config state turn).2.toList := by
    cases (runTurn config state turn).2 <;> rfl
  rw [List.filterMap_append, hnew]
  exact kept_runTurn hkept hturn

theorem dispatches_of_tripped (htripped : state.breaker.tripped = true)
    (turns : List (Turn Order Signature Request)) : dispatches config state turns = [] := by
  have hidle : ∀ (state : LoopState) (turn : Turn Order Signature Request),
      state.breaker.tripped = true → (runTurn config state turn).1.breaker.tripped = true ∧
        (runTurn config state turn).2 = none := by
    intro state turn htripped
    obtain ⟨limiter, running, -, hturn⟩ | ⟨trigger, limiter, hrecords, -⟩ :=
      runTurn_cases config state turn
    · rw [hturn]
      exact ⟨htripped, rfl⟩
    · obtain ⟨-, -, -, hopen, -⟩ := hrecords
      rw [htripped] at hopen
      exact Bool.noConfusion hopen
  apply List.filterMap_eq_nil_iff.mpr
  exact outputs_forall (fun state turn htripped _ => (hidle state turn htripped).1)
    (fun state turn htripped _ => (hidle state turn htripped).2) htripped
    (along_true state turns)

/-- The order and dollar caps, and the rest of what the loop promises, over
every run. -/
theorem execution_loop_safe (config : LoopConfig) (start : LoopState)
    (turns : List (Turn Order Signature Request)) (hfree : start.guard.inFlight = false)
    (hcursor : start.presigned.cursor = 0)
    (hword : Along (runTurn config) (RecordsWithinWord config) start turns) :
    let dispatched := dispatches config start turns
    dispatched.length ≤ start.breaker.maxOrders - start.breaker.ordersFired ∧
      (dispatched ≠ [] → start.breaker.usdCommittedCents +
        (dispatched.map (cents config)).sum ≤ start.breaker.maxUsdCents) ∧
      (config.dryRun = true → dispatched = []) ∧
      (∀ before after, turns = before ++ after →
        (exec (runTurn config) start before).breaker.tripped = true →
          dispatches config (exec (runTurn config) start before) after = []) ∧
      (dispatched.Pairwise fun earlier _ => ¬ IsColdFailure earlier.outcome) ∧
      (∀ before after, turns = before ++ after →
        (exec (runTurn config) start before).guard.inFlight = false) ∧
      (start.presigned.bodies ≠ [] →
        (∀ before after, turns = before ++ after →
          (exec (runTurn config) start before).running = true →
            (exec (runTurn config) start before).presigned.consumed <
              (exec (runTurn config) start before).presigned.len) ∧
        ∀ attempt ∈ dispatched, ¬ Exhausted attempt.outcome) := by
  intro dispatched
  have hkept : Kept config start _ dispatched := kept_run hfree hcursor hword
  have hhead : ∀ before after, turns = before ++ after →
      Kept config start (exec (runTurn config) start before)
        (dispatches config start before) := by
    rintro before after rfl
    exact kept_run hfree hcursor (along_append.mp hword).1
  refine ⟨?_, fun hne => (hkept.capped hne).2, hkept.live,
    fun _ after _ htripped => dispatches_of_tripped htripped after, hkept.cold_last,
    fun before after hsplit => (hhead before after hsplit).guard_free, fun hne => ⟨?_, ?_⟩⟩
  · by_cases hnone : dispatched = []
    · simp [hnone]
    · have := (hkept.capped hnone).1
      omega
  · exact fun before after hsplit => ((hhead before after hsplit).stocked hne).1
  · exact (hkept.stocked hne).2

def halfForTen : TriggerMessage :=
  { triggerId := 1, tokenId := "token_abc", side := .buy, price := "0.50", size := "10"
    orderType := .gtc, timestampNs := 100 }

def accepting : Outside Unit Unit Unit where
  buildOrder _ := .ok ()
  signOrder _ := .ok ()
  encodeOrderPayload _ _ _ := .ok []
  buildOrderRequest _ := .ok ()
  sendStart _ := .ok { connectionIndex := 0 }
  collect _ := .ok { cfRay := some "abc123-EWR", body := [] }
  nowNs reads := 200 + reads

def triggered : Turn Unit Unit Unit :=
  { shutdown := false, received := .trigger halfForTen, limiterNowNs := 2000000000
    outside := accepting }

def liveConfig : LoopConfig :=
  { dryRun := false, signs := false
    centsOf := fun price size => if price = "0.50" ∧ size = "10" then 500 else 0 }

def oneOrderLeft : LoopState :=
  { breaker := CircuitBreaker.withInitialCounts 3 5000 2 1000, limiter := RateLimiter.new 10
    guard := OrderGuard.new, presigned := { bodies := [[1], [2]], cursor := 0 }, running := true }

/-- Of two triggers only the one order left is dispatched. -/
theorem execution_loop_safe_oneOrderLeft :
    (dispatches liveConfig oneOrderLeft [triggered, triggered]).length = 1 ∧
      (dispatches liveConfig oneOrderLeft [triggered, triggered]).length ≤ 3 - 2 := by
  have hword : Along (runTurn liveConfig) (RecordsWithinWord liveConfig) oneOrderLeft
      [triggered, triggered] := by
    refine ⟨?_, ?_, trivial⟩
    all_goals
      rintro trigger ⟨-, -, hreceived, -⟩
      obtain rfl := Received.trigger.inj hreceived
      decide
  exact ⟨by decide, (execution_loop_safe liveConfig oneOrderLeft _ rfl rfl hword).1⟩

end Rtt.ExecutionLoop
