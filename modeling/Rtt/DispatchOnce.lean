import Rtt.FlowRuns

namespace Rtt.DispatchOnce

open Rtt.Quote
open Rtt.MachineWord
open Rtt.PublicEvent
open Rtt.StrategyContract
open Rtt.Backtest
open Rtt.ReplayTriggers
open Rtt.ClobExecutor
open Rtt.ExecutionLoop
open Rtt.RelayLink
open Rtt.TriggerFlow
open Rtt.FlowRuns
open Rtt.Machine
open Rtt.Safety

section TriggerIds

variable {rule : FiringRule} {maker : TriggerMaker}

theorem onBookUpdate_cases (rule : FiringRule) (maker : TriggerMaker)
    (snapshot : OrderBookSnapshot) :
    (firingStrategy rule).onBookUpdate maker snapshot = (maker, none) ∨
      ∃ price, (firingStrategy rule).onBookUpdate maker snapshot =
        ((maker.makeTrigger price).1, some (maker.makeTrigger price).2) := by
  simp only [firingStrategy]
  split
  · exact .inl rfl
  · split
    · exact .inl rfl
    · exact .inr ⟨_, rfl⟩

/-- The ids of the triggers made so far and the next one. -/
def Numbered (first : Nat) (replay : SnapshotReplay TriggerMaker) : Prop :=
  replay.strategy.nextTriggerId = wrappingAdd first replay.triggers.length ∧
    replay.triggers.map TriggerMessage.triggerId =
      (List.range replay.triggers.length).map (wrappingAdd first)

theorem numbered_step {first : Nat} {replay : SnapshotReplay TriggerMaker}
    (h : Numbered first replay) (snapshot : OrderBookSnapshot) :
    Numbered first (snapshotStep (firingStrategy rule) replay snapshot) := by
  obtain ⟨hnext, hids⟩ := h
  rcases onBookUpdate_cases rule replay.strategy snapshot with hquiet | ⟨price, hfires⟩
  · simp only [snapshotStep, hquiet, Option.toList_none, List.append_nil]
    exact ⟨hnext, hids⟩
  · simp only [snapshotStep, hfires, Option.toList_some, Numbered, List.length_append,
      List.length_singleton, List.map_append, List.map_singleton, List.range_succ, hids]
    constructor
    · show wrappingAdd replay.strategy.nextTriggerId 1 = _
      rw [hnext, wrappingAdd, wrappingAdd, wrappingAdd, Nat.mod_add_mod, Nat.add_assoc]
    · exact congrArg _ (congrArg (fun id => [id]) hnext)

theorem run_numbered (rule : FiringRule) (hfirst : maker.nextTriggerId < wordSize)
    (snapshots : List OrderBookSnapshot) :
    let triggers := (run (firingStrategy rule) maker snapshots).triggers
    triggers.map TriggerMessage.triggerId =
      (List.range triggers.length).map (wrappingAdd maker.nextTriggerId) := by
  have hrun : Numbered maker.nextTriggerId
      (snapshots.foldl (snapshotStep (firingStrategy rule))
        { strategy := maker, triggers := [] }) := by
    induction snapshots using List.reverseRecOn with
    | nil => exact ⟨(Nat.mod_eq_of_lt hfirst).symm, rfl⟩
    | append_singleton snapshots snapshot ih =>
        rw [List.foldl_append]
        exact numbered_step ih snapshot
  exact hrun.2

end TriggerIds

variable {σ : Type} {feedCapacity : Nat} {Order Signature Request : Type}
  {strategy : Strategy σ} {config : LoopConfig} {start : σ} {system : System σ feedCapacity}

section Caps

/-- Where a turn records an order, the counters stay machine words. -/
def TurnWithinWord (config : LoopConfig) (system : System σ feedCapacity) :
    Action Order Signature Request → Prop
  | .loopBody limiterNowNs outside =>
      system.inBody = true → RecordsWithinWord config system.loop
        { shutdown := false, received := (tryRecv system.orders).2, limiterNowNs, outside }
  | _ => True

/-- A step leaves what the execution loop has dispatched alone, and can only end the loop,
or is a turn of its body. -/
theorem step_loop (strategy : Strategy σ) (config : LoopConfig) (system : System σ feedCapacity)
    (past : History) (action : Action Order Signature Request) :
    (∃ running, (running = true → system.loop.running = true) ∧
        (step strategy config system action).1.loop = { system.loop with running } ∧
        ((step strategy config system action).2.foldl History.add past).dispatched =
          past.dispatched) ∨
      ∃ limiterNowNs outside,
        action = .loopBody limiterNowNs outside ∧ system.inBody = true ∧
        let turn := runTurn config system.loop
          { shutdown := false, received := (tryRecv system.orders).2, limiterNowNs, outside }
        (step strategy config system action).1.loop = turn.1 ∧
        ((step strategy config system action).2.foldl History.add past).dispatched =
          past.dispatched ++ turn.2.toList := by
  cases action with
  | publish snapshot => exact .inl ⟨_, id, rfl, rfl⟩
  | bridgeRecv =>
      refine .inl ⟨_, id, ?_⟩
      simp only [step, System.bridgeRecv]
      split
      · split <;> exact ⟨rfl, rfl⟩
      · exact ⟨rfl, rfl⟩
  | bridgeSend => exact .inl ⟨_, id, rfl, rfl⟩
  | stopBridge => exact .inl ⟨_, id, rfl, rfl⟩
  | runnerRecv =>
      refine .inl ⟨_, id, ?_⟩
      simp only [step, System.runnerRecv]
      split
      · split
        · split <;> exact ⟨rfl, rfl⟩
        · split <;> exact ⟨rfl, rfl⟩
      · exact ⟨rfl, rfl⟩
  | runnerSend =>
      refine .inl ⟨_, id, ?_, rfl⟩
      simp only [step, System.runnerSend]
      split <;> rfl
  | stampRecv nowNs =>
      refine .inl ⟨_, id, ?_⟩
      simp only [step, System.stampRecv]
      split
      · split
        · exact ⟨rfl, rfl⟩
        · split <;> exact ⟨rfl, rfl⟩
      · exact ⟨rfl, rfl⟩
  | stampSend =>
      refine .inl ⟨_, id, ?_, rfl⟩
      simp only [step, System.stampSend]
      split <;> rfl
  | stopStamper =>
      refine .inl ⟨_, id, ?_, rfl⟩
      simp only [step, System.stopStamper]
      split <;> rfl
  | loopHead shutdown =>
      refine .inl ?_
      simp only [step, System.loopHead]
      split
      · exact ⟨_, id, rfl, rfl⟩
      · split
        · exact ⟨_, id, rfl, rfl⟩
        · exact ⟨false, fun h => absurd h Bool.false_ne_true, rfl, rfl⟩
  | loopBody limiterNowNs outside =>
      simp only [step, System.loopBody]
      split
      · rename_i hbody
        refine .inr ⟨limiterNowNs, outside, rfl, hbody, rfl, ?_⟩
        cases trigger? (tryRecv system.orders).2 <;>
          cases (runTurn config system.loop _).2 <;> simp [History.add]
      · exact .inl ⟨_, id, rfl, rfl⟩

theorem kept_system (strategy : Strategy σ) {loop : LoopState}
    (hfree : loop.guard.inFlight = false) (hcursor : loop.presigned.cursor = 0)
    (actions : List (Action Order Signature Request))
    (hword : Along (step strategy config) (TurnWithinWord config)
      (System.start start loop : System σ feedCapacity) actions) :
    let origin : System σ feedCapacity := .start start loop
    Kept config loop (exec (step strategy config) origin actions).loop
      (history strategy config origin actions).dispatched := by
  refine run_induction (step strategy config) (P := TurnWithinWord config)
    (motive := fun _ system out => Kept config loop system.loop
      (out.flatten.foldl History.add {}).dispatched)
    (kept_start hfree hcursor) ?_ actions hword
  intro _ system out action hkept hturn
  rw [List.flatten_append, List.flatten_singleton, List.foldl_append]
  rcases step_loop strategy config system (out.flatten.foldl History.add {}) action with
    ⟨running, hrunning, hloop, hsame⟩ | ⟨limiterNowNs, outside, rfl, hbody, hloop, hnew⟩
  · rw [hloop, hsame]
    exact kept_idle hkept system.loop.limiter hrunning
  · rw [hloop, hnew]
    exact kept_runTurn hkept (hturn hbody)

end Caps

section Once

/-- `ThresholdStrategy::new` and `SpreadStrategy::new`, without their rule. -/
def newMaker (tokenId : String) (side : Side) (size : String) (orderType : Quote.OrderType)
    (epoch : Nat → Nat) : TriggerMaker :=
  { tokenId, side, size, orderType, nextTriggerId := 1, epoch }

theorem taken_ids_initial {past : History} (h : Flows strategy start system past) :
    past.taken.map TriggerMessage.triggerId <+: past.fired.map TriggerMessage.triggerId := by
  have hids : ∀ triggers : List TriggerMessage, triggers.map TriggerMessage.triggerId =
      (triggers.map withoutTimestamp).map TriggerMessage.triggerId := by
    intro triggers
    rw [List.map_map]
    rfl
  calc past.taken.map TriggerMessage.triggerId
      <+: past.stamped.map TriggerMessage.triggerId := h.orders.taken_prefix.map _
    _ = past.relayed.map TriggerMessage.triggerId := by rw [hids, h.stamps, ← hids]
    _ <+: past.fired.map TriggerMessage.triggerId := h.triggers.taken_prefix.map _

theorem ascending_fired {rule : FiringRule} {tokenId : String} {side : Side} {size : String}
    {orderType : Quote.OrderType} {epoch : Nat → Nat} {past : History}
    {system : System TriggerMaker feedCapacity}
    (h : Flows (firingStrategy rule) (newMaker tokenId side size orderType epoch) system past)
    (hcount : past.fired.length < wordSize) :
    (past.fired.map TriggerMessage.triggerId).Pairwise (· < ·) := by
  have hfirst : (newMaker tokenId side size orderType epoch).nextTriggerId < wordSize := by
    change 1 < wordSize
    decide
  have hfired : past.fired = (run (firingStrategy rule) (newMaker tokenId side size orderType epoch)
      past.consumed).triggers := (congrArg SnapshotReplay.triggers h.strategy).symm
  have hids := run_numbered rule hfirst past.consumed
  rw [← hfired] at hids
  rw [hids, List.pairwise_map]
  refine List.pairwise_lt_range.imp_of_mem ?_
  intro a b ha hb hless
  have hbound := List.mem_range.mp hb
  change wrappingAdd 1 a < wrappingAdd 1 b
  rw [wrappingAdd_eq (by omega), wrappingAdd_eq (by omega)]
  omega

/-- Whatever the executor's tasks do, the orders it dispatches carry ascending trigger ids,
so that none is dispatched twice, and stay within the order count and the dollars that the
circuit breaker has left. -/
theorem each_trigger_dispatched_once (rule : FiringRule) (config : LoopConfig)
    (tokenId : String) (side : Side) (size : String) (orderType : Quote.OrderType)
    (epoch : Nat → Nat) (loop : LoopState) (actions : List (Action Order Signature Request))
    (hfree : loop.guard.inFlight = false) (hcursor : loop.presigned.cursor = 0)
    (hword : Along (step (firingStrategy rule) config) (TurnWithinWord config)
      (System.start (newMaker tokenId side size orderType epoch) loop :
        System TriggerMaker feedCapacity) actions)
    (hcount : (history (firingStrategy rule) config
      (System.start (newMaker tokenId side size orderType epoch) loop :
        System TriggerMaker feedCapacity) actions).fired.length < wordSize) :
    let origin : System TriggerMaker feedCapacity :=
      .start (newMaker tokenId side size orderType epoch) loop
    let dispatched := (history (firingStrategy rule) config origin actions).dispatched
    (dispatched.map fun order => order.trigger.triggerId).Pairwise (· < ·) ∧
      dispatched.length ≤ loop.breaker.maxOrders - loop.breaker.ordersFired ∧
      (dispatched ≠ [] → loop.breaker.usdCommittedCents + (dispatched.map (cents config)).sum ≤
        loop.breaker.maxUsdCents) := by
  intro origin dispatched
  have hflows : Flows (firingStrategy rule) (newMaker tokenId side size orderType epoch) _
      (history (firingStrategy rule) config origin actions) :=
    flows_run (firingStrategy rule) config _ loop actions
  have hkept := kept_system (firingStrategy rule) hfree hcursor actions hword
  refine ⟨?_, ?_, fun hne => (hkept.capped hne).2⟩
  · have hfired := ascending_fired hflows hcount
    have htaken := hfired.sublist (taken_ids_initial hflows).sublist
    have hsublist := hflows.dispatched.map TriggerMessage.triggerId
    rw [List.map_map] at hsublist
    exact htaken.sublist hsublist
  · by_cases hnone : dispatched = []
    · rw [hnone]
      exact Nat.zero_le _
    · have hcapped := (hkept.capped hnone).1
      change loop.breaker.ordersFired + dispatched.length ≤ loop.breaker.maxOrders at hcapped
      omega

def askRule : FiringRule := fun _ _ bestAsk => bestAsk.map PriceLevel.price

def tokenMaker : TriggerMaker := newMaker "token_abc" .buy "10" .gtc id

def askAt (price : String) : OrderBookSnapshot :=
  { assetId := "token_abc", bestBid := none, bestAsk := some { price, size := "100" }
    timestampMs := 0, hash := "" }

/-- One snapshot passes through every task. -/
def relayOnce (nowNs : Nat) : List (Action Unit Unit Unit) :=
  [.publish (askAt "0.50"), .bridgeRecv, .bridgeSend, .runnerRecv, .runnerSend,
    .stampRecv nowNs, .stampSend, .loopHead false, .loopBody 2000000000 accepting]

/-- Of two snapshots that fire only the one order left is dispatched. -/
theorem each_trigger_dispatched_once_oneOrderLeft :
    let origin : System TriggerMaker 2 := .start tokenMaker oneOrderLeft
    let past := history (firingStrategy askRule) liveConfig origin
      (relayOnce 100 ++ relayOnce 150)
    past.fired.map TriggerMessage.triggerId = [1, 2] ∧ past.dispatched.length = 1 ∧
      past.dispatched.length ≤ 3 - 2 := by
  intro origin past
  have hfired : past.fired.map TriggerMessage.triggerId = [1, 2] := by decide
  have hcount : past.fired.length < wordSize := by
    have hlength := congrArg List.length hfired
    rw [List.length_map] at hlength
    rw [hlength]
    decide
  have hsmall : ∀ (breaker : CircuitBreaker) (price size : String),
      breaker.ordersFired ≤ 3 ∧ breaker.usdCommittedCents ≤ 5000 →
        NoWrap breaker (liveConfig.centsOf price size) := by
    intro breaker price size hcounts
    have hcents : liveConfig.centsOf price size ≤ 500 := by
      simp only [liveConfig]
      split <;> decide
    simp only [NoWrap, wordSize]
    omega
  have hword : Along (step (firingStrategy askRule) liveConfig) (TurnWithinWord liveConfig)
      origin (relayOnce 100 ++ relayOnce 150) := by
    refine ⟨trivial, trivial, trivial, trivial, trivial, trivial, trivial, trivial, ?_,
      trivial, trivial, trivial, trivial, trivial, trivial, trivial, trivial, ?_, trivial⟩
    all_goals exact fun _ trigger _ => hsmall _ _ _ (by decide)
  exact ⟨hfired, by decide, (each_trigger_dispatched_once askRule liveConfig "token_abc" .buy
    "10" .gtc id oneOrderLeft _ rfl rfl hword hcount).2.1⟩

end Once

section Clock

/-- The clock of the process does not run backwards: it is read for each stamp and, from
zero on, in each turn of the loop.  `latest` is the last stamp. -/
def Chronological : Nat → List (Action Order Signature Request) → Prop
  | _, [] => True
  | latest, .stampRecv nowNs :: rest => latest ≤ nowNs ∧ Chronological nowNs rest
  | latest, .loopBody _ outside :: rest =>
      (latest ≤ outside.nowNs 0 ∧ Monotone outside.nowNs ∧ ∀ i, 0 < outside.nowNs i) ∧
        Chronological latest rest
  | latest, _ :: rest => Chronological latest rest

/-- The record of the order begins with the stamp of its trigger and is timely. -/
structure TimelyFrom (order : Dispatched) : Prop where
  stamp : order.outcome.record.tTriggerRx = order.trigger.timestampNs
  timely : Timely order.outcome

theorem timely_of_runTurn {state : LoopState} {turn : Turn Order Signature Request}
    {order : Dispatched} (h : (runTurn config state turn).2 = some order)
    (hmono : Monotone turn.outside.nowNs) (hpositive : ∀ i, 0 < turn.outside.nowNs i)
    (htrigger : order.trigger.timestampNs ≤ turn.outside.nowNs 0) : TimelyFrom order := by
  obtain ⟨limiter, running, -, hturn⟩ | ⟨trigger, limiter, -, ⟨reason, -, hturn⟩ | ⟨-, hturn⟩⟩ :=
    runTurn_cases config state turn
  · rw [hturn] at h
    exact nomatch h
  · rw [hturn] at h
    exact nomatch h
  · rw [hturn] at h
    simp only [dispatchTrigger] at h
    obtain rfl := Option.some.inj h
    split
    · exact ⟨tTriggerRx_signAndDispatch _ trigger,
        signAndDispatch_timely hmono hpositive trigger htrigger⟩
    · exact ⟨tTriggerRx_processOneClob _ _ trigger,
        processOneClob_timely hmono hpositive trigger htrigger _⟩

/-- The stamps so far ascend up to the latest one, and the records so far are timely. -/
structure Stamped (latest : Nat) (past : History) : Prop where
  ascending : (past.stamped.map TriggerMessage.timestampNs).Pairwise (· ≤ ·)
  latest : ∀ trigger ∈ past.stamped, trigger.timestampNs ≤ latest
  timely : ∀ order ∈ past.dispatched, TimelyFrom order

theorem stamped_of_step (strategy : Strategy σ) (config : LoopConfig)
    (system : System σ feedCapacity) (past : History)
    (action : Action Order Signature Request) :
    ((step strategy config system action).2.foldl History.add past).stamped = past.stamped ∨
      ∃ nowNs trigger, action = .stampRecv nowNs ∧
        ((step strategy config system action).2.foldl History.add past).stamped =
          past.stamped ++ [restamp trigger nowNs] := by
  cases action with
  | publish snapshot => exact .inl rfl
  | bridgeRecv =>
      refine .inl ?_
      simp only [step, System.bridgeRecv]
      split
      · split <;> rfl
      · rfl
  | bridgeSend => exact .inl rfl
  | stopBridge => exact .inl rfl
  | runnerRecv =>
      refine .inl ?_
      simp only [step, System.runnerRecv]
      split
      · split
        · split <;> rfl
        · split <;> rfl
      · rfl
  | runnerSend => exact .inl rfl
  | stampRecv nowNs =>
      simp only [step, System.stampRecv]
      split
      · split
        · exact .inr ⟨nowNs, _, rfl, rfl⟩
        · split <;> exact .inl rfl
      · exact .inl rfl
  | stampSend => exact .inl rfl
  | stopStamper => exact .inl rfl
  | loopHead shutdown => exact .inl rfl
  | loopBody limiterNowNs outside =>
      refine .inl ?_
      simp only [step, System.loopBody]
      split
      · generalize trigger? _ = taken
        generalize (runTurn config system.loop _).2 = order
        cases taken <;> cases order <;> rfl
      · rfl

theorem Chronological.cons {latest : Nat} {action : Action Order Signature Request}
    {rest : List (Action Order Signature Request)}
    (h : Chronological latest (action :: rest)) :
    ∃ later, latest ≤ later ∧ Chronological later rest ∧
      (∀ nowNs, action = .stampRecv nowNs → later = nowNs) ∧
      ∀ limiterNowNs outside, action = .loopBody limiterNowNs outside →
        latest ≤ outside.nowNs 0 ∧ Monotone outside.nowNs ∧ ∀ i, 0 < outside.nowNs i := by
  cases action with
  | stampRecv nowNs =>
      refine ⟨nowNs, h.1, h.2, ?_, fun _ _ hturn => nomatch hturn⟩
      rintro _ ⟨⟩
      rfl
  | loopBody limiterNowNs outside =>
      refine ⟨latest, Nat.le_refl latest, h.2, fun _ hstamp => (nomatch hstamp), ?_⟩
      rintro _ _ ⟨⟩
      exact h.1
  | _ => exact ⟨latest, Nat.le_refl latest, h, fun _ hstamp => (nomatch hstamp),
      fun _ _ hturn => nomatch hturn⟩

theorem timely_of_step {past : History} {action : Action Order Signature Request} {latest : Nat}
    (hflows : Flows strategy start system past)
    (hlatest : ∀ trigger ∈ past.stamped, trigger.timestampNs ≤ latest)
    (htimely : ∀ order ∈ past.dispatched, TimelyFrom order)
    (hclock : ∀ limiterNowNs outside, action = .loopBody limiterNowNs outside →
      latest ≤ outside.nowNs 0 ∧ Monotone outside.nowNs ∧ ∀ i, 0 < outside.nowNs i) :
    ∀ order ∈ ((step strategy config system action).2.foldl History.add past).dispatched,
      TimelyFrom order := by
  have hnext : Flows strategy start (step strategy config system action).1
      ((step strategy config system action).2.foldl History.add past) := hflows.step action
  rcases step_loop strategy config system past action with
    ⟨_, -, -, hsame⟩ | ⟨limiterNowNs, outside, haction, -, -, hnew⟩
  · rwa [hsame]
  · obtain ⟨hfirst, hmono, hpositive⟩ := hclock _ _ haction
    rcases stamped_of_step strategy config system past action with hstamped | ⟨_, _, hstamp, -⟩
    · intro order horder
      have hbefore : order.trigger.timestampNs ≤ latest := by
        have htaken := hnext.dispatched.subset (List.mem_map_of_mem horder)
        have hmem := hnext.orders.taken_prefix.subset htaken
        rw [hstamped] at hmem
        exact hlatest _ hmem
      rw [hnew] at horder
      rcases List.mem_append.mp horder with hold | hlast
      · exact htimely order hold
      · exact timely_of_runTurn (Option.mem_toList.mp hlast) hmono hpositive
          (hbefore.trans hfirst)
    · rw [haction] at hstamp
      exact nomatch hstamp

theorem Stamped.step {latest : Nat} {past : History} (h : Stamped latest past)
    (hflows : Flows strategy start system past) {action : Action Order Signature Request}
    {rest : List (Action Order Signature Request)}
    (hclock : Chronological latest (action :: rest)) :
    ∃ later, Stamped later ((step strategy config system action).2.foldl History.add past) ∧
      Chronological later rest := by
  obtain ⟨later, hlater, hrest, hstamp, hturn⟩ := hclock.cons
  refine ⟨later, ⟨?_, ?_, timely_of_step hflows h.latest h.timely hturn⟩, hrest⟩
  all_goals
    rcases stamped_of_step strategy config system past action with
      hsame | ⟨nowNs, trigger, haction, hnew⟩
  · rw [hsame]
    exact h.ascending
  · rw [hnew, List.map_append, List.pairwise_append]
    refine ⟨h.ascending, List.pairwise_singleton _ _, ?_⟩
    intro time htime last hlast
    obtain ⟨earlier, hearlier, rfl⟩ := List.mem_map.mp htime
    rw [List.mem_singleton.mp hlast]
    exact (h.latest earlier hearlier).trans (hlater.trans_eq (hstamp nowNs haction))
  · rw [hsame]
    exact fun trigger htrigger => (h.latest trigger htrigger).trans hlater
  · rw [hnew]
    refine List.forall_mem_append.mpr ⟨?_, List.forall_mem_singleton.mpr ?_⟩
    · exact fun trigger htrigger => (h.latest trigger htrigger).trans hlater
    · exact (hstamp nowNs haction).ge

theorem stamped_run (strategy : Strategy σ) (config : LoopConfig) {past : History} {latest : Nat}
    {actions : List (Action Order Signature Request)}
    (hflows : Flows strategy start system past) (h : Stamped latest past)
    (hclock : Chronological latest actions) :
    ∃ later, Stamped later
      ((outputs (TriggerFlow.step strategy config) system actions).flatten.foldl History.add
        past) := by
  induction actions generalizing system past latest with
  | nil => exact ⟨latest, h⟩
  | cons action rest ih =>
      obtain ⟨later, hnext, hrest⟩ : ∃ later, Stamped later
          ((TriggerFlow.step strategy config system action).2.foldl History.add past) ∧
          Chronological later rest := h.step hflows hclock
      rw [outputs, List.flatten_cons, List.foldl_append]
      exact ih (hflows.step action) hnext hrest

/-- Over a clock that does not run backwards, the stamps of the triggers that reach the
execution loop ascend, and every order is dispatched with a record that begins with the
stamp of its trigger and whose times are in order and add up, whatever becomes of the
order. -/
theorem dispatches_timely (strategy : Strategy σ) (config : LoopConfig) (start : σ)
    (loop : LoopState) (actions : List (Action Order Signature Request))
    (hclock : Chronological 0 actions) :
    let origin : System σ feedCapacity := .start start loop
    let past := history strategy config origin actions
    (past.taken.map TriggerMessage.timestampNs).Pairwise (· ≤ ·) ∧
      ∀ order ∈ past.dispatched, TimelyFrom order := by
  intro origin past
  have hflows : Flows strategy start _ past := flows_run strategy config start loop actions
  obtain ⟨later, hstamped⟩ : ∃ later, Stamped later past :=
    stamped_run strategy config (flows_start strategy start loop)
      ⟨List.Pairwise.nil, by simp, by simp⟩ hclock
  exact ⟨hstamped.ascending.sublist (hflows.orders.taken_prefix.map _).sublist, hstamped.timely⟩

/-- The first of two orders is dispatched, and its record is timely. -/
theorem dispatches_timely_oneOrderLeft :
    let origin : System TriggerMaker 2 := .start tokenMaker oneOrderLeft
    let past := history (firingStrategy askRule) liveConfig origin
      (relayOnce 100 ++ relayOnce 150)
    past.taken.map TriggerMessage.timestampNs = [100, 150] ∧
      ∃ order ∈ past.dispatched, order.outcome.record.tTriggerRx = 100 ∧
        TimelyFrom order := by
  intro origin past
  have hclock : Chronological 0 (relayOnce 100 ++ relayOnce 150) := by
    have hreads : 100 ≤ accepting.nowNs 0 ∧ 150 ≤ accepting.nowNs 0 ∧
        Monotone accepting.nowNs ∧ ∀ i, 0 < accepting.nowNs i := by
      refine ⟨by decide, by decide, fun a b hless => Nat.add_le_add_left hless 200, ?_⟩
      intro i
      change 0 < 200 + i
      omega
    exact ⟨Nat.zero_le _, ⟨hreads.1, hreads.2.2⟩, by decide, hreads.2, trivial⟩
  have hstamps : past.dispatched.map (fun order => order.trigger.timestampNs) = [100] := by decide
  obtain ⟨order, horder, hstamp⟩ : ∃ order ∈ past.dispatched, order.trigger.timestampNs = 100 :=
    List.mem_map.mp (hstamps ▸ List.mem_singleton_self 100)
  have htimely : TimelyFrom order :=
    (dispatches_timely (firingStrategy askRule) liveConfig tokenMaker oneOrderLeft _ hclock).2
      order horder
  exact ⟨by decide, order, horder, htimely.stamp.trans hstamp, htimely⟩

end Clock

end Rtt.DispatchOnce
