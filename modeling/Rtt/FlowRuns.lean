import Rtt.DispatchTimes
import Rtt.ReplayTriggers
import Rtt.TriggerFlow

namespace Rtt.FlowRuns

open Rtt.Quote
open Rtt.PublicEvent
open Rtt.StrategyContract
open Rtt.Backtest
open Rtt.ReplayTriggers
open Rtt.ExecutionLoop
open Rtt.RelayLink
open Rtt.TriggerFlow
open Rtt.Machine

/-- What has happened so far, each kind in its order. -/
structure History where
  published : List OrderBookSnapshot := []
  bridged : List OrderBookSnapshot := []
  consumed : List OrderBookSnapshot := []
  fired : List TriggerMessage := []
  /-- The triggers that their bridge took, as they were before they were stamped. -/
  relayed : List TriggerMessage := []
  stamped : List TriggerMessage := []
  taken : List TriggerMessage := []
  dispatched : List Dispatched := []

def History.add (past : History) : Event → History
  | .published snapshot => { past with published := past.published ++ [snapshot] }
  | .bridged snapshot => { past with bridged := past.bridged ++ [snapshot] }
  | .consumed snapshot => { past with consumed := past.consumed ++ [snapshot] }
  | .fired trigger => { past with fired := past.fired ++ [trigger] }
  | .stamped trigger nowNs =>
      { past with
        relayed := past.relayed ++ [trigger]
        stamped := past.stamped ++ [restamp trigger nowNs] }
  | .taken trigger => { past with taken := past.taken ++ [trigger] }
  | .dispatched order => { past with dispatched := past.dispatched ++ [order] }

variable {σ : Type} {feedCapacity : Nat} {Order Signature Request : Type}

/-- What has happened in a run, sorted by where it happened. -/
def history (strategy : Strategy σ) (config : LoopConfig) (system : System σ feedCapacity)
    (actions : List (Action Order Signature Request)) : History :=
  (outputs (step strategy config) system actions).flatten.foldl History.add {}

/-- Everything published was bridged or lost to a lag in its order, or is in the feed. -/
def FeedCarries (feed : LossyChannel.Channel OrderBookSnapshot feedCapacity)
    (published bridged : List OrderBookSnapshot) : Prop :=
  ∃ left : List (LossyChannel.Departure OrderBookSnapshot),
    left.map LossyChannel.Departure.message ++ feed.backlog = published ∧
      LossyChannel.taken left = bridged

/-- What holds in every state of a run, with what has happened so far. -/
structure Flows (strategy : Strategy σ) (start : σ) (system : System σ feedCapacity)
    (past : History) : Prop where
  feed : FeedCarries system.feed past.published past.bridged
  snapshots : Carries system.snapshots past.bridged past.consumed
  strategy : past.consumed.foldl (snapshotStep strategy) { strategy := start, triggers := [] } =
    { strategy := system.strategy, triggers := past.fired }
  triggers : Carries system.triggers past.fired past.relayed
  stamps : past.stamped.map withoutTimestamp = past.relayed.map withoutTimestamp
  orders : Carries system.orders past.stamped past.taken
  dispatched : (past.dispatched.map Dispatched.trigger).Sublist past.taken

variable {strategy : Strategy σ} {config : LoopConfig} {start : σ}
  {system : System σ feedCapacity} {past : History}

theorem feedCarries_publish {feed : LossyChannel.Channel OrderBookSnapshot feedCapacity}
    {published bridged : List OrderBookSnapshot} (h : FeedCarries feed published bridged)
    (snapshot : OrderBookSnapshot) :
    FeedCarries (feed.send snapshot).1 (published ++ [snapshot]) bridged := by
  obtain ⟨left, rfl, rfl⟩ := h
  refine ⟨left ++ (feed.send snapshot).2.toList.map .lost, ?_, ?_⟩
  · rw [List.map_append, List.append_assoc, LossyChannel.send_conserves, List.append_assoc]
  · cases (feed.send snapshot).2 <;> simp [LossyChannel.taken, LossyChannel.Departure.taken?]

theorem feedCarries_recv {feed : LossyChannel.Channel OrderBookSnapshot feedCapacity}
    {published bridged : List OrderBookSnapshot} (h : FeedCarries feed published bridged) :
    FeedCarries feed.recv.1 published
      (bridged ++ LossyChannel.taken feed.recv.2.departures) := by
  obtain ⟨left, rfl, rfl⟩ := h
  refine ⟨left ++ feed.recv.2.departures, ?_, ?_⟩
  · rw [List.map_append, List.append_assoc, LossyChannel.recv_conserves]
  · rw [LossyChannel.taken, List.filterMap_append]
    rfl

theorem flows_start (strategy : Strategy σ) (start : σ) (loop : LoopState) :
    Flows strategy start (System.start start loop : System σ feedCapacity) {} where
  feed := ⟨[], rfl, rfl⟩
  snapshots := Carries.empty
  strategy := rfl
  triggers := Carries.empty
  stamps := rfl
  orders := Carries.empty
  dispatched := List.Sublist.refl _

/-- A step and what it adds to the past. -/
def Goes (strategy : Strategy σ) (start : σ) (past : History)
    (result : System σ feedCapacity × List Event) : Prop :=
  Flows strategy start result.1 (result.2.foldl History.add past)

theorem Flows.bridgeRecv (h : Flows strategy start system past) :
    Goes strategy start past system.bridgeRecv := by
  have hfeed := feedCarries_recv h.feed
  simp only [System.bridgeRecv]
  split
  · rename_i hidle
    split
    · rename_i snapshot hreceived
      rw [hreceived] at hfeed
      exact { h with feed := hfeed, snapshots := h.snapshots.offer hidle snapshot }
    all_goals
      rename_i hreceived
      rw [hreceived] at hfeed
      exact { h with feed := (List.append_nil past.bridged) ▸ hfeed }
  · exact h

theorem Flows.endRunner (h : Flows strategy start system past) :
    Flows strategy start system.endRunner past :=
  { h with snapshots := h.snapshots.closeReceiver, triggers := h.triggers.closeSender }

theorem Flows.endStamper (h : Flows strategy start system past) :
    Flows strategy start system.endStamper past :=
  { h with triggers := h.triggers.closeReceiver, orders := h.orders.closeSender }

theorem Flows.runnerRecv (h : Flows strategy start system past) :
    Goes strategy start past (system.runnerRecv strategy) := by
  have htake := h.snapshots.take
  simp only [System.runnerRecv]
  split
  · rename_i hidle
    split
    · rename_i snapshots snapshot htaken
      rw [htaken] at htake
      have hstrategy : (past.consumed ++ [snapshot]).foldl (snapshotStep strategy)
          { strategy := start, triggers := [] } =
            { strategy := (strategy.onBookUpdate system.strategy snapshot).1
              triggers := past.fired ++
                (strategy.onBookUpdate system.strategy snapshot).2.toList } := by
        rw [List.foldl_append, h.strategy]
        rfl
      split
      · rename_i trigger hfired
        rw [hfired] at hstrategy
        exact { h with
          snapshots := htake
          strategy := hstrategy
          triggers := h.triggers.offer hidle trigger }
      · rename_i hfired
        rw [hfired, Option.toList_none, List.append_nil] at hstrategy
        exact { h with snapshots := htake, strategy := hstrategy }
    · split
      · exact h.endRunner
      · exact h
  · exact h

theorem Flows.runnerSend (h : Flows strategy start system past) :
    Flows strategy start system.runnerSend past := by
  have hsent : Flows strategy start { system with triggers := system.triggers.deliver } past :=
    { h with triggers := h.triggers.deliver }
  simp only [System.runnerSend]
  split
  · exact hsent.endRunner
  · exact hsent

theorem Flows.stampRecv (h : Flows strategy start system past) (nowNs : Nat) :
    Goes strategy start past (system.stampRecv nowNs) := by
  have htake := h.triggers.take
  simp only [System.stampRecv]
  split
  · rename_i hidle
    split
    · rename_i triggers trigger htaken
      rw [htaken] at htake
      have hstamps : (past.stamped ++ [restamp trigger nowNs]).map withoutTimestamp =
          (past.relayed ++ [trigger]).map withoutTimestamp := by
        rw [List.map_append, List.map_append, h.stamps]
        rfl
      exact { h with
        triggers := htake
        stamps := hstamps
        orders := h.orders.offer hidle (restamp trigger nowNs) }
    · split
      · exact h.endStamper
      · exact h
  · exact h

theorem Flows.stampSend (h : Flows strategy start system past) :
    Flows strategy start system.stampSend past := by
  have hsent : Flows strategy start { system with orders := system.orders.deliver } past :=
    { h with orders := h.orders.deliver }
  simp only [System.stampSend]
  split
  · exact hsent.endStamper
  · exact hsent

theorem trigger_of_runTurn {state : LoopState} {turn : Turn Order Signature Request}
    {order : Dispatched} (h : (runTurn config state turn).2 = some order) :
    turn.received = .trigger order.trigger := by
  obtain ⟨limiter, running, -, hturn⟩ | ⟨trigger, limiter, hrecords, hrest⟩ :=
    runTurn_cases config state turn
  · rw [hturn] at h
    exact nomatch h
  · obtain ⟨-, -, hreceived, -⟩ := hrecords
    rcases hrest with ⟨reason, -, hturn⟩ | ⟨-, hturn⟩
    · rw [hturn] at h
      exact nomatch h
    · obtain ⟨presigned, outcome, hdispatch, -⟩ := dispatchTrigger_spec config turn.outside
        { state with
          limiter, guard := { inFlight := true }
          breaker := (recordOrder config state trigger).1 } trigger
      rw [hturn, hdispatch] at h
      rw [hreceived, ← Option.some.inj h]

theorem tryRecv_carries {orders : Link TriggerMessage channelCapacity}
    {offered taken : List TriggerMessage} (h : Carries orders offered taken) :
    Carries (tryRecv orders).1 offered (taken ++ (trigger? (tryRecv orders).2).toList) := by
  have htake := h.take
  simp only [tryRecv]
  split
  · rename_i htaken
    rwa [htaken] at htake
  · rename_i htaken
    rw [htaken] at htake
    split <;> exact htake

theorem Flows.setLoop (h : Flows strategy start system past) (loop : LoopState) :
    Flows strategy start (system.setLoop loop) past := by
  refine { h with orders := ?_ }
  rw [System.setLoop]
  split
  · exact h.orders
  · exact h.orders.closeReceiver

theorem Flows.loopHead (h : Flows strategy start system past) (shutdown : Bool) :
    Flows strategy start (system.loopHead shutdown) past := by
  rw [System.loopHead]
  split
  · exact h
  · split
    · exact { h with }
    · exact h.setLoop _

theorem Flows.loopBody (h : Flows strategy start system past) (limiterNowNs : Nat)
    (outside : ClobExecutor.Outside Order Signature Request) :
    Goes strategy start past (system.loopBody config limiterNowNs outside) := by
  rw [System.loopBody]
  split
  · obtain ⟨orders, received, hreceived⟩ : ∃ orders received,
        tryRecv system.orders = (orders, received) := ⟨_, _, rfl⟩
    obtain ⟨loop, order, hturn⟩ : ∃ loop order, runTurn config system.loop
        { shutdown := false, received, limiterNowNs, outside } = (loop, order) := ⟨_, _, rfl⟩
    have horders : Carries orders past.stamped (past.taken ++ (trigger? received).toList) := by
      have htaken := tryRecv_carries h.orders
      rwa [hreceived] at htaken
    have hdispatched : ((past.dispatched ++ order.toList).map Dispatched.trigger).Sublist
        (past.taken ++ (trigger? received).toList) := by
      rw [List.map_append]
      apply h.dispatched.append
      cases order with
      | none => exact List.nil_sublist _
      | some order =>
          obtain rfl : received = .trigger order.trigger :=
            trigger_of_runTurn (congrArg Prod.snd hturn)
          exact List.Sublist.refl _
    have hpast : ((trigger? received).toList.map Event.taken ++
        order.toList.map Event.dispatched).foldl History.add past =
          { past with
            taken := past.taken ++ (trigger? received).toList
            dispatched := past.dispatched ++ order.toList } := by
      cases trigger? received <;> cases order <;> simp [History.add]
    simp only [Goes, hreceived, hturn, hpast]
    apply Flows.setLoop
    exact { h with orders := horders, dispatched := hdispatched }
  · exact h

theorem Flows.step (h : Flows strategy start system past)
    (action : Action Order Signature Request) :
    Goes strategy start past (step strategy config system action) := by
  cases action with
  | publish snapshot => exact { h with feed := feedCarries_publish h.feed snapshot }
  | bridgeRecv => exact h.bridgeRecv
  | bridgeSend => exact { h with snapshots := h.snapshots.deliver }
  | stopBridge => exact { h with snapshots := h.snapshots.closeSender }
  | runnerRecv => exact h.runnerRecv
  | runnerSend => exact h.runnerSend
  | stampRecv nowNs => exact h.stampRecv nowNs
  | stampSend => exact h.stampSend
  | stopStamper =>
      rw [TriggerFlow.step, System.stopStamper]
      split
      · exact h.endStamper
      · exact h
  | loopHead shutdown => exact h.loopHead shutdown
  | loopBody limiterNowNs outside => exact h.loopBody limiterNowNs outside

theorem flows_run (strategy : Strategy σ) (config : LoopConfig) (start : σ) (loop : LoopState)
    (actions : List (Action Order Signature Request)) :
    let system : System σ feedCapacity := .start start loop
    Flows strategy start (exec (step strategy config) system actions)
      (history strategy config system actions) := by
  refine run_induction (TriggerFlow.step strategy config) (P := fun _ _ => True)
    (motive := fun _ system out =>
      Flows strategy start system (out.flatten.foldl History.add {}))
    (flows_start strategy start loop) ?_ actions (along_true _ actions)
  intro _ system out action h _
  rw [List.flatten_append, List.flatten_singleton, List.foldl_append]
  exact h.step action

end Rtt.FlowRuns
